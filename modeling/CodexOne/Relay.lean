import CodexOne.ChatStream
import CodexOne.EchoedIdentifiers
import CodexOne.Lib.JsonViews

/-!
Passing a response on and answering with it.

`streamResponse` restores the identifiers of a stream line by line as it arrives, and the other
consumers restore each line before they decode it. No identifier is found across the end of a line,
so both are restoring the whole stream.
-/

namespace CodexOne

open GoStrings Lines JsonString SSE ResponseStream

namespace Identity

variable {k : Identity}

lemma newline_not_mem (ps : List Piece) : '\n' ∉ renderPieces ps := fun h =>
  absurd (printable_renderPieces h) (by decide)

lemma newline_not_mem_rule {r : Text × Text} (h : r ∈ written (spelled k.codeRules)) :
    '\n' ∉ r.1 ∧ '\n' ∉ r.2 := by
  obtain ⟨s, -, rfl⟩ := List.mem_map.mp h
  exact ⟨newline_not_mem _, newline_not_mem _⟩

lemma exposePayload_nil (k : Identity) : k.exposePayload [] = [] := by
  rw [exposePayload_eq, substitute_nil]

/-- What is before the end of a line, and what is behind it, are restored by themselves. -/
lemma exposePayload_break (hfill : k.FilledTable) (s t : Text) :
    k.exposePayload (s ++ '\n' :: t) = k.exposePayload s ++ '\n' :: k.exposePayload t := by
  simp only [exposePayload_eq]
  refine substitute_break (fun r hr => ?_) (fun r hr => (newline_not_mem_rule hr).1) (Nat.zero_le _)
  obtain ⟨p, hp, rfl⟩ := List.mem_map.mp hr
  obtain ⟨q, hq, rfl⟩ := List.mem_map.mp hp
  exact renderPieces_ne_nil (by simpa using (hfill.rules q hq).1)

lemma newline_not_mem_exposePayload {t : Text} (h : '\n' ∉ t) : '\n' ∉ k.exposePayload t := by
  rw [exposePayload_eq]
  exact not_mem_substitute (fun r hr => (newline_not_mem_rule hr).2) h 0

lemma isLine_exposePayload (hfill : k.FilledTable) {l : Text} (h : IsLine l) :
    IsLine (k.exposePayload l) := by
  obtain ⟨t, ht, rfl⟩ := h
  refine ⟨k.exposePayload t, newline_not_mem_exposePayload ht, ?_⟩
  rw [exposePayload_break hfill, exposePayload_nil]

lemma exposePayload_flatten (hfill : k.FilledTable) {lines : List Text}
    (h : ∀ l ∈ lines, IsLine l) (rest : Text) :
    k.exposePayload (lines.flatten ++ rest) =
      (lines.map k.exposePayload).flatten ++ k.exposePayload rest := by
  induction lines with
  | nil => rfl
  | cons l lines ih =>
    obtain ⟨s, -, rfl⟩ := h l List.mem_cons_self
    have hrest := ih fun l hl => h l (List.mem_cons_of_mem _ hl)
    rw [List.flatten_cons, List.append_assoc, List.append_assoc, List.singleton_append,
      exposePayload_break hfill, hrest, List.map_cons, List.flatten_cons, exposePayload_break hfill,
      exposePayload_nil]
    simp

lemma readLines_exposePayload (hfill : k.FilledTable) (t : Text) :
    readLines (k.exposePayload t) =
      ((readLines t).1.map k.exposePayload, k.exposePayload (readLines t).2) := by
  obtain ⟨hlines, hrest⟩ := readLines_isLine t
  conv_lhs => rw [← readLines_flatten t, exposePayload_flatten hfill hlines]
  refine readLines_lines (fun l hl => ?_) (newline_not_mem_exposePayload hrest)
  obtain ⟨l', hl', rfl⟩ := List.mem_map.mp hl
  exact isLine_exposePayload hfill (hlines l' hl')

lemma exposed_eq (k : Identity) : exposed k.exposePayload = k.exposePayload := by
  funext line
  unfold exposed
  split_ifs with h
  · rw [h, exposePayload_nil]
  · rfl

lemma chunks_exposePayload (hfill : k.FilledTable) (t : Text) :
    chunks (k.exposePayload t) = (chunks t).map k.exposePayload := by
  rw [chunks, readLines_exposePayload hfill, chunks, List.map_append]
  rfl

lemma body_streamResponse (hfill : k.FilledTable) (stream : Text) :
    (streamResponse k.exposePayload stream).body = k.exposePayload stream := by
  have hlines := exposePayload_flatten hfill (readLines_isLine stream).1 (readLines stream).2
  rw [readLines_flatten] at hlines
  rw [hlines, streamResponse, exposed_eq, chunks, List.map_append, List.flatten_append]
  simp

lemma payloads_body (hfill : k.FilledTable) (stream : Text) :
    payloads id (k.exposePayload stream) = payloads k.exposePayload stream := by
  have hid : exposed id = id := by
    funext line
    unfold exposed
    split_ifs with h
    · rw [h, id]
    · rfl
  rw [payloads, payloads, hid, exposed_eq, chunks_exposePayload hfill, List.map_map]
  rfl

end Identity

namespace ResponseStream

def isText (r : Raw) : Bool :=
  match r.tree with
  | .str _ => true
  | .null => true
  | _ => false

def textDelta (payload : Text) : Bool :=
  (Raw.parse payload).all fun r =>
    (r.pairs.getD []).all fun m => !fieldNamed m.1 "delta" || isText m.2

lemma string_snd (r : Raw) (s : String) : (Decoder.string r s).2 = isText r := by
  unfold Decoder.string isText
  split <;> simp_all

def eventFits (name : String) (r : Raw) : Bool := name = "response" || isText r

lemma not_delta {key : String} (h : fieldNamed key "delta" = true) (name : String)
    (hname : equalFold "delta" name = false) : fieldNamed key name = false := by
  refine Bool.eq_false_iff.mpr fun hn => ?_
  rw [Decoder.fieldNamed_iff] at h hn
  rw [equalFold, decide_eq_false_iff_not] at hname
  exact hname (h.symm.trans hn)

lemma observed_snd (r : Raw) (e : ObservedEvent) (c : CollectedEvent) :
    (ObservedEvent.decoder r e).2 = ((CollectedEvent.decoder r c).2 &&
      (r.pairs.getD []).all fun m => !fieldNamed m.1 "delta" || isText m.2) := by
  rw [ObservedEvent.decoder, CollectedEvent.decoder, Decoder.struct_snd eventFits ?_ r e,
    Decoder.struct_snd eventFits ?_ r c]
  · cases r.pairs with
    | none => simp
    | some ms =>
      rw [Bool.eq_iff_iff, Bool.and_eq_true, Option.getD_some]
      dsimp only [Option.elim]
      simp only [List.all_eq_true, ← forall_and]
      refine forall_congr' fun m => ?_
      refine imp_congr_right fun _ => ?_
      by_cases hdelta : fieldNamed m.1 "delta" = true
      · -- the delta is a field of this decoder alone, and has to be a text
        have htype := not_delta hdelta "type" (by decide)
        have hresponse := not_delta hdelta "response" (by decide)
        simp [hdelta, htype, hresponse, eventFits]
      · -- any other member is read by both decoders or by neither
        rw [Bool.not_eq_true] at hdelta
        cases htype : fieldNamed m.1 "type" <;> cases hresponse : fieldNamed m.1 "response" <;>
          simp [hdelta, htype, hresponse]
  · simp [eventFits, string_snd, Decoder.into, Decoder.raw]
  · simp [eventFits, string_snd, Decoder.into, Decoder.raw]

def ObservedEvent.collected (e : ObservedEvent) : CollectedEvent := ⟨e.type, e.response⟩

lemma observed_views :
    Decoder.Views ObservedEvent.collected ObservedEvent.decoder CollectedEvent.decoder :=
  Decoder.struct_views (by unfold Decoder.Separate; decide) (by decide) (by
    simp only [List.forall_mem_cons]
    exact ⟨.views _ (.head _) rfl fun _ _ => rfl, .keeps (by decide) fun _ _ => rfl,
      .views _ (.tail _ (.head _)) rfl fun _ _ => rfl, fun _ h => by cases h⟩)

lemma observe_eq (usage : TokenUsage) (payload : Text) : observe usage payload =
    if textDelta payload then (collectEvent ⟨none, usage, none⟩ payload).usage else usage := by
  unfold observe collectEvent CollectedEvent.decode Decoder.unmarshal textDelta
  cases Raw.parse payload with
  | none => rfl
  | some r =>
    have hsnd := observed_snd r ⟨"", "", none⟩ ⟨"", none⟩
    have hfst := observed_views r ⟨"", "", none⟩
    have hstart : ObservedEvent.collected ⟨"", "", none⟩ = ⟨"", none⟩ := rfl
    rw [hstart] at hfst
    dsimp only [Option.all_some]
    rw [hsnd]
    by_cases hok : (CollectedEvent.decoder r ⟨"", none⟩).2 = true
    · rw [hok, Bool.true_and, if_pos rfl, ← hfst]
      split_ifs <;> rfl
    · -- an event with a field of another type counts in neither way
      rw [Bool.not_eq_true] at hok
      rw [hok]
      simp

lemma usage_collectEvent (c : Collected) (payload : Text) :
    (collectEvent c payload).usage = (collectEvent ⟨none, c.usage, none⟩ payload).usage := by
  unfold collectEvent
  split <;> rfl

lemma usage_foldl (ps : List Text) (c : Collected) :
    ps.foldl observe c.usage = ((ps.filter textDelta).foldl collectEvent c).usage := by
  induction ps generalizing c with
  | nil => rfl
  | cons p ps ih =>
    rw [List.foldl_cons, observe_eq, List.filter_cons]
    split_ifs
    · rw [← usage_collectEvent, ih]
      rfl
    · exact ih c

end ResponseStream

/-- **Relayed responses.** Let an identity be used for any calls, and a stream be passed on with it
or be answered with. The body is the stream with its identifiers restored as a whole, and its lines
are those of the stream, each one restored. So a client that collects the body finds what the
gateway collects from the stream, and its chat chunks would be those that the gateway writes. The
usage that is recorded is that of the events whose deltas are texts. -/
theorem responses_relayed {d : Digests} {i : Identity} {key : Option String} {headers : Header}
    {object : Obj} {remap : Bool} (hnew : Identity.new d key headers object remap = .ok i)
    (calls : List Identity.Call) (stream : Text) :
    let expose := (calls.foldl (Identity.Call.after d) i).exposePayload
    let relayed := streamResponse expose stream
    relayed.body = expose stream ∧
      readLines relayed.body = ((readLines stream).1.map expose, expose (readLines stream).2) ∧
      collectResponse id relayed.body = collectResponse expose stream ∧
      (∀ model now includeUsage, Chat.streamChatFrames id model now includeUsage relayed.body =
        Chat.streamChatFrames expose model now includeUsage stream) ∧
      relayed.usage =
        (((payloads expose stream).filter textDelta).foldl collectEvent .start).usage := by
  intro expose relayed
  have hfill := (Identity.filledTable_new hnew).run (d := d) calls
  have hbody : relayed.body = expose stream := Identity.body_streamResponse hfill stream
  have hpayloads : payloads id relayed.body = payloads expose stream := by
    rw [hbody]
    exact Identity.payloads_body hfill stream
  refine ⟨hbody, ?_, ?_, fun model now includeUsage => ?_, usage_foldl _ .start⟩
  · rw [hbody]
    exact Identity.readLines_exposePayload hfill stream
  · rw [collectResponse, hpayloads]
    rfl
  · rw [Chat.streamChatFrames, hpayloads]
    rfl

/-- Two lines that name an item, one of them cut off. -/
def itemLines (id : String) : Text :=
  "data: \x7b\"item_id\":\"".toList ++ id.toList ++ "\"\x7d\ndata: ".toList ++ id.toList

/-- The id of a message comes back in both lines. -/
theorem responses_relayed_sample : ∃ i,
    Identity.new Digests.zero (some "key") [] (Identity.messageNamed "x") false = .ok i ∧
      (streamResponse (Identity.Call.after Digests.zero i
        (.sanitizeCodexInputItems 1 (Identity.messageNamed "x"))).exposePayload
          (itemLines "msg_x")).body = itemLines "x" := by
  obtain ⟨i, hi, h⟩ := Identity.ok_of_any
    (x := Identity.new Digests.zero (some "key") [] (Identity.messageNamed "x") false)
    (p := fun i => decide ((Identity.Call.after Digests.zero i
      (.sanitizeCodexInputItems 1 (Identity.messageNamed "x"))).exposePayload
        (itemLines "msg_x") = itemLines "x")) (by decide +kernel)
  exact ⟨i, hi, (responses_relayed hi [.sanitizeCodexInputItems 1 (Identity.messageNamed "x")]
    (itemLines "msg_x")).1.trans (of_decide_eq_true h)⟩

end CodexOne
