import CodexOne.ChatAnswer
import CodexOne.ChatGrammar

/-!
Streaming and not streaming, a chat client gets the same answer.

The translation of the events is followed up to the last one: what has been sent are the deltas of
the steps, under the indexes that the calls have in the response.
-/

namespace CodexOne.Chat

open GoStrings ResponseStream

lemma toList_join (texts : List String) : (join texts "").toList = texts.flatMap String.toList := by
  induction texts with
  | nil => rfl
  | cons t rest ih =>
    cases rest with
    | nil => simp [join]
    | cons u rest =>
      rw [join, String.intercalate_cons_cons, String.toList_append, String.toList_append,
        List.flatMap_cons, ← ih, join, String.toList_empty, List.append_nil]

lemma join_filter (texts : List String) : join (texts.filter (· ≠ "")) "" = join texts "" := by
  apply String.toList_injective
  rw [toList_join, toList_join]
  induction texts with
  | nil => rfl
  | cons t rest ih =>
    by_cases h : t = ""
    · simpa [h] using ih
    · simpa [h] using ih

lemma filter_eq_nil_iff (texts : List String) :
    texts.filter (· ≠ "") = [] ↔ join texts "" = "" := by
  refine ⟨fun h => by rw [← join_filter, h]; rfl, fun h => ?_⟩
  have hl := congrArg String.toList h
  rw [toList_join, String.toList_empty, List.flatMap_eq_nil_iff] at hl
  rw [List.filter_eq_nil_iff]
  intro t ht
  have : t = "" := String.toList_injective (hl t ht)
  simp [this]

section Conversion

variable {raw : Raw} {item : OutputItem} {o : Obj}

lemma partTexts_eq {type : String} (parts : Json) {texts : List String}
    (h : List.Forall₂ (IsPart type) parts.items texts) :
    partTexts (some type) parts = texts.filter (· ≠ "") ∧
      partTexts none parts = texts.filter (· ≠ "") := by
  unfold partTexts
  revert h
  generalize parts.items = ps
  intro h
  induction h with
  | nil => exact ⟨rfl, rfl⟩
  | cons hpart _ ih =>
    obtain ⟨htype, htext⟩ := hpart
    simp only [List.filterMap_cons, Option.all_some, Option.all_none, htype, htext,
      JsonOf.text_str, decide_true, if_true, List.filter_cons] at ih ⊢
    rw [ih.1, ih.2]
    exact ⟨rfl, rfl⟩

lemma reasoningParts_eq (h : item.Reads raw) (ho : raw.unmarshalObject = some o) :
    reasoningParts o = item.reasoningTexts.filter (· ≠ "") := by
  obtain ⟨p, hp, h⟩ := h
  obtain rfl := Option.some_inj.mp (ho.symm.trans hp)
  unfold reasoningParts
  cases item with
  | reasoning summary content =>
    obtain ⟨htype, hsummary, hcontent⟩ := h
    rw [if_pos htype, (partTexts_eq _ hsummary).1, (partTexts_eq _ hcontent).1,
      ← List.filter_append]
    rfl
  | message texts =>
    rw [if_neg (by rw [h.1]; decide)]
    rfl
  | functionCall callID name arguments =>
    rw [if_neg (by rw [h.1]; decide)]
    rfl

lemma textParts_eq (h : item.Reads raw) (ho : raw.unmarshalObject = some o) :
    textParts o = item.texts.filter (· ≠ "") := by
  obtain ⟨p, hp, h⟩ := h
  obtain rfl := Option.some_inj.mp (ho.symm.trans hp)
  unfold textParts
  cases item with
  | reasoning summary content =>
    rw [if_neg (by rw [h.1]; decide)]
    rfl
  | message texts =>
    obtain ⟨htype, hcontent, hparts⟩ := h
    rw [if_pos htype, hcontent]
    exact (partTexts_eq (.arr (Obj.val o "content").items) hparts).2
  | functionCall callID name arguments =>
    rw [if_neg (by rw [h.1]; decide)]
    rfl

lemma toolCalls_eq (h : item.Reads raw) (ho : raw.unmarshalObject = some o) :
    toolCalls o = item.call.toList := by
  obtain ⟨p, hp, h⟩ := h
  obtain rfl := Option.some_inj.mp (ho.symm.trans hp)
  unfold toolCalls
  cases item with
  | reasoning summary content =>
    rw [if_neg (by rw [h.1]; decide)]
    rfl
  | message texts =>
    rw [if_neg (by rw [h.1]; decide)]
    rfl
  | functionCall callID name arguments =>
    obtain ⟨htype, hid, hname, harguments⟩ := h
    rw [if_pos htype, hid, hname, harguments]
    rfl

lemma flatMap_reads {β : Type} {f : Obj → List β} {g : OutputItem → List β}
    (hfg : ∀ raw item o, OutputItem.Reads raw item → raw.unmarshalObject = some o → f o = g item)
    {output : List Raw} {items : List OutputItem} (h : List.Forall₂ OutputItem.Reads output items) :
    (output.filterMap Raw.unmarshalObject).flatMap f = items.flatMap g := by
  induction h with
  | nil => rfl
  | cons hr _ ih =>
    obtain ⟨o, ho, -⟩ := id hr
    rw [List.filterMap_cons, ho, List.flatMap_cons, List.flatMap_cons, ih, hfg _ _ _ hr ho]

end Conversion

lemma filter_flatMap {α : Type} (f : α → List String) (l : List α) :
    (l.flatMap fun a => (f a).filter (· ≠ "")) = (l.flatMap f).filter (· ≠ "") := by
  induction l with
  | nil => rfl
  | cons a l ih => rw [List.flatMap_cons, List.flatMap_cons, List.filter_append, ih]

lemma flatMap_call (items : List OutputItem) :
    (items.flatMap fun item => item.call.toList) = items.filterMap OutputItem.call := by
  induction items with
  | nil => rfl
  | cons item items ih =>
    rw [List.flatMap_cons, ih, List.filterMap_cons]
    cases item.call <;> rfl

section Calls

variable {items : List OutputItem} {i j : ℕ}

/-- The number of calls before an item, which is the index of a call in the answer. -/
def callIndex (items : List OutputItem) (i : ℕ) : ℕ :=
  ((items.take i).filterMap OutputItem.call).length

def IsCall (items : List OutputItem) (i : ℕ) : Prop := (items[i]?.bind OutputItem.call).isSome

lemma callIndex_succ (items : List OutputItem) (i : ℕ) :
    callIndex items (i + 1) =
      callIndex items i + (items[i]?.bind OutputItem.call).toList.length := by
  rw [callIndex, List.take_add_one, List.filterMap_append, List.length_append, callIndex]
  cases hi : items[i]? with
  | none => rfl
  | some item => cases hc : item.call <;> simp [hc]

lemma callIndex_mono (items : List OutputItem) : Monotone (callIndex items) :=
  monotone_nat_of_le_succ fun i => by
    rw [callIndex_succ]
    exact Nat.le_add_right _ _

lemma callIndex_lt (h : IsCall items i) (hij : i < j) : callIndex items i < callIndex items j := by
  have hle := callIndex_mono items hij
  rw [callIndex_succ] at hle
  obtain ⟨c, hc⟩ := Option.isSome_iff_exists.mp h
  rw [hc] at hle
  exact hle

lemma callIndex_inj (hi : IsCall items i) (hj : IsCall items j)
    (h : callIndex items i = callIndex items j) : i = j := by
  rcases Nat.lt_trichotomy i j with hlt | heq | hlt
  · exact absurd h (callIndex_lt hi hlt).ne
  · exact heq
  · exact absurd h (callIndex_lt hj hlt).ne'

lemma callIndex_length (items : List OutputItem) :
    callIndex items items.length = (items.filterMap OutputItem.call).length := by
  rw [callIndex, List.take_length]

lemma lt_length_of_isCall (h : IsCall items i) : i < items.length := by
  by_contra hge
  rw [IsCall, List.getElem?_eq_none (Nat.not_lt.mp hge)] at h
  cases h

lemma exists_call {k : ℕ} {c : ToolCall} (h : (items.filterMap OutputItem.call)[k]? = some c) :
    ∃ i, items[i]?.bind OutputItem.call = some c ∧ callIndex items i = k := by
  induction items generalizing k with
  | nil => cases h
  | cons item items ih =>
    cases hc : item.call with
    | none =>
      rw [List.filterMap_cons, hc] at h
      obtain ⟨i, hi, hk⟩ := ih h
      exact ⟨i + 1, hi, by simpa [callIndex, hc] using hk⟩
    | some d =>
      rw [List.filterMap_cons, hc] at h
      cases k with
      | zero => exact ⟨0, by simpa [hc] using h, rfl⟩
      | succ k =>
        obtain ⟨i, hi, hk⟩ := ih h
        exact ⟨i + 1, hi, by simpa [callIndex, hc] using hk⟩

end Calls

/-! ### Following the steps -/

def deltaOf (items : List OutputItem) : Step → Option Delta
  | .added index =>
    match items[index]? with
    | some (.functionCall callID name _) => some (.toolCall (callIndex items index) callID name)
    | _ => none
  | .text delta => some (.content delta)
  | .reasoning delta => if delta = "" then none else some (.reasoning delta)
  | .arguments index delta => some (.arguments (callIndex items index) delta)

/-- The translation of decoded events, one after another. -/
def translateEvents (includeUsage : Bool) : List ChatEvent → ChatStreamState →
    List Frame × ChatStreamState
  | [], s => ([], s)
  | e :: es, s =>
    let first := translate includeUsage e s
    let others := translateEvents includeUsage es first.2
    (first.1 ++ others.1, others.2)

lemma translateAll_eq {includeUsage : Bool} {payloads : List Text} {es : List ChatEvent}
    (h : payloads.map ChatEvent.decode = es.map some) (s : ChatStreamState) :
    translateAll includeUsage payloads s = translateEvents includeUsage es s := by
  induction payloads generalizing es s with
  | nil =>
    cases es with
    | nil => rfl
    | cons e es => cases h
  | cons payload payloads ih =>
    cases es with
    | nil => cases h
    | cons e es =>
      obtain ⟨hd, hrest⟩ := List.cons.inj h
      rw [translateAll, translateEvents, translateChatEvent, hd]
      dsimp only
      rw [ih hrest]

lemma translateEvents_append (includeUsage : Bool) (es fs : List ChatEvent)
    (s : ChatStreamState) :
    translateEvents includeUsage (es ++ fs) s =
      ((translateEvents includeUsage es s).1 ++
        (translateEvents includeUsage fs (translateEvents includeUsage es s).2).1,
        (translateEvents includeUsage fs (translateEvents includeUsage es s).2).2) := by
  induction es generalizing s with
  | nil => rfl
  | cons e es ih =>
    rw [List.cons_append, translateEvents, ih, translateEvents, List.append_assoc]

/-- The state when `n` items have been added. -/
structure Follows (items : List OutputItem) (n : ℕ) (s : ChatStreamState) : Prop where
  role : s.roleSent = true
  next : s.nextTool = callIndex items n
  size : s.tools.length = s.nextTool
  tools : ∀ i < n, IsCall items i → s.tools.lookup (i : Int) = some (callIndex items i)

section Steps

variable {items : List OutputItem} {n : ℕ} {s : ChatStreamState} {includeUsage : Bool}

lemma sendAfterRole_of_sent (h : s.roleSent = true) (delta : Delta) :
    s.sendAfterRole delta = ([.chunk s.head delta none], s) := by
  rw [ChatStreamState.sendAfterRole, ChatStreamState.ensureRole, if_pos h]
  rfl

lemma Follows.addCall (hs : Follows items n s) (hcall : IsCall items n) :
    Follows items (n + 1) (s.addTool n) := by
  refine ⟨hs.role, ?_, ?_, fun i hi hc => ?_⟩
  · obtain ⟨c, hc⟩ := Option.isSome_iff_exists.mp hcall
    rw [callIndex_succ, hc]
    exact congrArg (· + 1) hs.next
  · exact congrArg (· + 1) hs.size
  · rw [ChatStreamState.addTool, List.lookup_cons]
    rcases Nat.lt_succ_iff_lt_or_eq.mp hi with hlt | rfl
    · have hne : ((i : Int) == (n : Int)) = false := by simp; omega
      rw [hne]
      exact hs.tools i hlt hc
    · simp [hs.next]

lemma Follows.addOther (hs : Follows items n s) (hcall : ¬ IsCall items n) :
    Follows items (n + 1) s := by
  refine ⟨hs.role, ?_, hs.size, fun i hi hc => ?_⟩
  · rw [callIndex_succ, Option.not_isSome_iff_eq_none.mp hcall]
    exact hs.next
  · rcases Nat.lt_succ_iff_lt_or_eq.mp hi with hlt | rfl
    · exact hs.tools i hlt hc
    · exact absurd hc hcall

lemma translate_added {e : ChatEvent} (hs : Follows items n s)
    (he : Step.IsSaidBy items e (.added n)) :
    ∃ t, translate includeUsage e s =
        ((deltaOf items (.added n)).toList.map (.chunk s.head · none), t) ∧
      Follows items (n + 1) t ∧ t.head = s.head ∧ t.usage = s.usage := by
  obtain ⟨hresp, hkind, hindex, hitem⟩ := he
  rw [translate, Option.isNone_iff_eq_none.mp hresp, hkind, deltaOf]
  simp only [ChatStreamState.observe, sendAfterRole_of_sent hs.role]
  unfold Step.IsAddedBy at hitem
  have hother (hcall : ¬ IsCall items n) (htype : e.itemType ≠ "function_call") :
      ∃ t, (if e.itemType ≠ "function_call" then ([], s)
          else ([Frame.chunk s.head (.toolCall s.nextTool e.itemCallID e.itemName) none],
            s.addTool e.outputIndex)) = ([], t) ∧
        Follows items (n + 1) t ∧ t.head = s.head ∧ t.usage = s.usage :=
    ⟨s, if_pos htype, hs.addOther hcall, rfl, rfl⟩
  cases hi : items[n]? with
  | none =>
    rw [hi] at hitem
    exact hother (by rw [IsCall, hi]; decide) hitem
  | some item =>
    rw [hi] at hitem
    cases item with
    | functionCall callID name text =>
      obtain ⟨htype, hid, hname⟩ := hitem
      rw [if_neg (not_not.mpr htype), hid, hname, hs.next, hindex]
      refine ⟨_, rfl, hs.addCall ?_, rfl, rfl⟩
      rw [IsCall, hi]
      rfl
    | reasoning _ _ | message _ => exact hother (by rw [IsCall, hi]; exact Bool.noConfusion) hitem

lemma translate_delta {e : ChatEvent} {step : Step} (hs : Follows items n s)
    (he : Step.IsSaidBy items e step) (hadd : ∀ i, step ≠ .added i)
    (harg : ∀ i delta, step = .arguments i delta → i < n ∧ IsCall items i) :
    translate includeUsage e s = ((deltaOf items step).toList.map (.chunk s.head · none), s) := by
  rw [translate]
  cases step with
  | added i => exact absurd rfl (hadd i)
  | text delta =>
    obtain ⟨hresp, hkind, hdelta⟩ := he
    rw [Option.isNone_iff_eq_none.mp hresp, hkind, hdelta]
    exact sendAfterRole_of_sent hs.role _
  | reasoning delta =>
    obtain ⟨hresp, hkind, hdelta⟩ := he
    rw [Option.isNone_iff_eq_none.mp hresp, hkind, hdelta, deltaOf]
    simp only [ChatStreamState.observe, sendAfterRole_of_sent hs.role]
    split <;> rfl
  | arguments i delta =>
    obtain ⟨hi, hc⟩ := harg i delta rfl
    obtain ⟨hresp, hkind, hindex, hdelta⟩ := he
    rw [Option.isNone_iff_eq_none.mp hresp, hkind, hindex, hdelta]
    simp only [ChatStreamState.observe, hs.tools i hi hc]
    rfl

lemma translate_steps (includeUsage : Bool) {steps : List (Step × ChatEvent)}
    (hsaid : ∀ x ∈ steps, Step.IsSaidBy items x.2 x.1)
    (hord : Step.Ordered items n (steps.map Prod.fst)) (hs : Follows items n s) :
    ∃ t, translateEvents includeUsage (steps.map Prod.snd) s =
        (((steps.map Prod.fst).filterMap (deltaOf items)).map (.chunk s.head · none), t) ∧
      Follows items items.length t ∧ t.head = s.head ∧ t.usage = s.usage := by
  induction steps generalizing n s with
  | nil =>
    rw [List.map_nil, Step.Ordered] at hord
    exact ⟨s, rfl, hord ▸ hs, rfl, rfl⟩
  | cons x steps ih =>
    obtain ⟨step, e⟩ := x
    have he := hsaid (step, e) (List.mem_cons_self ..)
    have hsaid' : ∀ x ∈ steps, Step.IsSaidBy items x.2 x.1 := fun x hx =>
      hsaid x (List.mem_cons_of_mem _ hx)
    rw [List.map_cons] at hord
    -- one step, then the others from the state it leaves
    have chain : ∀ {m : ℕ} {t : ChatStreamState},
        translate includeUsage e s =
          ((deltaOf items step).toList.map (.chunk s.head · none), t) →
        Follows items m t → t.head = s.head → t.usage = s.usage →
        Step.Ordered items m (steps.map Prod.fst) →
        ∃ u, translateEvents includeUsage (((step, e) :: steps).map Prod.snd) s =
            (((((step, e) :: steps).map Prod.fst).filterMap (deltaOf items)).map
              (Frame.chunk s.head · none), u) ∧
          Follows items items.length u ∧ u.head = s.head ∧ u.usage = s.usage := by
      intro m t htr ht hhead husage hord
      obtain ⟨u, hu, hfollows, hh, hus⟩ := ih hsaid' hord ht
      refine ⟨u, ?_, hfollows, hh.trans hhead, hus.trans husage⟩
      rw [List.map_cons, translateEvents, htr, List.map_cons, List.filterMap_cons]
      dsimp only
      rw [hu, hhead]
      cases deltaOf items step <;> rfl
    cases step with
    | added i =>
      obtain ⟨rfl, -, hord⟩ := hord
      obtain ⟨t, htr, ht, hhead, husage⟩ := translate_added hs he
      exact chain htr ht hhead husage hord
    | arguments i delta =>
      obtain ⟨hi, hc, hord⟩ := hord
      refine chain (translate_delta hs he nofun fun j d h => ?_) hs rfl rfl hord
      cases h
      exact ⟨hi, hc⟩
    | text delta | reasoning delta =>
      exact chain (translate_delta hs he nofun nofun) hs rfl rfl hord

end Steps

section Fields

open Decoder

def CompletedResponse.metadata (r : CompletedResponse) : ResponseMetadata :=
  ⟨r.id, r.model, r.createdAt⟩

lemma metadata_views : Views CompletedResponse.metadata CompletedResponse.decoder
    ResponseMetadata.decoder :=
  struct_views (by unfold Separate; decide) (by decide) (by
    simp only [List.forall_mem_cons]
    refine ⟨.views _ (.head _) rfl fun _ _ => rfl, .views _ (.tail _ (.head _)) rfl fun _ _ => rfl,
      .views _ (.tail _ (.tail _ (.head _))) rfl fun _ _ => rfl,
      .keeps (by decide) fun _ _ => rfl, .keeps (by decide) (struct_keeps ?_), nofun⟩
    simp only [List.forall_mem_cons]
    refine ⟨fun _ _ => rfl, fun _ _ => rfl, fun _ _ => rfl, struct_keeps ?_, nofun⟩
    simp only [List.forall_mem_cons]
    exact ⟨fun _ _ => rfl, nofun⟩)

/-- The numbers of a usage payload, and those of the completed response. -/
abbrev Tokens := Int × Int × Option Int

def usageTokens (p : UsagePayload) : Tokens :=
  (p.inputTokens, p.outputTokens, p.reasoningTokens)

def CompletedResponse.tokens (r : CompletedResponse) : Tokens :=
  (r.inputTokens, r.outputTokens, r.reasoningTokens)

def detailFields : List (String × Decoder Tokens) :=
  [("reasoning_tokens", .into (·.2.2) (fun v t => (t.1, t.2.1, v)) .int64Ptr)]

def tokenFields : List (String × Decoder Tokens) :=
  [("input_tokens", .into (·.1) (fun v t => (v, t.2)) .int64),
   ("output_tokens", .into (·.2.1) (fun v t => (t.1, v, t.2.2)) .int64),
   ("output_tokens_details", .struct detailFields)]

def tokensDecoder : Decoder Tokens := .struct [("usage", .struct tokenFields)]

lemma separate_single {σ : Type} (f : String × Decoder σ) : Separate [f] := by
  simp [Separate]

lemma separate_tokenFields : Separate tokenFields := by
  unfold Separate tokenFields
  decide

lemma completed_tokens_views : Views CompletedResponse.tokens CompletedResponse.decoder
    tokensDecoder := by
  have details : Views CompletedResponse.tokens (Decoder.struct [("reasoning_tokens",
      .into (·.reasoningTokens) (fun v (r : CompletedResponse) => { r with reasoningTokens := v })
        .int64Ptr)]) (Decoder.struct detailFields) :=
    struct_views (separate_single _) (by decide) (by
      simp only [List.forall_mem_cons]
      exact ⟨.views _ (.head _) rfl fun _ _ => rfl, nofun⟩)
  refine struct_views (separate_single _) (by decide) ?_
  simp only [List.forall_mem_cons]
  refine ⟨.keeps (by decide) fun _ _ => rfl, .keeps (by decide) fun _ _ => rfl,
    .keeps (by decide) fun _ _ => rfl, .keeps (by decide) fun _ _ => rfl,
    .views _ (.head _) rfl (struct_views separate_tokenFields (by decide) ?_), nofun⟩
  simp only [List.forall_mem_cons]
  exact ⟨.views _ (.head _) rfl fun _ _ => rfl, .views _ (.tail _ (.head _)) rfl fun _ _ => rfl,
    .keeps (by decide) fun _ _ => rfl, .views _ (.tail _ (.tail _ (.head _))) rfl details, nofun⟩

lemma usage_tokens_views : Views usageTokens UsagePayload.decoder tokensDecoder := by
  have details : Views usageTokens (Decoder.struct [("reasoning_tokens",
      .into (·.reasoningTokens) (fun v (p : UsagePayload) => { p with reasoningTokens := v })
        .int64Ptr)]) (Decoder.struct detailFields) :=
    struct_views (separate_single _) (by decide) (by
      simp only [List.forall_mem_cons]
      exact ⟨.views _ (.head _) rfl fun _ _ => rfl, nofun⟩)
  refine struct_views (separate_single _) (by decide) ?_
  simp only [List.forall_mem_cons]
  refine ⟨.keeps (by decide) (struct_keeps ?_),
    .views _ (.head _) rfl (struct_views separate_tokenFields (by decide) ?_), nofun⟩
  · simp only [List.forall_mem_cons]
    exact ⟨fun _ _ => rfl, nofun⟩
  · simp only [List.forall_mem_cons]
    exact ⟨.views _ (.head _) rfl fun _ _ => rfl, .views _ (.tail _ (.head _)) rfl fun _ _ => rfl,
      .views _ (.tail _ (.tail _ (.head _))) rfl details, nofun⟩

lemma totalTokens_isInt64 (raw : Raw) :
    IsInt64 (CompletedResponse.decoder raw .zero).1.totalTokens := by
  refine struct_induct (P := fun r : CompletedResponse => IsInt64 r.totalTokens) ?_ raw .zero
    ⟨by decide, by decide⟩
  simp only [List.forall_mem_cons]
  refine ⟨fun _ _ h => h, fun _ _ h => h, fun _ _ h => h, fun _ _ h => h, struct_induct ?_, nofun⟩
  simp only [List.forall_mem_cons]
  refine ⟨fun _ _ h => h, fun _ _ h => h, fun _ _ h => int64_preserves _ _ h, struct_induct ?_,
    nofun⟩
  simp only [List.forall_mem_cons]
  exact ⟨fun _ _ h => h, nofun⟩

variable {raw : Raw} {response : CompletedResponse}

lemma decoded_eq (h : CompletedResponse.decode raw = some response) :
    (CompletedResponse.decoder raw .zero).1 = response := by
  rw [CompletedResponse.decode] at h
  split at h
  · exact Option.some_inj.mp h
  · cases h

lemma metadata_of_decoded (h : CompletedResponse.decode raw = some response) :
    ResponseMetadata.decode raw = response.metadata := by
  rw [← decoded_eq h]
  exact (metadata_views raw .zero).symm

lemma tokens_of_decoded (h : CompletedResponse.decode raw = some response) :
    usageTokens (UsagePayload.decoder raw .zero).1 = response.tokens := by
  rw [← decoded_eq h]
  exact usage_tokens_views.eq completed_tokens_views raw .zero .zero rfl

end Fields

/-! ### What the deltas make up -/

section Assembly

variable {items : List OutputItem} {steps : List Step} {n : ℕ}

lemma added_of_ordered (h : Step.Ordered items n steps) {i : ℕ} (hn : n ≤ i)
    (hi : i < items.length) : .added i ∈ steps := by
  induction steps generalizing n with
  | nil =>
    rw [Step.Ordered] at h
    omega
  | cons step steps ih =>
    cases step with
    | added j =>
      obtain ⟨rfl, -, h⟩ := h
      rcases Nat.eq_or_lt_of_le hn with rfl | hlt
      · exact List.mem_cons_self ..
      · exact List.mem_cons_of_mem _ (ih h hlt)
    | arguments j delta => exact List.mem_cons_of_mem _ (ih h.2.2 hn)
    | text delta | reasoning delta => exact List.mem_cons_of_mem _ (ih h hn)

lemma isCall_of_ordered (h : Step.Ordered items n steps) {i : ℕ} {delta : String}
    (hm : .arguments i delta ∈ steps) : IsCall items i := by
  induction steps generalizing n with
  | nil => cases hm
  | cons step steps ih =>
    rcases List.mem_cons.mp hm with rfl | hrest
    · exact h.2.1
    · cases step with
      | added j => exact ih h.2.2 hrest
      | arguments j d => exact ih h.2.2 hrest
      | text d | reasoning d => exact ih h hrest

lemma filterMap_content (items : List OutputItem) (steps : List Step) :
    (steps.filterMap (deltaOf items)).filterMap Delta.content? = steps.filterMap Step.text? := by
  rw [List.filterMap_filterMap]
  refine List.filterMap_congr fun step _ => ?_
  cases step with
  | added i =>
    rw [deltaOf]
    split <;> rfl
  | reasoning delta =>
    rw [deltaOf]
    split <;> rfl
  | text delta | arguments i delta => rfl

lemma filterMap_reasoning (items : List OutputItem) (steps : List Step) :
    (steps.filterMap (deltaOf items)).filterMap Delta.reasoning? =
      (steps.filterMap Step.reasoning?).filter (· ≠ "") := by
  rw [List.filterMap_filterMap, ← List.filterMap_eq_filter, List.filterMap_filterMap]
  refine List.filterMap_congr fun step _ => ?_
  cases step with
  | added i =>
    rw [deltaOf]
    split <;> rfl
  | reasoning delta =>
    rw [deltaOf]
    by_cases h : delta = "" <;> simp [h, Step.reasoning?, Delta.reasoning?, Option.guard]
  | text delta | arguments i delta => rfl

lemma filterMap_arguments (h : Step.Ordered items n steps) {i : ℕ} (hi : IsCall items i) :
    (steps.filterMap (deltaOf items)).filterMap (Delta.arguments? (callIndex items i)) =
      steps.filterMap (Step.arguments? i) := by
  rw [List.filterMap_filterMap]
  refine List.filterMap_congr fun step hm => ?_
  cases step with
  | added j =>
    rw [deltaOf]
    split <;> rfl
  | reasoning delta =>
    rw [deltaOf]
    split <;> rfl
  | text delta => rfl
  | arguments j delta =>
    have hj := isCall_of_ordered h hm
    by_cases hij : j = i
    · simp [deltaOf, Delta.arguments?, Step.arguments?, hij]
    · have hne : callIndex items j ≠ callIndex items i := fun he => hij (callIndex_inj hj hi he)
      simp [deltaOf, Delta.arguments?, Step.arguments?, hij, hne]

lemma head_call (h : Step.Ordered items 0 steps) {i : ℕ} {callID name text : String}
    (hi : items[i]? = some (.functionCall callID name text)) :
    ((steps.filterMap (deltaOf items)).filterMap (Delta.call? (callIndex items i))).head? =
      some (callID, name) := by
  have hcall : IsCall items i := by
    rw [IsCall, hi]
    rfl
  -- every call under this index is that of item `i`, and one is sent
  have hall : ∀ x ∈ (steps.filterMap (deltaOf items)).filterMap
      (Delta.call? (callIndex items i)), x = (callID, name) := by
    intro x hx
    rw [List.filterMap_filterMap, List.mem_filterMap] at hx
    obtain ⟨step, hm, hx⟩ := hx
    cases step with
    | added j =>
      rw [deltaOf] at hx
      split at hx
      · rename_i c d t hj
        rw [Option.bind_some, Delta.call?] at hx
        split at hx
        · rename_i he
          have hjc : IsCall items j := by
            rw [IsCall, hj]
            rfl
          rw [callIndex_inj hjc hcall he, hi] at hj
          cases hj
          exact (Option.some_inj.mp hx).symm
        · cases hx
      · cases hx
    | reasoning delta =>
      rw [deltaOf] at hx
      split at hx <;> cases hx
    | text delta | arguments j delta => cases hx
  have hm : (callID, name) ∈ (steps.filterMap (deltaOf items)).filterMap
      (Delta.call? (callIndex items i)) := by
    rw [List.filterMap_filterMap, List.mem_filterMap]
    refine ⟨.added i, added_of_ordered h (Nat.zero_le i) (lt_length_of_isCall hcall), ?_⟩
    rw [deltaOf, hi]
    simp [Delta.call?]
  cases hl : (steps.filterMap (deltaOf items)).filterMap (Delta.call? (callIndex items i)) with
  | nil => rw [hl] at hm; cases hm
  | cons x rest =>
    rw [hl] at hall
    rw [List.head?_cons, hall x (List.mem_cons_self ..)]

lemma mem_indexes (h : Step.Ordered items 0 steps) (k : ℕ) :
    k ∈ (steps.filterMap (deltaOf items)).filterMap Delta.index? ↔
      k < (items.filterMap OutputItem.call).length := by
  rw [List.filterMap_filterMap, List.mem_filterMap, ← callIndex_length]
  constructor
  · -- an index that is sent numbers a call before the end
    rintro ⟨step, hm, hk⟩
    have below : ∀ i, IsCall items i → callIndex items i < callIndex items items.length :=
      fun i hi => callIndex_lt hi (lt_length_of_isCall hi)
    cases step with
    | added i =>
      rw [deltaOf] at hk
      split at hk
      · rename_i heq
        rw [Option.bind_some, Delta.index?, Option.some_inj] at hk
        refine hk ▸ below i ?_
        rw [IsCall, heq]
        rfl
      · cases hk
    | reasoning delta =>
      rw [deltaOf] at hk
      split at hk <;> cases hk
    | text delta => cases hk
    | arguments i delta =>
      rw [deltaOf, Option.bind_some, Delta.index?, Option.some_inj] at hk
      exact hk ▸ below i (isCall_of_ordered h hm)
  · -- every call has been added, so its index is sent
    intro hk
    rw [callIndex_length] at hk
    obtain ⟨i, hi, rfl⟩ := exists_call (List.getElem?_eq_getElem hk)
    obtain ⟨item, hitem, hcall⟩ := Option.bind_eq_some_iff.mp hi
    have hlt := (List.getElem?_eq_some_iff.mp hitem).1
    refine ⟨.added i, added_of_ordered h (Nat.zero_le i) hlt, ?_⟩
    cases item with
    | functionCall callID name text => rw [deltaOf, hitem]; rfl
    | reasoning _ _ | message _ => cases hcall

/-- **The calls put together** are those of the response, in order. -/
lemma assembled_calls (h : Step.Ordered items 0 steps)
    (harguments : ∀ i callID name text, items[i]? = some (.functionCall callID name text) →
      join (steps.filterMap (Step.arguments? i)) "" = text) :
    ((((steps.filterMap (deltaOf items)).filterMap Delta.index?).dedup).insertionSort
        (· ≤ ·)).map (assembleCall (steps.filterMap (deltaOf items))) =
      items.filterMap OutputItem.call := by
  have hsorted : (((steps.filterMap (deltaOf items)).filterMap Delta.index?).dedup).insertionSort
      (· ≤ ·) = List.range (items.filterMap OutputItem.call).length := by
    refine List.Perm.eq_of_pairwise' (List.pairwise_insertionSort _ _) List.pairwise_le_range
      ((List.perm_insertionSort _ _).trans ?_)
    rw [List.perm_ext_iff_of_nodup (List.nodup_dedup _) List.nodup_range]
    intro k
    rw [List.mem_dedup, mem_indexes h, List.mem_range]
  rw [hsorted]
  refine List.ext_getElem? fun k => ?_
  rw [List.getElem?_map]
  by_cases hk : k < (items.filterMap OutputItem.call).length
  · rw [List.getElem?_range hk, Option.map_some]
    have hget := List.getElem?_eq_getElem hk
    obtain ⟨i, hi, hik⟩ := exists_call hget
    obtain ⟨item, hitem, hcall⟩ := Option.bind_eq_some_iff.mp hi
    rw [hget, ← hcall]
    cases item with
    | functionCall callID name text =>
      have hc : IsCall items i := by rw [IsCall, hitem]; rfl
      rw [← hik, assembleCall, head_call h hitem, filterMap_arguments h hc,
        harguments i callID name text hitem]
      rfl
    | reasoning _ _ | message _ => cases hcall
  · rw [List.getElem?_eq_none (by simpa using hk), List.getElem?_eq_none (Nat.not_lt.mp hk)]
    rfl

end Assembly

/-- The frames of an announced response: the role, the deltas of the steps, the end. -/
def framesOf (first last : ChunkHead) (deltas : List Delta) (finish : String) (usage : ChatUsage) :
    List Frame :=
  .chunk first .role none :: deltas.map (.chunk first · none) ++
    [.chunk last .empty (some finish), .usage last usage, .done]

lemma filterMap_framesOf {β : Type} (f : Frame → Option β) (first last : ChunkHead)
    (deltas : List Delta) (finish : String) (usage : ChatUsage) :
    (framesOf first last deltas finish usage).filterMap f =
      (f (.chunk first .role none)).toList ++ deltas.filterMap (fun d => f (.chunk first d none)) ++
        ((f (.chunk last .empty (some finish))).toList ++ (f (.usage last usage)).toList ++
          (f .done).toList) := by
  rw [framesOf, List.filterMap_append, List.filterMap_cons, List.filterMap_map]
  congr 1
  · cases f (.chunk first .role none) <;> rfl
  · simp only [List.filterMap_cons, List.filterMap_nil]
    cases f (.chunk last .empty (some finish)) <;> cases f (.usage last usage) <;>
      cases f .done <;> rfl

lemma filterMap_between {β : Type} {f : Delta → Option β} (hrole : f .role = none)
    (hempty : f .empty = none) (deltas : List Delta) :
    (Delta.role :: deltas ++ [Delta.empty]).filterMap f = deltas.filterMap f := by
  rw [List.filterMap_append, List.filterMap_cons, hrole, List.filterMap_cons, hempty,
    List.filterMap_nil, List.append_nil]

lemma assemble_framesOf (first last : ChunkHead) (deltas : List Delta) (finish : String)
    (usage : ChatUsage) :
    assemble (framesOf first last deltas finish usage) =
      { id := last.id, model := last.model, created := last.created
        content := join (deltas.filterMap Delta.content?) ""
        reasoning := if deltas.filterMap Delta.reasoning? = [] then none
          else some (join (deltas.filterMap Delta.reasoning?) "")
        toolCalls := (((deltas.filterMap Delta.index?).dedup).insertionSort (· ≤ ·)).map
          (assembleCall deltas)
        finishReason := some finish
        usage := some usage } := by
  have hdeltas : (framesOf first last deltas finish usage).filterMap Frame.delta? =
      .role :: deltas ++ [.empty] := by
    rw [filterMap_framesOf]
    simp [Frame.delta?]
  have hhead : ((framesOf first last deltas finish usage).filterMap Frame.head?).getLast? =
      some last := by
    rw [filterMap_framesOf, List.getLast?_append]
    rfl
  have hfinish : (framesOf first last deltas finish usage).filterMap Frame.finish? =
      [finish] := by
    rw [filterMap_framesOf]
    simp [Frame.finish?]
  have husage : (framesOf first last deltas finish usage).filterMap Frame.usage? = [usage] := by
    rw [filterMap_framesOf]
    simp [Frame.usage?]
  have hcall : assembleCall (.role :: deltas ++ [.empty]) = assembleCall deltas := by
    funext index
    rw [assembleCall, filterMap_between rfl rfl, filterMap_between rfl rfl]
    rfl
  rw [assemble, hdeltas, hhead, hfinish, husage, hcall, filterMap_between rfl rfl,
    filterMap_between rfl rfl, filterMap_between rfl rfl]
  rfl

/-! ### The two answers -/

namespace Announcement

variable (a : Announcement)

lemma answer_converted (now : Int) : (convertCompleted now a.response).answer =
    { id := a.response.id, model := a.response.model
      created := if a.response.createdAt = 0 then now else a.response.createdAt
      content := join (a.items.flatMap (·.texts)) ""
      reasoning := if (a.items.flatMap (·.reasoningTexts)).filter (· ≠ "") = [] then none
        else some (join (a.items.flatMap (·.reasoningTexts)) "")
      toolCalls := a.items.filterMap OutputItem.call
      finishReason := some (if a.items.filterMap OutputItem.call = [] then "stop"
        else "tool_calls")
      usage := some ⟨a.response.inputTokens, a.response.outputTokens, a.response.totalTokens,
        a.response.reasoningTokens⟩ } := by
  have htexts := flatMap_reads (fun _ _ _ hr ho => textParts_eq hr ho) a.listed
  have hreasoning := flatMap_reads (fun _ _ _ hr ho => reasoningParts_eq hr ho) a.listed
  have hcalls := flatMap_reads (fun _ _ _ hr ho => toolCalls_eq hr ho) a.listed
  rw [filter_flatMap] at htexts hreasoning
  rw [flatMap_call] at hcalls
  rw [convertCompleted, Completion.answer]
  dsimp only
  rw [htexts, hreasoning, hcalls, join_filter, join_filter]

def opened (fallbackModel : String) (now : Int) : ChatStreamState :=
  { (ChatStreamState.start fallbackModel now).observe a.created.response with roleSent := true }

variable (fallbackModel : String) (now : Int)

lemma translate_created (includeUsage : Bool) :
    translate includeUsage a.created (.start fallbackModel now) =
      ([.chunk (a.opened fallbackModel now).head .role none], a.opened fallbackModel now) := by
  have hkind : a.created.kind = .created := by
    rw [ChatEvent.kind, a.creates.1]
    rfl
  have hrole : ((ChatStreamState.start fallbackModel now).observe
      a.created.response).roleSent = false := ChatStreamState.observe_roleSent _ _
  rw [translate, hkind]
  dsimp only
  rw [ChatStreamState.ensureRole, if_neg (by rw [hrole]; decide)]
  rfl

lemma follows_opened : Follows a.items 0 (a.opened fallbackModel now) := by
  unfold opened
  cases a.created.response <;> exact ⟨rfl, rfl, rfl, fun i hi => absurd hi (Nat.not_lt_zero i)⟩

lemma opened_names {r : Raw} (h : a.created.response = some r) :
    (a.opened fallbackModel now).id = a.response.id ∧
      (a.response.model ≠ "" → (a.opened fallbackModel now).model = a.response.model) := by
  have hf := a.creates.2 r h
  rw [opened, h, ChatStreamState.observe]
  dsimp only
  rw [hf.id, hf.model]
  refine ⟨?_, fun hm => if_pos hm⟩
  split
  · rfl
  · rename_i hid
    exact (not_not.mp hid).symm

lemma opened_id (h : a.response.id = "") : (a.opened fallbackModel now).id = "" := by
  cases hr : a.created.response with
  | none =>
    rw [opened, hr]
    rfl
  | some r => rw [(a.opened_names fallbackModel now hr).1, h]

lemma opened_usage :
    ((a.opened fallbackModel now).usage.inputTokens = 0 ∨
        (a.opened fallbackModel now).usage.inputTokens = a.response.inputTokens) ∧
      ((a.opened fallbackModel now).usage.outputTokens = 0 ∨
        (a.opened fallbackModel now).usage.outputTokens = a.response.outputTokens) ∧
      ((a.opened fallbackModel now).usage.hasReasoningTokens = true →
        a.response.reasoningTokens =
          some (a.opened fallbackModel now).usage.reasoningTokens) := by
  cases hr : a.created.response with
  | none =>
    rw [opened, hr]
    exact ⟨.inl rfl, .inl rfl, nofun⟩
  | some r =>
    have hf := a.creates.2 r hr
    rw [opened, hr]
    exact ⟨hf.input, hf.output, hf.reasoning⟩

lemma head_completed {t : ChatStreamState} (hhead : t.head = (a.opened fallbackModel now).head)
    (hmodel : a.response.model ≠ "") (hcreated : a.response.createdAt ≠ 0) :
    (t.observe (some a.raw)).head = ⟨a.response.id, a.response.model, a.response.createdAt⟩ := by
  have hid : t.id = (a.opened fallbackModel now).id := congrArg ChunkHead.id hhead
  rw [ChatStreamState.observe, metadata_of_decoded a.decoded, ChatStreamState.head,
    CompletedResponse.metadata]
  dsimp only
  rw [if_pos hmodel, if_pos hcreated, hid]
  split
  · rfl
  · rename_i hnot
    rw [a.opened_id fallbackModel now (not_not.mp hnot), not_not.mp hnot]

lemma chatUsage_completed {t : ChatStreamState}
    (husage : t.usage = (a.opened fallbackModel now).usage)
    (hread : (UsagePayload.decoder a.raw .zero).2 = true)
    (hinput : 0 ≤ a.response.inputTokens) (houtput : 0 ≤ a.response.outputTokens)
    (htotal : a.response.totalTokens = a.response.inputTokens + a.response.outputTokens) :
    (t.observe (some a.raw)).chatUsage =
      ⟨a.response.inputTokens, a.response.outputTokens, a.response.totalTokens,
        a.response.reasoningTokens⟩ := by
  obtain ⟨hin, hout, hreason⟩ := a.opened_usage fallbackModel now
  rw [← husage] at hin hout hreason
  have htokens := tokens_of_decoded a.decoded
  have hpayloadIn : (UsagePayload.decoder a.raw .zero).1.inputTokens = a.response.inputTokens :=
    congrArg Prod.fst htokens
  have hpayloadOut : (UsagePayload.decoder a.raw .zero).1.outputTokens =
      a.response.outputTokens := congrArg (·.2.1) htokens
  have hpayloadReason : (UsagePayload.decoder a.raw .zero).1.reasoningTokens =
      a.response.reasoningTokens := congrArg (·.2.2) htokens
  have hmerge : (t.observe (some a.raw)).usage =
      t.usage.merge (UsagePayload.decoder a.raw .zero).1 := by
    rw [ChatStreamState.observe, parseResponseUsage]
    exact if_pos hread
  have hinput' : (t.observe (some a.raw)).usage.inputTokens = a.response.inputTokens := by
    rw [hmerge, TokenUsage.merge, hpayloadIn]
    dsimp only
    split <;> omega
  have houtput' : (t.observe (some a.raw)).usage.outputTokens = a.response.outputTokens := by
    rw [hmerge, TokenUsage.merge, hpayloadOut]
    dsimp only
    split <;> omega
  have hsum : addInt64 a.response.inputTokens a.response.outputTokens =
      a.response.totalTokens := by
    obtain ⟨hlow, hhigh⟩ := totalTokens_isInt64 a.raw
    rw [decoded_eq a.decoded] at hlow hhigh
    rw [addInt64, ← htotal]
    exact Int.bmod_eq_of_le (by omega) (by omega)
  rw [ChatStreamState.chatUsage, hinput', houtput', hsum, hmerge, TokenUsage.merge,
    hpayloadReason]
  -- what the first event said about reasoning stays when the last one says nothing
  cases hr : a.response.reasoningTokens with
  | some n => rfl
  | none =>
    rw [hr] at hreason
    cases hhas : t.usage.hasReasoningTokens with
    | true => cases hreason hhas
    | false => rfl

lemma translate_events (hmodel : a.response.model ≠ "") (hcreated : a.response.createdAt ≠ 0)
    (hread : (UsagePayload.decoder a.raw .zero).2 = true)
    (hinput : 0 ≤ a.response.inputTokens) (houtput : 0 ≤ a.response.outputTokens)
    (htotal : a.response.totalTokens = a.response.inputTokens + a.response.outputTokens) :
    (translateEvents true a.events (.start fallbackModel now)).1 =
      framesOf (a.opened fallbackModel now).head
        ⟨a.response.id, a.response.model, a.response.createdAt⟩
        ((a.steps.map Prod.fst).filterMap (deltaOf a.items))
        (if a.items.filterMap OutputItem.call = [] then "stop" else "tool_calls")
        ⟨a.response.inputTokens, a.response.outputTokens, a.response.totalTokens,
          a.response.reasoningTokens⟩ := by
  obtain ⟨t, hsteps, hfollows, hhead, husage⟩ :=
    translate_steps true a.said a.ordered (a.follows_opened fallbackModel now)
  have hkind : a.completed.kind = .completion := by
    rw [ChatEvent.kind, a.completes.1]
    rfl
  have hrole : (t.observe (some a.raw)).roleSent = true :=
    (t.observe_roleSent _).trans hfollows.role
  have htools : (t.observe (some a.raw)).tools = [] ↔ a.items.filterMap OutputItem.call = [] := by
    rw [← List.length_eq_zero_iff, ← List.length_eq_zero_iff, ← callIndex_length, ← hfollows.next,
      ← hfollows.size]
    rfl
  rw [events, List.cons_append, translateEvents, a.translate_created fallbackModel now]
  dsimp only
  rw [translateEvents_append, hsteps, translateEvents, translateEvents, translate, hkind,
    a.completes.2]
  dsimp only
  rw [ChatStreamState.ensureRole, if_pos hrole, if_pos rfl,
    a.head_completed fallbackModel now hhead hmodel hcreated,
    a.chatUsage_completed fallbackModel now husage hread hinput houtput htotal, framesOf]
  simp only [htools, List.nil_append, List.cons_append, List.append_nil]

/-- **Streaming and not streaming agree.** Whatever way the events announce a response, if it names
its model and `parseResponseUsage` can read it, the chunks of the stream make up the answer that
the response is converted into; and when the first event carries the response, every chunk
names it. -/
theorem streaming_agrees (hmodel : a.response.model ≠ "") (hcreated : a.response.createdAt ≠ 0)
    (hread : (UsagePayload.decoder a.raw .zero).2 = true)
    (hinput : 0 ≤ a.response.inputTokens) (houtput : 0 ≤ a.response.outputTokens)
    (htotal : a.response.totalTokens = a.response.inputTokens + a.response.outputTokens)
    {payloads : List Text} (hpayloads : payloads.map ChatEvent.decode = a.events.map some) :
    ∃ completion, convertChatResponse now a.raw = some completion ∧
      assemble (translateAll true payloads (.start fallbackModel now)).1 = completion.answer ∧
      (a.created.response.isSome →
        ∀ head ∈ (translateAll true payloads (.start fallbackModel now)).1.filterMap Frame.head?,
          head.id = completion.id ∧ head.model = completion.model) := by
  refine ⟨convertCompleted now a.response, by rw [convertChatResponse, a.decoded]; rfl, ?_, ?_⟩
  · rw [translateAll_eq hpayloads, a.translate_events fallbackModel now hmodel hcreated hread hinput
      houtput htotal, assemble_framesOf, a.answer_converted, assembled_calls a.ordered a.arguments,
      filterMap_content, a.texts, filterMap_reasoning, join_filter, a.reasoning, if_neg hcreated]
    simp only [filter_eq_nil_iff, a.reasoning]
  · intro hcarries head hhead
    obtain ⟨r, hr⟩ := Option.isSome_iff_exists.mp hcarries
    obtain ⟨hid, hname⟩ := a.opened_names fallbackModel now hr
    rw [translateAll_eq hpayloads, a.translate_events fallbackModel now hmodel hcreated hread hinput
      houtput htotal, filterMap_framesOf] at hhead
    simp only [Frame.head?, Option.toList_some, Option.toList_none, List.append_nil,
      List.mem_append, List.mem_singleton, List.mem_filterMap, Option.some_inj] at hhead
    rcases hhead with (rfl | ⟨_, _, rfl⟩) | rfl | rfl
    · exact ⟨hid, hname hmodel⟩
    · exact ⟨hid, hname hmodel⟩
    · exact ⟨rfl, rfl⟩
    · exact ⟨rfl, rfl⟩

end Announcement

section Samples

def textOf (fields : Obj) : Text := marshal (.obj fields)

@[irreducible] def eventOf (fields : Obj) : ChatEvent :=
  (ChatEvent.decode (textOf fields)).getD .zero

@[irreducible] def rawOf (fields : Obj) : Raw := (eventOf fields).response.getD .null

@[irreducible] def responseOf (fields : Obj) : CompletedResponse :=
  (CompletedResponse.decode (rawOf fields)).getD .zero

lemma eq_some_getD {α : Type} {o : Option α} (h : o.isSome) (d : α) : o = some (o.getD d) := by
  cases o with
  | none => cases h
  | some a => rfl

/-! A text that has been marshalled is read as the value it was made of, so the samples are
evaluated without their texts. -/

def readEvent (fields : Obj) : Option ChatEvent :=
  let read := ChatEvent.decoder (.ofJson (.obj fields)) .zero
  if read.2 then some read.1 else none

def readRaw (fields : Obj) : Raw := (((readEvent fields).getD .zero).response).getD .null

lemma decode_marshalled (fields : Obj) : ChatEvent.decode (textOf fields) = readEvent fields := by
  rw [ChatEvent.decode, Decoder.unmarshal, textOf, parse_marshal]
  rfl

lemma eventOf_eq (fields : Obj) : eventOf fields = (readEvent fields).getD .zero := by
  rw [eventOf, decode_marshalled]

lemma rawOf_eq (fields : Obj) : rawOf fields = readRaw fields := by
  rw [rawOf, eventOf_eq, readRaw]

lemma responseOf_eq (fields : Obj) :
    responseOf fields = (CompletedResponse.decode (readRaw fields)).getD .zero := by
  rw [responseOf, rawOf_eq]

lemma decode_textOf (fields : List Obj) (h : ∀ o ∈ fields, (readEvent o).isSome) :
    (fields.map textOf).map ChatEvent.decode = (fields.map eventOf).map some := by
  rw [List.map_map, List.map_map]
  refine List.map_congr_left fun o ho => ?_
  rw [Function.comp_apply, Function.comp_apply, decode_marshalled, eventOf_eq]
  exact eq_some_getD (h o ho) _

lemma translateAll_marshalled (fallback : String) (fields : List Obj)
    (h : ∀ o ∈ fields, (readEvent o).isSome) :
    translateAll true (fields.map textOf) (.start fallback 0) =
      translateEvents true (fields.map fun o => (readEvent o).getD .zero) (.start fallback 0) := by
  rw [translateAll_eq (decode_textOf fields h), funext eventOf_eq]

def usageOf (input output total : Int) : Json :=
  .obj [("input_tokens", number input), ("output_tokens", number output),
    ("total_tokens", number total)]

/-- A response with reasoning, a text and a call. -/
def lookup : List OutputItem :=
  [.reasoning ["check "] ["inputs"], .message ["done", " safely"],
    .functionCall "call_1" "lookup" "[1]"]

def lookupCreated : Obj :=
  [("type", .str "response.created"),
    ("response", .obj [("id", .str "resp_1"), ("model", .str "gpt")])]

def lookupSteps : List (Step × Obj) :=
  let added (i : Int) (item : Obj) : Obj :=
    [("type", .str "response.output_item.added"), ("output_index", number i), ("item", .obj item)]
  let said (type delta : String) : Obj := [("type", .str type), ("delta", .str delta)]
  let arguments (delta : String) : Obj :=
    ("output_index", number 2) :: said "response.function_call_arguments.delta" delta
  [(.added 0, added 0 [("type", .str "reasoning")]),
    (.reasoning "check ", said "response.reasoning_summary_text.delta" "check "),
    (.reasoning "inputs", said "response.reasoning_text.delta" "inputs"),
    (.added 1, added 1 [("type", .str "message")]),
    (.added 2, added 2 [("type", .str "function_call"), ("call_id", .str "call_1"),
      ("name", .str "lookup")]),
    (.text "done sa", said "response.output_text.delta" "done sa"),
    (.arguments 2 "[", arguments "["), (.text "fely", said "response.output_text.delta" "fely"),
    (.arguments 2 "1]", arguments "1]")]

def lookupCompleted : Obj :=
  let part (type text : String) : Json := .obj [("type", .str type), ("text", .str text)]
  [("type", .str "response.completed"),
    ("response", .obj [("id", .str "resp_1"), ("model", .str "gpt"), ("created_at", number 7),
      ("output", .arr
        [.obj [("type", .str "reasoning"), ("summary", .arr [part "summary_text" "check "]),
          ("content", .arr [part "reasoning_text" "inputs"])],
        .obj [("type", .str "message"),
          ("content", .arr [part "output_text" "done", part "output_text" " safely"])],
        .obj [("type", .str "function_call"), ("call_id", .str "call_1"),
          ("name", .str "lookup"), ("arguments", .str "[1]")]]),
      ("usage", usageOf 10 4 14)])]

lemma lookup_reads :
    let response := (CompletedResponse.decode (readRaw lookupCompleted)).getD .zero
    let created := (readEvent lookupCreated).getD .zero
    let completed := (readEvent lookupCompleted).getD .zero
    (CompletedResponse.decode (readRaw lookupCompleted)).isSome ∧
      List.Forall₂ OutputItem.Reads response.output lookup ∧
      created.type = "response.created" ∧
      (∀ r ∈ created.response, Foretells r response) ∧
      completed.type = "response.completed" ∧ completed.response.isSome ∧
      response.model ≠ "" ∧ response.createdAt ≠ 0 ∧
      (UsagePayload.decoder (readRaw lookupCompleted) .zero).2 = true ∧
      0 ≤ response.inputTokens ∧ 0 ≤ response.outputTokens ∧
      response.totalTokens = response.inputTokens + response.outputTokens ∧
      ∀ o ∈ lookupCreated :: lookupSteps.map Prod.snd ++ [lookupCompleted],
        (readEvent o).isSome := by
  decide +kernel

lemma lookup_said :
    ∀ s ∈ lookupSteps, Step.IsSaidBy lookup ((readEvent s.2).getD .zero) s.1 := by
  decide +kernel

def lookupAnnouncement : Announcement where
  raw := rawOf lookupCompleted
  response := responseOf lookupCompleted
  items := lookup
  created := eventOf lookupCreated
  steps := lookupSteps.map fun s => (s.1, eventOf s.2)
  completed := eventOf lookupCompleted
  decoded := by
    rw [rawOf_eq, responseOf_eq]
    exact eq_some_getD lookup_reads.1 _
  listed := by
    obtain ⟨-, hlisted, -⟩ := lookup_reads
    rw [responseOf_eq]
    exact hlisted
  creates := by
    obtain ⟨-, -, htype, hforetells, -⟩ := lookup_reads
    rw [responseOf_eq, eventOf_eq]
    exact ⟨htype, hforetells⟩
  said := by
    simp only [List.forall_mem_map, eventOf_eq]
    exact lookup_said
  ordered := by decide
  texts := by decide
  reasoning := by decide
  arguments := by
    intro index callID name text h
    rcases index with _ | _ | _ | index
    · cases h
    · cases h
    · cases h
      decide
    · cases h
  completes := by
    obtain ⟨-, -, -, -, htype, hresponse, -⟩ := lookup_reads
    rw [eventOf_eq, rawOf_eq]
    exact ⟨htype, eq_some_getD hresponse _⟩

lemma lookup_events : lookupAnnouncement.events =
    (lookupCreated :: lookupSteps.map Prod.snd ++ [lookupCompleted]).map eventOf := by
  simp [Announcement.events, lookupAnnouncement, Function.comp_def]

/-- The stream of the sample makes up the answer of its response. -/
theorem streaming_agrees_lookup :
    let payloads := (lookupCreated :: lookupSteps.map Prod.snd ++ [lookupCompleted]).map textOf
    ∃ completion, convertChatResponse 0 (rawOf lookupCompleted) = some completion ∧
      assemble (translateAll true payloads (.start "fallback" 0)).1 = completion.answer ∧
      ((eventOf lookupCreated).response.isSome →
        ∀ head ∈ (translateAll true payloads (.start "fallback" 0)).1.filterMap Frame.head?,
          head.id = completion.id ∧ head.model = completion.model) := by
  obtain ⟨-, -, -, -, -, -, hmodel, hcreated, hread, hinput, houtput, htotal, hevents⟩ :=
    lookup_reads
  rw [← responseOf_eq] at hmodel hcreated hinput houtput htotal
  rw [← rawOf_eq] at hread
  refine lookupAnnouncement.streaming_agrees "fallback" 0 hmodel hcreated hread hinput houtput
    htotal ?_
  rw [lookup_events]
  exact decode_textOf _ hevents

def bareCreated : Obj := [("type", .str "response.created")]

def bareCompleted (response : Obj) : Obj :=
  [("type", .str "response.completed"),
    ("response", .obj (("created_at", number 7) :: ("id", .str "r") :: response))]

lemma bare_ordered : Step.Ordered [] 0 ((([] : List (Step × ChatEvent))).map Prod.fst) := rfl

/-- A response without output. -/
def bareAnnouncement (response : Obj)
    (hdecoded : (CompletedResponse.decode (rawOf (bareCompleted response))).isSome)
    (hempty : (responseOf (bareCompleted response)).output.isEmpty)
    (htype : (eventOf (bareCompleted response)).type = "response.completed")
    (hsome : (eventOf (bareCompleted response)).response.isSome) : Announcement where
  raw := rawOf (bareCompleted response)
  response := responseOf (bareCompleted response)
  items := []
  created := eventOf bareCreated
  steps := []
  completed := eventOf (bareCompleted response)
  decoded := by
    rw [responseOf]
    exact eq_some_getD hdecoded _
  listed := by
    rw [List.isEmpty_iff.mp hempty]
    exact .nil
  creates := by
    have h : ((readEvent bareCreated).getD .zero).type = "response.created" ∧
        ((readEvent bareCreated).getD .zero).response = none := by decide +kernel
    rw [eventOf_eq, h.2]
    exact ⟨h.1, nofun⟩
  said := nofun
  ordered := bare_ordered
  texts := rfl
  reasoning := rfl
  arguments := nofun
  completes := by
    rw [rawOf]
    exact ⟨htype, eq_some_getD hsome _⟩

def unnamed : Obj := [("usage", usageOf 1 1 2)]

/-- A negative number of tokens. -/
def overdrawn : Obj := [("model", .str "gpt"), ("usage", usageOf (-1) 2 1)]

def unreadable : Obj := [("model", .str "gpt"), ("reasoning", number 1), ("usage", usageOf 1 1 2)]

/-- The events that announce a response, one without the conditions, and the response itself are
answered differently. -/
def Disagrees (response : Obj) : Prop :=
  ∃ a : Announcement, a.response.createdAt ≠ 0 ∧
    a.response.totalTokens = a.response.inputTokens + a.response.outputTokens ∧
    ([bareCreated, bareCompleted response].map textOf).map ChatEvent.decode =
      a.events.map some ∧
    ∃ completion, convertChatResponse 0 a.raw = some completion ∧
      assemble (translateAll true ([bareCreated, bareCompleted response].map textOf)
        (.start "fallback" 0)).1 ≠ completion.answer

/-- What the completed response is read as, and what the two ways answer. -/
lemma bare_reads : ∀ fields ∈ [unnamed, overdrawn, unreadable],
    let response := (CompletedResponse.decode (readRaw (bareCompleted fields))).getD .zero
    let completed := (readEvent (bareCompleted fields)).getD .zero
    (CompletedResponse.decode (readRaw (bareCompleted fields))).isSome ∧
      response.output.isEmpty ∧ completed.type = "response.completed" ∧
      completed.response.isSome ∧ response.createdAt ≠ 0 ∧
      response.totalTokens = response.inputTokens + response.outputTokens ∧
      (∀ o ∈ [bareCreated, bareCompleted fields], (readEvent o).isSome) ∧
      ((convertChatResponse 0 (readRaw (bareCompleted fields))).any fun completion =>
        decide (assemble (translateEvents true ([bareCreated, bareCompleted fields].map fun o =>
          (readEvent o).getD .zero) (.start "fallback" 0)).1 ≠ completion.answer)) = true := by
  decide +kernel

lemma disagrees_of_mem {fields : Obj} (h : fields ∈ [unnamed, overdrawn, unreadable]) :
    Disagrees fields := by
  obtain ⟨hdecoded, hempty, htype, hsome, hcreated, htotal, hevents, hdiffer⟩ := bare_reads fields h
  rw [← rawOf_eq, Option.any_eq_true] at hdiffer
  obtain ⟨completion, hconvert, hne⟩ := hdiffer
  rw [← translateAll_marshalled "fallback" _ hevents] at hne
  rw [← responseOf_eq] at hempty hcreated htotal
  rw [← eventOf_eq] at htype hsome
  rw [← rawOf_eq] at hdecoded
  exact ⟨bareAnnouncement fields hdecoded hempty htype hsome, hcreated, htotal,
    decode_textOf [bareCreated, bareCompleted fields] hevents, completion, hconvert,
    of_decide_eq_true hne⟩

/-- Without the conditions the answers differ: in the model, or in the usage. -/
theorem streaming_disagrees : Disagrees unnamed ∧ Disagrees overdrawn ∧ Disagrees unreadable :=
  ⟨disagrees_of_mem (by simp), disagrees_of_mem (by simp), disagrees_of_mem (by simp)⟩

end Samples

end CodexOne.Chat
