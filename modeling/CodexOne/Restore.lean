import CodexOne.ItemIDs
import CodexOne.Lib.Substitute
import Mathlib.Data.List.Sort

/-!
Restoring the identifiers of a client, `exposePayload` of `internal/proxy/identity.go`.

The reverse table is applied to the bytes of a payload. What it can touch is therefore decided
by its keys: while they hold whole pseudonyms, a text without a pseudonym is left alone.
-/

namespace CodexOne

open GoStrings (hexDigits takeRunes trimSpace)
open JsonString IdentityM

/-- A string as `json.Marshal` writes it, without the quotes. -/
def encodedText (s : String) : Text := renderPieces (s.toList.map ofRune)

namespace Identity

/-- The keys of the table and the values that `matcherValues` gives them, the longest keys
first. Of keys of one length at most one matches, so their order does not matter. -/
def matcherRules (i : Identity) : Rules Char :=
  (i.reverse.map fun e => (encodedText e.1, encodedText e.2)).insertionSort fun a b =>
    Text.byteLen b.1 ≤ Text.byteLen a.1

def exposePayload (i : Identity) (payload : Text) : Text :=
  if payload = [] ∨ i.reverse = [] then payload else substitute i.matcherRules 0 payload

lemma mem_matcherRules {i : Identity} {r : Text × Text} :
    r ∈ i.matcherRules ↔ ∃ e ∈ i.reverse, (encodedText e.1, encodedText e.2) = r := by
  rw [matcherRules, (List.perm_insertionSort _ _).mem_iff, List.mem_map]

lemma exposePayload_eq_self {i : Identity} {payload : Text}
    (h : ∀ e ∈ i.reverse, ¬encodedText e.1 <:+: payload) : i.exposePayload payload = payload := by
  unfold exposePayload
  split_ifs
  · rfl
  · refine substitute_eq_self fun r hr => ?_
    obtain ⟨e, he, rfl⟩ := mem_matcherRules.mp hr
    exact h e he

end Identity

namespace Digests

variable (d : Digests)

/-- A UUID that `identityUUID` makes. -/
def IsUUID (s : String) : Prop := ∃ secret kind value, s = d.identityUUID secret kind value

/-- A text in which such a UUID occurs, in full. -/
def HoldsUUID (t : Text) : Prop := ∃ u, d.IsUUID u ∧ u.toList <:+: t

variable {d}

lemma isUUID_identityUUID (secret kind value : String) :
    d.IsUUID (d.identityUUID secret kind value) := ⟨secret, kind, value, rfl⟩

lemma IsUUID.length {s : String} (h : d.IsUUID s) : s.length = 36 := by
  obtain ⟨_, _, _, rfl⟩ := h
  exact Compat.uuidString_length _

lemma IsUUID.ne_empty {s : String} (h : d.IsUUID s) : s ≠ "" := by
  rintro rfl
  exact absurd h.length (by decide)

lemma HoldsUUID.mono {t t' : Text} (h : d.HoldsUUID t) (ht : t <:+: t') : d.HoldsUUID t' := by
  obtain ⟨u, hu, hi⟩ := h
  exact ⟨u, hu, hi.trans ht⟩

lemma IsUUID.holds {s : String} (h : d.IsUUID s) : d.HoldsUUID s.toList :=
  ⟨s, h, List.infix_rfl⟩

lemma IsUUID.holds_append {s : String} (h : d.IsUUID s) (before after : String) :
    d.HoldsUUID (before ++ s ++ after).toList := by
  refine h.holds.mono ?_
  rw [String.toList_append, String.toList_append]
  exact ⟨before.toList, after.toList, rfl⟩

lemma not_holdsUUID_of_length {t : Text} (h : t.length < 36) : ¬d.HoldsUUID t := by
  rintro ⟨u, hu, hi⟩
  have hlen := hi.length_le
  rw [String.length_toList, hu.length] at hlen
  omega

lemma chars_hexDigit : ∀ n < 16,
    (ofRune (GoStrings.hexDigit n)).chars = [GoStrings.hexDigit n] := by decide

lemma chars_hex {bytes : List UInt8} {c : Char} (h : c ∈ hex bytes) :
    (ofRune c).chars = [c] := by
  obtain ⟨b, -, hc⟩ := List.mem_flatMap.mp h
  simp only [hexDigits, List.mem_cons, List.not_mem_nil, or_false] at hc
  rcases hc with rfl | rfl
  · exact chars_hexDigit _ (Nat.mod_lt _ (by decide))
  · exact chars_hexDigit _ (Nat.mod_lt _ (by decide))

lemma IsUUID.chars {s : String} (h : d.IsUUID s) {c : Char} (hc : c ∈ s.toList) :
    (ofRune c).chars = [c] := by
  obtain ⟨_, _, _, rfl⟩ := h
  unfold identityUUID uuidString at hc
  dsimp only at hc
  rw [String.toList_ofList] at hc
  simp only [List.mem_append, List.mem_cons, or_assoc] at hc
  rcases hc with hc | rfl | hc | rfl | hc | rfl | hc | rfl | hc
  all_goals first
    | exact chars_hex hc
    | decide

lemma encodedText_append (a b : String) :
    encodedText (a ++ b) = encodedText a ++ encodedText b := by
  simp [encodedText, renderPieces]

lemma IsUUID.encoded {s : String} (h : d.IsUUID s) : encodedText s = s.toList := by
  rw [encodedText, renderPieces, List.flatMap_map]
  calc s.toList.flatMap (fun c => (ofRune c).chars)
      = s.toList.flatMap (fun c => [c]) := List.flatMap_congr fun c hc => h.chars hc
    _ = s.toList := List.flatMap_singleton' _

lemma HoldsUUID.encoded {s : String} (h : d.HoldsUUID s.toList) : d.HoldsUUID (encodedText s) := by
  obtain ⟨u, hu, a, b, hab⟩ := h
  have hs : s = String.ofList a ++ u ++ String.ofList b :=
    String.toList_injective (by simp [hab])
  refine ⟨u, hu, encodedText (String.ofList a), encodedText (String.ofList b), ?_⟩
  rw [hs, encodedText_append, encodedText_append, hu.encoded]

end Digests

/-! ### Invariants of methods -/

namespace Identity

variable {α β : Type} {inv : Identity → Prop}

/-- A method keeps an invariant, whether it fails or not. -/
def Preserves (inv : Identity → Prop) (m : IdentityM α) : Prop := ∀ i, inv i → inv (m.run i).2

namespace Preserves

lemma of_pure (a : α) : Preserves inv (pure a) := fun _ h => h

lemma of_fail (e : String) : Preserves inv (fail e : IdentityM α) := fun _ h => h

lemma of_mappingError : Preserves inv mappingError := fun i h => by
  rw [run_mappingError]
  exact h

lemma of_bind {m : IdentityM α} {f : α → IdentityM β} (hm : Preserves inv m)
    (hf : ∀ a, Preserves inv (f a)) : Preserves inv (m >>= f) := fun i hi => by
  have h := hm i hi
  rw [run_bind]
  rcases hr : m.run i with ⟨_ | a, j⟩ <;> rw [hr] at h
  · exact h
  · exact hf a j h

lemma of_self {f : Identity → IdentityM α} (hf : ∀ i, inv i → inv ((f i).run i).2) :
    Preserves inv (self >>= f) := hf

lemma of_mapError {m : IdentityM α} (hm : Preserves inv m) (g : String → String) :
    Preserves inv (mapError g m) := fun i hi => by
  have h := hm i hi
  unfold mapError
  dsimp only
  split <;> rename_i hr <;> rwa [hr] at h

end Preserves

lemma composes_preserves (inv : Identity → Prop) : Composes (Preserves inv) where
  of_pure := .of_pure
  of_fail := .of_fail
  of_bind := .of_bind
  of_self hf _ := .of_self fun i hi => hf i i hi
  of_mapError := .of_mapError
  of_mappingError := .of_mappingError

lemma mem_remember {i : Identity} {upstream client : String} {e : String × String}
    (h : e ∈ (i.remember upstream client).reverse) : e ∈ i.reverse ∨ e = (upstream, client) := by
  by_cases hi : i.mappingErr = none
  · rcases remember_cases hi upstream client with ⟨hr, -⟩ | ⟨_, _, -, -, hr⟩ | ⟨-, _, hr⟩ <;>
      rw [hr] at h
    · exact .inl h
    · simpa [add] using h
    · exact .inl h
  · rw [remember_of_err hi] at h
    exact .inl h

/-- The table restores pseudonyms only. -/
structure Pseudonymous (d : Digests) (remap : Bool) (i : Identity) : Prop where
  mode : i.remap = remap
  session : remap = true → i.upstreamSessionID ≠ "" → d.IsUUID i.upstreamSessionID
  keys : ∀ e ∈ i.reverse, d.HoldsUUID e.1.toList

variable {d : Digests} {remap : Bool}

lemma Pseudonymous.remember {i : Identity} (h : Pseudonymous d remap i) {upstream : String}
    (hup : d.HoldsUUID upstream.toList) (client : String) :
    Pseudonymous d remap (i.remember upstream client) := by
  have hext := extends_remember i upstream client
  refine ⟨hext.remap ▸ h.mode, hext.upstreamSessionID ▸ h.session, fun e he => ?_⟩
  rcases mem_remember he with he | rfl
  · exact h.keys e he
  · exact hup

lemma preserves_mapValue (kind value : String) :
    Preserves (Pseudonymous d remap) (mapValue d kind value) := by
  refine .of_self fun i hi => ?_
  dsimp only
  split_ifs
  · exact hi
  · exact hi.remember (Digests.isUUID_identityUUID _ _ _).holds _

lemma preserves_mapWindow (value : String) :
    Preserves (Pseudonymous d remap) (mapWindow d value) := by
  refine .of_self fun i hi => ?_
  dsimp only
  split_ifs with hmap hs
  · exact hi
  · have hremap : remap = true := by
      rw [not_or, Bool.not_eq_false] at hmap
      exact hi.mode ▸ hmap.2
    have hholds := (hi.session hremap hs.2).holds_append ""
      (windowParts (cleanIdentityValue value)).2
    rw [String.empty_append] at hholds
    exact hi.remember hholds _
  · exact (preserves_mapValue _ _).of_bind (fun _ => .of_pure _) i hi

end Identity

namespace Compat

open Identity

variable {d : Digests} {remap : Bool} {fuel : ℕ} {keyID : String} {reserved used : List String}

lemma holdsUUID_mapped (item : Obj) (itemID : String) :
    d.HoldsUUID (mappedCodexInputItemID d keyID item itemID).toList := by
  have h := (d.isUUID_identityUUID keyID ("input-item:" ++ itemKind item) itemID).holds_append
    (itemKind item ++ "_") ""
  rwa [String.append_empty] at h

lemma length_mapped (item : Obj) (itemID : String) :
    (mappedCodexInputItemID d keyID item itemID).length ≤ 41 := by
  have hp := prefix_length item
  unfold mappedCodexInputItemID Digests.identityUUID
  dsimp only
  rw [String.length_append, String.length_append, uuidString_length]
  have hsep : "_".length = 1 := by decide
  have hitem : "item".length = 4 := by decide
  split_ifs <;> omega

lemma holdsUUID_shorten {itemID : String} (h : d.HoldsUUID itemID.toList)
    (hlen : itemID.length ≤ 47) (attempt : ℕ) :
    d.HoldsUUID (shortenCodexInputItemID d itemID attempt).toList := by
  unfold shortenCodexInputItemID codexInputItemIDLimit takeRunes
  dsimp only
  rw [shortenSuffix_length, String.toList_append, String.toList_ofList,
    List.take_of_length_le (by rw [String.length_toList]; omega)]
  exact h.mono (List.prefix_append _ _).isInfix

lemma holdsUUID_upstreamItemID {item : Obj} {n : String} (hv : ¬Verbatim item)
    (h : upstreamItemID d fuel true keyID reserved used item (Obj.val item "id").text = some n) :
    d.HoldsUUID n.toList := by
  have hw : wantedItemID d true keyID item (Obj.val item "id").text =
      mappedCodexInputItemID d keyID item (Obj.val item "id").text := by
    refine if_pos ⟨rfl, ?_⟩
    by_contra hc
    rw [not_or, not_lt, not_not] at hc
    exact hv ⟨hc.1, hc.1 ▸ hc.2⟩
  obtain ⟨-, hn | ⟨-, a, hn⟩⟩ := upstreamItemID_rewritten hv h
  · rw [hn, hw]
    exact holdsUUID_mapped _ _
  · rw [hn, hw]
    exact holdsUUID_shorten (holdsUUID_mapped _ _) ((length_mapped _ _).trans (by decide)) a

lemma preserves_sanitizeItemID {item : Obj} (hitem : remap = true ∨ Verbatim item) :
    Preserves (Pseudonymous d remap) (sanitizeItemID d fuel reserved used item) := by
  refine .of_self fun i hi => ?_
  dsimp only
  split_ifs
  · exact hi
  · cases hu : upstreamItemID d fuel i.remap i.keyID reserved used item
        (Obj.val item "id").text with
    | none => exact hi
    | some n =>
      dsimp only
      split_ifs with hne
      · have hv : ¬Verbatim item := fun hv => hne (upstreamItemID_verbatim hv hu)
        rw [hi.mode, hitem.resolve_right hv] at hu
        exact hi.remember (holdsUUID_upstreamItemID hv hu) _
      · exact hi

/-- The items that stay in a request keep the ids they have. -/
def KeepsIDs (object : Obj) : Prop :=
  ∀ value ∈ (Obj.val object "input").items, ∀ item ∈ keptObject (Obj.val object "store").flag
    value.members, Verbatim item

lemma preserves_items {inv : Identity → Prop} {store : Bool} {items : List Json}
    (h : ∀ used, ∀ value ∈ items, ∀ item ∈ keptObject store value.members,
      Preserves inv (sanitizeItemID d fuel reserved used item)) :
    Preserves inv (sanitizeItems d fuel store reserved items used) := by
  induction items generalizing used with
  | nil => exact .of_pure _
  | cons value rest ih =>
    have hrest := fun used v hv => h used v (List.mem_cons_of_mem _ hv)
    -- what is no object goes through as it is
    have hskip : Preserves inv (do
        let rest ← sanitizeItems d fuel store reserved rest used
        pure (value :: rest)) := .of_bind (ih hrest) fun _ => .of_pure _
    cases value with
    | obj item =>
      unfold sanitizeItems
      split
      · exact ih hrest
      · rename_i kept hk
        exact .of_bind (h used _ List.mem_cons_self kept hk) fun _ =>
          .of_bind (ih hrest) fun _ => .of_pure _
    | _ => exact hskip

lemma preserves_input {inv : Identity → Prop} {object : Obj}
    (h : ∀ reserved used, ∀ value ∈ (Obj.val object "input").items,
      ∀ item ∈ keptObject (Obj.val object "store").flag value.members,
        Preserves inv (sanitizeItemID d fuel reserved used item)) :
    Preserves inv (sanitizeCodexInputItems d fuel object) := by
  unfold sanitizeCodexInputItems
  split
  · rename_i items hitems
    rw [Obj.val_of_get hitems] at h
    exact .of_bind (preserves_items (h _)) fun _ => .of_bind .of_mappingError fun _ => .of_pure _
  · exact .of_pure _

lemma preserves_sanitizeCodexInputItems {object : Obj} (h : remap = true ∨ KeepsIDs object) :
    Preserves (Pseudonymous d remap) (sanitizeCodexInputItems d fuel object) :=
  preserves_input fun _ _ value hv item hk =>
    preserves_sanitizeItemID (h.imp_right fun h => h value hv item hk)

end Compat

namespace Identity

open Compat

variable {d : Digests}

/-- A call of a method that writes to the table. -/
inductive Call
  | prepareBody (object : Obj) (fixed : Bool)
  | applyHeaders (target source : Header) (websocketTransport : Bool)
  | sanitizeCodexInputItems (fuel : ℕ) (object : Obj)

/-- The identity after a call, whether it has failed or not. -/
def Call.after (d : Digests) (i : Identity) : Call → Identity
  | .prepareBody object fixed => ((Identity.prepareBody d object fixed).run i).2
  | .applyHeaders target source websocketTransport =>
    ((Identity.applyHeaders d target source websocketTransport).run i).2
  | .sanitizeCodexInputItems fuel object => ((Compat.sanitizeCodexInputItems d fuel object).run i).2

/-- The call sends all items under the ids they have. -/
def Call.KeepsIDs : Call → Prop
  | .sanitizeCodexInputItems _ object => Compat.KeepsIDs object
  | _ => True

lemma pseudonymous_new {key : Option String} {headers : Header} {object : Obj} {remap : Bool}
    {i : Identity} (h : Identity.new d key headers object remap = .ok i) :
    Pseudonymous d remap i := by
  obtain ⟨client, up, j, rfl, -, ⟨-, hrun⟩ | ⟨-, rfl, rfl⟩⟩ := new_ok d h
  · have hblank : Pseudonymous d remap (blank remap (trimSpace (key.getD "")) client) :=
      ⟨rfl, fun _ hne => absurd rfl hne, nofun⟩
    have hj := preserves_mapValue "prompt-cache" client _ hblank
    rw [hrun] at hj
    refine ⟨hj.mode, fun hremap hne => ?_, hj.keys⟩
    rw [mapValue, run_self_bind] at hrun
    dsimp only at hrun
    split_ifs at hrun with hv
    · -- the session is used as it is: blank, or without remapping
      have hup := (pure_ok hrun).1
      rcases hv with hv | hv
      · exact absurd (hup.trans hv) hne
      · rw [hremap] at hv
        cases hv
    · obtain ⟨_, _, -, h2⟩ := bind_ok hrun
      rw [(pure_ok h2).1]
      exact Digests.isUUID_identityUUID _ _ _
  · refine ⟨rfl, fun _ hne => ?_, nofun⟩
    dsimp only at hne ⊢
    split_ifs at hne ⊢
    · exact Digests.isUUID_identityUUID _ _ _
    · exact absurd rfl hne

lemma Pseudonymous.after {i : Identity} {remap : Bool} (h : Pseudonymous d remap i) {c : Call}
    (hc : remap = true ∨ c.KeepsIDs) : Pseudonymous d remap (c.after d i) := by
  have hcomp := composes_preserves (Pseudonymous d remap)
  cases c with
  | prepareBody object fixed =>
    exact hcomp.prepareBody preserves_mapValue preserves_mapWindow object fixed i h
  | applyHeaders target source websocketTransport =>
    exact hcomp.applyHeaders preserves_mapValue preserves_mapWindow target source
      websocketTransport i h
  | sanitizeCodexInputItems fuel object => exact preserves_sanitizeCodexInputItems hc i h

lemma Pseudonymous.run {remap : Bool} {calls : List Call}
    (hcalls : ∀ c ∈ calls, remap = true ∨ c.KeepsIDs) {i : Identity}
    (h : Pseudonymous d remap i) : Pseudonymous d remap (calls.foldl (Call.after d) i) := by
  induction calls generalizing i with
  | nil => exact h
  | cons c calls ih =>
    exact ih (fun c' hc' => hcalls c' (List.mem_cons_of_mem _ hc'))
      (h.after (hcalls c List.mem_cons_self))

/-- **Restoring touches pseudonyms only.** While remapping is on, or no item id is rewritten,
every key of the reverse table holds a UUID of `identityUUID`, and a payload without one is
handed on as it is. -/
theorem restores_pseudonyms {key : Option String} {headers : Header} {object : Obj} {remap : Bool}
    {i : Identity} (hnew : Identity.new d key headers object remap = .ok i) (calls : List Call)
    (hcalls : ∀ c ∈ calls, remap = true ∨ c.KeepsIDs) :
    (∀ e ∈ (calls.foldl (Call.after d) i).reverse, d.HoldsUUID e.1.toList) ∧
      ∀ payload, ¬d.HoldsUUID payload →
        (calls.foldl (Call.after d) i).exposePayload payload = payload := by
  have hrun := (pseudonymous_new hnew).run hcalls
  refine ⟨hrun.keys, fun payload hpayload => exposePayload_eq_self fun e he hi => ?_⟩
  exact hpayload ((hrun.keys e he).encoded.mono hi)

section Samples

lemma ok_of_any {α : Type} {x : Except String α} {p : α → Bool}
    (h : x.toOption.any p = true) : ∃ a, x = .ok a ∧ p a = true := by
  cases x with
  | error e => cases h
  | ok a => exact ⟨a, rfl, h⟩

def messageNamed (id : String) : Obj :=
  [("input", .arr [.obj [("id", .str id), ("type", .str "message")]])]

/-- Under remapping the message is sent under a pseudonym, and the table restores no more. -/
theorem restores_pseudonyms_message :
    ∃ i, Identity.new Digests.zero (some "key") [] (messageNamed "x") true = .ok i ∧
      (∀ e ∈ ([Call.sanitizeCodexInputItems 1 (messageNamed "x")].foldl
        (Call.after Digests.zero) i).reverse, Digests.zero.HoldsUUID e.1.toList) ∧
      ∀ payload, ¬Digests.zero.HoldsUUID payload →
        ([Call.sanitizeCodexInputItems 1 (messageNamed "x")].foldl
          (Call.after Digests.zero) i).exposePayload payload = payload := by
  obtain ⟨i, hi, -⟩ := ok_of_any
    (x := Identity.new Digests.zero (some "key") [] (messageNamed "x") true)
    (p := fun _ => true) (by decide +kernel)
  exact ⟨i, hi, restores_pseudonyms hi _ fun _ _ => .inl rfl⟩

/-- **Short keys.** Without remapping the canonical id of an item becomes a key, and restoring
rewrites a text that holds no pseudonym. -/
theorem restores_short_ids :
    ∃ i, Identity.new Digests.zero (some "key") [] (messageNamed "x") false = .ok i ∧
      (∃ e ∈ ([Call.sanitizeCodexInputItems 1 (messageNamed "x")].foldl
        (Call.after Digests.zero) i).reverse, ¬Digests.zero.HoldsUUID e.1.toList) ∧
      ∃ payload, ¬Digests.zero.HoldsUUID payload ∧
        ([Call.sanitizeCodexInputItems 1 (messageNamed "x")].foldl
          (Call.after Digests.zero) i).exposePayload payload ≠ payload := by
  obtain ⟨i, hi, h⟩ := ok_of_any
    (x := Identity.new Digests.zero (some "key") [] (messageNamed "x") false)
    (p := fun i =>
      let j := Call.after Digests.zero i (.sanitizeCodexInputItems 1 (messageNamed "x"))
      decide (("msg_x", "x") ∈ j.reverse ∧ j.exposePayload "the msg_x table".toList =
        "the x table".toList)) (by decide +kernel)
  obtain ⟨hmem, hexposed⟩ := of_decide_eq_true h
  refine ⟨i, hi, ⟨_, hmem, ?_⟩, "the msg_x table".toList, ?_, ?_⟩
  · exact Digests.not_holdsUUID_of_length (by decide)
  · exact Digests.not_holdsUUID_of_length (by decide)
  · exact fun he => absurd (hexposed.symm.trans he) (by decide)

end Samples

end Identity

end CodexOne
