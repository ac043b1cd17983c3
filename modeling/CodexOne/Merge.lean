import CodexOne.Identity
import Mathlib.Data.List.Nodup

/-!
Joining the items of a conversation, `mergeWebSocketItems`.

A tool call that repeats an earlier call id is dropped. Of the items with one id a single one
stays, the last one that an output refers to or else the last one.
-/

namespace CodexOne

open GoStrings

structure ItemMetadata where
  id : String
  kind : String
  callID : String
  deriving DecidableEq

namespace ItemMetadata

def ofObj (object : Obj) : ItemMetadata :=
  ⟨jsonString (Obj.val object "id"), jsonString (Obj.val object "type"),
    jsonString (Obj.val object "call_id")⟩

/-- The metadata of an item, which is empty for what `json.Unmarshal` cannot decode into a map. -/
def ofRaw (raw : Raw) : ItemMetadata := ofObj (raw.unmarshalObject.getD [])

def isToolCall (m : ItemMetadata) : Prop :=
  (m.kind = "function_call" ∨ m.kind = "custom_tool_call") ∧ m.callID ≠ ""

instance (m : ItemMetadata) : Decidable m.isToolCall := inferInstanceAs (Decidable (_ ∧ _))

def isCallOutput (m : ItemMetadata) : Prop :=
  (m.kind = "function_call_output" ∨ m.kind = "custom_tool_call_output") ∧ m.callID ≠ ""

instance (m : ItemMetadata) : Decidable m.isCallOutput := inferInstanceAs (Decidable (_ ∧ _))

end ItemMetadata

namespace Merge

variable {α : Type} (info : α → ItemMetadata)

/-- The first loop: tool calls whose call id came before are left out. -/
def dedupCalls : (items : List α) → (seenCalls : List String) → List α
  | [], _ => []
  | item :: rest, seenCalls =>
    if (info item).isToolCall then
      if (info item).callID ∈ seenCalls then dedupCalls rest seenCalls
      else item :: dedupCalls rest ((info item).callID :: seenCalls)
    else item :: dedupCalls rest seenCalls

/-- The call ids that outputs refer to. -/
def referencedCalls (items : List α) : List String :=
  (items.filter fun item => (info item).isCallOutput).map fun item => (info item).callID

/-- One step of the loop that fills `keepByID` and `keepReferenced`. -/
def keepStep (referencedCalls : List String) (keep : List (String × ℕ × Bool)) (entry : α × ℕ) :
    List (String × ℕ × Bool) :=
  let entryInfo := info entry.1
  if entryInfo.id = "" then keep
  else
    let referenced := entryInfo.callID ∈ referencedCalls && entryInfo.callID ≠ ""
    match Members.get keep entryInfo.id with
    | some (_, keepReferenced) =>
      if referenced ∨ keepReferenced = false then
        Members.set keep entryInfo.id (entry.2, referenced)
      else keep
    | none => Members.set keep entryInfo.id (entry.2, referenced)

/-- The index that is kept for each id. -/
def keepByID (items : List α) : List (String × ℕ × Bool) :=
  items.zipIdx.foldl (keepStep info (referencedCalls info items)) []

/-- The last loop: of the items with one id the one at the kept index stays. -/
def keepItems (items : List α) : List α :=
  (items.zipIdx.filter fun entry =>
    (info entry.1).id = "" ∨
      (Members.get (keepByID info items) (info entry.1).id).map Prod.fst = some entry.2).map
    Prod.fst

/-- The whole of `mergeWebSocketItems`, on the items of all groups. -/
def mergeItems (items : List α) : List α :=
  if items.length < 2 then items else keepItems info (dedupCalls info items [])

/-- No two of the items have one non-empty id, and no two of the tool calls one call id. -/
structure Distinct (items : List α) : Prop where
  ids : items.Pairwise fun a b => (info a).id = (info b).id → (info a).id = ""
  calls : items.Pairwise fun a b => (info a).isToolCall → (info b).isToolCall →
    (info a).callID ≠ (info b).callID

variable {info}

lemma Distinct.sublist {items some : List α} (h : Distinct info items) (hs : some.Sublist items) :
    Distinct info some :=
  ⟨h.ids.sublist hs, h.calls.sublist hs⟩

lemma Distinct.of_blank {info' : α → ItemMetadata} {items : List α} (h : Distinct info items)
    (hb : ∀ a, info' a = info a ∨ info' a = ⟨"", "", ""⟩) : Distinct info' items := by
  refine ⟨h.ids.imp fun {a b} hab he => ?_, h.calls.imp fun {a b} hab ha hb' => ?_⟩
  · rcases hb a with ha | ha
    · rcases hb b with hb | hb
      · rw [ha, hb] at he
        rw [ha]
        exact hab he
      · rw [he, hb]
    · rw [ha]
  · rcases hb a with h1 | h1
    · rcases hb b with h2 | h2
      · rw [h1] at ha ⊢
        rw [h2] at hb' ⊢
        exact hab ha hb'
      · rw [h2] at hb'
        exact absurd rfl hb'.2
    · rw [h1] at ha
      exact absurd rfl ha.2

/-! ### What is left -/

lemma dedupCalls_sublist (items : List α) (seen : List String) :
    (dedupCalls info items seen).Sublist items := by
  induction items generalizing seen with
  | nil => exact .slnil
  | cons item rest ih =>
    unfold dedupCalls
    split_ifs
    · exact (ih _).cons _
    · exact (ih _).cons_cons _
    · exact (ih _).cons_cons _

lemma keepItems_sublist (items : List α) : (keepItems info items).Sublist items := by
  conv_rhs => rw [← List.zipIdx_map_fst 0 items]
  exact List.filter_sublist.map _

lemma mergeItems_sublist (items : List α) : (mergeItems info items).Sublist items := by
  unfold mergeItems
  split_ifs
  · exact .refl _
  · exact (keepItems_sublist _).trans (dedupCalls_sublist _ _)

lemma dedupCalls_of_distinct {items : List α} (seen : List String)
    (hc : items.Pairwise fun a b => (info a).isToolCall → (info b).isToolCall →
      (info a).callID ≠ (info b).callID)
    (hs : ∀ a ∈ items, (info a).isToolCall → (info a).callID ∉ seen) :
    dedupCalls info items seen = items := by
  induction items generalizing seen with
  | nil => rfl
  | cons item rest ih =>
    obtain ⟨h1, h2⟩ := List.pairwise_cons.mp hc
    unfold dedupCalls
    split_ifs with ht hm
    · exact absurd hm (hs item (by simp) ht)
    · rw [ih _ h2]
      intro a ha hta
      rw [List.mem_cons, not_or]
      exact ⟨(h1 a ha ht hta).symm, hs a (List.mem_cons_of_mem _ ha) hta⟩
    · rw [ih _ h2 fun a ha => hs a (List.mem_cons_of_mem _ ha)]

lemma get_foldl_keepStep (calls : List String) (id : String) (entries : List (α × ℕ))
    (keep : List (String × ℕ × Bool)) (h : ∀ e ∈ entries, (info e.1).id ≠ id) :
    Members.get (entries.foldl (keepStep info calls) keep) id = Members.get keep id := by
  induction entries generalizing keep with
  | nil => rfl
  | cons e entries ih =>
    rw [List.foldl_cons, ih _ fun e he => h e (List.mem_cons_of_mem _ he)]
    -- the step writes under the id of its own item
    have hne : id ≠ (info e.1).id := (h e (by simp)).symm
    unfold keepStep
    dsimp only
    split_ifs
    · rfl
    · split
      · split_ifs
        · rw [Members.get_set_ne _ _ hne]
        · rfl
      · rw [Members.get_set_ne _ _ hne]

lemma keepByID_of_distinct (calls : List String) {entries : List (α × ℕ)}
    (keep : List (String × ℕ × Bool))
    (hd : entries.Pairwise fun a b => (info a.1).id = (info b.1).id → (info a.1).id = "")
    (hk : ∀ e ∈ entries, (info e.1).id ≠ "" → Members.get keep (info e.1).id = none) :
    ∀ e ∈ entries, (info e.1).id ≠ "" →
      (Members.get (entries.foldl (keepStep info calls) keep) (info e.1).id).map Prod.fst =
        some e.2 := by
  induction entries generalizing keep with
  | nil => simp
  | cons e entries ih =>
    obtain ⟨h1, h2⟩ := List.pairwise_cons.mp hd
    intro f hf hne
    rcases List.mem_cons.mp hf with rfl | hf
    · rw [List.foldl_cons, get_foldl_keepStep]
      · unfold keepStep
        simp [hne, hk f (by simp) hne]
      · exact fun g hg he => hne (h1 g hg he.symm)
    · refine ih _ h2 (fun g hg hgne => ?_) f hf hne
      have hid : (info g.1).id ≠ (info e.1).id := fun he => hgne (he ▸ h1 g hg he.symm)
      have := get_foldl_keepStep calls (info g.1).id [e] keep
        (by simpa using hid.symm)
      rw [List.foldl_cons, List.foldl_nil] at this
      rw [this]
      exact hk g (List.mem_cons_of_mem _ hg) hgne

/-- Items with ids of their own are joined as they are. -/
theorem mergeItems_of_distinct {items : List α} (h : Distinct info items) :
    mergeItems info items = items := by
  unfold mergeItems
  split_ifs with hl
  · rfl
  · rw [dedupCalls_of_distinct [] h.calls fun _ _ _ => List.not_mem_nil]
    have hz : items.zipIdx.Pairwise
        fun a b => (info a.1).id = (info b.1).id → (info a.1).id = "" := by
      have := h.ids
      rw [← List.zipIdx_map_fst 0 items, List.pairwise_map] at this
      exact this
    unfold keepItems
    rw [List.filter_eq_self.mpr, List.zipIdx_map_fst]
    intro e he
    by_cases hne : (info e.1).id = ""
    · simp [hne]
    · have := keepByID_of_distinct (referencedCalls info items) [] hz (by simp) e he hne
      simpa [keepByID, hne] using this

end Merge

def mergeWebSocketItems (groups : List (List Raw)) : List Raw :=
  Merge.mergeItems ItemMetadata.ofRaw groups.flatten

end CodexOne
