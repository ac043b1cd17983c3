import CodexOne.Identity
import Mathlib.Data.List.Nodup
import Mathlib.Data.List.Perm.Subperm
import Mathlib.Algebra.Order.BigOperators.Group.List

/-!
What a method may do to an identity, and how much of its outcome depends on the reverse table.

The identifiers a method produces do not depend on the table, only its failure does. So two
identities of one owner, the second with a larger table, give the same results until the second
one runs into a mapping error.
-/

namespace CodexOne.Identity

open IdentityM GoStrings

variable {α β : Type}

/-- The two belong to one conversation. -/
structure SameOwner (i j : Identity) : Prop where
  remap : i.remap = j.remap
  keyID : i.keyID = j.keyID
  clientSessionID : i.clientSessionID = j.clientSessionID
  upstreamSessionID : i.upstreamSessionID = j.upstreamSessionID

lemma SameOwner.refl (i : Identity) : SameOwner i i := ⟨rfl, rfl, rfl, rfl⟩

lemma SameOwner.symm {i j : Identity} (h : SameOwner i j) : SameOwner j i :=
  ⟨h.remap.symm, h.keyID.symm, h.clientSessionID.symm, h.upstreamSessionID.symm⟩

lemma SameOwner.trans {i j k : Identity} (h : SameOwner i j) (h' : SameOwner j k) :
    SameOwner i k :=
  ⟨h.remap.trans h'.remap, h.keyID.trans h'.keyID,
    h.clientSessionID.trans h'.clientSessionID, h.upstreamSessionID.trans h'.upstreamSessionID⟩

/-- `j` is `i` after some methods: the table only grows, and nothing happens after a mapping
error. -/
structure Extends (i j : Identity) : Prop extends SameOwner i j where
  reverse : i.reverse <+: j.reverse
  stuck : i.mappingErr ≠ none → j = i

lemma Extends.refl (i : Identity) : Extends i i :=
  ⟨SameOwner.refl i, List.prefix_rfl, fun _ => rfl⟩

lemma Extends.trans {i j k : Identity} (h : Extends i j) (h' : Extends j k) : Extends i k := by
  refine ⟨h.toSameOwner.trans h'.toSameOwner, h.reverse.trans h'.reverse, fun hi => ?_⟩
  have hj := h.stuck hi
  subst hj
  exact h'.stuck hi

/-- Everything `i` knows, `j` knows, or `j` has failed. -/
inductive Within (i j : Identity) : Prop
  | failed (owner : SameOwner i j) (err : j.mappingErr ≠ none)
  | subset (owner : SameOwner i j) (left : i.mappingErr = none) (right : j.mappingErr = none)
      (table : i.reverse ⊆ j.reverse)

lemma Within.owner {i j : Identity} (h : Within i j) : SameOwner i j := by
  cases h <;> assumption

lemma Within.refl (i : Identity) : Within i i := by
  by_cases h : i.mappingErr = none
  · exact .subset (.refl i) h h (List.Subset.refl _)
  · exact .failed (.refl i) h

lemma Extends.within {i j : Identity} (h : Extends i j) : Within i j := by
  by_cases hj : j.mappingErr = none
  · refine .subset h.toSameOwner ?_ hj h.reverse.subset
    by_contra hi
    exact hi (h.stuck hi ▸ hj)
  · exact .failed h.toSameOwner hj

lemma Within.left_ok {i j : Identity} (h : Within i j) (hj : j.mappingErr = none) :
    i.mappingErr = none := by
  cases h with
  | failed _ err => exact absurd hj err
  | subset _ left _ _ => exact left

lemma lookup_eq_some_iff {l : List (String × String)} (hl : (l.map Prod.fst).Nodup)
    {k v : String} : l.lookup k = some v ↔ (k, v) ∈ l := by
  induction l with
  | nil => simp
  | cons e l ih =>
    obtain ⟨a, b⟩ := e
    obtain ⟨h1, h2⟩ := List.nodup_cons.mp hl
    by_cases hk : k = a
    · subst hk
      rw [List.lookup_cons_self, List.mem_cons]
      constructor
      · rintro ⟨⟩
        exact .inl rfl
      · rintro (h | h)
        · cases h; rfl
        · exact absurd (List.mem_map_of_mem (f := Prod.fst) h) h1
    · rw [List.lookup_cons, beq_false_of_ne hk]
      simp only [ih h2, List.mem_cons, Prod.mk.injEq, hk, false_and, false_or]

lemma lookup_eq_none {l : List (String × String)} {k : String} (h : ∀ v, (k, v) ∉ l) :
    l.lookup k = none := by
  refine List.lookup_eq_none_iff.mpr fun e he => ?_
  obtain ⟨a, b⟩ := e
  simp only [bne_iff_ne, ne_eq]
  rintro rfl
  exact h b he

lemma length_le_of_subset {l m : List (String × String)} (hl : (l.map Prod.fst).Nodup)
    (h : l ⊆ m) : l.length ≤ m.length :=
  (List.subperm_of_subset (List.Nodup.of_map _ hl) h).length_le

lemma bytes_le_of_subset {l m : List (String × String)} (hl : (l.map Prod.fst).Nodup)
    (h : l ⊆ m) : (l.map entryBytes).sum ≤ (m.map entryBytes).sum := by
  obtain ⟨k, hp, hs⟩ := List.subperm_of_subset (List.Nodup.of_map _ hl) h
  rw [← (hp.map entryBytes).sum_eq]
  exact (hs.map entryBytes).sum_le_sum fun _ _ => Nat.zero_le _

/-- The entry is one that `remember` skips. -/
def Idle (u c : String) : Prop := u = "" ∨ c = "" ∨ u = c

/-- There is room for the entry. -/
def Fits (i : Identity) (u c : String) : Prop :=
  i.reverse.length < maxIdentityMappings ∧
    i.mappingBytes + entryBytes (u, c) ≤ maxIdentityMappingBytes

/-- `remember` goes well. -/
def Takes (i : Identity) (u c : String) : Prop :=
  Idle u c ∨ (u, c) ∈ i.reverse ∨ (i.reverse.lookup u = none ∧ i.Fits u c)

lemma remember_of_err {i : Identity} (h : i.mappingErr ≠ none) (u c : String) :
    i.remember u c = i := by
  unfold remember
  split_ifs <;> rfl

/-- The outcomes of `remember`. -/
lemma remember_cases {i : Identity} (hi : i.mappingErr = none) (u c : String) :
    i.remember u c = i ∧ (Idle u c ∨ (u, c) ∈ i.reverse) ∨
      (∃ h hfit, ¬Idle u c ∧ i.Fits u c ∧ i.remember u c = i.add u c h hfit) ∨
      ¬i.Takes u c ∧ ∃ e, i.remember u c = { i with mappingErr := some e } := by
  by_cases h1 : Idle u c
  · exact .inl ⟨if_pos h1, .inl h1⟩
  · unfold remember
    rw [if_neg (show ¬(u = "" ∨ c = "" ∨ u = c) from h1), if_neg (not_not.mpr hi)]
    split
    · rename_i a ha
      split_ifs with hac
      · refine .inr (.inr ⟨?_, _, rfl⟩)
        rintro (h | h | h)
        · exact h1 h
        · rw [(lookup_eq_some_iff i.distinct).mpr h] at ha
          exact hac (Option.some.inj ha).symm
        · rw [h.1] at ha
          cases ha
      · rw [not_not.mp hac] at ha
        exact .inl ⟨rfl, .inr ((lookup_eq_some_iff i.distinct).mp ha)⟩
    · rename_i ha
      split_ifs with hfit
      · refine .inr (.inr ⟨?_, _, rfl⟩)
        rintro (h | h | ⟨-, h, h'⟩)
        · exact h1 h
        · rw [(lookup_eq_some_iff i.distinct).mpr h] at ha
          cases ha
        · omega
      · exact .inr (.inl ⟨ha, hfit, h1, by unfold Fits; omega, rfl⟩)

lemma extends_remember (i : Identity) (u c : String) : Extends i (i.remember u c) := by
  by_cases hi : i.mappingErr = none
  · rcases remember_cases hi u c with ⟨h, -⟩ | ⟨_, _, -, -, h⟩ | ⟨-, e, h⟩ <;> rw [h]
    · exact .refl i
    · exact ⟨⟨rfl, rfl, rfl, rfl⟩, List.prefix_append _ _, fun h => absurd hi h⟩
    · exact ⟨⟨rfl, rfl, rfl, rfl⟩, List.prefix_rfl, fun h => absurd hi h⟩
  · rw [remember_of_err hi]
    exact .refl i

lemma Takes.of_subset {i j : Identity} (ht : i.reverse ⊆ j.reverse) {u c : String}
    (h : j.Takes u c) : i.Takes u c := by
  have hlen := length_le_of_subset i.distinct ht
  have hbytes := bytes_le_of_subset i.distinct ht
  rw [← i.counted, ← j.counted] at hbytes
  rcases h with h | h | ⟨h, hlt, hle⟩
  · exact .inl h
  · by_cases hi : (u, c) ∈ i.reverse
    · exact .inr (.inl hi)
    · have hnone : i.reverse.lookup u = none := by
        refine lookup_eq_none fun v hv => ?_
        have h1 := (lookup_eq_some_iff j.distinct).mpr (ht hv)
        rw [(lookup_eq_some_iff j.distinct).mpr h] at h1
        exact hi (Option.some.inj h1 ▸ hv)
      have hd : (((u, c) :: i.reverse).map Prod.fst).Nodup :=
        List.nodup_cons.mpr ⟨not_mem_keys hnone, i.distinct⟩
      have hs : (u, c) :: i.reverse ⊆ j.reverse := List.cons_subset.mpr ⟨h, ht⟩
      have h1 := length_le_of_subset hd hs
      have h2 := bytes_le_of_subset hd hs
      simp only [List.length_cons, List.map_cons, List.sum_cons] at h1 h2
      rw [← i.counted, ← j.counted] at h2
      have hb := j.bounded
      exact .inr (.inr ⟨hnone, by omega, by omega⟩)
  · refine .inr (.inr ⟨lookup_eq_none fun v hv => ?_, by omega, by omega⟩)
    rw [(lookup_eq_some_iff j.distinct).mpr (ht hv)] at h
    cases h

/-- A larger table makes `remember` fail earlier, and nothing else. -/
lemma within_remember {i j : Identity} (h : Within i j) (u c : String) :
    Within (i.remember u c) (j.remember u c) := by
  have hown : SameOwner (i.remember u c) (j.remember u c) :=
    ((extends_remember i u c).toSameOwner.symm.trans h.owner).trans
      (extends_remember j u c).toSameOwner
  cases h with
  | failed _ err => exact .failed hown (by rwa [remember_of_err err])
  | subset _ hi hj ht =>
    by_cases hok : j.Takes u c
    swap
    · rcases remember_cases hj u c with ⟨-, h⟩ | ⟨h, _, -, hfit, -⟩ | ⟨-, e, h⟩
      · exact absurd (h.imp_right .inl) hok
      · exact absurd (.inr (.inr ⟨h, hfit⟩)) hok
      · exact .failed hown (by simp [h])
    have hik : i.Takes u c := hok.of_subset ht
    rcases remember_cases hi u c with ⟨hri, hci⟩ | ⟨hni, _, hidle, -, hri⟩ | ⟨h, -⟩
    · -- nothing is added to the smaller table
      refine .subset hown (by rwa [hri]) ?_ ?_
      · rcases remember_cases hj u c with ⟨hrj, -⟩ | ⟨_, _, -, -, hrj⟩ | ⟨h, -⟩
        · rwa [hrj]
        · rw [hrj]; exact hj
        · exact absurd hok h
      · rw [hri]
        exact fun e he => (extends_remember j u c).reverse.subset (ht he)
    · -- the entry is new to the smaller table, and in the larger one afterwards
      rcases remember_cases hj u c with ⟨hrj, hcj⟩ | ⟨_, _, -, -, hrj⟩ | ⟨h, -⟩
      · refine .subset hown (by rw [hri]; exact hi) (by rwa [hrj]) ?_
        rw [hri, hrj]
        refine List.append_subset.mpr ⟨ht, ?_⟩
        simpa using hcj.resolve_left hidle
      · refine .subset hown (by rw [hri]; exact hi) (by rw [hrj]; exact hj) ?_
        rw [hri, hrj]
        exact List.append_subset.mpr
          ⟨fun e he => List.mem_append_left _ (ht he), List.subset_append_right _ _⟩
      · exact absurd hok h
    · exact absurd hik h

/-! ### Methods -/

lemma bind_ok {m : IdentityM α} {f : α → IdentityM β} {i k : Identity} {b : β}
    (h : (m >>= f).run i = (.ok b, k)) :
    ∃ a j, m.run i = (.ok a, j) ∧ (f a).run j = (.ok b, k) := by
  rw [run_bind] at h
  rcases hm : m.run i with ⟨_ | a, j⟩ <;> rw [hm] at h
  · cases h
  · exact ⟨a, j, rfl, h⟩

lemma pure_ok {a b : α} {i j : Identity} (h : (pure a : IdentityM α).run i = (.ok b, j)) :
    b = a ∧ j = i := by
  rw [run_pure, Prod.mk.injEq, Except.ok.injEq] at h
  exact ⟨h.1.symm, h.2.symm⟩

/-- A method extends the identity it works on, and its outcome depends on the table only through
mapping errors. -/
structure Tracks (m : IdentityM α) : Prop where
  run : ∀ i, Extends i (m.run i).2
  within : ∀ i j, Within i j → Within (m.run i).2 (m.run j).2
  same : ∀ i j, Within i j → (m.run j).2.mappingErr = none → (m.run i).1 = (m.run j).1

namespace Tracks

lemma of_pure (a : α) : Tracks (pure a) :=
  ⟨fun i => .refl i, fun _ _ h => h, fun _ _ _ _ => rfl⟩

lemma of_fail (e : String) : Tracks (fail e : IdentityM α) :=
  ⟨fun i => .refl i, fun _ _ h => h, fun _ _ _ _ => rfl⟩

lemma of_remember (u c : String) : Tracks (update (Identity.remember · u c)) :=
  ⟨fun i => extends_remember i u c, fun _ _ h => within_remember h u c, fun _ _ _ _ => rfl⟩

lemma err_of_err {m : IdentityM α} (hm : Tracks m) {i : Identity} (h : i.mappingErr ≠ none) :
    (m.run i).2.mappingErr ≠ none := by rwa [(hm.run i).stuck h]

lemma of_bind {m : IdentityM α} {f : α → IdentityM β} (hm : Tracks m)
    (hf : ∀ a, Tracks (f a)) : Tracks (m >>= f) := by
  have hrun : ∀ i, Extends i ((m >>= f).run i).2 := fun i => by
    have h := hm.run i
    rw [run_bind]
    rcases hi : m.run i with ⟨_ | a, j⟩ <;> rw [hi] at h
    · exact h
    · exact h.trans ((hf a).run j)
  have hfirst : ∀ i, (m.run i).2.mappingErr ≠ none →
      ((m >>= f).run i).2.mappingErr ≠ none := fun i h => by
    rw [run_bind]
    rcases hi : m.run i with ⟨_ | a, j⟩ <;> rw [hi] at h
    · exact h
    · exact (hf a).err_of_err h
  refine ⟨hrun, fun i j h => ?_, fun i j h hok => ?_⟩
  · by_cases hj : (m.run j).2.mappingErr = none
    · -- the first half has the same result on both sides
      have hs := hm.same i j h hj
      have hw := hm.within i j h
      rw [run_bind, run_bind]
      generalize m.run i = x at hs hw ⊢
      generalize m.run j = y at hs hw ⊢
      obtain ⟨ri, i'⟩ := x
      obtain ⟨rj, j'⟩ := y
      cases (hs : ri = rj)
      cases ri with
      | ok a => exact (hf a).within _ _ hw
      | error e => exact hw
    · exact .failed (((hrun i).toSameOwner.symm.trans h.owner).trans (hrun j).toSameOwner)
        (hfirst j hj)
  · have hj : (m.run j).2.mappingErr = none := by
      by_contra hne
      exact hfirst j hne hok
    have hs := hm.same i j h hj
    have hw := hm.within i j h
    rw [run_bind] at hok ⊢
    rw [run_bind]
    generalize m.run i = x at hs hw ⊢
    generalize m.run j = y at hs hw hok ⊢
    obtain ⟨ri, i'⟩ := x
    obtain ⟨rj, j'⟩ := y
    cases (hs : ri = rj)
    cases ri with
    | ok a => exact (hf a).same _ _ hw hok
    | error e => rfl

lemma of_self {f : Identity → IdentityM α} (hf : ∀ i, Tracks (f i))
    (hs : ∀ i j, SameOwner i j → f i = f j) : Tracks (self >>= f) := by
  refine ⟨fun i => (hf i).run i, fun i j h => ?_, fun i j h hok => ?_⟩
  · rw [run_self_bind, run_self_bind, hs i j h.owner]
    exact (hf j).within i j h
  · rw [run_self_bind] at hok ⊢
    rw [run_self_bind, hs i j h.owner]
    exact (hf j).same i j h hok

lemma of_ite {p : Prop} [Decidable p] {m n : IdentityM α} (hm : Tracks m) (hn : Tracks n) :
    Tracks (if p then m else n) := by
  split_ifs
  exacts [hm, hn]

lemma of_mapError {m : IdentityM α} (hm : Tracks m) (g : String → String) :
    Tracks (mapError g m) := by
  have h2 : ∀ i, ((mapError g m).run i).2 = (m.run i).2 := fun i => by
    unfold mapError
    dsimp only
    split <;> simp [*]
  refine ⟨fun i => by rw [h2]; exact hm.run i, fun i j h => by
    rw [h2, h2]; exact hm.within i j h, fun i j h hok => ?_⟩
  rw [h2] at hok
  have hs := hm.same i j h hok
  unfold mapError
  dsimp only
  generalize m.run i = x at hs ⊢
  generalize m.run j = y at hs ⊢
  obtain ⟨ri, i'⟩ := x
  obtain ⟨rj, j'⟩ := y
  cases (hs : ri = rj)
  cases ri <;> rfl

end Tracks

@[simp] lemma run_mappingError (i : Identity) :
    mappingError.run i = (match i.mappingErr with
      | some e => .error e
      | none => .ok (), i) := by
  rw [mappingError, run_self_bind]
  cases i.mappingErr <;> rfl

lemma mappingError_ok {i j : Identity} {u : Unit} (h : mappingError.run i = (.ok u, j)) :
    j = i ∧ i.mappingErr = none := by
  rw [run_mappingError] at h
  cases hi : i.mappingErr <;> rw [hi] at h <;> cases h
  exact ⟨rfl, rfl⟩

lemma tracks_mappingError : Tracks mappingError := by
  refine ⟨fun i => ?_, fun i j h => ?_, fun i j h hok => ?_⟩
  · rw [run_mappingError]; exact .refl i
  · rwa [run_mappingError, run_mappingError]
  · rw [run_mappingError] at hok
    rw [run_mappingError, run_mappingError, hok, h.left_ok hok]

variable (d : Digests)

lemma tracks_mapValue (kind value : String) : Tracks (mapValue d kind value) := by
  refine .of_self (fun i => .of_ite (.of_pure _) ?_) fun i j h => by rw [h.remap, h.keyID]
  exact .of_bind (.of_remember _ _) fun _ => .of_pure _

lemma tracks_mapWindow (value : String) : Tracks (mapWindow d value) := by
  refine .of_self (fun i => .of_ite (.of_pure _) (.of_ite ?_ ?_)) fun i j h => by
    rw [h.remap, h.clientSessionID, h.upstreamSessionID]
  · exact .of_bind (.of_remember _ _) fun _ => .of_pure _
  · exact .of_bind (tracks_mapValue d _ _) fun _ => .of_pure _

/-- A property of methods that methods have when their parts have it. -/
structure Composes (P : ∀ {α : Type}, IdentityM α → Prop) : Prop where
  of_pure {α : Type} (a : α) : P (pure a)
  of_fail {α : Type} (e : String) : P (fail e : IdentityM α)
  of_bind {α β : Type} {m : IdentityM α} {f : α → IdentityM β} (hm : P m) (hf : ∀ a, P (f a)) :
    P (m >>= f)
  of_self {α : Type} {f : Identity → IdentityM α} (hf : ∀ i, P (f i))
    (hs : ∀ i j, SameOwner i j → f i = f j) : P (self >>= f)
  of_mapError {α : Type} {m : IdentityM α} (hm : P m) (g : String → String) : P (mapError g m)
  of_mappingError : P mappingError

namespace Composes

variable {P : ∀ {α : Type}, IdentityM α → Prop}

lemma of_ite (_ : Composes P) {p : Prop} [Decidable p] {m n : IdentityM α} (hm : P m)
    (hn : P n) : P (if p then m else n) := by
  split_ifs
  exacts [hm, hn]

variable (h : Composes P)
include h

lemma remapTurnField (metadata : Obj) (name : String) {map : String → IdentityM String}
    (hm : ∀ t, P (map t)) : P (remapTurnField metadata name map) := by
  unfold Identity.remapTurnField
  split
  · exact h.of_pure _
  · exact h.of_ite (h.of_fail _)
      (h.of_ite (h.of_bind (hm _) fun _ => h.of_pure _) (h.of_pure _))
  · exact h.of_fail _

lemma turnSessionKey (metadata : Obj) : P (turnSessionKey metadata) := by
  refine h.of_self (fun i => ?_) fun i j hs => by rw [hs.upstreamSessionID]
  split
  · exact h.of_pure _
  · exact h.of_ite (h.of_fail _) (h.of_ite (h.of_pure _) (h.of_pure _))
  · exact h.of_fail _

lemma remapClientField {map : String → IdentityM String} (hm : ∀ t, P (map t))
    (name : String) (metadata : Obj) : P (remapClientField map name metadata) := by
  unfold Identity.remapClientField
  split
  · exact h.of_pure _
  · exact h.of_ite (h.of_pure _)
      (h.of_ite (h.of_fail _) (h.of_bind (hm _) fun _ => h.of_pure _))
  · exact h.of_fail _

lemma remapClientSession (name : String) (metadata : Obj) :
    P (remapClientSession name metadata) :=
  h.of_self (fun _ => h.of_ite (h.of_pure _) (h.of_pure _)) fun i j hs => by
    rw [hs.upstreamSessionID]

lemma applyHeader {map : String → IdentityM String} (hm : ∀ t, P (map t))
    (name : String) (source target : Header) : P (applyHeader map name source target) :=
  h.of_ite (h.of_ite (h.of_fail _) (h.of_bind (hm _) fun _ => h.of_pure _)) (h.of_pure _)

variable {d : Digests} (hvalue : ∀ kind value, P (mapValue d kind value))
  (hwindow : ∀ value, P (mapWindow d value))
include hvalue hwindow

lemma remapTurnMetadata (raw : String) : P (remapTurnMetadata d raw) := by
  refine h.of_self (fun i => h.of_ite (h.of_pure _) (h.of_ite (h.of_fail _) ?_))
    fun i j hs => by rw [hs.remap]
  split
  · refine h.of_bind (h.turnSessionKey _) fun _ => ?_
    refine h.of_bind (h.remapTurnField _ _ fun _ => hvalue _ _) fun _ => ?_
    refine h.of_bind (h.remapTurnField _ _ fun _ => hvalue _ _) fun _ => ?_
    refine h.of_bind (h.remapTurnField _ _ fun _ => hwindow _) fun _ => ?_
    exact h.of_bind h.of_mappingError fun _ => h.of_pure _
  · exact h.of_fail _

lemma remapClientTurn (name : String) (metadata : Obj) : P (remapClientTurn d name metadata) := by
  unfold Identity.remapClientTurn
  split
  · exact h.of_pure _
  · exact h.of_bind (h.of_mapError (h.remapTurnMetadata hvalue hwindow _) _) fun _ => h.of_pure _
  · exact h.of_fail _

lemma remapClientMetadata (metadata : Obj) : P (remapClientMetadata d metadata) := by
  refine h.of_self (fun i => h.of_ite (h.of_pure _) ?_) fun i j hs => by rw [hs.remap]
  have hv := fun kind name metadata =>
    h.remapClientField (fun t => hvalue kind t) name metadata
  have hw := h.remapClientField hwindow
  refine h.of_bind (hv _ _ _) fun _ => h.of_bind (hv _ _ _) fun _ => ?_
  refine h.of_bind (hv _ _ _) fun _ => h.of_bind (hv _ _ _) fun _ => ?_
  refine h.of_bind (hv _ _ _) fun _ => h.of_bind (hv _ _ _) fun _ => ?_
  refine h.of_bind (hw _ _) fun _ => h.of_bind (hw _ _) fun _ => ?_
  refine h.of_bind (h.remapClientSession _ _) fun _ => ?_
  refine h.of_bind (h.remapClientSession _ _) fun _ => ?_
  refine h.of_bind (h.remapClientSession _ _) fun _ => ?_
  refine h.of_bind (h.remapClientTurn hvalue hwindow _ _) fun _ => ?_
  refine h.of_bind (h.remapClientTurn hvalue hwindow _ _) fun _ => ?_
  exact h.of_bind h.of_mappingError fun _ => h.of_pure _

lemma prepareMetadata (object : Obj) : P (prepareMetadata d object) := by
  unfold Identity.prepareMetadata
  split
  · exact h.of_bind (h.remapClientMetadata hvalue hwindow _) fun _ => h.of_pure _
  · exact h.of_pure _

lemma prepareBody (object : Obj) (fixed : Bool) : P (prepareBody d object fixed) := by
  refine h.of_self (fun i => ?_) fun i j hs => by rw [hs.clientSessionID, hs.upstreamSessionID]
  split
  · exact h.of_fail _
  · refine h.of_ite (h.of_fail _) (h.of_bind (h.prepareMetadata hvalue hwindow _) fun _ => ?_)
    exact h.of_bind h.of_mappingError fun _ => h.of_pure _

lemma applyTurnHeader (source target : Header) : P (applyTurnHeader d source target) :=
  h.of_ite (h.of_bind (h.of_mapError (h.remapTurnMetadata hvalue hwindow _) _) fun _ =>
    h.of_pure _) (h.of_pure _)

lemma applyHeaders (target source : Header) (websocketTransport : Bool) :
    P (applyHeaders d target source websocketTransport) := by
  refine h.of_self (fun i => h.of_ite ?_ ?_) fun i j hs => by
    rw [sessionHeaders, sessionHeaders, hs.remap, hs.upstreamSessionID]
  · exact h.of_bind h.of_mappingError fun _ => h.of_pure _
  · refine h.of_bind (h.applyHeader (fun t => hvalue _ t) _ _ _) fun _ => ?_
    refine h.of_bind (h.applyHeader (fun t => hvalue _ t) _ _ _) fun _ => ?_
    refine h.of_bind (h.applyHeader (fun t => hwindow t) _ _ _) fun _ => ?_
    refine h.of_bind (h.applyTurnHeader hvalue hwindow _ _) fun _ => ?_
    exact h.of_bind h.of_mappingError fun _ => h.of_pure _

end Composes

lemma composes_tracks : Composes Tracks where
  of_pure := .of_pure
  of_fail := .of_fail
  of_bind := .of_bind
  of_self := .of_self
  of_mapError := .of_mapError
  of_mappingError := tracks_mappingError

lemma tracks_prepareBody (object : Obj) (fixed : Bool) : Tracks (prepareBody d object fixed) :=
  composes_tracks.prepareBody (tracks_mapValue d) (tracks_mapWindow d) object fixed

lemma tracks_applyHeaders (target source : Header) (websocketTransport : Bool) :
    Tracks (applyHeaders d target source websocketTransport) :=
  composes_tracks.applyHeaders (tracks_mapValue d) (tracks_mapWindow d) target source
    websocketTransport

/-- What `prepareBody` leaves is what `prepareMetadata` makes of the body with the session in it. -/
lemma prepareBody_sent {object body : Obj} {fixed : Bool} {i j : Identity}
    (h : (prepareBody d object fixed).run i = (.ok body, j)) :
    (prepareMetadata d (if i.upstreamSessionID ≠ "" then
        Members.set object "prompt_cache_key" (.str i.upstreamSessionID) else object)).run i =
      (.ok body, j) ∧ j.mappingErr = none := by
  rw [prepareBody, run_self_bind] at h
  split at h
  · cases h
  · rename_i explicitSession _
    by_cases hfixed : fixed = true ∧ explicitSession ≠ "" ∧
        explicitSession ≠ i.clientSessionID ∧ explicitSession ≠ i.upstreamSessionID
    · -- a body that names another session than the connection is refused
      rw [if_pos hfixed] at h
      cases h
    rw [if_neg hfixed] at h
    obtain ⟨_, _, hmetadata, h1⟩ := bind_ok h
    obtain ⟨_, _, hm, h2⟩ := bind_ok h1
    obtain ⟨rfl, hnone⟩ := mappingError_ok hm
    obtain ⟨rfl, rfl⟩ := pure_ok h2
    exact ⟨hmetadata, hnone⟩

lemma prepareBody_ok {object body : Obj} {fixed : Bool} {i j : Identity}
    (h : (prepareBody d object fixed).run i = (.ok body, j)) : j.mappingErr = none :=
  (prepareBody_sent d h).2

lemma bind_eq_ok {α β : Type} {x : Except String α} {f : α → Except String β} {b : β}
    (h : (x >>= f) = .ok b) : ∃ a, x = .ok a ∧ f a = .ok b := by
  cases x with
  | error e => cases h
  | ok a => exact ⟨a, rfl, h⟩

lemma blank_distinct : (([] : List (String × String)).map Prod.fst).Nodup := List.nodup_nil

lemma blank_counted : 0 = (([] : List (String × String)).map entryBytes).sum := rfl

lemma blank_bounded : ([] : List (String × String)).length ≤ maxIdentityMappings ∧
    0 ≤ maxIdentityMappingBytes := by decide

/-- The identity that `newCodexIdentity` starts from. -/
def blank (remap : Bool) (keyID clientSessionID : String) : Identity :=
  { remap, keyID, clientSessionID, upstreamSessionID := "", reverse := [], mappingBytes := 0
    mappingErr := none, distinct := blank_distinct, counted := blank_counted
    bounded := blank_bounded }

lemma new_ok {key : Option String} {headers : Header} {object : Obj} {remap : Bool} {i : Identity}
    (h : Identity.new d key headers object remap = .ok i) :
    ∃ client up j, i = { j with upstreamSessionID := up } ∧ j.mappingErr = none ∧
      (validIdentityValue client = true ∧ (mapValue d "prompt-cache" client).run
          (blank remap (trimSpace (key.getD "")) client) = (.ok up, j) ∨
        client = "" ∧ j = blank remap (trimSpace (key.getD "")) client ∧
          up = if trimSpace (key.getD "") ≠ "" then d.stableSessionID (trimSpace (key.getD ""))
            else "") := by
  rw [Identity.new] at h
  obtain ⟨bodySessionID, -, h⟩ := bind_eq_ok h
  extract_lets keyID client i0 at h
  have hi0 : i0 = blank remap keyID client := rfl
  have hkey : trimSpace (key.getD "") = keyID := rfl
  rw [hkey]
  clear_value i0 client keyID
  subst hi0
  by_cases hc : client ≠ "" ∧ validIdentityValue client = false
  · rw [if_pos hc] at h
    cases h
  rw [if_neg hc] at h
  by_cases hne : client ≠ ""
  · rw [if_pos hne] at h
    rcases hrun : (mapValue d "prompt-cache" client).run (blank remap keyID client) with ⟨m, j⟩
    rw [hrun] at h
    obtain ⟨up, hup, h⟩ := bind_eq_ok h
    split at h
    · cases h
    · rename_i hj
      have hvalid : validIdentityValue client = true := by
        by_contra hinvalid
        exact hc ⟨hne, by simpa using hinvalid⟩
      refine ⟨client, up, j, (Except.ok.inj h).symm, hj, .inl ⟨hvalid, ?_⟩⟩
      rw [hrun, hup]
  · rw [if_neg hne] at h
    rw [not_not] at hne
    refine ⟨client, if keyID ≠ "" then d.stableSessionID keyID else "",
      blank remap keyID client, ?_,
      rfl, .inr ⟨hne, rfl, rfl⟩⟩
    split_ifs at h ⊢ <;> exact (Except.ok.inj h).symm

lemma new_owner {key : Option String} {headers : Header} {object : Obj} {remap : Bool}
    {i : Identity}
    (h : Identity.new d key headers object remap = .ok i) :
    i.remap = remap ∧ i.keyID = trimSpace (key.getD "") := by
  obtain ⟨client, up, j, rfl, -, ⟨-, hrun⟩ | ⟨-, rfl, -⟩⟩ := new_ok d h
  · have hext := (tracks_mapValue d "prompt-cache" client).run
      (blank remap (trimSpace (key.getD "")) client)
    rw [hrun] at hext
    exact ⟨hext.remap.symm, hext.keyID.symm⟩
  · exact ⟨rfl, rfl⟩
end CodexOne.Identity
