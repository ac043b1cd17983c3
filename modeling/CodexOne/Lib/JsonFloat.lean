import CodexOne.Lib.JsonCodec
import Mathlib.Data.List.Forall2

/-!
Values that survive a pass through `float64`.

`json.Unmarshal` into an `any` reads numbers as `float64`. A value comes back from it as the same
JSON value exactly when its numbers are in range and held exactly.
-/

namespace CodexOne

open Members

namespace JsonOf

variable {ν μ : Type}

lemma map_eq_self {α : Type} {f : α → α} {l : List α} : l.map f = l ↔ ∀ x ∈ l, f x = x := by
  conv_lhs => rhs; rw [← List.map_id l]
  exact List.map_inj_left

lemma canon_arr_iff {xs : List (JsonOf ν)} : (arr xs).canon = arr xs ↔ ∀ x ∈ xs, x.canon = x := by
  rw [canon_arr, arr.injEq]
  constructor
  · exact fun h x hx => map_eq_self.mp h x hx
  · exact fun h => map_eq_self.mpr h

lemma canon_obj_iff {ms : List (String × JsonOf ν)} :
    (obj ms).canon = obj ms ↔ Sorted ms ∧ ∀ m ∈ ms, m.2.canon = m.2 := by
  rw [canon_obj, obj.injEq]
  constructor
  · intro h
    have hs : Sorted ms := h ▸ sorted_build _
    have hs' : Sorted (ms.map fun m => (m.1, canon m.2)) := by
      simpa [Sorted, List.pairwise_map] using hs
    rw [build_sorted hs'] at h
    exact ⟨hs, fun m hm => congrArg Prod.snd (map_eq_self.mp h m hm)⟩
  · rintro ⟨hs, h⟩
    have hid : (ms.map fun m => (m.1, canon m.2)) = ms :=
      map_eq_self.mpr fun m hm => by rw [h m hm]
    rw [hid, build_sorted hs]

lemma sorted_of_keys {α : Type} {ms : List (String × α)}
    (h : (ms.map Prod.fst).Pairwise (· < ·)) : Sorted ms := List.pairwise_map.mp h

lemma canon_set {ms : List (String × JsonOf ν)} (h : (obj ms).canon = obj ms) (k : String)
    {v : JsonOf ν} (hv : v.canon = v) : (obj (set ms k v)).canon = obj (set ms k v) := by
  obtain ⟨hs, hm⟩ := canon_obj_iff.mp h
  refine canon_obj_iff.mpr ⟨hs.set k v, fun m hmem => ?_⟩
  rcases mem_set hmem with rfl | hmem
  · exact hv
  · exact hm m hmem

lemma canon_erase {ms : List (String × JsonOf ν)} (h : (obj ms).canon = obj ms) (k : String) :
    (obj (erase ms k)).canon = obj (erase ms k) := by
  obtain ⟨hs, hm⟩ := canon_obj_iff.mp h
  exact canon_obj_iff.mpr ⟨hs.erase k, fun m hmem => hm m (List.mem_of_mem_filter hmem)⟩

lemma canon_get {ms : List (String × JsonOf ν)} (h : (obj ms).canon = obj ms) {k : String}
    {v : JsonOf ν} (hg : get ms k = some v) : v.canon = v :=
  (canon_obj_iff.mp h).2 _ (mem_of_get hg)

lemma canon_modify {ms : List (String × JsonOf ν)} (h : (obj ms).canon = obj ms) (k : String)
    {f : JsonOf ν → JsonOf ν} (hf : ∀ v, v.canon = v → (f v).canon = f v) :
    (obj (Members.modify ms k f)).canon = obj (Members.modify ms k f) := by
  unfold Members.modify
  cases hg : get ms k with
  | none => exact h
  | some v => exact canon_set h k (hf v (canon_get h hg))

lemma canon_mapItems {v : JsonOf ν} (h : v.canon = v) {f : JsonOf ν → JsonOf ν}
    (hf : ∀ v, v.canon = v → (f v).canon = f v) : (v.mapItems f).canon = v.mapItems f := by
  cases v with
  | arr xs =>
    rw [mapItems, canon_arr_iff]
    intro x hx
    obtain ⟨y, hy, rfl⟩ := List.mem_map.mp hx
    exact hf y (canon_arr_iff.mp h y hy)
  | _ => exact h

lemma canon_mapObj {v : JsonOf ν} (h : v.canon = v)
    {f : List (String × JsonOf ν) → List (String × JsonOf ν)}
    (hf : ∀ o, (obj o).canon = obj o → (obj (f o)).canon = obj (f o)) :
    (v.mapObj f).canon = v.mapObj f := by
  cases v with
  | obj o => exact hf o h
  | _ => exact h

lemma mapNum_canon (f : ν → μ) {v : JsonOf ν} (h : v.canon = v) :
    (v.mapNum f).canon = v.mapNum f := by
  induction v using induct with
  | null | bool | num | str => rfl
  | arr xs ih =>
    rw [mapNum_arr, canon_arr_iff]
    rw [canon_arr_iff] at h
    intro x hx
    obtain ⟨y, hy, rfl⟩ := List.mem_map.mp hx
    exact ih y hy (h y hy)
  | obj ms ih =>
    rw [mapNum_obj, canon_obj_iff]
    obtain ⟨hs, h⟩ := canon_obj_iff.mp h
    refine ⟨by simpa [Sorted, List.pairwise_map] using hs, fun m hm => ?_⟩
    obtain ⟨n, hn, rfl⟩ := List.mem_map.mp hm
    exact ih n hn (h n hn)

lemma mem_numbers_canon {v : JsonOf ν} {n : ν} (h : n ∈ v.canon.numbers) : n ∈ v.numbers := by
  induction v using induct with
  | null | bool | num | str => exact h
  | arr xs ih =>
    rw [canon_arr, numbers_arr, List.flatMap_map, List.mem_flatMap] at h
    obtain ⟨x, hx, hn⟩ := h
    rw [numbers_arr, List.mem_flatMap]
    exact ⟨x, hx, ih x hx hn⟩
  | obj ms ih =>
    rw [canon_obj, numbers_obj, List.mem_flatMap] at h
    obtain ⟨m, hm, hn⟩ := h
    rcases mem_foldl_set hm with hm | hm
    · obtain ⟨l, hl, rfl⟩ := List.mem_map.mp hm
      rw [numbers_obj, List.mem_flatMap]
      exact ⟨l, hl, ih l hl hn⟩
    · cases hm

lemma get_map_mapNum (f : ν → μ) (ms : List (String × JsonOf ν)) (k : String) :
    get (ms.map fun m => (m.1, mapNum f m.2)) k = (get ms k).map (mapNum f) := by
  induction ms with
  | nil => rfl
  | cons m ms ih =>
    obtain ⟨l, w⟩ := m
    rw [List.map_cons, get_cons, get_cons, ih]
    split_ifs <;> rfl

lemma set_map_mapNum (f : ν → μ) (ms : List (String × JsonOf ν)) (k : String) (v : JsonOf ν) :
    set (ms.map fun m => (m.1, mapNum f m.2)) k (mapNum f v) =
      (set ms k v).map fun m => (m.1, mapNum f m.2) := by
  induction ms with
  | nil => rfl
  | cons m ms ih =>
    obtain ⟨l, w⟩ := m
    rw [List.map_cons, Members.set, Members.set]
    split_ifs
    · rfl
    · rfl
    · rw [ih]; rfl

end JsonOf

namespace Number

/-- The number a `float64` holds for a literal. -/
def rounded (n : Number) : Number := n.viaFloat64.getD n

end Number

namespace Json

def InRange (v : Json) : Prop := ∀ n ∈ v.numbers, n.viaFloat64.isSome

/-- All numbers are held exactly by a `float64`. -/
def Exact (v : Json) : Prop := ∀ n ∈ v.numbers, n.Exact

instance (v : Json) : Decidable v.InRange := List.decidableBAll _ _
instance (v : Json) : Decidable v.Exact := List.decidableBAll _ _

lemma Exact.inRange {v : Json} (h : v.Exact) : v.InRange := fun n hn => by
  obtain ⟨m, hm, -⟩ := h n hn
  rw [hm]
  rfl

/-- Rounding gives the same JSON value exactly when it changes no number. -/
lemma same_mapNum_rounded {v : Json} (h : v.InRange) :
    v.Same (v.mapNum Number.rounded) ↔ v.Exact := by
  rw [Same, JsonOf.mapNum_mapNum, JsonOf.mapNum_eq_mapNum_iff]
  refine forall₂_congr fun n hn => ?_
  obtain ⟨m, hm⟩ := Option.isSome_iff_exists.mp (h n hn)
  simp only [Number.rounded, Number.Exact, hm, Option.getD_some, Option.some.injEq,
    exists_eq_left', eq_comm]

end Json

namespace Raw

lemma unmarshal_eq (r : Raw) :
    r.unmarshal = if Json.InRange r.tree then some (r.decode.mapNum Number.rounded) else none := by
  unfold unmarshal Json.InRange
  simp only [List.all_eq_true]
  rfl

lemma unmarshal_ofJson {v : Json} (h : v.canon = v) :
    (ofJson v).unmarshal = if v.InRange then some (v.mapNum Number.rounded) else none := by
  rw [unmarshal_eq, tree_ofJson, decode_ofJson, h]

lemma inRange_decode {r : Raw} (h : Json.InRange r.tree) : Json.InRange r.decode :=
  fun n hn => h n (JsonOf.mem_numbers_canon hn)

/-- A text comes back from `json.Unmarshal` as the same value. -/
def Survives (r : Raw) : Prop := Json.InRange r.tree ∧ Json.Exact r.decode

instance (r : Raw) : Decidable r.Survives := inferInstanceAs (Decidable (_ ∧ _))

/-- Decoding a list of texts, skipping those that fail, gives their values exactly when all of
them survive. -/
lemma same_filterMap_unmarshal (items : List Raw) :
    List.Forall₂ Json.Same (items.filterMap unmarshal) (items.map decode) ↔
      ∀ r ∈ items, r.Survives := by
  induction items with
  | nil => simp
  | cons r items ih =>
    rw [List.forall_mem_cons, ← ih, List.map_cons, List.filterMap_cons, unmarshal_eq]
    by_cases hr : Json.InRange r.tree
    · have hsame := Json.same_mapNum_rounded (inRange_decode hr)
      rw [if_pos hr]
      dsimp only
      rw [List.forall₂_cons, Survives, ← hsame]
      exact and_congr_left fun _ => ⟨fun h => ⟨hr, h.symm⟩, fun h => h.2.symm⟩
    · -- a text that is skipped leaves the list too short
      rw [if_neg hr]
      refine iff_of_false (fun h => ?_) fun h => hr h.1.1
      have hlen := h.length_eq
      have hle := List.length_filterMap_le unmarshal items
      dsimp only at hlen
      rw [List.length_cons, List.length_map] at hlen
      omega

lemma canon_decode (r : Raw) : r.decode.canon = r.decode := JsonOf.canon_canon _

end Raw

end CodexOne
