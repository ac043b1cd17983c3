import CodexOne.Lib.Number
import Mathlib.Data.String.Basic
import Mathlib.Order.Basic

/-!
JSON values as Go holds them after decoding into an `any`.

An object is the list of its members in increasing key order without repetition, which is how
`encoding/json` prints a `map[string]any`. The operations on members below keep a list in that
form and make sense on every list.
-/

namespace CodexOne

/-- A JSON value with numbers in `ν`. -/
inductive JsonOf (ν : Type) where
  | null
  | bool (b : Bool)
  | num (n : ν)
  | str (s : String)
  | arr (xs : List (JsonOf ν))
  | obj (ms : List (String × JsonOf ν))

/-- A value whose numbers are literals, what decoding with `UseNumber` gives. -/
abbrev Json := JsonOf Number

/-- A decoded object, Go's `map[string]any`. -/
abbrev Obj := List (String × Json)

namespace JsonOf

variable {ν μ : Type}

instance : Inhabited (JsonOf ν) := ⟨null⟩

/-- Induction with the hypothesis for every element and every member value. -/
theorem induct {P : JsonOf ν → Prop} (null : P null) (bool : ∀ b, P (bool b))
    (num : ∀ n, P (num n)) (str : ∀ s, P (str s))
    (arr : ∀ xs, (∀ x ∈ xs, P x) → P (arr xs))
    (obj : ∀ ms, (∀ m ∈ ms, P m.2) → P (obj ms)) (v : JsonOf ν) : P v :=
  JsonOf.rec (motive_1 := P) (motive_2 := fun xs => ∀ x ∈ xs, P x)
    (motive_3 := fun ms => ∀ m ∈ ms, P m.2) (motive_4 := fun m => P m.2)
    null bool num str (fun xs h => arr xs h) (fun ms h => obj ms h)
    (by simp) (fun _ _ hx hxs => by simpa using ⟨hx, hxs⟩)
    (by simp) (fun _ _ hm hms => by
      intro m h
      rcases List.mem_cons.mp h with rfl | h
      exacts [hm, hms m h])
    (fun _ _ h => h) v

section
variable [DecidableEq ν]

mutual
def decEq : (a b : JsonOf ν) → Decidable (a = b)
  | null, null => isTrue rfl
  | bool a, bool b => decidable_of_iff (a = b) (by simp)
  | num a, num b => decidable_of_iff (a = b) (by simp)
  | str a, str b => decidable_of_iff (a = b) (by simp)
  | arr a, arr b => match decEqList a b with
    | isTrue h => isTrue (by rw [h])
    | isFalse h => isFalse (by simpa using h)
  | obj a, obj b => match decEqMembers a b with
    | isTrue h => isTrue (by rw [h])
    | isFalse h => isFalse (by simpa using h)
  | null, bool _ | null, num _ | null, str _ | null, arr _ | null, obj _
  | bool _, null | bool _, num _ | bool _, str _ | bool _, arr _ | bool _, obj _
  | num _, null | num _, bool _ | num _, str _ | num _, arr _ | num _, obj _
  | str _, null | str _, bool _ | str _, num _ | str _, arr _ | str _, obj _
  | arr _, null | arr _, bool _ | arr _, num _ | arr _, str _ | arr _, obj _
  | obj _, null | obj _, bool _ | obj _, num _ | obj _, str _ | obj _, arr _ =>
    isFalse (by simp)

def decEqList : (a b : List (JsonOf ν)) → Decidable (a = b)
  | [], [] => isTrue rfl
  | x :: a, y :: b => match decEq x y, decEqList a b with
    | isTrue h, isTrue h' => isTrue (by rw [h, h'])
    | isFalse h, _ => isFalse (by simp [h])
    | _, isFalse h => isFalse (by simp [h])
  | [], _ :: _ | _ :: _, [] => isFalse (by simp)

def decEqMembers : (a b : List (String × JsonOf ν)) → Decidable (a = b)
  | [], [] => isTrue rfl
  | (k, x) :: a, (l, y) :: b => match decEq x y, decEqMembers a b with
    | isTrue h, isTrue h' => decidable_of_iff (k = l) (by simp [h, h'])
    | isFalse h, _ => isFalse (by simp [h])
    | _, isFalse h => isFalse (by simp [h])
  | [], _ :: _ | _ :: _, [] => isFalse (by simp)
end

instance : DecidableEq (JsonOf ν) := decEq

end

mutual
def mapNum (f : ν → μ) : JsonOf ν → JsonOf μ
  | null => null
  | bool b => bool b
  | num n => num (f n)
  | str s => str s
  | arr xs => arr (mapNumList f xs)
  | obj ms => obj (mapNumMembers f ms)

def mapNumList (f : ν → μ) : List (JsonOf ν) → List (JsonOf μ)
  | [] => []
  | x :: xs => mapNum f x :: mapNumList f xs

def mapNumMembers (f : ν → μ) : List (String × JsonOf ν) → List (String × JsonOf μ)
  | [] => []
  | (k, x) :: ms => (k, mapNum f x) :: mapNumMembers f ms
end

lemma mapNumList_eq (f : ν → μ) (xs : List (JsonOf ν)) : mapNumList f xs = xs.map (mapNum f) := by
  induction xs with
  | nil => rfl
  | cons x xs ih => simp [mapNumList, ih]

lemma mapNumMembers_eq (f : ν → μ) (ms : List (String × JsonOf ν)) :
    mapNumMembers f ms = ms.map fun m => (m.1, mapNum f m.2) := by
  induction ms with
  | nil => rfl
  | cons m ms ih => obtain ⟨k, x⟩ := m; simp [mapNumMembers, ih]

@[simp] lemma mapNum_null (f : ν → μ) : mapNum f null = null := rfl
@[simp] lemma mapNum_bool (f : ν → μ) (b : Bool) : mapNum f (bool b) = bool b := rfl
@[simp] lemma mapNum_num (f : ν → μ) (n : ν) : mapNum f (num n) = num (f n) := rfl
@[simp] lemma mapNum_str (f : ν → μ) (s : String) : mapNum f (str s) = str s := rfl
@[simp] lemma mapNum_arr (f : ν → μ) (xs : List (JsonOf ν)) :
    mapNum f (arr xs) = arr (xs.map (mapNum f)) := by rw [mapNum, mapNumList_eq]
@[simp] lemma mapNum_obj (f : ν → μ) (ms : List (String × JsonOf ν)) :
    mapNum f (obj ms) = obj (ms.map fun m => (m.1, mapNum f m.2)) := by
  rw [mapNum, mapNumMembers_eq]

mutual
/-- The numbers of a value, in the order they stand. -/
def numbers : JsonOf ν → List ν
  | num n => [n]
  | arr xs => numbersList xs
  | obj ms => numbersMembers ms
  | _ => []

def numbersList : List (JsonOf ν) → List ν
  | [] => []
  | x :: xs => numbers x ++ numbersList xs

def numbersMembers : List (String × JsonOf ν) → List ν
  | [] => []
  | (_, x) :: ms => numbers x ++ numbersMembers ms
end

lemma numbersList_eq (xs : List (JsonOf ν)) : numbersList xs = xs.flatMap numbers := by
  induction xs with
  | nil => rfl
  | cons x xs ih => simp [numbersList, ih]

lemma numbersMembers_eq (ms : List (String × JsonOf ν)) :
    numbersMembers ms = ms.flatMap fun m => numbers m.2 := by
  induction ms with
  | nil => rfl
  | cons m ms ih => obtain ⟨k, x⟩ := m; simp [numbersMembers, ih]

@[simp] lemma numbers_arr (xs : List (JsonOf ν)) : numbers (arr xs) = xs.flatMap numbers := by
  rw [numbers, numbersList_eq]
@[simp] lemma numbers_obj (ms : List (String × JsonOf ν)) :
    numbers (obj ms) = ms.flatMap fun m => numbers m.2 := by
  rw [numbers, numbersMembers_eq]
@[simp] lemma numbers_num (n : ν) : numbers (num n) = [n] := rfl

/-- Two replacements that agree in value on a value's numbers, and only these, give the same
value. -/
lemma mapNum_eq_mapNum_iff {f g : ν → μ} (v : JsonOf ν) :
    mapNum f v = mapNum g v ↔ ∀ n ∈ numbers v, f n = g n := by
  induction v using induct with
  | null => simp [numbers]
  | bool => simp [numbers]
  | num => simp
  | str => simp [numbers]
  | arr xs ih =>
    simp only [mapNum_arr, arr.injEq, numbers_arr, List.mem_flatMap]
    rw [List.map_inj_left]
    constructor
    · rintro h n ⟨x, hx, hn⟩
      exact (ih x hx).mp (h x hx) n hn
    · exact fun h x hx => (ih x hx).mpr fun n hn => h n ⟨x, hx, hn⟩
  | obj ms ih =>
    simp only [mapNum_obj, obj.injEq, numbers_obj, List.mem_flatMap]
    rw [List.map_inj_left]
    constructor
    · rintro h n ⟨m, hm, hn⟩
      exact (ih m hm).mp (congrArg Prod.snd (h m hm)) n hn
    · exact fun h m hm => by rw [(ih m hm).mpr fun n hn => h n ⟨m, hm, hn⟩]

lemma mapNum_mapNum {ρ : Type} (f : ν → μ) (g : μ → ρ) (v : JsonOf ν) :
    mapNum g (mapNum f v) = mapNum (fun n => g (f n)) v := by
  induction v using induct with
  | null | bool | num | str => simp
  | arr xs ih => simpa using ih
  | obj ms ih => simpa using fun k x h => ih (k, x) h

/-- Go's `text, _ := value.(string)`. -/
def text : JsonOf ν → String
  | str s => s
  | _ => ""

/-- Go's `items, _ := value.([]any)`. -/
def items : JsonOf ν → List (JsonOf ν)
  | arr xs => xs
  | _ => []

/-- Go's `object, _ := value.(map[string]any)`. -/
def members : JsonOf ν → List (String × JsonOf ν)
  | obj ms => ms
  | _ => []

/-- Go's `flag, _ := value.(bool)`. -/
def flag : JsonOf ν → Bool
  | bool b => b
  | _ => false

def mapItems (f : JsonOf ν → JsonOf ν) : JsonOf ν → JsonOf ν
  | arr xs => arr (xs.map f)
  | v => v

def mapObj (f : List (String × JsonOf ν) → List (String × JsonOf ν)) : JsonOf ν → JsonOf ν
  | obj ms => obj (f ms)
  | v => v

@[simp] lemma text_str (s : String) : (str s : JsonOf ν).text = s := rfl
@[simp] lemma items_arr (xs : List (JsonOf ν)) : (arr xs).items = xs := rfl
@[simp] lemma members_obj (ms : List (String × JsonOf ν)) : (obj ms).members = ms := rfl

end JsonOf

namespace Json

/-- Two values are the same JSON value: equal but for the spelling of numbers. -/
def Same (a b : Json) : Prop := a.mapNum Number.decimal = b.mapNum Number.decimal

instance (a b : Json) : Decidable (a.Same b) :=
  inferInstanceAs (Decidable (a.mapNum Number.decimal = b.mapNum Number.decimal))

@[refl] lemma Same.refl (a : Json) : a.Same a := rfl

end Json

/-! ### Objects -/

namespace Members

variable {α : Type}

/-- `value, exists := object[k]`. -/
def get (o : List (String × α)) (k : String) : Option α := o.lookup k

/-- `_, exists := object[k]`. -/
def has (o : List (String × α)) (k : String) : Bool := (get o k).isSome

/-- `object[k] = v`. -/
def set : List (String × α) → String → α → List (String × α)
  | [], k, v => [(k, v)]
  | (l, w) :: o, k, v =>
    if k = l then (k, v) :: o
    else if k < l then (k, v) :: (l, w) :: o
    else (l, w) :: set o k v

/-- `delete(object, k)`. -/
def erase (o : List (String × α)) (k : String) : List (String × α) := o.filter (·.1 ≠ k)

/-- Rewrite the value of `k` in place, where there is one. -/
def modify (o : List (String × α)) (k : String) (f : α → α) : List (String × α) :=
  match get o k with
  | some v => set o k (f v)
  | none => o

@[simp] lemma get_nil (k : String) : get ([] : List (String × α)) k = none := rfl

lemma get_cons (l : String) (w : α) (o : List (String × α)) (k : String) :
    get ((l, w) :: o) k = if k = l then some w else get o k := by
  unfold get
  by_cases h : k = l
  · simp [h]
  · rw [List.lookup_cons, beq_false_of_ne h, if_neg h]

@[simp] lemma get_set_self (o : List (String × α)) (k : String) (v : α) :
    get (set o k v) k = some v := by
  induction o with
  | nil => simp [set, get_cons]
  | cons m o ih =>
    obtain ⟨l, w⟩ := m
    unfold set
    split_ifs with h1 h2
    · simp [get_cons]
    · simp [get_cons]
    · simp [get_cons, h1, ih]

lemma get_set_ne (o : List (String × α)) {k j : String} (v : α) (h : j ≠ k) :
    get (set o k v) j = get o j := by
  induction o with
  | nil => simp [set, get_cons, h]
  | cons m o ih =>
    obtain ⟨l, w⟩ := m
    unfold set
    split_ifs with h1 h2
    · subst h1; simp [get_cons, h]
    · simp [get_cons, h]
    · simp [get_cons, ih]

lemma get_set (o : List (String × α)) (k j : String) (v : α) :
    get (set o k v) j = if j = k then some v else get o j := by
  split_ifs with h
  · rw [h, get_set_self]
  · exact get_set_ne o v h

lemma get_erase (o : List (String × α)) (k j : String) :
    get (erase o k) j = if j = k then none else get o j := by
  induction o with
  | nil => simp [erase]
  | cons m o ih =>
    obtain ⟨l, w⟩ := m
    unfold erase at ih ⊢
    by_cases h : l = k
    · rw [List.filter_cons_of_neg (by simpa using h), ih, get_cons]
      subst h
      split_ifs <;> rfl
    · rw [List.filter_cons_of_pos (by simpa using h), get_cons, get_cons, ih]
      by_cases hj : j = l
      · rw [if_pos hj, if_pos hj, if_neg (fun e => h (hj ▸ e))]
      · rw [if_neg hj, if_neg hj]

@[simp] lemma get_erase_self (o : List (String × α)) (k : String) : get (erase o k) k = none := by
  simp [get_erase]

lemma get_erase_ne (o : List (String × α)) {k j : String} (h : j ≠ k) :
    get (erase o k) j = get o j := by simp [get_erase, h]

lemma get_modify (o : List (String × α)) (k j : String) (f : α → α) :
    get (modify o k f) j = if j = k then (get o k).map f else get o j := by
  unfold modify
  cases h : get o k with
  | some v => simp only [get_set, Option.map_some]
  | none =>
    simp only [Option.map_none]
    split_ifs with hj
    · rw [hj, h]
    · rfl

lemma get_modify_ne (o : List (String × α)) {k j : String} (f : α → α) (h : j ≠ k) :
    get (modify o k f) j = get o j := by rw [get_modify, if_neg h]

@[simp] lemma has_set_self (o : List (String × α)) (k : String) (v : α) :
    has (set o k v) k = true := by simp [has]

lemma mem_of_get {o : List (String × α)} {k : String} {v : α} (h : get o k = some v) :
    (k, v) ∈ o := by
  induction o with
  | nil => cases h
  | cons m o ih =>
    obtain ⟨l, w⟩ := m
    rw [get_cons] at h
    split_ifs at h with hk
    · cases h; simp [hk]
    · exact List.mem_cons_of_mem _ (ih h)

/-- The members are in strictly increasing key order. -/
def Sorted (o : List (String × α)) : Prop := o.Pairwise (·.1 < ·.1)

lemma mem_set {o : List (String × α)} {k : String} {v : α} {m : String × α}
    (h : m ∈ set o k v) : m = (k, v) ∨ m ∈ o := by
  induction o with
  | nil => left; simpa [set] using h
  | cons n o ih =>
    obtain ⟨l, w⟩ := n
    unfold set at h
    split_ifs at h with h1 h2
    · rcases List.mem_cons.mp h with h | h
      exacts [.inl h, .inr (List.mem_cons_of_mem _ h)]
    · rcases List.mem_cons.mp h with h | h
      exacts [.inl h, .inr h]
    · rcases List.mem_cons.mp h with h | h
      · exact .inr (h ▸ List.mem_cons_self)
      · exact (ih h).imp_right (List.mem_cons_of_mem _)

lemma Sorted.set {o : List (String × α)} (h : Sorted o) (k : String) (v : α) :
    Sorted (set o k v) := by
  induction o with
  | nil => simp [Members.set, Sorted]
  | cons m o ih =>
    obtain ⟨l, w⟩ := m
    obtain ⟨h1, h2⟩ := List.pairwise_cons.mp h
    unfold Members.set
    split_ifs with hk hlt
    · subst hk; exact List.pairwise_cons.mpr ⟨h1, h2⟩
    · refine List.pairwise_cons.mpr ⟨?_, h⟩
      rintro n hn
      rcases List.mem_cons.mp hn with rfl | hn
      exacts [hlt, lt_trans hlt (h1 n hn)]
    · refine List.pairwise_cons.mpr ⟨?_, ih h2⟩
      intro n hn
      rcases mem_set hn with rfl | hn
      · exact lt_of_le_of_ne (not_lt.mp hlt) (Ne.symm hk)
      · exact h1 n hn

lemma Sorted.erase {o : List (String × α)} (h : Sorted o) (k : String) : Sorted (erase o k) :=
  h.filter _

lemma set_of_get {o : List (String × α)} (h : Sorted o) {k : String} {v : α}
    (hg : get o k = some v) : set o k v = o := by
  induction o with
  | nil => cases hg
  | cons m o ih =>
    obtain ⟨l, w⟩ := m
    obtain ⟨h1, h2⟩ := List.pairwise_cons.mp h
    rw [get_cons] at hg
    unfold set
    split_ifs at hg with hk
    · cases hg; simp [hk]
    · have hlt : ¬ k < l := not_lt.mpr (h1 _ (mem_of_get hg)).le
      rw [if_neg hk, if_neg hlt, ih h2 hg]

lemma get_eq_some_of_mem {o : List (String × α)} (h : Sorted o) {m : String × α} (hm : m ∈ o) :
    get o m.1 = some m.2 := by
  induction o with
  | nil => cases hm
  | cons n o ih =>
    obtain ⟨h1, h2⟩ := List.pairwise_cons.mp h
    rw [get_cons]
    rcases List.mem_cons.mp hm with rfl | hm
    · rw [if_pos rfl]
    · rw [if_neg (h1 m hm).ne', ih h2 hm]

lemma eq_of_get {o p : List (String × α)} (ho : Sorted o) (hp : Sorted p)
    (h : ∀ key, get o key = get p key) :
    o = p := by
  have hsub {o p : List (String × α)} (ho : Sorted o) (h : ∀ key, get o key = get p key) : o ⊆ p :=
    fun m hm => mem_of_get ((h m.1).symm.trans (get_eq_some_of_mem ho hm))
  have hnodup {o : List (String × α)} (ho : Sorted o) : o.Nodup := ho.imp fun {m n} hmn he => by
    rw [he] at hmn
    exact lt_irrefl _ hmn
  have hperm : o.Perm p := (List.perm_ext_iff_of_nodup (hnodup ho) (hnodup hp)).mpr fun m =>
    ⟨fun hm => hsub ho h hm, fun hm => hsub hp (fun key => (h key).symm) hm⟩
  exact hperm.eq_of_pairwise (fun m n _ _ h1 h2 => absurd h1 h2.asymm) ho hp

end Members

namespace Obj

/-- `object[k]`, which is `nil` for a missing key. -/
def val (o : Obj) (k : String) : Json := (Members.get o k).getD .null

lemma val_of_get {o : Obj} {k : String} {v : Json} (h : Members.get o k = some v) :
    val o k = v := by simp [val, h]

lemma val_congr {o p : Obj} {k : String} (h : Members.get o k = Members.get p k) :
    val o k = val p k := by rw [val, val, h]

end Obj

end CodexOne
