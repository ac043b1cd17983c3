import CodexOne.Lib.JsonParse
import CodexOne.Lib.GoStrings

/-!
Decoding and encoding, as `encoding/json` does them.

Decoding a text into an `any` turns every object into a map, so of two members with one key the
later stays. With `UseNumber` a number stays the literal it was; without, it goes through a
`float64`, and one number out of range fails the whole call. Encoding prints members in key
order and no white space.
-/

namespace CodexOne

open JsonString

namespace Members

variable {α : Type}

/-- The map a list of members builds when they are stored one after the other. -/
def build (ms : List (String × α)) : List (String × α) := ms.foldl (fun o m => set o m.1 m.2) []

lemma sorted_foldl (ms : List (String × α)) {o : List (String × α)} (h : Sorted o) :
    Sorted (ms.foldl (fun o m => set o m.1 m.2) o) := by
  induction ms generalizing o with
  | nil => exact h
  | cons m ms ih => exact ih (h.set m.1 m.2)

lemma sorted_build (ms : List (String × α)) : Sorted (build ms) :=
  sorted_foldl ms List.Pairwise.nil

lemma set_append_last {o : List (String × α)} {k : String} {v : α} (h : ∀ m ∈ o, m.1 < k) :
    set o k v = o ++ [(k, v)] := by
  induction o with
  | nil => rfl
  | cons m o ih =>
    obtain ⟨l, w⟩ := m
    have hl : l < k := h (l, w) (by simp)
    unfold set
    rw [if_neg hl.ne', if_neg hl.not_gt, ih fun m hm => h m (List.mem_cons_of_mem _ hm)]
    rfl

lemma foldl_set_sorted (ms o : List (String × α)) (h : Sorted (o ++ ms)) :
    ms.foldl (fun o m => set o m.1 m.2) o = o ++ ms := by
  induction ms generalizing o with
  | nil => simp
  | cons m ms ih =>
    have hm : ∀ n ∈ o, n.1 < m.1 := fun n hn =>
      (List.pairwise_append.mp h).2.2 n hn m (by simp)
    rw [List.foldl_cons, set_append_last hm, ih _ (by simpa [Sorted] using h)]
    simp

lemma build_sorted {ms : List (String × α)} (h : Sorted ms) : build ms = ms := by
  simpa [build] using foldl_set_sorted ms [] (by simpa using h)

end Members

namespace JsonOf

variable {ν μ : Type}

mutual
/-- The value with every object turned into a map. -/
def canon : JsonOf ν → JsonOf ν
  | arr xs => arr (canonList xs)
  | obj ms => obj (Members.build (canonMembers ms))
  | v => v

def canonList : List (JsonOf ν) → List (JsonOf ν)
  | [] => []
  | x :: xs => canon x :: canonList xs

def canonMembers : List (String × JsonOf ν) → List (String × JsonOf ν)
  | [] => []
  | (k, x) :: ms => (k, canon x) :: canonMembers ms
end

lemma canonList_eq (xs : List (JsonOf ν)) : canonList xs = xs.map canon := by
  induction xs with
  | nil => rfl
  | cons x xs ih => simp [canonList, ih]

lemma canonMembers_eq (ms : List (String × JsonOf ν)) :
    canonMembers ms = ms.map fun m => (m.1, canon m.2) := by
  induction ms with
  | nil => rfl
  | cons m ms ih => obtain ⟨k, x⟩ := m; simp [canonMembers, ih]

@[simp] lemma canon_arr (xs : List (JsonOf ν)) : canon (arr xs) = arr (xs.map canon) := by
  rw [canon, canonList_eq]
@[simp] lemma canon_obj (ms : List (String × JsonOf ν)) :
    canon (obj ms) = obj (Members.build (ms.map fun m => (m.1, canon m.2))) := by
  rw [canon, canonMembers_eq]

lemma mem_foldl_set {ms : List (String × JsonOf ν)} {o : List (String × JsonOf ν)}
    {m : String × JsonOf ν} (h : m ∈ ms.foldl (fun o m => Members.set o m.1 m.2) o) :
    m ∈ ms ∨ m ∈ o := by
  induction ms generalizing o with
  | nil => exact .inr h
  | cons n ms ih =>
    rcases ih h with h | h
    · exact .inl (List.mem_cons_of_mem _ h)
    · rcases Members.mem_set h with rfl | h
      · exact .inl List.mem_cons_self
      · exact .inr h

@[simp] lemma canon_canon (v : JsonOf ν) : canon (canon v) = canon v := by
  induction v using induct with
  | null | bool | num | str => rfl
  | arr xs ih => simpa using ih
  | obj ms ih =>
    set o := Members.build (ms.map fun m => (m.1, canon m.2)) with ho
    have hfix : ∀ m ∈ o, canon m.2 = m.2 := by
      intro m hm
      rcases mem_foldl_set hm with hm | hm
      · obtain ⟨n, hn, rfl⟩ := List.mem_map.mp hm
        exact ih n hn
      · cases hm
    have hmap : (o.map fun m => (m.1, canon m.2)) = o := by
      conv_rhs => rw [← List.map_id o]
      exact List.map_congr_left fun m hm => by rw [hfix m hm]; rfl
    rw [canon_obj, ← ho, canon_obj, hmap, Members.build_sorted (Members.sorted_build _)]

end JsonOf

namespace Raw

open Head (literal)

def headOf (k : String) : Head := ⟨[], k.toList.map ofRune, [], []⟩

mutual
/-- The text of a value, without white space and with strings as `appendString` writes them. -/
def ofJson : Json → Raw
  | .null => null
  | .bool b => bool b
  | .num n => num n
  | .str s => str (s.toList.map ofRune)
  | .arr [] => arrNil []
  | .arr (x :: xs) => arr [] (ofJson x) [] (ofJsonList xs)
  | .obj [] => objNil []
  | .obj ((k, x) :: ms) => obj (headOf k) (ofJson x) [] (ofJsonMembers ms)

def ofJsonList : List Json → List (Blanks × Raw × Blanks)
  | [] => []
  | x :: xs => ([], ofJson x, []) :: ofJsonList xs

def ofJsonMembers : List (String × Json) → List (Head × Raw × Blanks)
  | [] => []
  | (k, x) :: ms => (headOf k, ofJson x, []) :: ofJsonMembers ms
end

@[simp] lemma name_headOf (k : String) : (headOf k).name = k := by
  simp [headOf, Head.name]

mutual
@[simp] theorem tree_ofJson : ∀ v : Json, (ofJson v).tree = v
  | .null | .bool _ | .num _ => rfl
  | .str s => by simp [ofJson, tree]
  | .arr [] => rfl
  | .arr (x :: xs) => by simp [ofJson, tree, tree_ofJson x, treeElems_ofJson xs]
  | .obj [] => rfl
  | .obj ((k, x) :: ms) => by simp [ofJson, tree, tree_ofJson x, treeMembers_ofJson ms]

theorem treeElems_ofJson : ∀ xs : List Json, treeElems (ofJsonList xs) = xs
  | [] => rfl
  | x :: xs => by simp [ofJsonList, treeElems, tree_ofJson x, treeElems_ofJson xs]

theorem treeMembers_ofJson : ∀ ms : List (String × Json), treeMembers (ofJsonMembers ms) = ms
  | [] => rfl
  | (k, x) :: ms => by simp [ofJsonMembers, treeMembers, tree_ofJson x, treeMembers_ofJson ms]
end

/-! ### Decoding and encoding -/

/-- Decoding into an `any` with `UseNumber`. -/
def decode (r : Raw) : Json := r.tree.canon

/-- `json.Unmarshal` into an `any`. -/
def unmarshal (r : Raw) : Option Json :=
  if r.tree.numbers.all (·.viaFloat64.isSome) then
    some (r.decode.mapNum fun n => n.viaFloat64.getD n)
  else none

/-- `json.Unmarshal` into a `map[string]any`; `null` leaves the map empty. -/
def unmarshalObject (r : Raw) : Option Obj :=
  match r.unmarshal with
  | some (.obj o) => some o
  | some .null => some []
  | _ => none

/-- The elements of an array, each as it is written. -/
def elems : Raw → Option (List Raw)
  | arrNil _ => some []
  | arr _ x _ rest => some (x :: rest.map (·.2.1))
  | _ => none

/-- The members of an object in the order they are written. -/
def pairs : Raw → Option (List (String × Raw))
  | objNil _ => some []
  | obj h x _ rest => some ((h.name, x) :: rest.map fun m => (m.1.name, m.2.1))
  | _ => none

@[simp] lemma decode_ofJson (v : Json) : (ofJson v).decode = v.canon := by simp [decode]

end Raw

/-- `json.Marshal`. -/
def marshal (v : Json) : Text := (Raw.ofJson v).render

/-- What `json.Valid` accepts. -/
def jsonValid (t : Text) : Bool := (Raw.parse t).isSome

@[simp] lemma parse_marshal (v : Json) : Raw.parse (marshal v) = some (Raw.ofJson v) := by
  simpa [renderBlanks, marshal] using Raw.parse_render [] [] (Raw.ofJson v)

/-- `decodeJSONObject` of the repository and `Decoder.Decode` into a map: the text has to be an
object. -/
def decodeObject (t : Text) : Option Obj :=
  match (Raw.parse t).map Raw.decode with
  | some (.obj o) => some o
  | _ => none

@[simp] lemma jsonValid_marshal (v : Json) : jsonValid (marshal v) = true := by simp [jsonValid]

lemma decodeObject_marshal {o : Obj} (h : (JsonOf.obj o).canon = .obj o) :
    decodeObject (marshal (.obj o)) = some o := by
  rw [decodeObject, parse_marshal, Option.map_some, Raw.decode_ofJson, h]

/-- A member key names a struct field: the names agree up to case. -/
def fieldNamed (key name : String) : Bool := GoStrings.equalFold key name

end CodexOne
