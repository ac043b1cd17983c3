import CodexOne.Lib.JsonCodec

/-!
Decoding a text into a struct, as `json.Unmarshal` does it.

The members are taken in the order they are written. A member whose key names a field up to case
is decoded into that field, so a later one overwrites or, for a nested struct, is merged into an
earlier one. `null` leaves a field as it is, and a value of the wrong type does too but makes the
call return an error once everything has been decoded.
-/

namespace CodexOne

/-- What decoding into a variable of type `σ` does: the new content, and whether all values had
the type of their field. -/
abbrev Decoder (σ : Type) := Raw → σ → σ × Bool

namespace Decoder

variable {σ τ : Type}

def string : Decoder String := fun r s =>
  match r.tree with
  | .str t => (t, true)
  | .null => (s, true)
  | _ => (s, false)

/-- Decode into a `json.RawMessage`, which takes every value, `null` too. -/
def raw : Decoder (Option Raw) := fun r _ => (some r, true)

/-- Decode into a `[]json.RawMessage`. -/
def rawArray : Decoder (List Raw) := fun r s =>
  match r.elems with
  | some xs => (xs, true)
  | none => if r.tree = .null then ([], true) else (s, false)

def bool : Decoder Bool := fun r s =>
  match r.tree with
  | .bool b => (b, true)
  | .null => (s, true)
  | _ => (s, false)

def boolPtr : Decoder (Option Bool) := fun r s =>
  match r.tree with
  | .bool b => (some b, true)
  | .null => (none, true)
  | _ => (s, false)

def int64 : Decoder Int := fun r s =>
  match r.tree with
  | .num n => match n.int64? with
    | some i => (i, true)
    | none => (s, false)
  | .null => (s, true)
  | _ => (s, false)

/-- Decode into a `*int64`; a value of the wrong type leaves a pointer to what was there. -/
def int64Ptr : Decoder (Option Int) := fun r s =>
  match r.tree with
  | .null => (none, true)
  | _ => (some (int64 r (s.getD 0)).1, (int64 r (s.getD 0)).2)

/-- Decode into an `any`, with `UseNumber`. -/
def any : Decoder Json := fun r _ => (r.decode, true)

/-- Decode into a `map[string]any`, with `UseNumber`; the members of a map that is there stay. -/
def map : Decoder Obj := fun r s =>
  match r.decode with
  | .obj ms => (ms.foldl (fun o m => Members.set o m.1 m.2) s, true)
  | .null => ([], true)
  | _ => (s, false)

/-- Decode into a `map[string]any` of which it matters whether it is nil. -/
def mapOrNil : Decoder (Option Obj) := fun r s =>
  match r.decode with
  | .obj ms => (some (map r (s.getD [])).1, true)
  | .null => (none, true)
  | _ => (s, false)

/-- The elements of a slice, decoded over the elements that are there. -/
def elems (d : Decoder σ) (zero : σ) : (rs : List Raw) → (old : List σ) → List σ × Bool
  | [], _ => ([], true)
  | r :: rs, old =>
    let x := d r (old.headD zero)
    let rest := elems d zero rs old.tail
    (x.1 :: rest.1, x.2 && rest.2)

def array (d : Decoder σ) (zero : σ) : Decoder (List σ) := fun r s =>
  match r.elems with
  | some rs => elems d zero rs s
  | none => if r.tree = .null then ([], true) else (s, false)

def member (fields : List (String × Decoder σ)) (m : String × Raw) (s : σ × Bool) : σ × Bool :=
  match fields.find? fun f => fieldNamed m.1 f.1 with
  | some f => ((f.2 m.2 s.1).1, s.2 && (f.2 m.2 s.1).2)
  | none => s

/-- Decode into a struct with the given fields. -/
def struct (fields : List (String × Decoder σ)) : Decoder σ := fun r s =>
  match r.pairs with
  | some ms => ms.foldl (fun s m => member fields m s) (s, true)
  | none => (s, r.tree = .null)

/-- Decode into a part of a larger variable. -/
def into (get : τ → σ) (put : σ → τ → τ) (d : Decoder σ) : Decoder τ := fun r t =>
  (put (d r (get t)).1 t, (d r (get t)).2)

/-- `json.Unmarshal` into a variable whose content is dropped on an error. -/
def unmarshal (d : Decoder σ) (zero : σ) (t : Text) : Option σ :=
  match Raw.parse t with
  | some r => if (d r zero).2 then some (d r zero).1 else none
  | none => none

/-- `json.Unmarshal` with the error ignored. -/
def unmarshalLoose (d : Decoder σ) (zero : σ) (t : Text) : σ :=
  match Raw.parse t with
  | some r => (d r zero).1
  | none => zero

end Decoder

end CodexOne
