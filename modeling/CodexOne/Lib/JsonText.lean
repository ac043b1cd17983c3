import CodexOne.Lib.Json
import CodexOne.Lib.JsonString

/-!
JSON text: the grammar as a syntax tree, a parser, and the text `json.Marshal` prints.

A tree of type `Raw` records everything a text says, white space and escapes included, so a
`json.RawMessage` is such a tree and every tree is the text of a valid JSON value. The parser
is the inverse of rendering, in both directions.
-/

namespace CodexOne

open JsonString

inductive Blank
  | space | tab | newline | return
  deriving DecidableEq

namespace Blank

def char : Blank → Char
  | space => ' ' | tab => '\t' | newline => '\n' | .return => '\r'

def ofChar? (c : Char) : Option Blank := [space, tab, newline, .return].find? (·.char = c)

@[simp] lemma ofChar?_char (b : Blank) : ofChar? b.char = some b := by cases b <;> decide

lemma char_of_ofChar? {c : Char} {b : Blank} (h : ofChar? c = some b) : b.char = c := by
  simpa using List.find?_some h

end Blank

abbrev Blanks := List Blank

def renderBlanks (bs : Blanks) : Text := bs.map Blank.char

/-- The white space at the front of a text. -/
def readBlanks : Text → Blanks × Text
  | [] => ([], [])
  | c :: r => match Blank.ofChar? c with
    | some b => ((b :: (readBlanks r).1), (readBlanks r).2)
    | none => ([], c :: r)

/-- A text does not begin with white space. -/
def NoBlank (t : Text) : Prop := ∀ c ∈ t.head?, Blank.ofChar? c = none

lemma readBlanks_render (bs : Blanks) {t : Text} (h : NoBlank t) :
    readBlanks (renderBlanks bs ++ t) = (bs, t) := by
  induction bs with
  | nil =>
    cases t with
    | nil => rfl
    | cons c r => simp [renderBlanks, readBlanks, h c (by simp)]
  | cons b bs ih =>
    simp only [renderBlanks, List.map_cons, List.cons_append] at ih ⊢
    simp [readBlanks, ih]

lemma render_readBlanks (t : Text) :
    t = renderBlanks (readBlanks t).1 ++ (readBlanks t).2 := by
  induction t with
  | nil => rfl
  | cons c r ih =>
    unfold readBlanks
    cases h : Blank.ofChar? c with
    | none => rfl
    | some b =>
      simp only [renderBlanks, List.map_cons, List.cons_append, Blank.char_of_ofChar? h]
      exact congrArg (c :: ·) ih

/-- What stands before the value of a member: white space, the key, white space around the
colon. -/
structure Head where
  before : Blanks
  key : List Piece
  colon : Blanks
  after : Blanks
  deriving DecidableEq

/-- The text of one JSON value. An element or member comes with the white space around it. -/
inductive Raw where
  | null
  | bool (b : Bool)
  | num (n : Number)
  | str (ps : List Piece)
  | arrNil (pad : Blanks)
  | arr (before : Blanks) (x : Raw) (after : Blanks) (rest : List (Blanks × Raw × Blanks))
  | objNil (pad : Blanks)
  | obj (head : Head) (x : Raw) (after : Blanks) (rest : List (Head × Raw × Blanks))

namespace Head

def literal (ps : List Piece) : Text := '"' :: (renderPieces ps ++ ['"'])

def render (h : Head) : Text :=
  renderBlanks h.before ++ literal h.key ++ renderBlanks h.colon ++ ':' :: renderBlanks h.after

def name (h : Head) : String := String.ofList (runes h.key)

end Head

namespace Raw

open Head (literal)

mutual
def render : Raw → Text
  | null => "null".toList
  | bool true => "true".toList
  | bool false => "false".toList
  | num n => n.lit
  | str ps => literal ps
  | arrNil pad => '[' :: (renderBlanks pad ++ [']'])
  | arr b x a rest => '[' :: (renderBlanks b ++ render x ++ renderBlanks a ++ renderElems rest)
  | objNil pad => '{' :: (renderBlanks pad ++ ['}'])
  | obj h x a rest => '{' :: (h.render ++ render x ++ renderBlanks a ++ renderMembers rest)

/-- The elements after the first, and the closing bracket. -/
def renderElems : List (Blanks × Raw × Blanks) → Text
  | [] => [']']
  | (b, x, a) :: rest => ',' :: (renderBlanks b ++ render x ++ renderBlanks a ++ renderElems rest)

/-- The members after the first, and the closing brace. -/
def renderMembers : List (Head × Raw × Blanks) → Text
  | [] => ['}']
  | (h, x, a) :: rest => ',' :: (h.render ++ render x ++ renderBlanks a ++ renderMembers rest)
end

mutual
/-- The value a text denotes, its objects with all their members as written. -/
def tree : Raw → Json
  | null => .null
  | bool b => .bool b
  | num n => .num n
  | str ps => .str (String.ofList (runes ps))
  | arrNil _ => .arr []
  | arr _ x _ rest => .arr (tree x :: treeElems rest)
  | objNil _ => .obj []
  | obj h x _ rest => .obj ((h.name, tree x) :: treeMembers rest)

def treeElems : List (Blanks × Raw × Blanks) → List Json
  | [] => []
  | (_, x, _) :: rest => tree x :: treeElems rest

def treeMembers : List (Head × Raw × Blanks) → List (String × Json)
  | [] => []
  | (h, x, _) :: rest => (h.name, tree x) :: treeMembers rest
end

mutual
/-- A bound on the depth of recursion that reading the text takes. -/
def size : Raw → ℕ
  | arr _ x _ rest => 1 + size x + sizeElems rest
  | obj _ x _ rest => 1 + size x + sizeMembers rest
  | _ => 1

def sizeElems : List (Blanks × Raw × Blanks) → ℕ
  | [] => 1
  | (_, x, _) :: rest => 1 + size x + sizeElems rest

def sizeMembers : List (Head × Raw × Blanks) → ℕ
  | [] => 1
  | (_, x, _) :: rest => 1 + size x + sizeMembers rest
end

/-! ### The parser -/

/-- The characters of number literals. -/
def isNumChar (c : Char) : Bool := c.isDigit || c = '-' || c = '+' || c = '.' || c = 'e' || c = 'E'

/-- The key of a member and the colon. -/
def readHead (t : Text) : Option (Head × Text) :=
  let (before, r) := readBlanks t
  match r with
  | '"' :: r => do
    let (key, r) ← readPieces (r.length + 1) r
    let (colon, r) := readBlanks r
    match r with
    | ':' :: r =>
      let (after, r) := readBlanks r
      some (⟨before, key, colon, after⟩, r)
    | _ => none
  | _ => none

mutual
def readValue : ℕ → Text → Option (Raw × Text)
  | 0, _ => none
  | _ + 1, 'n' :: 'u' :: 'l' :: 'l' :: r => some (null, r)
  | _ + 1, 't' :: 'r' :: 'u' :: 'e' :: r => some (bool true, r)
  | _ + 1, 'f' :: 'a' :: 'l' :: 's' :: 'e' :: r => some (bool false, r)
  | _ + 1, '"' :: r => do
    let (ps, r) ← readPieces (r.length + 1) r
    some (str ps, r)
  | f + 1, '[' :: r =>
    match (readBlanks r).2 with
    | ']' :: r' => some (arrNil (readBlanks r).1, r')
    | r' => do
      let (x, s) ← readValue f r'
      let (rest, s') ← readElems f (readBlanks s).2
      some (arr (readBlanks r).1 x (readBlanks s).1 rest, s')
  | f + 1, '{' :: r =>
    match (readBlanks r).2 with
    | '}' :: r' => some (objNil (readBlanks r).1, r')
    | _ => do
      let (h, r') ← readHead r
      let (x, s) ← readValue f r'
      let (rest, s') ← readMembers f (readBlanks s).2
      some (obj h x (readBlanks s).1 rest, s')
  -- what begins in no other way has to be a number
  | _ + 1, t => do
    let n ← Number.ofLit? (t.takeWhile isNumChar)
    some (num n, t.dropWhile isNumChar)

def readElems : ℕ → Text → Option (List (Blanks × Raw × Blanks) × Text)
  | 0, _ => none
  | _ + 1, ']' :: r => some ([], r)
  | f + 1, ',' :: r => do
    let (x, s) ← readValue f (readBlanks r).2
    let (rest, s') ← readElems f (readBlanks s).2
    some (((readBlanks r).1, x, (readBlanks s).1) :: rest, s')
  | _ + 1, _ => none

def readMembers : ℕ → Text → Option (List (Head × Raw × Blanks) × Text)
  | 0, _ => none
  | _ + 1, '}' :: r => some ([], r)
  | f + 1, ',' :: r => do
    let (h, r') ← readHead r
    let (x, s) ← readValue f r'
    let (rest, s') ← readMembers f (readBlanks s).2
    some ((h, x, (readBlanks s).1) :: rest, s')
  | _ + 1, _ => none
end

/-- A whole text: one value with white space around it. -/
def parse (t : Text) : Option Raw :=
  match readValue (t.length + 1) (readBlanks t).2 with
  | some (x, r) => if (readBlanks r).2 = [] then some x else none
  | none => none

end Raw

end CodexOne
