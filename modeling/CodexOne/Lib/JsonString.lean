import Mathlib.Data.List.Basic
import Mathlib.Tactic.IntervalCases

/-!
String literals of JSON text.

The body of a literal is a list of pieces, each a plain rune or one escape sequence. Every list
of pieces is the body of a valid literal, and reading a body gives its pieces back.
-/

namespace CodexOne

/-- JSON text, Go's `[]byte` of valid UTF-8. -/
abbrev Text := List Char

namespace Text

def byteLen (t : Text) : ℕ := (t.map Char.utf8Size).sum

lemma byteLen_append (a b : Text) : (a ++ b).byteLen = a.byteLen + b.byteLen := by
  simp [byteLen]

lemma byteLen_cons (c : Char) (t : Text) : byteLen (c :: t) = c.utf8Size + byteLen t := by
  simp [byteLen]

lemma utf8ByteSize_ofList (l : Text) : (String.ofList l).utf8ByteSize = l.byteLen := by
  induction l with
  | nil => rfl
  | cons c l ih =>
    have hcons : String.ofList (c :: l) = String.singleton c ++ String.ofList l := by
      apply String.toList_injective
      simp
    rw [hcons, String.utf8ByteSize_append, ih, byteLen_cons, String.utf8ByteSize_singleton]

end Text

namespace JsonString

/-- The runes that stand for themselves in a literal. -/
def isPlain (c : Char) : Bool := c ≠ '"' && c ≠ '\\' && 0x20 ≤ c.val

/-- The escape sequences of two characters. -/
inductive Escape
  | quote | backslash | slash | backspace | formFeed | newline | return | tab
  deriving DecidableEq

/-- The character after the backslash. -/
def Escape.letter : Escape → Char
  | quote => '"' | backslash => '\\' | slash => '/' | backspace => 'b'
  | formFeed => 'f' | newline => 'n' | .return => 'r' | tab => 't'

def Escape.rune : Escape → Char
  | quote => '"' | backslash => '\\' | slash => '/' | backspace => Char.ofNat 8
  | formFeed => Char.ofNat 12 | newline => '\n' | .return => '\r' | tab => '\t'

def Escape.ofLetter? (c : Char) : Option Escape :=
  [quote, backslash, slash, backspace, formFeed, newline, .return, tab].find? (·.letter = c)

def isHex (c : Char) : Bool :=
  c.isDigit || ('a' ≤ c && c ≤ 'f') || ('A' ≤ c && c ≤ 'F')

def hexVal (c : Char) : ℕ :=
  if c.isDigit then c.toNat - 48 else if 'a' ≤ c then c.toNat - 87 else c.toNat - 55

/-- The four hexadecimal digits of a `\u` escape. -/
structure Quad where
  digits : Char × Char × Char × Char
  valid : isHex digits.1 ∧ isHex digits.2.1 ∧ isHex digits.2.2.1 ∧ isHex digits.2.2.2
  deriving DecidableEq

namespace Quad

def chars (q : Quad) : Text := [q.digits.1, q.digits.2.1, q.digits.2.2.1, q.digits.2.2.2]

def unit (q : Quad) : ℕ :=
  4096 * hexVal q.digits.1 + 256 * hexVal q.digits.2.1 + 16 * hexVal q.digits.2.2.1 +
    hexVal q.digits.2.2.2

def isHigh (q : Quad) : Bool := 0xd800 ≤ q.unit && q.unit < 0xdc00
def isLow (q : Quad) : Bool := 0xdc00 ≤ q.unit && q.unit < 0xe000

/-- The rune of an escape that is not half of a pair; a lone surrogate becomes `U+FFFD`. -/
def rune (q : Quad) : Char :=
  if q.isHigh ∨ q.isLow then Char.ofNat 0xfffd else Char.ofNat q.unit

def pairRune (high low : Quad) : Char :=
  Char.ofNat (0x10000 + 1024 * (high.unit - 0xd800) + (low.unit - 0xdc00))

end Quad

/-- A piece of the body of a literal. -/
inductive Piece
  | plain (c : Char) (h : isPlain c)
  | esc (e : Escape)
  | hex (q : Quad)
  deriving DecidableEq

namespace Piece

/-- How a piece is written. -/
def chars : Piece → Text
  | plain c _ => [c]
  | esc e => ['\\', e.letter]
  | hex q => '\\' :: 'u' :: q.chars

/-- The rune of a piece that stands alone. -/
def rune : Piece → Char
  | plain c _ => c
  | esc e => e.rune
  | hex q => q.rune

end Piece

/-- A piece and the next one form a surrogate pair. -/
def pair? : Piece → Piece → Option Char
  | .hex a, .hex b => if a.isHigh && b.isLow then some (Quad.pairRune a b) else none
  | _, _ => none

def runes : List Piece → List Char
  | [] => []
  | [p] => [p.rune]
  | p :: q :: r => match pair? p q with
    | some c => c :: runes r
    | none => p.rune :: runes (q :: r)

def renderPieces (ps : List Piece) : Text := ps.flatMap Piece.chars

def readPiece : Text → Option (Piece × Text)
  | '\\' :: 'u' :: a :: b :: c :: d :: r =>
    if h : isHex a ∧ isHex b ∧ isHex c ∧ isHex d then some (.hex ⟨(a, b, c, d), h⟩, r) else none
  | '\\' :: e :: r => (Escape.ofLetter? e).map (.esc ·, r)
  | c :: r => if h : isPlain c then some (.plain c h, r) else none
  | [] => none

/-- The body of a literal up to the closing quote, which is taken as well. -/
def readPieces : ℕ → Text → Option (List Piece × Text)
  | 0, _ => none
  | _ + 1, '"' :: r => some ([], r)
  | f + 1, t => do
    let (p, r) ← readPiece t
    let (ps, r) ← readPieces f r
    some (p :: ps, r)

lemma ofLetter?_letter (e : Escape) : Escape.ofLetter? e.letter = some e := by
  cases e <;> decide

lemma letter_of_ofLetter? {c : Char} {e : Escape} (h : Escape.ofLetter? c = some e) :
    e.letter = c := by
  simpa using List.find?_some h

lemma letter_ne_u (e : Escape) : e.letter ≠ 'u' := by cases e <;> decide

lemma readPiece_chars (p : Piece) (r : Text) : readPiece (p.chars ++ r) = some (p, r) := by
  cases p with
  | plain c h =>
    have hc : c ≠ '\\' := by
      rintro rfl
      exact absurd h (by decide)
    simp only [Piece.chars, List.cons_append, List.nil_append]
    unfold readPiece
    split
    · rename_i heq
      exact absurd (List.cons.inj heq).1 hc
    · rename_i heq
      exact absurd (List.cons.inj heq).1 hc
    · rename_i heq
      obtain ⟨rfl, rfl⟩ := List.cons.inj heq
      rw [dif_pos h]
    · rename_i heq; cases heq
  | esc e =>
    simp only [Piece.chars, List.cons_append, List.nil_append]
    unfold readPiece
    split
    · rename_i heq
      exact absurd (List.cons.inj (List.cons.inj heq).2).1 (letter_ne_u e)
    · rename_i heq
      obtain ⟨-, heq⟩ := List.cons.inj heq
      obtain ⟨rfl, rfl⟩ := List.cons.inj heq
      rw [ofLetter?_letter]; rfl
    · rename_i h1 h2 heq
      obtain ⟨rfl, rfl⟩ := List.cons.inj heq
      exact absurd rfl (h2 _ _ rfl)
    · rename_i heq; cases heq
  | hex q =>
    obtain ⟨⟨a, b, c, d⟩, h⟩ := q
    simp only [Piece.chars, Quad.chars, List.cons_append, List.nil_append, readPiece]
    rw [dif_pos h]

lemma chars_of_readPiece {t : Text} {p : Piece} {r : Text} (h : readPiece t = some (p, r)) :
    t = p.chars ++ r := by
  unfold readPiece at h
  split at h
  · split at h
    · cases h; rfl
    · cases h
  · rename_i e r' _
    cases he : Escape.ofLetter? e with
    | none => rw [he] at h; cases h
    | some e' =>
      rw [he] at h; cases h
      simp [Piece.chars, letter_of_ofLetter? he]
  · split at h
    · cases h; rfl
    · cases h
  · cases h

lemma chars_ne_quote (p : Piece) (r : Text) : ∀ s, p.chars ++ r ≠ '"' :: s := by
  intro s heq
  cases p with
  | plain c h =>
    obtain ⟨rfl, -⟩ := List.cons.inj heq
    exact absurd h (by decide)
  | esc e => exact absurd (List.cons.inj heq).1 (by decide)
  | hex q => exact absurd (List.cons.inj heq).1 (by decide)

lemma readPieces_render (ps : List Piece) (r : Text) (f : ℕ) (hf : ps.length < f) :
    readPieces f (renderPieces ps ++ '"' :: r) = some (ps, r) := by
  induction ps generalizing f with
  | nil =>
    obtain ⟨f, rfl⟩ := Nat.exists_eq_add_one_of_ne_zero (Nat.ne_of_gt hf)
    simp [renderPieces, readPieces]
  | cons p ps ih =>
    obtain ⟨f, rfl⟩ := Nat.exists_eq_add_one_of_ne_zero (Nat.ne_of_gt (Nat.zero_lt_of_lt hf))
    have hne := chars_ne_quote p (renderPieces ps ++ '"' :: r)
    have hcons : renderPieces (p :: ps) ++ '"' :: r =
        p.chars ++ (renderPieces ps ++ '"' :: r) := by
      simp [renderPieces]
    rw [hcons, readPieces]
    · rw [readPiece_chars]
      simp only [Option.bind_eq_bind, Option.bind_some]
      rw [ih f (by simpa using hf)]
      rfl
    · exact hne

lemma render_of_readPieces {f : ℕ} {t : Text} {ps : List Piece} {r : Text}
    (h : readPieces f t = some (ps, r)) : t = renderPieces ps ++ '"' :: r := by
  fun_induction readPieces f t generalizing ps r with
  | case1 => cases h
  | case2 => cases h; rfl
  | case3 f t _ ih =>
    cases hp : readPiece t with
    | none => rw [hp] at h; cases h
    | some pr =>
      obtain ⟨p, r1⟩ := pr
      rw [hp] at h
      simp only [Option.bind_eq_bind, Option.bind_some] at h
      cases hq : readPieces f r1 with
      | none => rw [hq] at h; cases h
      | some qr =>
        obtain ⟨qs, r2⟩ := qr
        rw [hq] at h
        cases h
        rw [chars_of_readPiece hp, ih _ hq]
        simp [renderPieces]

/-! ### Writing a string -/

/-- The lower case hexadecimal digit of a number below sixteen. -/
def hexDigit (n : ℕ) : Char := ("0123456789abcdef".toList)[n % 16]!

lemma isHex_hexDigit (n : ℕ) : isHex (hexDigit n) := by
  have h : ∀ k < 16, isHex (("0123456789abcdef".toList)[k]!) := by decide
  exact h _ (Nat.mod_lt _ (by decide))

lemma hexVal_hexDigit (n : ℕ) : hexVal (hexDigit n) = n % 16 := by
  have h : ∀ k < 16, hexVal (("0123456789abcdef".toList)[k]!) = k := by decide
  exact h _ (Nat.mod_lt _ (by decide))

def Quad.ofUnit (n : ℕ) : Quad :=
  ⟨(hexDigit (n / 4096), hexDigit (n / 256), hexDigit (n / 16), hexDigit n),
    isHex_hexDigit _, isHex_hexDigit _, isHex_hexDigit _, isHex_hexDigit _⟩

lemma Quad.unit_ofUnit {n : ℕ} (h : n < 65536) : (Quad.ofUnit n).unit = n := by
  simp only [Quad.unit, Quad.ofUnit, hexVal_hexDigit]
  omega

/-- The runes that `appendString` writes as a `\u` escape: the control characters without a
short escape, the three HTML runes, and the two line separators. -/
def isHexEscaped (c : Char) : Bool :=
  c.val < 0x20 || c = '<' || c = '>' || c = '&' || c.val = 0x2028 || c.val = 0x2029

/-- `appendString` on one rune, with HTML escaping on. -/
def ofRune (c : Char) : Piece :=
  if c = '"' then .esc .quote
  else if c = '\\' then .esc .backslash
  else if c = Char.ofNat 8 then .esc .backspace
  else if c = Char.ofNat 12 then .esc .formFeed
  else if c = '\n' then .esc .newline
  else if c = '\r' then .esc .return
  else if c = '\t' then .esc .tab
  else if isHexEscaped c then .hex (Quad.ofUnit c.toNat)
  else if h : isPlain c then .plain c h
  else .esc .quote

lemma isPlain_of_not_escaped {c : Char} (h1 : c ≠ '"') (h2 : c ≠ '\\')
    (h3 : isHexEscaped c = false) : isPlain c := by
  simp only [isHexEscaped, Bool.or_eq_false_iff, decide_eq_false_iff_not] at h3
  simpa [isPlain, h1, h2] using h3.1.1.1.1.1

lemma toNat_of_isHexEscaped {c : Char} (h : isHexEscaped c) : c.toNat < 0xd800 := by
  simp only [isHexEscaped, Bool.or_eq_true, decide_eq_true_eq] at h
  have hv : c.toNat = c.val.toNat := rfl
  rcases h with ((((h | h) | h) | h) | h) | h
  · have : c.val.toNat < 0x20 := by simpa using UInt32.lt_iff_toNat_lt.mp h
    omega
  all_goals first
    | (subst h; decide)
    | (rw [hv, h]; decide)

lemma rune_ofRune (c : Char) : (ofRune c).rune = c := by
  unfold ofRune
  split_ifs with h1 h2 h3 h4 h5 h6 h7 h8 h9
  · exact h1.symm
  · exact h2.symm
  · exact h3.symm
  · exact h4.symm
  · exact h5.symm
  · exact h6.symm
  · exact h7.symm
  · have hn := toNat_of_isHexEscaped h8
    have hu : (Quad.ofUnit c.toNat).unit = c.toNat := Quad.unit_ofUnit (by omega)
    have hs : ¬((Quad.ofUnit c.toNat).isHigh = true ∨ (Quad.ofUnit c.toNat).isLow = true) := by
      simp only [Quad.isHigh, Quad.isLow, hu, Bool.and_eq_true, decide_eq_true_eq]
      omega
    simp only [Piece.rune, Quad.rune, if_neg hs, hu]
    exact Char.ofNat_toNat c
  · rfl
  · exact absurd (isPlain_of_not_escaped h1 h2 (by simpa using h8)) h9

lemma pair?_ofRune (c : Char) (p : Piece) : pair? (ofRune c) p = none := by
  unfold ofRune
  split_ifs with h1 h2 h3 h4 h5 h6 h7 h8 h9 <;> try rfl
  cases p with
  | plain | esc => rfl
  | hex q =>
    have hn := toNat_of_isHexEscaped h8
    have hu : (Quad.ofUnit c.toNat).unit = c.toNat := Quad.unit_ofUnit (by omega)
    have hh : (Quad.ofUnit c.toNat).isHigh = false := by
      simp only [Quad.isHigh, hu, Bool.and_eq_false_iff, decide_eq_false_iff_not]
      omega
    simp [pair?, hh]

lemma runes_cons_ofRune (c : Char) (ps : List Piece) :
    runes (ofRune c :: ps) = c :: runes ps := by
  cases ps with
  | nil => simp [runes, rune_ofRune]
  | cons p ps => rw [runes, pair?_ofRune]; simp [rune_ofRune]

@[simp] lemma runes_map_ofRune (l : List Char) : runes (l.map ofRune) = l := by
  induction l with
  | nil => rfl
  | cons c l ih => rw [List.map_cons, runes_cons_ofRune, ih]

lemma isHex_printable {c : Char} (h : isHex c = true) : 0x20 ≤ c.val := by
  simp only [isHex, Char.isDigit, Bool.or_eq_true, Bool.and_eq_true, decide_eq_true_eq] at h
  rcases h with (h | h) | h
  · exact UInt32.le_trans (by decide) h.1
  · exact UInt32.le_trans (by decide) h.1
  · exact UInt32.le_trans (by decide) h.1

lemma printable_chars (p : Piece) {c : Char} (h : c ∈ p.chars) : 0x20 ≤ c.val := by
  cases p with
  | plain c' hp =>
    obtain rfl := List.mem_singleton.mp h
    simp only [isPlain, Bool.and_eq_true, decide_eq_true_eq] at hp
    exact hp.2
  | esc e =>
    rcases List.mem_pair.mp h with rfl | rfl
    · decide
    · cases e <;> decide
  | hex q =>
    have hq := q.valid
    simp only [Piece.chars, Quad.chars, List.mem_cons, List.not_mem_nil, or_false] at h
    rcases h with rfl | rfl | rfl | rfl | rfl | rfl
    · decide
    · decide
    · exact isHex_printable hq.1
    · exact isHex_printable hq.2.1
    · exact isHex_printable hq.2.2.1
    · exact isHex_printable hq.2.2.2

lemma printable_renderPieces {ps : List Piece} {c : Char} (h : c ∈ renderPieces ps) :
    0x20 ≤ c.val := by
  obtain ⟨p, -, hc⟩ := List.mem_flatMap.mp h
  exact printable_chars p hc

end JsonString

end CodexOne
