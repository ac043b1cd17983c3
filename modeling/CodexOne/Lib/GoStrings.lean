import CodexOne.Lib.CaseRanges
import Mathlib.Data.List.Basic
import Mathlib.Data.List.TakeWhile
import Mathlib.Data.String.Basic

/-!
Go's string functions on Unicode text.

A Go string that holds valid UTF-8 is a Lean `String`; `utf8ByteSize` is Go's `len` and
`length` is the number of runes. The functions work on the list of runes.
-/

namespace CodexOne.GoStrings

/-- `unicode.IsSpace`. -/
def isSpace (c : Char) : Bool :=
  c.val ∈ [0x09, 0x0a, 0x0b, 0x0c, 0x0d, 0x20, 0x85, 0xa0, 0x1680, 0x2028, 0x2029, 0x202f,
    0x205f, 0x3000] || (0x2000 ≤ c.val && c.val ≤ 0x200a)

/-- The runes left when white space is cut off both ends. -/
def trimRunes (l : List Char) : List Char :=
  ((l.dropWhile isSpace).reverse.dropWhile isSpace).reverse

/-- `strings.TrimSpace`. -/
def trimSpace (s : String) : String := String.ofList (trimRunes s.toList)

/-- `strings.HasPrefix`. -/
def hasPrefix (s p : String) : Bool := p.toList.isPrefixOf s.toList

/-- `strings.HasSuffix`. -/
def hasSuffix (s p : String) : Bool := p.toList.isSuffixOf s.toList

/-- `strings.TrimSuffix`. -/
def trimSuffix (s p : String) : String :=
  if hasSuffix s p then String.ofList (s.toList.take (s.length - p.length)) else s

/-- `strings.ContainsAny`. -/
def containsAny (s : String) (cs : List Char) : Bool := s.toList.any (cs.contains ·)

/-- `strings.Contains`. -/
def contains (s sub : String) : Bool := s.toList.tails.any (sub.toList.isPrefixOf ·)

/-- `unicode.ToLower`. -/
def toLowerRune (c : Char) : Char :=
  if c.val < 0x80 then c.toLower else Char.ofNat (lowerCode c.toNat)

/-- `strings.ToLower`. -/
def toLower (s : String) : String := String.ofList (s.toList.map toLowerRune)

/-- The representative of a rune among the runes that simple case folding identifies with an
ASCII letter. -/
def foldRune (c : Char) : Char :=
  if c.val = 0x212a then 'k' else if c.val = 0x17f then 's' else c.toLower

/-- `strings.EqualFold`. -/
def equalFold (s t : String) : Bool := s.toList.map foldRune = t.toList.map foldRune

/-- The first `n` runes, Go's `string([]rune(s)[:n])`. -/
def takeRunes (s : String) (n : ℕ) : String := String.ofList (s.toList.take n)

/-- `strings.LastIndex(s, sep)` for a separator of one rune: the text before the last
separator and the text from it on. -/
def cutLast (s : String) (sep : Char) : Option (String × String) :=
  match s.toList.reverse.span (· ≠ sep) with
  | (_, []) => none
  | (tail, c :: head) =>
    some (String.ofList head.reverse, String.ofList (c :: tail.reverse))

/-- `strings.Join`. -/
def join (parts : List String) (sep : String) : String := sep.intercalate parts

def hexDigit (n : ℕ) : Char :=
  if n < 10 then Char.ofNat (48 + n) else Char.ofNat (87 + n)

def hexDigits (n : ℕ) : List Char := [hexDigit (n / 16 % 16), hexDigit (n % 16)]

/-- `%q` of a text, whose runes beyond ASCII are taken as printable. -/
def quote (s : String) : String :=
  String.ofList ('"' :: (s.toList.flatMap fun c =>
    if c = '"' then "\\\"".toList
    else if c = '\\' then "\\\\".toList
    else if c.val = 7 then "\\a".toList
    else if c.val = 8 then "\\b".toList
    else if c.val = 9 then "\\t".toList
    else if c.val = 10 then "\\n".toList
    else if c.val = 11 then "\\v".toList
    else if c.val = 12 then "\\f".toList
    else if c.val = 13 then "\\r".toList
    else if c.val < 32 ∨ c.val = 127 then
      "\\x".toList ++ hexDigits c.val.toNat
    else [c]) ++ ['"'])

lemma dropWhile_eq_self {p : Char → Bool} {l : List Char} (h : ∀ c ∈ l.head?, p c = false) :
    l.dropWhile p = l := by
  cases l with
  | nil => rfl
  | cons c r => simp [h c (by simp)]

lemma head?_dropWhile (p : Char → Bool) (l : List Char) :
    ∀ c ∈ (l.dropWhile p).head?, p c = false := by
  intro c hc
  have := List.head?_dropWhile_not p l
  rw [Option.mem_def] at hc
  simpa [hc] using this

lemma trimRunes_head (l : List Char) : ∀ c ∈ (trimRunes l).head?, isSpace c = false := by
  intro c hc
  set r := l.dropWhile isSpace with hr
  -- what trimming keeps is a prefix of the text already trimmed on the left
  have hp : trimRunes l <+: r := by
    have h := List.dropWhile_suffix (p := isSpace) (l := r.reverse)
    have := List.reverse_prefix.mpr h
    simpa [trimRunes, hr] using this
  obtain ⟨t, ht⟩ := hp
  refine head?_dropWhile isSpace l c ?_
  rw [← hr, ← ht, List.head?_append]
  simp [Option.mem_def.mp hc]

lemma trimRunes_last (l : List Char) : ∀ c ∈ (trimRunes l).getLast?, isSpace c = false := by
  intro c hc
  rw [trimRunes, List.getLast?_reverse] at hc
  exact head?_dropWhile _ _ c hc

lemma trimRunes_eq_self {l : List Char} (h1 : ∀ c ∈ l.head?, isSpace c = false)
    (h2 : ∀ c ∈ l.getLast?, isSpace c = false) : trimRunes l = l := by
  rw [trimRunes, dropWhile_eq_self h1, dropWhile_eq_self (by simpa using h2), List.reverse_reverse]

lemma trimRunes_idem (l : List Char) : trimRunes (trimRunes l) = trimRunes l :=
  trimRunes_eq_self (trimRunes_head l) (trimRunes_last l)

@[simp] lemma trimSpace_idem (s : String) : trimSpace (trimSpace s) = trimSpace s := by
  simp [trimSpace, trimRunes_idem]

@[simp] lemma trimSpace_empty : trimSpace "" = "" := by decide

lemma trimRunes_infix (l : List Char) : trimRunes l <:+: l := by
  unfold trimRunes
  have h1 := List.dropWhile_suffix (l := l) isSpace
  have h2 := List.reverse_prefix.mpr
    (List.dropWhile_suffix (l := (l.dropWhile isSpace).reverse) isSpace)
  rw [List.reverse_reverse] at h2
  exact h2.isInfix.trans h1.isInfix

lemma exists_trimSpace (s : String) : ∃ a b : String, s = a ++ trimSpace s ++ b := by
  obtain ⟨a, b, h⟩ := trimRunes_infix s.toList
  refine ⟨String.ofList a, String.ofList b, String.toList_injective ?_⟩
  simp [trimSpace, h]

lemma isSpace_of_blank {s : String} (h : trimSpace s = "") : ∀ c ∈ s.toList, isSpace c = true := by
  rw [trimSpace, ← String.toList_inj, String.toList_ofList] at h
  unfold trimRunes at h
  rw [String.toList_empty, List.reverse_eq_nil_iff, List.dropWhile_eq_nil_iff] at h
  intro c hc
  by_contra hspace
  have hmem : c ∈ s.toList.dropWhile isSpace := by
    rw [← List.takeWhile_append_dropWhile (p := isSpace) (l := s.toList)] at hc
    rcases List.mem_append.mp hc with hc | hc
    · exact absurd (List.mem_takeWhile_imp hc) hspace
    · exact hc
  exact hspace (h c (List.mem_reverse.mpr hmem))

/-- Neither end of the text is white space. -/
structure Trimmed (s : String) : Prop where
  head : ∀ c ∈ s.toList.head?, isSpace c = false
  last : ∀ c ∈ s.toList.getLast?, isSpace c = false

lemma trimmed_iff {s : String} : Trimmed s ↔ trimSpace s = s := by
  constructor
  · intro h
    rw [trimSpace, trimRunes_eq_self h.head h.last, String.ofList_toList]
  · intro h
    have hl : trimRunes s.toList = s.toList := by
      have := congrArg String.toList h
      rwa [trimSpace, String.toList_ofList] at this
    exact ⟨hl ▸ trimRunes_head s.toList, hl ▸ trimRunes_last s.toList⟩

lemma Trimmed.append {s t : String} (hs : s ≠ "") (ht : t ≠ "")
    (h1 : ∀ c ∈ s.toList.head?, isSpace c = false)
    (h2 : ∀ c ∈ t.toList.getLast?, isSpace c = false) : Trimmed (s ++ t) := by
  have hs' : s.toList ≠ [] := fun h => hs (String.toList_injective h)
  have ht' : t.toList ≠ [] := fun h => ht (String.toList_injective h)
  refine ⟨fun c hc => h1 c ?_, fun c hc => h2 c ?_⟩
  · rwa [String.toList_append, List.head?_append_of_ne_nil _ hs'] at hc
  · rwa [String.toList_append, List.getLast?_append_of_ne_nil _ ht'] at hc

/-- A text without white space. -/
def Solid (s : String) : Prop := ∀ c ∈ s.toList, isSpace c = false

instance : DecidablePred Solid := fun s => List.decidableBAll _ s.toList

lemma Solid.append {s t : String} (hs : Solid s) (ht : Solid t) : Solid (s ++ t) := by
  intro c hc
  rw [String.toList_append, List.mem_append] at hc
  exact hc.elim (hs c) (ht c)

lemma Solid.trimmed {s : String} (h : Solid s) : Trimmed s :=
  ⟨fun c hc => h c (List.mem_of_mem_head? hc), fun c hc => h c (List.mem_of_mem_getLast? hc)⟩

lemma isSpace_hexDigit : ∀ n < 16, isSpace (hexDigit n) = false := by decide

lemma isSpace_hexDigits {n : ℕ} {c : Char} (h : c ∈ hexDigits n) : isSpace c = false := by
  simp only [hexDigits, List.mem_cons, List.not_mem_nil, or_false] at h
  rcases h with rfl | rfl
  · exact isSpace_hexDigit _ (Nat.mod_lt _ (by decide))
  · exact isSpace_hexDigit _ (Nat.mod_lt _ (by decide))

example : trimSpace " \t resp_1\n" = "resp_1" := by decide

/-! ### Lower case -/

lemma isSpace_iff (c : Char) : isSpace c = true ↔ c.toNat ∈ spaceCodes := by
  have hcode (n : UInt32) : c.val = n ↔ c.toNat = n.toNat := UInt32.toNat_inj.symm
  have hle : (0x2000 ≤ c.val ∧ c.val ≤ 0x200a) ↔ (0x2000 ≤ c.toNat ∧ c.toNat ≤ 0x200a) := Iff.rfl
  unfold isSpace spaceCodes
  simp only [List.mem_cons, List.not_mem_nil, or_false, hcode, Bool.or_eq_true,
    Bool.and_eq_true, decide_eq_true_eq, hle, UInt32.reduceToNat]
  omega

set_option maxRecDepth 8000 in
lemma toNat_toLowerRune (c : Char) : (toLowerRune c).toNat = lowerCode c.toNat := by
  -- in ASCII Lean's `toLower` is Go's, beyond it the table decides
  have hascii : ∀ n < 0x80, (Char.ofNat n).toLower.toNat = lowerCode n := by decide
  unfold toLowerRune
  by_cases h : c.val < 0x80
  · have hlt : c.toNat < 0x80 := h
    rw [if_pos h]
    have := hascii c.toNat hlt
    rwa [Char.ofNat_toNat] at this
  · have hvalid : (lowerCode c.toNat).isValidChar := isValidChar_lowerCode c.valid
    rw [if_neg h, Char.ofNat, dif_pos hvalid]
    rfl

lemma toLowerRune_idem (c : Char) : toLowerRune (toLowerRune c) = toLowerRune c := by
  apply Char.toNat_inj.mp
  rw [toNat_toLowerRune, toNat_toLowerRune, lowerCode_lowerCode]

lemma isSpace_toLowerRune {c : Char} (h : isSpace c = false) : isSpace (toLowerRune c) = false := by
  rw [← Bool.not_eq_true, isSpace_iff] at h ⊢
  rw [toNat_toLowerRune]
  exact lowerCode_not_space h

lemma toLower_idem (s : String) : toLower (toLower s) = toLower s := by
  simp [toLower, Function.comp_def, toLowerRune_idem]

lemma Trimmed.toLower {s : String} (h : Trimmed s) : Trimmed (toLower s) := by
  constructor
  · intro c hc
    rw [GoStrings.toLower, String.toList_ofList, List.head?_map] at hc
    obtain ⟨b, hb, rfl⟩ := Option.map_eq_some_iff.mp hc
    exact isSpace_toLowerRune (h.head b hb)
  · intro c hc
    rw [GoStrings.toLower, String.toList_ofList, List.getLast?_map] at hc
    obtain ⟨b, hb, rfl⟩ := Option.map_eq_some_iff.mp hc
    exact isSpace_toLowerRune (h.last b hb)

lemma toLower_eq_empty {s : String} : toLower s = "" ↔ s = "" := by
  rw [← String.toList_inj, ← String.toList_inj]
  simp [toLower]

end CodexOne.GoStrings
