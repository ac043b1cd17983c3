import CodexOne.Lib.GoStrings
import CodexOne.Lib.JsonString
import CodexOne.Lib.Url

/-!
UTF-8: Go's `unicode/utf8` on byte strings.

A text is encoded rune by rune. No encoding is a prefix or a suffix of another one, so a prefix of
an encoded text is valid exactly if it ends between two runes.
-/

namespace CodexOne.Utf8

open String (utf8EncodeChar)

def encode (t : Text) : Bytes := t.flatMap utf8EncodeChar

/-- `utf8.DecodeRune`, nothing for the first byte of what is no encoding. -/
def decodeRune (s : Bytes) : Option Char := s.toByteArray.utf8DecodeChar? 0

/-- What `range` goes over: the runes of a string, and nothing for a byte that belongs to none.
The first bytes belong to the rune before. -/
def runes : (skip : ℕ) → Bytes → List (Option Char)
  | _, [] => []
  | skip + 1, _ :: s => runes skip s
  | 0, b :: s =>
    match decodeRune (b :: s) with
    | some c => some c :: runes (c.utf8Size - 1) s
    | none => none :: runes 0 s

/-- `utf8.ValidString`. -/
def validString (s : Bytes) : Bool := (runes 0 s).all Option.isSome

/-- The text with `utf8.RuneError` for every byte that belongs to no rune. -/
def toText (s : Bytes) : Text := (runes 0 s).map (·.getD '\ufffd')

lemma utf8EncodeChar_pos (c : Char) : 0 < (utf8EncodeChar c).length := by
  rw [String.length_utf8EncodeChar]
  exact c.utf8Size_pos

lemma encode_nil : encode [] = [] := rfl

lemma encode_cons (c : Char) (t : Text) : encode (c :: t) = utf8EncodeChar c ++ encode t := rfl

lemma encode_append (t u : Text) : encode (t ++ u) = encode t ++ encode u := List.flatMap_append

lemma length_encode (t : Text) : (encode t).length = t.byteLen := by
  induction t with
  | nil => rfl
  | cons c t ih =>
    rw [encode_cons, List.length_append, String.length_utf8EncodeChar, ih, Text.byteLen_cons]

lemma decodeRune_encode (c : Char) (s : Bytes) : decodeRune (utf8EncodeChar c ++ s) = some c := by
  unfold decodeRune
  rw [List.toByteArray_append, ByteArray.utf8DecodeChar?_utf8EncodeChar_append]

lemma decodeRune_eq_some {s : Bytes} {c : Char} (h : decodeRune s = some c) :
    ∃ rest, s = utf8EncodeChar c ++ rest := by
  obtain ⟨b, hb⟩ := ByteArray.exists_of_utf8DecodeChar?_eq_some h
  have hl := congrArg (fun a : ByteArray => a.data.toList) hb
  simp only [List.data_toByteArray, ByteArray.data_append, Array.toList_append] at hl
  exact ⟨b.data.toList, hl⟩

lemma eq_of_prefix {c d : Char} {s t : Bytes}
    (h : utf8EncodeChar c ++ s = utf8EncodeChar d ++ t) : c = d := by
  have hc := decodeRune_encode c s
  rw [h, decodeRune_encode] at hc
  exact (Option.some.inj hc).symm

/-! ### Texts -/

lemma runes_drop (skip : ℕ) (s : Bytes) : runes skip s = runes 0 (s.drop skip) := by
  induction s generalizing skip with
  | nil => cases skip <;> rfl
  | cons b s ih =>
    cases skip with
    | zero => rfl
    | succ skip => exact ih skip

lemma runes_encode_append (c : Char) (s : Bytes) :
    runes 0 (utf8EncodeChar c ++ s) = some c :: runes 0 s := by
  have hpos := utf8EncodeChar_pos c
  have hsize := String.length_utf8EncodeChar c
  rcases henc : utf8EncodeChar c with _ | ⟨b, rest⟩
  · rw [henc] at hpos
    exact absurd hpos (by simp)
  · have hdec := decodeRune_encode c s
    rw [henc, List.length_cons] at hsize
    rw [henc, List.cons_append] at hdec
    rw [List.cons_append, runes, hdec]
    dsimp only
    rw [runes_drop, List.drop_append_of_le_length (by omega), List.drop_of_length_le (by omega)]
    rfl

lemma runes_encode (t : Text) : runes 0 (encode t) = t.map some := by
  induction t with
  | nil => rfl
  | cons c t ih => rw [encode_cons, runes_encode_append, ih, List.map_cons]

lemma runes_cons_none {b : UInt8} {s : Bytes} (h : decodeRune (b :: s) = none) :
    runes 0 (b :: s) = none :: runes 0 s := by
  rw [runes, h]

/-- Every string begins with an encoding, up to a byte that belongs to no rune. -/
lemma exists_encode (s : Bytes) :
    ∃ t rest, s = encode t ++ rest ∧ (rest = [] ∨ decodeRune rest = none) := by
  obtain ⟨n, hn⟩ : ∃ n, s.length = n := ⟨_, rfl⟩
  induction n using Nat.strongRecOn generalizing s with
  | _ n ih =>
    rcases hdec : decodeRune s with _ | c
    · exact ⟨[], s, rfl, .inr hdec⟩
    · obtain ⟨rest, rfl⟩ := decodeRune_eq_some hdec
      have hpos := utf8EncodeChar_pos c
      rw [List.length_append] at hn
      obtain ⟨t, rest', heq, hrest⟩ := ih rest.length (by omega) rest rfl
      exact ⟨c :: t, rest', by rw [encode_cons, List.append_assoc, ← heq], hrest⟩

/-- **Valid strings** are those that encode a text. -/
theorem validString_iff {s : Bytes} : validString s = true ↔ ∃ t, encode t = s := by
  constructor
  · intro h
    obtain ⟨t, rest, rfl, hrest⟩ := exists_encode s
    rcases hrest with rfl | hrest
    · exact ⟨t, (List.append_nil _).symm⟩
    · -- a byte that begins no rune is left
      refine ⟨t, ?_⟩
      induction t with
      | nil =>
        cases rest with
        | nil => rfl
        | cons b rest =>
          rw [encode_nil, List.nil_append, validString, runes_cons_none hrest] at h
          cases h
      | cons c t ih =>
        rw [encode_cons, List.append_assoc, validString, runes_encode_append, List.all_cons] at h
        rw [encode_cons, List.append_assoc, ← ih h]
  · rintro ⟨t, rfl⟩
    rw [validString, runes_encode, List.all_map]
    exact List.all_eq_true.mpr fun c _ => rfl

lemma validString_encode (t : Text) : validString (encode t) = true := validString_iff.mpr ⟨t, rfl⟩

lemma toText_encode (t : Text) : toText (encode t) = t := by
  rw [toText, runes_encode, List.map_map]
  exact List.map_id t

lemma prefix_of_encode {t u : Text} {s : Bytes} (h : encode t = encode u ++ s) :
    ∃ v, t = u ++ v ∧ s = encode v := by
  induction u generalizing t with
  | nil => exact ⟨t, rfl, h.symm⟩
  | cons d u ih =>
    cases t with
    | nil =>
      have hpos := utf8EncodeChar_pos d
      have hl := congrArg List.length h
      rw [encode_nil, encode_cons, List.length_append, List.length_append, List.length_nil] at hl
      omega
    | cons c t =>
      rw [encode_cons, encode_cons, List.append_assoc] at h
      obtain rfl := eq_of_prefix h
      obtain ⟨v, rfl, hv⟩ := ih (List.append_cancel_left h)
      exact ⟨v, rfl, hv⟩

/-- A rune of the text begins after so many bytes, or the text ends there. -/
def Boundary (t : Text) (n : ℕ) : Prop := ∃ u v, t = u ++ v ∧ u.byteLen = n

lemma validString_take {t : Text} {n : ℕ} (hn : n ≤ t.byteLen) :
    validString ((encode t).take n) = true ↔ Boundary t n := by
  have hlen : ((encode t).take n).length = n := by
    rw [List.length_take, length_encode, Nat.min_eq_left hn]
  constructor
  · intro h
    obtain ⟨u, hu⟩ := validString_iff.mp h
    have hsplit : encode t = encode u ++ (encode t).drop n := by rw [hu, List.take_append_drop]
    obtain ⟨v, hv, -⟩ := prefix_of_encode hsplit
    exact ⟨u, v, hv, by rw [← length_encode, hu, hlen]⟩
  · rintro ⟨u, v, rfl, rfl⟩
    rw [encode_append, ← length_encode, List.take_left]
    exact validString_encode u

lemma length_le_toText (s : Bytes) : s.length ≤ (toText s).byteLen := by
  obtain ⟨n, hn⟩ : ∃ n, s.length = n := ⟨_, rfl⟩
  induction n using Nat.strongRecOn generalizing s with
  | _ n ih =>
    rcases hdec : decodeRune s with _ | c
    · -- the byte becomes the replacement rune, which is longer
      cases s with
      | nil => exact Nat.zero_le _
      | cons b s =>
        rw [List.length_cons] at hn
        have hrest := ih s.length (by omega) s rfl
        have hpos := Char.utf8Size_pos '\ufffd'
        rw [toText] at hrest ⊢
        rw [runes_cons_none hdec, List.map_cons, Text.byteLen_cons, List.length_cons,
          Option.getD_none]
        omega
    · obtain ⟨rest, rfl⟩ := decodeRune_eq_some hdec
      have hsize := String.length_utf8EncodeChar c
      have hpos := c.utf8Size_pos
      rw [List.length_append] at hn
      have hrest := ih rest.length (by omega) rest rfl
      rw [toText] at hrest ⊢
      rw [runes_encode_append, List.map_cons, Text.byteLen_cons, List.length_append,
        Option.getD_some]
      omega

lemma length_lt_toText {s : Bytes} (h : validString s = false) :
    s.length < (toText s).byteLen := by
  obtain ⟨t, rest, rfl, hrest⟩ := exists_encode s
  induction t with
  | nil =>
    rw [encode_nil, List.nil_append] at h ⊢
    cases rest with
    | nil => cases h
    | cons b rest =>
      have hnone := hrest.resolve_left (List.cons_ne_nil _ _)
      have hle := length_le_toText rest
      have hsize : '\ufffd'.utf8Size = 3 := by decide
      rw [toText] at hle ⊢
      rw [runes_cons_none hnone, List.map_cons, Text.byteLen_cons, List.length_cons,
        Option.getD_none]
      omega
  | cons c t ih =>
    rw [encode_cons, List.append_assoc] at h ⊢
    rw [validString, runes_encode_append, List.all_cons] at h
    have hrest := ih h
    have hsize := String.length_utf8EncodeChar c
    rw [toText] at hrest ⊢
    rw [runes_encode_append, List.map_cons, Text.byteLen_cons, List.length_append,
      Option.getD_some]
    omega

end CodexOne.Utf8
