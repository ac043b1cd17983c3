import CodexOne.Lib.Url

/-!
Go's `encoding/base64` and `encoding/hex` on byte strings.

A decoder skips line breaks, and does not look at the bits that are left over in the last digit.
What a text stands for depends on the alphabet and the padding only in whether it is read at all.
-/

namespace CodexOne.Base64

/-- An encoding, by its alphabet and whether it is padded. -/
structure Encoding where
  url : Bool
  padded : Bool
  deriving DecidableEq

def RawStdEncoding : Encoding := ⟨false, false⟩
def StdEncoding : Encoding := ⟨false, true⟩
def RawURLEncoding : Encoding := ⟨true, false⟩
def URLEncoding : Encoding := ⟨true, true⟩

def pad : UInt8 := 0x3d

def value (url : Bool) (b : UInt8) : Option ℕ :=
  if 0x41 ≤ b ∧ b ≤ 0x5a then some (b.toNat - 65)
  else if 0x61 ≤ b ∧ b ≤ 0x7a then some (b.toNat - 71)
  else if 0x30 ≤ b ∧ b ≤ 0x39 then some (b.toNat + 4)
  else if b = (if url then 0x2d else 0x2b) then some 62
  else if b = (if url then 0x5f else 0x2f) then some 63
  else none

def digit (url : Bool) (n : ℕ) : UInt8 :=
  if n < 26 then UInt8.ofNat (n + 65)
  else if n < 52 then UInt8.ofNat (n + 71)
  else if n < 62 then UInt8.ofNat (n - 4)
  else if n = 62 then (if url then 0x2d else 0x2b)
  else (if url then 0x5f else 0x2f)

/-- `EncodeToString`. -/
def encode (e : Encoding) : Bytes → Bytes
  | [] => []
  | [a] =>
    [digit e.url (a.toNat / 4), digit e.url (a.toNat % 4 * 16)] ++
      if e.padded then [pad, pad] else []
  | [a, b] =>
    [digit e.url (a.toNat / 4), digit e.url (a.toNat % 4 * 16 + b.toNat / 16),
      digit e.url (b.toNat % 16 * 4)] ++ if e.padded then [pad] else []
  | a :: b :: c :: rest =>
    [digit e.url (a.toNat / 4), digit e.url (a.toNat % 4 * 16 + b.toNat / 16),
      digit e.url (b.toNat % 16 * 4 + c.toNat / 64), digit e.url (c.toNat % 64)] ++ encode e rest

/-- The bytes of two, three and four digits. -/
def bytes2 (a b : ℕ) : Bytes := [UInt8.ofNat (a * 4 + b / 16)]

def bytes3 (a b c : ℕ) : Bytes := bytes2 a b ++ [UInt8.ofNat (b % 16 * 16 + c / 4)]

def bytes4 (a b c d : ℕ) : Bytes := bytes3 a b c ++ [UInt8.ofNat (c % 4 * 64 + d)]

/-- `decodeQuantum`, over and over, on a text without line breaks. -/
def decodeQuanta (e : Encoding) : Bytes → Option Bytes
  | [] => some []
  | [_] => none
  | [a, b] => if e.padded then none else do some (bytes2 (← value e.url a) (← value e.url b))
  | [a, b, c] =>
    if e.padded then none
    else do some (bytes3 (← value e.url a) (← value e.url b) (← value e.url c))
  | a :: b :: c :: d :: rest =>
    if e.padded ∧ c = pad ∧ d = pad then
      if rest = [] then do some (bytes2 (← value e.url a) (← value e.url b)) else none
    else if e.padded ∧ d = pad then
      if rest = [] then do some (bytes3 (← value e.url a) (← value e.url b) (← value e.url c))
      else none
    else do
      let quantum := bytes4 (← value e.url a) (← value e.url b) (← value e.url c) (← value e.url d)
      some (quantum ++ (← decodeQuanta e rest))

def isLineBreak (b : UInt8) : Bool := b = 0x0a || b = 0x0d

/-- `DecodeString`, which skips line breaks. -/
def decode (e : Encoding) (s : Bytes) : Option Bytes := decodeQuanta e (s.filter (!isLineBreak ·))

lemma value_digit (url : Bool) {n : ℕ} (h : n < 64) : value url (digit url n) = some n := by
  have hall : ∀ url : Bool, ∀ n < 64, value url (digit url n) = some n := by decide
  exact hall url n h

lemma value_pad (url : Bool) : value url pad = none := by
  cases url <;> decide

lemma digit_ne_pad (url : Bool) {n : ℕ} (h : n < 64) : digit url n ≠ pad := fun he => by
  have hvalue := value_digit url h
  rw [he, value_pad] at hvalue
  cases hvalue

lemma length_encode (e : Encoding) (n : ℕ) (s : Bytes) (h : s.length = 3 * n) :
    (encode e s).length = 4 * n := by
  induction n generalizing s with
  | zero =>
    rw [List.length_eq_zero_iff.mp h]
    rfl
  | succ n ih =>
    match s, h with
    | a :: b :: c :: rest, h =>
      have hrest : rest.length = 3 * n := by
        simp only [List.length_cons] at h
        omega
      rw [encode, List.length_append, ih rest hrest]
      simp only [List.length_cons, List.length_nil]
      omega

lemma visible_digit (url : Bool) {n : ℕ} (h : n < 64) :
    0x21 ≤ digit url n ∧ digit url n < 0x80 := by
  have hall : ∀ url : Bool, ∀ n < 64, 0x21 ≤ digit url n ∧ digit url n < 0x80 := by decide
  exact hall url n h

lemma value_lineBreak {url : Bool} {b : UInt8} (h : isLineBreak b = true) : value url b = none := by
  have hall : ∀ url : Bool, value url 0x0a = none ∧ value url 0x0d = none := by decide
  unfold isLineBreak at h
  rw [Bool.or_eq_true, decide_eq_true_eq, decide_eq_true_eq] at h
  rcases h with rfl | rfl
  · exact (hall url).1
  · exact (hall url).2

lemma not_isLineBreak_digit (url : Bool) {n : ℕ} (h : n < 64) :
    isLineBreak (digit url n) = false := by
  rw [← Bool.not_eq_true]
  intro hbreak
  have hvalue := value_digit url h
  rw [value_lineBreak hbreak] at hvalue
  cases hvalue

set_option maxRecDepth 8000 in
lemma value_unique {url url' : Bool} {b : UInt8} {m n : ℕ} (h1 : value url b = some m)
    (h2 : value url' b = some n) : m = n := by
  have hall : ∀ url url' : Bool, ∀ k < 256, ∀ m ∈ value url (UInt8.ofNat k),
      ∀ n ∈ value url' (UInt8.ofNat k), m = n := by decide
  rw [← UInt8.ofNat_toNat (x := b)] at h1 h2
  exact hall url url' b.toNat b.toNat_lt m h1 n h2

/-! ### Reading what was written -/

lemma forall_mem_encode {P : UInt8 → Prop} {e : Encoding} (hdigit : ∀ n < 64, P (digit e.url n))
    (hpad : P pad) (s : Bytes) : ∀ b ∈ encode e s, P b := by
  fun_induction encode e s with
  | case1 => nofun
  | case2 a =>
    have ha := a.toNat_lt
    intro b hb
    simp only [List.mem_append, List.mem_cons, List.not_mem_nil, or_false] at hb
    rcases hb with (rfl | rfl) | hb
    · exact hdigit _ (by omega)
    · exact hdigit _ (by omega)
    · split_ifs at hb
      · simp only [List.mem_cons, List.not_mem_nil, or_false, or_self] at hb
        exact hb ▸ hpad
      · cases hb
  | case3 a b =>
    have ha := a.toNat_lt
    have hb := b.toNat_lt
    intro c hc
    simp only [List.mem_append, List.mem_cons, List.not_mem_nil, or_false] at hc
    rcases hc with (rfl | rfl | rfl) | hc
    · exact hdigit _ (by omega)
    · exact hdigit _ (by omega)
    · exact hdigit _ (by omega)
    · split_ifs at hc
      · exact List.mem_singleton.mp hc ▸ hpad
      · cases hc
  | case4 a b c rest ih =>
    have ha := a.toNat_lt
    have hb := b.toNat_lt
    have hc := c.toNat_lt
    intro x hx
    simp only [List.mem_append, List.mem_cons, List.not_mem_nil, or_false] at hx
    rcases hx with (rfl | rfl | rfl | rfl) | hx
    · exact hdigit _ (by omega)
    · exact hdigit _ (by omega)
    · exact hdigit _ (by omega)
    · exact hdigit _ (by omega)
    · exact ih x hx

lemma bytes2_digits (a : UInt8) : bytes2 (a.toNat / 4) (a.toNat % 4 * 16) = [a] := by
  have hn : a.toNat / 4 * 4 + a.toNat % 4 * 16 / 16 = a.toNat := by omega
  rw [bytes2, hn, UInt8.ofNat_toNat]

lemma bytes3_digits (a b : UInt8) :
    bytes3 (a.toNat / 4) (a.toNat % 4 * 16 + b.toNat / 16) (b.toNat % 16 * 4) = [a, b] := by
  have hb := b.toNat_lt
  have h1 : a.toNat / 4 * 4 + (a.toNat % 4 * 16 + b.toNat / 16) / 16 = a.toNat := by omega
  have h2 : (a.toNat % 4 * 16 + b.toNat / 16) % 16 * 16 + b.toNat % 16 * 4 / 4 = b.toNat := by omega
  rw [bytes3, bytes2, h1, h2, UInt8.ofNat_toNat, UInt8.ofNat_toNat]
  rfl

lemma bytes4_digits (a b c : UInt8) :
    bytes4 (a.toNat / 4) (a.toNat % 4 * 16 + b.toNat / 16) (b.toNat % 16 * 4 + c.toNat / 64)
      (c.toNat % 64) = [a, b, c] := by
  have hb := b.toNat_lt
  have hc := c.toNat_lt
  have h1 : a.toNat / 4 * 4 + (a.toNat % 4 * 16 + b.toNat / 16) / 16 = a.toNat := by omega
  have h2 : (a.toNat % 4 * 16 + b.toNat / 16) % 16 * 16 + (b.toNat % 16 * 4 + c.toNat / 64) / 4 =
      b.toNat := by omega
  have h3 : (b.toNat % 16 * 4 + c.toNat / 64) % 4 * 64 + c.toNat % 64 = c.toNat := by omega
  rw [bytes4, bytes3, bytes2, h1, h2, h3, UInt8.ofNat_toNat, UInt8.ofNat_toNat, UInt8.ofNat_toNat]
  rfl

lemma decodeQuanta_encode (e : Encoding) (s : Bytes) : decodeQuanta e (encode e s) = some s := by
  fun_induction encode e s with
  | case1 => rfl
  | case2 a =>
    have ha := a.toNat_lt
    have h1 := value_digit e.url (n := a.toNat / 4) (by omega)
    have h2 := value_digit e.url (n := a.toNat % 4 * 16) (by omega)
    cases hp : e.padded <;>
      simp [decodeQuanta, hp, h1, h2, bytes2_digits]
  | case3 a b =>
    have ha := a.toNat_lt
    have hb := b.toNat_lt
    have h1 := value_digit e.url (n := a.toNat / 4) (by omega)
    have h2 := value_digit e.url (n := a.toNat % 4 * 16 + b.toNat / 16) (by omega)
    have h3 := value_digit e.url (n := b.toNat % 16 * 4) (by omega)
    have hne := digit_ne_pad e.url (n := b.toNat % 16 * 4) (by omega)
    cases hp : e.padded <;>
      simp [decodeQuanta, hp, h1, h2, h3, hne, bytes3_digits]
  | case4 a b c rest ih =>
    have ha := a.toNat_lt
    have hb := b.toNat_lt
    have hc := c.toNat_lt
    have h1 := value_digit e.url (n := a.toNat / 4) (by omega)
    have h2 := value_digit e.url (n := a.toNat % 4 * 16 + b.toNat / 16) (by omega)
    have h3 := value_digit e.url (n := b.toNat % 16 * 4 + c.toNat / 64) (by omega)
    have h4 := value_digit e.url (n := c.toNat % 64) (by omega)
    have hne := digit_ne_pad e.url (n := c.toNat % 64) (by omega)
    simp [decodeQuanta, h1, h2, h3, h4, hne, ih, bytes4_digits]

/-- **Round trip.** A decoder reads what its encoder wrote. -/
theorem decode_encode (e : Encoding) (s : Bytes) : decode e (encode e s) = some s := by
  have hline : ∀ b ∈ encode e s, isLineBreak b = false :=
    forall_mem_encode (fun n hn => not_isLineBreak_digit e.url hn) (by decide) s
  have hfilter : (encode e s).filter (!isLineBreak ·) = encode e s :=
    List.filter_eq_self.mpr fun b hb => by rw [hline b hb]; rfl
  rw [decode, hfilter, decodeQuanta_encode]

lemma encode_ne_nil (e : Encoding) {s : Bytes} (h : s ≠ []) : encode e s ≠ [] := fun he => by
  have hdec := decode_encode e s
  rw [he] at hdec
  exact h (Option.some.inj hdec).symm

lemma decodeQuanta_quantum {e : Encoding} {a b c d : UInt8} {rest k : Bytes}
    (hpad : ¬(e.padded ∧ d = pad)) (h : decodeQuanta e (a :: b :: c :: d :: rest) = some k) :
    ∃ m n o p tail, value e.url a = some m ∧ value e.url b = some n ∧ value e.url c = some o ∧
      value e.url d = some p ∧ decodeQuanta e rest = some tail ∧ k = bytes4 m n o p ++ tail := by
  rw [decodeQuanta, if_neg fun h => hpad ⟨h.1, h.2.2⟩, if_neg hpad] at h
  simp only [Option.bind_eq_bind, Option.bind_eq_some_iff, Option.some.injEq] at h
  obtain ⟨m, hm, n, hn, o, ho, p, hp, tail, htail, rfl⟩ := h
  exact ⟨m, n, o, p, tail, hm, hn, ho, hp, htail, rfl⟩

lemma decodeQuanta_padded {e : Encoding} {a b c : UInt8} {rest k : Bytes} (hpad : e.padded = true)
    (h : decodeQuanta e (a :: b :: c :: pad :: rest) = some k) :
    rest = [] ∧ ∃ m n, value e.url a = some m ∧ value e.url b = some n ∧
      (c = pad ∧ k = bytes2 m n ∨ ∃ o, value e.url c = some o ∧ k = bytes3 m n o) := by
  rw [decodeQuanta] at h
  by_cases hc : c = pad
  · rw [if_pos ⟨hpad, hc, rfl⟩] at h
    split_ifs at h with hrest
    simp only [Option.bind_eq_bind, Option.bind_eq_some_iff, Option.some.injEq] at h
    obtain ⟨m, hm, n, hn, rfl⟩ := h
    exact ⟨hrest, m, n, hm, hn, .inl ⟨hc, rfl⟩⟩
  · rw [if_neg fun h => hc h.2.1, if_pos ⟨hpad, rfl⟩] at h
    split_ifs at h with hrest
    simp only [Option.bind_eq_bind, Option.bind_eq_some_iff, Option.some.injEq] at h
    obtain ⟨m, hm, n, hn, o, ho, rfl⟩ := h
    exact ⟨hrest, m, n, hm, hn, .inr ⟨o, ho, rfl⟩⟩

lemma padded_of_pad {e : Encoding} {a b c : UInt8} {rest k : Bytes}
    (h : decodeQuanta e (a :: b :: c :: pad :: rest) = some k) : e.padded = true := by
  by_contra hpad
  obtain ⟨_, _, _, _, _, -, -, -, hp, -⟩ := decodeQuanta_quantum (fun h => hpad h.1) h
  rw [value_pad] at hp
  cases hp

lemma decodeQuanta_two {e : Encoding} {a b : UInt8} {k : Bytes}
    (h : decodeQuanta e [a, b] = some k) :
    ∃ m n, value e.url a = some m ∧ value e.url b = some n ∧ k = bytes2 m n := by
  rw [decodeQuanta] at h
  split_ifs at h
  simp only [Option.bind_eq_bind, Option.bind_eq_some_iff, Option.some.injEq] at h
  obtain ⟨m, hm, n, hn, rfl⟩ := h
  exact ⟨m, n, hm, hn, rfl⟩

lemma decodeQuanta_three {e : Encoding} {a b c : UInt8} {k : Bytes}
    (h : decodeQuanta e [a, b, c] = some k) :
    ∃ m n o, value e.url a = some m ∧ value e.url b = some n ∧ value e.url c = some o ∧
      k = bytes3 m n o := by
  rw [decodeQuanta] at h
  split_ifs at h
  simp only [Option.bind_eq_bind, Option.bind_eq_some_iff, Option.some.injEq] at h
  obtain ⟨m, hm, n, hn, o, ho, rfl⟩ := h
  exact ⟨m, n, o, hm, hn, ho, rfl⟩

lemma decodeQuanta_unique {e f : Encoding} : {w j k : Bytes} → decodeQuanta e w = some j →
    decodeQuanta f w = some k → j = k
  | [], _, _, hj, hk => by
    rw [decodeQuanta] at hj hk
    exact Option.some.inj (hj.symm.trans hk)
  | [_], _, _, hj, _ => by cases hj
  | [a, b], _, _, hj, hk => by
    obtain ⟨m, n, hm, hn, rfl⟩ := decodeQuanta_two hj
    obtain ⟨m', n', hm', hn', rfl⟩ := decodeQuanta_two hk
    rw [value_unique hm hm', value_unique hn hn']
  | [a, b, c], _, _, hj, hk => by
    obtain ⟨m, n, o, hm, hn, ho, rfl⟩ := decodeQuanta_three hj
    obtain ⟨m', n', o', hm', hn', ho', rfl⟩ := decodeQuanta_three hk
    rw [value_unique hm hm', value_unique hn hn', value_unique ho ho']
  | a :: b :: c :: d :: rest, _, _, hj, hk => by
    by_cases hd : d = pad
    · -- padding ends the text under both encodings
      subst hd
      obtain ⟨-, m, n, hm, hn, hj⟩ := decodeQuanta_padded (padded_of_pad hj) hj
      obtain ⟨-, m', n', hm', hn', hk⟩ := decodeQuanta_padded (padded_of_pad hk) hk
      obtain rfl := value_unique hm hm'
      obtain rfl := value_unique hn hn'
      rcases hj with ⟨rfl, rfl⟩ | ⟨o, ho, rfl⟩
      · rcases hk with ⟨-, rfl⟩ | ⟨o', ho', -⟩
        · rfl
        · rw [value_pad] at ho'
          cases ho'
      · rcases hk with ⟨rfl, -⟩ | ⟨o', ho', rfl⟩
        · rw [value_pad] at ho
          cases ho
        · rw [value_unique ho ho']
    · obtain ⟨m, n, o, p, tail, hm, hn, ho, hp, htail, rfl⟩ := decodeQuanta_quantum (hd ·.2) hj
      obtain ⟨m', n', o', p', tail', hm', hn', ho', hp', htail', rfl⟩ :=
        decodeQuanta_quantum (hd ·.2) hk
      rw [value_unique hm hm', value_unique hn hn', value_unique ho ho', value_unique hp hp',
        decodeQuanta_unique htail htail']

/-- **One reading.** Two decoders that read a text read it as the same bytes. -/
theorem decode_unique {e f : Encoding} {s j k : Bytes} (hj : decode e s = some j)
    (hk : decode f s = some k) : j = k :=
  decodeQuanta_unique hj hk

/-- Four characters stand for three bytes, but for the last two of them. -/
lemma decodeQuanta_length {e : Encoding} : {w k : Bytes} → decodeQuanta e w = some k →
    4 * k.length ≤ 3 * w.length ∧ 3 * w.length ≤ 4 * k.length + 8
  | [], _, h => by
    rw [decodeQuanta] at h
    cases h
    exact ⟨Nat.le_refl _, Nat.zero_le _⟩
  | [_], _, h => by cases h
  | [a, b], _, h => by
    obtain ⟨m, n, -, -, rfl⟩ := decodeQuanta_two h
    simp [bytes2]
  | [a, b, c], _, h => by
    obtain ⟨m, n, o, -, -, -, rfl⟩ := decodeQuanta_three h
    simp [bytes3, bytes2]
  | a :: b :: c :: d :: rest, _, h => by
    by_cases hd : d = pad
    · subst hd
      obtain ⟨rfl, m, n, -, -, ⟨-, rfl⟩ | ⟨o, -, rfl⟩⟩ := decodeQuanta_padded (padded_of_pad h) h
      · simp [bytes2]
      · simp [bytes3, bytes2]
    · obtain ⟨m, n, o, p, tail, -, -, -, -, htail, rfl⟩ := decodeQuanta_quantum (hd ·.2) h
      have hrest := decodeQuanta_length htail
      simp only [bytes4, bytes3, bytes2, List.length_append, List.length_cons, List.length_nil]
      omega

/-- `hex.DecodeString`. -/
def hexDecode : Bytes → Option Bytes
  | [] => some []
  | [_] => none
  | a :: b :: rest =>
    if Url.isHex a ∧ Url.isHex b then
      (hexDecode rest).map fun tail => (Url.unhex a * 16 + Url.unhex b) :: tail
    else none

/-- `hex.EncodeToString`. -/
def hexEncode (s : Bytes) : Bytes :=
  let digit (n : UInt8) : UInt8 := if n < 10 then 0x30 + n else 0x57 + n
  s.flatMap fun b => [digit (b / 16), digit (b % 16)]

set_option maxRecDepth 8000 in
lemma hexDecode_hexEncode (s : Bytes) : hexDecode (hexEncode s) = some s := by
  induction s with
  | nil => rfl
  | cons b s ih =>
    have hbyte : ∀ b : UInt8,
        let digit (n : UInt8) : UInt8 := if n < 10 then 0x30 + n else 0x57 + n
        Url.isHex (digit (b / 16)) = true ∧ Url.isHex (digit (b % 16)) = true ∧
          Url.unhex (digit (b / 16)) * 16 + Url.unhex (digit (b % 16)) = b :=
      Url.forall_byte (by decide)
    obtain ⟨h1, h2, h3⟩ := hbyte b
    unfold hexEncode at ih ⊢
    dsimp only at ih h1 h2 h3 ⊢
    rw [List.flatMap_cons, List.cons_append, List.cons_append, List.nil_append, hexDecode,
      if_pos ⟨h1, h2⟩, ih, Option.map_some, h3]

set_option maxRecDepth 8000 in
lemma hexDecode_eq_some : {s k : Bytes} → hexDecode s = some k →
    s.length = 2 * k.length ∧ ∀ b ∈ s, isLineBreak b = false
  | [], _, h => by
    cases h
    exact ⟨rfl, nofun⟩
  | [_], _, h => by cases h
  | a :: b :: rest, _, h => by
    have hline : ∀ b : UInt8, Url.isHex b = true → isLineBreak b = false :=
      Url.forall_byte (by decide)
    rw [hexDecode] at h
    split_ifs at h with hdigits
    obtain ⟨tail, htail, rfl⟩ := Option.map_eq_some_iff.mp h
    obtain ⟨hlength, hrest⟩ := hexDecode_eq_some htail
    refine ⟨?_, fun c hc => ?_⟩
    · simp only [List.length_cons]
      omega
    · simp only [List.mem_cons] at hc
      rcases hc with rfl | rfl | hc
      · exact hline _ hdigits.1
      · exact hline _ hdigits.2
      · exact hrest c hc

end CodexOne.Base64
