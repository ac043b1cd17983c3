import Mathlib.Data.List.Basic
import Mathlib.Data.List.TakeWhile
import Mathlib.Data.Nat.Log
import Mathlib.Algebra.Ring.Nat
import Mathlib.Algebra.Ring.Int.Defs

/-!
JSON number literals, the decimal number a literal denotes, and what is left of a literal
after a trip through `float64`.

A literal is kept as written. `encoding/json` keeps it too when it decodes into a
`json.Number`; decoding into an `any` rounds it to the nearest double and encoding prints
the shortest decimal that reads back as the same double.
-/

namespace CodexOne

namespace Number

/-- The parts of a literal: the sign, the digits before and after the point, the exponent. -/
structure Parts where
  neg : Bool
  int : List Char
  frac : List Char
  exp : Int

def digitsVal (ds : List Char) : ℕ := ds.foldl (fun n d => 10 * n + (d.toNat - 48)) 0

/-- A non-empty string of digits. -/
def digits? (ds : List Char) : Option Int :=
  if ds ≠ [] ∧ ds.all Char.isDigit then some (digitsVal ds) else none

/-- The exponent part, `[eE][+-]?[0-9]+` or nothing. -/
def scanExp : List Char → Option Int
  | [] => some 0
  | e :: r =>
    if e = 'e' ∨ e = 'E' then
      match r with
      | '-' :: ds => (digits? ds).map (- ·)
      | '+' :: ds => digits? ds
      | ds => digits? ds
    else none

/-- The fraction and the exponent. -/
def scanFrac : List Char → Option (List Char × Int)
  | '.' :: r =>
    if r.takeWhile Char.isDigit = [] then none
    else (scanExp (r.dropWhile Char.isDigit)).map (r.takeWhile Char.isDigit, ·)
  | r => (scanExp r).map ([], ·)

/-- A literal after its sign: no leading zeros, digits on both sides of a point. -/
def scanUnsigned (neg : Bool) (l : List Char) : Option Parts :=
  let int := l.takeWhile Char.isDigit
  if int = [] ∨ (int.head? = some '0' ∧ int.length ≠ 1) then none
  else (scanFrac (l.dropWhile Char.isDigit)).map fun (f, e) => ⟨neg, int, f, e⟩

def scan : List Char → Option Parts
  | '-' :: r => scanUnsigned true r
  | r => scanUnsigned false r

end Number

/-- A JSON number literal. -/
structure Number where
  lit : List Char
  valid : (Number.scan lit).isSome
  deriving DecidableEq

namespace Number

def ofLit? (l : List Char) : Option Number :=
  if h : (scan l).isSome then some ⟨l, h⟩ else none

@[simp] lemma ofLit?_lit (n : Number) : ofLit? n.lit = some n := by
  simp [ofLit?, n.valid]

lemma lit_of_ofLit? {l : List Char} {n : Number} (h : ofLit? l = some n) : n.lit = l := by
  unfold ofLit? at h
  split at h
  · cases h; rfl
  · cases h

def parts (n : Number) : Parts := (scan n.lit).get n.valid

/-- A decimal number without superfluous zeros: the digits as one integer, times a power of
ten. Zero has no digits, no sign and the power 0, so equal numbers are equal records. -/
structure Decimal where
  neg : Bool
  digits : List Char
  exp : Int
  deriving DecidableEq

def decimal (n : Number) : Decimal :=
  let p := n.parts
  let ds := (p.int ++ p.frac).dropWhile (· = '0')
  let kept := (ds.reverse.dropWhile (· = '0')).reverse
  if kept = [] then ⟨false, [], 0⟩
  else ⟨p.neg, kept, p.exp - p.frac.length + (ds.length - kept.length)⟩

/-! ### Doubles -/

/-- A finite positive double `mant * 2 ^ exp`. -/
structure Double where
  mant : ℕ
  exp : Int
  deriving DecidableEq

/-- `a / b` rounded to the nearest integer, halves to even. -/
def roundDiv (a b : ℕ) : ℕ :=
  let q := a / b
  let r := a % b
  if 2 * r < b then q else if 2 * r > b then q + 1 else q + q % 2

/-- The nearest double of `num / den`, or `none` when the value is too large. -/
def nearestRat (num den : ℕ) : Option Double :=
  let l : Int := (Nat.log2 num : Int) - Nat.log2 den
  let below : Bool := if 0 ≤ l then decide (num < den * 2 ^ l.toNat)
    else decide (num * 2 ^ (-l).toNat < den)
  let e := max ((if below then l - 1 else l) - 52) (-1074)
  let q := if 0 ≤ e then roundDiv num (den * 2 ^ e.toNat) else roundDiv (num * 2 ^ (-e).toNat) den
  let d : Double := if q = 2 ^ 53 then ⟨2 ^ 52, e + 1⟩ else ⟨q, e⟩
  if 971 < d.exp then none else some d

/-- The nearest double of `m * 10 ^ e`; values beyond the range of doubles are recognised by
their number of digits. -/
def nearest (m : ℕ) (digits : ℕ) (e : Int) : Option Double :=
  if e + digits > 310 then none
  else if e + digits < -330 then some ⟨0, -1074⟩
  else if 0 ≤ e then nearestRat (m * 10 ^ e.toNat) 1 else nearestRat m (10 ^ (-e).toNat)

def tenPowLe (e : Int) (d : Double) : Bool :=
  10 ^ e.toNat * 2 ^ (-d.exp).toNat ≤ d.mant * 2 ^ d.exp.toNat * 10 ^ (-e).toNat

/-- The decimal exponent of the first digit. -/
def leadExp (d : Double) : Int :=
  let e := ((Nat.log2 d.mant + d.exp) * 30103) / 100000
  if tenPowLe (e + 1) d then e + 1 else if tenPowLe e d then e else e - 1

/-- The decimals of `n` digits next to a double that read back as that double, the nearer one
first: the digits as a number and the power of ten. -/
def shortestOf (d : Double) (lead : Int) (n : ℕ) : Option (ℕ × Int) :=
  let t := lead - n + 1
  let num := d.mant * 2 ^ d.exp.toNat * 10 ^ (-t).toNat
  let den := 2 ^ (-d.exp).toNat * 10 ^ t.toNat
  let lo := num / den
  let back (c : ℕ) : Bool := nearest c n t = some d
  let near := roundDiv num den
  match back lo, back (lo + 1) with
  | true, true => some (near, t)
  | true, false => some (lo, t)
  | false, true => some (lo + 1, t)
  | false, false => none

/-- The shortest decimal that reads back as a positive double. -/
def shortest (d : Double) : ℕ × Int :=
  let lead := leadExp d
  ((List.range 17).findSome? fun i => shortestOf d lead (i + 1)).getD (0, 0)

/-- The digits of a number without trailing zeros, and how many zeros were cut off. -/
def trimZeros (c : ℕ) : List Char × ℕ :=
  let ds := Nat.toDigits 10 c
  let kept := (ds.reverse.dropWhile (· = '0')).reverse
  (kept, ds.length - kept.length)

/-- How `encoding/json` prints the decimal `0.d₁d₂… * 10 ^ point`: in positional notation from
`1e-6` up to `1e21`, else with an exponent. -/
def layout (ds : List Char) (point : Int) : List Char :=
  if point ≤ -6 ∨ 21 < point then
    let e := point - 1
    let tail := ds.tail
    ds.take 1 ++ (if tail = [] then [] else '.' :: tail) ++ 'e' ::
      (if e < 0 then '-' else '+') :: (Nat.toDigits 10 e.natAbs)
  else if point ≤ 0 then
    '0' :: '.' :: (List.replicate (-point).toNat '0' ++ ds)
  else
    let k := point.toNat
    if ds.length ≤ k then ds ++ List.replicate (k - ds.length) '0'
    else ds.take k ++ '.' :: ds.drop k

/-- Decoding a literal into a `float64` and encoding that again: `none` when the literal is out
of range, which `json.Unmarshal` reports as an error. -/
def viaFloat64 (n : Number) : Option Number :=
  let p := n.parts
  let ds := p.int ++ p.frac
  let e := p.exp - p.frac.length
  let m := digitsVal ds
  let sign : List Char := if p.neg then ['-'] else []
  if m = 0 then ofLit? (sign ++ ['0'])
  else do
    let d ← nearest m (Nat.toDigits 10 m).length e
    if d.mant = 0 then ofLit? (sign ++ ['0'])
    else
      let (c, t) := shortest d
      let (kept, cut) := trimZeros c
      ofLit? (sign ++ layout kept (t + cut + kept.length))

/-- A literal keeps its value on its way through a `float64`. -/
def Exact (n : Number) : Prop := ∃ m, n.viaFloat64 = some m ∧ m.decimal = n.decimal

instance (n : Number) : Decidable n.Exact :=
  match h : n.viaFloat64 with
  | none => isFalse (by simp [Exact, h])
  | some m => decidable_of_iff (m.decimal = n.decimal) (by simp [Exact, h])

/-- The integer of a literal without fraction and exponent, when an `int64` holds it. -/
def int64? (n : Number) : Option Int :=
  (match n.lit with
    | '-' :: ds => (digits? ds).map (- ·)
    | ds => digits? ds).filter fun i => -2 ^ 63 ≤ i ∧ i < 2 ^ 63

/-- `strconv.Atoi` with the error ignored: a number out of range is the nearest in range. -/
def atoi (l : List Char) : Int :=
  match l with
  | '-' :: ds => ((digits? ds).map fun v => max (-2 ^ 63) (-v)).getD 0
  | '+' :: ds => ((digits? ds).map fun v => min (2 ^ 63 - 1) v).getD 0
  | ds => ((digits? ds).map fun v => min (2 ^ 63 - 1) v).getD 0

lemma scanUnsigned_digits {ds : List Char} (hd : ∀ c ∈ ds, c.isDigit = true) (hne : ds ≠ [])
    (hz : ds.head? = some '0' → ds.length = 1) (neg : Bool) : (scanUnsigned neg ds).isSome := by
  have hall : ds.takeWhile Char.isDigit = ds := List.takeWhile_eq_self_iff.mpr hd
  have hnone : ds.dropWhile Char.isDigit = [] := List.dropWhile_eq_nil_iff.mpr hd
  rw [scanUnsigned, hall, hnone, if_neg (by
    rintro (h | ⟨h, hlen⟩)
    · exact hne h
    · exact hlen (hz h))]
  rfl

lemma digitChar_ne_zero : ∀ n < 10, 0 < n → n.digitChar ≠ '0' := by decide

lemma head_toDigits {n : ℕ} (h : 0 < n) : (Nat.toDigits 10 n).head? ≠ some '0' := by
  induction n using Nat.strong_induction_on with
  | _ n ih =>
    by_cases hlt : n < 10
    · rw [Nat.toDigits_of_lt_base hlt]
      simpa using digitChar_ne_zero n hlt h
    · -- the first digit is that of the quotient
      have hsplit := Nat.toDigits_append_toDigits (b := 10) (n := n / 10) (d := n % 10)
        (by decide) (by omega) (Nat.mod_lt _ (by decide))
      rw [Nat.div_add_mod] at hsplit
      rw [← hsplit, List.head?_append]
      have := ih (n / 10) (by omega) (by omega)
      cases hhead : (Nat.toDigits 10 (n / 10)).head? with
      | none => exact absurd (List.head?_eq_none_iff.mp hhead) Nat.toDigits_ne_nil
      | some c =>
        rw [hhead] at this
        simpa using this

lemma scanUnsigned_toDigits (n : ℕ) (neg : Bool) :
    (scanUnsigned neg (Nat.toDigits 10 n)).isSome := by
  refine scanUnsigned_digits
    (fun c hc => Nat.isDigit_of_mem_toDigits (by decide) (by decide) hc) Nat.toDigits_ne_nil
    (fun h => ?_) neg
  rcases Nat.eq_zero_or_pos n with rfl | hn
  · rfl
  · exact absurd h (head_toDigits hn)

/-- The literal that encoding an integer gives. -/
def ofInt (i : Int) : Number :=
  match i with
  | .ofNat n =>
    { lit := Nat.toDigits 10 n
      valid := by
        have h := scanUnsigned_toDigits n false
        have hd := fun c (hc : c ∈ Nat.toDigits 10 n) =>
          Nat.isDigit_of_mem_toDigits (b := 10) (by decide) (by decide) hc
        unfold scan
        split
        · rename_i heq
          exact absurd (hd '-' (heq ▸ List.mem_cons_self ..)) (by decide)
        · exact h }
  | .negSucc n =>
    { lit := '-' :: Nat.toDigits 10 (n + 1), valid := scanUnsigned_toDigits (n + 1) true }

lemma digitsVal_toDigits (n : ℕ) : digitsVal (Nat.toDigits 10 n) = n :=
  Nat.ofDigitChars_eq_foldl.symm.trans (Nat.ofDigitChars_toDigits (by decide) (by decide))

lemma digits?_toDigits (n : ℕ) : digits? (Nat.toDigits 10 n) = some (n : ℤ) := by
  have hall : (Nat.toDigits 10 n).all Char.isDigit = true := List.all_eq_true.mpr fun c hc =>
    Nat.isDigit_of_mem_toDigits (by decide) (by decide) hc
  rw [digits?, if_pos ⟨Nat.toDigits_ne_nil, hall⟩, digitsVal_toDigits]

lemma int64?_ofInt {i : ℤ} (h : -2 ^ 63 ≤ i ∧ i < 2 ^ 63) : (ofInt i).int64? = some i := by
  unfold int64? ofInt
  cases i with
  | ofNat n =>
    have hd := fun c (hc : c ∈ Nat.toDigits 10 n) =>
      Nat.isDigit_of_mem_toDigits (b := 10) (by decide) (by decide) hc
    dsimp only
    split
    · rename_i heq
      exact absurd (hd '-' (heq ▸ List.mem_cons_self ..)) (by decide)
    · rw [digits?_toDigits, Option.filter_some, if_pos (by simpa using h)]
      rfl
  | negSucc n =>
    dsimp only
    split
    · rename_i ds heq
      obtain rfl := (List.cons_inj_right _).mp heq
      rw [digits?_toDigits, Option.map_some, Option.filter_some, if_pos]
      · rfl
      · simpa [Int.negSucc_eq] using h
    · rename_i hne
      exact absurd rfl (hne _)

end Number

end CodexOne
