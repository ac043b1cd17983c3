import Mathlib.Data.List.Basic
import Mathlib.Algebra.BigOperators.Group.List.Basic
import Mathlib.Algebra.Ring.Nat
import Mathlib.Algebra.Ring.Int.Defs

/-!
Calendar dates: the number of a day, the day after a date, and dates as text.
-/

namespace CodexOne.Calendar

def isLeap (year : ℕ) : Bool := year % 4 = 0 && (year % 100 ≠ 0 || year % 400 = 0)

/-- `daysIn` of package `time`. -/
def daysIn (month year : ℕ) : ℕ :=
  if month = 2 then if isLeap year then 29 else 28
  else if month = 4 ∨ month = 6 ∨ month = 9 ∨ month = 11 then 30 else 31

structure Date where
  year : ℕ
  month : ℕ
  day : ℕ
  month_mem : 1 ≤ month ∧ month ≤ 12
  day_mem : 1 ≤ day ∧ day ≤ daysIn month year

def daysBefore (month year : ℕ) : ℕ :=
  ((List.range (month - 1)).map fun k => daysIn (k + 1) year).sum

def leapsBefore (year : ℕ) : ℕ := (year + 3) / 4 - (year + 99) / 100 + (year + 399) / 400

lemma daysIn_pos (month year : ℕ) : 1 ≤ daysIn month year := by
  unfold daysIn
  split_ifs <;> omega

lemma daysBefore_succ {month : ℕ} (h : 1 ≤ month) (year : ℕ) :
    daysBefore (month + 1) year = daysBefore month year + daysIn month year := by
  obtain ⟨k, rfl⟩ := Nat.exists_eq_add_of_le' h
  simp [daysBefore, List.range_succ]

lemma daysBefore_thirteen (year : ℕ) :
    daysBefore 12 year + 31 = 365 + if isLeap year then 1 else 0 := by
  cases h : isLeap year <;> simp [daysBefore, List.range_succ, daysIn, h]

lemma leapsBefore_succ (year : ℕ) :
    leapsBefore (year + 1) = leapsBefore year + if isLeap year then 1 else 0 := by
  have h4 : (year + 1 + 3) / 4 = (year + 3) / 4 + if year % 4 = 0 then 1 else 0 := by
    split_ifs <;> omega
  have h100 : (year + 1 + 99) / 100 = (year + 99) / 100 + if year % 100 = 0 then 1 else 0 := by
    split_ifs <;> omega
  have h400 : (year + 1 + 399) / 400 = (year + 399) / 400 + if year % 400 = 0 then 1 else 0 := by
    split_ifs <;> omega
  have hle : (year + 99) / 100 ≤ (year + 3) / 4 := by omega
  have hdvd : (year % 400 = 0 → year % 100 = 0) ∧ (year % 100 = 0 → year % 4 = 0) := by omega
  unfold leapsBefore isLeap
  rw [h4, h100, h400]
  by_cases hfour : year % 4 = 0
  · by_cases hcentury : year % 100 = 0
    · by_cases hfourth : year % 400 = 0
      · simp [hfour, hcentury, hfourth]
        omega
      · simp [hfour, hcentury, hfourth]
    · have hfourth : ¬year % 400 = 0 := fun h => hcentury (hdvd.1 h)
      simp [hfour, hcentury, hfourth]
      omega
  · have hcentury : ¬year % 100 = 0 := fun h => hfour (hdvd.2 h)
    have hfourth : ¬year % 400 = 0 := fun h => hcentury (hdvd.1 h)
    simp [hfour, hcentury, hfourth]

namespace Date

def dayNumber (d : Date) : ℤ :=
  (365 * d.year + leapsBefore d.year + daysBefore d.month d.year + d.day : ℕ) - 719529

def next (d : Date) : Date :=
  if h : d.day < daysIn d.month d.year then
    ⟨d.year, d.month, d.day + 1, d.month_mem, by have := d.day_mem; omega⟩
  else if h' : d.month < 12 then
    ⟨d.year, d.month + 1, 1, by have := d.month_mem; omega, Nat.le_refl 1, daysIn_pos ..⟩
  else ⟨d.year + 1, 1, 1, by omega, Nat.le_refl 1, daysIn_pos ..⟩

lemma dayNumber_next (d : Date) : d.next.dayNumber = d.dayNumber + 1 := by
  have hmonth := d.month_mem
  have hday := d.day_mem
  unfold next dayNumber
  split_ifs with h h'
  · dsimp only
    omega
  · have hsucc := daysBefore_succ hmonth.1 d.year
    dsimp only
    omega
  · -- the last day of a year
    have hmonth12 : d.month = 12 := by omega
    have hlast : d.day = 31 := by
      have h31 : daysIn 12 d.year = 31 := by simp [daysIn]
      rw [hmonth12] at h hday
      omega
    have hyear := daysBefore_thirteen d.year
    have hleap := leapsBefore_succ d.year
    have hfirst : daysBefore 1 (d.year + 1) = 0 := rfl
    dsimp only
    rw [hmonth12, hlast, hleap, hfirst]
    split_ifs at hyear ⊢ <;> omega

end Date

def digit (n : ℕ) : Char := Char.ofNat (48 + n % 10)

def value (c : Char) : ℕ := c.toNat - 48

lemma digit_spec {n : ℕ} : (digit n).isDigit = true ∧ value (digit n) = n % 10 := by
  have h : ∀ k < 10, (Char.ofNat (48 + k)).isDigit = true ∧ value (Char.ofNat (48 + k)) = k := by
    decide
  exact h (n % 10) (Nat.mod_lt _ (by omega))

namespace Date

/-- `2006-01-02` of a date of the first ten thousand years. -/
def text (d : Date) : String :=
  String.ofList [digit (d.year / 1000), digit (d.year / 100), digit (d.year / 10), digit d.year,
    '-',
    digit (d.month / 10), digit d.month, '-', digit (d.day / 10), digit d.day]

def ofParts (year month day : ℕ) : Option Date :=
  if h : (1 ≤ month ∧ month ≤ 12) ∧ 1 ≤ day ∧ day ≤ daysIn month year then
    some ⟨year, month, day, h.1, h.2⟩
  else none

/-- `time.Parse` with the layout `2006-01-02`. -/
def parse (s : String) : Option Date :=
  match s.toList with
  | [a, b, c, d, '-', e, f, '-', g, h] =>
    if [a, b, c, d, e, f, g, h].all Char.isDigit then
      ofParts (1000 * value a + 100 * value b + 10 * value c + value d)
        (10 * value e + value f) (10 * value g + value h)
    else none
  | _ => none

lemma parse_text (d : Date) (h : d.year ≤ 9999) : parse d.text = some d := by
  have hmonth := d.month_mem
  have hday := d.day_mem
  have hle : daysIn d.month d.year ≤ 31 := by
    unfold daysIn
    split_ifs <;> omega
  have hyear : 1000 * (d.year / 1000 % 10) + 100 * (d.year / 100 % 10) + 10 * (d.year / 10 % 10) +
      d.year % 10 = d.year := by omega
  have hm : 10 * (d.month / 10 % 10) + d.month % 10 = d.month := by omega
  have hd : 10 * (d.day / 10 % 10) + d.day % 10 = d.day := by omega
  simp only [parse, text, String.toList_ofList, List.all_cons, List.all_nil, digit_spec,
    Bool.and_self, if_true, ofParts, hyear, hm, hd]
  rw [dif_pos ⟨hmonth, hday⟩]

end Date

end CodexOne.Calendar
