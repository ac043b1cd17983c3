import CodexOne.Lib.Calendar
import CodexOne.Lib.Zone
import Mathlib.Order.SuccPred.IntervalSucc
import Mathlib.Tactic.Ring

/-!
The range of instants of a day, as the statistics of a date select it.

A date starts at the instant that its midnight is taken for, and ends where the clock that is read
at this instant is found again on the next date.
-/

namespace CodexOne

open Calendar

namespace DayRange

variable (z : Zone) (date : ℤ → ℤ)

def addDay (t : ℤ) : ℤ := date (z.reads t + 86400)

/-- The range of the day of a number. -/
def dayOf (n : ℤ) : ℤ × ℤ :=
  let start := date (86400 * n)
  (start, addDay z date start)

/-- `dayRange`. The function `date` is `time.Date` in the zone of the configuration. -/
def dayRange (now : ℤ) (raw : String) : Except String (ℤ × ℤ) :=
  if raw = "" then .ok (dayOf z date (z.reads now / 86400))
  else match Date.parse raw with
    | some d => .ok (dayOf z date d.dayNumber)
    | none => .error "date must use YYYY-MM-DD"

/-- The log entries that `TodayStats` counts for a range, by their millisecond. -/
def Counts (range : ℤ × ℤ) (createdAt : ℤ) : Prop :=
  1000 * range.1 ≤ createdAt ∧ createdAt < 1000 * range.2

/-- The range of a date ends where that of the next date starts. -/
def Meets (now : ℤ) (d : Date) : Prop :=
  ∃ start stop stop', dayRange z date now d.text = .ok (start, stop) ∧
    dayRange z date now d.next.text = .ok (stop, stop')

variable {z date} {now : ℤ} {d : Date}

lemma dayRange_text (hyear : d.year ≤ 9999) :
    dayRange z date now d.text = .ok (dayOf z date d.dayNumber) := by
  have hne : d.text ≠ "" := fun h => by simpa [Date.text] using congrArg String.toList h
  unfold dayRange
  rw [if_neg hne, Date.parse_text d hyear]

lemma year_le_next (d : Date) : d.year ≤ d.next.year := by
  unfold Date.next
  split_ifs <;> simp

lemma meets_iff (hyear : d.next.year ≤ 9999) :
    Meets z date now d ↔ date (z.reads (date (86400 * d.dayNumber)) + 86400) =
      date (86400 * d.dayNumber + 86400) := by
  have hnext : 86400 * d.next.dayNumber = 86400 * d.dayNumber + 86400 := by
    rw [Date.dayNumber_next]
    ring
  unfold Meets
  rw [dayRange_text ((year_le_next d).trans hyear), dayRange_text hyear]
  simp only [dayOf, addDay, hnext, Except.ok.injEq, Prod.mk.injEq]
  constructor
  · rintro ⟨start, stop, stop', ⟨-, hstop⟩, hstart, -⟩
    rw [hstop, hstart]
  · exact fun h => ⟨_, _, _, ⟨rfl, h⟩, rfl, rfl⟩

lemma counts_unique (h : z.Resolves date) (hmidnight : ∀ n, z.Occurs (86400 * n))
    (hoffset : ∀ t t', z.offset t - z.offset t' < 86400) (createdAt : ℤ) :
    ∃! n, Counts (dayOf z date n) createdAt := by
  have hreads (n : ℤ) : date (86400 * n) + z.offset (date (86400 * n)) = 86400 * n :=
    (h _).reads (hmidnight n)
  have hmono : StrictMono fun n => 1000 * date (86400 * n) := strictMono_int_of_lt_succ fun n => by
    have hn := hreads n
    have hn' := hreads (n + 1)
    have := hoffset (date (86400 * (n + 1))) (date (86400 * n))
    omega
  have hstop (n : ℤ) : (dayOf z date n).2 = date (86400 * (n + 1)) := by
    have hnext := h.next (hmidnight n) 86400
    rwa [show (86400 * n + 86400 : ℤ) = 86400 * (n + 1) by ring] at hnext
  have hstart (n : ℤ) : (dayOf z date n).1 = date (86400 * n) := rfl
  simpa only [Counts, hstart, hstop] using Zone.existsUnique_between hmono createdAt

end DayRange

open DayRange

/-- **When the days meet.** Whatever instants `time.Date` takes the skipped readings for, the range
of a date ends where the next one starts exactly when the clock shows midnight on that date; with a
skipped midnight the ranges do not meet, unless the next date has a skipped reading too. And where
no midnight is skipped and no two offsets are a day apart, every log entry is counted for exactly
one day. -/
theorem day_ranges_meet_iff (z : Zone) (now : ℤ) :
    (∀ d : Date, d.next.year ≤ 9999 →
      ((∀ date, z.Resolves date → Meets z date now d) ↔ z.Occurs (86400 * d.dayNumber)) ∧
      ∀ date, z.Resolves date → ¬z.Occurs (86400 * d.dayNumber) →
        z.Occurs (86400 * d.next.dayNumber) →
        z.Occurs (z.reads (date (86400 * d.dayNumber)) + 86400) → ¬Meets z date now d) ∧
    ((∀ n, z.Occurs (86400 * n)) → (∀ t t', z.offset t - z.offset t' < 86400) →
      ∀ date, z.Resolves date → ∀ createdAt, ∃! n, Counts (dayOf z date n) createdAt) := by
  refine ⟨fun d hyear => ⟨?_, fun date h hskip hnext hshift hmeets => ?_⟩, ?_⟩
  · simp only [meets_iff hyear]
    exact Zone.resolves_next_iff (by decide)
  · rw [Date.dayNumber_next, show (86400 * (d.dayNumber + 1) : ℤ) = 86400 * d.dayNumber + 86400 by
      ring] at hnext
    exact h.next_ne hskip hnext hshift ((meets_iff hyear).mp hmeets)
  · exact fun hmidnight hoffset date h createdAt => counts_unique h hmidnight hoffset createdAt

/-- `time.Date` where the clock is changed once, at `T`: the offset at the reading itself is tried
first. -/
def dateOnce (T before after : ℤ) (l : ℤ) : ℤ :=
  let lookup := fun t => if t < T then before else after
  let utc := l - lookup l
  if l < T ↔ utc < T then utc else l - lookup utc

/-- São Paulo around the first hour of 4 November 2018, which was skipped. -/
def saoPaulo : Zone where
  offset t := if t < 1541300400 then -10800 else -7200
  bounded := ⟨10800, fun t => by split_ifs <;> omega⟩

def saoPauloDate : ℤ → ℤ := dateOnce 1541300400 (-10800) (-7200)

lemma saoPauloDate_resolves : saoPaulo.Resolves saoPauloDate := by
  intro l
  by_cases h : 1541289600 ≤ l ∧ l < 1541293200
  · -- the hour that the clocks left out
    refine .inr ⟨?_, 1541300400, ?_, .inr ?_⟩
    · rintro ⟨t, ht⟩
      simp only [Zone.reads, saoPaulo] at ht
      split_ifs at ht <;> omega
    · simp only [Zone.Skips, Zone.reads, saoPaulo]
      omega
    · simp only [saoPauloDate, dateOnce, saoPaulo]
      split_ifs <;> omega
  · left
    simp only [Zone.reads, saoPaulo, saoPauloDate, dateOnce]
    split_ifs <;> omega

def sampleDate : Date := ⟨2018, 11, 3, by decide, by decide⟩

theorem day_ranges_meet_sample :
    sampleDate.text = "2018-11-03" ∧ sampleDate.next.text = "2018-11-04" ∧
      Meets saoPaulo saoPauloDate 0 sampleDate :=
  ⟨by decide, by decide, ((day_ranges_meet_iff saoPaulo 0).1 sampleDate (by decide)).1.mpr
    ⟨1541214000, by decide⟩ saoPauloDate saoPauloDate_resolves⟩

set_option maxRecDepth 8000 in
/-- The range of 4 November ends at 23:00, and that of 5 November starts at midnight. -/
theorem day_ranges_apart :
    saoPaulo.Resolves saoPauloDate ∧
      dayRange saoPaulo saoPauloDate 0 "2018-11-04" = .ok (1541296800, 1541379600) ∧
      dayRange saoPaulo saoPauloDate 0 "2018-11-05" = .ok (1541383200, 1541469600) :=
  ⟨saoPauloDate_resolves, by decide, by decide⟩

end CodexOne
