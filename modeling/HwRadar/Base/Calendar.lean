import Mathlib.Tactic.Ring
import Mathlib.Tactic.IntervalCases
import Mathlib.Order.Monotone.Basic
import Mathlib.Data.Int.ConditionallyCompleteOrder

/-! The proleptic Gregorian calendar on microsecond instants. An instant counts
microseconds from 0001-01-01T00:00:00Z; the civil fields of a day are computed
as the standard library of the modelled language computes them. -/
namespace HwRadar.Base.Calendar

def milliseconds (n : Int) : Int := n * 1000
def seconds (n : Int) : Int := n * 1000000
def minutes (n : Int) : Int := seconds (n * 60)
def hours (n : Int) : Int := seconds (n * 3600)
def days (n : Int) : Int := seconds (n * 86400)

theorem secondsNonneg {n : Int} (h : 0 ≤ n) : 0 ≤ seconds n := by
  unfold seconds; omega

theorem daysEq (n : Int) : days n = n * 86400000000 := by
  unfold days seconds; ring

def isLeap (year : Int) : Bool :=
  year % 4 == 0 && (year % 100 != 0 || year % 400 == 0)

def daysBeforeYear (year : Int) : Int :=
  (year - 1) * 365 + (year - 1) / 4 - (year - 1) / 100 + (year - 1) / 400

def daysBeforeMonth (leap : Bool) (month : Nat) : Nat :=
  let common := match month with
    | 0 | 1 => 0 | 2 => 31 | 3 => 59 | 4 => 90 | 5 => 120 | 6 => 151 | 7 => 181
    | 8 => 212 | 9 => 243 | 10 => 273 | 11 => 304 | 12 => 334 | _ => 365
  if 2 < month ∧ leap then common + 1 else common

def dayNumber (year : Int) (month day : Nat) : Int :=
  daysBeforeYear year + daysBeforeMonth (isLeap year) month + day - 1

def midnight (year : Int) (month day : Nat) : Int := days (dayNumber year month day)

theorem leapYearDays (year : Int) :
    daysBeforeYear (year + 1) = daysBeforeYear year + daysBeforeMonth (isLeap year) 13 := by
  have split : isLeap year = true ↔ year % 4 = 0 ∧ (year % 100 ≠ 0 ∨ year % 400 = 0) := by
    simp [isLeap]
  cases leap : isLeap year with
  | true =>
    have h := split.mp leap
    simp only [daysBeforeYear, daysBeforeMonth]
    norm_num
    omega
  | false =>
    have h : ¬(year % 4 = 0 ∧ (year % 100 ≠ 0 ∨ year % 400 = 0)) := by
      rw [← split, leap]; simp
    simp only [daysBeforeYear, daysBeforeMonth]
    norm_num
    omega

def monthFirst (index : Int) : Int := dayNumber (index / 12) ((index % 12).toNat + 1) 1

theorem monthFirstOf (year : Int) {month : Nat} (low : 1 ≤ month) (high : month ≤ 12) :
    monthFirst (12 * year + month - 1) = dayNumber year month 1 := by
  have quotient : (12 * year + (month : Int) - 1) / 12 = year := by omega
  have rest : ((12 * year + (month : Int) - 1) % 12).toNat + 1 = month := by omega
  rw [monthFirst, quotient, rest]

theorem monthLength (leap : Bool) {month : Nat} (low : 1 ≤ month) (high : month ≤ 12) :
    28 ≤ (daysBeforeMonth leap (month + 1) : Int) - daysBeforeMonth leap month ∧
    (daysBeforeMonth leap (month + 1) : Int) - daysBeforeMonth leap month ≤ 31 := by
  interval_cases month <;> cases leap <;> decide

theorem nextMonthFirst (year : Int) {month : Nat} (low : 1 ≤ month) (high : month ≤ 12) :
    monthFirst (12 * year + month) = daysBeforeYear year + daysBeforeMonth (isLeap year) (month + 1) := by
  rcases Nat.lt_or_ge month 12 with small | last
  · have h := @monthFirstOf year (month + 1) (by omega) (by omega)
    have same : 12 * year + ((month + 1 : Nat) : Int) - 1 = 12 * year + month := by omega
    rw [same] at h
    rw [h, dayNumber]; omega
  · obtain rfl : month = 12 := by omega
    have h := @monthFirstOf (year + 1) 1 (by omega) (by omega)
    have same : 12 * (year + 1) + ((1 : Nat) : Int) - 1 = 12 * year + (12 : Nat) := by omega
    have none : daysBeforeMonth (isLeap (year + 1)) 1 = 0 := by simp [daysBeforeMonth]
    rw [same] at h
    rw [h, dayNumber, leapYearDays, none]
    norm_num

theorem monthFirstStep (index : Int) :
    28 ≤ monthFirst (index + 1) - monthFirst index ∧
    monthFirst (index + 1) - monthFirst index ≤ 31 := by
  obtain ⟨month, low, high, same⟩ :
      ∃ month : Nat, 1 ≤ month ∧ month ≤ 12 ∧ index = 12 * (index / 12) + month - 1 :=
    ⟨(index % 12).toNat + 1, by omega, by omega, by omega⟩
  have next : index + 1 = 12 * (index / 12) + month := by omega
  have length := monthLength (isLeap (index / 12)) low high
  rw [next, nextMonthFirst _ low high]
  have here : monthFirst index = dayNumber (index / 12) month 1 := by
    rw [← monthFirstOf _ low high, ← same]
  rw [here, dayNumber]
  omega

theorem monthFirstStrict : StrictMono monthFirst := by
  refine strictMono_int_of_lt_succ fun index => ?_
  have h := monthFirstStep index
  omega

structure Civil where
  year : Int
  month : Nat
  day : Nat
  deriving DecidableEq, Repr

/-- Month and day of a year from the day of the year, counted from zero: the
estimate `(n + 50) >> 5` is either right or one month too late. -/
def monthOfDay (leap : Bool) (n : Nat) : Nat × Nat :=
  let estimate := (n + 50) / 32
  let month := if daysBeforeMonth leap estimate > n then estimate - 1 else estimate
  (month, n - daysBeforeMonth leap month + 1)

theorem monthOfDaySound (leap : Bool) {n : Nat} (bound : n < 365) :
    1 ≤ (monthOfDay leap n).1 ∧ (monthOfDay leap n).1 ≤ 12 ∧
    daysBeforeMonth leap (monthOfDay leap n).1 ≤ n ∧
    n < daysBeforeMonth leap ((monthOfDay leap n).1 + 1) ∧
    (monthOfDay leap n).2 = n - daysBeforeMonth leap (monthOfDay leap n).1 + 1 := by
  have table : ∀ leap : Bool, ∀ n < 365,
      1 ≤ (monthOfDay leap n).1 ∧ (monthOfDay leap n).1 ≤ 12 ∧
      daysBeforeMonth leap (monthOfDay leap n).1 ≤ n ∧
      n < daysBeforeMonth leap ((monthOfDay leap n).1 + 1) := by decide +kernel
  have h := table leap n bound
  exact ⟨h.1, h.2.1, h.2.2.1, h.2.2.2, rfl⟩

def civilOfDay (n : Int) : Civil :=
  let n400 := n / 146097
  let n := n % 146097
  let n100 := n / 36524
  let n := n % 36524
  let n4 := n / 1461
  let n := n % 1461
  let n1 := n / 365
  let n := n % 365
  let year := n400 * 400 + 1 + n100 * 100 + n4 * 4 + n1
  if n1 = 4 ∨ n100 = 4 then ⟨year - 1, 12, 31⟩
  else
    let leap := decide (n1 = 3 ∧ (n4 ≠ 24 ∨ n100 = 3))
    let (month, day) := monthOfDay leap n.toNat
    ⟨year, month, day⟩

theorem civilOfDaySound (n : Int) :
    1 ≤ (civilOfDay n).month ∧ (civilOfDay n).month ≤ 12 ∧
    monthFirst (12 * (civilOfDay n).year + (civilOfDay n).month - 1) ≤ n ∧
    n < monthFirst (12 * (civilOfDay n).year + (civilOfDay n).month) ∧
    dayNumber (civilOfDay n).year (civilOfDay n).month (civilOfDay n).day = n := by
  obtain ⟨a, ra, ea, la, ua⟩ : ∃ a r, n = 146097 * a + r ∧ 0 ≤ r ∧ r < 146097 :=
    ⟨n / 146097, n % 146097, by omega, by omega, by omega⟩
  obtain ⟨b, rb, eb, lb, ub⟩ : ∃ b r, ra = 36524 * b + r ∧ 0 ≤ r ∧ r < 36524 :=
    ⟨ra / 36524, ra % 36524, by omega, by omega, by omega⟩
  obtain ⟨c, rc, ec, lc, uc⟩ : ∃ c r, rb = 1461 * c + r ∧ 0 ≤ r ∧ r < 1461 :=
    ⟨rb / 1461, rb % 1461, by omega, by omega, by omega⟩
  obtain ⟨d, rd, ed, ld, ud⟩ : ∃ d r, rc = 365 * d + r ∧ 0 ≤ r ∧ r < 365 :=
    ⟨rc / 365, rc % 365, by omega, by omega, by omega⟩
  have qa : n / 146097 = a := by omega
  have ma : n % 146097 = ra := by omega
  have qb : ra / 36524 = b := by omega
  have mb : ra % 36524 = rb := by omega
  have qc : rb / 1461 = c := by omega
  have mc : rb % 1461 = rc := by omega
  have qd : rc / 365 = d := by omega
  have md : rc % 365 = rd := by omega
  have unfolded : civilOfDay n =
      if d = 4 ∨ b = 4 then ⟨a * 400 + 1 + b * 100 + c * 4 + d - 1, 12, 31⟩
      else ⟨a * 400 + 1 + b * 100 + c * 4 + d,
        (monthOfDay (decide (d = 3 ∧ (c ≠ 24 ∨ b = 3))) rd.toNat).1,
        (monthOfDay (decide (d = 3 ∧ (c ≠ 24 ∨ b = 3))) rd.toNat).2⟩ := by
    simp only [civilOfDay, qa, ma, qb, mb, qc, mc, qd, md]
  rw [unfolded]
  split
  · -- the last day of a leap year, which the block divisions overshoot
    rename_i last
    have leap : isLeap (a * 400 + 1 + b * 100 + c * 4 + d - 1) = true := by
      simp only [isLeap, Bool.and_eq_true, Bool.or_eq_true, beq_iff_eq, bne_iff_ne]
      omega
    have start : daysBeforeYear (a * 400 + 1 + b * 100 + c * 4 + d - 1) = n - 365 := by
      rcases last with rfl | rfl
      · have year : a * 400 + 1 + b * 100 + c * 4 + 4 - 1 - 1 = 400 * a + 100 * b + 4 * c + 3 := by ring
        have by4 : (400 * a + 100 * b + 4 * c + 3) / 4 = 100 * a + 25 * b + c := by omega
        have by100 : (400 * a + 100 * b + 4 * c + 3) / 100 = 4 * a + b := by omega
        have by400 : (400 * a + 100 * b + 4 * c + 3) / 400 = a := by omega
        simp only [daysBeforeYear, year, by4, by100, by400]; omega
      · have year : a * 400 + 1 + 4 * 100 + c * 4 + d - 1 - 1 = 400 * a + 399 := by omega
        have by4 : (400 * a + 399) / 4 = 100 * a + 99 := by omega
        have by100 : (400 * a + 399) / 100 = 4 * a + 3 := by omega
        have by400 : (400 * a + 399) / 400 = a := by omega
        simp only [daysBeforeYear, year, by4, by100, by400]; omega
    have first := @monthFirstOf (a * 400 + 1 + b * 100 + c * 4 + d - 1) 12 (by omega) (by omega)
    have next := @nextMonthFirst (a * 400 + 1 + b * 100 + c * 4 + d - 1) 12 (by omega) (by omega)
    simp only [dayNumber, leap, start, daysBeforeMonth] at first next ⊢
    norm_num at first next ⊢
    omega
  · rename_i inside
    have leap : isLeap (a * 400 + 1 + b * 100 + c * 4 + d) = decide (d = 3 ∧ (c ≠ 24 ∨ b = 3)) := by
      rw [Bool.eq_iff_iff]
      simp only [isLeap, Bool.and_eq_true, Bool.or_eq_true, beq_iff_eq, bne_iff_ne, decide_eq_true_eq]
      omega
    have start : daysBeforeYear (a * 400 + 1 + b * 100 + c * 4 + d) = n - rd := by
      have year : a * 400 + 1 + b * 100 + c * 4 + d - 1 = 400 * a + 100 * b + 4 * c + d := by ring
      have by4 : (400 * a + 100 * b + 4 * c + d) / 4 = 100 * a + 25 * b + c := by omega
      have by100 : (400 * a + 100 * b + 4 * c + d) / 100 = 4 * a + b := by omega
      have by400 : (400 * a + 100 * b + 4 * c + d) / 400 = a := by omega
      simp only [daysBeforeYear, year, by4, by100, by400]; omega
    obtain ⟨low, high, atLeast, before, day⟩ :=
      @monthOfDaySound (decide (d = 3 ∧ (c ≠ 24 ∨ b = 3))) rd.toNat (by omega)
    have first := monthFirstOf (a * 400 + 1 + b * 100 + c * 4 + d) low high
    have next := nextMonthFirst (a * 400 + 1 + b * 100 + c * 4 + d) low high
    simp only [dayNumber, leap, start] at first next ⊢
    omega

def civil (t : Int) : Civil := civilOfDay (t / 86400000000)

def monthIndex (t : Int) : Int := 12 * (civil t).year + (civil t).month - 1

theorem monthIndexSound (t : Int) :
    days (monthFirst (monthIndex t)) ≤ t ∧ t < days (monthFirst (monthIndex t + 1)) := by
  obtain ⟨_, _, first, next, _⟩ := civilOfDaySound (t / 86400000000)
  have same : monthIndex t + 1 = 12 * (civil t).year + (civil t).month := by
    unfold monthIndex; omega
  rw [same, daysEq, daysEq]
  change monthFirst (monthIndex t) ≤ _ at first
  change _ < monthFirst (12 * (civil t).year + (civil t).month) at next
  omega

example : civil (midnight 2024 2 29 + hours 23) = ⟨2024, 2, 29⟩ := by decide +kernel

end HwRadar.Base.Calendar
