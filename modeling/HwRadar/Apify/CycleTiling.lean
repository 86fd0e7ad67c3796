import HwRadar.Apify.BillingCycle

/-! The configured cycles over the instants a datetime can hold, with a zone offset and with
the error where a year lies outside 1 to 9999. -/
namespace HwRadar.Apify
open HwRadar.Base HwRadar.Base.Calendar

def datetimeLimit : Int := midnight 10000 1 1

structure Datetime where
  wall : Int
  offset : Int
  wallLow : 0 ≤ wall
  wallHigh : wall < datetimeLimit
  offsetLow : -days 1 < offset
  offsetHigh : offset < days 1

def Datetime.astimezone (d : Datetime) : Option Int :=
  if 0 ≤ d.wall - d.offset ∧ d.wall - d.offset < datetimeLimit then some (d.wall - d.offset) else none

/-- `_cycle_start`; none where the year is out of range. -/
def cycleStartChecked (anchor : Anchor) (k : Int) : Option Int :=
  let year := anchor.year + ((anchor.month : Int) - 1 + k) / 12
  if 1 ≤ year ∧ year ≤ 9999 then some (cycleStart anchor k) else none

/-- `billing_cycle_bounds`; the outer none is an exception. -/
def billingCycleBoundsChecked (anchor : Anchor) (now : Datetime) : Option (Option (Int × Int)) := do
  let at_ ← now.astimezone
  if at_ < anchor.instant then some none
  else
    let k := 12 * ((civil at_).year - anchor.year) + ((civil at_).month - anchor.month)
    let start ← cycleStartChecked anchor k
    let k := if at_ < start then k - 1 else k
    let start ← cycleStartChecked anchor k
    let next ← cycleStartChecked anchor (k + 1)
    some (some (start,next - cycleEndEpsilon))

theorem dayNumberYear {year year' : Int} (later : year < year') (month day : Nat) (low : 1 ≤ month) (high : month ≤ 12)
    (dayHigh : day ≤ 28) : dayNumber year month day < dayNumber year' 1 1 := by
  have first := @monthFirstOf year month low high
  have first' := @monthFirstOf year' 1 (by omega) (by omega)
  have before := monthFirstStep (12 * year + month - 1)
  have order := monthFirstStrict.monotone (show 12 * year + month - 1 + 1 ≤ 12 * year' + (1 : Nat) - 1 by omega)
  simp only [dayNumber] at *
  omega

theorem cycleStartRange (anchor : Anchor) (k : Int) :
    cycleStartChecked anchor k = if 0 ≤ cycleStart anchor k ∧ cycleStart anchor k < datetimeLimit then
      some (cycleStart anchor k) else none := by
  have high := anchor.dayHigh
  have low := anchor.dayLow
  simp only [cycleStartChecked,cycleStart,datetimeLimit,midnight,daysEq]
  generalize anchor.year + ((anchor.month : Int) - 1 + k) / 12 = year
  have month : 1 ≤ (((anchor.month : Int) - 1 + k) % 12).toNat + 1 ∧
      (((anchor.month : Int) - 1 + k) % 12).toNat + 1 ≤ 12 := by
    omega
  generalize (((anchor.month : Int) - 1 + k) % 12).toNat + 1 = m at month
  have start : dayNumber 1 1 1 = 0 := by decide
  have after : 1 ≤ year ↔ 0 ≤ dayNumber year m anchor.day * 86400000000 := by
    constructor
    · intro after
      have first := @monthFirstOf year m month.1 month.2
      have order := monthFirstStrict.monotone (show 12 * 1 + ((1 : Nat) : Int) - 1 ≤ 12 * year + m - 1 by omega)
      have one := @monthFirstOf 1 1 (by omega) (by omega)
      simp only [dayNumber] at *
      omega
    · intro some_
      by_contra before
      have order := dayNumberYear (show year < 1 by omega) m anchor.day month.1 month.2 high
      omega
  have before : year ≤ 9999 ↔ dayNumber year m anchor.day * 86400000000 < dayNumber 10000 1 1 * 86400000000 := by
    constructor
    · intro within
      have order := dayNumberYear (show year < 10000 by omega) m anchor.day month.1 month.2 high
      omega
    · intro within
      by_contra late
      have first := @monthFirstOf year m month.1 month.2
      have order := monthFirstStrict.monotone (show 12 * 10000 + ((1 : Nat) : Int) - 1 ≤ 12 * year + m - 1 by omega)
      have one := @monthFirstOf 10000 1 (by omega) (by omega)
      simp only [dayNumber] at *
      omega
  simp only [after,before]

theorem civilOfStart (anchor : Anchor) (k : Int) :
    monthIndex (cycleStart anchor k) = anchor.index + k ∧ (civil (cycleStart anchor k)).day = anchor.day := by
  have dayLow := anchor.dayLow
  have dayHigh := anchor.dayHigh
  have number : cycleStart anchor k / 86400000000 = monthFirst (anchor.index + k) + anchor.day - 1 := by
    rw [cycleStartEq,daysEq]; omega
  obtain ⟨low,high,first,next,same⟩ := civilOfDaySound (monthFirst (anchor.index + k) + anchor.day - 1)
  unfold monthIndex civil
  rw [number]
  generalize civilOfDay (monthFirst (anchor.index + k) + anchor.day - 1) = date at low high first next same
  have length := (monthFirstStep (anchor.index + k)).1
  have before : 12 * date.year + date.month - 1 < anchor.index + k + 1 := monthFirstStrict.lt_iff_lt.mp (by omega)
  have after : anchor.index + k < 12 * date.year + date.month := monthFirstStrict.lt_iff_lt.mp (by omega)
  have month : 12 * date.year + (date.month : Int) - 1 = anchor.index + k := by omega
  have start := @monthFirstOf date.year date.month low high
  rw [month] at start
  refine ⟨month,?_⟩
  simp only [dayNumber] at start same
  omega

theorem astimezoneRange {now : Datetime} {at_ : Int} (utc : now.astimezone = some at_) : 0 ≤ at_ ∧
    at_ < datetimeLimit := by
  unfold Datetime.astimezone at utc
  split at utc
  · obtain rfl := Option.some.inj utc; assumption
  · cases utc

theorem anchorInRange {anchor : Anchor} (year : 1 ≤ anchor.year) : 0 ≤ anchor.instant := by
  have first := @monthFirstOf anchor.year anchor.month anchor.monthLow anchor.monthHigh
  have low := anchor.monthLow
  have dayLow := anchor.dayLow
  have order := monthFirstStrict.monotone
    (show 12 * 1 + ((1 : Nat) : Int) - 1 ≤ 12 * anchor.year + anchor.month - 1 by omega)
  have one := @monthFirstOf 1 1 (by omega) (by omega)
  have start : dayNumber 1 1 1 = 0 := by decide
  simp only [Anchor.instant,midnight,daysEq,dayNumber] at *
  omega

theorem civilYearRange {at_ : Int} (low : 0 ≤ at_) (high : at_ < datetimeLimit) :
    1 ≤ (civil at_).month ∧ (civil at_).month ≤ 12 ∧ 1 ≤ (civil at_).year ∧ (civil at_).year ≤ 9999 := by
  obtain ⟨monthLow,monthHigh,_⟩ := civilOfDaySound (at_ / 86400000000)
  obtain ⟨first,next⟩ := monthIndexSound at_
  have one := @monthFirstOf 1 1 (by omega) (by omega)
  have limit := @monthFirstOf 10000 1 (by omega) (by omega)
  have start : dayNumber 1 1 1 = 0 := by decide
  change 1 ≤ (civil at_).month at monthLow
  change (civil at_).month ≤ 12 at monthHigh
  simp only [datetimeLimit,midnight,daysEq] at high first next
  have after : 12 * 1 + ((1 : Nat) : Int) - 1 < monthIndex at_ + 1 := monthFirstStrict.lt_iff_lt.mp (by omega)
  have before : monthIndex at_ < 12 * 10000 + ((1 : Nat) : Int) - 1 := monthFirstStrict.lt_iff_lt.mp (by omega)
  unfold monthIndex at after before
  omega

theorem monthStartChecked (anchor : Anchor) {at_ : Int} (low : 0 ≤ at_) (high : at_ < datetimeLimit) :
    cycleStartChecked anchor (12 * ((civil at_).year - anchor.year) + ((civil at_).month - anchor.month)) =
      some (cycleStart anchor (12 * ((civil at_).year - anchor.year) + ((civil at_).month - anchor.month))) := by
  obtain ⟨monthLow,monthHigh,yearLow,yearHigh⟩ := civilYearRange low high
  unfold cycleStartChecked
  exact if_pos (by omega)

theorem coverAfter {anchor : Anchor} {at_ k : Int} (after : anchor.instant ≤ at_)
    (cover : cycleStart anchor k ≤ at_ ∧ at_ < cycleStart anchor (k + 1)) : anchor.instant ≤ cycleStart anchor k := by
  have strict := cycleStartStrict anchor
  rw [← cycleStartZero]
  refine strict.monotone ?_
  by_contra before
  have order := strict.monotone (show k + 1 ≤ 0 by omega)
  rw [cycleStartZero] at order
  omega

theorem covered {anchor : Anchor} {at_ : Int} (after : anchor.instant ≤ at_) :
    ∃ k, cycleStart anchor k ≤ at_ ∧ at_ < cycleStart anchor (k + 1) := by
  cases ok : billingCycleBounds anchor at_ with
  | none => simp only [billingCycleBounds,if_neg (not_lt.mpr after)] at ok; cases ok
  | some bounds =>
    obtain ⟨_,k,_,_,cover⟩ := boundsSound ok
    exact ⟨k,cover⟩

theorem boundsChecked {anchor : Anchor} (year : 1 ≤ anchor.year) {now : Datetime} {at_ : Int}
    (utc : now.astimezone = some at_) {k : Int} (after : anchor.instant ≤ at_)
    (cover : cycleStart anchor k ≤ at_ ∧ at_ < cycleStart anchor (k + 1)) :
    billingCycleBoundsChecked anchor now = if cycleStart anchor (k + 1) < datetimeLimit then
      some (some (cycleStart anchor k,cycleStart anchor (k + 1) - cycleEndEpsilon)) else none := by
  have range := astimezoneRange utc
  have strict := cycleStartStrict anchor
  have first := coverAfter after cover
  have low := anchorInRange year
  have plain := boundsComplete after cover
  unfold billingCycleBounds at plain
  rw [if_neg (not_lt.mpr after)] at plain
  unfold billingCycleBoundsChecked
  rw [utc]
  simp only [Option.bind_eq_bind,Option.bind_some,if_neg (not_lt.mpr after)]
  have seen := monthStartChecked anchor range.1 range.2
  generalize 12 * ((civil at_).year - anchor.year) + (((civil at_).month : Int) - anchor.month) = j at plain seen ⊢
  have chosen : (if at_ < cycleStart anchor j then j - 1 else j) = k :=
    strict.injective (congrArg Prod.fst (Option.some.inj plain))
  rw [seen,Option.bind_some,chosen,cycleStartRange,if_pos ⟨by omega,by omega⟩,Option.bind_some,cycleStartRange]
  by_cases next : cycleStart anchor (k + 1) < datetimeLimit
  · rw [if_pos next,if_pos ⟨by omega,next⟩,Option.bind_some]
  · rw [if_neg next,if_neg (fun inside => next inside.2),Option.bind_none]

theorem boundsCheckedSound {anchor : Anchor} (year : 1 ≤ anchor.year) {now : Datetime} {at_ : Int} {bounds : Int × Int}
    (utc : now.astimezone = some at_) (ok : billingCycleBoundsChecked anchor now = some (some bounds)) :
    ∃ k, cycleStart anchor k ≤ at_ ∧ at_ < cycleStart anchor (k + 1) ∧
      bounds = (cycleStart anchor k,cycleStart anchor (k + 1) - cycleEndEpsilon) := by
  rcases lt_or_ge at_ anchor.instant with before | after
  · unfold billingCycleBoundsChecked at ok
    rw [utc,Option.bind_eq_bind,Option.bind_some,if_pos before] at ok
    cases ok
  · obtain ⟨k,cover⟩ := covered after
    rw [boundsChecked year utc after cover] at ok
    split at ok
    · cases ok
      exact ⟨k,cover.1,cover.2,rfl⟩
    · cases ok

structure CycleOf (anchor : Anchor) (start next : Int) : Prop where
  after : anchor.instant ≤ start
  midnight : days 1 ∣ start
  nextMidnight : days 1 ∣ next
  day : (civil start).day = anchor.day
  nextDay : (civil next).day = anchor.day
  month : monthIndex next = monthIndex start + 1

theorem cyclesTile {anchor : Anchor} (year : 1 ≤ anchor.year) (now : Datetime) :
    (now.astimezone = none → billingCycleBoundsChecked anchor now = none) ∧
    ∀ at_, now.astimezone = some at_ →
      (at_ < anchor.instant → billingCycleBoundsChecked anchor now = some none) ∧
      (anchor.instant ≤ at_ → ∃ start next, CycleOf anchor start next ∧ start ≤ at_ ∧ at_ < next ∧
        billingCycleBoundsChecked anchor now =
          (if next < datetimeLimit then some (some (start,next - cycleEndEpsilon)) else none) ∧
        (∀ other u, Datetime.astimezone other = some u → start ≤ u → u < next →
          billingCycleBoundsChecked anchor other = billingCycleBoundsChecked anchor now) ∧
        ∀ other u bounds, Datetime.astimezone other = some u → billingCycleBoundsChecked anchor other = some
        (some bounds) →
          (u = next → bounds.1 = next) ∧ (next ≤ u → next ≤ bounds.1) ∧
          (u < start → bounds.2 + cycleEndEpsilon ≤ start)) := by
  refine ⟨fun overflow => by unfold billingCycleBoundsChecked; rw [overflow]; rfl,fun at_ utc =>
    ⟨fun before => ?_,fun after => ?_⟩⟩
  · unfold billingCycleBoundsChecked
    rw [utc,Option.bind_eq_bind,Option.bind_some,if_pos before]
  have range := astimezoneRange utc
  have strict := cycleStartStrict anchor
  obtain ⟨k,low,high⟩ := covered after
  have first := coverAfter after ⟨low,high⟩
  have here := boundsChecked year utc after ⟨low,high⟩
  refine ⟨cycleStart anchor k,cycleStart anchor (k + 1),
    ⟨first,cycleStartMidnight anchor k,cycleStartMidnight anchor _,(civilOfStart anchor k).2,(civilOfStart anchor _).2,
      by rw [(civilOfStart anchor k).1,(civilOfStart anchor _).1]; omega⟩,low,high,here,
        fun other u utc' low' high' => ?_,
    fun other u bounds utc' ok => ?_⟩
  · rw [here,boundsChecked year utc' (by omega) ⟨low',high'⟩]
  · obtain ⟨j,low',high',rfl⟩ := boundsCheckedSound year utc' ok
    refine ⟨?_,?_,?_⟩
    · rintro rfl
      have width := cycleStartStep anchor (k + 1)
      simp only [daysEq] at width
      rw [boundsIndex ⟨low',high'⟩ ⟨le_refl (cycleStart anchor (k + 1)),by omega⟩]
    · intro later
      have order : k + 1 < j + 1 := strict.lt_iff_lt.mp (by omega)
      exact strict.monotone (by omega)
    · intro earlier
      have order : j < k := strict.lt_iff_lt.mp (by omega)
      have next := strict.monotone (show j + 1 ≤ k by omega)
      omega

def newYearAnchor : Anchor := ⟨2025,1,1,by decide,by decide,by decide,by decide⟩

def lastMonth : Datetime := ⟨midnight 9999 12 15,0,by decide +kernel,by decide +kernel,by decide +kernel,
    by decide +kernel⟩

theorem lastCycleRaises : ∃ at_, lastMonth.astimezone = some at_ ∧ newYearAnchor.instant ≤ at_ ∧
    billingCycleBoundsChecked newYearAnchor lastMonth = none :=
  ⟨midnight 9999 12 15,by decide +kernel,by decide +kernel,by decide +kernel⟩

def leapDay : Datetime :=
  ⟨midnight 2028 2 29,hours (-5),by decide +kernel,by decide +kernel,by decide +kernel,by decide +kernel⟩

theorem leapDayTiled : ∃ start next, CycleOf newYearAnchor start next ∧
    start ≤ midnight 2028 2 29 + hours 5 ∧ midnight 2028 2 29 + hours 5 < next ∧
    billingCycleBoundsChecked newYearAnchor leapDay =
      (if next < datetimeLimit then some (some (start,next - cycleEndEpsilon)) else none) := by
  obtain ⟨start,next,cycle,low,high,bounds,_⟩ :=
    ((@cyclesTile newYearAnchor (by decide) leapDay).2 (midnight 2028 2 29 + hours 5) (by decide +kernel)).2
      (by decide +kernel)
  exact ⟨start,next,cycle,low,high,bounds⟩

end HwRadar.Apify
