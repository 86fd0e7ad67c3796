import HwRadar.Apify.Settings

/-! The configured billing cycle. Every start is computed from the anchor
directly, so the k-th start is a strictly increasing function of k and the
cycles of one anchor partition the time from the anchor on, up to the final
millisecond of each. -/
namespace HwRadar.Apify
open HwRadar.Base HwRadar.Base.Calendar

def cycleEndEpsilon : Int := milliseconds 1

def cycleStart (anchor : Anchor) (k : Int) : Int :=
  let months := (anchor.month : Int) - 1 + k
  midnight (anchor.year + months / 12) ((months % 12).toNat + 1) anchor.day

def billingCycleBounds (anchor : Anchor) (now : Int) : Option (Int × Int) :=
  if now < anchor.instant then none
  else
    let k := 12 * ((civil now).year - anchor.year) + ((civil now).month - anchor.month)
    let k := if now < cycleStart anchor k then k - 1 else k
    some (cycleStart anchor k,cycleStart anchor (k + 1) - cycleEndEpsilon)

def Anchor.index (anchor : Anchor) : Int := 12 * anchor.year + anchor.month - 1

theorem cycleStartEq (anchor : Anchor) (k : Int) :
    cycleStart anchor k = days (monthFirst (anchor.index + k) + anchor.day - 1) := by
  have year : (anchor.index + k) / 12 = anchor.year + ((anchor.month : Int) - 1 + k) / 12 := by
    unfold Anchor.index; omega
  have month : (anchor.index + k) % 12 = ((anchor.month : Int) - 1 + k) % 12 := by
    unfold Anchor.index; omega
  simp only [cycleStart,midnight,monthFirst,year,month,dayNumber,daysEq]
  omega

theorem cycleStartStep (anchor : Anchor) (k : Int) :
    cycleStart anchor k + days 28 ≤ cycleStart anchor (k + 1) ∧
    cycleStart anchor (k + 1) ≤ cycleStart anchor k + days 31 := by
  have h := monthFirstStep (anchor.index + k)
  rw [cycleStartEq,cycleStartEq,← add_assoc]
  simp only [daysEq]
  omega

theorem cycleStartStrict (anchor : Anchor) : StrictMono (cycleStart anchor) := by
  refine strictMono_int_of_lt_succ fun k => ?_
  have h := (cycleStartStep anchor k).1
  simp only [daysEq] at h
  omega

theorem cycleStartMidnight (anchor : Anchor) (k : Int) : days 1 ∣ cycleStart anchor k := by
  rw [cycleStartEq,daysEq,daysEq]
  exact ⟨_,by rw [one_mul,mul_comm]⟩

theorem cycleStartZero (anchor : Anchor) : cycleStart anchor 0 = anchor.instant := by
  have low := anchor.monthLow
  have high := anchor.monthHigh
  have year : ((anchor.month : Int) - 1) / 12 = 0 := by omega
  have month : (((anchor.month : Int) - 1) % 12).toNat + 1 = anchor.month := by omega
  simp only [cycleStart,add_zero,year,month,Anchor.instant]

theorem boundsSound {anchor : Anchor} {now : Int} {bounds : Int × Int}
    (ok : billingCycleBounds anchor now = some bounds) :
    anchor.instant ≤ now ∧ ∃ k : Int, bounds.1 = cycleStart anchor k ∧
      bounds.2 = cycleStart anchor (k + 1) - cycleEndEpsilon ∧
      cycleStart anchor k ≤ now ∧ now < cycleStart anchor (k + 1) := by
  unfold billingCycleBounds at ok
  split at ok
  · cases ok
  rename_i after
  obtain ⟨first,next⟩ := monthIndexSound now
  have same : anchor.index + (12 * ((civil now).year - anchor.year) + ((civil now).month - anchor.month))
      = monthIndex now := by unfold Anchor.index monthIndex; omega
  have dayLow := anchor.dayLow
  have dayHigh := anchor.dayHigh
  refine ⟨by omega,?_⟩
  cases Option.some.inj ok
  split
  · rename_i late
    -- the anchor's day is still ahead in this month, so the cycle began last month
    refine ⟨_,rfl,rfl,?_,?_⟩
    · have length := (monthFirstStep (monthIndex now - 1)).1
      rw [sub_add_cancel] at length
      rw [cycleStartEq,← add_sub_assoc,same]
      simp only [daysEq] at first ⊢
      omega
    · rw [sub_add_cancel]; exact late
  · rename_i early
    refine ⟨_,rfl,rfl,by omega,?_⟩
    rw [cycleStartEq,← add_assoc,same]
    simp only [daysEq] at next ⊢
    omega

theorem boundsIndex {anchor : Anchor} {now j k : Int}
    (left : cycleStart anchor j ≤ now ∧ now < cycleStart anchor (j + 1))
    (right : cycleStart anchor k ≤ now ∧ now < cycleStart anchor (k + 1)) : j = k := by
  have strict := cycleStartStrict anchor
  rcases lt_trichotomy j k with less | same | more
  · have h := strict.monotone (Int.add_one_le_iff.mpr less)
    omega
  · exact same
  · have h := strict.monotone (Int.add_one_le_iff.mpr more)
    omega

theorem boundsComplete {anchor : Anchor} {now k : Int} (after : anchor.instant ≤ now)
    (cover : cycleStart anchor k ≤ now ∧ now < cycleStart anchor (k + 1)) :
    billingCycleBounds anchor now = some (cycleStart anchor k,cycleStart anchor (k + 1) - cycleEndEpsilon) := by
  cases ok : billingCycleBounds anchor now with
  | none => simp only [billingCycleBounds,if_neg (not_lt.mpr after)] at ok; contradiction
  | some bounds =>
    obtain ⟨_,j,start,stop,coverJ⟩ := boundsSound ok
    obtain rfl := boundsIndex coverJ cover
    rw [← start,← stop]

theorem boundsMono {anchor : Anchor} {t u : Int} {a b : Int × Int} (order : t ≤ u)
    (left : billingCycleBounds anchor t = some a) (right : billingCycleBounds anchor u = some b) :
    a.1 ≤ b.1 := by
  obtain ⟨_,j,startJ,_,coverJ⟩ := boundsSound left
  obtain ⟨_,k,startK,_,coverK⟩ := boundsSound right
  rw [startJ,startK]
  by_contra before
  have less : k < j := (cycleStartStrict anchor).lt_iff_lt.mp (not_le.mp before)
  have h := (cycleStartStrict anchor).monotone (Int.add_one_le_iff.mpr less)
  omega

theorem boundsOrder {anchor : Anchor} {now : Int} {bounds : Int × Int}
    (ok : billingCycleBounds anchor now = some bounds) :
    bounds.1 ≤ now ∧ now < bounds.2 + cycleEndEpsilon ∧ bounds.1 + days 28 - cycleEndEpsilon ≤ bounds.2 := by
  obtain ⟨_,k,start,stop,low,high⟩ := boundsSound ok
  have length := (cycleStartStep anchor k).1
  rw [start,stop]
  omega

example : billingCycleBounds ⟨2025,1,28,by decide,by decide,by decide,by decide⟩ (midnight 2025 3 1) =
    some (midnight 2025 2 28,midnight 2025 3 28 - cycleEndEpsilon) := by decide +kernel

end HwRadar.Apify
