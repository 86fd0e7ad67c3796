import HwRadar.Base.Calendar
import HwRadar.Base.Decimal
import HwRadar.Base.Text
import Mathlib.Data.Rat.Floor
import Mathlib.Algebra.Order.Floor.Semiring

/-! Settings of the pure budget policy and of the ledger, with the checks that
turn an unset or invalid one into a named denial. Costs are computed in the decimal
context; amounts of the allocation and the ledger are exact. -/
namespace HwRadar.Apify
open HwRadar.Base
open HwRadar.Base.Text (Decimal)
open HwRadar.Base.Decimal (Dec)

inductive BudgetClass where
  | watchRefresh | discovery | operator
  deriving DecidableEq, Repr

inductive OperatorKind where
  | build | inspect | probe
  deriving DecidableEq, Repr

inductive DenialReason where
  | apifyDisabled | overrunLatch | callBillingResidualUnaccepted | externalLiabilityUnbounded
  | budgetSettingInvalid | pricingUnverified | unboundedComponent | ledgerAuthorityMissing
  | cycleUnknown | accountStateUnobservable | cashCeilingExceededByPlan | classCap
  | operatorAllowanceExhausted | accountHeadroom
  deriving DecidableEq, Repr

structure BudgetDenied where
  reason : DenialReason
  detail : String
  deriving DecidableEq, Repr

structure UnitPrices where
  usdPerCu : Option Decimal
  datasetReadsPer1000 : Option Decimal
  datasetWritesPer1000 : Option Decimal
  datasetStoragePerGbHour : Option Decimal
  kvReadsPer1000 : Option Decimal
  kvWritesPer1000 : Option Decimal
  kvStoragePerGbHour : Option Decimal
  transferPerGb : Option Decimal
  deriving DecidableEq

structure Anchor where
  year : Int
  month : Nat
  day : Nat
  monthLow : 1 ≤ month
  monthHigh : month ≤ 12
  dayLow : 1 ≤ day
  dayHigh : day ≤ 28
  deriving DecidableEq

def Anchor.instant (a : Anchor) : Int := Calendar.midnight a.year a.month a.day

def Anchor.date (a : Anchor) : Int := Calendar.dayNumber a.year a.month a.day

/-- `none` is unset or invalid. `accountMarginUsd` is the exception: `none` is
absent (10% of the account limit) and `nonFinite` is present but invalid.
Dates are day numbers. -/
structure BudgetSettings where
  enabled : Bool
  prices : UnitPrices
  margin : Option Decimal
  estimatorVersion : String
  maxTimeoutS : Option Int
  cycleTargetUsd : Option Decimal
  operatorAllowanceUsd : Option Decimal
  watchRefreshReserveUsd : Option Decimal
  cashCeilingUsd : Option Decimal
  accountMarginUsd : Option Decimal
  externalLiabilityUsd : Option Decimal
  callBillingResidualAccepted : Option Int
  operatorBuildBoundUsd : Option Decimal
  operatorInspectMaxItems : Option Int
  operatorInspectMaxRecordReads : Option Int
  operatorInspectMaxBytes : Option Int
  operatorProbeMaxCalls : Option Int
  maxDatasetReads : Option Int
  maxKvReads : Option Int
  maxDeleteAttempts : Option Int
  maxRunPolls : Option Int
  maxCorrectionReads : Option Int
  maxKvWrites : Option Int
  maxKvBytes : Option Int
  storageMaxLifetimeS : Option Int
  apiCallOverheadBytes : Option Int
  maxApiResponseBytes : Option Int
  maxDatasetPageBytes : Option Int
  cycleBoundaryGuardS : Option Int
  billingCycleAnchor : Option Anchor
  accountLimitUsd : Option Decimal
  accountBasePriceUsd : Option Decimal
  accountDataRetentionDays : Option Int
  accountVerifiedOn : Option Int
  deriving DecidableEq

inductive PostRunCostMode where
  | bound | counted
  deriving DecidableEq, Repr

inductive SettlementBasis where
  | stableReads | bound | boundUnfinalized
  deriving DecidableEq, Repr

structure LedgerConfig where
  budget : BudgetSettings
  ledgerId : String
  usageSettleDelayS : Option Int
  usageStableReads : Option Int
  usageStableIntervalS : Option Int
  usageFinalizeDeadlineS : Option Int
  correctionWindowS : Option Int
  postRunCostMode : Option PostRunCostMode
  runUsageSettlement : Option SettlementBasis
  deriving DecidableEq

def nonNegative : Option Decimal → Option ℚ
  | some (.finite value) => if 0 ≤ value then some value else none
  | _ => none

theorem nonNegativeSound {setting value} (h : nonNegative setting = some value) :
    setting = some (.finite value) ∧ 0 ≤ value := by
  unfold nonNegative at h
  split at h
  · split at h
    · cases Option.some.inj h; exact ⟨rfl,by assumption⟩
    · cases h
  · cases h

def price (value : Option Decimal) (name : String) : Except BudgetDenied Dec :=
  match nonNegative value with
  | some q => .ok ⟨q⟩
  | none => .error ⟨.pricingUnverified,s!"unit price {name} is unset"⟩

def cap (value : Option Int) (name : String) (minimum : Int) : Except BudgetDenied Int :=
  match value with
  | some n => if n < minimum then .error ⟨.unboundedComponent,s!"{name} is unset or below {minimum}"⟩ else .ok n
  | none => .error ⟨.unboundedComponent,s!"{name} is unset or below {minimum}"⟩

def setting (value : Option Decimal) (name : String) : Except BudgetDenied ℚ :=
  match nonNegative value with
  | some q => .ok q
  | none => .error ⟨.budgetSettingInvalid,s!"{name} is unset or invalid"⟩

def reservationMargin (cfg : BudgetSettings) : Except BudgetDenied Dec :=
  match nonNegative cfg.margin with
  | some q => .ok ⟨q⟩
  | none => .error ⟨.unboundedComponent,"reservation margin is unset"⟩

def perOp (pricePer1000 : Option Decimal) (name : String) : Except BudgetDenied Dec := do
  let q ← price pricePer1000 name
  .ok (q / 1000)

/-- `_usd`: the ledger amount of a decimal, rounded up to four places. -/
def toLedger (amount : ℚ) : Nat := ⌈amount * 10000⌉₊

def usd (amount : Nat) : ℚ := amount / 10000

theorem toLedgerCovers (amount : ℚ) : amount ≤ usd (toLedger amount) := by
  have h := Nat.le_ceil (amount * 10000)
  rw [usd, toLedger, le_div_iff₀ (by norm_num)]
  exact h

theorem toLedgerUsd (amount : Nat) : toLedger (usd amount) = amount := by
  rw [toLedger, usd, div_mul_cancel₀ _ (by norm_num)]
  exact Nat.ceil_natCast amount

theorem usdAdd (a b : Nat) : usd (a + b) = usd a + usd b := by
  simp only [usd, Nat.cast_add, add_div]

theorem usdLe {a b : Nat} : usd a ≤ usd b ↔ a ≤ b := by
  rw [usd, usd, div_le_div_iff_of_pos_right (by norm_num)]
  exact Nat.cast_le

theorem usdNonneg (a : Nat) : 0 ≤ usd a := by
  unfold usd; positivity

@[simp] theorem usdZero : usd 0 = 0 := by simp [usd]

def defaultSettings : BudgetSettings where
  enabled := false
  prices := ⟨none,none,none,none,none,none,none,none⟩
  margin := none
  estimatorVersion := "1"
  maxTimeoutS := none
  cycleTargetUsd := some (.finite 12)
  operatorAllowanceUsd := some (.finite 1)
  watchRefreshReserveUsd := some (.finite 3)
  cashCeilingUsd := some (.finite 20)
  accountMarginUsd := none
  externalLiabilityUsd := some (.finite 5)
  callBillingResidualAccepted := some (Calendar.dayNumber 2026 9 25)
  operatorBuildBoundUsd := some (.finite (41/100))
  operatorInspectMaxItems := some 1000
  operatorInspectMaxRecordReads := some 20
  operatorInspectMaxBytes := some 10000000
  operatorProbeMaxCalls := some 10
  maxDatasetReads := some 3
  maxKvReads := some 3
  maxDeleteAttempts := some 10
  maxRunPolls := some 60
  maxCorrectionReads := some 12
  maxKvWrites := none
  maxKvBytes := none
  storageMaxLifetimeS := none
  apiCallOverheadBytes := some 262144
  maxApiResponseBytes := some 262144
  maxDatasetPageBytes := some 1048576
  cycleBoundaryGuardS := some 3600
  billingCycleAnchor := none
  accountLimitUsd := none
  accountBasePriceUsd := none
  accountDataRetentionDays := none
  accountVerifiedOn := none

def verifiedAnchor : Anchor := ⟨2026,9,5,by decide,by decide,by decide,by decide⟩

def verifiedSettings : BudgetSettings := { defaultSettings with
  enabled := true
  prices := ⟨some (.finite (20/100)),some (.finite (4/10000)),some (.finite (5/1000)),
    some (.finite (1/1000)),some (.finite (5/1000)),some (.finite (5/100)),some (.finite (1/1000)),
    some (.finite (20/100))⟩
  margin := some (.finite (1/10))
  maxTimeoutS := some 3600
  maxKvWrites := some 3
  maxKvBytes := some 65536
  storageMaxLifetimeS := some (31 * 86400)
  billingCycleAnchor := some verifiedAnchor
  accountLimitUsd := some (.finite 19)
  accountBasePriceUsd := some (.finite 19)
  accountDataRetentionDays := some 31
  accountVerifiedOn := some (Calendar.dayNumber 2026 9 5) }

def verifiedConfig : LedgerConfig where
  budget := verifiedSettings
  ledgerId := "production"
  usageSettleDelayS := some 10
  usageStableReads := some 2
  usageStableIntervalS := some 60
  usageFinalizeDeadlineS := some 86400
  correctionWindowS := some 604800
  postRunCostMode := some .bound
  runUsageSettlement := some .bound

end HwRadar.Apify
