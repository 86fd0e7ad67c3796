import HwRadar.Apify.Estimate
import HwRadar.Apify.BillingCycle
import Mathlib.Tactic.Linarith

/-! One admission decision. `decideAdmission` never fails: every settings or
state problem is a denial with its reason, in the source's order of precedence.
A detail names its setting as the source does, without the amounts it quotes. -/
namespace HwRadar.Apify
open HwRadar.Base
open HwRadar.Base.Text (Decimal)

def maxCycleTargetUsd : ℚ := 12
def defaultAccountMarginFraction : ℚ := 1 / 10

/-- `A = CYCLE_TARGET_USD - OPERATOR_ALLOWANCE_USD`. -/
def projectAllocation (cfg : BudgetSettings) : Except BudgetDenied ℚ := do
  let target ← setting cfg.cycleTargetUsd "CYCLE_TARGET_USD"
  if target > maxCycleTargetUsd then
    .error ⟨.budgetSettingInvalid,"CYCLE_TARGET_USD is above the owner's 12.00"⟩
  else do
  let allowance ← setting cfg.operatorAllowanceUsd "OPERATOR_ALLOWANCE_USD"
  if allowance > target then
    .error ⟨.budgetSettingInvalid,"OPERATOR_ALLOWANCE_USD exceeds the target"⟩
  else .ok (target - allowance)

def accountMarginUsd (cfg : BudgetSettings) (limit : ℚ) : Except BudgetDenied ℚ :=
  match cfg.accountMarginUsd with
  | none => .ok (limit * defaultAccountMarginFraction)
  | some margin => setting (some margin) "ACCOUNT_MARGIN_USD"

structure AccountSettingProblem where
  setting : String
  reason : DenialReason
  deriving DecidableEq, Repr

def badMoney (value : Option Decimal) (positive : Bool) : Bool :=
  match value with
  | some (.finite q) => if positive then q ≤ 0 else q < 0
  | _ => true

def dateOf (now : Int) : Int := now / Calendar.days 1

def accountSettingProblem (cfg : BudgetSettings) (now : Int) : Option AccountSettingProblem :=
  match cfg.billingCycleAnchor with
  | none => some ⟨"BILLING_CYCLE_ANCHOR",.cycleUnknown⟩
  | some anchor =>
    if badMoney cfg.accountLimitUsd true then some ⟨"ACCOUNT_LIMIT_USD",.accountStateUnobservable⟩
    else if badMoney cfg.accountBasePriceUsd false then
      some ⟨"ACCOUNT_BASE_PRICE_USD",.accountStateUnobservable⟩
    else if cfg.accountDataRetentionDays.all (· < 1) then
      some ⟨"ACCOUNT_DATA_RETENTION_DAYS",.accountStateUnobservable⟩
    else if cfg.accountVerifiedOn.all (fun verified => verified > dateOf now || verified < anchor.date) then
      some ⟨"ACCOUNT_VERIFIED_ON",.accountStateUnobservable⟩
    else if cfg.accountMarginUsd.isSome && badMoney cfg.accountMarginUsd false then
      some ⟨"ACCOUNT_MARGIN_USD",.budgetSettingInvalid⟩
    else none

structure AccountSnapshot where
  cycleStart : Int
  cycleEnd : Int
  deriving DecidableEq

structure CycleDebits where
  runtimeCommittedUsd : Nat := 0
  operatorCommittedUsd : Nat := 0
  carriedHandoffUsd : Nat := 0
  deriving DecidableEq, Repr

structure LedgerState where
  now : Int
  latchTripped : Bool
  authorityHeld : Bool
  snapshot : Option AccountSnapshot
  current : CycleDebits
  nextCycle : Option CycleDebits
  cycleDetail : Option String
  deriving DecidableEq

inductive AdmissionRequest where
  | watchRefresh (run : RunShape)
  | discovery (run : RunShape)
  | operator (kind : OperatorKind)
  deriving DecidableEq

def AdmissionRequest.budgetClass : AdmissionRequest → BudgetClass
  | .watchRefresh _ => .watchRefresh
  | .discovery _ => .discovery
  | .operator _ => .operator

def AdmissionRequest.operatorKind : AdmissionRequest → Option OperatorKind
  | .operator kind => some kind
  | _ => none

structure AdmissionDecision where
  reason : Option DenialReason
  detail : String
  estimate : Option CostEstimate
  deriving DecidableEq

def AdmissionDecision.admitted (d : AdmissionDecision) : Bool := d.reason.isNone

def hrCycle (d : CycleDebits) : Nat :=
  d.runtimeCommittedUsd + d.operatorCommittedUsd + d.carriedHandoffUsd

def deny (reason : DenialReason) (detail : String) (estimate : Option CostEstimate) : AdmissionDecision :=
  ⟨some reason,detail,estimate⟩

structure Priced where
  allocation : ℚ
  reserve : ℚ
  ceiling : ℚ
  estimate : CostEstimate
  lifetimeS : Int

def estimateRequest (request : AdmissionRequest) (cfg : BudgetSettings) : Except BudgetDenied CostEstimate :=
  match request with
  | .watchRefresh run | .discovery run => estimateRunCost run cfg
  | .operator kind => estimateOperatorCost kind cfg

def priceRequest (request : AdmissionRequest) (cfg : BudgetSettings) : Except BudgetDenied Priced := do
  let allocation ← projectAllocation cfg
  let reserve ← setting cfg.watchRefreshReserveUsd "WATCH_REFRESH_RESERVE_USD"
  if reserve > allocation then
    .error ⟨.budgetSettingInvalid,"WATCH_REFRESH_RESERVE_USD exceeds A"⟩
  else do
  let ceiling ← setting cfg.cashCeilingUsd "CASH_CEILING_USD"
  let estimate ← estimateRequest request cfg
  let lifetimeS ← cap cfg.storageMaxLifetimeS "STORAGE_MAX_LIFETIME" 1
  .ok ⟨allocation,reserve,ceiling,estimate,lifetimeS⟩

def runtimeCap (budgetClass : BudgetClass) (priced : Priced) : ℚ :=
  if budgetClass = .watchRefresh then priced.allocation else priced.allocation - priced.reserve

def capDenial (request : AdmissionRequest) (cfg : BudgetSettings) (priced : Priced) (debits : CycleDebits) :
    Option AdmissionDecision :=
  let new := priced.estimate.admissionUsd
  match request with
  | .operator _ =>
    match setting cfg.operatorAllowanceUsd "OPERATOR_ALLOWANCE_USD" with
    | .error denied => some (deny denied.reason denied.detail none)
    | .ok allowance =>
      if usd (debits.operatorCommittedUsd + new) > allowance then
        some (deny .operatorAllowanceExhausted "the operator allowance cannot fit this reservation"
          (some priced.estimate))
      else none
  | _ =>
    if usd (debits.runtimeCommittedUsd + debits.carriedHandoffUsd + new) >
        runtimeCap request.budgetClass priced then
      some (deny .classCap "class cap exceeded" (some priced.estimate))
    else none

/-- `HR_cycle + new + E <= P` fails for one cycle's debits. -/
def overHeadroom (debits : CycleDebits) (new : Nat) (external usable : ℚ) : Bool :=
  usd (hrCycle debits + new) + external > usable

def stateDenial (cfg : BudgetSettings) (state : LedgerState) (priced : Priced) : Option AdmissionDecision :=
  let estimate := some priced.estimate
  if !state.authorityHeld then
    some (deny .ledgerAuthorityMissing "no ledger authority for this cycle" estimate)
  else match state.snapshot with
  | none =>
    some (deny .cycleUnknown (state.cycleDetail.getD "no billing cycle derivable from the anchor") estimate)
  | some snap =>
    if ¬(snap.cycleStart ≤ state.now ∧ state.now ≤ snap.cycleEnd) then
      some (deny .cycleUnknown "now is outside the recorded cycle" estimate)
    else match accountSettingProblem cfg state.now with
    | some problem => some (deny problem.reason s!"{problem.setting} is unset or invalid" estimate)
    | none =>
      if priced.lifetimeS < cfg.accountDataRetentionDays.getD 0 * 86400 then
        some (deny .unboundedComponent
          "STORAGE_MAX_LIFETIME is shorter than ACCOUNT_DATA_RETENTION_DAYS" estimate)
      else if snap.cycleEnd - snap.cycleStart > Calendar.hours fullCycleHours then
        some (deny .unboundedComponent "recorded cycle is longer than 744 h" estimate)
      else if (nonNegative cfg.accountBasePriceUsd).getD 0 > priced.ceiling then
        some (deny .cashCeilingExceededByPlan "plan base price exceeds the cash ceiling" estimate)
      else none

/-- `P`: the configured account limit less its margin. -/
def usableUsd (cfg : BudgetSettings) : Except BudgetDenied ℚ := do
  let limit ← setting cfg.accountLimitUsd "ACCOUNT_LIMIT_USD"
  let margin ← accountMarginUsd cfg limit
  .ok (limit - margin)

def decideAdmission (request : AdmissionRequest) (cfg : BudgetSettings) (state : LedgerState) :
    AdmissionDecision :=
  if !cfg.enabled then deny .apifyDisabled "HW_RADAR_APIFY_ENABLED is not true" none
  else if state.latchTripped then deny .overrunLatch "the overrun latch is tripped" none
  else if cfg.callBillingResidualAccepted.isNone then
    deny .callBillingResidualUnaccepted "CALL_BILLING_RESIDUAL_ACCEPTED is empty or not a date" none
  else match nonNegative cfg.externalLiabilityUsd with
  | none => deny .externalLiabilityUnbounded "EXTERNAL_LIABILITY_USD is empty or invalid" none
  | some external =>
    match priceRequest request cfg with
    | .error denied => deny denied.reason denied.detail none
    | .ok priced =>
      match stateDenial cfg state priced with
      | some denial => denial
      | none =>
        match usableUsd cfg with
        | .error denied => deny denied.reason denied.detail (some priced.estimate)
        | .ok usable =>
          match capDenial request cfg priced state.current with
          | some denial => denial
          | none =>
            -- the liability may still be open in the next cycle, which needs room for it too
            let new := priced.estimate.admissionUsd
            if overHeadroom state.current new external usable ||
                state.nextCycle.any (fun next => overHeadroom next new external usable) then
              deny .accountHeadroom "external-liability check: Hardware Radar's share exceeded"
                (some priced.estimate)
            else ⟨none,"",some priced.estimate⟩

structure Admitted (request : AdmissionRequest) (cfg : BudgetSettings) (state : LedgerState)
    (priced : Priced) (external usable : ℚ) : Prop where
  noLatch : state.latchTripped = false
  liability : nonNegative cfg.externalLiabilityUsd = some external
  estimated : priceRequest request cfg = .ok priced
  held : state.authorityHeld = true
  inside : ∃ snap, state.snapshot = some snap ∧ snap.cycleStart ≤ state.now ∧ state.now ≤ snap.cycleEnd
  limit : usableUsd cfg = .ok usable
  capped : capDenial request cfg priced state.current = none
  headroom : usd (hrCycle state.current + priced.estimate.admissionUsd) + external ≤ usable
  nextHeadroom : ∀ next, state.nextCycle = some next →
    usd (hrCycle next + priced.estimate.admissionUsd) + external ≤ usable

theorem stateDenialNone {cfg : BudgetSettings} {state : LedgerState} {priced : Priced}
    (none : stateDenial cfg state priced = none) : state.authorityHeld = true ∧
    ∃ snap, state.snapshot = some snap ∧ snap.cycleStart ≤ state.now ∧ state.now ≤ snap.cycleEnd := by
  unfold stateDenial at none
  simp only at none
  split at none
  · cases none
  rename_i held
  split at none
  · cases none
  rename_i snap here
  split at none
  · cases none
  rename_i inside
  exact ⟨by simpa using held,snap,here,not_not.mp inside⟩

theorem stateDenialDenies {cfg : BudgetSettings} {state : LedgerState} {priced : Priced} {d}
    (some : stateDenial cfg state priced = some d) : d.admitted = false := by
  unfold stateDenial at some
  simp only at some
  repeat' split at some
  all_goals first | contradiction | (cases Option.some.inj some; rfl)

theorem capDenialDenies {request : AdmissionRequest} {cfg : BudgetSettings} {priced : Priced}
    {debits : CycleDebits} {d} (some : capDenial request cfg priced debits = some d) :
    d.admitted = false := by
  unfold capDenial at some
  simp only at some
  repeat' split at some
  all_goals first | contradiction | (cases Option.some.inj some; rfl)

theorem decideAdmissionSound {request : AdmissionRequest} {cfg : BudgetSettings} {state : LedgerState}
    (ok : (decideAdmission request cfg state).admitted = true) :
    ∃ priced external usable, Admitted request cfg state priced external usable ∧
      decideAdmission request cfg state = ⟨none,"",some priced.estimate⟩ := by
  unfold decideAdmission at ok ⊢
  split at ok
  · cases ok
  rename_i enabled
  split at ok
  · cases ok
  rename_i latch
  split at ok
  · cases ok
  rename_i residual
  rw [if_neg enabled,if_neg latch,if_neg residual]
  cases liability : nonNegative cfg.externalLiabilityUsd with
  | none => rw [liability] at ok; contradiction
  | some external =>
    cases estimated : priceRequest request cfg with
    | error denied => rw [liability,estimated] at ok; contradiction
    | ok priced =>
      cases blocked : stateDenial cfg state priced with
      | some d =>
        simp only [liability,estimated,blocked] at ok
        rw [stateDenialDenies blocked] at ok; contradiction
      | none =>
        cases limit : usableUsd cfg with
        | error denied => simp only [liability,estimated,blocked,limit] at ok; contradiction
        | ok usable =>
          cases capped : capDenial request cfg priced state.current with
          | some d =>
            simp only [liability,estimated,blocked,limit,capped] at ok
            rw [capDenialDenies capped] at ok; contradiction
          | none =>
            simp only [liability,estimated,blocked,limit,capped] at ok ⊢
            split at ok
            · cases ok
            rename_i room
            rw [if_neg room]
            simp only [Bool.or_eq_true,not_or,overHeadroom,decide_eq_true_eq,not_lt,gt_iff_lt,
              Bool.not_eq_true] at room
            obtain ⟨held,inside⟩ := stateDenialNone blocked
            refine ⟨priced,external,usable,?_,rfl⟩
            refine ⟨by simpa using latch,liability,estimated,held,inside,limit,capped,room.1,?_⟩
            intro next here
            have fits := room.2
            rw [here] at fits
            simpa using fits

theorem runtimeCapLe {budgetClass : BudgetClass} {priced : Priced} (reserve : 0 ≤ priced.reserve) :
    runtimeCap budgetClass priced ≤ priced.allocation := by
  unfold runtimeCap
  split
  · exact le_rfl
  · linarith

theorem runtimeFits {request : AdmissionRequest} {cfg : BudgetSettings} {priced : Priced}
    {debits : CycleDebits} (runtime : request.budgetClass ≠ .operator) (reserve : 0 ≤ priced.reserve)
    (fits : capDenial request cfg priced debits = none) :
    usd (debits.runtimeCommittedUsd + debits.carriedHandoffUsd + priced.estimate.admissionUsd)
      ≤ priced.allocation := by
  have under : usd (debits.runtimeCommittedUsd + debits.carriedHandoffUsd + priced.estimate.admissionUsd)
      ≤ runtimeCap request.budgetClass priced := by
    cases request with
    | operator kind => exact absurd rfl runtime
    | watchRefresh run | discovery run =>
      simp only [capDenial] at fits
      split at fits
      · cases fits
      · exact not_lt.mp (by assumption)
  exact under.trans (runtimeCapLe reserve)

theorem operatorFits {kind : OperatorKind} {cfg : BudgetSettings} {priced : Priced}
    {debits : CycleDebits} (fits : capDenial (.operator kind) cfg priced debits = none) :
    ∃ allowance, setting cfg.operatorAllowanceUsd "OPERATOR_ALLOWANCE_USD" = .ok allowance ∧
      usd (debits.operatorCommittedUsd + priced.estimate.admissionUsd) ≤ allowance := by
  simp only [capDenial] at fits
  split at fits
  · cases fits
  rename_i allowance valid
  split at fits
  · cases fits
  rename_i under
  exact ⟨allowance,valid,not_lt.mp under⟩

theorem settingSound {value : Option Decimal} {name : String} {q : ℚ} (ok : setting value name = .ok q) :
    value = some (.finite q) ∧ 0 ≤ q := by
  unfold setting at ok
  split at ok
  · rename_i valid
    cases Except.ok.inj ok
    exact nonNegativeSound valid
  · cases ok

end HwRadar.Apify
