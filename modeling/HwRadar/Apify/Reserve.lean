import HwRadar.Apify.Tally
import HwRadar.Apify.Latch

/-! Reserve: one transaction that clears bumped trips, repairs lost refusal
trips, materializes the cycle, sums its debits, asks the policy and persists the
admitted row or the denial row. -/
namespace HwRadar.Apify
open HwRadar.Base

structure ReservationOutcome where
  admitted : Bool
  reason : Option DenialReason
  detail : String
  reservationId : Nat
  estimate : Option CostEstimate
  deriving DecidableEq

def envelopeSettings (kind : Option OperatorKind) (cfg : BudgetSettings) : Envelope :=
  match kind with
  | some .inspect =>
    { maxItems := cfg.operatorInspectMaxItems, maxRecordReads := cfg.operatorInspectMaxRecordReads
      maxBytes := cfg.operatorInspectMaxBytes }
  | some .probe => { maxCalls := cfg.operatorProbeMaxCalls }
  | _ => {}

def recordable (limit : Option Int) : Option Int := limit.filter fun v => 0 ≤ v

def recordableLimits (kind : Option OperatorKind) (cfg : BudgetSettings) : Envelope :=
  let e := envelopeSettings kind cfg
  ⟨recordable e.maxItems,recordable e.maxRecordReads,recordable e.maxBytes,recordable e.maxCalls⟩

/-- `none` when a limit of the kind is unset or negative. -/
def envelopeLimits (kind : Option OperatorKind) (cfg : BudgetSettings) : Option Envelope :=
  if (recordableLimits kind cfg).fits kind then some (envelopeSettings kind cfg) else none

def Reservation.of (request : AdmissionRequest) (decision : AdmissionDecision) (sourceSite : Option Nat)
    (envelope : Envelope) (now : Int) (operatorReason : String) : Reservation where
  providerRun := none
  sourceSite
  admissionClass := request.budgetClass
  operatorKind := request.operatorKind
  providerBuildId := none
  status := if decision.admitted then .reserved else .denied
  denialReason := decision.reason
  reason := Text.strip operatorReason
  probeDatasetId := none
  estimateUsd := decision.estimate.map CostEstimate.estimateUsd
  executionBoundUsd := decision.estimate.map CostEstimate.executionBoundUsd
  postRunLiabilityUsd := decision.estimate.map CostEstimate.postRunLiabilityUsd
  monitoringBoundUsd := decision.estimate.map CostEstimate.monitoringBoundUsd
  componentBounds := (decision.estimate.map CostEstimate.components).getD []
  estimatorVersion := (decision.estimate.map CostEstimate.estimatorVersion).getD ""
  envelope
  usageProvisionalUsd := none
  usageFinalizedUsd := none
  usageFinalizedAt := none
  settlementBasis := none
  settledRunUsageUsd := none
  postRunCostUsd := none
  postRunCostMode := none
  actualUsd := none
  reservedAt := now
  reconciledAt := none
  lastChargeAt := none
  correctionMonitorUntil := none
  nextUsageReadAt := none
  correctionMonitorClosedAt := none
  correctionClosingRead := none
  monitoringChargeLastAt := none
  monitoringCallPendingSince := none
  runPollCount := 0
  correctionReadCount := 0

def persistedEnvelope (kind : Option OperatorKind) (cfg : BudgetSettings) (admitted : Bool) :
    Except Fault Envelope :=
  match envelopeLimits kind cfg with
  | some envelope => .ok envelope
  | none =>
    if admitted then .error (.assertion "not decision.admitted") else .ok (recordableLimits kind cfg)

def persist (request : AdmissionRequest) (decision : AdmissionDecision) (sourceSite : Option Nat)
    (cfg : BudgetSettings) (now : Int) (operatorReason : String) (l : Ledger) :
    Except Fault (Ledger × ReservationOutcome) := do
  let envelope ← persistedEnvelope request.operatorKind cfg decision.admitted
  let (l,pk) ← l.insertReservation (.of request decision sourceSite envelope now operatorReason)
  .ok (l,⟨decision.admitted,decision.reason,decision.detail,pk,decision.estimate⟩)

def repaired (config : LedgerConfig) (now : Int) (l : Ledger) : Ledger :=
  (tripStrandedStartRefusalsLocked config.budget.estimatorVersion now
    (clearOnEstimatorBump config.budget.estimatorVersion now l)).1

def ledgerState (config : LedgerConfig) (now : Int) (l : Ledger) : Ledger × LedgerState :=
  let l := repaired config now l
  let latch := latchTripped l
  match ensureCycle config now l with
  | (l,none) =>
    (l,⟨now,latch,true,none,{},none,some (cycleUnavailableDetail config now)⟩)
  | (l,some cycle) =>
    let l := ensureContinuedAuthority cycle.cycleStart config now l
    (l,⟨now,latch,authorityHeld l cycle.cycleStart,some ⟨cycle.cycleStart,cycle.cycleEnd⟩,
      (cycleDebits config l cycle).1,some (cycleDebits config l cycle).2,none⟩)

def reserve (request : AdmissionRequest) (sourceSite : Option Nat) (config : LedgerConfig) (now : Int)
    (reason : String) (l : Ledger) : Except Fault (Ledger × ReservationOutcome) :=
  if request.budgetClass ≠ .operator ∧ sourceSite = none then
    .error (.assertion "a runtime reservation needs source_site_id")
  else
    let (l,state) := ledgerState config now l
    persist request (decideAdmission request config.budget state) sourceSite config.budget now reason l

def reserveOperator (kind : OperatorKind) (config : LedgerConfig) (now : Int) (reason : String) (l : Ledger) :
    Except Fault (Ledger × ReservationOutcome) :=
  reserve (.operator kind) none config now reason l

inductive Prepared (config : LedgerConfig) (now : Int) (l : Ledger) : Ledger → LedgerState → Prop where
  | noCycle {l'} (step : Ensured config now (repaired config now l) l' none) :
      Prepared config now l l' ⟨now,latchTripped (repaired config now l),true,none,{},none,
        some (cycleUnavailableDetail config now)⟩
  | cycle {l' row} (step : Ensured config now (repaired config now l) l' (some row)) :
      Prepared config now l (ensureContinuedAuthority row.cycleStart config now l')
        ⟨now,latchTripped (repaired config now l),
         authorityHeld (ensureContinuedAuthority row.cycleStart config now l') row.cycleStart,
         some ⟨row.cycleStart,row.cycleEnd⟩,
         (cycleDebits config (ensureContinuedAuthority row.cycleStart config now l') row).1,
         some (cycleDebits config (ensureContinuedAuthority row.cycleStart config now l') row).2,none⟩

theorem ledgerStateSound (config : LedgerConfig) (now : Int) (l : Ledger) :
    Prepared config now l (ledgerState config now l).1 (ledgerState config now l).2 := by
  have step := ensureCycleSound config now (repaired config now l)
  simp only [ledgerState]
  generalize ensureCycle config now (repaired config now l) = out at step ⊢
  obtain ⟨after,result⟩ := out
  cases result with
  | none => exact .noCycle step
  | some row => exact .cycle step

theorem repairedOnly (config : LedgerConfig) (now : Int) (l : Ledger) : LatchOnly l (repaired config now l) := by
  have bumped : LatchOnly l (clearOnEstimatorBump config.budget.estimatorVersion now l) := ⟨rfl,rfl,rfl,rfl,rfl⟩
  exact bumped.trans (strandedOnly _ _ _ _)

theorem preparedOnly {config : LedgerConfig} {now : Int} {l l' : Ledger} {state}
    (prepared : Prepared config now l l' state) : CycleOnly (repaired config now l) l' := by
  cases prepared with
  | noCycle step => exact ensuredOnly step
  | cycle step => exact (ensuredOnly step).trans (continuedOnly _ _ _ _)

theorem preparedNow {config : LedgerConfig} {now : Int} {l l' : Ledger} {state}
    (prepared : Prepared config now l l' state) :
    state.now = now ∧ state.latchTripped = latchTripped (repaired config now l) := by
  cases prepared <;> exact ⟨rfl,rfl⟩

structure Reserved (request : AdmissionRequest) (config : LedgerConfig) (now : Int) (l l' : Ledger)
    (outcome : ReservationOutcome) (mid : Ledger) (state : LedgerState) (row : Reservation) : Prop where
  prepared : Prepared config now l mid state
  checked : row.Checked
  appended : l'.reservations = l.reservations ++ [row]
  cycles : l'.cycles = mid.cycles
  authority : l'.authority = mid.authority
  latches : l'.latches = (repaired config now l).latches
  runs : l'.runs = l.runs
  usageReads : l'.usageReads = l.usageReads
  decided : outcome.admitted = (decideAdmission request config.budget state).admitted
  key : outcome.reservationId = l.reservations.length
  content : ∃ sourceSite envelope reason, row =
    .of request (decideAdmission request config.budget state) sourceSite envelope now reason

theorem reserveSound {request : AdmissionRequest} {sourceSite : Option Nat} {config : LedgerConfig}
    {now : Int} {reason : String} {l l' : Ledger} {outcome : ReservationOutcome}
    (ok : reserve request sourceSite config now reason l = .ok (l',outcome)) :
    ∃ mid state row, Reserved request config now l l' outcome mid state row := by
  unfold reserve at ok
  split at ok
  · cases ok
  have prepared := ledgerStateSound config now l
  generalize ledgerState config now l = out at prepared ok
  obtain ⟨mid,state⟩ := out
  simp only [persist] at ok
  obtain ⟨envelope,_,ok⟩ := bindOk.mp ok
  obtain ⟨⟨last,pk⟩,inserted,done⟩ := bindOk.mp ok
  cases Except.ok.inj done
  obtain ⟨checked,key,rows,cycles,authority,runs,reads,latches⟩ := insertReservationOk inserted
  have latchFrame := repairedOnly config now l
  have cycleFrame := preparedOnly prepared
  have same : mid.reservations = l.reservations := cycleFrame.reservations.trans latchFrame.reservations
  exact ⟨mid,state,_,{
    prepared, checked, cycles, authority
    appended := by rw [rows,same]
    latches := latches.trans cycleFrame.latches
    runs := runs.trans (cycleFrame.runs.trans latchFrame.runs)
    usageReads := reads.trans (cycleFrame.usageReads.trans latchFrame.usageReads)
    decided := rfl
    key := by rw [key,same]
    content := ⟨sourceSite,envelope,reason,rfl⟩ }⟩

end HwRadar.Apify
