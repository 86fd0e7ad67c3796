import HwRadar.Apify.Settlement

/-! Selector 4: correction monitoring. A read is counted and marked pending in
one commit before it is sent; its completion appends the figure, applies an
upward correction, re-checks the budget of every recorded cycle the charge
interval touches, and closes the obligation at or after its deadline. -/
namespace HwRadar.Apify
open HwRadar.Base HwRadar.Base.Calendar

structure MonitorCall where
  reservationId : Nat
  build : Bool
  remoteId : String
  deriving DecidableEq, Repr

structure MonitorResult extends ApifyUsage where
  overCap : Bool := false
  deriving DecidableEq

def lockedRun (l : Ledger) (resv : Reservation) : Option (ProviderRun × Nat) :=
  resv.providerRun.bind fun pk => (l.runs[pk]?).map fun run => (run,pk)

def correctionCount (resv : Reservation) : Option ProviderRun → Nat
  | some run => run.correctionReadCount
  | none => resv.correctionReadCount

def beginRow (resv : Reservation) (now : Int) : Reservation :=
  { resv with monitoringCallPendingSince := some now, monitoringChargeLastAt := some now }

def beginMonitoringRead (pk : Nat) (now : Int) (config : LedgerConfig) (l : Ledger) :
    Except Fault (Ledger × Option MonitorCall) := do
  let resv ← l.lockReservation pk
  let run := lockedRun l resv
  if resv.status ≠ .reconciled ∨ resv.correctionMonitorUntil = none ∨ resv.correctionMonitorClosedAt ≠ none ∨
      resv.monitoringCallPendingSince ≠ none ∨
      (config.budget.maxCorrectionReads.all fun cap => cap ≤ (correctionCount resv (run.map Prod.fst) : Int)) = true
  then .ok (l,none)
  else match run with
  | some (locked,runPk) =>
    match locked.externalRunId with
    | none => .ok (l,none)
    | some remote => do
      let l := l.saveRun runPk { locked with correctionReadCount := locked.correctionReadCount + 1 }
      let l ← l.saveReservation pk (beginRow resv now)
      .ok (l,some ⟨pk,false,remote⟩)
  | none =>
    match resv.providerBuildId with
    | none => .ok (l,none)
    | some build => do
      let l ← l.saveReservation pk
        (beginRow { resv with correctionReadCount := resv.correctionReadCount + 1 } now)
      .ok (l,some ⟨pk,true,build⟩)

structure BudgetLimits where
  allocation : ℚ
  allowance : ℚ
  target : ℚ
  external : ℚ
  reserve : ℚ
  guardAt : Int

def budgetLimits (config : LedgerConfig) : Except BudgetDenied BudgetLimits := do
  let cfg := config.budget
  let g ← boundaryGuard config
  let allocation ← projectAllocation cfg
  match cfg.operatorAllowanceUsd,cfg.cycleTargetUsd,cfg.externalLiabilityUsd,cfg.watchRefreshReserveUsd with
  | some (.finite allowance),some (.finite target),some (.finite external),some (.finite reserve) =>
    .ok ⟨allocation,allowance,target,external,reserve,g⟩
  | _,_,_,_ => .error ⟨.budgetSettingInvalid,"a budget setting is unset"⟩

def cycleBreaches (limits : BudgetLimits) (usable : Option ℚ) (resv : Reservation) (d : CycleDebits) :
    List String :=
  let runtime := usd (d.runtimeCommittedUsd + d.carriedHandoffUsd)
  let operator := usd d.operatorCommittedUsd
  let hr := runtime + operator
  let classCap := if resv.admissionClass = .discovery then limits.allocation - limits.reserve
    else limits.allocation
  (if resv.admissionClass = .operator then
    (if operator > limits.allowance then ["operator allowance"] else [])
   else (if runtime > classCap then ["class cap"] else [])) ++
  (if runtime > limits.allocation then ["runtime allocation"] else []) ++
  (if operator > limits.allowance then ["operator allowance"] else []) ++
  (if hr > limits.target then ["target"] else []) ++
  (if usable.any fun p => hr + limits.external > p then ["external-liability check"] else [])

def chargedCycles (g : Int) (resv : Reservation) (l : Ledger) : List BudgetCycle :=
  l.cycles.filter fun row =>
    row.cycleStart ≤ resv.lastChargeAt.getD 0 + g && resv.reservedAt - g ≤ row.cycleEnd

def invariantBreaches (resv : Reservation) (config : LedgerConfig) (now : Int) (l : Ledger) : List String :=
  let problem := accountSettingProblem config.budget now
  let found := (problem.map fun p => "unverifiable: " ++ p.setting).toList
  let usable := if problem.isSome then none else (usableUsd config.budget).toOption
  match budgetLimits config with
  | .error denied => found ++ ["unverifiable: " ++ denied.detail]
  | .ok limits =>
    found ++ (chargedCycles limits.guardAt resv l).flatMap fun row =>
      cycleBreaches limits usable resv (cycleDebits config l row).1

def correctedRow (resv : Reservation) (figure : Nat) : Reservation :=
  { resv with
    settledRunUsageUsd := some figure
    actualUsd := some (resv.actualUsd.getD 0 + (figure - resv.settledRunUsageUsd.getD 0)) }

/-- Raise the settled amounts, then re-check. The pending marker and the clocks of
the caller are not saved yet, so the check reads the stored row with these two columns. -/
def applyCorrection (pk : Nat) (stored : Reservation) (figure : Nat) (now : Int) (config : LedgerConfig)
    (run : Option Nat) (l : Ledger) : Except Fault Ledger :=
  if figure ≤ stored.settledRunUsageUsd.getD 0 then .ok l
  else do
    let row := correctedRow stored figure
    let l ← l.saveReservation pk row
    let l := tripWhen (stored.estimateUsd.getD 0 < row.actualUsd.getD 0) .overrun run config now l
    .ok (tripWhen (!(invariantBreaches row config now l).isEmpty) .postAdmissionInvariantBreach run config now l)

def settleMonitoringAllowance (resv : Reservation) (run : Option ProviderRun) (config : LedgerConfig) :
    Reservation :=
  if config.postRunCostMode ≠ some .counted then resv
  else match apiCallBound config.budget with
  | .error _ => resv
  | .ok call =>
    { resv with
      monitoringBoundUsd :=
        some (min (resv.monitoringBoundUsd.getD 0) (toLedger ((correctionCount resv run : Int) * call).value)) }

def completedRow (resv : Reservation) (run : Option ProviderRun) (read : Option Nat) (untilAt reconciledAt now : Int)
    (config : LedgerConfig) : Reservation :=
  let row := { resv with monitoringCallPendingSince := none, monitoringChargeLastAt := some now }
  match read with
  | some read =>
    if untilAt ≤ now then
      settleMonitoringAllowance
        { row with correctionMonitorClosedAt := some now, correctionClosingRead := some read } run config
    else { row with nextUsageReadAt := some (nextReadAt untilAt reconciledAt now config) }
  -- a read without a figure is asked again, even past the deadline
  | none => { row with nextUsageReadAt := some (nextReadAt untilAt reconciledAt now config) }

def latchOnResult (result : Option MonitorResult) (run : Option Nat) (config : LedgerConfig) (now : Int)
    (l : Ledger) : Ledger :=
  match result with
  | none => l
  | some result =>
    if result.overCap then trip .apiResponseOverCap run config now l
    else tripWhen (!(unexpectedComponents result.toApifyUsage).isEmpty) .unexpectedUsageComponent run config now l

def figureOf (result : Option MonitorResult) : Option (MonitorResult × ℚ) :=
  result.bind fun r => if r.overCap then none else r.usageTotalUsd.map fun total => (r,total)

def completeMonitoringRead (pk : Nat) (result : Option MonitorResult) (now : Int) (config : LedgerConfig)
    (l : Ledger) : Except Fault (Ledger × Bool) := do
  let resv ← l.lockReservation pk
  let run := lockedRun l resv
  let l := latchOnResult result (run.map Prod.snd) config now l
  match resv.correctionMonitorUntil,resv.reconciledAt with
  | some untilAt,some reconciledAt =>
    match figureOf result with
    | none => do
      let l ← l.saveReservation pk (completedRow resv (run.map Prod.fst) none untilAt reconciledAt now config)
      .ok (l,false)
    | some (r,total) => do
      let (l,read) ← appendRead pk resv (run.map Prod.snd) now r.toApifyUsage r.finishedAt config l
      let l ← applyCorrection pk resv (toLedger total) now config (run.map Prod.snd) l
      let corrected := if toLedger total ≤ resv.settledRunUsageUsd.getD 0 then resv
        else correctedRow resv (toLedger total)
      let l ← l.saveReservation pk
        (completedRow corrected (run.map Prod.fst) (some read) untilAt reconciledAt now config)
      .ok (l,decide (untilAt ≤ now))
  | _,_ => .error (.assertion "correction_monitor_until is not None")

def resolvedRow (processStartedAt : Int) (resv : Reservation) : Reservation :=
  { resv with
    monitoringCallPendingSince := none
    monitoringChargeLastAt := some (match resv.monitoringChargeLastAt with
      | none => processStartedAt
      | some last => max last processStartedAt) }

def staleMarker (processStartedAt : Int) (resv : Reservation) : Bool :=
  resv.monitoringCallPendingSince.any fun since => since < processStartedAt

def resolveStaleMonitoringMarkers (processStartedAt : Int) (l : Ledger) : Except Fault (Ledger × Nat) :=
  let stale := (l.reservations.zipIdx.filter fun entry => staleMarker processStartedAt entry.1).map Prod.snd
  (stale.foldlM (fun l pk => do
    let row ← Ledger.lockReservation l pk
    Ledger.saveReservation l pk (resolvedRow processStartedAt row)) l).map fun l => (l,stale.length)

end HwRadar.Apify
