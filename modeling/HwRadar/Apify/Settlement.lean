import HwRadar.Apify.Tally
import HwRadar.Apify.Latch

/-! Settlement. A read of a run or build is appended to an unreconciled row; the
row reconciles when the settlement predicate, its deadline or its spent poll cap
allows, once the run's import is terminal and its storage verified deleted. -/
namespace HwRadar.Apify
open HwRadar.Base HwRadar.Base.Calendar
open HwRadar.Base.Text (Decimal)
open HwRadar.Base.Decimal (Dec toDouble)

structure ApifyUsage where
  usageTotalUsd : Option ℚ
  usageUsd : Option (List Component)
  usage : Option (List Component)
  unparseableUsage : List String
  finishedAt : Option Int
  deriving DecidableEq

structure ApifyRun extends ApifyUsage where
  restartCount : Option Int
  deriving DecidableEq

structure ApifyBuild extends ApifyUsage where
  status : String
  deriving DecidableEq

def terminalRunStatuses : List String := ["SUCCEEDED","FAILED","TIMED-OUT","ABORTED"]

def usageAllowlist : List String :=
  ["ACTOR_COMPUTE_UNITS","DATASET_READS","DATASET_WRITES","KEY_VALUE_STORE_READS","KEY_VALUE_STORE_WRITES",
   "DATA_TRANSFER_INTERNAL_GBYTES","DATA_TRANSFER_EXTERNAL_GBYTES"]

def unexpectedIn (label : String) (usage : Option (List Component)) : List String :=
  ((usage.getD []).filter fun c => !usageAllowlist.contains c.name && c.value != 0).map fun c =>
    label ++ "." ++ c.name ++ "=" ++ c.text

def unexpectedComponents (u : ApifyUsage) : List String :=
  u.unparseableUsage.map (fun name => "unparseable " ++ name) ++
    unexpectedIn "usageUsd" u.usageUsd ++ unexpectedIn "usage" u.usage

def trip (reason : LatchReason) (run : Option Nat) (config : LedgerConfig) (now : Int) (l : Ledger) : Ledger :=
  (tripLatchLocked reason run config.budget.estimatorVersion now l).1

def tripWhen (condition : Bool) (reason : LatchReason) (run : Option Nat) (config : LedgerConfig) (now : Int)
    (l : Ledger) : Ledger :=
  if condition then trip reason run config now l else l

/-- `_seconds`: an unset or negative setting is a denial. -/
def settingSeconds (value : Option Int) (name : String) : Except BudgetDenied Int :=
  match value with
  | some n => if n < 0 then .error ⟨.unboundedComponent,s!"{name} is unset or invalid"⟩ else .ok (seconds n)
  | none => .error ⟨.unboundedComponent,s!"{name} is unset or invalid"⟩

def boundaryGuard (config : LedgerConfig) : Except BudgetDenied Int :=
  settingSeconds config.budget.cycleBoundaryGuardS "CYCLE_BOUNDARY_GUARD_S"

def terminalImport : ImportState → Bool
  | .finalized | .rejected => true
  | _ => false

def stampWorkCompletion (row : ProviderRun) (now : Int) : ProviderRun :=
  if row.finalChargeOpAt.isNone && terminalImport row.importState && row.storageState == .deleted then
    { row with finalChargeOpAt := some now }
  else row

def readsOf (l : Ledger) (pk : Nat) : List UsageRead := l.usageReads.filter fun r => r.reservation == pk

def anchor (reads : List UsageRead) : Option ProviderRun → Option Int
  | some run => run.finalChargeOpAt.map fun final => max final (run.finishedAt.getD final)
  | none => (reads.filterMap UsageRead.finishedAtReported).max?

def eligibleFrom (anchor : Int) (config : LedgerConfig) : Except BudgetDenied Int := do
  let delay ← settingSeconds config.usageSettleDelayS "USAGE_SETTLE_DELAY_S"
  let g ← boundaryGuard config
  .ok (anchor + delay + g)

def sameBreakdown (a b : List (String × String)) : Bool :=
  a.length == b.length && a.all fun entry => b.contains entry

def spaced (interval : Int) (first : UsageRead) : UsageRead → List UsageRead → Bool
  | _,[] => true
  | previous,current::rest =>
    decide (interval ≤ current.readAt - previous.readAt) &&
    current.usageTotalUsd == first.usageTotalUsd && sameBreakdown current.usageUsd first.usageUsd &&
    spaced interval first current rest

def stable (reads : List UsageRead) (config : LedgerConfig) : Option UsageRead :=
  match config.usageStableReads,config.usageStableIntervalS with
  | some wanted,some interval =>
    if wanted < 1 ∨ interval < 0 then none
    else
      let tail := reads.drop (reads.length - wanted.toNat)
      if (tail.length : Int) < wanted || tail.any fun r => r.usageTotalUsd.isNone then none
      else match tail with
      | [] => none
      | first::rest => if spaced (seconds interval) first first rest then tail.getLast? else none
  | _,_ => none

def countedPrice (value : Option Decimal) (name : String) : Except BudgetDenied Dec :=
  match nonNegative value with
  | some q => .ok ⟨q⟩
  | none => .error ⟨.pricingUnverified,s!"{name} is unset"⟩

def countedPerOp (value : Option Decimal) (name : String) : Except BudgetDenied Dec := do
  let q ← countedPrice value name
  .ok (q / 1000)

def countedMargin (cfg : BudgetSettings) : Except BudgetDenied Dec :=
  match nonNegative cfg.margin with
  | some q => .ok ⟨q⟩
  | none => .error ⟨.unboundedComponent,"MARGIN is unset"⟩

def countedSize (cfg : BudgetSettings) (run : ProviderRun) : Except BudgetDenied (Int × Int) :=
  match cfg.maxKvBytes,run.storageDeletedAt with
  | some kvBytes,some deletedAt =>
    if kvBytes < 0 then .error ⟨.unboundedComponent,"storage size or lifetime unknown"⟩
    else .ok (kvBytes,deletedAt)
  | _,_ => .error ⟨.unboundedComponent,"storage size or lifetime unknown"⟩

/-- The hours of a stored lifetime: `total_seconds` is a float, which the decimal takes as it is. -/
def lifetimeHours (admittedAt deletedAt : Int) : Dec :=
  ⟨max (toDouble ((deletedAt - admittedAt : Int) / 1000000)) 0⟩ / 3600

def countedPostRunCost (run : ProviderRun) (config : LedgerConfig) : Except BudgetDenied Nat := do
  let cfg := config.budget
  let p := cfg.prices
  let margin ← countedMargin cfg
  let sized ← countedSize cfg run
  let dsRead ← countedPerOp p.datasetReadsPer1000 "DATASET_READS_USD_PER_1000"
  let dsWrite ← countedPerOp p.datasetWritesPer1000 "DATASET_WRITES_USD_PER_1000"
  let kvRead ← countedPerOp p.kvReadsPer1000 "KV_READS_USD_PER_1000"
  let kvWrite ← countedPerOp p.kvWritesPer1000 "KV_WRITES_USD_PER_1000"
  let dsStorage ← countedPrice p.datasetStoragePerGbHour "DATASET_STORAGE_USD_PER_GB_HOUR"
  let kvStorage ← countedPrice p.kvStoragePerGbHour "KV_STORAGE_USD_PER_GB_HOUR"
  let pages ← pagesPerRead cfg run.maxItems maxListingRowBytes
  let call ← apiCallBound cfg
  let page ← datasetPageBound cfg
  let attempts : Int := run.storageCleanupAttempts
  let items : Int := run.maxItems
  let reads : Int := run.datasetReadCount
  let kvReads : Int := run.kvReadCount
  let hours := lifetimeHours run.admittedAt sized.2
  let cost := (reads * (items + pages) : Int) * dsRead + (kvReads : Dec) * kvRead
    + (attempts : Dec) * ((items + 1 : Int) * dsWrite + 3 * kvWrite)
    + ((items * maxListingRowBytes : Int) * dsStorage + (sized.1 + maxApiRequestBodyBytes : Int) * kvStorage)
      / bytesPerGb * hours
    + (1 + run.runPollCount + 4 * attempts + kvReads : Int) * call
    + (reads * pages : Int) * page
  .ok (toLedger (cost * (1 + margin)).value)

def postRunCost (resv : Reservation) (run : Option ProviderRun) (config : LedgerConfig) :
    Nat × PostRunCostMode :=
  match run with
  | none => (0,.bound)
  | some run =>
    match config.postRunCostMode,countedPostRunCost run config with
    | some .counted,.ok counted => (counted,.counted)
    | _,_ => (resv.postRunLiabilityUsd.getD 0,.bound)

def divideAndRound (a b : Int) : Int :=
  let q := a / b
  let r := 2 * (a % b)
  if r > b ∨ (r = b ∧ q % 2 = 1) then q + 1 else q

def closingReserve : Int := 3

def nextReadAt (untilAt reconciledAt now : Int) (config : LedgerConfig) : Int :=
  let interval := seconds (max (config.usageStableIntervalS.getD 0) 0)
  if now < untilAt then
    let slots := max (config.budget.maxCorrectionReads.getD 0 - closingReserve) 1
    min (now + max interval (divideAndRound (untilAt - reconciledAt) slots)) untilAt
  else now + min (max interval (minutes 1)) (hours 1)

structure Settling where
  settled : ℚ
  basis : SettlementBasis
  finalized : Option UsageRead

def settling (config : LedgerConfig) (now deadline from_ : Int) (execution : Nat) (capSpent : Bool)
    (reads : List UsageRead) : Option Settling :=
  let observed := reads.filterMap UsageRead.usageTotalUsd
  let eligible := reads.filter fun r => from_ ≤ r.readAt
  let atBound := observed.foldl max (usd execution)
  let early : Option Settling :=
    if config.runUsageSettlement = some .stableReads then
      (stable eligible config).map fun finalized =>
        ⟨((eligible.filterMap UsageRead.usageTotalUsd).max?).getD 0,.stableReads,some finalized⟩
    else if eligible.any fun r => r.usageTotalUsd.isSome then some ⟨atBound,.bound,none⟩
    else none
  match early with
  | some s => some s
  | none => if deadline ≤ now || capSpent then some ⟨atBound,.boundUnfinalized,none⟩ else none

def settlementTimes (anchor : Int) (config : LedgerConfig) : Except BudgetDenied (Int × Int × Int) := do
  let from_ ← eligibleFrom anchor config
  let deadline ← settingSeconds config.usageFinalizeDeadlineS "USAGE_FINALIZE_DEADLINE_S"
  let window ← settingSeconds config.correctionWindowS "CORRECTION_WINDOW_S"
  .ok (from_,anchor + deadline,window)

def settledRow (resv : Reservation) (run : Option ProviderRun) (config : LedgerConfig)
    (now anchor window : Int) (s : Settling) : Reservation :=
  let post := postRunCost resv run config
  let usage := toLedger s.settled
  let lastCharge := match run with
    | some run => max now (max (run.finalChargeOpAt.getD now) (run.finishedAt.getD now))
    | none => max anchor now
  let firstFinal := s.finalized.isSome && resv.usageFinalizedUsd.isNone
  { resv with
    usageFinalizedUsd := if firstFinal then
        some (toLedger ((s.finalized.bind UsageRead.usageTotalUsd).getD 0)) else resv.usageFinalizedUsd
    usageFinalizedAt := if firstFinal then some now else resv.usageFinalizedAt
    settledRunUsageUsd := some usage
    postRunCostUsd := some post.1
    postRunCostMode := some post.2
    settlementBasis := some s.basis
    actualUsd := some (usage + post.1)
    reconciledAt := some now
    lastChargeAt := some lastCharge
    status := .reconciled
    correctionMonitorUntil := some (lastCharge + window)
    nextUsageReadAt := some (nextReadAt (lastCharge + window) now now config) }

def settlement (config : LedgerConfig) (now : Int) (reads : List UsageRead) (resv : Reservation)
    (run : Option ProviderRun) : Option Reservation :=
  if !resv.status.isOpen then none
  else if run.any fun run => !terminalImport run.importState || run.storageState != .deleted then none
  else if run.isNone && resv.providerBuildId.isNone then none
  else match anchor reads run with
  | none => none
  | some anchorAt =>
    match settlementTimes anchorAt config with
    | .error _ => none
    | .ok (from_,deadline,window) =>
      let polls := match run with
        | some run => run.runPollCount
        | none => resv.runPollCount
      let capSpent := config.budget.maxRunPolls.any fun cap => cap ≤ polls
      let sorted := reads.mergeSort fun a b => a.readAt ≤ b.readAt
      (settling config now deadline from_ (resv.executionBoundUsd.getD 0) capSpent sorted).map
        (settledRow resv run config now anchorAt window)

def Ledger.lockRun (l : Ledger) (pk : Nat) : Except Fault ProviderRun :=
  match l.runs[pk]? with
  | some run => .ok run
  | none => .error (.assertion "ProviderRun.DoesNotExist")

def Ledger.lockReservation (l : Ledger) (pk : Nat) : Except Fault Reservation :=
  match l.reservations[pk]? with
  | some row => .ok row
  | none => .error (.assertion "ApifySpendReservation.DoesNotExist")

def Ledger.reservationOf (l : Ledger) (run : Nat) : Option (Reservation × Nat) :=
  l.reservations.zipIdx.find? fun entry => entry.1.providerRun == some run

def Ledger.saveRun (l : Ledger) (pk : Nat) (run : ProviderRun) : Ledger := { l with runs := l.runs.set pk run }

/-- A figure as its column keeps it: eight places, halves away from zero. -/
def providerFigure (q : ℚ) : ℚ :=
  if q < 0 then -(⌊-q * 100000000 + 1 / 2⌋ / 100000000) else ⌊q * 100000000 + 1 / 2⌋ / 100000000

def appendRead (pk : Nat) (resv : Reservation) (run : Option Nat) (readAt : Int) (u : ApifyUsage)
    (finishedAt : Option Int) (config : LedgerConfig) (l : Ledger) : Except Fault (Ledger × Nat) :=
  if resv.providerRun ≠ run then .error (.assertion "usage read filed under another run")
  else if (u.usageTotalUsd.map providerFigure).any fun total => total < 0 then
    .error (.integrity "apify_usage_read_usage_total_usd_non_negative")
  else .ok ({ l with usageReads := l.usageReads ++ [
    { reservation := pk, providerRun := run, readAt, usageTotalUsd := u.usageTotalUsd.map providerFigure
      usageUsd := (u.usageUsd.getD []).map fun c => (c.name,c.text)
      finishedAtReported := finishedAt, priceSettingsVersion := config.budget.estimatorVersion }] },
    l.usageReads.length)

def provisional (resv : Reservation) (total : Option ℚ) : Reservation :=
  match total with
  | none => resv
  | some total =>
    { resv with
      usageProvisionalUsd := some (max (resv.usageProvisionalUsd.getD 0) (toLedger total))
      status := if resv.status = .reserved then .usageProvisional else resv.status }

def trySettle (pk : Nat) (resv : Reservation) (run : Option (ProviderRun × Nat)) (now : Int)
    (config : LedgerConfig) (l : Ledger) : Except Fault (Ledger × Bool) :=
  match settlement config now (readsOf l pk) resv (run.map Prod.fst) with
  | none => .ok (l,false)
  | some row => do
    let l ← l.saveReservation pk row
    .ok (tripWhen (resv.estimateUsd.getD 0 < row.actualUsd.getD 0) .overrun (run.map Prod.snd) config now l,true)

def applyRead (pk : Nat) (resv : Reservation) (run : Option (ProviderRun × Nat)) (readAt : Int)
    (u : ApifyUsage) (finishedAt : Option Int) (config : LedgerConfig) (l : Ledger) :
    Except Fault (Ledger × Bool) := do
  let (l,_) ← appendRead pk resv (run.map Prod.snd) readAt u finishedAt config l
  let l ← l.saveReservation pk (provisional resv u.usageTotalUsd)
  trySettle pk (provisional resv u.usageTotalUsd) run readAt config l

def recordRunUsage (runPk : Nat) (run : ApifyRun) (readAt : Int) (config : LedgerConfig) (l : Ledger) :
    Except Fault (Ledger × Bool) := do
  let locked ← l.lockRun runPk
  let l := tripWhen (!(unexpectedComponents run.toApifyUsage).isEmpty) .unexpectedUsageComponent (some runPk)
    config readAt l
  let l := tripWhen (run.restartCount.any fun n => n != 0) .startOptionMismatch (some runPk) config readAt l
  match l.reservationOf runPk with
  | none => .ok (l,false)
  | some (resv,pk) =>
    if resv.status.isOpen then
      applyRead pk resv (some (locked,runPk)) readAt run.toApifyUsage run.finishedAt config l
    else .ok (l,false)

def planSettlementRead (runPk : Nat) (now : Int) (config : LedgerConfig) (l : Ledger) :
    Except Fault (Ledger × Option String) := do
  let run ← l.lockRun runPk
  match l.reservationOf runPk with
  | none => .ok (l,none)
  | some (resv,pk) =>
    if !resv.status.isOpen then .ok (l,none)
    else do
      let (l,settled) ← trySettle pk resv (some (run,runPk)) now config l
      if settled then .ok (l,none)
      else match anchor (readsOf l pk) (some run),run.externalRunId with
      | some anchorAt,some remote =>
        match eligibleFrom anchorAt config with
        | .error _ => .ok (l,none)
        | .ok from_ =>
          if now < from_ then .ok (l.saveRun runPk { run with nextAttemptAt := some from_ },none)
          else if config.budget.maxRunPolls.all fun cap => cap ≤ (run.runPollCount : Int) then .ok (l,none)
          else .ok (l.saveRun runPk { run with
            runPollCount := run.runPollCount + 1
            nextAttemptAt := some (now + seconds (max (config.usageStableIntervalS.getD 0) 0)) },some remote)
      | _,_ => .ok (l,none)

def bindBuild (pk : Nat) (buildId : String) (now : Int) (l : Ledger) : Except Fault (Ledger × Bool) :=
  let buildId := Text.strip buildId
  if buildId = "" then .error (.refused "build_id_missing" "--build-id is empty")
  else match l.reservations[pk]? with
  | none => .error (.refused "not_a_build" s!"reservation {pk} is not a build row")
  | some resv =>
    if resv.operatorKind ≠ some .build then
      .error (.refused "not_a_build" s!"reservation {pk} is not a build row")
    else match resv.providerBuildId with
    | some bound =>
      if bound = buildId then .ok (l,false)
      else .error (.refused "build_already_bound" s!"reservation {pk} is bound to build {bound}")
    | none =>
      if !resv.status.isOpen then .error (.refused "not_open" s!"reservation {pk} is {resv.status.value}")
      else if l.reservations.any fun other => other.providerBuildId == some buildId then
        .error (.refused "build_bound_elsewhere" s!"build {buildId} is already bound")
      else do
        let l ← l.saveReservation pk { resv with providerBuildId := some buildId, nextUsageReadAt := some now }
        .ok (l,true)

def planBuildRead (pk : Nat) (now : Int) (config : LedgerConfig) (l : Ledger) :
    Except Fault (Ledger × Option String) := do
  let resv ← l.lockReservation pk
  match resv.providerBuildId with
  | none => .ok (l,none)
  | some buildId =>
    if !resv.status.isOpen then .ok (l,none)
    else do
      let (l,settled) ← trySettle pk resv none now config l
      if settled then .ok (l,none)
      else if config.budget.maxRunPolls.all fun cap => cap ≤ (resv.runPollCount : Int) then .ok (l,none)
      else do
        let l ← l.saveReservation pk { resv with
          runPollCount := resv.runPollCount + 1
          nextUsageReadAt := some (now + seconds (max (config.usageStableIntervalS.getD 0) 0)) }
        .ok (l,some buildId)

def recordBuildUsage (pk : Nat) (build : ApifyBuild) (readAt : Int) (config : LedgerConfig) (l : Ledger) :
    Except Fault (Ledger × Bool) := do
  let resv ← l.lockReservation pk
  let l := tripWhen (!(unexpectedComponents build.toApifyUsage).isEmpty) .unexpectedUsageComponent none
    config readAt l
  if resv.status.isOpen then
    applyRead pk resv none readAt build.toApifyUsage
      (if terminalRunStatuses.contains build.status then build.finishedAt else none) config l
  else .ok (l,false)

def releasable (now graceS : Int) (row : Reservation) : Bool :=
  row.status == .reserved && row.providerRun.isNone && row.admissionClass != .operator &&
    row.reservedAt ≤ now - seconds graceS

def released (row : Reservation) : Reservation :=
  { row with status := .released, actualUsd := some 0, reason := "unattached_reservation" }

def releaseUnattachedReservations (now : Int) (graceS : Option Int) (l : Ledger) :
    Except Fault (Ledger × List Nat) :=
  match graceS with
  | none => .ok (l,[])
  | some s =>
    if s < 0 then .ok (l,[])
    else
      let candidates := (l.reservations.zipIdx.filter fun entry => releasable now s entry.1).map Prod.snd
      (candidates.foldlM (fun l pk => do
        let row ← Ledger.lockReservation l pk
        Ledger.saveReservation l pk (released row)) l).map fun l => (l,candidates)

def settleOperator (pk : Nat) (now : Int) (probeDatasetId : Option String) (probeDeletionVerified : Bool)
    (l : Ledger) : Except Fault Ledger :=
  match l.reservations[pk]? with
  | none => .error (.refused "not_operator" s!"reservation {pk} is not operator")
  | some resv =>
    if resv.admissionClass ≠ .operator then
      .error (.refused "not_operator" s!"reservation {pk} is not operator")
    else if resv.operatorKind = some .build then
      .error (.refused "build_needs_build_id" "a build settles by --build-id")
    else if !resv.status.isOpen then .error (.refused "not_open" s!"reservation {pk} is {resv.status.value}")
    else
      let dataset := Text.strip (probeDatasetId.getD "")
      if resv.operatorKind = some .probe ∧ (dataset = "" ∨ !probeDeletionVerified) then
        .error (.refused "probe_evidence_missing"
          "a probe settles only with its dataset id and verified deletion")
      else
        let bound := resv.estimateUsd.getD 0
        l.saveReservation pk { resv with
          probeDatasetId := if resv.operatorKind = some .probe then some dataset else resv.probeDatasetId
          settledRunUsageUsd := some bound
          postRunCostUsd := some 0
          postRunCostMode := some .bound
          settlementBasis := some .bound
          actualUsd := some bound
          reconciledAt := some now
          lastChargeAt := some now
          status := .reconciled }

end HwRadar.Apify
