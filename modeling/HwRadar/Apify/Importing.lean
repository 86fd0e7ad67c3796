import HwRadar.Apify.Imports
import HwRadar.Base.Run

/-! The importers of one run. Executors and the overdue storage unit share the
row; each turn of one of them is a read, a call outside any transaction, or one
committed transaction, and a process may be lost between any two. -/
namespace HwRadar.Apify
open HwRadar.Base HwRadar.Base.Calendar

structure StageDetail where
  recordsFetched : Option Nat := none
  recordsValid : Option Nat := none
  listingsUpserted : Option Nat := none
  snapshotsAppended : Option Nat := none
  listingsDelisted : Option Nat := none
  resolverFailedIds : List Nat := []
  evaluatorErrors : Option Nat := none
  rejectReason : Option RejectReason := none
  retryExhausted : Nat := 0
  blockedByOverrunLatch : Bool := false
  deriving DecidableEq

structure ImportRow extends ProviderRun where
  runKind : RunKind
  completeness : Option RunCompleteness := none
  completenessReason : String := ""
  datasetItemCount : Option Nat := none
  importListingIds : List Nat := []
  stageDetail : StageDetail := {}
  deriving DecidableEq

structure ScraperRun where
  sourceSite : Nat
  runKind : RunKind
  startedAt : Int
  status : RunStatus := .running
  failureClass : Option RunFailureClass := none
  error : String := ""
  finishedAt : Option Int := none
  recordsFetched : Nat := 0
  recordsValid : Nat := 0
  listingsUpserted : Nat := 0
  snapshotsAppended : Nat := 0
  resolverErrors : Nat := 0
  evaluatorErrors : Nat := 0
  listingsDelisted : Nat := 0
  deriving DecidableEq

structure Fetched where
  itemCount : Nat
  outputBytes : Option Nat
  completeness : RunCompleteness
  reason : String
  normalized : List Nat
  deriving DecidableEq

structure PersistResult where
  listingIds : List Nat
  upserted : Nat
  appended : Nat
  deriving DecidableEq

structure AbsenceCall where
  scopeKey : String
  seen : Option (List Nat)
  eventTime : Int
  deriving DecidableEq

structure ImportDb where
  row : ImportRow
  configured : Bool
  scraperRuns : List ScraperRun := []
  outcomes : List LifecycleEvent := []
  observations : List Fetched := []
  absences : List AbsenceCall := []
  breaks : List Int := []
  deriving DecidableEq

inductive Executor where
  | begun
  | claiming
  | reading
  | stage1 (row : ImportRow)
  | counting
  | fetching
  | judging (batch : Fetched)
  | observing (batch : Fetched)
  | stage2
  | absence (row : ImportRow)
  | stage3
  | stage4
  | stage5
  | rejecting (reason : RejectReason) (detail : String)
  | exhausted
  | blocked
  | overdue
  | overdueRejecting
  | stopped
  deriving DecidableEq

/-- What a turn learns from outside: the clock, the remote reads, the database's aborts. -/
structure Answer where
  now : Int
  retention : Except (RejectReason × String) (Option Int) := .ok none
  latchTripped : Bool := false
  fetched : Option Fetched := none
  persisted : PersistResult := ⟨[],0,0⟩
  exhausted : Bool := false
  delisted : Nat := 0
  resolverFailed : List Nat := []
  evaluatorErrors : Nat := 0

structure ReadCaps where
  maxDatasetReads : Int
  maxKvReads : Int
  deriving DecidableEq

def retryExhaustedBackoff : Int := minutes 5
def latchBlockedBackoff : Int := minutes 15

def ImportRow.startTime (row : ImportRow) : Int := row.startedAt.getD row.admittedAt

def claim (db : ImportDb) : ImportDb :=
  if terminalImport db.row.importState then db
  else { db with
    row := { db.row with toProviderRun := claimRun db.scraperRuns.length db.row.toProviderRun }
    scraperRuns := if db.row.scraperRun.isSome then db.scraperRuns
      else db.scraperRuns ++
        [{ sourceSite := db.row.sourceSite, runKind := db.row.runKind, startedAt := db.row.startTime }] }

def unitOf (row : ImportRow) : Executor :=
  match row.importState with
  | .pending => .stage1 row
  | .observationsCommitted => .stage2
  | .absenceApplied => .stage3
  | .resolved => .stage4
  | .evaluated => .stage5
  | .finalized | .rejected => .stopped

def stage1Refusal (row : ImportRow) (answer : Answer) : Option (RejectReason × String) :=
  if row.storageCleanupDueAt ≤ answer.now then some (.storageDeadlinePassed,"")
  else match answer.retention with
  | .error refusal => some refusal
  | .ok deadline =>
    if row.startedAt.isSome && deadline.any fun at_ => at_ ≤ answer.now then
      some (.contentPastTtl,s!"expired at {deadline.getD 0}")
    else none

def haltTo : Halt → Executor
  | .stateMoved => .stopped
  | .rejected reason detail => .rejecting reason detail
  | .latchBlocked => .blocked

def ImportRow.saved (row : ImportRow) (run : ProviderRun) : ImportRow := { row with toProviderRun := run }

def ImportRow.classified (row : ImportRow) (batch : Fetched) : ImportRow :=
  { row with
    datasetItemCount := some batch.itemCount
    completeness := some batch.completeness
    completenessReason := batch.reason }

def observe (batch : Fetched) (answer : Answer) (db : ImportDb) : Except Halt ImportDb := do
  let run ← observeRun answer.now db.row.toProviderRun
  .ok { db with
    row := { db.row.saved run with
      importListingIds := answer.persisted.listingIds
      stageDetail := { db.row.stageDetail with
        recordsFetched := some batch.itemCount
        recordsValid := some batch.normalized.length
        listingsUpserted := some answer.persisted.upserted
        snapshotsAppended := some answer.persisted.appended } }
    observations := db.observations ++ [batch] }

def applyAbsence (read : ImportRow) (answer : Answer) (db : ImportDb) : Except Halt ImportDb := do
  let run ← advanceRun .observationsCommitted .absenceApplied db.row.toProviderRun
  let full := read.runKind == .full
  let seen := if full && read.completeness == some .complete then some read.importListingIds else none
  .ok { db with
    row := { db.row.saved run with
      stageDetail := { db.row.stageDetail with listingsDelisted := some (if full then answer.delisted else 0) } }
    absences := if full then db.absences ++ [⟨read.scopeKey,seen,read.startTime⟩] else db.absences }

def resolveListings (answer : Answer) (db : ImportDb) : Except Halt ImportDb := do
  let run ← advanceRun .absenceApplied .resolved db.row.toProviderRun
  .ok { db with row := { db.row.saved run with
    stageDetail := { db.row.stageDetail with resolverFailedIds := answer.resolverFailed } } }

def evaluateListings (answer : Answer) (db : ImportDb) : Except Halt ImportDb := do
  let run ← advanceRun .resolved .evaluated db.row.toProviderRun
  .ok { db with row := { db.row.saved run with
    stageDetail := { db.row.stageDetail with evaluatorErrors := some answer.evaluatorErrors } } }

def applyOutcome (event : LifecycleEvent) (db : ImportDb) : ImportDb :=
  if db.configured then { db with outcomes := db.outcomes ++ [event] } else db

def finalEvent (row : ImportRow) : LifecycleEvent :=
  if row.runKind == .probe then
    if row.completeness == some .complete || row.completeness == some .truncated then .probeSuccess
    else .probeFailure
  else .success

def successRun (detail : StageDetail) (now : Int) (run : ScraperRun) : ScraperRun :=
  { run with
    recordsFetched := detail.recordsFetched.getD 0
    recordsValid := detail.recordsValid.getD 0
    listingsUpserted := detail.listingsUpserted.getD 0
    snapshotsAppended := detail.snapshotsAppended.getD 0
    resolverErrors := detail.resolverFailedIds.length
    evaluatorErrors := detail.evaluatorErrors.getD 0
    listingsDelisted := detail.listingsDelisted.getD 0
    status := .success
    finishedAt := some now }

def finalize (answer : Answer) (db : ImportDb) : Except Halt ImportDb := do
  let run ← finalizeRun answer.now db.row.toProviderRun
  match db.row.scraperRun with
  | none => .error .stateMoved
  | some pk =>
    let db := applyOutcome (finalEvent db.row) { db with
      scraperRuns := db.scraperRuns.modify pk (successRun db.row.stageDetail answer.now) }
    .ok { db with row := db.row.saved run }

def failedRun (reason : RejectReason) (message : String) (now : Int) (run : ScraperRun) : ScraperRun :=
  { run with
    status := .failed
    failureClass := some reason.failureClass
    error := (message.take 2000).toString
    finishedAt := some now }

def rejectMessage (reason : RejectReason) (detail : String) : String :=
  if detail = "" then reason.value else reason.value ++ ": " ++ detail

def closeRejected (reason : RejectReason) (detail : String) (now : Int) (run : ProviderRun) (db : ImportDb) :
    ImportDb :=
  { db with
    scraperRuns := match db.row.scraperRun with
      | none => db.scraperRuns
      | some pk => db.scraperRuns.modify pk (failedRun reason (rejectMessage reason detail) now)
    row := { db.row.saved run with
      stageDetail := { db.row.stageDetail with rejectReason := some reason } } }

def reject (onlyFrom : Option ImportState) (reason : RejectReason) (detail : String) (now : Int) (db : ImportDb) :
    ImportDb :=
  match rejectRun onlyFrom now db.row.toProviderRun with
  | none => db
  | some run =>
    let closed := closeRejected reason detail now run db
    if db.row.runKind == .full then
      { applyOutcome reason.failureClass.event closed with breaks := db.breaks ++ [db.row.startTime] }
    else applyOutcome .probeFailure closed

def recordExhaustion (now : Int) (db : ImportDb) : ImportDb :=
  { db with row := { db.row with
    stageDetail := { db.row.stageDetail with retryExhausted := db.row.stageDetail.retryExhausted + 1 }
    nextAttemptAt := some (now + retryExhaustedBackoff) } }

def recordLatchBlock (now : Int) (db : ImportDb) : ImportDb :=
  { db with row := { db.row with
    stageDetail := { db.row.stageDetail with blockedByOverrunLatch := true }
    nextAttemptAt := some (now + latchBlockedBackoff) } }

def stageTurn (db : ImportDb) (answer : Answer) (stage : Except Halt ImportDb) : ImportDb × Executor :=
  if answer.exhausted then (db,.exhausted)
  else match stage with
  | .ok db => (db,.reading)
  | .error halt => (db,haltTo halt)

def turn (caps : ReadCaps) (db : ImportDb) (answer : Answer) : Executor → ImportDb × Executor
  | .begun => (db,if terminalImport db.row.importState then .stopped else .claiming)
  | .claiming => (claim db,.reading)
  | .reading => (db,unitOf db.row)
  | .stage1 row => (db,match stage1Refusal row answer with
    | some (reason,detail) => .rejecting reason detail
    | none => .counting)
  | .counting =>
    match countReads caps.maxDatasetReads caps.maxKvReads answer.latchTripped db.row.toProviderRun with
    | .ok run => ({ db with row := db.row.saved run },.fetching)
    | .error halt => (db,haltTo halt)
  | .fetching => match answer.fetched with
    | none => (db,.stopped)
    | some batch => ({ db with row := db.row.classified batch },.judging batch)
  | .judging batch =>
    (db,if batch.completeness == .failed then .rejecting .failedRun batch.reason else .observing batch)
  | .observing batch => stageTurn db answer (observe batch answer db)
  | .stage2 => (db,.absence db.row)
  | .absence row => stageTurn db answer (applyAbsence row answer db)
  | .stage3 => stageTurn db { answer with exhausted := false } (resolveListings answer db)
  | .stage4 => stageTurn db { answer with exhausted := false } (evaluateListings answer db)
  | .stage5 => stageTurn db { answer with exhausted := false } (finalize answer db)
  | .rejecting reason detail => (reject none reason detail answer.now db,.stopped)
  | .exhausted => (recordExhaustion answer.now db,.stopped)
  | .blocked => (recordLatchBlock answer.now db,.stopped)
  -- the overdue unit reads the state without a lock, and so rejects only from it
  | .overdue => (db,if answer.now < db.row.storageCleanupDueAt ∨ db.row.importState ≠ .pending then .stopped
    else .overdueRejecting)
  | .overdueRejecting => (reject (some .pending) .storageDeadlinePassed "rejected by the overdue storage unit"
    answer.now db,.stopped)
  | .stopped => (db,.stopped)

structure Importing where
  db : ImportDb
  executors : List Executor := []
  deriving DecidableEq

inductive ImportAct where
  | spawned (first : Executor)
  | turned (i : Nat) (answer : Answer)
  | lost (i : Nat)

def Importing.step (caps : ReadCaps) (s : Importing) : ImportAct → Importing
  | .spawned first => { s with executors := s.executors ++ [first] }
  | .turned i answer =>
    match s.executors[i]? with
    | none => s
    | some executor => ⟨(turn caps s.db answer executor).1,s.executors.set i (turn caps s.db answer executor).2⟩
  | .lost i => { s with executors := s.executors.modify i fun _ => .stopped }

def ImportAct.allowed : ImportAct → Prop
  | .spawned first => first = .begun ∨ first = .overdue
  | _ => True

def ImportStep (caps : ReadCaps) (s : Importing) (act : ImportAct) (t : Importing) : Prop :=
  act.allowed ∧ t = s.step caps act

end HwRadar.Apify
