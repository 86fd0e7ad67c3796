import HwRadar.Apify.Settlement

/-! The start job. A run is created and attached to its reservation in one
commit; its one start request is answered, or fails and is never retried. -/
namespace HwRadar.Apify
open HwRadar.Base

structure RunFields where
  sourceSite : Nat
  scopeKey : String
  memoryMb : Nat
  timeoutS : Nat
  maxItems : Nat
  maxPages : Nat
  admissionClass : BudgetClass
  admittedAt : Int
  storageCleanupDueAt : Int
  deriving DecidableEq

def ProviderRun.created (fields : RunFields) : ProviderRun :=
  { sourceSite := fields.sourceSite, scopeKey := fields.scopeKey, memoryMb := fields.memoryMb,
    timeoutS := fields.timeoutS, maxItems := fields.maxItems, maxPages := fields.maxPages,
    admissionClass := fields.admissionClass, admittedAt := fields.admittedAt,
    storageCleanupDueAt := fields.storageCleanupDueAt }

def createRun (fields : RunFields) (reservation : Option Nat) (l : Ledger) : Except Fault (Ledger × Nat) :=
  let pk := l.runs.length
  let l := { l with runs := l.runs ++ [ProviderRun.created fields] }
  match reservation with
  | none => .ok (l,pk)
  | some id =>
    match l.reservations[id]? with
    | none => .error (.refused "reservation_not_open" s!"reservation {id} is not open and unattached")
    | some row =>
      if row.status = .reserved ∧ row.providerRun = none then do
        let l ← l.saveReservation id { row with providerRun := some pk }
        .ok (l,pk)
      else .error (.refused "reservation_not_open" s!"reservation {id} is not open and unattached")

def recordStartError (pk : Nat) (error : StartError) (l : Ledger) : Except Fault Ledger := do
  let row ← l.lockRun pk
  .ok (l.saveRun pk { row with startError := some error })

structure RemoteRun where
  id : String
  status : String
  startedAt : Option Int
  finishedAt : Option Int
  defaultDatasetId : Option String
  defaultKeyValueStoreId : Option String
  deriving DecidableEq

def terminalStatus (status : Option String) : Bool := status.any terminalRunStatuses.contains

def applyRunFields (row : ProviderRun) (run : RemoteRun) (observedAt : Int) : ProviderRun :=
  if terminalStatus row.remoteStatus && !terminalRunStatuses.contains run.status then row
  else { row with
    remoteStatus := some run.status
    remoteTerminalAt := if terminalRunStatuses.contains run.status && row.remoteTerminalAt.isNone
      then some observedAt else row.remoteTerminalAt
    startedAt := run.startedAt.or row.startedAt
    finishedAt := run.finishedAt.or row.finishedAt }

def startedRow (row : ProviderRun) (run : RemoteRun) (mismatches : List String) (now : Int) : ProviderRun :=
  let row := applyRunFields { row with
    externalRunId := some run.id
    datasetId := run.defaultDatasetId
    kvStoreId := run.defaultKeyValueStoreId } run now
  if mismatches.isEmpty then row
  else { row with
    startMismatch := mismatches
    storageCleanupAttempts := row.storageCleanupAttempts + 1 }

def recordStart (pk : Nat) (run : RemoteRun) (mismatches : List String) (now : Int) (l : Ledger) :
    Except Fault Ledger := do
  let row ← l.lockRun pk
  .ok (l.saveRun pk (startedRow row run mismatches now))

def filledId (recorded answered : Option String) : Option String :=
  if recorded.all (· == "") then answered else recorded

def observedRow (row : ProviderRun) (run : RemoteRun) (observedAt : Int) : ProviderRun :=
  let row := applyRunFields row run observedAt
  { row with
    datasetId := filledId row.datasetId run.defaultDatasetId
    kvStoreId := filledId row.kvStoreId run.defaultKeyValueStoreId }

def recordObservation (pk : Nat) (run : RemoteRun) (observedAt : Int) (l : Ledger) : Except Fault Ledger := do
  let row ← l.lockRun pk
  .ok (l.saveRun pk (observedRow row run observedAt))

def StartError.refusal (error : StartError) : Bool := error.statusCode == some 402

end HwRadar.Apify
