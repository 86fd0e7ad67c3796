import HwRadar.Apify.Starts

/-! Remote storage cleanup. An attempt is counted and committed before its first
call; at the attempt cap the row is left `delete_failed` with a trip in the same
commit. A trip that was never recorded is found again from the rows. -/
namespace HwRadar.Apify
open HwRadar.Base HwRadar.Base.Calendar

def unitBackoffBase : Int := minutes 1
def unitBackoffMax : Int := hours 1

structure CleanupAttempt where
  runId : String
  observedTerminal : Bool
  pending : List Storage
  deriving DecidableEq

def allStorages : List Storage := [.dataset,.kvStore]

section
variable (cap : Int) (version : String) (now : Int)

def markDeleteFailed (pk : Nat) (row : ProviderRun) (l : Ledger) : Ledger :=
  (tripLatchLocked .deleteAttemptsExhausted (some pk) version now
    (l.saveRun pk { row with storageState := .deleteFailed })).1

/-- `_begin`: spend one attempt, or mark the row. -/
def beginAttempt (pk : Nat) (overdue : Bool) (l : Ledger) : Except Fault (Ledger × Option CleanupAttempt) := do
  let row ← l.lockRun pk
  if row.storageState = .deleted ∨ row.orphanedStartAt ≠ none then .ok (l,none)
  else match row.externalRunId with
  | none =>
    if overdue then
      .ok ((tripLatchLocked .orphanedStart (some pk) version now
        (l.saveRun pk { row with orphanedStartAt := some now })).1,none)
    else .ok (l,none)
  | some runId =>
    if !overdue && !terminalStatus row.remoteStatus then .ok (l,none)
    else if cap ≤ row.storageCleanupAttempts then .ok (markDeleteFailed version now pk row l,none)
    else .ok (l.saveRun pk { row with storageCleanupAttempts := row.storageCleanupAttempts + 1 },
      some ⟨runId,terminalStatus row.remoteStatus,allStorages.filter fun s => !row.storageVerified.contains s⟩)

def retryDelay (attempts : Nat) : Int := min (unitBackoffBase * 2 ^ (attempts - 1)) unitBackoffMax

def attemptedRow (row : ProviderRun) (deleted : List Storage) (errors : List String) : ProviderRun :=
  let row := { row with storageVerified := row.storageVerified ++ deleted }
  if allStorages.all row.storageVerified.contains then
    stampWorkCompletion { row with
      cleanupErrors := []
      storageState := .deleted
      storageDeletedAt := some now } now
  else { row with
    cleanupErrors := errors
    nextAttemptAt := some (now + retryDelay row.storageCleanupAttempts) }

/-- `_finish`: record the outcome, and mark a failed final attempt. -/
def finishAttempt (pk : Nat) (deleted : List Storage) (errors : List String) (l : Ledger) : Except Fault Ledger := do
  let row ← l.lockRun pk
  let row := attemptedRow now row deleted errors
  let l := l.saveRun pk row
  if row.storageState ≠ .deleted ∧ cap ≤ row.storageCleanupAttempts then
    .ok (markDeleteFailed version now pk row l)
  else .ok l

def untripped (l : Ledger) (reason : LatchReason) (pk : Nat) : Bool :=
  !l.latches.any fun trip => trip.matches reason (some pk)

def strandedOrphans (l : Ledger) : List Nat :=
  (l.runs.zipIdx.filter fun entry =>
    entry.1.orphanedStartAt.isSome && untripped l .orphanedStart entry.2).map Prod.snd

def strandedExhausted (l : Ledger) : List Nat :=
  (l.runs.zipIdx.filter fun entry =>
    (entry.1.storageState == .deleteFailed ||
      (entry.1.storageState != .deleted && decide (cap ≤ entry.1.storageCleanupAttempts) &&
        entry.1.orphanedStartAt.isNone)) &&
    untripped l .deleteAttemptsExhausted entry.2).map Prod.snd

def tripOrphan (l : Ledger) (pk : Nat) : Ledger := (tripLatchLocked .orphanedStart (some pk) version now l).1

def markExhausted (l : Ledger) (pk : Nat) : Ledger :=
  match l.runs[pk]? with
  | none => l
  | some row => markDeleteFailed version now pk row l

def tripStrandedLatches (l : Ledger) : Ledger × List Nat :=
  let orphans := strandedOrphans l
  let l := orphans.foldl (tripOrphan version now) l
  let exhausted := strandedExhausted cap l
  let l := exhausted.foldl (markExhausted version now) l
  let (l,refused) := tripStrandedStartRefusalsLocked version now l
  (l,orphans ++ exhausted ++ refused)
end

def due (now : Int) (row : ProviderRun) : Bool := row.nextAttemptAt.all fun at_ => at_ ≤ now

def storageWorkLeft (maxDeleteAttempts : Int) (row : ProviderRun) : Bool :=
  row.storageState != .deleted && decide ((row.storageCleanupAttempts : Int) < maxDeleteAttempts) &&
    row.orphanedStartAt.isNone

def selectOverdue (maxDeleteAttempts now : Int) (l : Ledger) : List Nat :=
  (l.runs.zipIdx.filter fun entry => due now entry.1 && storageWorkLeft maxDeleteAttempts entry.1 &&
    entry.1.storageCleanupDueAt ≤ now).map Prod.snd

theorem memOverdue {maxDeleteAttempts now : Int} {l : Ledger} {pk : Nat} : pk ∈ selectOverdue maxDeleteAttempts now l ↔
    ∃ row, l.runs[pk]? = some row ∧
      (due now row && storageWorkLeft maxDeleteAttempts row && row.storageCleanupDueAt ≤ now) = true := by
  simp only [selectOverdue,List.mem_map,List.mem_filter,Prod.exists,exists_eq_right,List.mem_zipIdx_iff_getElem?]

end HwRadar.Apify
