import HwRadar.Apify.Cleanup

/-! The staged import of one terminal run. Every stage commits by a
compare-and-set on the locked row; a rejection and the last stage are outcome
transactions. What a stage does to the market tables is kept as a log. -/
namespace HwRadar.Apify
open HwRadar.Base HwRadar.Base.Calendar

inductive RejectReason where
  | failedRun | invalidContract | unknownRetention | storageDeadlinePassed | contentPastTtl
  | readCapExhausted | startOptionMismatch
  deriving DecidableEq, Repr

def RejectReason.value : RejectReason → String
  | .failedRun => "failed_run"
  | .invalidContract => "invalid_contract"
  | .unknownRetention => "unknown_retention"
  | .storageDeadlinePassed => "storage_deadline_passed"
  | .contentPastTtl => "content_past_ttl"
  | .readCapExhausted => "read_cap_exhausted"
  | .startOptionMismatch => "start_option_mismatch"

inductive RunFailureClass where
  | transient | antiBot | parserRot | degradation | unknown
  deriving DecidableEq, Repr

inductive LifecycleEvent where
  | success | transientFailure | antiBot | parserRot | degradation | unknownFailure
  | probeSuccess | probeFailure | manualSkip | manualReactivate
  deriving DecidableEq, Repr

/-- `REJECT_FAILURE_CLASS`. -/
def RejectReason.failureClass : RejectReason → RunFailureClass
  | .failedRun | .invalidContract => .parserRot
  | .unknownRetention | .startOptionMismatch => .unknown
  | .storageDeadlinePassed | .contentPastTtl | .readCapExhausted => .transient

/-- `_EVENT_BY_CLASS`. -/
def RunFailureClass.event : RunFailureClass → LifecycleEvent
  | .transient => .transientFailure
  | .antiBot => .antiBot
  | .parserRot => .parserRot
  | .degradation => .degradation
  | .unknown => .unknownFailure

inductive RunKind where
  | full | heartbeat | reference | probe
  deriving DecidableEq, Repr

inductive RunCompleteness where
  | complete | truncated | partialFailure | failed
  deriving DecidableEq, Repr

inductive RunStatus where
  | running | success | failed
  deriving DecidableEq, Repr

inductive Halt where
  | stateMoved
  | rejected (reason : RejectReason) (detail : String)
  | latchBlocked
  deriving DecidableEq, Repr

def lockAt (expected : ImportState) (row : ProviderRun) : Except Halt ProviderRun :=
  if row.importState = expected then .ok row else .error .stateMoved

def claimRun (created : Nat) (row : ProviderRun) : ProviderRun :=
  if terminalImport row.importState then row
  else { row with
    scraperRun := row.scraperRun.or (some created)
    importAttempts := row.importAttempts + 1 }

def countReads (maxDataset maxKv : Int) (latchTripped : Bool) (row : ProviderRun) : Except Halt ProviderRun := do
  let row ← lockAt .pending row
  if maxDataset ≤ row.datasetReadCount ∨ maxKv ≤ row.kvReadCount then
    .error (.rejected .readCapExhausted
      s!"dataset reads {row.datasetReadCount}/{maxDataset}, kv reads {row.kvReadCount}/{maxKv}")
  else if decide (1 ≤ row.datasetReadCount) && latchTripped then .error .latchBlocked
  else .ok { row with
    datasetReadCount := row.datasetReadCount + 1
    kvReadCount := row.kvReadCount + 1 }

def advanceRun (expected dest : ImportState) (row : ProviderRun) : Except Halt ProviderRun := do
  let row ← lockAt expected row
  .ok { row with importState := dest }

def observeRun (now : Int) (row : ProviderRun) : Except Halt ProviderRun := do
  let row ← lockAt .pending row
  if row.storageCleanupDueAt ≤ now then .error (.rejected .storageDeadlinePassed "passed during stage 1")
  else .ok { row with importState := .observationsCommitted }

def finalizeRun (now : Int) (row : ProviderRun) : Except Halt ProviderRun := do
  let row ← lockAt .evaluated row
  .ok (stampWorkCompletion { row with importState := .finalized } now)

def rejectRun (onlyFrom : Option ImportState) (now : Int) (row : ProviderRun) : Option ProviderRun :=
  if terminalImport row.importState then none
  else if onlyFrom.any (· != row.importState) then none
  else some (stampWorkCompletion { row with importState := .rejected } now)

theorem stampImport (row : ProviderRun) (now : Int) :
    (stampWorkCompletion row now).importState = row.importState ∧
    (stampWorkCompletion row now).scraperRun = row.scraperRun := by
  unfold stampWorkCompletion
  split <;> exact ⟨rfl,rfl⟩

theorem lockAtOk {expected : ImportState} {row locked : ProviderRun} (ok : lockAt expected row = .ok locked) :
    row.importState = expected ∧ locked = row := by
  unfold lockAt at ok
  split at ok
  · exact ⟨by assumption,(Except.ok.inj ok).symm⟩
  · cases ok

theorem countReadsOk {maxDataset maxKv : Int} {latch : Bool} {row counted : ProviderRun}
    (ok : countReads maxDataset maxKv latch row = .ok counted) :
    row.importState = .pending ∧ (row.datasetReadCount : Int) < maxDataset ∧ (row.kvReadCount : Int) < maxKv ∧
    counted = { row with datasetReadCount := row.datasetReadCount + 1, kvReadCount := row.kvReadCount + 1 } := by
  obtain ⟨locked,held,done⟩ := bindOk.mp ok
  obtain ⟨pending,rfl⟩ := lockAtOk held
  split at done
  · cases done
  rename_i room
  rw [not_or,not_le,not_le] at room
  split at done
  · cases done
  exact ⟨pending,room.1,room.2,(Except.ok.inj done).symm⟩

theorem advanceRunOk {expected dest : ImportState} {row moved : ProviderRun}
    (ok : advanceRun expected dest row = .ok moved) :
    row.importState = expected ∧ moved = { row with importState := dest } := by
  obtain ⟨locked,held,done⟩ := bindOk.mp ok
  obtain ⟨here,rfl⟩ := lockAtOk held
  exact ⟨here,(Except.ok.inj done).symm⟩

theorem observeRunOk {now : Int} {row moved : ProviderRun} (ok : observeRun now row = .ok moved) :
    row.importState = .pending ∧ moved = { row with importState := .observationsCommitted } := by
  obtain ⟨locked,held,done⟩ := bindOk.mp ok
  obtain ⟨pending,rfl⟩ := lockAtOk held
  split at done
  · cases done
  exact ⟨pending,(Except.ok.inj done).symm⟩

theorem finalizeRunOk {now : Int} {row moved : ProviderRun} (ok : finalizeRun now row = .ok moved) :
    row.importState = .evaluated ∧ moved = stampWorkCompletion { row with importState := .finalized } now := by
  obtain ⟨locked,held,done⟩ := bindOk.mp ok
  obtain ⟨here,rfl⟩ := lockAtOk held
  exact ⟨here,(Except.ok.inj done).symm⟩

theorem rejectRunSome {onlyFrom : Option ImportState} {now : Int} {row moved : ProviderRun}
    (rejects : rejectRun onlyFrom now row = some moved) :
    terminalImport row.importState = false ∧ (∀ state, onlyFrom = some state → row.importState = state) ∧
    moved = stampWorkCompletion { row with importState := .rejected } now := by
  unfold rejectRun at rejects
  split at rejects
  · cases rejects
  rename_i running
  split at rejects
  · cases rejects
  rename_i allowed
  refine ⟨by simpa using running,fun state same => ?_,(Option.some.inj rejects).symm⟩
  rw [same] at allowed
  simp only [Option.any_some,bne_iff_ne,ne_eq,not_not] at allowed
  exact allowed.symm

end HwRadar.Apify
