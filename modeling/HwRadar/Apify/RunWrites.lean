import HwRadar.Apify.Environment
import HwRadar.Apify.Imports

/-! What one transaction may do to the row of a run. The importer, the poll and the
cleanup units write it side by side; each of them is one case here, and an orphan
or a spent cleanup is marked together with its trip. -/
namespace HwRadar.Apify
open HwRadar.Base HwRadar.Base.Tables

inductive Writer where
  | claim (created : Nat)
  | countReads (maxDataset maxKv : Int) (latchTripped : Bool)
  | observe
  | applyAbsence
  | resolve
  | evaluate
  | finalize
  | reject (onlyFrom : Option ImportState)
  | countPoll (cap : Int)
  | backOff (nextAttemptAt : Int)
  deriving DecidableEq

def countPoll (cap : Int) (row : ProviderRun) : Option ProviderRun :=
  if row.externalRunId = none ∨ terminalStatus row.remoteStatus = true ∨ cap ≤ row.runPollCount then none
  else some { row with runPollCount := row.runPollCount + 1 }

def orKept (row : ProviderRun) : Except Halt ProviderRun → ProviderRun
  | .ok moved => moved
  | .error _ => row

def Writer.write (now : Int) (row : ProviderRun) : Writer → ProviderRun
  | .claim created => claimRun created row
  | .countReads maxDataset maxKv latch => orKept row (Apify.countReads maxDataset maxKv latch row)
  | .observe => orKept row (observeRun now row)
  | .applyAbsence => orKept row (advanceRun .observationsCommitted .absenceApplied row)
  | .resolve => orKept row (advanceRun .absenceApplied .resolved row)
  | .evaluate => orKept row (advanceRun .resolved .evaluated row)
  | .finalize => orKept row (finalizeRun now row)
  | .reject onlyFrom => (rejectRun onlyFrom now row).getD row
  | .countPoll cap => (Apify.countPoll cap row).getD row
  | .backOff nextAttemptAt => { row with nextAttemptAt := some nextAttemptAt }

def Event.written (now : Int) : Event → Prop
  | .work (.runChanged _ change) => ∃ writer : Writer, change = fun row => writer.write now row
  | _ => True

inductive RunMove (now : Int) (event : Event) (l' : Ledger) (key : Nat) (a : ProviderRun) :
    ProviderRun → Prop where
  | same : RunMove now event l' key a a
  | observed (run : RemoteRun) : RunMove now event l' key a (observedRow a run now)
  | started (run : RemoteRun) (mismatches : List String) (answered : event = .startAnswered key run mismatches) :
      RunMove now event l' key a (startedRow a run mismatches now)
  | startFailed (error : StartError) : RunMove now event l' key a { a with startError := some error }
  | orphaned (retained : a.storageState ≠ .deleted) (unnamed : a.externalRunId = none)
      (tripped : l'.openTrip .orphanedStart (some key)) :
      RunMove now event l' key a { a with orphanedStartAt := some now }
  | marked (retained : a.storageState ≠ .deleted) (tripped : l'.openTrip .deleteAttemptsExhausted (some key)) :
      RunMove now event l' key a { a with storageState := .deleteFailed }
  | attempted (cap : Int) (retained : a.storageState ≠ .deleted) (named : a.externalRunId ≠ none)
      (room : (a.storageCleanupAttempts : Int) < cap) :
      RunMove now event l' key a { a with storageCleanupAttempts := a.storageCleanupAttempts + 1 }
  | finished (cap : Int) (deleted : List Storage) (errors : List String)
      (finishing : event = .work (.finishAttempt key cap deleted errors)) :
      RunMove now event l' key a (attemptedRow now a deleted errors)
  | exhausted (cap : Int) (deleted : List Storage) (errors : List String)
      (finishing : event = .work (.finishAttempt key cap deleted errors))
      (retained : (attemptedRow now a deleted errors).storageState ≠ .deleted)
      (tripped : l'.openTrip .deleteAttemptsExhausted (some key)) :
      RunMove now event l' key a { attemptedRow now a deleted errors with storageState := .deleteFailed }
  | deferred (next : Option Int) : RunMove now event l' key a { a with nextAttemptAt := next }
  | polled (next : Option Int) :
      RunMove now event l' key a { a with runPollCount := a.runPollCount + 1, nextAttemptAt := next }
  | monitored : RunMove now event l' key a { a with correctionReadCount := a.correctionReadCount + 1 }
  | written (writer : Writer) : RunMove now event l' key a (changedRun a (fun row => writer.write now row))

structure Reading (now : Int) (l l' : Ledger) : Prop where
  runs : l'.runs = l.runs
  reads : ∃ added, l'.usageReads = l.usageReads ++ added ∧ ∀ read ∈ added, read.readAt = now

theorem Reading.same {now : Int} {l l' : Ledger} (runs : l'.runs = l.runs) (reads : l'.usageReads = l.usageReads) :
    Reading now l l' :=
  ⟨runs,[],by simp [reads],nofun⟩

theorem Reading.refl (now : Int) (l : Ledger) : Reading now l l := .same rfl rfl

theorem Reading.trans {now : Int} {a b c : Ledger} (first : Reading now a b) (second : Reading now b c) :
    Reading now a c := by
  obtain ⟨x,readsX,atX⟩ := first.reads
  obtain ⟨y,readsY,atY⟩ := second.reads
  refine ⟨second.runs.trans first.runs,x ++ y,by rw [readsY,readsX,List.append_assoc],fun read mem => ?_⟩
  rcases List.mem_append.mp mem with old | new
  · exact atX read old
  · exact atY read new

theorem latchReading {now : Int} {l l' : Ledger} (only : LatchOnly l l') : Reading now l l' :=
  .same only.runs only.usageReads

theorem cycleReading {now : Int} {l l' : Ledger} (only : CycleOnly l l') : Reading now l l' :=
  .same only.runs only.usageReads

structure RunsMoved (now : Int) (event : Event) (l l' : Ledger) : Prop where
  rows : ∀ pk a, l.runs[pk]? = some a → ∃ b, l'.runs[pk]? = some b ∧ RunMove now event l' pk a b
  added : l'.runs.length = l.runs.length ∨
    ∃ fields, l'.runs = l.runs ++ [ProviderRun.created fields]
  reads : ∃ added, l'.usageReads = l.usageReads ++ added ∧ ∀ read ∈ added, read.readAt = now

theorem RunsMoved.kept {now : Int} {event : Event} {l l' : Ledger} (kept : Reading now l l') :
    RunsMoved now event l l' :=
  ⟨fun _ a here => ⟨a,kept.runs ▸ here,.same⟩,.inl (congrArg List.length kept.runs),kept.reads⟩

theorem RunsMoved.set {now : Int} {event : Event} {l l' : Ledger} {pk : Nat} {a b : ProviderRun}
    (here : l.runs[pk]? = some a)
    (saved : l'.runs = l.runs.set pk b) (reads : l'.usageReads = l.usageReads) (move : RunMove now event l' pk a b) :
    RunsMoved now event l l' := by
  refine ⟨fun q row there => ?_,.inl (by rw [saved,List.length_set]),[],by simp [reads],nofun⟩
  rw [saved]
  by_cases same : pk = q
  · subst same
    cases Option.some.inj (here.symm.trans there)
    exact ⟨b,List.getElem?_set_self (List.getElem?_eq_some_iff.mp here).1,move⟩
  · exact ⟨row,by rw [List.getElem?_set_ne same]; exact there,.same⟩

section
variable {now : Int} {config : LedgerConfig} {l l' : Ledger} {pk : Nat}

theorem tripWhenReading (condition : Bool) (reason : LatchReason) (run : Option Nat) (config : LedgerConfig)
    (now : Int) (l : Ledger) : Reading now l (tripWhen condition reason run config now l) := by
  unfold tripWhen
  split
  · exact latchReading (tripOnly _ _ _ _ l)
  · exact .refl now _

theorem saveRunRuns {m : Ledger} (runs : m.runs = l.runs) (pk : Nat) (row : ProviderRun) :
    (m.saveRun pk row).runs = l.runs.set pk row := by
  rw [← runs]
  rfl

theorem saveReservationReading {row : Reservation} (ok : l.saveReservation pk row = .ok l') : Reading now l l' := by
  obtain ⟨_,_,_,_,runs,reads,_⟩ := saveReservationOk ok
  exact .same runs reads

theorem appendReadReading {resv : Reservation} {run : Option Nat} {u : ApifyUsage} {finishedAt : Option Int}
    {read : Nat} (ok : appendRead pk resv run now u finishedAt config l = .ok (l',read)) : Reading now l l' := by
  unfold appendRead at ok
  split at ok
  · cases ok
  split at ok
  · cases ok
  cases Except.ok.inj ok
  refine ⟨rfl,_,rfl,fun read mem => ?_⟩
  rw [List.mem_singleton.mp mem]

theorem trySettleReading {resv : Reservation} {run : Option (ProviderRun × Nat)} {settled : Bool}
    (ok : trySettle pk resv run now config l = .ok (l',settled)) :
    l'.runs = l.runs ∧ l'.usageReads = l.usageReads := by
  unfold trySettle at ok
  split at ok
  · cases Except.ok.inj ok; exact ⟨rfl,rfl⟩
  · obtain ⟨m,save,done⟩ := bindOk.mp ok
    cases Except.ok.inj done
    obtain ⟨_,_,_,_,runs,reads,_⟩ := saveReservationOk save
    have only : ∀ condition reason run, LatchOnly m (tripWhen condition reason run config now m) := by
      intro condition reason run
      unfold tripWhen
      split
      · exact tripOnly _ _ _ _ m
      · exact .refl m
    exact ⟨(only _ _ _).runs.trans runs,(only _ _ _).usageReads.trans reads⟩

theorem applyReadReading {resv : Reservation} {run : Option (ProviderRun × Nat)} {u : ApifyUsage}
    {finishedAt : Option Int} {settled : Bool}
    (ok : applyRead pk resv run now u finishedAt config l = .ok (l',settled)) : Reading now l l' := by
  obtain ⟨⟨m,read⟩,appended,ok⟩ := bindOk.mp ok
  obtain ⟨n,save,tried⟩ := bindOk.mp ok
  obtain ⟨runs,reads⟩ := trySettleReading tried
  exact (appendReadReading appended).trans ((saveReservationReading save).trans (.same runs reads))

theorem recordRunUsageReading {run : ApifyRun} {settled : Bool}
    (ok : recordRunUsage pk run now config l = .ok (l',settled)) : Reading now l l' := by
  obtain ⟨locked,_,ok⟩ := bindOk.mp ok
  have tripped := (tripWhenReading (!(unexpectedComponents run.toApifyUsage).isEmpty) .unexpectedUsageComponent
    (some pk) config now l).trans (tripWhenReading (run.restartCount.any fun n => n != 0) .startOptionMismatch
      (some pk) config now _)
  simp only at ok
  split at ok
  · cases Except.ok.inj ok; exact tripped
  split at ok
  · exact tripped.trans (applyReadReading ok)
  · cases Except.ok.inj ok; exact tripped

theorem planSettlementReadRuns {remote : Option String} (ok : planSettlementRead pk now config l = .ok (l',remote)) :
    l'.usageReads = l.usageReads ∧ ∃ a, l.runs[pk]? = some a ∧
      ((remote = none ∧ (l'.runs = l.runs ∨ ∃ next, l'.runs = l.runs.set pk { a with nextAttemptAt := next })) ∨
      (remote ≠ none ∧ a.externalRunId = remote ∧
        (∃ cap, config.budget.maxRunPolls = some cap ∧ (a.runPollCount : Int) < cap) ∧
        ∃ next, l'.runs = l.runs.set pk { a with runPollCount := a.runPollCount + 1, nextAttemptAt := next })) := by
  obtain ⟨run,locked,ok⟩ := bindOk.mp ok
  have here := lockRunOk locked
  split at ok
  · cases Except.ok.inj ok; exact ⟨rfl,run,here,.inl ⟨rfl,.inl rfl⟩⟩
  split at ok
  · cases Except.ok.inj ok; exact ⟨rfl,run,here,.inl ⟨rfl,.inl rfl⟩⟩
  obtain ⟨⟨m,settled⟩,tried,planned⟩ := bindOk.mp ok
  obtain ⟨runs,reads⟩ := trySettleReading tried
  simp only at planned
  split at planned
  · cases Except.ok.inj planned; exact ⟨reads,run,here,.inl ⟨rfl,.inl runs⟩⟩
  split at planned
  · rename_i remoteId named
    split at planned
    · cases Except.ok.inj planned; exact ⟨reads,run,here,.inl ⟨rfl,.inl runs⟩⟩
    split at planned
    · cases Except.ok.inj planned
      exact ⟨reads,run,here,.inl ⟨rfl,.inr ⟨_,saveRunRuns runs pk _⟩⟩⟩
    split at planned
    · cases Except.ok.inj planned; exact ⟨reads,run,here,.inl ⟨rfl,.inl runs⟩⟩
    · rename_i room
      cases Except.ok.inj planned
      refine ⟨reads,run,here,.inr ⟨by simp,named,?_,_,saveRunRuns runs pk _⟩⟩
      cases cap : config.budget.maxRunPolls with
      | none => simp [cap] at room
      | some cap' => exact ⟨cap',rfl,by simpa [cap] using room⟩
  · cases Except.ok.inj planned; exact ⟨reads,run,here,.inl ⟨rfl,.inl runs⟩⟩

theorem bindBuildReading {buildId : String} {bound : Bool} (ok : bindBuild pk buildId now l = .ok (l',bound)) :
    Reading now l l' := by
  unfold bindBuild at ok
  simp only at ok
  split at ok
  · cases ok
  split at ok
  · cases ok
  split at ok
  · cases ok
  split at ok
  · split at ok
    · cases Except.ok.inj ok; exact .refl now _
    · cases ok
  split at ok
  · cases ok
  split at ok
  · cases ok
  obtain ⟨m,save,done⟩ := bindOk.mp ok
  cases Except.ok.inj done
  exact saveReservationReading save

theorem planBuildReadReading {remote : Option String} (ok : planBuildRead pk now config l = .ok (l',remote)) :
    Reading now l l' := by
  obtain ⟨resv,locked,ok⟩ := bindOk.mp ok
  split at ok
  · cases Except.ok.inj ok; exact .refl now _
  split at ok
  · cases Except.ok.inj ok; exact .refl now _
  obtain ⟨⟨m,settled⟩,tried,planned⟩ := bindOk.mp ok
  obtain ⟨runs,reads⟩ := trySettleReading tried
  simp only at planned
  split at planned
  · cases Except.ok.inj planned; exact .same runs reads
  split at planned
  · cases Except.ok.inj planned; exact .same runs reads
  obtain ⟨n,save,done⟩ := bindOk.mp planned
  cases Except.ok.inj done
  exact Reading.trans (.same runs reads) (saveReservationReading save)

theorem recordBuildUsageReading {build : ApifyBuild} {settled : Bool}
    (ok : recordBuildUsage pk build now config l = .ok (l',settled)) : Reading now l l' := by
  obtain ⟨resv,locked,ok⟩ := bindOk.mp ok
  have tripped := tripWhenReading (!(unexpectedComponents build.toApifyUsage).isEmpty) .unexpectedUsageComponent none
    config now l
  simp only at ok
  split at ok
  · exact tripped.trans (applyReadReading ok)
  · cases Except.ok.inj ok; exact tripped

theorem foldSavedReading {f : Reservation → Reservation} {pks : List Nat}
    (ok : pks.foldlM (fun l pk => do
      let row ← Ledger.lockReservation l pk
      Ledger.saveReservation l pk (f row)) l = .ok l') : Reading now l l' := by
  induction pks generalizing l with
  | nil => cases Except.ok.inj ok; exact .refl now _
  | cons pk rest ih =>
    rw [List.foldlM_cons] at ok
    obtain ⟨m,saved,ok⟩ := bindOk.mp ok
    obtain ⟨row,_,save⟩ := bindOk.mp saved
    exact (saveReservationReading save).trans (ih ok)

theorem releaseReading {graceS : Option Int} {pks : List Nat}
    (ok : releaseUnattachedReservations now graceS l = .ok (l',pks)) : Reading now l l' := by
  unfold releaseUnattachedReservations at ok
  split at ok
  · cases Except.ok.inj ok; exact .refl now _
  split at ok
  · cases Except.ok.inj ok; exact .refl now _
  obtain ⟨m,folded,same⟩ := mapOk ok
  cases same
  exact foldSavedReading folded

theorem settleOperatorReading {dataset : Option String} {verified : Bool}
    (ok : settleOperator pk now dataset verified l = .ok l') : Reading now l l' := by
  unfold settleOperator at ok
  split at ok
  · cases ok
  split at ok
  · cases ok
  split at ok
  · cases ok
  split at ok
  · cases ok
  simp only at ok
  split at ok
  · cases ok
  exact saveReservationReading ok

theorem beginMonitoringReadRuns {call : Option MonitorCall} (ok : beginMonitoringRead pk now config l = .ok (l',call)) :
    l'.usageReads = l.usageReads ∧ (l'.runs = l.runs ∨ ∃ q a, l.runs[q]? = some a ∧
      l'.runs = l.runs.set q { a with correctionReadCount := a.correctionReadCount + 1 }) := by
  obtain ⟨resv,locked,ok⟩ := bindOk.mp ok
  simp only at ok
  split at ok
  · cases Except.ok.inj ok; exact ⟨rfl,.inl rfl⟩
  split at ok
  · rename_i run runPk found
    split at ok
    · cases Except.ok.inj ok; exact ⟨rfl,.inl rfl⟩
    obtain ⟨m,save,done⟩ := bindOk.mp ok
    cases Except.ok.inj done
    obtain ⟨_,_,_,_,runs,reads,_⟩ := saveReservationOk save
    exact ⟨reads,.inr ⟨runPk,run,(lockedRunSome found).2,runs⟩⟩
  · split at ok
    · cases Except.ok.inj ok; exact ⟨rfl,.inl rfl⟩
    obtain ⟨m,save,done⟩ := bindOk.mp ok
    cases Except.ok.inj done
    obtain ⟨_,_,_,_,runs,reads,_⟩ := saveReservationOk save
    exact ⟨reads,.inl runs⟩

theorem latchOnResultReading (result : Option MonitorResult) (run : Option Nat) (config : LedgerConfig) (now : Int)
    (l : Ledger) : Reading now l (latchOnResult result run config now l) := by
  unfold latchOnResult
  split
  · exact .refl now _
  split
  · exact latchReading (tripOnly _ _ _ _ l)
  · exact tripWhenReading _ _ _ _ _ l

theorem applyCorrectionReading {stored : Reservation} {figure : Nat} {run : Option Nat}
    (ok : applyCorrection pk stored figure now config run l = .ok l') : Reading now l l' := by
  unfold applyCorrection at ok
  split at ok
  · cases Except.ok.inj ok; exact .refl now _
  · obtain ⟨m,save,done⟩ := bindOk.mp ok
    cases Except.ok.inj done
    exact (saveReservationReading save).trans
      ((tripWhenReading _ _ _ _ _ m).trans (tripWhenReading _ _ _ _ _ _))

theorem completeMonitoringReadReading {result : Option MonitorResult} {closed : Bool}
    (ok : completeMonitoringRead pk result now config l = .ok (l',closed)) : Reading now l l' := by
  obtain ⟨resv,locked,ok⟩ := bindOk.mp ok
  have latched := latchOnResultReading result ((lockedRun l resv).map Prod.snd) config now l
  simp only at ok
  split at ok
  · split at ok
    · obtain ⟨m,save,done⟩ := bindOk.mp ok
      cases Except.ok.inj done
      exact latched.trans (saveReservationReading save)
    · obtain ⟨⟨m,read⟩,appended,ok⟩ := bindOk.mp ok
      obtain ⟨n,corrected,ok⟩ := bindOk.mp ok
      obtain ⟨o,save,done⟩ := bindOk.mp ok
      cases Except.ok.inj done
      exact latched.trans ((appendReadReading appended).trans
        ((applyCorrectionReading corrected).trans (saveReservationReading save)))
  · cases ok

theorem resolveStaleReading {processStartedAt : Int} {count : Nat}
    (ok : resolveStaleMonitoringMarkers processStartedAt l = .ok (l',count)) : Reading now l l' := by
  obtain ⟨m,folded,same⟩ := mapOk ok
  cases same
  exact foldSavedReading folded
end

inductive AttemptBegun (cap : Int) (version : String) (now : Int) (pk : Nat) (l : Ledger) :
    Ledger → Option CleanupAttempt → Prop where
  | nothing : AttemptBegun cap version now pk l l none
  | orphaned {row} (here : l.runs[pk]? = some row) (retained : row.storageState ≠ .deleted)
      (unnamed : row.externalRunId = none) :
      AttemptBegun cap version now pk l (tripLatchLocked .orphanedStart (some pk) version now
        (l.saveRun pk { row with orphanedStartAt := some now })).1 none
  | exhausted {row} (here : l.runs[pk]? = some row) (retained : row.storageState ≠ .deleted) :
      AttemptBegun cap version now pk l (markDeleteFailed version now pk row l) none
  | counted {row attempt} (here : l.runs[pk]? = some row) (retained : row.storageState ≠ .deleted)
      (named : row.externalRunId ≠ none) (room : (row.storageCleanupAttempts : Int) < cap) :
      AttemptBegun cap version now pk l
        (l.saveRun pk { row with storageCleanupAttempts := row.storageCleanupAttempts + 1 }) (some attempt)

section
variable {cap now : Int} {version : String} {pk : Nat} {l l' : Ledger} {event : Event}

theorem beginAttemptBegun {overdue : Bool} {attempt : Option CleanupAttempt}
    (ok : beginAttempt cap version now pk overdue l = .ok (l',attempt)) :
    AttemptBegun cap version now pk l l' attempt := by
  obtain ⟨row,locked,ok⟩ := bindOk.mp ok
  have here := lockRunOk locked
  split at ok
  · cases Except.ok.inj ok; exact .nothing
  rename_i live
  have retained : row.storageState ≠ .deleted := fun deleted => live (.inl deleted)
  split at ok
  · rename_i unnamed
    split at ok
    · cases Except.ok.inj ok; exact .orphaned here retained unnamed
    · cases Except.ok.inj ok; exact .nothing
  rename_i remote named
  split at ok
  · cases Except.ok.inj ok; exact .nothing
  split at ok
  · cases Except.ok.inj ok; exact .exhausted here retained
  · rename_i room
    cases Except.ok.inj ok
    exact .counted here retained (by rw [named]; simp) (not_le.mp room)

theorem finishAttemptFinished {deleted : List Storage} {errors : List String}
    (ok : finishAttempt cap version now pk deleted errors l = .ok l') :
    ∃ row, l.runs[pk]? = some row ∧ (l' = l.saveRun pk (attemptedRow now row deleted errors) ∨
      (attemptedRow now row deleted errors).storageState ≠ .deleted ∧
      l' = markDeleteFailed version now pk (attemptedRow now row deleted errors)
        (l.saveRun pk (attemptedRow now row deleted errors))) := by
  obtain ⟨row,locked,ok⟩ := bindOk.mp ok
  refine ⟨row,lockRunOk locked,?_⟩
  simp only at ok
  split at ok
  · rename_i spent
    cases Except.ok.inj ok
    exact .inr ⟨spent.1,rfl⟩
  · cases Except.ok.inj ok
    exact .inl rfl

theorem markDeleteFailedRuns (version : String) (now : Int) (pk : Nat) (row : ProviderRun) (l : Ledger) :
    (markDeleteFailed version now pk row l).runs = l.runs.set pk { row with storageState := .deleteFailed } ∧
    (markDeleteFailed version now pk row l).openTrip .deleteAttemptsExhausted (some pk) ∧
    l.latches <+: (markDeleteFailed version now pk row l).latches := by
  unfold markDeleteFailed
  refine ⟨(tripOnly _ _ _ _ _).runs,tripOpens _ _ _ _ _,?_⟩
  exact tripKeeps _ _ _ _ (l.saveRun pk { row with storageState := .deleteFailed })

theorem beginAttemptMoved {overdue : Bool} {attempt : Option CleanupAttempt}
    (ok : beginAttempt cap version now pk overdue l = .ok (l',attempt)) : RunsMoved now event l l' := by
  cases beginAttemptBegun ok with
  | nothing => exact .kept (.refl now l)
  | orphaned here retained unnamed =>
    exact .set here (tripOnly _ _ _ _ _).runs (tripOnly _ _ _ _ _).usageReads
      (.orphaned retained unnamed (tripOpens _ _ _ _ _))
  | @exhausted row here retained =>
    exact .set here (tripOnly _ _ _ _ _).runs (tripOnly _ _ _ _ _).usageReads (.marked retained (tripOpens _ _ _ _ _))
  | counted here retained named room => exact .set here rfl rfl (.attempted cap retained named room)

theorem finishAttemptMoved {deleted : List Storage} {errors : List String}
    (ok : finishAttempt cap version now pk deleted errors l = .ok l') : RunsMoved now
    (.work (.finishAttempt pk cap deleted errors)) l l' := by
  obtain ⟨row,here,rfl | ⟨retained,rfl⟩⟩ := finishAttemptFinished ok
  · exact .set here rfl rfl (.finished cap deleted errors rfl)
  · refine .set here ((tripOnly _ _ _ _ _).runs.trans ?_) (tripOnly _ _ _ _ _).usageReads
      (.exhausted cap deleted errors rfl retained ?_)
    · exact List.set_set _
    · exact tripOpens _ _ _ _ _

theorem openTripKept {m : Ledger} {reason : LatchReason} {run : Option Nat} (grown : l.latches <+: m.latches)
    (tripped : l.openTrip reason run) : m.openTrip reason run := by
  obtain ⟨trip,mem,facts⟩ := tripped
  exact ⟨trip,grown.subset mem,facts⟩

theorem markedFold (version : String) (now : Int) (pks : List Nat) (l : Ledger) :
    l.latches <+: (pks.foldl (markExhausted version now) l).latches ∧
    (pks.foldl (markExhausted version now) l).runs.length = l.runs.length ∧
    (pks.foldl (markExhausted version now) l).usageReads = l.usageReads ∧
    ∀ pk a, l.runs[pk]? = some a →
      (pk ∉ pks → (pks.foldl (markExhausted version now) l).runs[pk]? = some a) ∧
      (pk ∈ pks → (pks.foldl (markExhausted version now) l).runs[pk]? =
          some { a with storageState := .deleteFailed } ∧
        (pks.foldl (markExhausted version now) l).openTrip .deleteAttemptsExhausted (some pk)) := by
  induction pks generalizing l with
  | nil => exact ⟨List.prefix_rfl,rfl,rfl,fun _ _ here => ⟨fun _ => here,nofun⟩⟩
  | cons q rest ih =>
    rw [List.foldl_cons]
    obtain ⟨grown,length,reads,rows⟩ := ih (markExhausted version now l q)
    cases there : l.runs[q]? with
    | none =>
      have same : markExhausted version now l q = l := by simp [markExhausted,there]
      rw [same] at grown length reads rows ⊢
      refine ⟨grown,length,reads,fun pk a here => ?_⟩
      have differs : pk ≠ q := by rintro rfl; rw [here] at there; contradiction
      obtain ⟨out,chosen⟩ := rows pk a here
      exact ⟨fun absent => out fun mem => absent (List.mem_cons_of_mem _ mem),
        fun mem => chosen ((List.mem_cons.mp mem).resolve_left differs)⟩
    | some row =>
      have made : markExhausted version now l q = markDeleteFailed version now q row l := by
        simp [markExhausted,there]
      obtain ⟨runs,tripped,firstGrown⟩ := markDeleteFailedRuns version now q row l
      rw [made] at grown length reads rows ⊢
      have firstReads : (markDeleteFailed version now q row l).usageReads = l.usageReads :=
        (tripOnly _ _ _ _ _).usageReads
      refine ⟨firstGrown.trans grown,by rw [length,runs,List.length_set],reads.trans firstReads,fun pk a here => ?_⟩
      by_cases own : q = pk
      · subst own
        cases Option.some.inj (there.symm.trans here)
        have marked : (markDeleteFailed version now q row l).runs[q]? =
            some { row with storageState := .deleteFailed } := by
          rw [runs]; exact List.getElem?_set_self (List.getElem?_eq_some_iff.mp there).1
        obtain ⟨out,chosen⟩ := rows q _ marked
        refine ⟨fun absent => absurd List.mem_cons_self absent,fun _ => ?_⟩
        by_cases again : q ∈ rest
        · exact chosen again
        · exact ⟨out again,openTripKept grown tripped⟩
      · have kept : (markDeleteFailed version now q row l).runs[pk]? = some a := by
          rw [runs,List.getElem?_set_ne own]; exact here
        obtain ⟨out,chosen⟩ := rows pk a kept
        exact ⟨fun absent => out fun mem => absent (List.mem_cons_of_mem _ mem),
          fun mem => chosen ((List.mem_cons.mp mem).resolve_left fun same => own same.symm)⟩

theorem orphansOnly (version : String) (now : Int) (pks : List Nat) (l : Ledger) :
    LatchOnly l (pks.foldl (tripOrphan version now) l) ∧
    l.latches <+: (pks.foldl (tripOrphan version now) l).latches ∧
    ∀ pk ∈ pks, (pks.foldl (tripOrphan version now) l).openTrip .orphanedStart (some pk) := by
  induction pks generalizing l with
  | nil => exact ⟨.refl l,List.prefix_rfl,nofun⟩
  | cons q rest ih =>
    obtain ⟨only,grown,trips⟩ := ih (tripOrphan version now l q)
    have first : LatchOnly l (tripOrphan version now l q) := tripOnly _ _ _ _ _
    have firstGrown : l.latches <+: (tripOrphan version now l q).latches := tripKeeps _ _ _ _ _
    refine ⟨first.trans only,firstGrown.trans grown,fun pk mem => ?_⟩
    rcases List.mem_cons.mp mem with rfl | later
    · exact openTripKept grown (tripOpens _ _ _ _ _)
    · exact trips pk later

theorem memOrphans {l : Ledger} {pk : Nat} : pk ∈ strandedOrphans l ↔
    (∃ row, l.runs[pk]? = some row ∧ row.orphanedStartAt ≠ none) ∧ untripped l .orphanedStart pk = true := by
  simp only [strandedOrphans,List.mem_map,List.mem_filter,Bool.and_eq_true,Prod.exists,exists_eq_right,
    List.mem_zipIdx_iff_getElem?,Option.isSome_iff_ne_none]
  constructor
  · rintro ⟨row,here,orphaned,never⟩
    exact ⟨⟨row,here,orphaned⟩,never⟩
  · rintro ⟨⟨row,here,orphaned⟩,never⟩
    exact ⟨row,here,orphaned,never⟩

def ProviderRun.spent (cap : Int) (row : ProviderRun) : Prop :=
  row.storageState = .deleteFailed ∨
    (row.storageState ≠ .deleted ∧ cap ≤ row.storageCleanupAttempts) ∧ row.orphanedStartAt = none

theorem memExhausted {cap : Int} {l : Ledger} {pk : Nat} : pk ∈ strandedExhausted cap l ↔
    (∃ row, l.runs[pk]? = some row ∧ row.spent cap) ∧ untripped l .deleteAttemptsExhausted pk = true := by
  simp only [strandedExhausted,List.mem_map,List.mem_filter,Bool.and_eq_true,Bool.or_eq_true,Prod.exists,
    exists_eq_right,List.mem_zipIdx_iff_getElem?,beq_iff_eq,bne_iff_ne,decide_eq_true_eq,
    Option.isNone_iff_eq_none,ProviderRun.spent]
  constructor
  · rintro ⟨row,here,spent,never⟩
    exact ⟨⟨row,here,spent⟩,never⟩
  · rintro ⟨⟨row,here,spent⟩,never⟩
    exact ⟨row,here,spent,never⟩

theorem spentRetained {cap : Int} {row : ProviderRun} (spent : row.spent cap) : row.storageState ≠ .deleted := by
  rcases spent with marked | ⟨⟨retained,_⟩,_⟩
  · rw [marked]; nofun
  · exact retained

theorem strandedParts (cap : Int) (version : String) (now : Int) (l : Ledger) :
    ∃ m n, LatchOnly l m ∧ l.latches <+: m.latches ∧ m.latches <+: n.latches ∧
      (∀ pk ∈ strandedOrphans l, m.openTrip .orphanedStart (some pk)) ∧
      n.runs.length = m.runs.length ∧ n.usageReads = m.usageReads ∧
      (∀ pk a, m.runs[pk]? = some a →
        (pk ∉ strandedExhausted cap m → n.runs[pk]? = some a) ∧
        (pk ∈ strandedExhausted cap m → n.runs[pk]? = some { a with storageState := .deleteFailed } ∧
          n.openTrip .deleteAttemptsExhausted (some pk))) ∧
      (tripStrandedLatches cap version now l).1 = (tripStrandedStartRefusalsLocked version now n).1 := by
  obtain ⟨only,grown,orphans⟩ := orphansOnly version now (strandedOrphans l) l
  obtain ⟨marked,length,reads,rows⟩ := markedFold version now
    (strandedExhausted cap ((strandedOrphans l).foldl (tripOrphan version now) l))
    ((strandedOrphans l).foldl (tripOrphan version now) l)
  exact ⟨_,_,only,grown,marked,orphans,length,reads,rows,rfl⟩

theorem refusalsKeep (version : String) (now : Int) (l : Ledger) :
    l.latches <+: (tripStrandedStartRefusalsLocked version now l).1.latches := by
  simp only [tripStrandedStartRefusalsLocked]
  generalize unrecordedStartRefusals l = pks
  induction pks generalizing l with
  | nil => exact List.prefix_rfl
  | cons pk rest ih => exact (tripKeeps _ _ _ _ l).trans (ih _)

theorem strandedMoved (cap : Int) (version : String) (now : Int) (l : Ledger) :
    RunsMoved now event l (tripStrandedLatches cap version now l).1 := by
  obtain ⟨m,n,only,_,_,_,length,marksReads,rows,same⟩ := strandedParts cap version now l
  have last := (strandedRefusalsOnly version now n).runs
  have lastGrown := refusalsKeep version now n
  rw [← same] at last lastGrown
  have reads : (tripStrandedLatches cap version now l).1.usageReads = l.usageReads :=
    (same ▸ (strandedRefusalsOnly version now n).usageReads).trans (marksReads.trans only.usageReads)
  refine ⟨fun pk a here => ?_,.inl (by rw [last,length,only.runs]),[],by simp [reads],nofun⟩
  obtain ⟨out,chosen⟩ := rows pk a (only.runs ▸ here)
  by_cases mem : pk ∈ strandedExhausted cap m
  · obtain ⟨marked,tripped⟩ := chosen mem
    obtain ⟨⟨row,there,spent⟩,_⟩ := memExhausted.mp mem
    rw [only.runs,here] at there
    cases Option.some.inj there
    exact ⟨_,last ▸ marked,.marked (spentRetained spent) (openTripKept lastGrown tripped)⟩
  · exact ⟨a,last ▸ out mem,.same⟩
end

section
variable {digest : Json → String} {config : LedgerConfig} {now : Int} {w w' : World} {event : Event}

theorem workMoved {op : Work} {l l' : Ledger} (written : Event.written now (.work op))
    (ok : op.commit config now l = .ok l') : RunsMoved now (.work op) l l' := by
  cases op with
  | recordObservation pk run =>
    obtain ⟨row,locked,done⟩ := bindOk.mp ok
    cases Except.ok.inj done
    exact .set (lockRunOk locked) rfl rfl (.observed run)
  | tripLatch reason run =>
    simp only [Work.commit] at ok
    split at ok
    · cases ok
    · cases Except.ok.inj ok; exact .kept (latchReading (tripOnly _ _ _ _ l))
  | beginAttempt pk cap overdue =>
    obtain ⟨⟨m,attempt⟩,done,rfl⟩ := mapOk ok
    exact beginAttemptMoved done
  | finishAttempt pk cap deleted errors => exact finishAttemptMoved ok
  | recordRunUsage pk run =>
    obtain ⟨⟨m,settled⟩,done,rfl⟩ := mapOk ok
    exact .kept (recordRunUsageReading done)
  | planSettlementRead pk =>
    obtain ⟨⟨m,remote⟩,done,rfl⟩ := mapOk ok
    obtain ⟨reads,a,here,⟨_,same | ⟨next,saved⟩⟩ | ⟨_,_,_,next,saved⟩⟩ := planSettlementReadRuns done
    · exact .kept (.same same reads)
    · exact .set here saved reads (.deferred next)
    · exact .set here saved reads (.polled next)
  | bindBuild pk buildId =>
    obtain ⟨⟨m,bound⟩,done,rfl⟩ := mapOk ok
    exact .kept (bindBuildReading done)
  | planBuildRead pk =>
    obtain ⟨⟨m,remote⟩,done,rfl⟩ := mapOk ok
    exact .kept (planBuildReadReading done)
  | recordBuildUsage pk build =>
    obtain ⟨⟨m,settled⟩,done,rfl⟩ := mapOk ok
    exact .kept (recordBuildUsageReading done)
  | releaseUnattached graceS =>
    obtain ⟨⟨m,pks⟩,done,rfl⟩ := mapOk ok
    exact .kept (releaseReading done)
  | settleOperator pk dataset verified => exact .kept (settleOperatorReading ok)
  | runChanged pk change =>
    obtain ⟨row,locked,done⟩ := bindOk.mp ok
    cases Except.ok.inj done
    obtain ⟨writer,rfl⟩ := written
    exact .set (lockRunOk locked) rfl rfl (.written writer)

theorem createRunReads {fields : RunFields} {reservation : Option Nat} {l l' : Ledger} {pk : Nat}
    (ok : createRun fields reservation l = .ok (l',pk)) : l'.usageReads = l.usageReads := by
  unfold createRun at ok
  simp only at ok
  split at ok
  · cases Except.ok.inj ok; rfl
  split at ok
  · cases ok
  split at ok
  · obtain ⟨m,save,done⟩ := bindOk.mp ok
    cases Except.ok.inj done
    obtain ⟨_,_,_,_,_,reads,_⟩ := saveReservationOk save
    exact reads
  · cases ok

theorem transitionMoved (written : event.written now) (step : Transition digest config now w event w') :
    RunsMoved now event w.ledger w'.ledger := by
  cases step with
  | ensureCycle => exact .kept (cycleReading (ensureOnly _ _ _))
  | reserve ok =>
    obtain ⟨mid,state,row,admission⟩ := reserveSound ok
    exact .kept (.same admission.runs admission.usageReads)
  | @createRun fields reservation l pk ok =>
    have created := createRunCreated ok
    refine ⟨fun q a here => ⟨a,?_,.same⟩,.inr ⟨fields,created.runs⟩,[],by simp [World.commit,createRunReads ok],nofun⟩
    simp only [World.commit,created.runs]
    rw [List.getElem?_append_left (List.getElem?_eq_some_iff.mp here).1]
    exact here
  | startAnswered pending ok =>
    obtain ⟨row,locked,done⟩ := bindOk.mp ok
    cases Except.ok.inj done
    exact .set (lockRunOk locked) rfl rfl (.started _ _ rfl)
  | startFailed pending ok =>
    obtain ⟨row,locked,done⟩ := bindOk.mp ok
    cases Except.ok.inj done
    exact .set (lockRunOk locked) rfl rfl (.startFailed _)
  | startLost => exact .kept (.refl now _)
  | startRefusalTripped pending => exact .kept (latchReading (startRefusalOnly _ _ _ _))
  | startRefusalLost => exact .kept (.refl now _)
  | strandedLatchesTripped => exact strandedMoved _ _ _ _
  | latchCleared ok => exact .kept (latchReading (clearLatchOnly ok))
  | work ok => exact workMoved written ok
  | monitoringBegun ok =>
    obtain ⟨reads,same | ⟨q,a,here,saved⟩⟩ := beginMonitoringReadRuns ok
    · exact .kept (.same same reads)
    · exact .set here saved reads .monitored
  | monitoringCompleted pending ok => exact .kept (completeMonitoringReadReading ok)
  | monitoringLost => exact .kept (.refl now _)
  | staleMarkersResolved ok => exact .kept (resolveStaleReading ok)
  | restarted => exact .kept (.refl now _)
  | originClaimed ok => exact .kept (cycleReading (claimOriginOnly ok))
  | handoffExported ok => exact .kept (cycleReading (exportHandoffOnly ok))
  | handoffImported ok => exact .kept (cycleReading (importHandoffOnly ok))

def PollStep (digest : Json → String) (w : World) (label : Label) (w' : World) : Prop :=
  label.event.written label.now ∧ Step digest w label w'

theorem pollMoved {label : Label} (step : PollStep digest w label w') :
    RunsMoved label.now label.event w.ledger w'.ledger :=
  transitionMoved step.1 step.2.2

def World.worked (config : LedgerConfig) (w : World) (unit : Int × Work) : World :=
  w.commit unit.1 (committed w.ledger (unit.2.commit config unit.1 w.ledger))

def allWorked (config : LedgerConfig) : World → List (Int × Work) → Bool
  | _,[] => true
  | w,unit::rest => decide (w.clock ≤ unit.1) && succeeds (unit.2.commit config unit.1 w.ledger) &&
      allWorked config (w.worked config unit) rest

def unitLabel (config : LedgerConfig) (unit : Int × Work) : Label := ⟨config,unit.1,.work unit.2⟩

theorem workedRun {units : List (Int × Work)} (written : ∀ unit ∈ units, Event.written unit.1 (.work unit.2))
    (all : allWorked config w units = true) :
    Runs (PollStep digest) w (units.map (unitLabel config)) (units.foldl (World.worked config) w) := by
  induction units generalizing w with
  | nil => exact .nil w
  | cons unit rest ih =>
    simp only [allWorked,Bool.and_eq_true,decide_eq_true_eq] at all
    obtain ⟨⟨order,ok⟩,later⟩ := all
    exact .cons ⟨written unit List.mem_cons_self,order,.work (committedOk ok)⟩
      (ih (fun unit mem => written unit (List.mem_cons_of_mem _ mem)) later)
end

end HwRadar.Apify
