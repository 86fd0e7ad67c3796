import HwRadar.Apify.RunWrites

/-! The counters a run's row keeps of the requests made about it, and what one committed
transaction may do to them. A counter goes up by one, by the transaction that grants the
request it stands for, and only below its cap. -/
namespace HwRadar.Apify
open HwRadar.Base HwRadar.Base.Tables

inductive Counter where
  | starts
  | polls
  | corrections
  | attempts
  | datasetReads
  | kvReads
  deriving DecidableEq, Repr

def ProviderRun.count (row : ProviderRun) : Counter → Nat
  | .starts => 1
  | .polls => row.runPollCount
  | .corrections => row.correctionReadCount
  | .attempts => row.storageCleanupAttempts
  | .datasetReads => row.datasetReadCount
  | .kvReads => row.kvReadCount

inductive Raises (w : World) (label : Label) (pk : Nat) (a : ProviderRun) : Counter → Prop where
  | poll {cap : Int} (event : label.event =
      .work (.runChanged pk fun row => (Writer.countPoll cap).write label.now row))
      (running : terminalStatus a.remoteStatus = false) (room : (a.runPollCount : Int) < cap) :
      Raises w label pk a .polls
  | settlement {cap : Int} {k : Nat} {resv : Reservation} (event : label.event = .work (.planSettlementRead pk))
      (unsettled : w.ledger.reservations[k]? = some resv ∧ resv.providerRun = some pk ∧ resv.status.isOpen = true)
      (capped : label.config.budget.maxRunPolls = some cap) (room : (a.runPollCount : Int) < cap) :
      Raises w label pk a .polls
  | correction {resv cap} (event : label.event = .monitoringBegun resv)
      (capped : label.config.budget.maxCorrectionReads = some cap) (room : (a.correctionReadCount : Int) < cap) :
      Raises w label pk a .corrections
  | mismatch {run mismatches} (event : label.event = .startAnswered pk run mismatches) (pending : pk ∈ w.starting)
      (some_ : mismatches ≠ []) : Raises w label pk a .attempts
  | attempt {cap overdue} (event : label.event = .work (.beginAttempt pk cap overdue))
      (retained : a.storageState ≠ .deleted) (named : a.externalRunId ≠ none)
      (room : (a.storageCleanupAttempts : Int) < cap) : Raises w label pk a .attempts
  | read {maxDataset maxKv latch counter}
      (event : label.event = .work
        (.runChanged pk fun row => (Writer.countReads maxDataset maxKv latch).write label.now row))
      (reads : counter = .datasetReads ∨ counter = .kvReads) (pending : a.importState = .pending)
      (room : (a.datasetReadCount : Int) < maxDataset ∧ (a.kvReadCount : Int) < maxKv) : Raises w label pk a counter

structure SameColumns (a b : ProviderRun) : Prop where
  remoteStatus : b.remoteStatus = a.remoteStatus
  imported : a.importState ≠ .pending → b.importState ≠ .pending
  named : b.externalRunId = a.externalRunId
  due : b.storageCleanupDueAt = a.storageCleanupDueAt
  stored : b.datasetId = a.datasetId ∧ b.kvStoreId = a.kvStoreId
  verified : b.storageVerified = a.storageVerified
  deleted : b.storageState = .deleted ↔ a.storageState = .deleted

def KeptId (recorded after : Option String) : Prop := ∀ id, id ≠ "" → recorded = some id → after = some id

structure CountMove (w : World) (label : Label) (pk : Nat) (a b : ProviderRun) : Prop where
  counts : ∀ c, b.count c = a.count c ∨ b.count c = a.count c + 1 ∧ Raises w label pk a c
  terminal : terminalStatus a.remoteStatus = true → terminalStatus b.remoteStatus = true
  imported : a.importState ≠ .pending → b.importState ≠ .pending
  named : b.externalRunId = a.externalRunId ∨ pk ∈ w.starting ∧ ∃ run mismatches, label.event =
    .startAnswered pk run mismatches
  due : b.storageCleanupDueAt = a.storageCleanupDueAt
  stored : pk ∉ w.starting → KeptId a.datasetId b.datasetId ∧ KeptId a.kvStoreId b.kvStoreId
  verified : b.storageVerified = a.storageVerified ∨ ∃ cap deleted errors,
    label.event = .work (.finishAttempt pk cap deleted errors) ∧ b.storageVerified = a.storageVerified ++ deleted
  deleted : b.storageState = .deleted → a.storageState = .deleted ∨ allStorages.all b.storageVerified.contains = true
  kept : a.storageState = .deleted → b.storageState = .deleted

theorem SameColumns.refl (a : ProviderRun) : SameColumns a a := ⟨rfl,id,rfl,rfl,⟨rfl,rfl⟩,rfl,Iff.rfl⟩

section
variable {w : World} {label : Label} {pk : Nat} {a b : ProviderRun}

theorem SameColumns.moved (same : SameColumns a b)
    (counts : ∀ c, b.count c = a.count c ∨ b.count c = a.count c + 1 ∧ Raises w label pk a c) :
    CountMove w label pk a b where
  counts := counts
  terminal := fun terminal => same.remoteStatus ▸ terminal
  imported := same.imported
  named := .inl same.named
  due := same.due
  stored := fun _ => ⟨fun _ _ here => same.stored.1.trans here,fun _ _ here => same.stored.2.trans here⟩
  verified := .inl same.verified
  deleted := fun deleted => .inl (same.deleted.mp deleted)
  kept := same.deleted.mpr

theorem SameColumns.still (same : SameColumns a b) (counts : ∀ c, b.count c = a.count c) : CountMove w label pk a b :=
  same.moved fun c => .inl (counts c)

theorem SameColumns.raised (same : SameColumns a b) (up : List Counter) (raises : ∀ c ∈ up, Raises w label pk a c)
    (counts : ∀ c, b.count c = a.count c + if c ∈ up then 1 else 0) : CountMove w label pk a b := by
  refine same.moved fun c => ?_
  by_cases mem : c ∈ up
  · exact .inr ⟨by rw [counts,if_pos mem],raises c mem⟩
  · exact .inl (by rw [counts,if_neg mem,Nat.add_zero])

theorem CountMove.refl (a : ProviderRun) : CountMove w label pk a a := (SameColumns.refl a).still fun _ => rfl

end

theorem stampColumns (row : ProviderRun) (now : Int) : SameColumns row (stampWorkCompletion row now) ∧
    ∀ c, (stampWorkCompletion row now).count c = row.count c := by
  unfold stampWorkCompletion
  split
  · exact ⟨⟨rfl,id,rfl,rfl,⟨rfl,rfl⟩,rfl,Iff.rfl⟩,fun c => by cases c <;> rfl⟩
  · exact ⟨.refl row,fun _ => rfl⟩

theorem closedColumns (a : ProviderRun) {state : ImportState} (past : state ≠ .pending) (now : Int) :
    SameColumns a (stampWorkCompletion { a with importState := state } now) ∧
    ∀ c, (stampWorkCompletion { a with importState := state } now).count c = a.count c := by
  obtain ⟨⟨status,imported,named,due,stored,verified,deleted⟩,counts⟩ :=
    stampColumns { a with importState := state } now
  exact ⟨⟨status,fun _ => imported past,named,due,stored,verified,deleted⟩,fun c =>
    (counts c).trans (by cases c <;> rfl)⟩

theorem advanceColumns {expected dest : ImportState} (past : dest ≠ .pending) {a : ProviderRun} :
    SameColumns a (orKept a (advanceRun expected dest a)) ∧
    ∀ c, (orKept a (advanceRun expected dest a)).count c = a.count c := by
  cases made : advanceRun expected dest a with
  | error halt => exact ⟨.refl a,fun _ => rfl⟩
  | ok moved =>
    obtain ⟨_,rfl⟩ := advanceRunOk made
    exact ⟨⟨rfl,fun _ => past,rfl,rfl,⟨rfl,rfl⟩,rfl,Iff.rfl⟩,fun c => by cases c <;> rfl⟩

inductive WriterRaises (a : ProviderRun) : Writer → List Counter → Prop where
  | none {writer} : WriterRaises a writer []
  | poll {cap} (running : terminalStatus a.remoteStatus = false) (room : (a.runPollCount : Int) < cap) :
      WriterRaises a (.countPoll cap) [.polls]
  | reads {maxDataset maxKv latch} (pending : a.importState = .pending)
      (room : (a.datasetReadCount : Int) < maxDataset ∧ (a.kvReadCount : Int) < maxKv) :
      WriterRaises a (.countReads maxDataset maxKv latch) [.datasetReads,.kvReads]

theorem writtenColumns (now : Int) (a : ProviderRun) (writer : Writer) : ∃ up, WriterRaises a writer up ∧
    SameColumns a (writer.write now a) ∧ ∀ c, (writer.write now a).count c = a.count c + if c ∈ up then 1 else 0 := by
  have still : ∀ {b}, (SameColumns a b ∧ ∀ c, b.count c = a.count c) → ∃ up, WriterRaises a writer up ∧
      SameColumns a b ∧ ∀ c, b.count c = a.count c + if c ∈ up then 1 else 0 :=
    fun kept => ⟨[],.none,kept.1,fun c => by simp [kept.2 c]⟩
  cases writer with
  | claim created =>
    refine still ?_
    simp only [Writer.write,claimRun]
    split
    · exact ⟨.refl a,fun _ => rfl⟩
    · exact ⟨⟨rfl,id,rfl,rfl,⟨rfl,rfl⟩,rfl,Iff.rfl⟩,fun c => by cases c <;> rfl⟩
  | countReads maxDataset maxKv latch =>
    simp only [Writer.write]
    cases made : Apify.countReads maxDataset maxKv latch a with
    | error halt => exact still ⟨.refl a,fun _ => rfl⟩
    | ok counted =>
      obtain ⟨pending,dataset,kv,rfl⟩ := countReadsOk made
      exact ⟨_,.reads pending ⟨dataset,kv⟩,⟨rfl,id,rfl,rfl,⟨rfl,rfl⟩,rfl,Iff.rfl⟩,fun c => by cases c <;> rfl⟩
  | observe =>
    refine still ?_
    simp only [Writer.write]
    cases made : observeRun now a with
    | error halt => exact ⟨.refl a,fun _ => rfl⟩
    | ok moved =>
      obtain ⟨_,rfl⟩ := observeRunOk made
      exact ⟨⟨rfl,fun _ => by rintro ⟨⟩,rfl,rfl,⟨rfl,rfl⟩,rfl,Iff.rfl⟩,fun c => by cases c <;> rfl⟩
  | applyAbsence => exact still (advanceColumns (by decide))
  | resolve => exact still (advanceColumns (by decide))
  | evaluate => exact still (advanceColumns (by decide))
  | finalize =>
    refine still ?_
    simp only [Writer.write]
    cases made : finalizeRun now a with
    | error halt => exact ⟨.refl a,fun _ => rfl⟩
    | ok moved =>
      obtain ⟨_,rfl⟩ := finalizeRunOk made
      exact closedColumns a (by decide) now
  | reject onlyFrom =>
    refine still ?_
    simp only [Writer.write]
    cases made : rejectRun onlyFrom now a with
    | none => exact ⟨.refl a,fun _ => rfl⟩
    | some moved =>
      obtain ⟨_,_,rfl⟩ := rejectRunSome made
      exact closedColumns a (by decide) now
  | countPoll cap =>
    simp only [Writer.write,Apify.countPoll]
    split
    · exact still ⟨.refl a,fun _ => rfl⟩
    · rename_i refused
      rw [not_or,not_or,not_le,Bool.not_eq_true] at refused
      exact ⟨_,.poll refused.2.1 refused.2.2,⟨rfl,id,rfl,rfl,⟨rfl,rfl⟩,rfl,Iff.rfl⟩,fun c => by cases c <;> rfl⟩
  | backOff next => exact still ⟨⟨rfl,id,rfl,rfl,⟨rfl,rfl⟩,rfl,Iff.rfl⟩,fun c => by cases c <;> rfl⟩

theorem beginMonitoringCounted {pk : Nat} {now : Int} {config : LedgerConfig} {l l' : Ledger}
    {call : Option MonitorCall} (ok : beginMonitoringRead pk now config l = .ok (l',call)) :
    (l'.runs = l.runs ∧ ∀ c, call = some c → c.build = true) ∨ ∃ q a cap,
      l.runs[q]? = some a ∧ config.budget.maxCorrectionReads = some cap ∧ (a.correctionReadCount : Int) < cap ∧
      (∃ resv, l.reservations[pk]? = some resv ∧ resv.providerRun = some q) ∧
      (∀ c, call = some c → a.externalRunId = some c.remoteId) ∧
      l'.runs = l.runs.set q { a with correctionReadCount := a.correctionReadCount + 1 } := by
  obtain ⟨resv,locked,ok⟩ := bindOk.mp ok
  simp only at ok
  split at ok
  · cases Except.ok.inj ok; exact .inl ⟨rfl,by rintro c ⟨⟩⟩
  rename_i open_
  split at ok
  · rename_i run runPk found
    split at ok
    · cases Except.ok.inj ok; exact .inl ⟨rfl,by rintro c ⟨⟩⟩
    rename_i remote named
    obtain ⟨m,save,done⟩ := bindOk.mp ok
    cases Except.ok.inj done
    obtain ⟨_,_,_,_,runs,_,_⟩ := saveReservationOk save
    obtain ⟨linked,here⟩ := lockedRunSome found
    simp only [not_or,found,Option.map_some,correctionCount] at open_
    cases cap : config.budget.maxCorrectionReads with
    | none => simp [cap] at open_
    | some cap_ =>
      refine .inr ⟨runPk,run,cap_,here,rfl,?_,⟨resv,lockReservationOk locked,linked⟩,by rintro c ⟨⟩; exact named,runs⟩
      simpa [cap] using open_.2.2.2.2
  · split at ok
    · cases Except.ok.inj ok; exact .inl ⟨rfl,by rintro c ⟨⟩⟩
    obtain ⟨m,save,done⟩ := bindOk.mp ok
    cases Except.ok.inj done
    obtain ⟨_,_,_,_,runs,_,_⟩ := saveReservationOk save
    exact .inl ⟨runs,by rintro c ⟨⟩; rfl⟩

theorem planSettlementReadOpen {pk : Nat} {now : Int} {config : LedgerConfig} {l l' : Ledger} {remote : Option String}
    (ok : planSettlementRead pk now config l = .ok (l',remote)) (planned : remote ≠ none) :
    ∃ (k : Nat) (resv : Reservation), l.reservations[k]? = some resv ∧ resv.providerRun = some pk ∧
    resv.status.isOpen = true := by
  obtain ⟨run,locked,ok⟩ := bindOk.mp ok
  split at ok
  · cases Except.ok.inj ok; exact absurd rfl planned
  rename_i resv k found
  obtain ⟨here,linked⟩ := reservationOfSome found
  split at ok
  · cases Except.ok.inj ok; exact absurd rfl planned
  rename_i live
  exact ⟨k,resv,here,linked,by simpa using live⟩

theorem appliedTerminal {a : ProviderRun} {run : RemoteRun} {now : Int}
    (terminal : terminalStatus a.remoteStatus = true) :
    terminalStatus (applyRunFields a run now).remoteStatus = true := by
  unfold applyRunFields
  split
  · exact terminal
  · rename_i unlisted
    rw [terminal,Bool.true_and,Bool.not_eq_true,Bool.not_eq_false'] at unlisted
    exact unlisted

theorem appliedColumns (a : ProviderRun) (run : RemoteRun) (now : Int) :
    (∀ c, (applyRunFields a run now).count c = a.count c) ∧ (applyRunFields a run now).importState = a.importState ∧
    (applyRunFields a run now).externalRunId = a.externalRunId ∧
    (applyRunFields a run now).storageCleanupDueAt = a.storageCleanupDueAt ∧
    ((applyRunFields a run now).datasetId = a.datasetId ∧ (applyRunFields a run now).kvStoreId = a.kvStoreId) ∧
    (applyRunFields a run now).storageVerified = a.storageVerified ∧
    (applyRunFields a run now).storageState = a.storageState := by
  unfold applyRunFields
  split
  · exact ⟨fun _ => rfl,rfl,rfl,rfl,⟨rfl,rfl⟩,rfl,rfl⟩
  · exact ⟨fun c => by cases c <;> rfl,rfl,rfl,rfl,⟨rfl,rfl⟩,rfl,rfl⟩

theorem filledKept {recorded after answered : Option String} (same : after = recorded) :
    KeptId recorded (filledId after answered) := by
  rintro id filled rfl
  rw [same,filledId,if_neg]
  simpa using filled

section
variable {w w' : World} {label : Label} {pk : Nat} {a : ProviderRun}

theorem observedCounts (run : RemoteRun) (now : Int) : CountMove w label pk a (observedRow a run now) := by
  obtain ⟨counts,imported,named,due,stored,verified,state⟩ := appliedColumns a run now
  refine ⟨fun c => .inl ?_,appliedTerminal,?_,.inl named,due,fun _ => ⟨?_,?_⟩,.inl verified,fun deleted => .inl ?_,?_⟩
  · exact .trans (by cases c <;> rfl) (counts c)
  · exact fun past => imported ▸ past
  · exact filledKept stored.1
  · exact filledKept stored.2
  · exact state ▸ deleted
  · exact fun deleted => state ▸ deleted

theorem startedCounts {run : RemoteRun} {mismatches : List String}
    (event : label.event = .startAnswered pk run mismatches)
    (pending : pk ∈ w.starting) : CountMove w label pk a (startedRow a run mismatches label.now) := by
  obtain ⟨counts,imported,named,due,stored,verified,state⟩ := appliedColumns { a with
    externalRunId := some run.id
    datasetId := run.defaultDatasetId
    kvStoreId := run.defaultKeyValueStoreId } run label.now
  have terminal := @appliedTerminal { a with
    externalRunId := some run.id
    datasetId := run.defaultDatasetId
    kvStoreId := run.defaultKeyValueStoreId } run label.now
  have answered : pk ∈ w.starting ∧ ∃ run mismatches, label.event = .startAnswered pk run mismatches :=
    ⟨pending,run,mismatches,event⟩
  unfold startedRow
  simp only
  split
  · exact ⟨fun c => .inl ((counts c).trans (by cases c <;> rfl)),terminal,fun past =>
      imported.trans_ne past,.inr answered,
      due,fun outside => absurd pending outside,.inl verified,fun deleted => .inl (state.symm.trans deleted),
        fun deleted => state.trans deleted⟩
  · rename_i listed
    refine ⟨fun c => ?_,terminal,fun past => imported.trans_ne past,.inr answered,
      due,fun outside => absurd pending outside,.inl verified,fun deleted => .inl (state.symm.trans deleted),
        fun deleted => state.trans deleted⟩
    cases c with
    | attempts => exact .inr ⟨congrArg (· + 1) (counts .attempts),.mismatch event pending (by simpa using listed)⟩
    | starts => exact .inl rfl
    | polls => exact .inl (counts .polls)
    | corrections => exact .inl (counts .corrections)
    | datasetReads => exact .inl (counts .datasetReads)
    | kvReads => exact .inl (counts .kvReads)

theorem attemptedCounts {cap : Int} {deleted : List Storage} {errors : List String}
    (event : label.event = .work (.finishAttempt pk cap deleted errors)) :
    CountMove w label pk a (attemptedRow label.now a deleted errors) := by
  unfold attemptedRow
  dsimp only
  split
  · rename_i whole
    obtain ⟨⟨status,imported,named,due,stored,verified,state⟩,counts⟩ := stampColumns
      { a with
        storageVerified := a.storageVerified ++ deleted
        cleanupErrors := []
        storageState := .deleted
        storageDeletedAt := some label.now } label.now
    refine ⟨fun c => .inl ((counts c).trans (by cases c <;> rfl)),fun t => ?_,imported,.inl named,due,
      fun _ => ⟨fun _ _ here => stored.1.trans here,fun _ _ here => stored.2.trans here⟩,
        .inr ⟨cap,deleted,errors,event,verified⟩,fun _ => .inr ?_,fun _ => state.mpr rfl⟩
    · rw [status]
      exact t
    · rw [verified]
      exact whole
  · exact ⟨fun c => .inl (by cases c <;> rfl),id,id,.inl rfl,rfl,fun _ => ⟨fun _ _ => id,fun _ _ => id⟩,
      .inr ⟨cap,deleted,errors,event,rfl⟩,.inl,id⟩
end

def RowsCounted (w : World) (label : Label) (l' : Ledger) : Prop :=
  ∀ pk a, w.ledger.runs[pk]? = some a → ∃ b, l'.runs[pk]? = some b ∧ CountMove w label pk a b

section
variable {digest : Json → String} {w w' : World} {label : Label} {l' : Ledger} {pk : Nat}

theorem RowsCounted.kept (same : l'.runs = w.ledger.runs) : RowsCounted w label l' :=
  fun _ a here => ⟨a,same ▸ here,.refl a⟩

theorem RowsCounted.set {a b : ProviderRun} (here : w.ledger.runs[pk]? = some a)
    (saved : l'.runs = w.ledger.runs.set pk b) (move : CountMove w label pk a b) : RowsCounted w label l' := by
  intro q row there
  rw [saved]
  by_cases same : pk = q
  · subst same
    cases Option.some.inj (here.symm.trans there)
    exact ⟨b,List.getElem?_set_self (List.getElem?_eq_some_iff.mp here).1,move⟩
  · exact ⟨row,by rw [List.getElem?_set_ne same]; exact there,.refl row⟩

theorem finishCounted {cap : Int} {version : String} {deleted : List Storage} {errors : List String}
    (event : label.event = .work (.finishAttempt pk cap deleted errors))
    (ok : finishAttempt cap version label.now pk deleted errors w.ledger = .ok l') : RowsCounted w label l' := by
  obtain ⟨row,here,rfl | ⟨retained,rfl⟩⟩ := finishAttemptFinished ok
  · exact .set here rfl (attemptedCounts event)
  · obtain ⟨runs,_,_⟩ := markDeleteFailedRuns version label.now pk (attemptedRow label.now row deleted errors)
      (w.ledger.saveRun pk (attemptedRow label.now row deleted errors))
    refine .set here (runs.trans (List.set_set _)) ?_
    obtain ⟨counts,terminal,imported,named,due,stored,verified,_,kept⟩ :=
      @attemptedCounts w label pk row cap deleted errors event
    refine ⟨fun c => ?_,terminal,imported,named,due,stored,verified,by rintro ⟨⟩,fun gone =>
      absurd (kept gone) retained⟩
    cases c with
    | starts => exact .inl rfl
    | polls => exact counts .polls
    | corrections => exact counts .corrections
    | attempts => exact counts .attempts
    | datasetReads => exact counts .datasetReads
    | kvReads => exact counts .kvReads

theorem markedColumns {a : ProviderRun} (retained : a.storageState ≠ .deleted) :
    SameColumns a { a with storageState := .deleteFailed } :=
  ⟨rfl,id,rfl,rfl,⟨rfl,rfl⟩,rfl,by rintro ⟨⟩,fun gone => absurd gone retained⟩

theorem beginCounted {cap : Int} {overdue : Bool} {version : String} {attempt : Option CleanupAttempt}
    (event : label.event = .work (.beginAttempt pk cap overdue))
    (ok : beginAttempt cap version label.now pk overdue w.ledger = .ok (l',attempt)) : RowsCounted w label l' := by
  cases beginAttemptBegun ok with
  | nothing => exact .kept rfl
  | @orphaned row here retained unnamed =>
    exact .set here (tripOnly _ _ _ _ _).runs
      (SameColumns.still ⟨rfl,id,rfl,rfl,⟨rfl,rfl⟩,rfl,Iff.rfl⟩ fun c => by cases c <;> rfl)
  | @exhausted row here retained =>
    obtain ⟨runs,_,_⟩ := markDeleteFailedRuns version label.now pk row w.ledger
    exact .set here runs ((markedColumns retained).still fun c => by cases c <;> rfl)
  | @counted row attempt here retained named room =>
    refine .set here rfl (SameColumns.raised ⟨rfl,id,rfl,rfl,⟨rfl,rfl⟩,rfl,Iff.rfl⟩ [.attempts] (fun c mem => ?_)
      (by rintro ⟨⟩ <;> rfl))
    rw [List.mem_singleton.mp mem]
    exact .attempt event retained named room

theorem strandedCounted (cap : Int) (version : String) (now : Int) :
    RowsCounted w label (tripStrandedLatches cap version now w.ledger).1 := by
  obtain ⟨m,n,only,_,_,_,_,_,rows,same⟩ := strandedParts cap version now w.ledger
  have last := (strandedRefusalsOnly version now n).runs
  rw [← same] at last
  intro pk a here
  have at_ : m.runs[pk]? = some a := only.runs ▸ here
  obtain ⟨out,chosen⟩ := rows pk a at_
  by_cases mem : pk ∈ strandedExhausted cap m
  · refine ⟨{ a with storageState := .deleteFailed },last ▸ (chosen mem).1,?_⟩
    obtain ⟨⟨row,found,spent⟩,_⟩ := memExhausted.mp mem
    cases Option.some.inj (at_.symm.trans found)
    have retained : a.storageState ≠ .deleted := by
      rcases spent with failed | ⟨⟨retained,_⟩,_⟩
      · rw [failed]
        rintro ⟨⟩
      · exact retained
    exact (markedColumns retained).still fun c => by cases c <;> rfl
  · exact ⟨a,last ▸ out mem,.refl a⟩

theorem runChangedCounted {writer : Writer}
    (event : label.event = .work (.runChanged pk fun row => writer.write label.now row))
    (ok : Work.commit label.config label.now w.ledger (.runChanged pk fun row => writer.write label.now row) = .ok l') :
    RowsCounted w label l' := by
  obtain ⟨row,locked,done⟩ := bindOk.mp ok
  cases Except.ok.inj done
  obtain ⟨up,raises,⟨status,imported,named,due,stored,verified,state⟩,counts⟩ := writtenColumns label.now row writer
  refine .set (lockRunOk locked) rfl (SameColumns.raised ⟨status,imported,named,due,stored,verified,state⟩ up
    (fun c mem => ?_) fun c => ?_)
  · cases raises with
    | none => simp at mem
    | poll running room =>
      rw [List.mem_singleton.mp mem]
      exact .poll event running room
    | reads pending room => exact .read event (by simpa using mem) pending room
  · cases c with
    | starts => exact counts .starts
    | polls => exact counts .polls
    | attempts => exact counts .attempts
    | datasetReads => exact counts .datasetReads
    | kvReads => exact counts .kvReads
    | corrections =>
      have none_ : Counter.corrections ∉ up := by cases raises <;> simp
      rw [if_neg none_]
      rfl

theorem workCounted {op : Work} (event : label.event = .work op) (written : Event.written label.now (.work op))
    (ok : op.commit label.config label.now w.ledger = .ok l') : RowsCounted w label l' := by
  cases op with
  | recordObservation pk run =>
    obtain ⟨row,locked,done⟩ := bindOk.mp ok
    cases Except.ok.inj done
    exact .set (lockRunOk locked) rfl (observedCounts run label.now)
  | tripLatch reason run =>
    simp only [Work.commit] at ok
    split at ok
    · cases ok
    · cases Except.ok.inj ok
      exact .kept (tripOnly _ _ _ _ w.ledger).runs
  | beginAttempt pk cap overdue =>
    obtain ⟨⟨m,attempt⟩,done,rfl⟩ := mapOk ok
    exact beginCounted event done
  | finishAttempt pk cap deleted errors => exact finishCounted event ok
  | recordRunUsage pk run =>
    obtain ⟨⟨m,settled⟩,done,rfl⟩ := mapOk ok
    exact .kept (recordRunUsageReading done).runs
  | planSettlementRead pk =>
    obtain ⟨⟨m,remote⟩,done,rfl⟩ := mapOk ok
    obtain ⟨_,a,here,⟨_,same | ⟨next,saved⟩⟩ | ⟨planned,_,⟨cap,capped,room⟩,next,saved⟩⟩ := planSettlementReadRuns done
    · exact .kept same
    · exact .set here saved (SameColumns.still ⟨rfl,id,rfl,rfl,⟨rfl,rfl⟩,rfl,Iff.rfl⟩ fun c => by cases c <;> rfl)
    · obtain ⟨k,resv,unsettled⟩ := planSettlementReadOpen done planned
      refine .set here saved (SameColumns.raised ⟨rfl,id,rfl,rfl,⟨rfl,rfl⟩,rfl,Iff.rfl⟩ [.polls] (fun c mem => ?_)
        (by rintro ⟨⟩ <;> rfl))
      rw [List.mem_singleton.mp mem]
      exact .settlement event unsettled capped room
  | bindBuild pk buildId =>
    obtain ⟨⟨m,bound⟩,done,rfl⟩ := mapOk ok
    exact .kept (bindBuildReading done).runs
  | planBuildRead pk =>
    obtain ⟨⟨m,remote⟩,done,rfl⟩ := mapOk ok
    exact .kept (planBuildReadReading done).runs
  | recordBuildUsage pk build =>
    obtain ⟨⟨m,settled⟩,done,rfl⟩ := mapOk ok
    exact .kept (recordBuildUsageReading done).runs
  | releaseUnattached graceS =>
    obtain ⟨⟨m,pks⟩,done,rfl⟩ := mapOk ok
    exact .kept (releaseReading done).runs
  | settleOperator pk dataset verified => exact .kept (settleOperatorReading ok).runs
  | runChanged pk change =>
    obtain ⟨writer,rfl⟩ := written
    exact runChangedCounted event ok

theorem stepCounted (step : PollStep digest w label w') : RowsCounted w label w'.ledger := by
  obtain ⟨written,_,transition⟩ := step
  obtain ⟨config,now,event⟩ := label
  cases transition with
  | ensureCycle => exact .kept (ensureOnly _ _ _).runs
  | reserve ok =>
    obtain ⟨mid,state,row,admission⟩ := reserveSound ok
    exact .kept admission.runs
  | @createRun fields reservation l pk ok =>
    have created := createRunCreated ok
    intro q a here
    refine ⟨a,?_,.refl a⟩
    simp only [World.commit,created.runs]
    rw [List.getElem?_append_left (List.getElem?_eq_some_iff.mp here).1]
    exact here
  | startAnswered pending ok =>
    obtain ⟨row,locked,done⟩ := bindOk.mp ok
    cases Except.ok.inj done
    exact .set (lockRunOk locked) rfl (startedCounts rfl pending)
  | startFailed pending ok =>
    obtain ⟨row,locked,done⟩ := bindOk.mp ok
    cases Except.ok.inj done
    exact .set (lockRunOk locked) rfl
      (SameColumns.still ⟨rfl,id,rfl,rfl,⟨rfl,rfl⟩,rfl,Iff.rfl⟩ fun c => by cases c <;> rfl)
  | startLost => exact .kept rfl
  | startRefusalTripped pending => exact .kept (startRefusalOnly _ _ _ _).runs
  | startRefusalLost => exact .kept rfl
  | strandedLatchesTripped => exact strandedCounted _ _ _
  | latchCleared ok => exact .kept (clearLatchOnly ok).runs
  | work ok => exact workCounted rfl written ok
  | monitoringBegun ok =>
    rcases beginMonitoringCounted ok with ⟨same,_⟩ | ⟨q,a,cap,here,capped,room,_,_,saved⟩
    · exact .kept same
    · refine .set here saved (SameColumns.raised ⟨rfl,id,rfl,rfl,⟨rfl,rfl⟩,rfl,Iff.rfl⟩ [.corrections] (fun c mem => ?_)
        (by rintro ⟨⟩ <;> rfl))
      rw [List.mem_singleton.mp mem]
      exact .correction rfl capped room
  | monitoringCompleted pending ok => exact .kept (completeMonitoringReadReading ok).runs
  | monitoringLost => exact .kept rfl
  | staleMarkersResolved ok =>
    have resolved : Reading now w.ledger _ := resolveStaleReading ok
    exact .kept resolved.runs
  | restarted => exact .kept rfl
  | originClaimed ok => exact .kept (claimOriginOnly ok).runs
  | handoffExported ok => exact .kept (exportHandoffOnly ok).runs
  | handoffImported ok => exact .kept (importHandoffOnly ok).runs

end
end HwRadar.Apify
