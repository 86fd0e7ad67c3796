import HwRadar.Apify.RunWrites

/-! The work-completion anchor. It is set by the later of the two commits that end a
run's import and verify its storage deleted, and never moves. A runtime reservation
is reconciled only behind it, with a last charge that no known event follows. -/
namespace HwRadar.Apify
open HwRadar.Base HwRadar.Base.Tables

def ProviderRun.completed (row : ProviderRun) : Prop :=
  terminalImport row.importState = true ∧ row.storageState = .deleted

def ProviderRun.Stamped (row : ProviderRun) : Prop := row.finalChargeOpAt ≠ none ↔ row.completed

structure Completing (now : Int) (a b : ProviderRun) : Prop where
  stamped : b.Stamped
  kept : a.completed → b.completed ∧ b.finalChargeOpAt = a.finalChargeOpAt
  set : ¬a.completed → b.completed → b.finalChargeOpAt = some now

section
variable {now : Int} {event : Event} {l' : Ledger} {pk : Nat} {a b : ProviderRun}

theorem createdStamped (fields : RunFields) : (ProviderRun.created fields).Stamped := by
  simp [ProviderRun.Stamped,ProviderRun.completed,ProviderRun.created,terminalImport]

theorem Completing.still (stamped : a.Stamped) (imported : b.importState = a.importState)
    (storage : b.storageState = a.storageState) (final : b.finalChargeOpAt = a.finalChargeOpAt) :
    Completing now a b := by
  have same : b.completed ↔ a.completed := by
    unfold ProviderRun.completed
    rw [imported,storage]
  refine ⟨?_,fun done => ⟨same.mpr done,final⟩,fun undone done => absurd (same.mp done) undone⟩
  rw [ProviderRun.Stamped,final,same]
  exact stamped

theorem Completing.undone (stamped : a.Stamped) (before : ¬a.completed) (after : ¬b.completed)
    (final : b.finalChargeOpAt = a.finalChargeOpAt) : Completing now a b := by
  refine ⟨?_,fun done => absurd done before,fun _ done => absurd done after⟩
  rw [ProviderRun.Stamped,final]
  exact ⟨fun set => absurd (stamped.mp set) before,fun done => absurd done after⟩

theorem Completing.stamp (stamped : a.Stamped) (final : b.finalChargeOpAt = a.finalChargeOpAt)
    (kept : a.completed → b.completed) : Completing now a (stampWorkCompletion b now) := by
  unfold stampWorkCompletion
  split
  · rename_i completes
    simp only [Bool.and_eq_true,Option.isNone_iff_eq_none,beq_iff_eq] at completes
    obtain ⟨⟨unset,terminal⟩,deleted⟩ := completes
    have undone : ¬a.completed := fun done => stamped.mpr done (final ▸ unset)
    exact ⟨⟨fun _ => ⟨terminal,deleted⟩,fun _ => nofun⟩,fun done => absurd done undone,fun _ _ => rfl⟩
  · rename_i blocked
    have iff : b.Stamped := by
      refine ⟨fun set => kept (stamped.mp (final ▸ set)),fun done unset => blocked ?_⟩
      simp [unset,done.1,done.2]
    refine ⟨iff,fun done => ⟨kept done,final⟩,fun undone done => ?_⟩
    exact absurd (stamped.mp (final ▸ iff.mpr done)) undone

theorem attemptedCompleting (stamped : a.Stamped) (deleted : List Storage) (errors : List String) :
    Completing now a (attemptedRow now a deleted errors) := by
  simp only [attemptedRow]
  split
  · exact .stamp stamped rfl fun done => ⟨done.1,rfl⟩
  · exact .still stamped rfl rfl rfl

theorem orKeptCompleting (stamped : a.Stamped) {made : Except Halt ProviderRun}
    (each : ∀ moved, made = .ok moved → Completing now a moved) : Completing now a (orKept a made) := by
  cases made with
  | error halt => exact .still stamped rfl rfl rfl
  | ok moved => exact each moved rfl

theorem advanceCompleting (stamped : a.Stamped) {expected dest : ImportState}
    (before : terminalImport expected = false) (after : terminalImport dest = false) :
    Completing now a (orKept a (advanceRun expected dest a)) := by
  refine orKeptCompleting stamped fun moved made => ?_
  obtain ⟨here,rfl⟩ := advanceRunOk made
  rw [← here] at before
  exact .undone stamped (fun done => by simp [done.1] at before) (fun done => by simp [done.1] at after) rfl

theorem writtenCompleting (stamped : a.Stamped) (writer : Writer) :
    Completing now a (writer.write now a) := by
  cases writer with
  | claim created =>
    simp only [Writer.write,claimRun]
    split
    · exact .still stamped rfl rfl rfl
    · exact .still stamped rfl rfl rfl
  | countReads maxDataset maxKv latch =>
    refine orKeptCompleting stamped fun counted made => ?_
    obtain ⟨_,_,_,rfl⟩ := countReadsOk made
    exact .still stamped rfl rfl rfl
  | observe =>
    refine orKeptCompleting stamped fun moved made => ?_
    obtain ⟨here,rfl⟩ := observeRunOk made
    have before : terminalImport a.importState = false := by rw [here]; rfl
    exact .undone stamped (fun done => by simp [done.1] at before) (fun done => nomatch done.1) rfl
  | applyAbsence => exact advanceCompleting stamped rfl rfl
  | resolve => exact advanceCompleting stamped rfl rfl
  | evaluate => exact advanceCompleting stamped rfl rfl
  | finalize =>
    refine orKeptCompleting stamped fun moved made => ?_
    obtain ⟨here,rfl⟩ := finalizeRunOk made
    have before : terminalImport a.importState = false := by rw [here]; rfl
    exact .stamp stamped rfl fun done => by simp [done.1] at before
  | reject onlyFrom =>
    simp only [Writer.write]
    cases made : rejectRun onlyFrom now a with
    | none => exact .still stamped rfl rfl rfl
    | some moved =>
      obtain ⟨before,_,rfl⟩ := rejectRunSome made
      exact .stamp stamped rfl fun done => by simp [done.1] at before
  | countPoll cap =>
    simp only [Writer.write,Apify.countPoll]
    split
    · exact .still stamped rfl rfl rfl
    · exact .still stamped rfl rfl rfl
  | backOff next => exact .still stamped rfl rfl rfl

theorem moveCompleting (stamped : a.Stamped) (move : RunMove now event l' pk a b) : Completing now a b := by
  cases move with
  | observed run =>
    simp only [observedRow,applyRunFields]
    split
    · exact .still stamped rfl rfl rfl
    · exact .still stamped rfl rfl rfl
  | started run mismatches _ =>
    simp only [startedRow,applyRunFields]
    split <;> split <;> exact .still stamped rfl rfl rfl
  | marked retained tripped =>
    exact .undone stamped (fun done => retained done.2) (fun done => by cases done.2) rfl
  | finished cap deleted errors => exact attemptedCompleting stamped deleted errors
  | exhausted cap deleted errors _ retained tripped =>
    have attempted := @attemptedCompleting now a stamped deleted errors
    refine .undone stamped (fun done => retained (attempted.kept done).1.2) (fun done => by cases done.2) ?_
    have undone : ¬a.completed := fun done => retained (attempted.kept done).1.2
    have unset : a.finalChargeOpAt = none := by
      by_contra set
      exact undone (stamped.mp set)
    have still : (attemptedRow now a deleted errors).finalChargeOpAt = none := by
      by_contra set
      exact retained (attempted.stamped.mp set).2
    exact still.trans unset.symm
  | written writer =>
    obtain ⟨iff,kept,fresh⟩ := @writtenCompleting now a stamped writer
    exact ⟨iff,kept,fresh⟩
  | same | startFailed | orphaned | attempted | deferred | polled | monitored => exact .still stamped rfl rfl rfl
end

structure SettledBy (config : LedgerConfig) (now : Int) (l : Ledger) (k : Nat) (row : Reservation) (pk : Nat)
    (run : ProviderRun) (final last window : Int) : Prop where
  linked : row.providerRun = some pk
  here : l.runs[pk]? = some run
  completed : run.completed
  anchored : run.finalChargeOpAt = some final
  charged : row.lastChargeAt = some last
  afterFinal : final ≤ last
  afterFinish : ∀ finished, run.finishedAt = some finished → finished ≤ last
  afterNow : now ≤ last
  windowed : settingSeconds config.correctionWindowS "CORRECTION_WINDOW_S" = .ok window
  monitor : row.correctionMonitorUntil = some (last + window)

inductive StatusMove (config : LedgerConfig) (now : Int) (l : Ledger) (k : Nat) (r r' : Reservation) : Prop where
  | kept (same : r'.status = r.status)
  | priced (opened : r.status.isOpen = true) (same : r'.status = .usageProvisional)
  | settled {pk run final last window} (settled : SettledBy config now l k r' pk run final last window)
      (same : r'.status = .reconciled)
  | operator (operator : r.admissionClass = .operator)
  | released (reserved : r.status = .reserved) (unattached : r.providerRun = none) (same : r'.status = .released)

def StatusMoves (config : LedgerConfig) (now : Int) (l l' : Ledger) : Prop :=
  ∀ (k : Nat) r r', l.reservations[k]? = some r → l'.reservations[k]? = some r' → StatusMove config now l' k r r'

section
variable {config : LedgerConfig} {now : Int} {l l' : Ledger} {pk : Nat} {resv row : Reservation}

theorem StatusMoves.kept (same : l'.reservations = l.reservations) : StatusMoves config now l l' := by
  intro k r r' here there
  rw [same,here] at there
  cases Option.some.inj there
  exact .kept rfl

theorem StatusMoves.set (here : l.reservations[pk]? = some resv) (saved : l'.reservations = l.reservations.set pk row)
    (move : StatusMove config now l' pk resv row) : StatusMoves config now l l' := by
  intro k r r' at_ there
  by_cases own : pk = k
  · subst own
    rw [saved,List.getElem?_set_self (List.getElem?_eq_some_iff.mp here).1] at there
    cases Option.some.inj there
    cases Option.some.inj (here.symm.trans at_)
    exact move
  · rw [saved,List.getElem?_set_ne own,at_] at there
    cases Option.some.inj there
    exact .kept rfl

theorem settlementTimesWindow {anchorAt from_ deadline window : Int}
    (times : settlementTimes anchorAt config = .ok (from_,deadline,window)) :
    settingSeconds config.correctionWindowS "CORRECTION_WINDOW_S" = .ok window := by
  unfold settlementTimes at times
  cases eligible : eligibleFrom anchorAt config with
  | error denied => simp [eligible,bind,Except.bind] at times
  | ok from' =>
    cases finalize : settingSeconds config.usageFinalizeDeadlineS "USAGE_FINALIZE_DEADLINE_S" with
    | error denied => simp [eligible,finalize,bind,Except.bind] at times
    | ok deadline' =>
      cases found : settingSeconds config.correctionWindowS "CORRECTION_WINDOW_S" with
      | error denied => simp [eligible,finalize,found,bind,Except.bind] at times
      | ok window' => simp_all [bind,Except.bind]

theorem settlementBy {reads : List UsageRead} {run : ProviderRun}
    (settles : settlement config now reads resv (some run) = some row) :
    run.completed ∧ row.providerRun = resv.providerRun ∧ row.status = .reconciled ∧
    ∃ final last window, run.finalChargeOpAt = some final ∧ row.lastChargeAt = some last ∧ final ≤ last ∧
      (∀ finished, run.finishedAt = some finished → finished ≤ last) ∧ now ≤ last ∧
      settingSeconds config.correctionWindowS "CORRECTION_WINDOW_S" = .ok window ∧
      row.correctionMonitorUntil = some (last + window) := by
  unfold settlement at settles
  split at settles
  · cases settles
  split at settles
  · cases settles
  rename_i barriers
  split at settles
  · cases settles
  split at settles
  · cases settles
  rename_i anchorAt anchored
  split at settles
  · cases settles
  rename_i from_ deadline window times
  obtain ⟨s,_,rfl⟩ := Option.map_eq_some_iff.mp settles
  obtain ⟨final,set,_⟩ := Option.map_eq_some_iff.mp anchored
  simp only [Option.any_some,Bool.or_eq_true,Bool.not_eq_true',bne_iff_ne,ne_eq,not_or,Bool.not_eq_false,
    not_not] at barriers
  refine ⟨barriers,rfl,rfl,final,max now (max (run.finalChargeOpAt.getD now) (run.finishedAt.getD now)),window,set,rfl,
    ?_,?_,le_max_left _ _,settlementTimesWindow times,rfl⟩
  · rw [set]
    exact le_trans (le_max_left _ _) (le_max_right _ _)
  · intro finished ended
    rw [ended]
    exact le_trans (le_max_right _ _) (le_max_right _ _)

theorem settlementBuild {reads : List UsageRead}
    (settles : settlement config now reads resv none = some row) : resv.providerBuildId ≠ none := by
  unfold settlement at settles
  split at settles
  · cases settles
  split at settles
  · cases settles
  split at settles
  · cases settles
  rename_i bound
  simpa using bound

theorem trySettleRow {run : Option (ProviderRun × Nat)} {settled : Bool}
    (ok : trySettle pk resv run now config l = .ok (l',settled)) :
    (settled = false ∧ l' = l) ∨ ∃ row, settled = true ∧ l'.reservations = l.reservations.set pk row ∧
      settlement config now (readsOf l pk) resv (run.map Prod.fst) = some row := by
  unfold trySettle at ok
  split at ok
  · cases Except.ok.inj ok; exact .inl ⟨rfl,rfl⟩
  · rename_i row settles
    obtain ⟨m,save,done⟩ := bindOk.mp ok
    cases Except.ok.inj done
    refine .inr ⟨row,rfl,?_,settles⟩
    have saved := ((savedBy save).before (tripWhenAside (by decide : LatchReason.overrun ≠ .accountLimitRefused)
      (resv.estimateUsd.getD 0 < row.actualUsd.getD 0) (run.map Prod.snd) config now m)).reservations
    exact saved

theorem applyReadRow {run : Option (ProviderRun × Nat)} {u : ApifyUsage} {finishedAt : Option Int} {settled : Bool}
    (ok : applyRead pk resv run now u finishedAt config l = .ok (l',settled)) :
    l'.reservations = l.reservations.set pk (provisional resv u.usageTotalUsd) ∨
    ∃ row reads, l'.reservations = l.reservations.set pk row ∧
      settlement config now reads (provisional resv u.usageTotalUsd) (run.map Prod.fst) = some row := by
  obtain ⟨⟨m,read⟩,appended,ok⟩ := bindOk.mp ok
  obtain ⟨n,save,tried⟩ := bindOk.mp ok
  have rows := (savedBy save).reservations
  rw [(appendReadAside appended).1.reservations] at rows
  rcases trySettleRow tried with ⟨_,rfl⟩ | ⟨row,_,saved,settles⟩
  · exact .inl rows
  · exact .inr ⟨row,_,by rw [saved,rows,List.set_set],settles⟩

theorem provisionalKeeps (resv : Reservation) (total : Option ℚ) :
    (provisional resv total).providerRun = resv.providerRun ∧
    (provisional resv total).providerBuildId = resv.providerBuildId ∧
    ((provisional resv total).status = resv.status ∨
      resv.status = .reserved ∧ (provisional resv total).status = .usageProvisional) := by
  cases total with
  | none => exact ⟨rfl,rfl,.inl rfl⟩
  | some total =>
    refine ⟨rfl,rfl,?_⟩
    simp only [provisional]
    split
    · rename_i reserved
      exact .inr ⟨reserved,rfl⟩
    · exact .inl rfl

theorem provisionalMove (resv : Reservation) (total : Option ℚ) :
    StatusMove config now l pk resv (provisional resv total) := by
  rcases (provisionalKeeps resv total).2.2 with same | ⟨reserved,same⟩
  · exact .kept same
  · exact .priced (by rw [reserved]; rfl) same

theorem recordRunUsageStatuses {run : ApifyRun} {settled : Bool}
    (ok : recordRunUsage pk run now config l = .ok (l',settled)) : StatusMoves config now l l' := by
  have kept := recordRunUsageReading ok
  obtain ⟨locked,held,ok⟩ := bindOk.mp ok
  have tripped := (tripWhenAside (by decide : LatchReason.unexpectedUsageComponent ≠ .accountLimitRefused)
    (!(unexpectedComponents run.toApifyUsage).isEmpty) (some pk) config now l).trans (tripWhenAside
    (by decide : LatchReason.startOptionMismatch ≠ .accountLimitRefused)
    (run.restartCount.any fun n => n != 0) (some pk) config now _)
  simp only at ok
  split at ok
  · cases Except.ok.inj ok; exact .kept tripped.reservations
  rename_i resv key found
  split at ok
  · obtain ⟨here,linked⟩ := reservationOfSome found
    obtain ⟨sameRun,_,_⟩ := provisionalKeeps resv run.usageTotalUsd
    rcases applyReadRow ok with saved | ⟨row,reads,saved,settles⟩
    · exact .set (tripped.reservations ▸ here) (tripped.reservations ▸ saved) (provisionalMove _ _)
    · obtain ⟨completed,rowRun,closed,final,last,window,set,ends,after⟩ := settlementBy settles
      have settled : SettledBy config now l' key row pk locked final last window := {
        linked := rowRun.trans (sameRun.trans linked)
        here := kept.runs ▸ lockRunOk held
        completed, anchored := set, charged := ends
        afterFinal := after.1
        afterFinish := after.2.1
        afterNow := after.2.2.1
        windowed := after.2.2.2.1
        monitor := after.2.2.2.2 }
      exact .set (tripped.reservations ▸ here) (tripped.reservations ▸ saved) (.settled settled closed)
  · cases Except.ok.inj ok; exact .kept tripped.reservations

theorem planSettlementReadStatuses {remote : Option String}
    (ok : planSettlementRead pk now config l = .ok (l',remote)) : StatusMoves config now l l' := by
  obtain ⟨run,held,ok⟩ := bindOk.mp ok
  split at ok
  · cases Except.ok.inj ok; exact .kept rfl
  rename_i resv key found
  obtain ⟨here,linked⟩ := reservationOfSome found
  split at ok
  · cases Except.ok.inj ok; exact .kept rfl
  obtain ⟨⟨m,settled⟩,tried,planned⟩ := bindOk.mp ok
  obtain ⟨runs,_⟩ := trySettleReading tried
  rcases trySettleRow tried with ⟨rfl,rfl⟩ | ⟨row,rfl,saved,settles⟩
  · simp only [Bool.false_eq_true,if_false] at planned
    split at planned
    · split at planned
      · cases Except.ok.inj planned; exact .kept rfl
      split at planned
      · cases Except.ok.inj planned; exact .kept rfl
      split at planned
      · cases Except.ok.inj planned; exact .kept rfl
      · cases Except.ok.inj planned; exact .kept rfl
    · cases Except.ok.inj planned; exact .kept rfl
  · cases Except.ok.inj planned
    obtain ⟨completed,rowRun,closed,final,last,window,set,ends,after⟩ := settlementBy settles
    have settled : SettledBy config now l' key row pk run final last window := {
      linked := rowRun.trans linked
      here := runs ▸ lockRunOk held
      completed, anchored := set, charged := ends
      afterFinal := after.1
      afterFinish := after.2.1
      afterNow := after.2.2.1
      windowed := after.2.2.2.1
      monitor := after.2.2.2.2 }
    exact .set here saved (.settled settled closed)

theorem builtOperator (mem : resv ∈ l.reservations) (built : resv.providerBuildId ≠ none) :
    resv.admissionClass = .operator := by
  have checked := l.rowsChecked resv mem
  exact checked.operatorKindIffOperator.mpr (by rw [checked.buildIdOnlyOnBuild built]; nofun)

theorem planBuildReadStatuses {remote : Option String} (ok : planBuildRead pk now config l = .ok (l',remote)) :
    StatusMoves config now l l' := by
  obtain ⟨resv,held,ok⟩ := bindOk.mp ok
  have here := lockReservationOk held
  split at ok
  · cases Except.ok.inj ok; exact .kept rfl
  rename_i build built
  have operator := builtOperator (List.mem_of_getElem? here) (by rw [built]; nofun)
  split at ok
  · cases Except.ok.inj ok; exact .kept rfl
  obtain ⟨⟨m,settled⟩,tried,planned⟩ := bindOk.mp ok
  rcases trySettleRow tried with ⟨rfl,rfl⟩ | ⟨row,rfl,saved,_⟩
  · simp only [Bool.false_eq_true,if_false] at planned
    split at planned
    · cases Except.ok.inj planned; exact .kept rfl
    obtain ⟨n,save,done⟩ := bindOk.mp planned
    cases Except.ok.inj done
    exact .set here (savedBy save).reservations (.operator operator)
  · cases Except.ok.inj planned
    exact .set here saved (.operator operator)

theorem recordBuildUsageStatuses {build : ApifyBuild} {settled : Bool}
    (ok : recordBuildUsage pk build now config l = .ok (l',settled)) : StatusMoves config now l l' := by
  obtain ⟨resv,held,ok⟩ := bindOk.mp ok
  have here := lockReservationOk held
  have tripped := tripWhenAside (by decide : LatchReason.unexpectedUsageComponent ≠ .accountLimitRefused)
    (!(unexpectedComponents build.toApifyUsage).isEmpty) none config now l
  simp only at ok
  split at ok
  · obtain ⟨_,sameBuild,_⟩ := provisionalKeeps resv build.usageTotalUsd
    rcases applyReadRow ok with saved | ⟨row,reads,saved,settles⟩
    · exact .set here (tripped.reservations ▸ saved) (provisionalMove _ _)
    · have built : resv.providerBuildId ≠ none := sameBuild ▸ settlementBuild settles
      have operator := builtOperator (List.mem_of_getElem? here) built
      exact .set here (tripped.reservations ▸ saved) (.operator operator)
  · cases Except.ok.inj ok; exact .kept tripped.reservations

theorem foldSavedStatuses {f : Reservation → Reservation} {chosen : Reservation → Bool}
    (ok : ((l.reservations.zipIdx.filter fun entry => chosen entry.1).map Prod.snd).foldlM (fun l pk => do
      let row ← Ledger.lockReservation l pk
      Ledger.saveReservation l pk (f row)) l = .ok l')
    (each : ∀ k row, chosen row = true → StatusMove config now l' k row (f row)) : StatusMoves config now l l' := by
  obtain ⟨_,rows⟩ := foldSavedMap ok
  intro k r r' here there
  simp only [rows,List.getElem?_map,here,Option.map_some,Option.some.injEq] at there
  by_cases mine : chosen r = true
  · rw [← there,if_pos mine]
    exact each k r mine
  · rw [← there,if_neg mine]
    exact .kept rfl

theorem bindBuildStatuses {buildId : String} {bound : Bool} (ok : bindBuild pk buildId now l = .ok (l',bound)) :
    StatusMoves config now l l' := by
  unfold bindBuild at ok
  simp only at ok
  split at ok
  · cases ok
  split at ok
  · cases ok
  rename_i resv here
  split at ok
  · cases ok
  split at ok
  · split at ok
    · cases Except.ok.inj ok; exact .kept rfl
    · cases ok
  split at ok
  · cases ok
  split at ok
  · cases ok
  obtain ⟨m,save,done⟩ := bindOk.mp ok
  cases Except.ok.inj done
  exact .set here (savedBy save).reservations (.kept rfl)

theorem settleOperatorStatuses {dataset : Option String} {verified : Bool}
    (ok : settleOperator pk now dataset verified l = .ok l') : StatusMoves config now l l' := by
  unfold settleOperator at ok
  split at ok
  · cases ok
  rename_i resv here
  split at ok
  · cases ok
  rename_i operator
  split at ok
  · cases ok
  split at ok
  · cases ok
  simp only at ok
  split at ok
  · cases ok
  exact .set here (savedBy ok).reservations (.operator (not_not.mp operator))

theorem workStatuses {op : Work} (ok : op.commit config now l = .ok l') : StatusMoves config now l l' := by
  cases op with
  | recordObservation pk run => exact .kept (recordObservationAside ok).reservations
  | tripLatch reason run =>
    simp only [Work.commit] at ok
    split at ok
    · cases ok
    · cases Except.ok.inj ok; exact .kept (tripOnly _ _ _ _ l).reservations
  | beginAttempt pk cap overdue =>
    obtain ⟨⟨m,attempt⟩,done,rfl⟩ := mapOk ok
    exact .kept (beginAttemptAside done).reservations
  | finishAttempt pk cap deleted errors => exact .kept (finishAttemptAside ok).reservations
  | recordRunUsage pk run =>
    obtain ⟨⟨m,settled⟩,done,rfl⟩ := mapOk ok
    exact recordRunUsageStatuses done
  | planSettlementRead pk =>
    obtain ⟨⟨m,remote⟩,done,rfl⟩ := mapOk ok
    exact planSettlementReadStatuses done
  | bindBuild pk buildId =>
    obtain ⟨⟨m,bound⟩,done,rfl⟩ := mapOk ok
    exact bindBuildStatuses done
  | planBuildRead pk =>
    obtain ⟨⟨m,remote⟩,done,rfl⟩ := mapOk ok
    exact planBuildReadStatuses done
  | recordBuildUsage pk build =>
    obtain ⟨⟨m,settled⟩,done,rfl⟩ := mapOk ok
    exact recordBuildUsageStatuses done
  | releaseUnattached graceS =>
    obtain ⟨⟨m,pks⟩,done,rfl⟩ := mapOk ok
    unfold releaseUnattachedReservations at done
    split at done
    · cases Except.ok.inj done; exact .kept rfl
    split at done
    · cases Except.ok.inj done; exact .kept rfl
    obtain ⟨n,folded,same⟩ := mapOk done
    cases same
    refine foldSavedStatuses folded fun k row chosen => ?_
    simp only [releasable,Bool.and_eq_true,beq_iff_eq,Option.isNone_iff_eq_none] at chosen
    exact .released chosen.1.1.1 chosen.1.1.2 rfl
  | settleOperator pk dataset verified => exact settleOperatorStatuses ok
  | runChanged pk change =>
    obtain ⟨row,locked,done⟩ := bindOk.mp ok
    cases Except.ok.inj done
    exact .kept rfl

theorem transitionStatuses {digest : Json → String} {w w' : World} {event : Event}
    (step : Transition digest config now w event w') : StatusMoves config now w.ledger w'.ledger := by
  cases step with
  | ensureCycle => exact .kept (ensureOnly _ _ _).reservations
  | reserve ok =>
    obtain ⟨mid,state,row,admission⟩ := reserveSound ok
    intro k r r' here there
    rw [World.commit,admission.appended,List.getElem?_append_left (List.getElem?_eq_some_iff.mp here).1,here] at there
    cases Option.some.inj there
    exact .kept rfl
  | @createRun fields reservation l pk ok =>
    unfold createRun at ok
    simp only at ok
    split at ok
    · cases Except.ok.inj ok; exact .kept rfl
    split at ok
    · cases ok
    rename_i row here
    split at ok
    · obtain ⟨m,save,done⟩ := bindOk.mp ok
      cases Except.ok.inj done
      exact .set here (savedBy save).reservations (.kept rfl)
    · cases ok
  | startAnswered pending ok => exact .kept (recordStartAside ok).reservations
  | startFailed pending ok =>
    obtain ⟨row,locked,done⟩ := bindOk.mp ok
    cases Except.ok.inj done
    exact .kept rfl
  | startRefusalTripped pending => exact .kept (startRefusalOnly _ _ _ _).reservations
  | @strandedLatchesTripped cap =>
    obtain ⟨m,aside,same⟩ := tripStrandedLatchesSplit cap config.budget.estimatorVersion now w.ledger
    have refusals := strandedRefusalsOnly config.budget.estimatorVersion now m
    rw [← same] at refusals
    exact .kept (refusals.reservations.trans aside.reservations)
  | latchCleared ok => exact .kept (clearLatchOnly ok).reservations
  | work ok => exact workStatuses ok
  | monitoringBegun ok =>
    rcases beginMonitoringReadEffect ok with ⟨_,rfl⟩ | ⟨resv,row,_,here,begun,saved⟩
    · exact .kept rfl
    · obtain ⟨count,rfl⟩ := begun.marked
      exact .set here saved.reservations (.kept rfl)
  | monitoringCompleted pending ok =>
    obtain ⟨resv,row,here,completed,saved⟩ := completeMonitoringReadSaved ok
    obtain ⟨corrected,run,read,untilAt,reconciledAt,upward,_,rfl⟩ := completed.applied
    have status := (completedTerms corrected run read untilAt reconciledAt now config).2.2.2.1
    refine .set here saved.reservations (.kept ?_)
    rcases upward with rfl | ⟨figure,_,rfl⟩
    · exact status
    · exact status
  | staleMarkersResolved ok =>
    obtain ⟨m,folded,same⟩ := mapOk ok
    cases same
    exact foldSavedStatuses folded fun _ _ _ => .kept rfl
  | originClaimed ok => exact .kept (claimOriginOnly ok).reservations
  | handoffExported ok => exact .kept (exportHandoffOnly ok).reservations
  | handoffImported ok => exact .kept (importHandoffOnly ok).reservations
  | startLost | startRefusalLost | monitoringLost | restarted => exact .kept rfl
end

structure World.Completion (w : World) : Prop where
  stamped : ∀ (pk : Nat) row, w.ledger.runs[pk]? = some row → row.Stamped
  reads : ∀ read ∈ w.ledger.usageReads, read.readAt ≤ w.clock

section
variable {digest : Json → String} {w w' : World} {label : Label}

theorem completionStep (inv : w.Completion) (step : PollStep digest w label w') : w'.Completion ∧
    ∀ (pk : Nat) a, w.ledger.runs[pk]? = some a → ∃ b, w'.ledger.runs[pk]? = some b ∧ Completing label.now a b := by
  have moved := pollMoved step
  have clock := transitionClock step.2.2
  have rows : ∀ (pk : Nat) a, w.ledger.runs[pk]? = some a →
      ∃ b, w'.ledger.runs[pk]? = some b ∧ Completing label.now a b := by
    intro pk a here
    obtain ⟨b,there,move⟩ := moved.rows pk a here
    exact ⟨b,there,moveCompleting (inv.stamped pk a here) move⟩
  refine ⟨⟨fun pk b there => ?_,fun read mem => ?_⟩,rows⟩
  · by_cases old : pk < w.ledger.runs.length
    · obtain ⟨c,found,completing⟩ := rows pk _ (List.getElem?_eq_getElem old)
      cases Option.some.inj (found.symm.trans there)
      exact completing.stamped
    · have bound := (List.getElem?_eq_some_iff.mp there).1
      rcases moved.added with same | ⟨fields,appended⟩
      · omega
      · rw [appended,List.getElem?_append_right (Nat.le_of_not_lt old)] at there
        have mem := List.mem_of_getElem? there
        rw [List.mem_singleton.mp mem]
        exact createdStamped fields
  · obtain ⟨added,appended,fresh⟩ := moved.reads
    rw [appended] at mem
    rw [clock]
    rcases List.mem_append.mp mem with old | new
    · exact (inv.reads read old).trans step.2.1
    · exact (fresh read new).le

theorem completionRun {t0 : Int} {trace : List Label}
    (run : Runs (PollStep digest) (World.start .empty t0) trace w) : w.Completion :=
  run.invariant World.Completion (fun inv step => (completionStep inv step).1)
    ⟨fun pk row here => by simp [World.start,Ledger.empty] at here,
     fun read mem => by simp [World.start,Ledger.empty] at mem⟩
end

theorem completionAnchored {digest : Json → String} {t0 : Int} {trace : List Label} {w w' : World} {label : Label}
    (run : Runs (PollStep digest) (World.start .empty t0) trace w) (step : PollStep digest w label w') :
    (∀ row ∈ w.ledger.runs, row.finalChargeOpAt ≠ none ↔ row.completed) ∧
    (∀ (pk : Nat) a, w.ledger.runs[pk]? = some a → ∃ b, w'.ledger.runs[pk]? = some b ∧
      (a.completed → b.completed ∧ b.finalChargeOpAt = a.finalChargeOpAt) ∧
      (¬a.completed → b.completed → b.finalChargeOpAt = some label.now) ∧
      (¬a.completed → ¬b.completed → b.finalChargeOpAt = none)) ∧
    ∀ (k : Nat) r r', w.ledger.reservations[k]? = some r → w'.ledger.reservations[k]? = some r' →
      r.status ≠ .reconciled → r'.status = .reconciled → r.admissionClass ≠ .operator →
      ∃ pk run final last window, SettledBy label.config label.now w'.ledger k r' pk run final last window ∧
        ∀ read ∈ w'.ledger.usageReads, read.readAt ≤ last := by
  have inv := completionRun run
  obtain ⟨next,rows⟩ := completionStep inv step
  refine ⟨fun row mem => ?_,fun pk a here => ?_,fun k r r' here there open_ reconciled runtime => ?_⟩
  · obtain ⟨pk,here⟩ := List.mem_iff_getElem?.mp mem
    exact inv.stamped pk row here
  · obtain ⟨b,there,completing⟩ := rows pk a here
    refine ⟨b,there,completing.kept,completing.set,fun _ undone => ?_⟩
    by_contra set
    exact undone (completing.stamped.mp set)
  · cases transitionStatuses step.2.2 k r r' here there with
    | @settled pk run final last window settled =>
      refine ⟨pk,run,final,last,window,settled,fun read mem => ?_⟩
      have known := next.reads read mem
      rw [transitionClock step.2.2] at known
      exact known.trans settled.afterNow
    | kept same => exact absurd (same ▸ reconciled) open_
    | priced _ same => simp [same] at reconciled
    | operator operator => exact absurd operator runtime
    | released _ _ same => simp [same] at reconciled

def soloNow : Int := Calendar.midnight 2026 9 26

theorem soloItems : (0 : Int) ≤ 100 := by decide
theorem soloBytes : (0 : Int) ≤ 1000000 := by decide

def soloShape : RunShape :=
  ⟨512,300,100,20,1000000,32735,by decide,by decide,by decide,soloItems,by decide,soloBytes⟩

def soloFields : RunFields :=
  { sourceSite := 1, scopeKey := "epyc", memoryMb := 512, timeoutS := 300, maxItems := 100, maxPages := 5
    admissionClass := .discovery, admittedAt := soloNow, storageCleanupDueAt := soloNow + Calendar.days 3 }

def soloRun (status : String) : RemoteRun :=
  ⟨"run1",status,some soloNow,some (soloNow + Calendar.minutes 4),some "ds1",some "kv1"⟩

def soloClaim : Except Fault Ledger := claimOrigin "the owner" verifiedConfig soloNow .empty
def soloClaimed : World := (World.start .empty soloNow).commit soloNow (committed .empty soloClaim)
def soloReserving : Except Fault (Ledger × ReservationOutcome) :=
  reserve (.discovery soloShape) (some 1) verifiedConfig soloNow "" soloClaimed.ledger
def soloReserved : World :=
  soloClaimed.commit soloNow (committed (.empty,⟨false,none,"",0,none⟩) soloReserving).1
def soloCreation : Except Fault (Ledger × Nat) := createRun soloFields (some 0) soloReserved.ledger
def soloCreated : World :=
  { soloReserved.commit soloNow (committed (.empty,0) soloCreation).1 with
    starting := (committed (.empty,0) soloCreation).2::soloReserved.starting }
def soloAnswer : Except Fault Ledger := recordStart 0 (soloRun "RUNNING") [] soloNow soloCreated.ledger
def soloAnswered : World :=
  { soloCreated.commit soloNow (committed .empty soloAnswer) with starting := without 0 soloCreated.starting }

def writes (now : Int) (writer : Writer) : Int × Work :=
  (now,.runChanged 0 fun row => writer.write now row)

def soloImported : Int := soloNow + Calendar.minutes 5
def soloDeleted : Int := soloNow + Calendar.minutes 6
def soloDue : Int := soloNow + Calendar.hours 2

def soloUnits : List (Int × Work) :=
  [(soloImported,.recordObservation 0 (soloRun "SUCCEEDED")),writes soloImported (.claim 0),
   writes soloImported (.countReads 3 3 false),writes soloImported .observe,writes soloImported .applyAbsence,
   writes soloImported .resolve,writes soloImported .evaluate,writes soloImported .finalize,
   (soloDeleted,.beginAttempt 0 10 false),(soloDeleted,.finishAttempt 0 10 [.dataset,.kvStore] []),
   (soloDue,.planSettlementRead 0)]

def soloUsage : ApifyRun :=
  { usageTotalUsd := some (1/1000), usageUsd := none, usage := none, unparseableUsage := [],
    finishedAt := some (soloNow + Calendar.minutes 4), restartCount := none }

def soloPlanned : World := soloUnits.foldl (World.worked verifiedConfig) soloAnswered
def soloSettled : World := soloPlanned.worked verifiedConfig (soloDue,.recordRunUsage 0 soloUsage)

def soloClaimLabel : Label := ⟨verifiedConfig,soloNow,.originClaimed "the owner"⟩
def soloReserveLabel : Label := ⟨verifiedConfig,soloNow,.reserve (.discovery soloShape) (some 1) ""
  (committed (.empty,⟨false,none,"",0,none⟩) soloReserving).2.admitted⟩
def soloCreateLabel : Label := ⟨verifiedConfig,soloNow,.createRun soloFields (some 0)⟩

theorem soloClaims : PollStep (fun _ => "") (World.start .empty soloNow) soloClaimLabel soloClaimed :=
  ⟨trivial,le_rfl,.originClaimed (committedOk (by decide +kernel))⟩

theorem soloReserves : PollStep (fun _ => "") soloClaimed soloReserveLabel soloReserved :=
  ⟨trivial,le_rfl,.reserve (committedAs (by decide +kernel) rfl)⟩

theorem soloCreates : PollStep (fun _ => "") soloReserved soloCreateLabel soloCreated :=
  ⟨trivial,le_rfl,.createRun (committedAs (by decide +kernel) rfl)⟩

theorem soloPlannedRun :
    ∃ trace, Runs (PollStep fun _ => "") (World.start .empty soloNow) trace soloPlanned := by
  have answered : PollStep (fun _ => "") soloCreated
      ⟨verifiedConfig,soloNow,.startAnswered 0 (soloRun "RUNNING") []⟩ soloAnswered :=
    ⟨trivial,le_rfl,.startAnswered (by decide +kernel) (committedOk (by decide +kernel))⟩
  have worked := @workedRun (fun _ => "") verifiedConfig soloAnswered soloUnits (by
    simp only [soloUnits,List.forall_mem_cons,List.not_mem_nil,false_implies,implies_true,and_true]
    exact ⟨trivial,⟨_,rfl⟩,⟨_,rfl⟩,⟨_,rfl⟩,⟨_,rfl⟩,⟨_,rfl⟩,⟨_,rfl⟩,⟨_,rfl⟩,trivial,trivial,trivial⟩)
    (by decide +kernel)
  exact ⟨_,.cons soloClaims <| .cons soloReserves <| .cons soloCreates <| .cons answered worked⟩

def soloPlannedRow : Reservation := soloPlanned.ledger.reservations[0]?.get (by decide +kernel)
def soloSettledRow : Reservation := soloSettled.ledger.reservations[0]?.get (by decide +kernel)

theorem soloSettledBy : ∃ pk run final last window,
    SettledBy verifiedConfig soloDue soloSettled.ledger 0 soloSettledRow pk run final last window ∧
    ∀ read ∈ soloSettled.ledger.usageReads, read.readAt ≤ last := by
  obtain ⟨trace,run⟩ := soloPlannedRun
  have settles : PollStep (fun _ => "") soloPlanned
      ⟨verifiedConfig,soloDue,.work (.recordRunUsage 0 soloUsage)⟩ soloSettled :=
    ⟨trivial,by decide +kernel,.work (committedOk (by decide +kernel))⟩
  have before : soloPlanned.ledger.reservations[0]? = some soloPlannedRow := (Option.some_get _).symm
  have after : soloSettled.ledger.reservations[0]? = some soloSettledRow := (Option.some_get _).symm
  exact (completionAnchored run settles).2.2 0 _ _ before after (by decide +kernel) (by decide +kernel)
    (by decide +kernel)
end HwRadar.Apify
