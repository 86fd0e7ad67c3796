import HwRadar.Apify.Monitoring
import HwRadar.Apify.Reserve
import HwRadar.Apify.Cleanup
import HwRadar.Base.Tables

/-! What one transaction may change. Outside reserve, the account-limit repairs and
the authority commands, a transaction keeps the cycle and authority tables, keeps
each run's start error, lowers no correction count, adds only trips of other
reasons, and rewrites reservation rows by one of four kinds of change. -/
namespace HwRadar.Apify
open HwRadar.Base HwRadar.Base.Tables

structure RunKept (a b : ProviderRun) : Prop where
  startError : b.startError = a.startError
  correctionReads : a.correctionReadCount ≤ b.correctionReadCount

theorem RunKept.refl (a : ProviderRun) : RunKept a a := ⟨rfl,le_rfl⟩

theorem RunKept.trans (a b c : ProviderRun) (first : RunKept a b) (second : RunKept b c) : RunKept a c :=
  ⟨second.startError.trans first.startError,first.correctionReads.trans second.correctionReads⟩

def OtherTrips (before after : List BudgetLatch) : Prop :=
  ∃ trips, after = before ++ trips ∧ ∀ trip ∈ trips, trip.reason ≠ .accountLimitRefused

theorem OtherTrips.refl (latches : List BudgetLatch) : OtherTrips latches latches :=
  ⟨[],by simp,by simp⟩

theorem OtherTrips.trans {a b c : List BudgetLatch} (first : OtherTrips a b) (second : OtherTrips b c) :
    OtherTrips a c := by
  obtain ⟨x,rfl,other⟩ := first
  obtain ⟨y,rfl,others⟩ := second
  refine ⟨x ++ y,by simp,fun trip mem => ?_⟩
  rcases List.mem_append.mp mem with h | h
  · exact other trip h
  · exact others trip h

structure Frame (l l' : Ledger) : Prop where
  cycles : l'.cycles = l.cycles
  authority : l'.authority = l.authority
  runs : List.Forall₂ RunKept l.runs l'.runs
  latches : OtherTrips l.latches l'.latches

theorem Frame.refl (l : Ledger) : Frame l l :=
  ⟨rfl,rfl,List.forall₂_same.mpr fun run _ => .refl run,.refl _⟩

theorem Frame.trans {a b c : Ledger} (first : Frame a b) (second : Frame b c) : Frame a c :=
  ⟨second.cycles.trans first.cycles,second.authority.trans first.authority,
   forall₂Trans RunKept.trans first.runs second.runs,first.latches.trans second.latches⟩

structure Aside (l l' : Ledger) : Prop extends Frame l l' where
  reservations : l'.reservations = l.reservations

theorem Aside.refl (l : Ledger) : Aside l l := ⟨.refl l,rfl⟩

theorem Aside.trans {a b c : Ledger} (first : Aside a b) (second : Aside b c) : Aside a c :=
  ⟨first.toFrame.trans second.toFrame,second.reservations.trans first.reservations⟩

structure Saved (l l' : Ledger) (pk : Nat) (row : Reservation) : Prop extends Frame l l' where
  reservations : l'.reservations = l.reservations.set pk row

theorem Saved.after {l m l' : Ledger} {pk : Nat} {row : Reservation} (first : Aside l m)
    (second : Saved m l' pk row) : Saved l l' pk row :=
  ⟨first.toFrame.trans second.toFrame,by rw [second.reservations,first.reservations]⟩

theorem Saved.before {l m l' : Ledger} {pk : Nat} {row : Reservation} (first : Saved l m pk row)
    (second : Aside m l') : Saved l l' pk row :=
  ⟨first.toFrame.trans second.toFrame,by rw [second.reservations,first.reservations]⟩

theorem Saved.again {l m l' : Ledger} {pk : Nat} {row row' : Reservation} (first : Saved l m pk row)
    (second : Saved m l' pk row') : Saved l l' pk row' :=
  ⟨first.toFrame.trans second.toFrame,by rw [second.reservations,first.reservations,List.set_set]⟩

theorem savedBy {l l' : Ledger} {pk : Nat} {row : Reservation} (ok : l.saveReservation pk row = .ok l') :
    Saved l l' pk row := by
  obtain ⟨_,rows,cycles,authority,runs,_,latches⟩ := saveReservationOk ok
  exact ⟨⟨cycles,authority,runs ▸ List.forall₂_same.mpr fun run _ => .refl run,latches ▸ .refl _⟩,rows⟩

theorem tripAside {reason : LatchReason} (other : reason ≠ .accountLimitRefused) (run : Option Nat)
    (version : String) (now : Int) (l : Ledger) : Aside l (tripLatchLocked reason run version now l).1 := by
  have only := tripOnly reason run version now l
  refine ⟨⟨only.cycles,only.authority,?_,?_⟩,only.reservations⟩
  · rw [only.runs]; exact List.forall₂_same.mpr fun run _ => .refl run
  · rcases tripAppends reason run version now l with ⟨same,_⟩ | ⟨appended,_⟩
    · rw [same]; exact .refl _
    · exact ⟨_,appended,by simpa using other⟩

theorem tripWhenAside {reason : LatchReason} (other : reason ≠ .accountLimitRefused) (condition : Bool)
    (run : Option Nat) (config : LedgerConfig) (now : Int) (l : Ledger) :
    Aside l (tripWhen condition reason run config now l) := by
  unfold tripWhen
  split
  · exact tripAside other run _ now l
  · exact .refl l

theorem saveRunAside {l : Ledger} {pk : Nat} {run run' : ProviderRun} (here : l.runs[pk]? = some run)
    (kept : RunKept run run') : Aside l (l.saveRun pk run') :=
  ⟨⟨rfl,rfl,forall₂Set RunKept.refl here kept,.refl _⟩,rfl⟩

theorem lockRunOk {l : Ledger} {pk : Nat} {run : ProviderRun} (ok : l.lockRun pk = .ok run) :
    l.runs[pk]? = some run := by
  unfold Ledger.lockRun at ok
  split at ok
  · cases Except.ok.inj ok; assumption
  · cases ok

theorem lockReservationOk {l : Ledger} {pk : Nat} {row : Reservation} (ok : l.lockReservation pk = .ok row) :
    l.reservations[pk]? = some row := by
  unfold Ledger.lockReservation at ok
  split at ok
  · cases Except.ok.inj ok; assumption
  · cases ok

theorem reservationOfSome {l : Ledger} {run pk : Nat} {row : Reservation}
    (found : l.reservationOf run = some (row,pk)) :
    l.reservations[pk]? = some row ∧ row.providerRun = some run := by
  have mem := List.mem_of_find?_eq_some found
  have same := List.find?_some found
  rw [List.mem_zipIdx_iff_getElem?] at mem
  exact ⟨mem,by simpa using same⟩

structure SameTerms (row row' : Reservation) : Prop where
  admissionClass : row'.admissionClass = row.admissionClass
  operatorKind : row'.operatorKind = row.operatorKind
  estimateUsd : row'.estimateUsd = row.estimateUsd
  reservedAt : row'.reservedAt = row.reservedAt

theorem SameTerms.trans {a b c : Reservation} (first : SameTerms a b) (second : SameTerms b c) :
    SameTerms a c :=
  ⟨second.admissionClass.trans first.admissionClass,second.operatorKind.trans first.operatorKind,
   second.estimateUsd.trans first.estimateUsd,second.reservedAt.trans first.reservedAt⟩

structure Worked (now : Int) (link : Option Nat) (row row' : Reservation) : Prop extends SameTerms row row' where
  wasOpen : row.status.isOpen = true
  monitoringBoundUsd : row'.monitoringBoundUsd = row.monitoringBoundUsd
  pending : row'.monitoringCallPendingSince = row.monitoringCallPendingSince
  reconciledAt : row'.reconciledAt = row.reconciledAt ∨ row'.reconciledAt = some now
  providerRun : row'.providerRun = row.providerRun ∨ row.providerRun = none ∧ row'.providerRun = link

structure Begun (config : LedgerConfig) (now : Int) (l : Ledger) (row row' : Reservation) : Prop where
  reconciled : row.status = .reconciled
  monitored : row.correctionMonitorUntil ≠ none
  unclosed : row.correctionMonitorClosedAt = none
  idle : row.monitoringCallPendingSince = none
  billed : row.providerRun ≠ none ∨ row.providerBuildId ≠ none
  underCap : ∃ cap, config.budget.maxCorrectionReads = some cap ∧ (correctionReads l.runs row : Int) < cap
  marked : ∃ count, row' = beginRow { row with correctionReadCount := count } now

structure Completed (config : LedgerConfig) (now : Int) (row row' : Reservation) : Prop where
  applied : ∃ corrected run read untilAt reconciledAt,
    (corrected = row ∨ ∃ figure, row.settledRunUsageUsd.getD 0 < figure ∧ corrected = correctedRow row figure) ∧
    row.correctionMonitorUntil = some untilAt ∧
    row' = completedRow corrected run read untilAt reconciledAt now config

inductive RowChange (config : LedgerConfig) (now processStartedAt : Int) (link : Option Nat) (l : Ledger)
    (row row' : Reservation) : Prop where
  | worked (change : Worked now link row row')
  | begun (change : Begun config now l row row')
  | completed (pending : row.monitoringCallPendingSince ≠ none) (change : Completed config now row row')
  | resolved (stale : staleMarker processStartedAt row = true) (marked : row' = resolvedRow processStartedAt row)

section
variable {config : LedgerConfig} {now processStartedAt : Int} {link : Option Nat} {l : Ledger}
  {row row' : Reservation}

theorem completedTerms (row : Reservation) (run : Option ProviderRun) (read : Option Nat)
    (untilAt reconciledAt now : Int) (config : LedgerConfig) :
    SameTerms row (completedRow row run read untilAt reconciledAt now config) ∧
    (completedRow row run read untilAt reconciledAt now config).reconciledAt = row.reconciledAt ∧
    (completedRow row run read untilAt reconciledAt now config).providerRun = row.providerRun ∧
    (completedRow row run read untilAt reconciledAt now config).status = row.status ∧
    (completedRow row run read untilAt reconciledAt now config).lastChargeAt = row.lastChargeAt ∧
    (completedRow row run read untilAt reconciledAt now config).actualUsd = row.actualUsd ∧
    (completedRow row run read untilAt reconciledAt now config).settledRunUsageUsd = row.settledRunUsageUsd := by
  simp only [completedRow]
  split
  · split
    · simp only [settleMonitoringAllowance]
      repeat' split
      all_goals exact ⟨⟨rfl,rfl,rfl,rfl⟩,rfl,rfl,rfl,rfl,rfl,rfl⟩
    · exact ⟨⟨rfl,rfl,rfl,rfl⟩,rfl,rfl,rfl,rfl,rfl,rfl⟩
  · exact ⟨⟨rfl,rfl,rfl,rfl⟩,rfl,rfl,rfl,rfl,rfl,rfl⟩

theorem completedIdle (row : Reservation) (run : Option ProviderRun) (read : Option Nat)
    (untilAt reconciledAt now : Int) (config : LedgerConfig) :
    (completedRow row run read untilAt reconciledAt now config).monitoringCallPendingSince = none := by
  simp only [completedRow]
  split
  · split
    · simp only [settleMonitoringAllowance]
      repeat' split
      all_goals rfl
    · rfl
  · rfl

theorem Begun.obliged {config : LedgerConfig} {now : Int} {l : Ledger} {row row' : Reservation}
    (begun : Begun config now l row row') (checked : row.Checked) : hasObligation row = true := by
  by_contra envelope
  have kind : row.operatorKind = some .inspect ∨ row.operatorKind = some .probe := by
    cases held : row.operatorKind with
    | none => simp [hasObligation,envelopeKind,held] at envelope
    | some kind => cases kind <;> simp_all [hasObligation,envelopeKind]
  have operator : row.admissionClass = .operator := checked.operatorKindIffOperator.mpr (by
    rcases kind with h | h <;> simp [h])
  rcases begun.billed with run | build
  · exact (checked.runOnlyOnAdmittedRuntime.resolve_left run).1 operator
  · have built := checked.buildIdOnlyOnBuild build
    rcases kind with h | h <;> simp [h] at built

theorem correctedTerms (row : Reservation) (figure : Nat) : SameTerms row (correctedRow row figure) :=
  ⟨rfl,rfl,rfl,rfl⟩

theorem rowChangeKeeps (change : RowChange config now processStartedAt link l row row') :
    SameTerms row row' ∧ (row'.reconciledAt = row.reconciledAt ∨ row'.reconciledAt = some now) ∧
    (row'.providerRun = row.providerRun ∨ row'.providerRun = link) := by
  cases change with
  | worked change => exact ⟨change.toSameTerms,change.reconciledAt,change.providerRun.imp_right And.right⟩
  | begun change =>
    obtain ⟨count,rfl⟩ := change.marked
    exact ⟨⟨rfl,rfl,rfl,rfl⟩,.inl rfl,.inl rfl⟩
  | completed pending change =>
    obtain ⟨corrected,run,read,untilAt,reconciledAt,upward,_,rfl⟩ := change.applied
    obtain ⟨terms,clock,linked,_⟩ := completedTerms corrected run read untilAt reconciledAt now config
    rcases upward with rfl | ⟨figure,_,rfl⟩
    · exact ⟨terms,.inl clock,.inl linked⟩
    · exact ⟨(correctedTerms row figure).trans terms,.inl clock,.inl linked⟩
  | resolved stale marked =>
    cases marked
    exact ⟨⟨rfl,rfl,rfl,rfl⟩,.inl rfl,.inl rfl⟩
end

structure Effect (R : Reservation → Reservation → Prop) (l l' : Ledger) : Prop extends Frame l l' where
  rows : Rewritten R l.reservations l'.reservations

theorem Aside.effect {R : Reservation → Reservation → Prop} {l l' : Ledger} (aside : Aside l l') :
    Effect R l l' :=
  ⟨aside.toFrame,.ofEq aside.reservations⟩

theorem Saved.effect {R : Reservation → Reservation → Prop} {l l' : Ledger} {pk : Nat} {row row' : Reservation}
    (saved : Saved l l' pk row') (here : l.reservations[pk]? = some row) (change : R row row') : Effect R l l' :=
  ⟨saved.toFrame,saved.reservations ▸ .set here change⟩

theorem Effect.imp {R S : Reservation → Reservation → Prop} {l l' : Ledger} (effect : Effect R l l')
    (weaker : ∀ a b, R a b → S a b) : Effect S l l' :=
  ⟨effect.toFrame,effect.rows.imp weaker⟩

theorem SameTerms.refl (row : Reservation) : SameTerms row row := ⟨rfl,rfl,rfl,rfl⟩

theorem Worked.refl {now : Int} {link : Option Nat} {row : Reservation} (wasOpen : row.status.isOpen = true) :
    Worked now link row row :=
  ⟨.refl row,wasOpen,rfl,rfl,.inl rfl,.inl rfl⟩

theorem appendReadAside {pk : Nat} {resv : Reservation} {run : Option Nat} {readAt : Int} {u : ApifyUsage}
    {finishedAt : Option Int} {config : LedgerConfig} {l l' : Ledger} {read : Nat}
    (ok : appendRead pk resv run readAt u finishedAt config l = .ok (l',read)) :
    Aside l l' ∧ read = l.usageReads.length ∧ ∃ entry, l'.usageReads = l.usageReads ++ [entry] := by
  unfold appendRead at ok
  split at ok
  · cases ok
  split at ok
  · cases ok
  cases Except.ok.inj ok
  exact ⟨⟨⟨rfl,rfl,List.forall₂_same.mpr fun run _ => .refl run,.refl _⟩,rfl⟩,rfl,_,rfl⟩

theorem provisionalWorked {now : Int} {link : Option Nat} {resv : Reservation} (wasOpen : resv.status.isOpen = true)
    (total : Option ℚ) : Worked now link resv (provisional resv total) ∧
    (provisional resv total).status.isOpen = true := by
  cases total with
  | none => exact ⟨.refl wasOpen,wasOpen⟩
  | some total =>
    refine ⟨⟨⟨rfl,rfl,rfl,rfl⟩,wasOpen,rfl,rfl,.inl rfl,.inl rfl⟩,?_⟩
    simp only [provisional]
    split
    · rfl
    · exact wasOpen

theorem settlementSettled {config : LedgerConfig} {now : Int} {reads : List UsageRead} {resv row : Reservation}
    {run : Option ProviderRun} (settles : settlement config now reads resv run = some row) :
    resv.status.isOpen = true ∧ ∃ anchorAt window s, row = settledRow resv run config now anchorAt window s := by
  unfold settlement at settles
  split at settles
  · cases settles
  rename_i isOpen
  split at settles
  · cases settles
  split at settles
  · cases settles
  split at settles
  · cases settles
  split at settles
  · cases settles
  obtain ⟨s,_,made⟩ := Option.map_eq_some_iff.mp settles
  exact ⟨by simpa using isOpen,_,_,s,made.symm⟩

theorem settledWorked {link : Option Nat} {resv : Reservation} {run : Option ProviderRun} {config : LedgerConfig}
    {now anchorAt window : Int} {s : Settling} (wasOpen : resv.status.isOpen = true) :
    Worked now link resv (settledRow resv run config now anchorAt window s) :=
  ⟨⟨rfl,rfl,rfl,rfl⟩,wasOpen,rfl,rfl,.inr rfl,.inl rfl⟩

theorem Worked.trans {now : Int} {link : Option Nat} {a b c : Reservation} (first : Worked now link a b)
    (second : Worked now link b c) (kept : c.providerRun = b.providerRun) : Worked now link a c where
  toSameTerms := first.toSameTerms.trans second.toSameTerms
  wasOpen := first.wasOpen
  monitoringBoundUsd := second.monitoringBoundUsd.trans first.monitoringBoundUsd
  pending := second.pending.trans first.pending
  reconciledAt := by
    rcases second.reconciledAt with same | set
    · rw [same]; exact first.reconciledAt
    · exact .inr set
  providerRun := by rw [kept]; exact first.providerRun

theorem trySettleSaved {pk : Nat} {resv : Reservation} {run : Option (ProviderRun × Nat)} {now : Int}
    {config : LedgerConfig} {l l' : Ledger} {settled : Bool}
    (ok : trySettle pk resv run now config l = .ok (l',settled)) :
    (settled = false ∧ l' = l) ∨ ∃ anchorAt window s, resv.status.isOpen = true ∧ settled = true ∧
      Saved l l' pk (settledRow resv (run.map Prod.fst) config now anchorAt window s) := by
  unfold trySettle at ok
  split at ok
  · cases Except.ok.inj ok; exact .inl ⟨rfl,rfl⟩
  · rename_i row settles
    obtain ⟨isOpen,anchorAt,window,s,rfl⟩ := settlementSettled settles
    obtain ⟨m,save,done⟩ := bindOk.mp ok
    cases Except.ok.inj done
    exact .inr ⟨anchorAt,window,s,isOpen,rfl,(savedBy save).before (tripWhenAside (by decide) _ _ _ _ _)⟩

theorem applyReadSaved {pk : Nat} {resv : Reservation} {run : Option (ProviderRun × Nat)} {readAt : Int}
    {u : ApifyUsage} {finishedAt : Option Int} {config : LedgerConfig} {l l' : Ledger} {settled : Bool}
    (here : l.reservations[pk]? = some resv) (isOpen : resv.status.isOpen = true)
    (ok : applyRead pk resv run readAt u finishedAt config l = .ok (l',settled)) :
    Effect (Worked readAt none) l l' := by
  obtain ⟨⟨m,read⟩,appended,ok⟩ := bindOk.mp ok
  obtain ⟨n,save,ok⟩ := bindOk.mp ok
  obtain ⟨aside,_⟩ := appendReadAside appended
  obtain ⟨change,stillOpen⟩ := @provisionalWorked readAt none resv isOpen u.usageTotalUsd
  have first := (savedBy save).after aside
  rcases trySettleSaved ok with ⟨_,rfl⟩ | ⟨anchorAt,window,s,_,_,second⟩
  · exact first.effect here change
  · exact (first.again second).effect here (change.trans (settledWorked stillOpen) rfl)

theorem trySettleEffect {pk : Nat} {resv : Reservation} {run : Option (ProviderRun × Nat)} {now : Int}
    {config : LedgerConfig} {l l' : Ledger} {settled : Bool} (here : l.reservations[pk]? = some resv)
    (ok : trySettle pk resv run now config l = .ok (l',settled)) : Effect (Worked now none) l l' := by
  rcases trySettleSaved ok with ⟨_,rfl⟩ | ⟨anchorAt,window,s,isOpen,_,saved⟩
  · exact (Aside.refl l').effect
  · exact saved.effect here (settledWorked isOpen)

theorem Effect.after {R : Reservation → Reservation → Prop} {l m l' : Ledger} (first : Aside l m)
    (second : Effect R m l') : Effect R l l' :=
  ⟨first.toFrame.trans second.toFrame,first.reservations ▸ second.rows⟩

theorem recordRunUsageEffect {runPk : Nat} {run : ApifyRun} {readAt : Int} {config : LedgerConfig}
    {l l' : Ledger} {settled : Bool} (ok : recordRunUsage runPk run readAt config l = .ok (l',settled)) :
    Effect (Worked readAt none) l l' := by
  obtain ⟨locked,_,ok⟩ := bindOk.mp ok
  have unexpected := tripWhenAside (by decide : LatchReason.unexpectedUsageComponent ≠ .accountLimitRefused)
    (!(unexpectedComponents run.toApifyUsage).isEmpty) (some runPk) config readAt l
  have restarted := unexpected.trans (tripWhenAside
    (by decide : LatchReason.startOptionMismatch ≠ .accountLimitRefused)
    (run.restartCount.any fun n => n != 0) (some runPk) config readAt _)
  simp only at ok
  split at ok
  · cases Except.ok.inj ok; exact restarted.effect
  rename_i resv pk found
  split at ok
  · rename_i isOpen
    exact .after restarted (applyReadSaved (reservationOfSome found).1 isOpen ok)
  · cases Except.ok.inj ok; exact restarted.effect

theorem lockedSave {l : Ledger} {pk : Nat} {run : ProviderRun} (ok : l.lockRun pk = .ok run)
    {run' : ProviderRun} (kept : RunKept run run') : Aside l (l.saveRun pk run') :=
  saveRunAside (lockRunOk ok) kept

theorem planSettlementReadEffect {runPk : Nat} {now : Int} {config : LedgerConfig} {l l' : Ledger}
    {remote : Option String} (ok : planSettlementRead runPk now config l = .ok (l',remote)) :
    Effect (Worked now none) l l' := by
  obtain ⟨run,locked,ok⟩ := bindOk.mp ok
  split at ok
  · cases Except.ok.inj ok; exact (Aside.refl l).effect
  rename_i resv pk found
  split at ok
  · cases Except.ok.inj ok; exact (Aside.refl l).effect
  obtain ⟨⟨m,settled⟩,tried,planned⟩ := bindOk.mp ok
  have here := (reservationOfSome found).1
  have effect := trySettleEffect here tried
  rcases trySettleSaved tried with ⟨rfl,rfl⟩ | ⟨_,_,_,_,rfl,_⟩
  · simp only [Bool.false_eq_true,if_false] at planned
    split at planned
    · split at planned
      · cases Except.ok.inj planned; exact effect
      split at planned
      · cases Except.ok.inj planned; exact Aside.effect (lockedSave locked ⟨rfl,le_rfl⟩)
      split at planned
      · cases Except.ok.inj planned; exact effect
      · cases Except.ok.inj planned; exact Aside.effect (lockedSave locked ⟨rfl,le_rfl⟩)
    · cases Except.ok.inj planned; exact effect
  · cases Except.ok.inj planned; exact effect

theorem bindBuildEffect {pk : Nat} {buildId : String} {now : Int} {l l' : Ledger} {bound : Bool}
    (ok : bindBuild pk buildId now l = .ok (l',bound)) : Effect (Worked now none) l l' := by
  unfold bindBuild at ok
  simp only at ok
  split at ok
  · cases ok
  split at ok
  · cases ok
  rename_i resv here
  split at ok
  · cases ok
  split at ok
  · split at ok
    · cases Except.ok.inj ok; exact (Aside.refl l).effect
    · cases ok
  split at ok
  · cases ok
  rename_i isOpen
  split at ok
  · cases ok
  obtain ⟨m,save,done⟩ := bindOk.mp ok
  cases Except.ok.inj done
  exact (savedBy save).effect here ⟨⟨rfl,rfl,rfl,rfl⟩,by simpa using isOpen,rfl,rfl,.inl rfl,.inl rfl⟩

theorem planBuildReadEffect {pk : Nat} {now : Int} {config : LedgerConfig} {l l' : Ledger}
    {remote : Option String} (ok : planBuildRead pk now config l = .ok (l',remote)) :
    Effect (Worked now none) l l' := by
  obtain ⟨resv,locked,ok⟩ := bindOk.mp ok
  have here := lockReservationOk locked
  split at ok
  · cases Except.ok.inj ok; exact (Aside.refl l).effect
  split at ok
  · cases Except.ok.inj ok; exact (Aside.refl l).effect
  rename_i isOpen
  obtain ⟨⟨m,settled⟩,tried,planned⟩ := bindOk.mp ok
  have effect := trySettleEffect here tried
  rcases trySettleSaved tried with ⟨rfl,rfl⟩ | ⟨_,_,_,_,rfl,_⟩
  · simp only [Bool.false_eq_true,if_false] at planned
    split at planned
    · cases Except.ok.inj planned; exact effect
    obtain ⟨n,save,done⟩ := bindOk.mp planned
    cases Except.ok.inj done
    exact (savedBy save).effect here ⟨⟨rfl,rfl,rfl,rfl⟩,by simpa using isOpen,rfl,rfl,.inl rfl,.inl rfl⟩
  · cases Except.ok.inj planned; exact effect

theorem recordBuildUsageEffect {pk : Nat} {build : ApifyBuild} {readAt : Int} {config : LedgerConfig}
    {l l' : Ledger} {settled : Bool} (ok : recordBuildUsage pk build readAt config l = .ok (l',settled)) :
    Effect (Worked readAt none) l l' := by
  obtain ⟨resv,locked,ok⟩ := bindOk.mp ok
  have tripped := tripWhenAside (by decide : LatchReason.unexpectedUsageComponent ≠ .accountLimitRefused)
    (!(unexpectedComponents build.toApifyUsage).isEmpty) none config readAt l
  simp only at ok
  split at ok
  · rename_i isOpen
    have here := lockReservationOk locked
    rw [← tripped.reservations] at here
    exact .after tripped (applyReadSaved here isOpen ok)
  · cases Except.ok.inj ok; exact tripped.effect

theorem setModify {α : Type} {table : List α} {pk : Nat} {row : α} (here : table[pk]? = some row) (f : α → α) :
    table.set pk (f row) = table.modify pk f := by
  rw [List.modify_eq_set_getElem?,here]
  rfl

theorem foldSaved {f : Reservation → Reservation} {pks : List Nat} {l l' : Ledger}
    (ok : pks.foldlM (fun l pk => do
      let row ← Ledger.lockReservation l pk
      Ledger.saveReservation l pk (f row)) l = .ok l') :
    Frame l l' ∧ l'.reservations = pks.foldl (fun table pk => table.modify pk f) l.reservations := by
  induction pks generalizing l with
  | nil => cases Except.ok.inj ok; exact ⟨.refl _,rfl⟩
  | cons pk rest ih =>
    rw [List.foldlM_cons] at ok
    obtain ⟨m,saved,ok⟩ := bindOk.mp ok
    obtain ⟨row,locked,save⟩ := bindOk.mp saved
    have one := savedBy save
    obtain ⟨frame,rows⟩ := ih ok
    refine ⟨one.toFrame.trans frame,?_⟩
    rw [rows,one.reservations,setModify (lockReservationOk locked),List.foldl_cons]

theorem foldSavedMap {f : Reservation → Reservation} {chosen : Reservation → Bool} {l l' : Ledger}
    (ok : ((l.reservations.zipIdx.filter fun entry => chosen entry.1).map Prod.snd).foldlM (fun l pk => do
      let row ← Ledger.lockReservation l pk
      Ledger.saveReservation l pk (f row)) l = .ok l') :
    Frame l l' ∧ l'.reservations = l.reservations.map fun row => if chosen row then f row else row := by
  obtain ⟨frame,rows⟩ := foldSaved ok
  exact ⟨frame,rows.trans (foldSets l.reservations f chosen)⟩

theorem rewrittenWhere {R : Reservation → Reservation → Prop} {f : Reservation → Reservation}
    {chosen : Reservation → Bool} {l l' : Ledger}
    (changed : Frame l l' ∧ l'.reservations = l.reservations.map fun row => if chosen row then f row else row)
    (change : ∀ row, chosen row = true → R row (f row)) : Effect R l l' := by
  refine ⟨changed.1,changed.2 ▸ .map fun row _ => ?_⟩
  cases pick : chosen row with
  | false => exact .inl rfl
  | true => exact .inr (change row pick)

theorem mapOk {α β : Type} {x : Except Fault α} {f : α → β} {b : β} (ok : x.map f = .ok b) :
    ∃ a, x = .ok a ∧ f a = b := by
  cases x with
  | error fault => contradiction
  | ok a => exact ⟨a,rfl,Except.ok.inj ok⟩

theorem releaseEffect {now : Int} {graceS : Option Int} {l l' : Ledger} {pks : List Nat}
    (ok : releaseUnattachedReservations now graceS l = .ok (l',pks)) : Effect (Worked now none) l l' := by
  unfold releaseUnattachedReservations at ok
  split at ok
  · cases Except.ok.inj ok; exact (Aside.refl l).effect
  split at ok
  · cases Except.ok.inj ok; exact (Aside.refl l).effect
  obtain ⟨m,folded,same⟩ := mapOk ok
  cases same
  refine rewrittenWhere (foldSavedMap folded) fun row chosen => ?_
  have reserved : row.status = .reserved := by
    simp only [releasable,Bool.and_eq_true,beq_iff_eq] at chosen
    exact chosen.1.1.1
  exact ⟨⟨rfl,rfl,rfl,rfl⟩,by rw [reserved]; rfl,rfl,rfl,.inl rfl,.inl rfl⟩

theorem settleOperatorEffect {pk : Nat} {now : Int} {dataset : Option String} {verified : Bool} {l l' : Ledger}
    (ok : settleOperator pk now dataset verified l = .ok l') : Effect (Worked now none) l l' := by
  unfold settleOperator at ok
  split at ok
  · cases ok
  rename_i resv here
  split at ok
  · cases ok
  split at ok
  · cases ok
  split at ok
  · cases ok
  rename_i isOpen
  simp only at ok
  split at ok
  · cases ok
  exact (savedBy ok).effect here ⟨⟨rfl,rfl,rfl,rfl⟩,by simpa using isOpen,rfl,rfl,.inr rfl,.inl rfl⟩

structure Created (fields : RunFields) (l l' : Ledger) (pk : Nat) : Prop where
  key : pk = l.runs.length
  cycles : l'.cycles = l.cycles
  authority : l'.authority = l.authority
  latches : l'.latches = l.latches
  runs : l'.runs = l.runs ++ [ProviderRun.created fields]
  rows : ∀ now, Rewritten (Worked now (some pk)) l.reservations l'.reservations

theorem createRunCreated {fields : RunFields} {reservation : Option Nat} {l l' : Ledger} {pk : Nat}
    (ok : createRun fields reservation l = .ok (l',pk)) : Created fields l l' pk := by
  unfold createRun at ok
  simp only at ok
  split at ok
  · cases Except.ok.inj ok; exact ⟨rfl,rfl,rfl,rfl,rfl,fun _ => .refl _⟩
  split at ok
  · cases ok
  rename_i row here
  split at ok
  · rename_i free
    obtain ⟨m,save,done⟩ := bindOk.mp ok
    cases Except.ok.inj done
    obtain ⟨_,rows,cycles,authority,runs,_,latches⟩ := saveReservationOk save
    refine ⟨rfl,cycles,authority,latches,runs,fun _ => ?_⟩
    rw [rows]
    exact .set here ⟨⟨rfl,rfl,rfl,rfl⟩,by rw [free.1]; rfl,rfl,rfl,.inl rfl,.inr ⟨free.2,rfl⟩⟩
  · contradiction

theorem startedKept (row : ProviderRun) (run : RemoteRun) (mismatches : List String) (now : Int) :
    RunKept row (startedRow row run mismatches now) := by
  simp only [startedRow,applyRunFields]
  split <;> split <;> exact ⟨rfl,le_rfl⟩

theorem recordStartAside {pk : Nat} {run : RemoteRun} {mismatches : List String} {now : Int} {l l' : Ledger}
    (ok : recordStart pk run mismatches now l = .ok l') : Aside l l' := by
  obtain ⟨row,locked,done⟩ := bindOk.mp ok
  cases Except.ok.inj done
  exact lockedSave locked (startedKept row run mismatches now)

theorem recordObservationAside {pk : Nat} {run : RemoteRun} {observedAt : Int} {l l' : Ledger}
    (ok : recordObservation pk run observedAt l = .ok l') : Aside l l' := by
  obtain ⟨row,locked,done⟩ := bindOk.mp ok
  cases Except.ok.inj done
  refine lockedSave locked ?_
  simp only [observedRow,applyRunFields]
  split <;> exact ⟨rfl,le_rfl⟩

theorem stampKept {a row : ProviderRun} (kept : RunKept a row) (now : Int) :
    RunKept a (stampWorkCompletion row now) := by
  unfold stampWorkCompletion
  split
  · exact .trans a row _ kept ⟨rfl,le_rfl⟩
  · exact kept

theorem attemptedKept (now : Int) (row : ProviderRun) (deleted : List Storage) (errors : List String) :
    RunKept row (attemptedRow now row deleted errors) := by
  simp only [attemptedRow]
  split
  · refine stampKept ?_ now
    exact ⟨rfl,le_rfl⟩
  · exact ⟨rfl,le_rfl⟩

theorem deleteFailedAside {version : String} {now : Int} {pk : Nat} {row run : ProviderRun} {l : Ledger}
    (here : l.runs[pk]? = some row) (kept : RunKept row run) : Aside l (markDeleteFailed version now pk run l) := by
  have saved : Aside l (l.saveRun pk { run with storageState := .deleteFailed }) :=
    saveRunAside here (.trans row run _ kept ⟨rfl,le_rfl⟩)
  exact saved.trans (tripAside (by decide) _ _ _ _)

theorem beginAttemptAside {cap : Int} {version : String} {now : Int} {pk : Nat} {overdue : Bool} {l l' : Ledger}
    {attempt : Option CleanupAttempt} (ok : beginAttempt cap version now pk overdue l = .ok (l',attempt)) :
    Aside l l' := by
  obtain ⟨row,locked,ok⟩ := bindOk.mp ok
  have here := lockRunOk locked
  split at ok
  · cases Except.ok.inj ok; exact .refl l
  split at ok
  · split at ok
    · cases Except.ok.inj ok
      have marked : Aside l (l.saveRun pk { row with orphanedStartAt := some now }) :=
        saveRunAside here ⟨rfl,le_rfl⟩
      exact marked.trans (tripAside (by decide) _ _ _ _)
    · cases Except.ok.inj ok; exact .refl l
  split at ok
  · cases Except.ok.inj ok; exact .refl l
  split at ok
  · cases Except.ok.inj ok; exact deleteFailedAside here (.refl row)
  · cases Except.ok.inj ok; exact saveRunAside here ⟨rfl,le_rfl⟩

theorem savedRunHere {l : Ledger} {pk : Nat} {row run : ProviderRun} (here : l.runs[pk]? = some row) :
    (l.saveRun pk run).runs[pk]? = some run :=
  List.getElem?_set_self (List.getElem?_eq_some_iff.mp here).1

theorem finishAttemptAside {cap : Int} {version : String} {now : Int} {pk : Nat} {deleted : List Storage}
    {errors : List String} {l l' : Ledger} (ok : finishAttempt cap version now pk deleted errors l = .ok l') :
    Aside l l' := by
  obtain ⟨row,locked,ok⟩ := bindOk.mp ok
  have here := lockRunOk locked
  have saved := saveRunAside here (attemptedKept now row deleted errors)
  simp only at ok
  split at ok
  · cases Except.ok.inj ok
    exact saved.trans (deleteFailedAside (savedRunHere here) (.refl _))
  · cases Except.ok.inj ok; exact saved

theorem foldAside {pks : List Nat} {f : Ledger → Nat → Ledger} (each : ∀ l pk, Aside l (f l pk)) (l : Ledger) :
    Aside l (pks.foldl f l) := by
  induction pks generalizing l with
  | nil => exact .refl l
  | cons pk rest ih => exact (each l pk).trans (ih _)

theorem markExhaustedAside (version : String) (now : Int) (l : Ledger) (pk : Nat) :
    Aside l (markExhausted version now l pk) := by
  unfold markExhausted
  split
  · exact .refl l
  · exact deleteFailedAside (by assumption) (.refl _)

theorem tripStrandedLatchesSplit (cap : Int) (version : String) (now : Int) (l : Ledger) :
    ∃ m, Aside l m ∧ (tripStrandedLatches cap version now l).1 =
      (tripStrandedStartRefusalsLocked version now m).1 :=
  ⟨_,(foldAside (fun l pk => tripAside (by decide) _ _ _ l) l).trans
    (foldAside (markExhaustedAside version now) _),rfl⟩

theorem lockedRunSome {l : Ledger} {resv : Reservation} {run : ProviderRun} {pk : Nat}
    (found : lockedRun l resv = some (run,pk)) : resv.providerRun = some pk ∧ l.runs[pk]? = some run := by
  unfold lockedRun at found
  obtain ⟨key,linked,found⟩ := Option.bind_eq_some_iff.mp found
  obtain ⟨locked,here,same⟩ := Option.map_eq_some_iff.mp found
  cases same
  exact ⟨linked,here⟩

theorem lockedCount (l : Ledger) (resv : Reservation) :
    correctionCount resv ((lockedRun l resv).map Prod.fst) = correctionReads l.runs resv := by
  unfold lockedRun correctionReads
  cases resv.providerRun with
  | none => rfl
  | some pk =>
    simp only [Option.bind_some]
    cases l.runs[pk]? with
    | none => rfl
    | some run => rfl

theorem beginMonitoringReadEffect {pk : Nat} {now : Int} {config : LedgerConfig} {l l' : Ledger}
    {call : Option MonitorCall} (ok : beginMonitoringRead pk now config l = .ok (l',call)) :
    (call = none ∧ l' = l) ∨ ∃ resv row', call.isSome = true ∧ l.reservations[pk]? = some resv ∧
      Begun config now l resv row' ∧ Saved l l' pk row' := by
  obtain ⟨resv,locked,ok⟩ := bindOk.mp ok
  have here := lockReservationOk locked
  simp only at ok
  split at ok
  · cases Except.ok.inj ok; exact .inl ⟨rfl,rfl⟩
  rename_i allowed
  simp only [not_or,not_not,lockedCount] at allowed
  obtain ⟨reconciled,monitored,unclosed,idle,room⟩ := allowed
  have underCap : ∃ cap, config.budget.maxCorrectionReads = some cap ∧ (correctionReads l.runs resv : Int) < cap := by
    cases cap : config.budget.maxCorrectionReads with
    | none => rw [cap] at room; exact absurd rfl room
    | some limit => rw [cap] at room; exact ⟨limit,rfl,by simpa using room⟩
  split at ok
  · rename_i run runPk found
    obtain ⟨link,runHere⟩ := lockedRunSome found
    split at ok
    · cases Except.ok.inj ok; exact .inl ⟨rfl,rfl⟩
    have billed : resv.providerRun ≠ none := by rw [link]; simp
    obtain ⟨m,save,done⟩ := bindOk.mp ok
    cases Except.ok.inj done
    have counted : Aside l (l.saveRun runPk { run with correctionReadCount := run.correctionReadCount + 1 }) :=
      saveRunAside runHere ⟨rfl,Nat.le_succ _⟩
    exact .inr ⟨resv,_,rfl,here,
      ⟨reconciled,monitored,unclosed,idle,.inl billed,underCap,resv.correctionReadCount,rfl⟩,
      (savedBy save).after counted⟩
  · split at ok
    · cases Except.ok.inj ok; exact .inl ⟨rfl,rfl⟩
    rename_i build named
    have billed : resv.providerBuildId ≠ none := by rw [named]; simp
    obtain ⟨m,save,done⟩ := bindOk.mp ok
    cases Except.ok.inj done
    exact .inr ⟨resv,_,rfl,here,⟨reconciled,monitored,unclosed,idle,.inr billed,underCap,_,rfl⟩,savedBy save⟩

theorem latchOnResultAside (result : Option MonitorResult) (run : Option Nat) (config : LedgerConfig) (now : Int)
    (l : Ledger) : Aside l (latchOnResult result run config now l) := by
  unfold latchOnResult
  split
  · exact .refl l
  split
  · exact tripAside (by decide) _ _ _ _
  · exact tripWhenAside (by decide) _ _ _ _ _

theorem applyCorrectionSaved {pk : Nat} {stored : Reservation} {figure : Nat} {now : Int} {config : LedgerConfig}
    {run : Option Nat} {l l' : Ledger} (ok : applyCorrection pk stored figure now config run l = .ok l') :
    (figure ≤ stored.settledRunUsageUsd.getD 0 ∧ l' = l) ∨
    (stored.settledRunUsageUsd.getD 0 < figure ∧ Saved l l' pk (correctedRow stored figure)) := by
  unfold applyCorrection at ok
  split at ok
  · cases Except.ok.inj ok; exact .inl ⟨by assumption,rfl⟩
  · rename_i above
    obtain ⟨m,save,done⟩ := bindOk.mp ok
    cases Except.ok.inj done
    refine .inr ⟨not_le.mp above,(savedBy save).before ?_⟩
    exact (tripWhenAside (by decide) _ _ _ _ _).trans (tripWhenAside (by decide) _ _ _ _ _)

theorem completeMonitoringReadSaved {pk : Nat} {result : Option MonitorResult} {now : Int} {config : LedgerConfig}
    {l l' : Ledger} {closed : Bool} (ok : completeMonitoringRead pk result now config l = .ok (l',closed)) :
    ∃ resv row', l.reservations[pk]? = some resv ∧ Completed config now resv row' ∧ Saved l l' pk row' := by
  obtain ⟨resv,locked,ok⟩ := bindOk.mp ok
  have here := lockReservationOk locked
  have latched := latchOnResultAside result ((lockedRun l resv).map Prod.snd) config now l
  simp only at ok
  split at ok
  · rename_i untilAt reconciledAt dueAt settledAt
    split at ok
    · obtain ⟨m,save,done⟩ := bindOk.mp ok
      cases Except.ok.inj done
      exact ⟨resv,_,here,⟨resv,_,_,_,_,.inl rfl,dueAt,rfl⟩,(savedBy save).after latched⟩
    · obtain ⟨⟨m,read⟩,appended,ok⟩ := bindOk.mp ok
      obtain ⟨n,corrected,ok⟩ := bindOk.mp ok
      obtain ⟨o,save,done⟩ := bindOk.mp ok
      cases Except.ok.inj done
      have filed := latched.trans (appendReadAside appended).1
      rcases applyCorrectionSaved corrected with ⟨low,rfl⟩ | ⟨above,first⟩
      · rw [if_pos low] at save
        exact ⟨resv,_,here,⟨resv,_,_,_,_,.inl rfl,dueAt,rfl⟩,(savedBy save).after filed⟩
      · rw [if_neg (not_le.mpr above)] at save
        exact ⟨resv,_,here,⟨_,_,_,_,_,.inr ⟨_,above,rfl⟩,dueAt,rfl⟩,
          (first.again (savedBy save)).after filed⟩
  · contradiction

theorem resolveStaleEffect {processStartedAt : Int} {l l' : Ledger} {count : Nat}
    (ok : resolveStaleMonitoringMarkers processStartedAt l = .ok (l',count)) :
    Effect (fun row row' => staleMarker processStartedAt row = true ∧ row' = resolvedRow processStartedAt row)
      l l' := by
  obtain ⟨m,folded,same⟩ := mapOk ok
  cases same
  exact rewrittenWhere (foldSavedMap folded) fun row chosen => ⟨chosen,rfl⟩

end HwRadar.Apify
