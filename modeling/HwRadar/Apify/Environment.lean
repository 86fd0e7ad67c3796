import HwRadar.Apify.Changes
import HwRadar.Apify.Handoff

/-! One environment: its ledger, a clock that never goes back, and the calls its
processes have in flight. Each label is one committed transaction, or a process
loss; a transaction that fails rolls back and is no step. -/
namespace HwRadar.Apify
open HwRadar.Base HwRadar.Base.Tables

inductive Work where
  | recordObservation (pk : Nat) (run : RemoteRun)
  | tripLatch (reason : LatchReason) (run : Option Nat)
  | beginAttempt (pk : Nat) (cap : Int) (overdue : Bool)
  | finishAttempt (pk : Nat) (cap : Int) (deleted : List Storage) (errors : List String)
  | recordRunUsage (pk : Nat) (run : ApifyRun)
  | planSettlementRead (pk : Nat)
  | bindBuild (pk : Nat) (buildId : String)
  | planBuildRead (pk : Nat)
  | recordBuildUsage (pk : Nat) (build : ApifyBuild)
  | releaseUnattached (graceS : Option Int)
  | settleOperator (pk : Nat) (probeDatasetId : Option String) (probeDeletionVerified : Bool)
  | runChanged (pk : Nat) (change : ProviderRun → ProviderRun)

def changedRun (row : ProviderRun) (change : ProviderRun → ProviderRun) : ProviderRun :=
  { change row with startError := row.startError, correctionReadCount := row.correctionReadCount }

def Work.commit (config : LedgerConfig) (now : Int) (l : Ledger) : Work → Except Fault Ledger
  | .recordObservation pk run => Apify.recordObservation pk run now l
  | .tripLatch reason run =>
    if reason = .accountLimitRefused then .error (.assertion "an account-limit refusal has its own trip")
    else .ok (trip reason run config now l)
  | .beginAttempt pk cap overdue =>
    (Apify.beginAttempt cap config.budget.estimatorVersion now pk overdue l).map Prod.fst
  | .finishAttempt pk cap deleted errors =>
    Apify.finishAttempt cap config.budget.estimatorVersion now pk deleted errors l
  | .recordRunUsage pk run => (Apify.recordRunUsage pk run now config l).map Prod.fst
  | .planSettlementRead pk => (Apify.planSettlementRead pk now config l).map Prod.fst
  | .bindBuild pk buildId => (Apify.bindBuild pk buildId now l).map Prod.fst
  | .planBuildRead pk => (Apify.planBuildRead pk now config l).map Prod.fst
  | .recordBuildUsage pk build => (Apify.recordBuildUsage pk build now config l).map Prod.fst
  | .releaseUnattached graceS => (releaseUnattachedReservations now graceS l).map Prod.fst
  | .settleOperator pk dataset verified => Apify.settleOperator pk now dataset verified l
  | .runChanged pk change => do
    let row ← l.lockRun pk
    .ok (l.saveRun pk (changedRun row change))

theorem workEffect {op : Work} {config : LedgerConfig} {now : Int} {l l' : Ledger}
    (ok : op.commit config now l = .ok l') : Effect (Worked now none) l l' := by
  cases op with
  | recordObservation pk run => exact (recordObservationAside ok).effect
  | tripLatch reason run =>
    simp only [Work.commit] at ok
    split at ok
    · cases ok
    · cases Except.ok.inj ok; exact (tripAside (by assumption) _ _ _ _).effect
  | beginAttempt pk cap overdue =>
    obtain ⟨⟨m,attempt⟩,done,rfl⟩ := mapOk ok
    exact (beginAttemptAside done).effect
  | finishAttempt pk cap deleted errors => exact (finishAttemptAside ok).effect
  | recordRunUsage pk run =>
    obtain ⟨⟨m,settled⟩,done,rfl⟩ := mapOk ok
    exact recordRunUsageEffect done
  | planSettlementRead pk =>
    obtain ⟨⟨m,remote⟩,done,rfl⟩ := mapOk ok
    exact planSettlementReadEffect done
  | bindBuild pk buildId =>
    obtain ⟨⟨m,bound⟩,done,rfl⟩ := mapOk ok
    exact bindBuildEffect done
  | planBuildRead pk =>
    obtain ⟨⟨m,remote⟩,done,rfl⟩ := mapOk ok
    exact planBuildReadEffect done
  | recordBuildUsage pk build =>
    obtain ⟨⟨m,settled⟩,done,rfl⟩ := mapOk ok
    exact recordBuildUsageEffect done
  | releaseUnattached graceS =>
    obtain ⟨⟨m,pks⟩,done,rfl⟩ := mapOk ok
    exact releaseEffect done
  | settleOperator pk dataset verified => exact settleOperatorEffect ok
  | runChanged pk change =>
    obtain ⟨row,locked,done⟩ := bindOk.mp ok
    cases Except.ok.inj done
    exact Aside.effect (lockedSave locked ⟨rfl,le_rfl⟩)

structure World where
  ledger : Ledger
  clock : Int
  processStartedAt : Int
  reading : List Nat
  starting : List Nat
  refusals : List Nat

def World.start (ledger : Ledger) (now : Int) : World := ⟨ledger,now,now,[],[],[]⟩

inductive Event where
  | ensureCycle
  | reserve (request : AdmissionRequest) (sourceSite : Option Nat) (reason : String) (admitted : Bool)
  | createRun (fields : RunFields) (reservation : Option Nat)
  | startAnswered (pk : Nat) (run : RemoteRun) (mismatches : List String)
  | startFailed (pk : Nat) (error : StartError)
  | startLost (pk : Nat)
  | startRefusalTripped (pk : Nat)
  | startRefusalLost (pk : Nat)
  | strandedLatchesTripped (cap : Int)
  | latchCleared (reason : String)
  | work (op : Work)
  | monitoringBegun (pk : Nat)
  | monitoringCompleted (pk : Nat) (result : Option MonitorResult)
  | monitoringLost (pk : Nat)
  | staleMarkersResolved
  | restarted
  | originClaimed (attestedBy : String)
  | handoffExported (destination : String) (record : Json)
  | handoffImported (record : Json)

structure Label where
  config : LedgerConfig
  now : Int
  event : Event

def without (pk : Nat) (pks : List Nat) : List Nat := pks.filter (· ≠ pk)

def World.commit (w : World) (now : Int) (l : Ledger) : World := { w with ledger := l, clock := now }

section
variable (digest : Json → String) (config : LedgerConfig) (now : Int)

inductive Transition (w : World) : Event → World → Prop where
  | ensureCycle : Transition w .ensureCycle (w.commit now (ensureCycle config now w.ledger).1)
  | reserve {request sourceSite reason l outcome}
      (ok : reserve request sourceSite config now reason w.ledger = .ok (l,outcome)) :
      Transition w (.reserve request sourceSite reason outcome.admitted) (w.commit now l)
  | createRun {fields reservation l pk} (ok : createRun fields reservation w.ledger = .ok (l,pk)) :
      Transition w (.createRun fields reservation) { w.commit now l with starting := pk::w.starting }
  | startAnswered {pk run mismatches l} (pending : pk ∈ w.starting)
      (ok : recordStart pk run mismatches now w.ledger = .ok l) :
      Transition w (.startAnswered pk run mismatches) { w.commit now l with starting := without pk w.starting }
  | startFailed {pk error l} (pending : pk ∈ w.starting) (ok : recordStartError pk error w.ledger = .ok l) :
      Transition w (.startFailed pk error) { w.commit now l with
        starting := without pk w.starting
        refusals := if error.refusal then pk::w.refusals else w.refusals }
  | startLost {pk} : Transition w (.startLost pk) { w with clock := now, starting := without pk w.starting }
  | startRefusalTripped {pk} (pending : pk ∈ w.refusals) :
      Transition w (.startRefusalTripped pk) { w.commit now
        (tripStartRefusal pk config.budget.estimatorVersion now w.ledger).1 with
        refusals := without pk w.refusals }
  | startRefusalLost {pk} :
      Transition w (.startRefusalLost pk) { w with clock := now, refusals := without pk w.refusals }
  | strandedLatchesTripped {cap} : Transition w (.strandedLatchesTripped cap)
      (w.commit now (tripStrandedLatches cap config.budget.estimatorVersion now w.ledger).1)
  | latchCleared {reason l count} (ok : clearLatch reason now w.ledger = .ok (l,count)) :
      Transition w (.latchCleared reason) (w.commit now l)
  | work {op l} (ok : op.commit config now w.ledger = .ok l) : Transition w (.work op) (w.commit now l)
  | monitoringBegun {pk l call} (ok : beginMonitoringRead pk now config w.ledger = .ok (l,call)) :
      Transition w (.monitoringBegun pk) { w.commit now l with
        reading := if call.isSome then pk::w.reading else w.reading }
  | monitoringCompleted {pk result l closed} (pending : pk ∈ w.reading)
      (ok : completeMonitoringRead pk result now config w.ledger = .ok (l,closed)) :
      Transition w (.monitoringCompleted pk result) { w.commit now l with reading := without pk w.reading }
  | monitoringLost {pk} : Transition w (.monitoringLost pk) { w with clock := now, reading := without pk w.reading }
  | staleMarkersResolved {l count}
      (ok : resolveStaleMonitoringMarkers w.processStartedAt w.ledger = .ok (l,count)) :
      Transition w .staleMarkersResolved (w.commit now l)
  | restarted : Transition w .restarted { w with clock := now, processStartedAt := now, reading := [] }
  | originClaimed {attestedBy l} (ok : claimOrigin attestedBy config now w.ledger = .ok l) :
      Transition w (.originClaimed attestedBy) (w.commit now l)
  | handoffExported {destination l record}
      (ok : exportHandoff digest destination config now w.ledger = .ok (l,record)) :
      Transition w (.handoffExported destination record) (w.commit now l)
  | handoffImported {record l changed} (ok : importHandoff digest record config now w.ledger = .ok (l,changed)) :
      Transition w (.handoffImported record) (w.commit now l)
end

def Step (digest : Json → String) (w : World) (label : Label) (w' : World) : Prop :=
  w.clock ≤ label.now ∧ Transition digest label.config label.now w label.event w'

structure World.Sound (w : World) : Prop where
  linked : ∀ row ∈ w.ledger.reservations, ∀ pk, row.providerRun = some pk → pk < w.ledger.runs.length
  past : ∀ row ∈ w.ledger.reservations, row.reservedAt ≤ w.clock ∧ ∀ t, row.reconciledAt = some t → t ≤ w.clock
  inFlight : ∀ pk ∈ w.reading, ∃ row since, w.ledger.reservations[pk]? = some row ∧
    row.monitoringCallPendingSince = some since ∧ w.processStartedAt ≤ since
  started : w.processStartedAt ≤ w.clock
  marked : ∀ row ∈ w.ledger.reservations, row.monitoringCallPendingSince ≠ none →
    row.status = .reconciled ∧ hasObligation row = true

theorem soundStart {ledger : Ledger} (fresh : ledger.reservations = []) (now : Int) :
    (World.start ledger now).Sound :=
  ⟨by simp [World.start,fresh],by simp [World.start,fresh],by simp [World.start],le_rfl,
    by simp [World.start,fresh]⟩

theorem memWithout {pk q : Nat} {pks : List Nat} : q ∈ without pk pks ↔ q ∈ pks ∧ q ≠ pk := by
  simp [without]

def RunsGrow (before after : List ProviderRun) : Prop :=
  ∃ kept added, after = kept ++ added ∧
    List.Forall₂ (fun a b : ProviderRun => a.correctionReadCount ≤ b.correctionReadCount) before kept

theorem runsGrow {before after : List ProviderRun} (kept : List.Forall₂ RunKept before after) :
    RunsGrow before after :=
  ⟨after,[],by simp,kept.imp fun _ _ h => h.correctionReads⟩

theorem runsSame {before after : List ProviderRun} (same : after = before) : RunsGrow before after :=
  ⟨after,[],by simp,same ▸ List.forall₂_same.mpr fun _ _ => le_rfl⟩

theorem runsGrowLength {before after : List ProviderRun} (grow : RunsGrow before after) :
    before.length ≤ after.length := by
  obtain ⟨kept,added,rfl,rows⟩ := grow
  rw [List.length_append,rows.length_eq]
  exact Nat.le_add_right _ _

inductive RowsMoved (config : LedgerConfig) (now processStartedAt : Int) (l l' : Ledger) : Prop where
  | reserved {request outcome mid state row} (admission : Reserved request config now l l' outcome mid state row)
  | rewritten (link : Option Nat) (linked : ∀ pk, link = some pk → pk < l'.runs.length)
      (rows : Rewritten (RowChange config now processStartedAt link l) l.reservations l'.reservations)

theorem RowsMoved.kept {config : LedgerConfig} {now processStartedAt : Int} {l l' : Ledger}
    (same : l'.reservations = l.reservations) : RowsMoved config now processStartedAt l l' :=
  .rewritten none (by simp) (.ofEq same)

theorem RowsMoved.worked {config : LedgerConfig} {now processStartedAt : Int} {l l' : Ledger}
    (effect : Effect (Worked now none) l l') : RowsMoved config now processStartedAt l l' :=
  .rewritten none (by simp) (effect.rows.imp fun _ _ change => .worked change)

section
variable {digest : Json → String} {config : LedgerConfig} {now : Int} {w w' : World} {event : Event}

theorem ledgerKept {l l' : Ledger} (rows : l'.reservations = l.reservations) (runs : l'.runs = l.runs) :
    RowsMoved config now w.processStartedAt l l' ∧ RunsGrow l.runs l'.runs :=
  ⟨.kept rows,runsSame runs⟩

theorem transitionTables (sound : w.Sound) (step : Transition digest config now w event w') :
    RowsMoved config now w.processStartedAt w.ledger w'.ledger ∧ RunsGrow w.ledger.runs w'.ledger.runs := by
  cases step with
  | ensureCycle => exact ledgerKept (ensureOnly _ _ _).reservations (ensureOnly _ _ _).runs
  | reserve ok =>
    obtain ⟨mid,state,row,admission⟩ := reserveSound ok
    exact ⟨.reserved admission,runsSame admission.runs⟩
  | createRun ok =>
    have created := createRunCreated ok
    refine ⟨.rewritten (some _) ?_ ((created.rows now).imp fun _ _ change => .worked change),?_⟩
    · intro pk same
      cases same
      simp [World.commit,created.runs,created.key]
    · exact ⟨_,_,created.runs,List.forall₂_same.mpr fun _ _ => le_rfl⟩
  | startAnswered pending ok =>
    have aside := recordStartAside ok
    exact ⟨.kept aside.reservations,runsGrow aside.runs⟩
  | @startFailed pk error l pending ok =>
    obtain ⟨run,locked,done⟩ := bindOk.mp ok
    cases Except.ok.inj done
    have here := lockRunOk locked
    have counts : List.Forall₂ (fun a b : ProviderRun => a.correctionReadCount ≤ b.correctionReadCount)
        w.ledger.runs (w.ledger.runs.set pk { run with startError := some error }) :=
      forall₂Set (fun a => Nat.le_refl a.correctionReadCount) here (Nat.le_refl run.correctionReadCount)
    exact ⟨.kept rfl,_,[],(List.append_nil _).symm,counts⟩
  | startLost => exact ledgerKept rfl rfl
  | startRefusalTripped pending =>
    exact ledgerKept (startRefusalOnly _ _ _ _).reservations (startRefusalOnly _ _ _ _).runs
  | startRefusalLost => exact ledgerKept rfl rfl
  | @strandedLatchesTripped cap =>
    obtain ⟨m,aside,same⟩ := tripStrandedLatchesSplit cap config.budget.estimatorVersion now w.ledger
    have refusals := strandedRefusalsOnly config.budget.estimatorVersion now m
    rw [← same] at refusals
    exact ⟨.kept (refusals.reservations.trans aside.reservations),runsGrow (refusals.runs ▸ aside.runs)⟩
  | latchCleared ok => exact ledgerKept (clearLatchOnly ok).reservations (clearLatchOnly ok).runs
  | work ok =>
    have effect := workEffect ok
    exact ⟨.worked effect,runsGrow effect.runs⟩
  | monitoringBegun ok =>
    rcases beginMonitoringReadEffect ok with ⟨_,rfl⟩ | ⟨resv,row,_,here,begun,saved⟩
    · exact ledgerKept rfl rfl
    · exact ⟨.rewritten none (by simp) (saved.reservations ▸ .set here (.begun begun)),runsGrow saved.runs⟩
  | monitoringCompleted pending ok =>
    obtain ⟨resv,row,here,completed,saved⟩ := completeMonitoringReadSaved ok
    obtain ⟨stored,since,at_,marked,_⟩ := sound.inFlight _ pending
    have same : stored = resv := Option.some.inj (at_.symm.trans here)
    subst same
    have busy : stored.monitoringCallPendingSince ≠ none := by rw [marked]; simp
    exact ⟨.rewritten none (by simp) (saved.reservations ▸ .set here (.completed busy completed)),
      runsGrow saved.runs⟩
  | monitoringLost => exact ledgerKept rfl rfl
  | staleMarkersResolved ok =>
    have effect := resolveStaleEffect ok
    exact ⟨.rewritten none (by simp) (effect.rows.imp fun _ _ change => .resolved change.1 change.2),
      runsGrow effect.runs⟩
  | restarted => exact ledgerKept rfl rfl
  | originClaimed ok => exact ledgerKept (claimOriginOnly ok).reservations (claimOriginOnly ok).runs
  | handoffExported ok => exact ledgerKept (exportHandoffOnly ok).reservations (exportHandoffOnly ok).runs
  | handoffImported ok => exact ledgerKept (importHandoffOnly ok).reservations (importHandoffOnly ok).runs

theorem transitionClock (step : Transition digest config now w event w') : w'.clock = now := by
  cases step <;> rfl

def KeepsMarkers (pks : List Nat) (l l' : Ledger) : Prop :=
  ∀ pk ∈ pks, ∀ row since, l.reservations[pk]? = some row → row.monitoringCallPendingSince = some since →
    ∃ row', l'.reservations[pk]? = some row' ∧ row'.monitoringCallPendingSince = some since

theorem keepsMarkersOf {R : Reservation → Reservation → Prop} {pks : List Nat} {l l' : Ledger}
    (rows : Rewritten R l.reservations l'.reservations)
    (kept : ∀ row row', R row row' → row'.monitoringCallPendingSince = row.monitoringCallPendingSince) :
    KeepsMarkers pks l l' := by
  intro pk _ row since here marked
  obtain ⟨row',there,same | changed⟩ := forall₂Forward rows here
  · exact ⟨row',there,same ▸ marked⟩
  · exact ⟨row',there,(kept row row' changed).trans marked⟩

theorem keepsMarkersSame {pks : List Nat} {l l' : Ledger} (same : l'.reservations = l.reservations) :
    KeepsMarkers pks l l' :=
  keepsMarkersOf (R := fun _ _ => False) (.ofEq same) (fun _ _ h => h.elim)

theorem keepsMarkersElse {pk : Nat} {pks : List Nat} {row : Reservation} {l l' : Ledger}
    (saved : l'.reservations = l.reservations.set pk row) (others : pk ∉ pks) : KeepsMarkers pks l l' := by
  intro q mem stored since here marked
  have differs : pk ≠ q := fun same => others (same ▸ mem)
  exact ⟨stored,by rw [saved,List.getElem?_set_ne differs]; exact here,marked⟩

theorem markersKept (sound : w.Sound) (step : Transition digest config now w event w') :
    KeepsMarkers (w'.reading.filter (w.reading.contains ·)) w.ledger w'.ledger := by
  cases step with
  | ensureCycle => exact keepsMarkersSame (ensureOnly _ _ _).reservations
  | reserve ok =>
    obtain ⟨mid,state,row,admission⟩ := reserveSound ok
    intro pk _ stored since here marked
    refine ⟨stored,?_,marked⟩
    simp only [World.commit,admission.appended]
    rw [List.getElem?_append_left (List.getElem?_eq_some_iff.mp here).1]
    exact here
  | createRun ok =>
    exact keepsMarkersOf ((createRunCreated ok).rows now) fun _ _ change => change.pending
  | startAnswered pending ok => exact keepsMarkersSame (recordStartAside ok).reservations
  | startFailed pending ok =>
    obtain ⟨run,locked,done⟩ := bindOk.mp ok
    cases Except.ok.inj done
    exact keepsMarkersSame rfl
  | startLost => exact keepsMarkersSame rfl
  | startRefusalTripped pending => exact keepsMarkersSame (startRefusalOnly _ _ _ _).reservations
  | startRefusalLost => exact keepsMarkersSame rfl
  | @strandedLatchesTripped cap =>
    obtain ⟨m,aside,same⟩ := tripStrandedLatchesSplit cap config.budget.estimatorVersion now w.ledger
    have refusals := strandedRefusalsOnly config.budget.estimatorVersion now m
    rw [← same] at refusals
    exact keepsMarkersSame (refusals.reservations.trans aside.reservations)
  | latchCleared ok => exact keepsMarkersSame (clearLatchOnly ok).reservations
  | work ok => exact keepsMarkersOf (workEffect ok).rows fun _ _ change => change.pending
  | monitoringBegun ok =>
    rcases beginMonitoringReadEffect ok with ⟨_,rfl⟩ | ⟨resv,row,_,here,begun,saved⟩
    · exact keepsMarkersSame rfl
    · refine keepsMarkersElse saved.reservations fun mem => ?_
      -- a row whose call is in flight is marked, and a marked row is not begun again
      obtain ⟨stored,since,there,marked,_⟩ := sound.inFlight _ (by simpa using (List.mem_filter.mp mem).2)
      have same : stored = resv := Option.some.inj (there.symm.trans here)
      subst same
      rw [begun.idle] at marked
      cases marked
  | @monitoringCompleted pk result l closed pending ok =>
    obtain ⟨resv,row,here,completed,saved⟩ := completeMonitoringReadSaved ok
    refine keepsMarkersElse saved.reservations fun mem => ?_
    exact (memWithout.mp (List.mem_filter.mp mem).1).2 rfl
  | monitoringLost => exact keepsMarkersSame rfl
  | staleMarkersResolved ok =>
    have effect := resolveStaleEffect ok
    intro pk mem row since here marked
    obtain ⟨stored,when_,there,at_,recent⟩ := sound.inFlight pk (by simpa using (List.mem_filter.mp mem).2)
    have same : stored = row := Option.some.inj (there.symm.trans here)
    subst same
    obtain ⟨row',there',unchanged | ⟨stale,_⟩⟩ := forall₂Forward effect.rows here
    · exact ⟨row',there',unchanged ▸ marked⟩
    · -- a marker of the running process is not older than the process
      simp only [staleMarker,at_,Option.any_some,decide_eq_true_eq] at stale
      omega
  | restarted => exact keepsMarkersSame rfl
  | originClaimed ok => exact keepsMarkersSame (claimOriginOnly ok).reservations
  | handoffExported ok => exact keepsMarkersSame (exportHandoffOnly ok).reservations
  | handoffImported ok => exact keepsMarkersSame (importHandoffOnly ok).reservations

theorem readingStep (sound : w.Sound) (order : w.clock ≤ now) (step : Transition digest config now w event w') :
    ∀ pk ∈ w'.reading, pk ∈ w.reading ∧ w'.processStartedAt = w.processStartedAt ∨
      ∃ row, w'.ledger.reservations[pk]? = some row ∧ row.monitoringCallPendingSince = some now ∧
        w'.processStartedAt ≤ now := by
  intro pk mem
  cases step with
  | monitoringBegun ok =>
    rcases beginMonitoringReadEffect ok with ⟨rfl,rfl⟩ | ⟨resv,row,called,here,begun,saved⟩
    · exact .inl ⟨mem,rfl⟩
    · simp only [called,if_true,List.mem_cons] at mem
      rcases mem with rfl | old
      · obtain ⟨count,rfl⟩ := begun.marked
        have saves : (w.commit now _).ledger.reservations[pk]? = some _ :=
          saved.reservations ▸ List.getElem?_set_self (List.getElem?_eq_some_iff.mp here).1
        exact .inr ⟨_,saves,rfl,sound.started.trans order⟩
      · exact .inl ⟨old,rfl⟩
  | monitoringCompleted pending ok => exact .inl ⟨(memWithout.mp mem).1,rfl⟩
  | monitoringLost => exact .inl ⟨(memWithout.mp mem).1,rfl⟩
  | restarted => simp at mem
  | ensureCycle | reserve | createRun | startAnswered | startFailed | startLost | startRefusalTripped
  | startRefusalLost | strandedLatchesTripped | latchCleared | work | staleMarkersResolved | originClaimed
  | handoffExported | handoffImported => exact .inl ⟨mem,rfl⟩

theorem processStep (sound : w.Sound) (order : w.clock ≤ now) (step : Transition digest config now w event w') :
    w'.processStartedAt ≤ now := by
  have started := sound.started
  cases step with
  | restarted => exact le_rfl
  | _ => exact started.trans order

theorem markedStep (sound : w.Sound) (rows : RowsMoved config now w.processStartedAt w.ledger w'.ledger) :
    ∀ row ∈ w'.ledger.reservations, row.monitoringCallPendingSince ≠ none →
      row.status = .reconciled ∧ hasObligation row = true := by
  intro row mem pending
  cases rows with
  | reserved admission =>
    rw [admission.appended] at mem
    rcases List.mem_append.mp mem with old | new
    · exact sound.marked row old pending
    · obtain ⟨site,envelope,reason,made⟩ := admission.content
      rw [List.mem_singleton.mp new,made] at pending
      exact absurd rfl pending
  | rewritten link linked rewrites =>
    obtain ⟨before,memBefore,same | change⟩ := forall₂Mem rewrites mem
    · exact same ▸ sound.marked before memBefore (same ▸ pending)
    · cases change with
      | worked change =>
        have status := (sound.marked before memBefore (change.pending ▸ pending)).1
        have wasOpen := change.wasOpen
        rw [status] at wasOpen
        cases wasOpen
      | begun change =>
        have obliged := change.obliged (w.ledger.rowsChecked before memBefore)
        obtain ⟨count,rfl⟩ := change.marked
        exact ⟨change.reconciled,obliged⟩
      | completed was change =>
        obtain ⟨corrected,run,read,untilAt,reconciledAt,_,_,rfl⟩ := change.applied
        exact absurd (completedIdle _ _ _ _ _ _ _) pending
      | resolved stale made =>
        rw [made] at pending
        exact absurd rfl pending

theorem soundTransition (sound : w.Sound) (order : w.clock ≤ now)
    (step : Transition digest config now w event w') : w'.Sound := by
  obtain ⟨rows,runs⟩ := transitionTables sound step
  have clock := transitionClock step
  have grown := runsGrowLength runs
  refine ⟨?_,?_,?_,clock.symm ▸ processStep sound order step,markedStep sound rows⟩
  · intro row mem pk link
    cases rows with
    | reserved admission =>
      rw [admission.appended] at mem
      rcases List.mem_append.mp mem with old | new
      · exact (sound.linked row old pk link).trans_le grown
      · obtain ⟨site,envelope,reason,made⟩ := admission.content
        rw [List.mem_singleton.mp new,made] at link
        cases link
    | rewritten new linked rewrites =>
      obtain ⟨before,memBefore,same | change⟩ := forall₂Mem rewrites mem
      · exact (sound.linked before memBefore pk (same ▸ link)).trans_le grown
      · rcases (rowChangeKeeps change).2.2 with same | attached
        · exact (sound.linked before memBefore pk (same ▸ link)).trans_le grown
        · exact linked pk (attached ▸ link)
  · intro row mem
    rw [clock]
    cases rows with
    | reserved admission =>
      rw [admission.appended] at mem
      rcases List.mem_append.mp mem with old | new
      · obtain ⟨reserved,reconciled⟩ := sound.past row old
        exact ⟨reserved.trans order,fun t at_ => (reconciled t at_).trans order⟩
      · obtain ⟨site,envelope,reason,made⟩ := admission.content
        rw [List.mem_singleton.mp new,made]
        exact ⟨le_rfl,fun t at_ => by contradiction⟩
    | rewritten new linked rewrites =>
      obtain ⟨before,memBefore,same | change⟩ := forall₂Mem rewrites mem
      · obtain ⟨reserved,reconciled⟩ := sound.past before memBefore
        rw [same]
        exact ⟨reserved.trans order,fun t at_ => (reconciled t at_).trans order⟩
      · obtain ⟨reserved,reconciled⟩ := sound.past before memBefore
        obtain ⟨terms,at_,_⟩ := rowChangeKeeps change
        refine ⟨terms.reservedAt ▸ reserved.trans order,fun t here => ?_⟩
        rcases at_ with same | set
        · exact (reconciled t (same ▸ here)).trans order
        · rw [set] at here
          exact (Option.some.inj here).ge
  · intro pk mem
    rcases readingStep sound order step pk mem with ⟨old,process⟩ | ⟨row,here,marked,recent⟩
    · obtain ⟨row,since,here,marked,recent⟩ := sound.inFlight pk old
      obtain ⟨row',there,still⟩ := markersKept sound step pk
        (List.mem_filter.mpr ⟨mem,by simpa using old⟩) row since here marked
      exact ⟨row',since,there,still,process ▸ recent⟩
    · exact ⟨row,now,here,marked,recent⟩
end

structure SameHoldings (l l' : Ledger) : Prop where
  cycles : l'.cycles = l.cycles
  authority : l'.authority = l.authority

theorem SameHoldings.refl (l : Ledger) : SameHoldings l l := ⟨rfl,rfl⟩

theorem latchHoldings {l l' : Ledger} (only : LatchOnly l l') : SameHoldings l l' := ⟨only.cycles,only.authority⟩

theorem frameHoldings {l l' : Ledger} (frame : Frame l l') : SameHoldings l l' := ⟨frame.cycles,frame.authority⟩

inductive Holding (digest : Json → String) (config : LedgerConfig) (now : Int) (l l' : Ledger) : Event → Prop where
  | kept {event} (same : SameHoldings l l') : Holding digest config now l l' event
  | ensured {event base after result} (before : SameHoldings l base) (step : Ensured config now base after result)
      (same : SameHoldings after l') : Holding digest config now l l' event
  | continued {event base after row} (before : SameHoldings l base)
      (step : Ensured config now base after (some row))
      (same : SameHoldings (ensureContinuedAuthority row.cycleStart config now after) l') :
      Holding digest config now l l' event
  | claimed {attestedBy cycle} (found : (ensureCycle config now l).2 = some cycle)
      (claimed : Claimed config now l cycle l') : Holding digest config now l l' (.originClaimed attestedBy)
  | exported {destination record cycle row pk} (found : (ensureCycle config now l).2 = some cycle)
      (entry : (ensureCycle config now l).1.authorityEntry cycle.cycleStart = some (row,pk))
      (exported : Exported digest destination config now l cycle row pk l' record) :
      Holding digest config now l l' (.handoffExported destination record)
  | imported {record cycle changed} (named : config.ledgerId ≠ "") (bound : boundTo record config.ledgerId = true)
      (found : (ensureCycle config now l).2 = some cycle)
      (parsed : parseDt (lookup "cycle_start" record.fields) "cycle_start" = .ok cycle.cycleStart)
      (imported : Imported digest record config now l cycle l' changed) :
      Holding digest config now l l' (.handoffImported record)

theorem preparedHoldings {config : LedgerConfig} {now : Int} {l mid l' : Ledger} {state : LedgerState}
    {digest : Json → String} {event : Event} (prepared : Prepared config now l mid state)
    (same : SameHoldings mid l') : Holding digest config now l l' event := by
  have repairs := latchHoldings (repairedOnly config now l)
  cases prepared with
  | noCycle step => exact .ensured repairs step same
  | cycle step => exact .continued repairs step same

theorem transitionHoldings {digest : Json → String} {config : LedgerConfig} {now : Int} {w w' : World} {event : Event}
    (step : Transition digest config now w event w') : Holding digest config now w.ledger w'.ledger event := by
  cases step with
  | ensureCycle => exact .ensured (.refl _) (ensureCycleSound config now w.ledger) (.refl _)
  | reserve ok =>
    obtain ⟨mid,state,row,admission⟩ := reserveSound ok
    exact preparedHoldings admission.prepared ⟨admission.cycles,admission.authority⟩
  | createRun ok => exact .kept ⟨(createRunCreated ok).cycles,(createRunCreated ok).authority⟩
  | startAnswered pending ok => exact .kept (frameHoldings (recordStartAside ok).toFrame)
  | startFailed pending ok =>
    obtain ⟨run,locked,done⟩ := bindOk.mp ok
    cases Except.ok.inj done
    exact .kept ⟨rfl,rfl⟩
  | startLost => exact .kept (.refl _)
  | startRefusalTripped pending => exact .kept (latchHoldings (startRefusalOnly _ _ _ _))
  | startRefusalLost => exact .kept (.refl _)
  | @strandedLatchesTripped cap =>
    obtain ⟨m,aside,same⟩ := tripStrandedLatchesSplit cap config.budget.estimatorVersion now w.ledger
    have refusals := strandedRefusalsOnly config.budget.estimatorVersion now m
    rw [← same] at refusals
    exact .kept ⟨refusals.cycles.trans aside.cycles,refusals.authority.trans aside.authority⟩
  | latchCleared ok => exact .kept (latchHoldings (clearLatchOnly ok))
  | work ok => exact .kept (frameHoldings (workEffect ok).toFrame)
  | monitoringBegun ok =>
    rcases beginMonitoringReadEffect ok with ⟨_,rfl⟩ | ⟨resv,row,_,here,begun,saved⟩
    · exact .kept (.refl _)
    · exact .kept (frameHoldings saved.toFrame)
  | monitoringCompleted pending ok =>
    obtain ⟨resv,row,here,completed,saved⟩ := completeMonitoringReadSaved ok
    exact .kept (frameHoldings saved.toFrame)
  | monitoringLost => exact .kept (.refl _)
  | staleMarkersResolved ok => exact .kept (frameHoldings (resolveStaleEffect ok).toFrame)
  | restarted => exact .kept (.refl _)
  | originClaimed ok =>
    obtain ⟨cycle,found,claimed⟩ := claimSound ok
    exact .claimed found claimed
  | handoffExported ok =>
    obtain ⟨cycle,row,pk,found,entry,exported⟩ := exportSound ok
    exact .exported found entry exported
  | handoffImported ok =>
    obtain ⟨named,bound,cycle,found,parsed,imported⟩ := importSound ok
    exact .imported named bound found parsed imported

end HwRadar.Apify
