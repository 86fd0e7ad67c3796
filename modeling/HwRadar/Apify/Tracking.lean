import HwRadar.Apify.WorkCompletion
import HwRadar.Apify.StartRefusals

/-! Start jobs beside the tick's units. A job reserves, creates its run on that
reservation and then sends its one start request; each is a commit of its own or
no commit at all, and any unit of the tick may run between them. -/
namespace HwRadar.Apify
open HwRadar.Base HwRadar.Base.Tables

structure Jobs where
  world : World
  admitted : List Nat
  created : List (Nat × Nat)
  sent : List Nat
  released : List Nat
  cleaning : List Nat

def Jobs.start (now : Int) : Jobs := ⟨.start .empty now,[],[],[],[],[]⟩

def Jobs.ready (t : Jobs) : Event → Prop
  | .createRun _ reservation => ∃ k, reservation = some k ∧ k ∈ t.admitted
  | .startAnswered pk _ _ => pk ∈ t.sent
  | .work (.finishAttempt pk _ _ _) => pk ∈ t.cleaning
  | _ => True

def Jobs.admittedAfter (t : Jobs) : Event → List Nat
  | .reserve (.operator _) _ _ _ => t.admitted
  | .reserve _ _ _ true => t.world.ledger.reservations.length::t.admitted
  | .createRun _ (some k) => without k t.admitted
  | _ => t.admitted

def Jobs.createdAfter (t : Jobs) : Event → List (Nat × Nat)
  | .createRun _ (some k) => (t.world.ledger.runs.length,k)::t.created
  | _ => t.created

def Jobs.releasedAfter (t : Jobs) (now : Int) : Event → List Nat
  | .work (.releaseUnattached graceS) =>
    (committed (t.world.ledger,[]) (releaseUnattachedReservations now graceS t.world.ledger)).2 ++ t.released
  | _ => t.released

def Jobs.cleaningAfter (t : Jobs) (config : LedgerConfig) (now : Int) : Event → List Nat
  | .work (.beginAttempt pk cap overdue) =>
    if (committed (t.world.ledger,none)
        (beginAttempt cap config.budget.estimatorVersion now pk overdue t.world.ledger)).2.isSome
    then pk::t.cleaning else t.cleaning
  | .work (.finishAttempt pk _ _ _) => without pk t.cleaning
  | _ => t.cleaning

def Jobs.after (t : Jobs) (label : Label) (w' : World) : Jobs :=
  { world := w'
    admitted := t.admittedAfter label.event
    created := t.createdAfter label.event
    sent := t.sent
    released := t.releasedAfter label.now label.event
    cleaning := t.cleaningAfter label.config label.now label.event }

inductive JobAct where
  | commit (label : Label)
  | send (pk : Nat)

inductive JobStep (digest : Json → String) (t : Jobs) : JobAct → Jobs → Prop where
  | commit {label w'} (ready : t.ready label.event) (step : PollStep digest t.world label w') :
      JobStep digest t (.commit label) (t.after label w')
  | send {pk} (pending : pk ∈ t.world.starting) (first : pk ∉ t.sent) :
      JobStep digest t (.send pk) { t with sent := pk::t.sent }

def Ledger.trips (l : Ledger) (reason : LatchReason) (pk : Nat) : Nat :=
  l.latches.countP fun trip => trip.matches reason (some pk)

section
variable {l l' : Ledger} {reason : LatchReason} {pk : Nat} {version : String} {now : Int}

theorem tripsPositive : 0 < l.trips reason pk ↔ ∃ trip ∈ l.latches, trip.matches reason (some pk) = true :=
  List.countP_pos_iff

theorem openTripCounted (tripped : l.openTrip reason (some pk)) : 0 < l.trips reason pk := by
  obtain ⟨trip,mem,_,same⟩ := tripped
  exact tripsPositive.mpr ⟨trip,mem,matchesIff.mpr same⟩

theorem untrippedIff : untripped l reason pk = true ↔ l.trips reason pk = 0 := by
  simp [untripped,Ledger.trips,List.countP_eq_zero]

theorem grownTrips (grown : l.latches <+: l'.latches) : l.trips reason pk ≤ l'.trips reason pk :=
  grown.sublist.countP_le

theorem tripOther {other : LatchReason} {q : Nat} (differs : other ≠ reason ∨ q ≠ pk) :
    (tripLatchLocked other (some q) version now l).1.trips reason pk = l.trips reason pk := by
  rcases tripAppends other (some q) version now l with ⟨same,_⟩ | ⟨appended,_⟩
  · rw [same]
  · rw [Ledger.trips,appended,List.countP_append]
    rcases differs with differs | differs <;> simp [BudgetLatch.matches,differs,Ledger.trips]

theorem foldTrips {f : Ledger → Nat → Ledger} {pks : List Nat}
    (each : ∀ m, ∀ q ∈ pks, (f m q).trips reason pk = m.trips reason pk) :
    (pks.foldl f l).trips reason pk = l.trips reason pk := by
  induction pks generalizing l with
  | nil => rfl
  | cons q rest ih =>
    rw [List.foldl_cons,ih fun m p mem => each m p (List.mem_cons_of_mem _ mem)]
    exact each l q List.mem_cons_self

theorem sweepTrips (cap : Int) (version : String) (now : Int) (l : Ledger) (had : 0 < l.trips reason pk) :
    (tripStrandedLatches cap version now l).1.trips reason pk = l.trips reason pk := by
  have orphans : ((strandedOrphans l).foldl (tripOrphan version now) l).trips reason pk = l.trips reason pk := by
    refine foldTrips fun m q mem => tripOther ?_
    by_contra same
    obtain ⟨rfl,rfl⟩ := not_or.mp same |>.imp not_not.mp not_not.mp
    have zero := untrippedIff.mp (memOrphans.mp mem).2
    omega
  generalize made : (strandedOrphans l).foldl (tripOrphan version now) l = m at orphans
  have exhausted : ((strandedExhausted cap m).foldl (markExhausted version now) m).trips reason pk =
      m.trips reason pk := by
    refine foldTrips fun n q mem => ?_
    unfold markExhausted
    split
    · rfl
    · refine (tripOther (l := n.saveRun q _) ?_).trans rfl
      by_contra same
      obtain ⟨rfl,rfl⟩ := not_or.mp same |>.imp not_not.mp not_not.mp
      have zero := untrippedIff.mp (memExhausted.mp mem).2
      omega
  generalize marked : (strandedExhausted cap m).foldl (markExhausted version now) m = n at exhausted
  have refused : (tripStrandedStartRefusalsLocked version now n).1.trips reason pk = n.trips reason pk := by
    refine foldTrips fun o q mem => tripOther ?_
    by_contra same
    obtain ⟨rfl,rfl⟩ := not_or.mp same |>.imp not_not.mp not_not.mp
    obtain ⟨trip,here,both⟩ := tripsPositive.mp (show 0 < n.trips .accountLimitRefused q by omega)
    exact (memUnrecorded.mp mem).2 trip here (matchesIff.mp both).1 (matchesIff.mp both).2
  have parts : (tripStrandedLatches cap version now l).1 = (tripStrandedStartRefusalsLocked version now n).1 := by
    rw [← marked,← made]
    rfl
  rw [parts,refused,exhausted,orphans]

theorem mapTrips {f : BudgetLatch → BudgetLatch}
    (same : ∀ trip : BudgetLatch, (f trip).matches reason (some pk) = trip.matches reason (some pk)) :
    (l.latches.map f).countP (fun trip => trip.matches reason (some pk)) = l.trips reason pk := by
  rw [List.countP_map]
  exact List.countP_congr fun trip _ => by simp [Function.comp,same]

theorem bumpedMatches (trip : BudgetLatch) :
    (trip.bumped version now).matches reason (some pk) = trip.matches reason (some pk) := by
  unfold BudgetLatch.bumped
  split <;> rfl

theorem clearedMatches (text : String) (trip : BudgetLatch) :
    (trip.ownerCleared text now).matches reason (some pk) = trip.matches reason (some pk) := by
  unfold BudgetLatch.ownerCleared
  split <;> rfl

theorem repairedTrips (config : LedgerConfig) : l.trips reason pk ≤ (repaired config now l).trips reason pk := by
  have bump : (clearOnEstimatorBump config.budget.estimatorVersion now l).trips reason pk = l.trips reason pk :=
    mapTrips bumpedMatches
  rw [← bump]
  exact grownTrips (refusalsKeep _ _ _)

theorem otherTripsGrown (grown : OtherTrips l.latches l'.latches) : l.trips reason pk ≤ l'.trips reason pk := by
  obtain ⟨added,appended,_⟩ := grown
  exact grownTrips ⟨added,appended.symm⟩

theorem sameTrips (same : l'.latches = l.latches) : l.trips reason pk ≤ l'.trips reason pk := by
  rw [Ledger.trips,Ledger.trips,same]
end

section
variable {digest : Json → String} {config : LedgerConfig} {now : Int} {w w' : World} {event : Event}
  {reason : LatchReason} {pk : Nat}

theorem strandedGrown (cap : Int) (version : String) (now : Int) (l : Ledger) :
    l.latches <+: (tripStrandedLatches cap version now l).1.latches := by
  obtain ⟨m,n,_,grown,marked,_,_,_,_,same⟩ := strandedParts cap version now l
  rw [same]
  exact grown.trans (marked.trans (refusalsKeep version now n))

theorem transitionTrips (step : Transition digest config now w event w') :
    w.ledger.trips reason pk ≤ w'.ledger.trips reason pk := by
  cases step with
  | ensureCycle => exact sameTrips (ensureOnly _ _ _).latches
  | reserve ok =>
    obtain ⟨mid,state,row,admission⟩ := reserveSound ok
    exact (repairedTrips config).trans (sameTrips admission.latches)
  | createRun ok => exact sameTrips (createRunCreated ok).latches
  | startAnswered pending ok => exact otherTripsGrown (recordStartAside ok).latches
  | startFailed pending ok =>
    obtain ⟨run,locked,done⟩ := bindOk.mp ok
    cases Except.ok.inj done
    exact sameTrips rfl
  | startRefusalTripped pending =>
    obtain ⟨trips,appended,_⟩ := startRefusalGrown _ config.budget.estimatorVersion now w.ledger
    exact grownTrips ⟨trips,appended.symm⟩
  | strandedLatchesTripped => exact grownTrips (strandedGrown _ _ _ _)
  | latchCleared ok =>
    unfold clearLatch at ok
    simp only at ok
    split at ok
    · cases ok
    split at ok
    · cases ok
    cases Except.ok.inj ok
    exact (mapTrips (clearedMatches _)).ge
  | work ok => exact otherTripsGrown (workEffect ok).latches
  | monitoringBegun ok =>
    rcases beginMonitoringReadEffect ok with ⟨_,rfl⟩ | ⟨resv,row,_,here,begun,saved⟩
    · exact le_rfl
    · exact otherTripsGrown saved.latches
  | monitoringCompleted pending ok =>
    obtain ⟨resv,row,here,completed,saved⟩ := completeMonitoringReadSaved ok
    exact otherTripsGrown saved.latches
  | staleMarkersResolved ok => exact otherTripsGrown (resolveStaleEffect ok).latches
  | originClaimed ok => exact sameTrips (claimOriginOnly ok).latches
  | handoffExported ok => exact sameTrips (exportHandoffOnly ok).latches
  | handoffImported ok => exact sameTrips (importHandoffOnly ok).latches
  | startLost | startRefusalLost | monitoringLost | restarted => exact le_rfl
end

structure SameCleanup (a b : ProviderRun) : Prop where
  orphanedStartAt : b.orphanedStartAt = a.orphanedStartAt
  storageState : b.storageState = a.storageState
  externalRunId : b.externalRunId = a.externalRunId

theorem SameCleanup.refl (a : ProviderRun) : SameCleanup a a := ⟨rfl,rfl,rfl⟩

theorem stampCleanup (row : ProviderRun) (now : Int) : SameCleanup row (stampWorkCompletion row now) := by
  unfold stampWorkCompletion
  split <;> exact ⟨rfl,rfl,rfl⟩

theorem closedCleanup (a : ProviderRun) (state : ImportState) (now : Int) :
    SameCleanup a (stampWorkCompletion { a with importState := state } now) := by
  obtain ⟨orphaned,storage,named⟩ := stampCleanup { a with importState := state } now
  exact ⟨orphaned,storage,named⟩

theorem orKeptCleanup {a : ProviderRun} {made : Except Halt ProviderRun}
    (each : ∀ moved, made = .ok moved → SameCleanup a moved) : SameCleanup a (orKept a made) := by
  cases made with
  | error halt => exact .refl a
  | ok moved => exact each moved rfl

theorem advanceCleanup {expected dest : ImportState} {a : ProviderRun} :
    SameCleanup a (orKept a (advanceRun expected dest a)) := by
  refine orKeptCleanup fun moved made => ?_
  obtain ⟨_,rfl⟩ := advanceRunOk made
  exact ⟨rfl,rfl,rfl⟩

theorem writtenCleanup (now : Int) (a : ProviderRun) (writer : Writer) : SameCleanup a (writer.write now a) := by
  cases writer with
  | claim created =>
    simp only [Writer.write,claimRun]
    split <;> exact ⟨rfl,rfl,rfl⟩
  | countReads maxDataset maxKv latch =>
    refine orKeptCleanup fun counted made => ?_
    obtain ⟨_,_,_,rfl⟩ := countReadsOk made
    exact ⟨rfl,rfl,rfl⟩
  | observe =>
    refine orKeptCleanup fun moved made => ?_
    obtain ⟨_,rfl⟩ := observeRunOk made
    exact ⟨rfl,rfl,rfl⟩
  | applyAbsence => exact advanceCleanup
  | resolve => exact advanceCleanup
  | evaluate => exact advanceCleanup
  | finalize =>
    refine orKeptCleanup fun moved made => ?_
    obtain ⟨_,rfl⟩ := finalizeRunOk made
    exact closedCleanup a _ now
  | reject onlyFrom =>
    simp only [Writer.write]
    cases made : rejectRun onlyFrom now a with
    | none => exact .refl a
    | some moved =>
      obtain ⟨_,_,rfl⟩ := rejectRunSome made
      exact closedCleanup a _ now
  | countPoll cap =>
    simp only [Writer.write,Apify.countPoll]
    split <;> exact ⟨rfl,rfl,rfl⟩
  | backOff next => exact ⟨rfl,rfl,rfl⟩

structure CleanupMove (event : Event) (l' : Ledger) (key : Nat) (a b : ProviderRun) : Prop where
  orphaned : b.orphanedStartAt = a.orphanedStartAt ∨ l'.openTrip .orphanedStart (some key)
  marked : b.storageState = .deleteFailed → a.storageState = .deleteFailed ∨
    l'.openTrip .deleteAttemptsExhausted (some key)
  deleted : b.storageState = .deleted → a.storageState = .deleted ∨
    ∃ cap storages errors, event = .work (.finishAttempt key cap storages errors)
  named : b.externalRunId = a.externalRunId ∨
    b.externalRunId ≠ none ∧ ∃ run mismatches, event = .startAnswered key run mismatches

section
variable {now : Int} {event : Event} {l' : Ledger} {pk : Nat} {a b : ProviderRun}

theorem SameCleanup.move (same : SameCleanup a b) : CleanupMove event l' pk a b :=
  ⟨.inl same.orphanedStartAt,fun marked => .inl (same.storageState ▸ marked),
    fun deleted => .inl (same.storageState ▸ deleted),.inl same.externalRunId⟩

theorem attemptedCleanup (now : Int) (a : ProviderRun) (deleted : List Storage) (errors : List String) :
    (attemptedRow now a deleted errors).orphanedStartAt = a.orphanedStartAt ∧
    ((attemptedRow now a deleted errors).storageState = .deleted ∨
      (attemptedRow now a deleted errors).storageState = a.storageState) ∧
    (attemptedRow now a deleted errors).externalRunId = a.externalRunId := by
  simp only [attemptedRow]
  split
  · obtain ⟨orphaned,storage,named⟩ := stampCleanup
      { a with
        storageVerified := a.storageVerified ++ deleted
        cleanupErrors := []
        storageState := .deleted
        storageDeletedAt := some now } now
    exact ⟨orphaned,.inl storage,named⟩
  · exact ⟨rfl,.inr rfl,rfl⟩

theorem observedCleanup (a : ProviderRun) (run : RemoteRun) (now : Int) : SameCleanup a (observedRow a run now) := by
  simp only [observedRow,applyRunFields]
  split <;> exact ⟨rfl,rfl,rfl⟩

theorem startedCleanup (a : ProviderRun) (run : RemoteRun) (mismatches : List String) (now : Int) :
    (startedRow a run mismatches now).orphanedStartAt = a.orphanedStartAt ∧
    (startedRow a run mismatches now).storageState = a.storageState ∧
    (startedRow a run mismatches now).externalRunId = some run.id := by
  simp only [startedRow,applyRunFields]
  split <;> split <;> exact ⟨rfl,rfl,rfl⟩

theorem moveCleanup (move : RunMove now event l' pk a b) : CleanupMove event l' pk a b := by
  cases move with
  | observed run => exact (observedCleanup a run now).move
  | started run mismatches answered =>
    obtain ⟨orphaned,storage,named⟩ := startedCleanup a run mismatches now
    exact ⟨.inl orphaned,fun marked => .inl (storage ▸ marked),fun deleted => .inl (storage ▸ deleted),
      .inr ⟨by rw [named]; nofun,run,mismatches,answered⟩⟩
  | orphaned retained unnamed tripped => exact ⟨.inr tripped,.inl,.inl,.inl rfl⟩
  | marked retained tripped => exact ⟨.inl rfl,fun _ => .inr tripped,nofun,.inl rfl⟩
  | finished cap storages errors finishing =>
    obtain ⟨orphaned,storage,named⟩ := attemptedCleanup now a storages errors
    refine ⟨.inl orphaned,fun marked => .inl ?_,fun _ => .inr ⟨cap,storages,errors,finishing⟩,.inl named⟩
    rcases storage with deleted | same
    · rw [deleted] at marked; contradiction
    · exact same ▸ marked
  | exhausted cap storages errors finishing retained tripped =>
    obtain ⟨orphaned,_,named⟩ := attemptedCleanup now a storages errors
    exact ⟨.inl orphaned,fun _ => .inr tripped,nofun,.inl named⟩
  | written writer =>
    obtain ⟨orphaned,storage,named⟩ := writtenCleanup now a writer
    exact SameCleanup.move ⟨orphaned,storage,named⟩
  | same | startFailed | attempted | deferred | polled | monitored => exact SameCleanup.move ⟨rfl,rfl,rfl⟩
end

section
variable {digest : Json → String} {config : LedgerConfig} {now : Int} {w w' : World} {event : Event}
  {l l' : Ledger} {pk k : Nat}

theorem rowsKept (sound : w.Sound) (step : Transition digest config now w event w') {r : Reservation}
    (here : w.ledger.reservations[k]? = some r) : ∃ r', w'.ledger.reservations[k]? = some r' ∧
      r'.admissionClass = r.admissionClass ∧ (∀ pk, r.providerRun = some pk → r'.providerRun = some pk) ∧
      (r.status = .released → r' = r) := by
  have reconciled := sound.marked r (List.mem_of_getElem? here)
  cases (transitionTables sound step).1 with
  | reserved admission =>
    refine ⟨r,?_,rfl,fun _ => id,fun _ => rfl⟩
    rw [admission.appended,List.getElem?_append_left (List.getElem?_eq_some_iff.mp here).1]
    exact here
  | rewritten link linked rows =>
    obtain ⟨r',there,rfl | change⟩ := forall₂Forward rows here
    · exact ⟨r',there,rfl,fun _ => id,fun _ => rfl⟩
    refine ⟨r',there,(rowChangeKeeps change).1.admissionClass,?_,fun released => ?_⟩
    · intro pk attached
      cases change with
      | worked change =>
        rcases change.providerRun with same | ⟨free,_⟩
        · exact same.trans attached
        · rw [free] at attached; contradiction
      | begun change =>
        obtain ⟨count,rfl⟩ := change.marked
        exact attached
      | completed pending change =>
        obtain ⟨corrected,run,read,untilAt,reconciledAt,upward,_,rfl⟩ := change.applied
        have same := (completedTerms corrected run read untilAt reconciledAt now config).2.2.1
        rcases upward with rfl | ⟨figure,_,rfl⟩
        · exact same.trans attached
        · exact same.trans attached
      | resolved stale marked => exact marked ▸ attached
    · cases change with
      | worked change =>
        have wasOpen := change.wasOpen
        rw [released] at wasOpen
        cases wasOpen
      | begun change =>
        rw [change.reconciled] at released
        cases released
      | completed pending change =>
        rw [(reconciled pending).1] at released
        cases released
      | resolved stale marked =>
        have pending : r.monitoringCallPendingSince ≠ none := by
          intro idle
          simp [staleMarker,idle] at stale
        rw [(reconciled pending).1] at released
        cases released

theorem createRunAttached {fields : RunFields} (ok : createRun fields (some k) l = .ok (l',pk)) :
    ∃ r, l.reservations[k]? = some r ∧ r.status = .reserved ∧ r.providerRun = none ∧ pk = l.runs.length ∧
      l'.reservations[k]? = some { r with providerRun := some pk } ∧
      l'.runs = l.runs ++ [ProviderRun.created fields] := by
  have created := createRunCreated ok
  unfold createRun at ok
  simp only at ok
  split at ok
  · cases ok
  rename_i r here
  split at ok
  · rename_i free
    obtain ⟨m,save,done⟩ := bindOk.mp ok
    cases Except.ok.inj done
    refine ⟨r,here,free.1,free.2,created.key,?_,created.runs⟩
    rw [(savedBy save).reservations]
    exact List.getElem?_set_self (List.getElem?_eq_some_iff.mp here).1
  · cases ok

theorem releasedRows {graceS : Option Int} {pks : List Nat}
    (ok : releaseUnattachedReservations now graceS l = .ok (l',pks)) (mem : k ∈ pks) :
    ∃ r, l'.reservations[k]? = some r ∧ r.status = .released := by
  unfold releaseUnattachedReservations at ok
  split at ok
  · cases Except.ok.inj ok; contradiction
  split at ok
  · cases Except.ok.inj ok; contradiction
  obtain ⟨m,folded,same⟩ := mapOk ok
  cases same
  obtain ⟨_,rows⟩ := foldSavedMap folded
  obtain ⟨⟨r,q⟩,chosen,rfl⟩ := List.mem_map.mp mem
  obtain ⟨here,releasable⟩ := List.mem_filter.mp chosen
  rw [List.mem_zipIdx_iff_getElem?] at here
  refine ⟨released r,?_,rfl⟩
  simp only at here releasable
  simp [rows,here,releasable]

theorem startsStep (step : Transition digest config now w event w') (mem : pk ∈ w'.starting) :
    (pk ∈ w.starting ∧ ∀ run mismatches, event ≠ .startAnswered pk run mismatches) ∨
    ∃ fields reservation, event = .createRun fields reservation ∧ pk = w.ledger.runs.length := by
  cases step with
  | createRun ok =>
    rcases List.mem_cons.mp mem with rfl | old
    · exact .inr ⟨_,_,rfl,(createRunCreated ok).key⟩
    · exact .inl ⟨old,nofun⟩
  | startAnswered pending ok =>
    obtain ⟨old,differs⟩ := memWithout.mp mem
    refine .inl ⟨old,fun run mismatches same => differs ?_⟩
    injection same with own
    exact own.symm
  | startFailed pending ok => exact .inl ⟨(memWithout.mp mem).1,nofun⟩
  | startLost => exact .inl ⟨(memWithout.mp mem).1,nofun⟩
  | _ => exact .inl ⟨mem,nofun⟩
end

def Jobs.Attached (t : Jobs) (pk k : Nat) : Prop :=
  ∃ row run, t.world.ledger.reservations[k]? = some row ∧ row.providerRun = some pk ∧
    row.admissionClass ≠ .operator ∧ row.status ≠ .released ∧ t.world.ledger.runs[pk]? = some run ∧
    (run.externalRunId = none → row.status.isOpen = true)

structure RunTracked (l : Ledger) (pk : Nat) (run : ProviderRun) : Prop where
  deleted : run.storageState = .deleted → run.externalRunId ≠ none
  orphaned : run.orphanedStartAt ≠ none → 0 < l.trips .orphanedStart pk
  marked : run.storageState = .deleteFailed → 0 < l.trips .deleteAttemptsExhausted pk

structure Jobs.Sound (t : Jobs) : Prop where
  world : t.world.Sound
  admitted : ∀ k ∈ t.admitted, ∃ row, t.world.ledger.reservations[k]? = some row ∧ row.admissionClass ≠ .operator
  created : ∀ pk k, (pk,k) ∈ t.created → t.Attached pk k
  released : ∀ k ∈ t.released, ∃ row, t.world.ledger.reservations[k]? = some row ∧ row.status = .released
  pending : ∀ pk ∈ t.world.starting, (∃ k, (pk,k) ∈ t.created) ∧
    ∀ run, t.world.ledger.runs[pk]? = some run → run.externalRunId = none
  sent : ∀ pk ∈ t.sent, ∃ k, (pk,k) ∈ t.created
  cleaning : ∀ pk ∈ t.cleaning, ∃ run, t.world.ledger.runs[pk]? = some run ∧ run.externalRunId ≠ none
  runs : ∀ (pk : Nat) run, t.world.ledger.runs[pk]? = some run → RunTracked t.world.ledger pk run

section
variable {digest : Json → String} {t : Jobs} {label : Label} {w' : World}

theorem jobsFresh (now : Int) : (Jobs.start now).Sound := by
  refine ⟨soundStart rfl now,?_,?_,?_,?_,?_,?_,?_⟩ <;> simp [Jobs.start,World.start,Ledger.empty]

theorem runMoved (step : PollStep digest t.world label w') {pk : Nat} {a : ProviderRun}
    (here : t.world.ledger.runs[pk]? = some a) :
    ∃ b, w'.ledger.runs[pk]? = some b ∧ CleanupMove label.event w'.ledger pk a b := by
  obtain ⟨b,there,move⟩ := (pollMoved step).rows pk a here
  exact ⟨b,there,moveCleanup move⟩

theorem namedKept {event : Event} {l' : Ledger} {pk : Nat} {a b : ProviderRun} (move : CleanupMove event l' pk a b)
    (named : a.externalRunId ≠ none) : b.externalRunId ≠ none := by
  rcases move.named with same | ⟨fresh,_⟩
  · rw [same]; exact named
  · exact fresh

theorem runsStep (sound : t.Sound) (ready : t.ready label.event) (step : PollStep digest t.world label w')
    {pk : Nat} {b : ProviderRun} (there : w'.ledger.runs[pk]? = some b) : RunTracked w'.ledger pk b := by
  by_cases old : pk < t.world.ledger.runs.length
  · have here := List.getElem?_eq_getElem old
    obtain ⟨c,found,move⟩ := runMoved step here
    cases Option.some.inj (found.symm.trans there)
    obtain ⟨deleted,orphaned,marked⟩ := sound.runs pk _ here
    refine ⟨fun gone => ?_,fun orphan => ?_,fun failed => ?_⟩
    · rcases move.deleted gone with before | ⟨cap,storages,errors,event⟩
      · exact namedKept move (deleted before)
      · rw [event] at ready
        obtain ⟨a,own,named⟩ := sound.cleaning pk ready
        cases Option.some.inj (here.symm.trans own)
        exact namedKept move named
    · rcases move.orphaned with same | tripped
      · exact (orphaned (same ▸ orphan)).trans_le (transitionTrips step.2.2)
      · exact openTripCounted tripped
    · rcases move.marked failed with before | tripped
      · exact (marked before).trans_le (transitionTrips step.2.2)
      · exact openTripCounted tripped
  · have bound := (List.getElem?_eq_some_iff.mp there).1
    rcases (pollMoved step).added with same | ⟨fields,appended⟩
    · omega
    · rw [appended,List.getElem?_append_right (Nat.le_of_not_lt old)] at there
      rw [List.mem_singleton.mp (List.mem_of_getElem? there)]
      exact ⟨nofun,fun orphan => absurd rfl orphan,nofun⟩

theorem attachedStep (sound : t.Sound) (step : PollStep digest t.world label w')
    (runs : ∀ (pk : Nat) b, w'.ledger.runs[pk]? = some b → RunTracked w'.ledger pk b) {pk k : Nat}
    (attached : t.Attached pk k) : (t.after label w').Attached pk k := by
  obtain ⟨r,a,here,linked,runtime,live,own,opened⟩ := attached
  obtain ⟨r',there,kind,link,_⟩ := rowsKept sound.world step.2.2 here
  obtain ⟨b,found,move⟩ := runMoved step own
  have unnamed : b.externalRunId = none → r.status.isOpen = true := by
    intro none
    rcases move.named with same | ⟨fresh,_⟩
    · exact opened (same ▸ none)
    · exact absurd none fresh
  refine ⟨r',b,there,link pk linked,kind ▸ runtime,?_⟩
  suffices h : r'.status ≠ .released ∧ (b.externalRunId = none → r'.status.isOpen = true) from ⟨h.1,found,h.2⟩
  cases transitionStatuses step.2.2 k r r' here there with
  | kept same => exact ⟨same ▸ live,same ▸ unnamed⟩
  | priced _ same => exact ⟨by rw [same]; nofun,fun _ => by rw [same]; rfl⟩
  | @settled q run final last window settled same =>
    refine ⟨by rw [same]; nofun,fun none => ?_⟩
    have run' := settled.here
    rw [Option.some.inj (settled.linked.symm.trans (link pk linked)),found] at run'
    cases Option.some.inj run'
    exact absurd none ((runs pk b found).deleted settled.completed.2)
  | operator operator => exact absurd operator runtime
  | released _ unattached => rw [unattached] at linked; contradiction

theorem createdStep (sound : t.Sound) (ready : t.ready label.event) (step : PollStep digest t.world label w')
    (runs : ∀ (pk : Nat) b, w'.ledger.runs[pk]? = some b → RunTracked w'.ledger pk b) {pk k : Nat}
    (mem : (pk,k) ∈ t.createdAfter label.event) : (t.after label w').Attached pk k := by
  have old : (pk,k) ∈ t.created → (t.after label w').Attached pk k :=
    fun mem => attachedStep sound step runs (sound.created pk k mem)
  obtain ⟨written,order,moved⟩ := step
  generalize ev : label.event = event at *
  cases moved with
  | @createRun fields reservation l q ok =>
    obtain ⟨id,rfl,admitted⟩ := ready
    rcases List.mem_cons.mp mem with same | before
    · cases same
      obtain ⟨r,here,reserved,_,key,there,added⟩ := createRunAttached ok
      obtain ⟨s,found,runtime⟩ := sound.admitted k admitted
      cases Option.some.inj (here.symm.trans found)
      refine ⟨_,ProviderRun.created fields,there,key ▸ rfl,runtime,?_,?_,fun _ => ?_⟩
      · simp [reserved]
      · simp [Jobs.after,World.commit,added]
      · simp [reserved,ReservationStatus.isOpen]
    · exact old before
  | _ => exact old mem

theorem admittedStep (sound : t.Sound) (step : PollStep digest t.world label w') {k : Nat}
    (mem : k ∈ t.admittedAfter label.event) :
    ∃ row, w'.ledger.reservations[k]? = some row ∧ row.admissionClass ≠ .operator := by
  have old : k ∈ t.admitted → ∃ row, w'.ledger.reservations[k]? = some row ∧ row.admissionClass ≠ .operator := by
    intro before
    obtain ⟨r,here,runtime⟩ := sound.admitted k before
    obtain ⟨r',there,kind,_⟩ := rowsKept sound.world step.2.2 here
    exact ⟨r',there,kind ▸ runtime⟩
  obtain ⟨written,order,moved⟩ := step
  generalize label.event = event at *
  cases moved with
  | @reserve request sourceSite reason l outcome ok =>
    obtain ⟨mid,state,row,admission⟩ := reserveSound ok
    obtain ⟨site,envelope,text,made⟩ := admission.content
    have fresh : request.budgetClass ≠ .operator → k ∈ t.world.ledger.reservations.length::t.admitted →
        ∃ row, l.reservations[k]? = some row ∧ row.admissionClass ≠ .operator := by
      intro runtime mem
      rcases List.mem_cons.mp mem with rfl | before
      · exact ⟨row,by simp [admission.appended],by rw [made]; exact runtime⟩
      · exact old before
    cases admits : outcome.admitted with
    | false => rw [admits] at mem; cases request <;> exact old mem
    | true =>
      rw [admits] at mem
      cases request with
      | operator kind => exact old mem
      | watchRefresh shape => exact fresh nofun mem
      | discovery shape => exact fresh nofun mem
  | @createRun fields reservation l q ok =>
    cases reservation with
    | none => exact old mem
    | some id => exact old (memWithout.mp mem).1
  | _ => exact old mem

theorem releasedStep (sound : t.Sound) (step : PollStep digest t.world label w') {k : Nat}
    (mem : k ∈ t.releasedAfter label.now label.event) :
    ∃ row, w'.ledger.reservations[k]? = some row ∧ row.status = .released := by
  have old : k ∈ t.released → ∃ row, w'.ledger.reservations[k]? = some row ∧ row.status = .released := by
    intro before
    obtain ⟨r,here,released⟩ := sound.released k before
    obtain ⟨r',there,_,_,same⟩ := rowsKept sound.world step.2.2 here
    exact ⟨r',there,same released ▸ released⟩
  obtain ⟨written,order,moved⟩ := step
  generalize label.event = event at *
  cases moved with
  | @work op l ok =>
    cases op with
    | releaseUnattached graceS =>
      obtain ⟨⟨m,pks⟩,done,rfl⟩ := mapOk ok
      simp only [Jobs.releasedAfter,done,committed] at mem
      rcases List.mem_append.mp mem with fresh | before
      · exact releasedRows done fresh
      · exact old before
    | _ => exact old mem
  | _ => exact old mem

theorem cleaningStep (sound : t.Sound) (step : PollStep digest t.world label w') {pk : Nat}
    (mem : pk ∈ t.cleaningAfter label.config label.now label.event) :
    ∃ b, w'.ledger.runs[pk]? = some b ∧ b.externalRunId ≠ none := by
  suffices before : ∃ a, t.world.ledger.runs[pk]? = some a ∧ a.externalRunId ≠ none by
    obtain ⟨a,here,named⟩ := before
    obtain ⟨b,there,move⟩ := runMoved step here
    exact ⟨b,there,namedKept move named⟩
  obtain ⟨written,order,moved⟩ := step
  generalize label.event = event at *
  cases moved with
  | @work op l ok =>
    cases op with
    | beginAttempt q cap overdue =>
      obtain ⟨⟨m,attempt⟩,done,rfl⟩ := mapOk ok
      simp only [Jobs.cleaningAfter,done,committed] at mem
      cases beginAttemptBegun done with
      | counted here retained named room =>
        rcases List.mem_cons.mp mem with rfl | before
        · exact ⟨_,here,named⟩
        · exact sound.cleaning pk before
      | _ => exact sound.cleaning pk mem
    | finishAttempt q cap storages errors => exact sound.cleaning pk (memWithout.mp mem).1
    | _ => exact sound.cleaning pk mem
  | _ => exact sound.cleaning pk mem

theorem createdGrown (t : Jobs) (event : Event) : t.created ⊆ t.createdAfter event := by
  unfold Jobs.createdAfter
  split
  · exact List.subset_cons_self _ _
  · exact List.Subset.refl _

theorem createdKept {pk : Nat} (known : ∃ k, (pk,k) ∈ t.created) :
    ∃ k, (pk,k) ∈ t.createdAfter label.event :=
  known.imp fun _ mem => createdGrown t label.event mem

theorem pendingStep (sound : t.Sound) (ready : t.ready label.event) (step : PollStep digest t.world label w') {pk : Nat}
    (mem : pk ∈ w'.starting) : (∃ k, (pk,k) ∈ t.createdAfter label.event) ∧
      ∀ b, w'.ledger.runs[pk]? = some b → b.externalRunId = none := by
  rcases startsStep step.2.2 mem with ⟨old,unanswered⟩ | ⟨fields,reservation,event,rfl⟩
  · obtain ⟨known,unnamed⟩ := sound.pending pk old
    refine ⟨createdKept known,fun b there => ?_⟩
    obtain ⟨k,attached⟩ := known
    obtain ⟨_,a,_,_,_,_,here,_⟩ := sound.created pk k attached
    obtain ⟨c,found,move⟩ := runMoved step here
    cases Option.some.inj (found.symm.trans there)
    rcases move.named with same | ⟨_,run,mismatches,answered⟩
    · rw [same]; exact unnamed a here
    · exact absurd answered (unanswered run mismatches)
  · rw [event] at ready
    obtain ⟨k,rfl,_⟩ := ready
    refine ⟨⟨k,by rw [event]; exact List.mem_cons_self⟩,fun b there => ?_⟩
    rcases (pollMoved step).added with same | ⟨made,appended⟩
    · have bound := (List.getElem?_eq_some_iff.mp there).1
      omega
    · rw [appended,List.getElem?_append_right le_rfl] at there
      rw [List.mem_singleton.mp (List.mem_of_getElem? there)]
      rfl

theorem jobsSound {act : JobAct} {t' : Jobs} (sound : t.Sound) (step : JobStep digest t act t') : t'.Sound := by
  cases step with
  | @commit label w' ready step =>
    have runs : ∀ (pk : Nat) b, w'.ledger.runs[pk]? = some b → RunTracked w'.ledger pk b :=
      fun pk b there => runsStep sound ready step there
    exact {
      world := soundTransition sound.world step.2.1 step.2.2
      admitted := fun k mem => admittedStep sound step mem
      created := fun pk k mem => createdStep sound ready step runs mem
      released := fun k mem => releasedStep sound step mem
      pending := fun pk mem => pendingStep sound ready step mem
      sent := fun pk mem => createdKept (sound.sent pk mem)
      cleaning := fun pk mem => cleaningStep sound step mem
      runs := runs }
  | @send pk pending first =>
    refine ⟨sound.world,sound.admitted,sound.created,sound.released,sound.pending,fun q mem => ?_,sound.cleaning,
      sound.runs⟩
    rcases List.mem_cons.mp mem with rfl | old
    · exact (sound.pending q pending).1
    · exact sound.sent q old

theorem sweptTrips (cap : Int) (version : String) (now : Int) (l : Ledger) (pk : Nat) (b : ProviderRun)
    (there : (tripStrandedLatches cap version now l).1.runs[pk]? = some b) :
    (b.orphanedStartAt ≠ none → 0 < (tripStrandedLatches cap version now l).1.trips .orphanedStart pk) ∧
    (b.spent cap → 0 < (tripStrandedLatches cap version now l).1.trips .deleteAttemptsExhausted pk) := by
  obtain ⟨m,n,only,grown,marked,orphans,length,_,rows,same⟩ := strandedParts cap version now l
  have last := refusalsKeep version now n
  have kept : (tripStrandedLatches cap version now l).1.runs = n.runs :=
    same ▸ (strandedRefusalsOnly version now n).runs
  rw [← same] at last
  rw [kept] at there
  have bound : pk < m.runs.length := length ▸ (List.getElem?_eq_some_iff.mp there).1
  obtain ⟨out,chosen⟩ := rows pk _ (List.getElem?_eq_getElem bound)
  have here : m.runs[pk]? = some m.runs[pk] := List.getElem?_eq_getElem bound
  have orphan : b.orphanedStartAt = m.runs[pk].orphanedStartAt := by
    by_cases mem : pk ∈ strandedExhausted cap m
    · cases Option.some.inj ((chosen mem).1.symm.trans there); rfl
    · cases Option.some.inj ((out mem).symm.trans there); rfl
  refine ⟨fun orphaned => ?_,fun spent => ?_⟩
  · by_cases had : 0 < l.trips .orphanedStart pk
    · exact had.trans_le ((grownTrips grown).trans ((grownTrips marked).trans (grownTrips last)))
    · have mem : pk ∈ strandedOrphans l := by
        rw [memOrphans]
        exact ⟨⟨_,only.runs ▸ here,orphan ▸ orphaned⟩,untrippedIff.mpr (by omega)⟩
      exact (openTripCounted (orphans pk mem)).trans_le ((grownTrips marked).trans (grownTrips last))
  · by_cases mem : pk ∈ strandedExhausted cap m
    · exact (openTripCounted (chosen mem).2).trans_le (grownTrips last)
    · have still : b = m.runs[pk] := Option.some.inj (there.symm.trans (out mem))
      have had : 0 < m.trips .deleteAttemptsExhausted pk := by
        by_contra zero
        exact mem (memExhausted.mpr ⟨⟨_,here,still ▸ spent⟩,untrippedIff.mpr (by omega)⟩)
      exact had.trans_le ((grownTrips marked).trans (grownTrips last))

def Jobs.Grown (t t' : Jobs) : Prop := t.created ⊆ t'.created ∧ t.released ⊆ t'.released

theorem jobsGrown {act : JobAct} {t' : Jobs} (step : JobStep digest t act t') : t.Grown t' := by
  cases step with
  | @commit label w' ready step =>
    refine ⟨createdGrown t label.event,fun k mem => ?_⟩
    simp only [Jobs.after]
    unfold Jobs.releasedAfter
    split
    · exact List.mem_append_right _ mem
    · exact mem
  | send pending first => exact ⟨List.Subset.refl _,List.Subset.refl _⟩

theorem spendTracked {digest : Json → String} {t0 : Int} {trace : List JobAct} {t : Jobs}
    (run : Runs (JobStep digest) (Jobs.start t0) trace t) :
    (∀ {rest t'}, Runs (JobStep digest) t rest t' →
      (∀ k ∈ t.released, ∀ pk, (pk,k) ∉ t'.created) ∧ ∀ pk k, (pk,k) ∈ t.created → k ∉ t'.released) ∧
    (∀ pk ∈ t.sent, ∃ k, (pk,k) ∈ t.created) ∧
    (∀ {pk t'}, JobStep digest t (.send pk) t' → ∃ k row, (pk,k) ∈ t.created ∧
      t.world.ledger.reservations[k]? = some row ∧ row.providerRun = some pk ∧ row.status.isOpen = true) ∧
    (∀ (pk : Nat) row, t.world.ledger.runs[pk]? = some row →
      (row.orphanedStartAt ≠ none → 0 < t.world.ledger.trips .orphanedStart pk) ∧
      (row.storageState = .deleteFailed → 0 < t.world.ledger.trips .deleteAttemptsExhausted pk)) ∧
    (∀ {label t'}, JobStep digest t (.commit label) t' → ∀ (pk : Nat) a b,
      t.world.ledger.runs[pk]? = some a → t'.world.ledger.runs[pk]? = some b →
      (a.orphanedStartAt = none → b.orphanedStartAt ≠ none → t'.world.ledger.openTrip .orphanedStart (some pk)) ∧
      (a.storageState ≠ .deleteFailed → b.storageState = .deleteFailed →
        t'.world.ledger.openTrip .deleteAttemptsExhausted (some pk))) ∧
    ∀ {config now cap t'}, JobStep digest t (.commit ⟨config,now,.strandedLatchesTripped cap⟩) t' →
      (∀ (pk : Nat) b, t'.world.ledger.runs[pk]? = some b →
        (b.orphanedStartAt ≠ none → 0 < t'.world.ledger.trips .orphanedStart pk) ∧
        (b.spent cap → 0 < t'.world.ledger.trips .deleteAttemptsExhausted pk)) ∧
      ∀ reason pk, 0 < t.world.ledger.trips reason pk →
        t'.world.ledger.trips reason pk = t.world.ledger.trips reason pk := by
  have sound := run.invariant Jobs.Sound jobsSound (jobsFresh t0)
  refine ⟨?_,sound.sent,?_,?_,?_,?_⟩
  · intro rest t' later
    -- what was created or released stays so, and is compared at the end of the run
    have grown := later.related (fun _ => True) Jobs.Grown (fun _ => ⟨List.Subset.refl _,List.Subset.refl _⟩)
      (fun one two => ⟨List.Subset.trans one.1 two.1,List.Subset.trans one.2 two.2⟩)
      (fun _ step => ⟨trivial,jobsGrown step⟩) trivial |>.2
    have end' := later.invariant Jobs.Sound jobsSound sound
    have apart : ∀ pk k, (pk,k) ∈ t'.created → k ∉ t'.released := by
      intro pk k created released
      obtain ⟨row,_,here,_,_,live,_⟩ := end'.created pk k created
      obtain ⟨closed,found,status⟩ := end'.released k released
      cases Option.some.inj (here.symm.trans found)
      exact live status
    exact ⟨fun k released pk created => apart pk k created (grown.2 released),
      fun pk k created => apart pk k (grown.1 created)⟩
  · intro pk t' step
    cases step with
    | send pending first =>
      obtain ⟨⟨k,created⟩,unnamed⟩ := sound.pending pk pending
      obtain ⟨row,run,here,linked,_,_,own,opened⟩ := sound.created pk k created
      exact ⟨k,row,created,here,linked,opened (unnamed run own)⟩
  · intro pk row here
    exact ⟨(sound.runs pk row here).orphaned,(sound.runs pk row here).marked⟩
  · intro label t' step pk a b here there
    cases step with
    | commit ready step =>
      obtain ⟨c,found,move⟩ := runMoved step here
      cases Option.some.inj (found.symm.trans there)
      refine ⟨fun before after => ?_,fun before after => ?_⟩
      · rcases move.orphaned with same | tripped
        · exact absurd (same.trans before) after
        · exact tripped
      · exact (move.marked after).resolve_left before
  · intro config now cap t' step
    cases step with
    | commit ready step =>
      obtain ⟨_,_,moved⟩ := step
      cases moved
      exact ⟨sweptTrips cap config.budget.estimatorVersion now t.world.ledger,
        fun reason pk had => sweepTrips cap config.budget.estimatorVersion now t.world.ledger had⟩
end

def soloJobs : Jobs :=
  (((Jobs.start soloNow).after soloClaimLabel soloClaimed).after soloReserveLabel soloReserved).after
    soloCreateLabel soloCreated

theorem soloSent : ∃ k row, (0,k) ∈ soloJobs.created ∧ soloJobs.world.ledger.reservations[k]? = some row ∧
    row.providerRun = some 0 ∧ row.status.isOpen = true := by
  have run : Runs (JobStep fun _ => "") (Jobs.start soloNow) _ soloJobs :=
    .cons (.commit (by exact trivial) soloClaims) <| .cons (.commit (by exact trivial) soloReserves) <|
      .single (.commit ⟨0,rfl,by decide +kernel⟩ soloCreates)
  exact (spendTracked run).2.2.1 (.send (by decide +kernel) (by decide +kernel))
end HwRadar.Apify
