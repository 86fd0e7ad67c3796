import HwRadar.Apify.CallSafety
import HwRadar.Apify.SettlementBounds

/-! The requests against their caps and against the cost they are settled at. What is sent was
counted, what is counted stays below its cap, and once the run's reservation is reconciled the
counters its post-run cost was computed from stand still. -/
namespace HwRadar.Apify
open HwRadar.Base HwRadar.Base.Tables
open HwRadar.Base.Decimal (Dec)

structure Label.Within (caps : Counter → Nat) (label : Label) : Prop where
  polls : ∀ pk cap, label.event = .work (.runChanged pk fun row => (Writer.countPoll cap).write label.now row) →
    cap ≤ caps .polls
  settlement : ∀ cap, label.config.budget.maxRunPolls = some cap → cap ≤ caps .polls
  corrections : ∀ cap, label.config.budget.maxCorrectionReads = some cap → cap ≤ caps .corrections
  attempts : ∀ pk cap overdue, label.event = .work (.beginAttempt pk cap overdue) → cap ≤ caps .attempts
  reads : ∀ pk maxDataset maxKv latch,
    label.event = .work (.runChanged pk fun row => (Writer.countReads maxDataset maxKv latch).write label.now row) →
    maxDataset ≤ caps .datasetReads ∧ maxKv ≤ caps .kvReads

def CallLabel.Within (caps : Counter → Nat) : CallLabel → Prop
  | .commit label => label.Within caps
  | _ => True

def capped (caps : Counter → Nat) : Counter → Nat
  | .starts => 1
  | .attempts => max (caps .attempts) 1
  | c => caps c

def World.Capped (caps : Counter → Nat) (w : World) : Prop :=
  ∀ (pk : Nat) row, w.ledger.runs[pk]? = some row → ∀ c, row.count c ≤ capped caps c

section
variable {digest : Json → String} {absentTrusted : Bool} {s t : Calls} {label : Label} {w w' : World}
  {caps : Counter → Nat}

theorem raisesCapped (unstarted : w.Unstarted) (within : label.Within caps) {pk : Nat} {a : ProviderRun}
    (here : w.ledger.runs[pk]? = some a) {c : Counter} (raises : Raises w label pk a c) :
    a.count c + 1 ≤ capped caps c := by
  cases raises with
  | poll event running room =>
    have cap := within.polls _ _ event
    simp only [ProviderRun.count,capped]
    omega
  | settlement event unsettled bound room =>
    have cap := within.settlement _ bound
    simp only [ProviderRun.count,capped]
    omega
  | correction event bound room =>
    have cap := within.corrections _ bound
    simp only [ProviderRun.count,capped]
    omega
  | mismatch event pending listed =>
    obtain ⟨row,at_,_,none_⟩ := unstarted pk pending
    cases Option.some.inj (here.symm.trans at_)
    simp only [ProviderRun.count,capped,none_]
    omega
  | attempt event retained named room =>
    have cap := within.attempts _ _ _ event
    simp only [ProviderRun.count,capped]
    omega
  | read event reads pending room =>
    obtain ⟨dataset,kv⟩ := within.reads _ _ _ _ event
    rcases reads with rfl | rfl <;> simp only [ProviderRun.count,capped] <;> omega

theorem cappedStep (unstarted : w.Unstarted) (bounded : w.Capped caps) (within : label.Within caps)
    (step : PollStep digest w label w') : w'.Capped caps := by
  intro pk b there c
  by_cases old : pk < w.ledger.runs.length
  · have here := List.getElem?_eq_getElem old
    obtain ⟨found,at_,move⟩ := stepCounted step pk _ here
    cases Option.some.inj (at_.symm.trans there)
    rcases move.counts c with same | ⟨more,raises⟩
    · rw [same]
      exact bounded pk _ here c
    · rw [more]
      exact raisesCapped unstarted within here raises
  · have bound := (List.getElem?_eq_some_iff.mp there).1
    rcases (pollMoved step).added with same | ⟨fields,appended⟩
    · omega
    · rw [appended,List.getElem?_append_right (Nat.le_of_not_lt old)] at there
      rw [List.mem_singleton.mp (List.mem_of_getElem? there)]
      cases c with
      | starts => exact le_rfl
      | _ => exact Nat.zero_le _

theorem reachedCapped {t0 : Int} {trace : List CallLabel}
    (run : Runs (CallStep digest absentTrusted) (Calls.start t0) trace s)
    (within : ∀ kind ∈ trace, kind.Within caps) : s.world.Capped caps := by
  refine ((run.restrict within).invariant (fun s => s.Sound ∧ s.world.Capped caps) ?_ ⟨callsFresh t0,?_⟩).2
  · rintro s kind t ⟨sound,bounded⟩ ⟨allowed,step⟩
    refine ⟨callsSound sound step,?_⟩
    cases step with
    | commit step grants => exact cappedStep sound.unstarted bounded allowed step
    | _ => exact bounded
  · intro pk row here
    simp [Calls.start,World.start,Ledger.empty] at here

theorem reachedPrepaid {t0 : Int} {trace : List CallLabel}
    (run : Runs (CallStep digest absentTrusted) (Calls.start t0) trace s) : s.prepaid.Covered payer := by
  refine run.invariant (fun s => s.prepaid.Covered payer) (fun covered step => ?_) ?_
  · obtain ⟨sent,moved⟩ := stepPrepaid step
    exact moved.covered covered
  · intro call
    simp [Calls.start,Calls.prepaid,Calls.permits]
end

def pricedCalls : List Call := [.start,.runRead,.abort,.confirm,.delete .dataset,.delete .kvStore,.outputRead]

def ProviderRun.pricedCount (row : ProviderRun) : Nat :=
  1 + row.runPollCount + 4 * row.storageCleanupAttempts + row.kvReadCount

def Calls.priced (s : Calls) (pk : Nat) : Nat := s.sent.countP fun call => call.1 == pk && pricedCalls.contains call.2

theorem pricedSplit (s : Calls) (pk : Nat) :
    s.priced pk = (pricedCalls.map fun kind => s.sent.count (pk,kind)).sum := by
  unfold Calls.priced
  induction s.sent with
  | nil => rfl
  | cons call rest ih =>
    obtain ⟨q,kind⟩ := call
    rw [List.countP_cons,ih]
    simp only [List.count_cons,pricedCalls,List.map_cons,List.map_nil,List.sum_cons,List.sum_nil,beq_iff_eq,
      Prod.mk.injEq]
    by_cases same : q = pk
    · subst same
      rcases kind with _ | _ | _ | _ | _ | _ | _ | storage
      all_goals try (rcases storage with _ | _)
      all_goals simp <;> omega
    · simp [same]

theorem requestsPrepaid {digest : Json → String} {absentTrusted : Bool} {t0 : Int} {trace : List CallLabel} {s : Calls}
    {caps : Counter → Nat} (run : Runs (CallStep digest absentTrusted) (Calls.start t0) trace s)
    (within : ∀ kind ∈ trace, kind.Within caps) :
    (∀ pk call, (pk,call) ∈ s.sent → ∃ row, s.world.ledger.runs[pk]? = some row) ∧
    ∀ (pk : Nat) row, s.world.ledger.runs[pk]? = some row →
      (∀ call, s.sent.count (pk,call) ≤ row.count call.counter) ∧ (∀ c, row.count c ≤ capped caps c) ∧
      s.priced pk ≤ row.pricedCount := by
  have covered := reachedPrepaid run
  have counted : ∀ call, s.sent.count call ≤ s.world.ledger.count (payer call) := covered.sent
  refine ⟨fun pk call mem => ?_,fun pk row here => ?_⟩
  · cases here : s.world.ledger.runs[pk]? with
    | some row => exact ⟨row,rfl⟩
    | none =>
      have none_ := counted (pk,call)
      have one := List.count_pos_iff.mpr mem
      rw [Ledger.count,payer,here,Option.elim_none] at none_
      omega
  · have each : ∀ call, s.sent.count (pk,call) ≤ row.count call.counter := by
      intro call
      have counts := counted (pk,call)
      rwa [payer,countHere here] at counts
    refine ⟨each,reachedCapped run within pk row here,?_⟩
    rw [pricedSplit]
    have start := each .start
    have read := each .runRead
    have abort := each .abort
    have confirm := each .confirm
    have dataset := each (.delete .dataset)
    have kvStore := each (.delete .kvStore)
    have output := each .outputRead
    simp only [Call.counter,ProviderRun.count] at start read abort confirm dataset kvStore output
    simp only [pricedCalls,ProviderRun.pricedCount,List.map_cons,List.map_nil,List.sum_cons,List.sum_nil]
    omega

def soloCaps : Counter → Nat
  | .starts => 1
  | .polls => 60
  | .attempts => 10
  | .datasetReads | .kvReads => 3
  | .corrections => 12

theorem verifiedWithin {label : Label} (config : label.config = verifiedConfig)
    (aside : ∀ work, label.event ≠ .work work) :
    label.Within soloCaps := by
  refine ⟨fun pk cap event => absurd event (aside _),fun cap bound => ?_,fun cap bound => ?_,
    fun pk cap overdue event => absurd event (aside _),fun pk dataset kv latch event => absurd event (aside _)⟩
  · rw [config] at bound
    exact (Option.some.inj bound).symm.le
  · rw [config] at bound
    exact (Option.some.inj bound).symm.le

theorem soloPrepaid :
    (∀ pk call, (pk,call) ∈ [(0,Call.start)] → ∃ row, soloCreated.ledger.runs[pk]? = some row) ∧
    ∀ (pk : Nat) row, soloCreated.ledger.runs[pk]? = some row →
      (∀ call, [(0,Call.start)].count (pk,call) ≤ row.count call.counter) ∧ (∀ c, row.count c ≤ capped soloCaps c) ∧
      (Calls.mk soloCreated [] [(0,.start)]).priced pk ≤ row.pricedCount := by
  refine requestsPrepaid soloStarted ?_
  simp only [List.forall_mem_cons,List.not_mem_nil,false_implies,implies_true,and_true]
  exact ⟨verifiedWithin rfl (by rintro work ⟨⟩),verifiedWithin rfl (by rintro work ⟨⟩),
    verifiedWithin rfl (by rintro work ⟨⟩),trivial⟩

def World.LinkedOnce (w : World) : Prop := ∀ (i j : Nat) r r' pk, w.ledger.reservations[i]? = some r →
  w.ledger.reservations[j]? = some r' → r.providerRun = some pk → r'.providerRun = some pk → i = j

def World.SettledDone (w : World) : Prop := ∀ (k : Nat) r pk, w.ledger.reservations[k]? = some r →
  r.status = .reconciled → r.admissionClass ≠ .operator → r.providerRun = some pk →
  ∃ row, w.ledger.runs[pk]? = some row ∧ row.completed

structure World.Settles (w : World) : Prop where
  sound : w.Sound
  completion : w.Completion
  once : w.LinkedOnce
  done : w.SettledDone

section
variable {digest : Json → String} {absentTrusted : Bool} {s t : Calls} {label : Label} {w w' : World}

def SameLink (r r' : Reservation) : Prop := r'.providerRun = r.providerRun

theorem linksRewritten {R : Reservation → Reservation → Prop} {before after : List Reservation}
    (rows : Rewritten R before after)
    {pk k : Nat} (each : ∀ r r', R r r' → r'.providerRun = some pk → r.providerRun = some pk) {r' : Reservation}
    (there : after[k]? = some r') (linked : r'.providerRun = some pk) :
    ∃ r, before[k]? = some r ∧ r.providerRun = some pk := by
  obtain ⟨r,here,same | changed⟩ := forall₂Get rows there
  · exact ⟨r,here,same ▸ linked⟩
  · exact ⟨r,here,each r r' changed linked⟩

theorem reserveLinks {request : AdmissionRequest} {sourceSite : Option Nat} {config : LedgerConfig} {now : Int}
    {reason : String} {l l' : Ledger} {outcome : ReservationOutcome}
    (ok : reserve request sourceSite config now reason l = .ok (l',outcome)) {pk k : Nat} {r' : Reservation}
    (there : l'.reservations[k]? = some r') (linked : r'.providerRun = some pk) :
    ∃ r, l.reservations[k]? = some r ∧ r.providerRun = some pk := by
  obtain ⟨mid,state,row,admission⟩ := reserveSound ok
  obtain ⟨site,envelope,reason,made⟩ := admission.content
  rw [admission.appended] at there
  by_cases old : k < l.reservations.length
  · rw [List.getElem?_append_left old] at there
    exact ⟨r',there,linked⟩
  · rw [List.getElem?_append_right (Nat.le_of_not_lt old)] at there
    rw [List.mem_singleton.mp (List.mem_of_getElem? there),made] at linked
    cases linked

theorem createLinks {fields : RunFields} {reservation : Option Nat} {l l' : Ledger} {run pk k : Nat}
    (ok : createRun fields reservation l = .ok (l',run)) {r' : Reservation}
    (there : l'.reservations[k]? = some r') (linked : r'.providerRun = some pk) :
    (∃ r, l.reservations[k]? = some r ∧ r.providerRun = some pk) ∨
    reservation = some k ∧ pk = l.runs.length ∧ r'.status = .reserved := by
  unfold createRun at ok
  cases reservation with
  | none =>
    cases Except.ok.inj ok
    exact .inl ⟨r',there,linked⟩
  | some id =>
  simp only at ok
  split at ok
  · cases ok
  rename_i row here
  split at ok
  · rename_i free
    obtain ⟨m,save,done⟩ := bindOk.mp ok
    cases Except.ok.inj done
    have rows : l'.reservations = l.reservations.set id { row with providerRun := some l.runs.length } :=
      (savedBy save).reservations
    rw [rows] at there
    by_cases own : id = k
    · subst own
      rw [List.getElem?_set_self (List.getElem?_eq_some_iff.mp here).1] at there
      cases Option.some.inj there
      exact .inr ⟨rfl,(Option.some.inj linked).symm,free.1⟩
    · rw [List.getElem?_set_ne own] at there
      exact .inl ⟨r',there,linked⟩
  · cases ok

theorem linksStep (step : PollStep digest w label w') {pk k : Nat} {r' : Reservation}
    (there : w'.ledger.reservations[k]? = some r') (linked : r'.providerRun = some pk) :
    (∃ r, w.ledger.reservations[k]? = some r ∧ r.providerRun = some pk) ∨
    ∃ fields, label.event = .createRun fields (some k) ∧ pk = w.ledger.runs.length ∧ r'.status = .reserved := by
  have kept : w'.ledger.reservations = w.ledger.reservations →
      ∃ r, w.ledger.reservations[k]? = some r ∧ r.providerRun = some pk := fun same => ⟨r',same ▸ there,linked⟩
  have worked : ∀ {now}, Rewritten (Worked now none) w.ledger.reservations w'.ledger.reservations →
      ∃ r, w.ledger.reservations[k]? = some r ∧ r.providerRun = some pk := by
    intro now rows
    refine linksRewritten rows (fun r r' change linked => ?_) there linked
    rcases change.providerRun with same | ⟨_,none_⟩
    · exact same ▸ linked
    · rw [none_] at linked
      cases linked
  obtain ⟨_,_,transition⟩ := step
  generalize label.event = event at *
  cases transition with
  | ensureCycle => exact .inl (kept (ensureOnly _ _ _).reservations)
  | reserve ok => exact .inl (reserveLinks ok there linked)
  | createRun ok =>
    rcases createLinks ok there linked with before | ⟨rfl,fresh,status⟩
    · exact .inl before
    · exact .inr ⟨_,rfl,fresh,status⟩
  | startAnswered pending ok => exact .inl (kept (recordStartAside ok).reservations)
  | startFailed pending ok =>
    obtain ⟨run,locked,done⟩ := bindOk.mp ok
    cases Except.ok.inj done
    exact .inl (kept rfl)
  | startRefusalTripped pending => exact .inl (kept (startRefusalOnly _ _ _ _).reservations)
  | @strandedLatchesTripped cap =>
    obtain ⟨m,aside,same⟩ := tripStrandedLatchesSplit cap label.config.budget.estimatorVersion label.now w.ledger
    have refusals := strandedRefusalsOnly label.config.budget.estimatorVersion label.now m
    rw [← same] at refusals
    exact .inl (kept (refusals.reservations.trans aside.reservations))
  | latchCleared ok => exact .inl (kept (clearLatchOnly ok).reservations)
  | work ok => exact .inl (worked (workEffect ok).rows)
  | monitoringBegun ok =>
    rcases beginMonitoringReadEffect ok with ⟨_,rfl⟩ | ⟨resv,row,_,here,begun,saved⟩
    · exact .inl (kept rfl)
    · obtain ⟨count,rfl⟩ := begun.marked
      have rows := @Rewritten.set _ SameLink _ _ _ _ here (show SameLink resv (beginRow { resv with
        correctionReadCount := count } label.now) from rfl)
      exact .inl (linksRewritten (saved.reservations ▸ rows)
        (fun r r' same linked => same.symm.trans linked) there linked)
  | monitoringCompleted pending ok =>
    obtain ⟨resv,row,here,completed,saved⟩ := completeMonitoringReadSaved ok
    have same : SameLink resv row := by
      obtain ⟨corrected,run,read,untilAt,reconciledAt,upward,_,rfl⟩ := completed.applied
      have terms := (completedTerms corrected run read untilAt reconciledAt label.now label.config).2.2.1
      rcases upward with rfl | ⟨figure,_,rfl⟩
      · exact terms
      · exact terms
    have rows := Rewritten.set here same
    exact .inl (linksRewritten (saved.reservations ▸ rows)
      (fun r r' same linked => same.symm.trans linked) there linked)
  | staleMarkersResolved ok =>
    exact .inl (linksRewritten (resolveStaleEffect ok).rows
      (fun r r' change linked => by rw [change.2] at linked; exact linked)
      there linked)
  | originClaimed ok => exact .inl (kept (claimOriginOnly ok).reservations)
  | handoffExported ok => exact .inl (kept (exportHandoffOnly ok).reservations)
  | handoffImported ok => exact .inl (kept (importHandoffOnly ok).reservations)
  | startLost | startRefusalLost | monitoringLost | restarted => exact .inl (kept rfl)

theorem onceStep (sound : w.Sound) (once : w.LinkedOnce) (step : PollStep digest w label w') : w'.LinkedOnce := by
  intro i j r r' pk here there linked linked'
  have fresh : ∀ {k : Nat} {r : Reservation}, w.ledger.reservations[k]? = some r → r.providerRun = some pk →
      pk < w.ledger.runs.length := fun here linked => sound.linked _ (List.mem_of_getElem? here) pk linked
  rcases linksStep step here linked with ⟨a,at_,own⟩ | ⟨fields,event,new,_⟩
  · rcases linksStep step there linked' with ⟨b,at',own'⟩ | ⟨fields,event,new,_⟩
    · exact once i j a b pk at_ at' own own'
    · exact absurd (fresh at_ own) (new ▸ lt_irrefl _)
  · rcases linksStep step there linked' with ⟨b,at',own'⟩ | ⟨fields',event',_⟩
    · exact absurd (fresh at' own') (new ▸ lt_irrefl _)
    · cases event.symm.trans event'
      rfl

theorem doneStep (settles : w.Settles) (step : PollStep digest w label w') : w'.SettledDone := by
  intro k r' pk there reconciled runtime linked
  rcases linksStep step there linked with ⟨r,here,own⟩ | ⟨_,_,_,reserved⟩
  · obtain ⟨found,at_,kind,_⟩ := rowsKept settles.sound step.2.2 here
    cases Option.some.inj (at_.symm.trans there)
    cases transitionStatuses step.2.2 k r r' here there with
    | kept same =>
      obtain ⟨row,before,completed⟩ := settles.done k r pk here (same ▸ reconciled) (kind ▸ runtime) own
      obtain ⟨row',after,completing⟩ := (completionStep settles.completion step).2 pk row before
      exact ⟨row',after,(completing.kept completed).1⟩
    | priced _ same =>
      rw [same] at reconciled
      cases reconciled
    | settled settled =>
      cases Option.some.inj (settled.linked.symm.trans linked)
      exact ⟨_,settled.here,settled.completed⟩
    | operator operator => exact absurd (kind.trans operator) runtime
    | released _ _ same =>
      rw [same] at reconciled
      cases reconciled
  · rw [reserved] at reconciled
    cases reconciled

theorem settlesStep (settles : w.Settles) (step : PollStep digest w label w') : w'.Settles :=
  ⟨soundTransition settles.sound step.2.1 step.2.2,(completionStep settles.completion step).1,
    onceStep settles.sound settles.once step,doneStep settles step⟩

theorem settlesLater {now : Int} (settles : w.Settles) (order : w.clock ≤ now) : (w.at_ now).Settles := by
  obtain ⟨⟨linked,past,inFlight,started,marked⟩,⟨stamped,reads⟩,once,done⟩ := settles
  refine ⟨⟨linked,fun row mem => ?_,inFlight,started.trans order,marked⟩,⟨stamped,fun read mem => ?_⟩,once,done⟩
  · obtain ⟨reserved,settled⟩ := past row mem
    exact ⟨reserved.trans order,fun t at_ => (settled t at_).trans order⟩
  · exact (reads read mem).trans order

theorem callsSettle {kind : CallLabel} (settles : s.world.Settles) (step : CallStep digest absentTrusted s kind t) :
    t.world.Settles := by
  cases step with
  | commit step grants => exact settlesStep settles step
  | overdue order selected => exact settlesLater settles order
  | proceeds order here moves => exact settlesLater settles order
  | request here sends => exact settles
  | handed here imported retained => exact settles
  | lost => exact settles

theorem reachedSettles {t0 : Int} {trace : List CallLabel}
    (run : Runs (CallStep digest absentTrusted) (Calls.start t0) trace s) :
    s.world.Settles := by
  refine run.invariant (fun s => s.world.Settles) callsSettle ⟨soundStart rfl t0,⟨?_,?_⟩,?_,?_⟩
  · intro pk row here
    simp [Calls.start,World.start,Ledger.empty] at here
  · intro read mem
    simp [Calls.start,World.start,Ledger.empty] at mem
  · intro i j r r' pk here
    simp [Calls.start,World.start,Ledger.empty] at here
  · intro k r pk here
    simp [Calls.start,World.start,Ledger.empty] at here

def World.Frozen (w : World) (pk : Nat) (row : ProviderRun) : Prop :=
  ∃ (k : Nat) (r : Reservation) (row' : ProviderRun),
  w.ledger.reservations[k]? = some r ∧ r.status = .reconciled ∧ r.admissionClass ≠ .operator ∧ r.providerRun = some pk ∧
  w.ledger.runs[pk]? = some row' ∧ ∀ c, c ≠ .corrections → row'.count c = row.count c

theorem completedRaises (sound : s.Sound) (once : s.world.LinkedOnce) {k pk : Nat} {r : Reservation} {row : ProviderRun}
    (here : s.world.ledger.reservations[k]? = some r) (reconciled : r.status = .reconciled)
    (linked : r.providerRun = some pk)
    (at_ : s.world.ledger.runs[pk]? = some row) (completed : row.completed) {c : Counter}
    (raises : Raises s.world label pk row c) : c = .corrections := by
  have cleaned := sound.rows pk row at_
  have verified : .dataset ∈ row.storageVerified :=
    List.contains_iff_mem.mp (List.all_eq_true.mp (cleaned.deleted completed.2) .dataset (by decide))
  obtain ⟨terminal,imported,named,_⟩ := cleaned.verified _ verified
  cases raises with
  | correction => rfl
  | poll event running room =>
    rw [terminal] at running
    cases running
  | @settlement cap j other event unsettled bound room =>
    obtain ⟨there,own,open_⟩ := unsettled
    cases once k j r other pk here there linked own
    cases Option.some.inj (here.symm.trans there)
    rw [reconciled] at open_
    cases open_
  | mismatch event pending listed =>
    obtain ⟨found,there,unnamed,_⟩ := sound.unstarted pk pending
    cases Option.some.inj (at_.symm.trans there)
    exact absurd unnamed named
  | attempt event retained named room => exact absurd completed.2 retained
  | read event reads pending room => exact absurd pending imported

theorem frozenOn (sound : s.Sound) (settles : s.world.Settles) (step : PollStep digest s.world label w') {pk : Nat}
    {row : ProviderRun} (frozen : s.world.Frozen pk row) : w'.Frozen pk row := by
  obtain ⟨k,r,a,here,reconciled,runtime,linked,at_,same⟩ := frozen
  obtain ⟨found,there,completed⟩ := settles.done k r pk here reconciled runtime linked
  cases Option.some.inj (at_.symm.trans there)
  obtain ⟨b,after,move⟩ := stepCounted step pk a at_
  obtain ⟨r',kept,kind,link,_⟩ := rowsKept settles.sound step.2.2 here
  refine ⟨k,r',b,kept,?_,kind ▸ runtime,link pk linked,after,fun c counted => ?_⟩
  · cases transitionStatuses step.2.2 k r r' here kept with
    | kept status => exact status.trans reconciled
    | settled _ status => exact status
    | priced opened => rw [reconciled] at opened; cases opened
    | operator operator => exact absurd operator runtime
    | released reserved => rw [reconciled] at reserved; cases reserved
  · rcases move.counts c with still | ⟨_,raises⟩
    · exact still.trans (same c counted)
    · exact absurd (completedRaises sound settles.once here reconciled linked at_ completed raises) counted

theorem frozenLater {trace : List CallLabel} (sound : s.Sound) (settles : s.world.Settles)
    (run : Runs (CallStep digest absentTrusted) s trace t) {pk : Nat} {row : ProviderRun}
    (frozen : s.world.Frozen pk row) :
    t.world.Frozen pk row := by
  refine (run.invariant (fun s => s.Sound ∧ s.world.Settles ∧ s.world.Frozen pk row) ?_ ⟨sound,settles,frozen⟩).2.2
  rintro s kind t ⟨sound,settles,frozen⟩ step
  refine ⟨callsSound sound step,callsSettle settles step,?_⟩
  cases step with
  | commit step grants => exact frozenOn sound settles step frozen
  | _ => exact frozen
end

theorem countedCovers {row : ProviderRun} {config : LedgerConfig} {cost calls reads : Nat}
    (counted : countedPostRunCost row config = .ok cost) (called : calls ≤ row.pricedCount)
    (read : reads ≤ row.datasetReadCount) : ∃ (rates : Rates) (pages : Int), rates.Of config.budget ∧
      pagesPerRead config.budget row.maxItems maxListingRowBytes = .ok pages ∧
      toLedger ((calls : Int) * rates.call + (reads * pages : Int) * rates.page).value ≤ cost := by
  obtain ⟨rates,margin,pages,kvBytes,deletedAt,of,margined,paged,_,bytes,_,rfl⟩ := countedParts counted
  have used := useNonneg row deletedAt (pagesNonneg (Int.natCast_nonneg _) paged) bytes
  have called' : (((calls : Int) : Dec) * rates.call).Under ((row.use pages kvBytes deletedAt).calls rates) := by
    refine (Dec.underCast (Int.natCast_nonneg _) ?_).mul (.refl rates.callNonneg)
    unfold ProviderRun.pricedCount at called
    simp only [ProviderRun.use]
    omega
  have read' : (((reads * pages : Int) : Dec) * rates.page).Under ((row.use pages kvBytes deletedAt).pageReads rates) :=
    (Dec.underCast (mul_nonneg (Int.natCast_nonneg _) used.pages)
      (mul_le_mul_of_nonneg_right (Int.ofNat_le.mpr read) used.pages)).mul (.refl rates.pageNonneg)
  have upkeep := (upkeepMono rates used used.self).nonneg
  have calls0 := (callsMono rates used used.self).nonneg
  -- the other parts only add to the calls
  have kept : ((row.use pages kvBytes deletedAt).calls rates).Under
      ((row.use pages kvBytes deletedAt).upkeep rates + (row.use pages kvBytes deletedAt).calls rates) := by
    rw [Dec.addComm]
    refine Dec.Fits.underAdd (Dec.fitsRound ?_) calls0 upkeep
    exact mul_nonneg (Int.cast_nonneg (by have := used.polls; have := used.attempts; have := used.kvReads; omega))
      rates.callNonneg
  have whole := costMono rates used used.self
  have cost : (row.use pages kvBytes deletedAt).cost rates |>.Fits :=
    Dec.fitsRound (add_nonneg kept.most (pageReadsMono rates used used.self).nonneg)
  have grossed := cost.underMul whole.nonneg (factorSound (marginSound margined)).2
  exact ⟨rates,pages,of,paged,toLedgerMono (((called'.trans kept).add read').trans grossed).le⟩

theorem settledPriced {digest : Json → String} {absentTrusted : Bool} {t0 : Int}
    {trace rest : List CallLabel} {s t : Calls}
    (run : Runs (CallStep digest absentTrusted) (Calls.start t0) trace s) {k pk : Nat} {r : Reservation}
    (here : s.world.ledger.reservations[k]? = some r) (reconciled : r.status = .reconciled)
    (runtime : r.admissionClass ≠ .operator) (linked : r.providerRun = some pk)
    (later_ : Runs (CallStep digest absentTrusted) s rest t) :
    ∃ row row', s.world.ledger.runs[pk]? = some row ∧ t.world.ledger.runs[pk]? = some row' ∧
      (∀ c, c ≠ .corrections → row'.count c = row.count c) ∧ t.priced pk ≤ row.pricedCount ∧
      ∀ config cost, countedPostRunCost row config = .ok cost → ∃ (rates : Rates) (pages : Int),
        rates.Of config.budget ∧ pagesPerRead config.budget row.maxItems maxListingRowBytes = .ok pages ∧
        toLedger ((t.priced pk : Int) * rates.call + (t.sent.count (pk,.datasetRead) * pages : Int)
          * rates.page).value ≤ cost := by
  have sound := reachedSound run
  have settles := reachedSettles run
  obtain ⟨row,at_,completed⟩ := settles.done k r pk here reconciled runtime linked
  obtain ⟨_,_,row',_,_,_,_,there,same⟩ := frozenLater sound settles later_
    ⟨k,r,row,here,reconciled,runtime,linked,at_,fun _ _ => rfl⟩
  have covered := reachedPrepaid (run.append later_)
  have counted : ∀ call : Call, call.counter ≠ .corrections → t.sent.count (pk,call) ≤ row.count call.counter := by
    intro call priced
    have counts := covered.sent (pk,call)
    have stored : t.world.ledger.count (payer (pk,call)) = row'.count call.counter := countHere there call.counter
    exact (counts.trans stored.le).trans (same _ priced).le
  have called : t.priced pk ≤ row.pricedCount := by
    rw [pricedSplit]
    have start := counted .start (by decide)
    have read := counted .runRead (by decide)
    have abort := counted .abort (by decide)
    have confirm := counted .confirm (by decide)
    have dataset := counted (.delete .dataset) (by decide)
    have kvStore := counted (.delete .kvStore) (by decide)
    have output := counted .outputRead (by decide)
    simp only [Call.counter,ProviderRun.count] at start read abort confirm dataset kvStore output
    simp only [pricedCalls,ProviderRun.pricedCount,List.map_cons,List.map_nil,List.sum_cons,List.sum_nil]
    omega
  exact ⟨row,row',at_,there,same,called,fun config cost priced =>
    countedCovers priced called (counted .datasetRead (by decide))⟩

def soloCleaned : World := soloBegun.worked verifiedConfig (soloDeleted,.finishAttempt 0 10 [.dataset,.kvStore] [])
def soloReads : List (Int × Work) := [(soloDue,.planSettlementRead 0),(soloDue,.recordRunUsage 0 soloUsage)]
def soloPriced : World := soloReads.foldl (World.worked verifiedConfig) soloCleaned
def soloCalls : List (Nat × Call) := [(0,.start),(0,.delete .dataset),(0,.delete .kvStore)]

theorem soloFinishes : Runs (CallStep (fun _ => "") true) soloDeleting
    [.request 0 (.delete .dataset) (some "ds1"),.request 0 (.delete .kvStore) (some "kv1"),
     .commit ⟨verifiedConfig,soloDeleted,.work (.finishAttempt 0 10 [.dataset,.kvStore] [])⟩]
       ⟨soloCleaned,[],soloCalls⟩ := by
  have second : CallStep (fun _ => "") true
      ⟨soloBegun,[soloStage [.kvStore] [.dataset]],[(0,.start),(0,.delete .dataset)]⟩
      (.request 0 (.delete .kvStore) (some "kv1")) ⟨soloBegun,[soloStage [] [.dataset,.kvStore]],soloCalls⟩ :=
    @CallStep.request _ _ ⟨soloBegun,[soloStage [.kvStore] [.dataset]],[(0,.start),(0,.delete .dataset)]⟩
      0 _ _ _ _ _ rfl
      (.delete (by decide +kernel) (by decide) .deleted)
  have finishes : PollStep (fun _ => "") soloBegun
      ⟨verifiedConfig,soloDeleted,.work (.finishAttempt 0 10 [.dataset,.kvStore] [])⟩ soloCleaned :=
    ⟨trivial,by decide +kernel,.work (committedOk (by decide +kernel))⟩
  have granted := @Grants.finished ⟨soloBegun,[soloStage [] [.dataset,.kvStore]],soloCalls⟩
    ⟨verifiedConfig,soloDeleted,.work (.finishAttempt 0 10 [.dataset,.kvStore] [])⟩ 0 0 soloAttempt
    (.deleting [] [.dataset,.kvStore] [] soloBegunRow.storageIds) 10 _ _ rfl rfl rfl
  exact .cons soloDeletes <| .cons second <| .single (.commit finishes granted)

theorem soloPricedRun : ∃ trace, Runs (CallStep (fun _ => "") true)
    (Calls.start soloNow) trace ⟨soloPriced,[],soloCalls⟩ := by
  have worked := @workedRun (fun _ => "") verifiedConfig soloCleaned soloReads (by
    simp only [soloReads,List.forall_mem_cons,List.not_mem_nil,false_implies,implies_true,and_true]
    exact ⟨trivial,trivial⟩) (by decide +kernel)
  obtain ⟨trace,deleting⟩ := soloDeletingRun
  exact ⟨_,deleting.append (soloFinishes.append (plainRun worked (by decide +kernel) [] soloCalls))⟩

theorem soloSettledPriced : ∃ row row', soloPriced.ledger.runs[0]? = some row ∧ soloPriced.ledger.runs[0]? = some row' ∧
    (∀ c, c ≠ .corrections → row'.count c = row.count c) ∧
    (Calls.mk soloPriced [] soloCalls).priced 0 ≤ row.pricedCount ∧
    ∀ config cost, countedPostRunCost row config = .ok cost → ∃ (rates : Rates) (pages : Int),
      rates.Of config.budget ∧ pagesPerRead config.budget row.maxItems maxListingRowBytes = .ok pages ∧
      toLedger (((Calls.mk soloPriced [] soloCalls).priced 0 : Int) * rates.call +
        (soloCalls.count (0,.datasetRead) * pages : Int) * rates.page).value ≤ cost := by
  obtain ⟨trace,run⟩ := soloPricedRun
  obtain ⟨r,here,reconciled,runtime,linked⟩ : ∃ r, soloPriced.ledger.reservations[0]? = some r ∧
      r.status = .reconciled ∧ r.admissionClass ≠ .operator ∧ r.providerRun = some 0 :=
    ⟨soloPriced.ledger.reservations[0]?.get (by decide +kernel),(Option.some_get _).symm,by decide +kernel,
      by decide +kernel,by decide +kernel⟩
  generalize soloPriced = world at run here ⊢
  generalize soloCalls = sent at run ⊢
  exact settledPriced run here reconciled runtime linked (.nil _)
end HwRadar.Apify
