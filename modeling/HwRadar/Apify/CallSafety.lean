import HwRadar.Apify.Calls

/-! What holds in every state the units reach. A request about a run names the run its row
records, and a storage is deleted only once the run is recorded terminal and its import is
past the read; a row is deleted only when a delete of each of its storages was sent. -/
namespace HwRadar.Apify
open HwRadar.Base HwRadar.Base.Tables

theorem KeptId.trans {a b c : Option String} (first : KeptId a b) (second : KeptId b c) : KeptId a c :=
  fun id filled here => second id filled (first id filled here)

def CleanupStage.Sound (sent : List (Nat × Call)) (pk : Nat) (row : ProviderRun) : CleanupStage → Prop
  | .rereading => terminalStatus row.remoteStatus = true
  | .deleting _ deleted _ ids => terminalStatus row.remoteStatus = true ∧
      (∀ storage, KeptId (ids.of storage) (row.storageIds.of storage)) ∧
        ∀ storage ∈ deleted, (pk,.delete storage) ∈ sent
  | _ => True

def CallUnit.Sound (w : World) (sent : List (Nat × Call)) : CallUnit → Prop
  | .reading pk runId | .monitoring pk runId | .mismatched pk runId =>
    ∃ row, w.ledger.runs[pk]? = some row ∧ row.externalRunId = some runId
  | .overdue pk => ∃ row, w.ledger.runs[pk]? = some row ∧ row.storageCleanupDueAt ≤ w.clock
  | .cleanupDue pk _ => ∃ row, w.ledger.runs[pk]? = some row ∧ row.importState ≠ .pending
  | .cleaning pk attempt stage => ∃ row, w.ledger.runs[pk]? = some row ∧ row.importState ≠ .pending ∧
      row.externalRunId = some attempt.runId ∧ stage.Sound sent pk row
  | .starting _ | .importing _ _ | .rejecting _ => True

structure RowCleaned (sent : List (Nat × Call)) (pk : Nat) (row : ProviderRun) : Prop where
  verified : ∀ storage ∈ row.storageVerified, terminalStatus row.remoteStatus = true ∧ row.importState ≠ .pending ∧
    row.externalRunId ≠ none ∧ (pk,.delete storage) ∈ sent
  deleted : row.storageState = .deleted → allStorages.all row.storageVerified.contains = true

def World.Unstarted (w : World) : Prop := ∀ pk ∈ w.starting, ∃ row, w.ledger.runs[pk]? = some row ∧
  row.externalRunId = none ∧ row.storageCleanupAttempts = 0

structure Calls.Sound (s : Calls) : Prop where
  unstarted : s.world.Unstarted
  units : ∀ unit ∈ s.units, unit.Sound s.world s.sent
  rows : ∀ (pk : Nat) row, s.world.ledger.runs[pk]? = some row → RowCleaned s.sent pk row

section
variable {digest : Json → String} {absentTrusted : Bool} {s t : Calls} {label : Label} {w w' : World} {pk : Nat}
  {sent sent' : List (Nat × Call)} {unit : CallUnit}

theorem CallUnit.Sound.grown (sound : unit.Sound w sent) (now : Int) (order : w.clock ≤ now)
    (logged : ∀ call ∈ sent, call ∈ sent') : unit.Sound (w.at_ now) sent' := by
  cases unit with
  | overdue pk =>
    obtain ⟨row,here,passed⟩ := sound
    exact ⟨row,here,passed.trans order⟩
  | cleaning pk attempt stage =>
    obtain ⟨row,here,imported,named,stages⟩ := sound
    refine ⟨row,here,imported,named,?_⟩
    cases stage with
    | deleting left deleted errors ids =>
      exact ⟨stages.1,stages.2.1,fun storage mem => logged _ (stages.2.2 storage mem)⟩
    | _ => exact stages
  | _ => exact sound

theorem RowCleaned.grown {row : ProviderRun} (cleaned : RowCleaned sent pk row) (logged : ∀ call ∈ sent, call ∈ sent') :
    RowCleaned sent' pk row := by
  refine ⟨fun storage mem => ?_,cleaned.deleted⟩
  obtain ⟨terminal,imported,named,deleted⟩ := cleaned.verified storage mem
  exact ⟨terminal,imported,named,logged _ deleted⟩

theorem movedName (unstarted : w.Unstarted) {a b : ProviderRun} (here : w.ledger.runs[pk]? = some a)
    (move : CountMove w label pk a b)
    (named : a.externalRunId ≠ none) : b.externalRunId = a.externalRunId ∧ pk ∉ w.starting := by
  have outside : pk ∉ w.starting := by
    intro mem
    obtain ⟨row,at_,unnamed,_⟩ := unstarted pk mem
    cases Option.some.inj (here.symm.trans at_)
    exact named unnamed
  exact ⟨move.named.resolve_right fun answered => outside answered.1,outside⟩

theorem movedIds {a b : ProviderRun} (move : CountMove w label pk a b) (outside : pk ∉ w.starting) (storage : Storage) :
    KeptId (a.storageIds.of storage) (b.storageIds.of storage) := by
  cases storage with
  | dataset => exact (move.stored outside).1
  | kvStore => exact (move.stored outside).2

theorem movedUnit (unstarted : w.Unstarted) (step : PollStep digest w label w') (sound : unit.Sound w sent) :
    unit.Sound w' sent := by
  have named : ∀ {pk : Nat} {runId : String}, (∃ row : ProviderRun, w.ledger.runs[pk]? = some row ∧
      row.externalRunId = some runId) →
      ∃ row : ProviderRun, w'.ledger.runs[pk]? = some row ∧ row.externalRunId = some runId := by
    rintro pk runId ⟨a,here,name⟩
    obtain ⟨b,there,move⟩ := stepCounted step pk a here
    exact ⟨b,there,(movedName unstarted here move (by rw [name]; simp)).1.trans name⟩
  cases unit with
  | reading pk runId => exact named sound
  | monitoring pk runId => exact named sound
  | mismatched pk runId => exact named sound
  | overdue pk =>
    obtain ⟨a,here,passed⟩ := sound
    obtain ⟨b,there,move⟩ := stepCounted step pk a here
    refine ⟨b,there,?_⟩
    rw [move.due,transitionClock step.2.2]
    exact passed.trans step.2.1
  | cleanupDue pk overdue =>
    obtain ⟨a,here,imported⟩ := sound
    obtain ⟨b,there,move⟩ := stepCounted step pk a here
    exact ⟨b,there,move.imported imported⟩
  | cleaning pk attempt stage =>
    obtain ⟨a,here,imported,name,stages⟩ := sound
    obtain ⟨b,there,move⟩ := stepCounted step pk a here
    obtain ⟨same,outside⟩ := movedName unstarted here move (by rw [name]; simp)
    refine ⟨b,there,move.imported imported,same.trans name,?_⟩
    cases stage with
    | rereading => exact move.terminal stages
    | deleting left deleted errors ids =>
      obtain ⟨terminal,stored,logged⟩ := stages
      exact ⟨move.terminal terminal,fun storage => (stored storage).trans (movedIds move outside storage),logged⟩
    | _ => trivial
  | _ => trivial

theorem unstartedStep (unstarted : w.Unstarted) (step : PollStep digest w label w') : w'.Unstarted := by
  intro pk mem
  rcases startsStep step.2.2 mem with ⟨before,unanswered⟩ | ⟨fields,reservation,event,fresh⟩
  · obtain ⟨a,here,unnamed,none_⟩ := unstarted pk before
    obtain ⟨b,there,move⟩ := stepCounted step pk a here
    refine ⟨b,there,?_,?_⟩
    · rcases move.named with same | ⟨_,run,mismatches,answered⟩
      · exact same.trans unnamed
      · exact absurd answered (unanswered run mismatches)
    · rcases move.counts .attempts with same | ⟨_,raises⟩
      · exact same.trans none_
      · cases raises with
        | mismatch event => exact absurd event (unanswered _ _)
        | attempt _ _ named => exact absurd unnamed named
        | read _ reads => rcases reads with reads | reads <;> cases reads
  · obtain ⟨_,_,transition⟩ := step
    rw [event] at transition
    cases transition with
    | createRun ok =>
      have created := createRunCreated ok
      refine ⟨ProviderRun.created fields,?_,rfl,rfl⟩
      simp [World.commit,created.runs,fresh]

theorem rowsStep (unstarted : w.Unstarted)
    (rows : ∀ (pk : Nat) row, w.ledger.runs[pk]? = some row → RowCleaned sent pk row)
    (step : PollStep digest w label w')
    (vouched : ∀ pk cap deleted errors, label.event = .work (.finishAttempt pk cap deleted errors) → ∀ row,
      w.ledger.runs[pk]? = some row → ∀ storage ∈ deleted, terminalStatus row.remoteStatus = true ∧
        row.importState ≠ .pending ∧ row.externalRunId ≠ none ∧ (pk,.delete storage) ∈ sent)
    (pk : Nat) (b : ProviderRun) (there : w'.ledger.runs[pk]? = some b) : RowCleaned sent pk b := by
  by_cases old : pk < w.ledger.runs.length
  · have here := List.getElem?_eq_getElem old
    obtain ⟨c,found,move⟩ := stepCounted step pk _ here
    cases Option.some.inj (found.symm.trans there)
    have cleaned := rows pk _ here
    have proved : ∀ storage ∈ b.storageVerified, terminalStatus (w.ledger.runs[pk]).remoteStatus = true ∧
        (w.ledger.runs[pk]).importState ≠ .pending ∧ (w.ledger.runs[pk]).externalRunId ≠ none ∧
        (pk,.delete storage) ∈ sent := by
      intro storage mem
      rcases move.verified with same | ⟨cap,deleted,errors,event,same⟩
      · exact cleaned.verified storage (same ▸ mem)
      · rw [same] at mem
        rcases List.mem_append.mp mem with before | fresh
        · exact cleaned.verified storage before
        · exact vouched pk cap deleted errors event _ here storage fresh
    refine ⟨fun storage mem => ?_,fun gone => ?_⟩
    · obtain ⟨terminal,imported,named,logged⟩ := proved storage mem
      exact ⟨move.terminal terminal,move.imported imported,(movedName unstarted here move named).1 ▸ named,logged⟩
    · rcases move.deleted gone with before | whole
      · have all := cleaned.deleted before
        rcases move.verified with same | ⟨cap,deleted,errors,event,same⟩
        · rw [same]
          exact all
        · rw [same]
          rw [List.all_eq_true] at all ⊢
          intro storage mem
          exact List.contains_iff_mem.mpr (List.mem_append_left _ (List.contains_iff_mem.mp (all storage mem)))
      · exact whole
  · have bound := (List.getElem?_eq_some_iff.mp there).1
    rcases (pollMoved step).added with same | ⟨fields,appended⟩
    · omega
    · rw [appended,List.getElem?_append_right (Nat.le_of_not_lt old)] at there
      rw [List.mem_singleton.mp (List.mem_of_getElem? there)]
      exact ⟨by rintro storage ⟨⟩,by rintro ⟨⟩⟩

theorem grantsVouched (sound : s.Sound) {units : List CallUnit} (grants : Grants s label units) {cap : Int}
    {deleted : List Storage} {errors : List String} (event : label.event = .work (.finishAttempt pk cap deleted errors))
    {row : ProviderRun} (here : s.world.ledger.runs[pk]? = some row) : ∀ storage ∈ deleted,
      terminalStatus row.remoteStatus = true ∧ row.importState ≠ .pending ∧ row.externalRunId ≠ none ∧
        (pk,.delete storage) ∈ s.sent := by
  cases grants with
  | @finished k q attempt stage cap deleted errors at_ ended own =>
    cases own.symm.trans event
    obtain ⟨found,there,imported,named,stages⟩ := sound.units _ (List.mem_of_getElem? at_)
    cases Option.some.inj (there.symm.trans here)
    intro storage mem
    unfold CleanupStage.outcome at ended
    split at ended
    · cases ended
      cases mem
    · cases ended
      exact ⟨stages.1,imported,by rw [named]; simp,stages.2.2 storage mem⟩
    · cases ended
  | plain free =>
    rw [event] at free
    cases free
  | started own => cases own.symm.trans event
  | answered own _ => cases own.symm.trans event
  | mismatched own _ _ => cases own.symm.trans event
  | polled own _ _ _ => cases own.symm.trans event
  | settling own _ => cases own.symm.trans event
  | monitored own _ _ _ _ => cases own.symm.trans event
  | importing own _ _ => cases own.symm.trans event
  | rejected _ own => cases own.symm.trans event
  | refused _ own _ => cases own.symm.trans event
  | began _ own _ => cases own.symm.trans event
  | observed _ own => cases own.symm.trans event

theorem observedTerminal {a : ProviderRun} {run : RemoteRun} {now : Int}
    (terminal : terminalRunStatuses.contains run.status = true) :
    terminalStatus (observedRow a run now).remoteStatus = true := by
  have kept : terminalStatus (applyRunFields a run now).remoteStatus = true := by
    unfold applyRunFields
    rw [terminal,Bool.not_true,Bool.and_false,if_neg Bool.false_ne_true]
    exact terminal
  exact kept

theorem mismatchNamed {run : RemoteRun} {mismatches : List String} (step : PollStep digest w label w')
    (event : label.event = .startAnswered pk run mismatches) :
    ∃ row, w'.ledger.runs[pk]? = some row ∧ row.externalRunId = some run.id := by
  obtain ⟨_,_,transition⟩ := step
  rw [event] at transition
  cases transition with
  | startAnswered pending ok =>
    obtain ⟨row,locked,done⟩ := bindOk.mp ok
    cases Except.ok.inj done
    refine ⟨startedRow row run mismatches label.now,
      List.getElem?_set_self (List.getElem?_eq_some_iff.mp (lockRunOk locked)).1,?_⟩
    obtain ⟨_,_,named,_⟩ := appliedColumns { row with
      externalRunId := some run.id
      datasetId := run.defaultDatasetId
      kvStoreId := run.defaultKeyValueStoreId } run label.now
    unfold startedRow
    simp only
    split <;> exact named

theorem rejectionDecided (step : PollStep digest w label w')
    (event : label.event = .work (.runChanged pk fun row => (Writer.reject (some .pending)).write label.now row)) :
    ∃ row, w'.ledger.runs[pk]? = some row ∧ row.importState ≠ .pending := by
  obtain ⟨row,locked,done⟩ := bindOk.mp (workCommitted step event)
  refine ⟨changedRun row fun row => (Writer.reject (some .pending)).write label.now row,?_,?_⟩
  · rw [← Except.ok.inj done]
    exact List.getElem?_set_self (List.getElem?_eq_some_iff.mp (lockRunOk locked)).1
  · simp only [changedRun,Writer.write]
    cases rejects : rejectRun (some .pending) label.now row with
    | some moved =>
      obtain ⟨_,_,rfl⟩ := rejectRunSome rejects
      rw [Option.getD_some,(stampImport _ _).1]
      rintro ⟨⟩
    | none =>
      intro pending
      rw [Option.getD_none] at pending
      simp [rejectRun,pending,terminalImport] at rejects

theorem attemptSound {cap : Int} {overdue : Bool} {l : Ledger} {attempt : CleanupAttempt}
    (unstarted : w.Unstarted) (step : PollStep digest w label w')
    (sound : (CallUnit.cleanupDue pk overdue).Sound w sent)
    (begun : beginAttempt cap label.config.budget.estimatorVersion label.now pk overdue w.ledger =
      .ok (l,some attempt)) :
    (CallUnit.cleaning pk attempt (if attempt.observedTerminal then .rereading else .aborting)).Sound w' sent := by
  obtain ⟨row,there,named,observed,_,_⟩ := beginAttemptGranted begun
  obtain ⟨a,found,imported⟩ := sound
  cases Option.some.inj (found.symm.trans there)
  refine movedUnit unstarted step ⟨_,found,imported,named,?_⟩
  split
  · rename_i terminal
    exact observed.symm.trans terminal
  · trivial

theorem observationSound {attempt : CleanupAttempt} {run : RemoteRun} {errors : Option (List String)}
    (unstarted : w.Unstarted) (step : PollStep digest w label w')
    (event : label.event = .work (.recordObservation pk run))
    (sound : (CallUnit.cleaning pk attempt (.observing run errors)).Sound w sent) :
    (CallUnit.cleaning pk attempt (.observed run errors)).Sound w' sent := by
  obtain ⟨b,there,imported,named,_⟩ := movedUnit unstarted step sound
  refine ⟨b,there,imported,named,?_⟩
  unfold CleanupStage.observed
  split
  · rename_i terminal
    obtain ⟨row,locked,done⟩ := bindOk.mp (workCommitted step event)
    rw [← Except.ok.inj done] at there
    have saved : (w.ledger.saveRun pk (observedRow row run label.now)).runs[pk]? =
        some (observedRow row run label.now) :=
          List.getElem?_set_self (List.getElem?_eq_some_iff.mp (lockRunOk locked)).1
    cases Option.some.inj (saved.symm.trans there)
    exact observedTerminal terminal
  · cases errors <;> trivial

theorem grantsSound (sound : s.Sound) {units : List CallUnit} (step : PollStep digest s.world label w')
    (grants : Grants s label units) : ∀ unit ∈ units, unit.Sound w' s.sent := by
  -- a commit leaves the old units sound, so only the granted one is looked at
  have old : ∀ unit ∈ s.units, unit.Sound w' s.sent :=
    fun unit mem => movedUnit sound.unstarted step (sound.units unit mem)
  have added : ∀ {fresh : CallUnit}, fresh.Sound w' s.sent → ∀ unit ∈ s.units ++ [fresh], unit.Sound w' s.sent := by
    intro fresh made unit mem
    rcases List.mem_append.mp mem with before | last
    · exact old unit before
    · rw [List.mem_singleton.mp last]
      exact made
  have replaced : ∀ {k : Nat} {next : List CallUnit}, (∀ unit ∈ next, unit.Sound w' s.sent) →
      ∀ unit ∈ s.units.eraseIdx k ++ next, unit.Sound w' s.sent := by
    intro k next made unit mem
    rcases List.mem_append.mp mem with before | last
    · exact old unit (List.mem_of_mem_eraseIdx before)
    · exact made unit last
  cases grants with
  | plain free => exact old
  | answered event sent => exact old
  | started event => exact added trivial
  | mismatched event listed sent => exact added (mismatchNamed step event)
  | @polled pk cap row runId event here counted named =>
    have read : CallUnit.Sound s.world s.sent (.reading pk runId) := ⟨row,here,named⟩
    exact added (movedUnit sound.unstarted step read)
  | @settling pk runId l event planned =>
    obtain ⟨_,a,here,⟨none_,_⟩ | ⟨_,named,_⟩⟩ := planSettlementReadRuns planned
    · cases none_
    · have read : CallUnit.Sound s.world s.sent (.reading pk runId) := ⟨a,here,named⟩
      exact added (movedUnit sound.unstarted step read)
  | @monitored k pk l call resv event begun ofRun held linked =>
    rcases beginMonitoringCounted begun with ⟨_,build⟩ | ⟨q,a,cap,here,_,_,⟨found,at_,own⟩,named,_⟩
    · rw [build _ rfl] at ofRun
      cases ofRun
    · cases Option.some.inj (at_.symm.trans held)
      cases Option.some.inj (own.symm.trans linked)
      have monitor : CallUnit.Sound s.world s.sent (.monitoring pk call.remoteId) := ⟨a,here,named call rfl⟩
      exact added (movedUnit sound.unstarted step monitor)
  | importing event here counts => exact added trivial
  | rejected here event => exact replaced (List.forall_mem_singleton.mpr (rejectionDecided step event))
  | refused here event begun => exact replaced (by rintro unit ⟨⟩)
  | began here event begun =>
    exact replaced (List.forall_mem_singleton.mpr
      (attemptSound sound.unstarted step (sound.units _ (List.mem_of_getElem? here)) begun))
  | observed here event =>
    exact replaced (List.forall_mem_singleton.mpr
      (observationSound sound.unstarted step event (sound.units _ (List.mem_of_getElem? here))))
  | finished here ended event => exact replaced (by rintro unit ⟨⟩)

theorem proceedsSound {now : Int} {next : CallUnit} (order : w.clock ≤ now) (moves : Proceeds w.ledger now unit next)
    (sound : unit.Sound w sent) : next.Sound (w.at_ now) sent := by
  cases moves with
  | decided here past =>
    obtain ⟨row,there,passed⟩ := sound
    cases Option.some.inj (here.symm.trans there)
    exact ⟨_,there,past.resolve_left fun early => absurd (passed.trans order) (not_le.mpr early)⟩
  | undecided here passed pending => trivial
  | reread here =>
    obtain ⟨row,there,imported,named,terminal⟩ := sound
    cases Option.some.inj (here.symm.trans there)
    refine ⟨_,there,imported,named,terminal,fun storage id filled recorded => recorded,?_⟩
    rintro storage ⟨⟩
  | unknown unknown =>
    obtain ⟨row,there,imported,named,stages⟩ := sound
    exact ⟨row,there,imported,named,stages⟩

theorem sendsSound {kind : Call} {target : Option String} {next : List CallUnit}
    (sends : Sends absentTrusted unit pk kind target next) (sound : unit.Sound w sent) :
    ∀ later ∈ next, later.Sound w (sent ++ [(pk,kind)]) := by
  intro later mem
  cases sends with
  | dataset =>
    rw [List.mem_singleton.mp mem]
    trivial
  | @delete pk attempt storage left deleted errors ids id known valid answer =>
    rw [List.mem_singleton.mp mem]
    obtain ⟨row,there,imported,named,terminal,stored,logged⟩ := sound
    refine ⟨row,there,imported,named,?_⟩
    cases deleteFailure absentTrusted storage answer with
    | some failure => exact ⟨terminal,stored,fun other mem => List.mem_append_left _ (logged other mem)⟩
    | none =>
      refine ⟨terminal,stored,fun other mem => ?_⟩
      rcases List.mem_append.mp mem with old | new
      · exact List.mem_append_left _ (logged other old)
      · rw [List.mem_singleton.mp new]
        exact List.mem_append_right _ (List.mem_singleton_self _)
  | start | read | monitor | output | mismatch => cases mem
  | abortAnswered | abortFailed | confirmAnswered | confirmFailed =>
    rw [List.mem_singleton.mp mem]
    obtain ⟨row,there,imported,named,_⟩ := sound
    exact ⟨row,there,imported,named,trivial⟩

theorem callsSound {kind : CallLabel} (sound : s.Sound) (step : CallStep digest absentTrusted s kind t) : t.Sound := by
  cases step with
  | commit step grants =>
    refine ⟨unstartedStep sound.unstarted step,grantsSound sound step grants,
      rowsStep sound.unstarted sound.rows step fun pk cap deleted errors event row here => ?_⟩
    exact grantsVouched sound grants event here
  | @request k unit pk call target next here sends =>
    have logged : ∀ key ∈ s.sent, key ∈ s.sent ++ [(pk,call)] := fun key mem => List.mem_append_left _ mem
    refine ⟨sound.unstarted,fun unit mem => ?_,fun pk row there => (sound.rows pk row there).grown logged⟩
    rcases List.mem_append.mp mem with before | fresh
    · exact (sound.units unit (List.mem_of_mem_eraseIdx before)).grown _ le_rfl logged
    · exact sendsSound sends (sound.units _ (List.mem_of_getElem? here)) unit fresh
  | @handed pk row here imported retained =>
    refine ⟨sound.unstarted,fun unit mem => ?_,sound.rows⟩
    rcases List.mem_append.mp mem with before | fresh
    · exact sound.units unit before
    · rw [List.mem_singleton.mp fresh]
      refine ⟨row,here,fun pending => ?_⟩
      rw [pending] at imported
      cases imported
  | @overdue pk now cap order selected =>
    refine ⟨sound.unstarted,fun unit mem => ?_,sound.rows⟩
    rcases List.mem_append.mp mem with before | fresh
    · exact (sound.units unit before).grown now order fun _ => id
    · rw [List.mem_singleton.mp fresh]
      obtain ⟨row,here,chosen⟩ := memOverdue.mp selected
      simp only [Bool.and_eq_true,decide_eq_true_eq] at chosen
      exact ⟨row,here,chosen.2⟩
  | @proceeds k unit next now order here moves =>
    refine ⟨sound.unstarted,fun other mem => ?_,sound.rows⟩
    rcases List.mem_append.mp mem with before | fresh
    · exact (sound.units other (List.mem_of_mem_eraseIdx before)).grown now order fun _ => id
    · rw [List.mem_singleton.mp fresh]
      exact proceedsSound order moves (sound.units _ (List.mem_of_getElem? here))
  | lost =>
    exact ⟨sound.unstarted,fun unit mem => sound.units unit (List.mem_of_mem_eraseIdx mem),sound.rows⟩

theorem callsFresh (now : Int) : (Calls.start now).Sound :=
  ⟨by rintro pk ⟨⟩,by rintro unit ⟨⟩,fun pk row here => by simp [Calls.start,World.start,Ledger.empty] at here⟩

theorem reachedSound {t0 : Int} {trace : List CallLabel}
    (run : Runs (CallStep digest absentTrusted) (Calls.start t0) trace s) :
    s.Sound :=
  run.invariant Calls.Sound callsSound (callsFresh t0)

def Call.ofRun : Call → Bool
  | .runRead | .correctionRead | .abort | .confirm => true
  | _ => false

theorem sendsAimed {kind : Call} {target : Option String} {next : List CallUnit} (sound : unit.Sound w sent)
    (sends : Sends absentTrusted unit pk kind target next) :
    (kind.ofRun = true → ∃ row, w.ledger.runs[pk]? = some row ∧ row.externalRunId = target ∧ target ≠ none) ∧
    ∀ storage, kind = .delete storage → ∃ row id, w.ledger.runs[pk]? = some row ∧ target = some id ∧
      row.storageIds.of storage = some id ∧ terminalStatus row.remoteStatus = true ∧ row.importState ≠ .pending := by
  have named : ∀ {runId : String}, (∃ row : ProviderRun, w.ledger.runs[pk]? = some row ∧
      row.externalRunId = some runId) →
      ∃ row, w.ledger.runs[pk]? = some row ∧ row.externalRunId = some runId ∧ some runId ≠ none := by
    rintro runId ⟨row,here,name⟩
    exact ⟨row,here,name,by simp⟩
  cases sends with
  | start | dataset | output => exact ⟨by rintro ⟨⟩,by rintro storage ⟨⟩⟩
  | read => exact ⟨fun _ => named sound,by rintro storage ⟨⟩⟩
  | monitor => exact ⟨fun _ => named sound,by rintro storage ⟨⟩⟩
  | mismatch => exact ⟨fun _ => named sound,by rintro storage ⟨⟩⟩
  | abortAnswered | abortFailed | confirmAnswered | confirmFailed =>
    obtain ⟨row,here,_,name,_⟩ := sound
    exact ⟨fun _ => named ⟨row,here,name⟩,by rintro storage ⟨⟩⟩
  | @delete pk attempt storage left deleted errors ids id known valid answer =>
    refine ⟨by rintro ⟨⟩,fun other same => ?_⟩
    cases same
    obtain ⟨row,here,imported,name,terminal,stored,_⟩ := sound
    exact ⟨row,id,here,rfl,stored storage id valid known,terminal,imported⟩
end

theorem requestsAimed {digest : Json → String} {absentTrusted : Bool} {t0 : Int} {trace : List CallLabel} {s : Calls}
    (run : Runs (CallStep digest absentTrusted) (Calls.start t0) trace s) :
    (∀ {pk call target t}, CallStep digest absentTrusted s (.request pk call target) t →
      (call.ofRun = true → ∃ row, s.world.ledger.runs[pk]? = some row ∧ row.externalRunId = target ∧ target ≠ none) ∧
      ∀ storage, call = .delete storage → ∃ row id, s.world.ledger.runs[pk]? = some row ∧ target = some id ∧
        row.storageIds.of storage = some id ∧ terminalStatus row.remoteStatus = true ∧ row.importState ≠ .pending) ∧
    ∀ (pk : Nat) row, s.world.ledger.runs[pk]? = some row → row.storageState = .deleted →
      terminalStatus row.remoteStatus = true ∧ row.importState ≠ .pending ∧
      ∀ storage, (pk,.delete storage) ∈ s.sent := by
  have sound := reachedSound run
  refine ⟨fun step => ?_,fun pk row here gone => ?_⟩
  · cases step with
    | request at_ sends => exact sendsAimed (sound.units _ (List.mem_of_getElem? at_)) sends
  · have cleaned := sound.rows pk row here
    have every : ∀ storage, storage ∈ row.storageVerified := by
      intro storage
      have all := List.all_eq_true.mp (cleaned.deleted gone)
      exact List.contains_iff_mem.mp (all storage (by cases storage <;> decide))
    obtain ⟨terminal,imported,_,_⟩ := cleaned.verified _ (every .dataset)
    exact ⟨terminal,imported,fun storage => (cleaned.verified storage (every storage)).2.2.2⟩

theorem plainRun {digest : Json → String} {absentTrusted : Bool} {w w' : World} {labels : List Label}
    (run : Runs (PollStep digest) w labels w') (free : ∀ label ∈ labels, label.event.free = true)
    (units : List CallUnit) (sent : List (Nat × Call)) :
    Runs (CallStep digest absentTrusted) ⟨w,units,sent⟩ (labels.map .commit) ⟨w',units,sent⟩ := by
  induction run with
  | nil w => exact .nil _
  | @cons w mid w' label labels head tail ih =>
    exact .cons (.commit head (.plain (free label List.mem_cons_self)))
      (ih fun label mem => free label (List.mem_cons_of_mem _ mem))

theorem attemptRun {digest : Json → String} {absentTrusted : Bool} {w w' : World} {label : Label} {pk : Nat} {cap : Int}
    {overdue : Bool} {l : Ledger} {attempt : CleanupAttempt} {row : ProviderRun} (sent : List (Nat × Call))
    (step : PollStep digest w label w') (event : label.event = .work (.beginAttempt pk cap overdue))
    (begun : beginAttempt cap label.config.budget.estimatorVersion label.now pk overdue w.ledger = .ok (l,some attempt))
    (terminal : attempt.observedTerminal = true) (here : w'.ledger.runs[pk]? = some row) :
    Runs (CallStep digest absentTrusted) ⟨w,[.cleanupDue pk overdue],sent⟩ [.commit label,.aside]
      ⟨w',[.cleaning pk attempt (.deleting attempt.pending [] [] row.storageIds)],sent⟩ := by
  have granted := @Grants.began ⟨w,[.cleanupDue pk overdue],sent⟩ label 0 pk cap overdue l attempt rfl event begun
  rw [if_pos terminal] at granted
  have rereads : CallStep digest absentTrusted ⟨w',[.cleaning pk attempt .rereading],sent⟩ .aside
      ⟨w',[.cleaning pk attempt (.deleting attempt.pending [] [] row.storageIds)],sent⟩ :=
    @CallStep.proceeds digest absentTrusted ⟨w',[.cleaning pk attempt .rereading],sent⟩ 0 _ _ w'.clock le_rfl rfl
      (.reread here)
  exact .cons (.commit step granted) (.single rereads)

def soloFinalized : World := (soloUnits.take 8).foldl (World.worked verifiedConfig) soloAnswered
def soloBegun : World := soloFinalized.worked verifiedConfig (soloDeleted,.beginAttempt 0 10 false)

def soloRow : ProviderRun := soloFinalized.ledger.runs[0]?.get (by decide +kernel)
def soloBegunRow : ProviderRun := soloBegun.ledger.runs[0]?.get (by decide +kernel)
def soloAttempt : CleanupAttempt := ⟨"run1",true,[.dataset,.kvStore]⟩
def soloBeginning : Except Fault (Ledger × Option CleanupAttempt) :=
  beginAttempt 10 verifiedConfig.budget.estimatorVersion soloDeleted 0 false soloFinalized.ledger

def soloStage (left deleted : List Storage) : CallUnit :=
  .cleaning 0 soloAttempt (.deleting left deleted [] soloBegunRow.storageIds)

def soloDeleting : Calls := ⟨soloBegun,[soloStage [.dataset,.kvStore] []],[(0,.start)]⟩

theorem soloStarted : Runs (CallStep (fun _ => "") true) (Calls.start soloNow)
    [.commit soloClaimLabel,.commit soloReserveLabel,.commit soloCreateLabel,.request 0 .start none]
    ⟨soloCreated,[],[(0,.start)]⟩ := by
  have first : soloReserved.ledger.runs.length = 0 := by decide +kernel
  have granted : Grants ⟨soloReserved,[],[]⟩ soloCreateLabel [.starting soloReserved.ledger.runs.length] :=
    @Grants.started ⟨soloReserved,[],[]⟩ soloCreateLabel soloFields (some 0) rfl
  rw [first] at granted
  have sends : CallStep (fun _ => "") true ⟨soloCreated,[.starting 0],[]⟩ (.request 0 .start none)
      ⟨soloCreated,[],[(0,.start)]⟩ := @CallStep.request _ _ ⟨soloCreated,[.starting 0],[]⟩ 0 _ _ _ _ _ rfl .start
  exact .cons (.commit soloClaims (.plain rfl)) <| .cons (.commit soloReserves (.plain rfl)) <|
    .cons (.commit soloCreates granted) <| .single sends

theorem soloImports : ∃ trace, Runs (CallStep (fun _ => "") true) ⟨soloCreated,[],[(0,.start)]⟩ trace
    ⟨soloFinalized,[],[(0,.start)]⟩ := by
  have answered : PollStep (fun _ => "") soloCreated
      ⟨verifiedConfig,soloNow,.startAnswered 0 (soloRun "RUNNING") []⟩ soloAnswered :=
    ⟨trivial,le_rfl,.startAnswered (by decide +kernel) (committedOk (by decide +kernel))⟩
  have worked := @workedRun (fun _ => "") verifiedConfig soloAnswered (soloUnits.take 8) (by
    simp only [soloUnits,List.take_succ_cons,List.take_zero,List.forall_mem_cons,List.not_mem_nil,
      false_implies,implies_true,and_true]
    exact ⟨trivial,⟨_,rfl⟩,⟨_,rfl⟩,⟨_,rfl⟩,⟨_,rfl⟩,⟨_,rfl⟩,⟨_,rfl⟩,⟨_,rfl⟩⟩)
    (by decide +kernel)
  exact ⟨_,.cons (.commit answered (.answered rfl (List.mem_singleton_self _)))
    (plainRun worked (by decide +kernel) [] [(0,.start)])⟩

theorem soloBegins : ∃ trace, Runs (CallStep (fun _ => "") true) ⟨soloFinalized,[],[(0,.start)]⟩ trace
    soloDeleting := by
  have handed : CallStep (fun _ => "") true ⟨soloFinalized,[],[(0,.start)]⟩ .aside
      ⟨soloFinalized,[.cleanupDue 0 false],[(0,.start)]⟩ :=
    @CallStep.handed _ _ ⟨soloFinalized,[],[(0,.start)]⟩ 0 soloRow (Option.some_get _).symm (by decide +kernel)
      (by decide +kernel)
  have begins : PollStep (fun _ => "") soloFinalized
      ⟨verifiedConfig,soloDeleted,.work (.beginAttempt 0 10 false)⟩ soloBegun :=
    ⟨trivial,by decide +kernel,.work (committedOk (by decide +kernel))⟩
  have attempt : (committed (soloFinalized.ledger,none) soloBeginning).2 = some soloAttempt := by decide +kernel
  have begun : soloBeginning = .ok ((committed (soloFinalized.ledger,none) soloBeginning).1,some soloAttempt) := by
    have made := @committedOk _ (soloFinalized.ledger,none) soloBeginning (by decide +kernel)
    generalize soloBeginning = beginning at made attempt ⊢
    rw [← attempt]
    exact made
  exact ⟨_,.cons handed (attemptRun _ begins rfl begun rfl (Option.some_get _).symm)⟩

theorem soloDeletingRun : ∃ trace, Runs (CallStep (fun _ => "") true) (Calls.start soloNow) trace soloDeleting := by
  obtain ⟨imports,imported⟩ := soloImports
  obtain ⟨begins,begun⟩ := soloBegins
  exact ⟨_,soloStarted.append (imported.append begun)⟩

theorem soloDeletes : CallStep (fun _ => "") true soloDeleting (.request 0 (.delete .dataset) (some "ds1"))
    ⟨soloBegun,[soloStage [.kvStore] [.dataset]],[(0,.start),(0,.delete .dataset)]⟩ :=
  @CallStep.request _ _ soloDeleting 0 _ _ _ _ _ rfl (.delete (by decide +kernel) (by decide) .deleted)

theorem soloAimed : ∃ row id, soloDeleting.world.ledger.runs[0]? = some row ∧ some "ds1" = some id ∧
    row.storageIds.of .dataset = some id ∧ terminalStatus row.remoteStatus = true ∧ row.importState ≠ .pending := by
  obtain ⟨trace,run⟩ := soloDeletingRun
  exact ((requestsAimed run).1 soloDeletes).2 .dataset rfl
end HwRadar.Apify
