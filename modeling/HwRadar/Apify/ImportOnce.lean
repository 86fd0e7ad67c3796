import HwRadar.Apify.Importing

/-! Each import is applied once or not at all. The states only move forward and a
terminal state stays; one ScraperRun, one outcome and one batch of observations at
most. A rejection an executor decided earlier may come after another's stage 1, and
then ends an import whose observations are already persisted. -/
namespace HwRadar.Apify
open HwRadar.Base HwRadar.Base.Calendar

inductive NextImport : ImportState → ImportState → Prop where
  | observed : NextImport .pending .observationsCommitted
  | absence : NextImport .observationsCommitted .absenceApplied
  | resolved : NextImport .absenceApplied .resolved
  | evaluated : NextImport .resolved .evaluated
  | finalized : NextImport .evaluated .finalized
  | rejected {state} (running : terminalImport state = false) : NextImport state .rejected

theorem nextRunning {a b : ImportState} (next : NextImport a b) : terminalImport a = false := by
  cases next with
  | rejected running => exact running
  | _ => rfl

inductive Linked (db db' : ImportDb) : Prop where
  | kept (link : db'.row.scraperRun = db.row.scraperRun)
      (rows : db'.scraperRuns.length = db.scraperRuns.length)
  | created (unlinked : db.row.scraperRun = none) (link : db'.row.scraperRun ≠ none)
      (rows : db'.scraperRuns.length = db.scraperRuns.length + 1)

inductive Progress (db db' : ImportDb) (executor : Executor) : Prop where
  | kept (state : db'.row.importState = db.row.importState) (observations : db'.observations = db.observations)
      (outcomes : db'.outcomes = db.outcomes)
  | observed (batch : Fetched) (pending : db.row.importState = .pending)
      (state : db'.row.importState = .observationsCommitted)
      (observations : db'.observations = db.observations ++ [batch]) (outcomes : db'.outcomes = db.outcomes)
  | advanced (next : NextImport db.row.importState db'.row.importState)
      (past : db.row.importState ≠ .pending) (running : terminalImport db'.row.importState = false)
      (observations : db'.observations = db.observations) (outcomes : db'.outcomes = db.outcomes)
  | finalized (evaluated : db.row.importState = .evaluated) (state : db'.row.importState = .finalized)
      (observations : db'.observations = db.observations)
      (outcomes : ∃ event, db'.outcomes = if db.configured then db.outcomes ++ [event] else db.outcomes)
  | rejected (running : terminalImport db.row.importState = false) (state : db'.row.importState = .rejected)
      (decided : db.row.importState = .pending ∨ ∃ reason detail, executor = .rejecting reason detail)
      (observations : db'.observations = db.observations)
      (outcomes : ∃ event, db'.outcomes = if db.configured then db.outcomes ++ [event] else db.outcomes)

structure Turned (db db' : ImportDb) (executor : Executor) : Prop where
  configured : db'.configured = db.configured
  linked : Linked db db'
  progress : Progress db db' executor

theorem Turned.still (db : ImportDb) (executor : Executor) : Turned db db executor :=
  ⟨rfl,.kept rfl rfl,.kept rfl rfl rfl⟩

section
variable {db db' : ImportDb} {answer : Answer} {executor : Executor}

theorem claimTurned (db : ImportDb) : Turned db (claim db) executor := by
  unfold claim
  split
  · exact .still db executor
  · rename_i running
    refine ⟨rfl,?_,.kept ?_ rfl rfl⟩
    · cases link : db.row.scraperRun with
      | none => exact .created link (by simp [claimRun,running,link]) (by simp)
      | some pk => exact .kept (by simp [claimRun,running,link]) (by simp)
    · simp [claimRun,running]

theorem observeTurned {batch : Fetched} (ok : observe batch answer db = .ok db') : Turned db db' executor := by
  obtain ⟨run,moved,done⟩ := bindOk.mp ok
  obtain ⟨pending,rfl⟩ := observeRunOk moved
  cases Except.ok.inj done
  exact ⟨rfl,.kept rfl rfl,.observed batch pending rfl rfl rfl⟩

theorem absenceTurned {read : ImportRow} (ok : applyAbsence read answer db = .ok db') :
    Turned db db' executor := by
  obtain ⟨run,moved,done⟩ := bindOk.mp ok
  obtain ⟨here,rfl⟩ := advanceRunOk moved
  cases Except.ok.inj done
  exact ⟨rfl,.kept rfl rfl,.advanced (here ▸ .absence) (by simp [here]) rfl rfl rfl⟩

theorem resolveTurned (ok : resolveListings answer db = .ok db') : Turned db db' executor := by
  obtain ⟨run,moved,done⟩ := bindOk.mp ok
  obtain ⟨here,rfl⟩ := advanceRunOk moved
  cases Except.ok.inj done
  exact ⟨rfl,.kept rfl rfl,.advanced (here ▸ .resolved) (by simp [here]) rfl rfl rfl⟩

theorem evaluateTurned (ok : evaluateListings answer db = .ok db') : Turned db db' executor := by
  obtain ⟨run,moved,done⟩ := bindOk.mp ok
  obtain ⟨here,rfl⟩ := advanceRunOk moved
  cases Except.ok.inj done
  exact ⟨rfl,.kept rfl rfl,.advanced (here ▸ .evaluated) (by simp [here]) rfl rfl rfl⟩

theorem outcomeKeeps (event : LifecycleEvent) (db : ImportDb) :
    (applyOutcome event db).row = db.row ∧ (applyOutcome event db).configured = db.configured ∧
    (applyOutcome event db).scraperRuns = db.scraperRuns ∧
    (applyOutcome event db).observations = db.observations ∧
    (applyOutcome event db).outcomes = if db.configured then db.outcomes ++ [event] else db.outcomes := by
  unfold applyOutcome
  split
  · exact ⟨rfl,rfl,rfl,rfl,rfl⟩
  · exact ⟨rfl,rfl,rfl,rfl,rfl⟩

theorem finalizeTurned (ok : finalize answer db = .ok db') : Turned db db' executor := by
  obtain ⟨run,moved,done⟩ := bindOk.mp ok
  obtain ⟨here,rfl⟩ := finalizeRunOk moved
  split at done
  · cases done
  rename_i pk link
  cases Except.ok.inj done
  obtain ⟨state,scraper⟩ := stampImport { db.row.toProviderRun with importState := .finalized } answer.now
  obtain ⟨_,configured,rows,observations,outcomes⟩ := outcomeKeeps (finalEvent db.row)
    { db with scraperRuns := db.scraperRuns.modify pk (successRun db.row.stageDetail answer.now) }
  exact ⟨configured,.kept scraper (by simp [rows]),.finalized here state observations ⟨_,outcomes⟩⟩

theorem rejectTurned {onlyFrom : Option ImportState} {reason : RejectReason} {detail : String} {now : Int}
    (allowed : onlyFrom = some .pending ∨ ∃ reason detail, executor = .rejecting reason detail) :
    Turned db (reject onlyFrom reason detail now db) executor := by
  unfold reject
  split
  · exact .still db executor
  · rename_i run rejects
    obtain ⟨running,only,made⟩ := rejectRunSome rejects
    have state : run.importState = .rejected := made ▸ (stampImport _ now).1
    have scraper : run.scraperRun = db.row.scraperRun := made ▸ (stampImport _ now).2
    have decided : db.row.importState = .pending ∨ ∃ reason detail, executor = .rejecting reason detail :=
      allowed.imp_left fun from_ => only .pending from_
    have rows : (closeRejected reason detail now run db).scraperRuns.length = db.scraperRuns.length := by
      simp only [closeRejected]
      split
      · rfl
      · exact List.length_modify _ _ _
    have closed := fun event => outcomeKeeps event (closeRejected reason detail now run db)
    simp only
    split
    · obtain ⟨row,configured,scrapers,observations,outcomes⟩ := closed reason.failureClass.event
      exact ⟨configured,.kept ((congrArg (·.scraperRun) row).trans scraper)
        ((congrArg List.length scrapers).trans rows),
        .rejected running ((congrArg (·.importState) row).trans state) decided observations ⟨_,outcomes⟩⟩
    · obtain ⟨row,configured,scrapers,observations,outcomes⟩ := closed .probeFailure
      exact ⟨configured,.kept ((congrArg (·.scraperRun) row).trans scraper)
        ((congrArg List.length scrapers).trans rows),
        .rejected running ((congrArg (·.importState) row).trans state) decided observations ⟨_,outcomes⟩⟩

theorem stageTurned {stage : Except Halt ImportDb} (each : ∀ db', stage = .ok db' → Turned db db' executor) :
    Turned db (stageTurn db answer stage).1 executor := by
  unfold stageTurn
  split
  · exact .still db executor
  · split
    · exact each _ rfl
    · exact .still db executor

theorem turnTurned (caps : ReadCaps) (db : ImportDb) (answer : Answer) (executor : Executor) :
    Turned db (turn caps db answer executor).1 executor := by
  cases executor with
  | claiming => exact claimTurned db
  | counting =>
    simp only [turn]
    split
    · rename_i run counted
      obtain ⟨_,_,_,rfl⟩ := countReadsOk counted
      exact ⟨rfl,.kept rfl rfl,.kept rfl rfl rfl⟩
    · exact .still db _
  | fetching =>
    simp only [turn]
    split
    · exact .still db _
    · exact ⟨rfl,.kept rfl rfl,.kept rfl rfl rfl⟩
  | observing batch => exact stageTurned fun _ => observeTurned
  | absence row => exact stageTurned fun _ => absenceTurned
  | stage3 => exact stageTurned fun _ => resolveTurned
  | stage4 => exact stageTurned fun _ => evaluateTurned
  | stage5 => exact stageTurned fun _ => finalizeTurned
  | rejecting reason detail => exact rejectTurned (.inr ⟨reason,detail,rfl⟩)
  | overdueRejecting => exact rejectTurned (.inl rfl)
  | exhausted => exact ⟨rfl,.kept rfl rfl,.kept rfl rfl rfl⟩
  | blocked => exact ⟨rfl,.kept rfl rfl,.kept rfl rfl rfl⟩
  | begun | reading | stage1 | judging | stage2 | overdue | stopped => exact .still db _
end

structure ImportDb.Single (db : ImportDb) : Prop where
  scraperRuns : db.scraperRuns.length = if db.row.scraperRun.isSome then 1 else 0
  outcomes : db.outcomes.length = if db.configured && terminalImport db.row.importState then 1 else 0
  observed : db.row.importState ≠ .rejected →
    db.observations.length = if db.row.importState = .pending then 0 else 1
  most : db.observations.length ≤ 1

structure Onward (m t : Importing) : Prop where
  forward : Relation.ReflTransGen NextImport m.db.row.importState t.db.row.importState
  settled : terminalImport m.db.row.importState = true →
    t.db.row.importState = m.db.row.importState ∧ t.db.outcomes = m.db.outcomes

structure ImportDb.Once (db : ImportDb) : Prop extends db.Single where
  unpersisted : db.row.importState = .rejected → db.observations = []

structure AppliedOnce (m t : Importing) : Prop extends Onward m t where
  uncommitted : t.db.row.importState = .rejected →
    m.db.row.importState = .pending ∨ m.db.row.importState = .rejected

def Importing.timely (s : Importing) : ImportAct → Bool
  | .turned i _ => match s.executors[i]? with
    | some (.rejecting _ _) => s.db.row.importState == .pending || terminalImport s.db.row.importState
    | _ => true
  | _ => true

def Executor.foundPending : Executor → Bool
  | .stage1 _ | .counting | .fetching | .judging _ | .observing _ | .rejecting _ _ => true
  | _ => false

def Importing.foundPending (s : Importing) : List Nat :=
  (List.range s.executors.length).filter fun i => s.executors[i]?.any (·.foundPending)

def commitsStage1 (s t : Importing) : Bool :=
  s.db.row.importState == .pending && t.db.row.importState == .observationsCommitted

structure Overseen where
  importing : Importing
  overtaken : List Nat := []

def Overseen.step (caps : ReadCaps) (x : Overseen) (act : ImportAct) : Overseen :=
  let t := x.importing.step caps act
  ⟨t,if commitsStage1 x.importing t then x.overtaken ++ t.foundPending else x.overtaken⟩

def Overseen.ordered (x : Overseen) : ImportAct → Bool
  | .turned i _ => match x.importing.executors[i]? with
    | some (.rejecting _ _) => !x.overtaken.contains i || terminalImport x.importing.db.row.importState
    | _ => true
  | _ => true

def WatchedStep (caps : ReadCaps) (x : Overseen) (act : ImportAct) (y : Overseen) : Prop :=
  act.allowed ∧ y = x.step caps act

def OrderedStep (caps : ReadCaps) (x : Overseen) (act : ImportAct) (y : Overseen) : Prop :=
  x.ordered act = true ∧ WatchedStep caps x act y

def Importing.lone (s : Importing) : ImportAct → Bool
  | .spawned _ => s.executors.all (· == .stopped)
  | _ => true

def LoneStep (caps : ReadCaps) (s : Importing) (act : ImportAct) (t : Importing) : Prop :=
  s.lone act = true ∧ ImportStep caps s act t

structure Importing.Fresh (s : Importing) : Prop where
  pending : s.db.row.importState = .pending
  unlinked : s.db.row.scraperRun = none
  empty : s.db.scraperRuns = [] ∧ s.db.outcomes = [] ∧ s.db.observations = []
  idle : s.executors = []

section
variable {caps : ReadCaps} {s m t : Importing} {act : ImportAct}

theorem freshOnce (fresh : s.Fresh) : s.db.Once := by
  obtain ⟨scraperRuns,outcomes,observations⟩ := fresh.empty
  exact ⟨⟨by simp [scraperRuns,fresh.unlinked],by simp [outcomes,fresh.pending,terminalImport],
    fun _ => by simp [observations,fresh.pending],by simp [observations]⟩,fun _ => observations⟩

theorem stepTurned (step : ImportStep caps s act t) : t.db = s.db ∨
    ∃ i answer executor, act = .turned i answer ∧ s.executors[i]? = some executor ∧
      t.db = (turn caps s.db answer executor).1 ∧ Turned s.db t.db executor := by
  obtain ⟨_,rfl⟩ := step
  cases act with
  | spawned first => exact .inl rfl
  | lost i => exact .inl rfl
  | turned i answer =>
    simp only [Importing.step]
    split
    · exact .inl rfl
    · rename_i executor here
      exact .inr ⟨i,answer,executor,rfl,here,rfl,turnTurned caps s.db answer executor⟩

theorem timelyRejecting {i : Nat} {answer : Answer} {executor : Executor} (timely : s.timely (.turned i answer) = true)
    (here : s.executors[i]? = some executor) (running : terminalImport s.db.row.importState = false)
    (decided : s.db.row.importState = .pending ∨ ∃ reason detail, executor = .rejecting reason detail) :
    s.db.row.importState = .pending := by
  rcases decided with pending | ⟨reason,detail,rfl⟩
  · exact pending
  · simpa [Importing.timely,here,running] using timely

theorem linkedOnce {db db' : ImportDb} (linked : Linked db db')
    (once : db.scraperRuns.length = if db.row.scraperRun.isSome then 1 else 0) :
    db'.scraperRuns.length = if db'.row.scraperRun.isSome then 1 else 0 := by
  cases linked with
  | kept link rows => rw [rows,once,link]
  | created unlinked link rows =>
    rw [rows,once,unlinked]
    simp [Option.isSome_iff_ne_none.mpr link]

theorem nextPending {state : ImportState} : ¬NextImport state .pending := nofun

theorem pendingFirst {state : ImportState} (path : Relation.ReflTransGen NextImport state .pending) :
    state = .pending := by
  rcases Relation.ReflTransGen.cases_tail path with same | ⟨_,_,next⟩
  · exact same.symm
  · exact absurd next nextPending

theorem Onward.refl (s : Importing) : Onward s s := ⟨.refl,fun _ => ⟨rfl,rfl⟩⟩

theorem Onward.same (same : t.db = s.db) : Onward s t := by
  refine ⟨?_,fun _ => ?_⟩
  · rw [same]
  · rw [same]; exact ⟨rfl,rfl⟩

theorem Onward.trans {u : Importing} (first : Onward s t) (second : Onward t u) : Onward s u := by
  refine ⟨first.forward.trans second.forward,fun terminal => ?_⟩
  obtain ⟨state,outcomes⟩ := first.settled terminal
  obtain ⟨state',outcomes'⟩ := second.settled (state ▸ terminal)
  exact ⟨state'.trans state,outcomes'.trans outcomes⟩

theorem AppliedOnce.refl (s : Importing) : AppliedOnce s s := ⟨.refl s,fun rejected => .inr rejected⟩

theorem AppliedOnce.trans {u : Importing} (first : AppliedOnce s t) (second : AppliedOnce t u) : AppliedOnce s u := by
  refine ⟨first.toOnward.trans second.toOnward,fun rejected => ?_⟩
  rcases second.uncommitted rejected with pending | already
  · exact .inl (pendingFirst (pending ▸ first.forward))
  · exact first.uncommitted already

theorem terminalStays {a b : ImportState} (ended : terminalImport a = true)
    (path : Relation.ReflTransGen NextImport a b) :
    a = b := by
  rcases Relation.ReflTransGen.cases_head path with same | ⟨_,next,_⟩
  · exact same
  · rw [nextRunning next] at ended; cases ended

theorem turnedForward {db db' : ImportDb} {executor : Executor} (turned : Turned db db' executor) :
    Relation.ReflTransGen NextImport db.row.importState db'.row.importState := by
  cases turned.progress with
  | kept state => rw [state]
  | observed batch pending state => rw [pending,state]; exact .single .observed
  | advanced next => exact .single next
  | finalized evaluated state => rw [evaluated,state]; exact .single .finalized
  | rejected running state => rw [state]; exact .single (.rejected running)

theorem stepForward (step : ImportStep caps s act t) :
    Relation.ReflTransGen NextImport s.db.row.importState t.db.row.importState := by
  rcases stepTurned step with same | ⟨_,_,_,_,_,_,turned⟩
  · rw [same]
  · exact turnedForward turned

theorem unrejected {state : ImportState} (running : terminalImport state = false) : state ≠ .rejected := by
  rintro rfl
  cases running

theorem turnedSingle {db db' : ImportDb} {executor : Executor} (single : db.Single) (turned : Turned db db' executor) :
    db'.Single := by
  have scraperRuns := linkedOnce turned.linked single.scraperRuns
  have outcomes := single.outcomes
  rw [← turned.configured] at outcomes
  cases turned.progress with
  | kept state kept same =>
    rw [← state,← same] at outcomes
    refine ⟨scraperRuns,outcomes,fun open_ => ?_,kept ▸ single.most⟩
    rw [kept,state]
    exact single.observed (state ▸ open_)
  | observed batch pending state appended same =>
    have none : db.observations.length = 0 := by simpa [pending] using single.observed (by simp [pending])
    refine ⟨scraperRuns,?_,fun _ => by simp [appended,state,none],by simp [appended,none]⟩
    simpa [same,state,pending,terminalImport] using outcomes
  | advanced next past running kept same =>
    have before := nextRunning next
    refine ⟨scraperRuns,?_,fun _ => ?_,kept ▸ single.most⟩
    · simpa [same,before,running] using outcomes
    · have unpended : db'.row.importState ≠ .pending := fun pending => nextPending (pending ▸ next)
      rw [kept,single.observed (unrejected before),if_neg past,if_neg unpended]
  | finalized evaluated state kept same =>
    obtain ⟨event,same⟩ := same
    refine ⟨scraperRuns,?_,fun _ => ?_,kept ▸ single.most⟩
    · rw [turned.configured] at outcomes ⊢
      rw [same,state]
      cases configured : db.configured <;> simp_all [terminalImport]
    · simpa [kept,state,evaluated] using single.observed (by simp [evaluated])
  | rejected running state decided kept same =>
    obtain ⟨event,same⟩ := same
    refine ⟨scraperRuns,?_,fun open_ => absurd state open_,kept ▸ single.most⟩
    rw [turned.configured] at outcomes ⊢
    rw [same,state]
    cases configured : db.configured <;> simp_all [terminalImport]

theorem turnedOutcomes {db db' : ImportDb} {executor : Executor} (turned : Turned db db' executor)
    (ended : terminalImport db.row.importState = true) : db'.outcomes = db.outcomes := by
  cases turned.progress with
  | kept _ _ same => exact same
  | observed _ pending => simp [pending,terminalImport] at ended
  | advanced next => simp [nextRunning next] at ended
  | finalized evaluated => simp [evaluated,terminalImport] at ended
  | rejected running => simp [running] at ended

theorem stepOnward (single : s.db.Single) (step : ImportStep caps s act t) : t.db.Single ∧ Onward s t := by
  rcases stepTurned step with same | ⟨_,_,executor,_,_,_,turned⟩
  · exact ⟨same ▸ single,.same same⟩
  · refine ⟨turnedSingle single turned,turnedForward turned,fun ended => ⟨?_,turnedOutcomes turned ended⟩⟩
    exact (terminalStays ended (turnedForward turned)).symm

theorem timelyApplied (once : s.db.Once) (timely : s.timely act = true) (step : ImportStep caps s act t) :
    t.db.Once ∧ AppliedOnce s t := by
  obtain ⟨single,onward⟩ := stepOnward once.toSingle step
  suffices late : t.db.row.importState = .rejected →
      t.db.observations = [] ∧ (s.db.row.importState = .pending ∨ s.db.row.importState = .rejected) from
    ⟨⟨single,fun rejected => (late rejected).1⟩,onward,fun rejected => (late rejected).2⟩
  intro rejected
  rcases stepTurned step with same | ⟨i,answer,executor,rfl,here,_,turned⟩
  · rw [same] at rejected ⊢
    exact ⟨once.unpersisted rejected,.inr rejected⟩
  cases turned.progress with
  | kept state kept same =>
    rw [state] at rejected
    exact ⟨kept ▸ once.unpersisted rejected,.inr rejected⟩
  | observed batch pending state => simp [state] at rejected
  | advanced next past running => simp [rejected,terminalImport] at running
  | finalized evaluated state => simp [state] at rejected
  | rejected running state decided kept =>
    have pending := timelyRejecting timely here running decided
    refine ⟨kept ▸ List.eq_nil_of_length_eq_zero ?_,.inl pending⟩
    simpa [pending] using once.observed (unrejected running)

theorem rejectsRunning {db : ImportDb} (running : terminalImport db.row.importState = false)
    (reason : RejectReason) (detail : String) (now : Int) :
    (reject none reason detail now db).row.importState = .rejected := by
  have rejects : rejectRun none now db.row.toProviderRun =
      some (stampWorkCompletion { db.row.toProviderRun with importState := .rejected } now) := by
    simp [rejectRun,running]
  generalize made : stampWorkCompletion { db.row.toProviderRun with importState := .rejected } now = run at rejects
  have state : run.importState = .rejected := made ▸ (stampImport _ now).1
  have closed := fun event => (outcomeKeeps event (closeRejected reason detail now run db)).1
  simp only [reject,rejects]
  split
  · exact (congrArg (·.importState) (closed _)).trans state
  · exact (congrArg (·.importState) (closed _)).trans state

theorem untimelyBreaks (step : ImportStep caps s act t) (late : s.timely act = false) : ¬AppliedOnce s t := by
  intro applied
  obtain ⟨_,rfl⟩ := step
  cases act with
  | spawned | lost => simp [Importing.timely] at late
  | turned i answer =>
    simp only [Importing.timely] at late
    split at late
    · rename_i reason detail here
      rw [Bool.or_eq_false_iff,beq_eq_false_iff_ne] at late
      obtain ⟨committed,running⟩ := late
      have rejected : (s.step caps (.turned i answer)).db.row.importState = .rejected := by
        simp only [Importing.step,here,turn]
        exact rejectsRunning running reason detail answer.now
      rcases applied.uncommitted rejected with pending | already
      · exact committed pending
      · rw [already] at running; contradiction
    · cases late

structure Overseen.Seen (x : Overseen) : Prop where
  found : ∀ i executor, x.importing.executors[i]? = some executor → executor.foundPending = true →
    i ∈ x.overtaken ∨ x.importing.db.row.importState = .pending ∨ terminalImport x.importing.db.row.importState = true
  past : ∀ i ∈ x.overtaken, x.importing.db.row.importState ≠ .pending

theorem lockMoved {expected : ImportState} {row : ProviderRun} {halt : Halt}
    (error : lockAt expected row = .error halt) :
    halt = .stateMoved := by
  unfold lockAt at error
  split at error
  · cases error
  · exact (Except.error.inj error).symm

theorem bindHalts {α β : Type} {x : Except Halt α} {f : α → Except Halt β} {halt : Halt}
    (error : (x >>= f) = .error halt) :
    x = .error halt ∨ ∃ a, x = .ok a ∧ f a = .error halt := by
  cases x with
  | ok a => exact .inr ⟨a,rfl,error⟩
  | error e => exact .inl (congrArg Except.error (Except.error.inj error))

theorem advanceMoved {expected dest : ImportState} {row : ProviderRun} {halt : Halt}
    (error : advanceRun expected dest row = .error halt) : halt = .stateMoved := by
  rcases bindHalts error with locked | ⟨_,_,done⟩
  · exact lockMoved locked
  · cases done

theorem finalizeMoved {db : ImportDb} {answer : Answer} {halt : Halt} (error : finalize answer db = .error halt) :
    halt = .stateMoved := by
  rcases bindHalts error with moved | ⟨_,_,done⟩
  · rcases bindHalts moved with locked | ⟨_,_,done⟩
    · exact lockMoved locked
    · cases done
  · split at done
    · exact (Except.error.inj done).symm
    · cases done

theorem stageReleases {db : ImportDb} {answer : Answer} {stage : Except Halt ImportDb}
    (moved : ∀ halt, stage = .error halt → halt = .stateMoved) :
    (stageTurn db answer stage).2.foundPending = false := by
  unfold stageTurn
  split
  · rfl
  · split
    · rfl
    · rw [moved _ rfl]; rfl

theorem observeFound {db : ImportDb} {answer : Answer} {stage : Except Halt ImportDb}
    (found : (stageTurn db answer stage).2.foundPending = true) : (stageTurn db answer stage).1 = db := by
  unfold stageTurn at found ⊢
  split
  · rfl
  · rename_i running
    rw [if_neg running] at found
    split at found
    · cases found
    · rfl

theorem turnFound {db : ImportDb} {answer : Answer} {executor : Executor}
    (found : (turn caps db answer executor).2.foundPending = true) :
    (turn caps db answer executor).1.row.importState = db.row.importState ∧
      (executor.foundPending = true ∨ db.row.importState = .pending) := by
  cases executor with
  | stage1 | judging => exact ⟨rfl,.inl rfl⟩
  | counting =>
    refine ⟨?_,.inl rfl⟩
    simp only [turn]
    split
    · rename_i run counted
      obtain ⟨_,_,_,rfl⟩ := countReadsOk counted
      rfl
    · rfl
  | fetching =>
    refine ⟨?_,.inl rfl⟩
    simp only [turn]
    split <;> rfl
  | observing batch => exact ⟨congrArg (·.row.importState) (observeFound found),.inl rfl⟩
  | reading =>
    refine ⟨rfl,.inr ?_⟩
    simp only [turn,unitOf] at found
    split at found
    all_goals first | assumption | cases found
  | begun =>
    simp only [turn] at found
    split at found <;> cases found
  | overdue =>
    simp only [turn] at found
    split at found <;> cases found
  | absence row =>
    have released := @stageReleases db answer (applyAbsence row answer db) fun halt error => by
      rcases bindHalts error with moved | ⟨_,_,done⟩
      · exact advanceMoved moved
      · cases done
    exact absurd found (Bool.eq_false_iff.mp released)
  | stage3 =>
    have released := @stageReleases db { answer with exhausted := false } (resolveListings answer db)
      fun halt error => by
      rcases bindHalts error with moved | ⟨_,_,done⟩
      · exact advanceMoved moved
      · cases done
    exact absurd found (Bool.eq_false_iff.mp released)
  | stage4 =>
    have released := @stageReleases db { answer with exhausted := false } (evaluateListings answer db)
      fun halt error => by
      rcases bindHalts error with moved | ⟨_,_,done⟩
      · exact advanceMoved moved
      · cases done
    exact absurd found (Bool.eq_false_iff.mp released)
  | stage5 => exact absurd found (Bool.eq_false_iff.mp (stageReleases fun _ => finalizeMoved))
  | claiming | stage2 | rejecting | exhausted | blocked | overdueRejecting | stopped => cases found

theorem stepFound {i : Nat} {executor : Executor} (step : ImportStep caps s act t)
    (here : t.executors[i]? = some executor) (found : executor.foundPending = true) :
    (∃ before, s.executors[i]? = some before ∧ before.foundPending = true) ∨ s.db.row.importState = .pending := by
  obtain ⟨allowed,rfl⟩ := step
  cases act with
  | spawned first =>
    simp only [Importing.step,List.getElem?_append] at here
    split at here
    · exact .inl ⟨executor,here,found⟩
    · obtain ⟨_,rfl⟩ := List.getElem?_eq_some_iff.mp here
      simp only [List.getElem_singleton] at found
      rcases allowed with rfl | rfl <;> cases found
  | lost j =>
    simp only [Importing.step,List.getElem?_modify] at here
    obtain ⟨before,there,rfl⟩ := Option.map_eq_some_iff.mp here
    by_cases same : j = i
    · rw [if_pos same] at found; cases found
    · rw [if_neg same] at found; exact .inl ⟨before,there,found⟩
  | turned j answer =>
    simp only [Importing.step] at here
    split at here
    · exact .inl ⟨executor,here,found⟩
    · rename_i before there
      by_cases same : j = i
      · subst same
        obtain ⟨inside,rfl⟩ := List.getElem?_eq_some_iff.mp here
        rw [List.getElem_set_self] at found
        exact (turnFound found).2.imp_left fun old => ⟨before,there,old⟩
      · rw [List.getElem?_set_ne same] at here
        exact .inl ⟨executor,here,found⟩

theorem pendingStays (step : ImportStep caps s act t) (pending : s.db.row.importState = .pending)
    (uncommitted : commitsStage1 s t = false) :
    t.db.row.importState = .pending ∨ terminalImport t.db.row.importState = true := by
  rcases stepTurned step with same | ⟨_,_,_,_,_,_,turned⟩
  · exact .inl (same ▸ pending)
  cases turned.progress with
  | kept state => exact .inl (state.trans pending)
  | observed batch _ state => simp [commitsStage1,pending,state] at uncommitted
  | advanced next past => exact absurd pending past
  | finalized evaluated => rw [pending] at evaluated; cases evaluated
  | rejected running state => exact .inr (by rw [state]; rfl)

theorem watchedImport {x y : Overseen} (step : WatchedStep caps x act y) :
    ImportStep caps x.importing act y.importing := by
  obtain ⟨allowed,rfl⟩ := step
  exact ⟨allowed,rfl⟩

theorem seenStep {x y : Overseen} (seen : x.Seen) (step : WatchedStep caps x act y) : y.Seen := by
  obtain ⟨allowed,rfl⟩ := step
  have step : ImportStep caps x.importing act (x.importing.step caps act) := ⟨allowed,rfl⟩
  have forward := stepForward step
  by_cases commits : commitsStage1 x.importing (x.importing.step caps act) = true
  · simp only [Overseen.step,if_pos commits]
    have committed : (x.importing.step caps act).db.row.importState = .observationsCommitted :=
      beq_iff_eq.mp (Bool.and_eq_true_iff.mp commits).2
    refine ⟨fun i executor here found => .inl (List.mem_append_right _ ?_),fun _ _ pending => ?_⟩
    · have inside := (List.getElem?_eq_some_iff.mp here).1
      exact List.mem_filter.mpr ⟨List.mem_range.mpr inside,by simp [here,found]⟩
    · rw [committed] at pending; cases pending
  · simp only [Overseen.step,if_neg commits]
    refine ⟨fun i executor here found => ?_,fun i mem pending => seen.past i mem (pendingFirst (pending ▸ forward))⟩
    have before : i ∈ x.overtaken ∨ x.importing.db.row.importState = .pending ∨
        terminalImport x.importing.db.row.importState = true := by
      rcases stepFound step here found with ⟨old,there,held⟩ | pending
      · exact seen.found i old there held
      · exact .inr (.inl pending)
    rcases before with gone | pending | ended
    · exact .inl gone
    · exact .inr (pendingStays step pending (Bool.eq_false_iff.mpr commits))
    · exact .inr (.inr (terminalStays ended forward ▸ ended))

theorem orderedTimely {x : Overseen} (seen : x.Seen) : x.ordered act = x.importing.timely act := by
  cases act with
  | spawned | lost => rfl
  | turned i answer =>
    simp only [Overseen.ordered,Importing.timely]
    split
    · rename_i reason detail here
      cases ended : terminalImport x.importing.db.row.importState with
      | true => simp
      | false =>
        by_cases gone : i ∈ x.overtaken
        · have past := seen.past i gone
          simp [gone,past]
        · have pending : x.importing.db.row.importState = .pending := by
            rcases seen.found i _ here rfl with passed | pending | terminal
            · exact absurd passed gone
            · exact pending
            · rw [ended] at terminal; cases terminal
          simp [gone,pending]
    · rfl

def Importing.Solo (s : Importing) : Prop :=
  ∀ {i j : Nat} {a b : Executor}, s.executors[i]? = some a → s.executors[j]? = some b →
    a ≠ .stopped → b ≠ .stopped → i = j

theorem soloBefore {i : Nat} {executor : Executor} (step : LoneStep caps s act t)
    (here : t.executors[i]? = some executor) (working : executor ≠ .stopped) :
    (∃ before, s.executors[i]? = some before ∧ before ≠ .stopped) ∨
      i = s.executors.length ∧ ∀ before ∈ s.executors, before = .stopped := by
  obtain ⟨alone,_,rfl⟩ := step
  cases act with
  | spawned first =>
    have idle : ∀ before ∈ s.executors, before = .stopped := by simpa [Importing.lone] using alone
    simp only [Importing.step,List.getElem?_append] at here
    split at here
    · exact .inl ⟨executor,here,working⟩
    · have inside := (List.getElem?_eq_some_iff.mp here).1
      rw [List.length_singleton] at inside
      exact .inr ⟨by omega,idle⟩
  | lost j =>
    simp only [Importing.step,List.getElem?_modify] at here
    obtain ⟨before,there,rfl⟩ := Option.map_eq_some_iff.mp here
    by_cases same : j = i
    · rw [if_pos same] at working; exact absurd rfl working
    · rw [if_neg same] at working; exact .inl ⟨before,there,working⟩
  | turned j answer =>
    simp only [Importing.step] at here
    split at here
    · exact .inl ⟨executor,here,working⟩
    · rename_i before there
      by_cases same : j = i
      · subst same
        obtain ⟨inside,rfl⟩ := List.getElem?_eq_some_iff.mp here
        rw [List.getElem_set_self] at working
        refine .inl ⟨before,there,?_⟩
        rintro rfl
        exact working rfl
      · rw [List.getElem?_set_ne same] at here
        exact .inl ⟨executor,here,working⟩

theorem soloStep (solo : s.Solo) (step : LoneStep caps s act t) : t.Solo := by
  intro i j a b atI atJ workingA workingB
  rcases soloBefore step atI workingA with ⟨a',hereA,stillA⟩ | ⟨lastA,idle⟩
  · rcases soloBefore step atJ workingB with ⟨b',hereB,stillB⟩ | ⟨_,idle⟩
    · exact solo hereA hereB stillA stillB
    · exact absurd (idle a' (List.mem_of_getElem? hereA)) stillA
  · rcases soloBefore step atJ workingB with ⟨b',hereB,stillB⟩ | ⟨lastB,_⟩
    · exact absurd (idle b' (List.mem_of_getElem? hereB)) stillB
    · exact lastA.trans lastB.symm

theorem soloCommits (solo : s.Solo) (step : ImportStep caps s act t) (commits : commitsStage1 s t = true) :
    t.foundPending = [] := by
  have pending : s.db.row.importState = .pending := beq_iff_eq.mp (Bool.and_eq_true_iff.mp commits).1
  have committed : t.db.row.importState = .observationsCommitted := beq_iff_eq.mp (Bool.and_eq_true_iff.mp commits).2
  have moved : t.db.row.importState ≠ s.db.row.importState := by rw [pending,committed]; decide
  rcases stepTurned step with same | ⟨i,answer,executor,rfl,here,done,_⟩
  · exact absurd (by rw [same]) moved
  have working : executor ≠ .stopped := by
    rintro rfl
    exact moved (by rw [done]; rfl)
  refine List.filter_eq_nil_iff.mpr fun j _ found => ?_
  obtain ⟨other,there,held⟩ := (Option.any_eq_true _ _).mp found
  obtain ⟨_,rfl⟩ := step
  simp only [Importing.step,here] at there moved
  by_cases same : i = j
  · subst same
    obtain ⟨_,rfl⟩ := List.getElem?_eq_some_iff.mp there
    rw [List.getElem_set_self] at held
    exact moved (turnFound held).1
  · rw [List.getElem?_set_ne same] at there
    exact same (solo here there working (by rintro rfl; cases held))

theorem loneOrdered (solo : s.Solo) (step : LoneStep caps s act t) : OrderedStep caps ⟨s,[]⟩ act ⟨t,[]⟩ := by
  obtain ⟨_,allowed,rfl⟩ := step
  refine ⟨?_,allowed,?_⟩
  · cases act with
    | spawned | lost => rfl
    | turned i answer =>
      simp only [Overseen.ordered]
      split <;> rfl
  · simp only [Overseen.step]
    split
    · rename_i commits
      rw [soloCommits solo ⟨allowed,rfl⟩ commits]
      rfl
    · rfl

theorem loneRun {acts : List ImportAct} (solo : s.Solo) (run : Runs (LoneStep caps) s acts t) :
    Runs (OrderedStep caps) ⟨s,[]⟩ acts ⟨t,[]⟩ := by
  induction run with
  | nil s => exact .nil _
  | cons head tail ih => exact .cons (loneOrdered solo head) (ih (soloStep solo head))

theorem orderedApplied {x y : Overseen} (inv : x.Seen ∧ x.importing.db.Once) (step : OrderedStep caps x act y) :
    (y.Seen ∧ y.importing.db.Once) ∧ AppliedOnce x.importing y.importing := by
  obtain ⟨ordered,step⟩ := step
  have timely : x.importing.timely act := orderedTimely inv.1 ▸ ordered
  obtain ⟨once,applied⟩ := timelyApplied inv.2 timely (watchedImport step)
  exact ⟨⟨seenStep inv.1 step,once⟩,applied⟩
end

theorem importAppliedOnce {caps : ReadCaps} {s : Importing} (fresh : s.Fresh) :
    (∀ {first second m t}, Runs (ImportStep caps) s first m → Runs (ImportStep caps) m second t →
      t.db.Single ∧ Onward m t) ∧
    (∀ {acts x}, Runs (WatchedStep caps) ⟨s,[]⟩ acts x → ∀ {i reason detail},
      x.importing.executors[i]? = some (.rejecting reason detail) → i ∉ x.overtaken →
      x.importing.db.row.importState = .pending ∨ terminalImport x.importing.db.row.importState = true) ∧
    (∀ {first x}, Runs (OrderedStep caps) ⟨s,[]⟩ first x →
      (∀ {second y}, Runs (OrderedStep caps) x second y →
        y.importing.db.Once ∧ AppliedOnce x.importing y.importing) ∧
      ∀ {act y}, WatchedStep caps x act y →
        (y.importing.db.Once ∧ AppliedOnce x.importing y.importing ↔ x.ordered act = true)) ∧
    ∀ {acts t}, Runs (LoneStep caps) s acts t → Runs (OrderedStep caps) ⟨s,[]⟩ acts ⟨t,[]⟩ := by
  have seen : Overseen.Seen ⟨s,[]⟩ := ⟨fun i executor here => by simp [fresh.idle] at here,by simp⟩
  refine ⟨fun before after => ?_,fun run i reason detail here kept => ?_,fun before => ⟨fun after => ?_,fun step => ?_⟩,
    fun run => ?_⟩
  · have single := before.invariant (fun s => s.db.Single) (fun single step => (stepOnward single step).1)
      (freshOnce fresh).toSingle
    exact after.related (fun s => s.db.Single) Onward .refl Onward.trans stepOnward single
  · rcases (run.invariant Overseen.Seen seenStep seen).found i _ here rfl with passed | kept
    · contradiction
    · exact kept
  · have inv := before.invariant (fun x => x.Seen ∧ x.importing.db.Once) (fun inv step => (orderedApplied inv step).1)
      ⟨seen,freshOnce fresh⟩
    obtain ⟨last,applied⟩ := after.related (fun x => x.Seen ∧ x.importing.db.Once)
      (fun x y => AppliedOnce x.importing y.importing) (fun _ => .refl _) AppliedOnce.trans orderedApplied inv
    exact ⟨last.2,applied⟩
  · have inv := before.invariant (fun x => x.Seen ∧ x.importing.db.Once) (fun inv step => (orderedApplied inv step).1)
      ⟨seen,freshOnce fresh⟩
    constructor
    · intro applied
      by_contra late
      rw [orderedTimely inv.1] at late
      exact untimelyBreaks (watchedImport step) (Bool.eq_false_iff.mpr late) applied.2
    · intro ordered
      obtain ⟨last,applied⟩ := orderedApplied inv ⟨ordered,step⟩
      exact ⟨last.2,applied⟩
  · exact loneRun (fun here => by simp [fresh.idle] at here) run

def Importing.run (caps : ReadCaps) (s : Importing) (acts : List ImportAct) : Importing := acts.foldl (·.step caps) s

def Overseen.run (caps : ReadCaps) (x : Overseen) (acts : List ImportAct) : Overseen := acts.foldl (·.step caps) x

def allOrdered (caps : ReadCaps) : Overseen → List ImportAct → Bool
  | _,[] => true
  | x,act::acts => x.ordered act && allOrdered caps (x.step caps act) acts

theorem actsOrdered {caps : ReadCaps} {x : Overseen} {acts : List ImportAct} (begins : ∀ act ∈ acts, act.allowed)
    (ordered : allOrdered caps x acts = true) : Runs (OrderedStep caps) x acts (x.run caps acts) := by
  induction acts generalizing x with
  | nil => exact .nil x
  | cons act acts ih =>
    obtain ⟨here,rest⟩ := Bool.and_eq_true_iff.mp ordered
    exact .cons ⟨here,begins act List.mem_cons_self,rfl⟩
      (ih (fun act mem => begins act (List.mem_cons_of_mem _ mem)) rest)

theorem actsRun {caps : ReadCaps} {s : Importing} {acts : List ImportAct} (begins : ∀ act ∈ acts, act.allowed) :
    Runs (ImportStep caps) s acts (s.run caps acts) := by
  induction acts generalizing s with
  | nil => exact .nil s
  | cons act acts ih =>
    exact .cons ⟨begins act List.mem_cons_self,rfl⟩ (ih fun act mem => begins act (List.mem_cons_of_mem _ mem))

def racedCaps : ReadCaps := ⟨3,3⟩

def racedRow : ImportRow where
  sourceSite := 1
  scopeKey := "epyc"
  memoryMb := 512
  timeoutS := 300
  maxItems := 100
  maxPages := 5
  admissionClass := .discovery
  admittedAt := 0
  storageCleanupDueAt := hours 72
  externalRunId := some "run1"
  remoteStatus := some "SUCCEEDED"
  startedAt := some (seconds 5)
  datasetId := some "ds1"
  kvStoreId := some "kv1"
  runKind := .full

def racedStart : Importing := ⟨⟨racedRow,true,[],[],[],[],[]⟩,[]⟩

def racedAnswer : Answer where
  now := minutes 10
  fetched := some ⟨3,some 400,.complete,"",[11,12,13]⟩
  persisted := ⟨[11,12,13],3,3⟩

def counted (i : Nat) : List ImportAct := .spawned .begun :: List.replicate 5 (.turned i racedAnswer)

theorem countedAllowed (i : Nat) : ∀ act ∈ counted i, act.allowed := by
  intro act mem
  simp only [counted,List.mem_cons] at mem
  rcases mem with rfl | mem
  · exact .inl rfl
  · rw [(List.mem_replicate.mp mem).2]; trivial

def racedFirst : List ImportAct := counted 0 ++ counted 1

def racedSecond : List ImportAct := List.replicate 3 (.turned 0 racedAnswer) ++
  List.replicate 3 (.turned 1 racedAnswer) ++ List.replicate 10 (.turned 0 racedAnswer)

/-- Two lost reads, a third executor reading, and a fourth that finds the cap spent
and rejects only after the third has committed its observations. -/
def racedLate : List ImportAct := counted 0 ++ [.lost 0] ++ counted 1 ++ [.lost 1] ++ counted 2 ++ counted 3 ++
  List.replicate 3 (.turned 2 racedAnswer) ++ [.turned 3 racedAnswer]

theorem racedFresh : racedStart.Fresh := ⟨rfl,rfl,⟨rfl,rfl,rfl⟩,rfl⟩

def racedRead : Overseen := Overseen.run racedCaps ⟨racedStart,[]⟩ racedFirst
def racedEnd : Overseen := racedRead.run racedCaps racedSecond

theorem racedFinalized :
    racedEnd.importing.db.row.importState = .finalized ∧ racedEnd.overtaken = [1] ∧
    racedEnd.importing.db.Once ∧ AppliedOnce racedRead.importing racedEnd.importing := by
  have before : Runs (OrderedStep racedCaps) ⟨racedStart,[]⟩ racedFirst racedRead := by
    refine actsOrdered (fun act mem => ?_) (by decide +kernel)
    rcases List.mem_append.mp mem with mem | mem
    · exact countedAllowed 0 act mem
    · exact countedAllowed 1 act mem
  have after : Runs (OrderedStep racedCaps) racedRead racedSecond racedEnd := by
    refine actsOrdered (fun act mem => ?_) (by decide +kernel)
    simp only [racedSecond,List.mem_append,List.mem_replicate] at mem
    rcases mem with (⟨_,rfl⟩ | ⟨_,rfl⟩) | ⟨_,rfl⟩ <;> trivial
  exact ⟨by decide +kernel,by decide +kernel,((importAppliedOnce racedFresh).2.2.1 before).1 after⟩

theorem importRejectedCommitted : racedStart.Fresh ∧
    Runs (ImportStep racedCaps) racedStart racedLate (racedStart.run racedCaps racedLate) ∧
    (racedStart.run racedCaps racedLate).db.row.importState = .rejected ∧
    (racedStart.run racedCaps racedLate).db.observations ≠ [] := by
  refine ⟨racedFresh,actsRun fun act mem => ?_,by decide +kernel,by decide +kernel⟩
  simp only [racedLate,List.mem_append,List.mem_replicate,List.mem_singleton] at mem
  rcases mem with ((((((mem | rfl) | mem) | rfl) | mem) | mem) | ⟨_,rfl⟩) | rfl
  all_goals first | exact countedAllowed _ act mem | trivial

end HwRadar.Apify
