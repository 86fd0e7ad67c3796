import HwRadar.Scheduling.Jobs

/-! The trigger of each registered job against the interval of the lane that it serves, over whole
runs of jobs. A poll that moves its lane moves its trigger; what an import, a recovery
probe or a start moves is left to the next start of the process. -/
namespace HwRadar.Scheduling
open HwRadar.Base

def Synced (s : Service) : Prop :=
  ∀ key lane seconds, s.triggers key lane = some seconds → ∃ site, s.sites key = some site ∧
    seconds = site.interval lane

def probeOutcomes : List (String × PolledSite × Attempt) → Service → List (String × Call)
  | [],_ => []
  | (key,paused,a)::rest,s =>
    match visit paused a s key with
    | .skipped => probeOutcomes rest s
    | .raised => []
    | .applies c => (key,c)::match commit key c s with
      | none => []
      | some t => probeOutcomes rest t

def unattended (job : Job) (s : Service) : List (String × Call) :=
  match job with
  | .pollSource key a =>
    match s.sites key with
    | none => []
    | some site =>
      let backoffUntil := (site.source.lanes .full).backoffUntil
      if (checkAdmission site.enabled site.source.config.lifecycleState .full backoffUntil a.now a.tokens).isSome
      then []
      else if site.collectionProvider = .apify then ((a.start.call .full).map (key,·)).toList
      else []
  | .pollHeartbeat .. => []
  | .recoveryProbe attempts =>
    probeOutcomes (attempts.filterMap fun (key,a) => (s.paused key).map fun paused => (key,paused,a)) s
  | .apifyPoll settlements => settlements.map fun x => (x.key,x.call)

def applyAll : List (String × Call) → Service → Service
  | [],s => s
  | (key,c)::rest,s => applyAll rest ((commit key c s).getD s)

def moves (s : Source) (c : Call) : Bool :=
  let row := s.lanes c.lane
  if c.succeeds then
    autoRampCleanPolls ≤ row.cleanPolls + 1 && max (rampFloorS s.config c.lane) (row.currentIntervalS / 2) !=
      row.currentIntervalS
  else c.fails && row.currentIntervalS != s.config.cadenceBaselineS

def Still (s : Service) (key : String) (c : Call) : Prop :=
  ∀ site ∈ s.sites key, (s.triggers key c.lane).isSome = true → (applyRunOutcome c site.source).isSome = true →
    moves site.source c = false

def Quiet : List (String × Call) → Service → Prop
  | [],_ => True
  | (key,c)::rest,s => Still s key c ∧ Quiet rest ((commit key c s).getD s)

instance (s : Service) (key : String) (c : Call) : Decidable (Still s key c) :=
  inferInstanceAs (Decidable (∀ site ∈ s.sites key, _))

instance quietDecidable : (outcomes : List (String × Call)) → (s : Service) → Decidable (Quiet outcomes s)
  | [],_ => .isTrue trivial
  | (key,c)::rest,s => @instDecidableAnd _ _ _ (quietDecidable rest ((commit key c s).getD s))

theorem appliedInterval {s s' : Source} {c : Call} (step : Applied s c s') : (s'.lanes c.lane).currentIntervalS =
    if c.succeeds then
      (intervalAfterSuccess (s.lanes c.lane).currentIntervalS (rampFloorS s.config c.lane)
        (s.lanes c.lane).cleanPolls).1
    else if c.fails then s.config.cadenceBaselineS else (s.lanes c.lane).currentIntervalS := by
  obtain ⟨⟨config,row⟩,locked,rfl⟩ := Option.map_eq_some_iff.mp step
  simp only [Function.update_self]
  rw [applyLocked] at locked
  split at locked
  · rename_i succeeds
    cases locked
    rw [if_pos succeeds]
  · rename_i idle
    rw [if_neg idle]
    split at locked
    · rename_i fails
      obtain ⟨_,_,locked⟩ := Option.bind_eq_some_iff.mp locked
      obtain ⟨_,_,locked⟩ := Option.bind_eq_some_iff.mp locked
      obtain ⟨_,locked⟩ := Option.ite_none_right_eq_some.mp locked
      cases locked
      rw [if_pos fails]
    · rename_i calm
      cases locked
      rw [if_neg calm]

theorem movesIff {s s' : Source} {c : Call} (step : Applied s c s') :
    moves s c = false ↔ (s'.lanes c.lane).currentIntervalS = (s.lanes c.lane).currentIntervalS := by
  rw [appliedInterval step,moves]
  split
  · rw [intervalAfterSuccess]
    split
    · rename_i ramps
      simp [ramps]
    · rename_i early
      simp [early]
  · split
    · rename_i fails
      rw [fails,Bool.true_and,bne_eq_false_iff_eq]
      exact eq_comm
    · rename_i calm
      simp [calm]

theorem appliedPositive {s s' : Source} {c : Call} {lane : SchedulingLane} (step : Applied s c s')
    (ceiling : 0 < s.config.cadenceCeilingS) (positive : 0 < (s.lanes lane).currentIntervalS) :
    0 < (s'.lanes lane).currentIntervalS := by
  have effect := applied step
  by_cases own : lane = c.lane
  · subst own
    have floor := (rampFloorBetween s.config c.lane).1
    have ordered := s.config.ceilingLteBaseline
    rcases effect.interval with same | reset | ramped
    · omega
    · omega
    · omega
  · rw [effect.others lane own]
    exact positive

theorem commitIs {key : String} {c : Call} {s t : Service} (is : commit key c s = some t) : ∃ site source,
    s.sites key = some site ∧ Applied site.source c source ∧ t.triggers = s.triggers ∧
    t.sites = Function.update s.sites key (some { site with source }) := by
  simp only [commit,bind,Option.bind_eq_some_iff] at is
  obtain ⟨site,here,source,applies,same⟩ := is
  cases same
  exact ⟨site,source,here,applies,rfl,rfl⟩

theorem commitTriggers {key : String} {c : Call} {s t : Service} (is : commit key c s = some t) :
    t.triggers = s.triggers := by
  obtain ⟨_,_,_,_,same,_⟩ := commitIs is
  exact same

theorem setTriggerOwn (s : Service) (key : String) (lane : SchedulingLane) (seconds : Nat) :
    (s.setTrigger key lane seconds).triggers key lane = some seconds := by
  simp only [Service.setTrigger,Function.update_self]

theorem setTriggerOther {s : Service} {key other : String} {lane lane' : SchedulingLane} {seconds : Nat}
    (apart : ¬ (other = key ∧ lane' = lane)) :
    (s.setTrigger key lane seconds).triggers other lane' = s.triggers other lane' := by
  simp only [Service.setTrigger]
  by_cases own : other = key
  · subst own
    rw [Function.update_self,Function.update_of_ne fun same => apart ⟨rfl,same⟩]
  · rw [Function.update_of_ne own]

def Attends (s : Service) (key : String) (lane : SchedulingLane) (seconds : Nat) : Prop :=
  ∃ site, s.sites key = some site ∧ 0 < site.source.config.cadenceCeilingS ∧ 0 < site.interval lane ∧
    seconds = site.interval lane

def InStep (s : Service) : Prop := ∀ key lane seconds, s.triggers key lane = some seconds → Attends s key lane seconds

theorem InStep.synced {s : Service} (inStep : InStep s) : Synced s := by
  intro key lane seconds registered
  obtain ⟨site,here,_,_,same⟩ := inStep key lane seconds registered
  exact ⟨site,here,same⟩

theorem InStep.of (key : String) (lane : SchedulingLane) {s : Service}
    (others : ∀ other lane' seconds, ¬ (other = key ∧ lane' = lane) → s.triggers other lane' = some seconds →
      Attends s other lane' seconds)
    (own : ∀ seconds, s.triggers key lane = some seconds → Attends s key lane seconds) : InStep s := by
  intro other lane' seconds registered
  by_cases mine : other = key ∧ lane' = lane
  · obtain ⟨rfl,rfl⟩ := mine
    exact own seconds registered
  · exact others other lane' seconds mine registered

theorem othersAttended {key other : String} {c : Call} {lane : SchedulingLane} {seconds : Nat} {s t : Service}
    (is : commit key c s = some t) (apart : ¬ (other = key ∧ lane = c.lane)) (attends : Attends s other lane seconds) :
    Attends t other lane seconds := by
  obtain ⟨site,source,here,applies,_,sites⟩ := commitIs is
  have effect := applied applies
  obtain ⟨before,there,ceiling,positive,same⟩ := attends
  by_cases own : other = key
  · subst own
    cases here.symm.trans there
    have still := effect.others lane fun moved => apart ⟨rfl,moved⟩
    refine ⟨_,by rw [sites,Function.update_self],?_,appliedPositive applies ceiling positive,?_⟩
    · rw [effect.ceiling]
      exact ceiling
    · rw [same,PolledSite.interval,PolledSite.interval,still]
  · exact ⟨before,by rw [sites,Function.update_of_ne own]; exact there,ceiling,positive,same⟩

theorem othersStep {key : String} {c : Call} {s t : Service} (inStep : InStep s) (is : commit key c s = some t) :
    ∀ other lane seconds, ¬ (other = key ∧ lane = c.lane) → t.triggers other lane = some seconds →
      Attends t other lane seconds := by
  intro other lane seconds apart registered
  rw [commitTriggers is] at registered
  exact othersAttended is apart (inStep other lane seconds registered)

theorem ownLane {key : String} {c : Call} {seconds : Nat} {s t : Service} (is : commit key c s = some t)
    (attends : Attends s key c.lane seconds) : ∃ site site', s.sites key = some site ∧ t.sites key = some site' ∧
      0 < site'.source.config.cadenceCeilingS ∧ 0 < site'.interval c.lane ∧ seconds = site.interval c.lane ∧
      Applied site.source c site'.source := by
  obtain ⟨site,source,here,applies,_,sites⟩ := commitIs is
  have effect := applied applies
  obtain ⟨_,there,ceiling,positive,same⟩ := attends
  cases here.symm.trans there
  refine ⟨site,_,here,by rw [sites,Function.update_self],?_,appliedPositive applies ceiling positive,same,applies⟩
  rw [effect.ceiling]
  exact ceiling

theorem stillStep {key : String} {c : Call} {s t : Service} (inStep : InStep s) (still : Still s key c)
    (is : commit key c s = some t) : InStep t := by
  refine InStep.of key c.lane (othersStep inStep is) fun seconds registered => ?_
  rw [commitTriggers is] at registered
  obtain ⟨site,site',here,now,ceiling,positive,same,applies⟩ := ownLane is (inStep key c.lane seconds registered)
  have stays := still site here (by rw [registered]; rfl) (by rw [applies]; rfl)
  exact ⟨site',now,ceiling,positive,same.trans ((movesIff applies).mp stays).symm⟩

theorem applyAllStep {outcomes : List (String × Call)} {s : Service} (inStep : InStep s) (quiet : Quiet outcomes s) :
    InStep (applyAll outcomes s) := by
  induction outcomes generalizing s with
  | nil => exact inStep
  | cons o rest ih =>
    obtain ⟨still,quiet⟩ := quiet
    have next : InStep ((commit o.1 o.2 s).getD s) := by
      cases is : commit o.1 o.2 s with
      | none => exact inStep
      | some t => exact stillStep inStep still is
    exact ih next quiet

theorem polledStep {trigger : IntervalTrigger} {key : String} {site : PolledSite} {c : Call} {s t : Service}
    (inStep : InStep s) (here : s.sites key = some site) (is : commit key c s = some t) :
    InStep (reschedule trigger key c.lane (site.interval c.lane) t) := by
  have others := othersStep inStep is
  cases own : t.triggers key c.lane with
  | none =>
    have idle : reschedule trigger key c.lane (site.interval c.lane) t = t := by
      rw [reschedule,own]
      split <;> first | rfl | contradiction
    rw [idle]
    refine InStep.of key c.lane others fun seconds registered => ?_
    rw [own] at registered
    cases registered
  | some seconds =>
    have registered := own
    rw [commitTriggers is] at registered
    obtain ⟨_,site',there,now,ceiling,positive,same,_⟩ := ownLane is (inStep key c.lane seconds registered)
    cases here.symm.trans there
    simp only [reschedule,now,own]
    split
    · refine InStep.of key c.lane (fun other lane seconds apart registered => ?_) fun seconds registered => ?_
      · rw [setTriggerOther apart] at registered
        exact others other lane seconds apart registered
      · rw [setTriggerOwn,Option.some.injEq] at registered
        exact ⟨site',now,ceiling,positive,registered.symm.trans (trigger.kept _ positive)⟩
    · rename_i unmoved
      refine InStep.of key c.lane others fun seconds' registered => ?_
      cases own.symm.trans registered
      exact ⟨site',now,ceiling,positive,same.trans (not_not.mp unmoved).symm⟩

theorem pollLocalStep {trigger : IntervalTrigger} {key : String} {site : PolledSite}
    {lane : SchedulingLane} {a : Attempt} {s : Service} (inStep : InStep s) (here : s.sites key = some site) :
    InStep (pollLocal trigger key site lane a s) := by
  rw [pollLocal]
  split
  · exact inStep
  · split
    · exact inStep
    · split
      · exact inStep
      · rename_i is
        exact polledStep inStep here is

theorem probesApplied (visits : List (String × PolledSite × Attempt)) (s : Service) :
    recoveryProbe visits s = applyAll (probeOutcomes visits s) s := by
  induction visits generalizing s with
  | nil => rfl
  | cons v rest ih =>
    obtain ⟨key,paused,a⟩ := v
    cases visited : visit paused a s key with
    | skipped => simp only [recoveryProbe,probeOutcomes,visited,ih]
    | raised => simp only [recoveryProbe,probeOutcomes,visited,applyAll]
    | applies c =>
      cases is : commit key c s with
      | none => simp only [recoveryProbe,probeOutcomes,visited,is,applyAll,Option.getD]
      | some t => simp only [recoveryProbe,probeOutcomes,visited,is,applyAll,Option.getD,ih]

theorem settlementsApplied (settlements : List Settlement) (s : Service) :
    settlements.foldl (fun s x => settle x s) s = applyAll (settlements.map fun x => (x.key,x.call)) s := by
  induction settlements generalizing s with
  | nil => rfl
  | cons x rest ih => exact ih (settle x s)

theorem pollSourceStep {trigger : IntervalTrigger} {key : String} {a : Attempt} {s : Service} (inStep : InStep s)
    (quiet : Quiet (unattended (.pollSource key a) s) s) : InStep (pollSource trigger key a s) := by
  rw [pollSource]
  cases here : s.sites key with
  | none => exact inStep
  | some site =>
    simp only [unattended,here] at quiet ⊢
    split
    · exact inStep
    · rename_i admitted
      rw [if_neg admitted] at quiet
      split
      · rename_i remote
        rw [if_pos remote] at quiet
        cases starts : a.start.call .full with
        | none => exact inStep
        | some c =>
          rw [starts] at quiet
          exact applyAllStep inStep quiet
      · exact pollLocalStep inStep here

theorem pollHeartbeatStep {trigger : IntervalTrigger} {key : String} {a : Attempt} {s : Service} (inStep : InStep s) :
    InStep (pollHeartbeat trigger key a s) := by
  rw [pollHeartbeat]
  cases here : s.sites key with
  | none => exact inStep
  | some site =>
    simp only
    split
    · exact inStep
    · exact pollLocalStep inStep here

theorem executeStep {trigger : IntervalTrigger} {job : Job} {s : Service} (inStep : InStep s)
    (quiet : Quiet (unattended job s) s) : InStep (execute trigger job s) := by
  cases job with
  | pollSource key a => exact pollSourceStep inStep quiet
  | pollHeartbeat key a => exact pollHeartbeatStep inStep
  | recoveryProbe attempts =>
    rw [execute,probesApplied]
    exact applyAllStep inStep quiet
  | apifyPoll settlements =>
    rw [execute,settlementsApplied]
    exact applyAllStep inStep quiet

theorem startUpInStep {trigger : IntervalTrigger} {sites : String → Option PolledSite}
    (positive : ∀ key lane, ∀ site ∈ sites key, site.scheduled lane = true →
      0 < site.source.config.cadenceCeilingS ∧ 0 < site.interval lane) : InStep (startUp trigger sites) := by
  intro key lane seconds registered
  obtain ⟨site,scheduled,rfl⟩ := Option.map_eq_some_iff.mp registered
  obtain ⟨here,on⟩ := Option.filter_eq_some_iff.mp scheduled
  obtain ⟨ceiling,interval⟩ := positive key lane site here on
  exact ⟨site,here,ceiling,interval,trigger.kept _ interval⟩

theorem intervalsFollowed (trigger : IntervalTrigger) (sites : String → Option PolledSite)
    (positive : ∀ key lane, ∀ site ∈ sites key, site.scheduled lane = true →
      0 < site.source.config.cadenceCeilingS ∧ 0 < site.interval lane) {jobs : List Job} {s : Service}
    (run : Runs (fun s job t => t = execute trigger job s ∧ Quiet (unattended job s) s)
      (startUp trigger sites) jobs s) :
    Synced s := by
  refine (run.invariant InStep ?_ (startUpInStep positive)).synced
  rintro s job t inStep ⟨rfl,quiet⟩
  exact executeStep inStep quiet

theorem movedStrands {key : String} {c : Call} {s t : Service} (synced : Synced s)
    (registered : (s.triggers key c.lane).isSome = true) (is : commit key c s = some t)
    (moved : ∀ site ∈ s.sites key, moves site.source c = true) : ¬ Synced t := by
  intro after
  obtain ⟨seconds,own⟩ := Option.isSome_iff_exists.mp registered
  obtain ⟨site,source,here,applies,triggers,sites⟩ := commitIs is
  obtain ⟨_,there,same⟩ := synced key c.lane seconds own
  cases here.symm.trans there
  obtain ⟨_,now,same'⟩ := after key c.lane seconds (by rw [triggers]; exact own)
  rw [sites,Function.update_self,Option.some.injEq] at now
  subst now
  have still := (movesIff applies).mpr (same'.symm.trans same)
  rw [moved site here] at still
  cases still

def secondAtLeast : IntervalTrigger := ⟨fun n => if n = 0 then 1 else n,fun _ positive => if_neg positive.ne'⟩

def noon : Draw := ⟨43200000000,0,by norm_num⟩

theorem quarterHour : 900 ≤ 3600 := by decide

def pacedSource (state : LifecycleState) (intervalS cleanPolls : Nat) : Source where
  config := ⟨3600,900,false,state,0,0,none,none,quarterHour⟩
  lanes _ := ⟨intervalS,cleanPolls,none⟩

def polledSites (state : LifecycleState) (imports : Nat) (key : String) : Option PolledSite :=
  if key = "ebay" then some ⟨pacedSource state 1800 3,true,.local,.ebayBrowse,false,["cpu"],true⟩
  else if key = "synthetic" then some ⟨pacedSource .active 3600 imports,true,.apify,.none,false,["drive"],true⟩
  else none

def cleanRun : Attempt := { now := 0, tokens := true, start := .started, collected := some .success, draw := noon }
def importedRun : Job := .apifyPoll [⟨"synthetic",.full,.finalized .complete,noon⟩]

theorem fourthPollStrands :
    (∃ s, Runs (fun s job t => t = execute secondAtLeast job s)
      (startUp secondAtLeast (polledSites .pausedPendingFix 3)) [.recoveryProbe [("ebay",cleanRun)]] s ∧ ¬ Synced s) ∧
    ∃ s, Runs (fun s job t => t = execute secondAtLeast job s) (startUp secondAtLeast (polledSites .active 3))
      [.pollSource "synthetic" cleanRun,importedRun] s ∧ ¬ Synced s := by
  constructor
  · refine ⟨_,.cons rfl (.nil _),fun synced => ?_⟩
    obtain ⟨site,here,same⟩ := synced "ebay" .full 1800 (by decide +kernel)
    have halved : ((execute secondAtLeast (.recoveryProbe [("ebay",cleanRun)])
        (startUp secondAtLeast (polledSites .pausedPendingFix 3))).sites "ebay").map (fun site => site.interval .full) =
        some 900 := by
      decide +kernel
    rw [here,Option.map_some,← same] at halved
    cases halved
  · refine ⟨_,.cons rfl (.cons rfl (.nil _)),fun synced => ?_⟩
    obtain ⟨site,here,same⟩ := synced "synthetic" .full 3600 (by decide +kernel)
    have halved : ((execute secondAtLeast importedRun (execute secondAtLeast (.pollSource "synthetic" cleanRun)
        (startUp secondAtLeast (polledSites .active 3)))).sites "synthetic").map (fun site => site.interval .full) =
        some 1800 := by
      decide +kernel
    rw [here,Option.map_some,← same] at halved
    cases halved

theorem fourthPollFollowed : Synced (execute secondAtLeast importedRun
    (execute secondAtLeast (.pollSource "ebay" cleanRun) (startUp secondAtLeast (polledSites .active 0)))) := by
  refine intervalsFollowed secondAtLeast (polledSites .active 0) ?_
    (.cons ⟨rfl,by decide +kernel⟩ (.cons ⟨rfl,by decide +kernel⟩ (.nil _)))
  intro key lane site here _
  simp only [polledSites,Option.mem_def] at here
  split at here
  · cases here
    simp [pacedSource,PolledSite.interval]
  · split at here
    · cases here
      simp [pacedSource,PolledSite.interval]
    · cases here

end HwRadar.Scheduling
