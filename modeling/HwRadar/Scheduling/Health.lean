import HwRadar.Scheduling.Apply

/-! The managed fields over whole runs of committed outcomes. -/
namespace HwRadar.Scheduling
open HwRadar.Base

def failuresSince (start : Nat) (calls : List Call) : Nat :=
  ((calls.reverse.takeWhile fun c => !c.succeeds).filter Call.fails).length +
    if calls.any Call.succeeds then 0 else start

def lastMove (lane : SchedulingLane) (calls : List Call) : Option Call :=
  (calls.filter fun c => c.lane = lane && (c.succeeds || c.fails)).getLast?

def Backed (baselineS : Nat) (start until_ : Option Int) : Option Call → Prop
  | none => until_ = start
  | some c => if c.succeeds then until_ = none
      else ∃ t, until_ = some t ∧ c.now ≤ t ∧ t ≤ c.now + widestWindow baselineS

def Within (config : SourceConfig) (s : Source) : Prop :=
  ∀ lane, config.cadenceCeilingS ≤ (s.lanes lane).currentIntervalS ∧
    (s.lanes lane).currentIntervalS ≤ config.cadenceBaselineS

theorem failuresSinceStep (start : Nat) (calls : List Call) (c : Call) : failuresSince start (calls ++ [c]) =
    if c.succeeds then 0 else if c.fails then failuresSince start calls + 1 else failuresSince start calls := by
  cases succeeds : c.succeeds with
  | true => simp [failuresSince,succeeds]
  | false =>
    cases fails : c.fails with
    | true => simp [failuresSince,succeeds,fails]; omega
    | false => simp [failuresSince,succeeds,fails]

theorem lastMoveStep (lane : SchedulingLane) (calls : List Call) (c : Call) : lastMove lane (calls ++ [c]) =
    if c.lane = lane && (c.succeeds || c.fails) then some c else lastMove lane calls := by
  simp only [lastMove,List.filter_append]
  split
  · rename_i moves
    simp [moves]
  · rename_i still
    simp [still]

theorem withinStep {s s' : Source} {c : Call} (within : Within s.config s) (effect : Effect s c s') :
    Within s'.config s' := by
  intro lane
  rw [effect.baseline,effect.ceiling]
  obtain ⟨floored,slowest⟩ := rampFloorBetween s.config c.lane
  have ordered := s.config.ceilingLteBaseline
  obtain ⟨least,most⟩ := within lane
  by_cases own : lane = c.lane
  · subst own
    rcases effect.interval with same | reset | ramped
    · rw [same]
      exact ⟨least,most⟩
    · rw [reset]
      exact ⟨ordered,le_rfl⟩
    · rw [ramped]
      omega
  · rw [effect.others lane own]
    exact ⟨least,most⟩

theorem backedStep {s s' : Source} {c : Call} {start : Option Int} {lane : SchedulingLane} {calls : List Call}
    (backed : Backed s.config.cadenceBaselineS start (s.lanes lane).backoffUntil (lastMove lane calls))
    (effect : Effect s c s') :
    Backed s'.config.cadenceBaselineS start (s'.lanes lane).backoffUntil (lastMove lane (calls ++ [c])) := by
  rw [lastMoveStep,effect.baseline]
  by_cases own : lane = c.lane
  · subst own
    cases succeeds : c.succeeds with
    | true => simp [Backed,succeeds,effect.cleared succeeds]
    | false =>
      cases fails : c.fails with
      | true => simpa [Backed,succeeds,fails] using effect.backed fails
      | false =>
        rw [effect.kept succeeds fails]
        simpa [succeeds,fails] using backed
  · rw [effect.others lane own]
    simpa [Ne.symm own] using backed

structure Healthy (start : Source) (calls : List Call) (s : Source) : Prop where
  baseline : s.config.cadenceBaselineS = start.config.cadenceBaselineS
  ceiling : s.config.cadenceCeilingS = start.config.cadenceCeilingS
  failures : s.config.consecutiveFailures = failuresSince start.config.consecutiveFailures calls
  within : Within s.config s
  backed : ∀ lane, Backed s.config.cadenceBaselineS (start.lanes lane).backoffUntil (s.lanes lane).backoffUntil
    (lastMove lane calls)

theorem healthy {start s : Source} {calls : List Call} (within : Within start.config start)
    (run : Runs Applied start calls s) : Healthy start calls s := by
  induction calls using List.reverseRecOn generalizing s with
  | nil =>
    cases run
    exact ⟨rfl,rfl,by simp [failuresSince],within,fun lane => rfl⟩
  | append_singleton calls c ih =>
    obtain ⟨mid,first,last⟩ := run.split
    cases last with
    | cons head tail =>
      cases tail
      have before := ih first
      have effect := applied head
      refine ⟨effect.baseline.trans before.baseline,effect.ceiling.trans before.ceiling,?_,
        withinStep before.within effect,fun lane => backedStep (before.backed lane) effect⟩
      rw [effect.failures,failuresSinceStep,before.failures]

theorem leavesSkip {state : LifecycleState} {event : LifecycleEvent} {rot : Nat} (was : state = .skip)
    (left : transition state event rot ≠ .skip) : event = .manualReactivate := by
  subst was
  cases event <;> first | rfl | exact absurd rfl left

theorem leavesPause {state : LifecycleState} {event : LifecycleEvent} {rot : Nat}
    (was : state = .pausedPendingFix ∨ state = .skip)
    (left : ¬ (transition state event rot = .pausedPendingFix ∨ transition state event rot = .skip)) :
    event = .probeSuccess ∨ event = .manualReactivate := by
  rcases was with rfl | rfl <;> cases event <;> simp [transition] at left ⊢

theorem rotsPause {state : LifecycleState} {rot : Nat} (rots : 0 < rot)
    (not : transition state .parserRot rot ≠ .skip) : transition state .parserRot rot = .pausedPendingFix := by
  have trips : rot + 1 ≥ parserRotTripThreshold := Nat.succ_le_succ rots
  cases state <;> simp [transition,trips] at not ⊢

theorem laneKept {s s' : Source} {calls : List Call} {lane : SchedulingLane} (run : Runs Applied s calls s')
    (others : ∀ c ∈ calls, c.lane ≠ lane) : s'.lanes lane = s.lanes lane := by
  induction run with
  | nil s => rfl
  | @cons s t u c calls head tail ih =>
    rw [ih fun c mem => others c (List.mem_cons_of_mem _ mem),
      (applied head).others lane (others c List.mem_cons_self).symm]

theorem scheduleHolds {start mid s : Source} {before after : List Call} (within : Within start.config start)
    (first : Runs Applied start before mid) (rest : Runs Applied mid after s) :
    mid.config.consecutiveFailures = failuresSince start.config.consecutiveFailures before ∧
    (mid.config.lifecycleState = .pausedPendingFix → s.config.lifecycleState = .active →
      ∃ c ∈ after, c.outcome.event = .probeSuccess ∨ c.outcome.event = .manualReactivate) ∧
    (mid.config.lifecycleState = .skip → s.config.lifecycleState ≠ .skip →
      ∃ c ∈ after, c.outcome.event = .manualReactivate) ∧
    (∀ c c', after = [c,c'] → c.outcome.event = .parserRot → c'.outcome.event = .parserRot →
      s.config.lifecycleState ≠ .skip → s.config.lifecycleState = .pausedPendingFix) ∧
    Within start.config mid ∧
    (∀ lane, Backed start.config.cadenceBaselineS (start.lanes lane).backoffUntil (mid.lanes lane).backoffUntil
      (lastMove lane before)) ∧
    (∀ lane, (∀ c ∈ after, c.lane ≠ lane) → s.lanes lane = mid.lanes lane) := by
  have holds := healthy within first
  refine ⟨holds.failures,fun paused active => ?_,fun skipped left => ?_,fun c c' both rot rot' not => ?_,?_,?_,
    fun lane others => laneKept rest others⟩
  · obtain ⟨pre,c,post,m,n,rfl,_,step,_,was,left⟩ := rest.becomes
      (fun s => ¬ (s.config.lifecycleState = .pausedPendingFix ∨ s.config.lifecycleState = .skip))
      (not_not.mpr (.inl paused)) (by simp [active])
    rw [(applied step).lifecycle] at left
    exact ⟨c,by simp,leavesPause (not_not.mp was) left⟩
  · obtain ⟨pre,c,post,m,n,rfl,_,step,_,was,left⟩ := rest.becomes (fun s => s.config.lifecycleState ≠ .skip)
      (not_not.mpr skipped) left
    rw [(applied step).lifecycle] at left
    exact ⟨c,by simp,leavesSkip (not_not.mp was) left⟩
  · subst both
    cases rest with
    | cons head tail =>
      cases tail with
      | cons head' tail =>
        cases tail
        have counted := (applied head).rot rot
        have moved := (applied head').lifecycle
        rw [rot'] at moved
        rw [moved] at not ⊢
        exact rotsPause (by omega) not
  · intro lane
    rw [← holds.baseline,← holds.ceiling]
    exact holds.within lane
  · intro lane
    rw [← holds.baseline]
    exact holds.backed lane

def freshSource : Source where
  config := ⟨3600,900,true,.active,0,0,none,none,by decide⟩
  lanes _ := ⟨3600,0,none⟩

def rotOnFull : Call := ⟨.full,⟨.parserRot,some (.infinite false)⟩,0,1/2,by decide +kernel⟩
def rotOnHeartbeat : Call := ⟨.heartbeat,⟨.parserRot,none⟩,60000000,1/2,by decide +kernel⟩
def probed : Call := ⟨.full,⟨.probeSuccess,none⟩,120000000,1/2,by decide +kernel⟩

def rotted : Source :=
  ([rotOnFull,rotOnHeartbeat].foldlM (fun s c => applyRunOutcome c s) freshSource).get (by decide +kernel)
def recovered : Source := ([probed].foldlM (fun s c => applyRunOutcome c s) rotted).get (by decide +kernel)

theorem rottenSourcePaused : rotted.config.consecutiveFailures = 2 ∧
    (∃ c ∈ [probed], c.outcome.event = .probeSuccess ∨ c.outcome.event = .manualReactivate) ∧
    Within freshSource.config rotted := by
  have first : Runs Applied freshSource [rotOnFull,rotOnHeartbeat] rotted := Runs.ofSteps (Option.some_get _).symm
  have rest : Runs Applied rotted [probed] recovered := Runs.ofSteps (Option.some_get _).symm
  have holds := scheduleHolds (fun _ => ⟨(by decide : 900 ≤ 3600),le_rfl⟩) first rest
  exact ⟨holds.1,holds.2.1 (by decide +kernel) (by decide +kernel),holds.2.2.2.2.1⟩

end HwRadar.Scheduling
