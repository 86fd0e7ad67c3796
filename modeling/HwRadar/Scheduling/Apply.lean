import HwRadar.Base.Decimal
import HwRadar.Base.Run
import Mathlib.Logic.Function.Basic

/-! The scheduling state of one source: its config row, shared by two lanes, and one row
for each lane. `applyRunOutcome` is the only writer of the managed fields; it re-reads
both rows under their locks, so a run is the list of its committed calls. Instants are
microseconds. -/
namespace HwRadar.Scheduling
open HwRadar.Base HwRadar.Base.Decimal

inductive LifecycleState where
  | active
  | backingOff
  | pausedPendingFix
  | skip
  deriving DecidableEq, Repr

inductive LifecycleEvent where
  | success
  | transientFailure
  | antiBot
  | parserRot
  | degradation
  | unknownFailure
  | probeSuccess
  | probeFailure
  | manualSkip
  | manualReactivate
  deriving DecidableEq, Repr

inductive SchedulingLane where
  | full
  | heartbeat
  deriving DecidableEq, Repr

def parserRotTripThreshold : Nat := 2

def transition (state : LifecycleState) (event : LifecycleEvent) (consecutiveParserRot : Nat) : LifecycleState :=
  if event = .manualSkip then .skip
  else if state = .skip then if event = .manualReactivate then .active else .skip
  else if event = .manualReactivate then .active
  else if state = .pausedPendingFix then if event = .probeSuccess then .active else .pausedPendingFix
  else match event with
  | .success | .probeSuccess => .active
  | .antiBot | .unknownFailure => .pausedPendingFix
  | .parserRot => if consecutiveParserRot + 1 ≥ parserRotTripThreshold then .pausedPendingFix else .backingOff
  | .transientFailure => .backingOff
  | .degradation | .probeFailure | .manualSkip | .manualReactivate => state

def LifecycleEvent.succeeds : LifecycleEvent → Bool
  | .success | .probeSuccess => true
  | _ => false

def LifecycleEvent.fails : LifecycleEvent → Bool
  | .transientFailure | .antiBot | .parserRot | .unknownFailure => true
  | _ => false

inductive Seconds where
  | finite (q : ℚ)
  | infinite (negative : Bool)
  | nan
  deriving DecidableEq, Repr

def Seconds.lt : Seconds → Seconds → Bool
  | .nan,_ | _,.nan => false
  | .infinite negative,.infinite negative' => negative && !negative'
  | .infinite negative,.finite _ => negative
  | .finite _,.infinite negative => !negative
  | .finite p,.finite q => p < q

def Seconds.max (a b : Seconds) : Seconds := if a.lt b then b else a
def Seconds.min (a b : Seconds) : Seconds := if b.lt a then b else a

def backoffBaseS : ℚ := 600
def backoffCapS : ℚ := 86400
def retryAfterMinS : ℚ := 1
def autoRampCleanPolls : Nat := 4

/-- `backoff_delay_s`; none where the power of two is too large for a float. -/
def backoffDelayS (consecutiveFailures : Nat) (rand : ℚ) : Option ℚ :=
  if consecutiveFailures < 1024 then some (rand * min backoffCapS (backoffBaseS * 2 ^ consecutiveFailures)) else none

def clampRetryAfter (retryAfterS : Seconds) (baselineS : Nat) : Seconds :=
  (retryAfterS.max (.finite retryAfterMinS)).min (.finite baselineS)

def intervalAfterSuccess (currentS ceilingS cleanPolls : Nat) : Nat × Nat :=
  if cleanPolls + 1 ≥ autoRampCleanPolls then (max ceilingS (currentS / 2),0) else (currentS,cleanPolls + 1)

structure SourceConfig where
  cadenceBaselineS : Nat
  cadenceCeilingS : Nat
  heartbeatEnabled : Bool
  lifecycleState : LifecycleState
  consecutiveFailures : Nat
  consecutiveParserRot : Nat
  lastRunAt : Option Int
  lastSuccessAt : Option Int
  ceilingLteBaseline : cadenceCeilingS ≤ cadenceBaselineS
  deriving DecidableEq, Repr

structure SourceLaneState where
  currentIntervalS : Nat
  cleanPolls : Nat
  backoffUntil : Option Int
  deriving DecidableEq, Repr

structure Source where
  config : SourceConfig
  lanes : SchedulingLane → SourceLaneState

structure RunOutcome where
  event : LifecycleEvent
  retryAfterS : Option Seconds := none
  deriving DecidableEq, Repr

structure Call where
  lane : SchedulingLane
  outcome : RunOutcome
  now : Int
  rand : ℚ
  drawn : 0 ≤ rand ∧ rand ≤ 1

def Call.succeeds (c : Call) : Bool := c.outcome.event.succeeds
def Call.fails (c : Call) : Bool := c.outcome.event.fails

/-- The repair crawl of a heartbeat-enabled source does not ramp. -/
def rampFloorS (config : SourceConfig) (lane : SchedulingLane) : Nat :=
  if lane = .full && config.heartbeatEnabled then config.cadenceBaselineS else config.cadenceCeilingS

/-- `timedelta(seconds=...)` in microseconds; none for a NaN or an infinity. -/
def timedelta : Seconds → Option Int
  | .finite q => some (halfEven (q * 10 ^ 6))
  | .infinite _ | .nan => none

def columnMax : Nat := 2147483647

def delayS (baselineS failures : Nat) (c : Call) : Option Seconds :=
  match c.outcome.retryAfterS with
  | some retryAfterS => some (clampRetryAfter retryAfterS baselineS)
  | none => (backoffDelayS failures c.rand).map .finite

def applyLocked (config : SourceConfig) (row : SourceLaneState) (c : Call) : Option (SourceConfig × SourceLaneState) :=
  let state := transition config.lifecycleState c.outcome.event config.consecutiveParserRot
  if c.succeeds then
    let ramped := intervalAfterSuccess row.currentIntervalS (rampFloorS config c.lane) row.cleanPolls
    some ({ config with
        lifecycleState := state, lastRunAt := some c.now, lastSuccessAt := some c.now,
        consecutiveFailures := 0, consecutiveParserRot := 0 },
      { currentIntervalS := ramped.1, cleanPolls := ramped.2, backoffUntil := none })
  else if c.fails then do
    let failures := config.consecutiveFailures + 1
    let rot := if c.outcome.event = .parserRot then config.consecutiveParserRot + 1 else 0
    -- a power of two too large for a float raises, and nothing is committed
    let delay ← delayS config.cadenceBaselineS failures c
    let window ← timedelta delay
    if failures ≤ columnMax && rot ≤ columnMax then
      some ({ config with
          lifecycleState := state, lastRunAt := some c.now
          consecutiveFailures := failures, consecutiveParserRot := rot },
        { currentIntervalS := config.cadenceBaselineS, cleanPolls := 0, backoffUntil := some (c.now + window) })
    else none
  else some ({ config with lifecycleState := state, lastRunAt := some c.now },row)

def applyRunOutcome (c : Call) (s : Source) : Option Source :=
  (applyLocked s.config (s.lanes c.lane) c).map fun (config,row) => ⟨config,Function.update s.lanes c.lane row⟩

abbrev Applied (s : Source) (c : Call) (s' : Source) : Prop := applyRunOutcome c s = some s'

def widestWindow (baselineS : Nat) : Int := max 86400000000 (baselineS * 1000000)

structure Effect (s : Source) (c : Call) (s' : Source) : Prop where
  baseline : s'.config.cadenceBaselineS = s.config.cadenceBaselineS
  ceiling : s'.config.cadenceCeilingS = s.config.cadenceCeilingS
  lifecycle : s'.config.lifecycleState =
    transition s.config.lifecycleState c.outcome.event s.config.consecutiveParserRot
  failures : s'.config.consecutiveFailures =
    if c.succeeds then 0 else if c.fails then s.config.consecutiveFailures + 1 else s.config.consecutiveFailures
  rot : c.outcome.event = .parserRot → s'.config.consecutiveParserRot = s.config.consecutiveParserRot + 1
  others : ∀ lane, lane ≠ c.lane → s'.lanes lane = s.lanes lane
  interval : (s'.lanes c.lane).currentIntervalS = (s.lanes c.lane).currentIntervalS ∨
    (s'.lanes c.lane).currentIntervalS = s.config.cadenceBaselineS ∨
    (s'.lanes c.lane).currentIntervalS = max (rampFloorS s.config c.lane) ((s.lanes c.lane).currentIntervalS / 2)
  cleared : c.succeeds = true → (s'.lanes c.lane).backoffUntil = none
  backed : c.fails = true → ∃ until_, (s'.lanes c.lane).backoffUntil = some until_ ∧ c.now ≤ until_ ∧
    until_ ≤ c.now + widestWindow s.config.cadenceBaselineS
  kept : c.succeeds = false → c.fails = false → s'.lanes c.lane = s.lanes c.lane

theorem maxFinite {a : Seconds} {b q : ℚ} (is : a.max (.finite b) = .finite q) : b ≤ q := by
  rw [Seconds.max] at is
  split at is
  · cases is
    exact le_rfl
  · rename_i least
    subst is
    simpa [Seconds.lt] using least

theorem minFinite {a : Seconds} {b q : ℚ} (is : a.min (.finite b) = .finite q) : q = b ∨ a = .finite q ∧ q ≤ b := by
  rw [Seconds.min] at is
  split at is
  · cases is
    exact .inl rfl
  · rename_i most
    subst is
    exact .inr ⟨rfl,by simpa [Seconds.lt] using most⟩

theorem clampBetween {r : Seconds} {baselineS : Nat} {q : ℚ} (is : clampRetryAfter r baselineS = .finite q) :
    0 ≤ q ∧ q ≤ baselineS := by
  rcases minFinite is with rfl | ⟨kept,within⟩
  · exact ⟨Nat.cast_nonneg _,le_rfl⟩
  · have least := maxFinite kept
    rw [retryAfterMinS] at least
    exact ⟨by linarith,within⟩

theorem backoffBetween {failures : Nat} {c : Call} {q : ℚ} (is : backoffDelayS failures c.rand = some q) :
    0 ≤ q ∧ q ≤ backoffCapS := by
  rw [backoffDelayS] at is
  split at is <;> cases is
  have envelope : 0 ≤ min backoffCapS (backoffBaseS * 2 ^ failures) := by
    rw [backoffCapS,backoffBaseS]
    positivity
  refine ⟨mul_nonneg c.drawn.1 envelope,?_⟩
  calc c.rand * min backoffCapS (backoffBaseS * 2 ^ failures)
      ≤ 1 * min backoffCapS (backoffBaseS * 2 ^ failures) := mul_le_mul_of_nonneg_right c.drawn.2 envelope
    _ = min backoffCapS (backoffBaseS * 2 ^ failures) := one_mul _
    _ ≤ backoffCapS := min_le_left _ _

theorem delayBetween {baselineS failures : Nat} {c : Call} {q : ℚ}
    (delayed : delayS baselineS failures c = some (.finite q)) : 0 ≤ q ∧ q ≤ max backoffCapS baselineS := by
  rw [delayS] at delayed
  split at delayed
  · obtain ⟨least,most⟩ := clampBetween (Option.some.inj delayed)
    exact ⟨least,le_max_of_le_right most⟩
  · obtain ⟨_,backs,same⟩ := Option.map_eq_some_iff.mp delayed
    cases same
    obtain ⟨least,most⟩ := backoffBetween backs
    exact ⟨least,le_max_of_le_left most⟩

theorem windowBetween {baselineS failures : Nat} {c : Call} {delay : Seconds} {window : Int}
    (delayed : delayS baselineS failures c = some delay) (is : timedelta delay = some window) :
    0 ≤ window ∧ window ≤ widestWindow baselineS := by
  cases delay with
  | nan => contradiction
  | infinite _ => contradiction
  | finite q =>
    cases is
    have bounds := delayBetween delayed
    refine halfEvenBetween (by simpa using bounds.1) ?_
    rw [widestWindow]
    push_cast
    rcases le_max_iff.mp bounds.2 with day | cadence
    · rw [backoffCapS] at day
      exact le_max_of_le_left (by linarith)
    · exact le_max_of_le_right (by linarith)

theorem rampFloorBetween (config : SourceConfig) (lane : SchedulingLane) :
    config.cadenceCeilingS ≤ rampFloorS config lane ∧ rampFloorS config lane ≤ config.cadenceBaselineS := by
  have ordered := config.ceilingLteBaseline
  rw [rampFloorS]
  split
  · exact ⟨ordered,le_rfl⟩
  · exact ⟨le_rfl,ordered⟩

theorem applied {s s' : Source} {c : Call} (step : Applied s c s') : Effect s c s' := by
  obtain ⟨⟨config,row⟩,locked,rfl⟩ := Option.map_eq_some_iff.mp step
  have disjoint : c.succeeds = true → c.fails = false := by
    simp only [Call.succeeds,Call.fails]
    cases c.outcome.event <;> simp [LifecycleEvent.succeeds,LifecycleEvent.fails]
  have elsewhere : ∀ lane, lane ≠ c.lane → Function.update s.lanes c.lane row lane = s.lanes lane :=
    fun lane other => Function.update_of_ne other _ _
  rw [applyLocked] at locked
  split at locked
  · rename_i succeeds
    have calm : c.fails = false := disjoint succeeds
    simp only [Option.some.injEq,Prod.mk.injEq] at locked
    obtain ⟨rfl,rfl⟩ := locked
    refine ⟨rfl,rfl,rfl,by simp [succeeds],fun rot => ?_,elsewhere,?_,fun _ => by simp,fun fails => ?_,fun still => ?_⟩
    · rw [Call.succeeds,rot] at succeeds
      cases succeeds
    · simp only [intervalAfterSuccess,Function.update_self]
      split <;> simp
    · rw [calm] at fails
      cases fails
    · rw [succeeds] at still
      cases still
  split at locked
  · rename_i idle fails
    obtain ⟨delay,delayed,locked⟩ := Option.bind_eq_some_iff.mp locked
    obtain ⟨window,is,locked⟩ := Option.bind_eq_some_iff.mp locked
    obtain ⟨_,locked⟩ := Option.ite_none_right_eq_some.mp locked
    simp only [Option.some.injEq,Prod.mk.injEq] at locked
    obtain ⟨rfl,rfl⟩ := locked
    obtain ⟨least,most⟩ := windowBetween delayed is
    refine ⟨rfl,rfl,rfl,by simp [idle,fails],fun rot => by
      simp [rot],elsewhere,by simp,fun succeeds => absurd succeeds idle,
      fun _ => ⟨c.now + window,by simp,by omega,by omega⟩,fun _ calm => absurd fails (by simp [calm])⟩
  · rename_i idle calm
    simp only [Option.some.injEq,Prod.mk.injEq] at locked
    obtain ⟨rfl,rfl⟩ := locked
    refine ⟨rfl,rfl,rfl,by simp [idle,calm],fun rot => ?_,elsewhere,by simp,fun succeeds => absurd succeeds idle,
      fun fails => absurd fails calm,fun _ _ => by simp⟩
    rw [Call.fails,rot] at calm
    exact absurd rfl calm

end HwRadar.Scheduling
