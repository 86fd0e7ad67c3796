import HwRadar.Scheduling.Health

/-! Failure streaks, call by call: the calls that raise are in the list too, and leave
both rows as they were. The back-off of a failure without a Retry-After takes a float
power of two before its cap, so the 1024th failure in a row has none. -/
namespace HwRadar.Scheduling
open HwRadar.Base HwRadar.Base.Decimal

def attempt (s : Source) (c : Call) : Source := (applyRunOutcome c s).getD s

def attempts (start : Source) (calls : List Call) : Source := calls.foldl attempt start

def Recorded (s : Source) (c : Call) : Prop :=
  ∃ s' delay, Applied s c s' ∧
    delayS s.config.cadenceBaselineS (s.config.consecutiveFailures + 1) c = some (.finite delay) ∧
    0 ≤ delay ∧ delay ≤ max backoffCapS s.config.cadenceBaselineS ∧
    (s'.lanes c.lane).backoffUntil = some (c.now + halfEven (delay * 10 ^ 6)) ∧
    s'.config.consecutiveFailures = s.config.consecutiveFailures + 1 ∧
    ∀ c', c'.succeeds = true → ∃ s'', Applied s' c' s'' ∧ s''.config.consecutiveFailures = 0 ∧
      s''.config.consecutiveParserRot = 0 ∧ (s''.lanes c'.lane).backoffUntil = none

def longestStreak : Nat := 1022

def Recordable (s : Source) (c : Call) : Prop :=
  (c.outcome.retryAfterS = none → s.config.consecutiveFailures ≤ longestStreak) ∧
  s.config.consecutiveFailures < columnMax ∧
  (c.outcome.event = .parserRot → s.config.consecutiveParserRot < columnMax)

def RunOutcome.Timed (outcome : RunOutcome) : Prop :=
  ∀ retryAfterS, outcome.retryAfterS = some retryAfterS → ∃ q, retryAfterS = .finite q

theorem clampFinite (q : ℚ) (baselineS : Nat) : ∃ p, clampRetryAfter (.finite q) baselineS = .finite p := by
  simp only [clampRetryAfter,Seconds.max,Seconds.min]
  split <;> split <;> exact ⟨_,rfl⟩

theorem delayExists {baselineS failures : Nat} {c : Call} (timed : c.outcome.Timed) :
    (∃ q, delayS baselineS failures c = some (.finite q)) ↔ (c.outcome.retryAfterS = none → failures < 1024) := by
  cases given : c.outcome.retryAfterS with
  | none => simp [delayS,given,backoffDelayS]
  | some retryAfterS =>
    obtain ⟨q,rfl⟩ := timed retryAfterS given
    obtain ⟨p,clamped⟩ := clampFinite q baselineS
    simp [delayS,given,clamped]

theorem successCommits (s : Source) {c : Call} (succeeds : c.succeeds = true) : ∃ s', Applied s c s' ∧
    s'.config.consecutiveFailures = 0 ∧ s'.config.consecutiveParserRot = 0 ∧
    (s'.lanes c.lane).backoffUntil = none := by
  refine ⟨_,by rw [Applied,applyRunOutcome,applyLocked,if_pos succeeds]; rfl,rfl,rfl,?_⟩
  simp

theorem otherCommits (s : Source) {c : Call} (calm : c.fails = false) : ∃ s', Applied s c s' := by
  cases succeeds : c.succeeds with
  | true =>
    obtain ⟨s',commits,_⟩ := successCommits s succeeds
    exact ⟨s',commits⟩
  | false =>
    have commits : (applyRunOutcome c s).isSome := by simp [applyRunOutcome,applyLocked,succeeds,calm]
    exact Option.isSome_iff_exists.mp commits

theorem failsNotSucceeds {c : Call} (fails : c.fails = true) : c.succeeds = false := by
  rw [Call.fails] at fails
  rw [Call.succeeds]
  cases event : c.outcome.event <;> rw [event] at fails <;> first | rfl | contradiction

theorem failureCommits {s : Source} {c : Call} {q : ℚ} (fails : c.fails = true)
    (delayed : delayS s.config.cadenceBaselineS (s.config.consecutiveFailures + 1) c = some (.finite q))
    (counts : s.config.consecutiveFailures < columnMax)
    (rots : c.outcome.event = .parserRot → s.config.consecutiveParserRot < columnMax) :
    ∃ s', Applied s c s' ∧ (s'.lanes c.lane).backoffUntil = some (c.now + halfEven (q * 10 ^ 6)) ∧
      s'.config.consecutiveFailures = s.config.consecutiveFailures + 1 := by
  have idle := failsNotSucceeds fails
  have fits : (if c.outcome.event = .parserRot then s.config.consecutiveParserRot + 1 else 0) ≤ columnMax := by
    split
    · rename_i rot
      exact rots rot
    · exact Nat.zero_le _
  refine ⟨_,by
    simp only [Applied,applyRunOutcome,applyLocked,idle,fails,delayed,timedelta,bind,Option.bind,fits,
      Nat.succ_le_of_lt counts]
    rfl,?_,rfl⟩
  simp

theorem commitsFits {s s' : Source} {c : Call} (fails : c.fails = true) (commits : Applied s c s') :
    (∃ delay, delayS s.config.cadenceBaselineS (s.config.consecutiveFailures + 1) c = some delay) ∧
    s.config.consecutiveFailures < columnMax ∧
    (c.outcome.event = .parserRot → s.config.consecutiveParserRot < columnMax) := by
  obtain ⟨_,locked,_⟩ := Option.map_eq_some_iff.mp commits
  rw [applyLocked,if_neg (by simp [failsNotSucceeds fails]),if_pos fails] at locked
  obtain ⟨delay,delayed,locked⟩ := Option.bind_eq_some_iff.mp locked
  obtain ⟨window,is,locked⟩ := Option.bind_eq_some_iff.mp locked
  obtain ⟨fits,_⟩ := Option.ite_none_right_eq_some.mp locked
  simp only [Bool.and_eq_true,decide_eq_true_eq] at fits
  refine ⟨⟨delay,delayed⟩,fits.1,fun rot => ?_⟩
  have within := fits.2
  rw [if_pos rot] at within
  exact within

theorem recordedIff {s : Source} {c : Call} (fails : c.fails = true) (timed : c.outcome.Timed) :
    Recorded s c ↔ Recordable s c := by
  constructor
  · rintro ⟨s',q,commits,delayed,-⟩
    obtain ⟨_,counts,rots⟩ := commitsFits fails commits
    have before := (delayExists timed).mp ⟨q,delayed⟩
    exact ⟨fun none_ => Nat.lt_succ_iff.mp (Nat.lt_of_succ_lt_succ (before none_)),counts,rots⟩
  · rintro ⟨streak,counts,rots⟩
    have delays : ∃ q, delayS s.config.cadenceBaselineS (s.config.consecutiveFailures + 1) c = some (.finite q) :=
      (delayExists timed).mpr fun none_ => Nat.succ_lt_succ (Nat.lt_succ_of_le (streak none_))
    obtain ⟨q,delayed⟩ := delays
    obtain ⟨s',commits,backs,counted⟩ := failureCommits fails delayed counts rots
    obtain ⟨least,most⟩ := delayBetween delayed
    exact ⟨s',q,commits,delayed,least,most,backs,counted,fun c' => successCommits s'⟩

theorem attemptApplied {s s' : Source} {c : Call} (commits : Applied s c s') : attempt s c = s' := by
  rw [attempt,commits]
  rfl

theorem attemptsSnoc (start : Source) (calls : List Call) (c : Call) :
    attempts start (calls ++ [c]) = attempt (attempts start calls) c := by
  rw [attempts,List.foldl_append]
  rfl

theorem attemptsCommit {start : Source} {calls : List Call}
    (recordable : ∀ before c after, calls = before ++ c::after → c.fails = true →
      c.outcome.Timed ∧ Recordable (attempts start before) c) :
    Runs Applied start calls (attempts start calls) := by
  induction calls using List.reverseRecOn with
  | nil => exact .nil start
  | append_singleton calls c ih =>
    have first := ih fun before c' after same => recordable before c' (after ++ [c]) (by simp [same])
    have commits : ∃ s', Applied (attempts start calls) c s' := by
      cases fails : c.fails with
      | false => exact otherCommits _ fails
      | true =>
        obtain ⟨timed,ok⟩ := recordable calls c [] rfl fails
        obtain ⟨s',_,commits,_⟩ := (recordedIff fails timed).mpr ok
        exact ⟨s',commits⟩
    obtain ⟨s',commits⟩ := commits
    rw [attemptsSnoc,attemptApplied commits]
    exact first.append (.single commits)

theorem streaksRecorded (start : Source) (calls : List Call) :
    (∀ c, c.fails = true → c.outcome.Timed →
      (Recorded (attempts start calls) c ↔ Recordable (attempts start calls) c)) ∧
    ((∀ before c after, calls = before ++ c::after → c.fails = true →
        c.outcome.Timed ∧ Recordable (attempts start before) c) →
      Runs Applied start calls (attempts start calls) ∧
      (∀ before c after, calls = before ++ c::after → c.fails = true → Recorded (attempts start before) c)) := by
  refine ⟨fun c fails timed => recordedIff fails timed,fun recordable => ⟨attemptsCommit recordable,?_⟩⟩
  intro before c after same fails
  obtain ⟨timed,ok⟩ := recordable before c after same fails
  exact (recordedIff fails timed).mpr ok

def timedOut : Call := { rotOnFull with outcome := ⟨.transientFailure,none⟩ }

theorem timedOutStep (s : Source) (before : s.config.consecutiveFailures ≤ longestStreak) :
    (attempt s timedOut).config.consecutiveFailures = s.config.consecutiveFailures + 1 := by
  have timed : timedOut.outcome.Timed := by simp [RunOutcome.Timed,timedOut]
  have bounded : longestStreak < columnMax := by decide
  obtain ⟨s',_,commits,_,_,_,_,counted,_⟩ :=
    (recordedIff rfl timed).mpr ⟨fun _ => before,by omega,by simp [timedOut]⟩
  rw [attemptApplied commits]
  exact counted

theorem timedOutStreak (n : Nat) (short : n ≤ longestStreak + 1) :
    (attempts freshSource (List.replicate n timedOut)).config.consecutiveFailures = n := by
  induction n with
  | zero => rfl
  | succ n ih =>
    have counted := ih (by omega)
    rw [List.replicate_succ',attemptsSnoc,timedOutStep _ (by omega),counted]

theorem outgrown {s : Source} (long : longestStreak < s.config.consecutiveFailures) :
    ¬Recorded s timedOut ∧ attempt s timedOut = s := by
  have timed : timedOut.outcome.Timed := by simp [RunOutcome.Timed,timedOut]
  constructor
  · intro recorded
    have short := ((recordedIff rfl timed).mp recorded).1 rfl
    omega
  · rw [attempt]
    cases result : applyRunOutcome timedOut s with
    | none => rfl
    | some s' =>
      obtain ⟨⟨delay,delayed⟩,_⟩ := commitsFits rfl result
      have large : ¬ s.config.consecutiveFailures + 1 < 1024 := by
        rw [longestStreak] at long
        omega
      simp [delayS,timedOut,backoffDelayS,large] at delayed

theorem streakOutgrown : timedOut.fails = true ∧ timedOut.outcome.Timed ∧
    ¬Recorded (attempts freshSource (List.replicate (longestStreak + 1) timedOut)) timedOut ∧
    attempt (attempts freshSource (List.replicate (longestStreak + 1) timedOut)) timedOut =
      attempts freshSource (List.replicate (longestStreak + 1) timedOut) := by
  have counted := timedOutStreak (longestStreak + 1) le_rfl
  have long : longestStreak <
      (attempts freshSource (List.replicate (longestStreak + 1) timedOut)).config.consecutiveFailures :=
    counted.symm ▸ Nat.lt_succ_self _
  exact ⟨rfl,by simp [RunOutcome.Timed,timedOut],outgrown long⟩

end HwRadar.Scheduling
