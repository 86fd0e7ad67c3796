import HwRadar.Base.Meter
import HwRadar.Scheduling.Buckets

/-! How many requests a window of real time can hold, over admissions, checkpoints and restarts
in any order. What a bucket holds pays for its admissions and refills at its rate; only a
restart can return what was spent. -/
namespace HwRadar.Scheduling
open HwRadar.Base

structure Conforms (settings : Settings) (b : TokenBucket) : Prop where
  capacity : b.capacity = settings.burst
  rate : b.refillPerS = settings.perSecond
  nonneg : 0 ≤ b.tokens
  capped : b.tokens ≤ settings.burst

def held (settings : Settings) (b : Option TokenBucket) : ℚ :=
  match b with
  | none => settings.burst
  | some b => b.tokens

def level (settings : Settings) (b : Option TokenBucket) (nowS : ℚ) : ℚ := held settings (b.map fun b => b.refill nowS)

structure View where
  settings : Settings
  get : BucketRegistry → Option TokenBucket
  takes : Act → Bool
  configures : List Schedule → Bool

def sourceView (key : String) (settings : Settings) : View where
  settings
  get r := r.sourceBuckets key
  takes
    | .admit_ source _ => source = key
    | _ => false
  configures schedules := schedules.any fun s => !s.blocked && s.key = key

def domainView (key : String) : View where
  settings := domainSettings
  get r := r.domainBuckets key
  takes
    | .admit_ _ domain => domain = key
    | _ => false
  configures _ := false

def startClock (nowS : ℚ) (schedules : List Schedule) : ℚ := nowS + (schedules.map Schedule.waited).sum

section
variable (v : View)

def returned (checkpoint : Option BucketRegistry) (clock : ℚ) (schedules : List Schedule) : ℚ :=
  if v.configures schedules then v.settings.burst
  else level v.settings ((checkpoint.bind v.get).map fun b => { b with updatedAt := clock })
    (startClock clock schedules)

/-- The event returns no spent token: the clock of a process does not gain on real time, and a
restart comes back with no more than the dead process would have had by then. -/
structure Spared (p : Poller) (e : Event) : Prop where
  clock : (∀ clock schedules, e.act ≠ .restart clock schedules) → e.ticked ≤ e.elapsed
  restart : ∀ clock schedules, e.act = .restart clock schedules →
    returned v p.checkpoint clock schedules ≤ level v.settings (v.get p.registry) p.clock +
      v.settings.perSecond * e.elapsed

instance (p : Poller) (e : Event) : Decidable (Spared v p e) :=
  match act : e.act with
  | .restart clock schedules =>
    decidable_of_iff (returned v p.checkpoint clock schedules ≤
        level v.settings (v.get p.registry) p.clock + v.settings.perSecond * e.elapsed) <| by
      refine ⟨fun within => ⟨fun other => absurd act (other clock schedules),?_⟩,fun spared =>
        spared.restart clock schedules act⟩
      intro clock' schedules' is
      obtain ⟨rfl,rfl⟩ := Act.restart.inj (act.symm.trans is)
      exact within
  | .admit_ _ _ | .save =>
    decidable_of_iff (e.ticked ≤ e.elapsed)
      ⟨fun slow => ⟨fun _ => slow,by simp [act]⟩,fun spared => spared.clock (by simp [act])⟩

def Sparing (p : Poller) : List Event → Prop
  | [] => True
  | e::es => Spared v p e ∧ Sparing (p.step e).2 es

instance sparingDecidable (p : Poller) : (events : List Event) → Decidable (Sparing v p events)
  | [] => .isTrue trivial
  | e::es => @instDecidableAnd _ _ _ (sparingDecidable (p.step e).2 es)

structure Steady (p : Poller) : Prop where
  running : ∀ b, v.get p.registry = some b → Conforms v.settings b ∧ b.updatedAt ≤ p.clock
  saved : ∀ b, p.checkpoint.bind v.get = some b → Conforms v.settings b

end

def FixedSettings (key : String) (settings : Settings) (events : List Event) : Prop :=
  ∀ e ∈ events, ∀ clock schedules, e.act = .restart clock schedules → ∀ s ∈ schedules, s.key = key →
    s.settings = settings

inductive Rested (nowS : ℚ) : Option TokenBucket → Option TokenBucket → Prop where
  | kept (b) : Rested nowS b b
  | refilled (b : TokenBucket) : Rested nowS (some b) (some (b.refill nowS))

def spent (b : TokenBucket) (nowS : ℚ) : TokenBucket := { b.refill nowS with tokens := (b.refill nowS).tokens - 1 }

section
variable {settings : Settings} {b : TokenBucket} {nowS : ℚ}

theorem Settings.perSecondNonneg (settings : Settings) : 0 ≤ settings.perSecond :=
  div_nonneg settings.nonneg (by norm_num)

@[simp] theorem refillTwice : (b.refill nowS).refill nowS = b.refill nowS := by
  simp [TokenBucket.refill]

@[simp] theorem bucketRefill : (bucket settings nowS).refill nowS = bucket settings nowS := by
  simp [TokenBucket.refill,bucket]

theorem bucketConforms : Conforms settings (bucket settings nowS) := ⟨rfl,rfl,Nat.cast_nonneg _,le_refl _⟩

theorem Conforms.refill (conforms : Conforms settings b) : Conforms settings (b.refill nowS) where
  capacity := conforms.capacity
  rate := conforms.rate
  nonneg := by
    have gained : 0 ≤ max 0 (nowS - b.updatedAt) * b.refillPerS :=
      mul_nonneg (le_max_left _ _) (conforms.rate ▸ settings.perSecondNonneg)
    have room : (0 : ℚ) ≤ b.capacity := conforms.capacity ▸ Nat.cast_nonneg _
    exact le_min room (add_nonneg conforms.nonneg gained)
  capped := (min_le_left _ _).trans conforms.capacity.le

theorem Conforms.spent (conforms : Conforms settings b) (enough : 1 ≤ (b.refill nowS).tokens) :
    Conforms settings (spent b nowS) where
  capacity := conforms.capacity
  rate := conforms.rate
  nonneg := sub_nonneg.mpr enough
  capped := (sub_le_self _ (by norm_num)).trans (@Conforms.refill settings b nowS conforms).capped

theorem Conforms.later (conforms : Conforms settings b) (past : b.updatedAt ≤ nowS) {ticked elapsed : ℚ}
    (monotone : 0 ≤ ticked) (slow : ticked ≤ elapsed) :
    (b.refill (nowS + ticked)).tokens ≤ (b.refill nowS).tokens + settings.perSecond * elapsed := by
  have rate := settings.perSecondNonneg
  have gained : settings.perSecond * ticked ≤ settings.perSecond * elapsed := mul_le_mul_of_nonneg_left slow rate
  simp only [TokenBucket.refill,conforms.rate]
  rw [max_eq_right (by linarith),max_eq_right (by linarith)]
  rcases le_total b.capacity (b.tokens + (nowS - b.updatedAt) * settings.perSecond) with full | short
  · rw [min_eq_left full]
    refine (min_le_left _ _).trans (le_add_of_nonneg_right ?_)
    exact mul_nonneg rate (monotone.trans slow)
  · rw [min_eq_right short]
    refine (min_le_right _ _).trans ?_
    calc b.tokens + (nowS + ticked - b.updatedAt) * settings.perSecond
        = b.tokens + (nowS - b.updatedAt) * settings.perSecond + settings.perSecond * ticked := by ring
      _ ≤ _ := by linarith

theorem acquireSpends (enough : 1 ≤ (b.refill nowS).tokens) : ((b.refill nowS).acquire nowS).2 = spent b nowS := by
  simp [TokenBucket.acquire,TokenBucket.canAcquire,enough,spent]

end

section
variable (r : BucketRegistry) (sourceKey domainKey : String) (nowS : ℚ)

inductive Admission : Bool × BucketRegistry → Prop where
  | unknown (none_ : r.sourceBuckets sourceKey = none) : Admission (false,r)
  | denied (b d) (source : r.sourceBuckets sourceKey = some b)
      (rested : Rested nowS (some (r.domain domainKey nowS)) (some d)) :
      Admission (false,(r.setDomain domainKey d).setSource sourceKey (b.refill nowS))
  | admitted (b) (source : r.sourceBuckets sourceKey = some b) (sourceHas : 1 ≤ (b.refill nowS).tokens)
      (domainHas : 1 ≤ ((r.domain domainKey nowS).refill nowS).tokens) :
      Admission (true,(r.setDomain domainKey (spent (r.domain domainKey nowS) nowS)).setSource sourceKey (spent b nowS))

theorem admitSpec : Admission r sourceKey domainKey nowS (r.admit_ sourceKey domainKey nowS) := by
  cases source : r.sourceBuckets sourceKey with
  | none =>
    simp only [BucketRegistry.admit_,source]
    exact .unknown source
  | some b =>
    by_cases sourceHas : 1 ≤ (b.refill nowS).tokens
    · by_cases domainHas : 1 ≤ ((r.domain domainKey nowS).refill nowS).tokens
      · simp only [BucketRegistry.admit_,source,TokenBucket.canAcquire,sourceHas,domainHas,decide_true,
          acquireSpends sourceHas,acquireSpends domainHas]
        exact .admitted b source sourceHas domainHas
      · simp only [BucketRegistry.admit_,source,TokenBucket.canAcquire,sourceHas,domainHas,decide_true,decide_false]
        exact .denied b _ source (.refilled _)
    · simp only [BucketRegistry.admit_,source,TokenBucket.canAcquire,sourceHas,decide_false]
      exact .denied b _ source (.kept _)

end
inductive Moved (settings : Settings) (nowS : ℚ) (b : Option TokenBucket) : Bool → Option TokenBucket → Prop where
  | kept : Moved settings nowS b false b
  | rested (d) (rested : Rested nowS (some (b.getD (bucket settings nowS))) (some d)) :
      Moved settings nowS b false (some d)
  | paid (enough : 1 ≤ ((b.getD (bucket settings nowS)).refill nowS).tokens) :
      Moved settings nowS b true (some (spent (b.getD (bucket settings nowS)) nowS))

section
variable {settings : Settings} {nowS : ℚ} {b b' : Option TokenBucket} {hit : Bool}

theorem levelFresh : level settings (some (b.getD (bucket settings nowS))) nowS = level settings b nowS := by
  cases b with
  | none => simp [level,held,bucket,TokenBucket.refill]
  | some b => rfl

theorem Moved.level (moved : Moved settings nowS b hit b') :
    level settings b' nowS + (if hit then 1 else 0) = level settings b nowS := by
  cases moved with
  | kept => simp
  | rested d rested =>
    rw [← @levelFresh settings nowS b]
    cases rested with
    | kept => simp
    | refilled => simp [Scheduling.level,held]
  | paid enough =>
    rw [← @levelFresh settings nowS b]
    have unmoved : ((spent (b.getD (bucket settings nowS)) nowS).refill nowS).tokens =
        ((b.getD (bucket settings nowS)).refill nowS).tokens - 1 := by
      rw [TokenBucket.refill]
      simp [spent,TokenBucket.refill]
    simp [Scheduling.level,held,unmoved]

theorem Moved.conforms (moved : Moved settings nowS b hit b')
    (steady : ∀ d, b = some d → Conforms settings d ∧ d.updatedAt ≤ nowS) :
    ∀ d, b' = some d → Conforms settings d ∧ d.updatedAt ≤ nowS := by
  have fresh : Conforms settings (b.getD (bucket settings nowS)) ∧
      (b.getD (bucket settings nowS)).updatedAt ≤ nowS := by
    cases b with
    | none => exact ⟨bucketConforms,le_refl _⟩
    | some b => exact steady b rfl
  cases moved with
  | kept => exact steady
  | rested d rested =>
    rintro _ ⟨⟩
    cases rested with
    | kept => exact fresh
    | refilled => exact ⟨fresh.1.refill,le_refl _⟩
  | paid enough =>
    rintro _ ⟨⟩
    exact ⟨fresh.1.spent enough,le_refl _⟩

theorem levelBounds (steady : ∀ d, b = some d → Conforms settings d) :
    0 ≤ level settings b nowS ∧ level settings b nowS ≤ settings.burst := by
  cases b with
  | none => exact ⟨Nat.cast_nonneg _,le_refl _⟩
  | some b =>
    have refilled := @Conforms.refill settings b nowS (steady b rfl)
    exact ⟨refilled.nonneg,refilled.capped⟩

theorem levelLater (steady : ∀ d, b = some d → Conforms settings d ∧ d.updatedAt ≤ nowS) {ticked elapsed : ℚ}
    (monotone : 0 ≤ ticked) (slow : ticked ≤ elapsed) :
    level settings b (nowS + ticked) ≤ level settings b nowS + settings.perSecond * elapsed := by
  cases b with
  | none => exact le_add_of_nonneg_right (mul_nonneg settings.perSecondNonneg (monotone.trans slow))
  | some b =>
    obtain ⟨conforms,past⟩ := steady b rfl
    exact conforms.later past monotone slow

end

structure Lawful (v : View) : Prop where
  admit_ : ∀ (r : BucketRegistry) sourceKey domainKey nowS, Moved v.settings nowS (v.get r)
    ((r.admit_ sourceKey domainKey nowS).1 && v.takes (.admit_ sourceKey domainKey))
    (v.get (r.admit_ sourceKey domainKey nowS).2)
  kept : ∀ (r : BucketRegistry) nowS schedules, v.configures schedules = false →
    v.get (buildScheduler r nowS schedules).1 = v.get r
  rebased : ∀ row nowS, v.get (loadBuckets row nowS) = (row.bind v.get).map fun b => { b with updatedAt := nowS }

section
variable {key : String} {settings : Settings}

theorem startClockCons (nowS : ℚ) (s : Schedule) (rest : List Schedule) :
    startClock nowS (s::rest) = startClock (nowS + s.waited) rest := by
  simp [startClock,add_assoc]

theorem startClockLater (nowS : ℚ) (schedules : List Schedule) : nowS ≤ startClock nowS schedules := by
  induction schedules generalizing nowS with
  | nil => simp [startClock]
  | cons s rest ih =>
    rw [startClockCons]
    exact (le_add_of_nonneg_right s.monotone).trans (ih _)

theorem buildClock (r : BucketRegistry) (nowS : ℚ) (schedules : List Schedule) :
    (buildScheduler r nowS schedules).2 = startClock nowS schedules := by
  induction schedules generalizing r nowS with
  | nil => simp [buildScheduler,startClock]
  | cons s rest ih =>
    rw [startClockCons]
    exact ih _ _

theorem buildDomains (r : BucketRegistry) (nowS : ℚ) (schedules : List Schedule) :
    (buildScheduler r nowS schedules).1.domainBuckets = r.domainBuckets := by
  induction schedules generalizing r nowS with
  | nil => rfl
  | cons s rest ih =>
    refine (ih _ _).trans ?_
    split <;> rfl

theorem buildKeeps (r : BucketRegistry) (nowS : ℚ) {schedules : List Schedule}
    (apart : (sourceView key settings).configures schedules = false) :
    (buildScheduler r nowS schedules).1.sourceBuckets key = r.sourceBuckets key := by
  induction schedules generalizing r nowS with
  | nil => rfl
  | cons s rest ih =>
    simp only [sourceView,List.any_cons,Bool.or_eq_false_iff] at apart
    refine (ih _ _ apart.2).trans ?_
    cases blocked : s.blocked with
    | true => rfl
    | false =>
      have other : s.key ≠ key := by simpa [blocked] using apart.1
      exact Function.update_of_ne (Ne.symm other) _ _

theorem buildFills (r : BucketRegistry) (nowS : ℚ) {schedules : List Schedule}
    (given : ∀ s ∈ schedules, s.key = key → s.settings = settings)
    (own : (sourceView key settings).configures schedules = true) : ∃ at_ ≤ startClock nowS schedules,
      (buildScheduler r nowS schedules).1.sourceBuckets key = some (bucket settings at_) := by
  induction schedules generalizing r nowS with
  | nil => simp [sourceView] at own
  | cons s rest ih =>
    rw [startClockCons]
    cases again : (sourceView key settings).configures rest with
    | true => exact ih _ _ (fun x mem => given x (List.mem_cons_of_mem _ mem)) again
    | false =>
      have here : s.blocked = false ∧ s.key = key := by
        simp only [sourceView] at again
        simpa [sourceView,again] using own
      refine ⟨nowS + s.waited,startClockLater _ _,(buildKeeps _ _ again).trans ?_⟩
      simp only [here.1,here.2,given s List.mem_cons_self here.2,Bool.false_eq_true,if_false]
      exact Function.update_self _ _ _

end

theorem sourceLawful (key : String) (settings : Settings) : Lawful (sourceView key settings) where
  admit_ r sourceKey domainKey nowS := by
    simp only [sourceView]
    have spec := admitSpec r sourceKey domainKey nowS
    generalize r.admit_ sourceKey domainKey nowS = out at spec
    cases spec with
    | unknown none_ => exact .kept
    | denied b d source rested =>
      simp only [BucketRegistry.setSource,BucketRegistry.setDomain,Bool.false_and]
      by_cases own : key = sourceKey
      · subst own
        rw [Function.update_self,source]
        exact .rested _ (.refilled b)
      · rw [Function.update_of_ne own]
        exact .kept
    | admitted b source sourceHas domainHas =>
      simp only [BucketRegistry.setSource,BucketRegistry.setDomain,Bool.true_and]
      by_cases own : key = sourceKey
      · subst own
        rw [Function.update_self,source,decide_eq_true rfl]
        exact .paid sourceHas
      · rw [Function.update_of_ne own,decide_eq_false (Ne.symm own)]
        exact .kept
  kept r nowS _ apart := buildKeeps r nowS apart
  rebased row nowS := by cases row <;> rfl

theorem domainLawful (key : String) : Lawful (domainView key) where
  admit_ r sourceKey domainKey nowS := by
    simp only [domainView]
    have spec := admitSpec r sourceKey domainKey nowS
    generalize r.admit_ sourceKey domainKey nowS = out at spec
    cases spec with
    | unknown none_ => exact .kept
    | denied b d source rested =>
      simp only [BucketRegistry.setSource,BucketRegistry.setDomain,Bool.false_and]
      by_cases own : key = domainKey
      · subst own
        rw [Function.update_self]
        exact .rested d rested
      · rw [Function.update_of_ne own]
        exact .kept
    | admitted b source sourceHas domainHas =>
      simp only [BucketRegistry.setSource,BucketRegistry.setDomain,Bool.true_and]
      by_cases own : key = domainKey
      · subst own
        rw [Function.update_self,decide_eq_true rfl]
        exact .paid domainHas
      · rw [Function.update_of_ne own,decide_eq_false (Ne.symm own)]
        exact .kept
  kept r nowS schedules _ := congrFun (buildDomains r nowS schedules) key
  rebased row nowS := by cases row <;> rfl

section
variable {v : View} {p : Poller} {e : Event}

structure Pays (v : View) (p : Poller) (e : Event) : Prop where
  steady : Steady v (p.step e).2
  capped : level v.settings (v.get (p.step e).2.registry) (p.step e).2.clock +
    (if (p.step e).1 && v.takes e.act then 1 else 0) ≤ v.settings.burst
  refilled : level v.settings (v.get (p.step e).2.registry) (p.step e).2.clock +
    (if (p.step e).1 && v.takes e.act then 1 else 0) ≤
      level v.settings (v.get p.registry) p.clock + v.settings.perSecond * e.elapsed

theorem Steady.levelBounds (steady : Steady v p) (nowS : ℚ) :
    0 ≤ level v.settings (v.get p.registry) nowS ∧ level v.settings (v.get p.registry) nowS ≤ v.settings.burst :=
  Scheduling.levelBounds fun b is => (steady.running b is).1

theorem Steady.pass (steady : Steady v p) : Steady v (p.pass e) where
  running b is := by
    obtain ⟨conforms,past⟩ := steady.running b is
    exact ⟨conforms,past.trans (le_add_of_nonneg_right e.monotone)⟩
  saved := steady.saved

theorem movedPays (steady : Steady v p) (slow : e.ticked ≤ e.elapsed)
    (checkpoint : ∀ b, (p.step e).2.checkpoint.bind v.get = some b → Conforms v.settings b)
    (clock : (p.step e).2.clock = p.clock + e.ticked)
    (moved : Moved v.settings (p.clock + e.ticked) (v.get p.registry) ((p.step e).1 && v.takes e.act)
      (v.get (p.step e).2.registry)) : Pays v p e where
  steady := ⟨by rw [clock]; exact moved.conforms (@Steady.pass v p e steady).running,checkpoint⟩
  capped := by
    rw [clock,moved.level]
    exact (steady.levelBounds _).2
  refilled := by
    rw [clock,moved.level]
    exact levelLater steady.running e.monotone slow

def Fills (v : View) (e : Event) : Prop := ∀ clock schedules, e.act = .restart clock schedules →
    v.configures schedules = true →
  ∀ r, ∃ at_ ≤ startClock clock schedules, v.get (buildScheduler r clock schedules).1 = some (bucket v.settings at_)

theorem restartPays (lawful : Lawful v) (steady : Steady v p) (fills : Fills v e) {clock : ℚ}
    {schedules : List Schedule} (act : e.act = .restart clock schedules) : Steady v (p.step e).2 ∧
      level v.settings (v.get (p.step e).2.registry) (p.step e).2.clock = returned v p.checkpoint clock schedules := by
  have is : p.step e = (false,{ p.pass e with
      registry := (buildScheduler (loadBuckets p.checkpoint clock) clock schedules).1
      clock := startClock clock schedules }) := by
    simp [Poller.step,act,Poller.perform,Poller.pass,← buildClock (loadBuckets p.checkpoint clock) clock schedules]
  rw [is]
  cases own : v.configures schedules with
  | true =>
    obtain ⟨at_,past,here⟩ := fills clock schedules act own (loadBuckets p.checkpoint clock)
    refine ⟨⟨fun b is => ?_,steady.saved⟩,?_⟩
    · cases here.symm.trans is
      exact ⟨bucketConforms,past⟩
    · have conforms := @bucketConforms v.settings at_
      have full : v.settings.burst ≤ ((bucket v.settings at_).refill (startClock clock schedules)).tokens := by
        refine le_min (le_refl _) (le_add_of_nonneg_right ?_)
        exact mul_nonneg (le_max_left _ _) v.settings.perSecondNonneg
      simp only [here,returned,own,if_true]
      exact le_antisymm conforms.refill.capped full
  | false =>
    have here : v.get (buildScheduler (loadBuckets p.checkpoint clock) clock schedules).1 =
        (p.checkpoint.bind v.get).map fun b => { b with updatedAt := clock } :=
      (lawful.kept _ _ _ own).trans (lawful.rebased _ _)
    refine ⟨⟨fun b is => ?_,steady.saved⟩,?_⟩
    · obtain ⟨d,saved,rfl⟩ := Option.map_eq_some_iff.mp (here.symm.trans is)
      obtain ⟨capacity,rate,nonneg,capped⟩ := steady.saved d saved
      exact ⟨⟨capacity,rate,nonneg,capped⟩,startClockLater _ _⟩
    · simp [here,returned,own]

theorem eventPays (lawful : Lawful v) (steady : Steady v p) (spared : Spared v p e) (fills : Fills v e) :
    Pays v p e := by
  cases act : e.act with
  | admit_ sourceKey domainKey =>
    have is : p.step e = ((p.registry.admit_ sourceKey domainKey (p.clock + e.ticked)).1,
        { p.pass e with registry := (p.registry.admit_ sourceKey domainKey (p.clock + e.ticked)).2 }) := by
      simp [Poller.step,act,Poller.perform,Poller.pass]
    refine movedPays steady (spared.clock (by simp [act])) ?_ ?_ ?_
    · rw [is]
      exact steady.saved
    · rw [is]
      rfl
    · rw [is,act]
      exact lawful.admit_ p.registry sourceKey domainKey (p.clock + e.ticked)
  | save =>
    have is : p.step e = (false,{ p.pass e with checkpoint := some p.registry }) := by
      simp [Poller.step,act,Poller.perform,Poller.pass]
    refine movedPays steady (spared.clock (by simp [act])) ?_ ?_ ?_
    · rw [is]
      exact fun b saved => (steady.running b saved).1
    · rw [is]
      rfl
    · rw [is]
      exact .kept
  | restart clock schedules =>
    obtain ⟨kept,same⟩ := restartPays lawful steady fills act
    have denied : (p.step e).1 = false := by simp [Poller.step,act,Poller.perform]
    refine ⟨kept,?_,?_⟩
    · simpa [denied] using (kept.levelBounds _).2
    · simpa [denied,same] using spared.restart clock schedules act

theorem stepAt : (p.step e).2.at_ = p.at_ + e.elapsed := by
  cases act : e.act <;> simp [Poller.step,act,Poller.perform,Poller.pass]

theorem logMetered (lawful : Lawful v) {events : List Event} (steady : Steady v p) (sparing : Sparing v p events)
    (fills : ∀ e ∈ events, Fills v e) :
    Metered Entry.at_ (fun x => x.admitted && v.takes x.act) v.settings.perSecond v.settings.burst p.at_
      (level v.settings (v.get p.registry) p.clock) (p.log events) := by
  induction events generalizing p with
  | nil => exact .nil _ _
  | cons e es ih =>
    obtain ⟨spared,sparing⟩ := sparing
    have pays := eventPays lawful steady spared (fills e List.mem_cons_self)
    have tail := ih pays.steady sparing fun x mem => fills x (List.mem_cons_of_mem _ mem)
    have passed : (p.step e).2.at_ - p.at_ = e.elapsed := by rw [stepAt,add_sub_cancel_left]
    refine .cons ?_ (pays.steady.levelBounds _).1 pays.capped ?_ tail
    · rw [stepAt]
      exact le_add_of_nonneg_right e.forward
    · rw [passed]
      exact pays.refilled

end

theorem startSteady (v : View) (empty : v.get {} = none) : Steady v {} where
  running b here := by
    rw [empty] at here
    cases here
  saved := nofun

def takesSource (key : String) (x : Entry) : Bool := x.admitted && match x.act with
  | .admit_ source _ => source = key
  | _ => false

def takesDomain (key : String) (x : Entry) : Bool := x.admitted && match x.act with
  | .admit_ _ domain => domain = key
  | _ => false

structure Denied (p p' : Poller) (nowS : ℚ) : Prop where
  source : ∀ key, Rested nowS (p.registry.sourceBuckets key) (p'.registry.sourceBuckets key)
  domain : ∀ key, Rested nowS (p.registry.domainBuckets key) (p'.registry.domainBuckets key) ∨
    p.registry.domainBuckets key = none ∧ p'.registry.domainBuckets key = some (bucket domainSettings nowS)
  checkpoint : p'.checkpoint = p.checkpoint

theorem denialRests {p : Poller} {e : Event} {sourceKey domainKey : String} (is : e.act = .admit_ sourceKey domainKey)
    (denied : (p.step e).1 = false) : Denied p (p.step e).2 (p.clock + e.ticked) := by
  have spec := admitSpec p.registry sourceKey domainKey (p.clock + e.ticked)
  have stepped : p.step e = ((p.registry.admit_ sourceKey domainKey (p.clock + e.ticked)).1,
      { p.pass e with registry := (p.registry.admit_ sourceKey domainKey (p.clock + e.ticked)).2 }) := by
    simp [Poller.step,is,Poller.perform,Poller.pass]
  rw [stepped] at denied ⊢
  generalize p.registry.admit_ sourceKey domainKey (p.clock + e.ticked) = out at spec denied
  cases spec with
  | unknown none_ => exact ⟨fun _ => .kept _,fun _ => .inl (.kept _),rfl⟩
  | denied b d source rested =>
    refine ⟨fun key => ?_,fun key => ?_,rfl⟩
    · by_cases own : key = sourceKey
      · subst own
        simpa [BucketRegistry.setSource,BucketRegistry.setDomain,source] using .refilled b
      · simpa [BucketRegistry.setSource,BucketRegistry.setDomain,own] using .kept _
    · by_cases own : key = domainKey
      · subst own
        simp only [BucketRegistry.setSource,BucketRegistry.setDomain,Function.update_self]
        simp only [BucketRegistry.domain] at rested
        cases here : p.registry.domainBuckets key with
        | some b =>
          rw [here] at rested
          exact .inl rested
        | none =>
          rw [here] at rested
          refine .inr ⟨rfl,?_⟩
          cases rested with
          | kept => rfl
          | refilled => exact congrArg some bucketRefill
      · left
        simpa [BucketRegistry.setSource,BucketRegistry.setDomain,own] using .kept _
  | admitted => contradiction

def demoSettings (burst : Nat) : Settings := ⟨6,burst,by decide +kernel⟩

def after (seconds : Nat) (act : Act) : Event := ⟨seconds,seconds,act,Nat.cast_nonneg _,Nat.cast_nonneg _⟩

def scheduled (burst : Nat) : Schedule := ⟨"demo",demoSettings burst,false,0,le_refl 0⟩

def request : Event := after 0 (.admit_ "demo" "demo.invalid")

def startAfter (seconds burst : Nat) : Event := after seconds (.restart 0 [scheduled burst])

def orderly : List Event :=
  startAfter 0 3::List.replicate 3 request ++ after 0 .save::startAfter 1 3::List.replicate 3 request

def crashed : List Event :=
  startAfter 0 10::request::after 0 .save::List.replicate 9 request ++ startAfter 1 10::List.replicate 10 request

def rested : List Event := startAfter 0 3::request::after 0 .save::startAfter 10 3::List.replicate 3 request

theorem startIs (seconds burst : Nat) : ∃ n, startAfter seconds burst = startAfter n burst := ⟨seconds,rfl⟩

theorem demoFixed {burst : Nat} {events : List Event}
    (only : ∀ e ∈ events, e.act = .save ∨ e = request ∨ ∃ seconds, e = startAfter seconds burst) :
    FixedSettings "demo" (demoSettings burst) events := by
  intro e mem clock schedules is s inside own
  rcases only e mem with save | rfl | ⟨seconds,rfl⟩
  · cases save.symm.trans is
  · cases is
  · obtain ⟨-,rfl⟩ := Act.restart.inj is
    rw [List.mem_singleton.mp inside]
    rfl

end HwRadar.Scheduling
