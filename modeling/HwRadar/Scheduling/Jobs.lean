import HwRadar.Apify.Imports
import HwRadar.Heartbeat.Probe
import HwRadar.Ingest.Absence
import HwRadar.Scheduling.Apply

/-! The poller's jobs, as far as they move a lane's interval or the trigger of the job that serves
it. An outcome is applied by four of them: the two polls compare the interval before and
after and move their own trigger; a recovery probe, an import and the rejection of a start
have no scheduler at hand. -/
namespace HwRadar.Scheduling
open HwRadar.Apify (RejectReason RunFailureClass RunKind RunCompleteness)
open HwRadar.Heartbeat (CheapSignal)
open HwRadar.Ingest (ProviderKind)

structure PolledSite where
  source : Source
  enabled : Bool
  collectionProvider : ProviderKind
  cheapSignal : CheapSignal
  retired : Bool
  admittedCategories : List String
  adapterRegistered : Bool

namespace PolledSite
variable (site : PolledSite)

def blocked : Bool := site.retired || site.admittedCategories.isEmpty

def registersFullLane : Bool :=
  !site.source.config.heartbeatEnabled || site.cheapSignal != .ebayBrowse || site.admittedCategories.any (· != "drive")

def registers : SchedulingLane → Bool
  | .full => site.registersFullLane
  | .heartbeat => site.source.config.heartbeatEnabled

def scheduled (lane : SchedulingLane) : Bool := site.enabled && !site.blocked && site.registers lane

def interval (lane : SchedulingLane) : Nat := (site.source.lanes lane).currentIntervalS

end PolledSite

structure IntervalTrigger where
  seconds : Nat → Nat
  kept : ∀ n, 0 < n → seconds n = n

structure Service where
  sites : String → Option PolledSite
  triggers : String → SchedulingLane → Option Nat

/-- The source jobs of `build_scheduler`, from the rows of `load_schedules`. -/
def startUp (trigger : IntervalTrigger) (sites : String → Option PolledSite) : Service where
  sites
  triggers key lane :=
    ((sites key).filter fun site => site.scheduled lane).map fun site => trigger.seconds (site.interval lane)

inductive DenyReason where
  | disabled
  | skipped
  | pausedPendingFix
  | backingOff
  | bucketExhausted
  deriving DecidableEq, Repr

def checkAdmission (enabled : Bool) (state : LifecycleState) (kind : RunKind) (backoffUntil : Option Int) (now : Int)
    (tokens : Bool) : Option DenyReason :=
  if !enabled then some .disabled
  else if state = .skip then some .skipped
  else if state = .pausedPendingFix ∧ kind ≠ .probe then some .pausedPendingFix
  else if backoffUntil.any (now < ·) ∧ kind ≠ .probe then some .backingOff
  else if !tokens then some .bucketExhausted
  else none

def eventByClass : RunFailureClass → LifecycleEvent
  | .transient => .transientFailure
  | .antiBot => .antiBot
  | .parserRot => .parserRot
  | .degradation => .degradation
  | .unknown => .unknownFailure

inductive Collected where
  | success
  | failure (failureClass : RunFailureClass)
  deriving DecidableEq, Repr

/-- The outcome that `run_source` returns; a failed recovery probe keeps the source paused. -/
def collectedEvent (kind : RunKind) : Collected → LifecycleEvent
  | .success => if kind = .probe then .probeSuccess else .success
  | .failure failureClass => if kind = .probe then .probeFailure else eventByClass failureClass

inductive Verdict where
  | finalized (completeness : RunCompleteness)
  | rejected (reason : RejectReason)
  deriving DecidableEq, Repr

def probeRecovers : RunCompleteness → Bool
  | .complete | .truncated => true
  | .partialFailure | .failed => false

def settledEvent (kind : RunKind) : Verdict → LifecycleEvent
  | .finalized completeness =>
    if kind = .probe then if probeRecovers completeness then .probeSuccess else .probeFailure else .success
  | .rejected reason => if kind = .full then eventByClass reason.failureClass else .probeFailure

structure Draw where
  now : Int
  rand : ℚ
  drawn : 0 ≤ rand ∧ rand ≤ 1

def Draw.call (d : Draw) (lane : SchedulingLane) (event : LifecycleEvent) : Call :=
  ⟨lane,⟨event,none⟩,d.now,d.rand,d.drawn⟩

def commit (key : String) (c : Call) (s : Service) : Option Service := do
  let site ← s.sites key
  let source ← applyRunOutcome c site.source
  some { s with sites := Function.update s.sites key (some { site with source }) }

inductive Start where
  | refused
  | started
  | mismatched (draw : Draw)

structure Attempt where
  now : Int
  tokens : Bool
  outstanding : Bool := false
  start : Start := .refused
  collected : Option Collected := none
  draw : Draw

def Start.call (kind : RunKind) : Start → Option Call
  | .refused | .started => none
  | .mismatched draw => some (draw.call .full (settledEvent kind (.rejected .startOptionMismatch)))

inductive Visit where
  | skipped
  | raised
  | applies (c : Call)

/-- One turn of the loop of `recovery_probe_job`, with the configuration that the job read first. -/
def visit (paused : PolledSite) (a : Attempt) (s : Service) (key : String) : Visit :=
  let backoffUntil := (s.sites key).bind fun site => (site.source.lanes .full).backoffUntil
  let denied := checkAdmission paused.enabled paused.source.config.lifecycleState .probe backoffUntil a.now a.tokens
  if paused.blocked then .skipped
  else if paused.collectionProvider = .apify then
    if a.outstanding || denied.isSome then .skipped
    else match a.start.call .probe with
    | none => .skipped
    | some c => .applies c
  else if !paused.adapterRegistered || denied.isSome then .skipped
  -- a local run that raises ends the loop over the sources
  else match a.collected with
  | none => .raised
  | some collected => .applies (a.draw.call .full (collectedEvent .probe collected))

def Service.paused (s : Service) (key : String) : Option PolledSite :=
  (s.sites key).filter fun site => site.enabled && site.source.config.lifecycleState = .pausedPendingFix

def recoveryProbe : List (String × PolledSite × Attempt) → Service → Service
  | [],s => s
  | (key,paused,a)::rest,s =>
    match visit paused a s key with
    | .skipped => recoveryProbe rest s
    | .raised => s
    | .applies c =>
      match commit key c s with
      | none => s
      | some t => recoveryProbe rest t

structure Settlement where
  key : String
  kind : RunKind
  verdict : Verdict
  draw : Draw

def Settlement.call (x : Settlement) : Call := x.draw.call .full (settledEvent x.kind x.verdict)

/-- One unit of `apify_poll_tick`; a failed one leaves the rows and the others. -/
def settle (x : Settlement) (s : Service) : Service := (commit x.key x.call s).getD s

def Service.setTrigger (s : Service) (key : String) (lane : SchedulingLane) (seconds : Nat) : Service where
  sites := s.sites
  triggers := Function.update s.triggers key (Function.update (s.triggers key) lane (some seconds))

section
variable (trigger : IntervalTrigger)

def reschedule (key : String) (lane : SchedulingLane) (before : Nat) (s : Service) : Service :=
  match s.sites key,s.triggers key lane with
  | some site,some _ =>
    if site.interval lane ≠ before then s.setTrigger key lane (trigger.seconds (site.interval lane)) else s
  | _,_ => s

def pollLocal (key : String) (site : PolledSite) (lane : SchedulingLane) (a : Attempt) (s : Service) : Service :=
  if !site.adapterRegistered then s
  else match a.collected with
  | none => s
  | some collected =>
    match commit key (a.draw.call lane (collectedEvent .full collected)) s with
    | none => s
    | some t => reschedule trigger key lane (site.interval lane) t

def pollSource (key : String) (a : Attempt) (s : Service) : Service :=
  match s.sites key with
  | none => s
  | some site =>
    let backoffUntil := (site.source.lanes .full).backoffUntil
    if (checkAdmission site.enabled site.source.config.lifecycleState .full backoffUntil a.now a.tokens).isSome then s
    else if site.collectionProvider = .apify then
      match a.start.call .full with
      | none => s
      | some c => (commit key c s).getD s
    else pollLocal trigger key site .full a s

def pollHeartbeat (key : String) (a : Attempt) (s : Service) : Service :=
  match s.sites key with
  | none => s
  | some site =>
    let backoffUntil := (site.source.lanes .heartbeat).backoffUntil
    if (checkAdmission site.enabled site.source.config.lifecycleState .heartbeat backoffUntil a.now
      a.tokens).isSome then s
    else pollLocal trigger key site .heartbeat a s

inductive Job where
  | pollSource (key : String) (a : Attempt)
  | pollHeartbeat (key : String) (a : Attempt)
  | recoveryProbe (attempts : List (String × Attempt))
  | apifyPoll (settlements : List Settlement)

def execute (job : Job) (s : Service) : Service :=
  match job with
  | .pollSource key a => pollSource trigger key a s
  | .pollHeartbeat key a => pollHeartbeat trigger key a s
  | .recoveryProbe attempts =>
    recoveryProbe (attempts.filterMap fun (key,a) => (s.paused key).map fun paused => (key,paused,a)) s
  | .apifyPoll settlements => settlements.foldl (fun s x => settle x s) s

end
end HwRadar.Scheduling
