import Mathlib.Algebra.Order.Ring.Unbundled.Rat
import Mathlib.Logic.Function.Basic

/-! The two-level token buckets of the poller, their checkpoint, and the poller's life as a
list of events: admissions, checkpoints and restarts. Arithmetic is exact. -/
namespace HwRadar.Scheduling

structure TokenBucket where
  capacity : ℚ
  refillPerS : ℚ
  tokens : ℚ
  updatedAt : ℚ
  deriving DecidableEq, Repr

namespace TokenBucket

def refill (b : TokenBucket) (nowS : ℚ) : TokenBucket :=
  let elapsed := max 0 (nowS - b.updatedAt)
  { b with tokens := min b.capacity (b.tokens + elapsed * b.refillPerS), updatedAt := nowS }

def canAcquire (b : TokenBucket) (nowS : ℚ) (cost : ℚ := 1) : Bool × TokenBucket :=
  (cost ≤ (b.refill nowS).tokens,b.refill nowS)

def acquire (b : TokenBucket) (nowS : ℚ) (cost : ℚ := 1) : Bool × TokenBucket :=
  match b.canAcquire nowS cost with
  | (false,b) => (false,b)
  | (true,b) => (true,{ b with tokens := b.tokens - cost })

end TokenBucket

structure Settings where
  ratePerMin : ℚ
  burst : Nat
  nonneg : 0 ≤ ratePerMin

def Settings.perSecond (settings : Settings) : ℚ := settings.ratePerMin / 60

def bucket (settings : Settings) (nowS : ℚ) : TokenBucket :=
  ⟨settings.burst,settings.perSecond,settings.burst,nowS⟩

/-- `DOMAIN_RATE_PER_MIN` and `DOMAIN_BURST` -/
def domainSettings : Settings := ⟨30,10,by decide +kernel⟩

structure BucketRegistry where
  sourceBuckets : String → Option TokenBucket := fun _ => none
  domainBuckets : String → Option TokenBucket := fun _ => none

namespace BucketRegistry
variable (r : BucketRegistry)

def setSource (key : String) (b : TokenBucket) : BucketRegistry :=
  { r with sourceBuckets := Function.update r.sourceBuckets key (some b) }

def setDomain (domain : String) (b : TokenBucket) : BucketRegistry :=
  { r with domainBuckets := Function.update r.domainBuckets domain (some b) }

def configureSource (key : String) (settings : Settings) (nowS : ℚ) : BucketRegistry :=
  r.setSource key (bucket settings nowS)

def domain (key : String) (nowS : ℚ) : TokenBucket := (r.domainBuckets key).getD (bucket domainSettings nowS)

def admit_ (sourceKey domainKey : String) (nowS : ℚ) : Bool × BucketRegistry :=
  match r.sourceBuckets sourceKey with
  | none => (false,r)
  | some source =>
    let domainBucket := r.domain domainKey nowS
    match source.canAcquire nowS with
    | (false,source) => (false,(r.setDomain domainKey domainBucket).setSource sourceKey source)
    | (true,source) =>
      match domainBucket.canAcquire nowS with
      | (false,domainBucket) => (false,(r.setDomain domainKey domainBucket).setSource sourceKey source)
      | (true,domainBucket) =>
        (true,(r.setDomain domainKey (domainBucket.acquire nowS).2).setSource sourceKey (source.acquire nowS).2)

/-- What `load_buckets` makes of the saved state: every bucket counts from now. -/
def rebased (nowS : ℚ) : BucketRegistry where
  sourceBuckets key := (r.sourceBuckets key).map fun b => { b with updatedAt := nowS }
  domainBuckets key := (r.domainBuckets key).map fun b => { b with updatedAt := nowS }

end BucketRegistry

def loadBuckets (row : Option BucketRegistry) (nowS : ℚ) : BucketRegistry :=
  match row with
  | none => {}
  | some saved => saved.rebased nowS

structure Schedule where
  key : String
  settings : Settings
  blocked : Bool
  waited : ℚ
  monotone : 0 ≤ waited

def buildScheduler (r : BucketRegistry) (nowS : ℚ) : List Schedule → BucketRegistry × ℚ
  | [] => (r,nowS)
  | s::rest => buildScheduler (if s.blocked then r else r.configureSource s.key s.settings (nowS + s.waited))
      (nowS + s.waited) rest

structure Poller where
  registry : BucketRegistry := {}
  checkpoint : Option BucketRegistry := none
  at_ : ℚ := 0
  clock : ℚ := 0

inductive Act where
  | admit_ (sourceKey domainKey : String)
  | save
  | restart (clock : ℚ) (schedules : List Schedule)

structure Event where
  elapsed : ℚ
  ticked : ℚ
  act : Act
  forward : 0 ≤ elapsed
  monotone : 0 ≤ ticked

def Poller.pass (p : Poller) (e : Event) : Poller := { p with at_ := p.at_ + e.elapsed, clock := p.clock + e.ticked }

def Poller.perform (p : Poller) : Act → Bool × Poller
  | .admit_ sourceKey domainKey =>
    let (admitted,registry) := p.registry.admit_ sourceKey domainKey p.clock
    (admitted,{ p with registry })
  | .save => (false,{ p with checkpoint := some p.registry })
  | .restart clock schedules =>
    let (registry,clock) := buildScheduler (loadBuckets p.checkpoint clock) clock schedules
    (false,{ p with registry, clock })

def Poller.step (p : Poller) (e : Event) : Bool × Poller := (p.pass e).perform e.act

structure Entry where
  at_ : ℚ
  act : Act
  admitted : Bool

def Poller.log (p : Poller) : List Event → List Entry
  | [] => []
  | e::es => ⟨(p.step e).2.at_,e.act,(p.step e).1⟩::(p.step e).2.log es

def Poller.run (p : Poller) (events : List Event) : Poller := events.foldl (fun p e => (p.step e).2) p

end HwRadar.Scheduling
