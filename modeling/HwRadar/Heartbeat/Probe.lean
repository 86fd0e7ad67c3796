import HwRadar.Base.Decimal
import HwRadar.Ingest.Market

/-! The heartbeat of one source: a cheap reading of a SKU is compared with its last stored
observation, stored whatever comes of it, and fires a FULL run of the pipeline where the
two differ. Instants are microseconds. -/
namespace HwRadar.Heartbeat
open HwRadar.Base.Decimal HwRadar.Base.Calendar HwRadar.Ingest

inductive Amount where
  | finite (negative : Bool) (coefficient : Nat) (exponent : Int)
  | infinite (negative : Bool)
  | nan
  deriving DecidableEq, Repr

def finiteValue (negative : Bool) (coefficient : Nat) (exponent : Int) : ℚ :=
  (if negative then -(coefficient : ℚ) else coefficient) * 10 ^ exponent

def finiteText (coefficient : Nat) (exponent : Int) : List Char :=
  let digits := Nat.toDigits 10 coefficient
  let leftDigits := exponent + digits.length
  let dotPlace := if exponent ≤ 0 ∧ -6 < leftDigits then leftDigits else 1
  let body :=
    if dotPlace ≤ 0 then '0' :: '.' :: (List.replicate (-dotPlace).toNat '0' ++ digits)
    else if digits.length ≤ dotPlace then digits ++ List.replicate (dotPlace - digits.length).toNat '0'
    else digits.take dotPlace.toNat ++ '.' :: digits.drop dotPlace.toNat
  let scale := leftDigits - dotPlace
  if scale = 0 then body
  else body ++ 'E' :: (if scale < 0 then '-' else '+') :: Nat.toDigits 10 scale.natAbs

def Amount.text (a : Amount) : String :=
  let signed (negative : Bool) (cs : List Char) := String.ofList (if negative then '-' :: cs else cs)
  match a with
  | .finite negative coefficient exponent => signed negative (finiteText coefficient exponent)
  | .infinite negative => signed negative "Infinity".toList
  | .nan => "NaN"

def Amount.lt : Amount → Amount → Option Bool
  | .nan,_ | _,.nan => none
  | .infinite negative,.infinite negative' => some (negative && !negative')
  | .infinite negative,.finite .. => some negative
  | .finite ..,.infinite negative => some !negative
  | .finite n c e,.finite n' c' e' => some (finiteValue n c e < finiteValue n' c' e')

/-- `float((prev - new) / prev) >= pct`; a division by zero or of two infinities raises. -/
def dropsBy (pct : ℚ) : Amount → Amount → Option Bool
  | .finite n c e,.finite n' c' e' =>
    let prev := finiteValue n c e
    if prev = 0 then none
    else some (pct ≤ toDouble (toDigits 28 (toDigits 28 (prev - finiteValue n' c' e') / prev)))
  | .finite negative ..,.infinite negative' => some (negative ^^ negative')
  | .infinite _,_ | .nan,_ | .finite ..,.nan => none

inductive HeartbeatDecision where
  | unchanged
  | transitionDetected
  | ambiguous
  | failed
  deriving DecidableEq, Repr

structure HeartbeatReading where
  sourceSku : String
  price : Option Amount
  currency : String
  stockStatus : String
  shippingPrice : Option Amount
  httpStatus : Int
  latencyMs : Option Int
  endpoint : String
  deriving DecidableEq, Repr

def unknownStock (stockStatus : String) : Bool := stockStatus = "" || stockStatus = "unknown"

def priceText : Option Amount → String
  | none => "None"
  | some price => price.text

structure Platform where
  sha256 : String → String
  rounded : ℚ → ℤ

namespace Platform
variable (platform : Platform)

def fingerprint (price : Option Amount) (currency stockStatus : String) (shipping : Option Amount) : String :=
  platform.sha256 (priceText price ++ "|" ++ currency ++ "|" ++ stockStatus ++ "|" ++ priceText shipping)

def fp (r : HeartbeatReading) : String := platform.fingerprint r.price r.currency r.stockStatus r.shippingPrice

def decideReading (prev new : Option HeartbeatReading) (priceDropPct : ℚ := 0) : Option HeartbeatDecision :=
  match new with
  | none => some .failed
  | some new =>
    if unknownStock new.stockStatus then some .ambiguous
    else match prev with
    | none => some .transitionDetected
    | some prev =>
      if platform.fp prev = platform.fp new then some .unchanged
      else if prev.stockStatus ≠ new.stockStatus then some .transitionDetected
      else match prev.price,new.price with
      | some was,some is => do
        if ← is.lt was then
          if ← dropsBy priceDropPct was is then some .transitionDetected else some .unchanged
        else some .unchanged
      -- a price that comes or goes is no transition
      | _,_ => some .unchanged

end Platform

inductive CheapSignal where
  | shopifyProductsJson
  | woocommerceStoreApi
  | ebayBrowse
  | occJson
  | bootstrapJson
  | none
  deriving DecidableEq, Repr

structure HeartbeatRetention where
  observationClass : RetentionClass
  observationTtl : Int
  eventClass : RetentionClass
  eventTtl : Int
  observationBounded : observationClass.bounded = true
  eventBounded : eventClass.bounded = true

def heartbeatRetentionFor (cheapSignal : CheapSignal) : HeartbeatRetention :=
  if cheapSignal = .ebayBrowse then
    ⟨.ebayListingObservation,hours 6,.ebayListingObservation,hours 6,rfl,rfl⟩
  else ⟨.availabilityHeartbeat,days 30,.availabilityHeartbeatEvent,days 365,rfl,rfl⟩

def HeartbeatRetention.observed (r : HeartbeatRetention) (at_ : Int) : ObservationRetention :=
  ⟨r.observationClass,some (at_ + r.observationTtl),r.observationBounded.symm⟩

def HeartbeatRetention.reported (r : HeartbeatRetention) (at_ : Int) : ObservationRetention :=
  ⟨r.eventClass,some (at_ + r.eventTtl),r.eventBounded.symm⟩

structure Stored where
  sourceSku : String
  price : Option (Fixed 10 2)
  currency : String
  stockStatus : String
  shippingPrice : Option (Fixed 10 2)
  httpStatus : Int
  latencyMs : Option Int
  endpoint : String
  deriving DecidableEq, Repr

structure Observation where
  stored : Stored
  observedAt : Int
  decision : HeartbeatDecision
  fingerprint : String
  retention : ObservationRetention

structure HeartbeatEvent where
  sourceSku : String
  observedAt : Int
  decision : HeartbeatDecision
  prevFingerprint : String
  fingerprint : String
  prevStock : Option String
  newStock : String
  prevPrice : Option String
  newPrice : Option String
  retention : ObservationRetention

/-- A bounded character column cuts off blanks that are too many, and refuses any other text too long
and a NUL. -/
def varchar (length : Nat) (text : String) : Option String :=
  let cs := text.toList
  if cs.contains (Char.ofNat 0) then none
  else if cs.length ≤ length then some text
  else if (cs.drop length).all (· == ' ') then some (String.ofList (cs.take length))
  else none

def integerColumn (most : Int) (n : Int) : Option Int := if 0 ≤ n ∧ n ≤ most then some n else none

def nullable {α β : Type} (column : α → Option β) : Option α → Option (Option β)
  | none => some none
  | some a => (column a).map some

def cents (f : Fixed 10 2) : Amount := .finite (f.units < 0) f.units.natAbs (-2)

namespace Platform
variable (platform : Platform)

def numeric : Amount → Option (Fixed 10 2)
  | .finite n c e =>
    let units := platform.rounded (finiteValue n c e * 10 ^ 2)
    if fits : units.natAbs < 10 ^ 10 then some ⟨units,fits⟩ else none
  | .infinite _ | .nan => none

def store (r : HeartbeatReading) : Option Stored := do
  let sourceSku ← varchar 255 r.sourceSku
  let price ← nullable platform.numeric r.price
  let currency ← varchar 3 r.currency
  let stockStatus ← varchar 20 r.stockStatus
  let shippingPrice ← nullable platform.numeric r.shippingPrice
  let httpStatus ← integerColumn 32767 r.httpStatus
  let latencyMs ← nullable (integerColumn 2147483647) r.latencyMs
  let endpoint ← varchar 255 r.endpoint
  some { sourceSku, price, currency, stockStatus, shippingPrice, httpStatus, latencyMs, endpoint }

end Platform

def Stored.reading (s : Stored) : HeartbeatReading where
  sourceSku := s.sourceSku
  price := s.price.map cents
  currency := s.currency
  stockStatus := s.stockStatus
  shippingPrice := s.shippingPrice.map cents
  httpStatus := s.httpStatus
  latencyMs := s.latencyMs
  endpoint := s.endpoint

structure Tables where
  observations : List Observation := []
  events : List HeartbeatEvent := []

def lastObserved : List Observation → Option Observation
  | [] => none
  | row::rows =>
    match lastObserved rows with
    | none => some row
    | some old => if row.observedAt < old.observedAt then some old else some row

def Tables.latest (t : Tables) (sku : String) : Option Observation :=
  lastObserved (t.observations.filter fun row => row.stored.sourceSku = sku)

def Tables.taken (t : Tables) (sku : String) (at_ : Int) : Bool :=
  t.observations.any fun row => row.stored.sourceSku = sku && row.observedAt = at_

def HeartbeatDecision.fires : HeartbeatDecision → Bool
  | .transitionDetected | .ambiguous => true
  | .unchanged | .failed => false

namespace Platform
variable (platform : Platform) (retention : HeartbeatRetention)

/-- One turn of the loop of `_record_heartbeat`, at its clock; none where it raises. -/
def recordReading (r : HeartbeatReading) (observedAt : Int) (t : Tables) : Option (Tables × HeartbeatDecision) := do
  let prev := (t.latest r.sourceSku).map fun row => row.stored.reading
  let decision ← platform.decideReading prev (some r)
  let stored ← platform.store r
  -- a second observation of an instant breaks the unique key
  if t.taken stored.sourceSku observedAt then none
  else
    let row := ⟨stored,observedAt,decision,platform.fp r,retention.observed observedAt⟩
    let event := {
      sourceSku := r.sourceSku, observedAt, decision, fingerprint := platform.fp r
      prevFingerprint := (prev.map platform.fp).getD ""
      prevStock := prev.map HeartbeatReading.stockStatus, newStock := r.stockStatus
      prevPrice := (prev.bind HeartbeatReading.price).map Amount.text, newPrice := r.price.map Amount.text
      retention := retention.reported observedAt }
    some ({
      observations := row::t.observations
      events := if decision = .unchanged then t.events else event::t.events },decision)

def recordHeartbeat : List (HeartbeatReading × Int) → Tables → Tables × Option Bool
  | [],t => (t,some false)
  | (r,observedAt)::rest,t =>
    match platform.recordReading retention r observedAt t with
    | none => (t,none)
    | some (t,decision) =>
      let (t,fires) := recordHeartbeat rest t
      (t,fires.map (decision.fires || ·))

end Platform
end HwRadar.Heartbeat
