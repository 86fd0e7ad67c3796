import HwRadar.Ingest.Observing
import HwRadar.Apify.Imports

/-! What a sweep proves about the listings it did not contain, and the polling
continuity of its scope. A complete sweep delists on the spot and raises the scope's
watermark; an incomplete one only across a grace that was polled without a gap. -/
namespace HwRadar.Ingest
open HwRadar.Base.Calendar
open HwRadar.Apify (RunCompleteness)

def minContinuityTolerance : Int := minutes 15

def tolerance (lane : Option Lane) : Int :=
  max (seconds (2 * (lane.elim 0 Lane.currentIntervalS : Nat))) minContinuityTolerance

def SweepRow.record (row : SweepRow) (previous : Option Int) (tolerance observedAt : Int) : SweepRow × Option Int :=
  if row.continuityBrokenAt.any fun broken => observedAt ≤ broken then (row,none)
  else if row.lastEligibleSweepAt.any fun last => observedAt < last then (row,none)
  else
    let since := match row.continuousSince,previous with
      | some since,some previous => if tolerance < observedAt - previous then observedAt else since
      | _,_ => observedAt
    ({ row with continuousSince := some since, lastEligibleSweepAt := some observedAt },some since)

def SweepRow.broken (row : SweepRow) (eventTime : Int) : SweepRow :=
  { row with continuousSince := none, continuityBrokenAt := raised row.continuityBrokenAt eventTime }

def SweepRow.raiseCompleteSweep (row : SweepRow) (observedAt : Int) : SweepRow :=
  { row with lastCompleteSweepAt := raised row.lastCompleteSweepAt observedAt }

/-- `none` is the error of a scope row that was not ensured. The NULL scope's previous
sweep is the site's newest successful FULL run. -/
def recordContinuity (observedAt : Int) (scopeKey : Option String) (previousRun : Option Int) (m : Market) :
    Option (Market × Option Int) :=
  match m.sweepRow scopeKey with
  | none => if scopeKey.isNone then some (m,none) else none
  | some row =>
    let previous := if scopeKey.isNone then previousRun else row.lastEligibleSweepAt
    let (row,since) := row.record previous (tolerance m.lane) observedAt
    some (m.saveSweepRow scopeKey row,since)

def breakContinuity (eventTime : Int) (scopeKey : Option String) (m : Market) : Option Market :=
  match m.sweepRow scopeKey with
  | none => if scopeKey.isNone then some m else none
  | some row => some (m.saveSweepRow scopeKey (row.broken eventTime))

structure DelistScope where
  seenKeys : List String
  observedAt : Int
  complete : Bool
  absenceGrace : Int
  scopeKey : Option String
  staleAbsenceAllowed : Bool
  deriving DecidableEq

def DelistScope.grounds (scope : DelistScope) (continuousSince : Option Int) : Option (DelistReason × Option Int) :=
  if scope.complete then some (.absentFromSweep,none)
  else if !scope.staleAbsenceAllowed then none
  else match continuousSince with
  | none => none
  | some since =>
    if scope.observedAt - since < scope.absenceGrace then none
    else some (.absentStale,some (scope.observedAt - scope.absenceGrace))

def DelistScope.candidate (scope : DelistScope) (staleCutoff : Option Int) (l : Listing) : Bool :=
  l.active && !scope.seenKeys.contains l.sourceListingKey && atOrAfter scope.observedAt l.lastObservedAt &&
    l.collectionScope = scope.scopeKey && staleCutoff.all fun cutoff => l.lastSeen < cutoff

def applyDelist (scope : DelistScope) (continuousSince : Option Int) (m : Market) : Market × Nat :=
  match scope.grounds continuousSince with
  | none => (m,0)
  | some (reason,cutoff) =>
    (m.delist (scope.candidate cutoff) reason scope.observedAt,(m.listings.filter (scope.candidate cutoff)).length)

structure AbsenceCall where
  sweptScopeKey : Option String
  eligible : Bool
  gated : Option DelistScope
  eventTime : Int
  nullScopeSwept : Bool

def raiseCompleteSweep (gated : DelistScope) (sweptScopeKey : Option String) (m : Market) : Market :=
  let key := gated.scopeKey.bind fun _ => sweptScopeKey
  if gated.scopeKey.isSome && sweptScopeKey.isNone then m
  else match m.sweepRow key with
  | none => m
  | some row => m.saveSweepRow key (row.raiseCompleteSweep gated.observedAt)

def applyAbsence (call : AbsenceCall) (previousRun : Option Int) (m : Market) : Option (Market × Nat) := do
  let (m,continuousSince) ←
    if call.eligible then recordContinuity call.eventTime call.sweptScopeKey previousRun m
    else (breakContinuity call.eventTime call.sweptScopeKey m).map fun m => (m,none)
  -- a run of named scopes alone says nothing of the listings without one
  let m ←
    if call.sweptScopeKey.isSome && !call.nullScopeSwept then breakContinuity call.eventTime none m
    else some m
  match call.gated with
  | none => some (m,0)
  | some gated =>
    let (m,delisted) := applyDelist gated continuousSince m
    some (if gated.complete then raiseCompleteSweep gated call.sweptScopeKey m else m,delisted)

inductive ProviderKind where
  | local
  | apify
  deriving DecidableEq, Repr

structure ProviderRunEvidence where
  providerKind : ProviderKind
  completeness : RunCompleteness
  staleAbsenceEligible : Bool
  localOnly : staleAbsenceEligible = true → providerKind = .local

theorem ineligibleLocal {kind : ProviderKind} : false = true → kind = .local := nofun

def gateDelistScope (scope : Option DelistScope) (evidence : ProviderRunEvidence) : Option DelistScope :=
  match scope with
  | none => none
  | some scope =>
    match evidence.completeness with
    | .complete =>
      if scope.complete || (evidence.staleAbsenceEligible && scope.staleAbsenceAllowed) then some scope else none
    | .truncated =>
      if evidence.staleAbsenceEligible && scope.staleAbsenceAllowed then some { scope with complete := false } else none
    | _ => none

def countsTowardSweepContinuity (evidence : ProviderRunEvidence) (scope : Option DelistScope) : Bool :=
  if evidence.providerKind = .local then
    if evidence.completeness = .complete then true
    else evidence.completeness = .truncated && evidence.staleAbsenceEligible
  else evidence.completeness = .complete && scope.any DelistScope.complete

structure SweepReport where
  scopeKey : Option String
  scope : Option DelistScope
  evidence : ProviderRunEvidence
  eventTime : Int
  seenInRun : List String
  several : Bool
  nullSwept : Bool
  own : ∀ s ∈ scope, s.scopeKey = scopeKey ∧ s.observedAt = eventTime

def DelistScope.widened (scope : DelistScope) (seen : List String) : DelistScope :=
  { scope with seenKeys := scope.seenKeys ++ seen }

def SweepReport.call (report : SweepReport) : AbsenceCall where
  sweptScopeKey := report.scopeKey
  eligible := countsTowardSweepContinuity report.evidence report.scope &&
    (!report.several || report.scope.isSome || report.scopeKey.isNone)
  gated := (gateDelistScope report.scope report.evidence).map fun scope =>
    if report.several then scope.widened report.seenInRun else scope
  eventTime := report.eventTime
  nullScopeSwept := report.several && report.nullSwept

theorem gatedOwn {report : SweepReport} {gated : DelistScope} (here : report.call.gated = some gated) :
    gated.scopeKey = report.scopeKey ∧ gated.observedAt = report.eventTime := by
  obtain ⟨g,gates,rfl⟩ := Option.map_eq_some_iff.mp here
  have kept : ∃ s ∈ report.scope, g.scopeKey = s.scopeKey ∧ g.observedAt = s.observedAt := by
    cases found : report.scope with
    | none => simp [gateDelistScope,found] at gates
    | some scope =>
      refine ⟨scope,rfl,?_⟩
      simp only [gateDelistScope,found] at gates
      split at gates
      · split at gates
        · cases Option.some.inj gates; exact ⟨rfl,rfl⟩
        · cases gates
      · split at gates
        · cases Option.some.inj gates; exact ⟨rfl,rfl⟩
        · cases gates
      · cases gates
  obtain ⟨s,mem,key,time⟩ := kept
  obtain ⟨ownKey,ownTime⟩ := report.own s mem
  split
  · exact ⟨key.trans ownKey,time.trans ownTime⟩
  · exact ⟨key.trans ownKey,time.trans ownTime⟩

inductive IngestAct where
  | persist (retention : ObservationRetention) (observedAt : Int) (records : List Stamped)
  | absence (report : SweepReport) (previousRun : Option Int)
  | rejected (eventTime : Int) (scopeKey : String)
  | scheduled (intervalS : Nat)

def targetScopes (m : Market) (records : List Stamped) : List (Option String) :=
  records.map fun entry => entry.1.collectionScope.or
    ((m.listing entry.1.sourceListingKey).bind Listing.collectionScope)

def Market.commit (m : Market) : IngestAct → Option Market
  | .persist retention observedAt records =>
    some (persistObservations retention observedAt records (m.ensureWatermarkRows (targetScopes m records))).1
  | .absence report previousRun =>
    (applyAbsence report.call previousRun (m.ensureWatermarkRows [report.scopeKey,none])).map Prod.fst
  | .rejected eventTime scopeKey => breakContinuity eventTime (some scopeKey) (m.ensureWatermarkRows [some scopeKey])
  | .scheduled intervalS => some { m with lane := m.lane.map fun lane => { lane with currentIntervalS := intervalS } }

def IngestStep (m : Market) (act : IngestAct) (m' : Market) : Prop := m.commit act = some m'

end HwRadar.Ingest
