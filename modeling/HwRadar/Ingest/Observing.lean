import HwRadar.Ingest.Market

/-! One observation of a listing, under the guards that order imports. Content, the
relist and `last_observed_at` are written only by an observation no older than the
row's last one, its absence and its scope's newest complete sweep; ties go to
presence. Its offer is appended in any case, unless that instant has one. -/
namespace HwRadar.Ingest

def effectiveAbsence (l : Listing) : Option Int :=
  match l.lastAbsenceAt,l.delistedAt with
  | some absence,some delisted => some (max absence delisted)
  | some absence,none => some absence
  | none,delisted => delisted

def atOrAfter (observedAt : Int) (bound : Option Int) : Bool := bound.all fun at_ => at_ ≤ observedAt

/-- `_content`: a record that states no scope leaves the row's. -/
def withContent (record : NormalizedListing) (retention : ObservationRetention) (l : Listing) : Listing :=
  { l with
    canonicalUrl := record.url
    urlHash := .of record.url
    titleRaw := record.title
    conditionLabelRaw := record.conditionLabel
    isInternational := record.isInternational
    retention
    collectionScope := record.collectionScope.or l.collectionScope }

def Listing.created (record : NormalizedListing) (retention : ObservationRetention)
    (observedAt now : Int) : Listing where
  sourceListingKey := record.sourceListingKey
  canonicalUrl := record.url
  urlHash := .of record.url
  titleRaw := record.title
  titleNormalized := ""
  conditionLabelRaw := record.conditionLabel
  listingFingerprint := ""
  pageMetadata := []
  isInternational := record.isInternational
  collectionScope := record.collectionScope
  retention
  lastSeen := now
  lastObservedAt := some observedAt
  lastAbsenceAt := none
  delisted := none

def Listing.redacted (l : Listing) : Listing :=
  { l with
    canonicalUrl := ""
    urlHash := .blank
    titleRaw := ""
    titleNormalized := ""
    conditionLabelRaw := ""
    listingFingerprint := ""
    pageMetadata := [] }

def raised (old : Option Int) (stamp : Int) : Option Int := some (old.elim stamp fun at_ => max at_ stamp)

def Listing.markDelisted (reason : DelistReason) (stamp : Int) (l : Listing) : Listing :=
  let marked := { l with
    delisted := some (stamp,reason)
    lastAbsenceAt := raised l.lastAbsenceAt stamp
    retention := l.retention.pulled stamp }
  if l.retention.retentionClass.deleteOnDelist then marked.redacted else marked

def Market.delist (chosen : Listing → Bool) (reason : DelistReason) (stamp : Int) (m : Market) : Market :=
  { m with
    listings := m.listings.map fun l => if chosen l then l.markDelisted reason stamp else l
    snapshots := m.snapshots.map fun s =>
      if (m.listing s.listing).any fun l => chosen l && l.retention.retentionClass.bounded then
        { s with retention := s.retention.pulled stamp }
      else s }

def Market.markDelisted (key : String) (reason : DelistReason) (stamp : Int) (m : Market) : Market :=
  m.delist (fun l => l.sourceListingKey = key && l.active) reason stamp

def appendSnapshot (l : Listing) (record : NormalizedListing) (observedAt : Int)
    (retention : Option ObservationRetention) : OfferSnapshot where
  listing := l.sourceListingKey
  observedAt
  currency := record.currency
  itemPrice := record.price
  shippingPrice := record.shippingPrice
  stockStatus := .parse record.stockStatus
  quantityAvailable := record.quantityAvailable
  fxRate := record.fxRate
  fxPair := record.fxPair
  fxRateDate := record.fxRateDate
  fxSource := record.fxSource
  categoryHint := record.categoryHint
  retention := retention.getD l.retention

def Market.observed (m : Market) (key : String) (at_ : Int) : Bool :=
  m.snapshots.any fun s => s.listing = key && s.observedAt = at_

/-- `_append_history`: newer absence pulls a bounded deadline; one already past is not written. -/
def historyOf (record : NormalizedListing) (retention : ObservationRetention) (observedAt now : Int)
    (absenceAfter : Option Int) (l : Listing) (m : Market) : Option OfferSnapshot :=
  if m.observed l.sourceListingKey observedAt then none
  else match absenceAfter with
  | none => some (appendSnapshot l record observedAt (some retention))
  | some absence =>
    if !retention.retentionClass.bounded then some (appendSnapshot l record observedAt (some retention))
    else if (retention.pulled absence).expiresAt.any fun at_ => at_ ≤ now then none
    else some (appendSnapshot l record observedAt (some (retention.pulled absence)))

def Market.append (m : Market) (snapshot : Option OfferSnapshot) : Market :=
  { m with snapshots := m.snapshots ++ snapshot.toList }

structure Observation where
  listing : Listing
  created : Bool
  currentEligible : Bool
  snapshot : Option OfferSnapshot

def observeListing (record : NormalizedListing) (retention : ObservationRetention) (observedAt now : Int)
    (existing : Option Listing) (scopeCompleteSweepAt : Option Int) (m : Market) : Market × Observation :=
  match existing with
  | none =>
    let l := Listing.created record retention observedAt now
    let m := m.saveListing l
    match scopeCompleteSweepAt with
    | some sweep =>
      if observedAt < sweep then
        -- a history anchor: never active, and retired with the sweep it is older than
        let marked := l.markDelisted .absentFromSweep sweep
        let m := m.markDelisted l.sourceListingKey .absentFromSweep sweep
        let snapshot := historyOf record retention observedAt now (some sweep) marked m
        (m.append snapshot,⟨marked,true,false,snapshot⟩)
      else
        let snapshot := historyOf record retention observedAt now none l m
        (m.append snapshot,⟨l,true,true,snapshot⟩)
    | none =>
      let snapshot := historyOf record retention observedAt now none l m
      (m.append snapshot,⟨l,true,true,snapshot⟩)
  | some row =>
    let absence := effectiveAbsence row
    if atOrAfter observedAt row.lastObservedAt && atOrAfter observedAt absence &&
        atOrAfter observedAt scopeCompleteSweepAt then
      let l := { withContent record retention row with
        lastObservedAt := some observedAt
        delisted := none
        lastSeen := now }
      let m := m.saveListing l
      let snapshot := historyOf record retention observedAt now none l m
      (m.append snapshot,⟨l,false,true,snapshot⟩)
    else
      let snapshot := historyOf record retention observedAt now (absence.filter fun at_ => observedAt < at_) row m
      (m.append snapshot,⟨row,false,false,snapshot⟩)

def Market.completeSweepAt (m : Market) (scope : Option String) : Option Int :=
  (m.sweepRow scope).bind SweepRow.lastCompleteSweepAt

def observeRecord (retention : ObservationRetention) (observedAt : Int) (m : Market)
    (record : NormalizedListing) (now : Int) : Market × Observation :=
  let existing := m.listing record.sourceListingKey
  let target := record.collectionScope.or (existing.bind Listing.collectionScope)
  observeListing record retention observedAt now existing (m.completeSweepAt target) m

abbrev Stamped := NormalizedListing × Int

def firstNew (m : Market) (records : List Stamped) (entry : Stamped × Nat) : Bool :=
  (m.listing entry.1.1.sourceListingKey).isNone &&
    !(records.take entry.2).any fun earlier => earlier.1.sourceListingKey = entry.1.1.sourceListingKey

/-- New keys are inserted first, in key order; the other records follow as they stand. -/
def writeOrder (m : Market) (records : List Stamped) : List Stamped :=
  let (fresh,rest) := records.zipIdx.partition (firstNew m records)
  (fresh.mergeSort fun a b => a.1.1.sourceListingKey ≤ b.1.1.sourceListingKey).map Prod.fst ++ rest.map Prod.fst

structure PersistResult where
  listingIds : List String
  upserted : Nat
  appended : Nat
  deriving DecidableEq, Repr

def persistObservations (retention : ObservationRetention) (observedAt : Int) (records : List Stamped) (m : Market) :
    Market × PersistResult :=
  let (after,appended) := (writeOrder m records).foldl (fun (m,appended) (record,now) =>
    let (m,observation) := observeRecord retention observedAt m record now
    (m,appended + if observation.snapshot.isSome then 1 else 0)) (m,0)
  (after,⟨records.map fun entry => entry.1.sourceListingKey,records.length,appended⟩)

end HwRadar.Ingest
