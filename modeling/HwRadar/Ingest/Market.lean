import HwRadar.Base.Calendar
import Mathlib.Data.Rat.Defs
import Mathlib.Data.List.Basic

/-! The market tables of one site: its listings by source key, the offers observed of
them, and the sweep watermarks of its collection scopes. A retention class is bounded
exactly when its row has a deadline. -/
namespace HwRadar.Ingest
open HwRadar.Base.Calendar

inductive RetentionClass where
  | merchantFact
  | ebayListingObservation
  | amazonEphemeral
  | amazonIdentifier
  | transientDiscovery
  | tavilyExtract
  | manufacturerReference
  | availabilityHeartbeat
  | availabilityHeartbeatEvent
  | listingDerivedAlias
  deriving DecidableEq, Repr

def boundedRetentionClasses : List RetentionClass :=
  [.ebayListingObservation,.amazonEphemeral,.transientDiscovery,.availabilityHeartbeat,.availabilityHeartbeatEvent]

def deleteOnDelistClasses : List RetentionClass := [.ebayListingObservation]

def RetentionClass.bounded (c : RetentionClass) : Bool := boundedRetentionClasses.contains c
def RetentionClass.deleteOnDelist (c : RetentionClass) : Bool := deleteOnDelistClasses.contains c

structure ObservationRetention where
  retentionClass : RetentionClass
  expiresAt : Option Int
  coherent : expiresAt.isSome = retentionClass.bounded
  deriving DecidableEq

def ObservationRetention.pulled (r : ObservationRetention) (stamp : Int) : ObservationRetention :=
  { r with
    expiresAt := r.expiresAt.map fun at_ => min at_ stamp
    coherent := by rw [Option.isSome_map,r.coherent] }

inductive DelistReason where
  | absentFromSweep
  | absentStale
  deriving DecidableEq, Repr

inductive StockStatus where
  | inStock
  | outOfStock
  | preorder
  | unknown
  deriving DecidableEq, Repr

def StockStatus.parse (text : String) : StockStatus :=
  if text = "in_stock" then .inStock
  else if text = "out_of_stock" then .outOfStock
  else if text = "preorder" then .preorder
  else .unknown

structure NormalizedListing where
  sourceListingKey : String
  url : String
  title : String
  price : ℚ
  currency : String
  shippingPrice : Option ℚ
  stockStatus : String
  quantityAvailable : Option Int
  conditionLabel : String
  categoryHint : Option String
  collectionScope : Option String
  fxRate : ℚ
  fxPair : String
  fxRateDate : Int
  fxSource : String
  isInternational : Bool
  deriving DecidableEq

inductive Digest where
  | blank
  | of (text : String)
  deriving DecidableEq, Repr

structure Listing where
  sourceListingKey : String
  canonicalUrl : String
  urlHash : Digest
  titleRaw : String
  titleNormalized : String
  conditionLabelRaw : String
  listingFingerprint : String
  pageMetadata : List (String × String)
  isInternational : Bool
  collectionScope : Option String
  retention : ObservationRetention
  lastSeen : Int
  lastObservedAt : Option Int
  lastAbsenceAt : Option Int
  delisted : Option (Int × DelistReason)
  deriving DecidableEq

def Listing.delistedAt (l : Listing) : Option Int := l.delisted.map Prod.fst

def Listing.active (l : Listing) : Bool := l.delisted.isNone

structure OfferSnapshot where
  listing : String
  observedAt : Int
  currency : String
  itemPrice : ℚ
  shippingPrice : Option ℚ
  stockStatus : StockStatus
  quantityAvailable : Option Int
  fxRate : ℚ
  fxPair : String
  fxRateDate : Int
  fxSource : String
  categoryHint : Option String
  retention : ObservationRetention
  deriving DecidableEq

structure SweepRow where
  continuousSince : Option Int
  lastEligibleSweepAt : Option Int
  continuityBrokenAt : Option Int
  lastCompleteSweepAt : Option Int
  deriving DecidableEq, Repr

def SweepRow.unset : SweepRow := ⟨none,none,none,none⟩

structure Lane extends SweepRow where
  currentIntervalS : Nat
  deriving DecidableEq, Repr

structure Market where
  listings : List Listing
  snapshots : List OfferSnapshot
  lane : Option Lane
  scopes : List (String × SweepRow)
  deriving DecidableEq

def Market.listing (m : Market) (key : String) : Option Listing :=
  m.listings.find? fun l => l.sourceListingKey == key

def rowOf (scopes : List (String × SweepRow)) (key : String) : Option SweepRow :=
  (scopes.find? fun entry => entry.1 == key).map Prod.snd

def Market.scopeRow (m : Market) (key : String) : Option SweepRow := rowOf m.scopes key

def Market.sweepRow (m : Market) : Option String → Option SweepRow
  | none => m.lane.map Lane.toSweepRow
  | some key => m.scopeRow key

def Market.saveListing (m : Market) (l : Listing) : Market :=
  { m with listings :=
      if (m.listing l.sourceListingKey).isSome then
        m.listings.map fun row => if row.sourceListingKey = l.sourceListingKey then l else row
      else m.listings ++ [l] }

def Market.saveSweepRow (m : Market) (scope : Option String) (row : SweepRow) : Market :=
  match scope with
  | none => { m with lane := m.lane.map fun lane => { lane with toSweepRow := row } }
  | some key => { m with scopes := m.scopes.map fun entry => if entry.1 = key then (key,row) else entry }

def Market.ensureWatermarkRows (m : Market) (keys : List (Option String)) : Market :=
  { m with scopes := keys.foldl (fun scopes key =>
      match key with
      | none => scopes
      | some key => if (rowOf scopes key).isSome then scopes else scopes ++ [(key,.unset)]) m.scopes }

section
variable {m : Market} {key : String}

theorem listingKey {l : Listing} (here : m.listing key = some l) : l.sourceListingKey = key := by
  simpa using List.find?_some here

theorem listingMap {f : Listing → Listing} {snapshots : List OfferSnapshot}
    (keeps : ∀ l, (f l).sourceListingKey = l.sourceListingKey) :
    { m with listings := m.listings.map f, snapshots }.listing key = (m.listing key).map f := by
  simp only [Market.listing,List.find?_map]
  congr 1
  exact congrArg (fun p => m.listings.find? p) (funext fun l => by simp [keeps])

theorem saveListingFound {l : Listing} (found : (m.listing l.sourceListingKey).isSome = true) :
    (m.saveListing l).listing key =
      (m.listing key).map fun row => if row.sourceListingKey = l.sourceListingKey then l else row := by
  simp only [Market.saveListing,found,if_true]
  refine listingMap fun row => ?_
  split
  · rename_i own
    exact own.symm
  · rfl

theorem saveListingElse {l : Listing} (differs : key ≠ l.sourceListingKey) :
    (m.saveListing l).listing key = m.listing key := by
  by_cases found : (m.listing l.sourceListingKey).isSome = true
  · rw [saveListingFound found]
    cases here : m.listing key with
    | none => rfl
    | some row => simp [listingKey here,differs]
  · simp only [Market.saveListing,found]
    simp [Market.listing,List.find?_append,differs.symm]

theorem saveListingHere (l : Listing) : (m.saveListing l).listing l.sourceListingKey = some l := by
  by_cases found : (m.listing l.sourceListingKey).isSome = true
  · rw [saveListingFound found]
    obtain ⟨row,here⟩ := Option.isSome_iff_exists.mp found
    simp [here,listingKey here]
  · simp only [Market.saveListing,found]
    simp only [Market.listing,Option.not_isSome_iff_eq_none] at found
    simp [Market.listing,List.find?_append,found]

@[simp] theorem saveListingSnapshots (l : Listing) : (m.saveListing l).snapshots = m.snapshots := rfl
@[simp] theorem saveListingLane (l : Listing) : (m.saveListing l).lane = m.lane := rfl
@[simp] theorem saveListingScopes (l : Listing) : (m.saveListing l).scopes = m.scopes := rfl

theorem rowMap {scopes : List (String × SweepRow)} {name : String} {row : SweepRow} :
    rowOf (scopes.map fun entry => if entry.1 = name then (name,row) else entry) key =
      (rowOf scopes key).map fun old => if key = name then row else old := by
  induction scopes with
  | nil => rfl
  | cons entry rest ih =>
    obtain ⟨own,old⟩ := entry
    simp only [rowOf] at ih
    by_cases first : own = key
    · subst first
      by_cases same : own = name
      · simp [rowOf,same]
      · simp [rowOf,same]
    · by_cases same : own = name
      · subst same
        simpa [rowOf,first] using ih
      · simpa [rowOf,first,same] using ih

theorem saveSweepElse {scope other : Option String} (row : SweepRow) (differs : other ≠ scope) :
    (m.saveSweepRow other row).sweepRow scope = m.sweepRow scope := by
  cases other with
  | none =>
    cases scope with
    | none => exact absurd rfl differs
    | some key => rfl
  | some name =>
    cases scope with
    | none => rfl
    | some key =>
      have apart : key ≠ name := fun same => differs (same ▸ rfl)
      simp [Market.saveSweepRow,Market.sweepRow,Market.scopeRow,rowMap,apart]

theorem saveSweepHere {scope : Option String} {old : SweepRow} (row : SweepRow) (here : m.sweepRow scope = some old) :
    (m.saveSweepRow scope row).sweepRow scope = some row := by
  cases scope with
  | none =>
    obtain ⟨lane,found,_⟩ := Option.map_eq_some_iff.mp here
    simp [Market.saveSweepRow,Market.sweepRow,found]
  | some key =>
    simp only [Market.sweepRow,Market.scopeRow] at here
    simp [Market.saveSweepRow,Market.sweepRow,Market.scopeRow,rowMap,here]
end

end HwRadar.Ingest
