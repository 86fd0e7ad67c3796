import HwRadar.Ingest.Effects
import HwRadar.Matching.Agreement

/-! The writers of a listing's content: the collector's transactions, the resolver's
`apply` and the statements of the retention sweep. A call of `resolve_listing` reads the
row outside any transaction and keeps the canonical text it made of it until its
`apply` commits. A row that was deleted is found under its key again only as a new
incarnation, which an older primary key does not reach. -/
namespace HwRadar.Retention
open HwRadar.Base HwRadar.Ingest

structure Call where
  key : String
  incarnation : Nat
  canonical : String
  applied : Bool
  deriving DecidableEq, Repr

structure Store where
  market : Market
  edges : String → Nat
  incarnation : String → Nat
  calls : List Call

def expired (now : Int) (r : ObservationRetention) : Bool := r.retentionClass.bounded && r.expiresAt.any (· < now)

/-- `deletion_exempt_q` -/
def Store.exempt (s : Store) (l : Listing) : Bool :=
  l.retention.retentionClass.deleteOnDelist || 0 < s.edges l.sourceListingKey

def isContentRedacted (l : Listing) : Bool := l.redacted = l

def Store.row (s : Store) (key : String) (incarnation : Nat) : Option Listing :=
  if s.incarnation key = incarnation then s.market.listing key else none

/-- `canonical or title_normalized` -/
def retitled (canonical : String) (l : Listing) : Listing :=
  { l with titleNormalized := if canonical = "" then l.titleNormalized else canonical }

def Store.delete (pks : List (String × Nat)) (s : Store) : Store :=
  let gone := fun key => pks.contains (key,s.incarnation key)
  { s with
    market := { s.market with
      listings := s.market.listings.filter fun l => !gone l.sourceListingKey
      snapshots := s.market.snapshots.filter fun o => !gone o.listing }
    edges := fun key => if gone key then 0 else s.edges key
    incarnation := fun key => if gone key then s.incarnation key + 1 else s.incarnation key }

def Store.keptExpired (now : Int) (s : Store) (l : Listing) : Bool :=
  expired now l.retention && s.exempt l && !isContentRedacted l

def Store.redactExpired (now : Int) (s : Store) : Store :=
  { s with market := { s.market with
      listings := s.market.listings.map fun l => if s.keptExpired now l then l.redacted else l } }

inductive Act where
  | ingest (act : IngestAct)
  | read (key : String)
  | crash (call : Nat)
  | apply (call : Nat) (writes : Bool)
  | evaluate (key : String)
  | redactExpired (now : Int)
  | delete (pks : List (String × Nat))

section
variable (canonicalizeListingText : String → String → String)

def Store.step (s : Store) (act : Act) : Option Store :=
  match act with
  | .ingest act => (s.market.commit act).map fun market => { s with market }
  | .read key => (s.market.listing key).map fun l =>
      { s with
        calls := s.calls ++ [⟨key,s.incarnation key,canonicalizeListingText l.titleRaw l.conditionLabelRaw,false⟩] }
  | .crash k => do
    let c ← s.calls[k]?
    if c.applied then none else some { s with calls := s.calls.set k { c with canonical := "" } }
  | .apply k writes => do
    let c ← s.calls[k]?
    let l ← s.row c.key c.incarnation
    if c.applied then none
    else some { s with
      market := s.market.saveListing (retitled c.canonical l)
      edges := Function.update s.edges c.key (s.edges c.key + if writes || s.edges c.key = 0 then 1 else 0)
      calls := s.calls.set k { c with applied := true } }
  -- an evaluation locks the row and writes only its own table
  | .evaluate key => (s.market.listing key).map fun _ => s
  | .redactExpired now => some (s.redactExpired now)
  | .delete pks => some (s.delete pks)

abbrev Steps (s : Store) (act : Act) (t : Store) : Prop := s.step canonicalizeListingText act = some t

end

theorem ingestKeeps {I : Market → Prop} (rows : ∀ {m m' : Market}, m'.listings = m.listings → I m → I m')
    (observed : ∀ {m retention observedAt now record}, I m → I (observeRecord retention observedAt m record now).1)
    (marked : ∀ {m : Market} {chosen reason stamp}, I m → I (m.delist chosen reason stamp)) {m m' : Market}
    {act : IngestAct} (before : I m) (done : m.commit act = some m') : I m' := by
  cases act with
  | persist retention observedAt records =>
    cases Option.some.inj done
    exact persistedInvariant (rows (ensuredOnly m _).listings before) fun m inv entry _ => observed inv
  | absence report previousRun =>
    obtain ⟨⟨after,n⟩,applied,rfl⟩ := Option.map_eq_some_iff.mp done
    obtain ⟨parts⟩ := absenceParts applied
    have ready : I parts.marked := rows parts.only.listings (rows (ensuredOnly m _).listings before)
    rcases parts.third with ⟨_,same⟩ | ⟨gated,_,same⟩
    · exact same ▸ ready
    · rw [same]
      have delisted : I (applyDelist gated parts.since parts.marked).1 := by
        simp only [applyDelist]
        split
        · exact ready
        · exact marked ready
      split
      · exact rows raisedListings delisted
      · exact delisted
  | rejected eventTime scopeKey => exact rows (breakListings done) (rows (ensuredOnly m _).listings before)
  | scheduled intervalS =>
    cases Option.some.inj done
    exact @rows m { m with lane := m.lane.map fun lane => { lane with currentIntervalS := intervalS } } rfl before

section
open HwRadar.Matching

end

end HwRadar.Retention
