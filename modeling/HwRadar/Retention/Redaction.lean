import HwRadar.Retention.Store

/-! Redacted rows. A mark blanks the content of a row under the delete-on-delist contract in
its own transaction; the resolver alone may write content to a row that is already
marked, from the text it read before. -/
namespace HwRadar.Retention
open HwRadar.Base HwRadar.Ingest

def owed (l : Listing) : Bool := !l.active && l.retention.retentionClass.deleteOnDelist

def Redacted (m : Market) : Prop := ∀ key l, m.listing key = some l → owed l = true → l.redacted = l

def Blank (s : Store) : Act → Prop
  | .apply k _ => ∀ c ∈ s.calls[k]?, ∀ l ∈ s.row c.key c.incarnation, owed l = true → c.canonical = ""
  | _ => True

theorem redactedTwice (l : Listing) : l.redacted.redacted = l.redacted := rfl

section
variable {m : Market}

theorem redactedMark {l : Listing} {reason : DelistReason} {stamp : Int}
    (due : owed (l.markDelisted reason stamp) = true) :
    (l.markDelisted reason stamp).redacted = l.markDelisted reason stamp := by
  have contract : l.retention.retentionClass.deleteOnDelist = true := by
    simp only [owed,Bool.and_eq_true] at due
    have kept := due.2
    simp only [Listing.markDelisted] at kept
    split at kept <;> exact kept
  simp only [Listing.markDelisted,if_pos contract]
  rfl

theorem redactedDelist {chosen : Listing → Bool} {reason : DelistReason} {stamp : Int} (before : Redacted m) :
    Redacted (m.delist chosen reason stamp) := by
  intro key l here due
  rw [delistListing] at here
  obtain ⟨old,was,rfl⟩ := Option.map_eq_some_iff.mp here
  split
  · rename_i marked
    rw [if_pos marked] at due
    exact redactedMark due
  · rename_i left
    rw [if_neg left] at due
    exact before key old was due

theorem redactedObserved {retention : ObservationRetention} {observedAt now : Int} {record : NormalizedListing}
    (before : Redacted m) : Redacted (observeRecord retention observedAt m record now).1 := by
  intro key l here due
  by_cases own : key = record.sourceListingKey
  · subst own
    rw [observedHere] at here
    cases Option.some.inj here
    simp only [observeRecord] at due ⊢
    cases row : m.listing record.sourceListingKey with
    | none =>
      rw [row] at due
      simp only [observeListing] at due ⊢
      split
      · rename_i sweep is
        rw [is] at due
        dsimp only at due
        split
        · rename_i late
          rw [if_pos late] at due
          exact redactedMark due
        · rename_i live
          rw [if_neg live] at due
          cases due
      · rename_i unswept
        rw [unswept] at due
        cases due
    | some old =>
      rw [row] at due
      simp only [observeListing] at due ⊢
      split
      · rename_i eligible
        rw [if_pos eligible] at due
        cases due
      · rename_i stale
        rw [if_neg stale] at due
        exact before _ old row due
  · rw [observedElse own] at here
    exact before key l here due

theorem redactedListings {m' : Market} (before : Redacted m) (same : m'.listings = m.listings) : Redacted m' := by
  intro key l here
  rw [Market.listing,same] at here
  exact before key l here

theorem redactedIngest {m' : Market} {act : IngestAct} (before : Redacted m) (done : m.commit act = some m') :
    Redacted m' :=
  ingestKeeps (fun same before => redactedListings before same) redactedObserved redactedDelist before done

theorem listingFilter {kept : String → Bool} {snapshots : List OfferSnapshot} {key : String} {l : Listing}
    (here : { m with listings := m.listings.filter fun l => kept l.sourceListingKey, snapshots }.listing key = some l) :
    m.listing key = some l := by
  simp only [Market.listing,List.find?_filter] at here ⊢
  have own : kept l.sourceListingKey = true ∧ (l.sourceListingKey == key) = true := by
    simpa using List.find?_some here
  rw [← here]
  congr 1
  funext row
  cases is : row.sourceListingKey == key with
  | false => simp
  | true =>
    have same : row.sourceListingKey = l.sourceListingKey := (beq_iff_eq.mp is).trans (beq_iff_eq.mp own.2).symm
    simp [same,own.1]

end

section
variable {canonicalizeListingText : String → String → String} {s t : Store}

theorem redactedExpired {now : Int} (before : Redacted s.market) : Redacted (s.redactExpired now).market := by
  intro key l here due
  have found : (s.redactExpired now).market.listing key =
      (s.market.listing key).map fun l => if s.keptExpired now l then l.redacted else l := by
    refine listingMap fun l => ?_
    split <;> rfl
  rw [found] at here
  obtain ⟨old,was,rfl⟩ := Option.map_eq_some_iff.mp here
  split
  · exact redactedTwice old
  · rename_i left
    rw [if_neg left] at due
    exact before key old was due

theorem redactedApply {k : Nat} {writes : Bool} (before : Redacted s.market)
    (done : s.step canonicalizeListingText (.apply k writes) = some t) : Blank s (.apply k writes) ↔
    Redacted t.market := by
  simp only [Store.step,Option.bind_eq_bind,Option.bind_eq_some_iff] at done
  obtain ⟨c,held,l,row,done⟩ := done
  obtain ⟨pending,rfl⟩ : c.applied = false ∧ _ = t := by
    split at done
    · cases done
    · rename_i pending
      exact ⟨Bool.eq_false_iff.mpr pending,Option.some.inj done⟩
  have place : s.market.listing c.key = some l := by
    rw [Store.row] at row
    split at row
    · exact row
    · cases row
  have ownTitled : (retitled c.canonical l).sourceListingKey = c.key := listingKey (l := l) place
  constructor
  · intro blank key l' here due
    by_cases same : key = c.key
    · subst same
      rw [← ownTitled,saveListingHere] at here
      cases Option.some.inj here
      have silent : c.canonical = "" := blank c held l row due
      have left : retitled c.canonical l = l := by simp [retitled,silent]
      rw [left]
      exact before c.key l place due
    · rw [saveListingElse (by rw [ownTitled]; exact same)] at here
      exact before key l' here due
  · intro after c' held' l' row' due
    rw [Option.mem_def,held] at held'
    cases Option.some.inj held'
    rw [Option.mem_def,row] at row'
    cases Option.some.inj row'
    have redacted := after c.key (retitled c.canonical l) (by rw [← ownTitled]; exact saveListingHere _) due
    have title : "" = (retitled c.canonical l).titleNormalized := congrArg Listing.titleNormalized redacted
    by_contra text
    exact text (by simpa [retitled,text] using title.symm)

theorem redactedStep {act : Act} (before : Redacted s.market) (done : s.step canonicalizeListingText act = some t) :
    Blank s act ↔ Redacted t.market := by
  cases act with
  | apply k writes => exact redactedApply before done
  | ingest act =>
    obtain ⟨market,committed,rfl⟩ := Option.map_eq_some_iff.mp done
    exact iff_of_true trivial (redactedIngest before committed)
  | read key =>
    obtain ⟨l,_,rfl⟩ := Option.map_eq_some_iff.mp done
    exact iff_of_true trivial before
  | crash k =>
    simp only [Store.step,Option.bind_eq_bind,Option.bind_eq_some_iff] at done
    obtain ⟨c,_,done⟩ := done
    split at done
    · cases done
    · cases Option.some.inj done
      exact iff_of_true trivial before
  | evaluate key =>
    obtain ⟨l,_,rfl⟩ := Option.map_eq_some_iff.mp done
    exact iff_of_true trivial before
  | redactExpired now =>
    cases Option.some.inj done
    exact iff_of_true trivial (redactedExpired before)
  | delete pks =>
    cases Option.some.inj done
    exact iff_of_true trivial fun key l here => before key l
      (@listingFilter s.market (fun key => !pks.contains (key,s.incarnation key)) _ key l here)

end

instance (s : Store) (act : Act) : Decidable (Blank s act) :=
  match act with
  | .apply k _ => inferInstanceAs (Decidable (∀ c ∈ s.calls[k]?, ∀ l ∈ s.row c.key c.incarnation, _))
  | .ingest _ | .read _ | .crash _ | .evaluate _ | .redactExpired _ | .delete _ => isTrue trivial

theorem redactedStays {canonicalizeListingText : String → String → String} {start s : Store} {acts : List Act}
    (redacted : Redacted start.market) :
    Runs (fun s act t => Steps canonicalizeListingText s act t ∧ Blank s act) start acts s ↔
      Runs (fun s act t => Steps canonicalizeListingText s act t ∧ Redacted t.market) start acts s :=
  Runs.exactly (fun s : Store => Redacted s.market)
    (fun {s act t} before done => @redactedStep canonicalizeListingText s t act before done) redacted

def ebayRetention : ObservationRetention := ⟨.ebayListingObservation,some 100,rfl⟩
def ebayRecord : NormalizedListing := driveRecord (some "ebay:drive:q") "Seagate Exos 16TB"
def ended : SweepReport where
  scopeKey := some "ebay:drive:q"
  scope := some ⟨[],5,true,0,some "ebay:drive:q",false⟩
  evidence := ⟨.local,.complete,false,by simp⟩
  eventTime := 5
  seenInRun := []
  several := false
  nullSwept := false
  own := by simp

def unlisted : Store := ⟨⟨[],[],none,[]⟩,fun _ => 0,fun _ => 0,[]⟩
def titleOnly (title _ : String) : String := title
def lateActs : List Act := [.ingest (.persist ebayRetention 1 [(ebayRecord,1)]),.read "7",.ingest (.absence ended none),
  .apply 0 true]
def promptActs : List Act := [.ingest (.persist ebayRetention 1 [(ebayRecord,1)]),.read "7",.apply 0 true,
  .ingest (.absence ended none)]
def lateStore : Store :=
  (lateActs.foldlM (fun (s : Store) act => s.step titleOnly act) unlisted).get (by decide +kernel)

theorem unlistedRedacted : Redacted unlisted.market := by
  intro key l here
  simp [unlisted,Market.listing] at here

theorem lateTitleKept : ¬ ∀ acts s, Runs (Steps titleOnly) unlisted acts s → Redacted s.market := by
  intro keeps
  have redacted := keeps lateActs lateStore (Runs.ofSteps (Option.some_get _).symm)
  have held : ((lateStore.market.listing "7").map fun l => (owed l,l.titleNormalized)) =
      some (true,"Seagate Exos 16TB") := by decide +kernel
  obtain ⟨l,is,both⟩ := Option.map_eq_some_iff.mp held
  have blank : "" = l.titleNormalized := congrArg Listing.titleNormalized (redacted "7" l is (congrArg Prod.fst both))
  exact absurd (blank.trans (congrArg Prod.snd both)) (by decide)

theorem promptTitleRedacted : ∃ s, Runs (fun s act t => Steps titleOnly s act t ∧ Redacted t.market) unlisted
    promptActs s := by
  have ran : (promptActs.foldlM (fun (s : Store) act => if Blank s act then s.step titleOnly act else none)
      unlisted).isSome = true := by decide +kernel
  obtain ⟨s,ran⟩ := Option.isSome_iff_exists.mp ran
  refine ⟨s,(redactedStays unlistedRedacted).mp ((Runs.ofSteps ran).imp fun {s a t} ok => ?_)⟩
  split at ok
  · exact ⟨ok,by assumption⟩
  · cases ok

end HwRadar.Retention
