import HwRadar.Matching.Calls
import HwRadar.Base.Chain

/-! The resolution ledger and the listing agree at every commit. Each call's apply sees
the listing as the last one left it, so whatever verdict it carries, and however old
its reads are, it extends one chain and denormalises that chain's newest decision. -/
namespace HwRadar.Matching
open HwRadar.Base HwRadar.Base.Chain
variable {ρ : Type} {M : Matcher ρ}

def Db.ledger (db : Db) (listing : Nat) : List (Edge × Nat) := rowsOf (fun e => decide (e.listing = listing)) db.edges

def Db.newestDecision (db : Db) (listing : Nat) : Option Edge :=
  (db.edges.filter fun e => decide (e.listing = listing) && !e.isError).getLast?

def Db.resolution (db : Db) (listing : Nat) : Option Denorm := (db.listings[listing]?).map ListingRow.resolution

structure Agrees (db : Db) (listing : Nat) : Prop where
  chained : Linked Edge.isCurrent Edge.supersededBy (db.ledger listing)
  denormalised : ∀ d, db.resolution listing = some d →
    d = ((db.newestDecision listing).map Edge.target).getD Denorm.cleared

theorem newestTarget (db : Db) (listing : Nat) : (db.newestDecision listing).map Edge.target =
    ((db.edges.filter fun e => decide (e.listing = listing) && !e.isError).map Edge.target).getLast? :=
  List.getLast?_map.symm

theorem updateResolution {db : Db} {listing : Nat} {f : ListingRow → ListingRow} (other : Nat) :
    (db.updateListing listing f).resolution other =
      if listing = other then (db.listings[other]?).map fun row => (f row).resolution else db.resolution other := by
  simp only [Db.resolution,Db.updateListing,List.getElem?_modify]
  cases db.listings[other]? with
  | none => simp
  | some row => split <;> rfl

theorem keptResolution {db : Db} {listing : Nat} {f : ListingRow → ListingRow}
    (kept : ∀ row, (f row).resolution = row.resolution) (other : Nat) :
    (db.updateListing listing f).resolution other = db.resolution other := by
  rw [updateResolution]
  split
  · simp only [kept]
    rfl
  · rfl

def stampedAt (now : Int) (e : Edge) : Edge := { e with lastEvaluatedAt := now }

theorem stampedEdges (db : Db) (listing : Nat) (canonical : String) (now : Int) :
    (db.stampEvaluated listing canonical now).edges =
      (db.currentPk listing).elim db.edges fun pk => db.edges.modify pk (stampedAt now) := rfl

theorem stampedResolution (db : Db) (listing other : Nat) (canonical : String) (now : Int) :
    (db.stampEvaluated listing canonical now).resolution other = db.resolution other :=
  @keptResolution (db.updateEdge (db.currentPk listing) (stampedAt now)) listing (titled canonical) (fun _ => rfl) other

theorem stampedAgrees {db : Db} {other : Nat} (listing : Nat) (canonical : String) (now : Int)
    (agrees : Agrees db other) : Agrees (db.stampEvaluated listing canonical now) other := by
  constructor
  · rw [Db.ledger,stampedEdges]
    cases db.currentPk listing with
    | none => exact agrees.chained
    | some pk =>
      rw [Option.elim_some,rowsOfModify (f := stampedAt now) fun _ => rfl]
      refine linkedMap (fun row => ?_) (fun row => ?_) (fun row => ?_) agrees.chained <;> split <;> rfl
  · intro d here
    rw [stampedResolution] at here
    rw [newestTarget,stampedEdges]
    have decided := agrees.denormalised d here
    rw [newestTarget] at decided
    cases db.currentPk listing with
    | none => exact decided
    | some pk => rwa [Option.elim_some,filterModify (f := stampedAt now) (fun _ => rfl) (fun _ => rfl)]

def retiredBy (pk : Nat) (e : Edge) : Edge := { e with isCurrent := false, supersededBy := some pk }

theorem supersededEdges {db db' : Db} {e : Edge} (ok : db.supersede e = some db') :
    db' = { db with edges := extend (db.currentPk e.listing) (retiredBy db.edges.length) e db.edges } := by
  simp only [Db.supersede,Db.insertEdge,Option.map_eq_some_iff] at ok
  obtain ⟨inserted,put,rfl⟩ := ok
  split at put <;> try contradiction
  cases Option.some.inj put
  cases found : db.currentPk e.listing with
  | none => rfl
  | some pk =>
    have bound : pk < db.edges.length := (List.findIdx?_eq_some_iff_getElem.mp found).1
    simp only [Db.updateEdge,Option.elim_some,extend]
    rw [modifyAppend (by simpa using bound),List.modify_modify_eq]
    rfl

theorem extendedChain {db : Db} {e : Edge} (fresh : e.isCurrent = true) (last : e.supersededBy = none)
    {other : Nat} (linked : Linked Edge.isCurrent Edge.supersededBy (db.ledger other)) :
    Linked Edge.isCurrent Edge.supersededBy (rowsOf (fun e => decide (e.listing = other))
      (extend (db.currentPk e.listing) (retiredBy db.edges.length) e db.edges)) := by
  by_cases own : e.listing = other
  · subst own
    exact extendLinked linked (fun _ => rfl) (fun _ => rfl) (fun _ => rfl) (by simp) fresh last
  · have elsewhere := @extendElse _ (fun old => decide (old.listing = e.listing)) Edge.isCurrent db.edges
      (retiredBy db.edges.length) e (fun old => decide (old.listing = other))
      (fun old mine => by simp_all) (fun _ => rfl) (by simp)
    exact elsewhere ▸ linked

theorem extendedDecision {db : Db} {e : Edge} (other : Nat) :
    ((extend (db.currentPk e.listing) (retiredBy db.edges.length) e db.edges).filter
      fun e => decide (e.listing = other) && !e.isError).map Edge.target =
    ((db.edges.filter fun e => decide (e.listing = other) && !e.isError).map Edge.target) ++
      if decide (e.listing = other) && !e.isError then [e.target] else [] := by
  have old : (((db.currentPk e.listing).elim db.edges fun pk => db.edges.modify pk (retiredBy db.edges.length)).filter
      fun e => decide (e.listing = other) && !e.isError).map Edge.target =
      (db.edges.filter fun e => decide (e.listing = other) && !e.isError).map Edge.target := by
    cases db.currentPk e.listing with
    | none => rfl
    | some pk => exact filterModify (fun _ => rfl) (fun _ => rfl)
  rw [extend,List.filter_append,List.map_append,old]
  congr 1
  rw [List.filter_singleton]
  generalize (decide (e.listing = other) && !e.isError) = mine
  cases mine <;> rfl

theorem agreesOf {db db' : Db} {other : Nat} (edges : db'.edges = db.edges)
    (resolution : db'.resolution other = db.resolution other) (agrees : Agrees db other) : Agrees db' other := by
  constructor
  · rw [Db.ledger,edges]
    exact agrees.chained
  · rw [resolution,newestTarget,edges,← newestTarget]
    exact agrees.denormalised

theorem materializedMiss {e : ExtractedAttributes} {v : Verdict} {c : Catalog} {m : Materialized}
    (made : materialize M e v c = some m) (miss : v.outcome ≠ .accept) : m.target none = Denorm.cleared := by
  simp only [materialize] at made
  split at made
  · contradiction
  · cases Option.some.inj made
    rfl

section
variable {listing : Nat} {r : Reading} {now : Int} {db db' : Db}

theorem appliedAgrees (ok : Applied M listing r now db db') {other : Nat} (agrees : Agrees db other) :
    Agrees db' other := by
  cases ok with
  | stamped catalog found result =>
    subst result
    exact stampedAgrees listing r.canonical now (@agreesOf db { db with catalog } other rfl rfl agrees)
  | written locked m catalog inserted here changed made different linked result =>
    subst result
    rw [supersededEdges linked]
    constructor
    · exact extendedChain rfl rfl agrees.chained
    · intro d is
      rw [newestTarget]
      refine Eq.trans ?_ (congrArg (fun l => (List.getLast? l).getD Denorm.cleared)
        (@extendedDecision { db with catalog := m.catalog } (newEdge M listing now r m locked.resolution) other).symm)
      rw [List.getLast?_append]
      rw [Db.resolution,Db.updateListing,Option.map_eq_some_iff] at is
      obtain ⟨row,is,rfl⟩ := is
      rw [List.getElem?_modify,Option.map_eq_map,Option.map_eq_some_iff] at is
      obtain ⟨before,was,rfl⟩ := is
      have decided := agrees.denormalised before.resolution (congrArg (Option.map ListingRow.resolution) was)
      rw [newestTarget] at decided
      have errs : (newEdge M listing now r m locked.resolution).isError = r.verdict.isError := rfl
      have place : (newEdge M listing now r m locked.resolution).listing = listing := rfl
      rw [errs,place]
      by_cases own : listing = other
      · cases error : r.verdict.isError with
        | true => simpa [own] using decided
        | false => simp [own]
      · simpa [own] using decided

theorem appliedMisses (ok : Applied M listing r now db db')
    (misses : ∀ e ∈ db.edges, e.evidence.outcome ≠ some .accept → e.target = Denorm.cleared) :
    ∀ e ∈ db'.edges, e.evidence.outcome ≠ some .accept → e.target = Denorm.cleared := by
  have updated : ∀ (pk : Option Nat) (f : Edge → Edge), (∀ e, (f e).evidence = e.evidence) →
      (∀ e, (f e).target = e.target) →
      ∀ e ∈ pk.elim db.edges (fun pk => db.edges.modify pk f), e.evidence.outcome ≠ some .accept →
        e.target = Denorm.cleared := by
    intro pk f evidence target e mem miss
    cases pk with
    | none => exact misses e mem miss
    | some pk =>
      obtain ⟨i,is⟩ := List.mem_iff_getElem?.mp mem
      simp only [Option.elim_some,List.getElem?_modify,Option.map_eq_map,Option.map_eq_some_iff] at is
      obtain ⟨old,was,rfl⟩ := is
      have held := misses old (List.mem_of_getElem? was)
      split at miss
      · rw [if_pos (by assumption),target]
        exact held (by rwa [evidence] at miss)
      · rw [if_neg (by assumption)]
        exact held miss
  cases ok with
  | stamped catalog found result =>
    subst result
    exact updated _ (stampedAt now) (fun _ => rfl) (fun _ => rfl)
  | written locked m catalog inserted here changed made different linked result =>
    subst result
    rw [supersededEdges linked]
    intro e mem miss
    rcases List.mem_append.mp mem with old | new
    · exact updated _ (retiredBy db.edges.length) (fun _ => rfl) (fun _ => rfl) e old miss
    · cases List.mem_singleton.mp new
      have rejected : r.verdict.outcome ≠ .accept := fun accept => miss (congrArg some accept)
      refine Eq.trans ?_ (materializedMiss made rejected)
      exact congrArg m.target (if_neg rejected)

theorem currentFound {e : Edge} (here : db.currentEdge listing = some e) :
    ∃ pk, db.currentPk listing = some pk ∧ db.edges[pk]? = some e ∧ e.listing = listing ∧ e.isCurrent = true := by
  obtain ⟨pk,found,is⟩ := Option.bind_eq_some_iff.mp here
  obtain ⟨bound,both,_⟩ := List.findIdx?_eq_some_iff_getElem.mp found
  rw [List.getElem?_eq_getElem bound] at is
  cases Option.some.inj is
  rw [Bool.and_eq_true,decide_eq_true_iff] at both
  exact ⟨pk,found,List.getElem?_eq_getElem bound,both⟩

theorem skippedCurrent {v : Verdict} {current : Option Edge}
    (skip : unchanged current v = true ∨ ∃ m, sameTarget current v m = true) : ∃ e, current = some e := by
  cases current with
  | some e => exact ⟨e,rfl⟩
  | none => simp [unchanged,unchangedAccept,unchangedMiss,unchangedError,sameTarget] at skip

theorem appliedResolves (ok : Applied M listing r now db db') : ∃ e ∈ db'.edges, e.listing = listing := by
  cases ok with
  | stamped catalog found result =>
    subst result
    obtain ⟨e,current⟩ := skippedCurrent (found.imp_right fun ⟨m,_,same⟩ => ⟨m,same⟩)
    obtain ⟨pk,held,is,place,_⟩ := currentFound current
    refine ⟨stampedAt now e,?_,place⟩
    rw [stampedEdges,show Db.currentPk { db with catalog } listing = some pk from held]
    refine List.mem_of_getElem? (i := pk) ?_
    rw [Option.elim_some,List.getElem?_modify_eq,is]
    rfl
  | written locked m catalog inserted here changed made different linked result =>
    subst result
    rw [supersededEdges linked]
    exact ⟨newEdge M listing now r m locked.resolution,List.mem_append_right _ List.mem_cons_self,rfl⟩

theorem appliedKeeps (ok : Applied M listing r now db db') {other : Nat}
    (before : ∃ e ∈ db.edges, e.listing = other) : ∃ e ∈ db'.edges, e.listing = other := by
  have updated : ∀ (pk : Option Nat) (f : Edge → Edge), (∀ e, (f e).listing = e.listing) →
      ∃ e ∈ pk.elim db.edges (fun pk => db.edges.modify pk f), e.listing = other := by
    intro pk f place
    obtain ⟨e,mem,is⟩ := before
    cases pk with
    | none => exact ⟨e,mem,is⟩
    | some pk =>
      obtain ⟨i,here⟩ := List.mem_iff_getElem?.mp mem
      refine ⟨if pk = i then f e else e,List.mem_of_getElem? (i := i) ?_,?_⟩
      · rw [Option.elim_some,List.getElem?_modify,here]
        rfl
      · split
        · rw [place,is]
        · exact is
  cases ok with
  | stamped catalog found result =>
    subst result
    exact updated _ (stampedAt now) fun _ => rfl
  | written locked m catalog inserted here changed made different linked result =>
    subst result
    rw [supersededEdges linked]
    obtain ⟨e,mem,is⟩ := updated (db.currentPk listing) (retiredBy db.edges.length) fun _ => rfl
    exact ⟨e,List.mem_append_left _ mem,is⟩

theorem appliedResolution (ok : Applied M listing r now db db')
    (quiet : r.verdict.isError = true ∨ db'.edges.length = db.edges.length) (other : Nat) :
    db'.resolution other = db.resolution other := by
  cases ok with
  | stamped catalog found result =>
    subst result
    exact stampedResolution { db with catalog } listing other r.canonical now
  | written locked m catalog inserted here changed made different linked result =>
    subst result
    have edges := supersededEdges linked
    rcases quiet with error | same
    · rw [edges]
      refine (keptResolution (fun row => ?_) other)
      simp only [if_pos error]
    · rw [edges] at same
      exact absurd (extendLength.symm.trans same) (by simp)

theorem appliedLedger (ok : Applied M listing r now db db') (quiet : db'.edges.length = db.edges.length) :
    db'.edges.map (stampedAt 0) = db.edges.map (stampedAt 0) := by
  cases ok with
  | stamped catalog found result =>
    subst result
    rw [stampedEdges]
    cases Db.currentPk { db with catalog } listing with
    | none => rfl
    | some pk =>
      have same : ((db.edges.modify pk (stampedAt now)).filter fun _ => true).map (stampedAt 0) =
          (db.edges.filter fun _ => true).map (stampedAt 0) := filterModify (fun _ => rfl) fun _ => rfl
      simpa using same
  | written locked m catalog inserted here changed made different linked result =>
    subst result
    rw [supersededEdges linked] at quiet
    exact absurd (extendLength.symm.trans quiet) (by simp)

end

structure Held (s : System) : Prop where
  agrees : ∀ listing, Agrees s.db listing
  misses : ∀ e ∈ s.db.edges, e.evidence.outcome ≠ some .accept → e.target = Denorm.cleared
  resolved : ∀ c ∈ s.calls, c.phase = .committed → ∃ e ∈ s.db.edges, e.listing = c.listing

theorem movedCalls {s : System} {k : Nat} {c held : Call} {phase : Phase} (mem : held ∈ (s.move k c phase).calls)
    (done : held.phase = .committed) (waiting : phase ≠ .committed) : held ∈ s.calls := by
  rcases List.mem_or_eq_of_mem_set mem with old | new
  · exact old
  · rw [new] at done
    exact absurd done waiting

theorem heldFresh {s : System} (fresh : Fresh s) : Held s where
  agrees listing := by
    refine ⟨?_,fun d here => ?_⟩
    · rw [Db.ledger,fresh.edges]
      trivial
    · rw [Db.newestDecision,fresh.edges]
      obtain ⟨row,is,rfl⟩ := Option.map_eq_some_iff.mp here
      exact fresh.unresolved row (List.mem_of_getElem? is)
  misses e mem := by
    rw [fresh.edges] at mem
    exact absurd mem List.not_mem_nil
  resolved c mem := by
    rw [fresh.calls] at mem
    exact absurd mem List.not_mem_nil

theorem heldStep {s t : System} {a : Event ρ} (held : Held s) (ok : Steps M s a t) : Held t := by
  obtain ⟨agrees,misses,resolved⟩ := held
  cases stepped ok with
  | call here =>
    refine ⟨agrees,misses,fun c mem done => ?_⟩
    rcases List.mem_append.mp mem with old | new
    · exact resolved c old done
    · cases List.mem_singleton.mp new
      contradiction
  | decide held here phase => exact ⟨agrees,misses,fun c mem done => resolved c (movedCalls mem done nofun) done⟩
  | crash held phase => exact ⟨agrees,misses,fun c mem done => resolved c (movedCalls mem done nofun) done⟩
  | commit held ready done =>
    have wrote := applied done
    refine ⟨fun listing => appliedAgrees wrote (agrees listing),appliedMisses wrote misses,fun c mem finished => ?_⟩
    rcases List.mem_or_eq_of_mem_set mem with old | new
    · exact appliedKeeps wrote (resolved c old finished)
    · rw [new]
      exact appliedResolves wrote
  | fail held phase => exact ⟨agrees,misses,fun c mem done => resolved c (movedCalls mem done nofun) done⟩
  | propagate held phase => exact ⟨agrees,misses,fun c mem done => resolved c (movedCalls mem done nofun) done⟩
  | @persist place title conditionLabel attrs row here =>
    have kept := @keptResolution s.db place (observed title conditionLabel attrs) fun _ => rfl
    exact ⟨fun listing => @agreesOf s.db _ listing rfl (kept listing) (agrees listing),misses,resolved⟩

structure Undisturbed (s : System) (a : Event ρ) (t : System) : Prop where
  crash : ∀ k now c r, a = .commit k now → s.calls[k]? = some c → c.reading = some r → r.verdict.isError = true →
    ∀ listing, t.db.resolution listing = s.db.resolution listing
  quiet : t.db.edges.length = s.db.edges.length → t.db.edges.map (stampedAt 0) = s.db.edges.map (stampedAt 0) ∧
    ∀ listing, t.db.resolution listing = s.db.resolution listing

theorem undisturbedElse {s t : System} {a : Event ρ} (other : ∀ k now, a ≠ .commit k now)
    (edges : t.db.edges = s.db.edges) (same : ∀ listing, t.db.resolution listing = s.db.resolution listing) :
    Undisturbed s a t where
  crash k now _ _ is := absurd is (other k now)
  quiet _ := ⟨by rw [edges],same⟩

theorem undisturbed {s t : System} {a : Event ρ} (ok : Steps M s a t) : Undisturbed s a t := by
  cases stepped ok with
  | call here => exact undisturbedElse nofun rfl fun _ => rfl
  | decide held here phase => exact undisturbedElse nofun rfl fun _ => rfl
  | crash held phase => exact undisturbedElse nofun rfl fun _ => rfl
  | commit held ready done =>
    have wrote := applied done
    refine ⟨fun k now c r is here reads error listing => ?_,fun quiet => ⟨appliedLedger wrote quiet,fun listing =>
      appliedResolution wrote (.inr quiet) listing⟩⟩
    cases is
    rw [held] at here
    cases Option.some.inj here
    rw [ready] at reads
    cases Option.some.inj reads
    exact appliedResolution wrote (.inl error) listing
  | fail held phase => exact undisturbedElse nofun rfl fun _ => rfl
  | propagate held phase => exact undisturbedElse nofun rfl fun _ => rfl
  | @persist place title conditionLabel attrs row here =>
    exact undisturbedElse nofun rfl (@keptResolution s.db place (observed title conditionLabel attrs) fun _ => rfl)

def Db.IsCurrent (db : Db) (listing pk : Nat) : Prop :=
  ∃ e, db.edges[pk]? = some e ∧ e.listing = listing ∧ e.isCurrent = true

theorem oneCurrent {db : Db} {listing : Nat} (agrees : Agrees db listing)
    (some_ : ∃ e ∈ db.edges, e.listing = listing) :
    ∃! pk, db.IsCurrent listing pk := by
  obtain ⟨e,mem,place⟩ := some_
  obtain ⟨i,is⟩ := List.mem_iff_getElem?.mp mem
  have row : (e,i) ∈ db.ledger listing := memRowsOf.mpr ⟨is,by simpa using place⟩
  cases last : (db.ledger listing).getLast? with
  | none => exact absurd row (by rw [List.getLast?_eq_none_iff.mp last]; exact List.not_mem_nil)
  | some newest =>
    obtain ⟨here,mine⟩ := memRowsOf.mp (List.mem_of_getLast? last)
    refine ⟨newest.2,⟨newest.1,here,by simpa using mine,(lastLive agrees.chained last).1⟩,fun pk => ?_⟩
    rintro ⟨other,there,mine,live⟩
    have found := liveLast agrees.chained (memRowsOf.mpr ⟨there,by simpa using mine⟩) live
    rw [last] at found
    exact (congrArg Prod.snd (Option.some.inj found)).symm

theorem ledgerAgrees {start s : System} {labels : List (Event ρ)} (fresh : Fresh start)
    (run : Runs (Steps M) start labels s) :
    (∀ c ∈ s.calls, c.phase = .committed → ∃! pk, s.db.IsCurrent c.listing pk) ∧
    (∀ listing, Linked Edge.isCurrent Edge.supersededBy (s.db.ledger listing)) ∧
    (∀ listing d, s.db.resolution listing = some d →
      d = ((s.db.newestDecision listing).map Edge.target).getD Denorm.cleared ∧
      ∀ e, s.db.newestDecision listing = some e → e.evidence.outcome ≠ some .accept → d = Denorm.cleared) ∧
    ∀ a t, Steps M s a t → Undisturbed s a t := by
  have held := run.invariant Held heldStep (heldFresh fresh)
  refine ⟨fun c mem done => ?_,fun listing => (held.agrees listing).chained,fun listing d here => ?_,
    fun a t ok => undisturbed ok⟩
  · exact oneCurrent (held.agrees c.listing) (held.resolved c mem done)
  · have same := (held.agrees listing).denormalised d here
    refine ⟨same,fun e newest miss => ?_⟩
    rw [same,newest]
    have mem : e ∈ s.db.edges := List.mem_of_mem_filter (List.mem_of_getLast? newest)
    exact held.misses e mem miss

def bareMatcher : Matcher Unit where
  version := matcherVersion
  canonicalizeListingText title _ := title
  canonicalizeTitle title := title
  strRepr text := text
  rules _ := ⟨true,fun _ _ _ _ _ => .error "no rules"⟩

def hinted (hint : String) : Attrs := [("category_hint",.text hint)]

def unresolvedSystem : System where
  db := ⟨[⟨0,"server psu","","",hinted "psu",Denorm.cleared⟩],[],⟨[],[],[],[],[],[]⟩⟩
  calls := []
  versions _ := ⟨0,0⟩

theorem unresolvedFresh : Fresh unresolvedSystem := ⟨by decide,rfl,rfl⟩

def crashedCalls : List (Event Unit) :=
  [.call 0 false,.decide 0 (),.commit 0 1,.call 0 false,.crash 1 "ValueError()",.commit 1 2]

def crashedSystem : System :=
  (crashedCalls.foldlM (fun s a => step bareMatcher a s) unresolvedSystem).get (by decide +kernel)

theorem crashedCallAgrees : ∃! pk, crashedSystem.db.IsCurrent 0 pk :=
  (ledgerAgrees unresolvedFresh (Runs.ofSteps (Option.some_get _).symm)).1 ⟨0,false,.committed,⟨0,0⟩⟩
    (by decide +kernel) rfl

end HwRadar.Matching
