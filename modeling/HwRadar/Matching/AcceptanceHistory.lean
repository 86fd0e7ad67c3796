import HwRadar.Matching.OwnerAccepts

/-! Histories of a ledger: polls under changing deployments, edits, imports and owners'
accepts, with what wrote each edge. An accept under a policy goes back, through rung-0
accepts and error edges only, to an owner's accept or to an authoritative alias. -/
namespace HwRadar.Matching
open HwRadar.Base HwRadar.Base.Chain

structure Writer where
  registry : Registry
  before : Db

structure History where
  db : Db
  writers : List (Option Writer)

def History.ledger (h : History) : List Edge := h.db.decisions

def ownersEdge (listing : Nat) (target : Denorm) (version : String) (evidence : Evidence) (now : Int) : Edge :=
  ⟨listing,target,"manual",version,{ evidence with outcome := some .accept, error := none },now,now,true,none⟩

def Db.ownerAccept (db : Db) (e : Edge) : Option Db := do
  let _ ← db.listings[e.listing]?
  if e.target.grain = .none then none
  else (db.supersede e).map fun db => db.updateListing e.listing fun row => { row with resolution := e.target }

inductive Entry where
  | act (a : Act)
  | owner (listing : Nat) (target : Denorm) (version : String) (evidence : Evidence) (now : Int)

def Act.writer (a : Act) (db : Db) : Option Writer :=
  match a with
  | .resolve R _ _ _ _ => some ⟨R,db⟩
  | _ => none

def Entry.clock : Entry → Option Int
  | .act (.resolve _ _ _ _ now) => some now
  | .act _ => none
  | .owner _ _ _ _ now => some now

def History.enter (entry : Entry) (h : History) : Option History :=
  match entry with
  | .act a =>
    let db := a.run h.db
    some ⟨db,h.writers ++ List.replicate (db.edges.length - h.db.edges.length) (a.writer h.db)⟩
  | .owner listing target version evidence now =>
    (h.db.ownerAccept (ownersEdge listing target version evidence now)).map fun db => ⟨db,h.writers ++ [none]⟩

def History.step (entry : Entry) (h : History) : Option History :=
  if h.db.edges.all fun e => entry.clock.all fun now => decide (e.resolvedAt ≤ now) then h.enter entry else none

abbrev Unfolds (h : History) (entry : Entry) (h' : History) : Prop := h.step entry = some h'

structure Unresolved (h : History) : Prop where
  rows : ∀ row ∈ h.db.listings, row.resolution.grain = .none
  edges : h.db.edges = []
  writers : h.writers = []

def Unbroken (ledger : List Edge) (listing o i : Nat) : Prop :=
  ∀ k x, o < k → k < i → ledger[k]? = some x → x.listing = listing →
    x.isError = true ∨ (x.accepts listing = true ∧ x.method = "source_alias")

def Names (variants : List ProductVariant) (t : TargetRef) (d : Denorm) : Prop :=
  Denotes variants t d ∨ (d.grain = .family ∧ d.productFamily = t.familyId)

structure ByAlias (h : History) (o : Nat) (eo : Edge) (kind : String) : Prop where
  method : eo.method = "exact_alias"
  rung : eo.evidence.rung = some 1
  sourceKind : eo.evidence.aliasSourceKind = some kind
  written : ∃ w slug, h.writers[o]? = some (some w) ∧ eo.evidence.category = some slug ∧
    (w.registry.rules slug).autoAccept = true ∧ ∃ row ∈ w.before.catalog.aliases, row.sourceKind = kind ∧
      ∃ t, aliasTarget w.before.catalog row = .ok t ∧ Names h.db.catalog.variants t eo.target

structure Origin (h : History) (listing o : Nat) (eo : Edge) (d : Denorm) : Prop where
  here : h.ledger[o]? = some eo
  decisive : decisive listing eo = true
  targeted : Targeted eo.target
  refines : Refines h.db.catalog.variants eo.target d

structure Supports (h : History) (o : Nat) (eo : Edge) (b : AcceptanceBasis) : Prop where
  owner : b.method = "manual" → eo.method = "manual"
  aliased : ∀ kind, b.method = "exact_alias" → b.sourceKind = some kind → ByAlias h o eo kind

def Resting (h : History) (listing : Nat) (d : Denorm) : Prop :=
  ∃ o eo n, Origin h listing o eo d ∧ Unbroken h.ledger listing o h.ledger.length ∧
    newest (h.ledger.filter (Edge.accepts listing)) = some n ∧ Supports h o eo (basisOf n)

def Gated (h : History) (i : Nat) (e : Edge) (w : Writer) (slug : String) (policy : AcceptancePolicy) : Prop :=
  ∃ t : TargetRef, targetCategory w.before.catalog t = .ok slug ∧ Denotes h.db.catalog.variants t e.target ∧
    ∃ o eo, o ≤ i ∧ Origin h e.listing o eo e.target ∧ Unbroken h.ledger e.listing o i ∧
      (eo.method = "manual" ∨ (t.grain ∈ policy.grains ∧
        unratifiedFamily w.registry.canonicalizeTitle w.before.catalog (w.registry.rules slug) t = .ok none ∧
        ∃ kind ∈ policy.authoritativeSourceKinds, ByAlias h o eo kind))

structure Kept (h : History) : Prop where
  aligned : h.writers.length = h.ledger.length
  rests : ∀ listing d, h.db.resolution listing = some d → d.grain ≠ .none → Resting h listing d
  gated : ∀ i e w slug policy, h.ledger[i]? = some e → e.isError = false → e.evidence.outcome = some .accept →
    h.writers[i]? = some (some w) → e.evidence.category = some slug → (w.registry.rules slug).acceptance = some policy →
    Gated h i e w slug policy

structure Longer (h h' : History) : Prop where
  ledger : h.ledger <+: h'.ledger
  writers : h.writers <+: h'.writers
  variants : h.db.catalog.variants <+: h'.db.catalog.variants

section
variable {h h' : History}

theorem Denotes.grows {variants later_ : List ProductVariant} {t : TargetRef} {d : Denorm}
    (denotes : Denotes variants t d) (grown : variants <+: later_) : Denotes later_ t d := by
  cases denotes with
  | exact grain family model variant => exact .exact grain family model variant
  | onDemand pk row ofModel grain family model variant here own =>
    exact .onDemand pk row ofModel grain family model variant (prefixRow grown here) own

theorem ByAlias.longer {o : Nat} {eo : Edge} {kind : String} (by_ : ByAlias h o eo kind) (longer : Longer h h') :
    ByAlias h' o eo kind where
  method := by_.method
  rung := by_.rung
  sourceKind := by_.sourceKind
  written := by
    obtain ⟨w,slug,wrote,category,enabled,row,mem,kind,t,names,of_⟩ := by_.written
    exact ⟨w,slug,prefixRow longer.writers wrote,category,enabled,row,mem,kind,t,names,
      of_.imp_left fun denotes => denotes.grows longer.variants⟩

theorem Origin.longer {listing o : Nat} {eo : Edge} {d : Denorm} (origin : Origin h listing o eo d)
    (longer : Longer h h') :
    Origin h' listing o eo d where
  here := prefixRow longer.ledger origin.here
  decisive := origin.decisive
  targeted := origin.targeted
  refines := origin.refines.grows longer.variants

theorem Supports.longer {o : Nat} {eo : Edge} {b : AcceptanceBasis} (supports : Supports h o eo b)
    (longer : Longer h h') :
    Supports h' o eo b where
  owner := supports.owner
  aliased kind exact_ is := (supports.aliased kind exact_ is).longer longer

theorem Unbroken.longer {listing o i : Nat} (unbroken : Unbroken h.ledger listing o i) (within : i ≤ h.ledger.length)
    (longer : Longer h h') : Unbroken h'.ledger listing o i := by
  intro k x after before here own
  obtain ⟨rest,is⟩ := longer.ledger
  rw [← is,List.getElem?_append_left (by omega)] at here
  exact unbroken k x after before here own

theorem Gated.longer {i : Nat} {e : Edge} {w : Writer} {slug : String} {policy : AcceptancePolicy}
    (gated : Gated h i e w slug policy) (here : h.ledger[i]? = some e) (longer : Longer h h') :
    Gated h' i e w slug policy := by
  obtain ⟨t,category,denotes,o,eo,le,origin,unbroken,why⟩ := gated
  have within := (List.getElem?_eq_some_iff.mp here).1
  refine ⟨t,category,denotes.grows longer.variants,o,eo,le,origin.longer longer,unbroken.longer (by omega) longer,?_⟩
  refine why.imp_right fun ⟨grain,ratified,kind,authoritative,by_⟩ =>
    ⟨grain,ratified,kind,authoritative,by_.longer longer⟩

theorem restingSame {listing : Nat} {d : Denorm} (resting : Resting h listing d) (longer : Longer h h')
    (same : h'.ledger = h.ledger) : Resting h' listing d := by
  obtain ⟨o,eo,n,origin,unbroken,is,supports⟩ := resting
  exact ⟨o,eo,n,origin.longer longer,by rw [same]; exact unbroken,by rw [same]; exact is,supports.longer longer⟩

theorem restingAdded {listing : Nat} {d : Denorm} {x : Edge} (resting : Resting h listing d) (longer : Longer h h')
    (added : h'.ledger = h.ledger ++ [x]) (apart : x.listing ≠ listing ∨ x.isError = true) : Resting h' listing d := by
  obtain ⟨o,eo,n,origin,unbroken,is,supports⟩ := resting
  have rejected : x.accepts listing = false := by
    rcases apart with other | error
    · simp [Edge.accepts,other]
    · simp [Edge.accepts,error]
  refine ⟨o,eo,n,origin.longer longer,?_,?_,supports.longer longer⟩
  · intro k y after before here own
    rw [added,List.length_append,List.length_singleton] at before
    rw [added] at here
    by_cases old : k < h.ledger.length
    · rw [List.getElem?_append_left old] at here
      exact unbroken k y after old here own
    · have last : k = h.ledger.length := by omega
      subst last
      rw [List.getElem?_concat_length] at here
      cases Option.some.inj here
      exact apart.elim (fun other => absurd own other) .inl
  · rw [added,List.filter_append]
    simpa [rejected] using is

theorem Kept.added {x : Edge} {w : Option Writer} (kept : Kept h) (longer : Longer h h')
    (added : h'.ledger = h.ledger ++ [x]) (wrote : h'.writers = h.writers ++ [w])
    (others : ∀ other, other ≠ x.listing ∨ x.isError = true → h'.db.resolution other = h.db.resolution other)
    (own : x.isError = false → ∀ d, h'.db.resolution x.listing = some d → d.grain ≠ .none → Resting h' x.listing d)
    (gated : ∀ w' slug policy, x.isError = false → x.evidence.outcome = some .accept → w = some w' →
      x.evidence.category = some slug → (w'.registry.rules slug).acceptance = some policy →
        Gated h' h.ledger.length x w' slug policy) : Kept h' where
  aligned := by rw [added,wrote,List.length_append,List.length_append,kept.aligned]; rfl
  rests := by
    intro listing d is graded
    have elsewhere : listing ≠ x.listing ∨ x.isError = true → Resting h' listing d := by
      intro apart
      rw [others listing apart] at is
      exact restingAdded (kept.rests listing d is graded) longer added (apart.imp_left Ne.symm)
    by_cases same : listing = x.listing
    · subst same
      cases error : x.isError with
      | true => exact elsewhere (.inr error)
      | false => exact own error d is graded
    · exact elsewhere (.inl same)
  gated := by
    intro i e w' slug policy here clean accept writer category policed
    rw [added] at here
    rw [wrote] at writer
    by_cases old : i < h.ledger.length
    · rw [List.getElem?_append_left old] at here
      rw [List.getElem?_append_left (kept.aligned ▸ old)] at writer
      exact (kept.gated i e w' slug policy here clean accept writer category policed).longer here longer
    · have bound := (List.getElem?_eq_some_iff.mp here).1
      rw [List.length_append,List.length_singleton] at bound
      have last : i = h.ledger.length := by omega
      subst last
      rw [List.getElem?_concat_length] at here
      rw [← kept.aligned,List.getElem?_concat_length] at writer
      cases Option.some.inj here
      exact gated w' slug policy clean accept (Option.some.inj writer) category policed

theorem Kept.same (kept : Kept h) (longer : Longer h h') (ledger : h'.ledger = h.ledger)
    (writers : h'.writers = h.writers)
    (resolution : ∀ listing, h'.db.resolution listing = h.db.resolution listing) : Kept h' where
  aligned := by rw [ledger,writers,kept.aligned]
  rests := by
    intro listing d is graded
    rw [resolution] at is
    exact restingSame (kept.rests listing d is graded) longer ledger
  gated := by
    intro i e w slug policy here clean accept writer category policed
    rw [ledger] at here
    rw [writers] at writer
    exact (kept.gated i e w slug policy here clean accept writer category policed).longer here longer

end

structure Accepting (h h' : History) (w : Writer) (slug : String) (listing : Nat) (v : Verdict) (x : Edge) : Prop where
  longer : Longer h h'
  added : h'.ledger = h.ledger ++ [x]
  wrote : h'.writers = h.writers ++ [some w]
  aligned : h.writers.length = h.ledger.length
  read : w.before = h.db
  own : x.listing = listing
  clean : x.isError = false
  outcome : x.evidence.outcome = some .accept
  method : x.method = v.method
  rung : ∀ n, v.rung = some n → x.evidence.rung = some n
  sourceKind : x.evidence.aliasSourceKind = v.evidence.aliasSourceKind
  basis : x.evidence.acceptanceBasis = v.evidence.acceptanceBasis
  category : x.evidence.category = some slug
  latest : ∀ e ∈ h.ledger, e.resolvedAt ≤ x.resolvedAt
  targeted : Targeted x.target

section
variable {h h' : History} {w : Writer} {slug : String} {listing : Nat} {v : Verdict} {x : Edge}

theorem newestAdded {ledger : List Edge} {p : Edge → Bool} (latest : ∀ e ∈ ledger, e.resolvedAt ≤ x.resolvedAt)
    (is : p x = true) :
    newest ((ledger ++ [x]).filter p) = some x := by
  rw [List.filter_append,List.filter_cons_of_pos is,List.filter_nil,newestSnoc]
  cases before : newest (ledger.filter p) with
  | none => rfl
  | some b => exact if_pos (latest b (List.mem_filter.mp (newestMem before)).1)

theorem Accepting.accepts (a : Accepting h h' w slug listing v x) : x.accepts listing = true := by
  simp [Edge.accepts,a.own,a.outcome,a.clean]

theorem Accepting.here (a : Accepting h h' w slug listing v x) : h'.ledger[h.ledger.length]? = some x := by
  rw [a.added,List.getElem?_concat_length]

theorem Accepting.writer (a : Accepting h h' w slug listing v x) : h'.writers[h.ledger.length]? = some (some w) := by
  rw [a.wrote,← a.aligned,List.getElem?_concat_length]

theorem Accepting.newest (a : Accepting h h' w slug listing v x) :
    newest (h'.ledger.filter (Edge.accepts listing)) = some x := by
  rw [a.added]
  exact newestAdded a.latest a.accepts

theorem unbrokenEnd (ledger : List Edge) (listing o : Nat) : Unbroken ledger listing o (o + 1) := by
  intro k _ after before
  omega

theorem Accepting.origin (a : Accepting h h' w slug listing v x) (chose : v.method ≠ "source_alias") :
    Origin h' listing h.ledger.length x x.target where
  here := a.here
  decisive := by simp [decisive,a.accepts,a.method,chose]
  targeted := a.targeted
  refines := .same _

theorem Accepting.rests (a : Accepting h h' w slug listing v x) (chose : v.method ≠ "source_alias")
    (supports : Supports h' h.ledger.length x (basisOf x)) : Resting h' listing x.target := by
  refine ⟨h.ledger.length,x,x,a.origin chose,?_,a.newest,supports⟩
  rw [show h'.ledger.length = h.ledger.length + 1 by rw [a.added,List.length_append,List.length_singleton]]
  exact unbrokenEnd _ _ _

theorem priorBasisIs {n : Edge} (is : Matching.newest (h.ledger.filter (Edge.accepts listing)) = some n) :
    priorBasis h.db.edges listing = some (basisOf n) := by
  rw [History.ledger,Db.decisions,← newestDecided (p := Edge.accepts listing) (fun _ => rfl)] at is
  obtain ⟨m,found,rfl⟩ := Option.map_eq_some_iff.mp is
  rw [priorBasis,found]
  rfl

def Permitted (w : Writer) (slug : String) (listing : Nat) (t : TargetRef) (first v : Verdict) : Prop :=
  ((w.registry.rules slug).acceptance = none → v.evidence.aliasSourceKind = none ∧ v.evidence.acceptanceBasis = none) ∧
  ∀ policy, (w.registry.rules slug).acceptance = some policy →
    Trusted w.registry.canonicalizeTitle w.before.catalog (w.registry.rules slug) policy
      (priorBasis w.before.edges listing) t
      first v

theorem Accepting.inherits (a : Accepting h h' w slug listing v x) {d : Denorm} (resting : Resting h listing d)
    (source : v.method = "source_alias") {t : TargetRef} {first : Verdict}
    (permitted : Permitted w slug listing t first v) (rung : first.rung = some 0)
    (refines : ∀ owned, Targeted owned → Refines h.db.catalog.variants owned d →
      Refines h'.db.catalog.variants owned x.target)
    (category : targetCategory w.before.catalog t = .ok slug) (denotes : Denotes h'.db.catalog.variants t x.target) :
    Resting h' listing x.target ∧ ∀ policy, (w.registry.rules slug).acceptance = some policy →
      Gated h' h.ledger.length x w slug policy := by
  obtain ⟨o,eo,n,origin,unbroken,newest_,supports⟩ := resting
  have within := (List.getElem?_eq_some_iff.mp origin.here).1
  have supports := supports.longer a.longer
  have origin' : Origin h' listing o eo x.target :=
    { here := prefixRow a.longer.ledger origin.here
      decisive := origin.decisive
      targeted := origin.targeted
      refines := refines eo.target origin.targeted origin.refines }
  have before : Unbroken h'.ledger listing o h.ledger.length := unbroken.longer (Nat.le_refl _) a.longer
  have basis : priorBasis w.before.edges listing = some (basisOf n) := by
    rw [a.read]
    exact priorBasisIs newest_
  have method : x.method = "source_alias" := a.method.trans source
  have carries : basisOf x = ⟨v.evidence.acceptanceBasis.getD "source_alias",v.evidence.aliasSourceKind⟩ := by
    simp [basisOf,method,a.basis,a.sourceKind]
  constructor
  · refine ⟨o,eo,x,origin',?_,a.newest,?_⟩
    · intro k y after bound here own
      rw [show h'.ledger.length = h.ledger.length + 1 by rw [a.added,List.length_append,List.length_singleton]] at bound
      by_cases old : k < h.ledger.length
      · exact before k y after old here own
      · have last : k = h.ledger.length := by omega
        subst last
        cases Option.some.inj (a.here.symm.trans here)
        exact .inr ⟨a.accepts,method⟩
    · rw [carries]
      cases policed : (w.registry.rules slug).acceptance with
      | none =>
        obtain ⟨kindless,baseless⟩ := permitted.1 policed
        rw [kindless,baseless]
        exact ⟨nofun,nofun⟩
      | some policy =>
        cases permitted.2 policy policed with
        | owner _ b is manual carried =>
          cases Option.some.inj (basis.symm.trans is)
          rw [carried.1,carried.2]
          exact ⟨fun _ => supports.owner manual,fun kind exact_ _ => by simp at exact_⟩
        | inherited _ b kind is exact_ sourceKind authoritative grain ratified carried =>
          cases Option.some.inj (basis.symm.trans is)
          rw [carried.1,carried.2]
          refine ⟨fun manual => by simp at manual,fun kind' _ same => ?_⟩
          exact supports.aliased kind' exact_ (sourceKind.trans same)
        | decided other =>
          rw [rung] at other
          cases other
  · intro policy policed
    refine ⟨t,category,denotes,o,eo,Nat.le_of_lt within,a.own ▸ origin',a.own ▸ before,?_⟩
    cases permitted.2 policy policed with
    | owner _ b is manual carried =>
      cases Option.some.inj (basis.symm.trans is)
      exact .inl (supports.owner manual)
    | inherited _ b kind is exact_ sourceKind authoritative grain ratified carried =>
      cases Option.some.inj (basis.symm.trans is)
      exact .inr ⟨grain,ratified,kind,authoritative,supports.aliased kind exact_ sourceKind⟩
    | decided other =>
      rw [rung] at other
      cases other

theorem Accepting.aliased (a : Accepting h h' w slug listing v x) {hit : AliasHit} {t : TargetRef} {first : Verdict}
    (permitted : Permitted w slug listing t first v) (rung : first.rung = some 1) (passes : Passes first v)
    (method : v.method = "exact_alias") (chose : first.winningHit = some hit)
    (stored : ∃ row ∈ w.before.catalog.aliases, row.sourceKind = hit.sourceKind ∧
      aliasTarget w.before.catalog row = .ok hit.target) (names : Names h'.db.catalog.variants hit.target x.target)
    (category : targetCategory w.before.catalog t = .ok slug) (denotes : Denotes h'.db.catalog.variants t x.target) :
    Resting h' listing x.target ∧ ∀ policy, (w.registry.rules slug).acceptance = some policy →
      Gated h' h.ledger.length x w slug policy := by
  have chosen : v.method ≠ "source_alias" := by rw [method]; decide
  have byAlias : ∀ policy, (w.registry.rules slug).acceptance = some policy →
      hit.sourceKind ∈ policy.authoritativeSourceKinds ∧ t.grain ∈ policy.grains ∧
      unratifiedFamily w.registry.canonicalizeTitle w.before.catalog (w.registry.rules slug) t = .ok none ∧
      v.evidence.aliasSourceKind = some hit.sourceKind ∧ ByAlias h' h.ledger.length x hit.sourceKind := by
    intro policy policed
    cases permitted.2 policy policed with
    | owner other => rw [rung] at other; contradiction
    | inherited other => rw [rung] at other; contradiction
    | decided _ hit' is authoritative grain enabled ratified carried =>
      cases Option.some.inj (chose.symm.trans is)
      obtain ⟨row,mem,kind,named⟩ := stored
      refine ⟨authoritative,grain,ratified,carried,a.method.trans method,a.rung 1 (passes.rung.trans rung),
        a.sourceKind.trans carried,w,slug,a.writer,a.category,enabled,row,mem,kind,hit.target,named,names⟩
  constructor
  · refine a.rests chosen ⟨fun manual => ?_,fun kind _ is => ?_⟩
    · simp [basisOf,a.method,method] at manual
    · rw [basisOf,a.sourceKind] at is
      cases policed : (w.registry.rules slug).acceptance with
      | none =>
        rw [(permitted.1 policed).1] at is
        cases is
      | some policy =>
        obtain ⟨-,-,-,sourceKind,by_⟩ := byAlias policy policed
        cases Option.some.inj (sourceKind.symm.trans is)
        exact by_
  · intro policy policed
    obtain ⟨authoritative,grain,ratified,-,by_⟩ := byAlias policy policed
    exact ⟨t,category,denotes,h.ledger.length,x,Nat.le_refl _,a.own ▸ a.origin chosen,fun k _ after before => by omega,
      .inr ⟨grain,ratified,hit.sourceKind,authoritative,by_⟩⟩

theorem Accepting.decoded (a : Accepting h h' w slug listing v x) {t : TargetRef} {first : Verdict}
    (permitted : Permitted w slug listing t first v) (rung : first.rung = some 2) (method : v.method = "mpn_decode") :
    Resting h' listing x.target ∧ (w.registry.rules slug).acceptance = none := by
  constructor
  · refine a.rests (by rw [method]; decide) ⟨fun manual => ?_,fun kind exact_ _ => ?_⟩
    · simp [basisOf,a.method,method] at manual
    · simp [basisOf,a.method,method] at exact_
  · cases policed : (w.registry.rules slug).acceptance with
    | none => rfl
    | some policy => cases permitted.2 policy policed <;> simp_all

end
theorem materializedGrain {ρ : Type} {M : Matcher ρ} {e : ExtractedAttributes} {v : Verdict} {c : Catalog}
    {m : Materialized}
    {t : TargetRef} (made : materialize M e v c = some m) (accept : v.outcome = .accept) (target : v.target = some t)
    (graded : t.grain ≠ .none) (confidence : Option Rat) : (m.target confidence).grain ≠ .none := by
  simp only [materialize,accept,target,Option.bind_eq_bind,Option.bind_eq_some_iff] at made
  obtain ⟨_,-,_,-,_,-,made⟩ := made
  split at made
  · cases Option.some.inj made
    rintro ⟨⟩
  · cases Option.some.inj made
    exact graded

section
variable {h h' : History} {R : Registry} {slug : String} {listing : Nat} {row : ListingRow} {canonical : String}
  {attrs : Attrs}
  {reconsider : Bool} {e : ExtractedAttributes} {candidates : List MpnCandidate} {v : Verdict} {x : Edge}

theorem Passed.permitted {first : Verdict} {t : TargetRef} (passed : Passed R slug (listing,h.db) first v)
    (is : first.target = some t) : Permitted ⟨R,h.db⟩ slug listing t first v :=
  (passed.gates t is).2

theorem decidedAccept (kept : Kept h) (here : h.db.listings[listing]? = some row)
    (ok : R.decideListing slug row canonical attrs (listing,h.db) reconsider = .ok (e,candidates,v))
    (accept : v.outcome = .accept) {hint : Option String} {m : Materialized} {confidence : Option Rat}
    (made : materialize R.matcher e (stamped slug hint reconsider v) h.db.catalog = some m)
    (variants : h'.db.catalog.variants = m.catalog.variants) (target : x.target = m.target confidence)
    (accepting : x.target.grain ≠ .none → Accepting h h' ⟨R,h.db⟩ slug listing v x) :
    Resting h' listing x.target ∧ ∀ policy, (R.rules slug).acceptance = some policy →
      Gated h' h.ledger.length x ⟨R,h.db⟩ slug policy := by
  obtain ⟨stages⟩ := stagesOf ok
  have passed := stages.accepted accept
  have grown := materializedVariants made
  have graded : ∀ t, v.target = some t → t.grain ≠ .none → x.target.grain ≠ .none := by
    intro t is grain
    rw [target]
    exact materializedGrain (t := { t with categorySlug := some slug }) made accept (by simp [stamped,is]) grain _
  have denotes : ∀ t, v.target = some t → t.familyKey = none → Denotes h'.db.catalog.variants t x.target := by
    intro t is real
    rw [variants,target]
    have denotes := materializedDenotes (t := { t with categorySlug := some slug }) made accept
      (by simp [stamped,is]) real
      confidence
    cases denotes with
    | exact grain family model variant => exact .exact grain family model variant
    | onDemand pk row ofModel grain family model variant here own =>
      exact .onDemand pk row ofModel grain family model variant here own
  cases inherited : stages.inherited with
  | some p =>
    rw [inherited] at passed
    rcases @priorDecides (R.rules slug).veto e (R.rules slug).distinctMpnGuard candidates stages.hits
        (firstDecode candidates (R.rules slug).decode) p with inherits | reviews
    · obtain ⟨rests,columns⟩ := stages.priorOf inherited
      obtain ⟨real,grain⟩ := columnTargetReal columns
      have is : v.target = some p.target := passed.passes.target.trans inherits.target
      have resolution : h.db.resolution listing = some row.resolution :=
        congrArg (Option.map ListingRow.resolution) here
      refine (accepting (graded _ is grain)).inherits (kept.rests listing _ resolution rests)
        (passed.passes.method.trans inherits.method) (passed.permitted inherits.target) inherits.rung ?_
        ((passed.gates _ inherits.target).1 real) (denotes _ is real)
      intro owned targeted refines
      obtain ⟨_,same,-,grain,family,model,variant⟩ := columnsTarget (refines.targeted targeted) columns
      cases Option.some.inj same
      exact denotesRefines targeted refines (variants ▸ grown) grain family model variant (denotes _ is real)
    · have review := passed.passes.outcome.trans reviews.outcome
      rw [accept] at review
      cases review
  | none =>
    rw [inherited] at passed
    have chosen := freshChosen (passed.passes.outcome.symm.trans accept)
    have method := passed.passes.method
    generalize Ladder.decide (R.rules slug).veto e (R.rules slug).distinctMpnGuard candidates none stages.hits
      (firstDecode candidates (R.rules slug).decode) = first at chosen method passed
    cases chosen with
    | exact hit mem rung exact_ is target =>
      obtain ⟨alias_,stored,kind,named⟩ := hitSource stages.hitsAre mem
      obtain ⟨real,grain⟩ := aliasTargetReal named
      have at_ : v.target = some hit.target := passed.passes.target.trans target
      exact (accepting (graded _ at_ grain)).aliased (passed.permitted target) rung passed.passes
        (method.trans exact_) is
        ⟨alias_,stored,kind,named⟩ (.inl (denotes _ at_ real)) ((passed.gates _ target).1 real) (denotes _ at_ real)
    | fanout hit family mem rung exact_ is own target =>
      have at_ : v.target = some { grain := .family, familyId := some family } := passed.passes.target.trans target
      have named := denotes _ at_ rfl
      refine (accepting (graded _ at_ (by rintro ⟨⟩))).aliased (passed.permitted target) rung passed.passes
        (method.trans exact_) is
        (hitSource stages.hitsAre mem) (.inr ?_) ((passed.gates _ target).1 rfl) named
      cases named with
      | exact grain family_ model variant => exact ⟨grain,family_.trans own.symm⟩
      | onDemand pk row ofModel => contradiction
    | decoded key rung decoded target =>
      have at_ : v.target = some { grain := .family, familyKey := some key } := passed.passes.target.trans target
      obtain ⟨rests,unpoliced⟩ := (accepting (graded _ at_ (by rintro ⟨⟩))).decoded (passed.permitted target) rung
        (method.trans decoded)
      exact ⟨rests,fun policy policed => by rw [unpoliced] at policed; contradiction⟩

end
section
variable {h h' : History} {R : Registry} {listing : Nat} {reconsider : Bool} {f : Faults} {now : Int} {db' : Db}

theorem decisionsLength (db : Db) : db.decisions.length = db.edges.length := List.length_map _

def History.acted (h : History) (a : Act) (db' : Db) : History :=
  ⟨db',h.writers ++ List.replicate (db'.edges.length - h.db.edges.length) (a.writer h.db)⟩

theorem actedSame {a : Act} (same : db'.decisions = h.db.decisions) : (h.acted a db').writers = h.writers := by
  have length := congrArg List.length same
  rw [decisionsLength,decisionsLength] at length
  simp [History.acted,length]

theorem actedAdded {a : Act} {x : Edge} (added : db'.decisions = h.db.decisions ++ [x]) :
    (h.acted a db').writers = h.writers ++ [a.writer h.db] := by
  have length := congrArg List.length added
  rw [List.length_append,decisionsLength,decisionsLength] at length
  simp [History.acted,length]

theorem quietKeeps {a : Act} (kept : Kept h) (decisions : db'.decisions = h.db.decisions)
    (resolution : ∀ other, db'.resolution other = h.db.resolution other)
    (grown : h.db.catalog.variants <+: db'.catalog.variants) : Kept (h.acted a db') := by
  have writers := actedSame (a := a) decisions
  exact kept.same ⟨⟨[],by rw [List.append_nil]; exact decisions.symm⟩,writers ▸ List.prefix_rfl,grown⟩ decisions writers
    resolution

theorem resolveKeeps (kept : Kept h) (latest : ∀ e ∈ h.ledger, e.resolvedAt ≤ now)
    (ok : R.resolveListing listing reconsider f now h.db = some db') :
    Kept (h.acted (.resolve R listing reconsider f now) db') := by
  obtain ⟨row,r,here,reads,done⟩ := resolvedBy ok
  have grown := appliedVariants done
  cases wrote done with
  | nothing resolution decisions => exact quietKeeps kept decisions resolution grown
  | failure error m before resolution decisions =>
    have writers := actedAdded (a := .resolve R listing reconsider f now) decisions
    have failed : ((newEdge R.matcher listing now r m before).decision).isError = true := error
    refine kept.added ⟨⟨_,decisions.symm⟩,⟨_,writers.symm⟩,grown⟩ decisions writers
      (fun other _ => resolution other) ?_ ?_
    · intro clean
      rw [failed] at clean
      cases clean
    · intro _ _ _ clean
      rw [failed] at clean
      cases clean
  | edge clean m before made variants rests others decisions coherent =>
    have writers := actedAdded (a := .resolve R listing reconsider f now) decisions
    have longer : Longer h (h.acted (.resolve R listing reconsider f now) db') :=
      ⟨⟨_,decisions.symm⟩,⟨_,writers.symm⟩,grown⟩
    have unfailed : ((newEdge R.matcher listing now r m before).decision).isError = false := clean
    have elsewhere : ∀ other, other ≠ listing ∨ ((newEdge R.matcher listing now r m before).decision).isError = true →
        db'.resolution other = h.db.resolution other := by
      intro other apart
      rw [unfailed] at apart
      exact others other (apart.resolve_right Bool.false_ne_true)
    by_cases accept : r.verdict.outcome = .accept
    · cases reads with
      | failed error =>
        rw [error] at clean
        cases clean
      | unsupported slug hint is =>
        rw [is] at accept
        cases accept
      | @decided e candidates v slug hint registered decided =>
        have source : (newEdge R.matcher listing now
            ⟨R.canonicalizeListingText row.titleRaw row.conditionLabelRaw,e,candidates,
            stamped slug hint reconsider v⟩ m before).decision.method = v.method := if_pos accept
        have accepted := @decidedAccept h (h.acted (.resolve R listing reconsider f now) db') R slug listing row _
          _ reconsider e
          candidates v (newEdge R.matcher listing now
            ⟨R.canonicalizeListingText row.titleRaw row.conditionLabelRaw,e,candidates,
            stamped slug hint reconsider v⟩ m before).decision kept here decided accept hint m _ made variants rfl
              (fun graded =>
            { longer
              added := decisions
              wrote := writers
              aligned := kept.aligned
              read := rfl
              own := rfl
              clean
              outcome := congrArg some accept
              method := source
              rung := fun n is => by simp [newEdge,Edge.decision,edgeEvidence,stamped,is]
              sourceKind := rfl
              basis := rfl
              category := rfl
              latest
              targeted := coherentTargeted coherent graded })
        refine kept.added longer decisions writers elsewhere ?_ ?_
        · intro _ d is _
          cases Option.some.inj (rests.symm.trans is)
          exact accepted.1
        · intro w slug' policy _ _ writer category policed
          cases Option.some.inj writer
          cases Option.some.inj category
          exact accepted.2 policy policed
    · have missed_ : (newEdge R.matcher listing now r m before).target = m.target none := by simp [newEdge,accept]
      have target : (newEdge R.matcher listing now r m before).target.grain = .none :=
        congrArg Denorm.grain (missed_.trans (materializedMiss made accept))
      refine kept.added longer decisions writers elsewhere ?_ ?_
      · intro _ d is graded
        cases Option.some.inj (rests.symm.trans is)
        exact absurd target graded
      · intro _ _ _ _ outcome
        exact absurd (Option.some.inj outcome) accept

theorem ownerAdds {e : Edge} (ok : h.db.ownerAccept e = some db') : e.coherent = true ∧ e.target.grain ≠ .none ∧
    db'.decisions = h.db.decisions ++ [e.decision] ∧ db'.catalog = h.db.catalog ∧
    (∀ other, other ≠ e.listing → db'.resolution other = h.db.resolution other) ∧
    db'.resolution e.listing = some e.target := by
  simp only [Db.ownerAccept,Option.bind_eq_bind,Option.bind_eq_some_iff] at ok
  obtain ⟨row,here,ok⟩ := ok
  split at ok
  · cases ok
  rename_i graded
  obtain ⟨inserted,linked,rfl⟩ := Option.map_eq_some_iff.mp ok
  have edges := supersededEdges linked
  refine ⟨insertedCoherent linked,graded,?_,by rw [edges]; rfl,fun other apart => ?_,?_⟩
  · rw [edges]
    simp only [Db.decisions,Db.updateListing,extend,List.map_append,List.map_singleton]
    congr 1
    exact modifiedDecisions fun _ => rfl
  · rw [updateResolution,if_neg (Ne.symm apart),edges]
    rfl
  · rw [updateResolution,if_pos rfl,edges,here]
    rfl

theorem ownerKeeps (kept : Kept h) {target : Denorm} {version : String} {evidence : Evidence}
    (latest : ∀ e ∈ h.ledger, e.resolvedAt ≤ now)
    (ok : h.db.ownerAccept (ownersEdge listing target version evidence now) = some db') :
    Kept ⟨db',h.writers ++ [none]⟩ := by
  obtain ⟨coherent,graded,added,catalog,others,rests⟩ := ownerAdds ok
  have longer : Longer h ⟨db',h.writers ++ [none]⟩ :=
    ⟨⟨_,added.symm⟩,List.prefix_append _ _,by rw [catalog]⟩
  have here : (⟨db',h.writers ++ [none]⟩ : History).ledger[h.ledger.length]? =
      some (ownersEdge listing target version evidence now).decision := by
    rw [History.ledger,added]
    exact List.getElem?_concat_length
  refine kept.added longer added rfl (fun other apart => others other (apart.resolve_right nofun)) ?_ (by simp)
  intro _ d is _
  cases Option.some.inj (rests.symm.trans is)
  refine ⟨h.ledger.length,_,(ownersEdge listing target version evidence now).decision,
    ⟨here,?_,coherentTargeted coherent graded,.same _⟩,?_,?_,⟨fun _ => rfl,?_⟩⟩
  · simp [decisive,Edge.accepts,ownersEdge,Edge.decision,Edge.isError]
  · rw [show (⟨db',h.writers ++ [none]⟩ : History).ledger.length = h.ledger.length + 1 by
      rw [History.ledger,added,List.length_append,List.length_singleton]; rfl]
    exact unbrokenEnd _ _ _
  · rw [History.ledger,added]
    exact newestAdded latest (by simp [Edge.accepts,ownersEdge,Edge.decision,Edge.isError])
  · intro kind exact_
    simp [basisOf,ownersEdge,Edge.decision] at exact_

theorem unresolvedKept (fresh : Unresolved h) : Kept h where
  aligned := by rw [fresh.writers,History.ledger,decisionsLength,fresh.edges]; rfl
  rests := by
    intro listing d is graded
    obtain ⟨row,here,rfl⟩ := Option.map_eq_some_iff.mp is
    exact absurd (fresh.rows row (List.mem_of_getElem? here)) graded
  gated := by
    intro i e _ _ _ here
    rw [History.ledger,Db.decisions,fresh.edges] at here
    cases here

theorem unfoldKeeps {entry : Entry} (kept : Kept h) (ok : Unfolds h entry h') : Kept h' := by
  simp only [Unfolds,History.step,History.enter] at ok
  obtain ⟨clock,ok⟩ := Option.ite_none_right_eq_some.mp ok
  have latest : ∀ now, entry.clock = some now → ∀ e ∈ h.ledger, e.resolvedAt ≤ now := by
    intro now is e mem
    obtain ⟨old,stored,rfl⟩ := List.mem_map.mp mem
    have before := List.all_eq_true.mp clock old stored
    rw [is] at before
    exact of_decide_eq_true before
  cases entry with
  | owner listing target version evidence now =>
    obtain ⟨db',accepted,rfl⟩ := Option.map_eq_some_iff.mp ok
    exact ownerKeeps kept (latest now rfl) accepted
  | act a =>
    cases Option.some.inj ok
    cases a with
    | resolve R listing reconsider f now =>
      simp only [Act.run]
      cases ran : R.resolveListing listing reconsider f now h.db with
      | none => exact quietKeeps kept rfl (fun _ => rfl) List.prefix_rfl
      | some db' => exact resolveKeeps kept (latest now rfl) ran
    | edit other title conditionLabel attrs =>
      exact quietKeeps kept rfl (keptResolution (f := observed title conditionLabel attrs) fun _ => rfl) List.prefix_rfl
    | refdata catalog => exact quietKeeps kept rfl (fun _ => rfl) List.prefix_rfl

theorem acceptsGated {start : History} {labels : List Entry} (fresh : Unresolved start)
    (run : Runs Unfolds start labels h)
    {i : Nat} {e : Edge} {w : Writer} {slug : String} {policy : AcceptancePolicy} (here : h.ledger[i]? = some e)
    (clean : e.isError = false) (accept : e.evidence.outcome = some .accept) (wrote : h.writers[i]? = some (some w))
    (category : e.evidence.category = some slug) (policed : (w.registry.rules slug).acceptance = some policy) :
    Gated h i e w slug policy :=
  (run.invariant Kept unfoldKeeps (unresolvedKept fresh)).gated i e w slug policy here clean accept wrote
    category policed

end
def nicRules : CategoryRules := { seagateRules with acceptance := some newCategoryAcceptance, scope := nofun }

def nicRegistry : Registry := { seagateRegistry with rules := fun _ => nicRules }

def nicHistory : History where
  db :=
    { listings := [⟨0,"seagate st12000vn0008 used","","",hinted "nic",Denorm.cleared⟩]
      edges := []
      catalog := { ironwolf with categories := ["nic"], families := [⟨"nic","seagate","ironwolf"⟩] } }
  writers := []

def nicPoll (f : Faults) (now : Int) : Entry := .act (.resolve nicRegistry 0 false f now)

def crashed : Faults := ⟨some "OperationalError()",false,""⟩

def nicPolls : List Entry := [nicPoll noFaults 1,nicPoll crashed 2,nicPoll noFaults 3]

def nicOwned : List Entry := .owner 0 familyDenorm matcherVersion {} 0::nicPolls

def afterEntries (entries : List Entry) : Option History := entries.foldlM (fun h entry => h.step entry) nicHistory

def polledHistory : History := (afterEntries nicPolls).get (by decide +kernel)

def ownedHistory : History := (afterEntries nicOwned).get (by decide +kernel)

def behind : List Entry :=
  [.act (.edit 0 "seagate st12000vn0008" "" (some (hinted "nic"))),nicPoll noFaults 10,
    .act (.refdata { nicHistory.db.catalog with
      models := [⟨"seagate",some 0,[]⟩,⟨"seagate",some 0,[]⟩]
      aliases := [⟨"mpn","st12000vn0008",none,some 1,none,none,"listing_derived"⟩] }),
    .act (.resolve seagateRegistry 0 true noFaults 5),nicPoll crashed 6,nicPoll noFaults 7]

def behindHistory : History :=
  (behind.foldlM (fun (h : History) entry => h.enter entry) nicHistory).get (by decide +kernel)

theorem nicUnresolved : Unresolved nicHistory := ⟨by decide,rfl,rfl⟩

def writerOf (h : History) (i : Nat) : Option Writer := (h.writers[i]?).join

theorem polledRun : Runs Unfolds nicHistory nicPolls polledHistory := .ofSteps (Option.some_get _).symm

theorem inheritedGated : Gated polledHistory 2 ((polledHistory.ledger[2]?).get (by decide +kernel))
    ((writerOf polledHistory 2).get (by decide +kernel)) "nic" newCategoryAcceptance :=
  acceptsGated nicUnresolved polledRun (Option.some_get _).symm (by decide +kernel)
    (by decide +kernel) (Option.join_eq_some_iff.mp (Option.some_get _).symm) (by decide +kernel) (by decide +kernel)

theorem grainNotPermitted :
    (∃ h : History, Runs Unfolds nicHistory nicOwned h ∧ ∃ (e : Edge) (w : Writer), h.ledger[3]? = some e ∧
      h.writers[3]? = some (some w) ∧
      e.isError = false ∧ e.evidence.outcome = some .accept ∧ e.evidence.category = some "nic" ∧
      (w.registry.rules "nic").acceptance = some newCategoryAcceptance ∧
      e.target.grain ∉ newCategoryAcceptance.grains) ∧
    (∃ h : History, Runs Unfolds nicHistory nicPolls h ∧ ∃ (e : Edge) (w : Writer), h.ledger[0]? = some e ∧
      h.writers[0]? = some (some w) ∧
      e.isError = false ∧ e.evidence.outcome = some .accept ∧ e.evidence.category = some "nic" ∧
      (w.registry.rules "nic").acceptance = some newCategoryAcceptance ∧ e.target.grain = .variant ∧
      ∀ row ∈ w.before.catalog.aliases ++ h.db.catalog.aliases, row.productVariant ≠ e.target.productVariant) ∧
    ∃ h : History, behind.foldlM (fun (h : History) entry => h.enter entry) nicHistory = some h ∧ ∃ (e : Edge)
    (w : Writer) (chose : Edge),
      h.ledger[3]? = some e ∧ h.writers[3]? = some (some w) ∧ h.ledger[1]? = some chose ∧
      e.isError = false ∧ e.evidence.outcome = some .accept ∧ e.method = "source_alias" ∧
      e.evidence.category = some "nic" ∧ (w.registry.rules "nic").acceptance = some newCategoryAcceptance ∧
      chose.method = "exact_alias" ∧ chose.target.productModel = e.target.productModel ∧
      (∀ x ∈ h.ledger.drop 2, x.isError = true ∨ x.method = "source_alias") ∧
      ∀ row ∈ w.before.catalog.aliases, row.sourceKind ∉ newCategoryAcceptance.authoritativeSourceKinds := by
  refine ⟨⟨ownedHistory,.ofSteps (Option.some_get _).symm,(ownedHistory.ledger[3]?).get (by decide +kernel),
      (writerOf ownedHistory 3).get (by decide +kernel),(Option.some_get _).symm,
      Option.join_eq_some_iff.mp (Option.some_get _).symm,?_⟩,
    ⟨polledHistory,polledRun,(polledHistory.ledger[0]?).get (by decide +kernel),
      (writerOf polledHistory 0).get (by decide +kernel),(Option.some_get _).symm,
      Option.join_eq_some_iff.mp (Option.some_get _).symm,?_⟩,
    ⟨behindHistory,(Option.some_get _).symm,(behindHistory.ledger[3]?).get (by decide +kernel),
      (writerOf behindHistory 3).get (by decide +kernel),(behindHistory.ledger[1]?).get (by decide +kernel),
      (Option.some_get _).symm,Option.join_eq_some_iff.mp (Option.some_get _).symm,(Option.some_get _).symm,?_⟩⟩ <;>
    decide +kernel

end HwRadar.Matching
