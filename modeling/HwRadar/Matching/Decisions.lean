import HwRadar.Matching.Polls

/-! The ledger but for its bookkeeping: what a call adds to it, and which of its edges the
newest of a kind is. -/
namespace HwRadar.Matching
open HwRadar.Base HwRadar.Base.Chain

def Edge.decision (e : Edge) : Edge := { e with lastEvaluatedAt := 0, isCurrent := false, supersededBy := none }

def Db.decisions (db : Db) : List Edge := db.edges.map Edge.decision

theorem modifiedDecisions {edges : List Edge} {pk : Option Nat} {f : Edge → Edge}
    (same : ∀ e, (f e).decision = e.decision) :
    (pk.elim edges fun pk => edges.modify pk f).map Edge.decision = edges.map Edge.decision := by
  cases pk with
  | none => rfl
  | some pk =>
    refine List.ext_getElem? fun i => ?_
    simp only [Option.elim_some,List.getElem?_map,List.getElem?_modify]
    cases edges[i]? with
    | none => rfl
    | some e =>
      simp only [Option.map_eq_map,Option.map_some]
      split
      · rw [same]
      · rfl

def later (best : Option Edge) (e : Edge) : Option Edge :=
  match best with
  | some b => if b.resolvedAt ≤ e.resolvedAt then some e else some b
  | none => some e

theorem newestSnoc (edges : List Edge) (e : Edge) : newest (edges ++ [e]) = later (newest edges) e := by
  simp only [newest,List.foldl_append,List.foldl_cons,List.foldl_nil]
  rfl

theorem newestMem {edges : List Edge} {e : Edge} (is : newest edges = some e) : e ∈ edges := by
  induction edges using List.reverseRecOn with
  | nil => contradiction
  | append_singleton edges last ih =>
    rw [newestSnoc] at is
    cases before : newest edges with
    | none =>
      rw [before] at is
      cases Option.some.inj is
      simp
    | some b =>
      rw [before] at is
      simp only [later] at is
      split at is
      · cases Option.some.inj is
        simp
      · exact List.mem_append_left _ (ih (before.trans is))

theorem newestMap {f : Edge → Edge} (same : ∀ e, (f e).resolvedAt = e.resolvedAt) (edges : List Edge) :
    newest (edges.map f) = (newest edges).map f := by
  induction edges using List.reverseRecOn with
  | nil => rfl
  | append_singleton edges last ih =>
    rw [List.map_append,List.map_singleton,newestSnoc,newestSnoc,ih]
    cases newest edges with
    | none => rfl
    | some b =>
      simp only [later,Option.map_some,same]
      split <;> rfl

theorem newestDecided {p : Edge → Bool} (kind : ∀ e, p e.decision = p e) (edges : List Edge) :
    (newest (edges.filter p)).map Edge.decision = newest ((edges.map Edge.decision).filter p) := by
  rw [List.filter_map,show p ∘ Edge.decision = p from funext kind]
  exact (newestMap (f := Edge.decision) (fun _ => rfl) _).symm

section
variable {ρ : Type} {M : Matcher ρ} {listing : Nat} {r : Reading} {now : Int} {db db' : Db}

inductive Wrote (M : Matcher ρ) (listing : Nat) (r : Reading) (now : Int) (db db' : Db) : Prop where
  | nothing (resolution : ∀ other, db'.resolution other = db.resolution other)
      (decisions : db'.decisions = db.decisions)
  | failure (error : r.verdict.isError = true) (m : Materialized) (before : Denorm)
      (resolution : ∀ other, db'.resolution other = db.resolution other)
      (decisions : db'.decisions = db.decisions ++ [(newEdge M listing now r m before).decision])
  | edge (clean : r.verdict.isError = false) (m : Materialized) (before : Denorm)
      (made : materialize M r.extracted r.verdict db.catalog = some m)
      (variants : db'.catalog.variants = m.catalog.variants)
      (rests : db'.resolution listing = some (newEdge M listing now r m before).target)
      (others : ∀ other, other ≠ listing → db'.resolution other = db.resolution other)
      (decisions : db'.decisions = db.decisions ++ [(newEdge M listing now r m before).decision])
      (coherent : (newEdge M listing now r m before).coherent = true)

theorem insertedCoherent {e : Edge} (ok : db.supersede e = some db') : e.coherent = true := by
  simp only [Db.supersede,Db.insertEdge,Option.map_eq_some_iff] at ok
  obtain ⟨inserted,ok,-⟩ := ok
  have checked := (Option.ite_none_right_eq_some.mp ok).1
  exact ((Bool.and_eq_true _ _).mp checked).1

theorem learnedVariants (site : Nat) (candidates : List MpnCandidate) (model : Option Nat) (c : Catalog) :
    (learnAliases site candidates model c).variants = c.variants := by
  cases model <;> rfl

theorem madeVariants (ok : apply M listing r now db = some db')
    (changed : unchanged (db.currentEdge listing) r.verdict = false)
    {m : Materialized} (made : materialize M r.extracted r.verdict db.catalog = some m) :
    db'.catalog.variants = m.catalog.variants := by
  simp only [apply,changed,Bool.false_eq_true,if_false,made,Option.bind_eq_bind,Option.bind_some,
    Option.bind_eq_some_iff] at ok
  obtain ⟨locked,-,ok⟩ := ok
  split at ok
  · cases Option.some.inj ok
    rfl
  obtain ⟨inserted,linked,ok⟩ := Option.bind_eq_some_iff.mp ok
  have same : inserted.catalog.variants = m.catalog.variants := by rw [supersededEdges linked]
  split at ok
  · cases Option.some.inj ok
    exact same
  split at ok
  · cases Option.some.inj ok
    exact (learnedVariants _ _ _ _).trans same
  · cases Option.some.inj ok
    exact same

theorem wrote (ok : apply M listing r now db = some db') : Wrote M listing r now db db' := by
  cases applied ok with
  | stamped catalog found result =>
    subst result
    refine .nothing (fun other => stampedResolution { db with catalog } listing other r.canonical now) ?_
    rw [Db.decisions,stampedEdges]
    exact modifiedDecisions fun _ => rfl
  | written locked m catalog inserted here changed made different linked result =>
    have variants := madeVariants ok changed made
    subst result
    have edges := supersededEdges linked
    have decisions : Db.decisions { inserted.updateListing listing (fun row =>
        { titled r.canonical row with
          resolution := if r.verdict.isError then row.resolution
            else (newEdge M listing now r m locked.resolution).target }) with catalog } =
        db.decisions ++ [(newEdge M listing now r m locked.resolution).decision] := by
      rw [edges]
      simp only [Db.decisions,Db.updateListing,extend,List.map_append,List.map_singleton]
      congr 1
      exact modifiedDecisions fun _ => rfl
    have rows : inserted.listings = db.listings := by rw [edges]
    cases error : r.verdict.isError with
    | true =>
      refine .failure error m locked.resolution (fun other => ?_) (by simpa only [error] using decisions)
      refine (keptResolution (fun row => ?_) other).trans
        (congrArg (fun rows => (rows[other]?).map ListingRow.resolution) rows)
      simp
    | false =>
      refine .edge error m locked.resolution made variants ?_ (fun other apart => ?_)
        (by simpa only [error] using decisions)
        (insertedCoherent linked)
      · refine (@updateResolution inserted listing _ listing).trans ?_
        rw [if_pos rfl,rows,here]
        rfl
      · refine (@updateResolution inserted listing _ other).trans ?_
        rw [if_neg (Ne.symm apart)]
        exact congrArg (fun rows => (rows[other]?).map ListingRow.resolution) rows

theorem appliedVariants (ok : apply M listing r now db = some db') : db.catalog.variants <+: db'.catalog.variants := by
  cases changed : unchanged (db.currentEdge listing) r.verdict with
  | true =>
    simp only [apply,changed,if_true,Option.bind_eq_bind,Option.bind_eq_some_iff] at ok
    obtain ⟨locked,-,ok⟩ := ok
    cases Option.some.inj ok
    exact List.prefix_rfl
  | false =>
    cases made : materialize M r.extracted r.verdict db.catalog with
    | none => simp [apply,changed,made] at ok
    | some m =>
      rw [madeVariants ok changed made]
      exact materializedVariants made

end
end HwRadar.Matching
