import HwRadar.Matching.Decisions

/-! An owner's accept against the polls after it. The prior a normal call starts from has no
automated origin, so rung 0 inherits it or the call reviews; what withdraws it is on the
edge that does. -/
namespace HwRadar.Matching
open HwRadar.Base

def decisive (listing : Nat) (e : Edge) : Bool := e.accepts listing && e.method ≠ "source_alias"

inductive Targeted : Denorm → Prop where
  | family (confidence pk) : Targeted ⟨.family,confidence,some pk,none,none⟩
  | model (confidence pk) : Targeted ⟨.model,confidence,none,some pk,none⟩
  | variant (confidence pk) : Targeted ⟨.variant,confidence,none,none,some pk⟩

theorem coherentTargeted {e : Edge} (coherent : e.coherent = true) (some_ : e.target.grain ≠ .none) :
    Targeted e.target := by
  obtain ⟨columns,-⟩ := (Bool.and_eq_true _ _).mp coherent
  revert columns some_
  generalize e.target = d
  intro columns some_
  obtain ⟨grain,confidence,family,model,variant⟩ := d
  cases grain <;> cases family <;> cases model <;> cases variant <;> simp_all
  · exact .family _ _
  · exact .model _ _
  · exact .variant _ _

theorem prefixRow {α : Type} {rows later_ : List α} (grown : rows <+: later_) {pk : Nat} {row : α}
    (here : rows[pk]? = some row) :
    later_[pk]? = some row := by
  obtain ⟨rest,rfl⟩ := grown
  exact (List.getElem?_append_left (List.getElem?_eq_some_iff.mp here).1).trans here

inductive Refines (variants : List ProductVariant) (d : Denorm) : Denorm → Prop where
  | same (confidence) : Refines variants d { d with confidence }
  | variant (confidence pk) (row : ProductVariant) (grain : d.grain = .model) (here : variants[pk]? = some row)
      (own : d.productModel = some row.productModel) : Refines variants d ⟨.variant,confidence,none,none,some pk⟩

theorem Refines.grows {variants later_ : List ProductVariant} {d d' : Denorm} (refines : Refines variants d d')
    (grown : variants <+: later_) : Refines later_ d d' := by
  cases refines with
  | same confidence => exact .same confidence
  | variant confidence pk row grain here own => exact .variant confidence pk row grain (prefixRow grown here) own

theorem Refines.targeted {variants : List ProductVariant} {d d' : Denorm} (refines : Refines variants d d')
    (targeted : Targeted d) : Targeted d' := by
  cases refines with
  | same confidence => cases targeted <;> constructor
  | variant confidence pk row grain here own => exact .variant confidence pk

structure OwnerAccepted (e : Edge) (listing : Nat) (db : Db) : Prop where
  decided : newest (db.decisions.filter (decisive listing)) = some e
  manual : e.method = "manual"
  targeted : Targeted e.target
  rests : ∃ d, db.resolution listing = some d ∧ Refines db.catalog.variants e.target d

structure Withdraws (listing : Nat) (db db' : Db) (x : Edge) : Prop where
  added : db'.decisions = db.decisions ++ [x]
  own : x.listing = listing
  grain : x.target.grain = .none
  clean : x.evidence.error = none
  says_ : (x.evidence.outcome = some .review ∧ x.evidence.reasons ≠ []) ∨
    (x.evidence.outcome = some .none ∧ x.evidence.unsupportedCategory = true)

section
variable {R : Registry} {listing : Nat} {db db' : Db} {e : Edge}

theorem ownerOrigin (owner : OwnerAccepted e listing db) : automatedOrigin db.edges listing = none := by
  have decided := owner.decided
  rw [Db.decisions,← newestDecided (p := decisive listing) (fun _ => rfl)] at decided
  obtain ⟨x,is,rfl⟩ := Option.map_eq_some_iff.mp decided
  have manual : x.method = "manual" := owner.manual
  simp only [automatedOrigin]
  rw [show (fun e : Edge => e.accepts listing && decide (e.method ≠ "source_alias")) = decisive listing from rfl,is]
  simp [Option.filter,automatedMethods,manual]

theorem columnsTarget {c : Catalog} {d : Denorm} (targeted : Targeted d) {t : Option TargetRef}
    (ok : columnTarget c d.productVariant d.productModel d.productFamily = .ok t) :
    ∃ target, t = some target ∧ target.familyKey = none ∧ target.grain = d.grain ∧
      (d.grain = .family → target.familyId = d.productFamily) ∧ (d.grain = .model → target.modelId = d.productModel) ∧
      (d.grain = .variant → target.variantId = d.productVariant) := by
  cases targeted with
  | family confidence pk =>
    cases ok
    exact ⟨_,rfl,rfl,rfl,fun _ => rfl,by rintro ⟨⟩,by rintro ⟨⟩⟩
  | model confidence pk =>
    simp only [columnTarget,modelTarget] at ok
    cases found : modelRow c pk with
    | error text => simp [found,Except.map] at ok
    | ok model =>
      rw [found] at ok
      cases ok
      exact ⟨_,rfl,rfl,rfl,by rintro ⟨⟩,fun _ => rfl,by rintro ⟨⟩⟩
  | variant confidence pk =>
    simp only [columnTarget,variantTarget,bind,Except.bind] at ok
    cases found : variantRow c pk with
    | error text => simp [found,Except.map] at ok
    | ok variant =>
      cases of_ : modelRow c variant.productModel with
      | error text => simp [found,of_,Except.map] at ok
      | ok model =>
        simp only [found,of_] at ok
        cases ok
        exact ⟨_,rfl,rfl,rfl,by rintro ⟨⟩,by rintro ⟨⟩,fun _ => rfl⟩

theorem denotesRefines {before after : List ProductVariant} {owned d d' : Denorm} {t : TargetRef}
    (targeted : Targeted owned)
    (refines : Refines before owned d) (grown : before <+: after) (grain : t.grain = d.grain)
    (family : d.grain = .family → t.familyId = d.productFamily) (model : d.grain = .model → t.modelId = d.productModel)
    (variant : d.grain = .variant → t.variantId = d.productVariant) (denotes : Denotes after t d') :
    Refines after owned d' := by
  cases denotes with
  | exact sameGrain sameFamily sameModel sameVariant =>
    have same : d' = { d with confidence := d'.confidence } := by
      have targeted := refines.targeted targeted
      obtain ⟨g,c,f,m,v⟩ := d'
      simp only at sameGrain sameFamily sameModel sameVariant
      cases targeted <;> simp_all
    rw [same]
    cases refines with
    | same confidence => exact .same _
    | variant confidence pk row ofModel here own => exact .variant _ pk row ofModel (prefixRow grown here) own
  | onDemand pk row ofModel isVariant noFamily noModel isPk here own =>
    have same : d' = ⟨.variant,d'.confidence,none,none,some pk⟩ := by
      obtain ⟨g,c,f,m,v⟩ := d'
      simp_all
    rw [same]
    have atModel : d.grain = .model := grain.symm.trans ofModel
    cases refines with
    | same confidence => exact .variant _ pk row atModel here ((model atModel).symm.trans own)
    | variant => contradiction

theorem ownerDecides (owner : OwnerAccepted e listing db) {row : ListingRow} (here : db.listings[listing]? = some row)
    {slug canonical : String} {attrs : Attrs} {x : ExtractedAttributes} {candidates : List MpnCandidate} {v : Verdict}
    (ok : R.decideListing slug row canonical attrs (listing,db) false = .ok (x,candidates,v)) :
    (∃ p target, Inherits p v ∧ p.target = target ∧
      columnTarget db.catalog row.resolution.productVariant row.resolution.productModel row.resolution.productFamily =
        .ok (some target)) ∨ Reviews v := by
  have rests : ∃ d, db.resolution listing = some d ∧ Refines db.catalog.variants e.target d := owner.rests
  obtain ⟨d,is,refines⟩ := rests
  rw [Db.resolution,here] at is
  cases Option.some.inj is
  have targeted := refines.targeted owner.targeted
  have graded : row.resolution.grain ≠ .none := by
    intro none_
    cases h : row.resolution with
    | mk g c f m v => rw [h] at targeted none_; cases targeted <;> contradiction
  obtain ⟨stages⟩ := stagesOf ok
  have priorIs := stages.priorIs
  simp only [priorRead,Bool.false_eq_true,if_false,priorFromListing,if_neg graded] at priorIs
  cases columns : columnTarget db.catalog row.resolution.productVariant row.resolution.productModel
      row.resolution.productFamily with
  | error text =>
    rw [columns] at priorIs
    cases priorIs
  | ok t =>
    obtain ⟨target,rfl,-⟩ := columnsTarget targeted columns
    rw [columns] at priorIs
    have prior := (Except.ok.inj priorIs).symm
    have inherits := stages.inherits
    rw [prior] at inherits
    simp only [Option.map_some,Registry.inherited,ownerOrigin owner] at inherits
    obtain ⟨is,-⟩ := Prod.mk.inj (Except.ok.inj inherits)
    exact (stages.ofPrior is.symm).imp_left fun inherits => ⟨_,target,inherits,rfl,rfl⟩

theorem addedDecisive {x : Edge} (apart : decisive listing x = false) (added : db'.decisions = db.decisions ++ [x]) :
    newest (db'.decisions.filter (decisive listing)) = newest (db.decisions.filter (decisive listing)) := by
  rw [added,List.filter_append]
  simp [apart]

theorem OwnerAccepted.kept (owner : OwnerAccepted e listing db)
    (decided : newest (db'.decisions.filter (decisive listing)) = newest (db.decisions.filter (decisive listing)))
    (resolution : db'.resolution listing = db.resolution listing)
    (grown : db.catalog.variants <+: db'.catalog.variants) :
    OwnerAccepted e listing db' where
  decided := decided.trans owner.decided
  manual := owner.manual
  targeted := owner.targeted
  rests := by
    obtain ⟨d,is,refines⟩ := owner.rests
    exact ⟨d,resolution.trans is,refines.grows grown⟩

theorem unsupportedWithdraws {r : Reading} {m : Materialized} {before : Denorm} {now : Int} {slug : String}
    {hint : Option String} (is : r.verdict = unsupportedVerdict slug hint)
    (made : materialize R.matcher r.extracted r.verdict db.catalog = some m)
    (added : db'.decisions = db.decisions ++ [(newEdge R.matcher listing now r m before).decision]) :
    Withdraws listing db db' (newEdge R.matcher listing now r m before).decision where
  added := added
  own := rfl
  grain := congrArg Denorm.grain (materializedMiss made (by rw [is]; exact nofun))
  clean := by simp [newEdge,Edge.decision,edgeEvidence,is,unsupportedVerdict]
  says_ := .inr (by simp [newEdge,Edge.decision,edgeEvidence,is,unsupportedVerdict])

theorem reviewWithdraws {r : Reading} {m : Materialized} {before : Denorm} {now : Int} (reviews : Reviews r.verdict)
    (made : materialize R.matcher r.extracted r.verdict db.catalog = some m)
    (added : db'.decisions = db.decisions ++ [(newEdge R.matcher listing now r m before).decision]) :
    Withdraws listing db db' (newEdge R.matcher listing now r m before).decision where
  added := added
  own := rfl
  grain := congrArg Denorm.grain (materializedMiss made (by rw [reviews.outcome]; decide))
  clean := reviews.error
  says_ := .inl ⟨congrArg some reviews.outcome,reviews.reasons⟩

theorem stampedReviews {slug : String} {hint : Option String} {reconsider : Bool} {v : Verdict} (reviews : Reviews v) :
    Reviews (stamped slug hint reconsider v) where
  outcome := reviews.outcome
  reasons := reviews.reasons
  error := reviews.error
  target := by simp [stamped,reviews.target]

theorem callKeeps (owner : OwnerAccepted e listing db) {other : Nat} {reconsider : Bool} {f : Faults} {now : Int}
    (normal : other = listing → reconsider = false) (ok : R.resolveListing other reconsider f now db = some db') :
    OwnerAccepted e listing db' ∨ ∃ x, Withdraws listing db db' x := by
  obtain ⟨row,r,here,reads,done⟩ := resolvedBy ok
  have grown := appliedVariants done
  cases wrote done with
  | nothing resolution decisions =>
    exact .inl (owner.kept (by rw [decisions]) (resolution listing) grown)
  | failure error m before resolution decisions =>
    refine .inl (owner.kept (addedDecisive ?_ decisions) (resolution listing) grown)
    have failed : ((newEdge R.matcher other now r m before).decision).isError = true := error
    simp [decisive,Edge.accepts,failed]
  | edge clean m before made variants rests others decisions coherent =>
    by_cases own : other = listing
    · subst own
      cases normal rfl
      cases reads with
      | failed error =>
        rw [error] at clean
        cases clean
      | unsupported slug hint is => exact .inr ⟨_,unsupportedWithdraws is made decisions⟩
      | @decided x candidates v slug hint registered decided =>
        rcases ownerDecides owner here decided with ⟨p,target,inherits,is,columns⟩ | reviews
        · left
          obtain ⟨d,resolved,refines⟩ := owner.rests
          rw [Db.resolution,here] at resolved
          cases Option.some.inj resolved
          obtain ⟨_,same,real,grain,family,model,variant⟩ := columnsTarget (refines.targeted owner.targeted) columns
          cases Option.some.inj same
          have denotes := materializedDenotes (t := { target with categorySlug := some slug }) made inherits.outcome
            (by simp [stamped,inherits.target,is]) real
          have source : (if (stamped slug hint false v).outcome = .accept then
              (stamped slug hint false v).method else "") =
              "source_alias" := (if_pos inherits.outcome).trans inherits.method
          refine ⟨(addedDecisive (by simp [decisive,newEdge,Edge.decision,source]) decisions).trans owner.decided,
            owner.manual,owner.targeted,_,rests,?_⟩
          rw [variants]
          exact denotesRefines (t := { target with categorySlug := some slug }) owner.targeted refines
            (materializedVariants made) grain family model variant (denotes _)
        · exact .inr ⟨_,reviewWithdraws (stampedReviews reviews) made decisions⟩
    · left
      refine owner.kept (addedDecisive ?_ decisions) (others listing (Ne.symm own)) grown
      have elsewhere : ((newEdge R.matcher other now r m before).decision).listing ≠ listing := own
      simp [decisive,Edge.accepts,elsewhere]

def Act.reconsiders (listing : Nat) : Act → Bool
  | .resolve _ other true _ _ => other = listing
  | _ => false

def Refreshes (e : Edge) (listing : Nat) (db : Db) (a : Act) : Prop :=
  a.reconsiders listing = true →
    e.target.grain ≠ .family ∧ ∀ d, db.resolution listing = some d → d.grain = .none ∨ d.grain = .family

theorem ownerPassedBy (owner : OwnerAccepted e listing db) {a : Act} (refreshes : Refreshes e listing db a) :
    a.reconsiders listing = false := by
  cases passed : a.reconsiders listing with
  | false => rfl
  | true =>
    obtain ⟨apart,graded⟩ := refreshes passed
    obtain ⟨d,is,refines⟩ := owner.rests
    have grained := graded d is
    have targeted := owner.targeted
    cases refines with
    | same confidence =>
      exfalso
      revert grained apart
      generalize e.target = target at targeted
      intro apart grained
      cases targeted with
      | family confidence pk => exact apart rfl
      | model confidence pk => rcases grained with none_ | family <;> contradiction
      | variant confidence pk => rcases grained with none_ | family <;> contradiction
    | variant => rcases grained with none_ | family <;> contradiction

theorem actKeeps (owner : OwnerAccepted e listing db) {a : Act} (refreshes : Refreshes e listing db a) :
    OwnerAccepted e listing (a.run db) ∨ ∃ x, Withdraws listing db (a.run db) x := by
  have passed := ownerPassedBy owner refreshes
  cases a with
  | resolve R other reconsider f now =>
    simp only [Act.run]
    cases ran : R.resolveListing other reconsider f now db with
    | none => exact .inl owner
    | some db' =>
      refine callKeeps owner (fun own => ?_) ran
      cases reconsider with
      | false => rfl
      | true => simp [Act.reconsiders,own] at passed
  | edit other title conditionLabel attrs =>
    exact .inl (owner.kept rfl (keptResolution (f := observed title conditionLabel attrs) (fun _ => rfl) listing)
      List.prefix_rfl)
  | refdata catalog => exact .inl (owner.kept rfl rfl List.prefix_rfl)

theorem ownerStands {start : Db} {labels : List Act} (owner : OwnerAccepted e listing start)
    (run : Runs (fun s a t => Acts s a t ∧ Refreshes e listing s a) start labels db) :
    OwnerAccepted e listing db ∨ ∃ pre a post mid next x, labels = pre ++ a::post ∧
      Runs (fun s a t => Acts s a t ∧ Refreshes e listing s a) start pre mid ∧ Acts mid a next ∧
      Runs (fun s a t => Acts s a t ∧ Refreshes e listing s a) next post db ∧
      OwnerAccepted e listing mid ∧ Withdraws listing mid next x := by
  by_cases stands : OwnerAccepted e listing db
  · exact .inl stands
  obtain ⟨pre,a,post,mid,next,labels,before,⟨here,refreshes⟩,after,held,lost⟩ :=
    run.becomes (fun s => ¬OwnerAccepted e listing s) (not_not.mpr owner) stands
  have held := not_not.mp held
  cases here
  rcases actKeeps held refreshes with kept | ⟨x,withdraws⟩
  · exact absurd kept lost
  · exact .inr ⟨pre,a,post,mid,_,x,labels,before,rfl,after,held,withdraws⟩

end

def familyDenorm : Denorm := ⟨.family,some (95 / 100),some 0,none,none⟩

def ownerEdge : Edge :=
  ⟨0,familyDenorm,"manual",matcherVersion,{ outcome := some .accept },0,0,true,none⟩

def ironwolf : Catalog :=
  ⟨["drive"],["seagate"],[⟨"drive","seagate","ironwolf"⟩],[⟨"seagate",some 0,[]⟩],[],
    [⟨"mpn","st12000vn0008",none,some 0,none,none,"catalog_authoritative"⟩]⟩

def ownedDb : Db where
  listings := [⟨0,"seagate st12000vn0008","","seagate st12000vn0008",[],familyDenorm⟩]
  edges := [ownerEdge]
  catalog := ironwolf

theorem ownedAccepted : OwnerAccepted ownerEdge.decision 0 ownedDb :=
  ⟨rfl,rfl,.family _ _,_,rfl,.same _⟩

def poll (reconsider : Bool) : Act := .resolve seagateRegistry 0 reconsider noFaults 1

def otherCategory : Act := .edit 0 "seagate st12000vn0008" "" (some (hinted "psu"))

theorem ownedPolled : OwnerAccepted ownerEdge.decision 0 ((poll false).run ownedDb) ∨
    ∃ pre a post mid next x, [poll false] = pre ++ a::post ∧
      Runs (fun s a t => Acts s a t ∧ Refreshes ownerEdge.decision 0 s a) ownedDb pre mid ∧ Acts mid a next ∧
      Runs (fun s a t => Acts s a t ∧ Refreshes ownerEdge.decision 0 s a) next post ((poll false).run ownedDb) ∧
      OwnerAccepted ownerEdge.decision 0 mid ∧ Withdraws 0 mid next x :=
  ownerStands ownedAccepted (.single ⟨rfl,nofun⟩)

theorem ownerReplaced :
    ((poll true).run ownedDb).resolution 0 = some ⟨.model,some (98 / 100),none,some 0,none⟩ ∧
    ((((poll true).run ownedDb).currentEdge 0).any fun e => e.method = "exact_alias") = true ∧
    ((poll false).run (otherCategory.run ownedDb)).resolution 0 = some Denorm.cleared ∧
    ((((poll false).run (otherCategory.run ownedDb)).currentEdge 0).any fun e =>
      e.evidence.outcome = some .none && e.evidence.unsupportedCategory) = true := by
  refine ⟨?_,?_,?_,?_⟩ <;> decide +kernel

end HwRadar.Matching
