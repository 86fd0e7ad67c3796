import HwRadar.Browse.Sweeps
import HwRadar.Base.Tables
import HwRadar.Ingest.Effects

/-! What a multi-scope run may delist. Every mark of its delist stage goes back to one report:
a complete sweep of the row's own scope, which saw the row's key on no page it could
read. -/
namespace HwRadar.Browse
open HwRadar.Base HwRadar.Ingest

section
variable {T : Texts} {sweeps : Sweeps} {batch : RawBatch}

theorem pageSweepMem {item : RawItem} {s : CategorySweep} (is : sweeps.pageSweep item = .category s) :
    s ∈ sweeps.all := by
  simp only [Sweeps.pageSweep] at is
  split at is
  · contradiction
  · split at is
    · rename_i found
      cases is
      exact List.mem_of_find?_eq_some found
    · contradiction

theorem keysOf {pages : List RawItem} {sweep : Option CategorySweep} {item : RawItem} {listings : List ParsedListing}
    {n : Nat} (mem : item ∈ pages) (parsed : parsePage T item sweep = some (listings,n)) {l : ParsedListing}
    (held : l ∈ listings) : l.sourceListingKey ∈ pageKeys (parsedPages T pages sweep) := by
  refine List.mem_flatMap.mpr ⟨(listings,n),List.mem_map.mpr ⟨item,mem,?_⟩,List.mem_map_of_mem held⟩
  rw [parsed]
  rfl

abbrev legacyParsed (T : Texts) (sweeps : Sweeps) (batch : RawBatch) : List (List ParsedListing × Nat) :=
  parsedPages T (sweeps.pagesOf batch .legacy) none

abbrev categoryParsed (T : Texts) (sweeps : Sweeps) (batch : RawBatch) (s : CategorySweep) :
    List (List ParsedListing × Nat) :=
  parsedPages T (sweeps.pagesOf batch (.category s)) (some s)

theorem legacyReportOf (some_ : pageKeys (legacyParsed T sweeps batch) ≠ []) :
    ∃ r, sweeps.legacyReport T batch = some r ∧
    r.scope = some (delistScopeOf (pageKeys (legacyParsed T sweeps batch)) batch.fetchedAt
      (legacyVerdict (sweeps.pagesOf batch .legacy) (skippedOf (legacyParsed T sweeps batch))).isNone none) := by
  simp only [Sweeps.legacyReport,List.isEmpty_eq_false_iff.mpr some_,Bool.false_eq_true,if_false]
  exact ⟨_,rfl,rfl⟩

theorem categoryReportOf {s : CategorySweep} (some_ : pageKeys (categoryParsed T sweeps batch s) ≠ []) :
    ∃ r, sweeps.categoryReport T batch s = some r ∧
      r.scope = some (delistScopeOf (pageKeys (categoryParsed T sweeps batch s)) batch.fetchedAt
        (categoryVerdict T s (sweeps.pagesOf batch (.category s)) (skippedOf (categoryParsed T sweeps batch s))).isNone
        (some s.scopeKey)) := by
  have paged : sweeps.pagesOf batch (.category s) ≠ [] := by
    intro none
    simp [categoryParsed,none,parsedPages,pageKeys] at some_
  simp only [Sweeps.categoryReport,List.isEmpty_eq_false_iff.mpr some_,List.isEmpty_eq_false_iff.mpr paged,
    Bool.false_and,Bool.false_eq_true,if_false]
  exact ⟨_,rfl,rfl⟩

inductive Whole (T : Texts) (sweeps : Sweeps) (batch : RawBatch) : DelistScope → Prop where
  | legacy (clean : legacyVerdict (sweeps.pagesOf batch .legacy) (skippedOf (legacyParsed T sweeps batch)) = none) :
      Whole T sweeps batch (delistScopeOf (pageKeys (legacyParsed T sweeps batch)) batch.fetchedAt true none)
  | category (s : CategorySweep) (configured : s ∈ sweeps.all)
      (clean : categoryVerdict T s (sweeps.pagesOf batch (.category s)) (skippedOf (categoryParsed T sweeps batch s)) =
        none) :
      Whole T sweeps batch
        (delistScopeOf (pageKeys (categoryParsed T sweeps batch s)) batch.fetchedAt true (some s.scopeKey))

theorem reportWhole {r : ScopeSweepReport batch.fetchedAt} (mem : r ∈ sweeps.delistScopes T batch) {scope : DelistScope}
    (is : r.scope = some scope) (complete : scope.complete = true) : Whole T sweeps batch scope := by
  rcases List.mem_append.mp mem with legacy | category
  · have legacy := Option.mem_toList.mp legacy
    by_cases none : pageKeys (legacyParsed T sweeps batch) = []
    · simp [Sweeps.legacyReport,none] at legacy
    obtain ⟨r',found,scopeIs⟩ := legacyReportOf none
    cases found.symm.trans legacy
    cases scopeIs.symm.trans is
    have clean := Option.isNone_iff_eq_none.mp complete
    simp only [clean,Option.isNone_none]
    exact .legacy clean
  · obtain ⟨s,configured,category⟩ := List.mem_filterMap.mp category
    by_cases none : pageKeys (categoryParsed T sweeps batch s) = []
    · simp only [Sweeps.categoryReport,none] at category
      split at category
      · contradiction
      · cases category
        contradiction
    obtain ⟨r',found,scopeIs⟩ := categoryReportOf none
    cases found.symm.trans category
    cases scopeIs.symm.trans is
    have clean := Option.isNone_iff_eq_none.mp complete
    simp only [clean,Option.isNone_none]
    exact .category s configured clean

theorem listingReported {item : RawItem} (mem : item ∈ batch.items) {listings : List ParsedListing}
    (parsed : sweeps.listingsOf T item = some listings) {l : ParsedListing} (held : l ∈ listings) :
    ∃ r ∈ sweeps.delistScopes T batch, ∃ s, r.scope = some s ∧ l.sourceListingKey ∈ s.seenKeys := by
  have own : item ∈ sweeps.pagesOf batch (sweeps.pageSweep item) := List.mem_filter.mpr ⟨mem,decide_eq_true rfl⟩
  simp only [Sweeps.listingsOf] at parsed
  cases is : sweeps.pageSweep item with
  | unknown =>
    rw [is] at parsed
    cases Option.some.inj parsed
    contradiction
  | legacy =>
    rw [is] at parsed own
    obtain ⟨⟨ls,n⟩,page,rfl⟩ := Option.map_eq_some_iff.mp parsed
    have key := keysOf own page held
    obtain ⟨r,found,scopeIs⟩ := legacyReportOf (List.ne_nil_of_mem key)
    exact ⟨r,List.mem_append_left _ (Option.mem_toList.mpr found),_,scopeIs,key⟩
  | category s =>
    rw [is] at parsed own
    obtain ⟨⟨ls,n⟩,page,rfl⟩ := Option.map_eq_some_iff.mp parsed
    have key := keysOf own page held
    obtain ⟨r,found,scopeIs⟩ := categoryReportOf (List.ne_nil_of_mem key)
    exact ⟨r,List.mem_append_right _ (List.mem_filterMap.mpr ⟨s,pageSweepMem is,found⟩),_,scopeIs,key⟩

theorem onePerKeySublist (perPage : List (List ParsedListing)) : (onePerKey perPage).Sublist perPage.flatten := by
  have placed : perPage.flatten.zipIdx.map Prod.fst = perPage.flatten := List.zipIdx_map_fst _ _
  have kept : (onePerKey perPage).Sublist (perPage.flatten.zipIdx.map Prod.fst) := List.filter_sublist.map _
  rwa [placed] at kept

theorem parsedFrom {items : List RawItem} {parsed : List ParsedListing} (ok : sweeps.parse T items = some parsed) :
    (∀ item ∈ items, ∃ listings, sweeps.listingsOf T item = some listings) ∧
    ∀ l ∈ parsed, ∃ item ∈ items, ∃ listings, sweeps.listingsOf T item = some listings ∧ l ∈ listings := by
  obtain ⟨perPage,pages,is⟩ := Option.bind_eq_some_iff.mp ok
  have paired := Tables.forall₂MapM pages
  constructor
  · intro item mem
    obtain ⟨ls,-,found⟩ := Tables.forall₂Mem paired.flip mem
    exact ⟨ls,found⟩
  · intro l mem
    have held : l ∈ perPage.flatten := by
      cases Option.some.inj is
      split at mem
      · exact mem
      · exact (onePerKeySublist perPage).subset mem
    obtain ⟨ls,memLs,inLs⟩ := List.mem_flatten.mp held
    obtain ⟨item,memItem,found⟩ := Tables.forall₂Mem paired memLs
    exact ⟨item,memItem,ls,found,inLs⟩

structure OnePage (T : Texts) (item : RawItem) : Prop where
  offset : item.params.lookup "offset" = some "0"
  last : nextPage item.payload = false
  total : ∃ payload total, item.payload = some payload ∧ totalOf payload = some total ∧
    total ≤ ((itemIds T item).dedup.length : Int)

theorem categoryClean {s : CategorySweep} {pages : List RawItem} {skipped : Nat}
    (clean : categoryVerdict T s pages skipped = none) : skipped = 0 ∧ ∃ item, pages = [item] ∧ OnePage T item := by
  cases none_ : pages.getLast? with
  | none => simp [categoryVerdict,none_] at clean
  | some last =>
    simp only [categoryVerdict,none_] at clean
    split at clean
    · contradiction
    rename_i unskipped
    split at clean
    · contradiction
    rename_i each
    split at clean
    · contradiction
    rename_i unfollowed
    split at clean
    · rename_i total totalIs
      split at clean
      · contradiction
      rename_i reached
      split at clean
      · contradiction
      rename_i single
      have some_ : pages ≠ [] := by
        rintro rfl
        contradiction
      obtain ⟨item,rest,rfl⟩ := List.exists_cons_of_ne_nil some_
      have alone : rest = [] := by simpa using single
      subst alone
      cases none_
      refine ⟨by simpa using unskipped,item,rfl,?_⟩
      have page : categoryPage item 0 = none := by simpa using each
      cases payloadIs : item.payload with
      | none => simp [categoryPage,payloadIs] at page
      | some payload =>
        simp only [categoryPage,payloadIs] at page
        split at page
        · contradiction
        rename_i offset
        refine ⟨(not_not.mp offset).trans (by decide),by simpa [payloadIs] using unfollowed,payload,total,
          payloadIs,?_,?_⟩
        · cases found : totalOf payload with
          | none => simp [totals,payloadIs,found] at totalIs
          | some n => simpa [totals,payloadIs,found] using totalIs
        · simpa using reached
    · contradiction

theorem legacyClean {pages : List RawItem} {skipped : Nat} (clean : legacyVerdict pages skipped = none) :
    skipped = 0 ∧ ∀ item ∈ pages, nextPage item.payload = false ∧
      ∃ payload total, item.payload = some payload ∧ totalOf payload = some total ∧
      total ≤ (pageCount item.payload : Int) := by
  simp only [legacyVerdict] at clean
  split at clean
  · contradiction
  rename_i unskipped
  refine ⟨by simpa using unskipped,fun item mem => ?_⟩
  have page := List.findSome?_eq_none_iff.mp clean item mem
  cases payloadIs : item.payload with
  | none => simp [legacyPage,payloadIs] at page
  | some payload =>
    simp only [legacyPage,payloadIs] at page
    split at page
    · contradiction
    rename_i unfollowed
    split at page
    · contradiction
    rename_i total totalIs
    split at page
    · contradiction
    rename_i reached
    exact ⟨by simpa using unfollowed,payload,total,rfl,totalIs,by omega⟩

theorem validKey {item : RawItem} {sweep : Option CategorySweep} {id : Json} {summary price : Object}
    {itemPrice : Option ℚ} {l : ParsedListing} (valid : validated T item sweep id summary price itemPrice = some l) :
    l.sourceListingKey = T.str id := by
  simp only [validated,Option.bind_eq_bind] at valid
  obtain ⟨shipping,-,valid⟩ := Option.bind_eq_some_iff.mp valid
  rcases shipping with _ | _ | q
  all_goals
    simp [Option.bind_eq_some_iff] at valid
  · obtain ⟨_,_,_,rfl⟩ := valid
    rfl
  · obtain ⟨_,_,_,rfl⟩ := valid
    rfl

theorem listedKey {item : RawItem} {sweep : Option CategorySweep} {json : Json} {l : ParsedListing}
    (read : parseSummary T item sweep json = .listed l) : itemId T json = some l.sourceListingKey := by
  cases json with
  | obj summary =>
    simp only [parseSummary] at read
    split at read
    · rename_i id price idIs priceIs
      split at read
      · contradiction
      split at read
      · rename_i valid
        cases read
        have held : summary.lookup "itemId" = some id := by
          simp only [stated] at idIs
          split at idIs
          · contradiction
          · exact idIs
        rw [validKey valid]
        simp [itemId,held]
      · split at read <;> contradiction
    · contradiction
  | _ => contradiction

theorem undroppedIds {item : RawItem} {sweep : Option CategorySweep} {listings : List ParsedListing}
    (parsed : parsePage T item sweep = some (listings,0)) {key : String} (mem : key ∈ itemIds T item) :
    ∃ l ∈ listings, l.sourceListingKey = key := by
  simp only [parsePage] at parsed
  split at parsed
  · cases Option.some.inj parsed
  rename_i raw is
  split at parsed
  · contradiction
  rename_i unraised
  obtain ⟨rfl,undropped⟩ := Prod.mk.inj (Option.some.inj parsed)
  simp only [itemIds,is,Option.getD_some,List.mem_filterMap] at mem
  obtain ⟨json,held,id⟩ := mem
  have inRead : parseSummary T item sweep json ∈ raw.map (parseSummary T item sweep) := List.mem_map_of_mem held
  cases read : parseSummary T item sweep json with
  | raises =>
    rw [read] at inRead
    exact absurd (List.contains_iff_mem.mpr inRead) (by simpa using unraised)
  | dropped =>
    rw [read] at inRead
    exact absurd inRead (List.count_eq_zero.mp undropped)
  | listed l =>
    rw [read] at inRead
    refine ⟨l,List.mem_filterMap.mpr ⟨_,inRead,rfl⟩,?_⟩
    exact Option.some.inj ((listedKey read).symm.trans id)

def Provable {t : Int} (reports : List (ScopeSweepReport t)) : Prop :=
  ∀ r ∈ reports, ∀ s, r.scope = some s → s.staleAbsenceAllowed = false

theorem scopesProvable : Provable (sweeps.delistScopes T batch) := by
  intro r mem s is
  rcases List.mem_append.mp mem with legacy | category
  · have legacy := Option.mem_toList.mp legacy
    simp only [Sweeps.legacyReport] at legacy
    split at legacy
    · contradiction
    · cases Option.some.inj legacy
      cases Option.some.inj is
      rfl
  · obtain ⟨c,-,category⟩ := List.mem_filterMap.mp category
    simp only [Sweeps.categoryReport] at category
    split at category
    · contradiction
    · split at category
      · cases Option.some.inj category
        contradiction
      · cases Option.some.inj category
        cases Option.some.inj is
        rfl

section
variable {t : Int} {r : ScopeSweepReport t} {seen : List String} {null : Bool} {previousRun : Option Int}
  {m m' : Market}

theorem gatedScope (provable : ∀ s, r.scope = some s → s.staleAbsenceAllowed = false) :
    (r.sweepReport seen null).call.gated = (r.scope.filter DelistScope.complete).map fun s => s.widened seen := by
  simp only [SweepReport.call,ScopeSweepReport.sweepReport,if_true]
  congr 1
  cases is : r.scope with
  | none => rfl
  | some s => cases whole : s.complete <;> simp [gateDelistScope,localEvidence,Option.filter,whole,provable s is]

def ScopeSweepReport.marks (r : ScopeSweepReport t) (seen : List String) (l : Listing) : Prop :=
  ∃ s, r.scope = some s ∧ s.complete = true ∧ (s.widened seen).candidate none l = true

theorem absenceListing (provable : ∀ s, r.scope = some s → s.staleAbsenceAllowed = false)
    (done : m.commit (.absence (r.sweepReport seen null) previousRun) = some m') (key : String) {l : Listing}
    (here : m.listing key = some l) : m'.listing key = some l ∨ r.marks seen l := by
  have gated := @gatedScope t r seen null provable
  cases kept : r.scope.filter DelistScope.complete with
  | none =>
    rw [kept] at gated
    obtain ⟨⟨after,n⟩,applied,rfl⟩ := Option.map_eq_some_iff.mp done
    obtain ⟨parts⟩ := absenceParts applied
    rcases parts.third with ⟨-,same⟩ | ⟨g,some_,-⟩
    · left
      rw [show (after,n).1 = after from rfl,same,parts.only.listing,(ensuredOnly m _).listing]
      exact here
    · rw [gated] at some_
      contradiction
  | some s =>
    rw [kept] at gated
    obtain ⟨is,whole⟩ := Option.filter_eq_some_iff.mp kept
    have complete : (s.widened seen).complete = true := whole
    obtain ⟨absence⟩ := completeAbsence done gated complete
    by_cases candidate : (s.widened seen).candidate none l = true
    · exact .inr ⟨s,is,whole,candidate⟩
    · left
      rw [absence.raises,Market.listing,raisedListings]
      have marked := @delistListing absence.marked ((s.widened seen).candidate none) .absentFromSweep
        (s.widened seen).observedAt key
      rw [absence.only.listing,here] at marked
      refine marked.trans ?_
      simp [candidate]

theorem stageListing {reports : List (ScopeSweepReport t)} (provable : Provable reports)
    (done : reports.foldlM (fun m r => m.commit (.absence (r.sweepReport seen null) previousRun)) m = some m')
    {key : String} {l : Listing} (here : m.listing key = some l) :
    m'.listing key = some l ∨ ∃ r ∈ reports, r.marks seen l := by
  induction reports generalizing m with
  | nil =>
    cases Option.some.inj done
    exact .inl here
  | cons r rest ih =>
    rw [List.foldlM_cons] at done
    obtain ⟨next,one,last⟩ := Option.bind_eq_some_iff.mp done
    rcases absenceListing (provable r List.mem_cons_self) one key here with same | marked
    · rcases ih (fun r mem => provable r (List.mem_cons_of_mem _ mem)) last same with same | ⟨r,mem,marked⟩
      · exact .inl same
      · exact .inr ⟨r,List.mem_cons_of_mem _ mem,marked⟩
    · exact .inr ⟨r,List.mem_cons_self,marked⟩

theorem recordApart {t : Int} {key scope : Option String} {since : Option Int}
    (done : recordContinuity t key previousRun m = some (m',since)) (differs : key ≠ scope) :
    m'.sweepRow scope = m.sweepRow scope := by
  simp only [recordContinuity] at done
  split at done
  · split at done
    · cases Option.some.inj done
      rfl
    · contradiction
  · cases Option.some.inj done
    exact saveSweepElse _ differs

theorem breakApart {t : Int} {key scope : Option String} (done : breakContinuity t key m = some m')
    (differs : key ≠ scope) :
    m'.sweepRow scope = m.sweepRow scope := by
  simp only [breakContinuity] at done
  split at done
  · split at done
    · cases Option.some.inj done
      rfl
    · contradiction
  · cases Option.some.inj done
    exact saveSweepElse _ differs

theorem ensuredApart {key scope : Option String} (differs : key ≠ scope) :
    (m.ensureWatermarkRows [key,none]).sweepRow scope = m.sweepRow scope := by
  cases key with
  | none => rfl
  | some key =>
    cases scope with
    | none => rfl
    | some name =>
      simp only [Market.sweepRow,Market.scopeRow,Market.ensureWatermarkRows,List.foldl_cons,List.foldl_nil]
      split
      · rfl
      · have other : key ≠ name := fun same => differs (congrArg some same)
        simp [rowOf,List.find?_append,other]

theorem incompleteOnly (provable : ∀ s, r.scope = some s → s.staleAbsenceAllowed = false)
    (incomplete : ∀ s, r.scope = some s → s.complete = false)
    (done : m.commit (.absence (r.sweepReport seen null) previousRun) = some m') :
    m'.listings = m.listings ∧ m'.snapshots = m.snapshots ∧
    ∀ scope, scope ≠ r.scopeKey → (scope = none → null = true) → m'.sweepRow scope = m.sweepRow scope := by
  have gated := @gatedScope t r seen null provable
  have none_ : r.scope.filter DelistScope.complete = none := by
    cases is : r.scope with
    | none => rfl
    | some s => simp [Option.filter,incomplete s is]
  rw [none_] at gated
  obtain ⟨⟨after,n⟩,applied,same⟩ := Option.map_eq_some_iff.mp done
  obtain ⟨parts⟩ := absenceParts applied
  have only : OnlyContinuity m m' := by
    rcases parts.third with ⟨-,is⟩ | ⟨g,some_,-⟩
    · rw [← same,show (after,n).1 = after from rfl,is]
      exact (ensuredOnly m _).trans parts.only
    · rw [gated] at some_
      contradiction
  refine ⟨only.listings,only.snapshots,fun scope other nulled => ?_⟩
  rw [applyAbsenceBind,gated] at applied
  obtain ⟨own,first,applied⟩ := Option.bind_eq_some_iff.mp applied
  obtain ⟨marked,second,third⟩ := Option.bind_eq_some_iff.mp applied
  cases Option.some.inj third
  have ensured : (m.ensureWatermarkRows [r.scopeKey,none]).sweepRow scope = m.sweepRow scope := ensuredApart other.symm
  have recorded : own.1.sweepRow scope = m.sweepRow scope := by
    refine Eq.trans ?_ ensured
    split at first
    · exact recordApart first other.symm
    · obtain ⟨broken,breaks,rfl⟩ := Option.map_eq_some_iff.mp first
      exact breakApart breaks other.symm
  rw [← same,← recorded]
  split at second
  · rename_i named
    refine breakApart second fun is => ?_
    rw [← is] at nulled
    simp [SweepReport.call,ScopeSweepReport.sweepReport,nulled rfl] at named
  · cases Option.some.inj second
    rfl

end

def Enumerated (T : Texts) (sweeps : Sweeps) (batch : RawBatch) (key : String) : Option String → Prop
  | none => ∀ page ∈ sweeps.pagesOf batch .legacy, nextPage page.payload = false ∧
      (∃ payload total, page.payload = some payload ∧ totalOf payload = some total ∧
        total ≤ (pageCount page.payload : Int)) ∧
      (∃ listings, parsePage T page none = some (listings,0)) ∧ key ∉ itemIds T page
  | some scope => ∃ s ∈ sweeps.all, s.scopeKey = scope ∧ ∃ page, sweeps.pagesOf batch (.category s) = [page] ∧
      OnePage T page ∧ (∃ listings, parsePage T page (some s) = some (listings,0)) ∧ key ∉ itemIds T page

structure Grounds (T : Texts) (sweeps : Sweeps) (batch : RawBatch) (l : Listing) : Prop where
  proven : Enumerated T sweeps batch l.sourceListingKey l.collectionScope
  unseen : ∀ item ∈ batch.items, ∀ listings, sweeps.listingsOf T item = some listings →
    ∀ x ∈ listings, x.sourceListingKey ≠ l.sourceListingKey
  older : ∀ at_, l.lastObservedAt = some at_ → at_ ≤ batch.fetchedAt

theorem pageParsed {item : RawItem} {sweep : PageSweep} (mem : item ∈ sweeps.pagesOf batch sweep)
    (known : sweep ≠ .unknown) (parses : ∀ item ∈ batch.items, ∃ listings, sweeps.listingsOf T item = some listings) :
    ∃ listings n, parsePage T item sweep.query = some (listings,n) := by
  obtain ⟨held,own⟩ := List.mem_filter.mp mem
  have own := of_decide_eq_true own
  obtain ⟨listings,parsed⟩ := parses item held
  simp only [Sweeps.listingsOf,own] at parsed
  cases sweep with
  | unknown => exact absurd rfl known
  | _ =>
    obtain ⟨⟨ls,n⟩,page,-⟩ := Option.map_eq_some_iff.mp parsed
    exact ⟨ls,n,page⟩

theorem undropped {pages : List RawItem} {sweep : Option CategorySweep}
    (none_ : skippedOf (parsedPages T pages sweep) = 0)
    {item : RawItem} (mem : item ∈ pages) {listings : List ParsedListing} {n : Nat}
    (parsed : parsePage T item sweep = some (listings,n)) : n = 0 := by
  refine List.sum_eq_zero_iff.mp none_ n (List.mem_map.mpr ⟨(listings,n),List.mem_map.mpr ⟨item,mem,?_⟩,rfl⟩)
  rw [parsed]
  rfl

theorem wholeEnumerated (parses : ∀ item ∈ batch.items, ∃ listings, sweeps.listingsOf T item = some listings)
    {scope : DelistScope} (whole : Whole T sweeps batch scope) {key : String} (absent : key ∉ scope.seenKeys) :
    Enumerated T sweeps batch key scope.scopeKey := by
  cases whole with
  | legacy clean =>
    obtain ⟨unskipped,pages⟩ := legacyClean clean
    intro page mem
    obtain ⟨listings,n,parsed⟩ := pageParsed mem (by simp) parses
    cases undropped unskipped mem parsed
    refine ⟨(pages page mem).1,(pages page mem).2,⟨listings,parsed⟩,fun held => ?_⟩
    obtain ⟨l,inside,rfl⟩ := undroppedIds parsed held
    exact absent (keysOf mem parsed inside)
  | category s configured clean =>
    obtain ⟨unskipped,page,alone,one⟩ := categoryClean clean
    have mem : page ∈ sweeps.pagesOf batch (.category s) := by rw [alone]; exact List.mem_singleton_self page
    obtain ⟨listings,n,parsed⟩ := pageParsed mem (by simp) parses
    cases undropped unskipped mem parsed
    refine ⟨s,configured,rfl,page,alone,one,⟨listings,parsed⟩,fun held => ?_⟩
    obtain ⟨l,inside,rfl⟩ := undroppedIds parsed held
    exact absent (keysOf mem parsed inside)

theorem batchListing {retention : ObservationRetention} {t : Int} {records : List Stamped} {m m' : Market}
    (done : m.commit (.persist retention t records) = some m') {key : String} {l : Listing}
    (here : m.listing key = some l) : (l.active = true → ∃ l', m'.listing key = some l' ∧ l'.active = true) ∧
    ((∀ entry ∈ records, entry.1.sourceListingKey ≠ key) → m'.listing key = some l) := by
  cases Option.some.inj done
  have start : (m.ensureWatermarkRows (targetScopes m records)).listing key = some l :=
    ((ensuredOnly m _).listing key).trans here
  constructor
  · intro active
    refine persistedInvariant (I := fun m => ∃ l', m.listing key = some l' ∧ l'.active = true) ⟨l,start,active⟩ ?_
    rintro m ⟨l,here,active⟩ entry -
    by_cases own : key = entry.1.sourceListingKey
    · subst own
      refine ⟨_,observedHere,?_⟩
      simp only [observeRecord,observeListing,here]
      split
      · rfl
      · exact active
    · exact ⟨l,(observedElse own).trans here,active⟩
  · intro others
    refine persistedInvariant (I := fun m => m.listing key = some l) start ?_
    intro m here entry mem
    exact (observedElse (others entry mem).symm).trans here

section
variable {previousRun : Option Int} {m m' : Market}

theorem unscopedOnly {t : Int} (done : m.commit (.absence (unscoped t) previousRun) = some m') :
    m'.listings = m.listings := by
  obtain ⟨⟨after,n⟩,applied,rfl⟩ := Option.map_eq_some_iff.mp done
  obtain ⟨parts⟩ := absenceParts applied
  rcases parts.third with ⟨-,same⟩ | ⟨g,some_,-⟩
  · rw [show (after,n).1 = after from rfl,same]
    exact ((ensuredOnly m _).trans parts.only).listings
  · contradiction

theorem markedGrounds (parses : ∀ item ∈ batch.items, ∃ listings, sweeps.listingsOf T item = some listings)
    {parsed : List ParsedListing} {reports : List (ScopeSweepReport batch.fetchedAt)}
    (perm : reports.Perm (sweeps.delistScopes T batch)) {r : ScopeSweepReport batch.fetchedAt}
    (mem : r ∈ reports) {l : Listing} (marked : r.marks (seenInRun parsed reports) l) :
    Grounds T sweeps batch l ∧ ∀ x ∈ parsed, x.sourceListingKey ≠ l.sourceListingKey := by
  obtain ⟨s,is,complete,candidate⟩ := marked
  simp only [DelistScope.candidate,DelistScope.widened,Bool.and_eq_true,Bool.not_eq_true'] at candidate
  obtain ⟨⟨⟨⟨-,absent⟩,older⟩,scope⟩,-⟩ := candidate
  have absent : l.sourceListingKey ∉ s.seenKeys ++ seenInRun parsed reports := by
    intro held
    rw [List.contains_iff_mem.mpr held] at absent
    contradiction
  have whole := reportWhole (perm.mem_iff.mp mem) is complete
  refine ⟨⟨?_,fun item inside listings found x held same => ?_,fun at_ last => ?_⟩,fun x held same => ?_⟩
  · rw [of_decide_eq_true scope]
    exact wholeEnumerated parses whole fun held => absent (List.mem_append_left _ held)
  · obtain ⟨r',memR,s',is',seen⟩ := listingReported inside found held
    rw [same] at seen
    refine absent (List.mem_append_right _
      (List.mem_append_right _ (List.mem_flatMap.mpr ⟨r',perm.mem_iff.mpr memR,?_⟩)))
    rw [is']
    exact seen
  · rw [atOrAfter,last] at older
    exact (of_decide_eq_true older).trans_eq (r.own s is).2
  · rw [← same] at absent
    exact absent (List.mem_append_right _ (List.mem_append_left _ (List.mem_map_of_mem held)))

theorem runGrounds {stamp : ParsedListing → FxStamp × Int} (run : sweeps.fullRun T batch stamp previousRun m = some m')
    {key : String} {l l' : Listing} (here : m.listing key = some l) (active : l.active = true)
    (after : m'.listing key = some l') (delisted : l'.active = false) : Grounds T sweeps batch l := by
  obtain ⟨parsed,parses,run⟩ := Option.bind_eq_some_iff.mp run
  have pages := (parsedFrom parses).1
  split at run
  · contradiction
  obtain ⟨next,persisted,run⟩ := Option.bind_eq_some_iff.mp run
  obtain ⟨stays,others⟩ := batchListing persisted here
  obtain ⟨row,kept,stillActive⟩ := stays active
  split at run
  · have same : m'.listing key = some row := by
      rw [Market.listing,unscopedOnly run]
      exact kept
    cases same.symm.trans after
    exact absurd (stillActive.symm.trans delisted) (by simp)
  · have perm := List.perm_insertionSort scopeBefore (sweeps.delistScopes T batch)
    have provable : Provable ((sweeps.delistScopes T batch).insertionSort scopeBefore) :=
      fun r mem => scopesProvable r (perm.mem_iff.mp mem)
    rcases stageListing provable run kept with same | ⟨r,mem,marked⟩
    · cases same.symm.trans after
      exact absurd (stillActive.symm.trans delisted) (by simp)
    · obtain ⟨grounds,unparsed⟩ := markedGrounds pages perm mem marked
      have own : row.sourceListingKey = key := listingKey kept
      have untouched := others (by
        intro entry mem
        obtain ⟨x,held,rfl⟩ := List.mem_map.mp mem
        exact own ▸ unparsed x held)
      cases untouched.symm.trans kept
      exact grounds

end

theorem cutShort {s : CategorySweep} {outcomes : Nat → PageOutcome} {left page : Nat}
    (short : (sweepFrom s outcomes page left).2 ≠ .noNext) {item : RawItem}
    (mem : item ∈ (sweepFrom s outcomes page left).1) : nextPage item.payload = true := by
  induction left generalizing page with
  | zero => contradiction
  | succ left ih =>
    simp only [sweepFrom] at short mem
    split at mem
    · contradiction
    · contradiction
    · rename_i url payload answer
      simp only [answer] at short
      split at mem
      · rename_i followed
        simp only [followed,if_true] at short
        rcases List.mem_cons.mp mem with rfl | later
        · exact followed
        · exact ih short later
      · rename_i ended
        simp [ended] at short

theorem sweepParams {s : CategorySweep} {outcomes : Nat → PageOutcome} {left page : Nat} {item : RawItem}
    (mem : item ∈ (sweepFrom s outcomes page left).1) : ∃ n, item.params = s.params n := by
  induction left generalizing page with
  | zero => contradiction
  | succ left ih =>
    simp only [sweepFrom] at mem
    split at mem
    · contradiction
    · contradiction
    · split at mem
      · rcases List.mem_cons.mp mem with rfl | later
        · exact ⟨page,rfl⟩
        · exact ih later
      · cases List.mem_singleton.mp mem
        exact ⟨page,rfl⟩

theorem ownPage {s : CategorySweep} (configured : s ∈ sweeps.all) {outcomes : Nat → PageOutcome} {item : RawItem}
    (mem : item ∈ (sweepPages s outcomes).1) : sweeps.pageSweep item = .category s := by
  obtain ⟨n,params⟩ := sweepParams mem
  have found : ∃ s', sweeps.all.find? (fun s' => s'.categoryId = s.categoryId && s'.q = s.q) = some s' := by
    refine Option.isSome_iff_exists.mp (List.find?_isSome.mpr ⟨s,configured,?_⟩)
    simp
  obtain ⟨s',found⟩ := found
  have same : s'.categoryId = s.categoryId ∧ s'.q = s.q := by simpa using List.find?_some found
  have own : s' = s := List.inj_on_of_nodup_map sweeps.queries (List.mem_of_find?_eq_some found) configured
    (Prod.ext same.1 same.2)
  simp only [Sweeps.pageSweep,params,CategorySweep.params,List.lookup_cons,List.lookup_nil]
  simp [found,own]

theorem reportKey {s : CategorySweep} {r : ScopeSweepReport batch.fetchedAt}
    (report : sweeps.categoryReport T batch s = some r) : r.scopeKey = some s.scopeKey := by
  simp only [Sweeps.categoryReport] at report
  split at report
  · contradiction
  · split at report
    · cases Option.some.inj report
      rfl
    · cases Option.some.inj report
      rfl

theorem stoppedIncomplete {fetchedAt : Int} {collected : Collected} {s : CategorySweep} (configured : s ∈ sweeps.all)
    {stop : Stop} (stopped : (sweeps.batch fetchedAt collected).stops.lookup s.scopeKey = some stop)
    (short : stop ≠ .noNext) {r : ScopeSweepReport (sweeps.batch fetchedAt collected).fetchedAt}
    (report : sweeps.categoryReport T (sweeps.batch fetchedAt collected) s = some r) {scope : DelistScope}
    (is : r.scope = some scope) : scope.complete = false := by
  by_contra complete
  have reported : r ∈ sweeps.delistScopes T (sweeps.batch fetchedAt collected) :=
    List.mem_append_right _ (List.mem_filterMap.mpr ⟨s,configured,report⟩)
  obtain ⟨page,own,last⟩ : ∃ page ∈ sweeps.pagesOf (sweeps.batch fetchedAt collected) (.category s),
      nextPage page.payload = false := by
    have key : scope.scopeKey = some s.scopeKey := (r.own scope is).1.trans (reportKey report)
    cases reportWhole reported is (by simpa using complete) with
    | legacy => contradiction
    | category s' configured' clean =>
      cases List.inj_on_of_nodup_map sweeps.scopes configured' configured (Option.some.inj key)
      obtain ⟨-,page,alone,one⟩ := categoryClean clean
      exact ⟨page,by rw [alone]; exact List.mem_singleton_self page,one.last⟩
  obtain ⟨held,attributed⟩ := List.mem_filter.mp own
  have attributed := of_decide_eq_true attributed
  cases collected with
  | replayed items => contradiction
  | fetched legacy heartbeatProbed outcomes =>
    obtain ⟨before,later,is,-⟩ := List.lookup_eq_some_iff.mp stopped
    obtain ⟨s₁,swept,pair⟩ := List.mem_map.mp (is ▸ List.mem_append_right before List.mem_cons_self)
    obtain ⟨key₁,stop₁⟩ := Prod.mk.inj pair
    rcases List.mem_append.mp held with drive | category
    · obtain ⟨get,-,rfl⟩ := Option.map_eq_some_iff.mp (Option.mem_toList.mp drive)
      simp [Sweeps.pageSweep,searchParams,List.lookup_cons] at attributed
    · obtain ⟨s₂,swept₂,page₂⟩ := List.mem_flatMap.mp category
      have all : ∀ s, s ∈ (if heartbeatProbed then [] else sweeps.all) → s ∈ sweeps.all := by
        intro s mem
        cases heartbeatProbed with
        | true => contradiction
        | false => exact mem
      cases PageSweep.category.inj ((ownPage (all s₂ swept₂) page₂).symm.trans attributed)
      cases List.inj_on_of_nodup_map sweeps.scopes (all s₁ swept) configured key₁
      have followed := cutShort (fun same => short (stop₁.symm.trans same)) page₂
      exact absurd (last.symm.trans followed) (by simp)

theorem oneReport {r r' : ScopeSweepReport batch.fetchedAt} (mem : r ∈ sweeps.delistScopes T batch)
    (mem' : r' ∈ sweeps.delistScopes T batch) (same : r.scopeKey = r'.scopeKey) : r = r' := by
  have source : ∀ {r}, r ∈ sweeps.delistScopes T batch → sweeps.legacyReport T batch = some r ∧ r.scopeKey = none ∨
      ∃ s ∈ sweeps.all, sweeps.categoryReport T batch s = some r ∧ r.scopeKey = some s.scopeKey := by
    intro r mem
    rcases List.mem_append.mp mem with legacy | category
    · have legacy := Option.mem_toList.mp legacy
      refine .inl ⟨legacy,?_⟩
      simp only [Sweeps.legacyReport] at legacy
      split at legacy
      · contradiction
      · cases Option.some.inj legacy
        rfl
    · obtain ⟨s,configured,category⟩ := List.mem_filterMap.mp category
      exact .inr ⟨s,configured,category,reportKey category⟩
  rcases source mem with ⟨legacy,key⟩ | ⟨s,configured,category,key⟩
  · rcases source mem' with ⟨legacy',key'⟩ | ⟨s',configured',category',key'⟩
    · exact Option.some.inj (legacy.symm.trans legacy')
    · rw [key,key'] at same
      contradiction
  · rcases source mem' with ⟨legacy',key'⟩ | ⟨s',configured',category',key'⟩
    · rw [key,key'] at same
      contradiction
    · rw [key,key'] at same
      cases List.inj_on_of_nodup_map sweeps.scopes configured configured' (Option.some.inj same)
      exact Option.some.inj (category.symm.trans category')

theorem beforeTotal {t : Int} (a b : ScopeSweepReport t) : scopeBefore a b ∨ scopeBefore b a := by
  unfold scopeBefore
  cases a.scopeKey with
  | none => simp
  | some x =>
    cases b.scopeKey with
    | none => simp
    | some y => exact String.le_total x y

theorem beforeTrans {t : Int} {a b c : ScopeSweepReport t} (first : scopeBefore a b) (second : scopeBefore b c) :
    scopeBefore a c := by
  unfold scopeBefore at *
  cases left : a.scopeKey with
  | none => simp
  | some x =>
    cases middle : b.scopeKey with
    | none => simp [left,middle] at first
    | some y =>
      cases right : c.scopeKey with
      | none => simp [middle,right] at second
      | some z =>
        simp only [left,middle,right] at *
        exact String.le_trans first second

theorem beforeBoth {t : Int} {a b : ScopeSweepReport t} (first : scopeBefore a b) (second : scopeBefore b a) :
    a.scopeKey = b.scopeKey := by
  unfold scopeBefore at *
  cases left : a.scopeKey with
  | none =>
    cases right : b.scopeKey with
    | none => rfl
    | some y => simp [left,right] at second
  | some x =>
    cases right : b.scopeKey with
    | none => simp [left,right] at first
    | some y =>
      simp only [left,right] at *
      exact congrArg some (String.le_antisymm first second)

theorem orderFree {parsed : List ParsedListing} {reports : List (ScopeSweepReport batch.fetchedAt)}
    (perm : reports.Perm (sweeps.delistScopes T batch)) {previousRun : Option Int} (m : Market) :
    applyScopeReports parsed reports previousRun m = applyScopeReports parsed
    (sweeps.delistScopes T batch) previousRun m := by
  have total : Std.Total (@scopeBefore batch.fetchedAt) := ⟨beforeTotal⟩
  have trans_ : IsTrans (ScopeSweepReport batch.fetchedAt) scopeBefore := ⟨fun _ _ _ => beforeTrans⟩
  have sorted : reports.insertionSort scopeBefore = (sweeps.delistScopes T batch).insertionSort scopeBefore := by
    refine List.Perm.eq_of_pairwise ?_ (List.pairwise_insertionSort _ _) (List.pairwise_insertionSort _ _) ?_
    · intro a b memA memB first second
      have memA := perm.mem_iff.mp ((List.perm_insertionSort _ _).mem_iff.mp memA)
      have memB := (List.perm_insertionSort _ _).mem_iff.mp memB
      exact oneReport memA memB (beforeBoth first second)
    · exact (List.perm_insertionSort _ _).trans (perm.trans (List.perm_insertionSort _ _).symm)
  simp only [applyScopeReports,sorted]

theorem multiScopeSound {fetchedAt : Int} {collected : Collected} {stamp : ParsedListing → FxStamp × Int}
    {previousRun : Option Int} {m m' : Market}
    (run : sweeps.fullRun T (sweeps.batch fetchedAt collected) stamp previousRun m = some m') :
    (∀ key l l', m.listing key = some l → l.active = true → m'.listing key = some l' → l'.active = false →
      Grounds T sweeps (sweeps.batch fetchedAt collected) l) ∧
    (∀ r ∈ sweeps.delistScopes T (sweeps.batch fetchedAt collected), (∀ s, r.scope = some s → s.complete = false) →
      ∀ seen null (now next : Market), now.commit (.absence (r.sweepReport seen null) previousRun) = some next →
        next.listings = now.listings ∧ next.snapshots = now.snapshots ∧
        ∀ scope, scope ≠ r.scopeKey → (scope = none → null = true) → next.sweepRow scope = now.sweepRow scope) ∧
    (∀ s ∈ sweeps.all, ∀ stop, (sweeps.batch fetchedAt collected).stops.lookup s.scopeKey = some stop → stop ≠ .noNext →
      ∀ r, sweeps.categoryReport T (sweeps.batch fetchedAt collected) s = some r →
        ∀ scope, r.scope = some scope → scope.complete = false) ∧
    (∀ reports, reports.Perm (sweeps.delistScopes T (sweeps.batch fetchedAt collected)) → ∀ parsed now,
      applyScopeReports parsed reports previousRun now =
        applyScopeReports parsed (sweeps.delistScopes T (sweeps.batch fetchedAt collected)) previousRun now) := by
  refine ⟨?_,?_,?_,?_⟩
  · intro key l l' here active after delisted
    exact runGrounds run here active after delisted
  · intro r mem incomplete seen null now next done
    exact incompleteOnly (scopesProvable r mem) incomplete done
  · intro s configured stop stopped short r report scope is
    exact stoppedIncomplete configured stopped short report is
  · intro reports perm parsed now
    exact orderFree perm now

end

def plainTexts : Texts where
  str
    | .str s => s
    | _ => "None"
  decimal text := if text = "10.00" then some (some 10) else none

theorem onePage : 1 ≤ 1 := by decide

def querySweep (slug : String) : CategorySweep := ⟨slug,"a",slug,"disk","",1,by decide +kernel,onePage,by decide⟩

def diskSweeps : Sweeps := ⟨[querySweep "hdd",querySweep "ssd"],by decide +kernel,by decide +kernel,by decide⟩

def summaryOf (id price : String) : Json := .obj [("itemId",.str id),("price",.obj [("value",.str price)])]

def pageOf (total : Int) (items : List Json) : Object := [("total",.int total),("itemSummaries",.arr items)]

def diskPages (s : CategorySweep) (_ : Nat) : PageOutcome :=
  .answered s.slug (if s.slug = "hdd" then pageOf 1 [summaryOf "1" "10.00"]
    else pageOf 2 [summaryOf "2" "?",summaryOf "3" "10.00"])

def diskBatch : RawBatch :=
  diskSweeps.batch 1 (.fetched (some ("drives",pageOf 2 [summaryOf "4" "10.00",summaryOf "4" "10.00"])) false diskPages)

def diskRow (key : String) (scope : Option String) : Listing where
  sourceListingKey := key
  canonicalUrl := ""
  urlHash := .blank
  titleRaw := ""
  titleNormalized := ""
  conditionLabelRaw := ""
  listingFingerprint := ""
  pageMetadata := []
  isInternational := false
  collectionScope := scope
  retention := factRetention
  lastSeen := 0
  lastObservedAt := some 0
  lastAbsenceAt := none
  delisted := none

def diskMarket : Market where
  listings := [diskRow "1" (some "ebay:hdd:a"),diskRow "2" (some "ebay:hdd:a"),diskRow "3" (some "ebay:ssd:a"),
    diskRow "4" none,diskRow "5" none]
  snapshots := []
  lane := some ⟨⟨some 0,some 0,none,none⟩,3600⟩
  scopes := []

def usDollars (_ : ParsedListing) : FxStamp × Int := (⟨1,"USDUSD",0,"identity",false⟩,1)

def diskRun : Market := (diskSweeps.fullRun plainTexts diskBatch usDollars (some 0) diskMarket).get (by decide +kernel)

theorem diskRan : diskSweeps.fullRun plainTexts diskBatch usDollars (some 0) diskMarket = some diskRun :=
  (Option.some_get _).symm

def failedBatch : RawBatch := diskSweeps.batch 1 (.fetched none false fun _ _ => .failed "timeout")

def failedRun : Market := (diskSweeps.fullRun plainTexts failedBatch usDollars (some 0) diskMarket).get
    (by decide +kernel)

theorem diskGrounds : Grounds plainTexts diskSweeps diskBatch (diskRow "2" (some "ebay:hdd:a")) :=
  (multiScopeSound diskRan).1 "2" _ ((diskRun.listing "2").get (by decide +kernel)) (by decide +kernel)
  (by decide +kernel)
    (by decide +kernel) (by decide +kernel)

theorem neighbourUnread :
    ((diskMarket.listing "2").any Listing.active = true ∧ (diskRun.listing "2").any Listing.active = false ∧
      ∃ page ∈ diskBatch.items, "2" ∈ itemIds plainTexts page) ∧
    ((diskMarket.listing "5").any Listing.active = true ∧ (diskRun.listing "5").any Listing.active = false ∧
      ∀ page ∈ diskSweeps.pagesOf diskBatch .legacy, (page.payload.bind totalOf).any
        fun total => ((itemIds plainTexts page).dedup.length : Int) < total) ∧
    failedBatch.items = [] ∧ failedRun.sweepRow none ≠ diskMarket.sweepRow none := by
  refine ⟨?_,?_,rfl,?_⟩
  · decide +kernel
  · decide +kernel
  · decide +kernel

end HwRadar.Browse
