import HwRadar.Refdata.Statements

/-! What an import leaves in the catalog. A raised import changes nothing, a second import of
the same documents changes nothing, and each alias key of a seed then names the seed's
own model. The order of the documents matters only where two of them describe a row
differently: the later one wins. -/
namespace HwRadar.Refdata
open HwRadar.Base HwRadar.Ingest Upserts

section
variable {K : TextKeys} {docs : List (SeedDocument K)} {db db' : Catalog}

def Globally (db : Catalog) (text : String) (target : AliasTarget) : Prop :=
  ∃ entry ∈ globalRows db text, entry.2.target = target

def OwnAliases (docs : List (SeedDocument K)) (db : Catalog) : Prop :=
  ∀ e ∈ seedEntries docs, ∀ target, Globally db e.normalized target → target = .productModel e.seedTarget

theorem oneTarget (clean : detectConflicts docs = []) {e f : SeedEntry K} (memE : e ∈ seedEntries docs)
    (memF : f ∈ seedEntries docs) (same : e.normalized = f.normalized) :
    e.document.manufacturerKey = f.document.manufacturerKey ∧ e.model.modelNumber = f.model.modelNumber :=
  targetParts (noConflicts.mp clean e memE f memF same)

theorem oneSeedTarget (clean : detectConflicts docs = []) {e f : SeedEntry K} (memE : e ∈ seedEntries docs)
    (memF : f ∈ seedEntries docs) (same : e.normalized = f.normalized) : e.seedTarget = f.seedTarget := by
  obtain ⟨keys,numbers⟩ := oneTarget clean memE memF same
  simp only [SeedEntry.seedTarget,SeedModel.key,keys,numbers]

theorem memSeedTargets {text : String} {target : ModelKey} :
    (text,target) ∈ seedTargets docs ↔ ∃ e ∈ seedEntries docs, e.normalized = text ∧ e.seedTarget = target := by
  simp [seedTargets]

theorem lookupSeed (clean : detectConflicts docs = []) {e : SeedEntry K} (mem : e ∈ seedEntries docs) :
    (seedTargets docs).lookup e.normalized = some e.seedTarget := by
  cases found : (seedTargets docs).lookup e.normalized with
  | none =>
    have out := List.lookup_eq_none_iff.mp found _ (memSeedTargets.mpr ⟨e,mem,rfl,rfl⟩)
    simp at out
  | some target =>
    obtain ⟨before,after,split,-⟩ := List.lookup_eq_some_iff.mp found
    obtain ⟨f,memF,same,rfl⟩ := memSeedTargets.mp (split ▸ List.mem_append_right _ List.mem_cons_self)
    rw [oneSeedTarget clean memF mem same]

theorem existingTargetIff {target : AliasTarget} {key : ModelKey} :
    existingTarget target = some key ↔ target = .productModel key := by
  cases target <;> simp [existingTarget]

theorem noDbConflicts (clean : detectConflicts docs = []) : dbConflicts docs db = [] ↔ OwnAliases docs db := by
  simp only [dbConflicts,List.flatMap_eq_nil_iff,List.mem_dedup]
  constructor
  · rintro none e mem target ⟨⟨aliasType,row⟩,held,rfl⟩
    have here := none e.normalized (List.mem_map.mpr ⟨_,memSeedTargets.mpr ⟨e,mem,rfl,rfl⟩,rfl⟩)
    rw [lookupSeed clean mem] at here
    have own := List.filterMap_eq_nil_iff.mp here _ held
    exact existingTargetIff.mp (by simpa using own)
  · intro own text mem
    obtain ⟨⟨text,target⟩,held,rfl⟩ := List.mem_map.mp mem
    obtain ⟨e,memE,rfl,rfl⟩ := memSeedTargets.mp held
    rw [lookupSeed clean memE]
    refine List.filterMap_eq_nil_iff.mpr fun entry held => ?_
    exact if_pos (existingTargetIff.mpr (own e memE _ ⟨entry,held,rfl⟩))

def statements (docs : List (SeedDocument K)) : List (Statement assigns) := docs.flatMap SeedDocument.statements

def Checked (docs : List (SeedDocument K)) (db : Catalog) : Prop :=
  unratifiedProvenance docs = [] ∧ detectConflicts docs = [] ∧ dbConflicts docs db = []

theorem importChecks : importDocuments docs db =
    if (unratifiedProvenance docs).isEmpty then
      if (detectConflicts docs).isEmpty && (dbConflicts docs db).isEmpty then atomic (docs.forM importDocument) db
      else .error (.conflict (detectConflicts docs) (dbConflicts docs db)) db
    else .error (.unratifiedProvenance (unratifiedProvenance docs)) db := by
  unfold importDocuments
  cases unratified : (unratifiedProvenance docs).isEmpty with
  | false => rfl
  | true =>
    show (do
      let existing := dbConflicts docs db
      unless (detectConflicts docs).isEmpty && existing.isEmpty do throw (.conflict (detectConflicts docs) existing)
      atomic (docs.forM importDocument) : Import Unit) db = _
    cases free : (detectConflicts docs).isEmpty && (dbConflicts docs db).isEmpty with
    | false => simp only [free]; rfl
    | true => simp only [free]; rfl

theorem importRaises {e : ImportError} (raised : importDocuments docs db = .error e db') : db' = db := by
  rw [importChecks] at raised
  split at raised
  · split at raised
    · simp only [atomic] at raised
      split at raised
      · cases raised
      · cases raised
        rfl
    · cases raised
      rfl
  · cases raised
    rfl

theorem atomicSucceeds {body : Import Unit} : atomic body db = .ok () db' ↔ saved body db = some db' := by
  simp only [atomic,saved]
  cases body db <;> simp

theorem importSucceeds : importDocuments docs db = .ok () db' ↔
    Checked docs db ∧ runAll (statements docs) db = some db' := by
  have written : saved (docs.forM importDocument) db = runAll (statements docs) db := savedAll savedDocument docs db
  rw [← written,← atomicSucceeds,importChecks,Checked]
  generalize atomic (docs.forM importDocument) db = outcome
  cases unratifiedProvenance docs <;> cases detectConflicts docs <;> cases dbConflicts docs db <;> simp

theorem memStatements {s : Statement assigns} {d : SeedDocument K} : s ∈ d.statements ↔
    s = d.manufacturerStatement ∨ s = ⟨_,categoryUpsert d.category⟩ ∨ s = d.familyStatement ∨
    ∃ m ∈ d.models, s = m.modelStatement d ∨ s = m.specStatement d ∨ ∃ a ∈ m.aliases, s = m.aliasStatement d a := by
  simp only [SeedDocument.statements,SeedModel.statements,List.mem_cons,List.mem_flatMap,List.mem_map,eq_comm]

theorem aliasSource {key : AliasKey} {u : Upsert (assigns (.alias_ key))}
    (mem : u ∈ rowOf (.alias_ key) (statements docs)) :
    ∃ e ∈ seedEntries docs, e.alias_.key (K := K) = key ∧ u = aliasUpsert key e.seedTarget e.alias_.isPrimary := by
  obtain ⟨d,memD,mem⟩ := List.mem_flatMap.mp (memRowOf.mp mem)
  rcases memStatements.mp mem with is | is | is | ⟨m,memM,is | is | ⟨a,memA,is⟩⟩
  · cases is
  · cases is
  · cases is
  · cases is
  · cases is
  · cases is
    exact ⟨⟨d,m,a⟩,memEntries.mpr ⟨memD,memM,memA⟩,rfl,rfl⟩

theorem memGlobalRows {text : String} {entry : AliasType × ProductAlias} : entry ∈ globalRows db text ↔
    ∃ rows, db (.alias_ ⟨entry.1,text,none⟩) = some rows ∧ entry.2 ∈ rows.all := by
  obtain ⟨aliasType,row⟩ := entry
  simp only [globalRows,List.mem_flatMap]
  constructor
  · rintro ⟨t,-,held⟩
    split at held
    · cases held
    · rename_i rows is
      obtain ⟨r,mem,same⟩ := List.mem_map.mp held
      cases same
      exact ⟨rows,is,mem⟩
  · rintro ⟨rows,is,mem⟩
    refine ⟨aliasType,by cases aliasType <;> decide,?_⟩
    rw [is]
    exact List.mem_map.mpr ⟨row,mem,rfl⟩

theorem ownAfter (clean : detectConflicts docs = []) (own : OwnAliases docs db)
    (done : runAll (statements docs) db = some db') : OwnAliases docs db' := by
  rintro e mem target ⟨⟨aliasType,row⟩,held,rfl⟩
  obtain ⟨rows,is,held⟩ := memGlobalRows.mp held
  have kept := applyAllKeeps (P := fun rows => ∀ r, rows = some r → ∀ row ∈ r.all, row.target =
    .productModel e.seedTarget)
    ?_ ?_ (runAllRows.mp done (.alias_ ⟨aliasType,e.normalized,none⟩))
  · exact kept rows is row held
  · intro u memU row r start applied r' same row' in_
    cases same
    obtain ⟨f,memF,key,rfl⟩ := aliasSource memU
    have text : f.normalized = e.normalized := congrArg AliasKey.normalizedAliasText key
    have seed : f.seedTarget = e.seedTarget := oneSeedTarget clean memF mem text
    cases row with
    | none =>
      obtain ⟨_,-,rfl⟩ := Option.map_eq_some_iff.mp applied
      cases List.mem_singleton.mp in_
      exact congrArg _ seed
    | some before =>
      obtain ⟨admitted,applied⟩ := Option.ite_none_right_eq_some.mp applied
      cases applied
      rcases List.mem_cons.mp in_ with rfl | in_
      · exact (of_decide_eq_true admitted).trans (congrArg _ seed)
      · exact start before rfl row' (List.mem_cons_of_mem _ in_)
  · intro r there row held
    exact own e mem _ ⟨⟨aliasType,row⟩,memGlobalRows.mpr ⟨r,there,held⟩,rfl⟩

theorem rowThere (done : runAll (statements docs) db = some db') {key : Key} {u : Upsert (assigns key)}
    (mem : ⟨key,u⟩ ∈ statements docs) : (db' key).isSome = true :=
  applyAllSome (List.ne_nil_of_mem (memRowOf.mpr mem)) (runAllRows.mp done key)

theorem entryStatements {e : SeedEntry K} (mem : e ∈ seedEntries docs) :
    e.model.modelStatement e.document ∈ statements docs ∧
    e.model.aliasStatement e.document e.alias_ ∈ statements docs := by
  obtain ⟨memD,memM,memA⟩ := memEntries.mp mem
  refine ⟨List.mem_flatMap.mpr ⟨_,memD,memStatements.mpr ?_⟩,List.mem_flatMap.mpr ⟨_,memD,memStatements.mpr ?_⟩⟩
  · exact .inr (.inr (.inr ⟨_,memM,.inl rfl⟩))
  · exact .inr (.inr (.inr ⟨_,memM,.inr (.inr ⟨_,memA,rfl⟩)⟩))

end
end HwRadar.Refdata
