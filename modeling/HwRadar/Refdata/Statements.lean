import HwRadar.Refdata.Persist

/-! The import as statements on rows. Each write of a document is one statement, and
the import of documents succeeds where their statements do, with the tables that they leave. -/
namespace HwRadar.Refdata
open HwRadar.Base HwRadar.Ingest Upserts

abbrev Assigned : Key → Type
  | .manufacturer _ => Varchar 100
  | .category _ => Unit
  | .family _ => Varchar 200
  | .model _ => FamilyKey
  | .spec _ _ => String → Option Cell
  | .alias_ _ => Bool

def assigns : (key : Key) → Assigns (Row key) (Assigned key)
  | .manufacturer _ =>
    { put := fun _ name => name
      merge := fun _ name => name
      putPut := fun _ _ _ => rfl
      mergeSelf := fun _ => rfl }
  | .category _ =>
    { put := fun row _ => row
      merge := fun _ _ => ()
      putPut := fun _ _ _ => rfl
      mergeSelf := fun _ => rfl }
  | .family _ =>
    { put := fun row name => { row with name }
      merge := fun _ name => name
      putPut := fun _ _ _ => rfl
      mergeSelf := fun _ => rfl }
  | .model _ =>
    { put := fun row family => { row with productFamily := some family, retention := manufacturerReference }
      merge := fun _ family => family
      putPut := fun _ _ _ => rfl
      mergeSelf := fun _ => rfl }
  | .spec _ _ =>
    { put := fun row values => ⟨fun name => (values name).or (row.columns name),manufacturerReference⟩
      merge := fun earlier later name => (later name).or (earlier name)
      putPut := fun _ _ _ => by simp only [Option.or_assoc]
      mergeSelf := fun values => by simp only [Option.or_self] }
  | .alias_ _ =>
    { put := fun rows isPrimary =>
        { rows with first := ⟨rows.first.target,.catalogAuthoritative,isPrimary,manufacturerReference⟩ }
      merge := fun _ isPrimary => isPrimary
      putPut := fun _ _ _ => rfl
      mergeSelf := fun _ => rfl }

def manufacturerUpsert (key name : String) : Upsert (assigns (.manufacturer key)) where
  create := (Varchar.store 100 key).bind fun _ => Varchar.store 100 name
  admits _ := true
  value := Varchar.store 100 name
  created r ok := by
    obtain ⟨_,-,stored⟩ := Option.bind_eq_some_iff.mp ok
    exact ⟨rfl,r,stored,rfl⟩
  keeps _ _ := rfl

def categoryUpsert (category : SeedCategory) : Upsert (assigns (.category category.slug)) where
  create := Varchar.store 100 category.title
  admits _ := true
  value := some ()
  created _ _ := ⟨rfl,(),rfl,rfl⟩
  keeps _ _ := rfl

def familyUpsert (key : FamilyKey) (category : SeedCategory) (name : String) : Upsert (assigns (.family key)) where
  create := (Varchar.store 200 key.normalizedName).bind fun _ =>
    (Varchar.store 200 name).map fun name => ⟨category.slug,name⟩
  admits _ := true
  value := Varchar.store 200 name
  created r ok := by
    obtain ⟨_,-,ok⟩ := Option.bind_eq_some_iff.mp ok
    obtain ⟨name,stored,rfl⟩ := Option.map_eq_some_iff.mp ok
    exact ⟨rfl,name,stored,rfl⟩
  keeps _ _ := rfl

def modelUpsert (key : ModelKey) (modelNumber : String) (family : FamilyKey) : Upsert (assigns (.model key)) where
  create := (Varchar.store 100 key.normalizedModelNumber).bind fun _ =>
    (Varchar.store 100 modelNumber).map fun modelNumber => ⟨modelNumber,some family,manufacturerReference⟩
  admits _ := true
  value := some family
  created r ok := by
    obtain ⟨_,-,ok⟩ := Option.bind_eq_some_iff.mp ok
    obtain ⟨modelNumber,-,rfl⟩ := Option.map_eq_some_iff.mp ok
    exact ⟨rfl,family,rfl,rfl⟩
  keeps _ _ := rfl

def specUpsert (satellite : SeedCategory) (key : ModelKey) (dump : SpecDefaults) :
    Upsert (assigns (.spec satellite key)) where
  create := (storeDefaults satellite dump).map SpecRow.blank.assign
  admits _ := true
  value := (storeDefaults satellite dump).map fun defaults name => defaults.lookup name
  created r ok := by
    obtain ⟨defaults,stored,rfl⟩ := Option.map_eq_some_iff.mp ok
    refine ⟨rfl,fun name => defaults.lookup name,by rw [stored]; rfl,?_⟩
    simp [assigns,SpecRow.assign,← Option.or_assoc]
  keeps _ _ := rfl

def aliasUpsert (key : AliasKey) (model : ModelKey) (isPrimary : Bool) : Upsert (assigns (.alias_ key)) where
  create := (Varchar.store 200 key.normalizedAliasText).map fun _ =>
    ⟨⟨.productModel model,.catalogAuthoritative,isPrimary,manufacturerReference⟩,[]⟩
  admits rows := rows.first.target = .productModel model
  value := some isPrimary
  created r ok := by
    obtain ⟨_,-,rfl⟩ := Option.map_eq_some_iff.mp ok
    exact ⟨decide_eq_true rfl,isPrimary,rfl,rfl⟩
  keeps _ _ := rfl

section
variable {K : TextKeys}

def SeedDocument.manufacturerStatement (d : SeedDocument K) : Statement assigns :=
  ⟨_,manufacturerUpsert d.manufacturerKey d.manufacturerName⟩

def SeedDocument.familyStatement (d : SeedDocument K) : Statement assigns :=
  ⟨_,familyUpsert d.familyKey d.category d.familyName⟩

def SeedModel.modelStatement (d : SeedDocument K) (m : SeedModel K) : Statement assigns :=
  ⟨_,modelUpsert (m.key d) m.modelNumber d.familyKey⟩

def SeedModel.specStatement (d : SeedDocument K) (m : SeedModel K) : Statement assigns :=
  ⟨_,specUpsert d.category (m.key d) m.spec.modelDump⟩

def SeedModel.aliasStatement (d : SeedDocument K) (m : SeedModel K) (a : SeedAlias) : Statement assigns :=
  ⟨_,aliasUpsert (a.key (K := K)) (m.key d) a.isPrimary⟩

def SeedModel.statements (d : SeedDocument K) (m : SeedModel K) : List (Statement assigns) :=
  m.modelStatement d :: m.specStatement d :: m.aliases.map (m.aliasStatement d)

def SeedDocument.statements (d : SeedDocument K) : List (Statement assigns) :=
  d.manufacturerStatement :: ⟨_,categoryUpsert d.category⟩ :: d.familyStatement ::
    d.models.flatMap (SeedModel.statements d)

end

def saved (body : Import Unit) (db : Catalog) : Option Catalog :=
  match body db with
  | .ok _ db' => some db'
  | .error _ _ => none

@[simp] theorem savedGet (f : Catalog → Import Unit) (db : Catalog) :
    saved (do let db ← get; f db) db = saved (f db) db := rfl

@[simp] theorem savedSet (db db' : Catalog) : saved (set db') db = some db' := rfl

@[simp] theorem savedPure (db : Catalog) : saved (pure ()) db = some db := rfl

@[simp] theorem savedColumn {α : Type} (value : Option α) (f : α → Import Unit) (db : Catalog) :
    saved (do let a ← column value; f a) db = value.bind fun a => saved (f a) db := by
  cases value <;> rfl

@[simp] theorem savedRefused {α : Type} (e : ImportError) (f : α → Import Unit) (db : Catalog) :
    saved (do let a ← throw e; f a) db = none := rfl

theorem savedSeq (x y : Import Unit) (db : Catalog) : saved (do x; y) db = (saved x db).bind (saved y) := by
  simp only [saved,bind,EStateM.bind]
  cases x db <;> rfl

theorem savedAll {α : Type} {f : α → Import Unit} {statements : α → List (Statement assigns)}
    (each : ∀ a db, saved (f a) db = runAll (statements a) db) (as : List α) (db : Catalog) :
    saved (as.forM f) db = runAll (as.flatMap statements) db := by
  induction as generalizing db with
  | nil => rfl
  | cons a as ih =>
    have first : (a::as).forM f = (do f a; as.forM f) := rfl
    rw [first,savedSeq,each,List.flatMap_cons,runAll,runAll,List.foldlM_append]
    exact congrArg _ (funext ih)

theorem savedOne {body : Import Unit} {s : Statement assigns} {db : Catalog}
    (is : saved body db = s.run db) : saved body db = runAll [s] db := by
  rw [is,runAll,List.foldlM_cons]
  cases s.run db <;> rfl

theorem storedSame {limit : Nat} (v : Varchar limit) : Varchar.store limit v.text = some v := dif_pos v.fits

section
variable {K : TextKeys}

theorem unchanged {key : Key} {row : Row key} {db : Catalog} (is : db key = some row) :
    Function.update db key (some row) = db := by
  rw [← is]
  exact Function.update_eq_self key db

theorem savedManufacturer (d : SeedDocument K) (db : Catalog) :
    saved (importManufacturer d) db = d.manufacturerStatement.run db := by
  simp only [importManufacturer,savedGet,Statement.run,SeedDocument.manufacturerStatement,manufacturerUpsert]
  cases row : db (.manufacturer d.manufacturerKey) with
  | none =>
    simp only [Upsert.apply,savedColumn,savedSet,Catalog.set,Option.map_bind]
    cases Varchar.store 100 d.manufacturerKey <;> cases Varchar.store 100 d.manufacturerName <;> rfl
  | some stored =>
    by_cases same : stored.text = d.manufacturerName
    · have kept : Varchar.store 100 d.manufacturerName = some stored := same ▸ storedSame stored
      simp only [same,ne_eq,not_true_eq_false,if_false,savedPure,Upsert.apply,if_true,kept,Option.map_some]
      exact congrArg some (unchanged row).symm
    · simp only [ne_eq,same,not_false_eq_true,if_true,savedColumn,savedSet,Catalog.set,Upsert.apply]
      cases Varchar.store 100 d.manufacturerName <;> rfl

theorem savedCategory (d : SeedDocument K) (db : Catalog) :
    saved (importCategory d) db = (Statement.mk _ (categoryUpsert d.category)).run db := by
  simp only [importCategory,savedGet,Statement.run,categoryUpsert]
  cases row : db (.category d.category.slug) with
  | none =>
    simp only [Upsert.apply,savedColumn,savedSet,Catalog.set]
    cases Varchar.store 100 d.category.title <;> rfl
  | some stored => exact congrArg some (unchanged row).symm

theorem savedFamily (d : SeedDocument K) (db : Catalog) :
    saved (importFamily d) db = d.familyStatement.run db := by
  simp only [importFamily,savedGet,Statement.run,SeedDocument.familyStatement,familyUpsert]
  cases row : db (.family d.familyKey) with
  | none =>
    simp only [Upsert.apply,savedColumn,savedSet,Catalog.set,Option.map_bind]
    cases Varchar.store 200 d.familyKey.normalizedName <;> cases Varchar.store 200 d.familyName <;> rfl
  | some stored =>
    by_cases same : stored.name.text = d.familyName
    · have kept : Varchar.store 200 d.familyName = some stored.name := same ▸ storedSame stored.name
      simp only [same,ne_eq,not_true_eq_false,if_false,savedPure,Upsert.apply,if_true,kept,Option.map_some]
      exact congrArg some (unchanged row).symm
    · simp only [ne_eq,same,not_false_eq_true,if_true,savedColumn,savedSet,Catalog.set,Upsert.apply]
      cases Varchar.store 200 d.familyName <;> rfl

theorem savedModelRow (d : SeedDocument K) (m : SeedModel K) (db : Catalog) :
    saved (importModelRow d m) db = (m.modelStatement d).run db := by
  simp only [importModelRow,savedGet,Statement.run,SeedModel.modelStatement,modelUpsert]
  cases row : db (.model (m.key d)) with
  | none =>
    simp only [Upsert.apply,savedColumn,savedSet,Catalog.set,Option.map_bind]
    cases Varchar.store 100 (m.key d).normalizedModelNumber <;> cases Varchar.store 100 m.modelNumber <;> rfl
  | some stored => rfl

theorem savedSpec (d : SeedDocument K) (m : SeedModel K) (db : Catalog) :
    saved (importSpec d m) db = (m.specStatement d).run db := by
  simp only [importSpec,savedGet,savedColumn,savedSet,Statement.run,SeedModel.specStatement,specUpsert]
  cases row : db (.spec d.category (m.key d)) with
  | none =>
    simp only [Upsert.apply]
    cases storeDefaults d.category m.spec.modelDump <;> rfl
  | some stored =>
    simp only [Upsert.apply,if_true]
    cases storeDefaults d.category m.spec.modelDump <;> rfl

theorem savedAlias (d : SeedDocument K) (m : SeedModel K) (a : SeedAlias) (db : Catalog) :
    saved (importAlias (K := K) (m.key d) a) db = (m.aliasStatement d a).run db := by
  simp only [importAlias,savedGet,Statement.run,SeedModel.aliasStatement,aliasUpsert]
  cases row : db (.alias_ (a.key (K := K))) with
  | none =>
    simp only [Upsert.apply,savedColumn,savedSet,Catalog.set]
    cases Varchar.store 200 (a.key (K := K)).normalizedAliasText <;> rfl
  | some rows =>
    by_cases own : rows.first.target = .productModel (m.key d)
    · simp only [ne_eq,own,not_true_eq_false,if_false,Upsert.apply,decide_true,if_true]
      simp only [← own]
      rfl
    · simp only [ne_eq,own,not_false_eq_true,if_true,Upsert.apply,decide_false]
      rfl

theorem savedModel (d : SeedDocument K) (m : SeedModel K) (db : Catalog) :
    saved (importModel d m) db = runAll (m.statements d) db := by
  rw [importModel,savedSeq,savedModelRow,SeedModel.statements,runAll,List.foldlM_cons]
  congr 1
  funext db
  rw [savedSeq,savedSpec,List.foldlM_cons]
  congr 1
  funext db
  have each : ∀ a db, saved (importAlias (K := K) (m.key d) a) db = runAll [m.aliasStatement d a] db :=
    fun a db => savedOne (savedAlias d m a db)
  rw [savedAll each,← List.map_eq_flatMap]
  rfl

theorem savedDocument (d : SeedDocument K) (db : Catalog) :
    saved (importDocument d) db = runAll d.statements db := by
  rw [importDocument,savedSeq,savedManufacturer,SeedDocument.statements,runAll,List.foldlM_cons]
  congr 1
  funext db
  rw [savedSeq,savedCategory,List.foldlM_cons]
  congr 1
  funext db
  rw [savedSeq,savedFamily,List.foldlM_cons]
  congr 1
  funext db
  exact savedAll (savedModel d) d.models db

end
end HwRadar.Refdata
