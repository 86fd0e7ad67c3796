import HwRadar.Refdata.ImportContent

/-! The order of the documents. Two documents that describe the rows they share alike may
come in either order, display names of manufacturers apart. -/
namespace HwRadar.Refdata
open HwRadar.Base HwRadar.Ingest Upserts

section
variable {K : TextKeys}

structure Alike (d e : SeedDocument K) : Prop where
  family : d.familyKey = e.familyKey → d.category = e.category ∧ d.familyName = e.familyName
  model : ∀ m ∈ d.models, ∀ n ∈ e.models, m.key d = n.key e → d.familyKey = e.familyKey
  spec : ∀ m ∈ d.models, ∀ n ∈ e.models, m.key d = n.key e → ∀ name x y,
    m.spec.modelDump.lookup name = some x → n.spec.modelDump.lookup name = some y → x = y
  primary : ∀ m ∈ d.models, ∀ n ∈ e.models, m.key d = n.key e → ∀ a ∈ m.aliases, ∀ b ∈ n.aliases,
    a.key (K := K) = b.key (K := K) → a.isPrimary = b.isPrimary

def AllAlike (docs : List (SeedDocument K)) : Prop := ∀ d ∈ docs, ∀ e ∈ docs, d ≠ e → Alike d e

def SameContent (db db' : Catalog) : Prop := ∀ key, (∀ name, key ≠ .manufacturer name) → db key = db' key

def SameOutcome (docs docs' : List (SeedDocument K)) (db : Catalog) : Prop :=
  ((∃ e, importDocuments docs db = .error e db) ∧ ∃ e, importDocuments docs' db = .error e db) ∨
  ∃ t t', importDocuments docs db = .ok () t ∧ importDocuments docs' db = .ok () t' ∧ SameContent t t'

variable {docs docs' : List (SeedDocument K)} {db db' : Catalog} {d e : SeedDocument K}

theorem manufacturerSource {name : String} {u : Upsert (assigns (.manufacturer name))}
    (mem : ⟨_,u⟩ ∈ d.statements) : u = manufacturerUpsert name d.manufacturerName := by
  rcases memStatements.mp mem with is | is | is | ⟨m,memM,is | is | ⟨a,memA,is⟩⟩ <;> cases is
  rfl

theorem categorySource {slug : String} {u : Upsert (assigns (.category slug))} (mem : ⟨_,u⟩ ∈ d.statements) :
    (⟨_,u⟩ : Statement assigns) = ⟨_,categoryUpsert d.category⟩ := by
  rcases memStatements.mp mem with is | is | is | ⟨m,memM,is | is | ⟨a,memA,is⟩⟩ <;> cases is
  rfl

theorem familySource {key : FamilyKey} {u : Upsert (assigns (.family key))} (mem : ⟨_,u⟩ ∈ d.statements) :
    (⟨_,u⟩ : Statement assigns) = d.familyStatement := by
  rcases memStatements.mp mem with is | is | is | ⟨m,memM,is | is | ⟨a,memA,is⟩⟩ <;> cases is
  rfl

theorem modelSource {key : ModelKey} {u : Upsert (assigns (.model key))} (mem : ⟨_,u⟩ ∈ d.statements) :
    ∃ m ∈ d.models, (⟨_,u⟩ : Statement assigns) = m.modelStatement d := by
  rcases memStatements.mp mem with is | is | is | ⟨m,memM,is | is | ⟨a,memA,is⟩⟩ <;> cases is
  exact ⟨m,memM,rfl⟩

theorem specSource {satellite : SeedCategory} {key : ModelKey} {u : Upsert (assigns (.spec satellite key))}
    (mem : ⟨_,u⟩ ∈ d.statements) : ∃ m ∈ d.models, (⟨_,u⟩ : Statement assigns) = m.specStatement d := by
  rcases memStatements.mp mem with is | is | is | ⟨m,memM,is | is | ⟨a,memA,is⟩⟩ <;> cases is
  exact ⟨m,memM,rfl⟩

theorem aliasRowSource {key : AliasKey} {u : Upsert (assigns (.alias_ key))} (mem : ⟨_,u⟩ ∈ d.statements) :
    ∃ m ∈ d.models, ∃ a ∈ m.aliases, (⟨_,u⟩ : Statement assigns) = m.aliasStatement d a := by
  rcases memStatements.mp mem with is | is | is | ⟨m,memM,is | is | ⟨a,memA,is⟩⟩ <;> cases is
  exact ⟨m,memM,a,memA,rfl⟩

theorem commuteSame {key : Key} {u v : Upsert (assigns key)} {s t : Statement assigns}
    (left : (⟨_,u⟩ : Statement assigns) = s)
    (right : (⟨_,v⟩ : Statement assigns) = t) (same : s = t) : Commute [u] [v] := by
  cases left.trans (same.trans right.symm)
  exact fun _ => rfl

theorem storedLookup {satellite : SeedCategory} {dump stored : SpecDefaults}
    (ok : storeDefaults satellite dump = some stored)
    (name : String) : stored.lookup name = (dump.lookup name).bind (storeCell satellite name) := by
  induction dump generalizing stored with
  | nil =>
    cases Option.some.inj ok
    rfl
  | cons entry dump ih =>
    obtain ⟨column,value⟩ := entry
    rw [storeDefaults,List.mapM_cons] at ok
    obtain ⟨head,one,ok⟩ := Option.bind_eq_some_iff.mp ok
    obtain ⟨rest,tail,ok⟩ := Option.bind_eq_some_iff.mp ok
    obtain ⟨cell,cellIs,rfl⟩ := Option.map_eq_some_iff.mp one
    cases Option.some.inj ok
    have tail := ih tail
    simp only [List.lookup_cons]
    cases here : name == column with
    | true =>
      cases eq_of_beq here
      exact cellIs.symm
    | false => exact tail

theorem commuteSpecs {satellite : SeedCategory} {key : ModelKey} {p q : SpecDefaults}
    (agree : ∀ name x y, p.lookup name = some x → q.lookup name = some y → x = y) :
    Commute [specUpsert satellite key p] [specUpsert satellite key q] := by
  have either : ∀ {p' q'}, storeDefaults satellite p = some p' → storeDefaults satellite q = some q' → ∀ name,
      (p'.lookup name).or (q'.lookup name) = (q'.lookup name).or (p'.lookup name) := by
    intro p' q' storedP storedQ name
    rw [storedLookup storedP,storedLookup storedQ]
    cases inP : p.lookup name with
    | none => simp
    | some x =>
      cases inQ : q.lookup name with
      | none => simp
      | some y => rw [agree name x y inP inQ]
  refine .statements ?_ fun b c valueB valueC => ?_
  · cases storedP : storeDefaults satellite p <;> cases storedQ : storeDefaults satellite q <;>
      simp [specUpsert,Upsert.apply,storedP,storedQ,assigns,SpecRow.assign,SpecRow.blank]
    exact funext fun name => (either storedP storedQ name).symm
  · obtain ⟨p',storedP,rfl⟩ := Option.map_eq_some_iff.mp valueB
    obtain ⟨q',storedQ,rfl⟩ := Option.map_eq_some_iff.mp valueC
    exact funext fun name => (either storedP storedQ name).symm

theorem slugInj {c c' : SeedCategory} (same : c.slug = c'.slug) : c = c' := by
  revert same
  cases c <;> cases c' <;> decide

theorem ownEntry (d : SeedDocument K) {m : SeedModel K} (memM : m ∈ d.models) (memD : d ∈ docs) :
    ∃ e ∈ seedEntries docs, e.document = d ∧ e.model = m ∧ e.normalized = (m.key d).normalizedModelNumber := by
  obtain ⟨a,memA,own⟩ := m.ownAlias
  exact ⟨⟨d,m,a⟩,memEntries.mpr ⟨memD,memM,memA⟩,rfl,rfl,own⟩

theorem sameNumber (clean : detectConflicts docs = []) (memD : d ∈ docs) (memE : e ∈ docs) {m n : SeedModel K}
    (memM : m ∈ d.models) (memN : n ∈ e.models) (keys : m.key d = n.key e) : m.modelNumber = n.modelNumber := by
  obtain ⟨f,memF,rfl,rfl,left⟩ := ownEntry d memM memD
  obtain ⟨g,memG,rfl,rfl,right⟩ := ownEntry e memN memE
  exact (oneTarget clean memF memG (by rw [left,right,keys])).2

theorem documentsCommute (clean : detectConflicts docs = []) (memD : d ∈ docs) (memE : e ∈ docs) (alike : Alike d e)
    {key : Key} (content : ∀ name, key ≠ .manufacturer name) :
    Commute (rowOf key d.statements) (rowOf key e.statements) := by
  refine .blocks fun u memU v memV => ?_
  rw [memRowOf] at memU memV
  cases key with
  | manufacturer name => exact absurd rfl (content name)
  | category slug =>
    have left := categorySource memU
    have right := categorySource memV
    have slugs : d.category.slug = e.category.slug := by
      have first := congrArg Statement.key left
      have second := congrArg Statement.key right
      exact Key.category.inj (first.symm.trans second)
    exact commuteSame left right (by rw [slugInj slugs])
  | family key =>
    have left := familySource memU
    have right := familySource memV
    have keys : d.familyKey = e.familyKey :=
      Key.family.inj ((congrArg Statement.key left).symm.trans (congrArg Statement.key right))
    obtain ⟨categories,names⟩ := alike.family keys
    exact commuteSame left right
      (by rw [SeedDocument.familyStatement,SeedDocument.familyStatement,keys,categories,names])
  | model key =>
    obtain ⟨m,memM,left⟩ := modelSource memU
    obtain ⟨n,memN,right⟩ := modelSource memV
    have keys : m.key d = n.key e :=
      Key.model.inj ((congrArg Statement.key left).symm.trans (congrArg Statement.key right))
    have numbers := sameNumber clean memD memE memM memN keys
    have families := alike.model m memM n memN keys
    exact commuteSame left right (by rw [SeedModel.modelStatement,SeedModel.modelStatement,keys,numbers,families])
  | spec satellite key =>
    obtain ⟨m,memM,left⟩ := specSource memU
    obtain ⟨n,memN,right⟩ := specSource memV
    have same : Key.spec d.category (m.key d) = .spec e.category (n.key e) :=
      (congrArg Statement.key left).symm.trans (congrArg Statement.key right)
    obtain ⟨categories,keys⟩ := Key.spec.inj same
    have agree := alike.spec m memM n memN keys
    rw [SeedModel.specStatement,← categories,← keys] at right
    cases left
    cases right
    exact commuteSpecs agree
  | alias_ key =>
    obtain ⟨m,memM,a,memA,left⟩ := aliasRowSource memU
    obtain ⟨n,memN,b,memB,right⟩ := aliasRowSource memV
    have keys : a.key (K := K) = b.key (K := K) :=
      Key.alias_.inj ((congrArg Statement.key left).symm.trans (congrArg Statement.key right))
    have entryA : (⟨d,m,a⟩ : SeedEntry K) ∈ seedEntries docs := memEntries.mpr ⟨memD,memM,memA⟩
    have entryB : (⟨e,n,b⟩ : SeedEntry K) ∈ seedEntries docs := memEntries.mpr ⟨memE,memN,memB⟩
    have targets : m.key d = n.key e := oneSeedTarget clean entryA entryB (congrArg AliasKey.normalizedAliasText keys)
    have primaries := alike.primary m memM n memN targets a memA b memB keys
    exact commuteSame left right (by rw [SeedModel.aliasStatement,SeedModel.aliasStatement,keys,targets,primaries])

theorem checkedPerm (perm : docs.Perm docs') (passed : Checked docs db) : Checked docs' db := by
  obtain ⟨ratified,clean,free⟩ := passed
  have entries : ∀ e : SeedEntry K, e ∈ seedEntries docs' → e ∈ seedEntries docs := by
    intro e mem
    obtain ⟨memD,rest⟩ := memEntries.mp mem
    exact memEntries.mpr ⟨perm.mem_iff.mpr memD,rest⟩
  have clean' : detectConflicts docs' = [] :=
    noConflicts.mpr fun e memE f memF => noConflicts.mp clean e (entries e memE) f (entries f memF)
  have own := (noDbConflicts clean).mp free
  refine ⟨?_,clean',(noDbConflicts clean').mpr fun e mem => own e (entries e mem)⟩
  have none := List.filter_eq_nil_iff.mp (List.map_eq_nil_iff.mp ratified)
  exact List.map_eq_nil_iff.mpr (List.filter_eq_nil_iff.mpr fun d mem => none d (perm.mem_iff.mpr mem))

theorem manufacturersPerm (perm : docs.Perm docs') {name : String} {row : Option (Row (.manufacturer name))}
    (done : (applyAll (rowOf (.manufacturer name) (statements docs)) row).isSome = true) :
    (applyAll (rowOf (.manufacturer name) (statements docs')) row).isSome = true := by
  have source : ∀ u : Upsert (assigns (.manufacturer name)), u ∈ rowOf _ (statements docs) →
      ∃ display, u = manufacturerUpsert name display := by
    intro u mem
    obtain ⟨d,-,mem⟩ := List.mem_flatMap.mp (memRowOf.mp mem)
    exact ⟨_,manufacturerSource mem⟩
  have same : (rowOf (.manufacturer name) (statements docs)).Perm (rowOf (.manufacturer name) (statements docs')) :=
    (perm.flatMap_right _).filterMap _
  refine applyAllPermSome same (fun u mem r => ?_) (fun u memU v memV created value => ?_) done
  · obtain ⟨_,rfl⟩ := source u mem
    rfl
  · obtain ⟨_,rfl⟩ := source u memU
    obtain ⟨display,rfl⟩ := source v memV
    obtain ⟨r,created⟩ := Option.isSome_iff_exists.mp created
    obtain ⟨key,stored,-⟩ := Option.bind_eq_some_iff.mp created
    simp only [manufacturerUpsert,stored,Option.bind_some]
    exact value

theorem importPerm (perm : docs.Perm docs') (alike : AllAlike docs) (done : importDocuments docs db = .ok () db') :
    ∃ t', importDocuments docs' db = .ok () t' ∧ SameContent db' t' := by
  obtain ⟨passed,done⟩ := importSucceeds.mp done
  have rows := runAllRows.mp done
  have content : ∀ key, (∀ name, key ≠ .manufacturer name) →
      applyAll (rowOf key (statements docs')) (db key) = some (db' key) := by
    intro key content
    rw [← rows key,statements,statements,rowOfFlatMap,rowOfFlatMap]
    exact (applyAllPerm perm (fun d memD e memE other =>
      documentsCommute passed.2.1 memD memE (alike d memD e memE other) content) (db key)).symm
  have every : ∀ key, ∃ row, applyAll (rowOf key (statements docs')) (db key) = some row := by
    intro key
    cases key with
    | manufacturer name =>
      exact Option.isSome_iff_exists.mp (manufacturersPerm perm (Option.isSome_iff_exists.mpr ⟨_,rows _⟩))
    | _ => exact ⟨_,content _ fun _ => nofun⟩
  choose t' rows' using every
  refine ⟨t',importSucceeds.mpr ⟨checkedPerm perm passed,runAllRows.mpr rows'⟩,fun key other => ?_⟩
  exact Option.some.inj ((content key other).symm.trans (rows' key))

theorem outcomePerm (perm : docs.Perm docs') (alike : AllAlike docs) : SameOutcome docs docs' db := by
  have alike' : AllAlike docs' := fun d memD e memE => alike d (perm.mem_iff.mpr memD) e (perm.mem_iff.mpr memE)
  cases first : importDocuments docs db with
  | ok _ t =>
    obtain ⟨t',second,same⟩ := importPerm perm alike first
    exact .inr ⟨t,t',first,second,same⟩
  | error e t =>
    cases importRaises first
    cases second : importDocuments docs' db with
    | ok _ t' =>
      obtain ⟨t,again,-⟩ := importPerm perm.symm alike' second
      rw [first] at again
      cases again
    | error e' t' =>
      cases importRaises second
      exact .inl ⟨⟨e,first⟩,⟨e',second⟩⟩

end
def asciiKeys : TextKeys where
  normalizeAliasText text := String.ofList ((text.toList.filter Char.isAlphanum).map Char.toLower)
  canonicalizeTitle text := String.ofList (text.toList.map Char.toLower)

def modelAlias : SeedAlias := ⟨.mpn,"ST16000NE000",true,by decide⟩

def driveSpec : SeedDriveSpec where
  mediaType := .hdd
  interface := none
  formFactor := none
  capacityTb := some 16
  rpm := some 7200
  cacheMb := none
  recordingTech := none
  sectorFormat := none
  sed := none
  workloadTbYear := none
  marketTier := ""
  modelFamily := ""
  specJson := []

def driveModel : SeedModel asciiKeys :=
  ⟨"ST16000NE000",.drive driveSpec,[modelAlias],by decide,rfl,modelAlias,List.mem_singleton_self _,rfl⟩

def cacheModel : SeedModel asciiKeys :=
  { driveModel with spec := .drive { driveSpec with rpm := none, cacheMb := some 256 } }

def familyDocument (familyName : String) (model : SeedModel asciiKeys) (drive : model.spec.category = .drive)
    (named : familyName ≠ "") (keyed : asciiKeys.canonicalizeTitle familyName ≠ "") : SeedDocument asciiKeys where
  category := .drive
  manufacturerName := "Seagate"
  manufacturerKey := "seagate"
  familyName := familyName
  sourceKind := .firstPartyDatasheet
  models := [model]
  named := ⟨by decide,named⟩
  listed := List.cons_ne_nil _ _
  keyShaped := by decide +kernel
  familyKeyed := keyed
  specCategory m mem := by
    rw [List.mem_singleton.mp mem]
    exact drive

def exosDocument : SeedDocument asciiKeys := familyDocument "Exos" driveModel rfl (by decide) (by decide +kernel)
def cacheDocument : SeedDocument asciiKeys := familyDocument "Exos" cacheModel rfl (by decide) (by decide +kernel)
def ironwolfDocument : SeedDocument asciiKeys :=
  familyDocument "IronWolf" driveModel rfl (by decide) (by decide +kernel)

def linkAfter (docs : List (SeedDocument asciiKeys)) : Option (Option FamilyKey) :=
  match importDocuments docs (fun _ => none) with
  | .ok _ t => (t (.model ⟨"seagate","st16000ne000"⟩)).map ProductModel.productFamily
  | .error _ _ => none

theorem lookupStated {fields : List (String × Cell)} {name : String} {x : Cell} (is : fields.lookup name = some x) :
    (name,x) ∈ fields := by
  obtain ⟨before,after,rfl,-⟩ := List.lookup_eq_some_iff.mp is
  exact List.mem_append_right _ List.mem_cons_self

def agreeing (a b : List (String × Cell)) : Bool := a.all fun x => b.all fun y => x.1 != y.1 || x.2 = y.2

theorem familyAlike {m n : SeedModel asciiKeys} {x y} (own : m.aliases = [modelAlias]) (own' : n.aliases = [modelAlias])
    (same : agreeing m.spec.modelDump n.spec.modelDump = true) :
    Alike (familyDocument "Exos" m x (by decide) (by decide +kernel))
      (familyDocument "Exos" n y (by decide) (by decide +kernel)) := by
  refine ⟨fun _ => ⟨rfl,rfl⟩,fun _ _ _ _ _ => rfl,fun m' mem n' mem' _ name a b isA isB => ?_,
    fun m' mem n' mem' _ a memA b memB _ => ?_⟩
  · rw [List.mem_singleton.mp mem] at isA
    rw [List.mem_singleton.mp mem'] at isB
    simp only [agreeing,List.all_eq_true] at same
    simpa using same _ (lookupStated isA) _ (lookupStated isB)
  · rw [List.mem_singleton.mp mem,own] at memA
    rw [List.mem_singleton.mp mem',own'] at memB
    rw [List.mem_singleton.mp memA,List.mem_singleton.mp memB]

theorem sheetsAlike : AllAlike [exosDocument,cacheDocument] := by
  intro d memD e memE apart
  rcases List.mem_pair.mp memD with rfl | rfl <;> rcases List.mem_pair.mp memE with rfl | rfl
  · exact absurd rfl apart
  · exact familyAlike rfl rfl (by decide +kernel)
  · exact familyAlike rfl rfl (by decide +kernel)
  · exact absurd rfl apart

end HwRadar.Refdata
