import Mathlib.Data.List.Sort
import Mathlib.Data.List.Dedup
import HwRadar.Base.Decimal

/-! Seed documents, one product family each, and the scan for aliases of one key that point
at different models. Text keys are the matcher's: alias text and titles are normalized by
functions that this layer only calls. -/
namespace HwRadar.Refdata
open HwRadar.Base

structure TextKeys where
  normalizeAliasText : String → String
  canonicalizeTitle : String → String

inductive SeedCategory where
  | drive
  | gpu
  | ram
  | cpu
  deriving DecidableEq, Repr

inductive SourceKind where
  | firstPartyDatasheet
  | firstPartyManual
  | firstPartyPage
  | nonFirstParty
  deriving DecidableEq, Repr

def SourceKind.isFirstParty : SourceKind → Bool
  | .nonFirstParty => false
  | _ => true

inductive AliasType where
  | gtin
  | upc
  | ean
  | asin
  | epid
  | mpn
  | oemPn
  | retailPn
  | regionPn
  | other
  deriving DecidableEq, Repr

def AliasType.all : List AliasType := [.gtin,.upc,.ean,.asin,.epid,.mpn,.oemPn,.retailPn,.regionPn,.other]

inductive SeedAliasType where
  | mpn
  | retailPn
  | regionPn
  deriving DecidableEq, Repr

def SeedAliasType.aliasType : SeedAliasType → AliasType
  | .mpn => .mpn
  | .retailPn => .retailPn
  | .regionPn => .regionPn

structure SeedAlias where
  aliasType : SeedAliasType
  text : String
  isPrimary : Bool
  nonempty : text ≠ ""
  deriving DecidableEq, Repr

inductive Cell where
  | text (s : String)
  | int (i : Int)
  | decimal (q : ℚ)
  | bool (b : Bool)
  | json (members : List (String × String))
  deriving DecidableEq, Repr

inductive SeedMedia where
  | hdd
  | ssd
  deriving DecidableEq, Repr

inductive SeedRecording where
  | cmr
  | smrDm
  | smrHm
  deriving DecidableEq, Repr

inductive SeedSector where
  | native512
  | emulated512
  | native4k
  deriving DecidableEq, Repr

inductive SeedChipVendor where
  | nvidia
  | amd
  | intel
  | other
  deriving DecidableEq, Repr

inductive SeedGpuInterface where
  | pcie
  | sxm
  | oam
  | mxm
  | other
  deriving DecidableEq, Repr

inductive SeedCooling where
  | active
  | passive
  | liquid
  deriving DecidableEq, Repr

inductive SeedGeneration where
  | ddr3
  | ddr4
  | ddr5
  | other
  deriving DecidableEq, Repr

inductive SeedModuleType where
  | udimm
  | rdimm
  | lrdimm
  | sodimm
  | other
  deriving DecidableEq, Repr

def SeedMedia.value : SeedMedia → String
  | .hdd => "hdd"
  | .ssd => "ssd"

def SeedRecording.value : SeedRecording → String
  | .cmr => "cmr"
  | .smrDm => "smr_dm"
  | .smrHm => "smr_hm"

def SeedSector.value : SeedSector → String
  | .native512 => "512n"
  | .emulated512 => "512e"
  | .native4k => "4kn"

def SeedChipVendor.value : SeedChipVendor → String
  | .nvidia => "nvidia"
  | .amd => "amd"
  | .intel => "intel"
  | .other => "other"

def SeedGpuInterface.value : SeedGpuInterface → String
  | .pcie => "pcie"
  | .sxm => "sxm"
  | .oam => "oam"
  | .mxm => "mxm"
  | .other => "other"

def SeedCooling.value : SeedCooling → String
  | .active => "active"
  | .passive => "passive"
  | .liquid => "liquid"

def SeedGeneration.value : SeedGeneration → String
  | .ddr3 => "ddr3"
  | .ddr4 => "ddr4"
  | .ddr5 => "ddr5"
  | .other => "other"

def SeedModuleType.value : SeedModuleType → String
  | .udimm => "udimm"
  | .rdimm => "rdimm"
  | .lrdimm => "lrdimm"
  | .sodimm => "sodimm"
  | .other => "other"

def smallIntMax : Nat := 32767

structure SmallCount where
  count : Nat
  positive : 0 < count
  small : count ≤ smallIntMax
  deriving DecidableEq, Repr

/-- A lowercase token: `^[a-z0-9][a-z0-9_-]*$`. -/
def socketShaped (s : String) : Bool :=
  match s.toList with
  | [] => false
  | c::cs => (c.isLower || c.isDigit) && cs.all fun c => c.isLower || c.isDigit || c = '_' || c = '-'

structure SeedDriveSpec where
  mediaType : SeedMedia
  interface : Option String
  formFactor : Option String
  capacityTb : Option ℚ
  rpm : Option Int
  cacheMb : Option Int
  recordingTech : Option SeedRecording
  sectorFormat : Option SeedSector
  sed : Option Bool
  workloadTbYear : Option Int
  marketTier : String
  modelFamily : String
  specJson : List (String × String)
  deriving DecidableEq, Repr

structure SeedGpuSpec where
  chipVendor : Option SeedChipVendor
  vramGb : Option SmallCount
  interface : Option SeedGpuInterface
  cooling : Option SeedCooling
  tdpW : Option SmallCount
  deriving DecidableEq, Repr

structure SeedRamSpec where
  generation : Option SeedGeneration
  moduleType : Option SeedModuleType
  ecc : Option Bool
  moduleCapacityGb : Option SmallCount
  modulesPerKit : SmallCount
  speedMts : Option Nat
  ranks : Option SmallCount
  speedPositive : ∀ speed, speedMts = some speed → 0 < speed
  deriving DecidableEq, Repr

structure SeedCpuSpec where
  socket : Option String
  cores : Option SmallCount
  tdpW : Option SmallCount
  socketToken : ∀ s, socket = some s → s.length ≤ 32 ∧ socketShaped s = true
  deriving DecidableEq, Repr

inductive SeedSpec where
  | drive (s : SeedDriveSpec)
  | gpu (s : SeedGpuSpec)
  | ram (s : SeedRamSpec)
  | cpu (s : SeedCpuSpec)
  deriving DecidableEq, Repr

def SeedSpec.category : SeedSpec → SeedCategory
  | .drive _ => .drive
  | .gpu _ => .gpu
  | .ram _ => .ram
  | .cpu _ => .cpu

def SmallCount.cell (c : SmallCount) : Cell := .int c.count

def stated (fields : List (String × Option Cell)) : List (String × Cell) :=
  fields.filterMap fun (column,value) => value.map (column,·)

/-- `model_dump(exclude_none=True, exclude={"category"})`: the columns a spec states. -/
def SeedSpec.modelDump : SeedSpec → List (String × Cell)
  | .drive s => stated
    [("media_type",some (.text s.mediaType.value)),
      ("interface",s.interface.map .text),
      ("form_factor",s.formFactor.map .text),
      ("capacity_tb",s.capacityTb.map .decimal),
      ("rpm",s.rpm.map .int),
      ("cache_mb",s.cacheMb.map .int),
      ("recording_tech",s.recordingTech.map fun r => .text r.value),
      ("sector_format",s.sectorFormat.map fun f => .text f.value),
      ("sed",s.sed.map .bool),
      ("workload_tb_year",s.workloadTbYear.map .int),
      ("market_tier",some (.text s.marketTier)),
      ("model_family",some (.text s.modelFamily)),
      ("spec_json",some (.json s.specJson))]
  | .gpu s => stated
    [("chip_vendor",s.chipVendor.map fun v => .text v.value),
      ("vram_gb",s.vramGb.map SmallCount.cell),
      ("interface",s.interface.map fun i => .text i.value),
      ("cooling",s.cooling.map fun c => .text c.value),
      ("tdp_w",s.tdpW.map SmallCount.cell)]
  | .ram s => stated
    [("generation",s.generation.map fun g => .text g.value),
      ("module_type",s.moduleType.map fun t => .text t.value),
      ("ecc",s.ecc.map .bool),
      ("module_capacity_gb",s.moduleCapacityGb.map SmallCount.cell),
      ("modules_per_kit",some s.modulesPerKit.cell),
      ("speed_mts",s.speedMts.map fun speed => .int speed),
      ("ranks",s.ranks.map SmallCount.cell)]
  | .cpu s => stated
    [("socket",s.socket.map .text),
      ("cores",s.cores.map SmallCount.cell),
      ("tdp_w",s.tdpW.map SmallCount.cell)]

/-- `^[a-z][a-z0-9_]*$` -/
def manufacturerKeyShaped (s : String) : Bool :=
  match s.toList with
  | [] => false
  | c::cs => c.isLower && cs.all fun c => c.isLower || c.isDigit || c = '_'

section
variable (K : TextKeys)

def SeedAlias.normalized (a : SeedAlias) : String := K.normalizeAliasText a.text

structure SeedModel where
  modelNumber : String
  spec : SeedSpec
  aliases : List SeedAlias
  nonempty : modelNumber ≠ ""
  onePrimary : (aliases.filter SeedAlias.isPrimary).length = 1
  ownAlias : ∃ a ∈ aliases, a.normalized K = K.normalizeAliasText modelNumber

structure SeedDocument where
  category : SeedCategory
  manufacturerName : String
  manufacturerKey : String
  familyName : String
  sourceKind : SourceKind
  models : List (SeedModel K)
  named : manufacturerName ≠ "" ∧ familyName ≠ ""
  listed : models ≠ []
  keyShaped : manufacturerKeyShaped manufacturerKey = true
  familyKeyed : K.canonicalizeTitle familyName ≠ ""
  specCategory : ∀ m ∈ models, m.spec.category = category

structure SeedEntry where
  document : SeedDocument K
  model : SeedModel K
  alias_ : SeedAlias

variable {K}

def SeedEntry.normalized (e : SeedEntry K) : String := e.alias_.normalized K

def SeedEntry.target (e : SeedEntry K) : String := e.document.manufacturerKey ++ "/" ++ e.model.modelNumber

def seedEntries (docs : List (SeedDocument K)) : List (SeedEntry K) :=
  docs.flatMap fun d => d.models.flatMap fun m => m.aliases.map fun a => ⟨d,m,a⟩

structure SeedConflict where
  aliasTypeSet : List AliasType
  normalizedText : String
  targets : List String
  deriving DecidableEq, Repr

def detectConflicts (docs : List (SeedDocument K)) : List SeedConflict :=
  ((seedEntries docs).map SeedEntry.normalized).dedup.insertionSort (· ≤ ·) |>.filterMap fun key =>
    let hits := (seedEntries docs).filter fun e => e.normalized = key
    let targets := (hits.map SeedEntry.target).dedup.insertionSort (· ≤ ·)
    if 1 < targets.length then
      some ⟨(hits.map fun e => e.alias_.aliasType.aliasType).dedup,key,targets⟩
    else none

theorem memEntries {docs : List (SeedDocument K)} {e : SeedEntry K} :
    e ∈ seedEntries docs ↔ e.document ∈ docs ∧ e.model ∈ e.document.models ∧ e.alias_ ∈ e.model.aliases := by
  simp only [seedEntries,List.mem_flatMap,List.mem_map]
  constructor
  · rintro ⟨d,memD,m,memM,a,memA,rfl⟩
    exact ⟨memD,memM,memA⟩
  · rintro ⟨memD,memM,memA⟩
    exact ⟨_,memD,_,memM,_,memA,rfl⟩

end

theorem shapedNoSlash {s : String} (shaped : manufacturerKeyShaped s = true) : '/' ∉ s.toList := by
  unfold manufacturerKeyShaped at shaped
  cases is : s.toList with
  | nil => exact List.not_mem_nil
  | cons c cs =>
    rw [is] at shaped
    simp only [Bool.and_eq_true,List.all_eq_true] at shaped
    intro mem
    rcases List.mem_cons.mp mem with rfl | mem
    · exact absurd shaped.1 (by decide)
    · exact absurd (shaped.2 _ mem) (by decide)

theorem splitAtSeparator {α : Type} {c : α} {xs xs' ys ys' : List α} (left : c ∉ xs) (right : c ∉ xs')
    (same : xs ++ c::ys = xs' ++ c::ys') : xs = xs' ∧ ys = ys' := by
  induction xs generalizing xs' with
  | nil =>
    cases xs' with
    | nil => exact ⟨rfl,(List.cons.inj same).2⟩
    | cons x' xs' => exact absurd ((List.cons.inj same).1 ▸ List.mem_cons_self) right
  | cons x xs ih =>
    cases xs' with
    | nil => exact absurd ((List.cons.inj same).1 ▸ List.mem_cons_self) left
    | cons x' xs' =>
      obtain ⟨rfl,tails⟩ := List.cons.inj same
      obtain ⟨rfl,rest⟩ := ih (fun mem => left (List.mem_cons_of_mem _ mem))
        (fun mem => right (List.mem_cons_of_mem _ mem)) tails
      exact ⟨rfl,rest⟩

section
variable {K : TextKeys} {docs : List (SeedDocument K)}

theorem targetParts {e f : SeedEntry K} (same : e.target = f.target) :
    e.document.manufacturerKey = f.document.manufacturerKey ∧ e.model.modelNumber = f.model.modelNumber := by
  have texts := congrArg String.toList same
  simp only [SeedEntry.target,String.toList_append,List.append_assoc] at texts
  obtain ⟨keys,numbers⟩ := splitAtSeparator (shapedNoSlash e.document.keyShaped)
    (shapedNoSlash f.document.keyShaped) texts
  exact ⟨String.toList_inj.mp keys,String.toList_inj.mp numbers⟩

theorem dedupOne {α : Type} [DecidableEq α] {xs : List α} :
    ¬ 1 < xs.dedup.length ↔ ∀ x ∈ xs, ∀ y ∈ xs, x = y := by
  constructor
  · intro short x memX y memY
    rw [← List.mem_dedup] at memX memY
    generalize xs.dedup = ds at short memX memY
    match ds with
    | [] => contradiction
    | [d] => exact (List.mem_singleton.mp memX).trans (List.mem_singleton.mp memY).symm
    | _::_::_ => exact absurd (by simp) short
  · intro one long
    have distinct := xs.nodup_dedup
    have held : ∀ d ∈ xs.dedup, d ∈ xs := fun d => List.mem_dedup.mp
    generalize xs.dedup = ds at long distinct held
    match ds with
    | d::e::rest =>
      have same := one d (held d (by simp)) e (held e (by simp))
      simp [same] at distinct

theorem noConflicts : detectConflicts docs = [] ↔
    ∀ e ∈ seedEntries docs, ∀ f ∈ seedEntries docs, e.normalized = f.normalized → e.target = f.target := by
  simp only [detectConflicts,List.filterMap_eq_nil_iff,List.mem_insertionSort,List.mem_dedup,List.mem_map,
    List.length_insertionSort,ite_eq_right_iff,reduceCtorEq,imp_false,dedupOne]
  constructor
  · intro keys e memE f memF same
    refine keys e.normalized ⟨e,memE,rfl⟩ e.target ⟨e,?_,rfl⟩ f.target ⟨f,?_,rfl⟩
    · simpa using memE
    · simpa [same] using memF
  · rintro all key ⟨g,-,rfl⟩ x ⟨e,memE,rfl⟩ y ⟨f,memF,rfl⟩
    simp only [List.mem_filter,decide_eq_true_eq] at memE memF
    exact all e memE.1 f memF.1 (memE.2.trans memF.2.symm)

end
end HwRadar.Refdata
