import HwRadar.Eligibility.Refinement

/-! What a match verdict guarantees of the catalog, the title and the price. -/
namespace HwRadar.Eligibility
open HwRadar.Base.Decimal
open HwRadar.Matching (Edge Grain)

def denoted (c : SpecCatalog) (e : Edge) : List Nat :=
  if e.target.grain = .family then (e.target.productFamily.map c.familyModels).getD [] else (edgeModel c e).toList

def Stated {σ α : Type} (row : Option σ) (value : σ → Option α) (ok : α → Prop) : Prop :=
  ∃ s, row = some s ∧ ∃ v, value s = some v ∧ ok v

structure DriveMeets (F : TextFolding) (req : DriveRequirement) (row : Option DriveSpec) : Prop where
  capacity : ∀ b, req.minCapacityTb = some b → Stated row DriveSpec.capacityTb (b ≤ ·)
  media : req.mediaTypes ≠ [] → Stated row (fun s => known (some s.mediaType)) (· ∈ req.mediaTypes)
  interface : req.interfaces ≠ [] → Stated row (fun s => token F s.interface driveInterfaceTokens) (· ∈ req.interfaces)
  form : req.formFactors ≠ [] → Stated row (fun s => token F s.formFactor driveFormFactorTokens) (· ∈ req.formFactors)
  recording : req.recordingTechs ≠ [] → Stated row (fun s => known s.recordingTech) (· ∈ req.recordingTechs)

structure GpuMeets (req : GpuRequirement) (row : Option GpuSpec) : Prop where
  vram : ∀ b, req.minVramGb = some b → Stated row GpuSpec.vramGb (b ≤ ·)
  vendor : req.chipVendors ≠ [] → Stated row (fun s => known (some s.chipVendor)) (· ∈ req.chipVendors)
  interface : req.interfaces ≠ [] → Stated row (fun s => known (some s.interface)) (· ∈ req.interfaces)
  cooling : req.coolings ≠ [] → Stated row (fun s => known (some s.cooling)) (· ∈ req.coolings)
  power : ∀ b, req.maxTdpW = some b → Stated row GpuSpec.tdpW (· ≤ b)

structure RamMeets (req : RamRequirement) (row : Option RamSpec) : Prop where
  generation : req.generations ≠ [] → Stated row (fun s => known (some s.generation)) (· ∈ req.generations)
  module : req.moduleTypes ≠ [] → Stated row (fun s => known (some s.moduleType)) (· ∈ req.moduleTypes)
  ecc : ∀ b, req.requireEcc = some b → Stated row RamSpec.ecc (· = b)
  total : ∀ b, req.minTotalCapacityGb = some b → Stated row ramTotal (b ≤ ·)
  speed : ∀ b, req.minSpeedMts = some b → Stated row RamSpec.speedMts (b ≤ ·)

structure CpuMeets (F : TextFolding) (req : CpuRequirement) (row : Option CpuSpec) : Prop where
  socket : req.sockets ≠ [] → Stated row (socketOf F) (· ∈ req.sockets)
  cores : ∀ b, req.minCores = some b → Stated row CpuSpec.cores (b ≤ ·)
  power : ∀ b, req.maxTdpW = some b → Stated row CpuSpec.tdpW (· ≤ b)

def Meets (F : TextFolding) (c : SpecCatalog) (model : Nat) : Requirement → Prop
  | .drive req => DriveMeets F req (c.driveSpecs model)
  | .gpu req => GpuMeets req (c.gpuSpecs model)
  | .ram req => RamMeets req (c.ramSpecs model)
  | .cpu req => CpuMeets F req (c.cpuSpecs model)

def Requirement.constrains : Requirement → Bool
  | .drive r => r.minCapacityTb.isSome || !r.mediaTypes.isEmpty || !r.interfaces.isEmpty || !r.formFactors.isEmpty ||
      !r.recordingTechs.isEmpty
  | .gpu r => r.minVramGb.isSome || !r.chipVendors.isEmpty || !r.interfaces.isEmpty || !r.coolings.isEmpty ||
      r.maxTdpW.isSome
  | .ram r => !r.generations.isEmpty || !r.moduleTypes.isEmpty || r.requireEcc.isSome || r.minTotalCapacityGb.isSome ||
      r.minSpeedMts.isSome
  | .cpu r => !r.sockets.isEmpty || r.minCores.isSome || r.maxTdpW.isSome

section
variable (policy : CategoryPolicy)

def Undenied {α : Type} (listing : Option (Attribute α)) (ok : α → Prop) : Prop :=
  ∀ a, listing = some a → policy.trusts a = true → ok a.value

structure DriveTitle (e : ExtractedAttributes) (req : DriveRequirement) : Prop where
  capacity : ∀ b, req.minCapacityTb = some b → Undenied policy (e.capacityBytes.map terabytes) (b ≤ ·)
  interface : req.interfaces ≠ [] → Undenied policy e.interface (· ∈ req.interfaces)
  form : req.formFactors ≠ [] → Undenied policy e.formFactor (· ∈ req.formFactors)
  recording : req.recordingTechs ≠ [] → Undenied policy e.recordingTech (recordingTitleOk req.recordingTechs · = true)

structure GpuTitle (a : GpuAttributes) (req : GpuRequirement) : Prop where
  vram : ∀ b, req.minVramGb = some b → Undenied policy a.vramGb (b ≤ ·)
  vendor : req.chipVendors ≠ [] → Undenied policy a.chipVendor (· ∈ req.chipVendors)
  interface : req.interfaces ≠ [] → Undenied policy a.interface (· ∈ req.interfaces)
  cooling : req.coolings ≠ [] → Undenied policy a.cooling (· ∈ req.coolings)

structure RamTitle (a : RamAttributes) (req : RamRequirement) : Prop where
  generation : req.generations ≠ [] → Undenied policy a.generation (· ∈ req.generations)
  module : req.moduleTypes ≠ [] → Undenied policy a.moduleType (· ∈ req.moduleTypes)
  ecc : ∀ b, req.requireEcc = some b → Undenied policy a.ecc (· = b)
  total : ∀ b, req.minTotalCapacityGb = some b → Undenied policy (kitTotal a) (b ≤ ·)
  speed : ∀ b, req.minSpeedMts = some b → Undenied policy a.speedMts (b ≤ ·)

structure CpuTitle (a : CpuAttributes) (req : CpuRequirement) : Prop where
  socket : req.sockets ≠ [] → Undenied policy a.socket (· ∈ req.sockets)
  cores : ∀ b, req.minCores = some b → Undenied policy a.cores (b ≤ ·)
  power : ∀ b, req.maxTdpW = some b → Undenied policy a.tdpW (· ≤ b)
  unlocked : req.requireVendorUnlocked = true →
    ∃ lock, a.vendorLock = some lock ∧ policy.trusts lock = true ∧ lock.value = vendorUnlocked

def TitleAllows (e : ExtractedAttributes) : Requirement → Prop
  | .drive req => DriveTitle policy e req
  | .gpu req => GpuTitle policy e.gpu req
  | .ram req => RamTitle policy e.ram req
  | .cpu req => CpuTitle policy e.cpu req

end

section
variable {inputs : CatalogInputs} {e : ExtractedAttributes} {policy : CategoryPolicy} {source : Datum}

theorem attributeMatched {α : Type} {datum : α → Datum} {clause : String} {required : Datum} {ok : α → Bool}
    {catalog : CatalogField α} {listing : Option (Attribute α)} {titleCheck : Option (α → Bool)}
    (conflict : policy.onTierConflict = .noMatch)
    (matched : (attributeClause datum clause required (some ok) catalog listing policy source titleCheck).outcome =
      .matched) :
    (∃ v, catalog.value = some v ∧ ok v = true) ∧ Undenied policy listing (titleCheck.getD ok · = true) := by
  simp only [attributeClause] at matched
  cases contradicts : listing.any fun a => policy.trusts a && !titleCheck.getD ok a.value with
  | true =>
    rw [contradicts] at matched
    cases known : catalog.value with
    | none => rw [known] at matched; contradiction
    | some v => cases meets : ok v <;> simp [known,productOutcome,meets,conflict] at matched
  | false =>
    rw [contradicts] at matched
    cases known : catalog.value with
    | none => rw [known] at matched; contradiction
    | some v =>
      cases meets : ok v with
      | false => simp [known,productOutcome,meets] at matched
      | true =>
        refine ⟨⟨v,rfl,meets⟩,fun a is trusted => ?_⟩
        rw [is] at contradicts
        simpa [trusted] using contradicts

theorem Stated.imp {σ α : Type} {row : Option σ} {value : σ → Option α} {P Q : α → Prop} (stated : Stated row value P)
    (weaker : ∀ v, P v → Q v) : Stated row value Q := by
  obtain ⟨s,is,v,states,ok⟩ := stated
  exact ⟨s,is,v,states,weaker v ok⟩

theorem Undenied.imp {α : Type} {listing : Option (Attribute α)} {P Q : α → Prop} (undenied : Undenied policy listing P)
    (weaker : ∀ v, P v → Q v) : Undenied policy listing Q := fun a is trusted => weaker _ (undenied a is trusted)

variable {F : TextFolding} {c : SpecCatalog} {category : String} {models : List Nat}

theorem clauseStated {σ α : Type} {table : Nat → Option σ} {values : σ → Values} {cast : Scalar → Option α}
    {datum : α → Datum} {clause field : String} {required : Datum} {ok : α → Bool} {listing : Option (Attribute α)}
    {titleCheck : Option (α → Bool)} (conflict : policy.onTierConflict = .noMatch)
    (rows : inputs.members = models.map (c.member F category))
    (stored : ∀ model, c.valuesOf F category model = (table model).map values)
    (value : σ → Option α) (wrap : α → Scalar) (look : ∀ s, ((values s).lookup field).join = (value s).map wrap)
    (unwrap : ∀ v, cast (wrap v) = some v)
    (matched : (attributeClause datum clause required (some ok) ((inputs.get field).typed cast) listing policy source
      titleCheck).outcome = .matched) :
    (∀ model ∈ models, Stated (table model) value (ok · = true)) ∧
    Undenied policy listing (titleCheck.getD ok · = true) := by
  obtain ⟨⟨v,known,meets⟩,title⟩ := attributeMatched conflict matched
  refine ⟨fun model mem => ?_,title⟩
  obtain ⟨scalar,got,casts⟩ := Option.bind_eq_some_iff.mp known
  obtain ⟨_,_,every⟩ := getEvery got
  obtain ⟨stored',is,stated⟩ := every (c.member F category model) (rows ▸ List.mem_map_of_mem mem)
  obtain ⟨s,row,rfl⟩ := Option.map_eq_some_iff.mp ((stored model).symm.trans is)
  rw [look] at stated
  obtain ⟨w,states,wrapped⟩ := Option.map_eq_some_iff.mp stated
  rw [← wrapped,unwrap] at casts
  exact ⟨s,row,w,states,Option.some.inj casts ▸ meets⟩

theorem oneOfSome {allowed : List String} (constrained : allowed ≠ []) : oneOf allowed = some allowed.contains := by
  simp [oneOf,constrained]

theorem textStated {σ : Type} {table : Nat → Option σ} {values : σ → Values} {clause field : String}
    {allowed : List String} {listing : Option (Attribute String)} (conflict : policy.onTierConflict = .noMatch)
    (rows : inputs.members = models.map (c.member F category))
    (stored : ∀ model, c.valuesOf F category model = (table model).map values)
    (value : σ → Option String) (look : ∀ s, ((values s).lookup field).join = (value s).map .text)
    (matched : (textClause inputs policy source clause field allowed listing).outcome = .matched)
    (constrained : allowed ≠ []) :
    (∀ model ∈ models, Stated (table model) value (· ∈ allowed)) ∧ Undenied policy listing (· ∈ allowed) := by
  rw [textClause,oneOfSome constrained] at matched
  obtain ⟨stated,title⟩ := clauseStated conflict rows stored value .text look (fun _ => rfl) matched
  exact ⟨fun model mem => (stated model mem).imp fun v ok => by simpa using ok,title.imp fun v ok => by simpa using ok⟩

theorem boundStated {σ : Type} {table : Nat → Option σ} {values : σ → Values} {clause field : String} {required : Datum}
    {check : Option Int → Option (Int → Bool)} {P : Int → Int → Prop} {bound : Option Int} {b : Int}
    {listing : Option (Attribute Int)} (checks : ∀ b, ∃ ok, check (some b) = some ok ∧ ∀ v, ok v = true → P b v)
    (conflict : policy.onTierConflict = .noMatch) (rows : inputs.members = models.map (c.member F category))
    (stored : ∀ model, c.valuesOf F category model = (table model).map values)
    (value : σ → Option Int) (look : ∀ s, ((values s).lookup field).join = (value s).map .int)
    (matched : (attributeClause intDatum clause required (check bound) ((inputs.get field).typed Scalar.asInt)
      listing policy
      source).outcome = .matched) (is : bound = some b) :
    (∀ model ∈ models, Stated (table model) value (P b)) ∧ Undenied policy listing (P b) := by
  obtain ⟨ok,read,sound⟩ := checks b
  rw [is,read] at matched
  obtain ⟨stated,title⟩ := clauseStated conflict rows stored value .int look (fun _ => rfl) matched
  exact ⟨fun model mem => (stated model mem).imp sound,title.imp sound⟩

theorem leastChecks (b : Int) : ∃ ok, atLeast (some b) = some ok ∧ ∀ v, ok v = true → b ≤ v :=
  ⟨_,rfl,fun _ => of_decide_eq_true⟩

theorem mostChecks (b : Int) : ∃ ok, atMost (some b) = some ok ∧ ∀ v, ok v = true → v ≤ b :=
  ⟨_,rfl,fun _ => of_decide_eq_true⟩

theorem driveMatched {req : DriveRequirement} (conflict : policy.onTierConflict = .noMatch)
    (rows : inputs.members = models.map (c.member F "drive"))
    (matched : ∀ r ∈ driveClauses inputs e policy source req, r.outcome = .matched) :
    (∀ model ∈ models, DriveMeets F req (c.driveSpecs model)) ∧ DriveTitle policy e req := by
  simp only [driveClauses,List.forall_mem_cons] at matched
  obtain ⟨capacity,media,interface,form,recording,_⟩ := matched
  have stored : ∀ model, c.valuesOf F "drive" model = (c.driveSpecs model).map (driveValues F) := fun _ => rfl
  have mediaMet := textStated conflict rows stored (fun s => known (some s.mediaType)) (fun _ => rfl) media
  have interfaceMet := textStated conflict rows stored (fun s => token F s.interface driveInterfaceTokens)
    (fun _ => rfl)
    interface
  have formMet := textStated conflict rows stored (fun s => token F s.formFactor driveFormFactorTokens)
    (fun _ => rfl) form
  have capacityMet : ∀ b, req.minCapacityTb = some b →
      (∀ model ∈ models, Stated (c.driveSpecs model) DriveSpec.capacityTb (b ≤ ·)) ∧
        Undenied policy (e.capacityBytes.map terabytes) (b ≤ ·) := by
    intro b is
    rw [is] at capacity
    obtain ⟨stated,title⟩ := clauseStated conflict rows stored DriveSpec.capacityTb .decimal (fun _ => rfl)
      (fun _ => rfl)
      capacity
    exact ⟨fun model mem => (stated model mem).imp fun v ok => by
      simpa using ok,title.imp fun v ok => by simpa using ok⟩
  have recordingMet : req.recordingTechs ≠ [] →
      (∀ model ∈ models, Stated (c.driveSpecs model) (fun s => known s.recordingTech) (· ∈ req.recordingTechs)) ∧
        Undenied policy e.recordingTech (recordingTitleOk req.recordingTechs · = true) := by
    intro constrained
    rw [oneOfSome constrained] at recording
    obtain ⟨stated,title⟩ := clauseStated conflict rows stored (fun s => known s.recordingTech) .text (fun _ => rfl)
      (fun _ => rfl) recording
    exact ⟨fun model mem => (stated model mem).imp fun v ok => by simpa using ok,title⟩
  exact ⟨fun model mem => ⟨fun b is => (capacityMet b is).1 model mem,fun some_ => (mediaMet some_).1 model mem,
      fun some_ => (interfaceMet some_).1 model mem,fun some_ => (formMet some_).1 model mem,
      fun some_ => (recordingMet some_).1 model mem⟩,
    ⟨fun b is => (capacityMet b is).2,fun some_ => (interfaceMet some_).2,fun some_ => (formMet some_).2,
      fun some_ => (recordingMet some_).2⟩⟩

theorem gpuMatched {req : GpuRequirement} (conflict : policy.onTierConflict = .noMatch)
    (rows : inputs.members = models.map (c.member F "gpu"))
    (matched : ∀ r ∈ gpuClauses inputs e policy source req, r.outcome = .matched) :
    (∀ model ∈ models, GpuMeets req (c.gpuSpecs model)) ∧ GpuTitle policy e.gpu req := by
  simp only [gpuClauses,List.forall_mem_cons] at matched
  obtain ⟨vram,vendor,interface,cooling,power,_⟩ := matched
  have stored : ∀ model, c.valuesOf F "gpu" model = (c.gpuSpecs model).map gpuValues := fun _ => rfl
  have vramMet := fun b => boundStated (b := b) leastChecks conflict rows stored GpuSpec.vramGb (fun _ => rfl) vram
  have vendorMet := textStated conflict rows stored (fun s => known (some s.chipVendor)) (fun _ => rfl) vendor
  have interfaceMet := textStated conflict rows stored (fun s => known (some s.interface)) (fun _ => rfl) interface
  have coolingMet := textStated conflict rows stored (fun s => known (some s.cooling)) (fun _ => rfl) cooling
  have powerMet := fun b => boundStated (b := b) mostChecks conflict rows stored GpuSpec.tdpW (fun _ => rfl) power
  exact ⟨fun model mem => ⟨fun b is => (vramMet b is).1 model mem,fun some_ => (vendorMet some_).1 model mem,
      fun some_ => (interfaceMet some_).1 model mem,fun some_ => (coolingMet some_).1 model mem,
      fun b is => (powerMet b is).1 model mem⟩,
    ⟨fun b is => (vramMet b is).2,fun some_ => (vendorMet some_).2,fun some_ => (interfaceMet some_).2,
      fun some_ => (coolingMet some_).2⟩⟩

theorem ramMatched {req : RamRequirement} (conflict : policy.onTierConflict = .noMatch)
    (rows : inputs.members = models.map (c.member F "ram"))
    (matched : ∀ r ∈ ramClauses inputs e policy source req, r.outcome = .matched) :
    (∀ model ∈ models, RamMeets req (c.ramSpecs model)) ∧ RamTitle policy e.ram req := by
  simp only [ramClauses,List.forall_mem_cons] at matched
  obtain ⟨generation,module,ecc,total,speed,_⟩ := matched
  have stored : ∀ model, c.valuesOf F "ram" model = (c.ramSpecs model).map ramValues := fun _ => rfl
  have generationMet := textStated conflict rows stored (fun s => known (some s.generation)) (fun _ => rfl) generation
  have moduleMet := textStated conflict rows stored (fun s => known (some s.moduleType)) (fun _ => rfl) module
  have eccMet : ∀ b, req.requireEcc = some b →
      (∀ model ∈ models, Stated (c.ramSpecs model) RamSpec.ecc (· = b)) ∧ Undenied policy e.ram.ecc (· = b) := by
    intro b is
    rw [is] at ecc
    obtain ⟨stated,title⟩ := clauseStated conflict rows stored RamSpec.ecc .bool (fun _ => rfl) (fun _ => rfl) ecc
    exact ⟨fun model mem => (stated model mem).imp fun v ok => by
      simpa using ok,title.imp fun v ok => by simpa using ok⟩
  have totalMet := fun b => boundStated (b := b) leastChecks conflict rows stored ramTotal (fun _ => rfl) total
  have speedMet := fun b => boundStated (b := b) leastChecks conflict rows stored RamSpec.speedMts (fun _ => rfl) speed
  exact ⟨fun model mem => ⟨fun some_ => (generationMet some_).1 model mem,fun some_ => (moduleMet some_).1 model mem,
      fun b is => (eccMet b is).1 model mem,fun b is => (totalMet b is).1 model mem,
      fun b is => (speedMet b is).1 model mem⟩,
    ⟨fun some_ => (generationMet some_).2,fun some_ => (moduleMet some_).2,fun b is => (eccMet b is).2,
      fun b is => (totalMet b is).2,fun b is => (speedMet b is).2⟩⟩

theorem unlockMatched {lock : Option (Attribute String)}
    (matched : (vendorLockClause policy source true lock).outcome = .matched) :
    ∃ a, lock = some a ∧ policy.trusts a = true ∧ a.value = vendorUnlocked := by
  simp only [vendorLockClause,Bool.not_true,Bool.false_eq_true,if_false] at matched
  split at matched
  · cases matched
  · rename_i a is
    obtain ⟨is,trusted⟩ := Option.filter_eq_some_iff.mp is
    refine ⟨a,is,trusted,?_⟩
    split at matched
    · assumption
    · split at matched <;> contradiction

theorem cpuMatched {req : CpuRequirement} (conflict : policy.onTierConflict = .noMatch)
    (rows : inputs.members = models.map (c.member F "cpu"))
    (matched : ∀ r ∈ cpuClauses inputs e policy source req, r.outcome = .matched) :
    (∀ model ∈ models, CpuMeets F req (c.cpuSpecs model)) ∧ CpuTitle policy e.cpu req := by
  simp only [cpuClauses,List.forall_mem_cons] at matched
  obtain ⟨socket,cores,power,unlocked,_⟩ := matched
  have stored : ∀ model, c.valuesOf F "cpu" model = (c.cpuSpecs model).map (cpuValues F) := fun _ => rfl
  have socketMet := textStated conflict rows stored (socketOf F) (fun _ => rfl) socket
  have coresMet := fun b => boundStated (b := b) leastChecks conflict rows stored CpuSpec.cores (fun _ => rfl) cores
  have powerMet := fun b => boundStated (b := b) mostChecks conflict rows stored CpuSpec.tdpW (fun _ => rfl) power
  exact ⟨fun model mem => ⟨fun some_ => (socketMet some_).1 model mem,fun b is => (coresMet b is).1 model mem,
      fun b is => (powerMet b is).1 model mem⟩,
    ⟨fun some_ => (socketMet some_).2,fun b is => (coresMet b is).2,fun b is => (powerMet b is).2,
      fun required => unlockMatched (required ▸ unlocked)⟩⟩

theorem unconstrained {α : Type} {datum : α → Datum} {clause field : String} {required : Datum}
    {satisfies : Option (α → Bool)} {cast : Scalar → Option α} {listing : Option (Attribute α)}
    {titleCheck : Option (α → Bool)} (conflict : policy.onTierConflict = .noMatch)
    (unread : ¬ (inputs.grain ≠ .none ∧ inputs.members ≠ []))
    (matched : (attributeClause datum clause required satisfies ((inputs.get field).typed cast) listing policy source
      titleCheck).outcome = .matched) : satisfies = none := by
  cases satisfies with
  | none => rfl
  | some ok =>
    obtain ⟨⟨v,known,_⟩,_⟩ := attributeMatched conflict matched
    obtain ⟨scalar,got,_⟩ := Option.bind_eq_some_iff.mp known
    obtain ⟨accepted,some_,_⟩ := getEvery got
    exact absurd ⟨accepted,some_⟩ unread

theorem constrainedRead {req : Requirement} (conflict : policy.onTierConflict = .noMatch)
    (constrains : req.constrains = true)
    (matched : ∀ r ∈ productClauses inputs e policy source (some req) req.category, r.outcome = .matched) :
    inputs.grain ≠ .none ∧ inputs.members ≠ [] := by
  by_contra unread
  have free := @unconstrained inputs policy source
  have anything : ∀ {allowed : List String}, oneOf allowed = none → allowed = [] := fun is => by simpa [oneOf] using is
  cases req with
  | drive req =>
    change ∀ r ∈ driveClauses inputs e policy source req, r.outcome = .matched at matched
    simp only [driveClauses,List.forall_mem_cons] at matched
    obtain ⟨capacity,media,interface,form,recording,_⟩ := matched
    have capacity := free conflict unread capacity
    simp only [atLeast,Option.map_eq_none_iff] at capacity
    simp [Requirement.constrains,capacity,anything (free conflict unread media),
      anything (free conflict unread interface),
      anything (free conflict unread form),anything (free conflict unread recording)] at constrains
  | gpu req =>
    change ∀ r ∈ gpuClauses inputs e policy source req, r.outcome = .matched at matched
    simp only [gpuClauses,List.forall_mem_cons] at matched
    obtain ⟨vram,vendor,interface,cooling,power,_⟩ := matched
    have vram := free conflict unread vram
    have power := free conflict unread power
    simp only [atLeast,atMost,Option.map_eq_none_iff] at vram power
    simp [Requirement.constrains,vram,power,anything (free conflict unread vendor),
      anything (free conflict unread interface),anything (free conflict unread cooling)] at constrains
  | ram req =>
    change ∀ r ∈ ramClauses inputs e policy source req, r.outcome = .matched at matched
    simp only [ramClauses,List.forall_mem_cons] at matched
    obtain ⟨generation,module,ecc,total,speed,_⟩ := matched
    have ecc := free conflict unread ecc
    have total := free conflict unread total
    have speed := free conflict unread speed
    simp only [atLeast,equals,Option.map_eq_none_iff] at ecc total speed
    simp [Requirement.constrains,ecc,total,speed,anything (free conflict unread generation),
      anything (free conflict unread module)] at constrains
  | cpu req =>
    change ∀ r ∈ cpuClauses inputs e policy source req, r.outcome = .matched at matched
    simp only [cpuClauses,List.forall_mem_cons] at matched
    obtain ⟨socket,cores,power,_⟩ := matched
    have cores := free conflict unread cores
    have power := free conflict unread power
    simp only [atLeast,atMost,Option.map_eq_none_iff] at cores power
    simp [Requirement.constrains,cores,power,anything (free conflict unread socket)] at constrains

theorem productMatched {req : Requirement} (conflict : policy.onTierConflict = .noMatch)
    (rows : inputs.members = models.map (c.member F req.category))
    (matched : ∀ r ∈ productClauses inputs e policy source (some req) req.category, r.outcome = .matched) :
    (∀ model ∈ models, Meets F c model req) ∧ TitleAllows policy e req := by
  cases req with
  | drive req => exact driveMatched conflict rows matched
  | gpu req => exact gpuMatched conflict rows matched
  | ram req => exact ramMatched conflict rows matched
  | cpu req => exact cpuMatched conflict rows matched

theorem targetRead {targetFamily targetModel : Option Nat} (targets : targetFamily ≠ none ∨ targetModel ≠ none)
    (matched : ∀ r ∈ (targetClause inputs source targetFamily targetModel).toList, r.outcome = .matched) :
    inputs.grain ≠ .none := by
  intro none
  have constrained : (targetFamily = .none && targetModel = .none) = false := by
    rcases targets with family | model
    · simp [family]
    · simp [model]
  simp [targetClause,constrained,none,targetResult] at matched

theorem gatheredRows {edge : Option Edge} (got : gather F c category edge = some inputs) :
    inputs.category = category ∧ ∃ models, inputs.members = models.map (c.member F category) ∧
      (inputs.grain ≠ .none → ∃ e, edge = some e ∧ e.target.grain ≠ .none ∧ models = denoted c e) := by
  cases kept : edge.filter fun e => e.target.grain ≠ .none with
  | none =>
    rw [gather,kept] at got
    cases Option.some.inj got
    exact ⟨rfl,[],rfl,fun accepted => absurd rfl accepted⟩
  | some e =>
    rw [gather,kept] at got
    obtain ⟨is,accepted⟩ := Option.filter_eq_some_iff.mp kept
    have accepted : e.target.grain ≠ .none := by simpa using accepted
    dsimp only at got
    split at got
    · rename_i grain
      obtain ⟨family,of,rfl⟩ := Option.map_eq_some_iff.mp got
      exact ⟨rfl,c.familyModels family,rfl,fun _ => ⟨e,is,accepted,by simp [denoted,grain,of]⟩⟩
    · rename_i grain
      obtain ⟨model,of,rfl⟩ := Option.map_eq_some_iff.mp got
      exact ⟨rfl,[model],rfl,fun _ => ⟨e,is,accepted,by simp [denoted,grain,of]⟩⟩

end

theorem conditionMatched {allowed : List String} {facts : OfferFacts} (asked : allowed ≠ [])
    (matched : (conditionClause allowed facts).outcome = .matched) :
    ∃ a, facts.condition = some a ∧ a.value ∈ allowed := by
  simp only [conditionClause,List.isEmpty_eq_false_iff.mpr asked,Bool.false_eq_true,if_false] at matched
  split at matched
  · cases matched
  · rename_i a is
    obtain ⟨is,_⟩ := Option.filter_eq_some_iff.mp is
    split at matched
    · rename_i mem
      exact ⟨a,is,by simpa using mem⟩
    · cases matched

theorem divisorPositive (facts : OfferFacts) (policy : CategoryPolicy) : 0 < facts.divisor policy := by
  rw [OfferFacts.divisor]
  cases is : (facts.trustedQuantity policy).filter (0 < ·) with
  | none => simp
  | some n =>
    obtain ⟨_,positive⟩ := Option.filter_eq_some_iff.mp is
    simpa using positive

theorem centsBound (o : Offer) (rate : Fixed 12 6) : |halfEven (o.stated * rate.value * 10 ^ 2)| < 2 * 10 ^ 27 := by
  -- a price column has ten digits, two of them cents
  have component : ∀ f : Option (Fixed 10 2), |(f.toList.map Fixed.value).sum| ≤ 10 ^ 8 := by
    intro f
    cases f with
    | none => norm_num
    | some f =>
      have bound := f.bound
      norm_num at bound ⊢
      exact bound
  have stated : |o.stated| ≤ 3 * 10 ^ 8 := by
    have item := o.itemPrice.bound
    have shipping := component o.shippingPrice
    have tax := component o.taxPrice
    rw [Offer.stated,List.map_append,List.sum_append]
    norm_num at item shipping tax ⊢
    have outer := abs_add_le o.itemPrice.value ((o.shippingPrice.toList.map Fixed.value).sum +
      (o.taxPrice.toList.map Fixed.value).sum)
    have inner := abs_add_le (o.shippingPrice.toList.map Fixed.value).sum (o.taxPrice.toList.map Fixed.value).sum
    linarith
  have rated : |rate.value| ≤ 10 ^ 6 := by
    have bound := rate.bound
    norm_num at bound ⊢
    exact bound
  have product : |o.stated * rate.value * 10 ^ 2| ≤ 3 * 10 ^ 8 * 10 ^ 6 * 10 ^ 2 := by
    rw [abs_mul,abs_mul,abs_of_pos (by norm_num : (0 : ℚ) < 10 ^ 2)]
    gcongr
  have rounded := halfEvenBound (o.stated * rate.value * 10 ^ 2)
  have cents : |(halfEven (o.stated * rate.value * 10 ^ 2) : ℚ)| < 2 * 10 ^ 27 := by
    norm_num at product rounded ⊢
    linarith
  exact_mod_cast cents

theorem priceMatched {bound : Fixed 12 2} {facts : OfferFacts} {policy : CategoryPolicy}
    {offer : Option Offer} (price : facts.priceUsd = offer.bind Offer.priceUsd)
    (shipping : facts.shippingKnown = offer.any fun o => o.shippingPrice.isSome)
    (matched : (priceClause (some bound) facts policy).outcome = .matched) :
    ∃ o ship rate, offer = some o ∧ o.shippingPrice = some ship ∧ o.fxRate = some rate ∧
      quantize 2 (o.stated * rate.value) ≤ bound.value * facts.divisor policy := by
  simp only [priceClause] at matched
  split at matched
  · contradiction
  · cases matched
  rename_i b usd same priced
  cases Option.some.inj same
  rw [price] at priced
  obtain ⟨o,is,converted⟩ := Option.bind_eq_some_iff.mp priced
  obtain ⟨rate,stamped,rfl⟩ := Option.map_eq_some_iff.mp converted
  split at matched
  · rename_i within
    split at matched
    · rename_i known
      rw [shipping,is,Option.any_some] at known
      obtain ⟨ship,stated⟩ := Option.isSome_iff_exists.mp known
      refine ⟨o,ship,rate,is,stated,stamped,?_⟩
      have cents : halfEven (o.stated * rate.value * 10 ^ 2) ≤ bound.units * facts.divisor policy := by
        refine @quotientWithin _ _ _ (1 / 10 ^ 2) (by norm_num) (divisorPositive facts policy) (centsBound o rate) ?_
        simpa only [quantize,Fixed.value,mul_one_div] using within
      have scaled : bound.value * facts.divisor policy = (bound.units * facts.divisor policy : ℚ) / 10 ^ 2 := by
        rw [Fixed.value,div_mul_eq_mul_div]
      rw [quantize,scaled]
      exact div_le_div_of_nonneg_right (by exact_mod_cast cents) (by norm_num)
    · contradiction
  · split at matched <;> contradiction

structure Sound (R : Reader) (c : SpecCatalog) (l : ListingText) (offer : Option Offer) (edge : Option (Nat × Edge))
    (w : Watch) (req : Requirement) : Prop where
  product : req.constrains = true → ∃ pk e, edge = some (pk,e) ∧ e.target.grain ≠ .none ∧ denoted c e ≠ [] ∧
    ∀ model ∈ denoted c e, Meets R.toTextFolding c model req
  target : w.targetFamily ≠ none ∨ w.targetModel ≠ none → ∃ pk e, edge = some (pk,e) ∧ e.target.grain ≠ .none
  title : TitleAllows (policyFor w.category) (listingAttributes R w.category (l.canonical R) l.sourceSite) req
  condition : w.allowedConditions ≠ [] → ∃ a,
    (listingAttributes R w.category (l.canonical R) l.sourceSite).condition = some a ∧ a.value ∈ w.allowedConditions
  price : ∀ bound, w.maxUnitPriceUsd = some bound → ∃ o ship rate, offer = some o ∧ o.shippingPrice = some ship ∧
    o.fxRate = some rate ∧ quantize 2 (o.stated * rate.value) ≤
      bound.value * (offerFacts R l offer w.category).divisor (policyFor w.category)

theorem matchSound {R : Reader} {fingerprint : CatalogInputs → String} {c : SpecCatalog} {l : ListingText}
    {offer : Option Offer} {edge : Option (Nat × Edge)} {w : Watch} {req : Requirement} {ev : Evaluation}
    (saved : req.category = w.category) (got : evaluate R fingerprint c l offer edge w (some req) = some ev)
    (matched : ev.verdict = .matched) : Sound R c l offer edge w req := by
  obtain ⟨category,_,got⟩ := Option.bind_eq_some_iff.mp got
  obtain ⟨inputs,gathered,got⟩ := Option.bind_eq_some_iff.mp got
  dsimp only at got
  split at got <;> try contradiction
  rename_i evaluated
  obtain ⟨verdict,aggregated,same⟩ := Option.bind_eq_some_iff.mp got
  obtain rfl : w.category = category := by simpa using (Bool.and_eq_true_iff.mp evaluated).2
  cases Option.some.inj same
  obtain ⟨place,models,rows,accepted⟩ := gatheredRows gathered
  have kept : (some req).filter (fun r => decide (r.category = w.category)) = some req := by simp [Option.filter,saved]
  subst matched
  obtain ⟨_,every⟩ := aggregateMatched.mp aggregated
  rw [kept] at every
  simp only [watchClauses,place,List.mem_append] at every
  have conflict := policyConflict w.category
  have found : inputs.grain ≠ .none →
      ∃ pk e, edge = some (pk,e) ∧ e.target.grain ≠ .none ∧ models = denoted c e := by
    intro grain
    obtain ⟨e,is,some_,same⟩ := accepted grain
    obtain ⟨⟨pk,_⟩,rfl,rfl⟩ := Option.map_eq_some_iff.mp is
    exact ⟨pk,_,rfl,some_,same⟩
  have product := fun r mem => every r (.inl (.inr mem))
  have offers := fun r mem => every r (.inr mem)
  simp only [offerClauses,List.forall_mem_cons] at offers
  obtain ⟨priced,conditioned,_⟩ := offers
  rw [← saved] at product rows
  obtain ⟨meets,title⟩ := productMatched (saved ▸ conflict) rows product
  refine ⟨fun constrains => ?_,fun targets => ?_,saved ▸ title,fun asked => conditionMatched asked conditioned,
    fun bound is => ?_⟩
  · obtain ⟨grain,members⟩ := constrainedRead (saved ▸ conflict) constrains product
    obtain ⟨pk,e,is,some_,rfl⟩ := found grain
    refine ⟨pk,e,is,some_,fun empty => members ?_,meets⟩
    rw [rows,empty,List.map_nil]
  · obtain ⟨pk,e,is,some_,_⟩ := found (targetRead targets fun r mem => every r (.inl (.inl mem)))
    exact ⟨pk,e,is,some_⟩
  · rw [is] at priced
    exact priceMatched rfl rfl priced

def plainListing : ListingText := ⟨"ST16000","",false,"store"⟩

def roundedOffer : Offer where
  observedAt := 0
  itemPrice := ⟨10000,by decide⟩
  shippingPrice := some ⟨0,by decide⟩
  taxPrice := none
  fxRate := some ⟨1000040,by decide⟩
  stockStatus := .inStock
  categoryHint := none

def cappedWatch : Watch := { driveWatch with maxUnitPriceUsd := some ⟨10000,by decide⟩ }

def unlockReader : Reader where
  toTextFolding := bareReader.toTextFolding
  canonicalizeListingText title _ := title
  extract _ _ := { categoryAttrs := .cpu { vendorLock := some ⟨"unlocked",9/10,"unlocked"⟩ } }
  withSourceOfferTerms e _ := e
  offerQuantity _ := none

def unlockWatch : Watch := { driveWatch with category := "cpu", targetFamily := none }

theorem matchRoundsAndUnlocks :
    (((evaluate bareReader (fun _ => "") oneDriveCatalog plainListing (some roundedOffer)
      (some (1,familyEdge)) cappedWatch
        (some tenTerabytes)).map Evaluation.verdict = some .matched) ∧
      ∃ rate ∈ roundedOffer.fxRate, ∃ bound ∈ cappedWatch.maxUnitPriceUsd,
        bound.value * (offerFacts bareReader plainListing (some roundedOffer) "drive").divisor (policyFor "drive") <
          roundedOffer.stated * rate.value) ∧
    ((evaluate unlockReader (fun _ => "") oneDriveCatalog plainListing
      (some { roundedOffer with categoryHint := some "cpu" })
      none unlockWatch (some (.cpu ⟨[],none,none,true⟩))).map Evaluation.verdict = some .matched) := by
  refine ⟨⟨by decide +kernel,⟨1000040,by decide⟩,rfl,⟨10000,by decide⟩,rfl,?_⟩,by decide +kernel⟩
  decide +kernel

theorem familyMatchSound : Sound bareReader oneDriveCatalog plainListing (some roundedOffer)
    (some (1,familyEdge)) cappedWatch
    tenTerabytes := by
  have evaluated : ((evaluate bareReader (fun _ => "") oneDriveCatalog plainListing (some roundedOffer)
      (some (1,familyEdge))
      cappedWatch (some tenTerabytes)).map Evaluation.verdict) = some .matched := by decide +kernel
  obtain ⟨ev,got,matched⟩ := Option.map_eq_some_iff.mp evaluated
  exact matchSound rfl got matched

end HwRadar.Eligibility
