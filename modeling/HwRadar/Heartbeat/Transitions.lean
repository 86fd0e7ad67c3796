import HwRadar.Base.Run
import HwRadar.Heartbeat.Probe

/-! What the probes of one SKU tell the pipeline, over whole runs of readings and of FULL runs
that succeed, fail or are lost. A reading is stored before its FULL run is tried, so only
the reading that fires tells of a change: what the run makes of it is not remembered. -/
namespace HwRadar.Heartbeat
open HwRadar.Base HwRadar.Base.Decimal

inductive FullRun where
  | succeeds
  | fails
  | lost
  deriving DecidableEq, Repr

structure Probe where
  reading : HeartbeatReading
  observedAt : Int
  run : FullRun

inductive Happening where
  | read (r : HeartbeatReading)
  | fullSucceeded

structure Site where
  tables : Tables := {}
  log : List Happening := []

def priceFell (prev new : HeartbeatReading) : Bool :=
  match prev.price,new.price with
  | some was,some is => is.lt was == some true
  | _,_ => false

def changed (prev new : HeartbeatReading) : Bool := prev.stockStatus != new.stockStatus || priceFell prev new

def lastReading : List Happening → Option HeartbeatReading
  | [] => none
  | .read r::_ => some r
  | .fullSucceeded::earlier => lastReading earlier

def owed : List Happening → Bool
  | [] => false
  | .read r::earlier => (lastReading earlier).any (changed · r) || owed earlier
  | .fullSucceeded::_ => false

section
variable (platform : Platform) (retention : HeartbeatRetention)

/-- `run_heartbeat` on one reading. -/
def probed (p : Probe) (s : Site) : Site :=
  let (tables,fires) := platform.recordHeartbeat retention [(p.reading,p.observedAt)] s.tables
  { tables, log := (if fires = some true ∧ p.run = .succeeds then [.fullSucceeded] else []) ++ .read p.reading::s.log }

def Probed (sku : String) (s : Site) (p : Probe) (t : Site) : Prop :=
  p.reading.sourceSku = sku ∧ t = probed platform retention p s

def decision (p : Probe) (s : Site) : Option HeartbeatDecision :=
  (platform.recordReading retention p.reading p.observedAt s.tables).map Prod.snd

def Kept (s : Site) (p : Probe) : Prop :=
  decision platform retention p s = some .unchanged → owed (.read p.reading::s.log) = false

def undercuts (stored : Stored) (r : HeartbeatReading) : Bool :=
  match stored.price,r.price with
  | some was,some is => is.lt (cents was) == some true && 0 < was.units
  | _,_ => false

def Shows (row : Observation) (r : HeartbeatReading) : Prop :=
  platform.fp row.stored.reading ≠ platform.fp r ∧
  (row.stored.stockStatus ≠ r.stockStatus ∨ undercuts row.stored r = true)

instance (row : Observation) (r : HeartbeatReading) : Decidable (Shows platform row r) :=
  inferInstanceAs (Decidable (_ ∧ _))

structure Heeded (s : Site) (p : Probe) : Prop where
  detected : ∀ last ∈ lastReading s.log, changed last p.reading = true →
    (platform.store p.reading).isSome = true ∧ ∀ row ∈ s.tables.latest p.reading.sourceSku,
      row.observedAt < p.observedAt ∧ (unknownStock p.reading.stockStatus = false → Shows platform row p.reading)
  answered : owed (.read p.reading::s.log) = true → unknownStock p.reading.stockStatus = false → p.run = .succeeds

instance (s : Site) (p : Probe) : Decidable (Heeded platform s p) :=
  decidable_of_iff (_ ∧ _) ⟨fun ⟨detected,answered⟩ => ⟨detected,answered⟩,fun heeded =>
    ⟨heeded.detected,heeded.answered⟩⟩

end

theorem fallDrops {was : Fixed 10 2} {is : Amount} (positive : 0 < was.units) (below : is.lt (cents was) = some true) :
    dropsBy 0 (cents was) is = some true := by
  have whole : decide (was.units < 0) = false := by simp [positive.le]
  rw [cents,whole] at below ⊢
  cases is with
  | nan => cases below
  | infinite negative =>
    simp only [Amount.lt,Option.some.injEq] at below
    simp [dropsBy,below]
  | finite n c e =>
    simp only [Amount.lt,Option.some.injEq,decide_eq_true_eq] at below
    have counted : (0 : ℚ) < was.units.natAbs := by exact_mod_cast Int.natAbs_pos.mpr positive.ne'
    have price : 0 < finiteValue false was.units.natAbs (-2) := by
      rw [finiteValue]
      exact mul_pos (by simpa using counted) (by positivity)
    have drop := toDigitsNonneg 28 (sub_nonneg.mpr below.le)
    have share := toDigitsNonneg 28 (div_nonneg drop price.le)
    simp only [dropsBy,if_neg price.ne',toDoubleNonneg share,decide_true]

theorem undercutsIs {stored : Stored} {r : HeartbeatReading} (below : undercuts stored r = true) : ∃ was is,
    stored.price = some was ∧ r.price = some is ∧ is.lt (cents was) = some true ∧ 0 < was.units := by
  rw [undercuts] at below
  split at below
  · rename_i was is wasIs isIs
    simp only [Bool.and_eq_true,beq_iff_eq,decide_eq_true_eq] at below
    exact ⟨was,is,wasIs,isIs,below.1,below.2⟩
  · cases below

section
variable {platform : Platform} {retention : HeartbeatRetention}

theorem unknownAmbiguous {prev : Option HeartbeatReading} {r : HeartbeatReading}
    (unknown : unknownStock r.stockStatus = true) : platform.decideReading prev (some r) = some .ambiguous := by
  simp [Platform.decideReading,unknown]

theorem firstFires {r : HeartbeatReading} (known : unknownStock r.stockStatus = false) :
    platform.decideReading none (some r) = some .transitionDetected := by
  simp [Platform.decideReading,known]

theorem shownFires {row : Observation} {r : HeartbeatReading} (known : unknownStock r.stockStatus = false)
    (shows : Shows platform row r) :
    platform.decideReading (some row.stored.reading) (some r) = some .transitionDetected := by
  obtain ⟨differ,shown⟩ := shows
  simp only [Platform.decideReading,known,if_neg differ]
  by_cases same : row.stored.stockStatus = r.stockStatus
  · obtain ⟨was,is,wasIs,isIs,below,positive⟩ := undercutsIs (shown.resolve_left fun moved => moved same)
    simp [Stored.reading,same,wasIs,isIs,below,fallDrops positive below]
  · simp [Stored.reading,same]

theorem decidesKnown {prev : Option HeartbeatReading} {r : HeartbeatReading}
    (same : platform.decideReading prev (some r) = some .unchanged) : unknownStock r.stockStatus = false ∧
    prev.isSome := by
  cases unknown : unknownStock r.stockStatus with
  | true =>
    rw [unknownAmbiguous unknown] at same
    cases same
  | false =>
    cases prev with
    | none =>
      rw [firstFires unknown] at same
      cases same
    | some prev => exact ⟨rfl,rfl⟩

theorem decidesSome {prev : Option HeartbeatReading} {r : HeartbeatReading} {d : HeartbeatDecision}
    (is : platform.decideReading prev (some r) = some d) : d.fires = true ∨ d = .unchanged := by
  cases d with
  | unchanged => exact .inr rfl
  | transitionDetected | ambiguous => exact .inl rfl
  | failed =>
    simp only [Platform.decideReading] at is
    repeat' split at is
    all_goals try cases is
    obtain ⟨below,_,is⟩ := Option.bind_eq_some_iff.mp is
    split at is
    · obtain ⟨drops,_,is⟩ := Option.bind_eq_some_iff.mp is
      split at is <;> cases is
    · cases is

theorem varcharShort {length : Nat} {text stored : String} (is : varchar length text = some stored)
    (short : text.length < length ∨ stored.length < length) : stored = text := by
  simp only [varchar] at is
  split at is
  · cases is
  · split at is
    · exact (Option.some.inj is).symm
    · rename_i long
      rw [String.length_toList] at long
      split at is
      · cases is
        rw [String.length_ofList,List.length_take,String.length_toList] at short
        omega
      · cases is

theorem unknownShort {stock : String} (unknown : unknownStock stock = true) : stock.length < 20 := by
  simp only [unknownStock,Bool.or_eq_true,decide_eq_true_eq] at unknown
  rcases unknown with rfl | rfl <;> decide

theorem storedColumns {r : HeartbeatReading} {stored : Stored} (is : platform.store r = some stored) :
    varchar 255 r.sourceSku = some stored.sourceSku ∧ varchar 20 r.stockStatus = some stored.stockStatus := by
  simp only [Platform.store,bind,Option.bind_eq_some_iff] at is
  obtain ⟨sku,skuIs,_,_,_,_,stock,stockIs,_,_,_,_,_,_,_,_,same⟩ := is
  cases same
  exact ⟨skuIs,stockIs⟩

theorem storedStock {r : HeartbeatReading} {stored : Stored} (is : platform.store r = some stored)
    (unknown : unknownStock r.stockStatus = true ∨ unknownStock stored.stockStatus = true) :
    stored.stockStatus = r.stockStatus :=
  varcharShort (storedColumns is).2 (unknown.imp unknownShort unknownShort)

theorem recordedIs {r : HeartbeatReading} {at_ : Int} {t t' : Tables} {d : HeartbeatDecision}
    (is : platform.recordReading retention r at_ t = some (t',d)) :
    ∃ row, t'.observations = row::t.observations ∧ row.observedAt = at_ ∧ platform.store r = some row.stored ∧
      platform.decideReading ((t.latest r.sourceSku).map fun row => row.stored.reading) (some r) = some d := by
  simp only [Platform.recordReading,bind,Option.bind_eq_some_iff] at is
  obtain ⟨decided,decides,stored,stores,is⟩ := is
  obtain ⟨_,is⟩ := Option.ite_none_left_eq_some.mp is
  cases is
  exact ⟨_,rfl,rfl,stores,decides⟩

theorem lastObservedNone {rows : List Observation} : lastObserved rows = none ↔ rows = [] := by
  cases rows with
  | nil => exact iff_of_true rfl rfl
  | cons row rows =>
    refine iff_of_false (fun is => ?_) nofun
    rw [lastObserved] at is
    split at is
    · cases is
    · split at is <;> cases is

theorem lastObservedIs {rows : List Observation} {last : Observation} (is : lastObserved rows = some last) :
    last ∈ rows ∧ ∀ row ∈ rows, row.observedAt ≤ last.observedAt := by
  induction rows generalizing last with
  | nil => cases is
  | cons row rows ih =>
    rw [lastObserved] at is
    split at is
    · rename_i none_
      cases is
      simp [lastObservedNone.mp none_]
    · rename_i old before
      obtain ⟨mem,most⟩ := ih before
      split at is
      · rename_i earlier
        cases is
        exact ⟨List.mem_cons_of_mem _ mem,List.forall_mem_cons.mpr ⟨earlier.le,most⟩⟩
      · rename_i later_
        cases is
        refine ⟨List.mem_cons_self,List.forall_mem_cons.mpr ⟨le_rfl,fun other there => ?_⟩⟩
        exact (most other there).trans (not_lt.mp later_)

theorem latestOf {t : Tables} {sku : String} {row : Observation} (last : t.latest sku = some row) :
    row ∈ t.observations ∧ row.stored.sourceSku = sku := by
  have mem := (lastObservedIs last).1
  simpa using mem

theorem latestMost {t : Tables} {sku : String} {row other : Observation} (last : t.latest sku = some row)
    (mem : other ∈ t.observations) (same : other.stored.sourceSku = sku) : other.observedAt ≤ row.observedAt :=
  (lastObservedIs last).2 other (List.mem_filter.mpr ⟨mem,by simpa using same⟩)

theorem latestPushed {t t' : Tables} {sku : String} {row last : Observation}
    (pushed : t'.observations = row::t.observations) (is : t'.latest sku = some last) : last = row ∨
      t.latest sku = some last ∧ (row.stored.sourceSku = sku → row.observedAt < last.observedAt) := by
  rw [Tables.latest,pushed,List.filter_cons] at is
  split at is
  · rw [lastObserved] at is
    split at is
    · exact .inl (Option.some.inj is).symm
    · rename_i old before
      split at is
      · rename_i earlier
        cases is
        exact .inr ⟨before,fun _ => earlier⟩
      · exact .inl (Option.some.inj is).symm
  · rename_i other
    exact .inr ⟨is,fun own => absurd own (by simpa using other)⟩

structure Watched (sku : String) (s : Site) : Prop where
  columns : ∀ row ∈ s.tables.observations, varchar 255 sku = some row.stored.sourceSku
  heard : ∀ row, s.tables.latest sku = some row → unknownStock row.stored.stockStatus = true →
    ∃ last, lastReading s.log = some last ∧ last.stockStatus = row.stored.stockStatus
  safe : owed s.log = true → ∀ row, s.tables.latest sku = some row → unknownStock row.stored.stockStatus = true

theorem stockChanged {prev new : HeartbeatReading} (moved : prev.stockStatus ≠ new.stockStatus) :
    changed prev new = true := by
  simp [changed,moved]

theorem owedRead {log : List Happening} {r : HeartbeatReading} : owed (.read r::log) = true ↔
    (∃ last, lastReading log = some last ∧ changed last r = true) ∨ owed log = true := by
  rw [owed,Bool.or_eq_true,Option.any_eq_true]

theorem showsOwed {sku : String} {s : Site} {p : Probe} {row : Observation} (watched : Watched sku s)
    (heeded : Heeded platform s p) (own : p.reading.sourceSku = sku) (last : s.tables.latest sku = some row)
    (known : unknownStock p.reading.stockStatus = false) (owes : owed (.read p.reading::s.log) = true) :
    Shows platform row p.reading := by
  subst own
  have shown : ∀ prev, lastReading s.log = some prev → changed prev p.reading = true → Shows platform row p.reading :=
    fun prev before change => ((heeded.detected prev before change).2 row last).2 known
  rcases owedRead.mp owes with ⟨prev,before,change⟩ | earlier
  · exact shown prev before change
  · have unknown := watched.safe earlier row last
    obtain ⟨prev,before,stock⟩ := watched.heard row last unknown
    refine shown prev before (stockChanged ?_)
    intro same
    rw [← stock,same,known] at unknown
    cases unknown

variable (retention) in
theorem kept {sku : String} {s : Site} {p : Probe} (watched : Watched sku s) (heeded : Heeded platform s p)
    (own : p.reading.sourceSku = sku) : Kept platform retention s p := by
  intro decides
  obtain ⟨⟨t,d⟩,records,rfl⟩ := Option.map_eq_some_iff.mp decides
  obtain ⟨_,_,_,_,same⟩ := recordedIs records
  obtain ⟨known,met⟩ := decidesKnown same
  cases owes : owed (.read p.reading::s.log) with
  | false => rfl
  | true =>
    cases last : s.tables.latest p.reading.sourceSku with
    | none =>
      rw [last] at met
      cases met
    | some row =>
      have shows := showsOwed watched heeded own (own ▸ last) known owes
      rw [last,Option.map_some,shownFires known shows] at same
      cases same

variable (retention) in
theorem recordsChange {sku : String} {s : Site} {p : Probe} {row : Observation} {prev : HeartbeatReading}
    (watched : Watched sku s) (heeded : Heeded platform s p) (own : p.reading.sourceSku = sku)
    (last : s.tables.latest sku = some row) (before : lastReading s.log = some prev)
    (change : changed prev p.reading = true) :
    ∃ t d, platform.recordReading retention p.reading p.observedAt s.tables = some (t,d) := by
  subst own
  obtain ⟨fits,shown⟩ := heeded.detected prev before change
  obtain ⟨later_,shows⟩ := shown row last
  obtain ⟨stored,stores⟩ := Option.isSome_iff_exists.mp fits
  have decides : ∃ d, platform.decideReading (some row.stored.reading) (some p.reading) = some d := by
    cases known : unknownStock p.reading.stockStatus with
    | true => exact ⟨_,unknownAmbiguous known⟩
    | false => exact ⟨_,shownFires known (shows known)⟩
  obtain ⟨d,decides⟩ := decides
  have free : s.tables.taken stored.sourceSku p.observedAt = false := by
    have met := latestOf last
    have column := (storedColumns stores).1
    rw [watched.columns row met.1,Option.some.injEq,met.2] at column
    rw [Tables.taken,List.any_eq_false]
    intro other mem taken
    simp only [Bool.and_eq_true,decide_eq_true_eq] at taken
    have most := latestMost last mem (taken.1.trans column.symm)
    omega
  have records : (platform.recordReading retention p.reading p.observedAt s.tables).isSome := by
    simp [Platform.recordReading,last,decides,stores,free]
  obtain ⟨⟨t,d⟩,is⟩ := Option.isSome_iff_exists.mp records
  exact ⟨t,d,is⟩

variable (platform retention) in
theorem probedIs (p : Probe) (s : Site) :
    (platform.recordReading retention p.reading p.observedAt s.tables = none ∧
      probed platform retention p s = ⟨s.tables,.read p.reading::s.log⟩) ∨
    ∃ t d, platform.recordReading retention p.reading p.observedAt s.tables = some (t,d) ∧
      probed platform retention p s =
        ⟨t,if d.fires = true ∧ p.run = .succeeds then .fullSucceeded::.read p.reading::s.log
          else .read p.reading::s.log⟩ := by
  cases records : platform.recordReading retention p.reading p.observedAt s.tables with
  | none => exact .inl ⟨rfl,by simp [probed,Platform.recordHeartbeat,records]⟩
  | some result =>
    obtain ⟨t,d⟩ := result
    refine .inr ⟨t,d,rfl,?_⟩
    simp only [probed,Platform.recordHeartbeat,records,Option.map_some,Bool.or_false,Option.some.injEq]
    split <;> rfl

theorem Watched.still {sku : String} {s : Site} {r : HeartbeatReading} {row : Observation} (watched : Watched sku s)
    (last : s.tables.latest sku = some row) (steady : ∀ prev, lastReading s.log = some prev → changed prev r = false) :
    (unknownStock row.stored.stockStatus = true → r.stockStatus = row.stored.stockStatus) ∧
    (owed (.read r::s.log) = true → unknownStock row.stored.stockStatus = true) := by
  constructor
  · intro unknown
    obtain ⟨prev,before,stock⟩ := watched.heard row last unknown
    have still := steady prev before
    simp only [changed,Bool.or_eq_false_iff,bne_eq_false_iff_eq] at still
    exact still.1.symm.trans stock
  · intro owes
    rcases owedRead.mp owes with ⟨prev,before,change⟩ | earlier
    · rw [steady prev before] at change
      cases change
    · exact watched.safe earlier row last

theorem raisedWatched {sku : String} {s : Site} {p : Probe} (watched : Watched sku s) (heeded : Heeded platform s p)
    (own : p.reading.sourceSku = sku)
    (raises : platform.recordReading retention p.reading p.observedAt s.tables = none) :
    Watched sku ⟨s.tables,.read p.reading::s.log⟩ := by
  have steady : ∀ row, s.tables.latest sku = some row → ∀ prev, lastReading s.log = some prev →
      changed prev p.reading = false := by
    intro row last prev before
    cases change : changed prev p.reading with
    | false => rfl
    | true =>
      obtain ⟨_,_,records⟩ := recordsChange retention watched heeded own last before change
      rw [raises] at records
      cases records
  refine ⟨watched.columns,fun row last unknown => ?_,fun owes row last => ?_⟩
  · exact ⟨p.reading,rfl,(watched.still last (steady row last)).1 unknown⟩
  · exact (watched.still last (steady row last)).2 owes

theorem storedWatched {sku : String} {s : Site} {p : Probe} {t : Tables} {d : HeartbeatDecision} {log : List Happening}
    (watched : Watched sku s) (heeded : Heeded platform s p) (own : p.reading.sourceSku = sku)
    (records : platform.recordReading retention p.reading p.observedAt s.tables = some (t,d))
    (heard : lastReading log = some p.reading)
    (owes : owed log = true → owed (.read p.reading::s.log) = true ∧ unknownStock p.reading.stockStatus = true) :
    Watched sku ⟨t,log⟩ := by
  subst own
  obtain ⟨row,pushed,at_,stores,-⟩ := recordedIs records
  have column := (storedColumns stores).1
  -- an older row stays the latest only where nothing changed
  have steady : ∀ last, s.tables.latest p.reading.sourceSku = some last →
      (row.stored.sourceSku = p.reading.sourceSku → row.observedAt < last.observedAt) → ∀ prev,
      lastReading s.log = some prev → changed prev p.reading = false := by
    intro last is earlier prev before
    cases change : changed prev p.reading with
    | false => rfl
    | true =>
      have met := latestOf is
      have same := watched.columns last met.1
      rw [column,Option.some.injEq,met.2] at same
      have after := ((heeded.detected prev before change).2 last is).1
      have before := earlier same
      omega
  refine ⟨fun other mem => ?_,fun last is unknown => ?_,fun owing last is => ?_⟩
  · rw [pushed,List.mem_cons] at mem
    rcases mem with rfl | old
    · exact column
    · exact watched.columns other old
  · refine ⟨p.reading,heard,?_⟩
    rcases latestPushed pushed is with rfl | ⟨before,earlier⟩
    · exact (storedStock stores (.inr unknown)).symm
    · exact (watched.still before (steady last before earlier)).1 unknown
  · obtain ⟨owesRead,unknown⟩ := owes owing
    rcases latestPushed pushed is with rfl | ⟨before,earlier⟩
    · rw [storedStock stores (.inl unknown)]
      exact unknown
    · exact (watched.still before (steady last before earlier)).2 owesRead

theorem watchedStep {sku : String} {s t : Site} {p : Probe} (watched : Watched sku s) (heeded : Heeded platform s p)
    (step : Probed platform retention sku s p t) : Watched sku t := by
  obtain ⟨own,rfl⟩ := step
  rcases probedIs platform retention p s with ⟨raises,is⟩ | ⟨tables,d,records,is⟩
  · rw [is]
    exact raisedWatched watched heeded own raises
  · rw [is]
    have still : d = .unchanged → owed (.read p.reading::s.log) = false := by
      rintro rfl
      exact kept retention watched heeded own (by rw [decision,records]; rfl)
    obtain ⟨_,_,_,_,decides⟩ := recordedIs records
    split
    · exact storedWatched watched heeded own records rfl fun owes => absurd owes (by simp [owed])
    · rename_i unanswered
      refine storedWatched watched heeded own records rfl fun owes => ⟨owes,?_⟩
      cases unknown : unknownStock p.reading.stockStatus with
      | true => rfl
      | false =>
        rcases decidesSome decides with fires | same
        · exact absurd ⟨fires,heeded.answered owes unknown⟩ unanswered
        · rw [still same] at owes
          cases owes

theorem startWatched (sku : String) : Watched sku {} := by
  have empty : Tables.latest {} sku = none := by simp [Tables.latest,lastObserved]
  constructor
  · simp
  · simp [empty]
  · simp [empty]

theorem transitionsKept (platform : Platform) (retention : HeartbeatRetention) (sku : String)
    {probes : List Probe} {s : Site}
    (run : Runs (fun s p t => Probed platform retention sku s p t ∧ Heeded platform s p) {} probes s) :
    Runs (fun s p t => Probed platform retention sku s p t ∧ Kept platform retention s p) {} probes s := by
  -- what is owed stands in the latest row as long as every probe is heeded
  refine run.upgrade (Watched sku) (fun watched step => ?_) (startWatched sku)
  obtain ⟨step,heeded⟩ := step
  exact ⟨watchedStep watched heeded step,step,kept retention watched heeded step.1⟩

theorem latestNew {t t' : Tables} {row : Observation} (pushed : t'.observations = row::t.observations)
    (last : ∀ old ∈ t.observations, old.observedAt < row.observedAt) : t'.latest row.stored.sourceSku = some row := by
  cases is : t'.latest row.stored.sourceSku with
  | none => simp [Tables.latest,pushed,lastObservedNone] at is
  | some other =>
    rcases latestPushed pushed is with rfl | ⟨before,earlier⟩
    · rfl
    · have older := last other (latestOf before).1
      have later_ := earlier rfl
      omega

theorem failedForgotten {s : Site} {p q : Probe} {t : Tables} {d : HeartbeatDecision} {stored : Stored}
    (records : platform.recordReading retention p.reading p.observedAt s.tables = some (t,d))
    (fails : p.run ≠ .succeeds) (owes : owed (.read p.reading::s.log) = true)
    (known : unknownStock p.reading.stockStatus = false) (stores : platform.store p.reading = some stored)
    (exact_ : stored.reading = p.reading) (last : ∀ row ∈ s.tables.observations, row.observedAt < p.observedAt)
    (again : q.reading = p.reading) (after : p.observedAt < q.observedAt) :
    ¬ Kept platform retention (probed platform retention p s) q := by
  obtain ⟨row,pushed,at_,rowStores,-⟩ := recordedIs records
  cases Option.some.inj (stores.symm.trans rowStores)
  have latest : t.latest p.reading.sourceSku = some row := by
    rw [← exact_]
    exact latestNew pushed (by rwa [at_])
  have site : probed platform retention p s = ⟨t,.read p.reading::s.log⟩ := by
    rcases probedIs platform retention p s with ⟨raises,-⟩ | ⟨_,_,same,is⟩
    · rw [raises] at records
      cases records
    · cases same.symm.trans records
      rw [is,if_neg fun both => fails both.2]
  have free : t.taken row.stored.sourceSku q.observedAt = false := by
    rw [Tables.taken,pushed,List.any_eq_false]
    intro other mem taken
    simp only [Bool.and_eq_true,decide_eq_true_eq] at taken
    rcases List.mem_cons.mp mem with rfl | old
    · omega
    · have before := last other old
      omega
  have decides : decision platform retention q ⟨t,.read p.reading::s.log⟩ = some .unchanged := by
    simp [decision,Platform.recordReading,Platform.decideReading,again,latest,exact_,known,stores,free]
  rw [site]
  intro kept
  have calm := kept decides
  simp only [again,owed,Bool.or_eq_false_iff] at calm owes
  rw [calm.2.1,calm.2.2] at owes
  cases owes

def plain : Platform := ⟨id,halfEven⟩

def sighting (stockStatus : String) (observedAt : Int) (run : FullRun) : Probe :=
  ⟨⟨"A1",some (.finite false 10000 (-2)),"USD",stockStatus,none,200,none,"/products.json"⟩,observedAt,run⟩

def restocking (run : FullRun) : List Probe :=
  [sighting "out_of_stock" 1 .succeeds,sighting "in_stock" 2 run,sighting "in_stock" 3 .succeeds]

theorem restockForgotten : ∃ s, Runs (Probed plain (heartbeatRetentionFor .occJson) "A1") {} (restocking .fails) s ∧
    ¬ Runs (fun s p t => Probed plain (heartbeatRetentionFor .occJson) "A1" s p t ∧
      Kept plain (heartbeatRetentionFor .occJson) s p) {} (restocking .fails) s := by
  refine ⟨_,.cons ⟨rfl,rfl⟩ (.cons ⟨rfl,rfl⟩ (.cons ⟨rfl,rfl⟩ (.nil _))),fun run => ?_⟩
  cases run with
  | cons first rest =>
  cases rest with
  | cons second rest =>
  cases rest with
  | cons third rest =>
    obtain ⟨⟨-,rfl⟩,-⟩ := first
    obtain ⟨⟨-,rfl⟩,-⟩ := second
    have calm := third.2 (by decide +kernel)
    revert calm
    decide +kernel

theorem restockTold : ∃ s, Runs (fun s p t => Probed plain (heartbeatRetentionFor .occJson) "A1" s p t ∧
    Kept plain (heartbeatRetentionFor .occJson) s p) {} (restocking .succeeds) s :=
  ⟨_,transitionsKept plain (heartbeatRetentionFor .occJson) "A1" (.cons ⟨⟨rfl,rfl⟩,by decide +kernel⟩
    (.cons ⟨⟨rfl,rfl⟩,by decide +kernel⟩ (.cons ⟨⟨rfl,rfl⟩,by decide +kernel⟩ (.nil _))))⟩

end
end HwRadar.Heartbeat
