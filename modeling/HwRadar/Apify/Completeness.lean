import HwRadar.Apify.RowAdmission
import HwRadar.Ingest.Effects

/-! What a COMPLETE classification rests on, and what every other one keeps from being read
as absence: no scope passes the gate, nothing is delisted and continuity is broken. -/
namespace HwRadar.Apify.Contract
open HwRadar.Base HwRadar.Ingest

structure Swept (remoteStatus : String) (run : RunOutput) (rows : List Json) : Prop where
  status : remoteStatus = "SUCCEEDED"
  emitted : run.completeness.itemsEmitted = rows.length
  unlimited : hitLimits run.completeness.limitsHit = []
  errorless : run.errors = []
  empty : rows = [] → run.completeness.itemsDeclared = some 0 ∧ 1 ≤ run.completeness.pagesFetched

/-- `_evidence`: what an import proves by its classification. -/
def importEvidence (c : RunClassification) : ProviderRunEvidence where
  providerKind := .apify
  completeness := c.completeness
  staleAbsenceEligible := false
  localOnly := ineligibleLocal

def importCall (scopeKey : String) (c : RunClassification) (scope : Option DelistScope) (eventTime : Int) :
    Ingest.AbsenceCall where
  sweptScopeKey := some scopeKey
  eligible := countsTowardSweepContinuity (importEvidence c) scope
  gated := gateDelistScope scope (importEvidence c)
  eventTime
  nullScopeSwept := false

structure OnlyBroken (scopeKey : String) (eventTime : Int) (m m' : Market) : Prop where
  listings : m'.listings = m.listings
  snapshots : m'.snapshots = m.snapshots
  own : m'.sweepRow (some scopeKey) = (m.sweepRow (some scopeKey)).map fun row => row.broken eventTime
  null : m'.sweepRow none = (m.sweepRow none).map fun row => row.broken eventTime

section
variable {remoteStatus : String} {run : RunOutput} {items usable : Nat} {admitted : AdmittedRun} {c : RunClassification}

theorem uncontradictedCount (none_ : contradictions remoteStatus run items = []) :
    run.completeness.itemsEmitted = items := by
  simp only [contradictions,List.append_eq_nil_iff] at none_
  by_contra other
  have mismatch := none_.1.1.2
  rw [if_pos (by simpa using other)] at mismatch
  cases mismatch

structure Whole (remoteStatus : String) (run : RunOutput) (items usable : Nat) : Prop where
  counted : run.completeness.itemsEmitted = items
  finished : remoteStatus ≠ "FAILED" ∧ remoteStatus ≠ "ABORTED" ∧ remoteStatus ≠ "TIMED-OUT"
  errorless : run.errors = []
  unlimited : hitLimits run.completeness.limitsHit = []
  empty : items = 0 → run.completeness.itemsDeclared = some 0 ∧ 1 ≤ run.completeness.pagesFetched
  usable : items ≠ 0 → items ≤ usable

theorem completeReport (whole : (classifyReport remoteStatus run items usable admitted).completeness = .complete) :
    Whole remoteStatus run items usable := by
  simp only [classifyReport] at whole
  split at whole
  · cases whole
  split at whole
  · cases whole
  rename_i uncontradicted
  split at whole
  · cases whole
  split at whole
  · split at whole <;> contradiction
  rename_i finished
  split at whole
  · cases whole
  rename_i errorless
  split at whole
  · contradiction
  rename_i unlimited
  simp only [Bool.or_eq_true,decide_eq_true_eq,not_or] at finished
  simp only [Bool.or_eq_true,Bool.not_eq_true',decide_eq_true_eq,not_or,Bool.not_eq_false,List.isEmpty_iff] at unlimited
  have counted := uncontradictedCount (not_not.mp uncontradicted)
  split at whole
  · rename_i none_
    split at whole
    · rename_i proven
      simp only [Bool.and_eq_true,decide_eq_true_eq] at proven
      exact ⟨counted,⟨finished.1,finished.2,unlimited.2⟩,not_not.mp errorless,unlimited.1,
        fun _ => ⟨proven.1.2,proven.1.1.2⟩,fun some_ => absurd none_ some_⟩
    · contradiction
  rename_i some_
  split at whole
  · cases whole
  split at whole
  · cases whole
  rename_i all
  exact ⟨counted,⟨finished.1,finished.2,unlimited.2⟩,not_not.mp errorless,unlimited.1,fun none_ => absurd none_ some_,
    fun _ => not_lt.mp all⟩

theorem causeNamed {limits : LimitsHit} (some_ : hitLimits limits ≠ []) :
    (limitPrecedence.find? fun entry => (hitLimits limits).contains entry.1).isSome = true := by
  obtain ⟨name,mem⟩ := List.exists_mem_of_ne_nil _ some_
  obtain ⟨entry,listed,rfl⟩ := List.mem_map.mp mem
  exact List.find?_isSome.mpr ⟨entry,(List.mem_filter.mp listed).1,List.contains_iff_mem.mpr mem⟩

theorem truncationReported : (classifyReport remoteStatus run items usable admitted).truncationReason.isSome = true ↔
    (classifyReport remoteStatus run items usable admitted).completeness = .truncated := by
  simp only [classifyReport]
  split
  · simp [failed]
  split
  · simp [failed]
  split
  · simp [failed]
  split
  · split <;> simp [failed]
  split
  · simp
  split
  · rename_i cut
    simp only [Option.isSome_map,iff_true]
    split
    · simp [limitPrecedence]
    · rename_i timed
      refine causeNamed fun none_ => ?_
      simp only [none_,List.isEmpty_nil,Bool.not_true,Bool.false_or,decide_eq_true_eq] at cut
      simp [cut,none_] at timed
  split
  · split <;> simp [failed]
  split
  · simp [failed]
  split <;> simp

theorem classifiedRun (ok : classifyRun remoteStatus output items usable admitted = some c) :
    terminalRunStatuses.contains remoteStatus = true ∧
      ((∃ reason, c = failed reason) ∨ ∃ run, validated output = .ok run ∧
        c = classifyReport remoteStatus run items usable admitted) := by
  simp only [classifyRun] at ok
  split at ok
  · cases ok
  rename_i sane
  have sane : remoteStatus ∈ terminalRunStatuses ∧ usable ≤ items := by simpa using sane
  refine ⟨List.contains_iff_mem.mpr sane.1,?_⟩
  split at ok
  · exact .inl ⟨_,(Option.some.inj ok).symm⟩
  · rename_i run valid
    exact .inr ⟨run,valid,(Option.some.inj ok).symm⟩

theorem gatedComplete {scope : Option DelistScope} {gated : DelistScope}
    (passes : gateDelistScope scope (importEvidence c) = some gated) :
    c.completeness = .complete ∧ scope = some gated ∧ gated.complete = true := by
  cases scope with
  | none => contradiction
  | some scope =>
    cases whole : c.completeness with
    | complete =>
      simp only [gateDelistScope,importEvidence,whole,Bool.false_and,Bool.or_false] at passes
      obtain ⟨claims,same⟩ := Option.ite_none_right_eq_some.mp passes
      cases same
      exact ⟨rfl,rfl,claims⟩
    | truncated => simp [gateDelistScope,importEvidence,whole] at passes
    | partialFailure => simp [gateDelistScope,importEvidence,whole] at passes
    | failed => simp [gateDelistScope,importEvidence,whole] at passes

theorem breakSaves {m : Market} {eventTime : Int} {key : Option String} {row : SweepRow}
    (here : m.sweepRow key = some row) :
    breakContinuity eventTime key m = some (m.saveSweepRow key (row.broken eventTime)) := by
  simp [breakContinuity,here]

theorem incompleteBreaks (incomplete : c.completeness ≠ .complete) (scope : Option DelistScope) (scopeKey : String)
    (eventTime : Int) (previousRun : Option Int) (m : Market) :
    ∃ m', Ingest.applyAbsence (importCall scopeKey c scope eventTime) previousRun
    (m.ensureWatermarkRows [some scopeKey,none]) =
      some (m',0) ∧ OnlyBroken scopeKey eventTime (m.ensureWatermarkRows [some scopeKey,none]) m' := by
  have ungated : gateDelistScope scope (importEvidence c) = none := by
    cases passes : gateDelistScope scope (importEvidence c) with
    | none => rfl
    | some gated => exact absurd (gatedComplete passes).1 incomplete
  have ineligible : countsTowardSweepContinuity (importEvidence c) scope = false := by
    simp [countsTowardSweepContinuity,importEvidence,incomplete]
  obtain ⟨row,here⟩ := @ensuredSome m scopeKey [some scopeKey,none] (by simp)
  have here : (m.ensureWatermarkRows [some scopeKey,none]).sweepRow (some scopeKey) = some row := here
  generalize m.ensureWatermarkRows [some scopeKey,none] = m at here ⊢
  have first := @breakSaves m eventTime (some scopeKey) row here
  have other := @saveSweepElse m none (some scopeKey) (row.broken eventTime) (by simp)
  cases lane : m.sweepRow none with
  | none =>
    have second : breakContinuity eventTime none (m.saveSweepRow (some scopeKey) (row.broken eventTime)) =
        some (m.saveSweepRow (some scopeKey) (row.broken eventTime)) := by
      simp [breakContinuity,other,lane]
    refine ⟨m.saveSweepRow (some scopeKey) (row.broken eventTime),?_,rfl,rfl,?_,?_⟩
    · simp [Ingest.applyAbsence,importCall,ungated,ineligible,first,second]
    · rw [saveSweepHere _ here,here]
      rfl
    · rw [other,lane]
      rfl
  | some old =>
    have second := @breakSaves (m.saveSweepRow (some scopeKey) (row.broken eventTime)) eventTime none old
      (other.trans lane)
    refine ⟨(m.saveSweepRow (some scopeKey) (row.broken eventTime)).saveSweepRow none (old.broken eventTime),?_,
      rfl,rfl,?_,?_⟩
    · simp [Ingest.applyAbsence,importCall,ungated,ineligible,first,second]
    · rw [saveSweepElse _ (by simp),saveSweepHere _ here,here]
      rfl
    · rw [saveSweepHere _ (other.trans lane),lane]
      rfl

end

theorem neverReadAsAbsence (remoteStatus : String) (output : Output) (rows : List Json) (admitted : AdmittedRun)
    (maxItemBytes : Nat) (c : RunClassification)
    (ok : classifyRun remoteStatus output rows.length (usableCount admitted maxItemBytes rows) admitted = some c) :
    (c.completeness = .complete →
      (∃ run, validated output = .ok run ∧ Swept remoteStatus run rows) ∧
      ∀ row ∈ rows, ∃ listing,
        importRow row admitted.queryScope.siteKey admitted.queryScope.collectionScope maxItemBytes = .ok listing) ∧
    (c.truncationReason.isSome = true ↔ c.completeness = .truncated) ∧
    (∀ scope gated, gateDelistScope scope (importEvidence c) = some gated →
      c.completeness = .complete ∧ scope = some gated ∧ gated.complete = true) ∧
    (c.completeness ≠ .complete → ∀ scope scopeKey eventTime previousRun (m : Market), ∃ m',
      Ingest.applyAbsence (importCall scopeKey c scope eventTime) previousRun
      (m.ensureWatermarkRows [some scopeKey,none]) =
        some (m',0) ∧ OnlyBroken scopeKey eventTime (m.ensureWatermarkRows [some scopeKey,none]) m') := by
  obtain ⟨terminal,reported⟩ := classifiedRun ok
  refine ⟨?_,?_,fun scope gated => gatedComplete,incompleteBreaks⟩
  · intro complete
    rcases reported with ⟨reason,rfl⟩ | ⟨run,valid,rfl⟩
    · contradiction
    have whole := completeReport complete
    have status : remoteStatus = "SUCCEEDED" := by
      simpa [terminalRunStatuses,whole.finished] using terminal
    refine ⟨⟨run,valid,status,whole.counted,whole.unlimited,whole.errorless,?_⟩,?_⟩
    · rintro rfl
      exact whole.empty rfl
    · by_cases none_ : rows = []
      · simp [none_]
      · exact usableAll (whole.usable fun zero => none_ (List.length_eq_zero_iff.mp zero))
  · rcases reported with ⟨reason,rfl⟩ | ⟨run,-,rfl⟩
    · simp [failed]
    · exact truncationReported

def demoScope : QueryScope := ⟨"demo","demo:drive:all","drive",500,50,100,10000000,900⟩

def demoRow : Json :=
  .obj [("schemaVersion",.str "hw-radar-listing/v1"),("siteKey",.str "demo"),("sourceListingKey",.str "a-1"),
    ("url",.str "https://demo.invalid/a-1"),("title",.str "Drive"),("price",.str "199.99"),("currency",.str "USD"),
    ("stockStatus",.str "in_stock"),("categoryHint",.str "drive"),("collectionScope",.str "demo:drive:all"),
    ("observedAt",.str "2026-08-01T10:00:00.5Z")]

def demoOutput : Json :=
  .obj [("schemaVersion",.str "hw-radar-run/v1"),("status",.str "succeeded"),
    ("completeness",.obj [("complete",.bool true),("truncated",.bool false),
      ("limitsHit",.obj [("pages",.bool false),("requests",.bool false),("items",.bool false),("time",.bool false),
        ("bytes",.bool false)]),
      ("pagesDeclared",.num "1"),("pagesFetched",.num "1"),("itemsDeclared",.null),("itemsEmitted",.num "1")]),
    ("queryScope",.obj [("siteKey",.str "demo"),("collectionScope",.str "demo:drive:all"),("categoryHint",.str "drive"),
      ("maxItems",.num "500"),("maxPages",.num "50"),("maxRequests",.num "100"),("maxBytes",.num "10000000"),
      ("timeBudgetSecs",.num "900")]),
    ("provider",.obj [("actorName",.str "hw-radar-demo"),("actorVersion",.str "0.1"),("sourceKind",.str "static")]),
    ("errors",.arr [])]

def demoClassified : Option RunClassification :=
  classifyRun "SUCCEEDED" (.decoded demoOutput) 1 (usableCount ⟨demoScope,"hw-radar-demo"⟩ 32735 [demoRow])
    ⟨demoScope,"hw-radar-demo"⟩

theorem demoSwept : (∃ run, validated (.decoded demoOutput) = .ok run ∧ Swept "SUCCEEDED" run [demoRow]) ∧
    ∀ row ∈ [demoRow], ∃ listing, importRow row "demo" "demo:drive:all" 32735 = .ok listing :=
  (neverReadAsAbsence "SUCCEEDED" (.decoded demoOutput) [demoRow] ⟨demoScope,"hw-radar-demo"⟩ 32735
    (demoClassified.get (by decide +kernel)) (Option.some_get _).symm).1 (by decide +kernel)

end HwRadar.Apify.Contract
