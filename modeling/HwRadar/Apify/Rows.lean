import HwRadar.Apify.Settings

/-! The ledger's tables. A row's primary key is its position: rows are only
appended and changed in place, never deleted. Money columns count 0.0001 USD;
a provider figure is a decimal of its own. The CHECK constraints of a
reservation travel with its table. -/
namespace HwRadar.Apify

inductive Json where
  | null
  | bool (value : Bool)
  | num (text : String)
  | str (text : String)
  | arr (items : List Json)
  | obj (fields : List (String × Json))

def lookup (key : String) (fields : List (String × Json)) : Json :=
  ((fields.find? fun field => field.1 == key).map Prod.snd).getD .null

inductive ReservationStatus where
  | reserved | usageProvisional | usageFinalized | reconciled | released | denied
  deriving DecidableEq, Repr

inductive ImportState where
  | pending | observationsCommitted | absenceApplied | resolved | evaluated | finalized | rejected
  deriving DecidableEq, Repr

inductive StorageState where
  | retained | deleted | deleteFailed
  deriving DecidableEq, Repr

inductive Storage where
  | dataset | kvStore
  deriving DecidableEq, Repr

inductive LedgerAuthorityKind where
  | origin | handoff | continued
  deriving DecidableEq, Repr

inductive LatchReason where
  | overrun | postAdmissionInvariantBreach | unexpectedUsageComponent | datasetOverCap
  | kvStoreOverCap | startOptionMismatch | deleteAttemptsExhausted | orphanedStart
  | apiResponseOverCap | accountLimitRefused
  deriving DecidableEq, Repr

structure StartError where
  kind : String
  statusCode : Option Int
  errorType : Option String
  deriving DecidableEq, Repr

structure ProviderRun where
  sourceSite : Nat
  scopeKey : String
  memoryMb : Nat
  timeoutS : Nat
  maxItems : Nat
  maxPages : Nat
  admissionClass : BudgetClass
  admittedAt : Int
  storageCleanupDueAt : Int
  externalRunId : Option String := none
  remoteStatus : Option String := none
  remoteTerminalAt : Option Int := none
  startedAt : Option Int := none
  finishedAt : Option Int := none
  datasetId : Option String := none
  kvStoreId : Option String := none
  importState : ImportState := .pending
  startError : Option StartError := none
  startMismatch : List String := []
  importAttempts : Nat := 0
  nextAttemptAt : Option Int := none
  scraperRun : Option Nat := none
  datasetReadCount : Nat := 0
  kvReadCount : Nat := 0
  runPollCount : Nat := 0
  correctionReadCount : Nat := 0
  finalChargeOpAt : Option Int := none
  storageState : StorageState := .retained
  storageCleanupAttempts : Nat := 0
  storageDeletedAt : Option Int := none
  storageVerified : List Storage := []
  cleanupErrors : List String := []
  orphanedStartAt : Option Int := none
  deriving DecidableEq

structure Envelope where
  maxItems : Option Int := none
  maxRecordReads : Option Int := none
  maxBytes : Option Int := none
  maxCalls : Option Int := none
  deriving DecidableEq

structure Reservation where
  providerRun : Option Nat
  sourceSite : Option Nat
  admissionClass : BudgetClass
  operatorKind : Option OperatorKind
  providerBuildId : Option String
  status : ReservationStatus
  denialReason : Option DenialReason
  reason : String
  probeDatasetId : Option String
  estimateUsd : Option Nat
  executionBoundUsd : Option Nat
  postRunLiabilityUsd : Option Nat
  monitoringBoundUsd : Option Nat
  componentBounds : List (String × Base.Decimal.Dec)
  estimatorVersion : String
  envelope : Envelope
  usageProvisionalUsd : Option Nat
  usageFinalizedUsd : Option Nat
  usageFinalizedAt : Option Int
  settlementBasis : Option SettlementBasis
  settledRunUsageUsd : Option Nat
  postRunCostUsd : Option Nat
  postRunCostMode : Option PostRunCostMode
  actualUsd : Option Nat
  reservedAt : Int
  reconciledAt : Option Int
  lastChargeAt : Option Int
  correctionMonitorUntil : Option Int
  nextUsageReadAt : Option Int
  correctionMonitorClosedAt : Option Int
  correctionClosingRead : Option Nat
  monitoringChargeLastAt : Option Int
  monitoringCallPendingSince : Option Int
  runPollCount : Nat
  correctionReadCount : Nat
  deriving DecidableEq

/-- `_OPEN_STATUSES`: the states that count at the full estimate. -/
def ReservationStatus.isOpen : ReservationStatus → Bool
  | .reserved | .usageProvisional | .usageFinalized => true
  | .reconciled | .released | .denied => false

def ReservationStatus.value : ReservationStatus → String
  | .reserved => "reserved"
  | .usageProvisional => "usage_provisional"
  | .usageFinalized => "usage_finalized"
  | .reconciled => "reconciled"
  | .released => "released"
  | .denied => "denied"

/-- `_ENVELOPE_KINDS`: no provider figure to re-read, so no correction obligation. -/
def envelopeKind : Option OperatorKind → Bool
  | some .inspect | some .probe => true
  | _ => false

def Envelope.fits (kind : Option OperatorKind) (e : Envelope) : Bool :=
  match kind with
  | some .inspect => e.maxItems.isSome && e.maxRecordReads.isSome && e.maxBytes.isSome && e.maxCalls.isNone
  | some .probe => e.maxItems.isNone && e.maxRecordReads.isNone && e.maxBytes.isNone && e.maxCalls.isSome
  | _ => e.maxItems.isNone && e.maxRecordReads.isNone && e.maxBytes.isNone && e.maxCalls.isNone

structure Reservation.Checked (row : Reservation) : Prop where
  operatorKindIffOperator : row.admissionClass = .operator ↔ row.operatorKind ≠ none
  runOnlyOnAdmittedRuntime : row.providerRun = none ∨ (row.admissionClass ≠ .operator ∧ row.status ≠ .denied)
  runtimeUsageNeedsRun : row.admissionClass ≠ .operator →
    row.status = .usageProvisional ∨ row.status = .usageFinalized ∨ row.status = .reconciled →
    row.providerRun ≠ none
  runtimeHasSource : row.admissionClass ≠ .operator → row.sourceSite ≠ none
  denialReasonIffDenied : row.status = .denied ↔ row.denialReason ≠ none
  admittedHasBounds : row.status ≠ .denied → row.estimateUsd ≠ none ∧ row.monitoringBoundUsd ≠ none
  envelopeRowsNoMonitoring : envelopeKind row.operatorKind = true → row.monitoringBoundUsd.getD 0 = 0
  envelopeLimitsByKind : row.status ≠ .denied → row.envelope.fits row.operatorKind = true
  probeDatasetOnlyOnProbe : row.probeDatasetId ≠ none → row.operatorKind = some .probe
  buildIdOnlyOnBuild : row.providerBuildId ≠ none → row.operatorKind = some .build
  reconciledBuildHasBuildId : row.operatorKind = some .build → row.status = .reconciled →
    row.providerBuildId ≠ none
  reconciledHasSettlement : row.status = .reconciled →
    row.actualUsd ≠ none ∧ row.reconciledAt ≠ none ∧ row.lastChargeAt ≠ none
  finalizedUsagePair : row.usageFinalizedUsd = none ↔ row.usageFinalizedAt = none
  closureWithClosingRead : (row.correctionMonitorClosedAt = none ∧ row.correctionClosingRead = none) ∨
    (row.correctionMonitorClosedAt ≠ none ∧ row.correctionClosingRead ≠ none ∧
      row.correctionMonitorUntil ≠ none)

def Reservation.checks (row : Reservation) : List (String × Bool) :=
  [("apify_resv_operator_kind_iff_operator",
      decide (row.admissionClass = .operator ↔ row.operatorKind ≠ none)),
   ("apify_resv_run_only_on_admitted_runtime",
      decide (row.providerRun = none ∨ (row.admissionClass ≠ .operator ∧ row.status ≠ .denied))),
   ("apify_resv_runtime_usage_needs_run",
      decide (row.admissionClass ≠ .operator →
        row.status = .usageProvisional ∨ row.status = .usageFinalized ∨ row.status = .reconciled →
        row.providerRun ≠ none)),
   ("apify_resv_runtime_has_source",
      decide (row.admissionClass ≠ .operator → row.sourceSite ≠ none)),
   ("apify_resv_denial_reason_iff_denied",decide (row.status = .denied ↔ row.denialReason ≠ none)),
   ("apify_resv_admitted_has_bounds",
      decide (row.status ≠ .denied → row.estimateUsd ≠ none ∧ row.monitoringBoundUsd ≠ none)),
   ("apify_resv_envelope_rows_no_monitoring",
      decide (envelopeKind row.operatorKind = true → row.monitoringBoundUsd.getD 0 = 0)),
   ("apify_resv_envelope_limits_by_kind",
      decide (row.status ≠ .denied → row.envelope.fits row.operatorKind = true)),
   ("apify_resv_probe_dataset_only_on_probe",
      decide (row.probeDatasetId ≠ none → row.operatorKind = some .probe)),
   ("apify_resv_build_id_only_on_build",
      decide (row.providerBuildId ≠ none → row.operatorKind = some .build)),
   ("apify_resv_reconciled_build_has_build_id",
      decide (row.operatorKind = some .build → row.status = .reconciled → row.providerBuildId ≠ none)),
   ("apify_resv_reconciled_has_settlement",
      decide (row.status = .reconciled →
        row.actualUsd ≠ none ∧ row.reconciledAt ≠ none ∧ row.lastChargeAt ≠ none)),
   ("apify_resv_finalized_usage_pair",
      decide (row.usageFinalizedUsd = none ↔ row.usageFinalizedAt = none)),
   ("apify_resv_closure_with_closing_read",
      decide ((row.correctionMonitorClosedAt = none ∧ row.correctionClosingRead = none) ∨
        (row.correctionMonitorClosedAt ≠ none ∧ row.correctionClosingRead ≠ none ∧
          row.correctionMonitorUntil ≠ none)))]

def Reservation.violated (row : Reservation) : Option String :=
  (row.checks.find? fun check => check.2 == false).map Prod.fst

theorem checkedIff (row : Reservation) : row.violated = none ↔ row.Checked := by
  simp only [Reservation.violated,Option.map_eq_none_iff,List.find?_eq_none,Reservation.checks,
    List.forall_mem_cons,List.not_mem_nil,false_implies,implies_true,and_true,beq_iff_eq,
    decide_eq_false_iff_not,not_not]
  constructor
  · rintro ⟨a,b,c,d,e,f,g,h,i,j,k,l,m,n⟩
    exact ⟨a,b,c,d,e,f,g,h,i,j,k,l,m,n⟩
  · rintro ⟨a,b,c,d,e,f,g,h,i,j,k,l,m,n⟩
    exact ⟨a,b,c,d,e,f,g,h,i,j,k,l,m,n⟩

structure Component where
  name : String
  value : ℚ
  text : String
  deriving DecidableEq

structure UsageRead where
  reservation : Nat
  providerRun : Option Nat
  readAt : Int
  usageTotalUsd : Option ℚ
  usageUsd : List (String × String)
  finishedAtReported : Option Int
  priceSettingsVersion : String
  deriving DecidableEq

structure BudgetLatch where
  trippedAt : Int
  providerRun : Option Nat
  reason : LatchReason
  clearedAt : Option Int
  clearedReason : String
  estimatorVersion : String
  deriving DecidableEq

structure BudgetCycle where
  cycleStart : Int
  cycleEnd : Int
  allocationUsd : Option ℚ
  openedAt : Int
  accountReadCount : Nat
  deriving DecidableEq

structure LedgerAuthority where
  cycleStart : Int
  kind : LedgerAuthorityKind
  ledgerId : String
  carriedConsumptionUsd : Nat
  attestedBy : String
  createdAt : Int
  handedOffAt : Option Int
  handedOffTo : Option String
  handoffRecordDigest : Option String
  handoffRecord : Option Json
  importedRecordDigest : Option String

structure Ledger where
  cycles : List BudgetCycle
  authority : List LedgerAuthority
  reservations : List Reservation
  runs : List ProviderRun
  usageReads : List UsageRead
  latches : List BudgetLatch
  rowsChecked : ∀ row ∈ reservations, row.Checked

def Ledger.empty : Ledger := ⟨[],[],[],[],[],[],by simp⟩

inductive Fault where
  | refused (code detail : String)
  | integrity (constraint : String)
  | assertion (what : String)
  deriving DecidableEq, Repr

theorem bindOk {ε α β : Type} {x : Except ε α} {f : α → Except ε β} {b : β} :
    (x >>= f) = .ok b ↔ ∃ a, x = .ok a ∧ f a = .ok b := by
  cases x with
  | error e => simp [bind,Except.bind]
  | ok a => simp [bind,Except.bind]

def committed {α : Type} (fallback : α) : Except Fault α → α
  | .ok a => a
  | .error _ => fallback

def succeeds {α : Type} : Except Fault α → Bool
  | .ok _ => true
  | .error _ => false

theorem committedOk {α : Type} {fallback : α} {x : Except Fault α} (ok : succeeds x = true) :
    x = .ok (committed fallback x) := by
  cases x with
  | ok a => rfl
  | error fault => contradiction

theorem committedAs {α : Type} {fallback : α} {x y : Except Fault α} (ok : succeeds x = true) (same : y = x) :
    y = .ok (committed fallback x) :=
  same.trans (committedOk ok)

def Ledger.insertReservation (l : Ledger) (row : Reservation) : Except Fault (Ledger × Nat) :=
  match broken : row.violated with
  | some constraint => .error (.integrity constraint)
  | none => .ok ({ l with
      reservations := l.reservations ++ [row]
      rowsChecked := by
        intro r mem
        rcases List.mem_append.mp mem with old | new
        · exact l.rowsChecked r old
        · rw [List.mem_singleton] at new; rw [new]; exact (checkedIff row).mp broken },l.reservations.length)

def Ledger.saveReservation (l : Ledger) (pk : Nat) (row : Reservation) : Except Fault Ledger :=
  match broken : row.violated with
  | some constraint => .error (.integrity constraint)
  | none => .ok { l with
      reservations := l.reservations.set pk row
      rowsChecked := by
        intro r mem
        rcases List.mem_or_eq_of_mem_set mem with old | new
        · exact l.rowsChecked r old
        · rw [new]; exact (checkedIff row).mp broken }

theorem insertReservationOk {l l' : Ledger} {row : Reservation} {pk : Nat}
    (ok : l.insertReservation row = .ok (l',pk)) :
    row.Checked ∧ pk = l.reservations.length ∧ l'.reservations = l.reservations ++ [row] ∧
    l'.cycles = l.cycles ∧ l'.authority = l.authority ∧ l'.runs = l.runs ∧
    l'.usageReads = l.usageReads ∧ l'.latches = l.latches := by
  unfold Ledger.insertReservation at ok
  split at ok
  · cases ok
  · cases Except.ok.inj ok
    exact ⟨(checkedIff row).mp (by assumption),rfl,rfl,rfl,rfl,rfl,rfl,rfl⟩

theorem saveReservationOk {l l' : Ledger} {pk : Nat} {row : Reservation}
    (ok : l.saveReservation pk row = .ok l') :
    row.Checked ∧ l'.reservations = l.reservations.set pk row ∧
    l'.cycles = l.cycles ∧ l'.authority = l.authority ∧ l'.runs = l.runs ∧
    l'.usageReads = l.usageReads ∧ l'.latches = l.latches := by
  unfold Ledger.saveReservation at ok
  split at ok
  · cases ok
  · cases Except.ok.inj ok
    exact ⟨(checkedIff row).mp (by assumption),rfl,rfl,rfl,rfl,rfl,rfl⟩

end HwRadar.Apify
