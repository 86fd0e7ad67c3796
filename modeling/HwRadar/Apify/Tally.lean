import HwRadar.Apify.Cycles

/-! The debits of one cycle. A row counts by its guard-widened intervals; the
query's own filter is kept beside the exact predicate. The fold over the rows
is a sum of row parts. -/
namespace HwRadar.Apify
open HwRadar.Base HwRadar.Base.Calendar

def never : Int := midnight 9000 1 1

structure ClassTally where
  settled : Nat := 0
  unsettled : Nat := 0
  monitoring : Nat := 0
  deriving DecidableEq, Repr

def ClassTally.add (a b : ClassTally) : ClassTally :=
  ⟨a.settled + b.settled,a.unsettled + b.unsettled,a.monitoring + b.monitoring⟩

def ClassTally.total (a : ClassTally) : Nat := a.settled + a.unsettled + a.monitoring

structure Tally where
  runtime : ClassTally := {}
  operator : ClassTally := {}
  carried : Nat := 0
  obligations : List Nat := []
  deriving DecidableEq, Repr

def Tally.debits (t : Tally) : CycleDebits :=
  ⟨t.runtime.total,t.operator.total,t.carried⟩

def hasObligation (row : Reservation) : Bool := !envelopeKind row.operatorKind

def correctionReads (runs : List ProviderRun) (row : Reservation) : Nat :=
  match row.providerRun.bind fun pk => runs[pk]? with
  | some run => run.correctionReadCount
  | none => row.correctionReadCount

def monitoringOpen (config : LedgerConfig) (runs : List ProviderRun) (row : Reservation) : Bool :=
  if row.monitoringCallPendingSince.isSome then true
  else if !hasObligation row || row.correctionMonitorClosedAt.isSome then false
  else match config.budget.maxCorrectionReads with
  | none => true
  | some cap => (correctionReads runs row : Int) < cap

def atLeast (value : Option Int) (bound : Int) : Bool := value.any fun v => bound ≤ v

/-- The SQL prefilter: a null column never satisfies a comparison. -/
def prefilter (g yStart yEnd : Int) (row : Reservation) : Bool :=
  (row.status.isOpen ||
    (row.status == .reconciled &&
      (atLeast row.lastChargeAt (yStart - g) || atLeast row.reconciledAt (yStart - g) ||
       atLeast row.monitoringChargeLastAt (yStart - g) || row.correctionMonitorClosedAt.isNone ||
       row.monitoringCallPendingSince.isSome))) &&
  row.reservedAt ≤ yEnd + g

section
variable (config : LedgerConfig) (runs : List ProviderRun) (yStart yEnd : Int)

def monitoringEnd (reconciledAt : Int) (row : Reservation) : Int :=
  if monitoringOpen config runs row then never
  else row.monitoringChargeLastAt.getD reconciledAt + guard config

def settledTouches (lastChargeAt : Int) (row : Reservation) : Bool :=
  Spans.touches (row.reservedAt - guard config) (lastChargeAt + guard config) yStart yEnd

def monitoringTouches (reconciledAt : Int) (row : Reservation) : Bool :=
  Spans.touches (reconciledAt - guard config) (monitoringEnd config runs reconciledAt row) yStart yEnd

def rowPart (row : Reservation) : ClassTally :=
  if row.status ≠ .reconciled then
    { unsettled := row.estimateUsd.getD 0 + row.monitoringBoundUsd.getD 0 }
  else match row.lastChargeAt,row.reconciledAt with
  | some lastChargeAt,some reconciledAt =>
    { settled := if settledTouches config yStart yEnd lastChargeAt row then row.actualUsd.getD 0 else 0
      monitoring := if monitoringTouches config runs yStart yEnd reconciledAt row
        then row.monitoringBoundUsd.getD 0 else 0 }
  | _,_ => {}

def obliged (row : Reservation) : Bool :=
  row.status == .reconciled && hasObligation row &&
  match row.lastChargeAt,row.reconciledAt with
  | some lastChargeAt,some reconciledAt =>
    monitoringTouches config runs yStart yEnd reconciledAt row ||
      settledTouches config yStart yEnd lastChargeAt row
  | _,_ => false

def tallyRow (t : Tally) (entry : Reservation × Nat) : Tally :=
  let row := entry.1
  let part := rowPart config runs yStart yEnd row
  { t with
    runtime := if row.admissionClass = .operator then t.runtime else t.runtime.add part
    operator := if row.admissionClass = .operator then t.operator.add part else t.operator
    obligations := if obliged config runs yStart yEnd row then t.obligations ++ [entry.2] else t.obligations }
end

def Ledger.carriedFor (l : Ledger) (yStart : Int) : Nat :=
  ((l.authorityFor yStart).map LedgerAuthority.carriedConsumptionUsd).getD 0

def tallyRows (config : LedgerConfig) (l : Ledger) (yStart yEnd : Int) : Tally :=
  (l.reservations.zipIdx.filter fun entry => prefilter (guard config) yStart yEnd entry.1).foldl
    (tallyRow config l.runs yStart yEnd) {}

def tally (config : LedgerConfig) (l : Ledger) (yStart yEnd : Int) : Tally :=
  { tallyRows config l yStart yEnd with carried := l.carriedFor yStart }

def cycleDebits (config : LedgerConfig) (l : Ledger) (cycle : BudgetCycle) : CycleDebits × CycleDebits :=
  ((tally config l cycle.cycleStart cycle.cycleEnd).debits,
   (tallyRows config l (cycle.cycleEnd + cycleEndEpsilon) never).debits)

def sidePart (side : Bool) (config : LedgerConfig) (runs : List ProviderRun) (yStart yEnd : Int)
    (row : Reservation) : ClassTally :=
  if prefilter (guard config) yStart yEnd row ∧ decide (row.admissionClass = .operator) = side then
    rowPart config runs yStart yEnd row
  else {}

def Tally.side (t : Tally) (operator : Bool) : ClassTally := if operator then t.operator else t.runtime

section
variable {φ : ClassTally → Nat} (additive : ∀ a b, φ (a.add b) = φ a + φ b) (zero : φ {} = 0)
include additive zero

theorem tallyFold (config : LedgerConfig) (runs : List ProviderRun) (yStart yEnd : Int) (side : Bool)
    (entries : List (Reservation × Nat)) (t : Tally) :
    φ (((entries.filter fun entry => prefilter (guard config) yStart yEnd entry.1).foldl
      (tallyRow config runs yStart yEnd) t).side side) =
    φ (t.side side) + (entries.map fun entry => φ (sidePart side config runs yStart yEnd entry.1)).sum := by
  induction entries generalizing t with
  | nil => simp
  | cons entry rest ih =>
    rw [List.map_cons,List.sum_cons,List.filter_cons]
    split
    · rename_i passes
      rw [List.foldl_cons,ih,← add_assoc]
      congr 1
      cases operator : decide (entry.1.admissionClass = .operator) <;> cases side <;>
        simp_all [Tally.side,tallyRow,sidePart]
    · rename_i drops
      rw [ih]
      have none : sidePart side config runs yStart yEnd entry.1 = {} := by simp [sidePart,drops]
      rw [none,zero,zero_add]

theorem tallySide (config : LedgerConfig) (l : Ledger) (yStart yEnd : Int) (side : Bool) :
    φ ((tallyRows config l yStart yEnd).side side) =
    (l.reservations.map fun row => φ (sidePart side config l.runs yStart yEnd row)).sum := by
  have h := tallyFold additive zero config l.runs yStart yEnd side l.reservations.zipIdx {}
  have start : φ (Tally.side {} side) = 0 := by cases side <;> exact zero
  rw [start,zero_add] at h
  rw [tallyRows,h]
  congr 1
  calc (l.reservations.zipIdx.map fun entry => φ (sidePart side config l.runs yStart yEnd entry.1))
      = (l.reservations.zipIdx.map Prod.fst).map
          (fun row => φ (sidePart side config l.runs yStart yEnd row)) := by rw [List.map_map]; rfl
    _ = l.reservations.map fun row => φ (sidePart side config l.runs yStart yEnd row) := by
        rw [List.zipIdx_map_fst]
end

theorem totalAdd (a b : ClassTally) : (a.add b).total = a.total + b.total := by
  simp only [ClassTally.add,ClassTally.total]; omega

theorem runtimeCommitted (config : LedgerConfig) (l : Ledger) (yStart yEnd : Int) :
    (tally config l yStart yEnd).debits.runtimeCommittedUsd =
    (l.reservations.map fun row => (sidePart false config l.runs yStart yEnd row).total).sum :=
  tallySide totalAdd rfl config l yStart yEnd false

theorem operatorCommitted (config : LedgerConfig) (l : Ledger) (yStart yEnd : Int) :
    (tally config l yStart yEnd).debits.operatorCommittedUsd =
    (l.reservations.map fun row => (sidePart true config l.runs yStart yEnd row).total).sum :=
  tallySide totalAdd rfl config l yStart yEnd true

end HwRadar.Apify
