import HwRadar.Apify.Environment

/-! The budget over whole runs. Only admission checks it. The rows are measured by
what they can still be charged with from a cycle's start on: a measure no other
transaction raises, that falls from one cycle to the next, and that equals the
tallied debits when an admission reads them. -/
namespace HwRadar.Apify
open HwRadar.Base HwRadar.Base.Tables

section
variable (config : LedgerConfig) (runs : List ProviderRun) (yStart : Int)

def liability (row : Reservation) : Nat :=
  if row.status.isOpen then row.estimateUsd.getD 0 + row.monitoringBoundUsd.getD 0
  else if row.status = .reconciled then
    match row.lastChargeAt,row.reconciledAt with
    | some lastChargeAt,some reconciledAt =>
      (if yStart ≤ lastChargeAt + guard config then row.actualUsd.getD 0 else 0) +
      (if yStart ≤ monitoringEnd config runs reconciledAt row then row.monitoringBoundUsd.getD 0 else 0)
    | _,_ => 0
  else 0

def sideLiability (side : Bool) (row : Reservation) : Nat :=
  if decide (row.admissionClass = .operator) = side then liability config runs yStart row else 0
end

section
variable {config : LedgerConfig} {runs : List ProviderRun} {yStart yEnd : Int} {row : Reservation}

theorem guardNonneg (config : LedgerConfig) : 0 ≤ guard config := by
  unfold guard
  split
  · split
    · decide
    · exact Calendar.secondsNonneg (not_lt.mp (by assumption))
  · decide

theorem isOpenNotReconciled {status : ReservationStatus} (isOpen : status.isOpen = true) :
    status ≠ .reconciled := by
  cases status <;> simp_all [ReservationStatus.isOpen]

theorem liabilityOpen (isOpen : row.status.isOpen = true) :
    liability config runs yStart row = row.estimateUsd.getD 0 + row.monitoringBoundUsd.getD 0 := if_pos isOpen

theorem liabilityReconciled (reconciled : row.status = .reconciled) {lastChargeAt reconciledAt : Int}
    (charged : row.lastChargeAt = some lastChargeAt) (at_ : row.reconciledAt = some reconciledAt) :
    liability config runs yStart row =
      (if yStart ≤ lastChargeAt + guard config then row.actualUsd.getD 0 else 0) +
      (if yStart ≤ monitoringEnd config runs reconciledAt row then row.monitoringBoundUsd.getD 0 else 0) := by
  unfold liability
  rw [reconciled,charged,at_]
  rfl

theorem liabilityClosed (closed : row.status.isOpen = false) (unsettled : row.status ≠ .reconciled) :
    liability config runs yStart row = 0 := by
  simp [liability,closed,unsettled]

theorem liabilityUndated (reconciled : row.status = .reconciled)
    (undated : row.lastChargeAt = none ∨ row.reconciledAt = none) : liability config runs yStart row = 0 := by
  unfold liability
  rw [reconciled]
  rcases undated with h | h
  · rw [h]; rfl
  · rw [h]; cases row.lastChargeAt <;> rfl

theorem partReconciled (reconciled : row.status = .reconciled) {lastChargeAt reconciledAt : Int}
    (charged : row.lastChargeAt = some lastChargeAt) (at_ : row.reconciledAt = some reconciledAt) :
    (rowPart config runs yStart yEnd row).total =
      (if settledTouches config yStart yEnd lastChargeAt row then row.actualUsd.getD 0 else 0) +
      (if monitoringTouches config runs yStart yEnd reconciledAt row then row.monitoringBoundUsd.getD 0 else 0) := by
  simp [rowPart,reconciled,charged,at_,ClassTally.total]

theorem partOpen (isOpen : row.status.isOpen = true) : (rowPart config runs yStart yEnd row).total =
    row.estimateUsd.getD 0 + row.monitoringBoundUsd.getD 0 := by
  simp [rowPart,isOpenNotReconciled isOpen,ClassTally.total]

theorem partLe (row : Reservation) (side : Bool) :
    (sidePart side config runs yStart yEnd row).total ≤ sideLiability config runs yStart side row := by
  unfold sidePart sideLiability
  split
  swap
  · exact Nat.zero_le _
  rename_i counted
  obtain ⟨passes,same⟩ := counted
  rw [if_pos same]
  by_cases reconciled : row.status = .reconciled
  swap
  · have isOpen : row.status.isOpen = true := by
      simp only [prefilter,Bool.and_eq_true,Bool.or_eq_true,beq_iff_eq] at passes
      exact passes.1.resolve_right fun h => reconciled h.1
    rw [liabilityOpen isOpen,partOpen isOpen]
  cases charged : row.lastChargeAt with
  | none => simp [rowPart,reconciled,charged,ClassTally.total]
  | some lastChargeAt =>
    cases at_ : row.reconciledAt with
    | none => simp [rowPart,reconciled,charged,at_,ClassTally.total]
    | some reconciledAt =>
      rw [liabilityReconciled reconciled charged at_,partReconciled reconciled charged at_]
      simp only [settledTouches,monitoringTouches,Spans.touchesIff]
      refine Nat.add_le_add ?_ ?_ <;> split <;> split <;> omega

theorem monitoringOpenUnclosed (isOpen : monitoringOpen config runs row = true) :
    row.monitoringCallPendingSince.isSome = true ∨ row.correctionMonitorClosedAt.isNone = true := by
  unfold monitoringOpen at isOpen
  split at isOpen
  · exact .inl (by assumption)
  · split at isOpen
    · cases isOpen
    · rename_i undone
      simp only [Bool.or_eq_true,not_or,Bool.not_eq_true,Option.isSome_eq_false_iff] at undone
      exact .inr undone.2

theorem sidePartOf {side : Bool} (passes : prefilter (guard config) yStart yEnd row = true)
    (same : decide (row.admissionClass = .operator) = side) :
    sidePart side config runs yStart yEnd row = rowPart config runs yStart yEnd row := if_pos ⟨passes,same⟩

theorem passesOfCounted (reconciled : row.status = .reconciled) (reserved : row.reservedAt ≤ yEnd)
    {lastChargeAt reconciledAt : Int} (charged : row.lastChargeAt = some lastChargeAt)
    (at_ : row.reconciledAt = some reconciledAt)
    (counted : yStart ≤ lastChargeAt + guard config ∨ yStart ≤ monitoringEnd config runs reconciledAt row) :
    prefilter (guard config) yStart yEnd row = true := by
  have g := guardNonneg config
  have late : row.reservedAt ≤ yEnd + guard config := by omega
  simp only [prefilter,reconciled,charged,at_,atLeast,Option.any_some,ReservationStatus.isOpen,Bool.false_or,
    beq_self_eq_true,Bool.true_and,Bool.and_eq_true,Bool.or_eq_true,decide_eq_true_eq]
  refine ⟨?_,late⟩
  rcases counted with settled | monitored
  · exact .inl (.inl (.inl (.inl (by omega))))
  · unfold monitoringEnd at monitored
    split at monitored
    · rename_i isOpen
      exact (monitoringOpenUnclosed isOpen).elim .inr fun unclosed => .inl (.inr unclosed)
    · cases last : row.monitoringChargeLastAt with
      | none => rw [last,Option.getD_none] at monitored; exact .inl (.inl (.inl (.inr (by omega))))
      | some t =>
        rw [last,Option.getD_some] at monitored
        have recent : yStart - guard config ≤ t := by omega
        exact .inl (.inl (.inr (by simpa using recent)))

theorem liabilityLePart (row : Reservation) (side : Bool) (reserved : row.reservedAt ≤ yEnd)
    (settled : ∀ t, row.reconciledAt = some t → t ≤ yEnd) :
    sideLiability config runs yStart side row ≤ (sidePart side config runs yStart yEnd row).total := by
  have g := guardNonneg config
  unfold sideLiability
  split
  swap
  · exact Nat.zero_le _
  rename_i same
  by_cases isOpen : row.status.isOpen = true
  · have passes : prefilter (guard config) yStart yEnd row = true := by
      simp only [prefilter,isOpen,Bool.true_or,Bool.true_and,decide_eq_true_eq]; omega
    rw [sidePartOf passes same,liabilityOpen isOpen,partOpen isOpen]
  by_cases reconciled : row.status = .reconciled
  swap
  · rw [liabilityClosed (by simpa using isOpen) reconciled]; exact Nat.zero_le _
  cases charged : row.lastChargeAt with
  | none => rw [liabilityUndated reconciled (.inl charged)]; exact Nat.zero_le _
  | some lastChargeAt =>
  cases at_ : row.reconciledAt with
  | none => rw [liabilityUndated reconciled (.inr at_)]; exact Nat.zero_le _
  | some reconciledAt =>
    have before := settled reconciledAt at_
    rw [liabilityReconciled reconciled charged at_]
    by_cases counted : yStart ≤ lastChargeAt + guard config ∨ yStart ≤ monitoringEnd config runs reconciledAt row
    · have passes := passesOfCounted reconciled reserved charged at_ counted
      rw [sidePartOf passes same,partReconciled reconciled charged at_]
      simp only [settledTouches,monitoringTouches,Spans.touchesIff]
      refine Nat.add_le_add ?_ ?_ <;> split <;> split <;> omega
    · rw [if_neg fun h => counted (.inl h),if_neg fun h => counted (.inr h)]
      exact Nat.zero_le _

theorem liabilityAntitone {later : Int} (order : yStart ≤ later) (row : Reservation) (side : Bool) :
    sideLiability config runs later side row ≤ sideLiability config runs yStart side row := by
  unfold sideLiability liability
  split
  · split
    · exact le_rfl
    · split
      · split
        · refine Nat.add_le_add ?_ ?_ <;> split <;> split <;> omega
        · exact le_rfl
      · exact le_rfl
  · exact le_rfl
end

section
variable {config : LedgerConfig} {runs runs' : List ProviderRun} {yStart : Int} {row row' : Reservation}

theorem liabilityLe (status : row'.status = row.status) (estimate : row'.estimateUsd = row.estimateUsd)
    (bound : row'.monitoringBoundUsd.getD 0 ≤ row.monitoringBoundUsd.getD 0)
    (actual : row.status = .reconciled → row'.actualUsd.getD 0 ≤ row.actualUsd.getD 0)
    (charged : row'.lastChargeAt = row.lastChargeAt) (at_ : row'.reconciledAt = row.reconciledAt)
    (ends : ∀ t, yStart ≤ monitoringEnd config runs' t row' →
      yStart ≤ monitoringEnd config runs t row ∨ row'.monitoringBoundUsd.getD 0 = 0) :
    liability config runs' yStart row' ≤ liability config runs yStart row := by
  by_cases isOpen : row.status.isOpen = true
  · rw [liabilityOpen isOpen,liabilityOpen (status ▸ isOpen),estimate]
    exact Nat.add_le_add_left bound _
  by_cases reconciled : row.status = .reconciled
  swap
  · rw [liabilityClosed (status ▸ by simpa using isOpen) (status ▸ reconciled)]; exact Nat.zero_le _
  have reconciled' : row'.status = .reconciled := status.trans reconciled
  cases last : row.lastChargeAt with
  | none => rw [liabilityUndated reconciled' (.inl (charged.trans last))]; exact Nat.zero_le _
  | some lastChargeAt =>
  cases settled : row.reconciledAt with
  | none => rw [liabilityUndated reconciled' (.inr (at_.trans settled))]; exact Nat.zero_le _
  | some reconciledAt =>
    rw [liabilityReconciled reconciled last settled,
      liabilityReconciled reconciled' (charged.trans last) (at_.trans settled)]
    have paid := actual reconciled
    have kept := ends reconciledAt
    refine Nat.add_le_add ?_ ?_
    · split <;> omega
    · split
      · rename_i counted
        rcases kept counted with before | none
        · rw [if_pos before]; exact bound
        · rw [none]; exact Nat.zero_le _
      · exact Nat.zero_le _

theorem endNever (early : yStart ≤ never) (isOpen : monitoringOpen config runs row = true) (t : Int) :
    yStart ≤ monitoringEnd config runs t row := by
  unfold monitoringEnd
  rw [if_pos isOpen]
  exact early

theorem pendingOpen (pending : row.monitoringCallPendingSince ≠ none) : monitoringOpen config runs row = true :=
  if_pos (Option.isSome_iff_ne_none.mpr pending)

theorem correctionReadsGrow (grow : RunsGrow runs runs')
    (linked : ∀ pk, row.providerRun = some pk → pk < runs.length) :
    correctionReads runs row ≤ correctionReads runs' row := by
  unfold correctionReads
  cases link : row.providerRun with
  | none => exact le_rfl
  | some pk =>
    obtain ⟨kept,added,rfl,rows⟩ := grow
    have inside := linked pk link
    obtain ⟨b,there,counts⟩ := forall₂Forward rows (List.getElem?_eq_getElem inside)
    have there' : (kept ++ added)[pk]? = some b := by
      rw [List.getElem?_append_left (List.getElem?_eq_some_iff.mp there).1]; exact there
    simp only [Option.bind_some,List.getElem?_eq_getElem inside,there']
    exact counts

theorem liabilityKept (early : yStart ≤ never) (grow : RunsGrow runs runs')
    (linked : ∀ pk, row.providerRun = some pk → pk < runs.length) :
    liability config runs' yStart row ≤ liability config runs yStart row := by
  refine liabilityLe rfl rfl le_rfl (fun _ => le_rfl) rfl rfl fun t counted => .inl ?_
  cases before : monitoringOpen config runs row with
  | true => exact endNever early before t
  | false =>
    have after : monitoringOpen config runs' row = false := by
      have reads := correctionReadsGrow grow linked
      unfold monitoringOpen at before ⊢
      split at before
      · cases before
      rename_i idle
      rw [if_neg idle]
      split at before
      · rw [if_pos (by assumption)]
      · rename_i undone
        rw [if_neg undone]
        cases cap : config.budget.maxCorrectionReads with
        | none => rw [cap] at before; contradiction
        | some limit =>
          rw [cap] at before
          simp only [decide_eq_false_iff_not,not_lt] at before ⊢
          omega
    unfold monitoringEnd at counted ⊢
    rw [after] at counted
    rw [before]
    exact counted

structure WithinEstimate (row row' : Reservation) : Prop where
  settlement : row.status.isOpen = true → row'.status = .reconciled →
    row'.actualUsd.getD 0 ≤ row'.estimateUsd.getD 0
  correction : row.status = .reconciled → row'.settledRunUsageUsd.getD 0 ≤ row.settledRunUsageUsd.getD 0

theorem liabilityWorked {now : Int} {link : Option Nat} (change : Worked now link row row')
    (within : WithinEstimate row row') :
    liability config runs' yStart row' ≤ liability config runs yStart row := by
  rw [liabilityOpen change.wasOpen]
  have estimate := change.estimateUsd
  have bound := change.monitoringBoundUsd
  by_cases isOpen : row'.status.isOpen = true
  · rw [liabilityOpen isOpen,estimate,bound]
  by_cases reconciled : row'.status = .reconciled
  · have paid := within.settlement change.wasOpen reconciled
    rw [estimate] at paid
    cases last : row'.lastChargeAt with
    | none => rw [liabilityUndated reconciled (.inl last)]; exact Nat.zero_le _
    | some lastChargeAt =>
    cases settled : row'.reconciledAt with
    | none => rw [liabilityUndated reconciled (.inr settled)]; exact Nat.zero_le _
    | some reconciledAt =>
      rw [liabilityReconciled reconciled last settled,bound]
      refine Nat.add_le_add ?_ ?_ <;> split <;> omega
  · rw [liabilityClosed (by simpa using isOpen) reconciled]; exact Nat.zero_le _

theorem liabilityBegun {now : Int} {l : Ledger} (early : yStart ≤ never) (checked : row.Checked)
    (change : Begun config now l row row') :
    liability config runs' yStart row' ≤ liability config l.runs yStart row := by
  obtain ⟨count,rfl⟩ := change.marked
  refine liabilityLe rfl rfl le_rfl (fun _ => le_rfl) rfl rfl fun t _ => ?_
  cases kind : envelopeKind row.operatorKind with
  | true => exact .inr (checked.envelopeRowsNoMonitoring kind)
  | false =>
    obtain ⟨cap,set,under⟩ := change.underCap
    refine .inl (endNever early ?_ t)
    simp [monitoringOpen,hasObligation,kind,change.unclosed,set,under]

theorem completedBound (row : Reservation) (run : Option ProviderRun) (read : Option Nat)
    (untilAt reconciledAt now : Int) (config : LedgerConfig) :
    (completedRow row run read untilAt reconciledAt now config).monitoringBoundUsd.getD 0 ≤
      row.monitoringBoundUsd.getD 0 := by
  simp only [completedRow]
  split
  · split
    · simp only [settleMonitoringAllowance]
      split
      · exact le_rfl
      split
      · exact le_rfl
      · exact Nat.min_le_left _ _
    · exact le_rfl
  · exact le_rfl

theorem liabilityCompleted {now : Int} (early : yStart ≤ never) (change : Completed config now row row')
    (pending : row.monitoringCallPendingSince ≠ none) (within : WithinEstimate row row') :
    liability config runs' yStart row' ≤ liability config runs yStart row := by
  obtain ⟨corrected,run,read,untilAt,reconciledAt,upward,_,rfl⟩ := change.applied
  obtain ⟨terms,at_,_,status,charged,actual,usage⟩ :=
    completedTerms corrected run read untilAt reconciledAt now config
  have bound := completedBound corrected run read untilAt reconciledAt now config
  have isOpen : monitoringOpen config runs row = true := pendingOpen pending
  rcases upward with rfl | ⟨figure,above,rfl⟩
  · exact liabilityLe status terms.estimateUsd bound (fun _ => actual ▸ le_rfl) charged at_
      fun t _ => .inl (endNever early isOpen t)
  · refine liabilityLe status terms.estimateUsd bound (fun reconciled => ?_) charged at_ fun t _ =>
      .inl (endNever early isOpen t)
    -- an upward correction of a reconciled row is excluded
    have lower := within.correction reconciled
    rw [usage] at lower
    exact absurd above (not_lt.mpr lower)

theorem liabilityResolved {processStartedAt : Int} (early : yStart ≤ never)
    (stale : staleMarker processStartedAt row = true) :
    liability config runs' yStart (resolvedRow processStartedAt row) ≤ liability config runs yStart row := by
  have pending : row.monitoringCallPendingSince ≠ none := by
    intro none
    rw [staleMarker,none] at stale
    cases stale
  exact liabilityLe rfl rfl le_rfl (fun _ => le_rfl) rfl rfl fun t _ => .inl (endNever early (pendingOpen pending) t)

theorem liabilityChange {now processStartedAt : Int} {link : Option Nat} {l : Ledger} (early : yStart ≤ never)
    (checked : row.Checked) (within : WithinEstimate row row')
    (change : RowChange config now processStartedAt link l row row') :
    liability config runs' yStart row' ≤ liability config l.runs yStart row := by
  cases change with
  | worked change => exact liabilityWorked change within
  | begun change => exact liabilityBegun early checked change
  | completed pending change => exact liabilityCompleted early change pending within
  | resolved stale marked => exact marked ▸ liabilityResolved early stale
end

def sideTotal (config : LedgerConfig) (yStart : Int) (side : Bool) (l : Ledger) : Nat :=
  (l.reservations.map (sideLiability config l.runs yStart side)).sum

def WithinEstimates (l l' : Ledger) : Prop :=
  ∀ (pk : Nat) row row', l.reservations[pk]? = some row → l'.reservations[pk]? = some row' → WithinEstimate row row'

section
variable {config : LedgerConfig} {yStart yEnd : Int}

theorem sideTotalAntitone {later : Int} (order : yStart ≤ later) (side : Bool) (l : Ledger) :
    sideTotal config later side l ≤ sideTotal config yStart side l :=
  List.sum_le_sum fun row _ => liabilityAntitone order row side

theorem runtimeLe (config : LedgerConfig) (l : Ledger) (yStart yEnd : Int) :
    (tally config l yStart yEnd).debits.runtimeCommittedUsd ≤ sideTotal config yStart false l := by
  rw [runtimeCommitted]
  exact List.sum_le_sum fun row _ => partLe row false

theorem operatorLe (config : LedgerConfig) (l : Ledger) (yStart yEnd : Int) :
    (tally config l yStart yEnd).debits.operatorCommittedUsd ≤ sideTotal config yStart true l := by
  rw [operatorCommitted]
  exact List.sum_le_sum fun row _ => partLe row true

theorem sideTotalRead {l : Ledger} (past : ∀ row ∈ l.reservations, row.reservedAt ≤ yEnd ∧
      ∀ t, row.reconciledAt = some t → t ≤ yEnd) :
    sideTotal config yStart false l ≤ (tally config l yStart yEnd).debits.runtimeCommittedUsd ∧
    sideTotal config yStart true l ≤ (tally config l yStart yEnd).debits.operatorCommittedUsd := by
  rw [runtimeCommitted,operatorCommitted]
  exact ⟨List.sum_le_sum fun row mem => liabilityLePart row false (past row mem).1 (past row mem).2,
    List.sum_le_sum fun row mem => liabilityLePart row true (past row mem).1 (past row mem).2⟩

theorem sideTotalRewritten {now processStartedAt : Int} {link : Option Nat} {l l' : Ledger} (side : Bool)
    (early : yStart ≤ never)
    (linked : ∀ row ∈ l.reservations, ∀ pk, row.providerRun = some pk → pk < l.runs.length)
    (grow : RunsGrow l.runs l'.runs) (within : WithinEstimates l l')
    (rows : Rewritten (RowChange config now processStartedAt link l) l.reservations l'.reservations) :
    sideTotal config yStart side l' ≤ sideTotal config yStart side l := by
  refine forall₂SumLe (forall₂Both rows within) fun row mem row' related => ?_
  obtain ⟨same | change,bounded⟩ := related
  · subst same
    unfold sideLiability
    split
    · exact liabilityKept early grow (linked row' mem)
    · exact le_rfl
  · have terms := (rowChangeKeeps change).1
    unfold sideLiability
    rw [terms.admissionClass]
    split
    · exact liabilityChange early (l.rowsChecked row mem) bounded change
    · exact le_rfl
end

structure Limits (config : LedgerConfig) where
  allocation : ℚ
  allowance : ℚ
  external : ℚ
  usable : ℚ
  allocationSet : projectAllocation config.budget = .ok allocation
  allowanceSet : setting config.budget.operatorAllowanceUsd "OPERATOR_ALLOWANCE_USD" = .ok allowance
  externalSet : nonNegative config.budget.externalLiabilityUsd = some external
  usableSet : usableUsd config.budget = .ok usable

section
variable {config : LedgerConfig} (limits : Limits config)

structure Limits.Within (runtime operator : Nat) : Prop where
  runtimeBound : usd runtime ≤ limits.allocation
  operatorBound : usd operator ≤ limits.allowance
  headroom : usd (runtime + operator) + limits.external ≤ limits.usable ∨
    (limits.usable < limits.external ∧ runtime + operator = 0)

variable {limits}

theorem allocationNonneg (limits : Limits config) : 0 ≤ limits.allocation := by
  obtain ⟨target,_,ok⟩ := bindOk.mp limits.allocationSet
  split at ok
  · cases ok
  obtain ⟨allowance,_,ok⟩ := bindOk.mp ok
  split at ok
  · cases ok
  · have difference := Except.ok.inj ok
    linarith

theorem withinZero (limits : Limits config) : limits.Within 0 0 := by
  refine ⟨?_,?_,?_⟩
  · rw [usdZero]; exact allocationNonneg limits
  · rw [usdZero]; exact (settingSound limits.allowanceSet).2
  · rw [add_zero,usdZero,zero_add]
    rcases le_or_gt limits.external limits.usable with h | h
    · exact .inl h
    · exact .inr ⟨h,rfl⟩

theorem Limits.Within.lower {runtime operator runtime' operator' : Nat} (within : limits.Within runtime operator)
    (first : runtime' ≤ runtime) (second : operator' ≤ operator) : limits.Within runtime' operator' := by
  refine ⟨(usdLe.mpr first).trans within.runtimeBound,(usdLe.mpr second).trans within.operatorBound,?_⟩
  rcases within.headroom with fits | ⟨short,zero⟩
  · have less : usd (runtime' + operator') ≤ usd (runtime + operator) := usdLe.mpr (by omega)
    exact .inl (by linarith)
  · exact .inr ⟨short,by omega⟩

theorem priceAllocation {request : AdmissionRequest} {cfg : BudgetSettings} {priced : Priced}
    (ok : priceRequest request cfg = .ok priced) :
    projectAllocation cfg = .ok priced.allocation ∧ 0 ≤ priced.reserve := by
  obtain ⟨allocation,allocated,ok⟩ := bindOk.mp ok
  obtain ⟨reserve,set,ok⟩ := bindOk.mp ok
  split at ok
  · cases ok
  obtain ⟨ceiling,_,ok⟩ := bindOk.mp ok
  obtain ⟨estimate,_,ok⟩ := bindOk.mp ok
  obtain ⟨lifetime,_,ok⟩ := bindOk.mp ok
  cases Except.ok.inj ok
  exact ⟨allocated,(settingSound set).2⟩

theorem admissionFits {request : AdmissionRequest} {state : LedgerState} {priced : Priced}
    {external usable : ℚ} (admitted : Admitted request config.budget state priced external usable)
    {runtime operator : Nat} (first : runtime ≤ state.current.runtimeCommittedUsd)
    (second : operator ≤ state.current.operatorCommittedUsd) (before : limits.Within runtime operator) :
    limits.Within (runtime + if request.budgetClass = .operator then 0 else priced.estimate.admissionUsd)
      (operator + if request.budgetClass = .operator then priced.estimate.admissionUsd else 0) := by
  have externals : external = limits.external := Option.some.inj (admitted.liability.symm.trans limits.externalSet)
  have usables : usable = limits.usable := Except.ok.inj (admitted.limit.symm.trans limits.usableSet)
  obtain ⟨allocated,reserve⟩ := priceAllocation admitted.estimated
  have allocations : priced.allocation = limits.allocation :=
    Except.ok.inj (allocated.symm.trans limits.allocationSet)
  have headroom := admitted.headroom
  rw [externals,usables] at headroom
  by_cases side : request.budgetClass = .operator
  · simp only [if_pos side,add_zero]
    cases request with
    | watchRefresh run => contradiction
    | discovery run => contradiction
    | operator kind =>
      obtain ⟨allowance,set,under⟩ := operatorFits admitted.capped
      have allowances : allowance = limits.allowance := Except.ok.inj (set.symm.trans limits.allowanceSet)
      rw [allowances] at under
      refine ⟨before.runtimeBound,(usdLe.mpr (by omega)).trans under,.inl ?_⟩
      have less : usd (runtime + (operator + priced.estimate.admissionUsd)) ≤
          usd (hrCycle state.current + priced.estimate.admissionUsd) := usdLe.mpr (by unfold hrCycle; omega)
      linarith
  · simp only [if_neg side,add_zero]
    have under := runtimeFits side reserve admitted.capped
    rw [allocations] at under
    refine ⟨(usdLe.mpr (by omega)).trans under,before.operatorBound,.inl ?_⟩
    have less : usd (runtime + priced.estimate.admissionUsd + operator) ≤
        usd (hrCycle state.current + priced.estimate.admissionUsd) := usdLe.mpr (by unfold hrCycle; omega)
    linarith
end

def Uncarried (l : Ledger) : Prop := ∀ row ∈ l.authority, row.carriedConsumptionUsd = 0

theorem continuedUncarried {start : Int} {config : LedgerConfig} {now : Int} {l : Ledger} (before : Uncarried l) :
    Uncarried (ensureContinuedAuthority start config now l) := by
  unfold ensureContinuedAuthority
  split
  · exact before
  · intro row mem
    rcases List.mem_append.mp mem with old | new
    · exact before row old
    · rw [List.mem_singleton.mp new]; rfl

theorem ensuredUncarried {config : LedgerConfig} {now : Int} {l l' : Ledger} {result}
    (step : Ensured config now l l' result) (before : Uncarried l) : Uncarried l' := by
  cases step with
  | unavailable => exact before
  | recorded => exact before
  | opened bounds free => exact continuedUncarried before

theorem sameUncarried {l l' : Ledger} (same : SameHoldings l l') (before : Uncarried l) : Uncarried l' :=
  fun row mem => before row (same.authority ▸ mem)

theorem uncarriedStep {digest : Json → String} {config : LedgerConfig} {now : Int} {l l' : Ledger} {event : Event}
    (holding : Holding digest config now l l' event) (noImport : ∀ record, event ≠ .handoffImported record)
    (before : Uncarried l) : Uncarried l' := by
  cases holding with
  | kept same => exact sameUncarried same before
  | ensured base step same => exact sameUncarried same (ensuredUncarried step (sameUncarried base before))
  | continued base step same =>
    exact sameUncarried same (continuedUncarried (ensuredUncarried step (sameUncarried base before)))
  | claimed found claimed =>
    have opened := ensuredUncarried (ensureCycleSound config now l) before
    obtain ⟨attestedBy,added⟩ := claimed.added
    intro row mem
    rw [added] at mem
    rcases List.mem_append.mp mem with old | new
    · exact opened row old
    · rw [List.mem_singleton.mp new]; rfl
  | exported found entry exported =>
    have opened := ensuredUncarried (ensureCycleSound config now l) before
    cases exported with
    | again => exact opened
    | drained =>
      intro row mem
      rcases List.mem_or_eq_of_mem_set mem with old | new
      · exact opened row old
      · have stored := List.mem_of_find?_eq_some entry
        rw [List.mem_zipIdx_iff_getElem?] at stored
        have uncarried := opened _ (List.mem_of_getElem? stored)
        rw [new]
        exact uncarried
  | imported => exact absurd rfl (noImport _)

def BudgetStep (digest : Json → String) (config : LedgerConfig) (w : World) (label : Label) (w' : World) : Prop :=
  Step digest w label w' ∧ label.config = config ∧ (∀ record, label.event ≠ .handoffImported record) ∧
  WithinEstimates w.ledger w'.ledger

structure Bounded {config : LedgerConfig} (limits : Limits config) (w : World) : Prop where
  sound : w.Sound
  uncarried : Uncarried w.ledger
  within : ∀ t, w.clock ≤ t → ∀ start stop, configuredBounds config t = some (start,stop) → start ≤ never →
    limits.Within (sideTotal config start false w.ledger) (sideTotal config start true w.ledger)

theorem configuredMono {config : LedgerConfig} {t u : Int} {a b : Int × Int} (order : t ≤ u)
    (left : configuredBounds config t = some a) (right : configuredBounds config u = some b) : a.1 ≤ b.1 := by
  obtain ⟨anchor,set,first⟩ := configuredBoundsSound left
  obtain ⟨anchor',set',second⟩ := configuredBoundsSound right
  obtain rfl : anchor = anchor' := Option.some.inj (set.symm.trans set')
  exact boundsMono order first second

section
variable {config : LedgerConfig} {limits : Limits config} {now : Int}

theorem sideTotalAppend (side : Bool) {start : Int} {l l' : Ledger} {row : Reservation}
    (appended : l'.reservations = l.reservations ++ [row]) (runs : l'.runs = l.runs) :
    sideTotal config start side l' = sideTotal config start side l + sideLiability config l.runs start side row := by
  simp [sideTotal,appended,runs]

theorem reservedLiability {request : AdmissionRequest} {decision : AdmissionDecision} {sourceSite : Option Nat}
    {envelope : Envelope} {reason : String} (runs : List ProviderRun) (start : Int) (side : Bool) :
    sideLiability config runs start side (.of request decision sourceSite envelope now reason) =
      if decide (request.budgetClass = .operator) = side ∧ decision.admitted then
        (decision.estimate.map CostEstimate.admissionUsd).getD 0 else 0 := by
  have status : (Reservation.of request decision sourceSite envelope now reason).status =
      if decision.admitted then .reserved else .denied := rfl
  by_cases same : decide (request.budgetClass = .operator) = side
  · have counted : sideLiability config runs start side (.of request decision sourceSite envelope now reason) =
        liability config runs start (.of request decision sourceSite envelope now reason) := if_pos same
    rw [counted]
    cases admitted : decision.admitted with
    | false =>
      rw [admitted] at status
      rw [liabilityClosed (by rw [status]; rfl) (by rw [status]; decide),if_neg (by simp)]
    | true =>
      rw [admitted] at status
      rw [liabilityOpen (by rw [status]; rfl),if_pos ⟨same,rfl⟩]
      cases estimate : decision.estimate <;> simp [Reservation.of,estimate,CostEstimate.admissionUsd]
  · rw [if_neg fun h => same h.1]
    exact if_neg same

theorem preparedSnapshot {l mid : Ledger} {state : LedgerState} {snap : AccountSnapshot}
    (prepared : Prepared config now l mid state) (taken : state.snapshot = some snap) :
    configuredBounds config now = some (snap.cycleStart,snap.cycleEnd) ∧
    state.current = (tally config mid snap.cycleStart snap.cycleEnd).debits := by
  cases prepared with
  | noCycle => contradiction
  | cycle step =>
    cases Option.some.inj taken
    exact ⟨(ensuredRow step).2,rfl⟩

theorem reserveWithin {request : AdmissionRequest} {w : World} {l' mid : Ledger} {outcome : ReservationOutcome}
    {state : LedgerState} {row : Reservation} (inv : Bounded limits w) (order : w.clock ≤ now)
    (admission : Reserved request config now w.ledger l' outcome mid state row) {t start stop : Int}
    (after : now ≤ t) (cycle : configuredBounds config t = some (start,stop)) (early : start ≤ never) :
    limits.Within (sideTotal config start false l') (sideTotal config start true l') := by
  obtain ⟨site,envelope,reason,made⟩ := admission.content
  have before := inv.within t (order.trans after) start stop cycle early
  rw [sideTotalAppend false admission.appended admission.runs,
    sideTotalAppend true admission.appended admission.runs,made,reservedLiability,reservedLiability]
  cases admitted : (decideAdmission request config.budget state).admitted with
  | false => simpa using before
  | true =>
    obtain ⟨priced,external,usable,fits,decision⟩ := decideAdmissionSound admitted
    obtain ⟨snap,taken,low,high⟩ := fits.inside
    obtain ⟨bounds,debits⟩ := preparedSnapshot admission.prepared taken
    have clock := (preparedNow admission.prepared).1
    rw [clock] at low high
    have rows : mid.reservations = w.ledger.reservations :=
      (preparedOnly admission.prepared).reservations.trans (repairedOnly _ _ _).reservations
    have runs : mid.runs = w.ledger.runs := (preparedOnly admission.prepared).runs.trans (repairedOnly _ _ _).runs
    have totals : ∀ side, sideTotal config snap.cycleStart side mid = sideTotal config snap.cycleStart side w.ledger :=
      fun side => by rw [sideTotal,sideTotal,rows,runs]
    have past : ∀ row ∈ mid.reservations, row.reservedAt ≤ snap.cycleEnd ∧
        ∀ t, row.reconciledAt = some t → t ≤ snap.cycleEnd := by
      intro row mem
      obtain ⟨reserved,reconciled⟩ := inv.sound.past row (rows ▸ mem)
      exact ⟨by omega,fun t at_ => by have := reconciled t at_; omega⟩
    obtain ⟨runtime,operator⟩ := @sideTotalRead config snap.cycleStart _ _ past
    rw [totals,← debits] at runtime operator
    have first : snap.cycleStart ≤ start := configuredMono after bounds cycle
    have here := inv.within now order _ _ bounds (first.trans early)
    have both := admissionFits fits runtime operator here
    refine both.lower ?_ ?_
    · have down : sideTotal config start false w.ledger ≤ _ := sideTotalAntitone first false w.ledger
      rw [decision]
      by_cases side : request.budgetClass = .operator <;> simp [side] <;> omega
    · have down : sideTotal config start true w.ledger ≤ _ := sideTotalAntitone first true w.ledger
      rw [decision]
      by_cases side : request.budgetClass = .operator <;> simp [side] <;> omega

theorem boundedStep {digest : Json → String} {w w' : World} {label : Label} (inv : Bounded limits w)
    (step : BudgetStep digest config w label w') : Bounded limits w' := by
  obtain ⟨⟨order,transition⟩,same,noImport,within⟩ := step
  subst same
  have clock := transitionClock transition
  refine ⟨soundTransition inv.sound order transition,
    uncarriedStep (transitionHoldings transition) noImport inv.uncarried,?_⟩
  intro t after start stop cycle early
  rw [clock] at after
  obtain ⟨rows,grow⟩ := transitionTables inv.sound transition
  cases rows with
  | reserved admission => exact reserveWithin inv order admission after cycle early
  | rewritten link linked rewrites =>
    have lower := fun side => sideTotalRewritten side early inv.sound.linked grow within rewrites
    exact (inv.within t (order.trans after) start stop cycle early).lower (lower false) (lower true)
end

def BudgetReached (digest : Json → String) (config : LedgerConfig) (w : World) : Prop :=
  ∃ ledger now labels, ledger.reservations = [] ∧ Uncarried ledger ∧
    Runs (BudgetStep digest config) (World.start ledger now) labels w

def KeepsBudget {config : LedgerConfig} (limits : Limits config) (w : World) : Prop :=
  ∀ cycle : BudgetCycle, configuredBounds config w.clock = some (cycle.cycleStart,cycle.cycleEnd) →
    let debits := (cycleDebits config w.ledger cycle).1
    usd (debits.runtimeCommittedUsd + debits.carriedHandoffUsd) ≤ limits.allocation ∧
    usd debits.operatorCommittedUsd ≤ limits.allowance ∧
    usd (hrCycle debits) + limits.external ≤ limits.usable

theorem boundedReached {digest : Json → String} {config : LedgerConfig} {w : World}
    (reached : BudgetReached digest config w) (limits : Limits config) : Bounded limits w := by
  obtain ⟨ledger,now,labels,fresh,uncarried,run⟩ := reached
  refine run.invariant (Bounded limits) (fun inv step => boundedStep inv step) ⟨soundStart fresh now,uncarried,?_⟩
  intro t _ start stop _ _
  have empty : ∀ side, sideTotal config start side (World.start ledger now).ledger = 0 := fun side => by
    simp [sideTotal,World.start,fresh]
  rw [empty,empty]
  exact withinZero limits

theorem uncarriedFor {l : Ledger} (uncarried : Uncarried l) (start : Int) : l.carriedFor start = 0 := by
  unfold Ledger.carriedFor Ledger.authorityFor
  cases found : l.authority.find? fun row => row.cycleStart == start with
  | none => rfl
  | some row => exact uncarried row (List.mem_of_find?_eq_some found)

def verifiedNow : Int := Calendar.midnight 2026 9 26

def originLedger (start : Int) : Ledger :=
  { Ledger.empty with authority := [.fresh start .origin "production" start] }

theorem originUncarried (start : Int) : Uncarried (originLedger start) := by
  intro row mem
  rw [List.mem_singleton.mp mem]
  rfl

instance (row row' : Reservation) : Decidable (WithinEstimate row row') :=
  decidable_of_iff ((row.status.isOpen = true → row'.status = .reconciled →
      row'.actualUsd.getD 0 ≤ row'.estimateUsd.getD 0) ∧
    (row.status = .reconciled → row'.settledRunUsageUsd.getD 0 ≤ row.settledRunUsageUsd.getD 0))
    ⟨fun both => ⟨both.1,both.2⟩,fun within => ⟨within.settlement,within.correction⟩⟩

theorem withinEstimatesOf {l l' : Ledger}
    (each : ∀ rows ∈ l.reservations.zip l'.reservations, WithinEstimate rows.1 rows.2) : WithinEstimates l l' := by
  intro pk row row' here there
  refine each (row,row') (List.mem_iff_getElem?.mpr ⟨pk,?_⟩)
  rw [List.getElem?_zip_eq_some]
  exact ⟨here,there⟩

def noOutcome : ReservationOutcome := ⟨false,none,"",0,none⟩

def buildReserved (config : LedgerConfig) (now : Int) (l : Ledger) : Ledger × ReservationOutcome :=
  committed (l,noOutcome) (reserveOperator .build config now "" l)

def buildLabel (config : LedgerConfig) (now : Int) (l : Ledger) : Label :=
  ⟨config,now,.reserve (.operator .build) none "" (buildReserved config now l).2.admitted⟩

theorem buildStep {config : LedgerConfig} {w : World} {now : Int} (order : w.clock ≤ now)
    (ok : succeeds (reserveOperator .build config now "" w.ledger) = true)
    (within : ∀ rows ∈ w.ledger.reservations.zip (buildReserved config now w.ledger).1.reservations,
      WithinEstimate rows.1 rows.2) :
    BudgetStep (fun _ => "") config w (buildLabel config now w.ledger)
      (w.commit now (buildReserved config now w.ledger).1) :=
  ⟨⟨order,.reserve (committedOk ok)⟩,rfl,fun _ => nofun,withinEstimatesOf within⟩

def verifiedLimits : Limits verifiedConfig where
  allocation := 11
  allowance := 1
  external := 5
  usable := 171/10
  allocationSet := by decide +kernel
  allowanceSet := by decide +kernel
  externalSet := by decide +kernel
  usableSet := by decide +kernel

def verifiedCycle : BudgetCycle :=
  openedCycle verifiedConfig verifiedNow verifiedAnchor.instant (cycleStart verifiedAnchor 1 - cycleEndEpsilon)

def verifiedWorld : World :=
  (World.start (originLedger verifiedAnchor.instant) verifiedNow).commit verifiedNow
    (buildReserved verifiedConfig verifiedNow (originLedger verifiedAnchor.instant)).1

theorem verifiedReached : BudgetReached (fun _ => "") verifiedConfig verifiedWorld :=
  ⟨originLedger verifiedAnchor.instant,verifiedNow,_,rfl,originUncarried _,
    .single (buildStep le_rfl (by decide +kernel) (by decide +kernel))⟩

def heavyConfig : LedgerConfig := { verifiedConfig with
  budget := { verifiedSettings with externalLiabilityUsd := some (.finite 18) } }

def heavyLimits : Limits heavyConfig where
  allocation := 11
  allowance := 1
  external := 18
  usable := 171/10
  allocationSet := by decide +kernel
  allowanceSet := by decide +kernel
  externalSet := by decide +kernel
  usableSet := by decide +kernel

def farConfig : LedgerConfig := { verifiedConfig with
  correctionWindowS := some 0
  budget := { verifiedSettings with operatorAllowanceUsd := some (.finite (844/1000)) } }

def farLimits : Limits farConfig where
  allocation := 11156/1000
  allowance := 844/1000
  external := 5
  usable := 171/10
  allocationSet := by decide +kernel
  allowanceSet := by decide +kernel
  externalSet := by decide +kernel
  usableSet := by decide +kernel

def farNow : Int := Calendar.midnight 9001 1 10
def farSettled : Int := farNow + Calendar.days 1
def farCycle : BudgetCycle :=
  openedCycle farConfig farNow (Calendar.midnight 9001 1 5) (Calendar.midnight 9001 2 5 - cycleEndEpsilon)

def farBuild : ApifyBuild :=
  { usageTotalUsd := some 0, usageUsd := none, usage := none, unparseableUsage := [],
    finishedAt := some farNow, status := "SUCCEEDED" }

def farStart : World := .start (originLedger farCycle.cycleStart) farNow
def farReserved : World := farStart.commit farNow (buildReserved farConfig farNow farStart.ledger).1
def farBinding : Except Fault Ledger := (Work.bindBuild 0 "build").commit farConfig farNow farReserved.ledger
def farBound : World := farReserved.commit farNow (committed .empty farBinding)
def farReading : Except Fault Ledger :=
  (Work.recordBuildUsage 0 farBuild).commit farConfig farSettled farBound.ledger
def farRead : World := farBound.commit farSettled (committed .empty farReading)
def farFilled : World := farRead.commit farSettled (buildReserved farConfig farSettled farRead.ledger).1
def farBeginning : Except Fault (Ledger × Option MonitorCall) :=
  beginMonitoringRead 0 farSettled farConfig farFilled.ledger
def farBegun : World := { farFilled.commit farSettled (committed (.empty,none) farBeginning).1 with
  reading := if (committed (.empty,none) farBeginning).2.isSome then 0::farFilled.reading else farFilled.reading }
def farAnswer : Option MonitorResult := some { toApifyUsage := farBuild.toApifyUsage }
def farCompleting : Except Fault (Ledger × Bool) :=
  completeMonitoringRead 0 farAnswer farSettled farConfig farBegun.ledger
def farCompleted : World := { farBegun.commit farSettled (committed (.empty,false) farCompleting).1 with
  reading := without 0 farBegun.reading }

theorem farStep {w : World} {now : Int} {event : Event} {w' : World} (order : w.clock ≤ now)
    (transition : Transition (fun _ => "") farConfig now w event w')
    (noImport : ∀ record, event ≠ .handoffImported record)
    (within : ∀ rows ∈ w.ledger.reservations.zip w'.ledger.reservations, WithinEstimate rows.1 rows.2) :
    BudgetStep (fun _ => "") farConfig w ⟨farConfig,now,event⟩ w' :=
  ⟨⟨order,transition⟩,rfl,noImport,withinEstimatesOf within⟩

theorem farReached : BudgetReached (fun _ => "") farConfig farCompleted := by
  have bound : BudgetStep _ _ farReserved _ farBound :=
    farStep le_rfl (.work (committedOk (by decide +kernel))) (fun _ => nofun) (by decide +kernel)
  have read : BudgetStep _ _ farBound _ farRead :=
    farStep (by decide +kernel) (.work (committedOk (by decide +kernel))) (fun _ => nofun) (by decide +kernel)
  have filled : BudgetStep _ _ farRead _ farFilled :=
    buildStep le_rfl (by decide +kernel) (by decide +kernel)
  have begun : BudgetStep _ _ farFilled _ farBegun :=
    farStep le_rfl (.monitoringBegun (committedOk (by decide +kernel))) (fun _ => nofun) (by decide +kernel)
  have completed : BudgetStep _ _ farBegun _ farCompleted :=
    farStep le_rfl (.monitoringCompleted (by decide +kernel) (committedOk (by decide +kernel))) (fun _ => nofun)
      (by decide +kernel)
  exact ⟨originLedger farCycle.cycleStart,farNow,_,rfl,originUncarried _,
    .cons (buildStep le_rfl (by decide +kernel) (by decide +kernel)) <|
    .cons bound <| .cons read <| .cons filled <| .cons begun <| .single completed⟩

end HwRadar.Apify
