import HwRadar.Apify.Reserve

/-! The report's placement of one row in a cycle. It repeats the ledger's interval predicates;
over the rows the schema admits, its shares sum to the ledger's tally, and the ledger's query
drops no row with a share. -/
namespace HwRadar.Apify.Report
open HwRadar.Base HwRadar.Base.Calendar

structure Share where
  settled : Nat := 0
  outstanding : Nat := 0
  monitoring : Nat := 0
  deriving DecidableEq, Repr

def Share.add (a b : Share) : Share :=
  ⟨a.settled + b.settled,a.outstanding + b.outstanding,a.monitoring + b.monitoring⟩

def never : Int := midnight 9000 1 1

def unboundedGuard : Int := days 3650

def guard (config : LedgerConfig) : Int :=
  match config.budget.cycleBoundaryGuardS with
  | some s => if s < 0 then unboundedGuard else seconds s
  | none => unboundedGuard

def touches (start stop yStart yEnd : Int) : Bool := start ≤ yEnd && yStart ≤ stop

def hasObligation (row : Reservation) : Bool := !envelopeKind row.operatorKind

def correctionReads (runs : List ProviderRun) (row : Reservation) : Nat :=
  match row.providerRun.bind fun pk => runs[pk]? with
  | some run => run.correctionReadCount
  | none => row.correctionReadCount

def monitoringOpen (config : LedgerConfig) (runs : List ProviderRun) (row : Reservation) : Bool :=
  if row.monitoringCallPendingSince.isSome then true
  else if !hasObligation row || row.correctionMonitorClosedAt.isSome then false
  else config.budget.maxCorrectionReads.all fun cap => (correctionReads runs row : Int) < cap

def place (config : LedgerConfig) (runs : List ProviderRun) (yStart yEnd : Int) (row : Reservation) : Option Share :=
  let g := guard config
  let start := row.reservedAt - g
  if start > yEnd then none
  else if row.status.isOpen then some { outstanding := row.estimateUsd.getD 0 + row.monitoringBoundUsd.getD 0 }
  else if row.status ≠ .reconciled then none
  else match row.lastChargeAt,row.reconciledAt with
  | some lastChargeAt,some reconciledAt =>
    let charged := touches start (lastChargeAt + g) yStart yEnd
    let monitoringEnd := if monitoringOpen config runs row then never
      else row.monitoringChargeLastAt.getD reconciledAt + g
    let monitored := touches (reconciledAt - g) monitoringEnd yStart yEnd
    if charged || monitored then
      some { settled := if charged then row.actualUsd.getD 0 else 0
             monitoring := if monitored then row.monitoringBoundUsd.getD 0 else 0 }
    else none
  | _,_ => none

def shares (config : LedgerConfig) (runs : List ProviderRun) (yStart yEnd : Int) (rows : List Reservation) :
    Share × Share :=
  rows.foldl (fun sums row =>
    if row.status = .denied then sums
    else match place config runs yStart yEnd row with
    | none => sums
    | some share =>
      if row.admissionClass = .operator then (sums.1,sums.2.add share) else (sums.1.add share,sums.2)) ({},{})

section
variable (config : LedgerConfig) (runs : List ProviderRun) (yStart yEnd : Int) (row : Reservation)

theorem guardSame : guard config = Apify.guard config := rfl

theorem touchesSame (start stop : Int) : touches start stop yStart yEnd = Spans.touches start stop yStart yEnd := by
  simp only [touches,Spans.touches,Bool.decide_and]

theorem monitoringOpenSame : monitoringOpen config runs row = Apify.monitoringOpen config runs row := by
  simp only [monitoringOpen,Apify.monitoringOpen]
  cases config.budget.maxCorrectionReads <;> rfl

def Share.tally (share : Share) : ClassTally := ⟨share.settled,share.outstanding,share.monitoring⟩

theorem openKept (opened : Apify.monitoringOpen config runs row = true) :
    row.correctionMonitorClosedAt.isNone = true ∨ row.monitoringCallPendingSince.isSome = true := by
  unfold Apify.monitoringOpen at opened
  split at opened
  · rename_i pending
    exact .inr pending
  · split at opened
    · cases opened
    · rename_i unclosed
      refine .inl ?_
      simp only [Bool.or_eq_true,not_or,Bool.not_eq_true] at unclosed
      simpa using unclosed.2

theorem prefilterComplete {row : Reservation} {lastChargeAt reconciledAt : Int} (reconciled : row.status = .reconciled)
    (last : row.lastChargeAt = some lastChargeAt) (recorded : row.reconciledAt = some reconciledAt)
    (order : row.reservedAt ≤ reconciledAt)
    (reaches : settledTouches config yStart yEnd lastChargeAt row = true ∨
      monitoringTouches config runs yStart yEnd reconciledAt row = true) :
    prefilter (Apify.guard config) yStart yEnd row = true := by
  have status : (row.status == .reconciled) = true := by rw [reconciled]; rfl
  simp only [prefilter,status,last,recorded,atLeast,Option.any_some,Bool.true_and,Bool.and_eq_true,Bool.or_eq_true,
    decide_eq_true_eq]
  rcases reaches with charged | monitored
  · obtain ⟨low,high⟩ := Spans.touchesIff.mp charged
    exact ⟨.inr (.inl (.inl (.inl (.inl (by omega))))),by omega⟩
  · obtain ⟨low,high⟩ := Spans.touchesIff.mp monitored
    refine ⟨.inr ?_,by omega⟩
    unfold monitoringEnd at high
    split at high
    · rename_i opened
      rcases openKept config runs row opened with unclosed | pending
      · exact .inl (.inr unclosed)
      · exact .inr pending
    · cases stamped : row.monitoringChargeLastAt with
      | none =>
        rw [stamped,Option.getD_none] at high
        exact .inl (.inl (.inl (.inr (by omega))))
      | some stamp =>
        rw [stamped,Option.getD_some] at high
        exact .inl (.inl (.inr (by rw [Option.any_some,decide_eq_true_eq]; omega)))

theorem placedPart (checked : row.Checked) (ordered : ∀ at_ ∈ row.reconciledAt, row.reservedAt ≤ at_) :
    ((place config runs yStart yEnd row).getD {}).tally =
      if prefilter (Apify.guard config) yStart yEnd row then rowPart config runs yStart yEnd row else {} := by
  unfold place
  rw [guardSame]
  dsimp only
  by_cases later : row.reservedAt - Apify.guard config > yEnd
  · rw [if_pos later]
    have dropped : prefilter (Apify.guard config) yStart yEnd row = false := by
      simp only [prefilter,Bool.and_eq_false_iff,decide_eq_false_iff_not]
      exact .inr (by omega)
    rw [dropped]
    rfl
  rw [if_neg later]
  cases wasOpen : row.status.isOpen with
  | true =>
    have passes : prefilter (Apify.guard config) yStart yEnd row = true := by
      simp only [prefilter,wasOpen,Bool.true_or,Bool.true_and,decide_eq_true_eq]
      omega
    have unreconciled : row.status ≠ .reconciled := by
      intro same
      rw [same] at wasOpen
      cases wasOpen
    rw [if_pos rfl,passes,if_pos rfl,rowPart,if_pos unreconciled]
    rfl
  | false =>
    rw [if_neg (by decide)]
    by_cases reconciled : row.status = .reconciled
    · obtain ⟨actual,settledAt,charged⟩ := checked.reconciledHasSettlement reconciled
      obtain ⟨lastChargeAt,last⟩ := Option.ne_none_iff_exists'.mp charged
      obtain ⟨reconciledAt,recorded⟩ := Option.ne_none_iff_exists'.mp settledAt
      have order := ordered reconciledAt recorded
      have part : rowPart config runs yStart yEnd row =
          ⟨if settledTouches config yStart yEnd lastChargeAt row then row.actualUsd.getD 0 else 0,0,
           if monitoringTouches config runs yStart yEnd reconciledAt row then
             row.monitoringBoundUsd.getD 0 else 0⟩ := by
        rw [rowPart,if_neg (by simpa using reconciled),last,recorded]
      rw [if_neg (by simpa using reconciled),last,recorded,part]
      have chargedSame : touches (row.reservedAt - Apify.guard config) (lastChargeAt + Apify.guard config) yStart yEnd =
          settledTouches config yStart yEnd lastChargeAt row := touchesSame _ _ _ _
      have monitoredSame : touches (reconciledAt - Apify.guard config) (if monitoringOpen config runs row then never
            else row.monitoringChargeLastAt.getD reconciledAt + Apify.guard config) yStart yEnd =
          monitoringTouches config runs yStart yEnd reconciledAt row := by
        rw [touchesSame,monitoringOpenSame]
        rfl
      dsimp only
      rw [chargedSame,monitoredSame]
      have complete := @prefilterComplete config runs yStart yEnd row lastChargeAt reconciledAt reconciled last
        recorded order
      cases charged : settledTouches config yStart yEnd lastChargeAt row <;>
        cases monitored : monitoringTouches config runs yStart yEnd reconciledAt row
      · cases prefilter (Apify.guard config) yStart yEnd row <;> rfl
      · rw [complete (.inr monitored)]
        rfl
      · rw [complete (.inl charged)]
        rfl
      · rw [complete (.inl charged)]
        rfl
    · have dropped : prefilter (Apify.guard config) yStart yEnd row = false := by
        simp [prefilter,wasOpen,reconciled]
      rw [if_pos reconciled,dropped]
      rfl
end

def side (sums : Share × Share) (operator : Bool) : Share := if operator then sums.2 else sums.1

def sideShare (operator : Bool) (config : LedgerConfig) (runs : List ProviderRun) (yStart yEnd : Int)
    (row : Reservation) : Share :=
  if decide (row.admissionClass = .operator) = operator then (place config runs yStart yEnd row).getD {} else {}

theorem placeDenied {config : LedgerConfig} {runs : List ProviderRun} {yStart yEnd : Int} {row : Reservation}
    (denied : row.status = .denied) : place config runs yStart yEnd row = none := by
  unfold place
  dsimp only
  split
  · rfl
  · rw [denied]
    rfl

theorem sharesSide {φ : Share → Nat} (additive : ∀ a b, φ (a.add b) = φ a + φ b) (zero : φ {} = 0)
    (config : LedgerConfig) (runs : List ProviderRun) (yStart yEnd : Int) (operator : Bool) (rows : List Reservation) :
    φ (side (shares config runs yStart yEnd rows) operator) =
      (rows.map fun row => φ (sideShare operator config runs yStart yEnd row)).sum := by
  have fold : ∀ sums : Share × Share, φ (side (rows.foldl (fun sums row =>
      if row.status = .denied then sums
      else match place config runs yStart yEnd row with
      | none => sums
      | some share =>
        if row.admissionClass = .operator then (sums.1,sums.2.add share) else (sums.1.add share,sums.2)) sums)
          operator) =
      φ (side sums operator) + (rows.map fun row => φ (sideShare operator config runs yStart yEnd row)).sum := by
    induction rows with
    | nil => intro sums; simp
    | cons row rest ih =>
      intro sums
      rw [List.foldl_cons,ih,List.map_cons,List.sum_cons,← add_assoc]
      congr 1
      split
      · rename_i denied
        simp [sideShare,placeDenied denied,zero]
      · split
        · rename_i missing
          simp [sideShare,missing,zero]
        · rename_i share found
          cases side_ : decide (row.admissionClass = .operator) <;> cases operator <;>
            simp_all [side,sideShare]
  have all := fold ({},{})
  have start : φ (side ({},{}) operator) = 0 := by cases operator <;> exact zero
  rw [start,zero_add] at all
  exact all

section
variable {config : LedgerConfig} {l : Ledger} {yStart yEnd : Int}

theorem lineEqual {φ : ClassTally → Nat} (additive : ∀ a b, φ (a.add b) = φ a + φ b) (zero : φ {} = 0)
    (ordered : ∀ row ∈ l.reservations, ∀ at_ ∈ row.reconciledAt, row.reservedAt ≤ at_) (operator : Bool) :
    φ ((tallyRows config l yStart yEnd).side operator) =
      φ (side (shares config l.runs yStart yEnd l.reservations) operator).tally := by
  have reported := @sharesSide (fun share => φ share.tally) (fun a b => additive a.tally b.tally) zero
    config l.runs yStart
    yEnd operator l.reservations
  rw [tallySide additive zero,reported]
  congr 1
  refine List.map_congr_left fun row mem => ?_
  have part := placedPart config l.runs yStart yEnd row (l.rowsChecked row mem) (ordered row mem)
  unfold sidePart sideShare
  by_cases same : decide (row.admissionClass = .operator) = operator
  · rw [if_pos same,part]
    simp only [same,and_true]
  · rw [if_neg same,if_neg (fun both => same both.2)]
    rfl

theorem placementEqual (ordered : ∀ row ∈ l.reservations, ∀ at_ ∈ row.reconciledAt, row.reservedAt ≤ at_) :
    (∀ row ∈ l.reservations, ∀ share, place config l.runs yStart yEnd row = some share → share ≠ {} →
      prefilter (Apify.guard config) yStart yEnd row = true) ∧
    (∀ row ∈ l.reservations, row.status = .reconciled → rowPart config l.runs yStart yEnd row ≠ {} →
      prefilter (Apify.guard config) yStart yEnd row = true) ∧
    ∀ operator, (tallyRows config l yStart yEnd).side operator =
      (side (shares config l.runs yStart yEnd l.reservations) operator).tally := by
  refine ⟨fun row mem share placed counts => ?_,fun row mem reconciled counts => ?_,fun operator => ?_⟩
  · have part := placedPart config l.runs yStart yEnd row (l.rowsChecked row mem) (ordered row mem)
    rw [placed,Option.getD_some] at part
    by_contra dropped
    rw [if_neg dropped] at part
    obtain ⟨settled,outstanding,monitoring⟩ := share
    simp only [Share.tally,ClassTally.mk.injEq] at part
    obtain ⟨rfl,rfl,rfl⟩ := part
    exact counts rfl
  · obtain ⟨_,settledAt,charged⟩ := (l.rowsChecked row mem).reconciledHasSettlement reconciled
    obtain ⟨lastChargeAt,last⟩ := Option.ne_none_iff_exists'.mp charged
    obtain ⟨reconciledAt,recorded⟩ := Option.ne_none_iff_exists'.mp settledAt
    refine prefilterComplete config l.runs yStart yEnd reconciled last recorded (ordered row mem _ recorded) ?_
    by_contra neither
    rw [not_or,Bool.not_eq_true,Bool.not_eq_true] at neither
    refine counts ?_
    rw [rowPart,if_neg (by simpa using reconciled),last,recorded]
    dsimp only
    rw [neither.1,neither.2]
    rfl
  · have settled := @lineEqual config l yStart yEnd ClassTally.settled (fun _ _ => rfl) rfl ordered operator
    have unsettled := @lineEqual config l yStart yEnd ClassTally.unsettled (fun _ _ => rfl) rfl ordered operator
    have monitoring := @lineEqual config l yStart yEnd ClassTally.monitoring (fun _ _ => rfl) rfl ordered operator
    cases made : (tallyRows config l yStart yEnd).side operator
    rw [made] at settled unsettled monitoring
    simp only at settled unsettled monitoring
    rw [settled,unsettled,monitoring]
end

def closedBuild : Reservation :=
  { Reservation.of (.operator .build) ⟨none,"",some ⟨[],4,0,2,4,"1"⟩⟩ none {} 0 "" with
    providerBuildId := some "build1"
    status := .reconciled
    actualUsd := some 3
    reconciledAt := some (days 40)
    lastChargeAt := some (days 40)
    correctionMonitorUntil := some (days 47)
    monitoringChargeLastAt := some (days 50)
    correctionMonitorClosedAt := some (days 50)
    correctionClosingRead := some 0 }

def closedLedger : Ledger :=
  { Ledger.empty with
    reservations := [closedBuild]
    rowsChecked := by
      intro row mem
      rw [List.mem_singleton.mp mem]
      exact (checkedIff _).mp (by decide +kernel) }

theorem closedMonitoringPlaced : prefilter (Apify.guard verifiedConfig) (days 49) (days 79) closedBuild = true ∧
    (tallyRows verifiedConfig closedLedger (days 49) (days 79)).side true = ⟨0,0,2⟩ ∧
    (tallyRows verifiedConfig closedLedger (days 49) (days 79)).side true =
      (side (shares verifiedConfig [] (days 49) (days 79) [closedBuild]) true).tally := by
  obtain ⟨_,selected,sums⟩ := @placementEqual verifiedConfig closedLedger (days 49) (days 79) (by
    intro row mem at_ recorded
    rw [List.mem_singleton.mp mem] at recorded ⊢
    cases recorded
    decide +kernel)
  exact ⟨selected closedBuild (List.mem_singleton_self _) rfl (by decide +kernel),by decide +kernel,sums true⟩

end HwRadar.Apify.Report
