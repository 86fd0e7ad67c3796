import HwRadar.Apify.Admission
import HwRadar.Apify.Rows
import HwRadar.Base.Run
import HwRadar.Base.Spans
import Mathlib.Data.List.MinMax

/-! Recorded billing cycles and the authority carried across a rollover. A cycle
row is derived from the anchor at its first use; an older row that overlaps it
is clamped, and a row starting inside it refuses it. -/
namespace HwRadar.Apify
open HwRadar.Base HwRadar.Base.Calendar

def unboundedGuard : Int := days 3650

def guard (config : LedgerConfig) : Int :=
  match config.budget.cycleBoundaryGuardS with
  | some s => if s < 0 then unboundedGuard else seconds s
  | none => unboundedGuard

def Ledger.authorityFor (l : Ledger) (start : Int) : Option LedgerAuthority :=
  l.authority.find? fun row => row.cycleStart == start

def Ledger.previousCycle (l : Ledger) (start : Int) : Option BudgetCycle :=
  @List.argmax _ _ Int.instLinearOrder.toPreorder inferInstance BudgetCycle.cycleStart
    (l.cycles.filter fun row => row.cycleStart < start)

def LedgerAuthority.fresh (start : Int) (kind : LedgerAuthorityKind) (ledgerId : String) (now : Int) :
    LedgerAuthority :=
  { cycleStart := start, kind, ledgerId, carriedConsumptionUsd := 0, attestedBy := "", createdAt := now,
    handedOffAt := none, handedOffTo := none, handoffRecordDigest := none, handoffRecord := none,
    importedRecordDigest := none }

def Ledger.continuedFrom (l : Ledger) (config : LedgerConfig) (start : Int) : Option LedgerAuthority :=
  match l.authorityFor start with
  | some _ => none
  | none =>
    match l.previousCycle start with
    | none => none
    | some previous =>
      if start - previous.cycleEnd > guard config then none
      else l.authority.find? fun row => row.cycleStart == previous.cycleStart && row.handedOffAt.isNone

def ensureContinuedAuthority (start : Int) (config : LedgerConfig) (now : Int) (l : Ledger) : Ledger :=
  match l.continuedFrom config start with
  | none => l
  | some held => { l with authority := l.authority ++ [.fresh start .continued held.ledgerId now] }

def BudgetCycle.clamp (start : Int) (row : BudgetCycle) : BudgetCycle :=
  if row.cycleStart < start ∧ start ≤ row.cycleEnd then { row with cycleEnd := start - cycleEndEpsilon }
  else row

def configuredBounds (config : LedgerConfig) (now : Int) : Option (Int × Int) :=
  config.budget.billingCycleAnchor.bind fun anchor => billingCycleBounds anchor now

def openedCycle (config : LedgerConfig) (now start stop : Int) : BudgetCycle :=
  { cycleStart := start, cycleEnd := stop, allocationUsd := (projectAllocation config.budget).toOption,
    openedAt := now, accountReadCount := 0 }

def ensureCycle (config : LedgerConfig) (now : Int) (l : Ledger) : Ledger × Option BudgetCycle :=
  match configuredBounds config now with
  | none => (l,none)
  | some (start,stop) =>
    match l.cycles.find? fun row => row.cycleStart == start with
    | some existing => (l,if existing.cycleEnd = stop then some existing else none)
    | none =>
      -- a moved anchor whose cycle would run into a recorded one opens none
      if l.cycles.any fun row => start < row.cycleStart ∧ row.cycleStart ≤ stop then (l,none)
      else
        let cycle := openedCycle config now start stop
        let l := { l with cycles := l.cycles.map (BudgetCycle.clamp start) ++ [cycle] }
        (ensureContinuedAuthority start config now l,some cycle)

def cycleUnavailableDetail (config : LedgerConfig) (now : Int) : String :=
  match config.budget.billingCycleAnchor with
  | none => "HW_RADAR_APIFY_BILLING_CYCLE_ANCHOR is unset or invalid"
  | some anchor =>
    if (billingCycleBounds anchor now).isNone then "now is before HW_RADAR_APIFY_BILLING_CYCLE_ANCHOR"
    else "HW_RADAR_APIFY_BILLING_CYCLE_ANCHOR conflicts with a recorded cycle; the owner corrects the anchor (see the error log)"

def authorityHeld (l : Ledger) (start : Int) : Bool :=
  l.authority.any fun row => row.cycleStart == start && row.handedOffAt.isNone

theorem previousSound {l : Ledger} {start : Int} {previous : BudgetCycle}
    (found : l.previousCycle start = some previous) :
    previous ∈ l.cycles ∧ previous.cycleStart < start ∧
    ∀ row ∈ l.cycles, row.cycleStart < start → row.cycleStart ≤ previous.cycleStart := by
  have kept := List.mem_filter.mp (List.argmax_mem found)
  refine ⟨kept.1,by simpa using kept.2,fun row mem before => ?_⟩
  exact List.le_of_mem_argmax (List.mem_filter.mpr ⟨mem,by simpa using before⟩) found

theorem continuedSound {l : Ledger} {config : LedgerConfig} {start : Int} {held : LedgerAuthority}
    (found : l.continuedFrom config start = some held) : l.authorityFor start = none ∧
      ∃ previous, l.previousCycle start = some previous ∧ start - previous.cycleEnd ≤ guard config ∧
        held ∈ l.authority ∧ held.cycleStart = previous.cycleStart ∧ held.handedOffAt = none := by
  unfold Ledger.continuedFrom at found
  split at found
  · cases found
  rename_i free
  split at found
  · cases found
  rename_i previous latest
  split at found
  · cases found
  rename_i near
  have matched := List.find?_some found
  simp only [Bool.and_eq_true,beq_iff_eq,Option.isNone_iff_eq_none] at matched
  exact ⟨free,previous,latest,not_lt.mp near,List.mem_of_find?_eq_some found,matched⟩

inductive Ensured (config : LedgerConfig) (now : Int) (l : Ledger) : Ledger → Option BudgetCycle → Prop where
  | unavailable : Ensured config now l l none
  | recorded {row} (bounds : configuredBounds config now = some (row.cycleStart,row.cycleEnd))
      (mem : row ∈ l.cycles) : Ensured config now l l (some row)
  | opened {start stop} (bounds : configuredBounds config now = some (start,stop))
      (free : ∀ row ∈ l.cycles, row.cycleStart < start ∨ stop < row.cycleStart) :
      Ensured config now l
        (ensureContinuedAuthority start config now
          { l with cycles := l.cycles.map (BudgetCycle.clamp start) ++ [openedCycle config now start stop] })
        (some (openedCycle config now start stop))

theorem ensureCycleSound (config : LedgerConfig) (now : Int) (l : Ledger) :
    Ensured config now l (ensureCycle config now l).1 (ensureCycle config now l).2 := by
  unfold ensureCycle
  cases bounds : configuredBounds config now with
  | none => exact .unavailable
  | some pair =>
    obtain ⟨start,stop⟩ := pair
    cases found : l.cycles.find? fun row => row.cycleStart == start with
    | some existing =>
      have same : existing.cycleStart = start := by simpa using List.find?_some found
      by_cases equal : existing.cycleEnd = stop
      · subst same equal
        simp only [found,if_true]
        exact .recorded bounds (List.mem_of_find?_eq_some found)
      · simp only [found,if_neg equal]
        exact .unavailable
    | none =>
      simp only [found]
      split
      · exact .unavailable
      · rename_i outside
        refine .opened bounds fun row mem => ?_
        have differs : row.cycleStart ≠ start := by simpa using List.find?_eq_none.mp found row mem
        have notInside : start < row.cycleStart → stop < row.cycleStart := by
          simpa using fun h => outside (List.any_eq_true.mpr ⟨row,mem,h⟩)
        omega

theorem continuedCycles (start : Int) (config : LedgerConfig) (now : Int) (l : Ledger) :
    (ensureContinuedAuthority start config now l).cycles = l.cycles := by
  unfold ensureContinuedAuthority; split <;> rfl

structure CycleOnly (l l' : Ledger) : Prop where
  reservations : l'.reservations = l.reservations
  runs : l'.runs = l.runs
  usageReads : l'.usageReads = l.usageReads
  latches : l'.latches = l.latches

theorem CycleOnly.trans {a b c : Ledger} (first : CycleOnly a b) (second : CycleOnly b c) : CycleOnly a c :=
  ⟨second.reservations.trans first.reservations,second.runs.trans first.runs,
   second.usageReads.trans first.usageReads,second.latches.trans first.latches⟩

theorem continuedOnly (start : Int) (config : LedgerConfig) (now : Int) (l : Ledger) :
    CycleOnly l (ensureContinuedAuthority start config now l) := by
  unfold ensureContinuedAuthority; split <;> exact ⟨rfl,rfl,rfl,rfl⟩

theorem ensuredOnly {config : LedgerConfig} {now : Int} {l l' : Ledger} {result}
    (step : Ensured config now l l' result) : CycleOnly l l' := by
  cases step with
  | unavailable => exact ⟨rfl,rfl,rfl,rfl⟩
  | recorded => exact ⟨rfl,rfl,rfl,rfl⟩
  | opened bounds free =>
    exact ⟨(continuedOnly _ _ _ _).reservations,(continuedOnly _ _ _ _).runs,
      (continuedOnly _ _ _ _).usageReads,(continuedOnly _ _ _ _).latches⟩

theorem ensureOnly (config : LedgerConfig) (now : Int) (l : Ledger) : CycleOnly l (ensureCycle config now l).1 :=
  ensuredOnly (ensureCycleSound config now l)

theorem clampStart (start : Int) (row : BudgetCycle) : (row.clamp start).cycleStart = row.cycleStart := by
  unfold BudgetCycle.clamp; split <;> rfl

theorem epsilonPositive : 0 < cycleEndEpsilon := by decide

theorem clampEnd (start : Int) (row : BudgetCycle) :
    (row.clamp start).cycleEnd ≤ row.cycleEnd ∧
    (row.cycleStart < start → (row.clamp start).cycleEnd < start) := by
  have eps := epsilonPositive
  unfold BudgetCycle.clamp
  split
  · exact ⟨by simp only; omega,fun _ => by simp only; omega⟩
  · exact ⟨le_rfl,by omega⟩

structure CyclesSeparated (cycles : List BudgetCycle) : Prop where
  midnights : ∀ row ∈ cycles, days 1 ∣ row.cycleStart
  proper : ∀ row ∈ cycles, row.cycleStart < row.cycleEnd
  separated : Spans.Separated BudgetCycle.cycleStart BudgetCycle.cycleEnd cycles

theorem configuredBoundsSound {config : LedgerConfig} {now start stop : Int}
    (bounds : configuredBounds config now = some (start,stop)) :
    ∃ anchor, config.budget.billingCycleAnchor = some anchor ∧
      billingCycleBounds anchor now = some (start,stop) :=
  Option.bind_eq_some_iff.mp bounds

theorem configuredStart {config : LedgerConfig} {now start stop : Int}
    (bounds : configuredBounds config now = some (start,stop)) :
    days 1 ∣ start ∧ start < stop ∧ start ≤ now ∧ now < stop + cycleEndEpsilon := by
  obtain ⟨anchor,_,derived⟩ := configuredBoundsSound bounds
  obtain ⟨low,high,length⟩ := boundsOrder derived
  obtain ⟨_,k,first,_⟩ := boundsSound derived
  simp only at first low high length
  have long : days 28 - cycleEndEpsilon > 0 := by decide
  exact ⟨first ▸ cycleStartMidnight anchor k,by omega,low,high⟩

theorem separatedStep {config : LedgerConfig} {now : Int} {l l' : Ledger} {result}
    (step : Ensured config now l l' result) (inv : CyclesSeparated l.cycles) : CyclesSeparated l'.cycles := by
  cases step with
  | unavailable => exact inv
  | recorded => exact inv
  | @opened start stop bounds free =>
    obtain ⟨midnight,proper,_,_⟩ := configuredStart bounds
    rw [continuedCycles]
    refine ⟨?_,?_,?_⟩
    · intro row mem
      rcases List.mem_append.mp mem with old | new
      · obtain ⟨before,memBefore,rfl⟩ := List.mem_map.mp old
        rw [clampStart]; exact inv.midnights before memBefore
      · rw [List.mem_singleton] at new; subst new; exact midnight
    · intro row mem
      rcases List.mem_append.mp mem with old | new
      · obtain ⟨before,memBefore,rfl⟩ := List.mem_map.mp old
        have start' := inv.midnights before memBefore
        have proper' := inv.proper before memBefore
        rw [clampStart]
        unfold BudgetCycle.clamp
        split
        · -- both starts are midnights, so a clamped row still spans most of a day
          obtain ⟨a,ha⟩ := start'
          obtain ⟨b,hb⟩ := midnight
          have day : days 1 = 86400000000 := by decide
          have eps : cycleEndEpsilon = 1000 := by decide
          simp only
          rw [day] at ha hb
          omega
        · exact proper'
      · rw [List.mem_singleton] at new; subst new; exact proper
    · refine Spans.separatedSnoc _ _
        (Spans.separatedShrink _ _ (BudgetCycle.clamp start) (fun row _ => clampStart start row)
        (fun row _ => (clampEnd start row).1) inv.separated) ?_
      intro row mem
      obtain ⟨before,memBefore,rfl⟩ := List.mem_map.mp mem
      rw [clampStart]
      rcases free before memBefore with older | later
      · exact Spans.apartOfBefore ((clampEnd start before).2 older)
      · exact Spans.apartComm (Spans.apartOfBefore later)

def ShortenedBy (new : Option BudgetCycle) (row row' : BudgetCycle) : Prop :=
  row' = row ∨ ∃ cycle, new = some cycle ∧ row.cycleStart < cycle.cycleStart ∧
    row' = { row with cycleEnd := cycle.cycleStart - cycleEndEpsilon } ∧ row'.cycleEnd < row.cycleEnd

def History (result : Option BudgetCycle) (before after : List BudgetCycle) : Prop :=
  ∃ kept created, after = kept ++ created ∧ List.Forall₂ (ShortenedBy created.head?) before kept ∧
    (created = [] ∨ ∃ cycle, created = [cycle] ∧ result = some cycle)

theorem historyStep {config : LedgerConfig} {now : Int} {l l' : Ledger} {result}
    (step : Ensured config now l l' result) : History result l.cycles l'.cycles := by
  cases step with
  | unavailable => exact ⟨l.cycles,[],by simp,List.forall₂_same.mpr fun _ _ => .inl rfl,.inl rfl⟩
  | recorded => exact ⟨l.cycles,[],by simp,List.forall₂_same.mpr fun _ _ => .inl rfl,.inl rfl⟩
  | @opened start stop bounds free =>
    refine ⟨l.cycles.map (BudgetCycle.clamp start),[openedCycle config now start stop],
      continuedCycles _ _ _ _,?_,.inr ⟨_,rfl,rfl⟩⟩
    rw [List.forall₂_map_right_iff]
    refine List.forall₂_same.mpr fun row _ => ?_
    have eps := epsilonPositive
    by_cases overlap : row.cycleStart < start ∧ start ≤ row.cycleEnd
    · have clamped : row.clamp start = { row with cycleEnd := start - cycleEndEpsilon } := if_pos overlap
      rw [clamped]
      exact .inr ⟨_,rfl,overlap.1,rfl,by simp only; omega⟩
    · exact .inl (if_neg overlap)

def ensureStep (l : Ledger) (call : LedgerConfig × Int) (l' : Ledger) : Prop :=
  l' = (ensureCycle call.1 call.2 l).1

theorem cyclesSeparated {l l' : Ledger} {calls} (run : Runs ensureStep l calls l') (fresh : l.cycles = []) :
    CyclesSeparated l'.cycles := by
  refine run.invariant (fun s => CyclesSeparated s.cycles) ?_ ?_
  · intro s a t inv step
    rw [step]
    exact separatedStep (ensureCycleSound a.1 a.2 s) inv
  · rw [fresh]
    exact ⟨by simp,by simp,List.Pairwise.nil⟩

theorem ensuredRow {config : LedgerConfig} {now : Int} {l l' : Ledger} {row : BudgetCycle}
    (step : Ensured config now l l' (some row)) :
    row ∈ l'.cycles ∧ configuredBounds config now = some (row.cycleStart,row.cycleEnd) := by
  cases step with
  | recorded bounds mem => exact ⟨mem,bounds⟩
  | opened bounds free => exact ⟨by rw [continuedCycles]; simp,bounds⟩

theorem recordedCyclesImmutable {l l' : Ledger} {calls} (run : Runs ensureStep l calls l')
    (fresh : l.cycles = []) (config : LedgerConfig) (now : Int) :
    (∀ row ∈ l'.cycles, row.cycleStart < row.cycleEnd) ∧
    l'.cycles.Pairwise (fun a b => ∀ t, ¬((a.cycleStart ≤ t ∧ t ≤ a.cycleEnd) ∧
      (b.cycleStart ≤ t ∧ t ≤ b.cycleEnd))) ∧
    (∀ row, (ensureCycle config now l').2 = some row →
      row ∈ (ensureCycle config now l').1.cycles ∧
      (∃ anchor, config.budget.billingCycleAnchor = some anchor ∧
        billingCycleBounds anchor now = some (row.cycleStart,row.cycleEnd)) ∧
      row.cycleStart ≤ now ∧ now < row.cycleEnd + milliseconds 1) ∧
    History (ensureCycle config now l').2 l'.cycles (ensureCycle config now l').1.cycles := by
  have inv := cyclesSeparated run fresh
  have step := ensureCycleSound config now l'
  refine ⟨inv.proper,inv.separated,?_,historyStep step⟩
  intro row returned
  rw [returned] at step
  obtain ⟨mem,bounds⟩ := ensuredRow step
  obtain ⟨_,_,low,high⟩ := configuredStart bounds
  exact ⟨mem,configuredBoundsSound bounds,low,high⟩

def movedConfig : LedgerConfig := { verifiedConfig with budget := { verifiedSettings with
  billingCycleAnchor := some { verifiedAnchor with day := 20, dayLow := by decide, dayHigh := by decide } } }

def movedLedger : Ledger :=
  (ensureCycle movedConfig (midnight 2026 9 21) (ensureCycle verifiedConfig (midnight 2026 9 10) .empty).1).1

theorem movedCyclesImmutable :
    movedLedger.cycles.map BudgetCycle.cycleEnd =
      [midnight 2026 9 20 - milliseconds 1,midnight 2026 10 20 - milliseconds 1] ∧
    ∀ row ∈ movedLedger.cycles, row.cycleStart < row.cycleEnd :=
  ⟨by decide +kernel,(recordedCyclesImmutable (.cons (a := (verifiedConfig,midnight 2026 9 10)) rfl
    (.cons (a := (movedConfig,midnight 2026 9 21)) rfl (.nil movedLedger))) rfl verifiedConfig 0).1⟩

end HwRadar.Apify
