import HwRadar.Apify.Cycles

/-! Continued authority and the gap before it. Adjacency is tested with the boundary guard, and
an unset guard counts as ten years here too, so a continuation can jump skipped cycles. It
cannot over the cycles `ensureCycle` records while the guard is shorter than a day. -/
namespace HwRadar.Apify
open HwRadar.Base HwRadar.Base.Calendar

structure ContinuesAdjacent (l : Ledger) (start : Int) (previous : BudgetCycle) : Prop where
  recorded : previous ∈ l.cycles
  earlier : previous.cycleStart < start
  newest : ∀ row ∈ l.cycles, row.cycleStart < start → row.cycleStart ≤ previous.cycleStart
  adjacent : previous.cycleEnd + cycleEndEpsilon = start
  held : ∃ row ∈ l.authority, row.cycleStart = previous.cycleStart ∧ row.handedOffAt = none

def NeverJumps (l : Ledger) (config : LedgerConfig) (now start : Int) : Prop :=
  ∀ row, (ensureContinuedAuthority start config now l).authority = l.authority ++ [row] →
    row.kind = .continued ∧ row.cycleStart = start ∧
    ∃ previous, l.previousCycle start = some previous ∧ ContinuesAdjacent l start previous

def GapGuarded (l : Ledger) (config : LedgerConfig) (start : Int) : Prop :=
  ∀ previous, l.previousCycle start = some previous → previous.cycleEnd + cycleEndEpsilon = start ∨
    guard config < start - previous.cycleEnd ∨ (l.authorityFor start).isSome = true ∨
    ∀ row ∈ l.authority, row.cycleStart = previous.cycleStart → row.handedOffAt ≠ none

theorem continuedCreates {l : Ledger} {config : LedgerConfig} {now start : Int} {row : LedgerAuthority}
    (created : (ensureContinuedAuthority start config now l).authority = l.authority ++ [row]) :
    ∃ held, l.continuedFrom config start = some held ∧ row = .fresh start .continued held.ledgerId now := by
  unfold ensureContinuedAuthority at created
  split at created
  · have short := congrArg List.length created
    rw [List.length_append] at short
    simp at short
  · rename_i held found
    have same := List.append_cancel_left created
    exact ⟨held,found,(List.singleton_inj.mp same).symm⟩

theorem neverJumpsIff (l : Ledger) (config : LedgerConfig) (now start : Int) :
    NeverJumps l config now start ↔ GapGuarded l config start := by
  constructor
  · intro never previous latest
    by_contra gap
    simp only [not_or,not_lt,Bool.not_eq_true,Option.isSome_eq_false_iff,Option.isNone_iff_eq_none] at gap
    obtain ⟨apart,near,free,held⟩ := gap
    obtain ⟨row,mem,same,holds⟩ : ∃ row ∈ l.authority, row.cycleStart = previous.cycleStart ∧
        row.handedOffAt = none := by
      by_contra unheld
      exact held fun row mem same holds => unheld ⟨row,mem,same,holds⟩
    have matched : (l.authority.find? fun row => row.cycleStart == previous.cycleStart &&
        row.handedOffAt.isNone).isSome := by
      rw [List.find?_isSome]
      exact ⟨row,mem,by rw [same,holds]; simp⟩
    obtain ⟨found,copied⟩ := Option.isSome_iff_exists.mp matched
    have continued : l.continuedFrom config start = some found := by
      unfold Ledger.continuedFrom
      rw [free,latest]
      exact (if_neg (not_lt.mpr near)).trans copied
    have created : (ensureContinuedAuthority start config now l).authority =
        l.authority ++ [.fresh start .continued found.ledgerId now] := by
      unfold ensureContinuedAuthority
      rw [continued]
    obtain ⟨_,_,other,latest',adjacent⟩ := never _ created
    obtain rfl := Option.some.inj (latest.symm.trans latest')
    exact apart adjacent.adjacent
  · intro guarded row created
    obtain ⟨held,found,rfl⟩ := continuedCreates created
    obtain ⟨free,previous,latest,near,stored,same,holds⟩ := continuedSound found
    obtain ⟨mem,earlier,newest⟩ := previousSound latest
    refine ⟨rfl,rfl,previous,latest,mem,earlier,newest,?_,held,stored,same,holds⟩
    rcases guarded previous latest with adjacent | far | taken | given
    · exact adjacent
    · exact absurd near (not_le.mpr far)
    · rw [free] at taken
      cases taken
    · exact absurd holds (given held stored same)

def MidnightEnds (cycles : List BudgetCycle) : Prop := ∀ row ∈ cycles, days 1 ∣ row.cycleEnd + cycleEndEpsilon

theorem midnightStep {config : LedgerConfig} {now : Int} {l l' : Ledger} {result}
    (step : Ensured config now l l' result) (ends : MidnightEnds l.cycles) : MidnightEnds l'.cycles := by
  cases step with
  | unavailable => exact ends
  | recorded => exact ends
  | @opened start stop bounds free =>
    obtain ⟨midnight,_⟩ := configuredStart bounds
    obtain ⟨anchor,_,derived⟩ := configuredBoundsSound bounds
    obtain ⟨_,k,_,last,_⟩ := boundsSound derived
    rw [continuedCycles]
    intro row mem
    rcases List.mem_append.mp mem with old | new
    · obtain ⟨before,memBefore,rfl⟩ := List.mem_map.mp old
      unfold BudgetCycle.clamp
      split
      · simpa using midnight
      · exact ends before memBefore
    · rw [List.mem_singleton] at new
      subst new
      have successor := cycleStartMidnight anchor (k + 1)
      simp only at last
      rw [openedCycle,last]
      simpa using successor

theorem midnightRun {l l' : Ledger} {calls} (run : Runs ensureStep l calls l') (fresh : l.cycles = []) :
    MidnightEnds l'.cycles := by
  refine run.invariant (fun s => MidnightEnds s.cycles) ?_ ?_
  · intro s a t ends step
    rw [step]
    exact midnightStep (ensureCycleSound a.1 a.2 s) ends
  · rw [fresh]
    exact nofun

theorem shortGuardGuarded {l l' : Ledger} {calls} (run : Runs ensureStep l calls l') (fresh : l.cycles = [])
    {config : LedgerConfig} (short : guard config < days 1) {cycle : BudgetCycle} (mem : cycle ∈ l'.cycles) :
    GapGuarded l' config cycle.cycleStart := by
  intro previous latest
  obtain ⟨recorded,earlier,_⟩ := previousSound latest
  have inv := cyclesSeparated run fresh
  obtain ⟨a,start⟩ := inv.midnights cycle mem
  obtain ⟨b,stop⟩ := midnightRun run fresh previous recorded
  have before : previous.cycleEnd < cycle.cycleStart := by
    have symm : Std.Symm fun a b : BudgetCycle => Spans.Apart a.cycleStart a.cycleEnd b.cycleStart b.cycleEnd :=
      ⟨fun _ _ => Spans.apartComm⟩
    have apart := List.Pairwise.forall inv.separated recorded mem fun same => by
      rw [same] at earlier
      exact lt_irrefl _ earlier
    by_contra overlap
    exact apart cycle.cycleStart ⟨⟨earlier.le,not_lt.mp overlap⟩,le_rfl,(inv.proper cycle mem).le⟩
  have day : days 1 = 86400000000 := by decide
  have eps : cycleEndEpsilon = 1000 := by decide
  rw [day] at start stop short
  rw [eps] at stop ⊢
  by_contra gap
  simp only [not_or,not_lt] at gap
  omega

def unguardedConfig : LedgerConfig :=
  { verifiedConfig with budget := { verifiedSettings with cycleBoundaryGuardS := none } }

def september : BudgetCycle :=
  ⟨midnight 2026 9 5,midnight 2026 10 5 - cycleEndEpsilon,some 11,midnight 2026 9 6,0⟩

def septemberLedger : Ledger :=
  { Ledger.empty with
    cycles := [september]
    authority := [.fresh (midnight 2026 9 5) .origin "production" (midnight 2026 9 6)] }

def decemberNow : Int := midnight 2026 12 10

theorem decemberJumps :
    (ensureCycle verifiedConfig (midnight 2026 9 6) .empty).1.cycles = septemberLedger.cycles ∧
    (ensureCycle unguardedConfig decemberNow septemberLedger).2.map BudgetCycle.cycleStart = some (midnight 2026 12 5) ∧
    (ensureCycle unguardedConfig decemberNow septemberLedger).1.authority.map
      (fun row => (row.cycleStart,row.kind,row.handedOffAt)) =
        [(midnight 2026 9 5,.origin,none),(midnight 2026 12 5,.continued,none)] ∧
    configuredBounds unguardedConfig (midnight 2026 10 10) = some
    (midnight 2026 10 5,midnight 2026 11 5 - cycleEndEpsilon) ∧
    september.cycleEnd < midnight 2026 10 5 ∧ midnight 2026 11 5 < midnight 2026 12 5 ∧
    ¬NeverJumps septemberLedger unguardedConfig decemberNow (midnight 2026 12 5) := by
  refine ⟨by decide +kernel,by decide +kernel,by decide +kernel,by decide +kernel,by decide +kernel,
    by decide +kernel,?_⟩
  intro never
  obtain ⟨_,_,previous,latest,adjacent⟩ := never (.fresh (midnight 2026 12 5) .continued "production" decemberNow) rfl
  have mem := List.mem_singleton.mp adjacent.recorded
  have apart := adjacent.adjacent
  rw [mem] at apart
  revert apart
  decide +kernel

end HwRadar.Apify
