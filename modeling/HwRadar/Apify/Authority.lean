import HwRadar.Apify.Environment

/-! The authority of one environment under one anchor, however its other settings
change. A transaction changes the cycle and authority tables in pieces: it opens
the cycle of the day, continues the authority of the cycle before, and then
claims, hands off or takes over. -/
namespace HwRadar.Apify
open HwRadar.Base

inductive Piece (config : LedgerConfig) (now : Int) (l : Ledger) : Unit → Ledger → Prop where
  | kept {l'} (same : SameHoldings l l') : Piece config now l () l'
  | opened {l' start stop} (bounds : configuredBounds config now = some (start,stop))
      (free : ∀ row ∈ l.cycles, row.cycleStart < start ∨ stop < row.cycleStart)
      (cycles : l'.cycles = l.cycles.map (BudgetCycle.clamp start) ++ [openedCycle config now start stop])
      (authority : l'.authority = l.authority) : Piece config now l () l'
  | continued {l' row held} (bounds : configuredBounds config now = some (row.cycleStart,row.cycleEnd))
      (mem : row ∈ l.cycles) (continues : l.continuedFrom config row.cycleStart = some held)
      (cycles : l'.cycles = l.cycles)
      (authority : l'.authority = l.authority ++ [.fresh row.cycleStart .continued held.ledgerId now]) :
      Piece config now l () l'

inductive Command (digest : Json → String) (config : LedgerConfig) (now : Int) (event : Event) (l l' : Ledger) :
    Prop where
  | kept (same : SameHoldings l l') : Command digest config now event l l'
  | claimed {row text} (attestedBy) (claims : event = .originClaimed attestedBy) (named : config.ledgerId ≠ "")
      (bounds : configuredBounds config now = some (row.cycleStart,row.cycleEnd)) (mem : row ∈ l.cycles)
      (free : l.authorityFor row.cycleStart = none) (cycles : l'.cycles = l.cycles)
      (authority : l'.authority = l.authority ++
        [{ LedgerAuthority.fresh row.cycleStart .origin config.ledgerId now with attestedBy := text }]) :
      Command digest config now event l l'
  | exported {row held pk} (destination : String) (record) (exports : event = .handoffExported destination record)
      (bounds : configuredBounds config now = some (row.cycleStart,row.cycleEnd)) (mem : row ∈ l.cycles)
      (entry : l.authorityEntry row.cycleStart = some (held,pk)) (holds : held.handedOffAt = none)
      (disabled : config.budget.enabled = false) (other : Text.strip destination ≠ held.ledgerId)
      (addressed : Text.strip destination ≠ "") (drained : drainRefusal l = none)
      (built : record = buildRecord row held (Text.strip destination) config now l) (cycles : l'.cycles = l.cycles)
      (authority : l'.authority = l.authority.set pk
        (handedOff digest held (Text.strip destination) record now)) :
      Command digest config now event l l'
  | imported {row total source} (record) (imports : event = .handoffImported record)
      (named : config.ledgerId ≠ "") (bound : boundTo record config.ledgerId = true)
      (bounds : configuredBounds config now = some (row.cycleStart,row.cycleEnd)) (mem : row ∈ l.cycles)
      (parsed : parseDt (lookup "cycle_start" record.fields) "cycle_start" = .ok row.cycleStart)
      (free : l.authorityFor row.cycleStart = none) (validated : validatedTotal record = .ok total)
      (cycles : l'.cycles = l.cycles)
      (authority : l'.authority = l.authority ++
        [{ LedgerAuthority.fresh row.cycleStart .handoff config.ledgerId now with
          carriedConsumptionUsd := toLedger total
          attestedBy := Text.truncate 200 ("handoff from " ++ source)
          importedRecordDigest := some (digest record) }]) : Command digest config now event l l'

section
variable {digest : Json → String} {config : LedgerConfig} {now : Int} {event : Event} {l l' : Ledger}

theorem continuedPiece {row : BudgetCycle} (bounds : configuredBounds config now = some (row.cycleStart,row.cycleEnd))
    (mem : row ∈ l.cycles) : Piece config now l () (ensureContinuedAuthority row.cycleStart config now l) := by
  unfold ensureContinuedAuthority
  split
  · exact .kept (.refl l)
  · rename_i held continues
    exact .continued bounds mem continues rfl rfl

theorem ensuredPieces {result : Option BudgetCycle} (step : Ensured config now l l' result) :
    ∃ pieces, Runs (Piece config now) l pieces l' := by
  cases step with
  | unavailable => exact ⟨_,.nil l⟩
  | recorded => exact ⟨_,.nil l⟩
  | @opened start stop bounds free =>
    have mem : openedCycle config now start stop ∈
        l.cycles.map (BudgetCycle.clamp start) ++ [openedCycle config now start stop] :=
      List.mem_append_right _ (List.mem_singleton.mpr rfl)
    have opens : Piece config now l ()
        { l with cycles := l.cycles.map (BudgetCycle.clamp start) ++ [openedCycle config now start stop] } :=
      .opened bounds free rfl rfl
    have continues := @continuedPiece config now
      { l with cycles := l.cycles.map (BudgetCycle.clamp start) ++ [openedCycle config now start stop] }
      (openedCycle config now start stop) bounds mem
    exact ⟨_,.cons opens (.single continues)⟩

theorem foundPieces {cycle : BudgetCycle} (found : (ensureCycle config now l).2 = some cycle) :
    (∃ pieces, Runs (Piece config now) l pieces (ensureCycle config now l).1) ∧
    cycle ∈ (ensureCycle config now l).1.cycles ∧
    configuredBounds config now = some (cycle.cycleStart,cycle.cycleEnd) := by
  have step := ensureCycleSound config now l
  rw [found] at step
  exact ⟨ensuredPieces step,ensuredRow step⟩

theorem holdingPieces (holding : Holding digest config now l l' event) :
    ∃ pieces m, Runs (Piece config now) l pieces m ∧ Command digest config now event m l' := by
  cases holding with
  | kept same => exact ⟨_,l,.nil l,.kept same⟩
  | ensured before step same =>
    obtain ⟨pieces,run⟩ := ensuredPieces step
    exact ⟨_,_,.cons (.kept before) run,.kept same⟩
  | continued before step same =>
    obtain ⟨pieces,run⟩ := ensuredPieces step
    obtain ⟨mem,bounds⟩ := ensuredRow step
    exact ⟨_,_,(Runs.cons (.kept before) run).append (.single (continuedPiece bounds mem)),.kept same⟩
  | @claimed attestedBy cycle found claimed =>
    obtain ⟨⟨pieces,run⟩,mem,bounds⟩ := foundPieces found
    obtain ⟨text,added⟩ := claimed.added
    exact ⟨_,_,run,.claimed attestedBy rfl claimed.named bounds mem claimed.free claimed.cycles added⟩
  | @exported destination record cycle row pk found entry exported =>
    obtain ⟨⟨pieces,run⟩,mem,bounds⟩ := foundPieces found
    cases exported with
    | again stored handed => exact ⟨_,_,run,.kept (.refl _)⟩
    | drained held disabled other addressed none =>
      exact ⟨_,_,run,.exported destination _ rfl bounds mem entry held disabled other addressed none rfl rfl rfl⟩
  | @imported record cycle changed named bound found parsed imported =>
    obtain ⟨⟨pieces,run⟩,mem,bounds⟩ := foundPieces found
    cases imported with
    | again => exact ⟨_,_,run,.kept (.refl _)⟩
    | accepted free validated source =>
      exact ⟨_,_,run,.imported record rfl named bound bounds mem parsed free validated rfl rfl⟩
end

theorem authorityForNone {l : Ledger} {start : Int} :
    l.authorityFor start = none ↔ ∀ a ∈ l.authority, a.cycleStart ≠ start := by
  simp [Ledger.authorityFor,List.find?_eq_none]

theorem authorityForSome {l : Ledger} {start : Int} {a : LedgerAuthority} (found : l.authorityFor start = some a) :
    a ∈ l.authority ∧ a.cycleStart = start :=
  ⟨List.mem_of_find?_eq_some found,by simpa using List.find?_some found⟩

theorem authorityEntrySome {l : Ledger} {start : Int} {a : LedgerAuthority} {pk : Nat}
    (found : l.authorityEntry start = some (a,pk)) : l.authority[pk]? = some a ∧ a.cycleStart = start := by
  have mem := List.mem_of_find?_eq_some found
  rw [List.mem_zipIdx_iff_getElem?] at mem
  exact ⟨mem,by simpa using List.find?_some found⟩

structure Continues (config : LedgerConfig) (start : Int) (l : Ledger) (held : LedgerAuthority)
    (previous : BudgetCycle) : Prop where
  free : l.authorityFor start = none
  mem : previous ∈ l.cycles
  earlier : previous.cycleStart < start
  latest : ∀ row ∈ l.cycles, row.cycleStart < start → row.cycleStart ≤ previous.cycleStart
  adjacent : start - previous.cycleEnd ≤ guard config
  stored : held ∈ l.authority
  same : held.cycleStart = previous.cycleStart
  holds : held.handedOffAt = none

theorem continuesSound {config : LedgerConfig} {start : Int} {l : Ledger} {held : LedgerAuthority}
    (found : l.continuedFrom config start = some held) : ∃ previous, Continues config start l held previous := by
  obtain ⟨free,previous,latest,near,stored,same,holds⟩ := continuedSound found
  obtain ⟨mem,earlier,newest⟩ := previousSound latest
  exact ⟨previous,free,mem,earlier,newest,near,stored,same,holds⟩

inductive LedgerAuthority.Placed (a : LedgerAuthority) : Prop where
  | held (holds : a.handedOffAt = none)
  | handed {destination record cycle held config now l} (gone : a.handedOffAt ≠ none)
      (given : a.handedOffTo = some destination) (sent : a.handoffRecord = some record)
      (start : cycle.cycleStart = a.cycleStart) (source : held.ledgerId = a.ledgerId)
      (other : destination ≠ a.ledgerId) (addressed : destination ≠ "")
      (built : record = buildRecord cycle held destination config now l)

def Gridded (anchor : Anchor) (cycles : List BudgetCycle) : Prop :=
  ∀ row ∈ cycles, ∃ k, row.cycleStart = cycleStart anchor k ∧
    row.cycleEnd = cycleStart anchor (k + 1) - cycleEndEpsilon

structure Kept (anchor : Anchor) (clock : Int) (l : Ledger) : Prop where
  grid : Gridded anchor l.cycles
  begun : ∀ row ∈ l.cycles, row.cycleStart ≤ clock
  recorded : ∀ a ∈ l.authority, ∃ row ∈ l.cycles, row.cycleStart = a.cycleStart
  single : (l.authority.map LedgerAuthority.cycleStart).Nodup
  named : ∀ a ∈ l.authority, a.ledgerId ≠ ""
  placed : ∀ a ∈ l.authority, a.Placed

section
variable {anchor : Anchor} {digest : Json → String} {config : LedgerConfig} {now clock : Int} {event : Event}
  {l l' : Ledger}

theorem keptEmpty (anchor : Anchor) (clock : Int) {l : Ledger} (cycles : l.cycles = []) (authority : l.authority = []) :
    Kept anchor clock l :=
  ⟨by simp [Gridded,cycles],by simp [cycles],by simp [authority],by simp [authority],by simp [authority],
    by simp [authority]⟩

theorem anchoredBounds (anchored : config.budget.billingCycleAnchor = some anchor) {start stop : Int}
    (bounds : configuredBounds config now = some (start,stop)) :
    ∃ k, start = cycleStart anchor k ∧ stop = cycleStart anchor (k + 1) - cycleEndEpsilon ∧
      cycleStart anchor k ≤ now ∧ now < cycleStart anchor (k + 1) := by
  obtain ⟨own,here,derived⟩ := configuredBoundsSound bounds
  obtain rfl := Option.some.inj (anchored.symm.trans here)
  obtain ⟨_,k,first,last,low,high⟩ := boundsSound derived
  exact ⟨k,first,last,low,high⟩

theorem clampGridded (grid : Gridded anchor l.cycles) (m : Int) :
    l.cycles.map (BudgetCycle.clamp (cycleStart anchor m)) = l.cycles := by
  refine (List.map_congr_left fun row mem => ?_).trans (List.map_id _)
  obtain ⟨k,first,last⟩ := grid row mem
  refine if_neg fun overlap => ?_
  have before : k < m := (cycleStartStrict anchor).lt_iff_lt.mp (by rw [← first]; exact overlap.1)
  have next := (cycleStartStrict anchor).monotone (Int.add_one_le_iff.mpr before)
  have eps := epsilonPositive
  omega

theorem keptAppended (inv : Kept anchor clock l) (order : clock ≤ now) {row : BudgetCycle} (mem : row ∈ l.cycles)
    (cycles : l'.cycles = l.cycles) {a : LedgerAuthority} (authority : l'.authority = l.authority ++ [a])
    (start : a.cycleStart = row.cycleStart) (free : l.authorityFor row.cycleStart = none)
    (named : a.ledgerId ≠ "") (holds : a.handedOffAt = none) : Kept anchor now l' := by
  have either : ∀ b ∈ l'.authority, b ∈ l.authority ∨ b = a := fun b mem => by simpa [authority] using mem
  refine ⟨cycles ▸ inv.grid,fun r h => (inv.begun r (cycles ▸ h)).trans order,fun b h => ?_,?_,fun b h => ?_,
    fun b h => ?_⟩
  · rw [cycles]
    rcases either b h with old | rfl
    · exact inv.recorded b old
    · exact ⟨row,mem,start.symm⟩
  · rw [authority,List.map_append,List.nodup_append]
    refine ⟨inv.single,by simp,?_⟩
    intro x old y new
    obtain ⟨b,memB,rfl⟩ := List.mem_map.mp old
    rw [List.map_singleton,List.mem_singleton] at new
    rw [new,start]
    exact authorityForNone.mp free b memB
  · rcases either b h with old | rfl
    · exact inv.named b old
    · exact named
  · rcases either b h with old | rfl
    · exact inv.placed b old
    · exact .held holds

theorem keptSame (inv : Kept anchor clock l) (order : clock ≤ now) (same : SameHoldings l l') : Kept anchor now l' := by
  obtain ⟨cycles,authority⟩ := same
  refine ⟨cycles ▸ inv.grid,fun row mem => (inv.begun row (cycles ▸ mem)).trans order,?_,authority ▸ inv.single,
    authority ▸ inv.named,authority ▸ inv.placed⟩
  rw [cycles,authority]
  exact inv.recorded

theorem keptPiece (inv : Kept anchor clock l) (anchored : config.budget.billingCycleAnchor = some anchor)
    (order : clock ≤ now) (piece : Piece config now l () l') : Kept anchor now l' := by
  cases piece with
  | kept same => exact keptSame inv order same
  | @opened _ start stop bounds free cycles authority =>
    obtain ⟨k,rfl,rfl,low,high⟩ := anchoredBounds anchored bounds
    rw [clampGridded inv.grid] at cycles
    refine ⟨fun row mem => ?_,fun row mem => ?_,fun a mem => ?_,authority ▸ inv.single,authority ▸ inv.named,
      authority ▸ inv.placed⟩
    · rw [cycles] at mem
      rcases List.mem_append.mp mem with old | new
      · exact inv.grid row old
      · rw [List.mem_singleton.mp new]; exact ⟨k,rfl,rfl⟩
    · rw [cycles] at mem
      rcases List.mem_append.mp mem with old | new
      · exact (inv.begun row old).trans order
      · rw [List.mem_singleton.mp new]; exact low
    · obtain ⟨row,old,same⟩ := inv.recorded a (authority ▸ mem)
      exact ⟨row,cycles ▸ List.mem_append_left _ old,same⟩
  | @continued _ row held bounds mem continues cycles authority =>
    obtain ⟨previous,found⟩ := continuesSound continues
    have named : held.ledgerId ≠ "" := inv.named held found.stored
    exact keptAppended inv order mem cycles authority rfl found.free named rfl

theorem keptPieces (inv : Kept anchor clock l) (anchored : config.budget.billingCycleAnchor = some anchor)
    (order : clock ≤ now) {pieces : List Unit} (run : Runs (Piece config now) l pieces l') : Kept anchor now l' :=
  run.invariant (Kept anchor now) (fun inv piece => keptPiece inv anchored le_rfl piece)
    (keptSame inv order (.refl l))

theorem handedStarts {held : LedgerAuthority} {pk : Nat} (here : l.authority[pk]? = some held) {destination : String}
    {record : Json} : (l.authority.set pk (handedOff digest held destination record now)).map
      LedgerAuthority.cycleStart = l.authority.map LedgerAuthority.cycleStart := by
  obtain ⟨bound,rfl⟩ := List.getElem?_eq_some_iff.mp here
  rw [List.map_set]
  exact (congrArg _ (List.getElem_map _).symm).trans (List.set_getElem_self (by simpa using bound))

theorem keptCommand (inv : Kept anchor clock l) (order : clock ≤ now)
    (command : Command digest config now event l l') : Kept anchor now l' := by
  cases command with
  | kept same => exact keptSame inv order same
  | claimed attestedBy claims named bounds mem free cycles authority =>
    exact keptAppended inv order mem cycles authority rfl free named rfl
  | imported record imports named bound bounds mem parsed free validated cycles authority =>
    exact keptAppended inv order mem cycles authority rfl free named rfl
  | @exported row held pk destination record exports bounds mem entry holds disabled other addressed drained built
      cycles authority =>
    obtain ⟨at_,start⟩ := authorityEntrySome entry
    have either : ∀ b ∈ l'.authority, b ∈ l.authority ∨
        b = handedOff digest held (Text.strip destination) record now := by
      intro b h
      rw [authority] at h
      exact List.mem_or_eq_of_mem_set h
    have own : held ∈ l.authority := List.mem_of_getElem? at_
    refine ⟨cycles ▸ inv.grid,fun r h => (inv.begun r (cycles ▸ h)).trans order,fun b h => ?_,?_,
      fun b h => ?_,fun b h => ?_⟩
    · rw [cycles]
      rcases either b h with old | rfl
      · exact inv.recorded b old
      · exact inv.recorded held own
    · rw [authority,handedStarts at_]; exact inv.single
    · rcases either b h with old | rfl
      · exact inv.named b old
      · exact inv.named held own
    · rcases either b h with old | rfl
      · exact inv.placed b old
      · exact .handed (by simp [handedOff]) rfl rfl start.symm rfl other addressed built
end

theorem keptStep {anchor : Anchor} {digest : Json → String} {w w' : World} {label : Label}
    (inv : Kept anchor w.clock w.ledger) (anchored : label.config.budget.billingCycleAnchor = some anchor)
    (step : Step digest w label w') : Kept anchor w'.clock w'.ledger := by
  obtain ⟨pieces,m,run,command⟩ := holdingPieces (transitionHoldings step.2)
  rw [transitionClock step.2]
  exact keptCommand (keptPieces inv anchored step.1 run) le_rfl command

end HwRadar.Apify
