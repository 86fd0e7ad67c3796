import HwRadar.Apify.SingleAuthority
import HwRadar.Apify.Records

/-! A handoff conserves consumption. Once a ledger has handed a cycle off, its rows
are closed and it admits nothing before it takes an authority over again, so the
debits of that cycle stand still and the record carries all of them. -/
namespace HwRadar.Apify
open HwRadar.Base HwRadar.Base.Tables
universe u

structure Reservation.Closed (row : Reservation) : Prop where
  settled : row.status.isOpen = false
  idle : row.monitoringCallPendingSince = none
  closed : row.status = .reconciled → hasObligation row = true → row.correctionMonitorClosedAt ≠ none

theorem drainedClosed {w : World} (sound : w.Sound) (drained : Drained w.ledger) :
    ∀ row ∈ w.ledger.reservations, row.Closed := by
  intro row mem
  have closed : row.status = .reconciled → hasObligation row = true → row.correctionMonitorClosedAt.isSome = true ∧
      row.monitoringCallPendingSince.isNone = true := by
    intro reconciled obliged
    have shut := drained.closed row mem reconciled obliged
    unfold monitoringClosed at shut
    split at shut
    · simp only [Bool.and_eq_true] at shut
      exact ⟨shut.1.1,shut.2⟩
    · cases shut
  refine ⟨drained.settled row mem,?_,fun reconciled obliged none => ?_⟩
  · by_contra pending
    obtain ⟨reconciled,obliged⟩ := sound.marked row mem pending
    exact pending (Option.isNone_iff_eq_none.mp (closed reconciled obliged).2)
  · have shut := (closed reconciled obliged).1
    rw [none] at shut
    cases shut

section
variable {config own : LedgerConfig} {now processStartedAt yStart yEnd : Int} {link : Option Nat} {l l' : Ledger}
  {row row' : Reservation} {side : Bool}

theorem closedUnchanged (closed : row.Closed) (checked : row.Checked) :
    ¬RowChange config now processStartedAt link l row row' := by
  intro change
  cases change with
  | worked change => exact absurd change.wasOpen (by simp [closed.settled])
  | begun change => exact closed.closed change.reconciled (change.obliged checked) change.unclosed
  | completed pending change => exact pending closed.idle
  | resolved stale marked => simp [staleMarker,closed.idle] at stale

theorem closedRows (closed : ∀ row ∈ l.reservations, row.Closed)
    (rows : Rewritten (RowChange config now processStartedAt link l) l.reservations l'.reservations) :
    l'.reservations = l.reservations := by
  have same : List.Forall₂ Eq l.reservations l'.reservations := by
    have none : Rewritten (fun _ _ => False) l.reservations l'.reservations :=
      rows.impOf fun row mem _ change => closedUnchanged (closed row mem) (l.rowsChecked row mem) change
    exact List.Forall₂.imp (fun a b either => (either.resolve_right id).symm) none
  exact (List.forall₂_eq_eq_eq ▸ same : l.reservations = l'.reservations).symm

theorem closedPart (closed : row.Closed) (same : guard config = guard own) (runs runs' : List ProviderRun) :
    sidePart side config runs yStart yEnd row = sidePart side own runs' yStart yEnd row := by
  unfold sidePart
  rw [same]
  refine if_congr Iff.rfl ?_ rfl
  unfold rowPart
  by_cases reconciled : row.status = .reconciled
  · have shut : ∀ settings : LedgerConfig, ∀ runs, monitoringOpen settings runs row = false := by
      intro settings runs
      unfold monitoringOpen
      rw [if_neg (by simp [closed.idle])]
      cases obliged : hasObligation row with
      | false => simp
      | true =>
        have at_ := closed.closed reconciled obliged
        cases here : row.correctionMonitorClosedAt with
        | none => exact absurd here at_
        | some t => simp
    have settled : ∀ t, settledTouches config yStart yEnd t row = settledTouches own yStart yEnd t row := by
      intro t
      simp only [settledTouches,same]
    have monitored : ∀ t, monitoringTouches config runs yStart yEnd t row =
        monitoringTouches own runs' yStart yEnd t row := by
      intro t
      simp only [monitoringTouches,monitoringEnd,shut,same]
    simp only [settled,monitored]
  · rw [if_pos reconciled,if_pos reconciled]

theorem deniedPart (denied : row.status = .denied) (runs : List ProviderRun) :
    sidePart side config runs yStart yEnd row = {} := by
  simp [sidePart,prefilter,denied,ReservationStatus.isOpen]

def Denied (l l' : Ledger) : Prop :=
  l'.reservations = l.reservations ∨ ∃ row, row.Closed ∧ row.status = .denied ∧ l'.reservations =
    l.reservations ++ [row]

theorem Denied.closed (denied : Denied l l') (closed : ∀ row ∈ l.reservations, row.Closed) :
    ∀ row ∈ l'.reservations, row.Closed := by
  rcases denied with same | ⟨new,shut,_,appended⟩
  · rw [same]; exact closed
  · intro row mem
    rw [appended] at mem
    rcases List.mem_append.mp mem with old | fresh
    · exact closed row old
    · rw [List.mem_singleton.mp fresh]; exact shut

theorem deniedParts (denied : Denied l l') (closed : ∀ row ∈ l.reservations, row.Closed)
    (same : guard config = guard own) :
    (l'.reservations.map fun row => (sidePart side config l'.runs yStart yEnd row).total).sum =
    (l.reservations.map fun row => (sidePart side own l.runs yStart yEnd row).total).sum := by
  have parts : (l.reservations.map fun row => (sidePart side config l'.runs yStart yEnd row).total) =
      l.reservations.map fun row => (sidePart side own l.runs yStart yEnd row).total :=
    List.map_congr_left fun row mem => by rw [closedPart (closed row mem) same]
  rcases denied with rows | ⟨new,_,status,appended⟩
  · rw [rows,parts]
  · rw [appended,List.map_append,List.sum_append,parts,List.map_singleton,deniedPart status]
    simp [ClassTally.total]

theorem deniedDebits (denied : Denied l l') (closed : ∀ row ∈ l.reservations, row.Closed)
    (same : guard config = guard own) (cycle : BudgetCycle)
    (carried : l'.carriedFor cycle.cycleStart = l.carriedFor cycle.cycleStart) :
    (cycleDebits config l' cycle).1 = (cycleDebits own l cycle).1 := by
  have runtime : (cycleDebits config l' cycle).1.runtimeCommittedUsd =
      (cycleDebits own l cycle).1.runtimeCommittedUsd := by
    rw [cycleDebits,cycleDebits,runtimeCommitted,runtimeCommitted,deniedParts denied closed same]
  have operator : (cycleDebits config l' cycle).1.operatorCommittedUsd =
      (cycleDebits own l cycle).1.operatorCommittedUsd := by
    rw [cycleDebits,cycleDebits,operatorCommitted,operatorCommitted,deniedParts denied closed same]
  have brought : (cycleDebits config l' cycle).1.carriedHandoffUsd = (cycleDebits own l cycle).1.carriedHandoffUsd :=
    carried
  calc (cycleDebits config l' cycle).1
      = ⟨(cycleDebits config l' cycle).1.runtimeCommittedUsd,(cycleDebits config l' cycle).1.operatorCommittedUsd,
          (cycleDebits config l' cycle).1.carriedHandoffUsd⟩ := rfl
    _ = (cycleDebits own l cycle).1 := by rw [runtime,operator,brought]
end

structure Gone (anchor : Anchor) (k : Int) (l : Ledger) : Prop where
  entry : ∃ a ∈ l.authority, a.cycleStart = cycleStart anchor k ∧ a.handedOffAt ≠ none
  all : ∀ a ∈ l.authority, cycleStart anchor k ≤ a.cycleStart → a.handedOffAt ≠ none

def Event.takes : Event → Prop
  | .originClaimed _ | .handoffImported _ => True
  | _ => False

section
variable {anchor : Anchor} {digest : Json → String} {config : LedgerConfig} {now clock k m : Int} {event : Event}
  {l l' : Ledger}

theorem Gone.filled (gone : Gone anchor k l) : l.authorityFor (cycleStart anchor k) ≠ none := by
  obtain ⟨a,mem,start,_⟩ := gone.entry
  exact fun free => authorityForNone.mp free a mem start

theorem goneSame (gone : Gone anchor k l) (authority : l'.authority = l.authority) : Gone anchor k l' :=
  ⟨authority ▸ gone.entry,authority ▸ gone.all⟩

theorem laterCycle (begun : cycleStart anchor k ≤ now) (high : now < cycleStart anchor (m + 1)) : k ≤ m := by
  have before : k < m + 1 := (cycleStartStrict anchor).lt_iff_lt.mp (begun.trans_lt high)
  omega

theorem gonePiece (inv : Kept anchor clock l) (gone : Gone anchor k l) (piece : Piece config now l () l') :
    Gone anchor k l' := by
  cases piece with
  | kept same => exact goneSame gone same.authority
  | opened bounds free cycles authority => exact goneSame gone authority
  | @continued _ row held bounds mem continues cycles authority =>
    obtain ⟨a,own,start,given⟩ := gone.entry
    refine ⟨⟨a,authority ▸ List.mem_append_left _ own,start,given⟩,fun b member after => ?_⟩
    rw [authority] at member
    rcases List.mem_append.mp member with old | new
    · exact gone.all b old after
    · -- the cycle continued into is later than cycle `k`, so the one before it is cycle `k` or later
      obtain ⟨previous,found⟩ := continuesSound continues
      rw [List.mem_singleton.mp new] at after
      change cycleStart anchor k ≤ row.cycleStart at after
      rcases after.lt_or_eq with later | same
      · obtain ⟨recorded,stored,starts⟩ := inv.recorded a own
        have latest := found.latest recorded stored (by rw [starts,start]; exact later)
        rw [starts,start,← found.same] at latest
        exact absurd found.holds (gone.all held found.stored latest)
      · exact absurd (same ▸ found.free) gone.filled

theorem goneCommand (anchored : config.budget.billingCycleAnchor = some anchor) (gone : Gone anchor k l)
    (begun : cycleStart anchor k ≤ now) (within : event.takes → now < cycleStart anchor (k + 1))
    (command : Command digest config now event l l') : Gone anchor k l' := by
  cases command with
  | kept same => exact goneSame gone same.authority
  | claimed attestedBy claims named bounds mem free cycles authority =>
    obtain ⟨m,start,_,low,high⟩ := anchoredBounds anchored bounds
    obtain rfl := boundsIndex ⟨low,high⟩ ⟨begun,within (by rw [claims]; trivial)⟩
    exact absurd (start ▸ free) gone.filled
  | imported record imports named bound bounds mem parsed free validated cycles authority =>
    obtain ⟨m,start,_,low,high⟩ := anchoredBounds anchored bounds
    obtain rfl := boundsIndex ⟨low,high⟩ ⟨begun,within (by rw [imports]; trivial)⟩
    exact absurd (start ▸ free) gone.filled
  | exported destination record exports bounds mem entry holds disabled other addressed drained built cycles
      authority =>
    obtain ⟨m,start,_,_,high⟩ := anchoredBounds anchored bounds
    obtain ⟨here,starts⟩ := authorityEntrySome entry
    have after : cycleStart anchor k ≤ cycleStart anchor m :=
      (cycleStartStrict anchor).monotone (laterCycle begun high)
    rw [← start,← starts] at after
    exact absurd holds (gone.all _ (List.mem_of_getElem? here) after)

theorem goneDenied {request : AdmissionRequest} {mid : Ledger} {outcome : ReservationOutcome} {state : LedgerState}
    {row : Reservation} (anchored : config.budget.billingCycleAnchor = some anchor) (gone : Gone anchor k l')
    (begun : cycleStart anchor k ≤ now) (admission : Reserved request config now l l' outcome mid state row) :
    row.Closed ∧ row.status = .denied := by
  have refused : (decideAdmission request config.budget state).admitted = false := by
    by_contra admitted
    obtain ⟨priced,external,usable,decided,_⟩ := decideAdmissionSound (Bool.not_eq_false _ ▸ admitted)
    obtain ⟨snap,taken,_⟩ := decided.inside
    have held := decided.held
    cases admission.prepared with
    | noCycle => contradiction
    | @cycle _ cycle step =>
      obtain ⟨m,start,_,_,high⟩ := anchoredBounds anchored (ensuredRow step).2
      obtain ⟨a,mem,found⟩ := List.any_eq_true.mp held
      rw [Bool.and_eq_true,beq_iff_eq,Option.isNone_iff_eq_none] at found
      have after : cycleStart anchor k ≤ a.cycleStart := by
        rw [found.1,start]
        exact (cycleStartStrict anchor).monotone (laterCycle begun high)
      exact gone.all a (admission.authority ▸ mem) after found.2
  obtain ⟨site,envelope,reason,made⟩ := admission.content
  have status : row.status = .denied := by rw [made]; simp [Reservation.of,refused]
  refine ⟨⟨by rw [status]; rfl,by rw [made]; rfl,fun reconciled => ?_⟩,status⟩
  rw [status] at reconciled
  cases reconciled
end

structure Frozen (anchor : Anchor) (k : Int) (w : World) : Prop where
  closed : ∀ row ∈ w.ledger.reservations, row.Closed
  gone : Gone anchor k w.ledger
  begun : cycleStart anchor k ≤ w.clock

section
variable {anchor : Anchor} {digest : Json → String} {k : Int} {w w' : World} {label : Label}

structure Anchored (anchor : Anchor) (w : World) : Prop where
  sound : w.Sound
  kept : Kept anchor w.clock w.ledger

theorem anchoredStep (inv : Anchored anchor w) (anchored : label.config.budget.billingCycleAnchor = some anchor)
    (step : Step digest w label w') : Anchored anchor w' :=
  ⟨soundTransition inv.sound step.1 step.2,keptStep inv.kept anchored step⟩

theorem stepHanded (step : Step digest w label w') : HandedKept w.ledger w'.ledger := by
  obtain ⟨pieces,m,run,command⟩ := holdingPieces (transitionHoldings step.2)
  exact fun a mem gone => commandHanded command a (piecesHanded run a mem gone) gone

theorem frozenStep (inv : Anchored anchor w) (frozen : Frozen anchor k w)
    (anchored : label.config.budget.billingCycleAnchor = some anchor)
    (within : label.event.takes → label.now < cycleStart anchor (k + 1)) (step : Step digest w label w') :
    Frozen anchor k w' ∧ Denied w.ledger w'.ledger := by
  have begun : cycleStart anchor k ≤ label.now := frozen.begun.trans step.1
  obtain ⟨pieces,m,run,command⟩ := holdingPieces (transitionHoldings step.2)
  have waits : Kept anchor label.now w.ledger := keptSame inv.kept step.1 (.refl _)
  have middle : Kept anchor label.now m ∧ Gone anchor k m :=
    run.invariant (fun l => Kept anchor label.now l ∧ Gone anchor k l)
      (fun both piece => ⟨keptPiece both.1 anchored le_rfl piece,gonePiece both.1 both.2 piece⟩) ⟨waits,frozen.gone⟩
  have gone : Gone anchor k w'.ledger := goneCommand anchored middle.2 begun within command
  have denied : Denied w.ledger w'.ledger := by
    cases (transitionTables inv.sound step.2).1 with
    | reserved admission =>
      obtain ⟨shut,status⟩ := goneDenied anchored gone begun admission
      exact .inr ⟨_,shut,status,admission.appended⟩
    | rewritten link linked rows => exact .inl (closedRows frozen.closed rows)
  exact ⟨⟨denied.closed frozen.closed,gone,transitionClock step.2 ▸ begun⟩,denied⟩

theorem frozenCarried (inv : Anchored anchor w) (frozen : Frozen anchor k w) (inv' : Anchored anchor w')
    (handed : HandedKept w.ledger w'.ledger) :
    w'.ledger.carriedFor (cycleStart anchor k) = w.ledger.carriedFor (cycleStart anchor k) := by
  obtain ⟨a,mem,start,gone⟩ := frozen.gone.entry
  have before := authorityForOf inv.kept.single mem
  have after := authorityForOf inv'.kept.single (handed a mem gone)
  rw [start] at before after
  rw [Ledger.carriedFor,Ledger.carriedFor,before,after]

def Afterwards (digest : Json → String) (anchor : Anchor) (k : Int) (w : World) (label : Label) (w' : World) : Prop :=
  label.config.budget.billingCycleAnchor = some anchor ∧
  (label.event.takes → label.now < cycleStart anchor (k + 1)) ∧ Step digest w label w'

theorem frozenDebits (inv : Anchored anchor w) (frozen : Frozen anchor k w)
    (step : Afterwards digest anchor k w label w')
    {config own : LedgerConfig} (same : guard config = guard own) (cycle : BudgetCycle)
    (start : cycle.cycleStart = cycleStart anchor k) :
    (cycleDebits config w'.ledger cycle).1 = (cycleDebits own w.ledger cycle).1 := by
  obtain ⟨anchored,within,step⟩ := step
  obtain ⟨_,denied⟩ := frozenStep inv frozen anchored within step
  refine deniedDebits denied frozen.closed same cycle ?_
  rw [start]
  exact frozenCarried inv frozen (anchoredStep inv anchored step) (stepHanded step)

theorem frozenRun {labels : List Label} (inv : Anchored anchor w) (frozen : Frozen anchor k w)
    (run : Runs (Afterwards digest anchor k) w labels w') (config : LedgerConfig) (cycle : BudgetCycle)
    (start : cycle.cycleStart = cycleStart anchor k) :
    (cycleDebits config w'.ledger cycle).1 = (cycleDebits config w.ledger cycle).1 := by
  refine (run.related (fun w => Anchored anchor w ∧ Frozen anchor k w)
    (fun v w => (cycleDebits config w.ledger cycle).1 = (cycleDebits config v.ledger cycle).1) (fun _ => rfl)
    (fun first second => second.trans first) (fun both step => ?_) ⟨inv,frozen⟩).2
  exact ⟨⟨anchoredStep both.1 step.1 step.2.2,(frozenStep both.1 both.2 step.1 step.2.1 step.2.2).1⟩,
    frozenDebits both.1 both.2 step rfl cycle start⟩
end

theorem pieceBefore {config : LedgerConfig} {now : Int} {l l' : Ledger} (piece : Piece config now l () l')
    {a : LedgerAuthority} (mem : a ∈ l'.authority) (gone : a.handedOffAt ≠ none) : a ∈ l.authority := by
  cases piece with
  | kept same => exact same.authority ▸ mem
  | opened bounds free cycles authority => exact authority ▸ mem
  | continued bounds row continues cycles authority =>
    rw [authority] at mem
    rcases List.mem_append.mp mem with old | new
    · exact old
    · rw [List.mem_singleton.mp new] at gone
      exact absurd rfl gone

theorem piecesBefore {config : LedgerConfig} {now : Int} {l l' : Ledger} {pieces : List Unit}
    (run : Runs (Piece config now) l pieces l') {a : LedgerAuthority} (mem : a ∈ l'.authority)
    (gone : a.handedOffAt ≠ none) : a ∈ l.authority := by
  induction run with
  | nil l => exact mem
  | cons head tail ih => exact pieceBefore head (ih mem) gone

section
variable {anchor : Anchor} {digest : Json → String} {k : Int} {w w' : World} {label : Label} {config own : LedgerConfig}
  {now : Int} {event : Event} {l l' : Ledger} {record : Json} {destination : String}

theorem commandBefore (command : Command digest config now event l l')
    (other : ∀ destination record, event ≠ .handoffExported destination record) {a : LedgerAuthority}
    (mem : a ∈ l'.authority) (gone : a.handedOffAt ≠ none) : a ∈ l.authority := by
  cases command with
  | kept same => exact same.authority ▸ mem
  | exported destination record exports => exact absurd exports (other destination record)
  | claimed attestedBy claims named bounds row free cycles authority =>
    rw [authority] at mem
    rcases List.mem_append.mp mem with old | new
    · exact old
    · rw [List.mem_singleton.mp new] at gone
      exact absurd rfl gone
  | imported record imports named bound bounds row parsed free validated cycles authority =>
    rw [authority] at mem
    rcases List.mem_append.mp mem with old | new
    · exact old
    · rw [List.mem_singleton.mp new] at gone
      exact absurd rfl gone

structure ExportOf (anchor : Anchor) (digest : Json → String) (destination : String) (config : LedgerConfig) (now : Int)
    (w : World) (l' : Ledger) (record : Json) (k : Int) (cycle : BudgetCycle) (a : LedgerAuthority) : Prop where
  found : (ensureCycle config now w.ledger).2 = some cycle
  start : cycle.cycleStart = cycleStart anchor k
  stop : cycle.cycleEnd = cycleStart anchor (k + 1) - cycleEndEpsilon
  low : cycleStart anchor k ≤ now
  high : now < cycleStart anchor (k + 1)
  mem : a ∈ l'.authority
  own : a.cycleStart = cycleStart anchor k
  gone : a.handedOffAt ≠ none
  sent : a.handoffRecord = some record
  only : ∀ b ∈ l'.authority, b.handedOffAt ≠ none → b ∈ w.ledger.authority ∨ b = a
  either : a ∈ w.ledger.authority ∨ ∃ held,
    held ∈ (ensureCycle config now w.ledger).1.authority ∧ held.cycleStart = cycleStart anchor k ∧
    a = handedOff digest held (Text.strip destination) record now ∧
    record = buildRecord cycle held (Text.strip destination) config now (ensureCycle config now w.ledger).1 ∧
    Drained (ensureCycle config now w.ledger).1 ∧
    l'.reservations = (ensureCycle config now w.ledger).1.reservations

theorem exportOf (anchored : config.budget.billingCycleAnchor = some anchor)
    (ok : exportHandoff digest destination config now w.ledger = .ok (l',record)) :
    ∃ k cycle a, ExportOf anchor digest destination config now w l' record k cycle a := by
  obtain ⟨cycle,row,pk,found,entry,exported⟩ := exportSound ok
  obtain ⟨⟨pieces,run⟩,_,bounds⟩ := foundPieces found
  obtain ⟨k,start,stop,low,high⟩ := anchoredBounds anchored bounds
  obtain ⟨here,same⟩ := authorityEntrySome entry
  cases exported with
  | again stored gone =>
    have mem := List.mem_of_getElem? here
    exact ⟨k,cycle,row,found,start,stop,low,high,mem,same.trans start,gone,stored,
      fun b other given => .inl (piecesBefore run other given),.inl (piecesBefore run mem gone)⟩
  | drained held disabled other named none =>
    refine ⟨k,cycle,_,found,start,stop,low,high,List.mem_set (List.getElem?_eq_some_iff.mp here).1 _,
      same.trans start,by simp [handedOff],rfl,fun b other given => ?_,
      .inr ⟨row,List.mem_of_getElem? here,same.trans start,rfl,rfl,drainedSound none,rfl⟩⟩
    rcases List.mem_or_eq_of_mem_set other with old | new
    · exact .inl (piecesBefore run old given)
    · exact .inr new

def Escrow (own : LedgerConfig) (anchor : Anchor) (w : World) : Prop :=
  ∀ a ∈ w.ledger.authority, ∀ record, a.handoffRecord = some record → a.handedOffAt ≠ none →
    ∀ k, a.cycleStart = cycleStart anchor k → w.clock < cycleStart anchor (k + 1) →
      Frozen anchor k w ∧ ∀ cycle : BudgetCycle, cycle.cycleStart = cycleStart anchor k →
        cycle.cycleEnd = cycleStart anchor (k + 1) - cycleEndEpsilon →
        validatedTotal record = .ok (usd (hrCycle (cycleDebits own w.ledger cycle).1))

theorem exportFrozen (inv : Anchored anchor w) (anchored : config.budget.billingCycleAnchor = some anchor)
    (same : guard config = guard own) (step : Step digest w ⟨config,now,.handoffExported destination record⟩ w')
    {cycle : BudgetCycle} {held : LedgerAuthority}
    (low : cycleStart anchor k ≤ now) (high : now < cycleStart anchor (k + 1))
    (mine : held ∈ (ensureCycle config now w.ledger).1.authority) (start : held.cycleStart = cycleStart anchor k)
    (mem : handedOff digest held (Text.strip destination) record now ∈ w'.ledger.authority)
    (bounds : cycle.cycleStart = cycleStart anchor k)
    (built : record = buildRecord cycle held (Text.strip destination) config now (ensureCycle config now w.ledger).1)
    (drained : Drained (ensureCycle config now w.ledger).1)
    (rows : w'.ledger.reservations = (ensureCycle config now w.ledger).1.reservations) :
    Frozen anchor k w' ∧ validatedTotal record = .ok (usd (hrCycle (cycleDebits own w'.ledger cycle).1)) := by
  have opens : Step digest w ⟨config,now,.ensureCycle⟩ (w.commit now (ensureCycle config now w.ledger).1) :=
    ⟨step.1,.ensureCycle⟩
  have before := anchoredStep inv anchored opens
  have after := anchoredStep inv anchored step
  have closed := drainedClosed before.sound drained
  refine ⟨⟨fun row member => closed row (rows ▸ member),⟨⟨_,mem,start,by simp [handedOff]⟩,fun b other late => ?_⟩,
    transitionClock step.2 ▸ low⟩,?_⟩
  · -- a row of a later cycle would have begun already
    obtain ⟨row,stored,starts⟩ := after.kept.recorded b other
    obtain ⟨j,grid,_⟩ := after.kept.grid row stored
    have begun := after.kept.begun row stored
    rw [transitionClock step.2] at begun
    have index : j = k := by
      have least := laterCycle (begun.trans' grid.ge) high
      have most : k ≤ j := (cycleStartStrict anchor).le_iff_le.mp (by rw [← grid,starts]; exact late)
      omega
    have key : b.cycleStart = (handedOff digest held (Text.strip destination) record now).cycleStart := by
      rw [← starts,grid,index]
      exact start.symm
    rw [List.inj_on_of_nodup_map after.kept.single other mem key]
    simp [handedOff]
  · have carriedBefore := authorityForOf before.kept.single mine
    have carriedAfter := authorityForOf after.kept.single mem
    have carried : w'.ledger.carriedFor cycle.cycleStart =
        (ensureCycle config now w.ledger).1.carriedFor cycle.cycleStart := by
      rw [bounds,← start]
      have here : w'.ledger.authorityFor held.cycleStart =
          some (handedOff digest held (Text.strip destination) record now) := carriedAfter
      have there : (ensureCycle config now w.ledger).1.authorityFor held.cycleStart = some held := carriedBefore
      rw [Ledger.carriedFor,Ledger.carriedFor,here,there]
      rfl
    rw [deniedDebits (.inl rows) closed same.symm cycle carried,built,recordValidated drained,drainedTotal drained]
    rfl
theorem escrowOld (inv : Anchored anchor w) (escrow : Escrow own anchor w)
    (anchored : label.config.budget.billingCycleAnchor = some anchor) (step : Step digest w label w')
    {a : LedgerAuthority} (mem : a ∈ w.ledger.authority) (sent : a.handoffRecord = some record)
    (gone : a.handedOffAt ≠ none) (start : a.cycleStart = cycleStart anchor k)
    (lasts : w'.clock < cycleStart anchor (k + 1)) :
    Frozen anchor k w' ∧ ∀ cycle : BudgetCycle, cycle.cycleStart = cycleStart anchor k →
      cycle.cycleEnd = cycleStart anchor (k + 1) - cycleEndEpsilon →
      validatedTotal record = .ok (usd (hrCycle (cycleDebits own w'.ledger cycle).1)) := by
  rw [transitionClock step.2] at lasts
  obtain ⟨frozen,promised⟩ := escrow a mem record sent gone k start (step.1.trans_lt lasts)
  -- while its cycle lasts the exporter is frozen, and its debits are what the record said
  have after : Afterwards digest anchor k w label w' := ⟨anchored,fun _ => lasts,step⟩
  refine ⟨(frozenStep inv frozen anchored (fun _ => lasts) step).1,fun cycle first last => ?_⟩
  rw [frozenDebits inv frozen after (rfl : guard own = guard own) cycle first]
  exact promised cycle first last

theorem escrowStep (inv : Anchored anchor w) (escrow : Escrow own anchor w)
    (anchored : label.config.budget.billingCycleAnchor = some anchor) (same : guard label.config = guard own)
    (step : Step digest w label w') : Escrow own anchor w' := by
  intro a mem record sent gone k start lasts
  obtain ⟨config,now,event⟩ := label
  by_cases exports : ∃ destination record, event = .handoffExported destination record
  · obtain ⟨destination,answer,rfl⟩ := exports
    obtain ⟨order,transition⟩ := step
    cases transition with
    | @handoffExported _ l _ ok =>
      have whole : Step digest w ⟨config,now,.handoffExported destination answer⟩ (w.commit now l) :=
        ⟨order,.handoffExported ok⟩
      obtain ⟨j,cycle,b,found⟩ := exportOf anchored ok
      rcases found.only a mem gone with old | rfl
      · exact escrowOld inv escrow anchored whole old sent gone start lasts
      · rcases found.either with old | ⟨held,mine,starts,made,built,drained,rows⟩
        · exact escrowOld inv escrow anchored whole old sent gone start lasts
        · obtain rfl := (cycleStartStrict anchor).injective (found.own.symm.trans start)
          obtain rfl := Option.some.inj (found.sent.symm.trans sent)
          subst made
          obtain ⟨frozen,total⟩ := exportFrozen inv anchored same whole found.low found.high mine starts mem
            found.start built drained rows
          refine ⟨frozen,fun other first last => ?_⟩
          have debits : (cycleDebits own (w.commit now l).ledger other).1 =
              (cycleDebits own (w.commit now l).ledger cycle).1 := by
            simp only [cycleDebits,first,last,found.start,found.stop]
          rw [debits]
          exact total
  · obtain ⟨pieces,m,run,command⟩ := holdingPieces (transitionHoldings step.2)
    have other : ∀ destination record, event ≠ .handoffExported destination record :=
      fun destination record same => exports ⟨destination,record,same⟩
    have old := piecesBefore run (commandBefore command other mem gone) gone
    exact escrowOld inv escrow anchored step old sent gone start lasts
structure Steady (anchor : Anchor) (own config : LedgerConfig) : Prop where
  anchored : config.budget.billingCycleAnchor = some anchor
  guarded : guard config = guard own

def SteadyStep (digest : Json → String) (anchor : Anchor) (own : LedgerConfig) (w : World) (label : Label)
    (w' : World) :
    Prop :=
  Steady anchor own label.config ∧ Step digest w label w'

structure Fresh (w : World) : Prop where
  started : ∃ ledger now, w = .start ledger now
  cycles : w.ledger.cycles = []
  authority : w.ledger.authority = []
  reservations : w.ledger.reservations = []

theorem freshHolds (fresh : Fresh w) : Anchored anchor w ∧ Escrow own anchor w := by
  obtain ⟨ledger,now,rfl⟩ := fresh.started
  refine ⟨⟨soundStart fresh.reservations now,keptEmpty anchor _ fresh.cycles fresh.authority⟩,fun a mem => ?_⟩
  rw [fresh.authority] at mem
  exact absurd mem List.not_mem_nil

theorem steadyStep (both : Anchored anchor w ∧ Escrow own anchor w) (step : SteadyStep digest anchor own w label w') :
    Anchored anchor w' ∧ Escrow own anchor w' :=
  ⟨anchoredStep both.1 step.1.anchored step.2,escrowStep both.1 both.2 step.1.anchored step.1.guarded step.2⟩

structure Conserved (digest : Json → String) (own : LedgerConfig) (record : Json) (w : World) (cycle : BudgetCycle) :
    Prop where
  valid : validatedTotal record = .ok (usd (hrCycle (cycleDebits own w.ledger cycle).1))
  taken : ∀ settings now l found, boundTo record settings.ledgerId = true →
    (ensureCycle settings now l).2 = some found → found.cycleStart = cycle.cycleStart →
    (ensureCycle settings now l).1.authorityFor cycle.cycleStart = none →
    ∃ l', importHandoff digest record settings now l = .ok (l',true) ∧
      hrCycle (cycleDebits own w.ledger cycle).1 ≤ l'.carriedFor cycle.cycleStart

theorem conservedOf (inv : Anchored anchor w) {a : LedgerAuthority} (mem : a ∈ w.ledger.authority)
    (gone : a.handedOffAt ≠ none) (sent : a.handoffRecord = some record) {cycle : BudgetCycle}
    (start : cycle.cycleStart = a.cycleStart)
    (valid : validatedTotal record = .ok (usd (hrCycle (cycleDebits own w.ledger cycle).1))) :
    Conserved digest own record w cycle := by
  refine ⟨valid,fun settings now l found bound opened same free => ?_⟩
  cases inv.kept.placed a mem with
  | held holds => exact absurd holds gone
  | handed _ given stored starts source other addressed built =>
    obtain rfl := Option.some.inj (sent.symm.trans stored)
    have destination := builtDestination (built ▸ bound)
    have parsed : parseDt (lookup "cycle_start" record.fields) "cycle_start" = .ok found.cycleStart := by
      rw [built,builtStart,starts,same,start]
    have origin : recordSource settings record = .ok a.ledgerId := by
      have name : lookup "source_ledger_id" record.fields = .str a.ledgerId := by
        rw [built,← source]
        simp [buildRecord,Json.fields,lookup]
      have named : ¬(a.ledgerId = "" ∨ a.ledgerId = settings.ledgerId) := by
        rintro (empty | same)
        · exact inv.kept.named a mem empty
        · exact other (destination.trans same.symm)
      simp only [recordSource,name,if_neg named]
    obtain ⟨l',ok,carried⟩ := @importTakes digest _ _ _ _ _ _ _ (destination ▸ addressed) bound origin valid parsed
      opened (same ▸ free)
    refine ⟨l',ok,?_⟩
    rw [← same,carried,toLedgerUsd]

theorem exportConserves (both : Anchored anchor w ∧ Escrow own anchor w) (steady : Steady anchor own config)
    (step : Step digest w ⟨config,now,.handoffExported destination record⟩ w') :
    ∃ k cycle, (ensureCycle config now w.ledger).2 = some cycle ∧ cycle.cycleStart = cycleStart anchor k ∧
      cycle.cycleEnd = cycleStart anchor (k + 1) - cycleEndEpsilon ∧
      cycleStart anchor k ≤ now ∧ now < cycleStart anchor (k + 1) ∧
      parseDt (lookup "cycle_start" record.fields) "cycle_start" = .ok cycle.cycleStart ∧
      Frozen anchor k w' ∧ Conserved digest own record w' cycle := by
  obtain ⟨inv',escrow'⟩ := @steadyStep anchor digest w w' ⟨config,now,.handoffExported destination record⟩ own both
    ⟨steady,step⟩
  have clock := transitionClock step.2
  obtain ⟨order,transition⟩ := step
  cases transition with
  | handoffExported ok =>
    obtain ⟨k,cycle,a,found⟩ := exportOf steady.anchored ok
    obtain ⟨frozen,promised⟩ := escrow' a found.mem record found.sent found.gone k found.own (clock ▸ found.high)
    have valid := promised cycle found.start found.stop
    have parsed : parseDt (lookup "cycle_start" record.fields) "cycle_start" = .ok cycle.cycleStart := by
      cases inv'.kept.placed a found.mem with
      | held holds => exact absurd holds found.gone
      | handed _ given stored starts source other addressed built =>
        obtain rfl := Option.some.inj (stored.symm.trans found.sent)
        rw [built,builtStart,starts,found.own,found.start]
    exact ⟨k,cycle,found.found,found.start,found.stop,found.low,found.high,parsed,frozen,
      conservedOf inv' found.mem found.gone found.sent (found.start.trans found.own.symm) valid⟩
end

theorem appendedStays {l l' : Ledger} {a b : LedgerAuthority} (authority : l'.authority = l.authority ++ [b])
    (mem : a ∈ l.authority) : ∃ a' ∈ l'.authority, a'.cycleStart = a.cycleStart ∧
      a'.carriedConsumptionUsd = a.carriedConsumptionUsd :=
  ⟨a,authority ▸ List.mem_append_left _ mem,rfl,rfl⟩

theorem pieceStays {config : LedgerConfig} {now : Int} {l l' : Ledger} (piece : Piece config now l () l')
    {a : LedgerAuthority} (mem : a ∈ l.authority) : a ∈ l'.authority := by
  cases piece with
  | kept same => exact same.authority ▸ mem
  | opened bounds free cycles authority => exact authority ▸ mem
  | continued bounds row continues cycles authority => exact authority ▸ List.mem_append_left _ mem

theorem commandStays {digest : Json → String} {config : LedgerConfig} {now : Int} {event : Event} {l l' : Ledger}
    (command : Command digest config now event l l') {a : LedgerAuthority} (mem : a ∈ l.authority) :
    ∃ a' ∈ l'.authority, a'.cycleStart = a.cycleStart ∧ a'.carriedConsumptionUsd = a.carriedConsumptionUsd := by
  cases command with
  | kept same => exact ⟨a,same.authority ▸ mem,rfl,rfl⟩
  | claimed attestedBy claims named bounds row free cycles authority => exact appendedStays authority mem
  | imported record imports named bound bounds row parsed free validated cycles authority =>
    exact appendedStays authority mem
  | @exported row held pk destination record exports bounds cycle entry holds disabled other addressed drained built
      cycles authority =>
    have here := (authorityEntrySome entry).1
    by_cases own : a = held
    · exact ⟨_,authority ▸ List.mem_set (List.getElem?_eq_some_iff.mp here).1 _,own ▸ rfl,own ▸ rfl⟩
    · exact ⟨a,authority ▸ memSetOther here mem own,rfl,rfl⟩

section
variable {anchor : Anchor} {digest : Json → String} {w w' : World} {label : Label}

theorem carriedMono (inv' : Anchored anchor w') (step : Step digest w label w') (start : Int) :
    w.ledger.carriedFor start ≤ w'.ledger.carriedFor start := by
  obtain ⟨pieces,m,run,command⟩ := holdingPieces (transitionHoldings step.2)
  cases found : w.ledger.authorityFor start with
  | none => simp [Ledger.carriedFor,found]
  | some a =>
    obtain ⟨mem,starts⟩ := authorityForSome found
    have middle : a ∈ m.authority :=
      run.invariant (fun l => a ∈ l.authority) (fun here piece => pieceStays piece here) mem
    obtain ⟨a',there,same,carried⟩ := commandStays command middle
    have after := authorityForOf inv'.kept.single there
    rw [same,starts] at after
    simp [Ledger.carriedFor,found,after,carried]

theorem pieceNew {config : LedgerConfig} {now : Int} {l l' : Ledger} (piece : Piece config now l () l')
    {a : LedgerAuthority} (mem : a ∈ l'.authority) : a ∈ l.authority ∨ a.importedRecordDigest = none := by
  cases piece with
  | kept same => exact .inl (same.authority ▸ mem)
  | opened bounds free cycles authority => exact .inl (authority ▸ mem)
  | continued bounds row continues cycles authority =>
    rw [authority] at mem
    rcases List.mem_append.mp mem with old | new
    · exact .inl old
    · rw [List.mem_singleton.mp new]; exact .inr rfl

theorem piecesNew {config : LedgerConfig} {now : Int} {l l' : Ledger} {pieces : List Unit}
    (run : Runs (Piece config now) l pieces l') {a : LedgerAuthority} (mem : a ∈ l'.authority) :
    a ∈ l.authority ∨ a.importedRecordDigest = none := by
  induction run with
  | nil l => exact .inl mem
  | cons head tail ih =>
    rcases ih mem with middle | new
    · exact pieceNew head middle
    · exact .inr new

theorem importCarries {config : LedgerConfig} {now : Int} {record : Json} {total : ℚ} {start : Int}
    (step : Step digest w ⟨config,now,.handoffImported record⟩ w')
    (parsed : parseDt (lookup "cycle_start" record.fields) "cycle_start" = .ok start)
    (validated : validatedTotal record = .ok total) (free : w.ledger.authorityFor start = none) :
    w'.ledger.carriedFor start = toLedger total := by
  obtain ⟨order,transition⟩ := step
  cases transition with
  | handoffImported ok =>
    obtain ⟨named,bound,cycle,found,starts,imported⟩ := importSound ok
    obtain rfl := Except.ok.inj (starts.symm.trans parsed)
    obtain ⟨⟨pieces,run⟩,_,_⟩ := foundPieces found
    cases imported with
    | again here same =>
      obtain ⟨mem,own⟩ := authorityForSome here
      rcases piecesNew run mem with old | new
      · exact absurd own (authorityForNone.mp free _ old)
      · rw [new] at same; contradiction
    | accepted vacant valid origin =>
      obtain rfl := Except.ok.inj (valid.symm.trans validated)
      simp only [Ledger.authorityFor] at vacant
      simp only [World.commit,Ledger.carriedFor,Ledger.authorityFor,List.find?_append,vacant,Option.none_or]
      simp [LedgerAuthority.fresh]
end

section
variable {ι : Type u} [DecidableEq ι]

def handedOver {α : Type} (record : Option α) (chain : List ι) : List ι :=
  if record.isSome then chain else chain.tail

inductive Chain (digest : Json → String) (anchor : Anchor) (own : ι → LedgerConfig) (k : Int) :
    System ι → Option Json → List ι → Prop where
  | first {worlds s labels i} (fresh : ∀ i, Fresh (worlds i))
      (run : Runs (SystemStep digest fun i config => Steady anchor (own i) config) (.start worlds) labels s) :
      Chain digest anchor own k s none [i]
  | later {s s' label record chain} (before : Chain digest anchor own k s record chain)
      (step : SystemStep digest (fun i config => Steady anchor (own i) config) s label s')
      (within : label.1 ∈ handedOver record chain → label.2.event.takes → label.2.now < cycleStart anchor (k + 1)) :
      Chain digest anchor own k s' record chain
  | given {s s' i rest config now destination record} (before : Chain digest anchor own k s none (i::rest))
      (step : SystemStep digest (fun i config => Steady anchor (own i) config) s
        (i,⟨config,now,.handoffExported destination record⟩) s')
      (during : cycleStart anchor k ≤ now ∧ now < cycleStart anchor (k + 1)) :
      Chain digest anchor own k s' (some record) (i::rest)
  | taken {s s' i j rest config now record} (before : Chain digest anchor own k s (some record) (i::rest))
      (step : SystemStep digest (fun i config => Steady anchor (own i) config) s
        (j,⟨config,now,.handoffImported record⟩) s')
      (during : now < cycleStart anchor (k + 1))
      (vacant : (s.worlds j).ledger.authorityFor (cycleStart anchor k) = none) :
      Chain digest anchor own k s' none (j::i::rest)

def ownDebits (own : LedgerConfig) (w : World) (cycle : BudgetCycle) : Nat :=
  (cycleDebits own w.ledger cycle).1.runtimeCommittedUsd + (cycleDebits own w.ledger cycle).1.operatorCommittedUsd

def System.owed (own : ι → LedgerConfig) (s : System ι) (cycle : BudgetCycle) (chain : List ι) : Nat :=
  (chain.map fun i => ownDebits (own i) (s.worlds i) cycle).sum

structure ChainKept (anchor : Anchor) (own : ι → LedgerConfig) (k : Int) (cycle : BudgetCycle) (s : System ι)
    (record : Option Json) (i : ι) (rest : List ι) : Prop where
  each : ∀ j, Anchored anchor (s.worlds j) ∧ Escrow (own j) anchor (s.worlds j)
  frozen : ∀ j ∈ rest, Frozen anchor k (s.worlds j)
  carried : s.owed own cycle rest ≤ (s.worlds i).ledger.carriedFor (cycleStart anchor k)
  given : ∀ r, record = some r → Frozen anchor k (s.worlds i) ∧
    parseDt (lookup "cycle_start" r.fields) "cycle_start" = .ok (cycleStart anchor k) ∧
    validatedTotal r = .ok (usd (hrCycle (cycleDebits (own i) (s.worlds i).ledger cycle).1))

variable {digest : Json → String} {anchor : Anchor} {own : ι → LedgerConfig} {k : Int} {cycle : BudgetCycle}
  {s s' : System ι} {label : ι × Label} {record : Option Json} {i : ι} {rest : List ι}

theorem systemEach (each : ∀ j, Anchored anchor (s.worlds j) ∧ Escrow (own j) anchor (s.worlds j))
    (step : SystemStep digest (fun i config => Steady anchor (own i) config) s label s') :
    ∀ j, Anchored anchor (s'.worlds j) ∧ Escrow (own j) anchor (s'.worlds j) := by
  obtain ⟨i,label⟩ := label
  obtain ⟨steady,_,w,step,rfl⟩ := step
  intro j
  by_cases here : j = i
  · subst here
    simp only [Function.update_self]
    exact steadyStep (each j) ⟨steady,step⟩
  · simp only [Function.update_of_ne here]
    exact each j

theorem systemFrozen (each : ∀ j, Anchored anchor (s.worlds j) ∧ Escrow (own j) anchor (s.worlds j))
    (start : cycle.cycleStart = cycleStart anchor k)
    (step : SystemStep digest (fun i config => Steady anchor (own i) config) s label s')
    {j : ι} (within : label.1 = j → label.2.event.takes → label.2.now < cycleStart anchor (k + 1))
    (frozen : Frozen anchor k (s.worlds j)) : Frozen anchor k (s'.worlds j) ∧
      (cycleDebits (own j) (s'.worlds j).ledger cycle).1 = (cycleDebits (own j) (s.worlds j).ledger cycle).1 := by
  obtain ⟨i,label⟩ := label
  obtain ⟨steady,_,w,step,rfl⟩ := step
  by_cases here : j = i
  · subst here
    simp only [Function.update_self]
    exact ⟨(frozenStep (each j).1 frozen steady.anchored (within rfl) step).1,
      frozenDebits (each j).1 frozen ⟨steady.anchored,within rfl,step⟩ rfl cycle start⟩
  · simp only [Function.update_of_ne here]
    exact ⟨frozen,trivial⟩

theorem systemCarried (each' : ∀ j, Anchored anchor (s'.worlds j) ∧ Escrow (own j) anchor (s'.worlds j))
    (step : SystemStep digest (fun i config => Steady anchor (own i) config) s label s') (j : ι) (start : Int) :
    (s.worlds j).ledger.carriedFor start ≤ (s'.worlds j).ledger.carriedFor start := by
  obtain ⟨i,label⟩ := label
  obtain ⟨_,_,w,step,rfl⟩ := step
  have after := (each' j).1
  by_cases here : j = i
  · subst here
    simp only [Function.update_self] at after ⊢
    exact carriedMono after step start
  · simp only [Function.update_of_ne here]
    exact le_rfl

theorem owedKept (each : ∀ j, Anchored anchor (s.worlds j) ∧ Escrow (own j) anchor (s.worlds j))
    (start : cycle.cycleStart = cycleStart anchor k)
    (step : SystemStep digest (fun i config => Steady anchor (own i) config) s label s')
    {chain : List ι} (within : label.1 ∈ chain → label.2.event.takes → label.2.now < cycleStart anchor (k + 1))
    (frozen : ∀ j ∈ chain, Frozen anchor k (s.worlds j)) : s'.owed own cycle chain = s.owed own cycle chain := by
  unfold System.owed
  refine congrArg List.sum (List.map_congr_left fun j mem => ?_)
  rw [ownDebits,ownDebits,(systemFrozen each start step (fun same => within (same ▸ mem)) (frozen j mem)).2]

theorem chainLater (kept : ChainKept anchor own k cycle s record i rest)
    (start : cycle.cycleStart = cycleStart anchor k)
    (step : SystemStep digest (fun i config => Steady anchor (own i) config) s label s')
    (within : label.1 ∈ handedOver record (i::rest) → label.2.event.takes → label.2.now < cycleStart anchor (k + 1)) :
    ChainKept anchor own k cycle s' record i rest := by
  have each := systemEach kept.each step
  have passed : ∀ j ∈ rest, label.1 = j → label.2.event.takes → label.2.now < cycleStart anchor (k + 1) := by
    intro j mem same
    refine within ?_
    unfold handedOver
    split
    · exact List.mem_cons_of_mem i (same ▸ mem)
    · exact same ▸ mem
  refine ⟨each,fun j mem => (systemFrozen kept.each start step (passed j mem) (kept.frozen j mem)).1,?_,
    fun r sent => ?_⟩
  · rw [owedKept kept.each start step (fun mem => passed _ mem rfl) kept.frozen]
    exact kept.carried.trans (systemCarried each step i _)
  · obtain ⟨frozen,parsed,valid⟩ := kept.given r sent
    have mine : label.1 = i → label.2.event.takes → label.2.now < cycleStart anchor (k + 1) :=
      fun same => within (by rw [sent,same]; exact List.mem_cons_self)
    obtain ⟨still,debits⟩ := systemFrozen kept.each start step mine frozen
    exact ⟨still,parsed,debits ▸ valid⟩

omit [DecidableEq ι] in
theorem owedCarried (kept : ChainKept anchor own k cycle s record i rest)
    (start : cycle.cycleStart = cycleStart anchor k) :
    s.owed own cycle (i::rest) ≤ hrCycle (cycleDebits (own i) (s.worlds i).ledger cycle).1 := by
  have carried : (cycleDebits (own i) (s.worlds i).ledger cycle).1.carriedHandoffUsd =
      (s.worlds i).ledger.carriedFor (cycleStart anchor k) := start ▸ rfl
  have rest := kept.carried
  simp only [System.owed,List.map_cons,List.sum_cons,ownDebits,hrCycle,carried] at rest ⊢
  omega

theorem chainKept {chain : List ι} (linked : Chain digest anchor own k s record chain)
    (start : cycle.cycleStart = cycleStart anchor k)
    (stop : cycle.cycleEnd = cycleStart anchor (k + 1) - cycleEndEpsilon) :
    ∃ i rest, chain = i::rest ∧ ChainKept anchor own k cycle s record i rest := by
  induction linked with
  | @first worlds s labels i fresh run =>
    have each := run.invariant (fun s => ∀ j, Anchored anchor (s.worlds j) ∧ Escrow (own j) anchor (s.worlds j))
      (fun each step => systemEach each step) (fun j => freshHolds (fresh j))
    exact ⟨i,[],rfl,each,by simp,by simp [System.owed],by simp⟩
  | later before step within ih =>
    obtain ⟨i,rest,rfl,kept⟩ := ih
    exact ⟨i,rest,rfl,chainLater kept start step within⟩
  | @given s s' i rest config now destination record before step during ih =>
    obtain ⟨_,_,same,kept⟩ := ih
    cases same
    have after := chainLater kept start step (fun _ takes => takes.elim)
    refine ⟨i,rest,rfl,after.each,after.frozen,after.carried,fun r sent => ?_⟩
    cases sent
    obtain ⟨steady,_,w,step,rfl⟩ := step
    obtain ⟨j,found,_,first,last,low,high,parsed,frozen,conserved⟩ := exportConserves (kept.each i) steady step
    obtain rfl := boundsIndex ⟨low,high⟩ during
    have debits : (cycleDebits (own i) w.ledger cycle).1 = (cycleDebits (own i) w.ledger found).1 := by
      simp only [cycleDebits,first,last,start,stop]
    simp only [Function.update_self]
    exact ⟨frozen,first ▸ parsed,debits ▸ conserved.valid⟩
  | @taken s s' i j rest config now record before step during vacant ih =>
    obtain ⟨_,_,same,kept⟩ := ih
    cases same
    have within : Event.takes (.handoffImported record) → now < cycleStart anchor (k + 1) := fun _ => during
    have after := chainLater kept start step (fun _ => within)
    obtain ⟨frozen,parsed,valid⟩ := kept.given record rfl
    have others : ∀ y ∈ i::rest, Frozen anchor k (s.worlds y) := List.forall_mem_cons.mpr ⟨frozen,kept.frozen⟩
    refine ⟨j,i::rest,rfl,after.each,fun y mem =>
      (systemFrozen kept.each start step (fun _ => within) (others y mem)).1,?_,by simp⟩
    rw [owedKept kept.each start step (fun _ => within) others]
    refine (owedCarried kept start).trans ?_
    obtain ⟨steady,_,w,step,rfl⟩ := step
    simp only [Function.update_self]
    rw [importCarries step parsed valid vacant,toLedgerUsd]

theorem handoffConserves (digest : Json → String) (anchor : Anchor) (own : ι → LedgerConfig) :
    (∀ i start labels w config now destination record w', Fresh start →
      Runs (SteadyStep digest anchor (own i)) start labels w →
      SteadyStep digest anchor (own i) w ⟨config,now,.handoffExported destination record⟩ w' →
      ∃ k cycle, (ensureCycle config now w.ledger).2 = some cycle ∧ cycle.cycleStart = cycleStart anchor k ∧
        Conserved digest (own i) record w' cycle ∧
        ∀ later w'', Runs (Afterwards digest anchor k) w' later w'' →
          ∀ settings, (cycleDebits settings w''.ledger cycle).1 = (cycleDebits settings w'.ledger cycle).1) ∧
    ∀ k s record i rest (cycle : BudgetCycle), Chain digest anchor own k s record (i::rest) →
      cycle.cycleStart = cycleStart anchor k → cycle.cycleEnd = cycleStart anchor (k + 1) - cycleEndEpsilon →
      s.owed own cycle (i::rest) ≤
        (s.worlds i).ledger.carriedFor cycle.cycleStart + ownDebits (own i) (s.worlds i) cycle := by
  refine ⟨fun i start labels w config now destination record w' fresh run step => ?_,
    fun k s record i rest cycle linked start stop => ?_⟩
  · have both := run.invariant (fun w => Anchored anchor w ∧ Escrow (own i) anchor w)
      (fun both step => steadyStep both step) (freshHolds fresh)
    have after := steadyStep both step
    obtain ⟨k,cycle,found,first,_,_,_,_,frozen,conserved⟩ := exportConserves both step.1 step.2
    exact ⟨k,cycle,found,first,conserved,fun later w'' onward settings =>
      frozenRun after.1 frozen onward settings cycle first⟩
  · obtain ⟨_,_,same,kept⟩ := chainKept linked start stop
    cases same
    have carried := kept.carried
    simp only [System.owed,List.map_cons,List.sum_cons,start] at carried ⊢
    omega
end

def chainConfig (enabled production : Bool) : LedgerConfig := { verifiedConfig with
  ledgerId := relayId production
  correctionWindowS := some 0
  budget := { verifiedSettings with enabled } }

def System.with {ι : Type u} [DecidableEq ι] (s : System ι) (label : ι × Label) (w : World) : System ι :=
  ⟨Function.update s.worlds label.1 w,label.2.event.exports ++ s.sent,s.claims + label.2.event.claimCount⟩

def chainBuild : ApifyBuild :=
  { usageTotalUsd := some (1/4), usageUsd := none, usage := none, unparseableUsage := [],
    finishedAt := some relayNow, status := "SUCCEEDED" }

def chainSettled : Int := relayNow + Calendar.days 1

def chainStart : World := .start .empty relayNow
def chainClaim : Except Fault Ledger := claimOrigin "the owner" (chainConfig true true) relayNow .empty
def chainClaimed : World := chainStart.commit relayNow (committed .empty chainClaim)
def chainReserving : Except Fault (Ledger × ReservationOutcome) :=
  reserveOperator .build (chainConfig true true) relayNow "" chainClaimed.ledger
def chainReserved : World := chainClaimed.commit relayNow (committed (.empty,⟨false,none,"",0,none⟩) chainReserving).1
def chainBinding : Except Fault Ledger :=
  (Work.bindBuild 0 "build").commit (chainConfig true true) relayNow chainReserved.ledger
def chainBound : World := chainReserved.commit relayNow (committed .empty chainBinding)
def chainReading : Except Fault Ledger :=
  (Work.recordBuildUsage 0 chainBuild).commit (chainConfig true true) chainSettled chainBound.ledger
def chainRead : World := chainBound.commit chainSettled (committed .empty chainReading)
def chainBeginning : Except Fault (Ledger × Option MonitorCall) :=
  beginMonitoringRead 0 chainSettled (chainConfig true true) chainRead.ledger
def chainBegun : World := { chainRead.commit chainSettled (committed (.empty,none) chainBeginning).1 with
  reading := if (committed (.empty,none) chainBeginning).2.isSome then 0::chainRead.reading else chainRead.reading }
def chainAnswer : Option MonitorResult := some { toApifyUsage := chainBuild.toApifyUsage }
def chainCompleting : Except Fault (Ledger × Bool) :=
  completeMonitoringRead 0 chainAnswer chainSettled (chainConfig true true) chainBegun.ledger
def chainCompleted : World := { chainBegun.commit chainSettled (committed (.empty,false) chainCompleting).1 with
  reading := without 0 chainBegun.reading }
def chainExport : Except Fault (Ledger × Json) :=
  exportHandoff routeDigest "staging" (chainConfig false true) chainSettled chainCompleted.ledger
def chainRecord : Json := (committed (.empty,.null) chainExport).2
def chainExported : World := chainCompleted.commit chainSettled (committed (.empty,.null) chainExport).1
def chainImport : Except Fault (Ledger × Bool) :=
  importHandoff routeDigest chainRecord (chainConfig false false) chainSettled .empty
def chainImported : World := chainStart.commit chainSettled (committed (.empty,false) chainImport).1

def chainOwn (production : Bool) : LedgerConfig := chainConfig false production

def ChainStep (s : System Bool) (label : Bool × Label) (s' : System Bool) : Prop :=
  SystemStep routeDigest (fun i config => Steady verifiedAnchor (chainOwn i) config) s label s'

def chainCycle : BudgetCycle :=
  openedCycle (chainConfig true true) relayNow verifiedAnchor.instant (cycleStart verifiedAnchor 1 - cycleEndEpsilon)

def chainFresh : System Bool := .start fun _ => chainStart

def chainWorked : System Bool :=
  ((((((chainFresh.with (true,⟨chainConfig true true,relayNow,.originClaimed "the owner"⟩) chainClaimed).with
    (true,⟨chainConfig true true,relayNow,.reserve (.operator .build) none ""
      (committed (.empty,⟨false,none,"",0,none⟩) chainReserving).2.admitted⟩) chainReserved).with
    (true,⟨chainConfig true true,relayNow,.work (.bindBuild 0 "build")⟩) chainBound).with
    (true,⟨chainConfig true true,chainSettled,.work (.recordBuildUsage 0 chainBuild)⟩) chainRead).with
    (true,⟨chainConfig true true,chainSettled,.monitoringBegun 0⟩) chainBegun).with
    (true,⟨chainConfig true true,chainSettled,.monitoringCompleted 0 chainAnswer⟩) chainCompleted)

def chainGiven : System Bool :=
  chainWorked.with (true,⟨chainConfig false true,chainSettled,.handoffExported "staging" chainRecord⟩) chainExported

def chainTaken : System Bool :=
  chainGiven.with (false,⟨chainConfig false false,chainSettled,.handoffImported chainRecord⟩) chainImported

theorem chainSteady (enabled production : Bool) : Steady verifiedAnchor (chainOwn production)
    (chainConfig enabled production) :=
  ⟨rfl,rfl⟩

theorem chainStep {s : System Bool} {production enabled : Bool} {now : Int} {event : Event} {w : World}
    (step : Step routeDigest (s.worlds production) ⟨chainConfig enabled production,now,event⟩ w)
    (received : ∀ record, event = .handoffImported record → record ∈ s.sent) :
    ChainStep s (production,⟨chainConfig enabled production,now,event⟩)
      (s.with (production,⟨chainConfig enabled production,now,event⟩) w) :=
  ⟨chainSteady enabled production,received,w,step,rfl⟩

theorem chainRun : ∃ labels, Runs ChainStep chainFresh labels chainWorked := by
  have claimed := @chainStep chainFresh true true relayNow (.originClaimed "the owner") chainClaimed
    ⟨le_rfl,.originClaimed (committedAs (by decide +kernel) rfl)⟩ nofun
  have reserved : Step routeDigest chainClaimed ⟨chainConfig true true,relayNow,.reserve (.operator .build) none ""
      (committed (.empty,⟨false,none,"",0,none⟩) chainReserving).2.admitted⟩ chainReserved :=
    ⟨le_rfl,.reserve (committedAs (by decide +kernel) rfl)⟩
  have bound : Step routeDigest chainReserved
      ⟨chainConfig true true,relayNow,.work (.bindBuild 0 "build")⟩ chainBound :=
    ⟨le_rfl,.work (committedAs (by decide +kernel) rfl)⟩
  have read : Step routeDigest chainBound
      ⟨chainConfig true true,chainSettled,.work (.recordBuildUsage 0 chainBuild)⟩ chainRead :=
    ⟨by decide +kernel,.work (committedAs (by decide +kernel) rfl)⟩
  have begun : Step routeDigest chainRead ⟨chainConfig true true,chainSettled,.monitoringBegun 0⟩ chainBegun :=
    ⟨le_rfl,.monitoringBegun (committedAs (by decide +kernel) rfl)⟩
  have completed : Step routeDigest chainBegun
      ⟨chainConfig true true,chainSettled,.monitoringCompleted 0 chainAnswer⟩ chainCompleted :=
    ⟨le_rfl,.monitoringCompleted (by decide +kernel)
      (committedAs (by decide +kernel) rfl)⟩
  exact ⟨_,.cons claimed <| .cons (chainStep reserved nofun) <| .cons (chainStep bound nofun) <|
    .cons (chainStep read nofun) <| .cons (chainStep begun nofun) <| .single (chainStep completed nofun)⟩

theorem chainLinked : Chain routeDigest verifiedAnchor chainOwn 0 chainTaken none [false,true] := by
  obtain ⟨labels,run⟩ := chainRun
  have fresh : ∀ i, Fresh (chainFresh.worlds i) := fun _ => ⟨⟨.empty,relayNow,rfl⟩,rfl,rfl,rfl⟩
  have exported : Step routeDigest chainCompleted
      ⟨chainConfig false true,chainSettled,.handoffExported "staging" chainRecord⟩ chainExported :=
    ⟨le_rfl,.handoffExported (committedAs (by decide +kernel) rfl)⟩
  have imported : Step routeDigest chainStart
      ⟨chainConfig false false,chainSettled,.handoffImported chainRecord⟩ chainImported :=
    ⟨by decide +kernel,.handoffImported (committedAs (by decide +kernel) rfl)⟩
  have given : ChainStep chainWorked _ chainGiven := chainStep exported nofun
  have taken : ChainStep chainGiven _ chainTaken :=
    chainStep imported fun record same => by cases same; exact List.mem_cons_self
  exact .taken (.given (.first fresh run) given (by decide +kernel)) taken (by decide +kernel) (by decide +kernel)

theorem handoffConservesChain :
    0 < chainTaken.owed chainOwn chainCycle [false,true] ∧
    chainTaken.owed chainOwn chainCycle [false,true] ≤
      (chainTaken.worlds false).ledger.carriedFor chainCycle.cycleStart +
        ownDebits (chainOwn false) (chainTaken.worlds false) chainCycle :=
  ⟨by decide +kernel,(handoffConserves routeDigest verifiedAnchor chainOwn).2 0 chainTaken none false [true] chainCycle
    chainLinked (by decide +kernel) (by decide +kernel)⟩

def chainAgain : Int := cycleStart verifiedAnchor 1

def chainReturning : Except Fault (Ledger × Json) :=
  exportHandoff routeDigest "production" (chainConfig false false) chainAgain chainImported.ledger
def chainReturn : Json := (committed (.empty,.null) chainReturning).2
def chainReturned : World := chainImported.commit chainAgain (committed (.empty,.null) chainReturning).1
def chainRetaking : Except Fault (Ledger × Bool) :=
  importHandoff routeDigest chainReturn (chainConfig false true) chainAgain chainExported.ledger
def chainRetaken : World := chainExported.commit chainAgain (committed (.empty,false) chainRetaking).1
def chainRebuilding : Except Fault (Ledger × ReservationOutcome) :=
  reserve (.operator .build) none (chainConfig true true) chainAgain "" chainRetaken.ledger
def chainRebuilt : World := chainRetaken.commit chainAgain (committed (.empty,⟨false,none,"",0,none⟩) chainRebuilding).1

def chainGivenBack : System Bool :=
  chainTaken.with (false,⟨chainConfig false false,chainAgain,.handoffExported "production" chainReturn⟩) chainReturned

def chainTakenBack : System Bool :=
  chainGivenBack.with (true,⟨chainConfig false true,chainAgain,.handoffImported chainReturn⟩) chainRetaken

def chainReopened : System Bool :=
  chainTakenBack.with (true,⟨chainConfig true true,chainAgain,.reserve (.operator .build) none ""
    (committed (.empty,⟨false,none,"",0,none⟩) chainRebuilding).2.admitted⟩) chainRebuilt

section
variable {ι : Type u} [DecidableEq ι] {s : System ι} {i j : ι} {label : Label} {w : World}

theorem System.withOwn : (s.with (i,label) w).worlds i = w := Function.update_self ..

theorem System.withOther (other : j ≠ i) : (s.with (i,label) w).worlds j = s.worlds j := Function.update_of_ne other ..
end

theorem importedStep {digest : Json → String} {record : Json} {config : LedgerConfig} {now : Int} {w : World}
    (order : w.clock ≤ now) (ok : succeeds (importHandoff digest record config now w.ledger) = true) :
    Step digest w ⟨config,now,.handoffImported record⟩
      (w.commit now (committed (.empty,false) (importHandoff digest record config now w.ledger)).1) :=
  ⟨order,.handoffImported (committedOk ok)⟩

theorem reservedStep {digest : Json → String} {request : AdmissionRequest} {site : Option Nat} {reason : String}
    {config : LedgerConfig} {now : Int} {w : World} {fallback : Ledger × ReservationOutcome}
    {x : Except Fault (Ledger × ReservationOutcome)} (order : w.clock ≤ now) (ok : succeeds x = true)
    (same : reserve request site config now reason w.ledger = x) :
    Step digest w ⟨config,now,.reserve request site reason (committed fallback x).2.admitted⟩
      (w.commit now (committed fallback x).1) :=
  ⟨order,.reserve (committedAs ok same)⟩

theorem chainReturns : ∃ labels, Runs ChainStep chainTaken labels chainReopened := by
  have returned : Step routeDigest chainImported
      ⟨chainConfig false false,chainAgain,.handoffExported "production" chainReturn⟩ chainReturned :=
    ⟨by decide +kernel,.handoffExported (committedAs (by decide +kernel) rfl)⟩
  have given : ChainStep chainTaken _ chainGivenBack := chainStep returned nofun
  have here : chainGivenBack.worlds true = chainExported := by
    rw [chainGivenBack,System.withOther (by decide),chainTaken,System.withOther (by decide),chainGiven,System.withOwn]
  have there : chainTakenBack.worlds true = chainRetaken := System.withOwn
  have retaken : Step routeDigest (chainGivenBack.worlds true)
      ⟨chainConfig false true,chainAgain,.handoffImported chainReturn⟩ chainRetaken := by
    rw [here]
    exact importedStep (by decide +kernel) (by decide +kernel)
  have sent : chainReturn ∈ chainGivenBack.sent := List.mem_cons_self
  have rebuilt : Step routeDigest (chainTakenBack.worlds true)
      ⟨chainConfig true true,chainAgain,.reserve (.operator .build) none ""
        (committed (.empty,⟨false,none,"",0,none⟩) chainRebuilding).2.admitted⟩ chainRebuilt := by
    rw [there]
    exact reservedStep (by decide +kernel) (by decide +kernel) rfl
  have taken : ChainStep chainGivenBack _ chainTakenBack := chainStep retaken fun record same => by
    cases same
    exact sent
  exact ⟨_,.cons given <| .cons taken <| .single (chainStep rebuilt nofun)⟩

theorem handoffReopened :
    Chain routeDigest verifiedAnchor chainOwn 0 chainTaken none [false,true] ∧
    (∃ labels, Runs ChainStep chainTaken labels chainReopened) ∧
    ownDebits (chainOwn true) (chainTaken.worlds true) chainCycle = 4231 ∧
    ownDebits (chainOwn true) (chainReopened.worlds true) chainCycle = 8462 ∧
    (chainReopened.worlds false).ledger.carriedFor chainCycle.cycleStart +
      ownDebits (chainOwn false) (chainReopened.worlds false) chainCycle = 4231 :=
  ⟨chainLinked,chainReturns,by decide +kernel,by decide +kernel,by decide +kernel⟩

end HwRadar.Apify
