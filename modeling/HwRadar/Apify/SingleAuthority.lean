import HwRadar.Apify.Authority
import HwRadar.Base.Relay

/-! Several environments, each with its own ledger and clock. Records travel
between them by hand: one that was exported may be imported anywhere, late and
again. The authority rows are one relay over the billing cycles. -/
namespace HwRadar.Apify
open HwRadar.Base
universe u

structure System (ι : Type u) where
  worlds : ι → World
  sent : List Json
  claims : Nat

def Event.exports : Event → List Json
  | .handoffExported _ record => [record]
  | _ => []

def Event.claimCount : Event → Nat
  | .originClaimed _ => 1
  | _ => 0

section
variable {ι : Type u} [DecidableEq ι]

def SystemStep (digest : Json → String) (allowed : ι → LedgerConfig → Prop) (s : System ι) (label : ι × Label)
    (s' : System ι) : Prop :=
  allowed label.1 label.2.config ∧ (∀ record, label.2.event = .handoffImported record → record ∈ s.sent) ∧
  ∃ w, Step digest (s.worlds label.1) label.2 w ∧
    s' = ⟨Function.update s.worlds label.1 w,label.2.event.exports ++ s.sent,s.claims + label.2.event.claimCount⟩

def System.start (worlds : ι → World) : System ι := ⟨worlds,[],0⟩

structure Governs (anchor : Anchor) (id : String) (config : LedgerConfig) : Prop where
  named : config.ledgerId = id
  anchored : config.budget.billingCycleAnchor = some anchor
  guarded : ∀ k, guard config < cycleStart anchor (k + 1) - cycleStart anchor k

def Ledger.entryFor (anchor : Anchor) (l : Ledger) (k : Int) : Relay.Entry String :=
  match l.authorityFor (cycleStart anchor k) with
  | none => .none
  | some a => if a.handedOffAt = none then .holding else .gave (a.handedOffTo.getD "")

def relayOf (anchor : Anchor) (worlds : ι → World) : Relay.State ι String Int :=
  ⟨fun i => (worlds i).clock,fun i => (worlds i).ledger.entryFor anchor⟩

def relayAt (anchor : Anchor) (worlds : ι → World) (i : ι) (now : Int) (l : Ledger) : Relay.State ι String Int :=
  ⟨Function.update (fun j => (worlds j).clock) i now,
   Function.update (fun j => (worlds j).ledger.entryFor anchor) i (l.entryFor anchor)⟩

theorem relayOfUpdate (anchor : Anchor) (worlds : ι → World) (i : ι) (w : World) :
    relayOf anchor (Function.update worlds i w) = relayAt anchor worlds i w.clock w.ledger := by
  simp only [relayOf,relayAt,Relay.State.mk.injEq]
  constructor <;> funext j <;> by_cases here : j = i
  · subst here; simp
  · simp [here]
  · subst here; simp
  · simp [here]

theorem relayAtSelf (anchor : Anchor) (worlds : ι → World) (i : ι) (now : Int) :
    relayAt anchor worlds i now (worlds i).ledger = (relayOf anchor worlds).wait i now := by
  simp only [relayAt,Relay.State.wait,relayOf,Relay.State.mk.injEq,true_and]
  exact Function.update_eq_self i _

theorem relayAtWrite {anchor : Anchor} {worlds : ι → World} {i : ι} {now k : Int} {e : Relay.Entry String}
    {l l' : Ledger} (entries : l'.entryFor anchor = Function.update (l.entryFor anchor) k e) :
    relayAt anchor worlds i now l' = (relayAt anchor worlds i now l).write i now k e := by
  simp only [relayAt,Relay.State.write,Function.update_idem,Function.update_self,entries]
end

section
variable {anchor : Anchor} {clock now k : Int} {l l' : Ledger}

theorem entrySame (same : l'.authority = l.authority) : l'.entryFor anchor = l.entryFor anchor := by
  funext k
  simp only [Ledger.entryFor,Ledger.authorityFor,same]

theorem authorityForOf (single : (l.authority.map LedgerAuthority.cycleStart).Nodup) {a : LedgerAuthority}
    (mem : a ∈ l.authority) : l.authorityFor a.cycleStart = some a := by
  cases found : l.authorityFor a.cycleStart with
  | none => exact absurd rfl (authorityForNone.mp found a mem)
  | some b =>
    obtain ⟨memB,same⟩ := authorityForSome found
    rw [List.inj_on_of_nodup_map single memB mem same]

theorem entryNone : l.entryFor anchor k = .none ↔ l.authorityFor (cycleStart anchor k) = none := by
  unfold Ledger.entryFor
  cases l.authorityFor (cycleStart anchor k) with
  | none => simp
  | some a =>
    simp only [reduceCtorEq,iff_false]
    split <;> simp

theorem entryHolding (inv : Kept anchor clock l) {a : LedgerAuthority} (mem : a ∈ l.authority)
    (start : a.cycleStart = cycleStart anchor k) (holds : a.handedOffAt = none) :
    l.entryFor anchor k = .holding := by
  have found := authorityForOf inv.single mem
  rw [start] at found
  simp [Ledger.entryFor,found,holds]

theorem entryGave (inv : Kept anchor clock l) {a : LedgerAuthority} (mem : a ∈ l.authority)
    (start : a.cycleStart = cycleStart anchor k) (gone : a.handedOffAt ≠ none) {destination : String}
    (given : a.handedOffTo = some destination) : l.entryFor anchor k = .gave destination := by
  have found := authorityForOf inv.single mem
  rw [start] at found
  simp [Ledger.entryFor,found,gone,given]

theorem entryAppended {a : LedgerAuthority} (authority : l'.authority = l.authority ++ [a])
    (start : a.cycleStart = cycleStart anchor k) (free : l.authorityFor (cycleStart anchor k) = none)
    (holds : a.handedOffAt = none) : l'.entryFor anchor = Function.update (l.entryFor anchor) k .holding := by
  funext m
  by_cases here : m = k
  · subst here
    have found : l'.authorityFor (cycleStart anchor m) = some a := by
      rw [Ledger.authorityFor] at free ⊢
      rw [authority,List.find?_append,free]
      simp [start]
    simp [Ledger.entryFor,found,holds]
  · have other : a.cycleStart ≠ cycleStart anchor m := by
      rw [start]
      exact fun same => here ((cycleStartStrict anchor).injective same).symm
    have same : l'.authorityFor (cycleStart anchor m) = l.authorityFor (cycleStart anchor m) := by
      rw [Ledger.authorityFor,authority,List.find?_append]
      simp [other,Ledger.authorityFor]
    simp [Ledger.entryFor,same,here]

theorem memSetOther {a b held : LedgerAuthority} {pk : Nat} (here : l.authority[pk]? = some held)
    (mem : a ∈ l.authority) (other : a ≠ held) : a ∈ l.authority.set pk b := by
  obtain ⟨q,at_⟩ := List.getElem?_of_mem mem
  have differs : pk ≠ q := by
    rintro rfl
    exact other (Option.some.inj (at_.symm.trans here))
  exact List.mem_of_getElem? (List.getElem?_set_ne differs ▸ at_)

theorem entryHanded {digest : Json → String} {held : LedgerAuthority} {pk : Nat} {destination : String}
    {record : Json} (inv' : Kept anchor clock l') (here : l.authority[pk]? = some held)
    (start : held.cycleStart = cycleStart anchor k)
    (authority : l'.authority = l.authority.set pk (handedOff digest held destination record now)) :
    l'.entryFor anchor = Function.update (l.entryFor anchor) k (.gave destination) := by
  have bound := (List.getElem?_eq_some_iff.mp here).1
  have own : handedOff digest held destination record now ∈ l'.authority :=
    authority ▸ List.mem_set bound _
  funext m
  by_cases same : m = k
  · subst same
    rw [Function.update_self]
    exact entryGave inv' own start (by simp [handedOff]) rfl
  · rw [Function.update_of_ne same]
    have kept : l'.authorityFor (cycleStart anchor m) = l.authorityFor (cycleStart anchor m) := by
      cases found : l.authorityFor (cycleStart anchor m) with
      | none =>
        rw [authorityForNone] at found ⊢
        intro b mem
        rw [authority] at mem
        rcases List.mem_or_eq_of_mem_set mem with old | rfl
        · exact found b old
        · exact found held (List.mem_of_getElem? here)
      | some a =>
        obtain ⟨mem,starts⟩ := authorityForSome found
        have other : a ≠ held := by
          rintro rfl
          exact same ((cycleStartStrict anchor).injective (starts.symm.trans start))
        rw [← starts]
        exact authorityForOf inv'.single (authority ▸ memSetOther here mem other)
    simp only [Ledger.entryFor,kept]
end

theorem builtDestination {cycle : BudgetCycle} {held : LedgerAuthority} {destination id : String}
    {config : LedgerConfig} {now : Int} {l : Ledger}
    (bound : boundTo (buildRecord cycle held destination config now l) id = true) : destination = id := by
  simpa [boundTo,buildRecord,Json.fields,lookup] using bound

theorem builtStart (cycle : BudgetCycle) (held : LedgerAuthority) (destination : String) (config : LedgerConfig)
    (now : Int) (l : Ledger) :
    parseDt (lookup "cycle_start" (buildRecord cycle held destination config now l).fields) "cycle_start" =
      .ok cycle.cycleStart := by
  have found : lookup "cycle_start" (buildRecord cycle held destination config now l).fields =
      .str (Stamp.isoText cycle.cycleStart) := by simp [buildRecord,Json.fields,lookup,isoJson]
  rw [found]
  simp only [parseDt,Stamp.parseIsoText]

def HandedKept (l l' : Ledger) : Prop := ∀ a ∈ l.authority, a.handedOffAt ≠ none → a ∈ l'.authority

theorem pieceHanded {config : LedgerConfig} {now : Int} {l l' : Ledger} (piece : Piece config now l () l') :
    HandedKept l l' := by
  intro a mem _
  cases piece with
  | kept same => exact same.authority ▸ mem
  | opened bounds free cycles authority => exact authority ▸ mem
  | continued bounds row continues cycles authority => exact authority ▸ List.mem_append_left _ mem

theorem piecesHanded {config : LedgerConfig} {now : Int} {l l' : Ledger} {pieces : List Unit}
    (run : Runs (Piece config now) l pieces l') : HandedKept l l' := by
  intro a mem gone
  exact run.invariant (fun m => a ∈ m.authority) (fun here piece => pieceHanded piece a here gone) mem

theorem commandHanded {digest : Json → String} {config : LedgerConfig} {now : Int} {event : Event} {l l' : Ledger}
    (command : Command digest config now event l l') : HandedKept l l' := by
  intro a mem gone
  cases command with
  | kept same => exact same.authority ▸ mem
  | claimed attestedBy claims named bounds row free cycles authority => exact authority ▸ List.mem_append_left _ mem
  | imported record imports named bound bounds row parsed free validated cycles authority =>
    exact authority ▸ List.mem_append_left _ mem
  | exported destination record exports bounds row entry holds disabled other addressed drained built cycles
      authority =>
    have differs : a ≠ _ := fun same => gone (same ▸ holds)
    exact authority ▸ memSetOther (authorityEntrySome entry).1 mem differs

theorem pieceEmpty {config : LedgerConfig} {now : Int} {l l' : Ledger} (empty : l.authority = [])
    (piece : Piece config now l () l') : l'.authority = [] := by
  cases piece with
  | kept same => exact same.authority.trans empty
  | opened bounds free cycles authority => exact authority.trans empty
  | continued bounds mem continues cycles authority =>
    obtain ⟨previous,found⟩ := continuesSound continues
    have stored := found.stored
    rw [empty] at stored
    exact absurd stored List.not_mem_nil

section
variable {ι : Type u} [DecidableEq ι] {anchor : Anchor} {ids : ι → String} {worlds : ι → World} {i : ι}
  {digest : Json → String} {config : LedgerConfig} {now : Int} {event : Event} {l l' : Ledger}

theorem relayAtEntry : (relayAt anchor worlds i now l).entry i = l.entryFor anchor := by simp [relayAt]

theorem relayAtClock : (relayAt anchor worlds i now l).clock i ≤ now := by simp [relayAt]

theorem continuesNext {id : String} {start : Int} {held : LedgerAuthority} {previous : BudgetCycle} {m : Int}
    (governs : Governs anchor id config) (inv : Kept anchor now l) (found : Continues config start l held previous)
    (grid : start = cycleStart anchor m) : ∃ k, m = k + 1 ∧ previous.cycleStart = cycleStart anchor k := by
  obtain ⟨k,first,last⟩ := inv.grid previous found.mem
  have strict := cycleStartStrict anchor
  have before : k < m := strict.lt_iff_lt.mp (by rw [← first,← grid]; exact found.earlier)
  have near : m < k + 1 + 1 := by
    by_contra far
    have later := strict.monotone (not_lt.mp far)
    have short := governs.guarded (k + 1)
    have adjacent := found.adjacent
    have eps := epsilonPositive
    omega
  exact ⟨k,by omega,first⟩

theorem pieceRelays (governs : Governs anchor (ids i) config) (inv : Kept anchor now l)
    (piece : Piece config now l () l') :
    relayAt anchor worlds i now l' = relayAt anchor worlds i now l ∨
    Relay.Step ids (cycleStart anchor) (relayAt anchor worlds i now l) () (relayAt anchor worlds i now l') := by
  cases piece with
  | kept same => exact .inl (by rw [relayAt,relayAt,entrySame same.authority])
  | opened bounds free cycles authority => exact .inl (by rw [relayAt,relayAt,entrySame authority])
  | @continued _ row held bounds mem continues cycles authority =>
    obtain ⟨previous,found⟩ := continuesSound continues
    obtain ⟨m,start,_,low,_⟩ := anchoredBounds governs.anchored bounds
    obtain ⟨k,rfl,before⟩ := continuesNext governs inv found start
    have free : l.authorityFor (cycleStart anchor (k + 1)) = none := start ▸ found.free
    have entries := entryAppended (k := k + 1) authority start free rfl
    rw [relayAtWrite entries]
    refine .inr (.advance relayAtClock low ?_ ?_)
    · rw [relayAtEntry]
      exact entryHolding inv found.stored (found.same.trans before) found.holds
    · rw [relayAtEntry]
      exact entryNone.mpr free

structure Logged (anchor : Anchor) (s : Relay.State ι String Int) (record : Json) (giver : ι) (a : LedgerAuthority)
    (clock : Int) (l : Ledger) : Prop where
  kept : Kept anchor clock l
  shown : s.entry giver = l.entryFor anchor
  mem : a ∈ l.authority
  gone : a.handedOffAt ≠ none
  sent : a.handoffRecord = some record

theorem commandRelays (governs : Governs anchor (ids i) config) (inv : Kept anchor now l)
    (unclaimed : ∀ attestedBy, event = .originClaimed attestedBy → (relayAt anchor worlds i now l).Free)
    (delivered : ∀ record, event = .handoffImported record →
      ∃ giver a clock lender, Logged anchor (relayAt anchor worlds i now l) record giver a clock lender)
    (command : Command digest config now event l l') :
    relayAt anchor worlds i now l' = relayAt anchor worlds i now l ∨
    Relay.Step ids (cycleStart anchor) (relayAt anchor worlds i now l) () (relayAt anchor worlds i now l') := by
  have inv' := keptCommand inv le_rfl command
  cases command with
  | kept same => exact .inl (by rw [relayAt,relayAt,entrySame same.authority])
  | claimed attestedBy claims named bounds mem free cycles authority =>
    obtain ⟨k,start,_,low,_⟩ := anchoredBounds governs.anchored bounds
    rw [start] at free
    rw [relayAtWrite (entryAppended authority start free rfl)]
    exact .inr (.found relayAtClock low (unclaimed attestedBy claims))
  | exported destination record exports bounds mem entry holds disabled other addressed drained built cycles
      authority =>
    obtain ⟨k,start,_,_,high⟩ := anchoredBounds governs.anchored bounds
    obtain ⟨here,same⟩ := authorityEntrySome entry
    have own := same.trans start
    rw [relayAtWrite (entryHanded inv' here own authority)]
    refine .inr (.give relayAtClock high ?_)
    rw [relayAtEntry]
    exact entryHolding inv (List.mem_of_getElem? here) own holds
  | imported record imports named bound bounds mem parsed free validated cycles authority =>
    obtain ⟨k,start,_,low,_⟩ := anchoredBounds governs.anchored bounds
    rw [start] at free
    rw [relayAtWrite (entryAppended authority start free rfl)]
    obtain ⟨giver,a,clock,lender,log⟩ := delivered record imports
    have given : (relayAt anchor worlds i now l).entry giver k = .gave (ids i) := by
      rw [log.shown]
      cases log.kept.placed a log.mem with
      | held holds => exact absurd holds log.gone
      | handed gone given sent starts source other addressed built =>
        obtain rfl := Option.some.inj (sent.symm.trans log.sent)
        rw [built] at bound parsed
        rw [builtStart] at parsed
        have cycle := Except.ok.inj parsed
        have destination := builtDestination bound
        refine entryGave log.kept log.mem (starts.symm.trans (cycle.trans start)) log.gone ?_
        rw [given,destination,governs.named]
    have vacant : (relayAt anchor worlds i now l).entry i k = .none := by
      rw [relayAtEntry]
      exact entryNone.mpr free
    exact .inr (.take relayAtClock low given vacant)

theorem exportLogged {destination : String} {record : Json}
    (ok : exportHandoff digest destination config now l = .ok (l',record)) :
    ∃ a ∈ l'.authority, a.handedOffAt ≠ none ∧ a.handoffRecord = some record := by
  obtain ⟨cycle,row,pk,_,entry,exported⟩ := exportSound ok
  have here := (authorityEntrySome entry).1
  cases exported with
  | again stored gone => exact ⟨row,List.mem_of_getElem? here,gone,stored⟩
  | drained held disabled other named none =>
    exact ⟨_,List.mem_set (List.getElem?_eq_some_iff.mp here).1 _,by simp [handedOff],rfl⟩

structure Tracked (anchor : Anchor) (ids : ι → String) (start s : System ι) : Prop where
  kept : ∀ i, Kept anchor (s.worlds i).clock (s.worlds i).ledger
  logged : ∀ record ∈ s.sent, ∃ i a, a ∈ (s.worlds i).ledger.authority ∧ a.handedOffAt ≠ none ∧
    a.handoffRecord = some record
  unclaimed : s.claims = 0 → ∀ i, (s.worlds i).ledger.authority = []
  relays : ∃ trace, Runs (Relay.Step ids (cycleStart anchor)) (relayOf anchor start.worlds) trace
    (relayOf anchor s.worlds)

theorem trackedFresh (start : System ι) (fresh : ∀ i, (start.worlds i).ledger.cycles = [] ∧
    (start.worlds i).ledger.authority = []) (silent : start.sent = []) : Tracked anchor ids start start :=
  ⟨fun i => keptEmpty anchor _ (fresh i).1 (fresh i).2,by simp [silent],fun _ i => (fresh i).2,_,.nil _⟩

theorem loggedStep {s : System ι} {label : Label} {w : World} (step : Step digest (s.worlds i) label w)
    (handed : HandedKept (s.worlds i).ledger w.ledger)
    (logged : ∀ record ∈ s.sent, ∃ i a, a ∈ (s.worlds i).ledger.authority ∧ a.handedOffAt ≠ none ∧
      a.handoffRecord = some record) :
    ∀ record ∈ label.event.exports ++ s.sent, ∃ j a, a ∈ (Function.update s.worlds i w j).ledger.authority ∧
      a.handedOffAt ≠ none ∧ a.handoffRecord = some record := by
  intro record mem
  rcases List.mem_append.mp mem with new | old
  · obtain ⟨config,now,event⟩ := label
    obtain ⟨_,transition⟩ := step
    cases transition with
    | handoffExported ok =>
      obtain rfl := List.mem_singleton.mp new
      obtain ⟨a,here,found⟩ := exportLogged ok
      exact ⟨i,a,by rw [Function.update_self]; exact here,found⟩
    | _ => exact absurd new List.not_mem_nil
  · obtain ⟨j,a,here,gone,sent⟩ := logged record old
    refine ⟨j,a,?_,gone,sent⟩
    by_cases same : j = i
    · subst same
      rw [Function.update_self]
      exact handed a here gone
    · rw [Function.update_of_ne same]
      exact here

theorem trackedSystemStep {start s s' : System ι} {label : ι × Label}
    (tracked : s.claims ≤ 1 → Tracked anchor ids start s)
    (step : SystemStep digest (fun i config => Governs anchor (ids i) config) s label s') (once : s'.claims ≤ 1) :
    Tracked anchor ids start s' := by
  obtain ⟨i,label⟩ := label
  obtain ⟨governs,received,w,step,rfl⟩ := step
  simp only at governs received step once ⊢
  have tracked := tracked (by omega)
  have first : Kept anchor label.now (s.worlds i).ledger :=
    keptSame (tracked.kept i) step.1 (.refl _)
  obtain ⟨pieces,m,run,command⟩ := holdingPieces (transitionHoldings step.2)
  have middle := keptPieces (tracked.kept i) governs.anchored step.1 run
  have last := keptCommand middle le_rfl command
  have clock := transitionClock step.2
  have handed : HandedKept (s.worlds i).ledger w.ledger := fun a mem gone =>
    commandHanded command a (piecesHanded run a mem gone) gone
  have emptied : (s.worlds i).ledger.authority = [] → m.authority = [] := fun empty =>
    run.invariant (fun l => l.authority = []) (fun empty piece => pieceEmpty empty piece) empty
  refine ⟨fun j => ?_,loggedStep step handed tracked.logged,fun zero j => ?_,?_⟩
  · by_cases same : j = i
    · subst same
      simp only [Function.update_self,clock]
      exact last
    · simp only [Function.update_of_ne same]
      exact tracked.kept j
  · have empty := tracked.unclaimed (Nat.add_eq_zero_iff.mp zero).1
    by_cases same : j = i
    · subst same
      simp only [Function.update_self]
      have before := emptied (empty j)
      cases command with
      | kept kept => exact kept.authority.trans before
      | claimed attestedBy claims =>
        rw [claims] at zero
        simp [Event.claimCount] at zero
      | exported destination record exports bounds mem entry =>
        have here := (authorityEntrySome entry).1
        rw [before] at here
        simp at here
      | imported record imports =>
        obtain ⟨x,a,mem,_⟩ := tracked.logged record (received record imports)
        rw [empty x] at mem
        exact absurd mem List.not_mem_nil
    · simp only [Function.update_of_ne same]
      exact empty j
  · obtain ⟨trace,before⟩ := tracked.relays
    have waits : Relay.Step ids (cycleStart anchor) (relayOf anchor s.worlds) ()
        (relayAt anchor s.worlds i label.now (s.worlds i).ledger) := by
      rw [relayAtSelf]
      exact .wait step.1
    obtain ⟨opening,opens⟩ := Runs.abstracts
      (fun inv piece => keptPiece inv governs.anchored le_rfl piece)
      (fun inv piece => (pieceRelays governs inv piece).imp_right fun move => ⟨(),move⟩) run first
    have unclaimed : ∀ attestedBy, label.event = .originClaimed attestedBy →
        (relayAt anchor s.worlds i label.now m).Free := by
      intro attestedBy claims j k
      have one : label.event.claimCount = 1 := by rw [claims]; rfl
      have empty := tracked.unclaimed (by omega)
      by_cases same : j = i
      · subst same
        rw [relayAtEntry]
        exact entryNone.mpr (authorityForNone.mpr (by simp [emptied (empty j)]))
      · simp only [relayAt,Function.update_of_ne same]
        exact entryNone.mpr (authorityForNone.mpr (by simp [empty j]))
    have delivered : ∀ record, label.event = .handoffImported record → ∃ giver a clock lender,
        Logged anchor (relayAt anchor s.worlds i label.now m) record giver a clock lender := by
      intro record imports
      obtain ⟨x,a,mem,gone,sent⟩ := tracked.logged record (received record imports)
      by_cases same : x = i
      · subst same
        exact ⟨x,a,_,m,middle,relayAtEntry,piecesHanded run a mem gone,gone,sent⟩
      · exact ⟨x,a,_,_,tracked.kept x,by simp [relayAt,same],mem,gone,sent⟩
    have whole := (before.append (.single waits)).append opens
    rw [relayOfUpdate,clock]
    rcases commandRelays governs middle unclaimed delivered command with same | move
    · exact ⟨_,same ▸ whole⟩
    · exact ⟨_,whole.append (.single move)⟩
theorem trackedRun {start s : System ι} {labels : List (ι × Label)}
    (run : Runs (SystemStep digest fun i config => Governs anchor (ids i) config) start labels s)
    (fresh : ∀ i, (start.worlds i).ledger.cycles = [] ∧ (start.worlds i).ledger.authority = [])
    (silent : start.sent = []) (once : s.claims ≤ 1) : Tracked anchor ids start s :=
  run.invariant (fun s => s.claims ≤ 1 → Tracked anchor ids start s)
    (fun tracked step once => trackedSystemStep tracked step once) (fun _ => trackedFresh start fresh silent) once

theorem heldEntry {clock : Int} {start : Int} (inv : Kept anchor clock l) (held : authorityHeld l start = true) :
    ∃ k, start = cycleStart anchor k ∧ l.entryFor anchor k = .holding := by
  obtain ⟨a,mem,found⟩ := List.any_eq_true.mp held
  rw [Bool.and_eq_true,beq_iff_eq,Option.isNone_iff_eq_none] at found
  obtain ⟨row,stored,same⟩ := inv.recorded a mem
  obtain ⟨k,grid,_⟩ := inv.grid row stored
  have starts : a.cycleStart = cycleStart anchor k := same.symm.trans grid
  exact ⟨k,found.1.symm.trans starts,entryHolding inv mem starts found.2⟩

theorem oneAuthority (distinct : Function.Injective ids) {worlds : ι → World} {s : System ι}
    {labels : List (ι × Label)}
    (fresh : ∀ i, (worlds i).ledger.cycles = [] ∧ (worlds i).ledger.authority = [])
    (run : Runs (SystemStep digest fun i config => Governs anchor (ids i) config) (.start worlds) labels s)
    (once : s.claims ≤ 1) :
    (∀ i j start, authorityHeld (s.worlds i).ledger start = true → authorityHeld (s.worlds j).ledger start = true →
      i = j) ∧
    (∀ before after m i a,
      Runs (SystemStep digest fun i config => Governs anchor (ids i) config) (.start worlds) before m →
      Runs (SystemStep digest fun i config => Governs anchor (ids i) config) m after s →
      a ∈ (m.worlds i).ledger.authority → a.handedOffAt ≠ none →
      authorityHeld (s.worlds i).ledger a.cycleStart = false) := by
  have tracked := trackedRun run fresh rfl once
  obtain ⟨trace,relays⟩ := tracked.relays
  have free : (relayOf anchor worlds).Free := fun i k =>
    entryNone.mpr (authorityForNone.mpr (by simp [(fresh i).2]))
  -- the authority rows of all ledgers run as the relay, where one node holds a slot
  have single := Relay.singleRun distinct relays free
  refine ⟨fun i j start left right => ?_,fun before after m i a first later mem gone => ?_⟩
  · obtain ⟨k,startK,holdsI⟩ := heldEntry (tracked.kept i) left
    obtain ⟨n,startN,holdsJ⟩ := heldEntry (tracked.kept j) right
    obtain rfl := (cycleStartStrict anchor).injective (startK.symm.trans startN)
    exact single.holder i j k holdsI holdsJ
  · -- the row stays in the table, and rows of one ledger have distinct cycles
    have kept : a ∈ (s.worlds i).ledger.authority := by
      refine later.invariant (fun s => a ∈ (s.worlds i).ledger.authority) ?_ mem
      rintro t ⟨j,label⟩ u here ⟨_,_,w,step,rfl⟩
      by_cases same : i = j
      · subst same
        simp only [Function.update_self]
        obtain ⟨_,_,pieces,command⟩ := holdingPieces (transitionHoldings step.2)
        exact commandHanded command a (piecesHanded pieces a here gone) gone
      · simp only [Function.update_of_ne same]
        exact here
    by_contra held
    obtain ⟨b,stored,found⟩ := List.any_eq_true.mp (by rw [Bool.not_eq_false] at held; exact held)
    rw [Bool.and_eq_true,beq_iff_eq,Option.isNone_iff_eq_none] at found
    have equal : b = a := List.inj_on_of_nodup_map (tracked.kept i).single stored kept found.1
    exact gone (equal ▸ found.2)
end

def relayId (production : Bool) : String := if production then "production" else "staging"

def relayConfig (production : Bool) : LedgerConfig := { verifiedConfig with
  ledgerId := relayId production
  budget := { verifiedSettings with enabled := false } }

def relayNow : Int := Calendar.midnight 2026 9 26

theorem relayGoverns (production : Bool) : Governs verifiedAnchor (relayId production) (relayConfig production) := by
  refine ⟨rfl,rfl,fun k => ?_⟩
  have month := (cycleStartStep verifiedAnchor k).1
  have short : guard (relayConfig production) < Calendar.days 28 := by cases production <;> decide
  omega

def routeDigest (record : Json) : String :=
  match lookup "source_ledger_id" record.fields,lookup "destination_ledger_id" record.fields with
  | .str source,.str destination => source ++ ">" ++ destination
  | _,_ => ""

def relayFresh : System Bool := .start fun _ => .start .empty relayNow

def relayClaim : Except Fault Ledger := claimOrigin "the owner" (relayConfig true) relayNow .empty

def relayClaimed : System Bool :=
  ⟨Function.update relayFresh.worlds true ((relayFresh.worlds true).commit relayNow (committed .empty relayClaim)),
   [],1⟩

def relayExport : Except Fault (Ledger × Json) :=
  exportHandoff routeDigest "staging" (relayConfig true) relayNow (relayClaimed.worlds true).ledger

def relayRecord : Json := (committed (.empty,.null) relayExport).2

def relayExported : System Bool :=
  ⟨Function.update relayClaimed.worlds true
    ((relayClaimed.worlds true).commit relayNow (committed (.empty,.null) relayExport).1),[relayRecord],1⟩

def relayImport : Except Fault (Ledger × Bool) :=
  importHandoff routeDigest relayRecord (relayConfig false) relayNow (relayExported.worlds false).ledger

def relayImported : System Bool :=
  ⟨Function.update relayExported.worlds false
    ((relayExported.worlds false).commit relayNow (committed (.empty,false) relayImport).1),[relayRecord],1⟩

def RelayStep (s : System Bool) (label : Bool × Label) (s' : System Bool) : Prop :=
  SystemStep routeDigest (fun i config => Governs verifiedAnchor (relayId i) config) s label s'

theorem relayRun : ∃ labels, Runs RelayStep relayFresh labels relayImported := by
  have claimed : RelayStep relayFresh (true,⟨relayConfig true,relayNow,.originClaimed "the owner"⟩) relayClaimed :=
    ⟨relayGoverns true,nofun,_,⟨le_rfl,.originClaimed (@committedOk _ .empty relayClaim (by decide +kernel))⟩,rfl⟩
  have exported : RelayStep relayClaimed
      (true,⟨relayConfig true,relayNow,.handoffExported "staging" relayRecord⟩) relayExported :=
    ⟨relayGoverns true,nofun,_,⟨le_rfl,.handoffExported
      (@committedOk _ (.empty,.null) relayExport (by decide +kernel))⟩,rfl⟩
  have imported : RelayStep relayExported
      (false,⟨relayConfig false,relayNow,.handoffImported relayRecord⟩) relayImported :=
    ⟨relayGoverns false,fun record same => by cases same; exact List.mem_singleton.mpr rfl,_,
      ⟨le_rfl,.handoffImported (@committedOk _ (.empty,false) relayImport (by decide +kernel))⟩,rfl⟩
  exact ⟨_,.cons claimed (.cons exported (.single imported))⟩

theorem oneAuthorityRelayed :
    authorityHeld (relayImported.worlds false).ledger verifiedAnchor.instant = true ∧
    ∀ i, authorityHeld (relayImported.worlds i).ledger verifiedAnchor.instant = true → i = false := by
  obtain ⟨labels,run⟩ := relayRun
  have held : authorityHeld (relayImported.worlds false).ledger verifiedAnchor.instant = true := by decide +kernel
  have distinct : Function.Injective relayId := by decide
  exact ⟨held,fun i here => (oneAuthority distinct (fun _ => ⟨rfl,rfl⟩) run le_rfl).1 i false _ here held⟩

end HwRadar.Apify
