import HwRadar.Retention.Redaction
import HwRadar.Retention.Refreshed

/-! A sweep that runs alone. Every statement of it brings it nearer to its end: a batch that is
selected is deleted, which leaves fewer rows to select. At the end every expired row is
gone, or kept without content. -/
namespace HwRadar.Retention
open HwRadar.Base HwRadar.Ingest

def Alone (s : System) (chosen : List Pk) (t : System) : Prop :=
  ∃ table, s.sweep.remaining.head? = some table ∧ s.sweepTable table s.sweep.remaining.tail chosen = some t

def Unprotected (now : Int) (db : Database) : Prop :=
  ∀ r ∈ db.records, r.table = .productModel → expired now r.retention = true → r.pk ∉ db.protectedModels

structure Retired (now : Int) (db : Database) : Prop where
  listings : ∀ l ∈ db.market.listings, expired now l.retention = true → isContentRedacted l = true
  offers : ∀ o ∈ db.market.snapshots, expired now o.retention = false
  records : ∀ r ∈ db.records, expired now r.retention = false

def Blanked (now : Int) (db : Database) : Prop :=
  ∀ l ∈ db.market.listings, expired now l.retention = true → db.exempt l = true → isContentRedacted l = true

structure Cleared (now : Int) (db : Database) (table : Table) : Prop where
  deleted : db.deletable now table = []
  blanked : table = .listing → Blanked now db

theorem sublistKept {α β : Type} {keep p p' : α → Bool} {f f' : α → β} {xs : List α}
    (same : ∀ a, keep a = true → p' a = p a ∧ f' a = f a) :
    (((xs.filter keep).filter p').map f').Sublist ((xs.filter p).map f) := by
  have rows : ((xs.filter keep).filter p').map f' = ((xs.filter keep).filter p).map f := by
    have filtered : (xs.filter keep).filter p' = (xs.filter keep).filter p :=
      List.filter_congr fun a mem => (same a (List.mem_filter.mp mem).2).1
    rw [filtered]
    exact List.map_congr_left fun a mem => (same a (List.mem_filter.mp (List.mem_filter.mp mem).1).2).2
  rw [rows]
  exact (List.filter_sublist.filter p).map f

theorem mapKept {α β : Type} {f : α → α} {p p' : α → Bool} {g g' : α → β} {xs : List α}
    (same : ∀ a, p' (f a) = p a ∧ g' (f a) = g a) : ((xs.map f).filter p').map g' = (xs.filter p).map g := by
  have filtered : xs.filter (p' ∘ f) = xs.filter p := List.filter_congr fun a _ => (same a).1
  rw [List.filter_map,List.map_map,filtered]
  exact List.map_congr_left fun a _ => (same a).2

section
variable {now : Int} {db : Database} {table other : Table} {pks : List Pk}

def gone (db : Database) (pks : List Pk) (key : String) : Bool :=
  (pks.filterMap listingPk).contains (key,db.incarnation key)

theorem goneIff {key : String} : gone db pks key = true ↔ Pk.listing key (db.incarnation key) ∈ pks := by
  rw [gone,List.contains_iff_mem,List.mem_filterMap]
  constructor
  · rintro ⟨pk,mem,is⟩
    cases pk with
    | listing key' incarnation =>
      cases Option.some.inj is
      exact mem
    | offer _ _ => contradiction
    | record _ => contradiction
  · exact fun mem => ⟨_,mem,rfl⟩

theorem keptKey {key : String} (stays : gone db pks key = false) :
    (db.deleteRows .listing pks).edges key = db.edges key ∧
    (db.deleteRows .listing pks).incarnation key = db.incarnation key := by
  constructor
  · show (if gone db pks key then 0 else db.edges key) = db.edges key
    rw [stays]
    rfl
  · show (if gone db pks key then db.incarnation key + 1 else db.incarnation key) = db.incarnation key
    rw [stays]
    rfl

theorem deletedSublist : ((db.deleteRows table pks).deletable now other).Sublist (db.deletable now other) := by
  have kept : ∀ {xs : List Record} {keep p : Record → Bool},
      (((xs.filter keep).filter p).map fun r => Pk.record r.pk).Sublist ((xs.filter p).map fun r => .record r.pk) :=
    sublistKept fun _ _ => ⟨rfl,rfl⟩
  have offers : ∀ {xs : List OfferSnapshot} {keep p : OfferSnapshot → Bool},
      (((xs.filter keep).filter p).map fun o => Pk.offer o.listing o.observedAt).Sublist
        ((xs.filter p).map fun o => .offer o.listing o.observedAt) := sublistKept fun _ _ => ⟨rfl,rfl⟩
  have listings : ((db.deleteRows .listing pks).deletable now .listing).Sublist (db.deletable now .listing) := by
    refine sublistKept fun l keep => ?_
    obtain ⟨edges,incarnation⟩ := @keptKey db pks l.sourceListingKey (by simpa [gone] using keep)
    simp only [Store.exempt,edges,incarnation,and_self]
  cases table with
  | listing =>
    cases other with
    | listing => exact listings
    | offerSnapshot => exact offers
    | _ => exact kept
  | offerSnapshot =>
    cases other with
    | offerSnapshot => exact offers
    | _ => exact List.Sublist.refl _
  | _ =>
    cases other with
    | listing => exact List.Sublist.refl _
    | offerSnapshot => exact List.Sublist.refl _
    | _ => exact kept

theorem deletedOut {pk : Pk} (mem : pk ∈ pks) : pk ∉ (db.deleteRows table pks).deletable now table := by
  intro left
  cases table with
  | listing =>
    obtain ⟨l,held,rfl⟩ := List.mem_map.mp left
    have stays : gone db pks l.sourceListingKey = false := by
      simpa [gone] using (List.mem_filter.mp (List.mem_filter.mp held).1).2
    rw [(keptKey stays).2] at mem
    exact absurd (goneIff.mpr mem) (by simp [stays])
  | offerSnapshot =>
    obtain ⟨o,held,rfl⟩ := List.mem_map.mp left
    have out := (List.mem_filter.mp (List.mem_filter.mp held).1).2
    simp [mem] at out
  | _ =>
    obtain ⟨r,held,rfl⟩ := List.mem_map.mp left
    have own := (List.mem_filter.mp held).2
    have out := (List.mem_filter.mp (List.mem_filter.mp held).1).2
    simp only [Bool.and_eq_true,decide_eq_true_eq] at own
    simp [own.1,mem] at out

theorem deletedFewer {pk : Pk} (mem : pk ∈ pks) (held : pk ∈ db.deletable now table) :
    ((db.deleteRows table pks).deletable now table).length < (db.deletable now table).length := by
  have sub := @deletedSublist now db table table pks
  refine lt_of_le_of_ne sub.length_le fun same => ?_
  rw [← sub.eq_of_length same] at held
  exact deletedOut mem held

theorem deletedBlanked (blanked : Blanked now db) : Blanked now (db.deleteRows table pks) := by
  cases table with
  | listing =>
    intro l mem old exempt
    obtain ⟨held,keep⟩ := List.mem_filter.mp mem
    refine blanked l held old ?_
    rwa [Store.exempt,(keptKey (by simpa [gone] using keep)).1] at exempt
  | _ => exact blanked

theorem deletedUnprotected (unprotected : Unprotected now db) : Unprotected now (db.deleteRows table pks) := by
  cases table with
  | offerSnapshot => exact unprotected
  | _ => exact fun r mem => unprotected r (List.mem_filter.mp mem).1

theorem deletedCleared (cleared : Cleared now db other) : Cleared now (db.deleteRows table pks) other := by
  refine ⟨?_,fun listing => deletedBlanked (cleared.blanked listing)⟩
  exact List.sublist_nil.mp (cleared.deleted ▸ deletedSublist)

def Database.redactExpired (now : Int) (db : Database) : Database := { db with toStore := db.toStore.redactExpired now }

theorem redactedDeletable : (db.redactExpired now).deletable now table = db.deletable now table := by
  cases table with
  | listing =>
    refine mapKept fun l => ?_
    split <;> exact ⟨rfl,rfl⟩
  | _ => rfl

theorem deletablePks {pk : Pk} (mem : pk ∈ db.deletable now table) : pk ∈ db.pks table := by
  cases table with
  | listing => exact (List.filter_sublist.map _).subset mem
  | offerSnapshot => exact (List.filter_sublist.map _).subset mem
  | _ =>
    obtain ⟨r,held,rfl⟩ := List.mem_map.mp mem
    obtain ⟨held,own⟩ := List.mem_filter.mp held
    exact List.mem_map.mpr ⟨r,List.mem_filter.mpr ⟨held,(Bool.and_eq_true_iff.mp own).1⟩,rfl⟩

theorem deletableFree {pk : Pk} (mem : pk ∈ db.deletable now table) : db.edgesOf pk = 0 := by
  cases table with
  | listing =>
    obtain ⟨l,held,rfl⟩ := List.mem_map.mp mem
    have free := (Bool.and_eq_true_iff.mp (List.mem_filter.mp held).2).2
    simp only [Store.exempt,Bool.not_eq_true',Bool.or_eq_false_iff,decide_eq_false_iff_not,not_lt,Nat.le_zero] at free
    simp [Database.edgesOf,free.2]
  | offerSnapshot =>
    obtain ⟨o,_,rfl⟩ := List.mem_map.mp mem
    rfl
  | _ =>
    obtain ⟨r,_,rfl⟩ := List.mem_map.mp mem
    rfl

theorem deletableUnprotected {pk : Pk} (unprotected : Unprotected now db) (mem : pk ∈ db.deletable now table) :
    db.protects table pk = false := by
  have free := deletableFree mem
  cases table with
  | productModel =>
    obtain ⟨r,held,rfl⟩ := List.mem_map.mp mem
    obtain ⟨held,own⟩ := List.mem_filter.mp held
    obtain ⟨own,old⟩ := Bool.and_eq_true_iff.mp own
    simpa [Database.protects] using unprotected r held (of_decide_eq_true own) old
  | _ => simp [Database.protects,free]

theorem redactedBlanked : Blanked now (db.redactExpired now) := by
  intro l mem old exempt
  obtain ⟨before,held,rfl⟩ := List.mem_map.mp mem
  cases kept : db.keptExpired now before with
  | true => exact decide_eq_true rfl
  | false =>
    rw [kept] at old exempt
    have exempt : db.toStore.exempt before = true := exempt
    simpa [Store.keptExpired,show expired now before.retention = true from old,exempt] using kept

end

section
variable {s t : System} {table : Table}

def System.Blanked (s : System) (table : Table) : Prop := table = .listing → Retention.Blanked s.sweep.now s.db

def Ready (s : System) (table : Table) : Phase → Prop
  | .redact => True
  | .select => s.Blanked table
  | .collect pks => s.Blanked table ∧ pks ≠ [] ∧ ∀ pk ∈ pks, pk ∈ s.deletable table
  | .cascade pks collected => s.Blanked table ∧ pks ≠ [] ∧ (∀ pk ∈ pks, pk ∈ s.deletable table) ∧
      collected = (s.deletable table).filter pks.contains
  | .delete pks collected => s.Blanked table ∧ pks ≠ [] ∧ (∀ pk ∈ pks, pk ∈ s.deletable table) ∧
      collected = ((s.deletable table).filter pks.contains).map fun pk => (pk,s.db.edgesOf pk)
  | .check _ deleted => s.Blanked table ∧ deleted = true
  | .failed => False

structure Going (s : System) : Prop where
  cleared : ∃ done, retentionGovernedModels = done ++ s.sweep.remaining ∧ ∀ table ∈ done, Cleared s.sweep.now s.db table
  unprotected : Unprotected s.sweep.now s.db
  ready : ∀ table rest, s.sweep.remaining = table::rest → Ready s table s.sweep.phase
  idle : s.sweep.remaining = [] → s.sweep.phase = .redact

def Phase.distance (rows : Nat) : Phase → Nat
  | .redact => 5 * rows + 2
  | .select => 5 * rows + 1
  | .collect _ => 5 * rows
  | .cascade _ _ => 5 * rows - 1
  | .delete _ _ => 5 * rows - 2
  | .check _ _ => 5 * rows + 2
  | .failed => 0

def System.pending (s : System) (tables : List Table) : Nat :=
  (tables.map fun table => 5 * (s.deletable table).length + 2).sum

def System.distance (s : System) : Nat :=
  match s.sweep.remaining with
  | [] => 0
  | table::rest => s.pending rest + s.sweep.phase.distance (s.deletable table).length

theorem pendingLess (tables : List Table) (fewer : ∀ table, (t.deletable table).length ≤ (s.deletable table).length) :
    t.pending tables ≤ s.pending tables := by
  induction tables with
  | nil => exact le_rfl
  | cons table rest ih =>
    have here := fewer table
    simp only [System.pending,List.map_cons,List.sum_cons] at ih ⊢
    omega

theorem goingOn {rest : List Table} {phase : Phase} (going : Going s) (is : s.sweep.remaining = table::rest)
    (ready : Ready s table phase) : Going (s.at phase) where
  cleared := going.cleared
  unprotected := going.unprotected
  ready table' rest' is' := by
    obtain ⟨rfl,rfl⟩ := List.cons.inj (is.symm.trans is')
    cases phase <;> exact ready
  idle none := absurd (is.symm.trans none) (List.cons_ne_nil _ _)

theorem distanceOn {rest : List Table} {phase : Phase} (is : s.sweep.remaining = table::rest)
    (nearer : phase.distance (s.deletable table).length < s.sweep.phase.distance (s.deletable table).length) :
    (s.at phase).distance < s.distance := by
  simp only [System.distance,System.at,is]
  exact Nat.add_lt_add_left nearer _

theorem rowsLeft {pks : List Pk} (some_ : pks ≠ []) (held : ∀ pk ∈ pks, pk ∈ s.deletable table) :
    ∃ pk, pk ∈ (s.deletable table).filter pks.contains ∧ 0 < (s.deletable table).length := by
  obtain ⟨pk,mem⟩ := List.exists_mem_of_ne_nil pks some_
  exact ⟨pk,List.mem_filter.mpr ⟨held pk mem,List.contains_iff_mem.mpr mem⟩,List.length_pos_of_mem (held pk mem)⟩

theorem goingDelete {rest : List Table} {pks : List Pk} (going : Going s) (is : s.sweep.remaining = table::rest)
    (phase : s.sweep.phase = .delete pks (((s.deletable table).filter pks.contains).map fun pk => (pk,s.db.edgesOf pk)))
    (blanked : s.Blanked table) (some_ : pks ≠ []) (held : ∀ pk ∈ pks, pk ∈ s.deletable table) {deleted : Bool}
    (took : deleted = true) :
    Going ({ s with db := s.db.deleteRows table ((s.deletable table).filter pks.contains) }.at (.check pks deleted)) ∧
    ({ s with db := s.db.deleteRows table ((s.deletable table).filter pks.contains) }.at
      (.check pks deleted)).distance <
      s.distance := by
  obtain ⟨pk,mem,positive⟩ := rowsLeft some_ held
  obtain ⟨done,all,cleared⟩ := going.cleared
  constructor
  · refine ⟨⟨done,all,fun other past => deletedCleared (cleared other past)⟩,deletedUnprotected going.unprotected,?_,
      fun none => absurd (is.symm.trans none) (List.cons_ne_nil _ _)⟩
    intro table' rest' is'
    obtain ⟨rfl,rfl⟩ := List.cons.inj (is.symm.trans is')
    exact ⟨fun listing => deletedBlanked (blanked listing),took⟩
  · have fewer := @deletedFewer s.sweep.now s.db table _ pk mem (List.mem_filter.mp mem).1
    have rest_ : ({ s with db := s.db.deleteRows table ((s.deletable table).filter pks.contains) }.at
        (.check pks deleted)).pending rest ≤ s.pending rest := pendingLess rest fun other => deletedSublist.length_le
    simp only [System.distance,is,phase,System.at,System.deletable,Phase.distance] at rest_ fewer positive ⊢
    omega

theorem goingRedact {rest : List Table} (going : Going s) (is : s.sweep.remaining = table::rest)
    (phase : s.sweep.phase = .redact) :
    Going ({ s with db := if table = Table.listing then s.db.redactExpired s.sweep.now else s.db }.at .select) ∧
    ({ s with db := if table = Table.listing then s.db.redactExpired s.sweep.now else s.db }.at .select).distance <
      s.distance := by
  by_cases listing : table = .listing
  · rw [if_pos listing]
    obtain ⟨done,all,cleared⟩ := going.cleared
    refine ⟨⟨⟨done,all,fun other past =>
      ⟨redactedDeletable.trans (cleared other past).deleted,fun _ => redactedBlanked⟩⟩,
      going.unprotected,fun table' rest' is' => fun _ => redactedBlanked,
      fun none => absurd (is.symm.trans none) (List.cons_ne_nil _ _)⟩,?_⟩
    simp only [System.distance,System.at,is,phase,System.pending,System.deletable,redactedDeletable,Phase.distance]
    omega
  · rw [if_neg listing]
    exact ⟨goingOn going is fun own => absurd own listing,distanceOn is (by simp [phase,Phase.distance])⟩

theorem goingNext {rest : List Table} (going : Going s) (is : s.sweep.remaining = table::rest)
    (phase : s.sweep.phase = .select) (blanked : s.Blanked table) (empty : s.deletable table = []) :
    Going ({ s with sweep := { s.sweep with remaining := rest } }.at .redact) ∧
    ({ s with sweep := { s.sweep with remaining := rest } }.at .redact).distance < s.distance := by
  obtain ⟨done,all,cleared⟩ := going.cleared
  constructor
  · refine ⟨⟨done ++ [table],by rw [all,is]; simp [System.at],fun other past => ?_⟩,going.unprotected,
      fun _ _ _ => trivial,fun _ => rfl⟩
    rcases List.mem_append.mp past with before | own
    · exact cleared other before
    · cases List.mem_singleton.mp own
      exact ⟨empty,blanked⟩
  · have short : ({ s with sweep := { s.sweep with remaining := rest } }.at .redact).distance = s.pending rest := by
      cases rest with
      | nil => rfl
      | cons next rest => simp [System.distance,System.at,System.pending,System.deletable,Phase.distance,Nat.add_comm]
    rw [short]
    simp [System.distance,is,phase,Phase.distance]

theorem goingStep {chosen : List Pk} (going : Going s) (step : Alone s chosen t) : Going t ∧
    t.distance < s.distance := by
  obtain ⟨table,head,done⟩ := step
  obtain ⟨rest,is⟩ := List.head?_eq_some_iff.mp head
  have ready := going.ready table rest is
  rw [is,List.tail_cons] at done
  simp only [System.sweepTable] at done
  cases phase : s.sweep.phase with
  | redact =>
    rw [phase] at done
    cases Option.some.inj done
    exact goingRedact going is phase
  | select =>
    rw [phase] at done ready
    dsimp only at done
    split at done
    · cases done
    rename_i offered
    have valid : s.batch table chosen = true := by simpa using offered
    simp only [System.batch,Bool.and_eq_true,List.all_eq_true,Bool.or_eq_true] at valid
    split at done <;> cases Option.some.inj done
    · rename_i none
      have empty : s.deletable table = [] := by simpa [none] using valid.2
      exact goingNext going is phase ready empty
    · rename_i some_
      have held : ∀ pk ∈ chosen, pk ∈ s.deletable table := fun pk mem => List.contains_iff_mem.mp (valid.1.1 pk mem)
      have some_ : chosen ≠ [] := by simpa using some_
      obtain ⟨_,_,positive⟩ := rowsLeft some_ held
      exact ⟨goingOn going is ⟨ready,some_,held⟩,distanceOn is (by simp [phase,Phase.distance])⟩
  | collect pks =>
    rw [phase] at done ready
    cases Option.some.inj done
    obtain ⟨blanked,some_,held⟩ := ready
    obtain ⟨_,_,positive⟩ := rowsLeft some_ held
    exact ⟨goingOn going is ⟨blanked,some_,held,rfl⟩,distanceOn is (by simp [phase,Phase.distance]; omega)⟩
  | cascade pks collected =>
    rw [phase] at done ready
    obtain ⟨blanked,some_,held,rfl⟩ := ready
    obtain ⟨_,_,positive⟩ := rowsLeft some_ held
    have free : ((s.deletable table).filter pks.contains).any (s.db.protects table) = false := by
      rw [List.any_eq_false]
      intro pk mem
      rw [deletableUnprotected going.unprotected (List.mem_filter.mp mem).1]
      exact Bool.false_ne_true
    simp only [free,Bool.false_eq_true,if_false] at done
    cases Option.some.inj done
    exact ⟨goingOn going is ⟨blanked,some_,held,rfl⟩,distanceOn is (by simp [phase,Phase.distance]; omega)⟩
  | delete pks collected =>
    rw [phase] at done ready
    obtain ⟨blanked,some_,held,rfl⟩ := ready
    obtain ⟨pk,mem,_⟩ := rowsLeft some_ held
    have counted : ((((s.deletable table).filter pks.contains).map fun pk => (pk,s.db.edgesOf pk)).any fun counted =>
        s.db.edgesOf counted.1 ≠ counted.2) = false := by simp
    simp only [counted,Bool.false_eq_true,if_false] at done
    cases Option.some.inj done
    have firsts : (((s.deletable table).filter pks.contains).map fun pk => (pk,s.db.edgesOf pk)).map Prod.fst =
        (s.deletable table).filter pks.contains := by simp [Function.comp_def]
    rw [firsts]
    refine goingDelete going is phase blanked some_ held ?_
    exact List.any_eq_true.mpr ⟨(pk,s.db.edgesOf pk),List.mem_map.mpr ⟨pk,mem,rfl⟩,
      List.contains_iff_mem.mpr (deletablePks (List.mem_filter.mp mem).1)⟩
  | check pks deleted =>
    rw [phase] at done ready
    obtain ⟨blanked,rfl⟩ := ready
    simp only [Bool.not_true,Bool.false_and,Bool.false_eq_true,if_false] at done
    cases Option.some.inj done
    exact ⟨goingOn going is blanked,distanceOn is (by simp [phase,Phase.distance])⟩
  | failed =>
    rw [phase] at ready
    exact False.elim ready

theorem goingRun {batches : List (List Pk)} (going : Going s) (run : Runs Alone s batches t) :
    Going t ∧ batches.length + t.distance ≤ s.distance := by
  induction run with
  | nil s => exact ⟨going,by simp⟩
  | cons head tail ih =>
    obtain ⟨next,nearer⟩ := goingStep going head
    obtain ⟨last,within⟩ := ih next
    exact ⟨last,by rw [List.length_cons]; omega⟩

theorem goingMoves (going : Going s) (more : s.sweep.remaining ≠ []) : ∃ chosen t, Alone s chosen t := by
  obtain ⟨table,rest,is⟩ := List.exists_cons_of_ne_nil more
  have ready := going.ready table rest is
  have moves : ∀ {chosen}, (s.sweepTable table rest chosen).isSome = true → ∃ chosen t, Alone s chosen t := by
    intro chosen some_
    obtain ⟨t,done⟩ := Option.isSome_iff_exists.mp some_
    exact ⟨chosen,t,table,by rw [is,List.head?_cons],by rw [is,List.tail_cons]; exact done⟩
  cases phase : s.sweep.phase with
  | failed =>
    rw [phase] at ready
    exact False.elim ready
  | select =>
    have valid : s.batch table ((s.deletable table).take s.sweep.batchSize) = true := by
      have sized := s.sweep.sized
      simp only [System.batch,Bool.and_eq_true,List.all_eq_true,decide_eq_true_eq,Bool.or_eq_true,Bool.not_eq_true']
      refine ⟨⟨fun pk mem => List.contains_iff_mem.mpr (List.mem_of_mem_take mem),List.length_take_le _ _⟩,?_⟩
      cases s.deletable table with
      | nil => exact .inr rfl
      | cons pk rest => exact .inl (by obtain ⟨n,same⟩ := Nat.exists_eq_add_of_le' sized; simp [same])
    refine @moves ((s.deletable table).take s.sweep.batchSize) ?_
    simp only [System.sweepTable,phase,valid,Bool.not_true,Bool.false_eq_true,if_false]
    split <;> rfl
  | _ =>
    refine @moves [] ?_
    simp only [System.sweepTable,phase]
    first | rfl | (split <;> rfl)

theorem everyTable (table : Table) : table ∈ retentionGovernedModels := by cases table <;> decide

theorem retiredAtEnd (going : Going s) (none : s.sweep.remaining = []) : Retired s.sweep.now s.db := by
  obtain ⟨done,all,cleared⟩ := going.cleared
  rw [none,List.append_nil] at all
  have every := fun table => cleared table (all ▸ everyTable table)
  have empty : ∀ {α β : Type} {f : α → β} {p : α → Bool} {xs : List α}, (xs.filter p).map f = [] →
      ∀ a ∈ xs, p a = false := by
    intro α β f p xs is a mem
    have out := List.filter_eq_nil_iff.mp (List.map_eq_nil_iff.mp is) a mem
    simpa using out
  refine ⟨fun l mem old => ?_,empty (every .offerSnapshot).deleted,fun r mem => ?_⟩
  · have kept := empty (every .listing).deleted l mem
    exact (every .listing).blanked rfl l mem old (by simpa [old] using kept)
  · have out := (every r.table).deleted
    obtain ⟨market,offers⟩ := r.elsewhere
    have own : (s.db.records.filter fun row => decide (row.table = r.table) && expired s.sweep.now row.retention).map
        (fun row => Pk.record row.pk) = [] := by
      cases is : r.table <;> simp only [is,ne_eq,not_true_eq_false] at market offers out <;> exact out
    simpa using empty own r mem

end

theorem sweepRetires {canonicalizeListingText : String → String → String} {start : System}
    (unique : UniqueKeys start.db.market) (begins : start.sweep.phase = .redact)
    (all : start.sweep.remaining = retentionGovernedModels) :
    (∀ events s, Runs (fun s e t => Swept canonicalizeListingText s e t ∧ Calm canonicalizeListingText s e)
      start events s → Runs (fun s e t => Swept canonicalizeListingText s e t ∧ Safe s e t) start events s) ∧
    (Unprotected start.sweep.now start.db → ∀ batches s, Runs Alone start batches s →
      batches.length ≤ start.distance ∧ s.sweep.phase ≠ .failed ∧
      (s.sweep.remaining ≠ [] → ∃ chosen t, Alone s chosen t) ∧
      (s.sweep.remaining = [] → Retired s.sweep.now s.db)) := by
  refine ⟨fun events s => safeRun ⟨unique,by rw [begins]; trivial⟩,fun unprotected batches s run => ?_⟩
  have going : Going start :=
    ⟨⟨[],by rw [all]; rfl,nofun⟩,unprotected,fun _ _ _ => by rw [begins]; trivial,fun _ => begins⟩
  obtain ⟨last,within⟩ := goingRun going run
  refine ⟨by omega,fun failed => ?_,goingMoves last,retiredAtEnd last⟩
  cases is : s.sweep.remaining with
  | nil => exact absurd ((last.idle is).symm.trans failed) (by simp)
  | cons table rest =>
    have ready := last.ready table rest is
    rw [failed] at ready
    exact ready

def dayLong (expiresAt : Int) : ObservationRetention := ⟨.amazonEphemeral,some expiresAt,rfl⟩
def expiredListing : Listing := .created (driveRecord none "Exos") (dayLong 100) 1 1

def sweepStart : System where
  db := ⟨⟨⟨[expiredListing],[],none,[]⟩,fun _ => 0,fun _ => 0,[]⟩,[],[]⟩
  sweep := ⟨200,5000,retentionGovernedModels,.redact,by decide⟩

def selecting : List Event := (List.replicate 11 (Event.sweep [])) ++ [.sweep [.listing "7" 0],.sweep [],.sweep []]
def renewal : Event := .other (.ingest (.persist (dayLong 500) 150 [(driveRecord none "Exos",150)]))

def renewed : System :=
  ((selecting ++ [renewal]).foldlM (fun (s : System) e => s.step titleOnly e) sweepStart).get (by decide +kernel)
def renewedAfter : System := (renewed.step titleOnly (.sweep [])).get (by decide +kernel)

theorem renewedDeleted : ¬ ∀ events s, Runs (Swept titleOnly) sweepStart events s →
    ∀ e t, Swept titleOnly s e t → Safe s e t := by
  intro keeps
  have safe := keeps _ renewed (Runs.ofSteps (Option.some_get _).symm) (.sweep []) renewedAfter (Option.some_get _).symm
  have held : (renewed.db.market.listing "7").isSome = true := by decide +kernel
  obtain ⟨l,is⟩ := Option.isSome_iff_exists.mp held
  have old := (safe l (List.mem_of_find?_eq_some is)).1 (by
    have none : renewedAfter.db.market.listings = [] := by decide +kernel
    simp [none])
  have fresh : (renewed.db.market.listing "7").any (fun l => expired renewed.sweep.now l.retention) = false := by
    decide +kernel
  rw [is] at fresh
  simp [old] at fresh

def aloneBatches : List (List Pk) :=
  List.replicate 11 [] ++ [[.listing "7" 0]] ++ List.replicate 21 []

def elsewhere : Event :=
  .other (.ingest (.persist (dayLong 500) 150 [({ driveRecord none "Exos" with sourceListingKey := "8" },150)]))

def atDelete : System :=
  (selecting.foldlM (fun (s : System) e => s.step titleOnly e) sweepStart).get (by decide +kernel)
def observedBeside : System := (atDelete.step titleOnly elsewhere).get (by decide +kernel)
def deletedBeside : System := (observedBeside.step titleOnly (.sweep [])).get (by decide +kernel)

theorem elsewhereCalm : Calm titleOnly atDelete elsewhere := by
  intro store stepped
  have chosen : atDelete.sweep.phase = .delete [.listing "7" 0] [(.listing "7" 0,0)] := by decide +kernel
  have old : ∀ l ∈ store.market.listings, l.sourceListingKey = "7" → expired atDelete.sweep.now l.retention = true := by
    have some_ : (atDelete.db.toStore.step titleOnly
        (.ingest (.persist (dayLong 500) 150 [({ driveRecord none "Exos" with sourceListingKey := "8" },150)]))).any
        fun store => store.market.listings.all fun l =>
          !(l.sourceListingKey == "7") || expired atDelete.sweep.now l.retention := by decide +kernel
    rw [stepped,Option.any_some,List.all_eq_true] at some_
    intro l mem own
    simpa [own] using some_ l mem
  rw [chosen]
  rintro key incarnation edges mem
  obtain ⟨own,rfl⟩ := Prod.mk.inj (List.mem_singleton.mp mem)
  cases own
  exact ⟨fun l mem own _ => old l mem own,rfl⟩

theorem besideRun : Runs (fun s e t => Swept titleOnly s e t ∧ Calm titleOnly s e) sweepStart
    (selecting ++ [elsewhere,.sweep []]) deletedBeside := by
  have selects : Runs (Swept titleOnly) sweepStart selecting atDelete := Runs.ofSteps (Option.some_get _).symm
  have sweeps : ∀ e ∈ selecting, ∃ chosen, e = Event.sweep chosen := by
    intro e mem
    cases e with
    | sweep chosen => exact ⟨chosen,rfl⟩
    | other act => simp [selecting] at mem
  refine ((selects.restrict sweeps).imp ?_).append (.cons ⟨(Option.some_get _).symm,elsewhereCalm⟩
    (.single ⟨(Option.some_get _).symm,trivial⟩))
  rintro s e t ⟨⟨chosen,rfl⟩,step⟩
  exact ⟨step,trivial⟩

theorem expiredRetired : (∃ s, Runs Alone sweepStart aloneBatches s ∧ Retired 200 s.db) ∧
    ∃ s, Runs (fun s e t => Swept titleOnly s e t ∧ Safe s e t) sweepStart (selecting ++ [elsewhere,.sweep []]) s ∧
      s.db.market.listings.map Listing.sourceListingKey = ["8"] := by
  have ran : (aloneBatches.foldlM (fun (s : System) chosen => s.sweep.remaining.head?.bind fun table =>
      s.sweepTable table s.sweep.remaining.tail chosen) sweepStart).map (fun s => (s.sweep.remaining,s.sweep.now)) =
      some ([],200) := by decide +kernel
  obtain ⟨s,ran,ends⟩ := Option.map_eq_some_iff.mp ran
  have run : Runs Alone sweepStart aloneBatches s := (Runs.ofSteps ran).imp fun {s a t} ok => by
    obtain ⟨table,head,done⟩ := Option.bind_eq_some_iff.mp ok
    exact ⟨table,head,done⟩
  have unprotected : Unprotected sweepStart.sweep.now sweepStart.db := by
    intro r mem
    simp [sweepStart] at mem
  have unique : UniqueKeys sweepStart.db.market := List.nodup_singleton _
  obtain ⟨beside,alone⟩ := @sweepRetires titleOnly sweepStart unique rfl rfl
  obtain ⟨none,same⟩ := Prod.mk.inj ends
  have retired := (alone unprotected aloneBatches s run).2.2.2 none
  rw [same] at retired
  exact ⟨⟨s,run,retired⟩,_,beside _ _ besideRun,by decide +kernel⟩

end HwRadar.Retention
