import HwRadar.Base.Run
import HwRadar.Eligibility.RequirementVersions

/-! Saves of one watch running beside each other. A save waits for the row lock, reads
the row under it, compares, writes the row and the satellite, and commits; until then
what it wrote is its own. Every committed change is one whole save of the rows before
it, so along any run a version stands for one meaning. -/
namespace HwRadar.Eligibility
open HwRadar.Base (Runs)
open HwRadar.Base.Decimal

inductive Stage where
  | locked (read_ : WatchRow)
  | decided (read_ : WatchRow) (d : Decision)
  | saved (row : WatchRow)
  | written (after : StoredWatch)
  deriving DecidableEq, Repr

structure Saves where
  stored : StoredWatch
  waiting : List RequirementSpec
  holder : Option (RequirementSpec × Stage)

inductive SaveEvent where
  | call (spec : RequirementSpec)
  | lock (k : Nat)
  | compare_ (t : TargetTables)
  | saveWatch (now : Int)
  | saveSatellite (now : Int)
  | commit
  | abort

def Saves.release (w : Saves) : Saves := { w with holder := none }

def Saves.hold (w : Saves) (spec : RequirementSpec) (stage : Stage) : Saves := { w with holder := some (spec,stage) }

section
variable (repr_ : String → String)

def saveStep (event : SaveEvent) (w : Saves) : Option Saves :=
  match event,w.holder with
  | .call spec,_ => some { w with waiting := w.waiting ++ [spec] }
  | .lock k,none =>
    w.waiting[k]?.map fun spec =>
      { w with waiting := w.waiting.eraseIdx k, holder := some (spec,.locked w.stored.watch) }
  | .compare_ t,some (spec,.locked read_) =>
    match examine repr_ t spec { w.stored with watch := read_ } with
    | .error _ => some w.release
    | .ok d => some (if d.changes then w.hold spec (.decided read_ d) else w.release)
  | .saveWatch now,some (spec,.decided read_ d) =>
    match writeWatch spec d now read_ with
    | .error _ => some w.release
    | .ok row => some (w.hold spec (.saved row))
  | .saveSatellite now,some (spec,.saved row) =>
    match writeSatellite spec now { w.stored with watch := row } with
    | .error _ => some w.release
    | .ok after => some (w.hold spec (.written after))
  | .commit,some (_,.written after) => some { w with stored := after, holder := none }
  | .abort,some _ => some w.release
  | _,_ => none

end

section
variable {repr_ : String → String}

def Consistent (repr_ : String → String) (w : Saves) : Prop :=
  match w.holder with
  | none => True
  | some (_,.locked read_) => read_ = w.stored.watch
  | some (spec,.decided read_ d) =>
    read_ = w.stored.watch ∧ d.changes = true ∧ ∃ t, examine repr_ t spec w.stored = .ok d
  | some (spec,.saved row) =>
    ∃ t d now, examine repr_ t spec w.stored = .ok d ∧ d.changes = true ∧ writeWatch spec d now w.stored.watch = .ok row
  | some (spec,.written after) => Committed repr_ spec w.stored after

theorem saveStepKeeps {event : SaveEvent} {w w' : Saves} (sound : Consistent repr_ w)
    (step : saveStep repr_ event w = some w') : Consistent repr_ w' ∧
      (w'.stored = w.stored ∨ ∃ spec, Committed repr_ spec w.stored w'.stored) := by
  obtain ⟨stored,waiting,holder⟩ := w
  have released : Consistent repr_ (Saves.release ⟨stored,waiting,holder⟩) := trivial
  unfold saveStep at step
  split at step
  · cases step
    exact ⟨sound,.inl rfl⟩
  · obtain ⟨spec,_,rfl⟩ := Option.map_eq_some_iff.mp step
    exact ⟨rfl,.inl rfl⟩
  · rename_i t spec read_ held
    cases held
    have same : read_ = stored.watch := sound
    subst same
    split at step
    · cases step
      exact ⟨released,.inl rfl⟩
    · rename_i d compared
      cases Option.some.inj step
      by_cases changes : d.changes = true
      · rw [if_pos changes]
        exact ⟨⟨rfl,changes,t,compared⟩,.inl rfl⟩
      · rw [if_neg changes]
        exact ⟨released,.inl rfl⟩
  · rename_i now spec read_ d held
    cases held
    obtain ⟨same,changes,t,compared⟩ := sound
    have same : read_ = stored.watch := same
    subst same
    split at step
    · cases step
      exact ⟨released,.inl rfl⟩
    · rename_i row wrote
      cases step
      exact ⟨⟨t,d,now,compared,changes,wrote⟩,.inl rfl⟩
  · rename_i now spec row held
    cases held
    obtain ⟨t,d,nowWatch,compared,changes,wrote⟩ := sound
    split at step
    · cases step
      exact ⟨released,.inl rfl⟩
    · rename_i after put
      cases step
      exact ⟨⟨t,d,nowWatch,now,row,compared,changes,wrote,put⟩,.inl rfl⟩
  · rename_i spec after held
    cases held
    cases step
    exact ⟨trivial,.inr ⟨spec,sound⟩⟩
  · cases step
    exact ⟨released,.inl rfl⟩
  · cases step

def Versioned (s s' : StoredWatch) : Prop :=
  s.watch.requirementVersion ≤ s'.watch.requirementVersion ∧
    (s.watch.requirementVersion = s'.watch.requirementVersion →
      s.hard.mapArrays comparable = s'.hard.mapArrays comparable)

theorem Versioned.refl (s : StoredWatch) : Versioned s s := ⟨Nat.le_refl _,fun _ => rfl⟩

theorem Versioned.trans {s t u : StoredWatch} (first : Versioned s t) (second : Versioned t u) : Versioned s u := by
  refine ⟨first.1.trans second.1,fun same => ?_⟩
  have left := first.1
  have right := second.1
  exact (first.2 (by omega)).trans (second.2 (by omega))

theorem Committed.versioned {spec : RequirementSpec} {s after : StoredWatch} (done : Committed repr_ spec s after) :
    Versioned s after := by
  obtain ⟨hard,_,version⟩ := done.stores
  by_cases changed : spec.meant ≠ s.hard.mapArrays comparable
  · rw [if_pos changed] at version
    exact ⟨by omega,fun same => by omega⟩
  · rw [if_neg changed] at version
    refine ⟨by omega,fun _ => ?_⟩
    rw [hard,meantComparable,not_not.mp changed]

theorem runVersioned {w w' : Saves} {events : List SaveEvent} (sound : Consistent repr_ w)
    (run : Runs (fun w event w' => saveStep repr_ event w = some w') w events w') :
    Consistent repr_ w' ∧ Versioned w.stored w'.stored := by
  refine run.related (Consistent repr_) (fun w w' => Versioned w.stored w'.stored) (fun w => .refl w.stored)
    (fun first second => first.trans second) (fun sound step => ?_) sound
  obtain ⟨sound,same | ⟨spec,done⟩⟩ := saveStepKeeps sound step
  · exact ⟨sound,by rw [same]; exact .refl _⟩
  · exact ⟨sound,done.versioned⟩

theorem heldDistinct {spec : RequirementSpec} {s : StoredWatch} (held : Holds spec s) :
    ∀ values ∈ s.hard.arrays, values.Nodup := by
  intro values mem
  have sorted : comparable values ∈ (s.hard.mapArrays comparable).arrays := HardInputs.mapArraysMem mem
  rw [held.hard] at sorted
  exact (comparablePerm.mp (ascendingSorted (meantAscending spec _ sorted))).nodup_iff.mp (meantDistinct spec _ sorted)

variable (F : TextFolding) (t : TargetTables) (pk : Nat) (spec : RequirementSpec) (nowWatch nowSatellite : Int)
  (db : Watches)

theorem savedVersion {r : SaveResult} {db' : Watches}
    (done : saveRequirement repr_ t pk spec nowWatch nowSatellite db = (.ok r,db')) :
    ∃ s after, db pk = some s ∧ db' pk = some after ∧ (∀ other, other ≠ pk → db' other = db other) ∧
      Holds spec after ∧ (r.changed = true → after.hard = spec.meant) ∧
      r.requirementVersion = after.watch.requirementVersion ∧
      after.watch.requirementVersion =
        s.watch.requirementVersion + (if s.hard.mapArrays comparable ≠ spec.meant then 1 else 0) ∧
      (Holds spec s → db' = db) := by
  obtain ⟨s,stored,⟨held,rfl,rfl⟩ | ⟨fresh,after,committed,rfl,rfl⟩⟩ := saved done
  · exact ⟨s,s,stored,stored,fun _ _ => rfl,held,nofun,rfl,by simp [held.hard],fun _ => rfl⟩
  · obtain ⟨hard,_,version⟩ := committed.stores
    refine ⟨s,after,stored,Function.update_self _ _ _,fun other apart => Function.update_of_ne apart _ _,
      committed.holds,fun _ => hard,rfl,?_,fun held => absurd held fresh⟩
    rw [version]
    simp only [ne_comm]

theorem requirementSaves :
    (∀ e db', saveRequirement repr_ t pk spec nowWatch nowSatellite db = (.error e,db') → db' = db) ∧
    (∀ r db', saveRequirement repr_ t pk spec nowWatch nowSatellite db = (.ok r,db') →
      ∃ s after, db pk = some s ∧ db' pk = some after ∧ (∀ other, other ≠ pk → db' other = db other) ∧
        Holds spec after ∧ (∀ values ∈ after.hard.arrays, values.Nodup) ∧ (r.changed = true → after.hard = spec.meant) ∧
        r.requirementVersion = after.watch.requirementVersion ∧
        after.watch.requirementVersion =
          s.watch.requirementVersion + (if s.hard.mapArrays comparable ≠ spec.meant then 1 else 0) ∧
        ((∀ values ∈ s.hard.arrays, values.Nodup) →
          (s.hard.mapArrays comparable ≠ spec.meant ↔ s.hard.meaning ≠ spec.meant.meaning)) ∧
        (Holds spec s → db' = db)) ∧
    (∀ raw raw' : RequirementInput, raw.meaning = raw'.meaning → validate F raw = validate F raw') ∧
    (∀ w u v : Saves, ∀ events events', w.holder = none →
      Runs (fun w event w' => saveStep repr_ event w = some w') w events u →
      Runs (fun w event w' => saveStep repr_ event w = some w') u events' v →
      u.stored.watch.requirementVersion = v.stored.watch.requirementVersion →
      u.stored.hard.mapArrays comparable = v.stored.hard.mapArrays comparable) := by
  refine ⟨fun e db' failed => atomicError failed,fun r db' done => ?_,fun raw raw' same => ?_,?_⟩
  · obtain ⟨s,after,before,now,others,held,exact_,result,version,again⟩ :=
      savedVersion t pk spec nowWatch nowSatellite db done
    refine ⟨s,after,before,now,others,held,heldDistinct held,exact_,result,version,fun distinct => ?_,again⟩
    -- sorted arrays without repetition differ exactly where their sets do
    have sets := HardInputs.comparableSets distinct (meantDistinct spec)
    rw [meantComparable] at sets
    exact sets.not
  · rw [← validateMeaning F raw,same,validateMeaning]
  · intro w u v events events' idle first second same
    have start : Consistent repr_ w := by rw [Consistent,idle]; trivial
    have middle := (runVersioned start first).1
    exact (runVersioned middle second).2.2 same

end

def repeatedRow : WatchRow :=
  ⟨⟨"drive",true,none,none,1,none,["new","new"],false,true⟩,none,0⟩

def newOnly : RequirementSpec :=
  ⟨"drive",none,none,none,uniqueSorted ["new"],false,true,none,
    some ⟨.drive ⟨none,[],[],[],[]⟩,by simp [Requirement.arrays,Requirement.columns,Ascending]⟩,rfl,rfl⟩

def repeatedEntry : StoredWatch := ⟨repeatedRow,some ⟨⟨none,[],[],[],[]⟩,0⟩,none,none,none⟩

def noTargets : TargetTables := ⟨fun _ => none,fun _ => none⟩

theorem repeatedEntryBumps : repeatedEntry.hard.meaning = newOnly.meant.meaning ∧
    (saveRequirement id noTargets 0 newOnly 5 5 fun _ => some repeatedEntry).1.toOption =
      some ⟨repeatedEntry.watch.requirementVersion + 1,true,true⟩ := by
  decide +kernel

end HwRadar.Eligibility
