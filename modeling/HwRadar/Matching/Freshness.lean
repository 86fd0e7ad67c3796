import HwRadar.Matching.Agreement

/-! Decisions against the inputs they were made from. A call reads its inputs before it
takes the row lock, so its verdict can be older than the one it meets there; what then
stands depends on the skip conditions of `apply`, which compare outcomes and targets and
not the inputs. -/
namespace HwRadar.Matching
open HwRadar.Base HwRadar.Base.Chain
variable {ρ : Type} {M : Matcher ρ}

def Versions.OlderThan (v w : Versions) : Prop := v.row < w.row ∨ v.snapshot < w.snapshot

instance (v w : Versions) : Decidable (v.OlderThan w) := inferInstanceAs (Decidable (_ ∨ _))

structure Watched where
  system : System
  decided : Nat → Option Versions

def Watched.committed (w : Watched) (c : Call) : Nat → Option Versions :=
  if c.seen = w.system.versions c.listing then Function.update w.decided c.listing (some c.seen) else w.decided

def watch (M : Matcher ρ) (a : Event ρ) (w : Watched) : Option Watched :=
  (step M a w.system).map fun system => ⟨system,
    match a with
    | .commit k _ => (w.system.calls[k]?).elim w.decided w.committed
    | _ => w.decided⟩

abbrev Watches (M : Matcher ρ) (w : Watched) (a : Event ρ) (w' : Watched) : Prop := watch M a w = some w'

def Watched.late (w : Watched) (k : Nat) : Option (Call × Reading) := do
  let c ← w.system.calls[k]?
  let r ← c.reading
  let v ← w.decided c.listing
  if c.seen.OlderThan v then some (c,r) else none

def skips (M : Matcher ρ) (listing : Nat) (r : Reading) (db : Db) : Bool :=
  unchanged (db.currentEdge listing) r.verdict ||
    (materialize M r.extracted r.verdict db.catalog).any fun m => sameTarget (db.currentEdge listing) r.verdict m

def LateSkips (M : Matcher ρ) (w : Watched) : Event ρ → Prop
  | .commit k _ => ∀ late ∈ w.late k, skips M late.1.listing late.2 w.system.db = true
  | _ => True

instance (w : Watched) (a : Event ρ) : Decidable (LateSkips M w a) :=
  match a with
  | .commit k _ => inferInstanceAs (Decidable (∀ late ∈ w.late k, _))
  | .call _ _ | .decide _ _ | .crash _ _ | .fail _ _ | .persist _ _ _ _ => isTrue trivial

def LateKeeps (w : Watched) (a : Event ρ) (w' : Watched) : Prop :=
  match a with
  | .commit k _ => ∀ late ∈ w.late k,
      w'.system.db.currentPk late.1.listing = w.system.db.currentPk late.1.listing ∧
        w'.system.db.resolution late.1.listing = w.system.db.resolution late.1.listing
  | _ => True

theorem lateCall {w : Watched} {k : Nat} {late : Call × Reading} (is : w.late k = some late) :
    w.system.calls[k]? = some late.1 ∧ late.1.reading = some late.2 := by
  simp only [Watched.late,Option.bind_eq_bind,Option.bind_eq_some_iff] at is
  obtain ⟨c,here,r,reads,v,known,is⟩ := is
  split at is <;> try contradiction
  cases Option.some.inj is
  exact ⟨here,reads⟩

theorem skipsIff {listing : Nat} {r : Reading} {db : Db} : skips M listing r db = true ↔
    (unchanged (db.currentEdge listing) r.verdict = true ∨
      ∃ m, materialize M r.extracted r.verdict db.catalog = some m ∧
        sameTarget (db.currentEdge listing) r.verdict m = true) := by
  rw [skips,Bool.or_eq_true,Option.any_eq_true]

theorem watched {w w' : Watched} {a : Event ρ} (ok : Watches M w a w') : Steps M w.system a w'.system := by
  obtain ⟨system,stepped,rfl⟩ := Option.map_eq_some_iff.mp ok
  exact stepped

section
variable {listing : Nat} {r : Reading} {now : Int} {db db' : Db}

theorem skippedKeeps (done : apply M listing r now db = some db') (skip : skips M listing r db = true) :
    db'.currentPk listing = db.currentPk listing ∧ db'.resolution listing = db.resolution listing := by
  cases applied done with
  | stamped catalog found result =>
    subst result
    refine ⟨?_,stampedResolution { db with catalog } listing listing r.canonical now⟩
    rw [Db.currentPk,stampedEdges]
    cases Db.currentPk { db with catalog } listing with
    | none => rfl
    | some pk => exact findModify (f := stampedAt now) fun _ => rfl
  | written locked m catalog inserted here changed made different linked result =>
    rcases skipsIff.mp skip with same | ⟨other,made',same⟩
    · rw [same] at changed
      cases changed
    · rw [made] at made'
      cases Option.some.inj made'
      rw [same] at different
      cases different

theorem writtenReplaces (agrees : Agrees db listing) (done : apply M listing r now db = some db')
    (kept : db'.currentPk listing = db.currentPk listing) : skips M listing r db = true := by
  have linkedAfter := (appliedAgrees (applied done) agrees).chained
  cases applied done with
  | stamped catalog found result => exact skipsIff.mpr found
  | written locked m catalog inserted here changed made different linked result =>
    exfalso
    have edges := supersededEdges linked
    have last : (newEdge M listing now r m locked.resolution,db.edges.length) ∈ db'.ledger listing := by
      refine memRowsOf.mpr ⟨?_,by simp [newEdge]⟩
      rw [result,edges]
      have length : db.edges.length = ((db.currentPk listing).elim db.edges fun pk =>
          db.edges.modify pk (retiredBy db.edges.length)).length := by
        cases db.currentPk listing <;> simp
      exact (congrArg _ length).trans List.getElem?_concat_length
    have current : db'.currentPk listing = some db.edges.length :=
      (liveFound linkedAfter).trans (congrArg (Option.map Prod.snd) (liveLast linkedAfter last rfl))
    rw [kept] at current
    exact Nat.lt_irrefl _ (List.findIdx?_eq_some_iff_getElem.mp current).1

end

theorem lateIff {w w' : Watched} {a : Event ρ} (held : Held w.system) (ok : Watches M w a w') :
    LateSkips M w a ↔ LateKeeps w a w' := by
  cases a with
  | commit k now =>
    refine forall_congr' fun late => forall_congr' fun is => ?_
    obtain ⟨here,ready⟩ := lateCall is
    have done := stepped (watched ok)
    generalize w'.system = after at done
    cases done with
    | commit here' ready' done =>
      rw [here] at here'
      cases Option.some.inj here'
      rw [ready] at ready'
      cases Option.some.inj ready'
      exact ⟨skippedKeeps done,fun kept => writtenReplaces (held.agrees _) done kept.1⟩
  | call listing reconsider => exact Iff.rfl
  | decide k reads => exact Iff.rfl
  | crash k error => exact Iff.rfl
  | fail k error => exact Iff.rfl
  | persist listing title conditionLabel attrs => exact Iff.rfl

theorem newerDecisionStands {start w : Watched} {labels : List (Event ρ)} (fresh : Fresh start.system) :
    Runs (fun w a w' => Watches M w a w' ∧ LateSkips M w a) start labels w ↔
      Runs (fun w a w' => Watches M w a w' ∧ LateKeeps w a w') start labels w :=
  Runs.congr (fun w => Held w.system) (fun held ok => heldStep held (watched ok)) lateIff (heldFresh fresh)

def unwatched : Watched := ⟨unresolvedSystem,fun _ => none⟩

def overtakenCalls (hint : String) : List (Event Unit) :=
  [.call 0 false,.decide 0 (),.persist 0 "psu 800W" "" (some (hinted hint)),.call 0 false,.decide 1 (),.commit 1 1]

theorem overtakenKeeps : ∃ w, Runs (fun w a w' => Watches bareMatcher w a w' ∧ LateKeeps w a w') unwatched
    (overtakenCalls "psu" ++ [.commit 0 2]) w := by
  have ran : ((overtakenCalls "psu" ++ [Event.commit 0 2]).foldlM (fun w a =>
      if LateSkips bareMatcher w a then watch bareMatcher a w else none) unwatched).isSome = true := by
    decide +kernel
  obtain ⟨w,ran⟩ := Option.isSome_iff_exists.mp ran
  refine ⟨w,(newerDecisionStands unresolvedFresh).mp ((Runs.ofSteps ran).imp fun {s a t} ok => ?_)⟩
  split at ok
  · exact ⟨ok,by assumption⟩
  · cases ok

def overtaken : Watched :=
  ((overtakenCalls "cooling").foldlM (fun w a => watch bareMatcher a w) unwatched).get (by decide +kernel)

def overtakenAfter : Watched := (watch bareMatcher (.commit 0 2) overtaken).get (by decide +kernel)

theorem overtakenReplaces : ¬ ∀ (labels : List (Event Unit)) (w : Watched),
    Runs (Watches bareMatcher) unwatched labels w → ∀ a w', Watches bareMatcher w a w' → LateKeeps w a w' := by
  intro keeps
  have run : Runs (Watches bareMatcher) unwatched (overtakenCalls "cooling") overtaken :=
    Runs.ofSteps (Option.some_get _).symm
  have late : overtaken.late 0 = some ((overtaken.late 0).get (by decide +kernel)) := (Option.some_get _).symm
  have kept := keeps _ _ run (.commit 0 2) overtakenAfter (Option.some_get _).symm _ late
  exact absurd kept.1 (by decide +kernel)

end HwRadar.Matching
