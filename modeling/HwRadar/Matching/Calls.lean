import HwRadar.Matching.Resolve
import HwRadar.Base.Run

/-! Concurrent calls of `resolve_listing`, and the persist steps between them. A call
reads the row, later its newest snapshot and what its rules query, and applies its
verdict in one transaction; where that raises, a bare error verdict in a second one.
The version counters are history: how often a listing's row text and its newest
snapshot changed, and what a call has read of them. -/
namespace HwRadar.Matching
open HwRadar.Base

structure Versions where
  row : Nat
  snapshot : Nat
  deriving DecidableEq, Repr

inductive Phase where
  | started (row : ListingRow)
  | applying (reading : Reading)
  | fallingBack (reading : Reading)
  | committed
  | propagated
  deriving DecidableEq, Repr

structure Call where
  listing : Nat
  reconsider : Bool
  phase : Phase
  seen : Versions
  deriving DecidableEq, Repr

def Call.reading (c : Call) : Option Reading :=
  match c.phase with
  | .applying reading => some reading
  | .fallingBack reading => some reading
  | _ => none

def Call.decided (c : Call) (v : Versions) : Call := { c with seen := { c.seen with snapshot := v.snapshot } }

structure System where
  db : Db
  calls : List Call
  versions : Nat → Versions

inductive Event (ρ : Type) where
  | call (listing : Nat) (reconsider : Bool)
  | decide (call : Nat) (reads : ρ)
  | crash (call : Nat) (error : String)
  | commit (call : Nat) (now : Int)
  | fail (call : Nat) (error : String)
  | persist (listing : Nat) (title conditionLabel : String) (attrs : Option Attrs)

variable {ρ : Type} (M : Matcher ρ)

def System.move (s : System) (k : Nat) (c : Call) (phase : Phase) : System :=
  { s with calls := s.calls.set k { c with phase } }

def observed (title conditionLabel : String) (attrs : Option Attrs) (row : ListingRow) : ListingRow :=
  { row with titleRaw := title, conditionLabelRaw := conditionLabel, latestAttrs := attrs.getD row.latestAttrs }

def bumped (row : ListingRow) (title conditionLabel : String) (attrs : Option Attrs) (v : Versions) : Versions where
  row := if row.titleRaw = title && row.conditionLabelRaw = conditionLabel then v.row else v.row + 1
  snapshot := if attrs.isNone then v.snapshot else v.snapshot + 1

def step (a : Event ρ) (s : System) : Option System :=
  match a with
  | .call listing reconsider => do
    let row ← s.db.listings[listing]?
    some { s with calls := s.calls ++ [⟨listing,reconsider,.started row,⟨(s.versions listing).row,0⟩⟩] }
  | .decide k reads => do
    let c ← s.calls[k]?
    let now ← s.db.listings[c.listing]?
    match c.phase with
    | .started row =>
      some (s.move k (c.decided (s.versions c.listing)) (.applying (read M row now.latestAttrs reads c.reconsider)))
    | _ => none
  | .crash k error => do
    let c ← s.calls[k]?
    match c.phase with
    | .started _ =>
      some (s.move k (c.decided (s.versions c.listing)) (.applying ⟨"",{},[],errorVerdict error⟩))
    | _ => none
  | .commit k now => do
    let c ← s.calls[k]?
    let reading ← c.reading
    let db ← apply M c.listing reading now s.db
    some ({ s with db }.move k c .committed)
  | .fail k error => do
    let c ← s.calls[k]?
    match c.phase with
    | .applying reading => some (s.move k c (.fallingBack ⟨reading.canonical,{},[],errorVerdict error⟩))
    | .fallingBack _ => some (s.move k c .propagated)
    | _ => none
  | .persist listing title conditionLabel attrs => do
    let row ← s.db.listings[listing]?
    some { s with
      db := s.db.updateListing listing (observed title conditionLabel attrs)
      versions := Function.update s.versions listing
        (bumped row title conditionLabel attrs (s.versions listing)) }

abbrev Steps (s : System) (a : Event ρ) (t : System) : Prop := step M a s = some t

structure Fresh (s : System) : Prop where
  unresolved : ∀ row ∈ s.db.listings, row.resolution = Denorm.cleared
  edges : s.db.edges = []
  calls : s.calls = []

inductive Stepped (s : System) : Event ρ → System → Prop where
  | call {listing reconsider row} (here : s.db.listings[listing]? = some row) :
      Stepped s (.call listing reconsider)
        { s with calls := s.calls ++ [⟨listing,reconsider,.started row,⟨(s.versions listing).row,0⟩⟩] }
  | decide {k reads c now row} (held : s.calls[k]? = some c) (here : s.db.listings[c.listing]? = some now)
      (phase : c.phase = .started row) :
      Stepped s (.decide k reads) (s.move k (c.decided (s.versions c.listing))
        (.applying (read M row now.latestAttrs reads c.reconsider)))
  | crash {k error c row} (held : s.calls[k]? = some c) (phase : c.phase = .started row) :
      Stepped s (.crash k error)
        (s.move k (c.decided (s.versions c.listing)) (.applying ⟨"",{},[],errorVerdict error⟩))
  | commit {k now c reading db} (held : s.calls[k]? = some c) (ready : c.reading = some reading)
      (done : apply M c.listing reading now s.db = some db) :
      Stepped s (.commit k now) ({ s with db }.move k c .committed)
  | fail {k error c reading} (held : s.calls[k]? = some c) (phase : c.phase = .applying reading) :
      Stepped s (.fail k error) (s.move k c (.fallingBack ⟨reading.canonical,{},[],errorVerdict error⟩))
  | propagate {k error c reading} (held : s.calls[k]? = some c) (phase : c.phase = .fallingBack reading) :
      Stepped s (.fail k error) (s.move k c .propagated)
  | persist {listing title conditionLabel attrs row} (here : s.db.listings[listing]? = some row) :
      Stepped s (.persist listing title conditionLabel attrs) { s with
        db := s.db.updateListing listing (observed title conditionLabel attrs)
        versions := Function.update s.versions listing
          (bumped row title conditionLabel attrs (s.versions listing)) }

inductive Applied (listing : Nat) (r : Reading) (now : Int) (db db' : Db) : Prop where
  | stamped (catalog : Catalog)
      (found : unchanged (db.currentEdge listing) r.verdict = true ∨
        ∃ m, materialize M r.extracted r.verdict db.catalog = some m ∧
          sameTarget (db.currentEdge listing) r.verdict m = true)
      (result : db' = { db with catalog }.stampEvaluated listing r.canonical now)
  | written (locked : ListingRow) (m : Materialized) (catalog : Catalog) (inserted : Db)
      (here : db.listings[listing]? = some locked)
      (changed : unchanged (db.currentEdge listing) r.verdict = false)
      (made : materialize M r.extracted r.verdict db.catalog = some m)
      (different : sameTarget (db.currentEdge listing) r.verdict m = false)
      (linked : { db with catalog := m.catalog }.supersede (newEdge M listing now r m locked.resolution) =
        some inserted)
      (result : db' = { inserted.updateListing listing (fun row =>
          { titled r.canonical row with
            resolution := if r.verdict.isError then row.resolution
              else (newEdge M listing now r m locked.resolution).target }) with catalog })

variable {M}

theorem stepped {s t : System} {a : Event ρ} (ok : step M a s = some t) : Stepped M s a t := by
  cases a with
  | call listing reconsider =>
    simp only [step,Option.bind_eq_bind,Option.bind_eq_some_iff] at ok
    obtain ⟨row,here,ok⟩ := ok
    cases Option.some.inj ok
    exact .call here
  | decide k reads =>
    simp only [step,Option.bind_eq_bind,Option.bind_eq_some_iff] at ok
    obtain ⟨c,held,now,here,ok⟩ := ok
    split at ok <;> try contradiction
    rename_i row phase
    cases Option.some.inj ok
    exact .decide held here phase
  | crash k error =>
    simp only [step,Option.bind_eq_bind,Option.bind_eq_some_iff] at ok
    obtain ⟨c,held,ok⟩ := ok
    split at ok <;> try contradiction
    rename_i row phase
    cases Option.some.inj ok
    exact .crash held phase
  | commit k now =>
    simp only [step,Option.bind_eq_bind,Option.bind_eq_some_iff] at ok
    obtain ⟨c,held,reading,ready,db,done,ok⟩ := ok
    cases Option.some.inj ok
    exact .commit held ready done
  | fail k error =>
    simp only [step,Option.bind_eq_bind,Option.bind_eq_some_iff] at ok
    obtain ⟨c,held,ok⟩ := ok
    split at ok <;> try contradiction
    · rename_i reading phase
      cases Option.some.inj ok
      exact .fail held phase
    · rename_i reading phase
      cases Option.some.inj ok
      exact .propagate held phase
  | persist listing title conditionLabel attrs =>
    simp only [step,Option.bind_eq_bind,Option.bind_eq_some_iff] at ok
    obtain ⟨row,here,ok⟩ := ok
    cases Option.some.inj ok
    exact .persist here

theorem applied {listing : Nat} {r : Reading} {now : Int} {db db' : Db} (ok : apply M listing r now db = some db') :
    Applied M listing r now db db' := by
  simp only [apply,Option.bind_eq_bind,Option.bind_eq_some_iff] at ok
  obtain ⟨locked,here,ok⟩ := ok
  split at ok
  · rename_i same
    cases Option.some.inj ok
    exact .stamped db.catalog (.inl same) rfl
  · rename_i changed
    simp only [Option.bind_eq_some_iff] at ok
    obtain ⟨m,made,ok⟩ := ok
    split at ok
    · rename_i same
      cases Option.some.inj ok
      exact .stamped m.catalog (.inr ⟨m,made,same⟩) rfl
    · rename_i different
      simp only [Option.bind_eq_some_iff] at ok
      obtain ⟨inserted,linked,ok⟩ := ok
      have written := fun catalog => @Applied.written ρ M listing r now db db' locked m catalog inserted here
        (Bool.eq_false_iff.mpr changed) made (Bool.eq_false_iff.mpr different) linked
      split at ok
      · rename_i error
        cases Option.some.inj ok
        exact written inserted.catalog (by simp only [if_pos error]; rfl)
      · rename_i clean
        split at ok <;> cases Option.some.inj ok
        · exact written _ (by simp only [if_neg clean]; rfl)
        · exact written inserted.catalog (by simp only [if_neg clean]; rfl)

end HwRadar.Matching
