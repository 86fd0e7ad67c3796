import HwRadar.Retention.Store

/-! The retention sweep, statement by statement. Each table is swept in turn: one statement
redacts the expired rows that are kept, and then batch after batch of the deletable ones
is selected and deleted. A delete selects its rows again under the whole predicate, then
what cascades from them, and removes both by primary key; other transactions commit
between its statements. -/
namespace HwRadar.Retention
open HwRadar.Base HwRadar.Ingest

inductive Table where
  | availabilityHeartbeatEvent
  | availabilityHeartbeatObservation
  | cpuSpec
  | driveSpec
  | gpuSpec
  | listing
  | offerSnapshot
  | productAlias
  | productModel
  | ramSpec
  | rawPayload
  | searchObservation
  | verificationEvent
  | watchEvaluation
  deriving DecidableEq, Repr

def retentionGovernedModels : List Table :=
  [.availabilityHeartbeatEvent,.availabilityHeartbeatObservation,.cpuSpec,.driveSpec,.gpuSpec,.listing,.offerSnapshot,
    .productAlias,.productModel,.ramSpec,.rawPayload,.searchObservation,.verificationEvent,.watchEvaluation]

inductive Owner where
  | none
  | listing (key : String)
  | model (pk : Nat)
  deriving DecidableEq, Repr

structure Record where
  table : Table
  pk : Nat
  retention : ObservationRetention
  owner : Owner
  elsewhere : table ≠ .listing ∧ table ≠ .offerSnapshot
  deriving DecidableEq

structure Database extends Store where
  records : List Record
  protectedModels : List Nat

inductive Pk where
  | listing (key : String) (incarnation : Nat)
  | offer (listing : String) (observedAt : Int)
  | record (pk : Nat)
  deriving DecidableEq, Repr

def Database.deletable (now : Int) (db : Database) : Table → List Pk
  | .listing => (db.market.listings.filter fun l => expired now l.retention && !db.exempt l).map fun l =>
      .listing l.sourceListingKey (db.incarnation l.sourceListingKey)
  | .offerSnapshot => (db.market.snapshots.filter fun o => expired now o.retention).map fun o =>
    .offer o.listing o.observedAt
  | table => (db.records.filter fun r => r.table = table && expired now r.retention).map fun r => .record r.pk

def Database.pks (db : Database) : Table → List Pk
  | .listing => db.market.listings.map fun l => .listing l.sourceListingKey (db.incarnation l.sourceListingKey)
  | .offerSnapshot => db.market.snapshots.map fun o => .offer o.listing o.observedAt
  | table => (db.records.filter fun r => r.table = table).map fun r => .record r.pk

def listingPk : Pk → Option (String × Nat)
  | .listing key incarnation => some (key,incarnation)
  | _ => none

def Database.deleteRows (table : Table) (pks : List Pk) (db : Database) : Database :=
  match table with
  | .listing => { db with
      toStore := db.delete (pks.filterMap listingPk)
      records := db.records.filter fun r =>
        match r.owner with
        | .listing key => !pks.contains (.listing key (db.incarnation key))
        | _ => true }
  | .offerSnapshot => { db with market := { db.market with
      snapshots := db.market.snapshots.filter fun o => !pks.contains (.offer o.listing o.observedAt) } }
  | table => { db with records := db.records.filter fun r =>
      !(r.table = table && pks.contains (.record r.pk)) &&
        match table,r.owner with
        | .productModel,.model pk => !pks.contains (.record pk)
        | _,_ => true }

def Database.edgesOf (db : Database) : Pk → Nat
  | .listing key incarnation => if db.incarnation key = incarnation then db.edges key else 0
  | _ => 0

def Database.protects (db : Database) (table : Table) (pk : Pk) : Bool :=
  match table,pk with
  | .productModel,.record pk => db.protectedModels.contains pk
  | _,pk => 1 < db.edgesOf pk

inductive Phase where
  | redact
  | select
  | collect (pks : List Pk)
  | cascade (pks collected : List Pk)
  | delete (pks : List Pk) (collected : List (Pk × Nat))
  | check (pks : List Pk) (deleted : Bool)
  | failed
  deriving DecidableEq, Repr

structure Sweep where
  now : Int
  batchSize : Nat
  remaining : List Table
  phase : Phase
  sized : 1 ≤ batchSize
  deriving Repr

structure System where
  db : Database
  sweep : Sweep

def System.at (s : System) (phase : Phase) : System := { s with sweep := { s.sweep with phase } }

def System.deletable (s : System) (table : Table) : List Pk := s.db.deletable s.sweep.now table

def System.batch (s : System) (table : Table) (chosen : List Pk) : Bool :=
  chosen.all (s.deletable table).contains && chosen.length ≤ s.sweep.batchSize &&
    (!chosen.isEmpty || (s.deletable table).isEmpty)

/-- One statement of `sweep_expired` on its current table. -/
def System.sweepTable (s : System) (table : Table) (rest : List Table) (chosen : List Pk) : Option System :=
  match s.sweep.phase with
  | .redact =>
    let db := if table = .listing then { s.db with toStore := s.db.redactExpired s.sweep.now } else s.db
    some ({ s with db }.at .select)
  | .select =>
    if !s.batch table chosen then none
    else if chosen.isEmpty then some ({ s with sweep := { s.sweep with remaining := rest } }.at .redact)
    else some (s.at (.collect chosen))
  | .collect pks => some (s.at (.cascade pks ((s.deletable table).filter pks.contains)))
  | .cascade pks collected =>
    if collected.any (s.db.protects table) then some (s.at .failed)
    else some (s.at (.delete pks (collected.map fun pk => (pk,s.db.edgesOf pk))))
  | .delete pks collected =>
    -- an edge written since its table was read still refers to the row
    if collected.any fun (pk,edges) => s.db.edgesOf pk ≠ edges then some (s.at .failed)
    else some ({ s with db := s.db.deleteRows table (collected.map Prod.fst) }.at
      (.check pks (collected.any fun (pk,_) => (s.db.pks table).contains pk)))
  | .check pks deleted =>
    if !deleted && pks.any (s.deletable table).contains then some (s.at .failed) else some (s.at .select)
  | .failed => none

inductive Event where
  | sweep (chosen : List Pk)
  | other (act : Act)

def Act.concurrent : Act → Bool
  | .ingest _ | .read _ | .crash _ | .apply _ _ => true
  | _ => false

variable (canonicalizeListingText : String → String → String)

def System.step (s : System) : Event → Option System
  | .sweep chosen => do
    let table ← s.sweep.remaining.head?
    s.sweepTable table s.sweep.remaining.tail chosen
  | .other act =>
    if act.concurrent then (s.db.toStore.step canonicalizeListingText act).map fun store =>
      { s with db := { s.db with toStore := store } }
    else none

abbrev Swept (s : System) (e : Event) (t : System) : Prop := s.step canonicalizeListingText e = some t

end HwRadar.Retention
