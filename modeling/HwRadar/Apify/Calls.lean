import HwRadar.Apify.Counters
import HwRadar.Apify.Tracking
import HwRadar.Base.Prepaid

/-! The requests about a run. A unit sends what its own commit counted, request by request,
while the other units and processes commit; it can be lost between any two of its steps. -/
namespace HwRadar.Apify
open HwRadar.Base HwRadar.Base.Tables

inductive Call where
  | start
  | runRead
  | correctionRead
  | datasetRead
  | outputRead
  | abort
  | confirm
  | delete (storage : Storage)
  deriving DecidableEq, Repr

def Call.counter : Call → Counter
  | .start => .starts
  | .runRead => .polls
  | .correctionRead => .corrections
  | .datasetRead => .datasetReads
  | .outputRead => .kvReads
  | .abort | .confirm | .delete _ => .attempts

def Storage.value : Storage → String
  | .dataset => "dataset"
  | .kvStore => "kv_store"

structure StorageIds where
  dataset : Option String
  kvStore : Option String
  deriving DecidableEq

def StorageIds.of (ids : StorageIds) : Storage → Option String
  | .dataset => ids.dataset
  | .kvStore => ids.kvStore

def ProviderRun.storageIds (row : ProviderRun) : StorageIds := ⟨row.datasetId,row.kvStoreId⟩

inductive CleanupStage where
  | aborting
  | observing (run : RemoteRun) (errors : Option (List String))
  | confirming (errors : List String)
  | unconfirmed (errors : List String)
  | rereading
  | deleting (left deleted : List Storage) (errors : List String) (ids : StorageIds)

/-- What `_finish` records of an attempt that ended. -/
def CleanupStage.outcome : CleanupStage → Option (List Storage × List String)
  | .unconfirmed errors => some ([],errors)
  | .deleting [] deleted errors _ => some (deleted,errors)
  | _ => none

inductive CallUnit where
  | starting (pk : Nat)
  | reading (pk : Nat) (runId : String)
  | monitoring (pk : Nat) (runId : String)
  | importing (pk : Nat) (datasetLeft : Bool)
  | mismatched (pk : Nat) (runId : String)
  | overdue (pk : Nat)
  | rejecting (pk : Nat)
  | cleanupDue (pk : Nat) (overdue : Bool)
  | cleaning (pk : Nat) (attempt : CleanupAttempt) (stage : CleanupStage)

def CleanupStage.calls (pending : List Storage) : CleanupStage → List Call
  | .aborting => .abort::.confirm::pending.map .delete
  | .observing _ none | .confirming _ => .confirm::pending.map .delete
  | .observing _ (some _) | .rereading => pending.map .delete
  | .deleting left _ _ _ => left.map .delete
  | .unconfirmed _ => []

def CallUnit.allowed : CallUnit → List (Nat × Call)
  | .starting pk => [(pk,.start)]
  | .reading pk _ => [(pk,.runRead)]
  | .monitoring pk _ => [(pk,.correctionRead)]
  | .importing pk true => [(pk,.datasetRead),(pk,.outputRead)]
  | .importing pk false => [(pk,.outputRead)]
  | .mismatched pk _ => [(pk,.abort)]
  | .overdue _ | .rejecting _ | .cleanupDue _ _ => []
  | .cleaning pk attempt stage => (stage.calls attempt.pending).map fun call => (pk,call)

inductive DeleteAnswer where
  | deleted
  | absent
  | failed (error : String)
  deriving DecidableEq

/-- `_delete`: a 404 counts as deleted only where the setting trusts it. -/
def deleteFailure (absentTrusted : Bool) (storage : Storage) : DeleteAnswer → Option String
  | .deleted => none
  | .absent => if absentTrusted then none
    else some (storage.value ++ " delete 404 not trusted (DELETE_404_IS_ABSENT false)")
  | .failed error => some (storage.value ++ " delete " ++ error)

def CleanupStage.deletedNext (storage : Storage) (left deleted : List Storage) (errors : List String)
    (ids : StorageIds) :
    Option String → CleanupStage
  | none => .deleting left (deleted ++ [storage]) errors ids
  | some failure => .deleting left deleted (errors ++ [failure]) ids

/-- `_confirm_terminal` once an answer is recorded: terminal, or the next try. -/
def CleanupStage.observed (run : RemoteRun) (errors : Option (List String)) : CleanupStage :=
  if terminalRunStatuses.contains run.status then .rereading
  else match errors with
  | none => .confirming ["abort answered non-terminal"]
  | some errors => .unconfirmed (errors ++ ["run read non-terminal"])

inductive Sends (absentTrusted : Bool) : CallUnit → Nat → Call → Option String → List CallUnit → Prop where
  | start {pk} : Sends absentTrusted (.starting pk) pk .start none []
  | read {pk runId} : Sends absentTrusted (.reading pk runId) pk .runRead (some runId) []
  | monitor {pk runId} : Sends absentTrusted (.monitoring pk runId) pk .correctionRead (some runId) []
  | dataset {pk} : Sends absentTrusted (.importing pk true) pk .datasetRead none [.importing pk false]
  | output {pk} : Sends absentTrusted (.importing pk false) pk .outputRead none []
  | mismatch {pk runId} : Sends absentTrusted (.mismatched pk runId) pk .abort (some runId) []
  | abortAnswered {pk attempt run} : Sends absentTrusted (.cleaning pk attempt .aborting) pk .abort (some attempt.runId)
      [.cleaning pk attempt (.observing run none)]
  | abortFailed {pk attempt error} : Sends absentTrusted (.cleaning pk attempt .aborting) pk .abort (some attempt.runId)
      [.cleaning pk attempt (.confirming ["abort " ++ error])]
  | confirmAnswered {pk attempt errors run} :
      Sends absentTrusted (.cleaning pk attempt (.confirming errors)) pk .confirm (some attempt.runId)
        [.cleaning pk attempt (.observing run (some errors))]
  | confirmFailed {pk attempt errors error} :
      Sends absentTrusted (.cleaning pk attempt (.confirming errors)) pk .confirm (some attempt.runId)
        [.cleaning pk attempt (.unconfirmed (errors ++ ["run read " ++ error]))]
  | delete {pk attempt storage left deleted errors ids id} (known : ids.of storage = some id) (valid : id ≠ "")
      (answer : DeleteAnswer) :
      Sends absentTrusted (.cleaning pk attempt (.deleting (storage::left) deleted errors ids)) pk
        (.delete storage) (some id)
        [.cleaning pk attempt (.deletedNext storage left deleted errors ids
          (deleteFailure absentTrusted storage answer))]

structure Calls where
  world : World
  units : List CallUnit
  sent : List (Nat × Call)

def Calls.start (now : Int) : Calls := ⟨.start .empty now,[],[]⟩

def Event.free : Event → Bool
  | .startAnswered _ _ _ | .work (.beginAttempt _ _ _) | .work (.finishAttempt _ _ _ _) => false
  | _ => true

/-- The units after a commit. A grant that its process does not live to use is a `plain` one. -/
inductive Grants (s : Calls) (label : Label) : List CallUnit → Prop where
  | plain (free : label.event.free = true) : Grants s label s.units
  | started {fields reservation} (event : label.event = .createRun fields reservation) :
      Grants s label (s.units ++ [.starting s.world.ledger.runs.length])
  | answered {pk run} (event : label.event = .startAnswered pk run []) (sent : (pk,.start) ∈ s.sent) :
      Grants s label s.units
  | mismatched {pk run mismatches} (event : label.event = .startAnswered pk run mismatches) (listed : mismatches ≠ [])
      (sent : (pk,.start) ∈ s.sent) : Grants s label (s.units ++ [.mismatched pk run.id])
  | polled {pk cap row runId}
      (event : label.event = .work (.runChanged pk fun row => (Writer.countPoll cap).write label.now row))
      (here : s.world.ledger.runs[pk]? = some row) (counted : (countPoll cap row).isSome = true)
      (named : row.externalRunId = some runId) : Grants s label (s.units ++ [.reading pk runId])
  | settling {pk runId l} (event : label.event = .work (.planSettlementRead pk))
      (planned : planSettlementRead pk label.now label.config s.world.ledger = .ok (l,some runId)) :
      Grants s label (s.units ++ [.reading pk runId])
  | monitored {k pk l call resv} (event : label.event = .monitoringBegun k)
      (begun : beginMonitoringRead k label.now label.config s.world.ledger = .ok (l,some call))
      (ofRun : call.build = false)
      (held : s.world.ledger.reservations[k]? = some resv) (linked : resv.providerRun = some pk) :
      Grants s label (s.units ++ [.monitoring pk call.remoteId])
  | importing {pk maxDataset maxKv latch row counted}
      (event : label.event = .work
        (.runChanged pk fun row => (Writer.countReads maxDataset maxKv latch).write label.now row))
      (here : s.world.ledger.runs[pk]? = some row) (counts : countReads maxDataset maxKv latch row = .ok counted) :
      Grants s label (s.units ++ [.importing pk true])
  | rejected {k pk} (here : s.units[k]? = some (.rejecting pk))
      (event : label.event = .work (.runChanged pk fun row => (Writer.reject (some .pending)).write label.now row)) :
      Grants s label (s.units.eraseIdx k ++ [.cleanupDue pk true])
  | refused {k pk cap overdue l} (here : s.units[k]? = some (.cleanupDue pk overdue))
      (event : label.event = .work (.beginAttempt pk cap overdue))
      (begun : beginAttempt cap label.config.budget.estimatorVersion label.now pk overdue s.world.ledger =
        .ok (l,none)) :
      Grants s label (s.units.eraseIdx k ++ [])
  | began {k pk cap overdue l attempt} (here : s.units[k]? = some (.cleanupDue pk overdue))
      (event : label.event = .work (.beginAttempt pk cap overdue))
      (begun : beginAttempt cap label.config.budget.estimatorVersion label.now pk overdue s.world.ledger =
        .ok (l,some attempt)) : Grants s label (s.units.eraseIdx k ++
          [.cleaning pk attempt (if attempt.observedTerminal then .rereading else .aborting)])
  | observed {k pk attempt run errors} (here : s.units[k]? = some (.cleaning pk attempt (.observing run errors)))
      (event : label.event = .work (.recordObservation pk run)) :
      Grants s label (s.units.eraseIdx k ++ [.cleaning pk attempt (.observed run errors)])
  | finished {k pk attempt stage cap deleted errors} (here : s.units[k]? = some (.cleaning pk attempt stage))
      (ended : stage.outcome = some (deleted,errors))
      (event : label.event = .work (.finishAttempt pk cap deleted errors)) :
      Grants s label (s.units.eraseIdx k ++ [])

inductive Proceeds (l : Ledger) (now : Int) : CallUnit → CallUnit → Prop where
  | decided {pk row} (here : l.runs[pk]? = some row)
      (past : now < row.storageCleanupDueAt ∨ row.importState ≠ .pending) :
      Proceeds l now (.overdue pk) (.cleanupDue pk true)
  | undecided {pk row} (here : l.runs[pk]? = some row) (passed : row.storageCleanupDueAt ≤ now)
      (pending : row.importState = .pending) : Proceeds l now (.overdue pk) (.rejecting pk)
  | reread {pk attempt row} (here : l.runs[pk]? = some row) : Proceeds l now (.cleaning pk attempt .rereading)
      (.cleaning pk attempt (.deleting attempt.pending [] [] row.storageIds))
  | unknown {pk attempt storage left deleted errors ids} (unknown : ids.of storage = none) :
      Proceeds l now (.cleaning pk attempt (.deleting (storage::left) deleted errors ids))
        (.cleaning pk attempt (.deleting left deleted (errors ++ [storage.value ++ " id unknown"]) ids))

inductive CallLabel where
  | commit (label : Label)
  | request (pk : Nat) (call : Call) (target : Option String)
  | aside

def World.at_ (w : World) (now : Int) : World := { w with clock := now }

inductive CallStep (digest : Json → String) (absentTrusted : Bool) (s : Calls) : CallLabel → Calls → Prop where
  | commit {label w' units} (step : PollStep digest s.world label w') (grants : Grants s label units) :
      CallStep digest absentTrusted s (.commit label) ⟨w',units,s.sent⟩
  | request {k unit pk call target next} (here : s.units[k]? = some unit)
      (sends : Sends absentTrusted unit pk call target next) :
      CallStep digest absentTrusted s (.request pk call target)
        ⟨s.world,s.units.eraseIdx k ++ next,s.sent ++ [(pk,call)]⟩
  | handed {pk row} (here : s.world.ledger.runs[pk]? = some row) (imported : terminalImport row.importState = true)
      (retained : row.storageState ≠ .deleted) :
      CallStep digest absentTrusted s .aside { s with units := s.units ++ [.cleanupDue pk false] }
  | overdue {pk now cap} (order : s.world.clock ≤ now) (selected : pk ∈ selectOverdue cap now s.world.ledger) :
      CallStep digest absentTrusted s .aside ⟨s.world.at_ now,s.units ++ [.overdue pk],s.sent⟩
  | proceeds {k unit next now} (order : s.world.clock ≤ now) (here : s.units[k]? = some unit)
      (moves : Proceeds s.world.ledger now unit next) :
      CallStep digest absentTrusted s .aside ⟨s.world.at_ now,s.units.eraseIdx k ++ [next],s.sent⟩
  | lost {k} : CallStep digest absentTrusted s .aside { s with units := s.units.eraseIdx k }

def Ledger.count (l : Ledger) (counter : Nat × Counter) : Nat := (l.runs[counter.1]?).elim 0 (·.count counter.2)

def payer (call : Nat × Call) : Nat × Counter := (call.1,call.2.counter)

def Calls.permits (units : List CallUnit) (call : Nat × Call) : Nat :=
  (units.map fun unit => unit.allowed.count call).sum

def Calls.prepaid (s : Calls) : Prepaid (Nat × Counter) (Nat × Call) :=
  ⟨s.world.ledger.count,Calls.permits s.units,fun call => s.sent.count call⟩

theorem countHere {l : Ledger} {pk : Nat} {row : ProviderRun} (here : l.runs[pk]? = some row) (c : Counter) :
    l.count (pk,c) = row.count c := by
  rw [Ledger.count,here]
  rfl

section
variable {digest : Json → String} {absentTrusted : Bool} {s : Calls} {label : Label} {w' : World}
  {units : List CallUnit}

theorem countsGrow (step : PollStep digest s.world label w') (counter : Nat × Counter) :
    s.world.ledger.count counter ≤ w'.ledger.count counter := by
  obtain ⟨pk,c⟩ := counter
  cases here : s.world.ledger.runs[pk]? with
  | none =>
    rw [Ledger.count,here]
    exact Nat.zero_le _
  | some a =>
    obtain ⟨b,there,move⟩ := stepCounted step pk a here
    rw [countHere here,countHere there]
    rcases move.counts c with same | ⟨more,_⟩ <;> omega

theorem permitsErased {k : Nat} {unit : CallUnit} (here : s.units[k]? = some unit) (next : List CallUnit)
    (call : Nat × Call) : Calls.permits (s.units.eraseIdx k ++ next) call + unit.allowed.count call =
      Calls.permits s.units call + Calls.permits next call :=
  sumReplaced (fun unit : CallUnit => unit.allowed.count call) here next

theorem permitsAdded (added : List CallUnit) (call : Nat × Call) :
    Calls.permits (s.units ++ added) call = Calls.permits s.units call + Calls.permits added call := by
  simp only [Calls.permits,List.map_append,List.sum_append]

theorem permitsOne (unit : CallUnit) (call : Nat × Call) : Calls.permits [unit] call = unit.allowed.count call := by
  simp [Calls.permits]

theorem grantCounted {unit : CallUnit} {l l' : Ledger} (grows : ∀ counter, l.count counter ≤ l'.count counter)
    (once : unit.allowed.Nodup) (raised : ∀ call ∈ unit.allowed, l.count (payer call) + 1 ≤ l'.count (payer call))
    (call : Nat × Call) : unit.allowed.count call + l.count (payer call) ≤ l'.count (payer call) := by
  by_cases mem : call ∈ unit.allowed
  · have one := List.nodup_iff_count_le_one.mp once call
    have more := raised call mem
    omega
  · rw [List.count_eq_zero.mpr mem,Nat.zero_add]
    exact grows _

theorem pendingNodup (verified : List Storage) : (allStorages.filter fun storage => !verified.contains storage).Nodup :=
  List.Nodup.filter _ (by decide)

theorem deletesNodup {pending : List Storage} (once : pending.Nodup) : (pending.map Call.delete).Nodup :=
  once.map fun _ _ same => Call.delete.inj same

theorem beginAttemptGranted {cap now : Int} {version : String} {pk : Nat} {overdue : Bool} {l l' : Ledger}
    {attempt : CleanupAttempt} (ok : beginAttempt cap version now pk overdue l = .ok (l',some attempt)) :
    ∃ row, l.runs[pk]? = some row ∧ row.externalRunId = some attempt.runId ∧
      attempt.observedTerminal = terminalStatus row.remoteStatus ∧
      attempt.pending = (allStorages.filter fun storage => !row.storageVerified.contains storage) ∧
      l' = l.saveRun pk { row with storageCleanupAttempts := row.storageCleanupAttempts + 1 } := by
  obtain ⟨row,locked,ok⟩ := bindOk.mp ok
  refine ⟨row,lockRunOk locked,?_⟩
  split at ok
  · cases ok
  split at ok
  · split at ok <;> cases ok
  rename_i remote named
  split at ok
  · cases ok
  split at ok
  · cases ok
  cases Except.ok.inj ok
  exact ⟨named,rfl,rfl,rfl⟩

theorem savedCount {l : Ledger} {pk : Nat} {row row' : ProviderRun} (here : l.runs[pk]? = some row) {c : Counter}
    (more : row'.count c = row.count c + 1) : l.count (pk,c) + 1 ≤ (l.saveRun pk row').count (pk,c) := by
  have there : (l.saveRun pk row').runs[pk]? = some row' := List.getElem?_set_self (List.getElem?_eq_some_iff.mp here).1
  rw [countHere here,countHere there,more]

theorem setCount {l l' : Ledger} {pk : Nat} {row row' : ProviderRun} (here : l.runs[pk]? = some row) {c : Counter}
    (saved : l'.runs = l.runs.set pk row') (more : row'.count c = row.count c + 1) :
    l.count (pk,c) + 1 ≤ l'.count (pk,c) := by
  have there : l'.runs[pk]? = some row' := by
    rw [saved]
    exact List.getElem?_set_self (List.getElem?_eq_some_iff.mp here).1
  rw [countHere here,countHere there,more]

section
variable {w : World} {pk : Nat}

theorem workCommitted {op : Work} (step : PollStep digest w label w') (event : label.event = .work op) :
    op.commit label.config label.now w.ledger = .ok w'.ledger := by
  obtain ⟨_,_,transition⟩ := step
  rw [event] at transition
  cases transition with
  | work ok => exact ok

theorem startCounted {fields : RunFields} {reservation : Option Nat} (step : PollStep digest w label w')
    (event : label.event = .createRun fields reservation) :
    w.ledger.count (w.ledger.runs.length,.starts) + 1 ≤ w'.ledger.count (w.ledger.runs.length,.starts) := by
  obtain ⟨_,_,transition⟩ := step
  rw [event] at transition
  cases transition with
  | createRun ok =>
    have created := createRunCreated ok
    simp [Ledger.count,World.commit,created.runs,ProviderRun.count]

theorem mismatchCounted {run : RemoteRun} {mismatches : List String} (step : PollStep digest w label w')
    (event : label.event = .startAnswered pk run mismatches) (listed : mismatches ≠ []) :
    w.ledger.count (pk,.attempts) + 1 ≤ w'.ledger.count (pk,.attempts) := by
  obtain ⟨_,_,transition⟩ := step
  rw [event] at transition
  cases transition with
  | startAnswered pending ok =>
    obtain ⟨row,locked,done⟩ := bindOk.mp ok
    cases Except.ok.inj done
    have unmatched : mismatches.isEmpty = false := by simpa using listed
    refine savedCount (lockRunOk locked) ?_
    simp only [startedRow,unmatched,if_neg Bool.false_ne_true,ProviderRun.count]
    exact congrArg (· + 1) ((appliedColumns _ run label.now).1 .attempts)

theorem writerCommitted {writer : Writer} (step : PollStep digest w label w')
    (event : label.event = .work (.runChanged pk fun row => writer.write label.now row)) {row : ProviderRun}
    (here : w.ledger.runs[pk]? = some row) :
    w'.ledger = w.ledger.saveRun pk (changedRun row fun row => writer.write label.now row) := by
  obtain ⟨locked,held,done⟩ := bindOk.mp (workCommitted step event)
  cases Option.some.inj ((lockRunOk held).symm.trans here)
  exact (Except.ok.inj done).symm

theorem pollCounted {cap : Int} {row : ProviderRun} (step : PollStep digest w label w')
    (event : label.event = .work (.runChanged pk fun row => (Writer.countPoll cap).write label.now row))
    (here : w.ledger.runs[pk]? = some row) (counted : (countPoll cap row).isSome = true) :
    w.ledger.count (pk,.polls) + 1 ≤ w'.ledger.count (pk,.polls) := by
  rw [writerCommitted step event here]
  refine savedCount here ?_
  obtain ⟨moved,made⟩ := Option.isSome_iff_exists.mp counted
  simp only [changedRun,Writer.write,made,Option.getD_some,ProviderRun.count]
  unfold Apify.countPoll at made
  split at made
  · cases made
  · cases Option.some.inj made
    rfl

theorem settlementCounted {runId : String} {l : Ledger} (step : PollStep digest w label w')
    (event : label.event = .work (.planSettlementRead pk))
    (planned : planSettlementRead pk label.now label.config w.ledger = .ok (l,some runId)) :
    w.ledger.count (pk,.polls) + 1 ≤ w'.ledger.count (pk,.polls) := by
  obtain ⟨⟨m,remote⟩,done,is⟩ := mapOk (workCommitted step event)
  obtain ⟨rfl,rfl⟩ := Prod.mk.inj (Except.ok.inj (planned.symm.trans done))
  obtain ⟨_,a,here,⟨none_,_⟩ | ⟨_,_,_,next,saved⟩⟩ := planSettlementReadRuns done
  · cases none_
  · rw [← is]
    exact setCount here saved rfl

theorem monitoringCounted {k : Nat} {l : Ledger} {call : MonitorCall} {resv : Reservation}
    (step : PollStep digest w label w') (event : label.event = .monitoringBegun k)
    (begun : beginMonitoringRead k label.now label.config w.ledger = .ok (l,some call)) (ofRun : call.build = false)
    (held : w.ledger.reservations[k]? = some resv) (linked : resv.providerRun = some pk) :
    w.ledger.count (pk,.corrections) + 1 ≤ w'.ledger.count (pk,.corrections) := by
  obtain ⟨_,_,transition⟩ := step
  rw [event] at transition
  cases transition with
  | monitoringBegun ok =>
    obtain ⟨rfl,rfl⟩ := Prod.mk.inj (Except.ok.inj (begun.symm.trans ok))
    rcases beginMonitoringCounted ok with ⟨_,build⟩ | ⟨q,a,cap,here,_,_,⟨found,at_,own⟩,_,saved⟩
    · rw [build _ rfl] at ofRun
      cases ofRun
    · cases Option.some.inj (at_.symm.trans held)
      cases Option.some.inj (own.symm.trans linked)
      exact setCount here saved rfl

theorem readsCounted {maxDataset maxKv : Int} {latch : Bool} {row counted : ProviderRun}
    (step : PollStep digest w label w') (event : label.event = .work (.runChanged pk fun row =>
      (Writer.countReads maxDataset maxKv latch).write label.now row)) (here : w.ledger.runs[pk]? = some row)
    (counts : countReads maxDataset maxKv latch row = .ok counted) {c : Counter}
    (read : c = .datasetReads ∨ c = .kvReads) :
    w.ledger.count (pk,c) + 1 ≤ w'.ledger.count (pk,c) := by
  obtain ⟨_,_,_,rfl⟩ := countReadsOk counts
  rw [writerCommitted step event here]
  rcases read with rfl | rfl <;> refine savedCount here ?_ <;>
    simp only [changedRun,Writer.write,counts,orKept,ProviderRun.count]

theorem attemptCounted {cap : Int} {overdue : Bool} {l : Ledger} {attempt : CleanupAttempt}
    (step : PollStep digest w label w') (event : label.event = .work (.beginAttempt pk cap overdue))
    (begun : beginAttempt cap label.config.budget.estimatorVersion label.now pk overdue w.ledger =
      .ok (l,some attempt)) :
    w.ledger.count (pk,.attempts) + 1 ≤ w'.ledger.count (pk,.attempts) := by
  obtain ⟨row,at_,_,_,_,saved⟩ := beginAttemptGranted begun
  have committed : w'.ledger = l := by
    obtain ⟨⟨m,granted⟩,done,is⟩ := mapOk (workCommitted step event)
    exact is.symm.trans (Prod.mk.inj (Except.ok.inj (done.symm.trans begun))).1
  rw [committed,saved]
  exact savedCount at_ rfl
end

theorem cleanupCounter {pending : List Storage} {stage : CleanupStage} {kind : Call}
    (mem : kind ∈ stage.calls pending) :
    kind.counter = .attempts := by
  have delete : ∀ storages : List Storage, kind ∈ storages.map Call.delete → kind.counter = .attempts := by
    intro storages mem
    obtain ⟨storage,_,rfl⟩ := List.mem_map.mp mem
    rfl
  have confirm : kind ∈ Call.confirm::pending.map Call.delete → kind.counter = .attempts := by
    intro mem
    rcases List.mem_cons.mp mem with rfl | mem
    · rfl
    · exact delete _ mem
  cases stage with
  | aborting =>
    rcases List.mem_cons.mp mem with rfl | mem
    · rfl
    · exact confirm mem
  | observing run errors =>
    cases errors with
    | none => exact confirm mem
    | some errors => exact delete _ mem
  | confirming errors => exact confirm mem
  | unconfirmed errors => cases mem
  | rereading => exact delete _ mem
  | deleting left deleted errors ids => exact delete _ mem

theorem attemptOnce {cap now : Int} {version : String} {pk : Nat} {overdue : Bool} {l l' : Ledger}
    {attempt : CleanupAttempt} (begun : beginAttempt cap version now pk overdue l = .ok (l',some attempt)) :
    (CallUnit.cleaning pk attempt (if attempt.observedTerminal then .rereading else .aborting)).allowed.Nodup := by
  obtain ⟨row,_,_,_,pending,_⟩ := beginAttemptGranted begun
  have deletes := deletesNodup (pending ▸ pendingNodup row.storageVerified)
  refine List.Nodup.map (fun _ _ same => (Prod.mk.inj same).2) ?_
  split
  · exact deletes
  · simp [CleanupStage.calls,deletes]

theorem observedFewer {pk : Nat} {attempt : CleanupAttempt} {run : RemoteRun} {errors : Option (List String)}
    (call : Nat × Call) : (CallUnit.cleaning pk attempt (.observed run errors)).allowed.count call ≤
      (CallUnit.cleaning pk attempt (.observing run errors)).allowed.count call := by
  refine List.Sublist.count_le call (List.Sublist.map _ ?_)
  unfold CleanupStage.observed
  cases errors with
  | none =>
    split
    · exact List.sublist_cons_self _ _
    · exact List.Sublist.refl _
  | some errors =>
    split
    · exact List.Sublist.refl _
    · exact List.nil_sublist _

theorem grantsWithin (step : PollStep digest s.world label w') (grants : Grants s label units) (call : Nat × Call) :
    Calls.permits units call + s.world.ledger.count (payer call) ≤
      Calls.permits s.units call + w'.ledger.count (payer call) := by
  have grows := countsGrow step
  have kept := grows (payer call)
  -- a new unit is paid by its own commit; one that moves on keeps at most what it had
  have added : ∀ unit : CallUnit, unit.allowed.Nodup →
      (∀ call ∈ unit.allowed, s.world.ledger.count (payer call) + 1 ≤ w'.ledger.count (payer call)) →
      Calls.permits (s.units ++ [unit]) call + s.world.ledger.count (payer call) ≤
        Calls.permits s.units call + w'.ledger.count (payer call) := by
    intro unit once raised
    have paid := grantCounted grows once raised call
    rw [permitsAdded,permitsOne]
    omega
  have single : ∀ (pk : Nat) (kind : Call),
      s.world.ledger.count (pk,kind.counter) + 1 ≤ w'.ledger.count (pk,kind.counter) →
      ∀ call ∈ [(pk,kind)], s.world.ledger.count (payer call) + 1 ≤ w'.ledger.count (payer call) := by
    intro pk kind raised call mem
    rw [List.mem_singleton.mp mem]
    exact raised
  cases grants with
  | plain free => exact Nat.add_le_add_left kept _
  | answered event sent => exact Nat.add_le_add_left kept _
  | started event => exact added _ (List.nodup_singleton _) (single _ .start (startCounted step event))
  | mismatched event listed sent =>
    exact added _ (List.nodup_singleton _) (single _ .abort (mismatchCounted step event listed))
  | polled event here counted named =>
    exact added _ (List.nodup_singleton _) (single _ .runRead (pollCounted step event here counted))
  | settling event planned =>
    exact added _ (List.nodup_singleton _) (single _ .runRead (settlementCounted step event planned))
  | monitored event begun ofRun held linked =>
    exact added _ (List.nodup_singleton _)
      (single _ .correctionRead (monitoringCounted step event begun ofRun held linked))
  | importing event here counts =>
    refine added _ (by simp [CallUnit.allowed]) fun call mem => ?_
    rcases List.mem_cons.mp mem with rfl | mem
    · exact readsCounted step event here counts (.inl rfl)
    · rw [List.mem_singleton.mp mem]
      exact readsCounted step event here counts (.inr rfl)
  | @rejected k pk here event =>
    have erased := permitsErased here [.cleanupDue pk true] call
    simp only [permitsOne,CallUnit.allowed,List.count_nil] at erased
    omega
  | refused here event begun =>
    have erased := permitsErased here [] call
    simp only [Calls.permits,List.map_nil,List.sum_nil,CallUnit.allowed,List.count_nil] at erased ⊢
    omega
  | @began k pk cap overdue l attempt here event begun =>
    have erased := permitsErased here
      [.cleaning pk attempt (if attempt.observedTerminal then .rereading else .aborting)] call
    have idle : (CallUnit.cleanupDue pk overdue).allowed.count call = 0 := rfl
    rw [permitsOne,idle] at erased
    have paid := grantCounted grows (attemptOnce begun) (fun call mem => by
      obtain ⟨kind,kindMem,rfl⟩ := List.mem_map.mp mem
      rw [payer,cleanupCounter kindMem]
      exact attemptCounted step event begun) call
    omega
  | @observed k pk attempt run errors here event =>
    have erased := permitsErased here [.cleaning pk attempt (.observed run errors)] call
    have fewer := @observedFewer pk attempt run errors call
    rw [permitsOne] at erased
    omega
  | finished here ended event =>
    have erased := permitsErased here [] call
    simp only [Calls.permits,List.map_nil,List.sum_nil] at erased ⊢
    omega

theorem sendsSpent {unit : CallUnit} {pk : Nat} {kind : Call} {target : Option String} {next : List CallUnit}
    (sends : Sends absentTrusted unit pk kind target next) (call : Nat × Call) :
    Calls.permits next call + (if call = (pk,kind) then 1 else 0) ≤ unit.allowed.count call := by
  have spent : ((pk,kind)::next.flatMap CallUnit.allowed).Sublist unit.allowed := by
    cases sends with
    | delete known valid answer =>
      cases failure : deleteFailure absentTrusted _ answer <;>
        simp [CallUnit.allowed,CleanupStage.calls,CleanupStage.deletedNext]
    | _ => simp [CallUnit.allowed,CleanupStage.calls]
  have rest : (next.flatMap CallUnit.allowed).count call = Calls.permits next call := by
    rw [List.count_flatMap]
    rfl
  have fewer := spent.count_le call
  rw [List.count_cons,rest] at fewer
  by_cases same : call = (pk,kind)
  · subst same
    simpa using fewer
  · rw [if_neg same]
    exact (Nat.le_add_right _ _).trans fewer

theorem proceedsFewer {l : Ledger} {now : Int} {unit next : CallUnit} (moves : Proceeds l now unit next)
    (call : Nat × Call) : next.allowed.count call ≤ unit.allowed.count call := by
  cases moves with
  | unknown unknown => exact List.Sublist.count_le call (List.Sublist.map _ (List.sublist_cons_self _ _))
  | _ => exact le_rfl

theorem stepPrepaid {kind : CallLabel} {t : Calls} (step : CallStep digest absentTrusted s kind t) :
    ∃ sent, Prepaid.Step payer s.prepaid sent t.prepaid := by
  cases step with
  | commit step grants => exact ⟨none,.count (countsGrow step) (grantsWithin step grants)⟩
  | @request k unit pk call target next here sends =>
    refine ⟨some (pk,call),?_⟩
    have logged : (fun key => (s.sent ++ [(pk,call)]).count key) =
        Function.update (fun key => s.sent.count key) (pk,call) (s.sent.count (pk,call) + 1) := by
      funext key
      by_cases same : key = (pk,call)
      · rw [same,Function.update_self,List.count_append,List.count_singleton_self]
      · rw [Function.update_of_ne same,List.count_append,List.count_eq_zero.mpr fun mem =>
          same (List.mem_singleton.mp mem)]
        rfl
    unfold Calls.prepaid
    rw [logged]
    refine .send (fun _ => le_rfl) ?_ fun key other => ?_
    · change Calls.permits (s.units.eraseIdx k ++ next) (pk,call) + 1 ≤ Calls.permits s.units (pk,call)
      have erased := permitsErased here next (pk,call)
      have spent := sendsSpent sends (pk,call)
      rw [if_pos rfl] at spent
      omega
    · change Calls.permits (s.units.eraseIdx k ++ next) key ≤ Calls.permits s.units key
      have erased := permitsErased here next key
      have spent := sendsSpent sends key
      rw [if_neg other] at spent
      omega
  | @handed pk row here imported retained =>
    refine ⟨none,.count (fun _ => le_rfl) fun key => ?_⟩
    have added := permitsAdded (s := s) [.cleanupDue pk false] key
    simp only [permitsOne,CallUnit.allowed,List.count_nil,Nat.add_zero] at added
    exact (congrArg (· + _) added).le
  | @overdue pk now cap order selected =>
    refine ⟨none,.count (fun _ => le_rfl) fun key => ?_⟩
    have added := permitsAdded (s := s) [.overdue pk] key
    simp only [permitsOne,CallUnit.allowed,List.count_nil,Nat.add_zero] at added
    exact (congrArg (· + _) added).le
  | @proceeds k unit next now order here moves =>
    refine ⟨none,.count (fun _ => le_rfl) fun key => Nat.add_le_add_right ?_ _⟩
    change Calls.permits (s.units.eraseIdx k ++ [next]) key ≤ Calls.permits s.units key
    have erased := permitsErased here [next] key
    have fewer := proceedsFewer moves key
    rw [permitsOne] at erased
    omega
  | @lost k =>
    refine ⟨none,.count (fun _ => le_rfl) fun key => Nat.add_le_add_right ?_ _⟩
    exact List.Sublist.sum_le_sum ((List.eraseIdx_sublist s.units k).map _) (fun _ _ => Nat.zero_le _)
end
end HwRadar.Apify
