import HwRadar.Apify.SettlementBounds
import HwRadar.Apify.Changes
import HwRadar.Base.Run

/-! The amounts of one reservation over any calls of the settlement and the monitoring. A
watched ledger keeps beside the rows what the calls reported for the reservation: the totals
recorded while it was open, the totals of its completed monitoring reads, and the instant its
settlement counted reads as eligible from. -/
namespace HwRadar.Apify
open HwRadar.Base HwRadar.Base.Calendar

inductive UsageCall where
  | recordRun (runPk : Nat) (run : ApifyRun) (readAt : Int) (config : LedgerConfig)
  | recordBuild (pk : Nat) (build : ApifyBuild) (readAt : Int) (config : LedgerConfig)
  | planRun (runPk : Nat) (now : Int) (config : LedgerConfig)
  | planBuild (pk : Nat) (now : Int) (config : LedgerConfig)
  | beginRead (pk : Nat) (now : Int) (config : LedgerConfig)
  | completeRead (pk : Nat) (result : Option MonitorResult) (now : Int) (config : LedgerConfig)

def UsageCall.commit (l : Ledger) : UsageCall → Except Fault Ledger
  | .recordRun runPk run readAt config => (recordRunUsage runPk run readAt config l).map Prod.fst
  | .recordBuild pk build readAt config => (recordBuildUsage pk build readAt config l).map Prod.fst
  | .planRun runPk now config => (planSettlementRead runPk now config l).map Prod.fst
  | .planBuild pk now config => (planBuildRead pk now config l).map Prod.fst
  | .beginRead pk now config => (beginMonitoringRead pk now config l).map Prod.fst
  | .completeRead pk result now config => (completeMonitoringRead pk result now config l).map Prod.fst

def UsageCall.config : UsageCall → LedgerConfig
  | .recordRun _ _ _ config | .recordBuild _ _ _ config | .planRun _ _ config | .planBuild _ _ config
  | .beginRead _ _ config | .completeRead _ _ _ config => config

def UsageCall.at_ : UsageCall → Int
  | .recordRun _ _ readAt _ | .recordBuild _ _ readAt _ => readAt
  | .planRun _ now _ | .planBuild _ now _ | .beginRead _ now _ | .completeRead _ _ now _ => now

def UsageCall.lockedRun (l : Ledger) : UsageCall → Option ProviderRun
  | .recordRun runPk _ _ _ | .planRun runPk _ _ => l.runs[runPk]?
  | _ => none

structure Reported where
  readAt : Int
  total : ℚ
  deriving DecidableEq

def UsageCall.heard (pk : Nat) (l : Ledger) : UsageCall → Option Reported
  | .recordRun runPk run readAt _ =>
    if (l.reservationOf runPk).any fun entry => entry.2 == pk && entry.1.status.isOpen then
      run.usageTotalUsd.map (⟨readAt,·⟩) else none
  | .recordBuild q build readAt _ =>
    if q = pk ∧ ((l.reservations[q]?).any fun row => row.status.isOpen) = true then
      build.usageTotalUsd.map (⟨readAt,·⟩) else none
  | _ => none

def UsageCall.monitored (pk : Nat) : UsageCall → Option ℚ
  | .completeRead q result _ _ => if q = pk then (figureOf result).map Prod.snd else none
  | _ => none

def UsageCall.settledFrom (pk : Nat) (l l' : Ledger) (c : UsageCall) : Option Int :=
  if ((l.reservations[pk]?).any fun row => row.status != .reconciled) &&
      ((l'.reservations[pk]?).any fun row => row.status == .reconciled) then
    (anchor (readsOf l' pk) (c.lockedRun l)).bind fun at_ => (eligibleFrom at_ c.config).toOption
  else none

structure Watched where
  ledger : Ledger
  before : List Reported
  after : List ℚ
  eligibleFrom : Option Int

structure Reservation.Unsettled (row : Reservation) : Prop where
  status : row.status ≠ .reconciled
  monitor : row.correctionMonitorUntil = none
  finalized : row.usageFinalizedUsd = none

def Elsewhere (pk : Nat) (l l' : Ledger) : Prop :=
  readsOf l' pk = readsOf l pk ∧ (l'.reservations[pk]? = l.reservations[pk]? ∨
    ∃ row row', l.reservations[pk]? = some row ∧ l'.reservations[pk]? = some row' ∧ row.Unsettled ∧ row'.Unsettled ∧
      row'.executionBoundUsd = row.executionBoundUsd)

inductive Watched.Step (pk : Nat) (w : Watched) : Option UsageCall → Watched → Prop where
  | call {c : UsageCall} {l' : Ledger} (ok : c.commit w.ledger = .ok l') :
      Step pk w (some c) ⟨l',w.before ++ (c.heard pk w.ledger).toList,w.after ++ (c.monitored pk).toList,
        w.eligibleFrom.or (c.settledFrom pk w.ledger l')⟩
  | rolledBack {c : UsageCall} {fault : Fault} (failed : c.commit w.ledger = .error fault) : Step pk w (some c) w
  | elsewhere {l' : Ledger} (kept : Elsewhere pk w.ledger l') : Step pk w none { w with ledger := l' }

section
variable {pk q : Nat} {resv : Reservation} {run : Option (ProviderRun × Nat)} {now : Int} {config : LedgerConfig}
  {l l' : Ledger} {settled : Bool}

theorem readsAppend (l : Ledger) (entries : List UsageRead) (pk : Nat) :
    readsOf { l with usageReads := l.usageReads ++ entries } pk =
      readsOf l pk ++ entries.filter fun r => r.reservation == pk := by
  unfold readsOf
  rw [List.filter_append]

theorem readsSame (same : l'.usageReads = l.usageReads) (pk : Nat) : readsOf l' pk = readsOf l pk := by
  unfold readsOf
  rw [same]

theorem tripWhenOnly (condition : Bool) (reason : LatchReason) (run : Option Nat) (config : LedgerConfig) (now : Int)
    (l : Ledger) : LatchOnly l (tripWhen condition reason run config now l) := by
  unfold tripWhen
  split
  · exact tripOnly reason run _ now l
  · exact .refl l

theorem trySettleSpec (ok : trySettle q resv run now config l = .ok (l',settled)) :
    l'.usageReads = l.usageReads ∧ (l'.reservations = l.reservations ∧ settled = false ∧ l' = l ∨
      ∃ row, settled = true ∧ l'.reservations = l.reservations.set q row ∧
        settlement config now (readsOf l q) resv (run.map Prod.fst) = some row) := by
  unfold trySettle at ok
  split at ok
  · cases ok
    exact ⟨rfl,.inl ⟨rfl,rfl,rfl⟩⟩
  · rename_i row settles
    obtain ⟨m,save,done⟩ := bindOk.mp ok
    cases done
    obtain ⟨_,rows,_,_,_,reads,_⟩ := saveReservationOk save
    have latch := tripWhenOnly (resv.estimateUsd.getD 0 < row.actualUsd.getD 0) .overrun (run.map Prod.snd) config now m
    exact ⟨latch.usageReads.trans reads,.inr ⟨row,rfl,latch.reservations.trans rows,settles⟩⟩

theorem appendReadSpec {link : Option Nat} {readAt : Int} {u : ApifyUsage} {finishedAt : Option Int} {read : Nat}
    (ok : appendRead q resv link readAt u finishedAt config l = .ok (l',read)) :
    l'.reservations = l.reservations ∧ ∃ entry, l'.usageReads = l.usageReads ++ [entry] ∧ entry.reservation = q ∧
      entry.readAt = readAt ∧ entry.usageTotalUsd = u.usageTotalUsd.map providerFigure := by
  unfold appendRead at ok
  split at ok
  · cases ok
  split at ok
  · cases ok
  cases ok
  exact ⟨rfl,_,rfl,rfl,rfl,rfl⟩

theorem applyReadSpec {readAt : Int} {u : ApifyUsage} {finishedAt : Option Int}
    (ok : applyRead q resv run readAt u finishedAt config l = .ok (l',settled)) :
    ∃ entry row, l'.usageReads = l.usageReads ++ [entry] ∧ entry.reservation = q ∧ entry.readAt = readAt ∧
      entry.usageTotalUsd = u.usageTotalUsd.map providerFigure ∧ l'.reservations = l.reservations.set q row ∧
      (row = provisional resv u.usageTotalUsd ∨
        settlement config readAt (readsOf l' q) (provisional resv u.usageTotalUsd) (run.map Prod.fst) = some row) := by
  obtain ⟨⟨m,read⟩,appended,ok⟩ := bindOk.mp ok
  obtain ⟨n,save,tried⟩ := bindOk.mp ok
  obtain ⟨rows,entry,reads,key,stamp,total⟩ := appendReadSpec appended
  obtain ⟨_,rows',_,_,_,reads',_⟩ := saveReservationOk save
  obtain ⟨reads'',outcome⟩ := trySettleSpec tried
  have table : l'.usageReads = l.usageReads ++ [entry] := by rw [reads'',reads',reads]
  rcases outcome with ⟨rows'',_,_⟩ | ⟨row,_,rows'',settles⟩
  · exact ⟨entry,_,table,key,stamp,total,by rw [rows'',rows',rows],.inl rfl⟩
  · refine ⟨entry,row,table,key,stamp,total,by rw [rows'',rows',rows,List.set_set],.inr ?_⟩
    rw [readsSame reads'']
    exact settles
end

def raisedBy (resv : Reservation) (total : Option ℚ) : Reservation :=
  match total with
  | none => resv
  | some total =>
    if toLedger total ≤ resv.settledRunUsageUsd.getD 0 then resv else correctedRow resv (toLedger total)

inductive Written (c : UsageCall) (l l' : Ledger) : Prop where
  | idle (rows : l'.reservations = l.reservations) (reads : l'.usageReads = l.usageReads)
      (quiet : ∀ pk, c.heard pk l = none) (unmonitored : ∀ pk, c.monitored pk = none)
  | read {q resv entry row} {total : Option ℚ} (here : l.reservations[q]? = some resv)
      (wasOpen : resv.status.isOpen = true) (rows : l'.reservations = l.reservations.set q row)
      (reads : l'.usageReads = l.usageReads ++ [entry]) (key : entry.reservation = q) (stamp : entry.readAt = c.at_)
      (figure : entry.usageTotalUsd = total.map providerFigure)
      (hears : ∀ pk, c.heard pk l = if q = pk then total.map (⟨c.at_,·⟩) else none)
      (unmonitored : ∀ pk, c.monitored pk = none)
      (outcome : row = provisional resv total ∨
        settlement c.config c.at_ (readsOf l' q) (provisional resv total) (c.lockedRun l) = some row)
  | planned {q resv row} (here : l.reservations[q]? = some resv) (wasOpen : resv.status.isOpen = true)
      (rows : l'.reservations = l.reservations.set q row) (reads : l'.usageReads = l.usageReads)
      (quiet : ∀ pk, c.heard pk l = none) (unmonitored : ∀ pk, c.monitored pk = none)
      (outcome : (∃ polls next, row = { resv with runPollCount := polls, nextUsageReadAt := next }) ∨
        settlement c.config c.at_ (readsOf l' q) resv (c.lockedRun l) = some row)
  | begun {q resv count} (here : l.reservations[q]? = some resv) (reconciled : resv.status = .reconciled)
      (rows : l'.reservations = l.reservations.set q (beginRow { resv with correctionReadCount := count } c.at_))
      (reads : l'.usageReads = l.usageReads) (quiet : ∀ pk, c.heard pk l = none)
      (unmonitored : ∀ pk, c.monitored pk = none)
  | completed {q resv run read untilAt reconciledAt entries} {total : Option ℚ} (here : l.reservations[q]? = some resv)
      (due : resv.correctionMonitorUntil = some untilAt)
      (rows : l'.reservations = l.reservations.set q
        (completedRow (raisedBy resv total) run read untilAt reconciledAt c.at_ c.config))
      (reads : l'.usageReads = l.usageReads ++ entries) (quiet : ∀ pk, c.heard pk l = none)
      (monitored : ∀ pk, c.monitored pk = if q = pk then total else none)

section
variable {l l' : Ledger}

theorem reservationOfSame {m : Ledger} (same : m.reservations = l.reservations) (runPk : Nat) :
    m.reservationOf runPk = l.reservationOf runPk := by
  unfold Ledger.reservationOf
  rw [same]

theorem recordRunWritten {runPk : Nat} {run : ApifyRun} {readAt : Int} {config : LedgerConfig} {settled : Bool}
    (ok : recordRunUsage runPk run readAt config l = .ok (l',settled)) : Written
    (.recordRun runPk run readAt config) l l' := by
  obtain ⟨locked,lockedOk,ok⟩ := bindOk.mp ok
  have tripped := (tripWhenOnly (!(unexpectedComponents run.toApifyUsage).isEmpty)
    .unexpectedUsageComponent (some runPk)
    config readAt l).trans (tripWhenOnly (run.restartCount.any fun n => n != 0) .startOptionMismatch (some runPk)
      config readAt _)
  dsimp only at ok
  rw [reservationOfSame tripped.reservations] at ok
  split at ok
  · rename_i missing
    cases ok
    refine .idle tripped.reservations tripped.usageReads (fun pk => ?_) (fun _ => rfl)
    simp only [UsageCall.heard,missing,Option.any_none,Bool.false_eq_true,if_false]
  rename_i resv q found
  have here := (reservationOfSome found).1
  split at ok
  · rename_i wasOpen
    obtain ⟨entry,row,reads,key,stamp,figure,rows,outcome⟩ := applyReadSpec ok
    rw [tripped.usageReads] at reads
    rw [tripped.reservations] at rows
    refine .read here wasOpen rows reads key stamp figure (fun pk => ?_) (fun _ => rfl)
      (outcome.imp_right fun settles => ?_)
    · simp only [UsageCall.heard,found,Option.any_some,wasOpen,Bool.and_true,beq_iff_eq]
      rfl
    · change settlement config readAt _ _ l.runs[runPk]? = _
      rw [lockRunOk lockedOk]
      exact settles
  · rename_i closed
    cases ok
    refine .idle tripped.reservations tripped.usageReads (fun pk => ?_) (fun _ => rfl)
    simp only [UsageCall.heard,found,Option.any_some,closed,Bool.and_false,Bool.false_eq_true,if_false]

theorem recordBuildWritten {q : Nat} {build : ApifyBuild} {readAt : Int} {config : LedgerConfig} {settled : Bool}
    (ok : recordBuildUsage q build readAt config l = .ok (l',settled)) : Written
    (.recordBuild q build readAt config) l l' := by
  obtain ⟨resv,locked,ok⟩ := bindOk.mp ok
  have here := lockReservationOk locked
  have tripped := tripWhenOnly (!(unexpectedComponents build.toApifyUsage).isEmpty) .unexpectedUsageComponent none
    config readAt l
  dsimp only at ok
  split at ok
  · rename_i wasOpen
    obtain ⟨entry,row,reads,key,stamp,figure,rows,outcome⟩ := applyReadSpec ok
    rw [tripped.usageReads] at reads
    rw [tripped.reservations] at rows
    refine .read here wasOpen rows reads key stamp figure (fun pk => ?_) (fun _ => rfl) outcome
    simp only [UsageCall.heard,here,Option.any_some,wasOpen,and_true]
    rfl
  · rename_i closed
    cases ok
    refine .idle tripped.reservations tripped.usageReads (fun pk => ?_) (fun _ => rfl)
    simp only [UsageCall.heard,here,Option.any_some,closed,Bool.false_eq_true,and_false,if_false]

theorem planRunWritten {runPk : Nat} {now : Int} {config : LedgerConfig} {remote : Option String}
    (ok : planSettlementRead runPk now config l = .ok (l',remote)) : Written (.planRun runPk now config) l l' := by
  obtain ⟨run,locked,ok⟩ := bindOk.mp ok
  have idle : Written (.planRun runPk now config) l l := .idle rfl rfl (fun _ => rfl) (fun _ => rfl)
  have polled : ∀ run', Written (.planRun runPk now config) l (l.saveRun runPk run') :=
    fun _ => .idle rfl rfl (fun _ => rfl) (fun _ => rfl)
  split at ok
  · cases ok
    exact idle
  rename_i resv q found
  split at ok
  · cases ok
    exact idle
  rename_i wasOpen
  obtain ⟨⟨m,settled⟩,tried,planned⟩ := bindOk.mp ok
  obtain ⟨reads,outcome⟩ := trySettleSpec tried
  rcases outcome with ⟨_,rfl,rfl⟩ | ⟨row,rfl,rows,settles⟩
  · dsimp only at planned
    rw [if_neg (by decide)] at planned
    split at planned
    · split at planned
      · cases planned
        exact idle
      split at planned
      · cases planned
        exact polled _
      split at planned
      · cases planned
        exact idle
      · cases planned
        exact polled _
    · cases planned
      exact idle
  · dsimp only at planned
    rw [if_pos rfl] at planned
    cases planned
    refine .planned (reservationOfSome found).1 (by simpa using wasOpen) rows reads (fun _ => rfl)
      (fun _ => rfl) (.inr ?_)
    change settlement config now _ _ l.runs[runPk]? = _
    rw [lockRunOk locked,readsSame reads]
    exact settles

theorem planBuildWritten {q : Nat} {now : Int} {config : LedgerConfig} {remote : Option String}
    (ok : planBuildRead q now config l = .ok (l',remote)) : Written (.planBuild q now config) l l' := by
  obtain ⟨resv,locked,ok⟩ := bindOk.mp ok
  have here := lockReservationOk locked
  have idle : Written (.planBuild q now config) l l := .idle rfl rfl (fun _ => rfl) (fun _ => rfl)
  split at ok
  · cases ok
    exact idle
  split at ok
  · cases ok
    exact idle
  rename_i wasOpen
  obtain ⟨⟨m,settled⟩,tried,planned⟩ := bindOk.mp ok
  obtain ⟨reads,outcome⟩ := trySettleSpec tried
  have isOpen : resv.status.isOpen = true := by simpa using wasOpen
  rcases outcome with ⟨_,rfl,rfl⟩ | ⟨row,rfl,rows,settles⟩
  · dsimp only at planned
    rw [if_neg (by decide)] at planned
    split at planned
    · cases planned
      exact idle
    obtain ⟨n,save,done⟩ := bindOk.mp planned
    cases done
    obtain ⟨_,rows,_,_,_,reads,_⟩ := saveReservationOk save
    exact .planned here isOpen rows reads (fun _ => rfl) (fun _ => rfl) (.inl ⟨_,_,rfl⟩)
  · dsimp only at planned
    rw [if_pos rfl] at planned
    cases planned
    refine .planned here isOpen rows reads (fun _ => rfl) (fun _ => rfl) (.inr ?_)
    rw [readsSame reads]
    exact settles

theorem beginWritten {q : Nat} {now : Int} {config : LedgerConfig} {call : Option MonitorCall}
    (ok : beginMonitoringRead q now config l = .ok (l',call)) : Written (.beginRead q now config) l l' := by
  obtain ⟨resv,locked,ok⟩ := bindOk.mp ok
  have here := lockReservationOk locked
  have idle : Written (.beginRead q now config) l l := .idle rfl rfl (fun _ => rfl) (fun _ => rfl)
  dsimp only at ok
  split at ok
  · cases ok
    exact idle
  rename_i allowed
  have reconciled : resv.status = .reconciled := by
    by_contra other
    exact allowed (.inl other)
  split at ok
  · split at ok
    · cases ok
      exact idle
    obtain ⟨m,save,done⟩ := bindOk.mp ok
    cases done
    obtain ⟨_,rows,_,_,_,reads,_⟩ := saveReservationOk save
    exact .begun here reconciled rows reads (fun _ => rfl) (fun _ => rfl)
  · split at ok
    · cases ok
      exact idle
    obtain ⟨m,save,done⟩ := bindOk.mp ok
    cases done
    obtain ⟨_,rows,_,_,_,reads,_⟩ := saveReservationOk save
    exact .begun here reconciled rows reads (fun _ => rfl) (fun _ => rfl)

theorem correctionSpec {q : Nat} {stored : Reservation} {figure : Nat} {now : Int} {config : LedgerConfig}
    {run : Option Nat} (ok : applyCorrection q stored figure now config run l = .ok l') : l'.usageReads = l.usageReads ∧
      (figure ≤ stored.settledRunUsageUsd.getD 0 ∧ l'.reservations = l.reservations ∨
       l'.reservations = l.reservations.set q (correctedRow stored figure)) := by
  unfold applyCorrection at ok
  split at ok
  · rename_i low
    cases ok
    exact ⟨rfl,.inl ⟨low,rfl⟩⟩
  · obtain ⟨m,save,done⟩ := bindOk.mp ok
    cases done
    obtain ⟨_,rows,_,_,_,reads,_⟩ := saveReservationOk save
    have tripped := (tripWhenOnly
      (stored.estimateUsd.getD 0 < (correctedRow stored figure).actualUsd.getD 0) .overrun run
      config now m).trans (tripWhenOnly
        (!(invariantBreaches (correctedRow stored figure) config now
          (tripWhen (stored.estimateUsd.getD 0 < (correctedRow stored figure).actualUsd.getD 0) .overrun run config
            now m)).isEmpty)
        .postAdmissionInvariantBreach run config now _)
    exact ⟨tripped.usageReads.trans reads,.inr (tripped.reservations.trans rows)⟩

theorem latchOnResultOnly (result : Option MonitorResult) (run : Option Nat) (config : LedgerConfig) (now : Int)
    (l : Ledger) : LatchOnly l (latchOnResult result run config now l) := by
  unfold latchOnResult
  split
  · exact .refl l
  split
  · exact tripOnly _ _ _ _ _
  · exact tripWhenOnly _ _ _ _ _ _

theorem completeWritten {q : Nat} {result : Option MonitorResult} {now : Int} {config : LedgerConfig} {closed : Bool}
    (ok : completeMonitoringRead q result now config l = .ok (l',closed)) : Written
    (.completeRead q result now config) l l' := by
  obtain ⟨resv,locked,ok⟩ := bindOk.mp ok
  have here := lockReservationOk locked
  have latched := latchOnResultOnly result ((lockedRun l resv).map Prod.snd) config now l
  dsimp only at ok
  split at ok
  · rename_i untilAt reconciledAt due _
    split at ok
    · rename_i silent
      obtain ⟨m,save,done⟩ := bindOk.mp ok
      cases done
      obtain ⟨_,rows,_,_,_,reads,_⟩ := saveReservationOk save
      rw [latched.reservations] at rows
      rw [latched.usageReads,← List.append_nil l.usageReads] at reads
      refine @Written.completed _ _ _ q resv _ _ untilAt reconciledAt _ none here due rows reads (fun _ => rfl)
        (fun pk => ?_)
      simp only [UsageCall.monitored,silent,Option.map_none]
    · rename_i r total heard
      obtain ⟨⟨m,read⟩,appended,ok⟩ := bindOk.mp ok
      obtain ⟨n,corrected,ok⟩ := bindOk.mp ok
      obtain ⟨o,save,done⟩ := bindOk.mp ok
      cases done
      obtain ⟨filed,entry,table,_⟩ := appendReadSpec appended
      obtain ⟨kept,raised⟩ := correctionSpec corrected
      obtain ⟨_,rows,_,_,_,reads,_⟩ := saveReservationOk save
      have table' : l'.usageReads = l.usageReads ++ [entry] := by rw [reads,kept,table,latched.usageReads]
      have base : n.reservations.set q = l.reservations.set q := by
        funext row
        rcases raised with ⟨_,same⟩ | set
        · rw [same,filed,latched.reservations]
        · rw [set,filed,latched.reservations,List.set_set]
      rw [base] at rows
      refine @Written.completed _ _ _ q resv _ _ untilAt reconciledAt _ (some total) here due rows table' (fun _ => rfl)
        (fun pk => ?_)
      simp only [UsageCall.monitored,heard,Option.map_some]
  · cases ok

theorem commitWritten {c : UsageCall} (ok : c.commit l = .ok l') : Written c l l' := by
  cases c with
  | recordRun runPk run readAt config =>
    obtain ⟨⟨m,_⟩,done,rfl⟩ := mapOk ok
    exact recordRunWritten done
  | recordBuild q build readAt config =>
    obtain ⟨⟨m,_⟩,done,rfl⟩ := mapOk ok
    exact recordBuildWritten done
  | planRun runPk now config =>
    obtain ⟨⟨m,_⟩,done,rfl⟩ := mapOk ok
    exact planRunWritten done
  | planBuild q now config =>
    obtain ⟨⟨m,_⟩,done,rfl⟩ := mapOk ok
    exact planBuildWritten done
  | beginRead q now config =>
    obtain ⟨⟨m,_⟩,done,rfl⟩ := mapOk ok
    exact beginWritten done
  | completeRead q result now config =>
    obtain ⟨⟨m,_⟩,done,rfl⟩ := mapOk ok
    exact completeWritten done
end

theorem provisionalUnsettled {resv : Reservation} (unsettled : resv.Unsettled) (total : Option ℚ) :
    (provisional resv total).Unsettled ∧ (provisional resv total).executionBoundUsd = resv.executionBoundUsd := by
  cases total with
  | none => exact ⟨unsettled,rfl⟩
  | some total =>
    refine ⟨⟨?_,unsettled.monitor,unsettled.finalized⟩,rfl⟩
    unfold provisional
    dsimp only
    split
    · nofun
    · exact unsettled.status

theorem setRow {rows rows' : List Reservation} {q pk : Nat} {row resv new : Reservation} (here : rows[pk]? = some row)
    (found : rows[q]? = some resv) (set : rows' = rows.set q new) :
    rows'[pk]? = some (if q = pk then new else row) ∧ (q = pk → resv = row) := by
  have inside : q < rows.length := (List.getElem?_eq_some_iff.mp found).1
  rw [set]
  by_cases eq : q = pk
  · subst eq
    rw [List.getElem?_set_self inside,if_pos rfl]
    exact ⟨rfl,fun _ => Option.some.inj (found.symm.trans here)⟩
  · rw [List.getElem?_set_ne eq,if_neg eq]
    exact ⟨here,fun same => absurd same eq⟩

structure UnsettledStep (c : UsageCall) (pk : Nat) (l l' : Ledger) (row row' : Reservation) : Prop where
  unmonitored : c.monitored pk = none
  recorded : ∀ r ∈ readsOf l pk, r ∈ readsOf l' pk
  heard : ∀ reported ∈ c.heard pk l, ∃ r ∈ readsOf l' pk, r.readAt = reported.readAt ∧
    r.usageTotalUsd = some (providerFigure reported.total)
  outcome : (row'.Unsettled ∧ row'.executionBoundUsd = row.executionBoundUsd) ∨
    ∃ resv : Reservation, resv.Unsettled ∧ resv.executionBoundUsd = row.executionBoundUsd ∧
      settlement c.config c.at_ (readsOf l' pk) resv (c.lockedRun l) = some row'

section
variable {c : UsageCall} {pk : Nat} {l l' : Ledger} {row : Reservation}

theorem writtenUnsettled (written : Written c l l') (here : l.reservations[pk]? = some row)
    (unsettled : row.Unsettled) :
    ∃ row', l'.reservations[pk]? = some row' ∧ UnsettledStep c pk l l' row row' := by
  cases written with
  | idle rows reads quiet unmonitored =>
    refine ⟨row,by rw [rows]; exact here,unmonitored pk,?_,?_,.inl ⟨unsettled,rfl⟩⟩
    · intro r mem
      rwa [readsSame reads]
    · intro reported mem
      rw [quiet pk] at mem
      cases mem
  | @read q resv entry new total found wasOpen rows reads key stamp figure hears unmonitored outcome =>
    obtain ⟨here',same⟩ := setRow here found rows
    have grown : readsOf l' pk = readsOf l pk ++ [entry].filter fun r => r.reservation == pk := by
      rw [← readsAppend]
      exact readsSame reads pk
    refine ⟨_,here',unmonitored pk,fun r mem => by rw [grown]; exact List.mem_append_left _ mem,?_,?_⟩
    · intro reported mem
      rw [hears pk] at mem
      split at mem
      · rename_i eq
        obtain ⟨t,given,rfl⟩ := Option.map_eq_some_iff.mp mem
        refine ⟨entry,?_,stamp,by rw [figure,given]; rfl⟩
        rw [grown]
        refine List.mem_append_right _ (List.mem_filter.mpr ⟨List.mem_singleton_self _,?_⟩)
        rw [key,eq]
        exact beq_self_eq_true _
      · cases mem
    · split
      · rename_i eq
        subst eq
        obtain rfl := same rfl
        obtain ⟨still,bound⟩ := provisionalUnsettled unsettled total
        rcases outcome with rfl | settles
        · exact .inl ⟨still,bound⟩
        · exact .inr ⟨_,still,bound,settles⟩
      · exact .inl ⟨unsettled,rfl⟩
  | @planned q resv new found wasOpen rows reads quiet unmonitored outcome =>
    obtain ⟨here',same⟩ := setRow here found rows
    refine ⟨_,here',unmonitored pk,fun r mem => by rwa [readsSame reads],?_,?_⟩
    · intro reported mem
      rw [quiet pk] at mem
      cases mem
    · split
      · rename_i eq
        subst eq
        obtain rfl := same rfl
        rcases outcome with ⟨polls,next,rfl⟩ | settles
        · exact .inl ⟨⟨unsettled.status,unsettled.monitor,unsettled.finalized⟩,rfl⟩
        · exact .inr ⟨_,unsettled,rfl,settles⟩
      · exact .inl ⟨unsettled,rfl⟩
  | @begun q resv count found reconciled rows reads quiet unmonitored =>
    obtain ⟨here',same⟩ := setRow here found rows
    have other : q ≠ pk := fun eq => unsettled.status (same eq ▸ reconciled)
    rw [if_neg other] at here'
    refine ⟨row,here',unmonitored pk,fun r mem => by rwa [readsSame reads],?_,.inl ⟨unsettled,rfl⟩⟩
    intro reported mem
    rw [quiet pk] at mem
    cases mem
  | @completed q resv run read untilAt reconciledAt entries total found due rows reads quiet monitored =>
    obtain ⟨here',same⟩ := setRow here found rows
    have other : q ≠ pk := by
      intro eq
      rw [same eq,unsettled.monitor] at due
      cases due
    rw [if_neg other] at here'
    have grown : readsOf l' pk = readsOf l pk ++ entries.filter fun r => r.reservation == pk := by
      rw [← readsAppend]
      exact readsSame reads pk
    refine ⟨row,here',by rw [monitored pk,if_neg other],fun r mem => by rw [grown]; exact List.mem_append_left _ mem,?_,
      .inl ⟨unsettled,rfl⟩⟩
    intro reported mem
    rw [quiet pk] at mem
    cases mem

structure Raised (row row' : Reservation) (more : Nat) : Prop where
  status : row'.status = row.status
  usage : row'.settledRunUsageUsd = row.settledRunUsageUsd.map (· + more)
  actual : row'.actualUsd = row.actualUsd.map (· + more)
  post : row'.postRunCostUsd = row.postRunCostUsd
  basis : row'.settlementBasis = row.settlementBasis
  finalized : row'.usageFinalizedUsd = row.usageFinalizedUsd
  bound : row'.executionBoundUsd = row.executionBoundUsd

theorem Raised.refl (row : Reservation) : Raised row row 0 :=
  ⟨rfl,by simp,by simp,rfl,rfl,rfl,rfl⟩

theorem Raised.trans {a b c : Reservation} {more less : Nat} (first : Raised a b more) (second : Raised b c less) :
    Raised a c (more + less) where
  status := second.status.trans first.status
  usage := by rw [second.usage,first.usage,Option.map_map]; congr 1; funext n; simp only [Function.comp]; omega
  actual := by rw [second.actual,first.actual,Option.map_map]; congr 1; funext n; simp only [Function.comp]; omega
  post := second.post.trans first.post
  basis := second.basis.trans first.basis
  finalized := second.finalized.trans first.finalized
  bound := second.bound.trans first.bound

theorem completedRaised (row : Reservation) (run : Option ProviderRun) (read : Option Nat)
    (untilAt reconciledAt now : Int) (config : LedgerConfig) :
    Raised row (completedRow row run read untilAt reconciledAt now config) 0 := by
  simp only [completedRow]
  split
  · split
    · simp only [settleMonitoringAllowance]
      repeat' split
      all_goals exact ⟨rfl,by simp,by simp,rfl,rfl,rfl,rfl⟩
    · exact ⟨rfl,by simp,by simp,rfl,rfl,rfl,rfl⟩
  · exact ⟨rfl,by simp,by simp,rfl,rfl,rfl,rfl⟩

theorem raisedByRaised {usage actual : Nat} (settled : row.settledRunUsageUsd = some usage)
    (debited : row.actualUsd = some actual) (total : Option ℚ) : ∃ more, Raised row (raisedBy row total) more ∧
      ∀ t ∈ total, toLedger t ≤ usage + more := by
  cases total with
  | none => exact ⟨0,.refl row,nofun⟩
  | some total =>
    simp only [raisedBy,settled,Option.getD_some]
    split
    · rename_i low
      refine ⟨0,.refl row,fun t mem => ?_⟩
      cases mem
      exact low
    · refine ⟨toLedger total - usage,⟨rfl,?_,?_,rfl,rfl,rfl,rfl⟩,fun t mem => ?_⟩
      · simp only [correctedRow,settled,Option.map_some,Option.some.injEq]
        omega
      · simp only [correctedRow,settled,debited,Option.getD_some,Option.map_some]
      · cases mem
        omega

theorem writtenReconciled (written : Written c l l') (here : l.reservations[pk]? = some row)
    (reconciled : row.status = .reconciled) {usage actual : Nat} (settled : row.settledRunUsageUsd = some usage)
    (debited : row.actualUsd = some actual) : c.heard pk l = none ∧
      ∃ row' more, l'.reservations[pk]? = some row' ∧ Raised row row' more ∧
      ∀ t ∈ c.monitored pk, toLedger t ≤ usage + more := by
  have shut : row.status.isOpen = false := by rw [reconciled]; rfl
  cases written with
  | idle rows reads quiet unmonitored =>
    exact ⟨quiet pk,row,0,by rw [rows]; exact here,.refl row,by rw [unmonitored pk]; nofun⟩
  | @read q resv entry new total found wasOpen rows reads key stamp figure hears unmonitored outcome =>
    obtain ⟨here',same⟩ := setRow here found rows
    have other : q ≠ pk := fun eq => by rw [same eq,shut] at wasOpen; cases wasOpen
    rw [if_neg other] at here'
    exact ⟨by rw [hears pk,if_neg other],row,0,here',.refl row,by rw [unmonitored pk]; nofun⟩
  | @planned q resv new found wasOpen rows reads quiet unmonitored outcome =>
    obtain ⟨here',same⟩ := setRow here found rows
    have other : q ≠ pk := fun eq => by rw [same eq,shut] at wasOpen; cases wasOpen
    rw [if_neg other] at here'
    exact ⟨quiet pk,row,0,here',.refl row,by rw [unmonitored pk]; nofun⟩
  | @begun q resv count found reconciled rows reads quiet unmonitored =>
    obtain ⟨here',same⟩ := setRow here found rows
    refine ⟨quiet pk,_,0,here',?_,by rw [unmonitored pk]; nofun⟩
    split
    · rename_i eq
      obtain rfl := same eq
      exact ⟨rfl,by simp [beginRow],by simp [beginRow],rfl,rfl,rfl,rfl⟩
    · exact .refl row
  | @completed q resv run read untilAt reconciledAt entries total found due rows reads quiet monitored =>
    obtain ⟨here',same⟩ := setRow here found rows
    refine ⟨quiet pk,?_⟩
    rw [monitored pk]
    by_cases eq : q = pk
    · obtain rfl := same eq
      rw [if_pos eq] at here' ⊢
      obtain ⟨more,raised,covered⟩ := raisedByRaised settled debited total
      exact ⟨_,more,here',raised.trans (completedRaised _ _ _ _ _ _ _),covered⟩
    · rw [if_neg eq] at here' ⊢
      exact ⟨row,0,here',.refl row,nofun⟩
end

theorem foldMaxGe (totals : List ℚ) (start : ℚ) :
    start ≤ totals.foldl max start ∧ ∀ total ∈ totals, total ≤ totals.foldl max start := by
  induction totals generalizing start with
  | nil => exact ⟨le_rfl,nofun⟩
  | cons total totals ih =>
    obtain ⟨above,rest⟩ := ih (max start total)
    refine ⟨(le_max_left _ _).trans above,fun other mem => ?_⟩
    rcases List.mem_cons.mp mem with rfl | tail
    · exact (le_max_right _ _).trans above
    · exact rest other tail

theorem maxGe {totals : List ℚ} {total : ℚ} (mem : total ∈ totals) : total ≤ totals.max?.getD 0 := by
  cases most : totals.max? with
  | none =>
    rw [List.max?_eq_none_iff.mp most] at mem
    cases mem
  | some top => exact (List.max?_le_iff most).mp le_rfl total mem

theorem settlingEvidence {config : LedgerConfig} {now deadline from_ : Int} {execution : Nat} {capSpent : Bool}
    {reads : List UsageRead} {s : Settling}
    (settles : settling config now deadline from_ execution capSpent reads = some s) :
    (s.basis = .bound ∨ s.basis = .boundUnfinalized → usd execution ≤ s.settled ∧
      ∀ r ∈ reads, ∀ total ∈ r.usageTotalUsd, total ≤ s.settled) ∧
    (s.basis = .stableReads → ∀ r ∈ reads, from_ ≤ r.readAt → ∀ total ∈ r.usageTotalUsd, total ≤ s.settled) := by
  have atBound : usd execution ≤ (reads.filterMap UsageRead.usageTotalUsd).foldl max (usd execution) ∧
      ∀ r ∈ reads, ∀ total ∈ r.usageTotalUsd, total ≤ (reads.filterMap UsageRead.usageTotalUsd).foldl max
        (usd execution) := by
    obtain ⟨above,rest⟩ := foldMaxGe (reads.filterMap UsageRead.usageTotalUsd) (usd execution)
    exact ⟨above,fun r mem total figure => rest total (List.mem_filterMap.mpr ⟨r,mem,figure⟩)⟩
  unfold settling at settles
  dsimp only at settles
  split at settles
  · rename_i early
    cases settles
    split at early
    · obtain ⟨_,_,rfl⟩ := Option.map_eq_some_iff.mp early
      refine ⟨(by rintro (h | h) <;> cases h),fun _ r mem late total figure => maxGe ?_⟩
      exact List.mem_filterMap.mpr ⟨r,List.mem_filter.mpr ⟨mem,by simpa using late⟩,figure⟩
    · split at early
      · cases early
        exact ⟨fun _ => atBound,nofun⟩
      · cases early
  · split at settles
    · cases settles
      exact ⟨fun _ => atBound,nofun⟩
    · cases settles

structure Evidence (reads : List UsageRead) (from_ : Option Int) (row : Reservation) (usage post : Nat) : Prop where
  status : row.status = .reconciled
  settledUsage : row.settledRunUsageUsd = some usage
  postRunCost : row.postRunCostUsd = some post
  actual : row.actualUsd = some (usage + post)
  based : row.settlementBasis ≠ none
  bound : row.settlementBasis = some .bound ∨ row.settlementBasis = some .boundUnfinalized →
    row.executionBoundUsd.getD 0 ≤ usage ∧ ∀ r ∈ reads, ∀ total ∈ r.usageTotalUsd, toLedger total ≤ usage
  stable : row.settlementBasis = some .stableReads → ∃ at_, from_ = some at_ ∧
    ∀ r ∈ reads, at_ ≤ r.readAt → ∀ total ∈ r.usageTotalUsd, toLedger total ≤ usage

theorem settlementEvidence {config : LedgerConfig} {now : Int} {reads : List UsageRead} {resv row : Reservation}
    {run : Option ProviderRun} (settles : settlement config now reads resv run = some row) :
    row.executionBoundUsd = resv.executionBoundUsd ∧ ∃ usage post,
      Evidence reads ((anchor reads run).bind fun at_ => (eligibleFrom at_ config).toOption) row usage post := by
  obtain ⟨_,anchorAt,from_,_,window,_,s,anchored,times,settled,rfl⟩ := settlementFrom settles
  obtain ⟨bound,stable⟩ := settlingEvidence settled
  obtain ⟨eligible,eligibleOk,rest⟩ := bindOk.mp times
  obtain ⟨_,_,rest⟩ := bindOk.mp rest
  obtain ⟨_,_,rest⟩ := bindOk.mp rest
  cases rest
  refine ⟨rfl,toLedger s.settled,(postRunCost resv run config).1,⟨rfl,rfl,rfl,rfl,nofun,?_,?_⟩⟩
  · intro basis
    obtain ⟨execution,totals⟩ := bound (basis.imp Option.some.inj Option.some.inj)
    refine ⟨?_,fun r mem total figure => toLedgerMono (totals r (List.mem_mergeSort.mpr mem) total figure)⟩
    have le := toLedgerMono execution
    rwa [toLedgerUsd] at le
  · intro basis
    refine ⟨from_,by rw [anchored,Option.bind_some,eligibleOk]; rfl,fun r mem late total figure => toLedgerMono ?_⟩
    exact stable (Option.some.inj basis) r (List.mem_mergeSort.mpr mem) late total figure

structure Watched.Settled (w : Watched) (row : Reservation) (usage post : Nat) : Prop where
  status : row.status = .reconciled
  settledUsage : row.settledRunUsageUsd = some usage
  postRunCost : row.postRunCostUsd = some post
  actual : row.actualUsd = some (usage + post)
  monitored : ∀ total ∈ w.after, total ≤ usd usage
  based : row.settlementBasis ≠ none
  bound : row.settlementBasis = some .bound ∨ row.settlementBasis = some .boundUnfinalized →
    row.executionBoundUsd.getD 0 ≤ usage ∧ ∀ reported ∈ w.before, toLedger (providerFigure reported.total) ≤ usage
  stable : row.settlementBasis = some .stableReads → ∃ at_, w.eligibleFrom = some at_ ∧
    ∀ reported ∈ w.before, at_ ≤ reported.readAt → toLedger (providerFigure reported.total) ≤ usage

structure Watched.Waiting (w : Watched) (pk : Nat) (row : Reservation) : Prop where
  unsettled : row.Unsettled
  unmonitored : w.after = []
  unplaced : w.eligibleFrom = none
  recorded : ∀ reported ∈ w.before, ∃ r ∈ readsOf w.ledger pk, r.readAt = reported.readAt ∧
    r.usageTotalUsd = some (providerFigure reported.total)

def Watched.Sound (pk : Nat) (w : Watched) : Prop :=
  ∃ row, w.ledger.reservations[pk]? = some row ∧ (w.Waiting pk row ∨ ∃ usage post, w.Settled row usage post)

section
variable {pk : Nat} {w w' : Watched} {row : Reservation}

theorem settledBy {c : UsageCall} {l' : Ledger} {row' resv : Reservation} (waiting : w.Waiting pk row)
    (here : w.ledger.reservations[pk]? = some row) (here' : l'.reservations[pk]? = some row')
    (recorded : ∀ r ∈ readsOf w.ledger pk, r ∈ readsOf l' pk)
    (heard : ∀ reported ∈ c.heard pk w.ledger, ∃ r ∈ readsOf l' pk, r.readAt = reported.readAt ∧
      r.usageTotalUsd = some (providerFigure reported.total))
    (settles : settlement c.config c.at_ (readsOf l' pk) resv (c.lockedRun w.ledger) = some row') :
    ∃ usage post, Watched.Settled ⟨l',w.before ++ (c.heard pk w.ledger).toList,[],
      w.eligibleFrom.or (c.settledFrom pk w.ledger l')⟩ row' usage post := by
  obtain ⟨_,usage,post,evidence⟩ := settlementEvidence settles
  have from_ : w.eligibleFrom.or (c.settledFrom pk w.ledger l') =
      (anchor (readsOf l' pk) (c.lockedRun w.ledger)).bind fun at_ => (eligibleFrom at_ c.config).toOption := by
    rw [waiting.unplaced,Option.none_or]
    unfold UsageCall.settledFrom
    have before : (row.status != .reconciled) = true := by simpa using waiting.unsettled.status
    rw [here,here',Option.any_some,Option.any_some,before,evidence.status]
    rfl
  have known : ∀ reported ∈ w.before ++ (c.heard pk w.ledger).toList, ∃ r ∈ readsOf l' pk,
      r.readAt = reported.readAt ∧ r.usageTotalUsd = some (providerFigure reported.total) := by
    intro reported mem
    rcases List.mem_append.mp mem with old | new
    · obtain ⟨r,held,facts⟩ := waiting.recorded reported old
      exact ⟨r,recorded r held,facts⟩
    · exact heard reported (Option.mem_toList.mp new)
  refine ⟨usage,post,evidence.status,evidence.settledUsage,evidence.postRunCost,evidence.actual,nofun,
    evidence.based,?_,?_⟩
  · intro basis
    obtain ⟨execution,totals⟩ := evidence.bound basis
    refine ⟨execution,fun reported mem => ?_⟩
    obtain ⟨r,held,_,figure⟩ := known reported mem
    exact totals r held _ figure
  · intro basis
    obtain ⟨at_,placed,totals⟩ := evidence.stable basis
    refine ⟨at_,from_.trans placed,fun reported mem late => ?_⟩
    obtain ⟨r,held,stamp,figure⟩ := known reported mem
    exact totals r held (stamp ▸ late) _ figure

theorem raisedSettled {usage post more : Nat} {row' : Reservation} {l' : Ledger} {totals : List ℚ} {from_ : Option Int}
    (settled : w.Settled row usage post) (raised : Raised row row' more)
    (covered : ∀ total ∈ totals, toLedger total ≤ usage + more)
    (placed : ∀ at_, w.eligibleFrom = some at_ → from_ = some at_) :
    Watched.Settled ⟨l',w.before,w.after ++ totals,from_⟩ row' (usage + more) post where
  status := raised.status.trans settled.status
  settledUsage := by rw [raised.usage,settled.settledUsage]; rfl
  postRunCost := raised.post.trans settled.postRunCost
  actual := by rw [raised.actual,settled.actual,Option.map_some]; congr 1; omega
  monitored total mem := by
    rcases List.mem_append.mp mem with old | new
    · exact (settled.monitored total old).trans (usdLe.mpr (Nat.le_add_right _ _))
    · exact (toLedgerCovers total).trans (usdLe.mpr (covered total new))
  based := by rw [raised.basis]; exact settled.based
  bound basis := by
    rw [raised.basis] at basis
    obtain ⟨execution,reported⟩ := settled.bound basis
    rw [raised.bound]
    exact ⟨execution.trans (Nat.le_add_right _ _),fun r mem => (reported r mem).trans (Nat.le_add_right _ _)⟩
  stable basis := by
    rw [raised.basis] at basis
    obtain ⟨at_,eligible,reported⟩ := settled.stable basis
    exact ⟨at_,placed at_ eligible,fun r mem late => (reported r mem late).trans (Nat.le_add_right _ _)⟩

theorem settledStep {a : Option UsageCall} {usage post : Nat} (here : w.ledger.reservations[pk]? = some row)
    (settled : w.Settled row usage post) (step : Watched.Step pk w a w') :
    ∃ row' more, w'.ledger.reservations[pk]? = some row' ∧ Raised row row' more ∧ w'.Settled row'
    (usage + more) post := by
  cases step with
  | @call c l' ok =>
    obtain ⟨quiet,row',more,here',raised,covered⟩ :=
      writtenReconciled (commitWritten ok) here settled.status settled.settledUsage settled.actual
    refine ⟨row',more,here',raised,?_⟩
    rw [quiet,Option.toList_none,List.append_nil]
    refine raisedSettled settled raised (fun total mem => covered total (Option.mem_toList.mp mem)) fun at_
      eligible => ?_
    rw [eligible,Option.some_or]
  | rolledBack failed => exact ⟨row,0,here,.refl row,settled⟩
  | @elsewhere l' kept =>
    rcases kept.2 with same | ⟨old,new,found,_,unsettled,_⟩
    · refine ⟨row,0,same.trans here,.refl row,?_⟩
      have kept := @raisedSettled w row usage post 0 row l' [] w.eligibleFrom settled (.refl row) nofun fun _ h => h
      rwa [List.append_nil] at kept
    · obtain rfl := Option.some.inj (here.symm.trans found)
      exact absurd settled.status unsettled.status

theorem waitingStep {a : Option UsageCall} (here : w.ledger.reservations[pk]? = some row) (waiting : w.Waiting pk row)
    (step : Watched.Step pk w a w') : w'.Sound pk := by
  cases step with
  | @call c l' ok =>
    obtain ⟨row',here',unmonitored,recorded,heard,outcome⟩ := writtenUnsettled (commitWritten ok) here waiting.unsettled
    refine ⟨row',here',?_⟩
    rw [unmonitored,waiting.unmonitored]
    rcases outcome with ⟨still,_⟩ | ⟨resv,_,_,settles⟩
    · refine .inl ⟨still,rfl,?_,fun reported mem => ?_⟩
      · have after : ((l'.reservations[pk]?).any fun row => row.status == .reconciled) = false := by
          rw [here',Option.any_some]
          simpa using still.status
        simp only [UsageCall.settledFrom,after,Bool.and_false,Bool.false_eq_true,if_false,waiting.unplaced,
          Option.none_or]
      · rcases List.mem_append.mp mem with old | new
        · obtain ⟨r,held,facts⟩ := waiting.recorded reported old
          exact ⟨r,recorded r held,facts⟩
        · exact heard reported (Option.mem_toList.mp new)
    · exact .inr (settledBy waiting here here' recorded heard settles)
  | rolledBack failed => exact ⟨row,here,.inl waiting⟩
  | @elsewhere l' kept =>
    obtain ⟨reads,rows⟩ := kept
    have recorded : ∀ reported ∈ w.before, ∃ r ∈ readsOf l' pk, r.readAt = reported.readAt ∧
        r.usageTotalUsd = some (providerFigure reported.total) := by
      rw [reads]
      exact waiting.recorded
    rcases rows with same | ⟨old,new,_,here',_,still,_⟩
    · exact ⟨row,same.trans here,.inl ⟨waiting.unsettled,waiting.unmonitored,waiting.unplaced,recorded⟩⟩
    · exact ⟨new,here',.inl ⟨still,waiting.unmonitored,waiting.unplaced,recorded⟩⟩

theorem watchedStep {a : Option UsageCall} (sound : w.Sound pk) (step : Watched.Step pk w a w') : w'.Sound pk := by
  obtain ⟨row,here,waiting | ⟨usage,post,settled⟩⟩ := sound
  · exact waitingStep here waiting step
  · obtain ⟨row',more,here',_,settled'⟩ := settledStep here settled step
    exact ⟨row',here',.inr ⟨_,_,settled'⟩⟩

theorem settledRun {calls : List (Option UsageCall)} {usage post : Nat} (run : Runs (Watched.Step pk) w calls w')
    (here : w.ledger.reservations[pk]? = some row) (settled : w.Settled row usage post) :
    ∃ row' more, w'.ledger.reservations[pk]? = some row' ∧ Raised row row' more ∧ w'.Settled row'
    (usage + more) post := by
  induction run generalizing row usage with
  | nil s => exact ⟨row,0,here,.refl row,settled⟩
  | cons head tail ih =>
    obtain ⟨mid,more,here',raised,settled'⟩ := settledStep here settled head
    obtain ⟨last,less,there,raised',settled''⟩ := ih here' settled'
    exact ⟨last,more + less,there,raised.trans raised',by rw [← Nat.add_assoc]; exact settled''⟩
end

def Reported.Kept (reported : Reported) : Prop := reported.total ≤ usd (toLedger (providerFigure reported.total))

def Watched.Dominates (w : Watched) (row : Reservation) (usage : Nat) : Prop :=
  (row.settlementBasis = some .bound ∨ row.settlementBasis = some .boundUnfinalized →
    ∀ reported ∈ w.before, reported.total ≤ usd usage) ∧
  (row.settlementBasis = some .stableReads →
    ∀ at_ ∈ w.eligibleFrom, ∀ reported ∈ w.before, at_ ≤ reported.readAt → reported.total ≤ usd usage)

theorem settledDominates {w : Watched} {row : Reservation} {usage post : Nat} (settled : w.Settled row usage post)
    (kept : ∀ reported ∈ w.before, reported.Kept) : w.Dominates row usage := by
  constructor
  · intro basis reported mem
    exact (kept reported mem).trans (usdLe.mpr ((settled.bound basis).2 reported mem))
  · intro basis at_ eligible reported mem late
    obtain ⟨placed,same,totals⟩ := settled.stable basis
    obtain rfl := Option.some.inj (same.symm.trans eligible)
    exact (kept reported mem).trans (usdLe.mpr (totals reported mem late))

theorem settledAmounts {pk : Nat} {w w' : Watched} {calls : List (Option UsageCall)} {row : Reservation}
    (run : Runs (Watched.Step pk) w calls w') (start : w.ledger.reservations[pk]? = some row)
    (unsettled : row.Unsettled) (fresh : w.before = [] ∧ w.after = [] ∧ w.eligibleFrom = none) {row' : Reservation}
    (here : w'.ledger.reservations[pk]? = some row') (reconciled : row'.status = .reconciled) :
    ∃ usage post, w'.Settled row' usage post ∧ ((∀ reported ∈ w'.before, reported.Kept) → w'.Dominates row' usage) ∧
      ∀ calls' w'', Runs (Watched.Step pk) w' calls' w'' →
        ∃ row'' more, w''.ledger.reservations[pk]? = some row'' ∧ Raised row' row'' more ∧ w''.Settled row''
        (usage + more) post := by
  obtain ⟨none_,silent,unplaced⟩ := fresh
  have first : w.Sound pk := ⟨row,start,.inl ⟨unsettled,silent,unplaced,by rw [none_]; nofun⟩⟩
  obtain ⟨last,there,waiting | ⟨usage,post,settled⟩⟩ := run.invariant (Watched.Sound pk) watchedStep first
  · obtain rfl := Option.some.inj (here.symm.trans there)
    exact absurd reconciled waiting.unsettled.status
  · obtain rfl := Option.some.inj (here.symm.trans there)
    exact ⟨usage,post,settled,settledDominates settled,fun _ _ more => settledRun more here settled⟩

def reportOf (total : ℚ) : ApifyRun := ⟨⟨some total,none,none,[],none⟩,none⟩

def openLedger : Ledger where
  cycles := []
  authority := []
  reservations := [cappedRow fullRows fullEstimate]
  runs := [{ cappedRun with externalRunId := some "run1" }]
  usageReads := []
  latches := []
  rowsChecked row mem := by
    rw [List.mem_singleton.mp mem]
    exact (checkedIff _).mp (by decide +kernel)

def openWatch : Watched := ⟨openLedger,[],[],none⟩

def fineCall : UsageCall := .recordRun 0 (reportOf (1 + 1 / 100000000000)) (hours 720) verifiedConfig

def Watched.next (w : Watched) (c : UsageCall) : Watched :=
  let l' := committed w.ledger (c.commit w.ledger)
  ⟨l',w.before ++ (c.heard 0 w.ledger).toList,w.after ++ (c.monitored 0).toList,
    w.eligibleFrom.or (c.settledFrom 0 w.ledger l')⟩

theorem nextStep {w : Watched} {c : UsageCall} (ok : succeeds (c.commit w.ledger) = true) :
    Watched.Step 0 w (some c) (w.next c) := .call (committedOk ok)

theorem openUnsettled : (cappedRow fullRows fullEstimate).Unsettled :=
  ⟨(by decide +kernel),rfl,rfl⟩

theorem fineFigureLost : ∃ row usage reported, (cappedRow fullRows fullEstimate).Unsettled ∧
    openWatch.ledger.reservations[0]? = some (cappedRow fullRows fullEstimate) ∧
    Runs (Watched.Step 0) openWatch [some fineCall] (openWatch.next fineCall) ∧
    (openWatch.next fineCall).ledger.reservations[0]? = some row ∧ row.status = .reconciled ∧
    row.settlementBasis = some .bound ∧ row.settledRunUsageUsd = some usage ∧
    reported ∈ (openWatch.next fineCall).before ∧ usd usage < Reported.total reported :=
  ⟨((openWatch.next fineCall).ledger.reservations[0]?).get (by decide +kernel),10000,⟨hours 720,1 + 1 / 100000000000⟩,
    openUnsettled,rfl,.single (nextStep (by decide +kernel)),(Option.some_get _).symm,by decide +kernel,
      by decide +kernel,
    by decide +kernel,by decide +kernel,by decide +kernel⟩

def dueCall : UsageCall := .recordRun 0 (reportOf 1) (hours 720) verifiedConfig
def beginCall : UsageCall := .beginRead 0 (hours 721) verifiedConfig
def raiseCall : UsageCall :=
  .completeRead 0 (some ⟨(reportOf (1 + 1 / 100000)).toApifyUsage,false⟩) (hours 722) verifiedConfig

theorem raisedByLaterRead : ∃ row usage post, ((openWatch.next dueCall).next beginCall).next raiseCall |>.Settled row
    usage post := by
  have run : Runs (Watched.Step 0) openWatch [some dueCall,some beginCall,some raiseCall]
      (((openWatch.next dueCall).next beginCall).next raiseCall) :=
    .cons (nextStep (by decide +kernel)) (.cons (nextStep (by decide +kernel)) (.single (nextStep (by decide +kernel))))
  obtain ⟨usage,post,settled,_⟩ := settledAmounts run rfl openUnsettled ⟨rfl,rfl,rfl⟩
    (Option.some_get (show ((((openWatch.next dueCall).next beginCall).next raiseCall).ledger.reservations[0]?).isSome =
      true by
      decide +kernel)).symm (by decide +kernel)
  exact ⟨_,usage,post,settled⟩

end HwRadar.Apify
