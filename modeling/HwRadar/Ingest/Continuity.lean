import HwRadar.Ingest.Effects

/-! Polling continuity of one scope. The start kept on its row stands for a whole chain
of recorded sweeps, each within the tolerance of the one before, and every break applied
so far lies before it; so a stale absence is only ever inferred across unbroken polling. -/
namespace HwRadar.Ingest
open HwRadar.Base HwRadar.Base.Calendar

inductive Unbroken (recorded : List (Int × Int)) : Int → Int → Prop where
  | first {t tolerance} (mem : (t,tolerance) ∈ recorded) : Unbroken recorded t t
  | next {c s t tolerance} (before : Unbroken recorded c s) (mem : (t,tolerance) ∈ recorded) (order : s ≤ t)
      (gap : t - s ≤ tolerance) : Unbroken recorded c t

theorem Unbroken.more {recorded more : List (Int × Int)} {c t : Int} (run : Unbroken recorded c t)
    (subset : recorded ⊆ more) : Unbroken more c t := by
  induction run with
  | first mem => exact .first (subset mem)
  | next _ mem order gap ih => exact .next ih (subset mem) order gap

theorem Unbroken.order {recorded : List (Int × Int)} {c t : Int} (run : Unbroken recorded c t) : c ≤ t := by
  induction run with
  | first => exact le_rfl
  | next _ _ order _ ih => exact ih.trans order

structure Polled where
  market : Market
  recorded : List (Int × Int)
  breaks : List Int

def recordedBy (scope : String) (m : Market) : IngestAct → List (Int × Int)
  | .absence report _ =>
    if report.scopeKey = some scope ∧ report.call.eligible = true then
      let row := ((m.ensureWatermarkRows [report.scopeKey,none]).scopeRow scope).getD .unset
      if (row.record row.lastEligibleSweepAt (tolerance m.lane) report.eventTime).2.isSome then
        [(report.eventTime,tolerance m.lane)]
      else []
    else []
  | _ => []

def breaksBy (scope : String) : IngestAct → List Int
  | .absence report _ => if report.scopeKey = some scope ∧ report.call.eligible = false then [report.eventTime] else []
  | .rejected eventTime key => if key = scope then [eventTime] else []
  | _ => []

def Polled.Step (scope : String) (s : Polled) (act : IngestAct) (s' : Polled) : Prop :=
  IngestStep s.market act s'.market ∧ s'.recorded = s.recorded ++ recordedBy scope s.market act ∧
    s'.breaks = s.breaks ++ breaksBy scope act

structure Vouched (recorded : List (Int × Int)) (breaks : List Int) (row : SweepRow) : Prop where
  breaksKept : ∀ b ∈ breaks, ∃ broken, row.continuityBrokenAt = some broken ∧ b ≤ broken
  polled : ∀ c, row.continuousSince = some c → ∃ last, row.lastEligibleSweepAt = some last ∧ Unbroken recorded c last
  later : ∀ c broken, row.continuousSince = some c → row.continuityBrokenAt = some broken → broken < c

section
variable {recorded : List (Int × Int)} {breaks : List Int} {row : SweepRow} {t : Int}

theorem vouchedUnset : Vouched [] [] .unset := ⟨nofun,nofun,nofun⟩

theorem vouchedRecord (tolerance t : Int) (holds : Vouched recorded breaks row) :
    Vouched (recorded ++ if (row.record row.lastEligibleSweepAt tolerance t).2.isSome then [(t,tolerance)] else [])
      breaks (row.record row.lastEligibleSweepAt tolerance t).1 ∧
    ∀ c, (row.record row.lastEligibleSweepAt tolerance t).2 = some c →
      (row.record row.lastEligibleSweepAt tolerance t).1.continuousSince = some c ∧
      (row.record row.lastEligibleSweepAt tolerance t).1.lastEligibleSweepAt = some t := by
  simp only [SweepRow.record]
  split
  · simpa using holds
  · rename_i unbroken
    split
    · simpa using holds
    · rename_i inOrder
      simp only [Option.isSome_some,if_true]
      have fresh : (t,tolerance) ∈ recorded ++ [(t,tolerance)] := by simp
      have after : ∀ broken, row.continuityBrokenAt = some broken → broken < t := by
        intro broken is
        simpa [is] using unbroken
      refine ⟨⟨holds.breaksKept,?_,?_⟩,fun c is => ⟨is,trivial⟩⟩
      · intro c is
        refine ⟨t,rfl,?_⟩
        cases since : row.continuousSince with
        | none =>
          simp only [since,Option.some.injEq] at is
          exact is ▸ .first fresh
        | some started =>
          obtain ⟨last,lastIs,chain⟩ := holds.polled started since
          have order : last ≤ t := by simpa [lastIs] using inOrder
          simp only [since,lastIs,Option.some.injEq] at is
          split at is
          · exact is ▸ .first fresh
          · rename_i within
            exact is ▸ .next (chain.more (by simp)) fresh order (not_lt.mp within)
      · intro c broken is brokenIs
        simp only [Option.some.injEq] at is
        rw [← is]
        split
        · rename_i started last sinceIs lastIs
          split
          · exact after broken brokenIs
          · exact holds.later started broken sinceIs brokenIs
        · exact after broken brokenIs

theorem vouchedBroken (holds : Vouched recorded breaks row) :
    Vouched recorded (breaks ++ [t]) (row.broken t) := by
  refine ⟨?_,nofun,nofun⟩
  intro b mem
  simp only [SweepRow.broken,raised]
  rcases List.mem_append.mp mem with old | new
  · obtain ⟨broken,is,le⟩ := holds.breaksKept b old
    exact ⟨max broken t,by simp [is],le.trans (le_max_left _ _)⟩
  · cases List.mem_singleton.mp new
    cases is : row.continuityBrokenAt with
    | none => exact ⟨t,rfl,le_rfl⟩
    | some broken => exact ⟨max broken t,rfl,le_max_right _ _⟩

theorem vouchedRaised (holds : Vouched recorded breaks row) : Vouched recorded breaks (row.raiseCompleteSweep t) :=
  ⟨holds.breaksKept,holds.polled,holds.later⟩
end

def Kept (scope : String) (recorded : List (Int × Int)) (breaks : List Int) (m : Market) : Prop :=
  Vouched recorded breaks ((m.scopeRow scope).getD .unset)

section
variable {scope : String} {recorded : List (Int × Int)} {breaks : List Int} {m m' : Market} {t : Int}
  {key : Option String} {previousRun since : Option Int}

theorem ensuredDefault (keys : List (Option String)) :
    ((m.ensureWatermarkRows keys).scopeRow scope).getD .unset = (m.scopeRow scope).getD .unset := by
  rcases ensuredRows m scope keys with same | ⟨absent,fresh⟩
  · rw [same]
  · rw [absent,fresh]; rfl

theorem keptBreak (holds : Kept scope recorded breaks m) (done : breakContinuity t (some scope) m = some m') :
    Kept scope recorded (breaks ++ [t]) m' := by
  obtain ⟨row,here,next⟩ := breakHere done
  simp only [Kept,here,next,Option.getD_some] at holds ⊢
  exact vouchedBroken holds

theorem keptRaise (gated : DelistScope) (holds : Kept scope recorded breaks m) :
    Kept scope recorded breaks (raiseCompleteSweep gated key m) := by
  simp only [raiseCompleteSweep]
  split
  · exact holds
  · split
    · exact holds
    · rename_i row here
      by_cases own : (gated.scopeKey.bind fun _ => key) = some scope
      · rw [own] at here ⊢
        have same : m.scopeRow scope = some row := here
        have next := saveSweepHere (row.raiseCompleteSweep gated.observedAt) here
        simp only [Market.sweepRow] at next
        simp only [Kept,same,next,Option.getD_some] at holds ⊢
        exact vouchedRaised holds
      · have next := @saveSweepElse m (some scope) _ (row.raiseCompleteSweep gated.observedAt) own
        simp only [Market.sweepRow] at next
        simp only [Kept,next] at holds ⊢
        exact holds

end

section
variable {call : AbsenceCall} {previousRun : Option Int} {m m' : Market}

theorem AbsenceParts.marksKept {scope : String} {recorded : List (Int × Int)} {breaks : List Int}
    (parts : AbsenceParts call previousRun m m') (holds : Kept scope recorded breaks parts.own) :
    Kept scope recorded breaks m' := by
  have nulled : Kept scope recorded breaks parts.marked := by
    rcases parts.second with same | ⟨_,breaks⟩
    · rw [same]; exact holds
    · have rows : parts.marked.scopeRow scope = parts.own.scopeRow scope := breakElse breaks nofun
      simp only [Kept,rows]
      exact holds
  rcases parts.third with ⟨_,same⟩ | ⟨gated,_,is⟩
  · rw [same]; exact nulled
  · have delisted : Kept scope recorded breaks (applyDelist gated parts.since parts.marked).1 := by
      simp only [Kept,Market.scopeRow,delistRows]
      exact nulled
    rw [is]
    split
    · exact keptRaise gated delisted
    · exact delisted
end

section
variable {scope : String} {s s' : Polled} {act : IngestAct}

theorem absenceOwn {report : SweepReport} {previousRun : Option Int} {m' : Market}
    (holds : Kept scope s.recorded s.breaks s.market) (own : report.scopeKey = some scope)
    (parts : AbsenceParts report.call previousRun (s.market.ensureWatermarkRows [report.scopeKey,none]) m') :
    Kept scope (s.recorded ++ recordedBy scope s.market (.absence report previousRun))
      (s.breaks ++ breaksBy scope (.absence report previousRun)) parts.own ∧
    ∀ c, parts.since = some c → report.call.eligible = true ∧
      ∃ row, parts.own.scopeRow scope = some row ∧ row.continuousSince = some c ∧
        row.lastEligibleSweepAt = some report.eventTime := by
  have swept : report.call.sweptScopeKey = some scope := own
  have time : report.call.eventTime = report.eventTime := rfl
  have first := parts.first
  rw [swept,time] at first
  split at first
  · rename_i eligible
    obtain ⟨row,here,next,since,_⟩ := recordHere first
    have before : row = (s.market.scopeRow scope).getD .unset := by
      rw [← ensuredDefault [report.scopeKey,none],here]; rfl
    have vouched : Vouched s.recorded s.breaks row := before ▸ holds
    obtain ⟨kept,taken⟩ := vouchedRecord (tolerance s.market.lane) report.eventTime vouched
    have lane : (s.market.ensureWatermarkRows [report.scopeKey,none]).lane = s.market.lane := rfl
    rw [lane] at next since
    constructor
    · simp only [Kept,next,Option.getD_some,recordedBy,own,eligible,and_self,if_true,breaksBy,reduceCtorEq,and_false,
        if_false,List.append_nil]
      simpa [own ▸ here] using kept
    · intro c is
      obtain ⟨started,ended⟩ := taken c (since ▸ is)
      exact ⟨eligible,_,next,started,ended⟩
  · rename_i ineligible
    obtain ⟨breaks,unproven⟩ := first
    have unrecorded : Kept scope s.recorded s.breaks (s.market.ensureWatermarkRows [report.scopeKey,none]) := by
      simpa only [Kept,ensuredDefault] using holds
    have broken := keptBreak unrecorded breaks
    constructor
    · simpa [recordedBy,breaksBy,own,ineligible] using broken
    · intro c is
      rw [unproven] at is; contradiction

theorem polledStep (holds : Kept scope s.recorded s.breaks s.market) (step : s.Step scope act s') :
    Kept scope s'.recorded s'.breaks s'.market := by
  obtain ⟨done,recorded,breaks⟩ := step
  rw [recorded,breaks]
  simp only [IngestStep] at done
  cases act with
  | persist retention observedAt records =>
    have rows := (@persistedRows (s.market.ensureWatermarkRows (targetScopes s.market records))
      retention observedAt records).2
    simp only [recordedBy,breaksBy,List.append_nil,Kept,Market.scopeRow,← Option.some.inj done,rows]
    exact @ensuredDefault scope s.market _ ▸ holds
  | absence report previousRun =>
    obtain ⟨⟨m',n⟩,applied,is⟩ := Option.map_eq_some_iff.mp done
    cases is
    obtain ⟨parts⟩ := absenceParts applied
    by_cases own : report.scopeKey = some scope
    · exact parts.marksKept (absenceOwn holds own parts).1
    · refine parts.marksKept ?_
      have apart : report.call.sweptScopeKey ≠ some scope := own
      have same : parts.own.scopeRow scope = (s.market.ensureWatermarkRows [report.scopeKey,none]).scopeRow scope := by
        have first := parts.first
        split at first
        · exact recordElse first apart
        · exact breakElse first.1 apart
      simp only [recordedBy,breaksBy,own,false_and,if_false,List.append_nil,Kept,same,ensuredDefault]
      exact holds
  | rejected eventTime name =>
    by_cases own : name = scope
    · subst own
      have before : Kept name s.recorded s.breaks (s.market.ensureWatermarkRows [some name]) := by
        simpa only [Kept,ensuredDefault] using holds
      simpa [recordedBy,breaksBy] using keptBreak before done
    · have apart : some name ≠ some scope := fun same => own (Option.some.inj same)
      simp only [recordedBy,breaksBy,own,if_false,List.append_nil,Kept,breakElse done apart,ensuredDefault]
      exact holds
  | scheduled intervalS =>
    simp only [recordedBy,breaksBy,List.append_nil,← Option.some.inj done]
    exact holds
end

structure PolledAcross (scope : String) (s : Polled) (gated : DelistScope) (l : Listing) : Prop where
  allowed : gated.staleAbsenceAllowed = true
  own : l.collectionScope = some scope
  unseen : l.lastSeen < gated.observedAt - gated.absenceGrace
  notObserved : ∀ at_ ∈ l.lastObservedAt, at_ ≤ gated.observedAt
  chain : ∃ c, c ≤ gated.observedAt - gated.absenceGrace ∧ Unbroken s.recorded c gated.observedAt ∧
    ∀ b ∈ s.breaks, b < c

theorem staleGrounds {m : Market} {gated : DelistScope} {since : Option Int} {key : String} {l marked : Listing}
    {stamp : Int} (here : m.listing key = some l) (active : l.active = true)
    (after : (applyDelist gated since m).1.listing key = some marked)
    (stale : marked.delisted = some (stamp,.absentStale)) :
    stamp = gated.observedAt ∧ gated.staleAbsenceAllowed = true ∧ l.collectionScope = gated.scopeKey ∧
      atOrAfter gated.observedAt l.lastObservedAt = true ∧ l.lastSeen < gated.observedAt - gated.absenceGrace ∧
      ∃ c, since = some c ∧ c ≤ gated.observedAt - gated.absenceGrace := by
  have unmarked : ∀ other, l.delisted ≠ some other := by
    intro other is
    rw [Listing.active,is] at active; contradiction
  simp only [applyDelist] at after
  split at after
  · rw [here] at after
    cases after
    exact absurd stale (unmarked _)
  · rename_i reason cutoff grounds
    rw [delistListing,here,Option.map_some,Option.some.injEq] at after
    subst after
    split at stale
    · rename_i chosen
      rw [markedAs] at stale
      cases stale
      simp only [DelistScope.grounds] at grounds
      split at grounds
      · cases grounds
      · split at grounds
        · cases grounds
        · rename_i allowed
          split at grounds
          · cases grounds
          · rename_i c
            split at grounds
            · cases grounds
            · rename_i graced
              cases grounds
              simp only [DelistScope.candidate,Bool.and_eq_true,decide_eq_true_eq,Option.all_some] at chosen
              obtain ⟨⟨⟨_,inOrder⟩,own⟩,unseen⟩ := chosen
              exact ⟨rfl,by simpa using allowed,own,inOrder,unseen,c,rfl,by omega⟩
    · exact absurd stale (unmarked _)

theorem staleOnlyPolled {scope : String} {start s : Polled} {labels : List IngestAct}
    (fresh : ∀ row, start.market.scopeRow scope = some row → row = .unset)
    (unlogged : start.recorded = [] ∧ start.breaks = []) (run : Runs (Polled.Step scope) start labels s) :
    (∀ row c, s.market.scopeRow scope = some row → row.continuousSince = some c →
      (∀ broken ∈ row.continuityBrokenAt, broken < c) ∧ ∃ last ∈ row.lastEligibleSweepAt, c ≤ last) ∧
    ∀ report previousRun s', s.Step scope (.absence report previousRun) s' → report.scopeKey = some scope →
      ∀ key l marked stamp, s.market.listing key = some l → l.active = true →
        s'.market.listing key = some marked → marked.delisted = some (stamp,.absentStale) →
        ∃ gated, report.call.gated = some gated ∧ gated.observedAt = stamp ∧ PolledAcross scope s' gated l := by
  have begins : Kept scope start.recorded start.breaks start.market := by
    rw [unlogged.1,unlogged.2,Kept]
    cases here : start.market.scopeRow scope with
    | none => exact vouchedUnset
    | some row => rw [fresh row here]; exact vouchedUnset
  have holds := run.invariant (fun s => Kept scope s.recorded s.breaks s.market) polledStep begins
  constructor
  · intro row c here since
    simp only [Kept,here,Option.getD_some] at holds
    obtain ⟨last,is,chain⟩ := holds.polled c since
    exact ⟨fun broken mem => holds.later c broken since mem,last,is,chain.order⟩
  · intro report previousRun s' step own key l marked stamp here active after stale
    obtain ⟨done,recorded,breaks⟩ := step
    obtain ⟨⟨m',n⟩,applied,is⟩ := Option.map_eq_some_iff.mp done
    obtain ⟨parts⟩ := absenceParts applied
    obtain ⟨kept,proven⟩ := absenceOwn holds own parts
    have same : s'.market = m' := is.symm
    have unchanged : parts.marked.listings = s.market.listings := parts.only.listings
    rw [same] at after
    rcases parts.third with ⟨_,is⟩ | ⟨gated,gates,is⟩
    · rw [is,Market.listing,unchanged] at after
      rw [Market.listing,after] at here
      cases here
      rw [Listing.active,stale] at active
      cases active
    · have marks : (applyDelist gated parts.since parts.marked).1.listing key = some marked := by
        refine Eq.trans ?_ ((congrArg (fun m => m.listing key) is).symm.trans after)
        split
        · simp only [Market.listing,raisedListings]
        · rfl
      have before : parts.marked.listing key = some l := by
        rw [Market.listing,unchanged]
        exact here
      obtain ⟨stamp,allowed,ownScope,inOrder,unseen,c,since,graced⟩ := staleGrounds before active marks stale
      obtain ⟨ownKey,ownTime⟩ := gatedOwn gates
      refine ⟨gated,gates,stamp.symm,allowed,ownScope.trans (ownKey.trans own),unseen,?_,c,graced,?_⟩
      · intro at_ mem
        rw [Option.mem_def] at mem
        simpa [atOrAfter,mem] using inOrder
      · obtain ⟨_,row,rowHere,started,ended⟩ := proven c since
        simp only [Kept,rowHere,Option.getD_some] at kept
        obtain ⟨last,lastIs,chain⟩ := kept.polled c started
        have ends : last = gated.observedAt := by
          rw [ended] at lastIs
          exact (Option.some.inj lastIs).symm.trans ownTime.symm
        rw [recorded,breaks,← ends]
        refine ⟨chain,fun b mem => ?_⟩
        obtain ⟨broken,brokenIs,le⟩ := kept.breaksKept b mem
        exact lt_of_le_of_lt le (kept.later c broken started brokenIs)

def Polled.after (scope : String) (s : Polled) (act : IngestAct) (ok : (s.market.commit act).isSome = true) : Polled :=
  ⟨s.market.after act ok,s.recorded ++ recordedBy scope s.market act,s.breaks ++ breaksBy scope act⟩

theorem Polled.afterStep (scope : String) (s : Polled) (act : IngestAct) (ok : (s.market.commit act).isSome = true) :
    s.Step scope act (s.after scope act ok) := ⟨s.market.afterStep act ok,rfl,rfl⟩

def truncatedSweep (at_ : Int) : SweepReport where
  scopeKey := some "drives"
  scope := some ⟨[],at_,false,minutes 10,some "drives",true⟩
  evidence := ⟨.local,.truncated,true,fun _ => rfl⟩
  eventTime := at_
  seenInRun := []
  several := false
  nullSwept := false
  own := by
    intro s mem
    cases mem
    exact ⟨rfl,rfl⟩

def unpolled : Polled := ⟨⟨[],[],none,[]⟩,[],[]⟩
def polledSeen : Polled :=
  unpolled.after "drives" (.persist factRetention (-1) [(driveRecord (some "drives") "drive",-1)]) (by decide +kernel)
def polledOnce : Polled := polledSeen.after "drives" (.absence (truncatedSweep 0) none) (by decide +kernel)
def polledTwice : Polled :=
  polledOnce.after "drives" (.absence (truncatedSweep (minutes 10)) none) (by decide +kernel)

theorem staleAfterTwoSweeps : ∃ gated, (truncatedSweep (minutes 10)).call.gated = some gated ∧
    gated.observedAt = minutes 10 ∧ PolledAcross "drives" polledTwice gated
      ((polledOnce.market.listing "7").get (by decide +kernel)) :=
  (@staleOnlyPolled _ unpolled _ _ nofun ⟨rfl,rfl⟩
    (.cons (Polled.afterStep "drives" unpolled _ (by decide +kernel))
      (.single (Polled.afterStep "drives" polledSeen _ (by decide +kernel))))).2 _ none polledTwice
    (Polled.afterStep "drives" polledOnce _ (by decide +kernel)) rfl "7" _
    ((polledTwice.market.listing "7").get (by decide +kernel)) (minutes 10) (Option.some_get _).symm (by decide +kernel)
    (Option.some_get _).symm (by decide +kernel)

end HwRadar.Ingest
