import HwRadar.Apify.Handoff

/-! A drained ledger's record passes the destination's checks. The lines and the
carried consumption are texts of four places, read back without loss, so the
destination's own sum is exactly the carried consumption. -/
namespace HwRadar.Apify
open HwRadar.Base HwRadar.Base.Text

theorem moneyOf (n : Nat) (name : String) : money (.str (moneyText n)) name = .ok (usd n) := by
  have parsed : parseDecimal (moneyText n) = some (.finite (usd n)) := by
    rw [moneyText,parseFixedText 4 n (by decide),usd]
    norm_num
  have positive : ¬usd n < 0 := not_lt.mpr (usdNonneg n)
  simp only [money,parsed,if_neg positive]

theorem sumLinesOf (lines : List (String × Nat)) :
    sumLines (lines.map fun line => (line.1,.str (moneyText line.2))) = .ok (usd (lines.map Prod.snd).sum) := by
  induction lines with
  | nil => simp [sumLines]
  | cons line rest ih =>
    simp only [List.map_cons,sumLines,moneyOf,ih,List.sum_cons,usdAdd]
    rfl

section
variable {l : Ledger}

structure Drained (l : Ledger) : Prop where
  settled : ∀ row ∈ l.reservations, row.status.isOpen = false
  closed : ∀ row ∈ l.reservations, row.status = .reconciled → hasObligation row = true →
    monitoringClosed l row = true

theorem drainedSound (none : drainRefusal l = none) : Drained l := by
  unfold drainRefusal at none
  split at none
  · cases none
  rename_i settled
  split at none
  · cases none
  rename_i closed
  rw [List.find?_eq_none] at settled closed
  refine ⟨fun row mem => ?_,fun row mem reconciled obliged => ?_⟩
  · obtain ⟨pk,here⟩ := List.getElem?_of_mem mem
    simpa using settled (row,pk) (List.mem_zipIdx_iff_getElem?.mpr here)
  · obtain ⟨pk,here⟩ := List.getElem?_of_mem mem
    have shut := closed (row,pk) (List.mem_zipIdx_iff_getElem?.mpr here)
    simpa [reconciled,obliged] using shut

theorem tallyObligations {config : LedgerConfig} {runs : List ProviderRun} {yStart yEnd : Int}
    (entries : List (Reservation × Nat)) (t : Tally) {pk : Nat}
    (mem : pk ∈ (entries.foldl (tallyRow config runs yStart yEnd) t).obligations) :
    pk ∈ t.obligations ∨ ∃ row, (row,pk) ∈ entries ∧ row.status = .reconciled ∧ hasObligation row = true := by
  induction entries generalizing t with
  | nil => exact .inl mem
  | cons entry rest ih =>
    rcases ih _ mem with before | ⟨row,later,found⟩
    · simp only [tallyRow] at before
      split at before
      · rename_i counted
        rcases List.mem_append.mp before with old | new
        · exact .inl old
        · rw [obliged,Bool.and_eq_true,Bool.and_eq_true,beq_iff_eq] at counted
          refine .inr ⟨entry.1,?_,counted.1.1,counted.1.2⟩
          rw [List.mem_singleton.mp new]
          exact List.mem_cons_self
      · exact .inl before
    · exact .inr ⟨row,List.mem_cons_of_mem _ later,found⟩

theorem tallyObliged {config : LedgerConfig} {yStart yEnd : Int} {pk : Nat}
    (mem : pk ∈ (tally config l yStart yEnd).obligations) : ∃ row, l.reservations[pk]? = some row ∧
      row.status = .reconciled ∧ hasObligation row = true := by
  rcases tallyObligations _ _ mem with none | ⟨row,entry,found⟩
  · simp at none
  · exact ⟨row,List.mem_zipIdx_iff_getElem?.mp (List.mem_filter.mp entry).1,found⟩

theorem obligationChecked (drained : Drained l) {pk : Nat} {row : Reservation} (here : l.reservations[pk]? = some row)
    (reconciled : row.status = .reconciled) (obliged : hasObligation row = true) :
    checkObligation (obligationJson l pk) = .ok () := by
  have closed := drained.closed row (List.mem_of_getElem? here) reconciled obliged
  unfold monitoringClosed at closed
  split at closed
  · rename_i untilAt closing deadline read
    simp only [Bool.and_eq_true,decide_eq_true_eq] at closed
    have late : ¬closing.readAt < untilAt := not_lt.mpr closed.1.2
    have untilText : lookup "correction_monitor_until" (obligationJson l pk).fields = .str (Stamp.isoText untilAt) := by
      simp [obligationJson,here,Json.fields,lookup,deadline,isoJson]
    have readText : lookup "closing_read_at" (obligationJson l pk).fields = .str (Stamp.isoText closing.readAt) := by
      simp [obligationJson,here,Json.fields,lookup,read,isoJson]
    have object : obligationJson l pk = .obj (obligationJson l pk).fields := by
      simp [obligationJson,here,Json.fields]
    rw [object]
    simp only [checkObligation,untilText,readText,parseDt,Stamp.parseIsoText,bind,Except.bind,if_neg late]
  · cases closed

theorem obligationsChecked (drained : Drained l) (pks : List Nat)
    (each : ∀ pk ∈ pks, ∃ row, l.reservations[pk]? = some row ∧ row.status = .reconciled ∧ hasObligation row = true) :
    checkObligations (pks.map (obligationJson l)) = .ok () := by
  induction pks with
  | nil => rfl
  | cons pk rest ih =>
    obtain ⟨row,here,reconciled,obliged⟩ := each pk List.mem_cons_self
    rw [List.map_cons,checkObligations,obligationChecked drained here reconciled obliged]
    exact ih fun q mem => each q (List.mem_cons_of_mem _ mem)

theorem recordValidated (drained : Drained l) (cycle : BudgetCycle) (held : LedgerAuthority) (destination : String)
    (config : LedgerConfig) (now : Int) :
    validatedTotal (buildRecord cycle held destination config now l) =
      .ok (usd (recordTotal (tally config l cycle.cycleStart cycle.cycleEnd))) := by
  generalize total : tally config l cycle.cycleStart cycle.cycleEnd = t
  have obligations := obligationsChecked drained (t.obligations.mergeSort (· ≤ ·))
    (fun pk mem => tallyObliged (total.symm ▸ (List.mergeSort_perm _ _).mem_iff.mp mem))
  have one : parseDecimal "1" = some (.finite 1) := by decide +kernel
  have zero : parseDecimal "0" = some (.finite 0) := by decide +kernel
  have known : (Json.num "1").isInt handoffRecordVersion = true := by
    simp [Json.isInt,one,handoffRecordVersion]
  have nothing : (Json.num "0").isInt 0 = true := by simp [Json.isInt,zero]
  have sums := sumLinesOf (recordLines t)
  have carried := moneyOf (recordTotal t) "carried_consumption_usd"
  have lines : ((recordLines t).map fun line => (line.1,Json.str (moneyText line.2))).isEmpty = false := rfl
  simp only [validatedTotal,buildRecord,total,Json.fields,lookup,List.find?,String.reduceBEq,Option.map_some,
    Option.getD_some,known,Bool.not_true,Bool.false_eq_true,if_false,checkDrain,nothing,Bool.or_self,obligations,
    lines,sums,carried,bind,Except.bind]
  exact if_neg (lt_irrefl _)

theorem drainedTotal (drained : Drained l) (config : LedgerConfig) (yStart yEnd : Int) :
    recordTotal (tally config l yStart yEnd) = hrCycle (tally config l yStart yEnd).debits := by
  have settled : ∀ side, ((tallyRows config l yStart yEnd).side side).unsettled = 0 := by
    intro side
    rw [@tallySide ClassTally.unsettled (fun _ _ => rfl) rfl]
    refine List.sum_eq_zero fun n mem => ?_
    obtain ⟨row,here,rfl⟩ := List.mem_map.mp mem
    have shut := drained.settled row here
    unfold sidePart
    split
    · rename_i passes
      have reconciled : row.status = .reconciled := by
        have filtered := passes.1
        simp only [prefilter,shut,Bool.false_or,Bool.and_eq_true,beq_iff_eq] at filtered
        exact filtered.1.1
      unfold rowPart
      rw [if_neg (not_not.mpr reconciled)]
      split <;> rfl
    · rfl
  have runtime : (tally config l yStart yEnd).runtime.unsettled = 0 := settled false
  have operator : (tally config l yStart yEnd).operator.unsettled = 0 := settled true
  simp only [recordTotal,recordLines,hrCycle,Tally.debits,ClassTally.total,runtime,operator,List.map_cons,List.map_nil,
    List.sum_cons,List.sum_nil]
  omega
end

theorem importTakes {digest : Json → String} {record : Json} {settings : LedgerConfig} {now : Int} {l : Ledger}
    {source : String} {total : ℚ} {cycle : BudgetCycle} (named : settings.ledgerId ≠ "")
    (bound : boundTo record settings.ledgerId = true) (origin : recordSource settings record = .ok source)
    (validated : validatedTotal record = .ok total)
    (parsed : parseDt (lookup "cycle_start" record.fields) "cycle_start" = .ok cycle.cycleStart)
    (found : (ensureCycle settings now l).2 = some cycle)
    (free : (ensureCycle settings now l).1.authorityFor cycle.cycleStart = none) :
    ∃ l', importHandoff digest record settings now l = .ok (l',true) ∧
      l'.carriedFor cycle.cycleStart = toLedger total := by
  unfold importHandoff
  rw [if_neg named,if_neg (by simp [bound])]
  simp only [origin,validated,parsed,bind,Except.bind]
  generalize ensureCycle settings now l = out at found free ⊢
  obtain ⟨after,result⟩ := out
  simp only at found free
  subst found
  simp only [ne_eq,not_true_eq_false,if_false,free]
  refine ⟨_,rfl,?_⟩
  simp only [Ledger.authorityFor] at free
  simp only [Ledger.carriedFor,Ledger.authorityFor,List.find?_append,free,Option.none_or]
  simp [LedgerAuthority.fresh]

end HwRadar.Apify
