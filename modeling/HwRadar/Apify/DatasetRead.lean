import HwRadar.Base.Paging
import HwRadar.Apify.SettlementBounds
import HwRadar.Apify.RowAdmission

/-! The dataset of one run, read page by page under the page size that the page cap allows.
What the remote answers is arbitrary: rows of any number, any total, or an error. -/
namespace HwRadar.Apify
open HwRadar.Base

inductive DatasetReply where
  | failed (error : String)
  | notArray
  | array (items : List Json) (total : Option Int)

def listDatasetItems (reply : DatasetReply) (limit : Nat) : Except String (Page Json) :=
  if limit = 0 then .error "offset must be >= 0 and limit > 0"
  else match reply with
  | .failed error => .error error
  | .notArray => .error "dataset items response is not a JSON array"
  | .array items total => .ok ⟨items,total⟩

def iterDatasetItems (answer : Nat → Nat → DatasetReply) (pageSize life : Nat) : PagedRead String Json :=
  readPages (fun k offset => listDatasetItems (answer k offset) pageSize) pageSize life 0 0

section
variable {answer : Nat → Nat → DatasetReply} {budget : BudgetSettings} {maxItems limit pages : Int}

theorem pagesCover {pageCap : Int} (capped : cap budget.maxDatasetPageBytes "MAX_DATASET_PAGE_BYTES" 0 = .ok pageCap)
    (limited : pageLimit pageCap maxListingRowBytes = .ok limit)
    (priced : pagesPerRead budget maxItems maxListingRowBytes = .ok pages) :
    1 ≤ limit ∧ maxItems + limit ≤ pages * limit := by
  obtain ⟨_,_,positive⟩ := pageLimitSound limited
  refine ⟨positive,?_⟩
  unfold pagesPerRead at priced
  obtain ⟨found,same,priced⟩ := bindOk.mp priced
  cases capped.symm.trans same
  split at priced
  · cases priced
  rename_i other found
  cases limited.symm.trans found
  have is := Except.ok.inj priced
  have rest := Int.lt_ediv_add_one_mul_self (maxItems + limit - 1) (show 0 < limit by omega)
  rw [← is]
  nlinarith

theorem readWithin {pageCap : Int} (capped : cap budget.maxDatasetPageBytes "MAX_DATASET_PAGE_BYTES" 0 = .ok pageCap)
    (limited : pageLimit pageCap maxListingRowBytes = .ok limit)
    (priced : pagesPerRead budget maxItems maxListingRowBytes = .ok pages) (life : Nat)
    (within : ((iterDatasetItems answer limit.toNat life).items.length : Int) ≤ maxItems) :
    ((iterDatasetItems answer limit.toNat life).requests : Int) ≤ pages := by
  obtain ⟨positive,cover⟩ := pagesCover capped limited priced
  have full := (@readFull String Json (fun k offset => listDatasetItems (answer k offset) limit.toNat)
    limit.toNat life 0 0).1
  have is : ((limit.toNat : Nat) : Int) = limit := Int.toNat_of_nonneg (by omega)
  have full : ((iterDatasetItems answer limit.toNat life).requests : Int) * limit ≤
      ((iterDatasetItems answer limit.toNat life).items.length : Int) + limit := by
    rw [← is]
    exact_mod_cast full
  by_contra more
  nlinarith

def ServesRows (answer : Nat → Nat → DatasetReply) (pageSize : Nat) (store : Nat → List Json) : Prop :=
  Serves (fun k offset => listDatasetItems (answer k offset) pageSize) pageSize store
end

theorem datasetPriced (answer : Nat → Nat → DatasetReply) (life : Nat) {budget : BudgetSettings}
    {maxItems pageCap limit pages : Int}
    (capped : cap budget.maxDatasetPageBytes "MAX_DATASET_PAGE_BYTES" 0 = .ok pageCap)
    (limited : pageLimit pageCap maxListingRowBytes = .ok limit)
    (priced : pagesPerRead budget maxItems maxListingRowBytes = .ok pages) :
    (((iterDatasetItems answer limit.toNat life).requests : Int) ≤ pages ∨
      maxItems < (iterDatasetItems answer limit.toNat life).items.length) ∧
    ((iterDatasetItems answer limit.toNat life).stop = .lost →
      life * limit.toNat ≤ (iterDatasetItems answer limit.toNat life).items.length) ∧
    ∀ store, ServesRows answer limit.toNat store →
      (∃ j, (iterDatasetItems answer limit.toNat life).items <+: store j) ∧
      ((iterDatasetItems answer limit.toNat life).stop = .done → ∃ j,
        j + 1 = (iterDatasetItems answer limit.toNat life).requests ∧
        (iterDatasetItems answer limit.toNat life).items = store j) ∧
      ∀ n, (∀ j, (store j).length ≤ n) → n < life * limit.toNat →
      (iterDatasetItems answer limit.toNat life).stop = .done := by
  obtain ⟨positive,_⟩ := pagesCover capped limited priced
  refine ⟨?_,(readFull life 0 0).2,fun store serves => ?_⟩
  · by_cases within : ((iterDatasetItems answer limit.toNat life).items.length : Int) ≤ maxItems
    · exact .inl (readWithin capped limited priced life within)
    · exact .inr (not_le.mp within)
  · obtain ⟨j,_,held,stop⟩ := @readServed _ _ _ _ store serves (by omega) life 0 0 (Nat.zero_le _)
    refine ⟨⟨j,held⟩,fun done => ?_,fun n short long => readEnds serves (Nat.zero_le _) short long⟩
    rcases stop with lost | ⟨_,counted,items⟩
    · cases done.symm.trans lost
    · exact ⟨j,counted.trans (Nat.zero_add _),items⟩

def pagedAnswer (_ offset : Nat) : DatasetReply := .array (((List.replicate 70 .null).drop offset).take 32) (some 70)

theorem pagedPriced :
    (((iterDatasetItems pagedAnswer 32 10).requests : Int) ≤ 5 ∨
      (100 : Int) < (iterDatasetItems pagedAnswer 32 10).items.length) ∧
    ((iterDatasetItems pagedAnswer 32 10).stop = .lost → 10 * 32 ≤ (iterDatasetItems pagedAnswer 32 10).items.length) ∧
    ∀ store, ServesRows pagedAnswer 32 store →
      (∃ j, (iterDatasetItems pagedAnswer 32 10).items <+: store j) ∧
      ((iterDatasetItems pagedAnswer 32 10).stop = .done → ∃ j,
        j + 1 = (iterDatasetItems pagedAnswer 32 10).requests ∧ (iterDatasetItems pagedAnswer 32 10).items = store j) ∧
      ∀ n, (∀ j, (store j).length ≤ n) → n < 10 * 32 → (iterDatasetItems pagedAnswer 32 10).stop = .done :=
  @datasetPriced pagedAnswer 10 verifiedSettings 100 1048576 32 5 (by decide +kernel) (by decide +kernel)
    (by decide +kernel)

example : (iterDatasetItems pagedAnswer 32 10).requests = 3 ∧
    (iterDatasetItems pagedAnswer 32 10).items.length = 70 := by
  decide +kernel
end HwRadar.Apify
