import HwRadar.Apify.Settlement
import HwRadar.Apify.Reserve

/-! The post-run cost of the reservation and that of the settlement have the same terms at
different quantities and add the last two in another order. They are monotone in the quantities,
so a settlement within the caps of its reservation stays within its estimate, but for what the
order of the two sums rounds differently. -/
namespace HwRadar.Apify
open HwRadar.Base HwRadar.Base.Calendar
open HwRadar.Base.Text (Decimal)
open HwRadar.Base.Decimal

theorem toLedgerMono {a b : ℚ} (le : a ≤ b) : toLedger a ≤ toLedger b :=
  Nat.ceil_mono (by linarith)

theorem toLedgerLe {a : ℚ} {n : Nat} (le : a ≤ usd n) : toLedger a ≤ n := by
  rw [← toLedgerUsd n]
  exact toLedgerMono le

structure Rates where
  dsRead : Dec
  dsWrite : Dec
  kvRead : Dec
  kvWrite : Dec
  dsStorage : Dec
  kvStorage : Dec
  call : Dec
  page : Dec
  dsReadNonneg : 0 ≤ dsRead.value
  dsWriteNonneg : 0 ≤ dsWrite.value
  kvReadNonneg : 0 ≤ kvRead.value
  kvWriteNonneg : 0 ≤ kvWrite.value
  dsStorageNonneg : 0 ≤ dsStorage.value
  kvStorageNonneg : 0 ≤ kvStorage.value
  callNonneg : 0 ≤ call.value
  pageNonneg : 0 ≤ page.value

structure Rates.Of (rates : Rates) (cfg : BudgetSettings) : Prop where
  dsRead : perOp cfg.prices.datasetReadsPer1000 "DATASET_READS_USD_PER_1000" = .ok rates.dsRead
  dsWrite : perOp cfg.prices.datasetWritesPer1000 "DATASET_WRITES_USD_PER_1000" = .ok rates.dsWrite
  kvRead : perOp cfg.prices.kvReadsPer1000 "KV_READS_USD_PER_1000" = .ok rates.kvRead
  kvWrite : perOp cfg.prices.kvWritesPer1000 "KV_WRITES_USD_PER_1000" = .ok rates.kvWrite
  dsStorage : price cfg.prices.datasetStoragePerGbHour "DATASET_STORAGE_USD_PER_GB_HOUR" = .ok rates.dsStorage
  kvStorage : price cfg.prices.kvStoragePerGbHour "KV_STORAGE_USD_PER_GB_HOUR" = .ok rates.kvStorage
  call : apiCallBound cfg = .ok rates.call
  page : datasetPageBound cfg = .ok rates.page

structure PostRunUse where
  items : Int
  pages : Int
  datasetReads : Int
  kvReads : Int
  attempts : Int
  polls : Int
  rowBytes : Int
  kvStored : Int
  hours : Dec

def PostRunUse.upkeep (u : PostRunUse) (r : Rates) : Dec :=
  (u.datasetReads * (u.items + u.pages) : Int) * r.dsRead + (u.kvReads : Dec) * r.kvRead
    + (u.attempts : Dec) * ((u.items + 1 : Int) * r.dsWrite + (3 : Int) * r.kvWrite)
    + ((u.items * u.rowBytes : Int) * r.dsStorage + (u.kvStored : Dec) * r.kvStorage) / bytesPerGb * u.hours

def PostRunUse.calls (u : PostRunUse) (r : Rates) : Dec := (1 + u.polls + 4 * u.attempts + u.kvReads : Int) * r.call
def PostRunUse.pageReads (u : PostRunUse) (r : Rates) : Dec := (u.datasetReads * u.pages : Int) * r.page

def PostRunUse.cost (u : PostRunUse) (r : Rates) : Dec := u.upkeep r + u.calls r + u.pageReads r
def PostRunUse.liability (u : PostRunUse) (r : Rates) : Dec := u.upkeep r + (u.calls r + u.pageReads r)

structure PostRunUse.Nonneg (u : PostRunUse) : Prop where
  items : 0 ≤ u.items
  pages : 0 ≤ u.pages
  datasetReads : 0 ≤ u.datasetReads
  kvReads : 0 ≤ u.kvReads
  attempts : 0 ≤ u.attempts
  polls : 0 ≤ u.polls
  rowBytes : 0 ≤ u.rowBytes
  kvStored : 0 ≤ u.kvStored
  hours : 0 ≤ u.hours.value

structure PostRunUse.Within (u v : PostRunUse) : Prop where
  items : u.items ≤ v.items
  pages : u.pages ≤ v.pages
  datasetReads : u.datasetReads ≤ v.datasetReads
  kvReads : u.kvReads ≤ v.kvReads
  attempts : u.attempts ≤ v.attempts
  polls : u.polls ≤ v.polls
  rowBytes : u.rowBytes ≤ v.rowBytes
  kvStored : u.kvStored ≤ v.kvStored
  hours : u.hours.value ≤ v.hours.value

section
variable {u v : PostRunUse} (r : Rates) (nonneg : u.Nonneg) (within : u.Within v)
include nonneg within

theorem callsMono : (u.calls r).Under (v.calls r) := by
  have polls := nonneg.polls
  have attempts := nonneg.attempts
  have kvReads := nonneg.kvReads
  have polls' := within.polls
  have attempts' := within.attempts
  have kvReads' := within.kvReads
  exact (Dec.underCast (by omega) (by omega)).mul (.refl r.callNonneg)

theorem pageReadsMono : (u.pageReads r).Under (v.pageReads r) :=
  (Dec.underCast (mul_nonneg nonneg.datasetReads nonneg.pages)
    (mul_le_mul within.datasetReads within.pages nonneg.pages (nonneg.datasetReads.trans within.datasetReads))).mul
    (.refl r.pageNonneg)

theorem upkeepMono : (u.upkeep r).Under (v.upkeep r) := by
  have items := nonneg.items
  have pages := nonneg.pages
  have items' := within.items
  have pages' := within.pages
  have reads : ((u.datasetReads * (u.items + u.pages) : Int) : Dec).Under
      (v.datasetReads * (v.items + v.pages) : Int) :=
    Dec.underCast (mul_nonneg nonneg.datasetReads (by omega))
      (mul_le_mul within.datasetReads (by omega) (by omega) (nonneg.datasetReads.trans within.datasetReads))
  have rows : ((u.items * u.rowBytes : Int) : Dec).Under (v.items * v.rowBytes : Int) :=
    Dec.underCast (mul_nonneg items nonneg.rowBytes)
      (mul_le_mul items' within.rowBytes nonneg.rowBytes (items.trans items'))
  have deleted : ((u.items + 1 : Int) : Dec).Under (v.items + 1 : Int) := Dec.underCast (by omega) (by omega)
  have writes : (((3 : Int) : Dec) * r.kvWrite).Under ((3 : Int) * r.kvWrite) :=
    (Dec.underCast (by norm_num) le_rfl).mul (.refl r.kvWriteNonneg)
  have gb : 0 ≤ bytesPerGb.value := by
    change (0 : ℚ) ≤ ((1000000000 : ℕ) : ℚ)
    exact Nat.cast_nonneg _
  refine .add (.add (.add (reads.mul (.refl r.dsReadNonneg)) ?kvReads) ?deletes) ?storage
  case kvReads => exact (Dec.underCast nonneg.kvReads within.kvReads).mul (.refl r.kvReadNonneg)
  case deletes =>
    exact (Dec.underCast nonneg.attempts within.attempts).mul ((deleted.mul (.refl r.dsWriteNonneg)).add writes)
  case storage =>
    have stored := (Dec.underCast nonneg.kvStored within.kvStored).mul (.refl r.kvStorageNonneg)
    exact (((rows.mul (.refl r.dsStorageNonneg)).add stored).div gb).mul ⟨nonneg.hours,within.hours⟩

theorem costMono : (u.cost r).Under (v.cost r) :=
  ((upkeepMono r nonneg within).add (callsMono r nonneg within)).add (pageReadsMono r nonneg within)
end

theorem PostRunUse.Nonneg.self {u : PostRunUse} (_ : u.Nonneg) : u.Within u :=
  ⟨le_rfl,le_rfl,le_rfl,le_rfl,le_rfl,le_rfl,le_rfl,le_rfl,le_rfl⟩

def PostRunUse.Steady (u : PostRunUse) (r : Rates) : Prop :=
  ((u.upkeep r + u.calls r).value = (u.upkeep r).value + (u.calls r).value ∧
    (u.calls r + u.pageReads r).value = (u.calls r).value + (u.pageReads r).value) ∨
  ((u.upkeep r).value + (u.calls r).value + (u.pageReads r).value) * (1 + 1 / 10 ^ 26) ≤
    usd (toLedger (u.liability r).value)

theorem steadyCovers {u : PostRunUse} {r : Rates} (nonneg : u.Nonneg) (steady : u.Steady r) :
    (u.cost r).value ≤ usd (toLedger (u.liability r).value) := by
  rcases steady with ⟨first,second⟩ | apart
  · have same : (u.cost r).value = (u.liability r).value := by
      change toDigits 28 ((u.upkeep r + u.calls r).value + _) = toDigits 28 (_ + (u.calls r + u.pageReads r).value)
      rw [first,second,add_assoc]
    exact same.le.trans (toLedgerCovers _)
  · exact (Dec.sumBound (upkeepMono r nonneg nonneg.self).nonneg (callsMono r nonneg nonneg.self).nonneg
      (pageReadsMono r nonneg nonneg.self).nonneg).trans apart

theorem priceNonneg {value : Option Decimal} {name : String} {q : Dec} (ok : price value name = .ok q) :
    nonNegative value = some q.value ∧ 0 ≤ q.value := by
  unfold price at ok
  split at ok
  · cases ok
    rename_i found
    exact ⟨found,(nonNegativeSound found).2⟩
  · cases ok

theorem perOpNonneg {value : Option Decimal} {name : String} {q : Dec} (ok : perOp value name = .ok q) :
    0 ≤ q.value := by
  unfold perOp at ok
  obtain ⟨per1000,priced,rest⟩ := bindOk.mp ok
  cases rest
  exact ((Dec.Under.refl (priceNonneg priced).2).div (Nat.cast_nonneg 1000)).nonneg

theorem capSound {value : Option Int} {name : String} {minimum n : Int} (ok : cap value name minimum = .ok n) :
    value = some n ∧ minimum ≤ n := by
  unfold cap at ok
  split at ok
  · split at ok
    · cases ok
    · cases ok
      exact ⟨rfl,not_lt.mp (by assumption)⟩
  · cases ok

theorem overheadNonneg {cfg : BudgetSettings} {n : Int} (ok : requestWireOverhead cfg = .ok n) : 0 ≤ n := by
  unfold requestWireOverhead at ok
  obtain ⟨overhead,capped,rest⟩ := bindOk.mp ok
  cases rest
  have low := (capSound capped).2
  unfold httpReceiveBufferBytes
  omega

theorem transferNonneg {cfg : BudgetSettings} {q : Dec} (ok : transferPerByte cfg = .ok q) : 0 ≤ q.value := by
  unfold transferPerByte at ok
  obtain ⟨perGb,priced,rest⟩ := bindOk.mp ok
  cases rest
  exact ((Dec.Under.refl (priceNonneg priced).2).div (Nat.cast_nonneg 1000000000)).nonneg

theorem callNonneg {cfg : BudgetSettings} {q : Dec} (ok : apiCallBound cfg = .ok q) : 0 ≤ q.value := by
  unfold apiCallBound at ok
  simp only [bindOk] at ok
  obtain ⟨dsRead,read,dsWrite,_,kvRead,_,kvWrite,_,response,capped,overhead,wired,perByte,transfer,rest⟩ := ok
  cases rest
  have dearest := Dec.Under.refl
    (Dec.maxNonneg (b := kvWrite) (Dec.maxNonneg (b := kvRead) (Dec.maxNonneg (b := dsWrite)
    (perOpNonneg read))))
  have wire := Dec.underCast (add_nonneg (overheadNonneg wired) (capSound capped).2) le_rfl
  exact (dearest.add (wire.mul (.refl (transferNonneg transfer)))).nonneg

theorem pageNonneg {cfg : BudgetSettings} {q : Dec} (ok : datasetPageBound cfg = .ok q) : 0 ≤ q.value := by
  unfold datasetPageBound at ok
  simp only [bindOk] at ok
  obtain ⟨pageCap,capped,overhead,wired,perByte,transfer,rest⟩ := ok
  cases rest
  have wire := Dec.underCast (add_nonneg (overheadNonneg wired) (capSound capped).2) le_rfl
  exact (wire.mul (.refl (transferNonneg transfer))).nonneg

theorem ratesOf {cfg : BudgetSettings} {dsRead dsWrite kvRead kvWrite dsStorage kvStorage call page : Dec}
    (readOk : perOp cfg.prices.datasetReadsPer1000 "DATASET_READS_USD_PER_1000" = .ok dsRead)
    (writeOk : perOp cfg.prices.datasetWritesPer1000 "DATASET_WRITES_USD_PER_1000" = .ok dsWrite)
    (kvReadOk : perOp cfg.prices.kvReadsPer1000 "KV_READS_USD_PER_1000" = .ok kvRead)
    (kvWriteOk : perOp cfg.prices.kvWritesPer1000 "KV_WRITES_USD_PER_1000" = .ok kvWrite)
    (storageOk : price cfg.prices.datasetStoragePerGbHour "DATASET_STORAGE_USD_PER_GB_HOUR" = .ok dsStorage)
    (kvStorageOk : price cfg.prices.kvStoragePerGbHour "KV_STORAGE_USD_PER_GB_HOUR" = .ok kvStorage)
    (callOk : apiCallBound cfg = .ok call) (pageOk : datasetPageBound cfg = .ok page) :
    ∃ rates : Rates, rates.Of cfg ∧ rates.dsRead = dsRead ∧ rates.dsWrite = dsWrite ∧ rates.kvRead = kvRead ∧
      rates.kvWrite = kvWrite ∧ rates.dsStorage = dsStorage ∧ rates.kvStorage = kvStorage ∧ rates.call = call ∧
      rates.page = page := by
  exact ⟨⟨dsRead,dsWrite,kvRead,kvWrite,dsStorage,kvStorage,call,page,perOpNonneg readOk,perOpNonneg writeOk,
    perOpNonneg kvReadOk,perOpNonneg kvWriteOk,(priceNonneg storageOk).2,(priceNonneg kvStorageOk).2,callNonneg callOk,
    pageNonneg pageOk⟩,
    ⟨readOk,writeOk,kvReadOk,kvWriteOk,storageOk,kvStorageOk,callOk,pageOk⟩,rfl,rfl,rfl,rfl,rfl,rfl,rfl,rfl⟩

theorem pageLimitSound {pageCap rowBytes limit : Int} (ok : pageLimit pageCap rowBytes = .ok limit) :
    0 < rowBytes ∧ limit = (pageCap - datasetPageEnvelopeBytes) / rowBytes ∧ 1 ≤ limit := by
  unfold pageLimit at ok
  split at ok
  · cases ok
  · dsimp only at ok
    split at ok
    · cases ok
    · cases ok
      exact ⟨by omega,rfl,by omega⟩

theorem pagesNonneg {cfg : BudgetSettings} {items rowBytes pages : Int} (nonneg : 0 ≤ items)
    (ok : pagesPerRead cfg items rowBytes = .ok pages) : 0 ≤ pages := by
  unfold pagesPerRead at ok
  obtain ⟨pageCap,capped,ok⟩ := bindOk.mp ok
  split at ok
  · cases ok
  rename_i limit limited
  cases ok
  have low := (pageLimitSound limited).2.2
  have count : 0 ≤ (items + limit - 1) / limit := Int.ediv_nonneg (by omega) (by omega)
  omega

structure Caps where
  shape : RunShape
  pages : Int
  datasetReads : Int
  kvReads : Int
  attempts : Int
  polls : Int
  kvBytes : Int
  hours : Dec

structure Caps.Of (caps : Caps) (shape : RunShape) (cfg : BudgetSettings) : Prop where
  priced : caps.shape = shape
  pages : pagesPerRead cfg shape.maxItems shape.maxItemBytes = .ok caps.pages
  datasetReads : cap cfg.maxDatasetReads "MAX_DATASET_READS" 0 = .ok caps.datasetReads
  kvReads : cap cfg.maxKvReads "MAX_KV_READS" 0 = .ok caps.kvReads
  attempts : cap cfg.maxDeleteAttempts "MAX_DELETE_ATTEMPTS" 0 = .ok caps.attempts
  polls : cap cfg.maxRunPolls "MAX_RUN_POLLS" 0 = .ok caps.polls
  kvBytes : cap cfg.maxKvBytes "MAX_KV_BYTES" 0 = .ok caps.kvBytes
  hours : storageHours cfg = .ok caps.hours

def Caps.use (caps : Caps) : PostRunUse where
  items := caps.shape.maxItems
  pages := caps.pages
  datasetReads := caps.datasetReads
  kvReads := caps.kvReads
  attempts := caps.attempts
  polls := caps.polls
  rowBytes := caps.shape.maxItemBytes
  kvStored := (caps.kvBytes + maxApiRequestBodyBytes : Int)
  hours := caps.hours

theorem estimateParts {shape : RunShape} {cfg : BudgetSettings} {est : CostEstimate}
    (ok : estimateRunCost shape cfg = .ok est) : ∃ (rates : Rates) (caps : Caps) (execution margin : Dec),
      rates.Of cfg ∧ caps.Of shape cfg ∧ reservationMargin cfg = .ok margin ∧ est.executionBoundUsd =
      toLedger execution.value ∧ est.postRunLiabilityUsd = toLedger (caps.use.liability rates).value ∧
      est.estimateUsd = withMargin execution (caps.use.liability rates) margin := by
  unfold estimateRunCost at ok
  simp only [bindOk] at ok
  obtain ⟨_,_,_,read,_,write,_,kvRead,_,kvWrite,_,storage,_,kvStorage,_,_,margin,margined,_,_,ok⟩ := ok
  split at ok
  · cases ok
  simp only [bindOk] at ok
  obtain ⟨reads,readsCap,kvReads,kvReadsCap,attempts,attemptsCap,polls,pollsCap,_,_,_,_,kvBytes,kvBytesCap,_,_,ok⟩ := ok
  split at ok
  · cases ok
  simp only [bindOk] at ok
  obtain ⟨pages,paged,hours,stored,_,call,_,page,_,_,ok⟩ := ok
  obtain ⟨rates,of,rfl,rfl,rfl,rfl,rfl,rfl,rfl,rfl⟩ := ratesOf read write kvRead kvWrite storage kvStorage call page
  cases ok
  have capsOf : Caps.Of ⟨shape,pages,reads,kvReads,attempts,polls,kvBytes,hours⟩ shape cfg :=
    ⟨rfl,paged,readsCap,kvReadsCap,attemptsCap,pollsCap,kvBytesCap,stored⟩
  -- the sum of the parts begins at zero
  have first : ((reads * (shape.maxItems + pages) : Int) * rates.dsRead + (kvReads : Dec) * rates.kvRead).Fits := by
    have counted := add_nonneg shape.itemsNonneg (pagesNonneg shape.itemsNonneg paged)
    exact Dec.fitsRound (add_nonneg
      ((Dec.underCast (mul_nonneg (capSound readsCap).2 counted) le_rfl).mul (.refl rates.dsReadNonneg)).nonneg
      ((Dec.underCast (capSound kvReadsCap).2 le_rfl).mul (.refl rates.kvReadNonneg)).nonneg)
  have begun := first.zeroAdd
  refine ⟨rates,_,_,margin,of,capsOf,margined,rfl,congrArg (fun d : Dec => toLedger d.value) ?same,
    congrArg (withMargin _ · margin) ?same⟩
  rw [begun]
  rfl

theorem pagesMono {cfg : BudgetSettings} {items small large few many : Int} (nonneg : 0 ≤ items) (order : small ≤ large)
    (fewOk : pagesPerRead cfg items small = .ok few) (manyOk : pagesPerRead cfg items large = .ok many) :
    few ≤ many := by
  unfold pagesPerRead at fewOk manyOk
  obtain ⟨pageCap,capped,fewOk⟩ := bindOk.mp fewOk
  obtain ⟨pageCap',capped',manyOk⟩ := bindOk.mp manyOk
  obtain rfl : pageCap = pageCap' := Except.ok.inj (capped.symm.trans capped')
  split at fewOk
  · cases fewOk
  rename_i more moreOk
  split at manyOk
  · cases manyOk
  rename_i less lessOk
  cases fewOk
  cases manyOk
  obtain ⟨smallPositive,moreEq,moreLow⟩ := pageLimitSound moreOk
  obtain ⟨_,lessEq,lessLow⟩ := pageLimitSound lessOk
  -- a page holds at most as many of the larger rows
  have limits : less ≤ more := by
    have fit := Int.ediv_mul_le (pageCap - datasetPageEnvelopeBytes) (show large ≠ 0 by omega)
    rw [← lessEq] at fit
    rw [moreEq,Int.le_ediv_iff_mul_le smallPositive]
    calc less * small ≤ less * large := Int.mul_le_mul_of_nonneg_left order (by omega)
      _ ≤ pageCap - datasetPageEnvelopeBytes := fit
  have count : 0 ≤ (items + less - 1) / less := Int.ediv_nonneg (by omega) (by omega)
  have rest := Int.lt_ediv_add_one_mul_self (items + less - 1) (show 0 < less by omega)
  have fits : items ≤ (items + less - 1) / less * more := by nlinarith
  have fewer : (items + more - 1) / more ≤ (items + less - 1) / less :=
    Int.le_of_lt_add_one ((Int.ediv_lt_iff_lt_mul (by omega)).mpr (by nlinarith))
  omega

theorem countedPriceSame {value : Option Decimal} {name label : String} {q : Dec}
    (ok : countedPrice value name = .ok q) :
    price value label = .ok q := by
  cases found : nonNegative value with
  | none => simp [countedPrice,found] at ok
  | some r =>
    have same : Dec.mk r = q := by simpa [countedPrice,found] using ok
    simp [price,found,same]

theorem countedPerOpSame {value : Option Decimal} {name label : String} {q : Dec}
    (ok : countedPerOp value name = .ok q) :
    perOp value label = .ok q := by
  unfold countedPerOp at ok
  obtain ⟨per1000,priced,rest⟩ := bindOk.mp ok
  unfold perOp
  exact bindOk.mpr ⟨per1000,countedPriceSame priced,rest⟩

theorem ratesUnique {r s : Rates} {cfg : BudgetSettings} (left : r.Of cfg) (right : s.Of cfg) : r = s := by
  obtain ⟨_,_,_,_,_,_,_,_,_,_,_,_,_,_,_,_⟩ := r
  obtain ⟨_,_,_,_,_,_,_,_,_,_,_,_,_,_,_,_⟩ := s
  obtain ⟨h1,h2,h3,h4,h5,h6,h7,h8⟩ := left
  obtain ⟨g1,g2,g3,g4,g5,g6,g7,g8⟩ := right
  simp only [Rates.mk.injEq]
  exact ⟨Except.ok.inj (h1.symm.trans g1),Except.ok.inj (h2.symm.trans g2),Except.ok.inj (h3.symm.trans g3),
    Except.ok.inj (h4.symm.trans g4),Except.ok.inj (h5.symm.trans g5),Except.ok.inj (h6.symm.trans g6),
    Except.ok.inj (h7.symm.trans g7),Except.ok.inj (h8.symm.trans g8)⟩

def ProviderRun.use (run : ProviderRun) (pages kvBytes deletedAt : Int) : PostRunUse where
  items := run.maxItems
  pages
  datasetReads := run.datasetReadCount
  kvReads := run.kvReadCount
  attempts := run.storageCleanupAttempts
  polls := run.runPollCount
  rowBytes := maxListingRowBytes
  kvStored := kvBytes + maxApiRequestBodyBytes
  hours := lifetimeHours run.admittedAt deletedAt

theorem countedParts {run : ProviderRun} {config : LedgerConfig} {cost : Nat}
    (ok : countedPostRunCost run config = .ok cost) : ∃ (rates : Rates) (margin : Dec) (pages kvBytes deletedAt : Int),
      rates.Of config.budget ∧ reservationMargin config.budget = .ok margin ∧
      pagesPerRead config.budget run.maxItems maxListingRowBytes = .ok pages ∧
      config.budget.maxKvBytes = some kvBytes ∧ 0 ≤ kvBytes ∧ run.storageDeletedAt = some deletedAt ∧
      cost = toLedger ((run.use pages kvBytes deletedAt).cost rates * (1 + margin)).value := by
  unfold countedPostRunCost at ok
  simp only [bindOk] at ok
  obtain ⟨margin,margined,sized,sizedOk,_,read,_,write,_,kvRead,_,kvWrite,_,storage,_,kvStorage,pages,paged,
      _,call,_,page,
    ok⟩ := ok
  obtain ⟨rates,of,rfl,rfl,rfl,rfl,rfl,rfl,rfl,rfl⟩ := ratesOf (countedPerOpSame read) (countedPerOpSame write)
    (countedPerOpSame kvRead) (countedPerOpSame kvWrite) (countedPriceSame storage)
    (countedPriceSame kvStorage) call page
  unfold countedSize at sizedOk
  split at sizedOk
  · rename_i kvBytes deletedAt stored deleted
    split at sizedOk
    · cases sizedOk
    cases sizedOk
    unfold countedMargin at margined
    split at margined
    · cases margined
      rename_i found
      cases ok
      exact ⟨rates,_,pages,kvBytes,deletedAt,of,by rw [reservationMargin,found],paged,stored,by omega,deleted,rfl⟩
    · cases margined
  · cases sizedOk

structure ProviderRun.WithinCaps (run : ProviderRun) (shape : RunShape) (cfg : BudgetSettings) : Prop where
  items : (run.maxItems : Int) = shape.maxItems
  datasetReads : ∀ limit ∈ cfg.maxDatasetReads, (run.datasetReadCount : Int) ≤ limit
  kvReads : ∀ limit ∈ cfg.maxKvReads, (run.kvReadCount : Int) ≤ limit
  polls : ∀ limit ∈ cfg.maxRunPolls, (run.runPollCount : Int) ≤ limit
  attempts : ∀ limit ∈ cfg.maxDeleteAttempts, (run.storageCleanupAttempts : Int) ≤ limit
  lifetime : ∀ hours, storageHours cfg = .ok hours → ∀ deletedAt ∈ run.storageDeletedAt,
    (lifetimeHours run.admittedAt deletedAt).value ≤ hours.value

theorem lifetimeNonneg (admittedAt deletedAt : Int) : 0 ≤ (lifetimeHours admittedAt deletedAt).value :=
  ((Dec.Under.refl (le_max_right _ _)).div (Nat.cast_nonneg 3600)).nonneg

theorem useNonneg (run : ProviderRun) {pages kvBytes : Int} (deletedAt : Int) (paged : 0 ≤ pages)
    (stored : 0 ≤ kvBytes) : (run.use pages kvBytes deletedAt).Nonneg where
  items := Int.natCast_nonneg _
  pages := paged
  datasetReads := Int.natCast_nonneg _
  kvReads := Int.natCast_nonneg _
  attempts := Int.natCast_nonneg _
  polls := Int.natCast_nonneg _
  rowBytes := by norm_num [ProviderRun.use,maxListingRowBytes]
  kvStored := add_nonneg stored (by norm_num [maxApiRequestBodyBytes])
  hours := lifetimeNonneg _ _

theorem useWithin {run : ProviderRun} {shape : RunShape} {cfg : BudgetSettings} {caps : Caps}
    {pages kvBytes deletedAt : Int}
    (within : run.WithinCaps shape cfg) (of : caps.Of shape cfg) (rows : maxListingRowBytes ≤ shape.maxItemBytes)
    (paged : pagesPerRead cfg run.maxItems maxListingRowBytes = .ok pages) (stored : cfg.maxKvBytes = some kvBytes)
    (deleted : run.storageDeletedAt = some deletedAt) : (run.use pages kvBytes deletedAt).Within caps.use := by
  obtain ⟨rfl,pages',reads,kvReads,attempts,polls,kvBytes',hours⟩ := of
  rw [within.items] at paged
  have same : kvBytes = caps.kvBytes := Option.some.inj (stored.symm.trans (capSound kvBytes').1)
  exact {
    items := within.items.le
    pages := pagesMono caps.shape.itemsNonneg rows paged pages'
    datasetReads := within.datasetReads _ (capSound reads).1
    kvReads := within.kvReads _ (capSound kvReads).1
    attempts := within.attempts _ (capSound attempts).1
    polls := within.polls _ (capSound polls).1
    rowBytes := rows
    kvStored := by rw [ProviderRun.use,Caps.use,same]
    hours := within.lifetime _ hours _ deleted }

theorem capsNonneg {caps : Caps} {shape : RunShape} {cfg : BudgetSettings} (of : caps.Of shape cfg)
    (hours : 0 ≤ caps.hours.value) : caps.use.Nonneg := by
  obtain ⟨rfl,paged,reads,kvReads,attempts,polls,kvBytes,_⟩ := of
  exact {
    items := caps.shape.itemsNonneg
    pages := pagesNonneg caps.shape.itemsNonneg paged
    datasetReads := (capSound reads).2
    kvReads := (capSound kvReads).2
    attempts := (capSound attempts).2
    polls := (capSound polls).2
    rowBytes := caps.shape.itemBytesPositive.le
    kvStored := add_nonneg (capSound kvBytes).2 (by norm_num [maxApiRequestBodyBytes])
    hours }

theorem marginSound {cfg : BudgetSettings} {margin : Dec} (ok : reservationMargin cfg = .ok margin) :
    0 ≤ margin.value := by
  unfold reservationMargin at ok
  split at ok
  · cases ok
    rename_i found
    exact (nonNegativeSound found).2
  · cases ok

theorem ledgerLt {n : Nat} {a : ℚ} (less : usd n < a) : n < toLedger a := by
  by_contra most
  have covered := (toLedgerCovers a).trans (usdLe.mpr (not_lt.mp most))
  linarith

theorem recordedFits {n : Nat} (fits : n ≤ 10 ^ 28) : (recorded n).Fits := by
  have same : recorded n = ⟨((n : Int) : ℚ) * 10 ^ (-4 : Int)⟩ := congrArg Dec.mk (by
    rw [usd,zpow_neg,← div_eq_mul_inv]
    norm_num)
  rw [same]
  exact Dec.fitsInt (Int.natCast_nonneg n) (by exact_mod_cast fits)

theorem recordedAdd {e p : Nat} (fits : e + p ≤ 10 ^ 28) : recorded e + recorded p = recorded (e + p) := by
  have rounded : toDigits 28 (usd (e + p)) = usd (e + p) := recordedFits fits
  change (⟨toDigits 28 (usd e + usd p)⟩ : Dec) = ⟨usd (e + p)⟩
  rw [← usdAdd,rounded]

theorem factorSound {margin : Dec} (nonneg : 0 ≤ margin.value) : (1 + margin).Fits ∧ 1 ≤ (1 + margin).value := by
  have one : (1 : Dec).value = 1 := Nat.cast_one
  have whole : 0 ≤ (1 : Dec).value := one ▸ zero_le_one
  exact ⟨Dec.fitsRound (add_nonneg whole nonneg),one.symm.le.trans (Dec.fitsOne.underAdd whole nonneg).le⟩

theorem partsCovered {e p : Nat} {factor : Dec} (more : 1 ≤ factor.value)
    (column : toLedger ((recorded e + recorded p) * factor).value < 10 ^ 10) :
    e + p ≤ toLedger ((recorded e + recorded p) * factor).value := by
  have least : ∀ n ≤ e + p, n ≤ 10 ^ 28 → n ≤ toLedger ((recorded e + recorded p) * factor).value := by
    intro n within fits
    have n0 := usdNonneg n
    have sum : (recorded n).value ≤ (recorded e + recorded p).value :=
      (recordedFits fits).above n0 ((usdLe.mpr within).trans (usdAdd e p).le)
    have grossed : (recorded n).value ≤ ((recorded e + recorded p) * factor).value :=
      (recordedFits fits).above n0 (sum.trans (le_mul_of_one_le_right (n0.trans sum) more))
    exact (toLedgerUsd n).symm.le.trans (toLedgerMono grossed)
  rcases le_or_gt (e + p) (10 ^ 28) with fits | large
  · exact least _ le_rfl fits
  · have full := least (10 ^ 10) (by omega) (by norm_num)
    omega

theorem carriedOver {e p k : Nat} {factor : Dec} (some_ : 0 < e) (apart : p < k) (column : e + k ≤ 10 ^ 17)
    (small : p ≤ 10 ^ 10) (over_ : usd k < usd p * factor.value) :
    usd (e + k) < (recorded (e + p) * factor).value := by
  have units : (k : ℚ) < p * factor.value := by
    unfold usd at over_
    linarith
  have next : (p : ℚ) + 1 ≤ k := by exact_mod_cast apart
  have few : (p : ℚ) ≤ 10 ^ 10 := by exact_mod_cast small
  have one : (1 : ℚ) ≤ e := by exact_mod_cast some_
  have p0 : (0 : ℚ) ≤ p := Nat.cast_nonneg p
  -- the price is below `10 ^ 10`, so the factor is above one by at least the inverse of that
  have margin : 1 / 10 ^ 10 ≤ factor.value - 1 := by
    by_contra! less
    have product := mul_le_mul_of_nonneg_left less.le p0
    have bound := mul_le_mul_of_nonneg_right few (by norm_num : (0 : ℚ) ≤ 1 / 10 ^ 10)
    norm_num at product bound
    linarith
  have grown : (1 : ℚ) / 10 ^ 10 ≤ e * (factor.value - 1) :=
    margin.trans (le_mul_of_one_le_left (le_trans (by norm_num) margin) one)
  have target : (Dec.mk (((e + k) * 10 ^ 10 + 1 : ℕ) * 10 ^ (-14 : ℤ))).Fits :=
    Dec.fitsInt (n := ((e + k) * 10 ^ 10 + 1 : ℕ)) (Int.natCast_nonneg _) (by push_cast; omega)
  have value : (((e + k) * 10 ^ 10 + 1 : ℕ) : ℚ) * 10 ^ (-14 : ℤ) = usd (e + k) + 1 / 10 ^ 14 := by
    rw [usd,zpow_neg]
    push_cast
    norm_num
    ring
  have reached := target.above (x := usd (e + p) * factor.value) (by
    dsimp only
    positivity) (by
    dsimp only
    rw [value,usd,usd]
    push_cast
    norm_num at grown ⊢
    linarith)
  dsimp only at reached
  rw [value] at reached
  calc usd (e + k) < usd (e + k) + 1 / 10 ^ 14 := by norm_num
    _ ≤ (recorded (e + p) * factor).value := reached

theorem partCovered {e p : Nat} {factor : Dec} (fits : factor.Fits) (more : 1 ≤ factor.value)
    (column : toLedger ((recorded e + recorded p) * factor).value < 10 ^ 10) :
    e + toLedger (recorded p * factor).value ≤ toLedger ((recorded e + recorded p) * factor).value := by
  have parts := partsCovered more column
  have few := parts.trans_lt column
  rw [recordedAdd (by omega)] at column parts ⊢
  have p0 := usdNonneg p
  have below : toLedger (recorded p * factor).value ≤ toLedger (recorded (e + p) * factor).value :=
    toLedgerMono (Dec.Under.mul ⟨p0,usdLe.mpr (Nat.le_add_left _ _)⟩ (.refl (zero_le_one.trans more))).le
  rcases Nat.eq_zero_or_pos e with rfl | some_
  · simp
  cases carried : toLedger (recorded p * factor).value with
  | zero => omega
  | succ k =>
    rcases Nat.lt_or_ge k p with small | large
    · omega
    have over_ : usd k < usd p * factor.value := by
      by_contra! most
      have rounded := (recordedFits (n := k) (by omega)).below (mul_nonneg p0 (zero_le_one.trans more)) most
      have reached := toLedgerLe rounded
      change toLedger (recorded p * factor).value ≤ k at reached
      omega
    have next : usd (e + k) < (recorded (e + p) * factor).value := by
      rcases large.eq_or_lt with rfl | apart
      · have positive : 0 < (recorded (e + p)).value := by
          change 0 < usd (e + p)
          unfold usd
          positivity
        refine (recordedFits (by omega)).grows positive fits ?_
        by_contra! most
        have still := mul_le_mul_of_nonneg_left most p0
        linarith
      · exact carriedOver some_ apart (by omega) (by omega) over_
    have reached := ledgerLt next
    omega

/-- The sums of the post-run cost at the caps do not depend on their order. -/
def SumsSteady (shape : RunShape) (cfg : BudgetSettings) : Prop :=
  ∀ rates caps, Rates.Of rates cfg → Caps.Of caps shape cfg → caps.use.Steady rates

theorem countedWithin {shape : RunShape} {cfg : BudgetSettings} {est : CostEstimate} {run : ProviderRun}
    {config : LedgerConfig} {cost : Nat} (priced : estimateRunCost shape cfg = .ok est) (same : config.budget = cfg)
    (rows : maxListingRowBytes ≤ shape.maxItemBytes) (steady : SumsSteady shape cfg) (within : run.WithinCaps shape cfg)
    (counted : countedPostRunCost run config = .ok cost) : ∃ margin, reservationMargin cfg = .ok margin ∧
      cost ≤ toLedger (recorded est.postRunLiabilityUsd * (1 + margin)).value := by
  obtain ⟨rates,caps,execution,margin,of,capsOf,margined,_,liability,_⟩ := estimateParts priced
  obtain ⟨rates',margin',pages,kvBytes,deletedAt,of',margined',paged,stored,bytes,deleted,rfl⟩ := countedParts counted
  rw [same] at of' margined' paged stored
  obtain rfl := ratesUnique of of'
  obtain rfl : margin = margin' := Except.ok.inj (margined.symm.trans margined')
  have uses := useWithin within capsOf rows paged stored deleted
  have used := useNonneg run deletedAt (pagesNonneg (Int.natCast_nonneg _) paged) bytes
  have capped := capsNonneg capsOf (used.hours.trans uses.hours)
  have factor := Dec.Under.refl (zero_le_one.trans (factorSound (marginSound margined)).2)
  have covered := steadyCovers capped (steady rates caps of capsOf)
  rw [← liability] at covered
  exact ⟨margin,margined,toLedgerMono (Dec.Under.mul ((costMono rates used uses).trans
    ⟨(costMono rates used uses).most,covered⟩) factor).le⟩

structure Reservation.BuiltFrom (resv : Reservation) (est : CostEstimate) : Prop where
  execution : resv.executionBoundUsd = some est.executionBoundUsd
  postRun : resv.postRunLiabilityUsd = some est.postRunLiabilityUsd
  estimate : resv.estimateUsd = some est.estimateUsd
  column : est.estimateUsd < 10 ^ 10

theorem settlementFrom {config : LedgerConfig} {now : Int} {reads : List UsageRead} {resv row : Reservation}
    {run : Option ProviderRun} (settles : settlement config now reads resv run = some row) :
    resv.status.isOpen = true ∧ ∃ anchorAt from_ deadline window capSpent s, anchor reads run = some anchorAt ∧
      settlementTimes anchorAt config = .ok (from_,deadline,window) ∧
      settling config now deadline from_ (resv.executionBoundUsd.getD 0) capSpent
        (reads.mergeSort fun a b => a.readAt ≤ b.readAt) = some s ∧
      row = settledRow resv run config now anchorAt window s := by
  unfold settlement at settles
  split at settles
  · cases settles
  rename_i wasOpen
  split at settles
  · cases settles
  split at settles
  · cases settles
  split at settles
  · cases settles
  rename_i anchorAt anchored
  split at settles
  · cases settles
  rename_i from_ deadline window times
  obtain ⟨s,settled,made⟩ := Option.map_eq_some_iff.mp settles
  exact ⟨by simpa using wasOpen,anchorAt,from_,deadline,window,_,s,anchored,times,settled,made.symm⟩

theorem foldMaxLe {bound : ℚ} (totals : List ℚ) {start : ℚ} (low : start ≤ bound)
    (le : ∀ total ∈ totals, total ≤ bound) :
    totals.foldl max start ≤ bound := by
  induction totals generalizing start with
  | nil => exact low
  | cons total totals ih =>
    exact ih (max_le low (le total List.mem_cons_self)) fun other mem => le other (List.mem_cons_of_mem _ mem)

theorem settlingWithin {config : LedgerConfig} {now deadline from_ : Int} {execution : Nat} {capSpent : Bool}
    {reads : List UsageRead} {s : Settling}
    (settles : settling config now deadline from_ execution capSpent reads = some s)
    (observed : ∀ r ∈ reads, ∀ total ∈ r.usageTotalUsd, total ≤ usd execution) : s.settled ≤ usd execution := by
  have totals : ∀ rows : List UsageRead, rows.Sublist reads →
      ∀ total ∈ rows.filterMap UsageRead.usageTotalUsd, total ≤ usd execution := by
    intro rows sub total mem
    obtain ⟨r,inside,figure⟩ := List.mem_filterMap.mp mem
    exact observed r (sub.subset inside) total figure
  have atBound := foldMaxLe _ (le_refl (usd execution)) (totals reads (List.Sublist.refl _))
  have eligible : ((((reads.filter fun r => from_ ≤ r.readAt).filterMap UsageRead.usageTotalUsd).max?).getD 0) ≤
      usd execution := by
    cases most : ((reads.filter fun r => from_ ≤ r.readAt).filterMap UsageRead.usageTotalUsd).max? with
    | none => exact usdNonneg execution
    | some total => exact totals _ List.filter_sublist total (List.max?_mem most)
  unfold settling at settles
  dsimp only at settles
  split at settles
  · rename_i early
    cases settles
    split at early
    · obtain ⟨_,_,rfl⟩ := Option.map_eq_some_iff.mp early
      exact eligible
    · split at early
      · cases early
        exact atBound
      · cases early
  · split at settles
    · cases settles
      exact atBound
    · cases settles

theorem settledWithinEstimate {shape : RunShape} {cfg : BudgetSettings} {est : CostEstimate}
    (priced : estimateRunCost shape cfg = .ok est) {resv row : Reservation} (built : resv.BuiltFrom est)
    {run : ProviderRun} {config : LedgerConfig} {now : Int} {reads : List UsageRead}
    (settles : settlement config now reads resv (some run) = some row)
    (observed : ∀ r ∈ reads, ∀ total ∈ r.usageTotalUsd, total ≤ usd est.executionBoundUsd) :
    (row.postRunCostMode = some .bound → ∃ actual, row.actualUsd = some actual ∧ actual ≤ est.estimateUsd) ∧
    (config.budget = cfg → maxListingRowBytes ≤ shape.maxItemBytes → SumsSteady shape cfg → run.WithinCaps shape cfg →
      (∀ cost, countedPostRunCost run config = .ok cost → ∃ margin, reservationMargin cfg = .ok margin ∧
        cost ≤ toLedger (recorded est.postRunLiabilityUsd * (1 + margin)).value) ∧
      ∃ actual, row.actualUsd = some actual ∧ actual ≤ est.estimateUsd) := by
  obtain ⟨_,anchorAt,_,_,window,_,s,_,_,settled,rfl⟩ := settlementFrom settles
  obtain ⟨rates,caps,execution,margin,_,_,margined,executionEq,liability,estimate⟩ := estimateParts priced
  obtain ⟨fits,more⟩ := factorSound (marginSound margined)
  have column := built.column
  rw [withMargin,← executionEq,← liability] at estimate
  rw [estimate] at column
  have bound := partsCovered more column
  have counted := partCovered fits more column
  rw [← estimate] at bound counted
  rw [built.execution,Option.getD_some] at settled
  have usage : toLedger s.settled ≤ est.executionBoundUsd := by
    refine toLedgerLe (settlingWithin settled fun r mem => observed r ?_)
    exact List.mem_mergeSort.mp mem
  have atBound : toLedger s.settled + resv.postRunLiabilityUsd.getD 0 ≤ est.estimateUsd := by
    rw [built.postRun,Option.getD_some]
    omega
  simp only [settledRow,Option.some.injEq,exists_eq_left',postRunCost]
  constructor
  · intro mode
    split at mode
    · cases mode
    · exact atBound
  · intro same rows steady within
    refine ⟨fun cost ok => countedWithin priced same rows steady within ok,?_⟩
    split
    · rename_i cost _ ok
      obtain ⟨margin',margined',covered⟩ := countedWithin priced same rows steady within ok
      obtain rfl : margin = margin' := Except.ok.inj (margined.symm.trans margined')
      dsimp only
      omega
    · exact atBound

def smallRows : RunShape := ⟨1024,600,1000,100,1000000,1,by decide,by decide,by decide,by decide,by decide,by decide⟩

def fullRows : RunShape := { smallRows with maxItemBytes := maxListingRowBytes, itemBytesPositive := by decide }

def countedConfig : LedgerConfig := { verifiedConfig with postRunCostMode := some .counted }

def cappedRun : ProviderRun where
  sourceSite := 1
  scopeKey := "epyc"
  memoryMb := 1024
  timeoutS := 600
  maxItems := 1000
  maxPages := 10
  admissionClass := .discovery
  admittedAt := 0
  storageCleanupDueAt := 0
  finishedAt := some 0
  importState := .finalized
  datasetReadCount := 3
  kvReadCount := 3
  runPollCount := 60
  finalChargeOpAt := some (hours 700)
  storageState := .deleted
  storageCleanupAttempts := 10
  storageDeletedAt := some (hours 700)

def noEstimate : CostEstimate := ⟨[],0,0,0,0,""⟩

def smallEstimate : CostEstimate := (estimateRunCost smallRows verifiedSettings).toOption.getD noEstimate
def fullEstimate : CostEstimate := (estimateRunCost fullRows verifiedSettings).toOption.getD noEstimate

def boundUsage (est : CostEstimate) : UsageRead :=
  ⟨0,some 0,hours 720,some (usd est.executionBoundUsd),[],none,"1"⟩

def cappedRow (shape : RunShape) (est : CostEstimate) : Reservation :=
  { Reservation.of (.discovery shape) ⟨none,"",some est⟩ (some 1) {} 0 "" with providerRun := some 0 }

theorem cappedWithin {shape : RunShape} (items : shape.maxItems = 1000) :
    cappedRun.WithinCaps shape countedConfig.budget := by
  refine ⟨items.symm,?_,?_,?_,?_,fun hours ok deletedAt deleted => ?_⟩
  · decide
  · decide
  · decide
  · decide
  · have bound : storageHours countedConfig.budget = .ok 746 := by decide +kernel
    obtain rfl := Except.ok.inj (bound.symm.trans ok)
    obtain rfl := Option.some.inj deleted
    decide +kernel

theorem smallRowsOverrun : ∃ cost row : Nat, ∃ margin, estimateRunCost smallRows verifiedSettings = .ok smallEstimate ∧
    (cappedRow smallRows smallEstimate).BuiltFrom smallEstimate ∧
    cappedRun.WithinCaps smallRows countedConfig.budget ∧ countedConfig.budget = verifiedSettings ∧
    reservationMargin verifiedSettings = .ok margin ∧ countedPostRunCost cappedRun countedConfig = .ok cost ∧
    toLedger (recorded smallEstimate.postRunLiabilityUsd * (1 + margin)).value < cost ∧
    (settlement countedConfig (hours 720) [boundUsage smallEstimate] (cappedRow smallRows smallEstimate)
      (some cappedRun)).bind Reservation.actualUsd = some row ∧ smallEstimate.estimateUsd < row :=
  ⟨1355,1822,⟨1 / 10⟩,by decide +kernel,⟨rfl,rfl,rfl,by decide +kernel⟩,cappedWithin rfl,rfl,by decide +kernel,
    by decide +kernel,by decide +kernel,by decide +kernel,by decide +kernel⟩

theorem fullSteady : SumsSteady fullRows verifiedSettings := by
  intro rates caps of capsOf
  have dsRead : rates.dsRead = ⟨4 / 10 ^ 7⟩ := Except.ok.inj (of.dsRead.symm.trans (by decide +kernel))
  have dsWrite : rates.dsWrite = ⟨5 / 10 ^ 6⟩ := Except.ok.inj (of.dsWrite.symm.trans (by decide +kernel))
  have kvRead : rates.kvRead = ⟨5 / 10 ^ 6⟩ := Except.ok.inj (of.kvRead.symm.trans (by decide +kernel))
  have kvWrite : rates.kvWrite = ⟨5 / 10 ^ 5⟩ := Except.ok.inj (of.kvWrite.symm.trans (by decide +kernel))
  have dsStorage : rates.dsStorage = ⟨1 / 10 ^ 3⟩ := Except.ok.inj (of.dsStorage.symm.trans (by decide +kernel))
  have kvStorage : rates.kvStorage = ⟨1 / 10 ^ 3⟩ := Except.ok.inj (of.kvStorage.symm.trans (by decide +kernel))
  have call : rates.call = ⟨1810720 / 10 ^ 10⟩ := Except.ok.inj (of.call.symm.trans (by decide +kernel))
  have page : rates.page = ⟨2883584 / 10 ^ 10⟩ := Except.ok.inj (of.page.symm.trans (by decide +kernel))
  have priced := capsOf.priced
  have pages : caps.pages = 33 := Except.ok.inj (capsOf.pages.symm.trans (by decide +kernel))
  have datasetReads : caps.datasetReads = 3 := Except.ok.inj (capsOf.datasetReads.symm.trans (by decide +kernel))
  have kvReads : caps.kvReads = 3 := Except.ok.inj (capsOf.kvReads.symm.trans (by decide +kernel))
  have attempts : caps.attempts = 10 := Except.ok.inj (capsOf.attempts.symm.trans (by decide +kernel))
  have polls : caps.polls = 60 := Except.ok.inj (capsOf.polls.symm.trans (by decide +kernel))
  have kvBytes : caps.kvBytes = 65536 := Except.ok.inj (capsOf.kvBytes.symm.trans (by decide +kernel))
  have hours : caps.hours = ⟨746⟩ := Except.ok.inj (capsOf.hours.symm.trans (by decide +kernel))
  refine .inl ?_
  simp only [PostRunUse.upkeep,PostRunUse.calls,PostRunUse.pageReads,Caps.use,priced,dsRead,dsWrite,kvRead,
    kvWrite,dsStorage,kvStorage,call,page,pages,datasetReads,kvReads,attempts,polls,kvBytes,hours]
  exact ⟨by decide +kernel,by decide +kernel⟩

theorem fullRowsWithin : ∃ row margin, settlement countedConfig (hours 720) [boundUsage fullEstimate]
      (cappedRow fullRows fullEstimate) (some cappedRun) = some row ∧ reservationMargin verifiedSettings = .ok margin ∧
    1355 ≤ toLedger (recorded fullEstimate.postRunLiabilityUsd * (1 + margin)).value ∧
    ∃ actual, row.actualUsd = some actual ∧ actual ≤ fullEstimate.estimateUsd := by
  have isSettled : (settlement countedConfig (hours 720) [boundUsage fullEstimate]
    (cappedRow fullRows fullEstimate) (some cappedRun)).isSome = true := by decide +kernel
  obtain ⟨row,settles⟩ := Option.isSome_iff_exists.mp isSettled
  have within := (@settledWithinEstimate fullRows verifiedSettings fullEstimate (by decide +kernel) _ _
    ⟨rfl,rfl,rfl,by decide +kernel⟩ _ _ _ _ settles (by
      intro r mem total figure
      obtain rfl := List.mem_singleton.mp mem
      obtain rfl := Option.some.inj figure
      exact le_rfl)).2 rfl (by decide) fullSteady (cappedWithin rfl)
  obtain ⟨margin,margined,covered⟩ := within.1 1355 (by decide +kernel)
  exact ⟨row,margin,settles,margined,covered,within.2⟩

def longPrices : BudgetSettings := { verifiedSettings with
  margin := some (.finite 0)
  prices := { verifiedSettings.prices with
    datasetStoragePerGbHour := some (.finite (6141706772790279330929240729 / 10 ^ 30))
    transferPerGb := some (.finite (2254768421813785311252143691 / 10 ^ 28)) } }

def longRun : ProviderRun := { cappedRun with storageDeletedAt := some (hours 746) }

example : (estimateRunCost fullRows longPrices).map CostEstimate.postRunLiabilityUsd = .ok 2556 ∧
    countedPostRunCost longRun { countedConfig with budget := longPrices } = .ok 2557 := by decide +kernel

end HwRadar.Apify
