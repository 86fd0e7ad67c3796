import HwRadar.Apify.Settings

/-! Cost estimates: the bound of one run or one operator operation, component by
component. A setting no bound can be computed from is a named denial; the first
one met, in the source's order, is the one reported. -/
namespace HwRadar.Apify
open HwRadar.Base
open HwRadar.Base.Decimal (Dec)

def httpReadChunkBytes : Int := 65536
def httpReceiveBufferBytes : Int := 65536
def maxApiRequestBodyBytes : Int := 16384
def datasetPageEnvelopeBytes : Int := 1024
def maxListingRowBytes : Int := 32735
def fullCycleHours : Int := 744
def callsPerCleanupAttempt : Int := 4
def kvWritesPerDelete : Int := 3
def startCalls : Int := 1
def minKvWrites : Int := 2
def bytesPerGb : Dec := 1000000000

structure RunShape where
  memoryMb : Int
  timeoutS : Int
  maxItems : Int
  maxRequests : Int
  maxBytes : Int
  maxItemBytes : Int
  memoryPositive : 0 < memoryMb
  timeoutPositive : 0 < timeoutS
  itemBytesPositive : 0 < maxItemBytes
  itemsNonneg : 0 ≤ maxItems
  requestsNonneg : 0 ≤ maxRequests
  bytesNonneg : 0 ≤ maxBytes
  deriving DecidableEq

structure CostEstimate where
  components : List (String × Dec)
  executionBoundUsd : Nat
  postRunLiabilityUsd : Nat
  monitoringBoundUsd : Nat
  estimateUsd : Nat
  estimatorVersion : String
  deriving DecidableEq

def CostEstimate.admissionUsd (e : CostEstimate) : Nat := e.estimateUsd + e.monitoringBoundUsd

def pageLimit (maxDatasetPageBytes maxItemBytes : Int) : Except String Int :=
  if maxItemBytes ≤ 0 then .error "max_item_bytes must be positive"
  else
    let limit := (maxDatasetPageBytes - datasetPageEnvelopeBytes) / maxItemBytes
    if limit < 1 then
      .error s!"page_limit < 1: a {maxDatasetPageBytes}-byte page cannot hold one {maxItemBytes}-byte row"
    else .ok limit

def requestWireOverhead (cfg : BudgetSettings) : Except BudgetDenied Int := do
  let overhead ← cap cfg.apiCallOverheadBytes "API_CALL_OVERHEAD_BYTES" 0
  .ok (overhead + 2 * httpReceiveBufferBytes)

def transferPerByte (cfg : BudgetSettings) : Except BudgetDenied Dec := do
  let perGb ← price cfg.prices.transferPerGb "TRANSFER_USD_PER_GB"
  .ok (perGb / bytesPerGb)

def apiCallBound (cfg : BudgetSettings) : Except BudgetDenied Dec := do
  let dsRead ← perOp cfg.prices.datasetReadsPer1000 "DATASET_READS_USD_PER_1000"
  let dsWrite ← perOp cfg.prices.datasetWritesPer1000 "DATASET_WRITES_USD_PER_1000"
  let kvRead ← perOp cfg.prices.kvReadsPer1000 "KV_READS_USD_PER_1000"
  let kvWrite ← perOp cfg.prices.kvWritesPer1000 "KV_WRITES_USD_PER_1000"
  let responseCap ← cap cfg.maxApiResponseBytes "MAX_API_RESPONSE_BYTES" 0
  let overhead ← requestWireOverhead cfg
  let perByte ← transferPerByte cfg
  .ok (max (max (max dsRead dsWrite) kvRead) kvWrite + (overhead + responseCap : Int) * perByte)

def datasetPageBound (cfg : BudgetSettings) : Except BudgetDenied Dec := do
  let pageCap ← cap cfg.maxDatasetPageBytes "MAX_DATASET_PAGE_BYTES" 0
  let overhead ← requestWireOverhead cfg
  let perByte ← transferPerByte cfg
  .ok ((overhead + pageCap : Int) * perByte)

def recorded (amount : Nat) : Dec := ⟨usd amount⟩

def withMargin (execution postRun margin : Dec) : Nat :=
  toLedger ((recorded (toLedger execution.value) + recorded (toLedger postRun.value)) * (1 + margin)).value

/-- `max(STORAGE_MAX_LIFETIME, 744 h + 2 x guard)` in hours. -/
def storageHours (cfg : BudgetSettings) : Except BudgetDenied Dec := do
  let lifetime ← cap cfg.storageMaxLifetimeS "STORAGE_MAX_LIFETIME" 1
  let guard ← cap cfg.cycleBoundaryGuardS "CYCLE_BOUNDARY_GUARD_S" 0
  .ok (max (lifetime / 3600) (fullCycleHours + (2 * guard : Int) / 3600))

/-- `ceil(max_items / page_limit) + 1`: the last page is the terminating empty one. -/
def pagesPerRead (cfg : BudgetSettings) (maxItems maxItemBytes : Int) : Except BudgetDenied Int := do
  let pageCap ← cap cfg.maxDatasetPageBytes "MAX_DATASET_PAGE_BYTES" 0
  match pageLimit pageCap maxItemBytes with
  | .error detail => .error ⟨.unboundedComponent,detail⟩
  | .ok limit => .ok ((maxItems + limit - 1) / limit + 1)

def actorFetchBytes (cfg : BudgetSettings) (maxBytes maxRequests : Int) : Except BudgetDenied Int := do
  let overhead ← requestWireOverhead cfg
  .ok (maxBytes + maxRequests * overhead + httpReadChunkBytes)

def estimateRunCost (shape : RunShape) (cfg : BudgetSettings) : Except BudgetDenied CostEstimate := do
  let p := cfg.prices
  let usdPerCu ← price p.usdPerCu "USD_PER_CU"
  let dsRead ← perOp p.datasetReadsPer1000 "DATASET_READS_USD_PER_1000"
  let dsWrite ← perOp p.datasetWritesPer1000 "DATASET_WRITES_USD_PER_1000"
  let kvRead ← perOp p.kvReadsPer1000 "KV_READS_USD_PER_1000"
  let kvWrite ← perOp p.kvWritesPer1000 "KV_WRITES_USD_PER_1000"
  let dsStorage ← price p.datasetStoragePerGbHour "DATASET_STORAGE_USD_PER_GB_HOUR"
  let kvStorage ← price p.kvStoragePerGbHour "KV_STORAGE_USD_PER_GB_HOUR"
  let perByte ← transferPerByte cfg
  let margin ← reservationMargin cfg
  let maxTimeout ← cap cfg.maxTimeoutS "MAX_TIMEOUT_S" 1
  if shape.timeoutS > maxTimeout then
    .error ⟨.unboundedComponent,s!"timeout_s {shape.timeoutS} exceeds MAX_TIMEOUT_S {maxTimeout}"⟩
  else do
  let datasetReads ← cap cfg.maxDatasetReads "MAX_DATASET_READS" 0
  let kvReads ← cap cfg.maxKvReads "MAX_KV_READS" 0
  let deleteAttempts ← cap cfg.maxDeleteAttempts "MAX_DELETE_ATTEMPTS" 0
  let runPolls ← cap cfg.maxRunPolls "MAX_RUN_POLLS" 0
  let correctionReads ← cap cfg.maxCorrectionReads "MAX_CORRECTION_READS" 0
  let kvWrites ← cap cfg.maxKvWrites "MAX_KV_WRITES" minKvWrites
  let kvBytes ← cap cfg.maxKvBytes "MAX_KV_BYTES" 0
  let responseCap ← cap cfg.maxApiResponseBytes "MAX_API_RESPONSE_BYTES" 0
  if kvBytes > responseCap then
    .error ⟨.unboundedComponent,s!"MAX_KV_BYTES {kvBytes} exceeds MAX_API_RESPONSE_BYTES {responseCap}"⟩
  else do
  let pages ← pagesPerRead cfg shape.maxItems shape.maxItemBytes
  let hours ← storageHours cfg
  let call ← apiCallBound cfg
  let page ← datasetPageBound cfg
  let fetch ← actorFetchBytes cfg shape.maxBytes shape.maxRequests
  let datasetBytes := shape.maxItems * shape.maxItemBytes
  let compute := (shape.memoryMb : Dec) / 1024 * shape.timeoutS / 3600 * usdPerCu
  let runWrites := shape.maxItems * dsWrite + (kvWrites : Dec) * kvWrite
  let transfer := (fetch + datasetBytes + kvWrites * kvBytes : Int) * perByte
  let postRunReads := (datasetReads * (shape.maxItems + pages) : Int) * dsRead + (kvReads : Dec) * kvRead
  let postRunDeletes := (deleteAttempts : Dec)
    * ((shape.maxItems + 1 : Int) * dsWrite + (kvWritesPerDelete : Dec) * kvWrite)
  let storage := (datasetBytes * dsStorage + (kvBytes + maxApiRequestBodyBytes : Int) * kvStorage)
    / bytesPerGb * hours
  let apiCalls := (startCalls + runPolls + callsPerCleanupAttempt * deleteAttempts + kvReads : Int) * call
    + (datasetReads * pages : Int) * page
  let execution := 0 + compute + runWrites + transfer + 0
  let postRun := 0 + postRunReads + postRunDeletes + storage + apiCalls
  .ok {
    components := [("compute",compute),("run_writes",runWrites),("transfer",transfer),("proxy",0),
      ("post_run_reads",postRunReads),("post_run_deletes",postRunDeletes),("storage",storage),
      ("api_calls",apiCalls)]
    executionBoundUsd := toLedger execution.value
    postRunLiabilityUsd := toLedger postRun.value
    monitoringBoundUsd := toLedger (correctionReads * call).value
    estimateUsd := withMargin execution postRun margin
    estimatorVersion := cfg.estimatorVersion }

def envelopeEstimate (components : List (String × Dec)) (margin : Dec) (cfg : BudgetSettings) : CostEstimate :=
  let envelope := (components.map Prod.snd).foldl (· + ·) 0
  { components
    executionBoundUsd := toLedger envelope.value
    postRunLiabilityUsd := 0
    monitoringBoundUsd := 0
    estimateUsd := withMargin envelope 0 margin
    estimatorVersion := cfg.estimatorVersion }

def estimateOperatorCost (kind : OperatorKind) (cfg : BudgetSettings) : Except BudgetDenied CostEstimate := do
  let call ← apiCallBound cfg
  let perByte ← transferPerByte cfg
  match kind with
  | .build =>
    match nonNegative cfg.operatorBuildBoundUsd with
    | none => .error ⟨.unboundedComponent,"OPERATOR_BUILD_BOUND_USD unset"⟩
    | some bound => do
      let polls ← cap cfg.maxRunPolls "MAX_RUN_POLLS" 0
      let corrections ← cap cfg.maxCorrectionReads "MAX_CORRECTION_READS" 0
      let execution : Dec := ⟨bound⟩ + polls * call
      .ok {
        components := [("build",⟨bound⟩),("api_calls",polls * call)]
        executionBoundUsd := toLedger execution.value
        postRunLiabilityUsd := 0
        monitoringBoundUsd := toLedger (corrections * call).value
        estimateUsd := toLedger execution.value
        estimatorVersion := cfg.estimatorVersion }
  | .inspect => do
    let margin ← reservationMargin cfg
    let dsRead ← perOp cfg.prices.datasetReadsPer1000 "DATASET_READS_USD_PER_1000"
    let items ← cap cfg.operatorInspectMaxItems "OPERATOR_INSPECT_MAX_ITEMS" 0
    let records ← cap cfg.operatorInspectMaxRecordReads "OPERATOR_INSPECT_MAX_RECORD_READS" 0
    let outBytes ← cap cfg.operatorInspectMaxBytes "OPERATOR_INSPECT_MAX_BYTES" 0
    .ok (envelopeEstimate [("items",items * dsRead),("record_reads",records * call),
      ("transfer",outBytes * perByte)] margin cfg)
  | .probe => do
    let margin ← reservationMargin cfg
    let dsWrite ← perOp cfg.prices.datasetWritesPer1000 "DATASET_WRITES_USD_PER_1000"
    let dsStorage ← price cfg.prices.datasetStoragePerGbHour "DATASET_STORAGE_USD_PER_GB_HOUR"
    let calls ← cap cfg.operatorProbeMaxCalls "OPERATOR_PROBE_MAX_CALLS" 0
    let hours ← storageHours cfg
    .ok (envelopeEstimate [("calls",calls * (call + dsWrite)),
      ("storage",(maxListingRowBytes : Dec) * dsStorage / bytesPerGb * hours)] margin cfg)

end HwRadar.Apify
