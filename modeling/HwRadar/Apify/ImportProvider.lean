import HwRadar.Apify.DatasetRead
import HwRadar.Apify.Completeness

/-! One terminal run as a provider of listings: its rows and its record are read and the run is
classified once; the batch is parsed by the admission that counted its usable rows, and a complete
run may be read as absence by the rows it gave. -/
namespace HwRadar.Apify.Contract
open HwRadar.Base HwRadar.Ingest

structure RawItem where
  url : String
  payloadJson : Option (List (String × Json))
  payloadText : Option Json

structure RawBatch where
  source : String
  fetchedAt : Int
  items : List RawItem

def rawItem (datasetId : String) (index : Nat) (row : Json) : RawItem :=
  let url := s!"apify-dataset:{datasetId}/{index}"
  match row with
  | .obj fields => ⟨url,some fields,none⟩
  | other => ⟨url,none,some other⟩

def rowOf (item : RawItem) : Json :=
  match item.payloadJson with
  | some fields => .obj fields
  | none => item.payloadText.getD .null

structure KeyValueRecord where
  bytes : Nat
  value : Option Json

/-- `_decode_output`: what is classified, and what is stored. -/
def decodeOutput : Option KeyValueRecord → Output × Option RunOutput
  | none => (.absent,none)
  | some ⟨_,none⟩ => (.undecodable,none)
  | some ⟨_,some value⟩ => (.decoded value,RunOutput.read value)

inductive ProviderError where
  | unknownRetention
  | contractViolation (detail : String)
  | value (detail : String)
  | notImportable (detail : String)
  | client (error : String)
  | lost
  deriving DecidableEq, Repr

structure ImportProvider where
  pk : Nat
  siteKey : String
  run : ProviderRun
  admitted : AdmittedRun
  maxPageBytes : Int
  limit : Int
  limited : pageLimit maxPageBytes maxListingRowBytes = .ok limit
  own : admitted.queryScope.siteKey = siteKey ∧ admitted.queryScope.collectionScope = run.scopeKey

def ImportProvider.of (pk : Nat) (siteKey : String) (retained : Bool) (queryScope : Json) (actorName : String)
    (maxPageBytes : Int) (run : ProviderRun) : Except ProviderError ImportProvider :=
  if !retained then .error .unknownRetention
  else match QueryScope.read queryScope with
  | none => .error (.contractViolation "provider_run.query_scope is not a QueryScope")
  | some scope =>
    if own : scope.siteKey = siteKey ∧ scope.collectionScope = run.scopeKey then
      match limited : pageLimit maxPageBytes maxListingRowBytes with
      | .error detail => .error (.value detail)
      | .ok limit => .ok ⟨pk,siteKey,run,⟨scope,actorName⟩,maxPageBytes,limit,limited,own⟩
    else .error (.contractViolation "provider_run.query_scope disagrees with the row's site or scope_key")

/-- `_admit` -/
def ImportProvider.admitRow (p : ImportProvider) (raw : Json) : Except RowRejection ParsedListing :=
  importRow raw p.siteKey p.run.scopeKey maxListingRowBytes.toNat

structure Fetch where
  batch : RawBatch
  datasetItemCount : Nat
  classification : RunClassification
  runOutput : Option RunOutput
  outputRecordBytes : Option Nat

def filled (id : Option String) : Option String := id.filter (· ≠ "")

def quoted : Option String → String
  | none => "None"
  | some status => "'" ++ status ++ "'"

def ImportProvider.terminal (p : ImportProvider) : Except ProviderError String :=
  match p.run.remoteStatus.filter terminalRunStatuses.contains with
  | none => .error (.notImportable s!"provider_run {p.pk} is not terminal: {quoted p.run.remoteStatus}")
  | some status => .ok status

def ImportProvider.stored (p : ImportProvider) : Except ProviderError (Int × String) :=
  match p.run.startedAt, filled p.run.datasetId, filled p.run.kvStoreId with
  | some startedAt, some datasetId, some _ => .ok (startedAt,datasetId)
  | _, _, _ => .error (.notImportable s!"provider_run {p.pk} lacks startedAt or storage ids")

def rowsRead (read : PagedRead String Json) : Except ProviderError (List Json) :=
  match read.stop with
  | .done => .ok read.items
  | .failed error => .error (.client error)
  | .lost => .error .lost

def ImportProvider.classify (p : ImportProvider) (status : String) (output : Output) (rows : List Json) :
    Except ProviderError RunClassification :=
  let usable := (rows.filter fun row => isAdmitted (p.admitRow row)).length
  match classifyRun status output rows.length usable p.admitted with
  | some classification => .ok classification
  | none => .error (.value "classify_run")

def ImportProvider.fetch (p : ImportProvider) (read : PagedRead String Json)
    (record : Except String (Option KeyValueRecord)) :
    Except ProviderError Fetch := do
  let status ← p.terminal
  let (startedAt,datasetId) ← p.stored
  let rows ← rowsRead read
  let record ← record.mapError .client
  let classification ← p.classify status (decodeOutput record).1 rows
  .ok {
    batch := ⟨s!"apify:{p.siteKey}",startedAt,rows.mapIdx (rawItem datasetId)⟩
    datasetItemCount := rows.length
    classification
    runOutput := (decodeOutput record).2
    outputRecordBytes := record.map KeyValueRecord.bytes }

structure Linked where
  listing : ParsedListing
  rawUrl : String

def ImportProvider.link (p : ImportProvider) (item : RawItem) : Option Linked :=
  match p.admitRow (rowOf item) with
  | .ok listing => some ⟨listing,item.url⟩
  | .error _ => none

def ImportProvider.parse (p : ImportProvider) (batch : RawBatch) : List Linked := batch.items.filterMap p.link

def ImportProvider.delistScope (p : ImportProvider) (classification : RunClassification) (batch : RawBatch)
    (parsed : List Linked) :
    Option DelistScope :=
  if classification.completeness ≠ .complete then none
  else some {
    seenKeys := parsed.map fun linked => linked.listing.sourceListingKey
    observedAt := batch.fetchedAt
    complete := true
    absenceGrace := 0
    scopeKey := some p.run.scopeKey
    staleAbsenceAllowed := true }

def stage2Scope (run : ProviderRun) (full : Bool) (completeness : RunCompleteness) (importListingIds : List String) :
    Option DelistScope :=
  if full && completeness = .complete then some {
    seenKeys := importListingIds
    observedAt := run.startedAt.getD run.admittedAt
    complete := true
    absenceGrace := 0
    scopeKey := some run.scopeKey
    staleAbsenceAllowed := true }
  else none

def stage1Trips (run : ProviderRun) (maxKvBytes : Option Int) (fetched : Fetch) : List LatchReason :=
  (if run.maxItems < fetched.datasetItemCount then [.datasetOverCap] else []) ++
  (if maxKvBytes.any fun cap => fetched.outputRecordBytes.any fun bytes => decide (cap < (bytes : Int)) then
    [.kvStoreOverCap]
    else [])

section
variable {p : ImportProvider} {read : PagedRead String Json} {record : Except String (Option KeyValueRecord)}
  {fetched : Fetch}

@[simp] theorem rowOfRawItem (datasetId : String) (index : Nat) (row : Json) : rowOf
    (rawItem datasetId index row) = row := by
  cases row <;> rfl

theorem usableOwn (p : ImportProvider) (rows : List Json) :
    (rows.filter fun row => isAdmitted (p.admitRow row)).length =
    usableCount p.admitted maxListingRowBytes.toNat rows := by
  unfold usableCount ImportProvider.admitRow
  rw [p.own.1,p.own.2]

theorem terminalOk {status : String} (ok : p.terminal = .ok status) : p.run.remoteStatus = some status := by
  unfold ImportProvider.terminal at ok
  split at ok
  · cases ok
  rename_i status found
  cases Except.ok.inj ok
  exact (Option.filter_eq_some_iff.mp found).1

theorem storedOk {startedAt : Int} {datasetId : String} (ok : p.stored = .ok (startedAt,datasetId)) :
    p.run.startedAt = some startedAt ∧ p.run.datasetId = some datasetId ∧ datasetId ≠ "" := by
  unfold ImportProvider.stored at ok
  split at ok
  · rename_i started id _ found known _
    cases Except.ok.inj ok
    obtain ⟨here,filled_⟩ := Option.filter_eq_some_iff.mp known
    exact ⟨found,here,of_decide_eq_true filled_⟩
  · cases ok

theorem rowsReadOk {rows : List Json} (ok : rowsRead read = .ok rows) : read.stop = .done ∧ rows = read.items := by
  unfold rowsRead at ok
  split at ok
  · rename_i done
    exact ⟨done,(Except.ok.inj ok).symm⟩
  · cases ok
  · cases ok

theorem classifyOk {status : String} {output : Output} {rows : List Json} {classification : RunClassification}
    (ok : p.classify status output rows = .ok classification) : classifyRun status output rows.length
      (rows.filter fun row => isAdmitted (p.admitRow row)).length p.admitted = some classification := by
  unfold ImportProvider.classify at ok
  simp only at ok
  split at ok
  · rename_i found
    cases Except.ok.inj ok
    exact found
  · cases ok

structure Fetch.Sound (p : ImportProvider) (read : PagedRead String Json) (fetched : Fetch) : Prop where
  done : read.stop = .done
  started : p.run.startedAt = some fetched.batch.fetchedAt
  items : ∃ datasetId, p.run.datasetId = some datasetId ∧ datasetId ≠ "" ∧
    fetched.batch.items = read.items.mapIdx (rawItem datasetId)
  counted : fetched.datasetItemCount = read.items.length
  classified : ∃ status output, p.run.remoteStatus = some status ∧ classifyRun status output read.items.length
    (usableCount p.admitted maxListingRowBytes.toNat read.items) p.admitted = some fetched.classification

theorem fetchSound (ok : p.fetch read record = .ok fetched) : fetched.Sound p read := by
  unfold ImportProvider.fetch at ok
  obtain ⟨status,terminal,ok⟩ := bindOk.mp ok
  obtain ⟨⟨startedAt,datasetId⟩,named,ok⟩ := bindOk.mp ok
  obtain ⟨rows,finished,ok⟩ := bindOk.mp ok
  obtain ⟨body,_,ok⟩ := bindOk.mp ok
  obtain ⟨classification,classified,ok⟩ := bindOk.mp ok
  cases Except.ok.inj ok
  obtain ⟨done,rfl⟩ := rowsReadOk finished
  obtain ⟨started,dataset,filled_⟩ := storedOk named
  refine ⟨done,started,⟨datasetId,dataset,filled_,rfl⟩,rfl,status,(decodeOutput body).1,terminalOk terminal,?_⟩
  rw [← usableOwn]
  exact classifyOk classified

theorem linkSome {item : RawItem} {linked : Linked} : p.link item = some linked ↔
    p.admitRow (rowOf item) = .ok linked.listing ∧ linked.rawUrl = item.url := by
  unfold ImportProvider.link
  obtain ⟨listing,rawUrl⟩ := linked
  cases p.admitRow (rowOf item) with
  | error _ => simp
  | ok found => simp [eq_comm]

theorem parsedRows (rows : List Json) {item : Nat → Json → RawItem} (kept : ∀ i row, rowOf (item i row) = row) :
    ((rows.mapIdx item).filterMap p.link).map Linked.listing = rows.filterMap fun row => (p.admitRow row).toOption := by
  induction rows generalizing item with
  | nil => rfl
  | cons row rest ih =>
    have tail := @ih (fun i => item (i + 1)) fun i => kept (i + 1)
    rw [List.mapIdx_cons]
    cases admitted : p.admitRow row with
    | error _ =>
      have none_ : p.link (item 0 row) = none := by
        unfold ImportProvider.link
        rw [kept,admitted]
      rw [List.filterMap_cons_none none_,tail,List.filterMap_cons_none (by rw [admitted]; rfl)]
    | ok listing =>
      have some_ : p.link (item 0 row) = some ⟨listing,(item 0 row).url⟩ := linkSome.mpr ⟨by rw [kept,admitted],rfl⟩
      rw [List.filterMap_cons_some some_,List.map_cons,tail,List.filterMap_cons_some (by rw [admitted]; rfl)]

theorem parsedLinks {datasetId : String} {rows : List Json} {linked : Linked} :
    linked ∈ (rows.mapIdx (rawItem datasetId)).filterMap p.link ↔ ∃ i row, rows[i]? = some row ∧
      p.admitRow row = .ok linked.listing ∧ linked.rawUrl = (rawItem datasetId i row).url := by
  rw [List.mem_filterMap]
  constructor
  · rintro ⟨item,mem,parsed⟩
    obtain ⟨i,bound,rfl⟩ := List.mem_mapIdx.mp mem
    obtain ⟨admitted,url⟩ := linkSome.mp parsed
    rw [rowOfRawItem] at admitted
    exact ⟨i,_,List.getElem?_eq_getElem bound,admitted,url⟩
  · rintro ⟨i,row,here,admitted,url⟩
    obtain ⟨bound,rfl⟩ := List.getElem?_eq_some_iff.mp here
    exact ⟨_,List.mem_mapIdx.mpr ⟨i,bound,rfl⟩,linkSome.mpr ⟨by rw [rowOfRawItem,admitted],url⟩⟩
end

section
variable {call : Ingest.AbsenceCall} {previousRun : Option Int} {m m' : Market} {n : Nat}

theorem absenceMarks (done : Ingest.applyAbsence call previousRun m = some (m',n)) {key : String} {l : Listing}
    (here : m.listing key = some l) : m'.listing key = some l ∨ ∃ gated since reason cutoff, call.gated = some gated ∧
      gated.grounds since = some (reason,cutoff) ∧ gated.candidate cutoff l = true ∧
      m'.listing key = some (l.markDelisted reason gated.observedAt) := by
  obtain ⟨parts⟩ := absenceParts done
  have same : parts.marked.listing key = some l := by
    rw [← here]
    unfold Market.listing
    rw [parts.only.listings]
  rcases parts.third with ⟨_,is⟩ | ⟨gated,gates,is⟩
  · exact .inl (is ▸ same)
  have listed : m'.listing key = (applyDelist gated parts.since parts.marked).1.listing key := by
    refine (congrArg (Market.listing · key) is).trans ?_
    split
    · unfold Market.listing
      rw [raisedListings]
    · rfl
  rw [listed]
  unfold applyDelist
  cases grounds : gated.grounds parts.since with
  | none => exact .inl same
  | some found =>
    obtain ⟨reason,cutoff⟩ := found
    simp only [delistListing,same,Option.map_some]
    cases candidate : gated.candidate cutoff l with
    | false => exact .inl rfl
    | true => exact .inr ⟨gated,parts.since,reason,cutoff,gates,grounds,candidate,rfl⟩
end

structure OnlyUnnamed (p : ImportProvider) (rows : List Json) (startedAt : Int) (key : String)
    (l : Listing) : Prop where
  unnamed : ∀ row ∈ rows, ∀ listing, p.admitRow row = .ok listing → listing.sourceListingKey ≠ key
  ofScope : l.collectionScope = some p.run.scopeKey
  active : l.active = true
  before : atOrAfter startedAt l.lastObservedAt = true

structure Imported (p : ImportProvider) (read : PagedRead String Json) (fetched : Fetch) : Prop where
  counted : fetched.datasetItemCount = read.items.length
  parsed : (p.parse fetched.batch).map Linked.listing = read.items.filterMap fun row => (p.admitRow row).toOption
  linked : ∀ link ∈ p.parse fetched.batch, ∃ i row datasetId, read.items[i]? = some row ∧
    p.run.datasetId = some datasetId ∧ p.admitRow row = .ok link.listing ∧ link.rawUrl = (rawItem datasetId i row).url
  rebuilt : p.delistScope fetched.classification fetched.batch (p.parse fetched.batch) =
    stage2Scope p.run true fetched.classification.completeness
      ((p.parse fetched.batch).map fun link => link.listing.sourceListingKey)
  whole : ∀ full seen scope, seen = ((p.parse fetched.batch).map fun link => link.listing.sourceListingKey) →
    stage2Scope p.run full fetched.classification.completeness seen = some scope →
    p.run.remoteStatus = some "SUCCEEDED" ∧ ∀ row ∈ read.items, ∃ listing, p.admitRow row = .ok listing ∧
      listing.sourceListingKey ∈ scope.seenKeys
  absence : ∀ full seen scope, seen = ((p.parse fetched.batch).map fun link => link.listing.sourceListingKey) →
    stage2Scope p.run full fetched.classification.completeness seen = some scope → ∀ previousRun m m' n,
    Ingest.applyAbsence (importCall p.run.scopeKey fetched.classification (some scope) fetched.batch.fetchedAt)
      previousRun m =
      some (m',n) → ∀ key l, m.listing key = some l → m'.listing key = some l ∨
        OnlyUnnamed p read.items fetched.batch.fetchedAt key l ∧
          m'.listing key = some (l.markDelisted .absentFromSweep fetched.batch.fetchedAt)
  paged : ∀ answer life budget pages maxKvBytes, read = iterDatasetItems answer p.limit.toNat life →
    cap budget.maxDatasetPageBytes "MAX_DATASET_PAGE_BYTES" 0 = .ok p.maxPageBytes →
    pagesPerRead budget p.run.maxItems maxListingRowBytes = .ok pages →
    (read.requests : Int) ≤ pages ∨ .datasetOverCap ∈ stage1Trips p.run maxKvBytes fetched
  served : ∀ answer life store, read = iterDatasetItems answer p.limit.toNat life →
    ServesRows answer p.limit.toNat store → ∃ j, j + 1 = read.requests ∧ read.items = store j

section
variable {p : ImportProvider} {read : PagedRead String Json} {fetched : Fetch} {full : Bool} {seen : List String}
  {scope : DelistScope}

theorem stage2Some {run : ProviderRun} {completeness : RunCompleteness}
    (made : stage2Scope run full completeness seen = some scope) : completeness = .complete ∧ scope.seenKeys = seen ∧
      scope.observedAt = run.startedAt.getD run.admittedAt ∧ scope.complete = true ∧
      scope.scopeKey = some run.scopeKey := by
  unfold stage2Scope at made
  split at made
  · rename_i both
    cases Option.some.inj made
    exact ⟨by simpa using (Bool.and_eq_true_iff.mp both).2,rfl,rfl,rfl,rfl⟩
  · cases made

theorem wholeNamed (sound : fetched.Sound p read) (complete : fetched.classification.completeness = .complete) :
    p.run.remoteStatus = some "SUCCEEDED" ∧ ∀ row ∈ read.items, ∃ listing, p.admitRow row = .ok listing ∧
      listing.sourceListingKey ∈ (p.parse fetched.batch).map fun link => link.listing.sourceListingKey := by
  obtain ⟨status,output,at_,classified⟩ := sound.classified
  obtain ⟨datasetId,_,_,items⟩ := sound.items
  obtain ⟨terminal,reported⟩ := classifiedRun classified
  rcases reported with ⟨reason,same⟩ | ⟨run,valid,same⟩
  · rw [same] at complete
    cases complete
  have whole := completeReport (same ▸ complete)
  have succeeded : status = "SUCCEEDED" := by simpa [terminalRunStatuses,whole.finished] using terminal
  refine ⟨succeeded ▸ at_,fun row mem => ?_⟩
  have nonempty : read.items.length ≠ 0 := Nat.ne_of_gt (List.length_pos_of_mem mem)
  obtain ⟨listing,admitted⟩ := usableAll (whole.usable nonempty) row mem
  rw [p.own.1,p.own.2] at admitted
  obtain ⟨i,here⟩ := List.mem_iff_getElem?.mp mem
  have linked : (⟨listing,(rawItem datasetId i row).url⟩ : Linked) ∈ p.parse fetched.batch := by
    unfold ImportProvider.parse
    rw [items]
    exact parsedLinks.mpr ⟨i,row,here,admitted,rfl⟩
  exact ⟨listing,admitted,List.mem_map.mpr ⟨_,linked,rfl⟩⟩
end

theorem importedDataset (p : ImportProvider) (read : PagedRead String Json)
    (record : Except String (Option KeyValueRecord))
    {fetched : Fetch} (ok : p.fetch read record = .ok fetched) : Imported p read fetched := by
  have sound := fetchSound ok
  obtain ⟨datasetId,known,_,items⟩ := sound.items
  constructor
  case counted => exact sound.counted
  case parsed =>
    unfold ImportProvider.parse
    rw [items]
    exact parsedRows read.items (rowOfRawItem datasetId)
  case linked =>
    intro link mem
    unfold ImportProvider.parse at mem
    rw [items] at mem
    obtain ⟨i,row,here,admitted,url⟩ := parsedLinks.mp mem
    exact ⟨i,row,datasetId,here,known,admitted,url⟩
  case rebuilt =>
    unfold ImportProvider.delistScope stage2Scope
    rw [sound.started]
    by_cases complete : fetched.classification.completeness = .complete
    · rw [if_neg (not_not.mpr complete),if_pos (by simp [complete])]
      rfl
    · rw [if_pos complete,if_neg (by simp [complete])]
  case whole =>
    rintro full seen scope rfl made
    obtain ⟨complete,keys,_⟩ := stage2Some made
    rw [keys]
    exact wholeNamed sound complete
  case absence =>
    rintro full seen scope rfl made previousRun m m' n done key l here
    obtain ⟨complete,keys,observed,claims,own⟩ := stage2Some made
    rw [sound.started,Option.getD_some] at observed
    rcases absenceMarks done here with same | ⟨gated,since,reason,cutoff,gates,grounds,candidate,marked⟩
    · exact .inl same
    obtain ⟨_,is,_⟩ := gatedComplete
      (show gateDelistScope (some scope) (importEvidence fetched.classification) = some gated from gates)
    cases Option.some.inj is
    simp only [DelistScope.grounds,claims,if_true,Option.some.injEq,Prod.mk.injEq] at grounds
    obtain ⟨rfl,rfl⟩ := grounds
    simp only [DelistScope.candidate,Bool.and_eq_true,Bool.not_eq_true',decide_eq_true_eq] at candidate
    obtain ⟨⟨⟨⟨active,unseen⟩,before⟩,ofScope⟩,_⟩ := candidate
    refine .inr ⟨⟨fun row mem listing admitted same => ?_,ofScope.trans own,active,observed ▸ before⟩,observed ▸ marked⟩
    obtain ⟨found,there,named⟩ := (wholeNamed sound complete).2 row mem
    cases Except.ok.inj (admitted.symm.trans there)
    rw [listingKey here,← same,keys] at unseen
    rw [List.contains_iff_mem.mpr named] at unseen
    cases unseen
  case paged =>
    rintro answer life budget pages maxKvBytes rfl capped priced
    rcases (datasetPriced answer life capped p.limited priced).1 with within | big
    · exact .inl within
    · refine .inr (List.mem_append_left _ ?_)
      rw [if_pos (by rw [sound.counted]; omega)]
      exact List.mem_singleton_self _
  case served =>
    rintro answer life store rfl serves
    obtain ⟨_,_,positive⟩ := pageLimitSound p.limited
    obtain ⟨j,_,_,lost | ⟨_,requested,held⟩⟩ := @readServed _ _ _ _ store serves (by omega) life 0 0 (Nat.zero_le _)
    · cases sound.done.symm.trans lost
    · exact ⟨j,requested.trans (Nat.zero_add _),held⟩

def demoRun : ProviderRun :=
  { sourceSite := 1, scopeKey := "demo:drive:all", memoryMb := 512, timeoutS := 300, maxItems := 100, maxPages := 5
    admissionClass := .discovery, admittedAt := 0, storageCleanupDueAt := 10, remoteStatus := some "SUCCEEDED"
    startedAt := some 1, datasetId := some "ds1", kvStoreId := some "kv1" }

theorem demoLimited : pageLimit 1048576 maxListingRowBytes = .ok 32 := by decide +kernel

theorem demoOwn : demoScope.siteKey = "demo" ∧ demoScope.collectionScope = demoRun.scopeKey := ⟨rfl,rfl⟩

def demoProvider : ImportProvider :=
  ⟨0,"demo",demoRun,⟨demoScope,"hw-radar-demo"⟩,1048576,32,demoLimited,demoOwn⟩

def demoAnswer (_ offset : Nat) : DatasetReply := .array ([demoRow].drop offset) (some 1)

def demoFetch : Except ProviderError Fetch :=
  demoProvider.fetch (iterDatasetItems demoAnswer 32 10) (.ok (some ⟨700,some demoOutput⟩))

theorem demoImported : ∃ fetched, demoFetch = .ok fetched ∧ fetched.classification.completeness = .complete ∧
    Imported demoProvider (iterDatasetItems demoAnswer 32 10) fetched := by
  have succeeded : (demoFetch.toOption.map fun fetched => fetched.classification.completeness) = some .complete := by
    decide +kernel
  cases found : demoFetch with
  | error _ =>
    rw [found] at succeeded
    cases succeeded
  | ok fetched =>
    rw [found] at succeeded
    exact ⟨fetched,rfl,Option.some.inj succeeded,importedDataset demoProvider _ _ found⟩
end HwRadar.Apify.Contract
