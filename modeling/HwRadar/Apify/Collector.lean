import HwRadar.Apify.RowAdmission

/-! The synthetic collector: the pages of one input, fetched in order under five caps, and
the rows and the record it leaves. What the source and the clock do at each page is given;
a fault mode forces one shape of the record. -/
namespace HwRadar.Apify.Collector
open HwRadar.Base
open HwRadar.Apify.Contract

inductive FaultMode where
  | none | truncateItems | truncatePages | truncateTime | truncateBytes | partialFailure | contradictoryReport
  | countMismatch | unknownSchema | fail
  deriving DecidableEq, Repr

structure CollectorInput where
  scope : QueryScope
  fixtureCommit : String
  fixturePaths : List String
  faultMode : FaultMode
  deriving DecidableEq, Repr

/-- A pattern of the schema engine: `$` also stands before a last line feed. -/
def lineEnd (pattern : List Char → Bool) (cs : List Char) : Bool :=
  pattern cs || (cs.getLast? = some '\n' && pattern cs.dropLast)

/-- `^[a-z0-9][a-z0-9-]*(/[a-z0-9][a-z0-9-]*)*\.json$` -/
def jsonPath (cs : List Char) : Bool :=
  ".json".toList.isSuffixOf cs && ((cs.take (cs.length - 5)).splitOn '/').all (headed (wordOr ['-']))

def fixturePath (cs : List Char) : Bool := cs.length ≤ 200 && lineEnd jsonPath cs

def hexDigit (c : Char) : Bool := Text.isDigit c || (97 ≤ c.toNat && c.toNat ≤ 102)

def commitHash (cs : List Char) : Bool := cs.length = 40 && cs.all hexDigit

def CollectorInput.valid (i : CollectorInput) : Bool :=
  (siteKeyText (.str i.scope.siteKey)).isSome && (scopeKeyText (.str i.scope.collectionScope)).isSome &&
    (categoryText (.str i.scope.categoryHint)).isSome && 1 ≤ i.scope.maxItems && i.scope.maxItems ≤ 500 &&
    1 ≤ i.scope.maxPages && i.scope.maxPages ≤ 50 && 1 ≤ i.scope.maxRequests && i.scope.maxRequests ≤ 100 &&
    1 ≤ i.scope.maxBytes && i.scope.maxBytes ≤ 10000000 && 10 ≤ i.scope.timeBudgetSecs &&
      i.scope.timeBudgetSecs ≤ 900 &&
    lineEnd commitHash i.fixtureCommit.toList && 1 ≤ i.fixturePaths.length &&
    i.fixturePaths.length ≤ 20 && i.fixturePaths.all fun path => fixturePath path.toList

def rawBaseUrl : String := "https://raw.githubusercontent.com/L3DigitalNet/hw-radar"
def sourceRoot : String := "actors/hw-radar-synthetic-collector/fixtures/source"

def pageUrl (commit path : String) : String := rawBaseUrl ++ "/" ++ commit ++ "/" ++ sourceRoot ++ "/" ++ path

def listed (page : List (String × Json)) : List Json :=
  match lookup "listings" page with
  | .arr items => items
  | _ => []

structure Body where
  value : Json
  sized : ∀ page, value = .obj page → (listed page).length < 2 ^ 63

inductive Ending where
  | timedOut
  | httpError (name : String)
  | complete (body : Option Body)

inductive Answer where
  | timedOut
  | httpError (name : String)
  | response (status : Nat) (chunks : List (Nat × Bool)) (ending : Ending)

structure Turn where
  late : Bool
  answer : Answer

abbrev Page := List (String × Json)

structure Run where
  rows : List Json := []
  errors : List RunError := []
  limits : LimitsHit := ⟨false,false,false,false,false⟩
  requests : Nat := 0
  pagesAttempted : Nat := 0
  pagesFetched : Nat := 0
  bytesRead : Nat := 0
  pagesDeclared : Option Nat := none
  itemsDeclared : Option Nat := none
  timeExhausted : Bool := false
  stopped : Bool := false

def countText (n : Nat) : String := String.ofList (Text.natText n)

def Run.error (run : Run) (code message : String) : Run :=
  { run with errors := run.errors ++ [⟨code,Text.truncate 500 message⟩] }

def anyLimit (l : LimitsHit) : Bool := l.pages || l.requests || l.items || l.time || l.bytes

def FaultMode.itemCap (mode : FaultMode) (cap : Nat) : Nat := if mode = .truncateItems then min cap 1 else cap
def FaultMode.pageCap (mode : FaultMode) (cap : Nat) : Nat := if mode = .truncatePages then min cap 1 else cap

def FaultMode.afterFirstPage (mode : FaultMode) (run : Run) : Run :=
  if run.pagesFetched ≠ 1 then run
  else if mode = .truncateTime then { run with timeExhausted := true }
  else if mode = .fail then
    { run.error "injected_failure" "faultMode=fail: the Actor failed after page 1" with stopped := true }
  else run

def FaultMode.byteCap (mode : FaultMode) (cap : Nat) (run : Run) : Nat :=
  if mode = .truncateBytes && 1 ≤ run.pagesFetched then min cap run.bytesRead else cap

def FaultMode.skipsPage (mode : FaultMode) (index planned : Nat) : Bool := mode = .partialFailure && index + 1 = planned

def stopForLimits (run : Run) (late : Bool) (maxPages maxRequests maxItems maxBytes : Nat) : Run :=
  { run with limits :=
      { time := run.limits.time || late || run.timeExhausted
        bytes := run.limits.bytes || maxBytes ≤ run.bytesRead
        requests := run.limits.requests || maxRequests ≤ run.requests
        pages := run.limits.pages || maxPages ≤ run.pagesAttempted
        items := run.limits.items || maxItems ≤ run.rows.length } }

def readChunks (maxBytes before : Nat) : List (Nat × Bool) → Run → Run × Bool
  | [],run => (run,true)
  | (downloaded,late)::rest,run =>
    let overBytes := decide (maxBytes < before + downloaded)
    if overBytes || late then
      ({ run with
          bytesRead := before + downloaded
          limits := { run.limits with bytes := run.limits.bytes || overBytes, time := run.limits.time || late }
          stopped := true },false)
    else readChunks maxBytes before rest { run with bytesRead := before + downloaded }

def timedOut (run : Run) : Run × Option Page :=
  ({ run with limits := { run.limits with time := true }, stopped := true },none)

def fetchError (url name : String) (run : Run) : Run × Option Page :=
  (run.error "fetch_error" (url ++ ": " ++ name),none)

def parsedPage (url : String) (run : Run) (body : Option Body) : Run × Option Page :=
  match body.map Body.value with
  | none => (run.error "invalid_page" (url ++ " is not JSON"),none)
  | some (.obj fields) =>
    match lookup "listings" fields with
    | .arr _ => (run,some fields)
    | _ => (run.error "invalid_page" (url ++ " has no listings array"),none)
  | some _ => (run.error "invalid_page" (url ++ " has no listings array"),none)

def fetchPage (url : String) (answer : Answer) (maxBytes : Nat) (run : Run) : Run × Option Page :=
  let run := { run with requests := run.requests + 1 }
  match answer with
  | .timedOut => timedOut run
  | .httpError name => fetchError url name run
  | .response status chunks ending =>
    if status ≠ 200 then (run.error "http_status" (url ++ " answered HTTP " ++ countText status),none)
    else match readChunks maxBytes run.bytesRead chunks run with
    | (run,false) => (run,none)
    | (run,true) =>
      match ending with
      | .timedOut => timedOut run
      | .httpError name => fetchError url name run
      | .complete body => parsedPage url run body

/-- `_declared_counts`'s `count`: a nonnegative integer as the decoder writes one, whatever
its size. -/
def declaredCount (page : Page) (key : String) : Option Nat :=
  match lookup key page with
  | .num t =>
    let n := Text.digitsValue t.toList
    if t.toList = Text.natText n then some n else none
  | _ => none

def optionalListingFields : List (String × String) :=
  [("shippingPrice","shippingPrice"),("quantityAvailable","quantityAvailable"),("seller","sellerName"),
    ("condition","conditionLabel"),("shipsFrom","shipsFromCountry"),("mpn","mpn")]

def stated (source : Page) (key : String) : Option Json :=
  match lookup key source with
  | .null => none
  | value => some value

def getOr (source : Page) (key : String) (default_ : Json) : Json :=
  ((source.find? fun field => field.1 == key).map Prod.snd).getD default_

/-- `_row` -/
def sourceRow (input : CollectorInput) (url startedAt : String) : Json → Option Json
  | .obj source =>
    match lookup "id" source with
    | .str id => some <| .obj <|
        [("schemaVersion",.str "hw-radar-listing/v1"),("siteKey",.str input.scope.siteKey),("sourceListingKey",.str id),
          ("url",.str (url ++ "#" ++ id)),("title",lookup "title" source),("price",lookup "price" source),
          ("currency",lookup "currency" source),("stockStatus",getOr source "stockStatus" (.str "unknown")),
          ("categoryHint",.str input.scope.categoryHint),("collectionScope",.str input.scope.collectionScope),
          ("observedAt",.str startedAt)] ++
        optionalListingFields.filterMap fun field => (stated source field.1).map fun value => (field.2,value)
    | _ => none
  | _ => none

section
variable (rowValid : Json → Bool) (input : CollectorInput) (startedAt : String)

/-- `_emit_rows`; `rowValid` is the schema engine on the listing schema. -/
def emitRows (url : String) (maxItems : Nat) : List Json → Run → Run
  | [],run => run
  | listing::rest,run =>
    if maxItems ≤ run.rows.length then { run with limits := { run.limits with items := true } }
    else match (sourceRow input url startedAt listing).filter rowValid with
    | some row => emitRows url maxItems rest { run with rows := run.rows ++ [row] }
    | none =>
      emitRows url maxItems rest
        (run.error "invalid_source_listing" (url ++ ": listing " ++ countText (run.rows.length + 1) ++ " skipped"))

inductive Attempt where
  | halted (run : Run)
  | missed (run : Run)
  | fetched (run : Run) (page : Page)

def attempt (turn : Turn) (path : String) (maxBytes : Nat) (run : Run) : Attempt :=
  let run := stopForLimits run turn.late (input.faultMode.pageCap input.scope.maxPages) input.scope.maxRequests
    (input.faultMode.itemCap input.scope.maxItems) maxBytes
  if anyLimit run.limits then .halted run
  else match fetchPage (pageUrl input.fixtureCommit path) turn.answer maxBytes
      { run with pagesAttempted := run.pagesAttempted + 1 } with
  | (run,none) => .missed run
  | (run,some page) => .fetched run page

def declare_ (page : Page) (run : Run) : Run :=
  if run.pagesFetched = 0 then
    { run with
      pagesDeclared := declaredCount page "pagesDeclared"
      itemsDeclared := declaredCount page "itemsDeclared" }
  else run

def replan (page : Page) (run : Run) (planned : Nat) : Nat :=
  if run.pagesFetched = 0 then (declaredCount page "pagesDeclared").elim planned (min planned) else planned

def absorb (path : String) (page : Page) (run : Run) : Run :=
  let run := declare_ page run
  emitRows rowValid input startedAt (pageUrl input.fixtureCommit path) (input.faultMode.itemCap input.scope.maxItems)
    (listed page) { run with pagesFetched := run.pagesFetched + 1 }

variable (turns : Nat → Turn)

/-- `collect`'s loop over the paths from an index on; also the pages still planned. -/
def collectPages : List String → Nat → Nat → Nat → Run → Run × Nat
  | [],_,planned,_,run => (run,planned)
  | path::rest,index,planned,maxBytes,run =>
    if planned ≤ index || run.stopped then (run,planned)
    else if input.faultMode.skipsPage index planned then
      collectPages rest (index + 1) planned maxBytes
        ({ run with pagesAttempted := run.pagesAttempted + 1 }.error "injected_fetch_error"
          ("faultMode=partial_failure: page " ++ path ++ " not fetched"))
    else match attempt input (turns index) path maxBytes run with
    | .halted run => (run,planned)
    | .missed run => collectPages rest (index + 1) planned maxBytes run
    | .fetched run page =>
      let planned := replan page run planned
      let run := absorb rowValid input startedAt path page run
      let cap := input.faultMode.byteCap maxBytes run
      let run := input.faultMode.afterFirstPage run
      if run.limits.items then (run,planned) else collectPages rest (index + 1) planned cap run

end

def checkDeclared (run : Run) (planned : Nat) : Run :=
  if anyLimit run.limits || !run.errors.isEmpty then run
  else if decide (run.pagesFetched < planned) || run.pagesDeclared.any fun n => run.pagesFetched < n then
    run.error "source_pages_unlisted" "the source declares pages the input did not list"
  else if run.itemsDeclared.any fun n => run.rows.length ≠ n then
    run.error "declared_item_count_mismatch" "rows emitted differ from the declared total"
  else run

def maxErrors : Nat := 50

def reportedErrors (errors : List RunError) : List RunError :=
  if maxErrors < errors.length then
    errors.take (maxErrors - 1) ++ [⟨"errors_truncated",countText errors.length ++ " errors"⟩]
  else errors

structure CollectionResult where
  rows : List Json
  schemaVersion : String
  report : RunOutput
  succeeded : Bool

def withVersion (version : String) : Json → Json
  | .obj fields => .obj (fields.map fun field => if field.1 = "schemaVersion" then (field.1,.str version) else field)
  | other => other

def finish (run : Run) (input : CollectorInput) (planned : Nat) : CollectionResult :=
  let run := checkDeclared run planned
  let complete := !anyLimit run.limits && run.errors.isEmpty
  let mode := input.faultMode
  let limits := if mode = .contradictoryReport then { run.limits with pages := true } else run.limits
  { rows := if mode = .unknownSchema then run.rows.map (withVersion "hw-radar-listing/v99") else run.rows
    schemaVersion := if mode = .unknownSchema then "hw-radar-run/v99" else runSchemaVersion
    succeeded := mode ≠ .fail
    report :=
      { status := if mode = .fail then "failed" else "succeeded"
        completeness :=
          { complete
            truncated := anyLimit limits && mode ≠ .contradictoryReport
            limitsHit := limits
            pagesDeclared := run.pagesDeclared
            pagesFetched := run.pagesFetched
            itemsDeclared := run.itemsDeclared
            itemsEmitted := if mode = .countMismatch then run.rows.length + 1 else run.rows.length }
        queryScope := input.scope
        provider := ⟨"hw-radar-synthetic-collector","1.0","synthetic"⟩
        errors := reportedErrors run.errors } }

def number (n : Nat) : Json := .num (countText n)

def queryScopeJson (q : QueryScope) : Json :=
  .obj [("siteKey",.str q.siteKey),("collectionScope",.str q.collectionScope),("categoryHint",.str q.categoryHint),
    ("maxItems",number q.maxItems),("maxPages",number q.maxPages),("maxRequests",number q.maxRequests),
    ("maxBytes",number q.maxBytes),("timeBudgetSecs",number q.timeBudgetSecs)]

def limitsJson (l : LimitsHit) : Json :=
  .obj [("pages",.bool l.pages),("requests",.bool l.requests),("items",.bool l.items),("time",.bool l.time),
    ("bytes",.bool l.bytes)]

def completenessJson (c : CompletenessReport) : Json :=
  .obj <| [("complete",.bool c.complete),("truncated",.bool c.truncated),("limitsHit",limitsJson c.limitsHit)] ++
    (c.pagesDeclared.map fun n => ("pagesDeclared",number n)).toList ++ [("pagesFetched",number c.pagesFetched)] ++
    (c.itemsDeclared.map fun n => ("itemsDeclared",number n)).toList ++ [("itemsEmitted",number c.itemsEmitted)]

def providerJson (p : ProviderInfo) : Json :=
  .obj [("actorName",.str p.actorName),("actorVersion",.str p.actorVersion),("sourceKind",.str p.sourceKind)]

def errorJson (e : RunError) : Json := .obj [("code",.str e.code),("message",.str e.message)]

def CollectionResult.output (r : CollectionResult) : Json :=
  .obj [("schemaVersion",.str r.schemaVersion),("status",.str r.report.status),
    ("completeness",completenessJson r.report.completeness),("queryScope",queryScopeJson r.report.queryScope),
    ("provider",providerJson r.report.provider),("errors",.arr (r.report.errors.map errorJson))]

def collect (rowValid : Json → Bool) (input : CollectorInput) (startedAt : String) (turns : Nat → Turn) :
    CollectionResult :=
  let (run,planned) := collectPages rowValid input startedAt turns input.fixturePaths 0 input.fixturePaths.length
    input.scope.maxBytes {}
  finish run input planned

end HwRadar.Apify.Collector
