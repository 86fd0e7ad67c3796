import HwRadar.Apify.Imports

/-! The remote contract as a strict, closed reader of decoded JSON, and the classifier of
one terminal run. A key may be spelt by its alias or by its field name; the alias comes
first, and a key that was not read is an error. -/
namespace HwRadar.Apify.Contract
open HwRadar.Base

def word (c : Char) : Bool := Text.isDigit c || (97 ≤ c.toNat && c.toNat ≤ 122)
def upper (c : Char) : Bool := 65 ≤ c.toNat && c.toNat ≤ 90
def wordOr (others : List Char) (c : Char) : Bool := word c || others.contains c

def some1 (p : Char → Bool) (cs : List Char) : Bool := !cs.isEmpty && cs.all p
def headed (rest : Char → Bool) (cs : List Char) : Bool := cs.head?.any word && cs.all rest
def anyText (_ : List Char) : Bool := true

def slugKey : List Char → Bool := headed (wordOr ['_','-'])
def categorySlug (cs : List Char) : Bool := (cs.splitOn '-').all (some1 word)
def scopeKey (cs : List Char) : Bool :=
  match cs.splitOn ':' with
  | [site,category,query] => slugKey site && headed (wordOr ['-']) category && slugKey query
  | _ => false
def actorName (cs : List Char) : Bool := "hw-radar-".toList.isPrefixOf cs && some1 (wordOr ['-']) (cs.drop 9)
def actorVersion (cs : List Char) : Bool :=
  match cs.splitOn '.' with
  | [major,minor] => some1 Text.isDigit major && some1 Text.isDigit minor
  | _ => false
def errorCode : List Char → Bool := some1 (wordOr ['_'])
def wholePart (cs : List Char) : Bool := cs = ['0'] || (cs.head? ≠ some '0' && cs.length ≤ 9 && some1 Text.isDigit cs)
def decimal (cs : List Char) : Bool :=
  match cs.splitOn '.' with
  | [whole] => wholePart whole
  | [whole,places] => wholePart whole && places.length ≤ 4 && some1 Text.isDigit places
  | _ => false
def httpsUrl (cs : List Char) : Bool := "https://".toList.isPrefixOf cs
def capitals (n : Nat) (cs : List Char) : Bool := cs.length = n && cs.all upper
def second (cs : List Char) : Bool :=
  match cs with
  | ['Z'] => true
  | '.'::rest => rest.getLast? = some 'Z' && rest.dropLast.length ≤ 6 && some1 Text.isDigit rest.dropLast
  | _ => false
def utcTimestamp (cs : List Char) : Bool :=
  (cs.take 19).length = 19 && ((cs.take 19).zip "dddd-dd-ddTdd:dd:dd".toList).all
  (fun (c,d) => if d = 'd' then Text.isDigit c else c = d) &&
    second (cs.drop 19)

section
variable {α : Type}

def text (least most : Nat) (pattern : List Char → Bool) : Json → Option String
  | .str s => if least ≤ s.length && s.length ≤ most && pattern s.toList then some s else none
  | _ => none

def literal (values : List String) : Json → Option String
  | .str s => if values.contains s then some s else none
  | _ => none

def count (least most : Nat) : Json → Option Nat
  | .num t =>
    let n := Text.digitsValue t.toList
    if some1 Text.isDigit t.toList && t.toList = Text.natText n && least ≤ n && n ≤ most then some n else none
  | _ => none

def flag : Json → Option Bool
  | .bool b => some b
  | _ => none

def orNull (read : Json → Option α) : Json → Option (Option α)
  | .null => some none
  | value => (read value).map some

abbrev Name := String × String

def find (fields : List (String × Json)) (name : Name) : Option Json :=
  let at_ key := (fields.find? fun field => field.1 = key).map Prod.snd
  (at_ name.1).or (at_ name.2)

def required (read : Json → Option α) (fields : List (String × Json)) (name : Name) : Option α :=
  (find fields name).bind read

def defaulted (read : Json → Option α) (fields : List (String × Json)) (name : Name) : Option (Option α) :=
  match find fields name with
  | none => some none
  | some value => orNull read value

def closed (names : List Name) : Json → Option (List (String × Json))
  | .obj fields =>
    let used := names.map fun name => if fields.any fun field => field.1 = name.1 then name.1 else name.2
    if fields.all fun field => used.contains field.1 then some fields else none
  | _ => none

end

structure QueryScope where
  siteKey : String
  collectionScope : String
  categoryHint : String
  maxItems : Nat
  maxPages : Nat
  maxRequests : Nat
  maxBytes : Nat
  timeBudgetSecs : Nat
  deriving DecidableEq, Repr

def siteKeyText := text 1 100 slugKey
def scopeKeyText := text 5 100 scopeKey
def categoryText := text 1 50 categorySlug
def reportedCount := count 0 100000

def QueryScope.read (value : Json) : Option QueryScope := do
  let fields ← closed [("siteKey","site_key"),("collectionScope","collection_scope"),("categoryHint","category_hint"),
    ("maxItems","max_items"),("maxPages","max_pages"),("maxRequests","max_requests"),("maxBytes","max_bytes"),
    ("timeBudgetSecs","time_budget_secs")] value
  let siteKey ← required siteKeyText fields ("siteKey","site_key")
  let collectionScope ← required scopeKeyText fields ("collectionScope","collection_scope")
  let categoryHint ← required categoryText fields ("categoryHint","category_hint")
  let maxItems ← required (count 1 500) fields ("maxItems","max_items")
  let maxPages ← required (count 1 50) fields ("maxPages","max_pages")
  let maxRequests ← required (count 1 100) fields ("maxRequests","max_requests")
  let maxBytes ← required (count 1 10000000) fields ("maxBytes","max_bytes")
  let timeBudgetSecs ← required (count 10 900) fields ("timeBudgetSecs","time_budget_secs")
  some { siteKey, collectionScope, categoryHint, maxItems, maxPages, maxRequests, maxBytes, timeBudgetSecs }

structure LimitsHit where
  pages : Bool
  requests : Bool
  items : Bool
  time : Bool
  bytes : Bool
  deriving DecidableEq, Repr

def LimitsHit.read (value : Json) : Option LimitsHit := do
  let fields ← closed [("pages","pages"),("requests","requests"),("items","items"),("time","time"),
      ("bytes","bytes")] value
  let pages ← required flag fields ("pages","pages")
  let requests ← required flag fields ("requests","requests")
  let items ← required flag fields ("items","items")
  let time ← required flag fields ("time","time")
  let bytes ← required flag fields ("bytes","bytes")
  some { pages, requests, items, time, bytes }

structure CompletenessReport where
  complete : Bool
  truncated : Bool
  limitsHit : LimitsHit
  pagesDeclared : Option Nat
  pagesFetched : Nat
  itemsDeclared : Option Nat
  itemsEmitted : Nat
  deriving DecidableEq, Repr

def CompletenessReport.read (value : Json) : Option CompletenessReport := do
  let fields ← closed [("complete","complete"),("truncated","truncated"),("limitsHit","limits_hit"),
    ("pagesDeclared","pages_declared"),("pagesFetched","pages_fetched"),("itemsDeclared","items_declared"),
    ("itemsEmitted","items_emitted")] value
  let complete ← required flag fields ("complete","complete")
  let truncated ← required flag fields ("truncated","truncated")
  let limitsHit ← required LimitsHit.read fields ("limitsHit","limits_hit")
  let pagesDeclared ← defaulted reportedCount fields ("pagesDeclared","pages_declared")
  let pagesFetched ← required reportedCount fields ("pagesFetched","pages_fetched")
  let itemsDeclared ← defaulted reportedCount fields ("itemsDeclared","items_declared")
  let itemsEmitted ← required reportedCount fields ("itemsEmitted","items_emitted")
  some { complete, truncated, limitsHit, pagesDeclared, pagesFetched, itemsDeclared, itemsEmitted }

structure ProviderInfo where
  actorName : String
  actorVersion : String
  sourceKind : String
  deriving DecidableEq, Repr

def ProviderInfo.read (value : Json) : Option ProviderInfo := do
  let fields ← closed [("actorName","actor_name"),("actorVersion","actor_version"),("sourceKind","source_kind")] value
  let actorName ← required (text 0 64 Contract.actorName) fields ("actorName","actor_name")
  let actorVersion ← required (text 0 16 Contract.actorVersion) fields ("actorVersion","actor_version")
  let sourceKind ← required (text 1 32 slugKey) fields ("sourceKind","source_kind")
  some { actorName, actorVersion, sourceKind }

structure RunError where
  code : String
  message : String
  deriving DecidableEq, Repr

def RunError.read (value : Json) : Option RunError := do
  let fields ← closed [("code","code"),("message","message")] value
  let code ← required (text 1 64 errorCode) fields ("code","code")
  let message ← required (text 0 500 anyText) fields ("message","message")
  some { code, message }

def readErrors : Json → Option (List RunError)
  | .arr items => if items.length ≤ 50 then items.mapM RunError.read else none
  | _ => none

def runSchemaVersion : String := "hw-radar-run/v1"

structure RunOutput where
  status : String
  completeness : CompletenessReport
  queryScope : QueryScope
  provider : ProviderInfo
  errors : List RunError
  deriving DecidableEq, Repr

def RunOutput.read (value : Json) : Option RunOutput := do
  let fields ← closed [("schemaVersion","schema_version"),("status","status"),("completeness","completeness"),
    ("queryScope","query_scope"),("provider","provider"),("errors","errors")] value
  let _ ← required (literal [runSchemaVersion]) fields ("schemaVersion","schema_version")
  let status ← required (literal ["succeeded","failed"]) fields ("status","status")
  let completeness ← required CompletenessReport.read fields ("completeness","completeness")
  let queryScope ← required QueryScope.read fields ("queryScope","query_scope")
  let provider ← required ProviderInfo.read fields ("provider","provider")
  let errors ← required readErrors fields ("errors","errors")
  some { status, completeness, queryScope, provider, errors }

structure AdmittedRun where
  queryScope : QueryScope
  actorName : String
  deriving DecidableEq, Repr

inductive TruncationReason where
  | timeLimit | resourceLimit | requestLimit | pageLimit | itemLimit
  deriving DecidableEq, Repr

inductive Reason where
  | complete
  | completeEmpty
  | missingOutput
  | unknownSchemaVersion (version : Json)
  | invalidOutput
  | scopeMismatch
  | contradictoryReport (found : List String)
  | noUsableItems
  | ambiguousEmpty
  | remoteFailedWithItems (status : String)
  | remoteFailedEmpty (status : String)
  | errorsReported (codes : List String)
  | unusableItems (unusable items : Nat)
  | truncated (causes : List String)
  | unexplainedIncomplete

structure RunClassification where
  completeness : RunCompleteness
  reason : Reason
  truncationReason : Option TruncationReason

def limitPrecedence : List (String × (LimitsHit → Bool) × TruncationReason) :=
  [("time",LimitsHit.time,.timeLimit),("bytes",LimitsHit.bytes,.resourceLimit),
    ("requests",LimitsHit.requests,.requestLimit),
    ("pages",LimitsHit.pages,.pageLimit),("items",LimitsHit.items,.itemLimit)]

def failed (reason : Reason) : RunClassification := ⟨.failed,reason,none⟩

def hitLimits (limits : LimitsHit) : List String :=
  (limitPrecedence.filter fun entry => entry.2.1 limits).map Prod.fst

def contradictions (remoteStatus : String) (run : RunOutput) (datasetCount : Nat) : List String :=
  let report := run.completeness
  let hit := hitLimits report.limitsHit
  (if report.complete && !hit.isEmpty then ["complete_with_limit_hit"] else []) ++
  (if report.complete && report.truncated then ["complete_and_truncated"] else []) ++
  (if report.truncated && hit.isEmpty && remoteStatus ≠ "TIMED-OUT" then ["truncated_without_limit_hit"] else []) ++
  (if remoteStatus = "SUCCEEDED" && run.status ≠ "succeeded" then ["status_mismatch"] else []) ++
  (if report.itemsEmitted ≠ datasetCount then ["count_mismatch"]
    else if report.complete && report.itemsDeclared.any fun n => report.itemsEmitted ≠ n then
      ["complete_with_items_declared_mismatch"] else []) ++
  (if report.pagesDeclared.any fun n => n < report.pagesFetched then ["pages_fetched_exceed_declared"] else []) ++
  (if report.complete && report.pagesDeclared.any fun n => report.pagesFetched < n then
    ["complete_with_pages_unfetched"] else [])

inductive Output where
  | absent
  | undecodable
  | decoded (value : Json)

def isText (value : Json) (s : String) : Bool :=
  match value with
  | .str t => t = s
  | _ => false

def validated : Output → Except Reason RunOutput
  | .absent | .decoded .null => .error .missingOutput
  | .undecodable => .error .invalidOutput
  | .decoded (.obj fields) =>
    if !isText (lookup "schemaVersion" fields) runSchemaVersion then
      .error (.unknownSchemaVersion (lookup "schemaVersion" fields))
    else match RunOutput.read (.obj fields) with
    | some run => .ok run
    | none => .error .invalidOutput
  | .decoded _ => .error .invalidOutput

def classifyReport (remoteStatus : String) (run : RunOutput) (datasetCount usableCount : Nat) (admitted : AdmittedRun) :
    RunClassification :=
  let report := run.completeness
  let found := contradictions remoteStatus run datasetCount
  let hit := hitLimits report.limitsHit
  if run.provider.actorName ≠ admitted.actorName || run.queryScope ≠ admitted.queryScope then failed .scopeMismatch
  else if found ≠ [] then failed (.contradictoryReport found)
  else if 0 < datasetCount && usableCount = 0 then failed .noUsableItems
  else if remoteStatus = "FAILED" || remoteStatus = "ABORTED" then
    if 0 < datasetCount then ⟨.partialFailure,.remoteFailedWithItems remoteStatus,none⟩
      else failed (.remoteFailedEmpty remoteStatus)
  else if run.errors ≠ [] then
    ⟨.partialFailure,.errorsReported ((run.errors.map RunError.code).dedup.mergeSort (· ≤ ·)),none⟩
  else if !hit.isEmpty || remoteStatus = "TIMED-OUT" then
    let causes := if remoteStatus = "TIMED-OUT" && !hit.contains "time" then "time"::hit else hit
    ⟨.truncated,.truncated causes,(limitPrecedence.find? fun entry => causes.contains entry.1).map
      fun entry => entry.2.2⟩
  else if datasetCount = 0 then
    if report.complete && 1 ≤ report.pagesFetched && report.itemsDeclared = some 0 && report.itemsEmitted = 0 then
      ⟨.complete,.completeEmpty,none⟩
    else failed .ambiguousEmpty
  else if !report.complete then failed .unexplainedIncomplete
  else if usableCount < datasetCount then
    ⟨.partialFailure,.unusableItems (datasetCount - usableCount) datasetCount,none⟩
  else ⟨.complete,.complete,none⟩

/-- `none` is the error of a status that is not terminal, or of counts that cannot be. -/
def classifyRun (remoteStatus : String) (output : Output) (datasetCount usableCount : Nat) (admitted : AdmittedRun) :
    Option RunClassification :=
  if !terminalRunStatuses.contains remoteStatus || datasetCount < usableCount then none
  else match validated output with
  | .error reason => some (failed reason)
  | .ok run => some (classifyReport remoteStatus run datasetCount usableCount admitted)

end HwRadar.Apify.Contract
