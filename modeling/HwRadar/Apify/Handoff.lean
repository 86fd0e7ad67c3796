import HwRadar.Apify.Tally
import HwRadar.Base.Stamp

/-! Authority commands. An origin is claimed once per cycle; a drained ledger
hands its authority to one named destination as a record of texts, and the
destination re-sums those texts before it takes the authority over. -/
namespace HwRadar.Apify
open HwRadar.Base
open HwRadar.Base.Text (Decimal)

def handoffRecordVersion : Int := 1

def Json.fields : Json → List (String × Json)
  | .obj fields => fields
  | _ => []

def Json.isInt (value : Json) (n : Int) : Bool :=
  match value with
  | .num text => Text.parseDecimal text == some (.finite n)
  | .bool b => (if b then 1 else 0) == n
  | _ => false

def natJson (n : Nat) : Json := .num (String.ofList (Text.natText n))

def moneyText (amount : Nat) : String := Text.fixedText 4 amount

def isoJson : Option Int → Json
  | some t => .str (Stamp.isoText t)
  | none => .null

def Ledger.authorityEntry (l : Ledger) (start : Int) : Option (LedgerAuthority × Nat) :=
  l.authority.zipIdx.find? fun entry => entry.1.cycleStart == start

section
variable (digest : Json → String)

def claimOrigin (attestedBy : String) (config : LedgerConfig) (now : Int) (l : Ledger) :
    Except Fault Ledger :=
  if config.ledgerId = "" then .error (.refused "ledger_id_unset" "HW_RADAR_APIFY_LEDGER_ID is empty")
  else if Text.strip attestedBy = "" then
    .error (.refused "attestation_missing" "an origin claim needs an attestation")
  else match ensureCycle config now l with
  | (_,none) => .error (.refused "cycle_unknown" (cycleUnavailableDetail config now))
  | (l,some cycle) =>
    if (l.authorityFor cycle.cycleStart).isSome then
      .error (.refused "authority_exists" "this cycle already has an authority row")
    else .ok { l with authority := l.authority ++ [
      { LedgerAuthority.fresh cycle.cycleStart .origin config.ledgerId now with
        attestedBy := Text.truncate 200 (Text.strip attestedBy) }] }

def monitoringClosed (l : Ledger) (row : Reservation) : Bool :=
  match row.correctionMonitorUntil,row.correctionClosingRead.bind fun pk => l.usageReads[pk]? with
  | some untilAt,some closing =>
    row.correctionMonitorClosedAt.isSome && untilAt ≤ closing.readAt && row.monitoringCallPendingSince.isNone
  | _,_ => false

def unapplied (l : Ledger) (read : UsageRead) : Bool :=
  match l.reservations[read.reservation]?,read.usageTotalUsd with
  | some row,some total =>
    row.status == .reconciled && (row.reconciledAt.any fun at_ => at_ < read.readAt) &&
      row.settledRunUsageUsd.all fun settled => usd settled < total
  | _,_ => false

def drainRefusal (l : Ledger) : Option Fault :=
  match l.reservations.zipIdx.find? fun entry => entry.1.status.isOpen with
  | some (row,pk) => some (.refused "open_reservation" s!"reservation {pk} is {row.status.value}")
  | none =>
    match l.reservations.zipIdx.find? fun entry =>
      entry.1.status == .reconciled && hasObligation entry.1 && !monitoringClosed l entry.1 with
    | some (_,pk) => some (.refused "correction_monitoring_open"
        s!"reservation {pk} has no committed closing read at or after its deadline")
    | none =>
      match l.usageReads.zipIdx.find? fun entry => unapplied l entry.1 with
      | some (_,pk) =>
        some (.refused "unapplied_correction" s!"usage read {pk} exceeds its reservation's settled usage")
      | none => none

def obligationJson (l : Ledger) (pk : Nat) : Json :=
  match l.reservations[pk]? with
  | none => .null
  | some row =>
    let closing := row.correctionClosingRead.bind fun read => l.usageReads[read]?
    .obj [("reservation_id",natJson pk),
      ("correction_monitor_until",isoJson row.correctionMonitorUntil),
      ("closing_read_at",isoJson (closing.map UsageRead.readAt)),
      ("closing_read_usage_usd",match closing.bind UsageRead.usageTotalUsd with
        | some q => .str (Text.fixedText 8 ⌊q * 100000000⌋₊)
        | none => .null),
      ("settled_usd",match row.actualUsd with
        | some amount => .str (moneyText amount)
        | none => .str "None")]

def recordLines (t : Tally) : List (String × Nat) :=
  [("settled_runtime_usd",t.runtime.settled),("settled_operator_usd",t.operator.settled),
   ("monitoring_allowance_usd",t.runtime.monitoring + t.operator.monitoring),("carried_in_usd",t.carried)]

def recordTotal (t : Tally) : Nat := ((recordLines t).map Prod.snd).sum

def buildRecord (cycle : BudgetCycle) (authority : LedgerAuthority) (destination : String)
    (config : LedgerConfig) (now : Int) (l : Ledger) : Json :=
  let t := tally config l cycle.cycleStart cycle.cycleEnd
  .obj [("version",.num "1"),("source_ledger_id",.str authority.ledgerId),
    ("destination_ledger_id",.str destination),
    ("cycle_start",isoJson (some cycle.cycleStart)),("cycle_end",isoJson (some cycle.cycleEnd)),
    ("exported_at",isoJson (some now)),
    ("lines",.obj ((recordLines t).map fun line => (line.1,.str (moneyText line.2)))),
    ("carried_consumption_usd",.str (moneyText (recordTotal t))),
    ("drain",.obj [("open_reservations",.num "0"),("open_monitoring",.num "0"),
      ("obligations",.arr ((t.obligations.mergeSort (· ≤ ·)).map (obligationJson l)))])]

def handedOff (row : LedgerAuthority) (destination : String) (record : Json) (now : Int) : LedgerAuthority :=
  { row with
    handedOffAt := some now
    handedOffTo := some destination
    handoffRecord := some record
    handoffRecordDigest := some (digest record) }

def exportHandoff (destination : String) (config : LedgerConfig) (now : Int) (l : Ledger) :
    Except Fault (Ledger × Json) :=
  let destination := Text.strip destination
  if destination = "" then .error (.refused "destination_missing" "--to needs a ledger id")
  else match ensureCycle config now l with
  | (_,none) => .error (.refused "cycle_unknown" (cycleUnavailableDetail config now))
  | (l,some cycle) =>
    match l.authorityEntry cycle.cycleStart with
    | none => .error (.refused "no_authority" "this environment holds no authority this cycle")
    | some (row,pk) =>
      match row.handedOffAt,row.handoffRecord with
      | some _,some record =>
        if row.handedOffTo = some destination then .ok (l,record)
        else .error (.refused "already_handed_off" "authority was handed off")
      | some _,none => .error (.refused "already_handed_off" "authority was handed off")
      | none,_ =>
        if config.budget.enabled then
          .error (.refused "apify_enabled" "HW_RADAR_APIFY_ENABLED must be false to export")
        else if destination = row.ledgerId then
          .error (.refused "destination_is_self" "cannot hand off to this ledger")
        else match drainRefusal l with
        | some refusal => .error refusal
        | none =>
          let record := buildRecord cycle row destination config now l
          .ok ({ l with authority := l.authority.set pk (handedOff digest row destination record now) },record)

/-- `Decimal(str(value))`, finite and not negative. -/
def money (value : Json) (name : String) : Except Fault ℚ :=
  let parsed := match value with
    | .str text | .num text => Text.parseDecimal text
    | _ => none
  match parsed with
  | none => .error (.refused "record_invalid" s!"{name} is not a number")
  | some .nonFinite => .error (.refused "record_invalid" s!"{name} is negative or not finite")
  | some (.finite q) =>
    if q < 0 then .error (.refused "record_invalid" s!"{name} is negative or not finite") else .ok q

def parseDt (value : Json) (name : String) : Except Fault Int :=
  match value with
  | .str text =>
    match Stamp.parseIso text with
    | none => .error (.refused "record_invalid" s!"{name} is not a timestamp")
    | some (_,false) => .error (.refused "record_invalid" s!"{name} has no timezone")
    | some (t,true) => .ok t
  | _ => .error (.refused "record_invalid" s!"{name} is missing")

def checkObligation (item : Json) : Except Fault Unit :=
  match item with
  | .obj entry =>
    match lookup "correction_monitor_until" entry,lookup "closing_read_at" entry with
    | .null,_ | _,.null => .error (.refused "closing_read_missing"
        "an obligation-bearing row has no closing-read evidence")
    | untilAt,readAt => do
      let read ← parseDt readAt "closing_read_at"
      let deadline ← parseDt untilAt "correction_monitor_until"
      if read < deadline then .error (.refused "closing_read_missing"
          "a closing read predates its correction deadline")
      else .ok ()
  | _ => .error (.refused "record_invalid" "malformed obligation entry")

def checkObligations : List Json → Except Fault Unit
  | [] => .ok ()
  | item::rest => do
    checkObligation item
    checkObligations rest

def checkDrain (drain : Json) : Except Fault Unit :=
  match drain with
  | .obj drain =>
    if !(lookup "open_reservations" drain).isInt 0 || !(lookup "open_monitoring" drain).isInt 0 then
      .error (.refused "open_liability" "the record shows open liability or monitoring")
    else match lookup "obligations" drain with
    | .arr items => checkObligations items
    | _ => .error (.refused "record_invalid" "drain obligations missing")
  | _ => .error (.refused "record_invalid" "drain attestation missing")

def sumLines : List (String × Json) → Except Fault ℚ
  | [] => .ok 0
  | (name,value)::rest => do
    let amount ← money value s!"lines.{name}"
    let total ← sumLines rest
    .ok (amount + total)

def validatedTotal (record : Json) : Except Fault ℚ :=
  let fields := record.fields
  if !(lookup "version" fields).isInt handoffRecordVersion then
    .error (.refused "record_invalid" "unknown handoff record version")
  else do
    checkDrain (lookup "drain" fields)
    let lines := (lookup "lines" fields).fields
    if lines.isEmpty then .error (.refused "record_invalid" "consumption lines missing")
    else do
    let lineSum ← sumLines lines
    let total ← money (lookup "carried_consumption_usd" fields) "carried_consumption_usd"
    if total < lineSum then
      .error (.refused "record_invalid" "carried consumption is below its lines")
    else .ok total

def recordSource (config : LedgerConfig) (record : Json) : Except Fault String :=
  match lookup "source_ledger_id" record.fields with
  | .str source =>
    if source = "" ∨ source = config.ledgerId then
      .error (.refused "record_invalid" "the record's source ledger is invalid")
    else .ok source
  | _ => .error (.refused "record_invalid" "the record's source ledger is invalid")

def boundTo (record : Json) (ledgerId : String) : Bool :=
  match lookup "destination_ledger_id" record.fields with
  | .str destination => destination == ledgerId
  | _ => false

def importHandoff (record : Json) (config : LedgerConfig) (now : Int) (l : Ledger) :
    Except Fault (Ledger × Bool) :=
  if config.ledgerId = "" then .error (.refused "ledger_id_unset" "HW_RADAR_APIFY_LEDGER_ID is empty")
  else if !boundTo record config.ledgerId then
    .error (.refused "wrong_destination" "the record is bound to another ledger")
  else do
    let source ← recordSource config record
    let total ← validatedTotal record
    let recordCycle ← parseDt (lookup "cycle_start" record.fields) "cycle_start"
    match ensureCycle config now l with
    | (_,none) => .error (.refused "wrong_cycle" "the record is not for the current cycle")
    | (l,some cycle) =>
      if cycle.cycleStart ≠ recordCycle then
        .error (.refused "wrong_cycle" "the record is not for the current cycle")
      else match l.authorityFor cycle.cycleStart with
      | some existing =>
        if existing.importedRecordDigest = some (digest record) then .ok (l,false)
        else .error (.refused "authority_exists" "this cycle already has an authority row")
      | none => .ok ({ l with authority := l.authority ++ [
          { LedgerAuthority.fresh cycle.cycleStart .handoff config.ledgerId now with
            carriedConsumptionUsd := toLedger total
            attestedBy := Text.truncate 200 ("handoff from " ++ source)
            importedRecordDigest := some (digest record) }] },true)
end

structure Claimed (config : LedgerConfig) (now : Int) (l : Ledger) (cycle : BudgetCycle) (l' : Ledger) : Prop where
  named : config.ledgerId ≠ ""
  free : (ensureCycle config now l).1.authorityFor cycle.cycleStart = none
  cycles : l'.cycles = (ensureCycle config now l).1.cycles
  added : ∃ attestedBy, l'.authority = (ensureCycle config now l).1.authority ++ [
    { LedgerAuthority.fresh cycle.cycleStart .origin config.ledgerId now with attestedBy }]

theorem claimSound {attestedBy : String} {config : LedgerConfig} {now : Int} {l l' : Ledger}
    (ok : claimOrigin attestedBy config now l = .ok l') :
    ∃ cycle, (ensureCycle config now l).2 = some cycle ∧ Claimed config now l cycle l' := by
  unfold claimOrigin at ok
  split at ok
  · cases ok
  rename_i named
  split at ok
  · cases ok
  split at ok
  · cases ok
  rename_i m cycle ensured
  have first : (ensureCycle config now l).1 = m := by rw [ensured]
  have second : (ensureCycle config now l).2 = some cycle := by rw [ensured]
  subst first
  split at ok
  · cases ok
  rename_i free
  cases Except.ok.inj ok
  exact ⟨cycle,second,named,by simpa using free,rfl,_,rfl⟩

theorem claimOriginOnly {attestedBy : String} {config : LedgerConfig} {now : Int} {l l' : Ledger}
    (ok : claimOrigin attestedBy config now l = .ok l') : CycleOnly l l' := by
  unfold claimOrigin at ok
  have only := ensureOnly config now l
  split at ok
  · cases ok
  split at ok
  · cases ok
  split at ok
  · cases ok
  rename_i m cycle ensured
  rw [ensured] at only
  split at ok
  · cases ok
  cases Except.ok.inj ok
  exact ⟨only.reservations,only.runs,only.usageReads,only.latches⟩

inductive Exported (digest : Json → String) (destination : String) (config : LedgerConfig) (now : Int)
    (l : Ledger) (cycle : BudgetCycle) (row : LedgerAuthority) (pk : Nat) : Ledger → Json → Prop where
  | again {record} (stored : row.handoffRecord = some record) (exported : row.handedOffAt ≠ none) :
      Exported digest destination config now l cycle row pk (ensureCycle config now l).1 record
  | drained (held : row.handedOffAt = none) (disabled : config.budget.enabled = false)
      (other : Text.strip destination ≠ row.ledgerId) (named : Text.strip destination ≠ "")
      (none : drainRefusal (ensureCycle config now l).1 = none) :
      Exported digest destination config now l cycle row pk
        { (ensureCycle config now l).1 with
          authority := (ensureCycle config now l).1.authority.set pk
            (handedOff digest row (Text.strip destination)
              (buildRecord cycle row (Text.strip destination) config now (ensureCycle config now l).1) now) }
        (buildRecord cycle row (Text.strip destination) config now (ensureCycle config now l).1)

theorem exportSound {digest : Json → String} {destination : String} {config : LedgerConfig} {now : Int}
    {l l' : Ledger} {record : Json} (ok : exportHandoff digest destination config now l = .ok (l',record)) :
    ∃ cycle row pk, (ensureCycle config now l).2 = some cycle ∧
      (ensureCycle config now l).1.authorityEntry cycle.cycleStart = some (row,pk) ∧
      Exported digest destination config now l cycle row pk l' record := by
  unfold exportHandoff at ok
  simp only at ok
  split at ok
  · cases ok
  rename_i named
  split at ok
  · cases ok
  rename_i m cycle ensured
  split at ok
  · cases ok
  rename_i row pk found
  have first : (ensureCycle config now l).1 = m := by rw [ensured]
  have second : (ensureCycle config now l).2 = some cycle := by rw [ensured]
  subst first
  refine ⟨cycle,row,pk,second,found,?_⟩
  split at ok
  · rename_i at_ stored exported held
    split at ok
    · cases Except.ok.inj ok; exact .again held (by rw [exported]; simp)
    · cases ok
  · cases ok
  · rename_i held
    split at ok
    · cases ok
    rename_i disabled
    split at ok
    · cases ok
    rename_i other
    split at ok
    · cases ok
    rename_i drained
    cases Except.ok.inj ok
    exact .drained held (by simpa using disabled) other named drained

theorem exportHandoffOnly {digest : Json → String} {destination : String} {config : LedgerConfig} {now : Int}
    {l l' : Ledger} {record : Json} (ok : exportHandoff digest destination config now l = .ok (l',record)) :
    CycleOnly l l' := by
  have only := ensureOnly config now l
  obtain ⟨cycle,row,pk,_,_,exported⟩ := exportSound ok
  cases exported with
  | again => exact only
  | drained => exact ⟨only.reservations,only.runs,only.usageReads,only.latches⟩

inductive Imported (digest : Json → String) (record : Json) (config : LedgerConfig) (now : Int)
    (l : Ledger) (cycle : BudgetCycle) : Ledger → Bool → Prop where
  | again {row} (here : (ensureCycle config now l).1.authorityFor cycle.cycleStart = some row)
      (same : row.importedRecordDigest = some (digest record)) :
      Imported digest record config now l cycle (ensureCycle config now l).1 false
  | accepted {total source} (free : (ensureCycle config now l).1.authorityFor cycle.cycleStart = none)
      (validated : validatedTotal record = .ok total) (named : recordSource config record = .ok source) :
      Imported digest record config now l cycle
        { (ensureCycle config now l).1 with authority := (ensureCycle config now l).1.authority ++ [
          { LedgerAuthority.fresh cycle.cycleStart .handoff config.ledgerId now with
            carriedConsumptionUsd := toLedger total
            attestedBy := Text.truncate 200 ("handoff from " ++ source)
            importedRecordDigest := some (digest record) }] } true

theorem importSound {digest : Json → String} {record : Json} {config : LedgerConfig} {now : Int}
    {l l' : Ledger} {changed : Bool} (ok : importHandoff digest record config now l = .ok (l',changed)) :
    config.ledgerId ≠ "" ∧ boundTo record config.ledgerId = true ∧
    ∃ cycle, (ensureCycle config now l).2 = some cycle ∧
      parseDt (lookup "cycle_start" record.fields) "cycle_start" = .ok cycle.cycleStart ∧
      Imported digest record config now l cycle l' changed := by
  unfold importHandoff at ok
  split at ok
  · cases ok
  rename_i named
  split at ok
  · cases ok
  rename_i bound
  obtain ⟨source,fromLedger,ok⟩ := bindOk.mp ok
  obtain ⟨total,validated,ok⟩ := bindOk.mp ok
  obtain ⟨recordCycle,parsed,ok⟩ := bindOk.mp ok
  refine ⟨named,by simpa using bound,?_⟩
  split at ok
  · cases ok
  rename_i m cycle ensured
  have first : (ensureCycle config now l).1 = m := by rw [ensured]
  have second : (ensureCycle config now l).2 = some cycle := by rw [ensured]
  subst first
  split at ok
  · cases ok
  rename_i same
  have start : cycle.cycleStart = recordCycle := not_not.mp same
  refine ⟨cycle,second,start ▸ parsed,?_⟩
  split at ok
  · rename_i existing here
    split at ok
    · cases Except.ok.inj ok; exact .again here (by assumption)
    · cases ok
  · rename_i free
    cases Except.ok.inj ok
    exact .accepted free validated fromLedger

theorem importHandoffOnly {digest : Json → String} {record : Json} {config : LedgerConfig} {now : Int}
    {l l' : Ledger} {changed : Bool} (ok : importHandoff digest record config now l = .ok (l',changed)) :
    CycleOnly l l' := by
  have only := ensureOnly config now l
  obtain ⟨_,_,cycle,_,_,imported⟩ := importSound ok
  cases imported with
  | again => exact only
  | accepted => exact ⟨only.reservations,only.runs,only.usageReads,only.latches⟩

end HwRadar.Apify
