import Checkspan.Lib.Relational
import Checkspan.Documents
import Checkspan.Store

/-!
# The SQLite file (`src/store/mod.rs`)

The tables of `SCHEMA_V1` and `SCHEMA_V2` with their columns, keys, checks, references and
triggers, and the statements of the store: a record goes in as the text of its JSON and comes
out through the parser. The only time of a row that a read depends on is when a claim was made.
-/

namespace Checkspan

open Relational

/-- What `json_extract` makes of a member: `number` holds the text a `TEXT` column compares. -/
inductive SqlValue where
  | null
  | text (s : String)
  | number (asText : String)
deriving DecidableEq

/-- `receipt_id = json_extract(…)` on a column of text. -/
def SqlValue.equals (column : String) : SqlValue → Bool
  | null => false
  | text s => column = s
  | number asText => column = asText

/-- What SQLite and the reader do with the texts of a row. -/
structure Sqlite where
  /-- `serde_json::from_str`. -/
  parse : String → Option Json
  /-- The message of the reader that refuses a text. -/
  serde : ContractError → String → String
  /-- `json_extract(·, '$.receipt_id')`. -/
  receiptId : String → SqlValue

/-! ### Tables (`store/mod.rs:42-200`) -/

structure GraphsRow where
  graphId : String
  revision : Int
  specDigest : String
  specJson : String
deriving DecidableEq

structure RunsRow where
  runId : String
  graphId : String
  revision : Int
  budgetLineageRef : Option String
  runJson : String
deriving DecidableEq

structure EventsRow where
  seq : Int
  runId : String
  nodeId : Option String
  kind : String
  payloadJson : String
deriving DecidableEq

structure AttemptsRow where
  runId : String
  nodeId : String
  number : Int
  attemptJson : String
deriving DecidableEq

structure ReceiptsRow where
  runId : String
  receiptId : String
  nodeId : String
  number : Int
  verdict : String
  receiptJson : String
deriving DecidableEq

structure GatePacketsRow where
  runId : String
  packetId : String
  nodeId : String
  packetJson : String
deriving DecidableEq

structure GateDecisionsRow where
  runId : String
  packetId : String
  decision : String
  decisionJson : String
deriving DecidableEq

structure ClaimsRow where
  runId : String
  nodeId : String
  number : Int
  owner : String
  fence : Int
  dependencyJson : String
  resourcesJson : String
  active : Int
  release : Option String
  claimedAt : String
deriving DecidableEq

structure ArtifactsRow where
  runId : String
  digest : String
  kind : String
  locator : String
  sizeBytes : Int
deriving DecidableEq

/-- The rows of each table, and the entry of `events` in `sqlite_sequence`. -/
structure Database where
  graphs : List GraphsRow
  runs : List RunsRow
  events : List EventsRow
  attempts : List AttemptsRow
  receipts : List ReceiptsRow
  gatePackets : List GatePacketsRow
  gateDecisions : List GateDecisionsRow
  claims : List ClaimsRow
  artifacts : List ArtifactsRow
  sequence : Int

/-- Why a store operation failed, SQLite's own errors included. -/
inductive DbError where
  | store (error : StoreError)
  | revisionConflict (graph : GraphRef) (stored offered : String)
  | constraint (violation : Violation)
  | conversion
  | columnType
deriving DecidableEq

namespace Database

def empty : Database :=
  { graphs := [], runs := [], events := [], attempts := [], receipts := [], gatePackets := []
    gateDecisions := [], claims := [], artifacts := [], sequence := 0 }

def hasRun (d : Database) (run : String) : Bool := d.runs.any (fun r => r.runId = run)

def graphsTable : Table Database GraphsRow where
  rows d := d.graphs
  put rows d := { d with graphs := rows }
  clash a b := a.graphId = b.graphId && a.revision = b.revision
  check _ := true
  refers _ _ := true
  beforeInsert _ _ := false
  beforeUpdate _ := true

def runsTable : Table Database RunsRow where
  rows d := d.runs
  put rows d := { d with runs := rows }
  clash a b := a.runId = b.runId
  check _ := true
  refers d r := d.graphs.any (fun g => g.graphId = r.graphId && g.revision = r.revision)
  beforeInsert _ _ := false
  beforeUpdate _ := false

def eventsTable (sq : Sqlite) : Table Database EventsRow where
  rows d := d.events
  put rows d := { d with events := rows }
  clash a b := a.seq = b.seq
  check _ := true
  refers d e := d.hasRun e.runId
  beforeInsert d e := e.kind = "receipt_admitted" && !d.receipts.any (fun r =>
    r.runId = e.runId && (sq.receiptId e.payloadJson).equals r.receiptId)
  beforeUpdate _ := true

def attemptsTable : Table Database AttemptsRow where
  rows d := d.attempts
  put rows d := { d with attempts := rows }
  clash a b := a.runId = b.runId && a.nodeId = b.nodeId && a.number = b.number
  check _ := true
  refers d a := d.hasRun a.runId
  beforeInsert _ _ := false
  beforeUpdate _ := true

def receiptsTable : Table Database ReceiptsRow where
  rows d := d.receipts
  put rows d := { d with receipts := rows }
  clash a b := a.runId = b.runId && a.receiptId = b.receiptId
  check _ := true
  refers d r := d.attempts.any (fun a =>
    a.runId = r.runId && a.nodeId = r.nodeId && a.number = r.number)
  beforeInsert _ _ := false
  beforeUpdate _ := true

def gatePacketsTable : Table Database GatePacketsRow where
  rows d := d.gatePackets
  put rows d := { d with gatePackets := rows }
  clash a b := a.runId = b.runId && a.packetId = b.packetId
  check _ := true
  refers d p := d.hasRun p.runId
  beforeInsert _ _ := false
  beforeUpdate _ := false

def gateDecisionsTable : Table Database GateDecisionsRow where
  rows d := d.gateDecisions
  put rows d := { d with gateDecisions := rows }
  clash a b := a.runId = b.runId && a.packetId = b.packetId
  check _ := true
  refers d g := d.gatePackets.any (fun p => p.runId = g.runId && p.packetId = g.packetId)
  beforeInsert _ _ := false
  beforeUpdate _ := false

def claimsTable : Table Database ClaimsRow where
  rows d := d.claims
  put rows d := { d with claims := rows }
  clash a b := a.runId = b.runId &&
    ((a.nodeId = b.nodeId && a.number = b.number) || a.fence = b.fence)
  check c := c.active = 0 || c.active = 1
  refers d c := d.hasRun c.runId
  beforeInsert _ _ := false
  beforeUpdate c := c.active = 0

def artifactsTable : Table Database ArtifactsRow where
  rows d := d.artifacts
  put rows d := { d with artifacts := rows }
  clash a b := a.runId = b.runId && a.digest = b.digest
  check a := 1 ≤ sqlLength a.locator && sqlLength a.locator ≤ 2048 && 0 ≤ a.sizeBytes
  refers d a := d.hasRun a.runId
  beforeInsert _ _ := false
  beforeUpdate _ := false

/-! ### Reads (`store/mod.rs:428-602`, `1024-1031`) -/

section

variable (sq : Sqlite) (d : Database)

/-- `parse_record(&json).map_err(corrupt)`. -/
def readJson {α : Type} [Record α] (json : String) : Except DbError α :=
  match parseRecord sq.parse json with
  | .ok record => .ok record
  | .error e => .error (.store (.corrupt (Validation.displayContract (sq.serde e json) e)))

/-- `json.map(…).transpose()`. -/
def readRow {α : Type} [Record α] : Option String → Except DbError (Option α)
  | none => .ok none
  | some json => (readJson sq json).map some

def corruptIdent {k : IdKind} (text : String) : Except DbError (Identifier k) :=
  match Identifier.new k text with
  | .ok id => .ok id
  | .error e => .error (.store (.corrupt e.display))

def readEvent (e : EventsRow) : Except DbError StoredEvent := do
  guardOk (0 ≤ e.seq) (.store (.corrupt "out of range integral type conversion attempted"))
  let runId ← corruptIdent e.runId
  let nodeId ← e.nodeId.mapM corruptIdent
  match sq.parse e.payloadJson with
  | none => .error (.store (.corrupt (sq.serde .json e.payloadJson)))
  | some payload => .ok ⟨e.seq.toNat, runId, nodeId, e.kind, payload⟩

/-- `ORDER BY seq`. -/
def eventsOf (run : String) : Except DbError (List StoredEvent) :=
  ((d.events.filter (fun e => e.runId = run)).insertionSort (fun a b => a.seq ≤ b.seq)).mapM
    (readEvent sq)

def receipt (run receiptId : String) : Except DbError (Option VerifierReceipt) :=
  readRow sq ((d.receipts.find? (fun r => r.runId = run && r.receiptId = receiptId)).map
    (·.receiptJson))

/-- `ORDER BY rowid`. -/
def readGatePackets (run : String) : Except DbError (List GatePacket) :=
  (d.gatePackets.filter (fun p => p.runId = run)).mapM (fun p => readJson sq p.packetJson)

def attempt (run node : String) (number : Nat) : Except DbError (Option Attempt) :=
  readRow sq ((d.attempts.find? (fun a =>
    a.runId = run && a.nodeId = node && a.number = (number : Int))).map (·.attemptJson))

/-- `ORDER BY number`. -/
def readAttempts (run node : String) : Except DbError (List Attempt) :=
  ((d.attempts.filter (fun a => a.runId = run && a.nodeId = node)).insertionSort
    (fun a b => a.number ≤ b.number)).mapM (fun a => readJson sq a.attemptJson)

/-- `r.get::<_, Option<String>>`. -/
def optionalText : SqlValue → Except DbError (Option String)
  | .null => .ok none
  | .text s => .ok (some s)
  | .number _ => .error .columnType

def revokedReceipts (run : String) : Except DbError (List String) := do
  let ids ← (d.events.filter (fun e => e.runId = run && e.kind = "receipt_revoked")).mapM
    (fun e => optionalText (sq.receiptId e.payloadJson))
  .ok (ids.filterMap id)

def readRun (run : String) : Except DbError (Option GraphRun) :=
  readRow sq ((d.runs.find? (fun r => r.runId = run)).map (·.runJson))

def dispatchCount (run : String) : Nat :=
  min (d.events.countP (fun e => e.runId = run && e.kind = "attempt_dispatched")) (2 ^ 32 - 1)

def claimIdent {k : IdKind} (text : String) : Except DbError (Identifier k) :=
  match Identifier.new k text with
  | .ok id => .ok id
  | .error _ => .error .conversion

def claimNumber (n : Int) : Except DbError AttemptNumber :=
  if h : n.toNat < 2 ^ 32 ∧ 0 ≤ n then
    match PositiveU32.new "attempt number" n.toNat h.1 with
    | .ok number => .ok number
    | .error _ => .error .conversion
  else .error .conversion

def decodeList {α : Type} (codec : Json.Codec α) (json : String) : Except DbError (List α) :=
  match (sq.parse json).bind codec.list.read with
  | some items => .ok items
  | none => .error .conversion

def claimFromRow (c : ClaimsRow) : Except DbError ClaimRow := do
  let runId ← claimIdent c.runId
  let nodeId ← claimIdent c.nodeId
  let number ← claimNumber c.number
  let dependencyReceipts ← decodeList sq ReceiptRef.codec c.dependencyJson
  let resources ← decodeList sq ResourceClaim.codec c.resourcesJson
  .ok ⟨runId, nodeId, number, c.owner, c.fence.toNat, dependencyReceipts, resources,
    c.active = 1, c.release, c.claimedAt⟩

/-- `ORDER BY claimed_at, run_id, fence`. -/
def claimBefore (a b : ClaimsRow) : Bool :=
  a.claimedAt < b.claimedAt || (a.claimedAt = b.claimedAt &&
    (a.runId < b.runId || (a.runId = b.runId && a.fence ≤ b.fence)))

def activeClaims : Except DbError (List ClaimRow) :=
  ((d.claims.filter (fun c => c.active = 1)).insertionSort (fun a b => claimBefore a b)).mapM
    (claimFromRow sq)

/-- `claims`, `ORDER BY fence`. -/
def readClaims (run : String) : Except DbError (List ClaimRow) :=
  ((d.claims.filter (fun c => c.runId = run)).insertionSort (fun a b => a.fence ≤ b.fence)).mapM
    (claimFromRow sq)

def claim (run node : String) (number : Nat) : Except DbError (Option ClaimRow) :=
  match d.claims.find? (fun c =>
    c.runId = run && c.nodeId = node && c.number = (number : Int)) with
  | none => .ok none
  | some c => (claimFromRow sq c).map some

def loadGraph (ref : GraphRef) : Except DbError (Option GraphSpec) :=
  readRow sq ((d.graphs.find? (fun g =>
    g.graphId = ref.graphId.text && g.revision = (ref.revision.get : Int))).map (·.specJson))

end

/-! ### Writes (`store/mod.rs:738-1390`) -/

section

variable (sq : Sqlite) (rt : Runtime) (d : Database)

/-- `json_len_checked` on the text of a value. -/
def lenChecked (what : String) (text : String) : Except DbError Unit :=
  if text.utf8ByteSize > maxRecordLen then
    .error (.store (.tooLarge what text.utf8ByteSize maxRecordLen))
  else .ok ()

/-- A constraint violation under the message of the statement. -/
def constrained (e : StoreError) : Except Violation Database → Except DbError Database
  | .ok d => .ok d
  | .error _ => .error (.store e)

def appendEvent (run : RunId) (node : Option NodeId) (kind : String) (payload : Json) :
    Except DbError Database := do
  let text := rt.text payload
  lenChecked "event payload" text
  let d ← constrained
    (.missingReference ("run " ++ run.text ++ " (or the row " ++ kind ++ " requires)"))
    ((eventsTable sq).insert ⟨d.sequence + 1, run.text, node.map (·.text), kind, text⟩ d)
  .ok { d with sequence := d.sequence + 1 }

def insertAttempt (a : Attempt) : Except DbError Database := do
  let json := rt.text a.toJson
  lenChecked "attempt" json
  constrained
    (if d.hasRun a.runId.text then .duplicate ("attempt " ++ a.attemptRef.display)
      else .missingReference ("run " ++ a.runId.text))
    (attemptsTable.insert ⟨a.runId.text, a.node.nodeId.text, a.number.get, json⟩ d)

def sealAttempt (a : Attempt) : Except DbError Database := do
  let d ← d.insertAttempt rt a
  d.appendEvent sq rt a.runId (some a.node.nodeId) "attempt_sealed" (Store.sealedPayload a)

def hasAttempt (run node : String) (number : Nat) : Bool :=
  d.attempts.any (fun a => a.runId = run && a.nodeId = node && a.number = (number : Int))

def insertReceipt (r : VerifierReceipt) : Except DbError Database := do
  let json := rt.text r.toJson
  lenChecked "receipt" json
  constrained
    (if d.hasAttempt r.attempt.runId.text r.attempt.node.nodeId.text r.attempt.number.get then
      .duplicate ("receipt " ++ r.id.text)
      else .missingReference ("attempt " ++ r.attempt.display))
    (receiptsTable.insert ⟨r.attempt.runId.text, r.id.text, r.attempt.node.nodeId.text,
      r.attempt.number.get, r.verdict.asStr, json⟩ d)

def insertGatePacket (p : GatePacket) : Except DbError Database := do
  let json := rt.text p.toJson
  lenChecked "gate packet" json
  constrained (.duplicate ("gate packet " ++ p.id.text ++ " (or its run is missing)"))
    (gatePacketsTable.insert ⟨p.runId.text, p.id.text, p.node.nodeId.text, json⟩ d)

def hasGatePacket (run packet : String) : Bool :=
  d.gatePackets.any (fun p => p.runId = run && p.packetId = packet)

def insertGateDecision (run : RunId) (g : GateDecision) : Except DbError Database := do
  let json := rt.text g.toJson
  lenChecked "gate decision" json
  constrained
    (if d.hasGatePacket run.text g.gatePacketId.text then
      .duplicate ("decision for gate packet " ++ g.gatePacketId.text)
      else .missingReference ("gate packet " ++ g.gatePacketId.text))
    (gateDecisionsTable.insert ⟨run.text, g.gatePacketId.text, g.decision.asStr, json⟩ d)

def maxI64 : Nat := 2 ^ 63 - 1

def insertArtifact (run : RunId) (a : ArtifactRef) : Except DbError Database := do
  guardOk (a.locator ≠ "" && a.locator.utf8ByteSize ≤ maxLocatorLen)
    (.store (.tooLarge "artifact locator" a.locator.utf8ByteSize maxLocatorLen))
  constrained (.duplicate ("artifact " ++ a.digest ++ " (or its run is missing)"))
    (artifactsTable.insert
      ⟨run.text, a.digest, a.kind, a.locator, (min a.sizeBytes.toNat maxI64 : Nat)⟩ d)

/-- `COALESCE(MAX(fence), 0)`, one more. -/
def nextFence (run : String) : Nat :=
  (((d.claims.filter (fun c => c.runId = run)).map ClaimsRow.fence).foldl max 0).toNat + 1

/-- `DEFAULT (strftime(…, 'now'))` reads `now`; a new claim is active. -/
def insertClaim (now : String) (c : ClaimRow) : Except DbError Database :=
  constrained (.duplicate ("claim on " ++ c.runId.text ++ "/" ++ c.nodeId.text ++ "#" ++
      c.number.display ++ " (or its run is missing)"))
    (claimsTable.insert
      { runId := c.runId.text, nodeId := c.nodeId.text, number := c.number.get, owner := c.owner
        fence := (min c.fence maxI64 : Nat)
        dependencyJson := rt.text (ReceiptRef.codec.list.write c.dependencyReceipts)
        resourcesJson := rt.text (ResourceClaim.codec.list.write c.resources)
        active := 1, release := none, claimedAt := now } d)

/-- The `WHERE` clause of the release. -/
def heldUnder (run node : String) (number fence : Nat) (c : ClaimsRow) : Bool :=
  c.runId = run && c.nodeId = node && c.number = (number : Int) &&
    c.fence = (min fence maxI64 : Nat) && c.active = 1

def released (release : String) (c : ClaimsRow) : ClaimsRow :=
  { c with active := 0, release := some release }

def releaseClaim (run : RunId) (node : NodeId) (number fence : Nat) (release : String) :
    Except DbError (Bool × Database) :=
  match claimsTable.update (heldUnder run.text node.text number fence) (released release) d with
  | .ok (changed, d) => .ok (changed = 1, d)
  | .error v => .error (.constraint v)

def storeGraph (spec : GraphSpec) : Except DbError (Bool × Database) :=
  match graphSpecDigest rt spec with
  | .error e => .error (.store (.canonical e))
  | .ok digest => do
    let json := rt.text spec.toJson
    lenChecked "graph spec" json
    match d.graphs.find? (fun g => g.graphId = spec.graphRef.graphId.text &&
        g.revision = (spec.graphRef.revision.get : Int)) with
    | some row =>
      if row.specDigest = digest.text then .ok (false, d)
      else .error (.revisionConflict spec.graphRef row.specDigest digest.text)
    | none =>
      match graphsTable.insert ⟨spec.graphRef.graphId.text, spec.graphRef.revision.get, digest.text,
          json⟩ d with
      | .ok d => .ok (true, d)
      | .error v => .error (.constraint v)

/-- `INSERT OR IGNORE`, with the run reported as a duplicate when nothing was inserted. -/
def createRun (r : GraphRun) : Except DbError Database := do
  let json := rt.text r.toJson
  lenChecked "graph run" json
  if d.graphs.any (fun g =>
      g.graphId = r.graphRef.graphId.text && g.revision = (r.graphRef.revision.get : Int)) then
    match runsTable.insertOrIgnore ⟨r.runId.text, r.graphRef.graphId.text, r.graphRef.revision.get,
        r.budgetLineageRef.map (·.text), json⟩ d with
    | .error v => .error (.constraint v)
    | .ok (false, _) => .error (.store (.duplicate ("run " ++ r.runId.text)))
    | .ok (true, d) => d.appendEvent sq rt r.runId none "run_created" (Store.runCreatedPayload r)
  else .error (.store (.missingReference
    ("graph " ++ r.graphRef.graphId.text ++ "@" ++ r.graphRef.revision.display)))

def revokeReceipt (run : RunId) (receiptId reason : String) : Except DbError Database :=
  if d.receipts.any (fun r => r.runId = run.text && r.receiptId = receiptId) then
    d.appendEvent sq rt run none "receipt_revoked"
      (.obj [("receipt_id", .str receiptId), ("reason", .str reason)])
  else .error (.store (.missingReference ("receipt " ++ receiptId)))

end

end Database

end Checkspan
