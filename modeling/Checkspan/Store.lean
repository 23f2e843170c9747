import Checkspan.Digests
import Checkspan.State

/-!
# The ledger (`src/store/mod.rs`)

The tables of the SQLite file as lists of typed rows in insertion order, with the
key, foreign-key and trigger rules of `SCHEMA_V1` and `SCHEMA_V2`. A row is the
record it stores; its key columns are fields of that record. Events are never
deleted, so the autoincrement `seq` is the position in the log. Operations take
the store and return the one after them, or an error.
-/

namespace Checkspan

/-! ### Results -/

theorem bind_eq_ok {ε α β : Type} {x : Except ε α} {f : α → Except ε β} {b : β} :
    x >>= f = .ok b ↔ ∃ a, x = .ok a ∧ f a = .ok b := by
  refine ⟨bind_ok, ?_⟩
  rintro ⟨a, rfl, h⟩
  exact h

theorem mapError_ok {ε ε' α : Type} {x : Except ε α} {f : ε → ε'} {a : α}
    (h : x.mapError f = .ok a) : x = .ok a := by
  cases x with
  | error e => cases h
  | ok b =>
    cases h
    rfl

theorem mapError_eq_ok {ε ε' α : Type} {x : Except ε α} {f : ε → ε'} {a : α} :
    x.mapError f = .ok a ↔ x = .ok a := by
  refine ⟨mapError_ok, ?_⟩
  rintro rfl
  rfl

/-- Refuse with `e` unless the condition holds. -/
def guardOk {ε : Type} (c : Bool) (e : ε) : Except ε Unit := if c then .ok () else .error e

theorem guardOk_ok {ε : Type} {c : Bool} {e : ε} {u : Unit} (h : guardOk c e = .ok u) :
    c = true := by
  unfold guardOk at h
  split at h
  · assumption
  · cases h

theorem guardOk_eq_ok {ε : Type} {c : Bool} {e : ε} {u : Unit} :
    guardOk c e = .ok u ↔ c = true := by
  refine ⟨guardOk_ok, ?_⟩
  rintro rfl
  rfl

/-! ### Rows and errors -/

structure GraphRow where
  spec : GraphSpec
  digest : Digest
deriving DecidableEq

/-- A claim on one attempt (`store/mod.rs:350-377`). -/
structure ClaimRow where
  runId : RunId
  nodeId : NodeId
  number : AttemptNumber
  owner : String
  fence : Nat
  dependencyReceipts : List ReceiptRef
  resources : List ResourceClaim
  active : Bool
  release : Option String
  claimedAt : String
deriving DecidableEq

namespace ClaimRow

/-- The `WHERE` clause of the release (`store/mod.rs:1370-1378`). -/
def isHeldUnder (run : RunId) (node : NodeId) (number fence : Nat) (c : ClaimRow) : Bool :=
  c.runId = run && c.nodeId = node && c.number.get = number && c.fence = fence && c.active

/-- The `UPDATE` of the rows a clause selects. -/
def releaseIf (p : ClaimRow → Bool) (release : String) (c : ClaimRow) : ClaimRow :=
  if p c then { c with active := false, release := some release } else c

variable (p : ClaimRow → Bool) (release : String) (c : ClaimRow)

@[simp] theorem releaseIf_runId : (releaseIf p release c).runId = c.runId := by
  unfold releaseIf
  split <;> rfl

@[simp] theorem releaseIf_nodeId : (releaseIf p release c).nodeId = c.nodeId := by
  unfold releaseIf
  split <;> rfl

@[simp] theorem releaseIf_number : (releaseIf p release c).number = c.number := by
  unfold releaseIf
  split <;> rfl

@[simp] theorem releaseIf_fence : (releaseIf p release c).fence = c.fence := by
  unfold releaseIf
  split <;> rfl

@[simp] theorem releaseIf_resources : (releaseIf p release c).resources = c.resources := by
  unfold releaseIf
  split <;> rfl

@[simp] theorem releaseIf_dependencyReceipts :
    (releaseIf p release c).dependencyReceipts = c.dependencyReceipts := by
  unfold releaseIf
  split <;> rfl

@[simp] theorem releaseIf_active :
    (releaseIf p release c).active = (c.active && !p c) := by
  unfold releaseIf
  split <;> simp [*]

theorem releaseIf_pos (h : p c = true) :
    releaseIf p release c = { c with active := false, release := some release } := if_pos h

theorem releaseIf_neg (h : p c = false) : releaseIf p release c = c := by
  rw [releaseIf, if_neg (by simp [h])]

end ClaimRow

/-- A bounded reference to an artifact kept outside the store. -/
structure ArtifactRef where
  digest : String
  kind : String
  locator : String
  sizeBytes : UInt64
deriving DecidableEq

inductive StoreError where
  | revisionConflict (graph : GraphRef) (stored offered : Digest)
  | missingReference (what : String)
  | duplicate (what : String)
  | tooLarge (what : String) (size limit : Nat)
  | canonical (error : CanonicalError)
  | corrupt (what : String)
deriving DecidableEq

def StoreError.display : StoreError → String
  | revisionConflict g stored offered => "graph " ++ g.graphId.text ++ "@" ++ g.revision.display ++
      " is already stored with digest " ++ stored.text ++ "; refusing different content " ++
      offered.text
  | missingReference what => what ++ " is not stored"
  | duplicate what => what ++ " is already stored"
  | tooLarge what size limit => what ++ " is " ++ toString size ++ " bytes; the limit is " ++
      toString limit
  | canonical e => e.display
  | corrupt what => "stored record cannot be read: " ++ what

def maxRecordLen : Nat := 4 * 1024 * 1024

def maxLocatorLen : Nat := 2048

/-- `length` of SQLite: the characters of a text before the first NUL. -/
def sqlLength (s : String) : Nat := (s.toList.takeWhile (fun c => c.toNat ≠ 0)).length

theorem sqlLength_le (s : String) : sqlLength s ≤ s.length :=
  (List.takeWhile_sublist _).length_le

structure Store where
  graphs : List GraphRow
  runs : List GraphRun
  events : List StoredEvent
  attempts : List Attempt
  receipts : List VerifierReceipt
  gatePackets : List GatePacket
  gateDecisions : List (RunId × GateDecision)
  claims : List ClaimRow
  artifacts : List (RunId × ArtifactRef)

namespace Store

def empty : Store :=
  { graphs := [], runs := [], events := [], attempts := [], receipts := [], gatePackets := []
    gateDecisions := [], claims := [], artifacts := [] }

/-! ### Reads (`store/mod.rs:437-579`) -/

/-- The header test of `parse_record` on a stored record, with its message. -/
def readRecord {α : Type} (header : α → RecordHeader) (kind : RecordKind) (record : α) :
    Except StoreError α :=
  let h := header record
  if h.record ≠ kind then
    .error (.corrupt ("expected a " ++ kind.asStr ++ " record, found " ++ h.record.asStr.quote))
  else if h.schemaVersion ≠ 1 then
    .error (.corrupt (kind.asStr ++ " schema_version " ++ toString h.schemaVersion ++
      " is not supported; this build supports 1"))
  else .ok record

def readOptional {α : Type} (header : α → RecordHeader) (kind : RecordKind) :
    Option α → Except StoreError (Option α)
  | none => .ok none
  | some record => (readRecord header kind record).map some

def eventsOf (s : Store) (run : RunId) : List StoredEvent :=
  s.events.filter (fun e => e.runId = run)

def receipt (s : Store) (run : RunId) (receiptId : String) :
    Except StoreError (Option VerifierReceipt) :=
  readOptional VerifierReceipt.toRecordHeader .verifierReceipt
    (s.receipts.find? (fun r => r.attempt.runId = run ∧ r.id.text = receiptId))

def attempt (s : Store) (run : RunId) (node : NodeId) (number : Nat) :
    Except StoreError (Option Attempt) :=
  readOptional Attempt.toRecordHeader .attempt
    (s.attempts.find? (fun a => a.runId = run ∧ a.node.nodeId = node ∧ a.number.get = number))

def run (s : Store) (id : RunId) : Except StoreError (Option GraphRun) :=
  readOptional GraphRun.toRecordHeader .graphRun (s.runs.find? (fun r => r.runId = id))

def loadGraph (s : Store) (ref : GraphRef) : Except StoreError (Option GraphSpec) :=
  readOptional GraphSpec.toRecordHeader .graphSpec
    ((s.graphs.find? (fun g => g.spec.graphRef = ref)).map (·.spec))

/-- The receipt ids of `receipt_revoked` events. Ids that are not text name no
receipt. -/
def revokedReceipts (s : Store) (run : RunId) : List String :=
  (s.eventsOf run).filterMap (fun e =>
    if e.kind = kinds.receiptRevoked then
      match e.payload.get "receipt_id" with
      | some (.str id) => some id
      | _ => none
    else none)

/-- `dispatch_count`: a `u32`, capped. -/
def dispatchCount (s : Store) (run : RunId) : Nat :=
  min ((s.eventsOf run).countP (fun e => e.kind = kinds.attemptDispatched)) (2 ^ 32 - 1)

/-- `ORDER BY claimed_at, run_id, fence`. -/
def claimBefore (a b : ClaimRow) : Bool :=
  a.claimedAt < b.claimedAt || (a.claimedAt = b.claimedAt &&
    (a.runId.text < b.runId.text || (a.runId.text = b.runId.text && a.fence ≤ b.fence)))

def activeClaims (s : Store) : List ClaimRow :=
  (s.claims.filter (·.active)).insertionSort (fun a b => claimBefore a b)

def claim (s : Store) (run : RunId) (node : NodeId) (number : Nat) : Option ClaimRow :=
  s.claims.find? (fun c => c.runId = run ∧ c.nodeId = node ∧ c.number.get = number)

def hasRun (s : Store) (run : RunId) : Bool := s.runs.any (fun r => r.runId = run)

theorem mem_activeClaims {s : Store} {row : ClaimRow} :
    row ∈ s.activeClaims ↔ row ∈ s.claims ∧ row.active = true := by
  unfold activeClaims
  rw [List.mem_insertionSort, List.mem_filter]

theorem activeClaims_length (s : Store) :
    s.activeClaims.length = s.claims.countP (·.active) := by
  unfold activeClaims
  rw [List.length_insertionSort, List.countP_eq_length_filter]

theorem readRecord_ok {α : Type} {header : α → RecordHeader} {kind : RecordKind} {a b : α}
    (h : readRecord header kind a = .ok b) : b = a ∧ (header a).isFor kind = true := by
  simp only [readRecord] at h
  split at h
  · cases h
  · rename_i hk
    split at h
    · cases h
    · rename_i hv
      cases h
      refine ⟨rfl, ?_⟩
      simp only [ne_eq, Decidable.not_not] at hk hv
      simp [RecordHeader.isFor, hk, hv]

theorem readOptional_of_header {α : Type} {header : α → RecordHeader} {kind : RecordKind} {a : α}
    (h : (header a).isFor kind = true) : readOptional header kind (some a) = .ok (some a) := by
  simp only [RecordHeader.isFor, Bool.and_eq_true, decide_eq_true_eq] at h
  simp [readOptional, readRecord, h.1, h.2, Except.map]

theorem readOptional_some {α : Type} {header : α → RecordHeader} {kind : RecordKind}
    {o : Option α} {a : α} (h : readOptional header kind o = .ok (some a)) :
    o = some a ∧ (header a).isFor kind = true := by
  cases o with
  | none => cases h
  | some b =>
    simp only [readOptional] at h
    cases hr : readRecord header kind b with
    | error e =>
      rw [hr] at h
      cases h
    | ok c =>
      rw [hr] at h
      cases h
      obtain ⟨rfl, hok⟩ := readRecord_ok hr
      exact ⟨rfl, hok⟩

theorem readOptional_none {α : Type} {header : α → RecordHeader} {kind : RecordKind}
    {o : Option α} (h : readOptional header kind o = .ok none) : o = none := by
  cases o with
  | none => rfl
  | some b =>
    simp only [readOptional] at h
    cases hr : readRecord header kind b <;> rw [hr] at h <;> cases h

/-! ### Transactions -/

/-- `transaction` (`store/mod.rs:722-736`): commits only when the body succeeds. -/
def transaction {ε α : Type} (s : Store) (body : Except ε (α × Store)) : Except ε α × Store :=
  match body with
  | .ok (a, s') => (.ok a, s')
  | .error e => (.error e, s)

/-- A property of the store before and of every store the body commits. -/
theorem transaction_property {ε α : Type} {s : Store} {body : Except ε (α × Store)}
    {P : Store → Prop} (hs : P s) (hbody : ∀ a s', body = .ok (a, s') → P s') :
    P (s.transaction body).2 := by
  cases body with
  | error e => exact hs
  | ok out => exact hbody out.1 out.2 rfl

theorem transaction_ok {ε α : Type} {s : Store} {body : Except ε (α × Store)} {a : α}
    (h : (s.transaction body).1 = .ok a) : body = .ok (a, (s.transaction body).2) := by
  cases body with
  | error e => cases h
  | ok out =>
    cases h
    rfl

/-! ### Writes inside a transaction (`store/mod.rs:1073-1390`) -/

variable (rt : Runtime)

def jsonLenChecked (what : String) (value : Json) : Except StoreError Unit :=
  let size := (rt.text value).utf8ByteSize
  if size > maxRecordLen then .error (.tooLarge what size maxRecordLen) else .ok ()

/-- The trigger `receipt_admitted_requires_receipt`. -/
def receiptRowExists (s : Store) (run : RunId) (payload : Json) : Bool :=
  match payload.get "receipt_id" with
  | some (.str id) => s.receipts.any (fun r => r.attempt.runId = run ∧ r.id.text = id)
  | _ => false

def eventAllowed (s : Store) (run : RunId) (kind : String) (payload : Json) : Bool :=
  s.hasRun run && (kind != kinds.receiptAdmitted || s.receiptRowExists run payload)

theorem hasRun_of_eventAllowed {s : Store} {run : RunId} {kind : String} {payload : Json}
    (h : s.eventAllowed run kind payload = true) : s.hasRun run = true := by
  unfold eventAllowed at h
  rw [Bool.and_eq_true] at h
  exact h.1

/-- The event the log takes next. -/
def nextEvent (s : Store) (run : RunId) (node : Option NodeId) (kind : String) (payload : Json) :
    StoredEvent :=
  ⟨s.events.length + 1, run, node, kind, payload⟩

def appendEvent (s : Store) (run : RunId) (node : Option NodeId) (kind : String)
    (payload : Json) : Except StoreError Store := do
  jsonLenChecked rt "event payload" payload
  guardOk (s.eventAllowed run kind payload)
    (.missingReference ("run " ++ run.text ++ " (or the row " ++ kind ++ " requires)"))
  .ok { s with events := s.events ++ [s.nextEvent run node kind payload] }

def attemptKeyTaken (s : Store) (a : Attempt) : Bool :=
  s.attempts.any (fun b => b.runId = a.runId ∧ b.node.nodeId = a.node.nodeId ∧
    b.number = a.number)

def insertAttempt (s : Store) (a : Attempt) : Except StoreError Store := do
  jsonLenChecked rt "attempt" a.toJson
  if s.hasRun a.runId then
    guardOk (!s.attemptKeyTaken a) (.duplicate ("attempt " ++ a.attemptRef.display))
    .ok { s with attempts := s.attempts ++ [a] }
  else .error (.missingReference ("run " ++ a.runId.text))

/-- The payload of `attempt_sealed` (`store/mod.rs:1142-1155`). -/
def sealedPayload (a : Attempt) : Json :=
  .obj [("number", a.number.toJson),
    ("outcome", Json.ofOption (a.execution.map (fun e => e.outcome.toJson))),
    ("result_digest", Json.ofOption (a.result.map (fun r => r.digest.toJson)))]

def sealAttempt (s : Store) (a : Attempt) : Except StoreError Store := do
  let s ← s.insertAttempt rt a
  s.appendEvent rt a.runId (some a.node.nodeId) kinds.attemptSealed (sealedPayload a)

def insertReceipt (s : Store) (r : VerifierReceipt) : Except StoreError Store := do
  jsonLenChecked rt "receipt" r.toJson
  if s.attempts.any (fun a => a.runId = r.attempt.runId ∧
      a.node.nodeId = r.attempt.node.nodeId ∧ a.number = r.attempt.number) then
    guardOk (!s.receipts.any (fun q => q.attempt.runId = r.attempt.runId ∧ q.id = r.id))
      (.duplicate ("receipt " ++ r.id.text))
    .ok { s with receipts := s.receipts ++ [r] }
  else .error (.missingReference ("attempt " ++ r.attempt.display))

def insertGatePacket (s : Store) (p : GatePacket) : Except StoreError Store := do
  jsonLenChecked rt "gate packet" p.toJson
  guardOk (s.hasRun p.runId && !s.gatePackets.any (fun q => q.runId = p.runId ∧ q.id = p.id))
    (.duplicate ("gate packet " ++ p.id.text ++ " (or its run is missing)"))
  .ok { s with gatePackets := s.gatePackets ++ [p] }

def insertGateDecision (s : Store) (run : RunId) (d : GateDecision) : Except StoreError Store := do
  jsonLenChecked rt "gate decision" d.toJson
  if s.gatePackets.any (fun p => p.runId = run ∧ p.id = d.gatePacketId) then
    guardOk (!s.gateDecisions.any (fun q => q.1 = run ∧ q.2.gatePacketId = d.gatePacketId))
      (.duplicate ("decision for gate packet " ++ d.gatePacketId.text))
    .ok { s with gateDecisions := s.gateDecisions ++ [(run, d)] }
  else .error (.missingReference ("gate packet " ++ d.gatePacketId.text))

def insertArtifact (s : Store) (run : RunId) (a : ArtifactRef) : Except StoreError Store := do
  guardOk (a.locator ≠ "" && a.locator.utf8ByteSize ≤ maxLocatorLen)
    (.tooLarge "artifact locator" a.locator.utf8ByteSize maxLocatorLen)
  guardOk (s.hasRun run && 1 ≤ sqlLength a.locator &&
      !s.artifacts.any (fun b => b.1 = run ∧ b.2.digest = a.digest))
    (.duplicate ("artifact " ++ a.digest ++ " (or its run is missing)"))
  .ok { s with artifacts := s.artifacts ++ [(run, a)] }

/-- `COALESCE(MAX(fence), 0) + 1` over the claims of a run. -/
def nextFence (s : Store) (run : RunId) : Nat :=
  ((s.claims.filter (fun c => c.runId = run)).map (·.fence)).foldl max 0 + 1

def insertClaim (s : Store) (c : ClaimRow) : Except StoreError Store := do
  guardOk (s.hasRun c.runId && !s.claims.any (fun d => d.runId = c.runId ∧
      ((d.nodeId = c.nodeId ∧ d.number = c.number) ∨ d.fence = c.fence)))
    (.duplicate ("claim on " ++ c.runId.text ++ "/" ++ c.nodeId.text ++ "#" ++
      c.number.display ++ " (or its run is missing)"))
  .ok { s with claims := s.claims ++ [c] }

/-- `release_claim`: whether a row was released, and the store after. -/
def releaseClaim (s : Store) (run : RunId) (node : NodeId) (number fence : Nat)
    (release : String) : Bool × Store :=
  (s.claims.countP (ClaimRow.isHeldUnder run node number fence) = 1,
    { s with claims :=
        s.claims.map (ClaimRow.releaseIf (ClaimRow.isHeldUnder run node number fence) release) })

/-! ### Store operations (`store/mod.rs:738-944`) -/

def storeGraph (s : Store) (spec : GraphSpec) : Except StoreError (Bool × Store) := do
  let digest ← (graphSpecDigest rt spec).mapError .canonical
  jsonLenChecked rt "graph spec" spec.toJson
  match s.graphs.find? (fun g => g.spec.graphRef = spec.graphRef) with
  | some row =>
    if row.digest = digest then .ok (false, s)
    else .error (.revisionConflict spec.graphRef row.digest digest)
  | none => .ok (true, { s with graphs := s.graphs ++ [⟨spec, digest⟩] })

/-- The payload of `run_created`. -/
def runCreatedPayload (r : GraphRun) : Json :=
  .obj [("graph_id", r.graphRef.graphId.toJson), ("revision", r.graphRef.revision.toJson),
    ("budget_lineage_ref", Json.ofOption (r.budgetLineageRef.map (·.toJson)))]

def createRun (s : Store) (r : GraphRun) : Except StoreError (Unit × Store) := do
  jsonLenChecked rt "graph run" r.toJson
  guardOk (s.graphs.any (fun g => g.spec.graphRef = r.graphRef))
    (.missingReference ("graph " ++ r.graphRef.graphId.text ++ "@" ++ r.graphRef.revision.display))
  guardOk (!s.hasRun r.runId) (.duplicate ("run " ++ r.runId.text))
  let s ← appendEvent rt { s with runs := s.runs ++ [r] } r.runId none kinds.runCreated
    (runCreatedPayload r)
  .ok ((), s)

def revokeReceipt (s : Store) (run : RunId) (receiptId reason : String) :
    Except StoreError (Unit × Store) := do
  guardOk (s.receipts.any (fun r => r.attempt.runId = run ∧ r.id.text = receiptId))
    (.missingReference ("receipt " ++ receiptId))
  let s ← s.appendEvent rt run none kinds.receiptRevoked
    (.obj [("receipt_id", .str receiptId), ("reason", .str reason)])
  .ok ((), s)

/-- The payload of `decision_admitted`. -/
def decisionPayload (packet : Ident) (decision : DecisionKind) : Json :=
  .obj [("packet_id", packet.toJson), ("decision", decision.toJson)]

def admitDecision (s : Store) (run : RunId) (d : GateDecision) :
    Except StoreError (Unit × Store) := do
  let s ← s.insertGateDecision rt run d
  let s ← s.appendEvent rt run (some d.scope.node.nodeId) kinds.decisionAdmitted
    (decisionPayload d.gatePacketId d.decision)
  .ok ((), s)

/-! ### What each write does -/

theorem jsonLenChecked_eq_ok {what : String} {value : Json} {u : Unit} :
    jsonLenChecked rt what value = .ok u ↔ (rt.text value).utf8ByteSize ≤ maxRecordLen := by
  simp only [jsonLenChecked]
  by_cases h : (rt.text value).utf8ByteSize > maxRecordLen
  · rw [if_pos h]
    exact iff_of_false (by simp) (by omega)
  · rw [if_neg h]
    exact iff_of_true rfl (by omega)

theorem appendEvent_eq_ok {s s' : Store} {run : RunId} {node : Option NodeId} {kind : String}
    {payload : Json} : s.appendEvent rt run node kind payload = .ok s' ↔
      (rt.text payload).utf8ByteSize ≤ maxRecordLen ∧ s.eventAllowed run kind payload = true ∧
      s' = { s with events := s.events ++ [s.nextEvent run node kind payload] } := by
  unfold appendEvent
  simp only [bind_eq_ok, jsonLenChecked_eq_ok, guardOk_eq_ok, exists_const, Except.ok.injEq]
  exact and_congr_right (fun _ => and_congr_right (fun _ => eq_comm))

theorem appendEvent_ok {s s' : Store} {run : RunId} {node : Option NodeId} {kind : String}
    {payload : Json} (h : s.appendEvent rt run node kind payload = .ok s') :
    s.eventAllowed run kind payload = true ∧
      s' = { s with events := s.events ++ [s.nextEvent run node kind payload] } := by
  obtain ⟨-, hallowed, rfl⟩ := (appendEvent_eq_ok rt).mp h
  exact ⟨hallowed, rfl⟩

theorem insertAttempt_ok {s s' : Store} {a : Attempt} (h : s.insertAttempt rt a = .ok s') :
    s.attemptKeyTaken a = false ∧ s' = { s with attempts := s.attempts ++ [a] } := by
  unfold insertAttempt at h
  obtain ⟨_, -, h⟩ := bind_ok h
  split at h
  · obtain ⟨_, hg, h⟩ := bind_ok h
    cases h
    exact ⟨by simpa using guardOk_ok hg, rfl⟩
  · cases h

theorem sealAttempt_ok {s s' : Store} {a : Attempt} (h : s.sealAttempt rt a = .ok s') :
    s.attemptKeyTaken a = false ∧
      s' = { s with
        attempts := s.attempts ++ [a]
        events := s.events ++ [s.nextEvent a.runId (some a.node.nodeId) kinds.attemptSealed
          (sealedPayload a)] } := by
  unfold sealAttempt at h
  obtain ⟨s₁, h₁, h⟩ := bind_ok h
  obtain ⟨hfresh, rfl⟩ := insertAttempt_ok rt h₁
  obtain ⟨-, rfl⟩ := appendEvent_ok rt h
  exact ⟨hfresh, rfl⟩

theorem insertReceipt_ok {s s' : Store} {r : VerifierReceipt}
    (h : s.insertReceipt rt r = .ok s') :
    (∀ q ∈ s.receipts, q.attempt.runId = r.attempt.runId → q.id ≠ r.id) ∧
      s' = { s with receipts := s.receipts ++ [r] } := by
  unfold insertReceipt at h
  obtain ⟨_, -, h⟩ := bind_ok h
  split at h
  · obtain ⟨_, hg, h⟩ := bind_ok h
    cases h
    have hg' := guardOk_ok hg
    simp only [Bool.not_eq_true', List.any_eq_false, decide_eq_true_eq, not_and] at hg'
    exact ⟨hg', rfl⟩
  · cases h

theorem insertGatePacket_ok {s s' : Store} {p : GatePacket}
    (h : s.insertGatePacket rt p = .ok s') : s' =
    { s with gatePackets := s.gatePackets ++ [p] } := by
  unfold insertGatePacket at h
  obtain ⟨_, -, h⟩ := bind_ok h
  obtain ⟨_, -, h⟩ := bind_ok h
  cases h
  rfl

theorem insertGateDecision_ok {s s' : Store} {run : RunId} {d : GateDecision}
    (h : s.insertGateDecision rt run d = .ok s') :
    s' = { s with gateDecisions := s.gateDecisions ++ [(run, d)] } := by
  unfold insertGateDecision at h
  obtain ⟨_, -, h⟩ := bind_ok h
  split at h
  · obtain ⟨_, -, h⟩ := bind_ok h
    cases h
    rfl
  · cases h

theorem insertClaim_ok {s s' : Store} {c : ClaimRow} (h : s.insertClaim c = .ok s') :
    s.hasRun c.runId = true ∧ (∀ d ∈ s.claims, d.runId = c.runId → d.fence ≠ c.fence) ∧
      (∀ d ∈ s.claims, d.runId = c.runId → d.nodeId = c.nodeId → d.number ≠ c.number) ∧
      s' = { s with claims := s.claims ++ [c] } := by
  unfold insertClaim at h
  obtain ⟨_, hg, h⟩ := bind_ok h
  cases h
  have hg' := guardOk_ok hg
  simp only [Bool.and_eq_true, Bool.not_eq_true', List.any_eq_false, decide_eq_true_eq,
    not_and, not_or] at hg'
  obtain ⟨hrun, hfree⟩ := hg'
  exact ⟨hrun, fun d hd hr => (hfree d hd hr).2, fun d hd hr => (hfree d hd hr).1, rfl⟩

end Store

end Checkspan
