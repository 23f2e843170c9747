import Checkspan.Contracts.Graph
import Checkspan.Contracts.Gate

/-!
# The state reducer (`src/state/mod.rs`)

A node's state is a fold over its ordered events; a run's state is that fold for
every node of its graph over the stored log. Stored events carry JSON payloads,
and the replay decodes them again.
-/

namespace Checkspan

/-! ### Event kinds (`state/mod.rs:22-41`) -/

namespace kinds

def runCreated : String := "run_created"
def attemptDispatched : String := "attempt_dispatched"
def attemptSealed : String := "attempt_sealed"
def receiptAdmitted : String := "receipt_admitted"
def gateOpened : String := "gate_opened"
def decisionAdmitted : String := "decision_admitted"
def retryAllowed : String := "retry_allowed"
def nodeCancelled : String := "node_cancelled"
/-- Written by `Store::revoke_receipt`; run-level, unknown to the reducer. -/
def receiptRevoked : String := "receipt_revoked"

end kinds

/-- A typed event about one node within one run (`state/mod.rs:43-86`). -/
inductive NodeEvent where
  | dispatched (attempt : AttemptNumber)
  | executionFinished (attempt : AttemptNumber) (outcome : ExecutionOutcome)
      (resultDigest : Option Digest)
  | receiptAdmitted (attempt : AttemptNumber) (receipt : ReceiptRef) (verdict : Verdict)
  | gateOpened (packet : Ident)
  | decisionAdmitted (packet : Ident) (decision : DecisionKind)
  | retryAllowed
  | cancelled
deriving DecidableEq

/-- One row of the event log (`src/store/mod.rs:305-320`). -/
structure StoredEvent where
  seq : Nat
  runId : RunId
  nodeId : Option NodeId
  kind : String
  payload : Json

/-! ### Results of several steps -/

theorem bind_ok {ε α β : Type} {x : Except ε α} {f : α → Except ε β} {b : β}
    (h : x >>= f = .ok b) : ∃ a, x = .ok a ∧ f a = .ok b := by
  cases x with
  | error e => cases h
  | ok a => exact ⟨a, rfl, h⟩

theorem map_ok {ε α β : Type} {x : Except ε α} {f : α → β} {b : β} (h : x.map f = .ok b) :
    ∃ a, x = .ok a ∧ f a = b := by
  cases x with
  | error e => cases h
  | ok a =>
    cases h
    exact ⟨a, rfl, rfl⟩

/-! ### Decoding stored values -/

/-- Why `serde_json::from_value` refused a field. -/
inductive DecodeError where
  | wrongType (field : String)
  | invalid (error : InvalidValue)
  | unknownVariant (found : String)
deriving DecidableEq

/-- `from_value::<AttemptNumber>`: a `u32` that is not zero. -/
def decodeAttemptNumber : Json → Except DecodeError AttemptNumber
  | .num n =>
    if h : 0 ≤ n ∧ n.toNat < 2 ^ 32 then
      (PositiveU32.new "attempt number" n.toNat h.2).mapError .invalid
    else .error (.wrongType "u32")
  | _ => .error (.wrongType "u32")

def decodeIdent : Json → Except DecodeError Ident
  | .str s => (Identifier.new .identifier s).mapError .invalid
  | _ => .error (.wrongType "string")

def decodeDigest : Json → Except DecodeError Digest
  | .str s => (Digest.new s).mapError .invalid
  | _ => .error (.wrongType "string")

/-- The one name of an object's entries. -/
def soleName : List (String × Json) → Option String
  | [] => none
  | (s, _) :: rest => if rest.all (fun f => f.1 = s) then some s else none

def decodeVariant {α : Type} (all : List α) (asStr : α → String) (s : String) :
    Except DecodeError α :=
  match all.find? (fun a => asStr a = s) with
  | some a => .ok a
  | none => .error (.unknownVariant s)

/-- A variant without data: its text, or an object of that one name with `null` under it. -/
def decodeEnum {α : Type} (all : List α) (asStr : α → String) : Json → Except DecodeError α
  | .str s => decodeVariant all asStr s
  | .obj fields =>
    match soleName fields with
    | none => .error (.wrongType "map with a single key")
    | some s =>
      match decodeVariant all asStr s, fields.lookup s with
      | .ok a, some .null => .ok a
      | .ok _, _ => .error (.wrongType "unit variant")
      | .error e, _ => .error e
  | _ => .error (.wrongType "string or map")

def decodeOutcome : Json → Except DecodeError ExecutionOutcome :=
  decodeEnum [.completed, .failed, .timedOut, .cancelled] ExecutionOutcome.asStr

def decodeVerdict : Json → Except DecodeError Verdict :=
  decodeEnum [.accept, .reject, .undecidable] Verdict.asStr

def decodeDecision : Json → Except DecodeError DecisionKind :=
  decodeEnum [.retry, .revise, .cancel, .approveAction, .denyAction, .recordAssessment]
    DecisionKind.asStr

@[simp] theorem decodeAttemptNumber_toJson (n : AttemptNumber) :
    decodeAttemptNumber n.toJson = .ok n := by
  simp only [PositiveU32.toJson, decodeAttemptNumber]
  have hb : 0 ≤ (n.get : Int) ∧ (n.get : Int).toNat < 2 ^ 32 := by
    have := n.bound
    omega
  rw [dif_pos hb]
  have hp : 0 < (n.get : Int).toNat := by
    have := n.pos
    omega
  rw [PositiveU32.new, dif_pos hp]
  rfl

@[simp] theorem decodeIdent_toJson (i : Ident) : decodeIdent i.toJson = .ok i := by
  simp only [Identifier.toJson, decodeIdent, Identifier.new_text]
  rfl

@[simp] theorem decodeDigest_toJson (d : Digest) : decodeDigest d.toJson = .ok d := by
  simp only [Digest.toJson, decodeDigest, Digest.new_text]
  rfl

@[simp] theorem decodeOutcome_toJson (o : ExecutionOutcome) : decodeOutcome o.toJson = .ok o := by
  cases o <;> rfl

@[simp] theorem decodeVerdict_toJson (v : Verdict) : decodeVerdict v.toJson = .ok v := by
  cases v <;> rfl

@[simp] theorem decodeDecision_toJson (d : DecisionKind) : decodeDecision d.toJson = .ok d := by
  cases d <;> rfl

/-! ### Transition errors (`state/mod.rs:214-308`) -/

/-- What was wrong with a stored payload. -/
inductive MalformedReason where
  | missing (field : String)
  | decode (field : String) (error : DecodeError)
deriving DecidableEq

/-- Why an event is not legal in the current state. -/
inductive TransitionError where
  | illegal (source : NodeStatus) (event reason : String)
  | staleAttempt (eventAttempt : AttemptNumber) (current : Option AttemptNumber)
  | wrongAttemptNumber (dispatched : AttemptNumber) (expected : Nat)
  | wrongPacket (decided : Ident) (waitingOn : Option Ident)
  | unknownEvent (seq : Nat) (kind : String)
  | malformedEvent (seq : Nat) (kind : String) (reason : MalformedReason)
  | unknownNode (id : NodeId)
deriving DecidableEq

/-- The message of a decoder error. -/
def DecodeError.display : DecodeError → String
  | wrongType expected => "invalid type: expected " ++ expected
  | invalid e => e.display
  | unknownVariant found => "unknown variant " ++ found.quote

def MalformedReason.display : MalformedReason → String
  | missing field => "missing " ++ field
  | decode _ e => e.display

def TransitionError.display : TransitionError → String
  | illegal source event reason => event ++ " is not legal from " ++ source.asStr ++ ": " ++ reason
  | staleAttempt n current => "event is about attempt " ++ n.display ++
      " but the current attempt is " ++ (current.map (·.display)).getD "none"
  | wrongAttemptNumber n expected => "dispatched attempt " ++ n.display ++
      " but the next attempt is " ++ toString expected
  | wrongPacket decided waitingOn => "decision is for packet " ++ decided.text ++
      " but the node waits on " ++ (waitingOn.map (·.text)).getD "no packet"
  | unknownEvent seq kind => "event " ++ toString seq ++ " has unknown kind " ++ kind.quote
  | malformedEvent seq kind reason => "event " ++ toString seq ++ " (" ++ kind ++
      ") is malformed: " ++ reason.display
  | unknownNode id => "node " ++ id.text ++ " is not in the graph"

namespace NodeEvent

/-- `kind` (`state/mod.rs:90-100`). -/
def kind : NodeEvent → String
  | dispatched _ => kinds.attemptDispatched
  | executionFinished _ _ _ => kinds.attemptSealed
  | receiptAdmitted _ _ _ => kinds.receiptAdmitted
  | gateOpened _ => kinds.gateOpened
  | decisionAdmitted _ _ => kinds.decisionAdmitted
  | retryAllowed => kinds.retryAllowed
  | cancelled => kinds.nodeCancelled

/-- `payload` (`state/mod.rs:103-134`). -/
def payload : NodeEvent → Json
  | dispatched attempt => .obj [("number", attempt.toJson)]
  | executionFinished attempt outcome digest => .obj [("number", attempt.toJson),
      ("outcome", outcome.toJson), ("result_digest", Json.ofOption (digest.map (·.toJson)))]
  | receiptAdmitted attempt receipt verdict => .obj [("number", attempt.toJson),
      ("receipt_id", receipt.id.toJson), ("verdict", verdict.toJson)]
  | gateOpened packet => .obj [("packet_id", packet.toJson)]
  | decisionAdmitted packet decision => .obj [("packet_id", packet.toJson),
      ("decision", decision.toJson)]
  | retryAllowed => .obj []
  | cancelled => .obj []

/-- A required field of a stored payload, decoded. -/
def field {α : Type} (e : StoredEvent) (name : String) (decode : Json → Except DecodeError α) :
    Except TransitionError α :=
  match e.payload.getNonNull name with
  | none => .error (.malformedEvent e.seq e.kind (.missing name))
  | some v => (decode v).mapError (fun d => .malformedEvent e.seq e.kind (.decode name d))

/-- An optional field of a stored payload, decoded when present and not null. -/
def optionalField {α : Type} (e : StoredEvent) (name : String)
    (decode : Json → Except DecodeError α) : Except TransitionError (Option α) :=
  match e.payload.getNonNull name with
  | none => .ok none
  | some v =>
    ((decode v).mapError (fun d => .malformedEvent e.seq e.kind (.decode name d))).map some

/-- `from_stored` (`state/mod.rs:136-212`). -/
def fromStored (e : StoredEvent) (node : NodeRef) : Except TransitionError NodeEvent :=
  if e.kind = kinds.attemptDispatched then
    (field e "number" decodeAttemptNumber).map .dispatched
  else if e.kind = kinds.attemptSealed then do
    let attempt ← field e "number" decodeAttemptNumber
    let outcome ← field e "outcome" decodeOutcome
    let digest ← optionalField e "result_digest" decodeDigest
    .ok (.executionFinished attempt outcome digest)
  else if e.kind = kinds.receiptAdmitted then do
    let attempt ← field e "number" decodeAttemptNumber
    let id ← field e "receipt_id" decodeIdent
    let verdict ← field e "verdict" decodeVerdict
    .ok (.receiptAdmitted attempt ⟨id, e.runId, node⟩ verdict)
  else if e.kind = kinds.gateOpened then
    (field e "packet_id" decodeIdent).map .gateOpened
  else if e.kind = kinds.decisionAdmitted then do
    let packet ← field e "packet_id" decodeIdent
    let decision ← field e "decision" decodeDecision
    .ok (.decisionAdmitted packet decision)
  else if e.kind = kinds.retryAllowed then .ok .retryAllowed
  else if e.kind = kinds.nodeCancelled then .ok .cancelled
  else .error (.unknownEvent e.seq e.kind)

end NodeEvent

/-! ### The node reducer -/

/-- The reducer's state for one node (`state/mod.rs:312-328`). -/
structure NodeState where
  status : NodeStatus
  currentAttempt : Option AttemptNumber
  attemptsStarted : Nat
  checking : Bool
  receipt : Option ReceiptRef
  waitingOnGate : Option Ident
deriving DecidableEq

namespace NodeState

/-- The initial state: open, no attempts. -/
def initial : NodeState :=
  { status := .open, currentAttempt := none, attemptsStarted := 0, checking := false
    receipt := none, waitingOnGate := none }

/-- Whether no further event can ever apply. -/
def isTerminal (s : NodeState) : Bool := s.status = .accepted || s.status = .cancelled

def illegal {α : Type} (s : NodeState) (e : NodeEvent) (reason : String) :
    Except TransitionError α :=
  .error (.illegal s.status e.kind reason)

/-- `require_current` (`state/mod.rs:351-367`). -/
def requireCurrent (s : NodeState) (e : NodeEvent) (attempt : AttemptNumber) :
    Except TransitionError Unit :=
  if s.currentAttempt = some attempt then .ok ()
  else if s.isTerminal then s.illegal e "the node is terminal"
  else .error (.staleAttempt attempt s.currentAttempt)

/-- The state after execution of the current attempt ended. -/
def finish (s : NodeState) : ExecutionOutcome → NodeState
  | .completed => { s with checking := true }
  | .failed => { s with status := .failed }
  | .timedOut => { s with status := .failed }
  | .cancelled => { s with status := .cancelled }

/-- The state after a verdict about the current attempt. -/
def decide (s : NodeState) (receipt : ReceiptRef) : Verdict → NodeState
  | .accept => { s with checking := false, status := .accepted, receipt := some receipt }
  | .reject => { s with checking := false, status := .rejected, receipt := some receipt }
  | .undecidable =>
    { s with checking := false, status := .gated, receipt := none, waitingOnGate := none }

/-- The state after a decision on the packet the node waits on. -/
def route (s : NodeState) : DecisionKind → NodeState
  | .cancel => { s with waitingOnGate := none, receipt := none, status := .cancelled }
  | .revise => { s with waitingOnGate := none, receipt := none, status := .cancelled }
  | _ => { s with waitingOnGate := none, receipt := none, status := .open, currentAttempt := none }

/-- Events of an open node. -/
def applyOpen (s : NodeState) (e : NodeEvent) : Except TransitionError NodeState :=
  match e with
  | .dispatched attempt =>
    if attempt.get ≠ s.attemptsStarted + 1 then
      .error (.wrongAttemptNumber attempt (s.attemptsStarted + 1))
    else .ok { status := .running, currentAttempt := some attempt
               attemptsStarted := s.attemptsStarted + 1, checking := false
               receipt := none, waitingOnGate := none }
  | .cancelled => .ok { s with status := .cancelled, waitingOnGate := none }
  | _ => s.illegal e "an open node can only be dispatched or cancelled"

/-- Events of a running node. -/
def applyRunning (s : NodeState) (e : NodeEvent) : Except TransitionError NodeState :=
  match e with
  | .executionFinished attempt outcome _ =>
    match s.requireCurrent e attempt with
    | .error err => .error err
    | .ok () =>
      if s.checking then s.illegal e "execution of this attempt already finished"
      else .ok (s.finish outcome)
  | .receiptAdmitted attempt receipt verdict =>
    match s.requireCurrent e attempt with
    | .error err => .error err
    | .ok () =>
      if s.checking then .ok (s.decide receipt verdict)
      else s.illegal e "no verdict before execution finishes"
  | .cancelled => .ok { s with status := .cancelled, checking := false }
  | _ => s.illegal e "a running node can only finish, be checked, or be cancelled"

/-- Events of a rejected or failed node. -/
def applyStopped (s : NodeState) (e : NodeEvent) : Except TransitionError NodeState :=
  match e with
  | .retryAllowed => .ok { s with status := .open, currentAttempt := none, receipt := none }
  | .gateOpened packet =>
    .ok { s with status := .gated, receipt := none, waitingOnGate := some packet }
  | .cancelled => .ok { s with status := .cancelled }
  | .dispatched _ => s.illegal e "another attempt needs a retry_allowed event under policy"
  | _ => s.illegal e "not legal after a verdict or failure"

/-- Events of a gated node. -/
def applyGated (s : NodeState) (e : NodeEvent) : Except TransitionError NodeState :=
  match e with
  | .gateOpened packet =>
    if s.waitingOnGate.isSome then s.illegal e "a packet is already open for this node"
    else .ok { s with waitingOnGate := some packet }
  | .decisionAdmitted packet decision =>
    if s.waitingOnGate ≠ some packet then .error (.wrongPacket packet s.waitingOnGate)
    else .ok (s.route decision)
  | .cancelled => .ok { s with status := .cancelled, waitingOnGate := none }
  | _ => s.illegal e "a gated node waits for its decision"

/-- `apply` (`state/mod.rs:368-514`). -/
def apply (s : NodeState) (e : NodeEvent) : Except TransitionError NodeState :=
  match s.status with
  | .accepted => s.illegal e "accepted is terminal"
  | .cancelled => s.illegal e "cancelled is terminal"
  | .open => s.applyOpen e
  | .running => s.applyRunning e
  | .rejected => s.applyStopped e
  | .failed => s.applyStopped e
  | .gated => s.applyGated e

end NodeState

/-! ### The run reducer -/

/-- Reducer state for every node of one run (`state/mod.rs:541-549`). The node
references and the state map are functions of the node id. -/
structure RunState where
  runId : RunId
  nodes : NodeId → Option NodeRef
  states : NodeId → Option NodeState

namespace RunState

/-- `new`: every node open, no attempts (`state/mod.rs:552-573`). -/
def new (runId : RunId) (spec : GraphSpec) : RunState :=
  { runId := runId
    nodes := spec.nodeRef
    states := fun id => (spec.findNode id).map (fun _ => NodeState.initial) }

/-- `node` (`state/mod.rs:610-613`). -/
def node (st : RunState) (id : NodeId) : Option NodeState := st.states id

/-- The map with one entry overwritten. -/
def insert (st : RunState) (id : NodeId) (next : NodeState) : RunState :=
  { st with states := fun other => if other = id then some next else st.states other }

/-- `apply` (`state/mod.rs:575-584`). -/
def apply (st : RunState) (id : NodeId) (e : NodeEvent) : Except TransitionError RunState :=
  match st.states id with
  | none => .error (.unknownNode id)
  | some s => (s.apply e).map (st.insert id)

/-- One iteration of the replay loop: run-level events are skipped. -/
def applyStored (st : RunState) (stored : StoredEvent) : Except TransitionError RunState :=
  match stored.nodeId with
  | none => .ok st
  | some id =>
    match st.nodes id with
    | none => .error (.unknownNode id)
    | some node =>
      match NodeEvent.fromStored stored node with
      | .error e => .error e
      | .ok e => st.apply id e

def replayFrom (st : RunState) : List StoredEvent → Except TransitionError RunState
  | [] => .ok st
  | e :: rest =>
    match st.applyStored e with
    | .error err => .error err
    | .ok st' => replayFrom st' rest

/-- `replay` (`state/mod.rs:586-608`). -/
def replay (runId : RunId) (spec : GraphSpec) (events : List StoredEvent) :
    Except TransitionError RunState :=
  replayFrom (new runId spec) events

end RunState

end Checkspan
