import Checkspan.Receipts

/-!
# Gate packets (`src/gates/mod.rs`)

`open_resolve_work`: a packet for rejected, failed or undecidable work, written
with its `gate_opened` event in one transaction.
-/

namespace Checkspan

/-- Why a packet could not be built (`gates/mod.rs:28-44`). The causes of
`Internal` keep their values. -/
inductive GateBuildError where
  | notGateable (status : NodeStatus) (error : TransitionError)
  | noSealedAttempt
  | expiryNotAfterCreation
  | store (error : StoreError)
  | unknownNode (node : NodeId)
  | replay (error : TransitionError)
  | bindings (errors : List GateError)
deriving DecidableEq

namespace Gates

def operatorPolicy : PolicyRef := ⟨⟨"operator_decides", by decide +kernel⟩, .first⟩

def resolveOptions : List DecisionKind := [.retry, .revise, .cancel]

/-- The receipt the node's newest `receipt_admitted` event names. -/
def lastReceiptId (events : List StoredEvent) (id : NodeId) : Option String :=
  match events.reverse.find? (fun e => e.kind = kinds.receiptAdmitted ∧ e.nodeId = some id) with
  | some e =>
    match e.payload.get "receipt_id" with
    | some (.str text) => some text
    | _ => none
  | none => none

variable (rt : Runtime)

/-- What the packet's subject digest covers (`gates/mod.rs:73-86`). -/
def subjectJson (run : RunId) (node : NodeRef) (obligation : String)
    (contextRefs : List ContextRef) (createdAt expiresAt : Timestamp) : Json :=
  .obj [("run_id", run.toJson), ("node", node.toJson),
    ("purpose", GatePurpose.resolveWork.toJson), ("obligation", .str obligation),
    ("context_refs", .arr (contextRefs.map (·.toJson))),
    ("options", .arr (resolveOptions.map (·.toJson))),
    ("authority_policy_ref", operatorPolicy.toJson), ("created_at", createdAt.toJson),
    ("expires_at", expiresAt.toJson)]

/-- A digest failure inside the transaction is reported as a corrupt record. -/
def corruptDigest {α : Type} (x : Except CanonicalError α) : Except GateBuildError α :=
  x.mapError (fun e => .store (.corrupt e.display))

/-- The deciding receipt, when one was admitted and is stored. -/
def receiptContext (s : Store) (run : RunId) (id : NodeId) :
    Except GateBuildError (List ContextRef) :=
  match lastReceiptId (s.eventsOf run) id with
  | none => .ok []
  | some receiptId => do
    let stored ← (s.receipt run receiptId).mapError .store
    match stored with
    | none => .ok []
    | some receipt => do
      let digest ← corruptDigest (digestOfRecord rt receipt.toJson)
      .ok [{ kind := .receipt, id := receiptId, digest := digest }]

/-- Sealed context: the attempt, its deciding receipt, its result artifact. -/
def contextRefs (s : Store) (run : RunId) (id : NodeId) (attempt : Attempt) :
    Except GateBuildError (List ContextRef) := do
  let digest ← corruptDigest (digestOfRecord rt attempt.toJson)
  let receipts ← receiptContext rt s run id
  .ok ({ kind := .attempt, id := attempt.attemptRef.display, digest := digest } :: receipts ++
    (match attempt.result with
      | some result => [{ kind := .artifact, id := result.artifactRef, digest := result.digest }]
      | none => []))

/-- The packet id `gate-<node>-<number>`. -/
def packetId (id : NodeId) (number : AttemptNumber) : Except GateBuildError Ident :=
  (Identifier.new .identifier ("gate-" ++ id.text ++ "-" ++ number.display)).mapError
    (fun e => .store (.corrupt e.display))

def buildPacket (s : Store) (run : RunId) (node : NodeSpec) (nodeRef : NodeRef)
    (attempt : Attempt) (number : AttemptNumber) (now expiresAt : Timestamp) :
    Except GateBuildError GatePacket := do
  let refs ← contextRefs rt s run node.id attempt
  let id ← packetId node.id number
  let digest ← corruptDigest (digestOf rt "checkspan.gate_subject@1"
    (subjectJson run nodeRef node.acceptance.claim refs now expiresAt))
  .ok { record := .gatePacket
        schemaVersion := 1
        id := id
        runId := run
        node := nodeRef
        purpose := .resolveWork
        contextRefs := refs
        subjectDigest := digest
        requestedDecision := { options := resolveOptions, action := none }
        authorityPolicyRef := operatorPolicy
        createdAt := now
        expiresAt := expiresAt }

/-- The payload of `gate_opened`. -/
def openedPayload (packet : GatePacket) : Json :=
  .obj [("packet_id", packet.id.toJson), ("purpose", packet.purpose.toJson)]

/-- `open_resolve_work` (`gates/mod.rs:88-237`). -/
def openResolveWork (s : Store) (spec : GraphSpec) (run : GraphRun) (id : NodeId)
    (now expiresAt : Timestamp) : Except GateBuildError (GatePacket × Store) := do
  guardOk (now.isBefore expiresAt) .expiryNotAfterCreation
  let node ← someOr (spec.findNode id) (.unknownNode id)
  let st ← (RunState.replay run.runId spec (s.eventsOf run.runId)).mapError .replay
  let state ← someOr (st.node id) (.unknownNode id)
  let number ← someOr state.currentAttempt .noSealedAttempt
  let sealedRow ← (s.attempt run.runId id number.get).mapError .store
  let attempt ← someOr sealedRow .noSealedAttempt
  let packet ← buildPacket rt s run.runId node (spec.refOf node) attempt number now expiresAt
  guardOk packet.checkBindings.isEmpty (.bindings packet.checkBindings)
  let _ ← (state.apply (.gateOpened packet.id)).mapError (.notGateable state.status)
  let s₁ ← (s.insertGatePacket rt packet).mapError .store
  let s₂ ← (s₁.appendEvent rt run.runId (some id) kinds.gateOpened
    (openedPayload packet)).mapError .store
  .ok (packet, s₂)

/-- Everything a successful packet checked and wrote. -/
structure Opened (s : Store) (spec : GraphSpec) (run : GraphRun) (id : NodeId)
    (packet : GatePacket) (s' : Store) (st : RunState) (state next : NodeState) : Prop where
  replayed : RunState.replay run.runId spec (s.eventsOf run.runId) = .ok st
  state_eq : st.node id = some state
  legal : state.apply (.gateOpened packet.id) = .ok next
  store_eq : s' = { s with
    gatePackets := s.gatePackets ++ [packet]
    events := s.events ++ [s.nextEvent run.runId (some id) kinds.gateOpened
      (openedPayload packet)] }

theorem openResolveWork_ok {s s' : Store} {spec : GraphSpec} {run : GraphRun} {id : NodeId}
    {now expiresAt : Timestamp} {packet : GatePacket}
    (h : openResolveWork rt s spec run id now expiresAt = .ok (packet, s')) :
    ∃ st state next, Opened s spec run id packet s' st state next := by
  unfold openResolveWork at h
  obtain ⟨_, -, h⟩ := bind_ok h
  obtain ⟨node, -, h⟩ := bind_ok h
  obtain ⟨st, hst, h⟩ := bind_ok h
  obtain ⟨state, hstate, h⟩ := bind_ok h
  obtain ⟨number, -, h⟩ := bind_ok h
  obtain ⟨sealedRow, -, h⟩ := bind_ok h
  obtain ⟨attempt, -, h⟩ := bind_ok h
  obtain ⟨packet', -, h⟩ := bind_ok h
  obtain ⟨_, -, h⟩ := bind_ok h
  obtain ⟨next, hap, h⟩ := bind_ok h
  obtain ⟨s₁, hs₁, h⟩ := bind_ok h
  obtain ⟨s₂, hs₂, h⟩ := bind_ok h
  cases h
  obtain rfl := Store.insertGatePacket_ok rt (mapError_ok hs₁)
  obtain ⟨-, rfl⟩ := Store.appendEvent_ok rt (mapError_ok hs₂)
  refine ⟨st, state, next, ?_⟩
  exact { replayed := mapError_ok hst
          state_eq := someOr_ok hstate
          legal := mapError_ok hap
          store_eq := rfl }

end Gates

end Checkspan
