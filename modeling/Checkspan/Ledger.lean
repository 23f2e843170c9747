import Checkspan.Lib.Transition
import Checkspan.Scheduler
import Checkspan.Gates

/-!
# The ledger as a transition system

The operations of the six modules that write the store, each one transaction,
executed in any order by any number of controllers on any runs. `Legal` is what
a caller must respect: a run is used with its stored record and its stored,
admitted graph, and a decision event is appended only for the packet its node
waits on.
-/

namespace Checkspan

open Transition

/-! ### Operations -/

inductive LedgerOp where
  | storeGraph (spec : GraphSpec)
  | createRun (run : GraphRun)
  | claimNext (sched : Scheduler) (now : Timestamp) (claimedAt : String)
  | complete (sched : Scheduler) (claim : Claim) (attempt : Attempt)
  | cancel (sched : Scheduler) (id : NodeId)
  | reclaim (sched : Scheduler) (id : NodeId) (now : Timestamp)
  | admitReceipt (spec : GraphSpec) (run : GraphRun) (receipt : VerifierReceipt) (now : Timestamp)
  | applyRetryPolicy (spec : GraphSpec) (run : GraphRun) (id : NodeId) (narrowing : Narrowing)
      (now : Timestamp)
  | openResolveWork (spec : GraphSpec) (run : GraphRun) (id : NodeId) (now expiresAt : Timestamp)
  | revokeReceipt (run : RunId) (receiptId reason : String)
  | admitDecision (run : RunId) (decision : GateDecision)
  | appendDecision (run : RunId) (id : NodeId) (packet : Ident) (decision : DecisionKind)
      (payload : Json)

namespace LedgerOp

/-- What an operation returns. -/
def Result : LedgerOp → Type
  | storeGraph _ => Except StoreError Bool
  | createRun _ => Except StoreError Unit
  | claimNext _ _ _ => Except SchedulerError ClaimOutcome
  | complete _ _ _ => Except SchedulerError Unit
  | cancel _ _ => Except SchedulerError Unit
  | reclaim _ _ _ => Except SchedulerError AttemptNumber
  | admitReceipt _ _ _ _ => Except AdmitError Unit
  | applyRetryPolicy _ _ _ _ _ => Except BudgetError Disposition
  | openResolveWork _ _ _ _ _ => Except GateBuildError GatePacket
  | revokeReceipt _ _ _ => Except StoreError Unit
  | admitDecision _ _ => Except StoreError Unit
  | appendDecision _ _ _ _ _ => Except StoreError Unit

variable (rt : Runtime)

/-- One operation as one transaction. -/
def exec (s : Store) : (op : LedgerOp) → op.Result × Store
  | storeGraph spec => s.transaction (s.storeGraph rt spec)
  | createRun run => s.transaction (s.createRun rt run)
  | claimNext sched now claimedAt => s.transaction (sched.claimNext rt s now claimedAt)
  | complete sched claim attempt => s.transaction (sched.complete rt s claim attempt)
  | cancel sched id => s.transaction (sched.cancel rt s id)
  | reclaim sched id now => s.transaction (sched.reclaim rt s id now)
  | admitReceipt spec run receipt now =>
    s.transaction (Receipts.admitReceipt rt s spec run receipt now)
  | applyRetryPolicy spec run id narrowing now =>
    s.transaction (Budget.applyRetryPolicy rt s spec run id narrowing now)
  | openResolveWork spec run id now expiresAt =>
    s.transaction (Gates.openResolveWork rt s spec run id now expiresAt)
  | revokeReceipt run receiptId reason => s.transaction (s.revokeReceipt rt run receiptId reason)
  | admitDecision run decision => s.transaction (s.admitDecision rt run decision)
  | appendDecision run id _ _ payload => s.transaction
      ((s.appendEvent rt run (some id) kinds.decisionAdmitted payload).map (fun s' => ((), s')))

/-- Whether an operation succeeded. -/
def succeeded : (op : LedgerOp) → op.Result → Bool
  | storeGraph _, r => Except.isOk (r : Except StoreError Bool)
  | createRun _, r => Except.isOk (r : Except StoreError Unit)
  | claimNext _ _ _, r => Except.isOk (r : Except SchedulerError ClaimOutcome)
  | complete _ _ _, r => Except.isOk (r : Except SchedulerError Unit)
  | cancel _ _, r => Except.isOk (r : Except SchedulerError Unit)
  | reclaim _ _ _, r => Except.isOk (r : Except SchedulerError AttemptNumber)
  | admitReceipt _ _ _ _, r => Except.isOk (r : Except AdmitError Unit)
  | applyRetryPolicy _ _ _ _ _, r => Except.isOk (r : Except BudgetError Disposition)
  | openResolveWork _ _ _ _ _, r => Except.isOk (r : Except GateBuildError GatePacket)
  | revokeReceipt _ _ _, r => Except.isOk (r : Except StoreError Unit)
  | admitDecision _ _, r => Except.isOk (r : Except StoreError Unit)
  | appendDecision _ _ _ _ _, r => Except.isOk (r : Except StoreError Unit)

/-- The node event a successful operation validated before it wrote, with the run
and the node it is about; `none` for an operation that records no node event. -/
def checked : (op : LedgerOp) → op.Result → Option (RunId × NodeId × NodeEvent)
  | claimNext _ _ _, .ok (.claimed c) => some (c.runId, c.nodeId, .dispatched c.number)
  | complete _ claim attempt, .ok () =>
    attempt.execution.map (fun e => (claim.runId, claim.nodeId,
      .executionFinished claim.number e.outcome (attempt.result.map (·.digest))))
  | cancel sched id, .ok () => some (sched.run.runId, id, .cancelled)
  | reclaim sched id _, .ok number =>
    some (sched.run.runId, id, .executionFinished number .failed none)
  | admitReceipt _ run receipt _, .ok () => some (run.runId, receipt.attempt.node.nodeId,
      .receiptAdmitted receipt.attempt.number receipt.receiptRef receipt.verdict)
  | applyRetryPolicy _ run id _ _, .ok (.retry _ _ _) => some (run.runId, id, .retryAllowed)
  | applyRetryPolicy _ run id _ _, .ok (.exhausted _ .cancel) => some (run.runId, id, .cancelled)
  | openResolveWork _ run id _ _, .ok packet => some (run.runId, id, .gateOpened packet.id)
  | admitDecision run d, .ok () =>
    some (run, d.scope.node.nodeId, .decisionAdmitted d.gatePacketId d.decision)
  | appendDecision run id packet decision _, .ok () =>
    some (run, id, .decisionAdmitted packet decision)
  | _, _ => none

end LedgerOp

/-! ### Legal use -/

namespace Store

/-- The graph stored at a revision. -/
def specOf (s : Store) (ref : GraphRef) : Option GraphSpec :=
  (s.graphs.find? (fun g => g.spec.graphRef = ref)).map (·.spec)

/-- `run` is a stored run and `spec` its stored graph. -/
def Stored (s : Store) (run : GraphRun) (spec : GraphSpec) : Prop :=
  run ∈ s.runs ∧ s.specOf run.graphRef = some spec

/-- A stored run with its stored graph, and that graph is admitted. -/
def Bound (s : Store) (run : GraphRun) (spec : GraphSpec) : Prop :=
  s.Stored run spec ∧ ∃ g, Graph.admitGraph spec = .ok g

/-- The replay of a run's log against a graph. -/
def replay (s : Store) (run : RunId) (spec : GraphSpec) : Except TransitionError RunState :=
  RunState.replay run spec (s.eventsOf run)

/-- The node waits on the packet in the replayed state of its run. -/
def WaitsOn (s : Store) (run : RunId) (id : NodeId) (packet : Ident) : Prop :=
  ∃ record spec st state, record.runId = run ∧ s.Bound record spec ∧
    s.replay run spec = .ok st ∧ st.node id = some state ∧ state.waitingOnGate = some packet

end Store

def LedgerOp.Legal (s : Store) : LedgerOp → Prop
  | storeGraph _ => True
  | createRun _ => True
  | claimNext sched _ _ => s.Bound sched.run sched.spec
  | complete sched claim _ => ∃ run, run.runId = claim.runId ∧ s.Bound run sched.spec
  | cancel sched _ => s.Bound sched.run sched.spec
  | reclaim sched _ _ => s.Bound sched.run sched.spec
  | admitReceipt spec run _ _ => s.Bound run spec
  | applyRetryPolicy spec run _ _ _ => s.Bound run spec
  | openResolveWork spec run _ _ _ => s.Bound run spec
  | revokeReceipt _ _ _ => True
  | admitDecision run d => s.WaitsOn run d.scope.node.nodeId d.gatePacketId
  | appendDecision run id packet decision payload => s.WaitsOn run id packet ∧
      (NodeEvent.decisionAdmitted packet decision).CarriedBy payload

/-- The ledger from the empty store on, operations restricted by `allowed`. -/
def ledgerSystem (rt : Runtime) (allowed : Store → LedgerOp → Prop) : System Store LedgerOp where
  init s := s = Store.empty
  step s op s' := allowed s op ∧ s' = (op.exec rt s).2

/-- The ledger under legal use. -/
def legalLedger (rt : Runtime) : System Store LedgerOp := ledgerSystem rt (fun s op => op.Legal s)

/-! ### One step of the ledger -/

/-- What a step of the ledger does: the label is the node event it recorded. -/
inductive LedgerStep (rt : Runtime) (s : Store) :
    Option (RunId × NodeId × NodeEvent) → Store → Prop
  | same : LedgerStep rt s none s
  | graph (row : GraphRow) (fresh : s.specOf row.spec.graphRef = none) :
      LedgerStep rt s none { s with graphs := s.graphs ++ [row] }
  | run (r : GraphRun) (fresh : s.hasRun r.runId = false) (known : (s.specOf r.graphRef).isSome) :
      LedgerStep rt s none { s with
        runs := s.runs ++ [r]
        events := s.events ++ [s.nextEvent r.runId none kinds.runCreated
          (Store.runCreatedPayload r)] }
  | revoke (run : RunId) (payload : Json) (known : s.hasRun run = true) :
      LedgerStep rt s none
        { s with events := s.events ++ [s.nextEvent run none kinds.receiptRevoked payload] }
  | claim {sched : Scheduler} {now : Timestamp} {claimedAt : String} {claim : Claim} {s' : Store}
      {node : NodeSpec} {st : RunState} {state next : NodeState} {snapshot : DependencySnapshot}
      (bound : s.Bound sched.run sched.spec)
      (h : sched.Claimed s now claimedAt claim s' node st state next snapshot) :
      LedgerStep rt s (some (sched.run.runId, node.id, .dispatched claim.number)) s'
  | complete {sched : Scheduler} {claim : Claim} {attempt : Attempt} {s' : Store} {row : ClaimRow}
      {execution : Execution} {st : RunState} {state next : NodeState} {run : GraphRun}
      (hrun : run.runId = claim.runId) (bound : s.Bound run sched.spec)
      (h : sched.Completed s claim attempt s' row execution st state next) :
      LedgerStep rt s (some (claim.runId, claim.nodeId, .executionFinished claim.number
        execution.outcome (attempt.result.map (·.digest)))) s'
  | cancel {sched : Scheduler} {id : NodeId} {s' : Store} {st : RunState} {state next : NodeState}
      (bound : s.Bound sched.run sched.spec) (h : sched.Cancelled s id s' st state next) :
      LedgerStep rt s (some (sched.run.runId, id, .cancelled)) s'
  | reclaim {sched : Scheduler} {id : NodeId} {now : Timestamp} {number : AttemptNumber}
      {s' : Store} {node : NodeRef} {row : ClaimRow} {startedAt : Timestamp} {st : RunState}
      {state next : NodeState} (bound : s.Bound sched.run sched.spec)
      (h : sched.Reclaimed s id now number s' node row startedAt st state next) :
      LedgerStep rt s (some (sched.run.runId, id, .executionFinished number .failed none)) s'
  | admitted {spec : GraphSpec} {run : GraphRun} {receipt : VerifierReceipt} {now : Timestamp}
      {s' : Store} {node : NodeSpec} {attempt : Attempt} {result : ResultRef} {st : RunState}
      {state : NodeState} (bound : s.Bound run spec)
      (h : Receipts.Admitted rt s spec run receipt now s' node attempt result st state) :
      LedgerStep rt s (some (run.runId, receipt.attempt.node.nodeId, .receiptAdmitted
        receipt.attempt.number receipt.receiptRef receipt.verdict)) s'
  | retry {spec : GraphSpec} {run : GraphRun} {id : NodeId} {st : RunState} {state next : NodeState}
      (payload : Json) (bound : s.Bound run spec) (replayed : s.replay run.runId spec = .ok st)
      (state_eq : st.node id = some state) (legal : state.apply .retryAllowed = .ok next) :
      LedgerStep rt s (some (run.runId, id, .retryAllowed)) { s with
        events := s.events ++ [s.nextEvent run.runId (some id) kinds.retryAllowed payload] }
  | exhausted {spec : GraphSpec} {run : GraphRun} {id : NodeId} {st : RunState}
      {state next : NodeState} (payload : Json) (bound : s.Bound run spec)
      (replayed : s.replay run.runId spec = .ok st) (state_eq : st.node id = some state)
      (stopped : state.status = .rejected ∨ state.status = .failed)
      (legal : state.apply .cancelled = .ok next) :
      LedgerStep rt s (some (run.runId, id, .cancelled)) { s with
        events := s.events ++ [s.nextEvent run.runId (some id) kinds.nodeCancelled payload] }
  | opened {spec : GraphSpec} {run : GraphRun} {id : NodeId} {packet : GatePacket} {s' : Store}
      {st : RunState} {state next : NodeState} (bound : s.Bound run spec)
      (h : Gates.Opened s spec run id packet s' st state next) :
      LedgerStep rt s (some (run.runId, id, .gateOpened packet.id)) s'
  | decided {run : RunId} {id : NodeId} {packet : Ident} {decision : DecisionKind}
      (payload : Json) (decisions : List (RunId × GateDecision)) (waits : s.WaitsOn run id packet)
      (carried : (NodeEvent.decisionAdmitted packet decision).CarriedBy payload) :
      LedgerStep rt s (some (run, id, .decisionAdmitted packet decision)) { s with
        gateDecisions := s.gateDecisions ++ decisions
        events := s.events ++ [s.nextEvent run (some id) kinds.decisionAdmitted payload] }

theorem Store.specOf_isSome {s : Store} {ref : GraphRef} :
    (s.specOf ref).isSome = s.graphs.any (fun g => g.spec.graphRef = ref) := by
  rw [Bool.eq_iff_iff, Store.specOf, Option.isSome_map, List.find?_isSome, List.any_eq_true]

/-- The status a retry disposition starts from. -/
theorem Budget.disposition_stopped {s : Store} {spec : GraphSpec} {run : GraphRun}
    {state : NodeState} {node : NodeSpec} {now : Timestamp} {d : Disposition}
    (h : Budget.disposition s spec run state node now = .ok d) :
    state.status = .rejected ∨ state.status = .failed := by
  unfold Budget.disposition at h
  obtain ⟨found, hfound, h⟩ := bind_ok h
  obtain ⟨cls, hcls, -⟩ := bind_ok h
  unfold Budget.failureClass at hfound
  split at hfound
  · rename_i hs
    exact Or.inl hs
  · rename_i hs
    exact Or.inr hs
  · cases hfound
    cases hcls

/-! ### Every operation is a step -/

section

variable (rt : Runtime) (s : Store)

theorem storeGraph_step (spec : GraphSpec) :
    LedgerStep rt s none (s.transaction (s.storeGraph rt spec)).2 := by
  cases h : s.storeGraph rt spec with
  | error e => exact LedgerStep.same
  | ok out =>
    unfold Store.storeGraph at h
    obtain ⟨digest, -, h⟩ := bind_ok h
    obtain ⟨_, -, h⟩ := bind_ok h
    split at h
    · split at h
      · cases h
        exact LedgerStep.same
      · cases h
    · rename_i hnone
      cases h
      exact LedgerStep.graph ⟨spec, digest⟩ (by rw [Store.specOf, hnone]; rfl)

theorem createRun_step (run : GraphRun) :
    LedgerStep rt s none (s.transaction (s.createRun rt run)).2 := by
  cases h : s.createRun rt run with
  | error e => exact LedgerStep.same
  | ok out =>
    unfold Store.createRun at h
    obtain ⟨_, -, h⟩ := bind_ok h
    obtain ⟨_, hgraph, h⟩ := bind_ok h
    obtain ⟨_, hfresh, h⟩ := bind_ok h
    obtain ⟨s', hs', h⟩ := bind_ok h
    cases h
    obtain ⟨-, rfl⟩ := Store.appendEvent_ok rt hs'
    have hknown := guardOk_ok hgraph
    rw [← Store.specOf_isSome] at hknown
    exact LedgerStep.run run (by simpa using guardOk_ok hfresh) hknown

theorem revokeReceipt_step (run : RunId) (receiptId reason : String) :
    LedgerStep rt s none (s.transaction (s.revokeReceipt rt run receiptId reason)).2 := by
  cases h : s.revokeReceipt rt run receiptId reason with
  | error e => exact LedgerStep.same
  | ok out =>
    unfold Store.revokeReceipt at h
    obtain ⟨_, -, h⟩ := bind_ok h
    obtain ⟨s', hs', h⟩ := bind_ok h
    cases h
    obtain ⟨hallowed, rfl⟩ := Store.appendEvent_ok rt hs'
    exact LedgerStep.revoke run _ (Store.hasRun_of_eventAllowed hallowed)

theorem retryPolicy_step {spec : GraphSpec} {run : GraphRun} {id : NodeId} {narrowing : Narrowing}
    {now : Timestamp} (bound : s.Bound run spec) :
    LedgerStep rt s (LedgerOp.checked (.applyRetryPolicy spec run id narrowing now)
      (s.transaction (Budget.applyRetryPolicy rt s spec run id narrowing now)).1)
      (s.transaction (Budget.applyRetryPolicy rt s spec run id narrowing now)).2 := by
  cases h : Budget.applyRetryPolicy rt s spec run id narrowing now with
  | error e => exact LedgerStep.same
  | ok out =>
    obtain ⟨decision, s'⟩ := out
    obtain ⟨node, st, state, -, hst, hs, hdisp, happ⟩ := Budget.applyRetryPolicy_ok rt h
    have hstopped := Budget.disposition_stopped hdisp
    cases happ with
    | retry payload next hap => exact LedgerStep.retry payload bound hst hs hap
    | cancel payload next hap => exact LedgerStep.exhausted payload bound hst hs hstopped hap
    | gate => exact LedgerStep.same

theorem admitDecision_step {run : RunId} {d : GateDecision}
    (waits : s.WaitsOn run d.scope.node.nodeId d.gatePacketId) :
    LedgerStep rt s (LedgerOp.checked (.admitDecision run d)
      (s.transaction (s.admitDecision rt run d)).1)
        (s.transaction (s.admitDecision rt run d)).2 := by
  cases h : s.admitDecision rt run d with
  | error e => exact LedgerStep.same
  | ok out =>
    unfold Store.admitDecision at h
    obtain ⟨s₁, hs₁, h⟩ := bind_ok h
    obtain ⟨s₂, hs₂, h⟩ := bind_ok h
    cases h
    obtain rfl := Store.insertGateDecision_ok rt hs₁
    obtain ⟨-, rfl⟩ := Store.appendEvent_ok rt hs₂
    exact LedgerStep.decided _ [(run, d)] waits ⟨rfl, rfl⟩

theorem appendDecision_step {run : RunId} {id : NodeId} {packet : Ident} {decision : DecisionKind}
    {payload : Json} (waits : s.WaitsOn run id packet)
    (carried : (NodeEvent.decisionAdmitted packet decision).CarriedBy payload) :
    let r := s.transaction
      ((s.appendEvent rt run (some id) kinds.decisionAdmitted payload).map (fun s' => ((), s')))
    LedgerStep rt s
      (LedgerOp.checked (.appendDecision run id packet decision payload) r.1) r.2 := by
  intro r
  cases h : s.appendEvent rt run (some id) kinds.decisionAdmitted payload with
  | error e =>
    have hr : r = (.error e, s) := by simp only [r, h]; rfl
    rw [hr]
    exact LedgerStep.same
  | ok s' =>
    have hr : r = (.ok (), s') := by simp only [r, h]; rfl
    obtain ⟨-, rfl⟩ := Store.appendEvent_ok rt h
    rw [hr]
    have hstep : LedgerStep rt s _ _ := LedgerStep.decided payload [] waits carried
    rw [List.append_nil] at hstep
    exact hstep

theorem claimNext_step {sched : Scheduler} (now : Timestamp) (claimedAt : String)
    (bound : s.Bound sched.run sched.spec) :
    LedgerStep rt s (LedgerOp.checked (.claimNext sched now claimedAt)
      (s.transaction (sched.claimNext rt s now claimedAt)).1)
      (s.transaction (sched.claimNext rt s now claimedAt)).2 := by
  cases h : sched.claimNext rt s now claimedAt with
  | error e => exact LedgerStep.same
  | ok out =>
    obtain ⟨out, s'⟩ := out
    rcases Scheduler.claimNext_ok rt h with ⟨hnone, rfl⟩ |
      ⟨claim, node, st, state, next, snapshot, rfl, hclaim⟩
    · cases out with
      | claimed claim => exact absurd rfl (hnone claim)
      | busy active cap => exact LedgerStep.same
      | budgetExhausted reason => exact LedgerStep.same
      | nothingReady blocked conflicts => exact LedgerStep.same
    · have hstep : LedgerStep rt s _ _ := LedgerStep.claim bound hclaim
      have hrun : claim.runId = sched.run.runId := congrArg Claim.runId hclaim.claim_eq
      have hnode : claim.nodeId = node.id := congrArg Claim.nodeId hclaim.claim_eq
      rw [← hrun, ← hnode] at hstep
      exact hstep

theorem complete_step {sched : Scheduler} {claim : Claim} {run : GraphRun} (attempt : Attempt)
    (hrun : run.runId = claim.runId) (bound : s.Bound run sched.spec) :
    LedgerStep rt s (LedgerOp.checked (.complete sched claim attempt)
      (s.transaction (sched.complete rt s claim attempt)).1)
      (s.transaction (sched.complete rt s claim attempt)).2 := by
  cases h : sched.complete rt s claim attempt with
  | error e => exact LedgerStep.same
  | ok out =>
    obtain ⟨u, s'⟩ := out
    obtain ⟨row, execution, st, state, next, hdone⟩ := Scheduler.complete_ok rt h
    have hstep : LedgerStep rt s _ _ := LedgerStep.complete hrun bound hdone
    simp only [Store.transaction, LedgerOp.checked, hdone.execution_eq, Option.map_some]
    exact hstep

theorem cancel_step {sched : Scheduler} (id : NodeId) (bound : s.Bound sched.run sched.spec) :
    LedgerStep rt s (LedgerOp.checked (.cancel sched id)
      (s.transaction (sched.cancel rt s id)).1) (s.transaction (sched.cancel rt s id)).2 := by
  cases h : sched.cancel rt s id with
  | error e => exact LedgerStep.same
  | ok out =>
    obtain ⟨u, s'⟩ := out
    obtain ⟨st, state, next, hdone⟩ := Scheduler.cancel_ok rt h
    exact LedgerStep.cancel bound hdone

theorem reclaim_step {sched : Scheduler} (id : NodeId) (now : Timestamp)
    (bound : s.Bound sched.run sched.spec) :
    LedgerStep rt s (LedgerOp.checked (.reclaim sched id now)
      (s.transaction (sched.reclaim rt s id now)).1)
      (s.transaction (sched.reclaim rt s id now)).2 := by
  cases h : sched.reclaim rt s id now with
  | error e => exact LedgerStep.same
  | ok out =>
    obtain ⟨number, s'⟩ := out
    obtain ⟨node, row, startedAt, st, state, next, hdone⟩ := Scheduler.reclaim_ok rt h
    exact LedgerStep.reclaim bound hdone

theorem admitReceipt_step {spec : GraphSpec} {run : GraphRun} (receipt : VerifierReceipt)
    (now : Timestamp) (bound : s.Bound run spec) :
    LedgerStep rt s (LedgerOp.checked (.admitReceipt spec run receipt now)
      (s.transaction (Receipts.admitReceipt rt s spec run receipt now)).1)
      (s.transaction (Receipts.admitReceipt rt s spec run receipt now)).2 := by
  cases h : Receipts.admitReceipt rt s spec run receipt now with
  | error e => exact LedgerStep.same
  | ok out =>
    obtain ⟨u, s'⟩ := out
    obtain ⟨node, attempt, result, st, state, hdone⟩ := Receipts.admitReceipt_ok rt h
    exact LedgerStep.admitted bound hdone

theorem openResolveWork_step {spec : GraphSpec} {run : GraphRun} (id : NodeId)
    (now expiresAt : Timestamp) (bound : s.Bound run spec) :
    LedgerStep rt s (LedgerOp.checked (.openResolveWork spec run id now expiresAt)
      (s.transaction (Gates.openResolveWork rt s spec run id now expiresAt)).1)
      (s.transaction (Gates.openResolveWork rt s spec run id now expiresAt)).2 := by
  cases h : Gates.openResolveWork rt s spec run id now expiresAt with
  | error e => exact LedgerStep.same
  | ok out =>
    obtain ⟨packet, s'⟩ := out
    obtain ⟨st, state, next, hdone⟩ := Gates.openResolveWork_ok rt h
    exact LedgerStep.opened bound hdone

/-- Every operation in legal use is a step of the ledger, labelled by the event
the operation checked. -/
theorem exec_step {op : LedgerOp} (legal : op.Legal s) :
    LedgerStep rt s (op.checked (op.exec rt s).1) (op.exec rt s).2 := by
  cases op with
  | storeGraph spec => exact storeGraph_step rt s spec
  | createRun run => exact createRun_step rt s run
  | claimNext sched now claimedAt => exact claimNext_step rt s now claimedAt legal
  | complete sched claim attempt =>
    obtain ⟨run, hrun, bound⟩ := legal
    exact complete_step rt s attempt hrun bound
  | cancel sched id => exact cancel_step rt s id legal
  | reclaim sched id now => exact reclaim_step rt s id now legal
  | admitReceipt spec run receipt now => exact admitReceipt_step rt s receipt now legal
  | applyRetryPolicy spec run id narrowing now => exact retryPolicy_step rt s legal
  | openResolveWork spec run id now expiresAt =>
    exact openResolveWork_step rt s id now expiresAt legal
  | revokeReceipt run receiptId reason => exact revokeReceipt_step rt s run receiptId reason
  | admitDecision run d => exact admitDecision_step rt s legal
  | appendDecision run id packet decision payload =>
    exact appendDecision_step rt s legal.1 legal.2

/-! ### The events an operation writes -/

/-- The event kinds an operation can append. -/
def LedgerOp.eventKinds : LedgerOp → List String
  | storeGraph _ => []
  | createRun _ => [kinds.runCreated]
  | claimNext _ _ _ => [kinds.attemptDispatched]
  | complete _ _ _ => [kinds.attemptSealed]
  | cancel _ _ => [kinds.nodeCancelled]
  | reclaim _ _ _ => [kinds.attemptSealed]
  | admitReceipt _ _ _ _ => [kinds.receiptAdmitted]
  | applyRetryPolicy _ _ _ _ _ => [kinds.retryAllowed, kinds.nodeCancelled]
  | openResolveWork _ _ _ _ _ => [kinds.gateOpened]
  | revokeReceipt _ _ _ => [kinds.receiptRevoked]
  | admitDecision _ _ => [kinds.decisionAdmitted]
  | appendDecision _ _ _ _ _ => [kinds.decisionAdmitted]

/-- The log grew by at most one event, of one of the kinds. -/
def Store.Logged (s s' : Store) (ks : List String) : Prop :=
  s'.events = s.events ∨ ∃ e, s'.events = s.events ++ [e] ∧ e.kind ∈ ks

theorem admitDecision_ok {s s' : Store} {run : RunId} {d : GateDecision} {u : Unit}
    (h : s.admitDecision rt run d = .ok (u, s')) :
    s' = { s with
      gateDecisions := s.gateDecisions ++ [(run, d)]
      events := s.events ++ [s.nextEvent run (some d.scope.node.nodeId) kinds.decisionAdmitted
        (Store.decisionPayload d.gatePacketId d.decision)] } := by
  unfold Store.admitDecision at h
  obtain ⟨s₁, hs₁, h⟩ := bind_ok h
  obtain ⟨s₂, hs₂, h⟩ := bind_ok h
  cases h
  obtain rfl := Store.insertGateDecision_ok rt hs₁
  obtain ⟨-, rfl⟩ := Store.appendEvent_ok rt hs₂
  rfl

theorem storeGraph_events {spec : GraphSpec} {new : Bool} {s' : Store}
    (h : s.storeGraph rt spec = .ok (new, s')) : s'.events = s.events := by
  unfold Store.storeGraph at h
  obtain ⟨digest, -, h⟩ := bind_ok h
  obtain ⟨_, -, h⟩ := bind_ok h
  split at h
  · split at h
    · cases h
      rfl
    · cases h
  · cases h
    rfl

/-- Every operation, legal or not, writes at most one event, of its own kinds. -/
theorem exec_logged (op : LedgerOp) : s.Logged (op.exec rt s).2 op.eventKinds := by
  have same : s.Logged s op.eventKinds := Or.inl rfl
  cases op with
  | storeGraph spec =>
    refine Store.transaction_property (P := fun t => s.Logged t _) same ?_
    intro _ s' h
    exact Or.inl (storeGraph_events rt s h)
  | createRun run =>
    refine Store.transaction_property (P := fun t => s.Logged t _) same ?_
    intro _ s' h
    unfold Store.createRun at h
    obtain ⟨_, -, h⟩ := bind_ok h
    obtain ⟨_, -, h⟩ := bind_ok h
    obtain ⟨_, -, h⟩ := bind_ok h
    obtain ⟨_, hs', h⟩ := bind_ok h
    cases h
    obtain ⟨-, rfl⟩ := Store.appendEvent_ok rt hs'
    exact Or.inr ⟨_, rfl, List.mem_singleton_self _⟩
  | claimNext sched now claimedAt =>
    refine Store.transaction_property (P := fun t => s.Logged t _) same ?_
    intro out s' h
    rcases Scheduler.claimNext_ok rt h with ⟨-, rfl⟩ | ⟨_, _, _, _, _, _, -, hclaim⟩
    · exact same
    · exact Or.inr ⟨_, by rw [hclaim.store_eq], List.mem_singleton_self _⟩
  | complete sched claim attempt =>
    refine Store.transaction_property (P := fun t => s.Logged t _) same ?_
    intro out s' h
    obtain ⟨_, _, _, _, _, hdone⟩ := Scheduler.complete_ok rt h
    exact Or.inr ⟨_, by rw [hdone.store_eq]; rfl, List.mem_singleton_self _⟩
  | cancel sched id =>
    refine Store.transaction_property (P := fun t => s.Logged t _) same ?_
    intro out s' h
    obtain ⟨_, _, _, hdone⟩ := Scheduler.cancel_ok rt h
    exact Or.inr ⟨_, by rw [hdone.store_eq], List.mem_singleton_self _⟩
  | reclaim sched id now =>
    refine Store.transaction_property (P := fun t => s.Logged t _) same ?_
    intro out s' h
    obtain ⟨_, _, _, _, _, _, hdone⟩ := Scheduler.reclaim_ok rt h
    exact Or.inr ⟨_, by rw [hdone.store_eq]; rfl, List.mem_singleton_self _⟩
  | admitReceipt spec run receipt now =>
    refine Store.transaction_property (P := fun t => s.Logged t _) same ?_
    intro out s' h
    obtain ⟨_, _, _, _, _, hdone⟩ := Receipts.admitReceipt_ok rt h
    exact Or.inr ⟨_, by rw [hdone.store_eq], List.mem_singleton_self _⟩
  | applyRetryPolicy spec run id narrowing now =>
    refine Store.transaction_property (P := fun t => s.Logged t _) same ?_
    intro out s' h
    obtain ⟨_, _, _, -, -, -, -, happ⟩ := Budget.applyRetryPolicy_ok rt h
    cases happ with
    | retry payload next hap => exact Or.inr ⟨_, rfl, List.mem_cons_self⟩
    | cancel payload next hap =>
      exact Or.inr ⟨_, rfl, List.mem_cons_of_mem _ (List.mem_singleton_self _)⟩
    | gate => exact same
  | openResolveWork spec run id now expiresAt =>
    refine Store.transaction_property (P := fun t => s.Logged t _) same ?_
    intro out s' h
    obtain ⟨_, _, _, hdone⟩ := Gates.openResolveWork_ok rt h
    exact Or.inr ⟨_, by rw [hdone.store_eq], List.mem_singleton_self _⟩
  | revokeReceipt run receiptId reason =>
    refine Store.transaction_property (P := fun t => s.Logged t _) same ?_
    intro out s' h
    unfold Store.revokeReceipt at h
    obtain ⟨_, -, h⟩ := bind_ok h
    obtain ⟨_, hs', h⟩ := bind_ok h
    cases h
    obtain ⟨-, rfl⟩ := Store.appendEvent_ok rt hs'
    exact Or.inr ⟨_, rfl, List.mem_singleton_self _⟩
  | admitDecision run d =>
    refine Store.transaction_property (P := fun t => s.Logged t _) same ?_
    intro _ s' h
    obtain rfl := admitDecision_ok rt h
    exact Or.inr ⟨_, rfl, List.mem_singleton_self _⟩
  | appendDecision run id packet decision payload =>
    refine Store.transaction_property (P := fun t => s.Logged t _) same ?_
    intro _ s' h
    obtain ⟨_, hs', h⟩ := map_ok h
    cases h
    obtain ⟨-, rfl⟩ := Store.appendEvent_ok rt hs'
    exact Or.inr ⟨_, rfl, List.mem_singleton_self _⟩

/-- No operation writes an event of a kind that is not its own. -/
theorem exec_event_old {op : LedgerOp} {e : StoredEvent} (he : e ∈ (op.exec rt s).2.events)
    (hkind : e.kind ∉ op.eventKinds) : e ∈ s.events := by
  rcases exec_logged rt s op with hsame | ⟨x, happ, hx⟩
  · rw [hsame] at he
    exact he
  · rw [happ, List.mem_append, List.mem_singleton] at he
    rcases he with he | rfl
    · exact he
    · exact absurd hx hkind

end

end Checkspan
