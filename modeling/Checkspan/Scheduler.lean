import Checkspan.Budget
import Checkspan.Graph

/-!
# Scheduling and completion ownership (`src/scheduler/mod.rs`)

A claim, its completion, a cancellation and a takeover, each one transaction. An
error the source formats into `SchedulerError::Invalid` keeps its cause here.
-/

namespace Checkspan

/-- Identity of a controller process: text that is not blank. -/
structure ControllerId where
  text : String
  nonblank : isBlank text = false
deriving DecidableEq

/-- A claim this controller holds on one attempt (`scheduler/mod.rs:59-76`). -/
structure Claim where
  runId : RunId
  nodeId : NodeId
  number : AttemptNumber
  fence : Nat
  owner : ControllerId
  dependencyReceipts : List ReceiptRef
  narrowing : Option Narrowing
deriving DecidableEq

inductive ClaimOutcome where
  | claimed (claim : Claim)
  | busy (active maxActive : Nat)
  | budgetExhausted (reason : ExhaustReason)
  | nothingReady (blocked : List (NodeId × String)) (conflicts : List (NodeId × Ident))
deriving DecidableEq

/-- Why a scheduling operation failed (`scheduler/mod.rs:103-142`). `panicked` is
a failed `expect`. -/
inductive SchedulerError where
  | invalid (what : String)
  | budget (error : BudgetError)
  | store (error : StoreError)
  | transition (error : TransitionError)
  | notClaimed (node : NodeId) (number : AttemptNumber)
  | stale (node : NodeId) (number : AttemptNumber) (held current : Nat) (release : Option String)
  | attemptMismatch (what : String)
  | snapshotMismatch
  | panicked
deriving DecidableEq

namespace ControllerId

def new (text : String) : Except SchedulerError ControllerId :=
  if h : isBlank text = false then .ok ⟨text, h⟩
  else .error (.invalid "controller identity is empty")

end ControllerId

def reclaimedErrorCode : Ident := ⟨"claim_reclaimed", by decide +kernel⟩

/-- Whether a claim of `held` and a claim of `wanted` exclude each other. -/
def excludes (wanted held : ResourceClaim) : Bool :=
  held.resource = wanted.resource && (wanted.access = .exclusive || held.access = .exclusive)

/-- `conflict` (`scheduler/mod.rs:206-223`): the first resource of `node` that an
active claim makes unavailable. -/
def conflict (node : NodeSpec) (active : List ClaimRow) : Option Ident :=
  (node.resourceScope.find? (fun wanted =>
    active.any (fun claim => claim.resources.any (excludes wanted)))).map (·.resource)

theorem conflict_none {node : NodeSpec} {active : List ClaimRow} (h : conflict node active = none)
    {wanted : ResourceClaim} (hw : wanted ∈ node.resourceScope) {row : ClaimRow}
    (hr : row ∈ active) {held : ResourceClaim} (hh : held ∈ row.resources) :
    excludes wanted held = false := by
  unfold conflict at h
  rw [Option.map_eq_none_iff, List.find?_eq_none] at h
  have hfree := h wanted hw
  simp only [List.any_eq_true, not_exists, not_and, Bool.not_eq_true] at hfree
  exact hfree row hr held hh

/-- The scheduler for one run, acting as one controller, over an admitted graph. -/
structure Scheduler where
  spec : GraphSpec
  graph : AdmittedGraph
  run : GraphRun
  controller : ControllerId
  maxActive : Nat
  admitted : Graph.admitGraph spec = .ok graph
  ofRun : run.graphRef = spec.graphRef
  capPos : 0 < maxActive

namespace Scheduler

/-- `new` (`scheduler/mod.rs:226-262`): the cap is one. -/
def new (spec : GraphSpec) (run : GraphRun) (controller : ControllerId) :
    Except SchedulerError Scheduler :=
  if hr : run.graphRef = spec.graphRef then
    match hg : Graph.admitGraph spec with
    | .ok graph => .ok ⟨spec, graph, run, controller, 1, hg, hr, Nat.one_pos⟩
    | .error _ => .error (.invalid "graph not admitted")
  else .error (.invalid ("run " ++ run.runId.text ++ " is of graph " ++
    run.graphRef.graphId.text ++ "@" ++ run.graphRef.revision.display ++ ", not " ++
    spec.graphId.text ++ "@" ++ spec.revision.display))

/-- `with_max_active`: at least one. -/
def withMaxActive (sched : Scheduler) (maxActive : Nat) : Scheduler :=
  { sched with maxActive := max maxActive 1, capPos := by omega }

variable (rt : Runtime) (sched : Scheduler)

/-! ### `claim_next` (`scheduler/mod.rs:314-427`) -/

/-- What the scan over the admitted order found. -/
inductive Scan where
  | found (node : NodeSpec) (state : NodeState) (snapshot : DependencySnapshot)
  | nothing (blocked : List (NodeId × String)) (conflicts : List (NodeId × Ident))

/-- The scan: the first open node whose dependencies resolve and whose resources
no active claim holds. -/
def scan (svc : DependencyService) (active : List ClaimRow) :
    List NodeId → List (NodeId × String) → List (NodeId × Ident) → Scan
  | [], blocked, conflicts => .nothing blocked conflicts
  | id :: rest, blocked, conflicts =>
    match svc.state.node id, svc.spec.findNode id with
    | some state, some node =>
      if state.status ≠ .open then scan svc active rest blocked conflicts
      else match svc.resolve id with
        | .error blockers =>
          scan svc active rest (blocked ++ [(id, displayBlockers blockers)]) conflicts
        | .ok snapshot =>
          match conflict node active with
          | some resource => scan svc active rest blocked (conflicts ++ [(id, resource)])
          | none => .found node state snapshot
    | _, _ => scan svc active rest blocked conflicts

/-- The next attempt number, unless the counter overflows. -/
def nextNumber (state : NodeState) : Except SchedulerError AttemptNumber :=
  if h : state.attemptsStarted + 1 < 2 ^ 32 then .ok ⟨state.attemptsStarted + 1, by omega, h⟩
  else .error .panicked

/-- The payload of `attempt_dispatched`: the event's own, and three fields more. -/
def dispatchPayload (number : AttemptNumber) (owner : ControllerId) (fence : Nat)
    (refs : List ReceiptRef) : Json :=
  ((((NodeEvent.dispatched number).payload.set "owner" (.str owner.text)).set "fence"
    (.num fence)).set "dependency_receipts" (.arr (refs.map (·.toJson))))

/-- The row `claim_next` inserts; `at` is the store's clock. -/
def newRow (node : NodeSpec) (number : AttemptNumber) (fence : Nat) (refs : List ReceiptRef)
    (claimedAt : String) : ClaimRow :=
  { runId := sched.run.runId, nodeId := node.id, number := number, owner := sched.controller.text
    fence := fence, dependencyReceipts := refs, resources := node.resourceScope, active := true
    release := none, claimedAt := claimedAt }

/-- The writes of a claim. -/
def writeClaim (s : Store) (node : NodeSpec) (state : NodeState) (snapshot : DependencySnapshot)
    (claimedAt : String) : Except SchedulerError (ClaimOutcome × Store) := do
  let number ← nextNumber state
  let _ ← (state.apply (.dispatched number)).mapError .transition
  let fence := s.nextFence sched.run.runId
  let refs := snapshot.receiptRefs
  let s₁ ← (s.insertClaim (sched.newRow node number fence refs claimedAt)).mapError .store
  let s₂ ← (s₁.appendEvent rt sched.run.runId (some node.id) kinds.attemptDispatched
    (dispatchPayload number sched.controller fence refs)).mapError .store
  .ok (.claimed { runId := sched.run.runId, nodeId := node.id, number := number, fence := fence
                  owner := sched.controller, dependencyReceipts := refs
                  narrowing := Narrowing.pending (s.eventsOf sched.run.runId) node.id }, s₂)

/-- The service `claim_next` resolves dependencies with. -/
def service (s : Store) (st : RunState) (now : Timestamp) : DependencyService :=
  { spec := sched.spec, run := sched.run, state := st, store := s, now := now }

def claimNext (s : Store) (now : Timestamp) (claimedAt : String) :
    Except SchedulerError (ClaimOutcome × Store) := do
  let st ← (RunState.replay sched.run.runId sched.spec
    (s.eventsOf sched.run.runId)).mapError .transition
  let budget ← (Budget.status s sched.spec sched.run now).mapError .budget
  match budget.exhaustion with
  | some reason => .ok (.budgetExhausted reason, s)
  | none =>
    if s.activeClaims.length ≥ sched.maxActive then
      .ok (.busy s.activeClaims.length sched.maxActive, s)
    else match scan (sched.service s st now) s.activeClaims sched.graph.order [] [] with
      | .nothing blocked conflicts => .ok (.nothingReady blocked conflicts, s)
      | .found node state snapshot => sched.writeClaim rt s node state snapshot claimedAt

/-! ### `complete` (`scheduler/mod.rs:429-541`) -/

/-- `held_claim` (`scheduler/mod.rs:429-447`). -/
def heldClaim (s : Store) (claim : Claim) : Except SchedulerError ClaimRow := do
  let row ← someOr (s.claim claim.runId claim.nodeId claim.number.get)
    (.notClaimed claim.nodeId claim.number)
  guardOk (row.active && row.fence = claim.fence && row.owner = claim.owner.text)
    (.stale claim.nodeId claim.number claim.fence row.fence row.release)
  .ok row

/-- The replay of a transaction, and the state of one node of the graph in it. -/
def replayNode (spec : GraphSpec) (s : Store) (run : RunId) (id : NodeId) :
    Except SchedulerError NodeState := do
  let st ← (RunState.replay run spec (s.eventsOf run)).mapError .transition
  someOr (st.node id) .panicked

/-- The checks `complete` makes before its transaction. -/
def checkCompletion (claim : Claim) (attempt : Attempt) : Except SchedulerError Execution := do
  guardOk (attempt.runId = claim.runId && attempt.node.nodeId = claim.nodeId &&
      attempt.number = claim.number)
    (.attemptMismatch ("attempt " ++ attempt.attemptRef.display ++ " does not describe claim " ++
      claim.runId.text ++ "/" ++ claim.nodeId.text ++ "#" ++ claim.number.display))
  let expectedNode ← someOr (sched.spec.nodeRef claim.nodeId)
    (.invalid ("node " ++ claim.nodeId.text ++ " is not in the graph"))
  guardOk (attempt.node = expectedNode) (.attemptMismatch ("attempt is about " ++
    attempt.node.display ++ ", the graph has " ++ expectedNode.display))
  someOr attempt.execution
    (.attemptMismatch "a completion must carry an execution record")

def complete (s : Store) (claim : Claim) (attempt : Attempt) :
    Except SchedulerError (Unit × Store) := do
  let execution ← sched.checkCompletion claim attempt
  let row ← heldClaim s claim
  guardOk (row.dependencyReceipts = attempt.dependencyReceipts) .snapshotMismatch
  let state ← replayNode sched.spec s claim.runId claim.nodeId
  let _ ← (state.apply (.executionFinished claim.number execution.outcome
    (attempt.result.map (·.digest)))).mapError .transition
  let s₁ ← (s.sealAttempt rt attempt).mapError .store
  let (released, s₂) :=
    s₁.releaseClaim claim.runId claim.nodeId claim.number.get claim.fence "completed"
  guardOk released (.stale claim.nodeId claim.number claim.fence row.fence row.release)
  .ok ((), s₂)

/-! ### `cancel` (`scheduler/mod.rs:543-586`) -/

/-- The release of one row found by the scan over the active claims. -/
def releaseIfOf (run : RunId) (id : NodeId) (release : String) (s : Store) (row : ClaimRow) :
    Store :=
  if row.runId = run ∧ row.nodeId = id then
    (s.releaseClaim run id row.number.get row.fence release).2
  else s

def cancel (s : Store) (id : NodeId) : Except SchedulerError (Unit × Store) := do
  let _ ← someOr (sched.spec.findNode id)
    (.invalid ("node " ++ id.text ++ " is not in the graph"))
  let state ← replayNode sched.spec s sched.run.runId id
  let _ ← (state.apply .cancelled).mapError .transition
  let s₁ := s.activeClaims.foldl (releaseIfOf sched.run.runId id "cancelled") s
  let s₂ ← (s₁.appendEvent rt sched.run.runId (some id) kinds.nodeCancelled
    (.obj [("by", .str sched.controller.text)])).mapError .store
  .ok ((), s₂)

/-- The active rows of a node: the rows that scan releases. -/
def holdsNode (run : RunId) (id : NodeId) (c : ClaimRow) : Bool :=
  c.runId = run && c.nodeId = id && c.active

/-! ### `reclaim` (`scheduler/mod.rs:588-662`) -/

/-- The record a takeover seals. -/
def reclaimedAttempt (node : NodeRef) (row : ClaimRow) (startedAt now : Timestamp) : Attempt :=
  { record := .attempt
    schemaVersion := 1
    runId := sched.run.runId
    node := node
    number := row.number
    owner := row.owner
    startedAt := startedAt
    finishedAt := some now
    repairHint := none
    inputManifest := []
    dependencyReceipts := row.dependencyReceipts
    result := none
    producedEvidence := []
    execution := some
      { outcome := .failed
        errorCode := some reclaimedErrorCode
        errorText := some ("claim held by " ++ row.owner ++ " reclaimed by " ++
          sched.controller.text) }
    verifierReceipt := none }

def reclaim (s : Store) (id : NodeId) (now : Timestamp) :
    Except SchedulerError (AttemptNumber × Store) := do
  let node ← someOr (sched.spec.nodeRef id)
    (.invalid ("node " ++ id.text ++ " is not in the graph"))
  let row ← someOr (s.activeClaims.find? (fun r => r.runId = sched.run.runId ∧ r.nodeId = id))
    (.invalid ("node " ++ id.text ++ " has no active claim to reclaim"))
  let st ← (RunState.replay sched.run.runId sched.spec
    (s.eventsOf sched.run.runId)).mapError .transition
  let startedAt ← (Timestamp.new row.claimedAt).mapError (fun e => .store (.corrupt e.display))
  let state ← someOr (st.node id) .panicked
  let _ ← (state.apply (.executionFinished row.number .failed none)).mapError .transition
  let s₁ ← (s.sealAttempt rt (sched.reclaimedAttempt node row startedAt now)).mapError .store
  let s₂ := (s₁.releaseClaim sched.run.runId id row.number.get row.fence "reclaimed").2
  .ok (row.number, s₂)

/-! ### What the operations do -/

variable {sched}

theorem scan_found {svc : DependencyService} {active : List ClaimRow} {ids : List NodeId}
    {blocked : List (NodeId × String)} {conflicts : List (NodeId × Ident)} {node : NodeSpec}
    {state : NodeState} {snapshot : DependencySnapshot}
    (h : scan svc active ids blocked conflicts = .found node state snapshot) :
    svc.state.node node.id = some state ∧ svc.spec.findNode node.id = some node ∧
      state.status = .open ∧ svc.resolve node.id = .ok snapshot ∧ conflict node active = none := by
  induction ids generalizing blocked conflicts with
  | nil => cases h
  | cons id rest ih =>
    simp only [scan] at h
    split at h
    · rename_i st nd hst hnd
      split at h
      · exact ih h
      · rename_i hopen
        split at h
        · exact ih h
        · rename_i snap hsnap
          split at h
          · exact ih h
          · rename_i hfree
            cases h
            have hid := GraphSpec.findNode_id hnd
            rw [hid]
            exact ⟨hst, hnd, by simpa using hopen, hsnap, hfree⟩
    · exact ih h

theorem nextNumber_ok {state : NodeState} {number : AttemptNumber}
    (h : nextNumber state = .ok number) : number.get = state.attemptsStarted + 1 := by
  unfold nextNumber at h
  split at h
  · cases h
    rfl
  · cases h

theorem replayNode_ok {spec : GraphSpec} {s : Store} {run : RunId} {id : NodeId}
    {state : NodeState} (h : replayNode spec s run id = .ok state) :
    ∃ st, RunState.replay run spec (s.eventsOf run) = .ok st ∧ st.node id = some state := by
  unfold replayNode at h
  obtain ⟨st, hst, h⟩ := bind_ok h
  exact ⟨st, mapError_ok hst, someOr_ok h⟩

/-- Everything a successful claim checked and wrote. -/
structure Claimed (sched : Scheduler) (s : Store) (now : Timestamp) (claimedAt : String)
    (claim : Claim) (s' : Store) (node : NodeSpec) (st : RunState) (state next : NodeState)
    (snapshot : DependencySnapshot) : Prop where
  replayed : RunState.replay sched.run.runId sched.spec (s.eventsOf sched.run.runId) = .ok st
  node_mem : sched.spec.findNode node.id = some node
  state_eq : st.node node.id = some state
  legal : state.apply (.dispatched claim.number) = .ok next
  resolved : (sched.service s st now).resolve node.id = .ok snapshot
  free : conflict node s.activeClaims = none
  room : s.activeClaims.length < sched.maxActive
  claim_eq : claim = { runId := sched.run.runId, nodeId := node.id, number := claim.number
                       fence := s.nextFence sched.run.runId, owner := sched.controller
                       dependencyReceipts := snapshot.receiptRefs
                       narrowing := Narrowing.pending (s.eventsOf sched.run.runId) node.id }
  runStored : s.hasRun sched.run.runId = true
  numberFree : ∀ d ∈ s.claims, d.runId = sched.run.runId → d.nodeId = node.id →
    d.number ≠ claim.number
  store_eq : s' = { s with
    claims := s.claims ++ [sched.newRow node claim.number (s.nextFence sched.run.runId)
      snapshot.receiptRefs claimedAt]
    events := s.events ++ [s.nextEvent sched.run.runId (some node.id) kinds.attemptDispatched
      (dispatchPayload claim.number sched.controller (s.nextFence sched.run.runId)
        snapshot.receiptRefs)] }

theorem claimNext_ok {s s' : Store} {now : Timestamp} {claimedAt : String} {out : ClaimOutcome}
    (h : sched.claimNext rt s now claimedAt = .ok (out, s')) :
    ((∀ claim, out ≠ .claimed claim) ∧ s' = s) ∨
    ∃ claim node st state next snapshot, out = .claimed claim ∧
      Claimed sched s now claimedAt claim s' node st state next snapshot := by
  unfold claimNext at h
  obtain ⟨st, hst, h⟩ := bind_ok h
  obtain ⟨budget, -, h⟩ := bind_ok h
  split at h
  · cases h
    exact Or.inl ⟨by simp, rfl⟩
  · split at h
    · cases h
      exact Or.inl ⟨by simp, rfl⟩
    · rename_i hroom
      split at h
      · cases h
        exact Or.inl ⟨by simp, rfl⟩
      · rename_i node state snapshot hscan
        obtain ⟨hstate, hnode, -, hres, hfree⟩ := scan_found hscan
        unfold writeClaim at h
        obtain ⟨number, -, h⟩ := bind_ok h
        obtain ⟨next, hap, h⟩ := bind_ok h
        obtain ⟨s₁, hs₁, h⟩ := bind_ok h
        obtain ⟨s₂, hs₂, h⟩ := bind_ok h
        cases h
        obtain ⟨hrun, -, hnum, rfl⟩ := Store.insertClaim_ok (mapError_ok hs₁)
        obtain ⟨-, rfl⟩ := Store.appendEvent_ok rt (mapError_ok hs₂)
        refine Or.inr ⟨_, node, st, state, next, snapshot, rfl, ?_⟩
        exact { replayed := mapError_ok hst
                node_mem := hnode
                state_eq := hstate
                legal := mapError_ok hap
                resolved := hres
                free := hfree
                room := by omega
                claim_eq := rfl
                runStored := hrun
                numberFree := hnum
                store_eq := rfl }

theorem heldClaim_ok {s : Store} {claim : Claim} {row : ClaimRow}
    (h : heldClaim s claim = .ok row) :
    s.claim claim.runId claim.nodeId claim.number.get = some row ∧ row.active = true ∧
      row.fence = claim.fence ∧ row.owner = claim.owner.text := by
  unfold heldClaim at h
  obtain ⟨row', hrow, h⟩ := bind_ok h
  obtain ⟨_, hg, h⟩ := bind_ok h
  cases h
  have hg' := guardOk_ok hg
  simp only [Bool.and_eq_true, decide_eq_true_eq] at hg'
  exact ⟨someOr_ok hrow, hg'.1.1, hg'.1.2, hg'.2⟩

/-- Everything a successful completion checked and wrote. -/
structure Completed (sched : Scheduler) (s : Store) (claim : Claim) (attempt : Attempt)
    (s' : Store) (row : ClaimRow) (execution : Execution) (st : RunState)
    (state next : NodeState) : Prop where
  runId_eq : attempt.runId = claim.runId
  number_eq : attempt.number = claim.number
  nodeRef_eq : sched.spec.nodeRef claim.nodeId = some attempt.node
  execution_eq : attempt.execution = some execution
  row_eq : s.claim claim.runId claim.nodeId claim.number.get = some row
  active : row.active = true
  fence_eq : row.fence = claim.fence
  owner_eq : row.owner = claim.owner.text
  pinned : row.dependencyReceipts = attempt.dependencyReceipts
  replayed : RunState.replay claim.runId sched.spec (s.eventsOf claim.runId) = .ok st
  state_eq : st.node claim.nodeId = some state
  legal : state.apply (.executionFinished claim.number execution.outcome
    (attempt.result.map (·.digest))) = .ok next
  unsealed : s.attemptKeyTaken attempt = false
  store_eq : s' = (Store.releaseClaim { s with
    attempts := s.attempts ++ [attempt]
    events := s.events ++ [s.nextEvent attempt.runId (some attempt.node.nodeId)
      kinds.attemptSealed (Store.sealedPayload attempt)] }
    claim.runId claim.nodeId claim.number.get claim.fence "completed").2

theorem complete_ok {s s' : Store} {claim : Claim} {attempt : Attempt} {u : Unit}
    (h : sched.complete rt s claim attempt = .ok (u, s')) :
    ∃ row execution st state next,
      Completed sched s claim attempt s' row execution st state next := by
  unfold complete at h
  obtain ⟨execution, hex, h⟩ := bind_ok h
  obtain ⟨row, hrow, h⟩ := bind_ok h
  obtain ⟨_, hpin, h⟩ := bind_ok h
  obtain ⟨state, hstate, h⟩ := bind_ok h
  obtain ⟨next, hap, h⟩ := bind_ok h
  obtain ⟨s₁, hs₁, h⟩ := bind_ok h
  obtain ⟨_, -, h⟩ := bind_ok h
  cases h
  unfold checkCompletion at hex
  obtain ⟨_, hident, hex⟩ := bind_ok hex
  obtain ⟨expected, hexp, hex⟩ := bind_ok hex
  obtain ⟨_, hnode, hex⟩ := bind_ok hex
  have hident' := guardOk_ok hident
  have hnode' := guardOk_ok hnode
  have hpin' := guardOk_ok hpin
  simp only [Bool.and_eq_true, decide_eq_true_eq] at hident' hnode' hpin'
  obtain ⟨hcl, hact, hfence, howner⟩ := heldClaim_ok hrow
  obtain ⟨st, hst, hs⟩ := replayNode_ok hstate
  obtain ⟨hfresh, rfl⟩ := Store.sealAttempt_ok rt (mapError_ok hs₁)
  refine ⟨row, execution, st, state, next, ?_⟩
  exact { runId_eq := hident'.1.1
          number_eq := hident'.2
          nodeRef_eq := by rw [hnode']; exact someOr_ok hexp
          execution_eq := someOr_ok hex
          row_eq := hcl
          active := hact
          fence_eq := hfence
          owner_eq := howner
          pinned := hpin'
          replayed := hst
          state_eq := hs
          legal := mapError_ok hap
          unsealed := hfresh
          store_eq := rfl }

/-- A completion whose claim row is missing, released, or held under another
token or owner fails. -/
theorem complete_stale {s : Store} {claim : Claim} {attempt : Attempt}
    (h : ∀ row, s.claim claim.runId claim.nodeId claim.number.get = some row →
      row.active = false ∨ row.fence ≠ claim.fence ∨ row.owner ≠ claim.owner.text) :
    ∃ e, sched.complete rt s claim attempt = .error e := by
  cases hc : sched.complete rt s claim attempt with
  | error e => exact ⟨e, rfl⟩
  | ok out =>
    obtain ⟨u, s'⟩ := out
    obtain ⟨row, execution, st, state, next, hdone⟩ := complete_ok rt hc
    rcases h row hdone.row_eq with h' | h' | h'
    · rw [hdone.active] at h'
      cases h'
    · exact absurd hdone.fence_eq h'
    · exact absurd hdone.owner_eq h'

/-- The rows released by a scan over `rows`. -/
def scanReleases (run : RunId) (id : NodeId) (rows : List ClaimRow) (c : ClaimRow) : Bool :=
  rows.any (fun row => row.runId = run && row.nodeId = id &&
    ClaimRow.isHeldUnder run id row.number.get row.fence c)

theorem scanReleases_releaseIf {run : RunId} {id : NodeId} {rows : List ClaimRow}
    {p : ClaimRow → Bool} {release : String} {c : ClaimRow} (h : p c = true) :
    scanReleases run id rows (ClaimRow.releaseIf p release c) = false := by
  rw [ClaimRow.releaseIf_pos p release c h]
  simp [scanReleases, ClaimRow.isHeldUnder]

theorem foldl_releaseIfOf (run : RunId) (id : NodeId) (release : String) (rows : List ClaimRow)
    (s : Store) : rows.foldl (releaseIfOf run id release) s =
      { s with claims :=
        s.claims.map (ClaimRow.releaseIf (scanReleases run id rows) release) } := by
  induction rows generalizing s with
  | nil =>
    have hnone : ClaimRow.releaseIf (scanReleases run id []) release = fun c => c := by
      funext c
      exact ClaimRow.releaseIf_neg _ _ c rfl
    rw [hnone, List.map_id']
    rfl
  | cons row rest ih =>
    rw [List.foldl_cons, ih]
    unfold releaseIfOf
    split
    · rename_i hrow
      simp only [Store.releaseClaim, List.map_map]
      congr 1
      refine List.map_congr_left ?_
      intro c _
      have hscan : scanReleases run id (row :: rest) c =
          (ClaimRow.isHeldUnder run id row.number.get row.fence c ||
            scanReleases run id rest c) := by
        simp [scanReleases, hrow.1, hrow.2]
      cases hheld : ClaimRow.isHeldUnder run id row.number.get row.fence c with
      | true =>
        rw [hheld, Bool.true_or] at hscan
        rw [Function.comp_apply, ClaimRow.releaseIf_neg _ _ _ (scanReleases_releaseIf hheld),
          ClaimRow.releaseIf_pos _ _ c hheld, ClaimRow.releaseIf_pos _ _ c hscan]
      | false =>
        rw [hheld, Bool.false_or] at hscan
        rw [Function.comp_apply, ClaimRow.releaseIf_neg _ _ c hheld]
        unfold ClaimRow.releaseIf
        rw [hscan]
    · rename_i hrow
      congr 1
      refine List.map_congr_left ?_
      intro c _
      have hscan : scanReleases run id (row :: rest) c = scanReleases run id rest c := by
        have hoff : (decide (row.runId = run) && decide (row.nodeId = id)) = false := by
          simpa using hrow
        simp only [scanReleases, List.any_cons, hoff, Bool.false_and, Bool.false_or]
      unfold ClaimRow.releaseIf
      rw [hscan]

/-- The scan of `cancel` releases exactly the active rows of its node. -/
theorem foldl_releaseIfOf_active (s : Store) (run : RunId) (id : NodeId) (release : String) :
    s.activeClaims.foldl (releaseIfOf run id release) s =
      { s with claims := s.claims.map (ClaimRow.releaseIf (holdsNode run id) release) } := by
  rw [foldl_releaseIfOf]
  congr 1
  refine List.map_congr_left ?_
  intro c hc
  have hscan : scanReleases run id s.activeClaims c = holdsNode run id c := by
    rw [Bool.eq_iff_iff]
    simp only [scanReleases, holdsNode, ClaimRow.isHeldUnder, List.any_eq_true, Bool.and_eq_true,
      decide_eq_true_eq]
    constructor
    · rintro ⟨row, -, -, ⟨⟨⟨hrun, hid⟩, -⟩, -⟩, hact⟩
      exact ⟨⟨hrun, hid⟩, hact⟩
    · rintro ⟨⟨hrun, hid⟩, hact⟩
      exact ⟨c, Store.mem_activeClaims.mpr ⟨hc, hact⟩, ⟨hrun, hid⟩, ⟨⟨⟨hrun, hid⟩, rfl⟩, rfl⟩, hact⟩
  unfold ClaimRow.releaseIf
  rw [hscan]

/-- Everything a successful cancellation checked and wrote. -/
structure Cancelled (sched : Scheduler) (s : Store) (id : NodeId) (s' : Store) (st : RunState)
    (state next : NodeState) : Prop where
  known : (sched.spec.findNode id).isSome = true
  replayed : RunState.replay sched.run.runId sched.spec (s.eventsOf sched.run.runId) = .ok st
  state_eq : st.node id = some state
  legal : state.apply .cancelled = .ok next
  store_eq : s' = { s with
    claims := s.claims.map (ClaimRow.releaseIf (holdsNode sched.run.runId id) "cancelled")
    events := s.events ++ [s.nextEvent sched.run.runId (some id) kinds.nodeCancelled
      (.obj [("by", .str sched.controller.text)])] }

theorem cancel_ok {s s' : Store} {id : NodeId} {u : Unit}
    (h : sched.cancel rt s id = .ok (u, s')) :
    ∃ st state next, Cancelled sched s id s' st state next := by
  unfold cancel at h
  obtain ⟨node, hnode, h⟩ := bind_ok h
  obtain ⟨state, hstate, h⟩ := bind_ok h
  obtain ⟨next, hap, h⟩ := bind_ok h
  obtain ⟨s₂, hs₂, h⟩ := bind_ok h
  cases h
  obtain ⟨st, hst, hs⟩ := replayNode_ok hstate
  obtain ⟨-, rfl⟩ := Store.appendEvent_ok rt (mapError_ok hs₂)
  refine ⟨st, state, next, ?_⟩
  exact { known := by rw [someOr_ok hnode]; rfl
          replayed := hst
          state_eq := hs
          legal := mapError_ok hap
          store_eq := by rw [foldl_releaseIfOf_active]; rfl }

/-- Everything a successful takeover checked and wrote. -/
structure Reclaimed (sched : Scheduler) (s : Store) (id : NodeId) (now : Timestamp)
    (number : AttemptNumber) (s' : Store) (node : NodeRef) (row : ClaimRow)
    (startedAt : Timestamp) (st : RunState) (state next : NodeState) : Prop where
  nodeRef_eq : sched.spec.nodeRef id = some node
  row_mem : row ∈ s.claims
  active : row.active = true
  row_run : row.runId = sched.run.runId
  row_node : row.nodeId = id
  number_eq : number = row.number
  replayed : RunState.replay sched.run.runId sched.spec (s.eventsOf sched.run.runId) = .ok st
  state_eq : st.node id = some state
  legal : state.apply (.executionFinished row.number .failed none) = .ok next
  unsealed : s.attemptKeyTaken (sched.reclaimedAttempt node row startedAt now) = false
  store_eq : s' = (Store.releaseClaim { s with
    attempts := s.attempts ++ [sched.reclaimedAttempt node row startedAt now]
    events := s.events ++ [s.nextEvent sched.run.runId (some id) kinds.attemptSealed
      (Store.sealedPayload (sched.reclaimedAttempt node row startedAt now))] }
    sched.run.runId id row.number.get row.fence "reclaimed").2

theorem reclaim_ok {s s' : Store} {id : NodeId} {now : Timestamp} {number : AttemptNumber}
    (h : sched.reclaim rt s id now = .ok (number, s')) :
    ∃ node row startedAt st state next,
      Reclaimed sched s id now number s' node row startedAt st state next := by
  unfold reclaim at h
  obtain ⟨node, hnode, h⟩ := bind_ok h
  obtain ⟨row, hrow, h⟩ := bind_ok h
  obtain ⟨st, hst, h⟩ := bind_ok h
  obtain ⟨startedAt, -, h⟩ := bind_ok h
  obtain ⟨state, hstate, h⟩ := bind_ok h
  obtain ⟨next, hap, h⟩ := bind_ok h
  obtain ⟨s₁, hs₁, h⟩ := bind_ok h
  cases h
  have hfound := someOr_ok hrow
  have hmem := Store.mem_activeClaims.mp (List.mem_of_find?_eq_some hfound)
  have hkey := List.find?_some hfound
  simp only [decide_eq_true_eq] at hkey
  have hid : node.nodeId = id := GraphSpec.nodeRef_nodeId (someOr_ok hnode)
  obtain ⟨hfresh, rfl⟩ := Store.sealAttempt_ok rt (mapError_ok hs₁)
  refine ⟨node, row, startedAt, st, state, next, ?_⟩
  exact { nodeRef_eq := someOr_ok hnode
          row_mem := hmem.1
          active := hmem.2
          row_run := hkey.1
          row_node := hkey.2
          number_eq := rfl
          replayed := mapError_ok hst
          state_eq := someOr_ok hstate
          legal := mapError_ok hap
          unsealed := hfresh
          store_eq := by
            simp only [reclaimedAttempt, hid] }

end Scheduler

end Checkspan
