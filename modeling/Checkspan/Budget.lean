import Checkspan.Replay
import Checkspan.Deps

/-!
# Retry limits and persistent budgets (`src/budget/mod.rs`)

Every started attempt counts: the count is derived from the run's dispatch
events, over this run and every run of its budget lineage.
-/

namespace Checkspan

/-! ### The graph-wide budget -/

structure BudgetStatus where
  totalAttempts : Nat
  consumedHere : Nat
  consumedByLineage : Nat
  lineage : List RunId
  deadline : Option Timestamp
  deadlinePassed : Bool
deriving DecidableEq

def u32Max : Nat := 2 ^ 32 - 1

/-- `u32::saturating_add`. -/
def saturatingAdd (a b : Nat) : Nat := min (a + b) u32Max

/-- Why a node cannot be retried automatically (`budget/mod.rs:73-98`). -/
inductive ExhaustReason where
  | nodeCap (maxAttempts started : Nat)
  | classNotRetryable (cls : FailureClass)
  | graphBudget (total consumed : Nat)
  | deadlinePassed (deadline : Timestamp)
deriving DecidableEq

namespace BudgetStatus

def consumed (b : BudgetStatus) : Nat := saturatingAdd b.consumedHere b.consumedByLineage

def remaining (b : BudgetStatus) : Nat := b.totalAttempts - b.consumed

/-- `exhaustion` (`budget/mod.rs:56-69`). -/
def exhaustion (b : BudgetStatus) : Option ExhaustReason :=
  if b.deadlinePassed then b.deadline.map .deadlinePassed
  else if b.remaining = 0 then some (.graphBudget b.totalAttempts b.consumed)
  else none

end BudgetStatus

/-- The value `json!` builds for a reason. The newtype variant of the internally
tagged enum holds text, which `serde` refuses: `json!` panics there (`none`). -/
def ExhaustReason.toJson : ExhaustReason → Option Json
  | nodeCap cap started => some (.obj [("reason", .str "node_cap"), ("max_attempts", .num cap),
      ("started", .num started)])
  | classNotRetryable cls => some (.obj [("reason", .str "class_not_retryable"),
      ("class", .str cls.asStr)])
  | graphBudget total consumed => some (.obj [("reason", .str "graph_budget"),
      ("total", .num total), ("consumed", .num consumed)])
  | deadlinePassed _ => none

/-- What policy says about the node's next attempt. -/
inductive Disposition where
  | retry (cls : FailureClass) (started maxAttempts : Nat)
  | exhausted (reason : ExhaustReason) (route : OnExhaustion)
deriving DecidableEq

/-! ### Narrowings -/

/-- A retry's narrowing (`budget/mod.rs:146-159`). -/
structure Narrowing where
  repairHint : Option String
  droppedPorts : List Ident
  restrictedSources : List (Ident × List String)
deriving DecidableEq

inductive NarrowingError where
  | unknownPort (port : Ident)
  | requiredPort (port : Ident)
  | duplicatePort (port : Ident)
  | restrictedAndDropped (port : Ident)
  | emptySources (port : Ident)
  | widensScope (port : Ident) (source : String)
deriving DecidableEq

namespace Narrowing

/-- `Narrowing::default()`. -/
def empty : Narrowing := { repairHint := none, droppedPorts := [], restrictedSources := [] }

def checkDropped (node : NodeSpec) : List Ident → List Ident → Except NarrowingError Unit
  | _, [] => .ok ()
  | seen, port :: rest =>
    if port ∈ seen then .error (.duplicatePort port)
    else match node.evidencePorts.find? (fun p => p.name = port) with
      | none => .error (.unknownPort port)
      | some declared =>
        if declared.required then .error (.requiredPort port)
        else checkDropped node (port :: seen) rest

/-- The first port with the given name, its sources replaced. -/
def restrictPort (port : Ident) (sources : List String) : List PortSpec → List PortSpec
  | [] => []
  | p :: rest =>
    if p.name = port then { p with allowedSourceScope := sources } :: rest
    else p :: restrictPort port sources rest

def checkRestricted (dropped : List Ident) :
    List Ident → List PortSpec → List (Ident × List String) →
      Except NarrowingError (List PortSpec)
  | _, ports, [] => .ok ports
  | seen, ports, (port, sources) :: rest =>
    if port ∈ seen then .error (.duplicatePort port)
    else if port ∈ dropped then .error (.restrictedAndDropped port)
    else match ports.find? (fun p => p.name = port) with
      | none => .error (.unknownPort port)
      | some effective =>
        if sources.isEmpty then .error (.emptySources port)
        else match sources.find? (fun s => s ∉ effective.allowedSourceScope) with
          | some source => .error (.widensScope port source)
          | none => checkRestricted dropped (port :: seen) (restrictPort port sources ports) rest

/-- `check_narrowing` (`budget/mod.rs:203-261`). -/
def check (node : NodeSpec) (n : Narrowing) : Except NarrowingError (List PortSpec) := do
  checkDropped node [] n.droppedPorts
  checkRestricted n.droppedPorts [] (node.evidencePorts.filter (fun p => p.name ∉ n.droppedPorts))
    n.restrictedSources

/-- The payload of `retry_allowed` (`budget/mod.rs:469-474`). -/
def payload (n : Narrowing) : Json :=
  .obj [("repair_hint", Json.ofOption (n.repairHint.map .str)),
    ("dropped_ports", .arr (n.droppedPorts.map (·.toJson))),
    ("restricted_sources", .arr (n.restrictedSources.map (fun r =>
      .arr [r.1.toJson, .arr (r.2.map .str)])))]

def decodeString : Json → Option String
  | .str s => some s
  | _ => none

def decodeRestriction : Json → Option (Ident × List String)
  | .arr [port, .arr sources] =>
    match (decodeIdent port).toOption, sources.mapM decodeString with
    | some p, some ss => some (p, ss)
    | _, _ => none
  | _ => none

/-- A list field of the narrowing: empty when absent. -/
def decodeList {α : Type} (decode : Json → Option α) : Option Json → Option (List α)
  | none => some []
  | some (.arr items) => items.mapM decode
  | some _ => none

def decodeHint : Option Json → Option (Option String)
  | none => some none
  | some .null => some none
  | some (.str s) => some (some s)
  | some _ => none

/-- `serde_json::from_value::<Narrowing>(..).ok()`: unknown fields are refused. -/
def ofJson : Json → Option Narrowing
  | .obj fields =>
    if fields.all (fun f =>
        f.1 = "repair_hint" || f.1 = "dropped_ports" || f.1 = "restricted_sources") then
      match decodeHint (fields.lookup "repair_hint"),
        decodeList (fun j => (decodeIdent j).toOption) (fields.lookup "dropped_ports"),
        decodeList decodeRestriction (fields.lookup "restricted_sources") with
      | some hint, some dropped, some restricted => some ⟨hint, dropped, restricted⟩
      | _, _, _ => none
    else none
  | _ => none

/-- One event of the loop of `pending_narrowing` (`budget/mod.rs:519-539`). -/
def pendingStep (id : NodeId) (pending : Option Narrowing) (e : StoredEvent) : Option Narrowing :=
  if e.nodeId ≠ some id then pending
  else if e.kind = kinds.retryAllowed then ofJson e.payload
  else if e.kind = kinds.attemptDispatched then none
  else pending

def pending (events : List StoredEvent) (id : NodeId) : Option Narrowing :=
  events.foldl (pendingStep id) none

end Narrowing

/-! ### Errors -/

/-- Why a budget operation failed (`budget/mod.rs:263-283`). `panicked` is the
`json!` panic on a passed deadline; the transaction is rolled back. -/
inductive BudgetError where
  | store (error : StoreError)
  | transition (error : TransitionError)
  | narrowing (error : NarrowingError)
  | noOutcome (node : NodeId) (status : NodeStatus)
  | invalid (what : String)
  | panicked
deriving DecidableEq

namespace Budget

/-! ### `budget_status` (`budget/mod.rs:325-369`) -/

/-- The walk along `budget_lineage_ref`, at most `fuel` steps. Every step finds a
stored run it has not seen, so the number of stored runs bounds it. -/
def lineageLoop (s : Store) (run : RunId) :
    Nat → List RunId → List RunId → Nat → Option RunId → Except BudgetError (Nat × List RunId)
  | _, _, lineage, consumed, none => .ok (consumed, lineage)
  | 0, _, _, _, some _ => .error (.invalid "budget lineage is longer than the ledger")
  | fuel + 1, seen, lineage, consumed, some ancestorId =>
    if ancestorId ∈ seen then
      .error (.invalid ("budget lineage of run " ++ run.text ++ " loops through " ++
        ancestorId.text))
    else match s.run ancestorId with
      | .error e => .error (.store e)
      | .ok none => .error (.invalid ("budget lineage of run " ++ run.text ++
          " names unknown run " ++ ancestorId.text))
      | .ok (some ancestor) =>
        lineageLoop s run fuel (ancestorId :: seen) (lineage ++ [ancestorId])
          (saturatingAdd consumed (s.dispatchCount ancestorId)) ancestor.budgetLineageRef

def status (s : Store) (spec : GraphSpec) (run : GraphRun) (now : Timestamp) :
    Except BudgetError BudgetStatus := do
  let (consumed, lineage) ←
    lineageLoop s run.runId (s.runs.length + 1) [run.runId] [] 0 run.budgetLineageRef
  .ok { totalAttempts := spec.budget.totalAttempts
        consumedHere := s.dispatchCount run.runId
        consumedByLineage := consumed
        lineage := lineage
        deadline := spec.budget.deadline
        deadlinePassed := match spec.budget.deadline with
          | some d => !now.isBefore d
          | none => false }

/-! ### Dispositions (`budget/mod.rs:371-438`) -/

/-- `failure_class`: a failure is a timeout exactly when its sealed attempt says so. -/
def failureClass (s : Store) (run : RunId) (id : NodeId) (state : NodeState) :
    Except BudgetError (Option FailureClass) :=
  match state.status with
  | .rejected => .ok (some .rejected)
  | .failed => do
    let number := match state.currentAttempt with
      | some n => n.get
      | none => 0
    let sealedRow ← (s.attempt run id number).mapError .store
    let outcome : Option ExecutionOutcome :=
      (sealedRow.bind (fun a => a.execution)).map (fun e => e.outcome)
    .ok (some (if outcome = some .timedOut then .timeout else .infrastructure))
  | _ => .ok none

def disposition (s : Store) (spec : GraphSpec) (run : GraphRun) (state : NodeState)
    (node : NodeSpec) (now : Timestamp) : Except BudgetError Disposition := do
  let found ← failureClass s run.runId node.id state
  let cls ← someOr found (.noOutcome node.id state.status)
  let policy := node.retryPolicy
  if cls ∉ policy.allowedFailureClasses then
    .ok (.exhausted (.classNotRetryable cls) policy.onExhaustion)
  else if state.attemptsStarted ≥ policy.maxAttempts then
    .ok (.exhausted (.nodeCap policy.maxAttempts state.attemptsStarted) policy.onExhaustion)
  else do
    let budget ← status s spec run now
    match budget.exhaustion with
    | some reason => .ok (.exhausted reason policy.onExhaustion)
    | none => .ok (.retry cls state.attemptsStarted policy.maxAttempts)

/-! ### `apply_retry_policy` (`budget/mod.rs:440-517`) -/

variable (rt : Runtime)

def exhaustedPayload (reason : ExhaustReason) : Option Json :=
  reason.toJson.map (fun j => .obj [("exhausted", j)])

/-- The write a disposition makes: a permitted retry or the cancel route. -/
def applyDisposition (s : Store) (run : GraphRun) (node : NodeSpec) (state : NodeState)
    (narrowing : Narrowing) (decision : Disposition) : Except BudgetError Store :=
  match decision with
  | .retry _ _ _ => do
    let _ ← (narrowing.check node).mapError .narrowing
    let _ ← (state.apply .retryAllowed).mapError .transition
    (s.appendEvent rt run.runId (some node.id) kinds.retryAllowed narrowing.payload).mapError .store
  | .exhausted reason .cancel => do
    let _ ← (state.apply .cancelled).mapError .transition
    let payload ← someOr (exhaustedPayload reason) .panicked
    (s.appendEvent rt run.runId (some node.id) kinds.nodeCancelled payload).mapError .store
  | .exhausted _ .gate => .ok s

/-- The replay a transaction starts from, and the state of one node in it. -/
def replayNode (s : Store) (spec : GraphSpec) (run : GraphRun) (id : NodeId) :
    Except BudgetError NodeState := do
  let state ← (RunState.replay run.runId spec (s.eventsOf run.runId)).mapError .transition
  someOr (state.node id) (.invalid ("node " ++ id.text ++ " is not in the graph"))

def applyRetryPolicy (s : Store) (spec : GraphSpec) (run : GraphRun) (id : NodeId)
    (narrowing : Narrowing) (now : Timestamp) : Except BudgetError (Disposition × Store) := do
  let node ← someOr (spec.findNode id) (.invalid ("node " ++ id.text ++ " is not in the graph"))
  let state ← replayNode s spec run id
  let decision ← disposition s spec run state node now
  let s' ← applyDisposition rt s run node state narrowing decision
  .ok (decision, s')

/-! ### What the policy does -/

theorem replayNode_ok {s : Store} {spec : GraphSpec} {run : GraphRun} {id : NodeId}
    {state : NodeState} (h : replayNode s spec run id = .ok state) :
    ∃ st, RunState.replay run.runId spec (s.eventsOf run.runId) = .ok st ∧
      st.node id = some state := by
  unfold replayNode at h
  obtain ⟨st, hst, h⟩ := bind_ok h
  exact ⟨st, mapError_ok hst, someOr_ok h⟩

/-- What one application of the policy wrote: the event it checked, or nothing. -/
inductive Applied (s : Store) (run : GraphRun) (id : NodeId) (state : NodeState) :
    Disposition → Store → Prop
  | retry {cls : FailureClass} {started cap : Nat} (payload : Json) (next : NodeState)
      (hap : state.apply .retryAllowed = .ok next) :
      Applied s run id state (.retry cls started cap)
        { s with events := s.events ++
            [s.nextEvent run.runId (some id) kinds.retryAllowed payload] }
  | cancel {reason : ExhaustReason} (payload : Json) (next : NodeState)
      (hap : state.apply .cancelled = .ok next) :
      Applied s run id state (.exhausted reason .cancel)
        { s with events := s.events ++
            [s.nextEvent run.runId (some id) kinds.nodeCancelled payload] }
  | gate {reason : ExhaustReason} : Applied s run id state (.exhausted reason .gate) s

theorem applyDisposition_ok {s s' : Store} {run : GraphRun} {node : NodeSpec} {state : NodeState}
    {narrowing : Narrowing} {decision : Disposition}
    (h : applyDisposition rt s run node state narrowing decision = .ok s') :
    Applied s run node.id state decision s' := by
  unfold applyDisposition at h
  split at h
  · obtain ⟨_, -, h⟩ := bind_ok h
    obtain ⟨next, hap, h⟩ := bind_ok h
    obtain ⟨-, rfl⟩ := Store.appendEvent_ok rt (mapError_ok h)
    exact Applied.retry _ next (mapError_ok hap)
  · obtain ⟨next, hap, h⟩ := bind_ok h
    obtain ⟨payload, -, h⟩ := bind_ok h
    obtain ⟨-, rfl⟩ := Store.appendEvent_ok rt (mapError_ok h)
    exact Applied.cancel payload next (mapError_ok hap)
  · cases h
    exact Applied.gate

theorem applyRetryPolicy_ok {s s' : Store} {spec : GraphSpec} {run : GraphRun} {id : NodeId}
    {narrowing : Narrowing} {now : Timestamp} {decision : Disposition}
    (h : applyRetryPolicy rt s spec run id narrowing now = .ok (decision, s')) :
    ∃ node st state, spec.findNode id = some node ∧
      RunState.replay run.runId spec (s.eventsOf run.runId) = .ok st ∧
      st.node id = some state ∧ disposition s spec run state node now = .ok decision ∧
      Applied s run id state decision s' := by
  unfold applyRetryPolicy at h
  obtain ⟨node, hnode, h⟩ := bind_ok h
  obtain ⟨state, hstate, h⟩ := bind_ok h
  obtain ⟨decision', hdec, h⟩ := bind_ok h
  obtain ⟨s₁, hs₁, h⟩ := bind_ok h
  cases h
  obtain ⟨st, hst, hs⟩ := replayNode_ok hstate
  have hid := GraphSpec.findNode_id (someOr_ok hnode)
  refine ⟨node, st, state, someOr_ok hnode, hst, hs, hdec, ?_⟩
  rw [← hid]
  exact applyDisposition_ok rt hs₁

/-! ### The budget that lets an attempt start -/

theorem remaining_pos {b : BudgetStatus} (h : b.exhaustion = none)
    (hd : b.deadlinePassed = true → b.deadline ≠ none) : 0 < b.remaining := by
  unfold BudgetStatus.exhaustion at h
  split at h
  · rename_i hp
    rw [Option.map_eq_none_iff] at h
    exact absurd h (hd hp)
  · split at h
    · cases h
    · rename_i hrem
      omega

theorem status_deadline {s : Store} {spec : GraphSpec} {run : GraphRun} {now : Timestamp}
    {b : BudgetStatus} (h : status s spec run now = .ok b) :
    b.totalAttempts = spec.budget.totalAttempts ∧ b.consumedHere = s.dispatchCount run.runId ∧
      (b.deadlinePassed = true → b.deadline ≠ none) := by
  unfold status at h
  obtain ⟨⟨consumed, lineage⟩, -, h⟩ := bind_ok h
  cases h
  refine ⟨rfl, rfl, ?_⟩
  intro hp hd
  simp only at hp hd
  rw [hd] at hp
  cases hp

/-- With room left in the budget, fewer attempts were dispatched than a `u32`
counts. -/
theorem dispatched_lt_of_remaining {s : Store} {spec : GraphSpec} {run : GraphRun}
    {now : Timestamp} {b : BudgetStatus} (h : status s spec run now = .ok b)
    (hex : b.exhaustion = none) :
    (s.eventsOf run.runId).countP (fun e => e.kind = kinds.attemptDispatched) + 1 < 2 ^ 32 := by
  obtain ⟨htotal, hhere, hd⟩ := status_deadline h
  have hpos := remaining_pos hex hd
  have hbound := spec.budget.bound
  have hcons : b.consumed = min (b.consumedHere + b.consumedByLineage) u32Max := rfl
  have hcount : b.consumedHere = min ((s.eventsOf run.runId).countP
      (fun e => e.kind = kinds.attemptDispatched)) (2 ^ 32 - 1) := hhere
  have hmax : u32Max = 2 ^ 32 - 1 := rfl
  unfold BudgetStatus.remaining at hpos
  omega

end Budget

end Checkspan
