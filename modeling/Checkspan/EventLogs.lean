import Checkspan.Lib.Keyed
import Checkspan.NodeRuns

/-!
# What an event log says (`src/state/mod.rs`)

A stored payload decodes to the event that wrote it, whatever fields an operation added
beside it. The events of one node cannot be put in another order, and those of different
nodes can be put in any: the replay of a run is the replay of its nodes.
-/

namespace Checkspan

/-! ### Payloads with further fields -/

namespace Json

/-- `payload[key] = value` for each of `extra`, in order. -/
def withFields (p : Json) (extra : List (String × Json)) : Json :=
  extra.foldl (fun p f => p.set f.1 f.2) p

theorem lookup_filter_other {name key : String} (h : name ≠ key) (fields : List (String × Json)) :
    (fields.filter (fun f => f.1 != key)).lookup name = fields.lookup name := by
  induction fields with
  | nil => rfl
  | cons f fields ih =>
    obtain ⟨k, v⟩ := f
    by_cases hk : k = key
    · subst hk
      have hother : (name == k) = false := beq_eq_false_iff_ne.mpr h
      rw [List.filter_cons_of_neg (by simp), ih, List.lookup_cons, hother]
    · rw [List.filter_cons_of_pos (by simpa using hk), List.lookup_cons, List.lookup_cons, ih]

theorem lookup_append_other {name key : String} (h : name ≠ key) (v : Json)
    (fields : List (String × Json)) :
    (fields ++ [(key, v)]).lookup name = fields.lookup name := by
  have hother : (name == key) = false := beq_eq_false_iff_ne.mpr h
  induction fields with
  | nil => rw [List.nil_append, List.lookup_cons, hother]
  | cons f fields ih =>
    obtain ⟨k, w⟩ := f
    rw [List.cons_append, List.lookup_cons, List.lookup_cons, ih]

theorem get_set_other {p : Json} {name key : String} (h : name ≠ key) (v : Json) :
    (p.set key v).get name = p.get name := by
  cases p with
  | obj fields => rw [set_obj, get_obj, get_obj, lookup_append_other h, lookup_filter_other h]
  | null | bool | num | float | str | arr => rfl

/-- A field that no further one overwrites stays. -/
theorem getNonNull_withFields {p : Json} {name : String} {extra : List (String × Json)}
    (h : ∀ f ∈ extra, name ≠ f.1) : (p.withFields extra).getNonNull name = p.getNonNull name := by
  have hget : (p.withFields extra).get name = p.get name := by
    unfold withFields
    induction extra generalizing p with
    | nil => rfl
    | cons f extra ih =>
      rw [List.foldl_cons, ih (fun g hg => h g (List.mem_cons_of_mem f hg)),
        get_set_other (h f List.mem_cons_self)]
  unfold getNonNull
  rw [hget]

end Json

namespace NodeEvent

/-- Fields of other names leave a payload's event in it. -/
theorem carried_withFields {e : NodeEvent} {extra : List (String × Json)}
    (h : ∀ f ∈ extra, e.payload.get f.1 = none) : e.CarriedBy (e.payload.withFields extra) := by
  have hkept : ∀ name, e.payload.get name ≠ none →
      (e.payload.withFields extra).getNonNull name = e.payload.getNonNull name := by
    intro name hname
    refine Json.getNonNull_withFields (fun f hf heq => hname ?_)
    rw [heq]
    exact h f hf
  have hcarried := e.payload_carries
  cases e with
  | dispatched k => exact (hkept "number" (by simp [payload])).trans hcarried
  | executionFinished k o d =>
    exact ⟨(hkept "number" (by simp [payload])).trans hcarried.1,
      (hkept "outcome" (by simp [payload])).trans hcarried.2.1,
      (hkept "result_digest" (by simp [payload])).trans hcarried.2.2⟩
  | receiptAdmitted k r v =>
    exact ⟨(hkept "number" (by simp [payload])).trans hcarried.1,
      (hkept "receipt_id" (by simp [payload])).trans hcarried.2.1,
      (hkept "verdict" (by simp [payload])).trans hcarried.2.2⟩
  | gateOpened packet => exact (hkept "packet_id" (by simp [payload])).trans hcarried
  | decisionAdmitted packet d =>
    exact ⟨(hkept "packet_id" (by simp [payload])).trans hcarried.1,
      (hkept "decision" (by simp [payload])).trans hcarried.2⟩
  | retryAllowed => trivial
  | cancelled => trivial

/-- The event names no receipt of another run or node. -/
def OwnReceipt (run : RunId) (node : NodeRef) (e : NodeEvent) : Prop :=
  ∀ k r v, e = receiptAdmitted k r v → r.runId = run ∧ r.node = node

theorem OwnReceipt.inRun_eq {run : RunId} {node : NodeRef} {e : NodeEvent}
    (h : e.OwnReceipt run node) : e.inRun run node = e := by
  cases e with
  | receiptAdmitted k r v =>
    obtain ⟨rfl, rfl⟩ := h k r v rfl
    rfl
  | dispatched | executionFinished | gateOpened | decisionAdmitted | retryAllowed | cancelled => rfl

end NodeEvent

/-- A stored event of an event's kind and payload decodes to that event, also with fields
of other names beside it. -/
theorem payload_decodes {run : RunId} {node : NodeRef} {e : NodeEvent}
    (hown : e.OwnReceipt run node) {extra : List (String × Json)}
    (hextra : ∀ f ∈ extra, e.payload.get f.1 = none) (seq : Nat) (id : NodeId) :
    NodeEvent.fromStored ⟨seq, run, some id, e.kind, e.payload⟩ node = .ok e ∧
    NodeEvent.fromStored ⟨seq, run, some id, e.kind, e.payload.withFields extra⟩ node =
      .ok e := by
  have hplain := NodeEvent.fromStored_of_carried seq run id node e.payload_carries
  have hmore := NodeEvent.fromStored_of_carried seq run id node
    (NodeEvent.carried_withFields hextra)
  rw [hown.inRun_eq] at hplain hmore
  exact ⟨hplain, hmore⟩

/-- The fields a claim adds to a dispatch beside its number. -/
def dispatchExtras : List (String × Json) := [("owner", .str "ctl-1"), ("fence", .num 1)]

theorem payload_decodes_dispatch :
    NodeEvent.fromStored ⟨1, roadReceipt.runId, some roadReceipt.node.nodeId,
      kinds.attemptDispatched, (NodeEvent.dispatched .first).payload.withFields dispatchExtras⟩
      roadReceipt.node = .ok (.dispatched .first) :=
  (payload_decodes (e := .dispatched .first) (fun _ _ _ h => by cases h)
    (by simp [dispatchExtras, NodeEvent.payload]) 1 roadReceipt.node.nodeId).2

/-! ### The order of one node's events -/

namespace NodeState

/-- Where a node is between two events. -/
inductive Phase where
  | ready
  | executing
  | checking
  | stopped
  | unpacketed
  | waiting
  | done
deriving DecidableEq

def phase (s : NodeState) : Phase :=
  if s.status = .open then .ready
  else if s.status = .running then (if s.checking then .checking else .executing)
  else if s.status = .rejected ∨ s.status = .failed then .stopped
  else if s.status = .gated then (if s.waitingOnGate.isSome then .waiting else .unpacketed)
  else .done

end NodeState

/-- The phases an event other than a cancellation is legal in. -/
def NodeEvent.phases : NodeEvent → List NodeState.Phase
  | .dispatched _ => [.ready]
  | .executionFinished _ _ _ => [.executing]
  | .receiptAdmitted _ _ _ => [.checking]
  | .gateOpened _ => [.stopped, .unpacketed]
  | .decisionAdmitted _ _ => [.waiting]
  | .retryAllowed => [.stopped]
  | .cancelled => []

namespace NodeState

theorem phase_of_stopped {s : NodeState} (h : s.status = .rejected ∨ s.status = .failed) :
    s.phase = .stopped := by
  rcases h with hs | hs <;> simp [phase, hs]

/-- An event is legal only in its phases, or it cancels. -/
theorem Step.mem_phases {s s' : NodeState} {e : NodeEvent} (h : Step s e s')
    (he : e ≠ .cancelled) : s.phase ∈ e.phases := by
  cases h with
  | dispatch k hs hk => simp [phase, hs, NodeEvent.phases]
  | finish k o d hs hk hc => simp [phase, hs, hc, NodeEvent.phases]
  | decide k r v hs hk hc => simp [phase, hs, hc, NodeEvent.phases]
  | retry hs => simp [phase_of_stopped hs, NodeEvent.phases]
  | gate p hs => simp [phase_of_stopped hs, NodeEvent.phases]
  | packet p hs hw => simp [phase, hs, hw, NodeEvent.phases]
  | route p d hs hw => simp [phase, hs, hw, NodeEvent.phases]
  | cancelOpen | cancelRunning | cancelStopped => exact absurd rfl he

/-- Where a step leads. Nothing leads back to the phase it came from. -/
inductive Phase.Leads : Phase → Phase → Prop
  | dispatch : Leads .ready .executing
  | finish : Leads .executing .checking
  | fail : Leads .executing .stopped
  | reject : Leads .checking .stopped
  | doubt : Leads .checking .unpacketed
  | retry : Leads .stopped .ready
  | gate : Leads .stopped .waiting
  | packet : Leads .unpacketed .waiting
  | reopen : Leads .waiting .ready
  | done (p : Phase) : Leads p .done

theorem Step.leads {s s' : NodeState} {e : NodeEvent} (h : Step s e s') :
    Phase.Leads s.phase s'.phase := by
  cases h with
  | dispatch k hs hk =>
    have hp : s.phase = .ready := by simp [phase, hs]
    rw [hp]
    exact .dispatch
  | finish k o d hs hk hc =>
    have hp : s.phase = .executing := by simp [phase, hs, hc]
    rw [hp]
    cases o with
    | completed =>
      have hp' : (s.finish .completed).phase = .checking := by simp [phase, NodeState.finish, hs]
      rw [hp']
      exact .finish
    | failed | timedOut => exact .fail
    | cancelled => exact .done _
  | decide k r v hs hk hc =>
    have hp : s.phase = .checking := by simp [phase, hs, hc]
    rw [hp]
    cases v with
    | accept => exact .done _
    | reject => exact .reject
    | undecidable => exact .doubt
  | retry hs =>
    rw [phase_of_stopped hs]
    exact .retry
  | gate p hs =>
    rw [phase_of_stopped hs]
    exact .gate
  | packet p hs hw =>
    have hp : s.phase = .unpacketed := by simp [phase, hs, hw]
    have hp' : ({ s with waitingOnGate := some p } : NodeState).phase = .waiting := by
      simp [phase, hs]
    rw [hp, hp']
    exact .packet
  | route p d hs hw =>
    have hp : s.phase = .waiting := by simp [phase, hs, hw]
    rw [hp]
    cases d with
    | cancel | revise => exact .done _
    | retry | approveAction | denyAction | recordAssessment => exact .reopen
  | cancelOpen | cancelRunning | cancelStopped => exact .done _

/-- An event that a step made legal was not legal before it. -/
theorem Phase.Leads.not_both {p q : Phase} (h : Leads p q) (e : NodeEvent) :
    ¬ (p ∈ e.phases ∧ q ∈ e.phases) := by
  rintro ⟨hp, hq⟩
  cases h <;> cases e <;> simp [NodeEvent.phases] at hp hq

/-- Nothing follows a cancellation. -/
theorem Step.not_after_cancelled {s t t' : NodeState} {e : NodeEvent} (h : Step s .cancelled t) :
    ¬ Step t e t' := by
  intro hnext
  have ht : t.isTerminal = true := by
    cases h <;> rfl
  exact terminal_refuses ht (step_apply hnext)

/-- Of two events that follow one another, the second was not legal in the place of the
first with the first still legal after it. -/
theorem Step.not_swapped {s s₁ s₂ t₁ t₂ : NodeState} {a b : NodeEvent} (ha : Step s a s₁)
    (hb : Step s₁ b s₂) (hb' : Step s b t₁) : ¬ Step t₁ a t₂ := by
  intro ha'
  by_cases hcancel : b = .cancelled
  · subst hcancel
    exact hb'.not_after_cancelled ha'
  · exact ha.leads.not_both b ⟨hb'.mem_phases hcancel, hb.mem_phases hcancel⟩

theorem replay_pair {before after : List NodeEvent} {a b : NodeEvent} {s : NodeState}
    (h : replay (before ++ a :: b :: after) = .ok s) :
    ∃ s₀ s₁ s₂, replay before = .ok s₀ ∧ Step s₀ a s₁ ∧ Step s₁ b s₂ := by
  obtain ⟨s₀, hbefore, hrest⟩ := replay_append h
  obtain ⟨s₁, ha, hrest⟩ := Keyed.foldlM_cons_ok.mp hrest
  obtain ⟨s₂, hb, -⟩ := Keyed.foldlM_cons_ok.mp hrest
  exact ⟨s₀, s₁, s₂, hbefore, apply_step ha, apply_step hb⟩

end NodeState

/-- Adjacent events of a history that replays differ, and the history with the two
exchanged is refused. -/
theorem adjacent_events_ordered {before after : List NodeEvent} {a b : NodeEvent} {s : NodeState}
    (h : NodeState.replay (before ++ a :: b :: after) = .ok s) :
    a ≠ b ∧ ∀ s', NodeState.replay (before ++ b :: a :: after) ≠ .ok s' := by
  obtain ⟨s₀, s₁, s₂, hbefore, ha, hb⟩ := NodeState.replay_pair h
  constructor
  · rintro rfl
    exact ha.not_swapped hb ha hb
  · intro s' hswapped
    obtain ⟨t₀, t₁, t₂, hbefore', hb', ha'⟩ := NodeState.replay_pair hswapped
    rw [hbefore] at hbefore'
    cases hbefore'
    exact ha.not_swapped hb hb' ha'

theorem adjacent_events_ordered_road :
    NodeEvent.dispatched .first ≠ .executionFinished .first .completed none ∧
    ∀ s', NodeState.replay ([.executionFinished .first .completed none, .dispatched .first] ++
      [.receiptAdmitted .first roadReceipt .accept]) ≠ .ok s' :=
  @adjacent_events_ordered [] [.receiptAdmitted .first roadReceipt .accept]
    (.dispatched .first) (.executionFinished .first .completed none)
    { status := .accepted, currentAttempt := some .first, attemptsStarted := 1
      checking := false, receipt := some roadReceipt, waitingOnGate := none } rfl

/-! ### The logs of different nodes -/

/-- A run-level event, or one of a known node that decodes. -/
def StoredEvent.Decodes (nodes : NodeId → Option NodeRef) (e : StoredEvent) : Prop :=
  ∀ id, e.nodeId = some id → ∃ node ev, nodes id = some node ∧
    NodeEvent.fromStored e node = .ok ev

/-- What a stored event says of which node, when it decodes. -/
def StoredEvent.decoded (nodes : NodeId → Option NodeRef) (e : StoredEvent) :
    Option (NodeId × NodeEvent) :=
  e.nodeId.bind (fun id => (nodes id).bind (fun node =>
    (NodeEvent.fromStored e node).toOption.map (fun ev => (id, ev))))

/-- The events of one node, decoded in log order. -/
def nodeEvents (id : NodeId) (node : NodeRef) (events : List StoredEvent) : List NodeEvent :=
  (events.filter (fun e => e.nodeId = some id)).filterMap
    (fun e => (NodeEvent.fromStored e node).toOption)

theorem StoredEvent.decoded_eq {nodes : NodeId → Option NodeRef} {e : StoredEvent} {id : NodeId}
    {node : NodeRef} {ev : NodeEvent} (hid : e.nodeId = some id) (hnode : nodes id = some node)
    (hev : NodeEvent.fromStored e node = .ok ev) : e.decoded nodes = some (id, ev) := by
  rw [decoded, hid, Option.bind_some, hnode, Option.bind_some, hev]
  rfl

theorem StoredEvent.decoded_some {nodes : NodeId → Option NodeRef} {e : StoredEvent} {id : NodeId}
    {ev : NodeEvent} (h : e.decoded nodes = some (id, ev)) :
    e.nodeId = some id ∧ ∃ node, nodes id = some node := by
  obtain ⟨other, hother, h⟩ := Option.bind_eq_some_iff.mp h
  obtain ⟨node, hnode, h⟩ := Option.bind_eq_some_iff.mp h
  obtain ⟨_, -, h⟩ := Option.map_eq_some_iff.mp h
  obtain ⟨rfl, -⟩ := Prod.mk.inj h
  exact ⟨hother, node, hnode⟩

theorem eventsAt_decoded {nodes : NodeId → Option NodeRef} {id : NodeId} {node : NodeRef}
    (hnode : nodes id = some node) (events : List StoredEvent) :
    Keyed.eventsAt id (events.filterMap (·.decoded nodes)) = nodeEvents id node events := by
  unfold Keyed.eventsAt nodeEvents
  rw [List.filterMap_filterMap, List.filterMap_filter]
  congr 1
  funext e
  by_cases hid : e.nodeId = some id
  · rw [if_pos (decide_eq_true hid)]
    cases hev : NodeEvent.fromStored e node with
    | ok ev =>
      rw [StoredEvent.decoded_eq hid hnode hev, Option.bind_some, if_pos rfl]
      rfl
    | error err =>
      rw [StoredEvent.decoded, hid, Option.bind_some, hnode, Option.bind_some, hev]
      rfl
  · rw [if_neg (by simpa using hid)]
    cases hdec : e.decoded nodes with
    | none => rfl
    | some found =>
      obtain ⟨other, ev⟩ := found
      have hother : other ≠ id := by
        rintro rfl
        exact hid (StoredEvent.decoded_some hdec).1
      rw [Option.bind_some, if_neg hother]

/-- Nothing is said of a node that is not known. -/
theorem eventsAt_unknown {nodes : NodeId → Option NodeRef} {id : NodeId} (hnode : nodes id = none)
    (events : List StoredEvent) : Keyed.eventsAt id (events.filterMap (·.decoded nodes)) = [] := by
  unfold Keyed.eventsAt
  rw [List.filterMap_eq_nil_iff]
  intro found hfound
  obtain ⟨e, -, hdec⟩ := List.mem_filterMap.mp hfound
  obtain ⟨other, ev⟩ := found
  refine if_neg ?_
  rintro rfl
  obtain ⟨-, node, hsome⟩ := StoredEvent.decoded_some hdec
  rw [hnode] at hsome
  cases hsome

namespace RunState

variable {st st' : RunState} {events : List StoredEvent}

theorem replayFrom_cons_ok {e : StoredEvent} : st.replayFrom (e :: events) = .ok st' ↔
    ∃ mid, st.applyStored e = .ok mid ∧ mid.replayFrom events = .ok st' := by
  rw [replayFrom]
  cases st.applyStored e with
  | error err => simp
  | ok mid => simp

/-- The replay of a log is the fold of what its events decode to. -/
theorem replayFrom_ok_iff : st.replayFrom events = .ok st' ↔
    (∀ e ∈ events, e.Decodes st.nodes) ∧ ∃ m, Keyed.fold NodeState.apply .unknownNode st.states
      (events.filterMap (·.decoded st.nodes)) = .ok m ∧ st' = { st with states := m } := by
  induction events generalizing st with
  | nil =>
    constructor
    · intro h
      cases h
      exact ⟨fun _ he => absurd he List.not_mem_nil, _, rfl, rfl⟩
    · rintro ⟨-, m, hm, rfl⟩
      cases hm
      rfl
  | cons e events ih =>
    rw [replayFrom_cons_ok]
    constructor
    · rintro ⟨mid, hmid, hrest⟩
      obtain ⟨hdecodes, m, hm, rfl⟩ := ih.mp hrest
      rcases applyStored_ok hmid with ⟨hnone, rfl⟩ | ⟨id, node, ev, s, s', hid, hnode, hev, hs, hap,
        rfl⟩
      · have hskip : e.decoded mid.nodes = none := by rw [StoredEvent.decoded, hnone]; rfl
        refine ⟨List.forall_mem_cons.mpr ⟨?_, hdecodes⟩, m, ?_, rfl⟩
        · intro id hid
          rw [hnone] at hid
          cases hid
        · rw [List.filterMap_cons_none hskip]
          exact hm
      · refine ⟨List.forall_mem_cons.mpr ⟨?_, hdecodes⟩, m, ?_, rfl⟩
        · intro other hother
          obtain rfl := Option.some.inj (hid.symm.trans hother)
          exact ⟨node, ev, hnode, hev⟩
        · rw [List.filterMap_cons_some (StoredEvent.decoded_eq hid hnode hev)]
          exact Keyed.foldlM_cons_ok.mpr
            ⟨_, Keyed.stepAt_ok.mpr ⟨s, s', hs, hap, rfl⟩, hm⟩
    · rintro ⟨hdecodes, m, hm, rfl⟩
      obtain ⟨he, hdecodes⟩ := List.forall_mem_cons.mp hdecodes
      cases hid : e.nodeId with
      | none =>
        have hskip : e.decoded st.nodes = none := by rw [StoredEvent.decoded, hid]; rfl
        rw [List.filterMap_cons_none hskip] at hm
        refine ⟨st, ?_, ih.mpr ⟨hdecodes, m, hm, rfl⟩⟩
        rw [applyStored, hid]
      | some id =>
        obtain ⟨node, ev, hnode, hev⟩ := he id hid
        rw [List.filterMap_cons_some (StoredEvent.decoded_eq hid hnode hev)] at hm
        obtain ⟨mid, hmid, hm⟩ := Keyed.foldlM_cons_ok.mp hm
        obtain ⟨s, s', hs, hap, rfl⟩ := Keyed.stepAt_ok.mp hmid
        refine ⟨st.insert id s', ?_, ih.mpr ⟨hdecodes, m, hm, rfl⟩⟩
        simp only [applyStored, hid, hnode, hev, RunState.apply, hs, hap, Except.map]

/-- What a replayed run consists of: every event decoded, and each node of the graph in
the state its own events replay to. -/
structure Product (runId : RunId) (spec : GraphSpec) (events : List StoredEvent) (st : RunState) :
    Prop where
  runId_eq : st.runId = runId
  nodes_eq : st.nodes = spec.nodeRef
  decodes : ∀ e ∈ events, e.Decodes spec.nodeRef
  unknown : ∀ id, spec.nodeRef id = none → st.node id = none
  known : ∀ id node, spec.nodeRef id = some node →
    ∃ s, NodeState.replay (nodeEvents id node events) = .ok s ∧ st.node id = some s

theorem new_states {runId : RunId} {spec : GraphSpec} (id : NodeId) :
    (new runId spec).states id = (spec.nodeRef id).map (fun _ => NodeState.initial) := by
  rw [GraphSpec.nodeRef, Option.map_map]
  rfl

theorem replay_ok_iff {runId : RunId} {spec : GraphSpec} :
    replay runId spec events = .ok st ↔ Product runId spec events st := by
  unfold replay
  rw [replayFrom_ok_iff]
  constructor
  · rintro ⟨hdecodes, m, hm, rfl⟩
    have hfolds := Keyed.fold_ok_iff.mp hm
    refine ⟨rfl, rfl, hdecodes, ?_, ?_⟩
    · intro id hid
      refine ((hfolds id).unknown ?_).2
      rw [new_states, hid]
      rfl
    · intro id node hid
      obtain ⟨s, hs, hafter⟩ := (hfolds id).known NodeState.initial (by rw [new_states, hid]; rfl)
      have hnode : (new runId spec).nodes id = some node := hid
      rw [eventsAt_decoded hnode] at hs
      exact ⟨s, hs, hafter⟩
  · intro h
    refine ⟨h.decodes, st.states, Keyed.fold_ok_iff.mpr ?_, ?_⟩
    · intro id
      cases hid : spec.nodeRef id with
      | none =>
        have hnode : (new runId spec).nodes id = none := hid
        rw [eventsAt_unknown hnode, new_states, hid]
        have hnone : st.states id = none := h.unknown id hid
        rw [hnone]
        exact Keyed.foldsTo_nil _
      | some node =>
        have hnode : (new runId spec).nodes id = some node := hid
        rw [eventsAt_decoded hnode, new_states, hid]
        obtain ⟨s, hs, hafter⟩ := h.known id node hid
        refine ⟨fun hnone => (by cases hnone), ?_⟩
        intro t ht
        cases ht
        exact ⟨s, hs, hafter⟩
    · obtain ⟨runId', nodes, states⟩ := st
      obtain rfl : runId' = runId := h.runId_eq
      obtain rfl : nodes = spec.nodeRef := h.nodes_eq
      rfl

/-- A log with the same events of each node has the same product. -/
theorem Product.reorder {runId : RunId} {spec : GraphSpec} {other : List StoredEvent}
    (h : Product runId spec events st)
    (hsame : ∀ id, other.filter (fun e => e.nodeId = some id) =
      events.filter (fun e => e.nodeId = some id)) : Product runId spec other st where
  runId_eq := h.runId_eq
  nodes_eq := h.nodes_eq
  decodes := by
    intro e he id hid
    have hmem : e ∈ other.filter (fun e => e.nodeId = some id) :=
      List.mem_filter.mpr ⟨he, decide_eq_true hid⟩
    rw [hsame id] at hmem
    exact h.decodes e (List.mem_filter.mp hmem).1 id hid
  unknown := h.unknown
  known := by
    intro id node hid
    unfold nodeEvents
    rw [hsame id]
    exact h.known id node hid

end RunState

/-- A run replays exactly when its node events decode and each node's own events replay;
the state of each node is then what they replay to, and a log with the same events of
each node replays to the same run. -/
theorem run_replay_product (runId : RunId) (spec : GraphSpec) (events : List StoredEvent) :
    ((∃ st, RunState.replay runId spec events = .ok st) ↔
      (∀ e ∈ events, e.Decodes spec.nodeRef) ∧ ∀ id node, spec.nodeRef id = some node →
        ∃ s, NodeState.replay (nodeEvents id node events) = .ok s) ∧
    (∀ st, RunState.replay runId spec events = .ok st → ∀ id node, spec.nodeRef id = some node →
      ∃ s, NodeState.replay (nodeEvents id node events) = .ok s ∧ st.node id = some s) ∧
    (∀ st other, RunState.replay runId spec events = .ok st →
      (∀ id, other.filter (fun e => e.nodeId = some id) =
        events.filter (fun e => e.nodeId = some id)) →
      RunState.replay runId spec other = .ok st) := by
  refine ⟨⟨?_, ?_⟩, ?_, ?_⟩
  · rintro ⟨st, hst⟩
    have hproduct := RunState.replay_ok_iff.mp hst
    refine ⟨hproduct.decodes, fun id node hid => ?_⟩
    obtain ⟨s, hs, -⟩ := hproduct.known id node hid
    exact ⟨s, hs⟩
  · rintro ⟨hdecodes, hnodes⟩
    let st : RunState :=
      { runId := runId, nodes := spec.nodeRef
        states := fun id => (spec.nodeRef id).bind
          (fun node => (NodeState.replay (nodeEvents id node events)).toOption) }
    refine ⟨st, RunState.replay_ok_iff.mpr ⟨rfl, rfl, hdecodes, ?_, ?_⟩⟩
    · intro id hid
      show (spec.nodeRef id).bind _ = none
      rw [hid]
      rfl
    · intro id node hid
      obtain ⟨s, hs⟩ := hnodes id node hid
      refine ⟨s, hs, ?_⟩
      show (spec.nodeRef id).bind _ = some s
      rw [hid, Option.bind_some, hs]
      rfl
  · intro st hst id node hid
    exact (RunState.replay_ok_iff.mp hst).known id node hid
  · intro st other hst hsame
    exact RunState.replay_ok_iff.mpr ((RunState.replay_ok_iff.mp hst).reorder hsame)

end Checkspan
