import Mathlib.Logic.Basic
import Mathlib.Tactic.ByContra
import Checkspan.State

/-!
# The reducer as a relation, and the replay of growing logs

`NodeState.Step` lists the legal transitions of `NodeState::apply`
(`src/state/mod.rs:368-514`), one constructor each; the invariants of a node
state are proved over it. The replay of a log that grew by one event is the old
replay followed by that event.
-/

namespace Checkspan

namespace NodeState

/-! ### Legal transitions -/

/-- The legal transitions of one node. -/
inductive Step : NodeState → NodeEvent → NodeState → Prop
  | dispatch {s : NodeState} (k : AttemptNumber) (hs : s.status = .open)
      (hk : k.get = s.attemptsStarted + 1) :
      Step s (.dispatched k) { status := .running, currentAttempt := some k
                               attemptsStarted := s.attemptsStarted + 1, checking := false
                               receipt := none, waitingOnGate := none }
  | finish {s : NodeState} (k : AttemptNumber) (o : ExecutionOutcome) (d : Option Digest)
      (hs : s.status = .running) (hk : s.currentAttempt = some k) (hc : s.checking = false) :
      Step s (.executionFinished k o d) (s.finish o)
  | decide {s : NodeState} (k : AttemptNumber) (r : ReceiptRef) (v : Verdict)
      (hs : s.status = .running) (hk : s.currentAttempt = some k) (hc : s.checking = true) :
      Step s (.receiptAdmitted k r v) (s.decide r v)
  | retry {s : NodeState} (hs : s.status = .rejected ∨ s.status = .failed) :
      Step s .retryAllowed { s with status := .open, currentAttempt := none, receipt := none }
  | gate {s : NodeState} (p : Ident) (hs : s.status = .rejected ∨ s.status = .failed) :
      Step s (.gateOpened p) { s with status := .gated, receipt := none, waitingOnGate := some p }
  | packet {s : NodeState} (p : Ident) (hs : s.status = .gated) (hw : s.waitingOnGate = none) :
      Step s (.gateOpened p) { s with waitingOnGate := some p }
  | route {s : NodeState} (p : Ident) (d : DecisionKind) (hs : s.status = .gated)
      (hw : s.waitingOnGate = some p) :
      Step s (.decisionAdmitted p d) (s.route d)
  | cancelOpen {s : NodeState} (hs : s.status = .open ∨ s.status = .gated) :
      Step s .cancelled { s with status := .cancelled, waitingOnGate := none }
  | cancelRunning {s : NodeState} (hs : s.status = .running) :
      Step s .cancelled { s with status := .cancelled, checking := false }
  | cancelStopped {s : NodeState} (hs : s.status = .rejected ∨ s.status = .failed) :
      Step s .cancelled { s with status := .cancelled }

theorem requireCurrent_ok {s : NodeState} {e : NodeEvent} {k : AttemptNumber}
    (h : s.requireCurrent e k = .ok ()) : s.currentAttempt = some k := by
  unfold requireCurrent at h
  split at h
  · assumption
  · split at h <;> cases h

theorem applyOpen_step {s s' : NodeState} {e : NodeEvent} (hs : s.status = .open)
    (h : s.applyOpen e = .ok s') : Step s e s' := by
  cases e with
  | dispatched k =>
    simp only [applyOpen] at h
    split at h
    · cases h
    · rename_i hk
      cases h
      exact Step.dispatch k hs (not_not.mp hk)
  | cancelled =>
    cases h
    exact Step.cancelOpen (Or.inl hs)
  | executionFinished k o d => cases h
  | receiptAdmitted k r v => cases h
  | gateOpened p => cases h
  | decisionAdmitted p d => cases h
  | retryAllowed => cases h

theorem applyRunning_step {s s' : NodeState} {e : NodeEvent} (hs : s.status = .running)
    (h : s.applyRunning e = .ok s') : Step s e s' := by
  cases e with
  | executionFinished k o d =>
    simp only [applyRunning] at h
    split at h
    · cases h
    · rename_i hr
      split at h
      · cases h
      · rename_i hc
        cases h
        exact Step.finish k o d hs (requireCurrent_ok hr) (by simpa using hc)
  | receiptAdmitted k r v =>
    simp only [applyRunning] at h
    split at h
    · cases h
    · rename_i hr
      split at h
      · rename_i hc
        cases h
        exact Step.decide k r v hs (requireCurrent_ok hr) hc
      · cases h
  | cancelled =>
    cases h
    exact Step.cancelRunning hs
  | dispatched k => cases h
  | gateOpened p => cases h
  | decisionAdmitted p d => cases h
  | retryAllowed => cases h

theorem applyStopped_step {s s' : NodeState} {e : NodeEvent}
    (hs : s.status = .rejected ∨ s.status = .failed)
    (h : s.applyStopped e = .ok s') : Step s e s' := by
  cases e with
  | retryAllowed =>
    cases h
    exact Step.retry hs
  | gateOpened p =>
    cases h
    exact Step.gate p hs
  | cancelled =>
    cases h
    exact Step.cancelStopped hs
  | dispatched k => cases h
  | executionFinished k o d => cases h
  | receiptAdmitted k r v => cases h
  | decisionAdmitted p d => cases h

theorem applyGated_step {s s' : NodeState} {e : NodeEvent} (hs : s.status = .gated)
    (h : s.applyGated e = .ok s') : Step s e s' := by
  cases e with
  | gateOpened p =>
    simp only [applyGated] at h
    split at h
    · cases h
    · rename_i hw
      cases h
      exact Step.packet p hs (by simpa using hw)
  | decisionAdmitted p d =>
    simp only [applyGated] at h
    split at h
    · cases h
    · rename_i hw
      cases h
      exact Step.route p d hs (not_not.mp hw)
  | cancelled =>
    cases h
    exact Step.cancelOpen (Or.inr hs)
  | dispatched k => cases h
  | executionFinished k o d => cases h
  | receiptAdmitted k r v => cases h
  | retryAllowed => cases h

/-- What `apply` accepts is a legal transition. -/
theorem apply_step {s s' : NodeState} {e : NodeEvent} (h : s.apply e = .ok s') : Step s e s' := by
  unfold apply at h
  split at h
  · cases h
  · cases h
  · rename_i hs
    exact applyOpen_step hs h
  · rename_i hs
    exact applyRunning_step hs h
  · rename_i hs
    exact applyStopped_step (Or.inl hs) h
  · rename_i hs
    exact applyStopped_step (Or.inr hs) h
  · rename_i hs
    exact applyGated_step hs h

theorem requireCurrent_of_current {s : NodeState} {e : NodeEvent} {k : AttemptNumber}
    (h : s.currentAttempt = some k) : s.requireCurrent e k = .ok () := by
  rw [requireCurrent, if_pos h]

/-- Every legal transition is accepted by `apply`. -/
theorem step_apply {s s' : NodeState} {e : NodeEvent} (h : Step s e s') : s.apply e = .ok s' := by
  cases h with
  | dispatch k hs hk => simp [apply, hs, applyOpen, hk]
  | finish k o d hs hk hc =>
    simp [apply, hs, applyRunning, requireCurrent_of_current hk, hc]
  | decide k r v hs hk hc =>
    simp [apply, hs, applyRunning, requireCurrent_of_current hk, hc]
  | retry hs => rcases hs with hs | hs <;> simp [apply, hs, applyStopped]
  | gate p hs => rcases hs with hs | hs <;> simp [apply, hs, applyStopped]
  | packet p hs hw => simp [apply, hs, applyGated, hw]
  | route p d hs hw => simp [apply, hs, applyGated, hw]
  | cancelOpen hs => rcases hs with hs | hs <;> simp [apply, hs, applyOpen, applyGated]
  | cancelRunning hs => simp [apply, hs, applyRunning]
  | cancelStopped hs => rcases hs with hs | hs <;> simp [apply, hs, applyStopped]

/-- A legal transition always changes the state. -/
theorem step_ne {s s' : NodeState} {e : NodeEvent} (h : Step s e s') : s' ≠ s := by
  intro heq
  have hstatus := congrArg NodeState.status heq
  have hchecking := congrArg NodeState.checking heq
  have hgate := congrArg NodeState.waitingOnGate heq
  cases h with
  | dispatch k hs hk => simp [hs] at hstatus
  | finish k o d hs hk hc => cases o <;> simp [NodeState.finish, hs, hc] at hstatus hchecking
  | decide k r v hs hk hc => cases v <;> simp [NodeState.decide, hc] at hchecking
  | retry hs => rcases hs with hs | hs <;> simp [hs] at hstatus
  | gate p hs => rcases hs with hs | hs <;> simp [hs] at hstatus
  | packet p hs hw => simp [hw] at hgate
  | route p d hs hw => cases d <;> simp [NodeState.route, hs] at hstatus
  | cancelOpen hs => rcases hs with hs | hs <;> simp [hs] at hstatus
  | cancelRunning hs => simp [hs] at hstatus
  | cancelStopped hs => rcases hs with hs | hs <;> simp [hs] at hstatus

/-! ### Well-formed node states -/

/-- What every replayed node state satisfies. -/
structure Wf (s : NodeState) : Prop where
  currentIsLast : ∀ k, s.currentAttempt = some k → k.get = s.attemptsStarted
  hasAttempt : s.status ≠ .open → s.status ≠ .cancelled → s.currentAttempt ≠ none
  openHasNone : s.status = .open → s.currentAttempt = none
  checkingRuns : s.checking = true → s.status = .running
  receiptDecides : s.receipt ≠ none →
    s.status = .accepted ∨ s.status = .rejected ∨ s.status = .cancelled
  decidedHasReceipt : s.status = .accepted ∨ s.status = .rejected → s.receipt ≠ none
  gateWaits : s.waitingOnGate ≠ none → s.status = .gated

theorem wf_initial : Wf NodeState.initial := by
  constructor <;> simp [NodeState.initial]

/-- Outside `checking` states nothing is being checked. -/
theorem Wf.not_checking {s : NodeState} (h : Wf s) (hs : s.status ≠ .running) :
    s.checking = false := by
  cases hc : s.checking with
  | false => rfl
  | true => exact absurd (h.checkingRuns hc) hs

theorem Wf.gate_none {s : NodeState} (h : Wf s) (hs : s.status ≠ .gated) :
    s.waitingOnGate = none := by
  by_contra hw
  exact hs (h.gateWaits hw)

theorem Wf.receipt_none {s : NodeState} (h : Wf s) (h1 : s.status ≠ .accepted)
    (h2 : s.status ≠ .rejected) (h3 : s.status ≠ .cancelled) : s.receipt = none := by
  by_contra hr
  rcases h.receiptDecides hr with h' | h' | h'
  · exact h1 h'
  · exact h2 h'
  · exact h3 h'

theorem Wf.step {s s' : NodeState} {e : NodeEvent} (hw : Wf s) (h : Step s e s') : Wf s' := by
  cases h with
  | dispatch k hs hk =>
    constructor <;> simp
    exact hk
  | finish k o d hs hk hc =>
    have hgate := hw.gate_none (by simp [hs])
    have hrec := hw.receipt_none (by simp [hs]) (by simp [hs]) (by simp [hs])
    have hlast := hw.currentIsLast
    cases o <;> constructor <;> simp_all [NodeState.finish]
  | decide k r v hs hk hc =>
    have hgate := hw.gate_none (by simp [hs])
    have hlast := hw.currentIsLast
    cases v <;> constructor <;> simp_all [NodeState.decide]
  | retry hs =>
    have hgate : s.waitingOnGate = none := hw.gate_none (by rcases hs with hs | hs <;> simp [hs])
    have hcheck : s.checking = false := hw.not_checking (by rcases hs with hs | hs <;> simp [hs])
    constructor <;> simp_all
  | gate p hs =>
    have hcheck : s.checking = false := hw.not_checking (by rcases hs with hs | hs <;> simp [hs])
    have hlast := hw.currentIsLast
    have hcur : s.currentAttempt ≠ none :=
      hw.hasAttempt (by rcases hs with hs | hs <;> simp [hs])
        (by rcases hs with hs | hs <;> simp [hs])
    constructor <;> simp_all
  | packet p hs hp =>
    have hcheck : s.checking = false := hw.not_checking (by simp [hs])
    have hlast := hw.currentIsLast
    have hcur : s.currentAttempt ≠ none := hw.hasAttempt (by simp [hs]) (by simp [hs])
    have hrec := hw.receipt_none (by simp [hs]) (by simp [hs]) (by simp [hs])
    constructor <;> simp_all
  | route p d hs hp =>
    have hcheck : s.checking = false := hw.not_checking (by simp [hs])
    have hlast := hw.currentIsLast
    cases d <;> constructor <;> simp_all [NodeState.route]
  | cancelOpen hs =>
    have hcheck : s.checking = false := hw.not_checking (by rcases hs with hs | hs <;> simp [hs])
    have hlast := hw.currentIsLast
    constructor <;> simp_all
  | cancelRunning hs =>
    have hgate := hw.gate_none (by simp [hs])
    have hlast := hw.currentIsLast
    constructor <;> simp_all
  | cancelStopped hs =>
    have hgate : s.waitingOnGate = none := hw.gate_none (by rcases hs with hs | hs <;> simp [hs])
    have hcheck : s.checking = false := hw.not_checking (by rcases hs with hs | hs <;> simp [hs])
    have hlast := hw.currentIsLast
    constructor <;> simp_all

end NodeState

/-! ### Replay -/

namespace RunState

@[simp] theorem node_insert_self (st : RunState) (id : NodeId) (s : NodeState) :
    (st.insert id s).node id = some s := by
  simp [insert, node]

theorem node_insert_other (st : RunState) {id other : NodeId} (s : NodeState) (h : other ≠ id) :
    (st.insert id s).node other = st.node other := by
  simp [insert, node, h]

theorem apply_ok {st st' : RunState} {id : NodeId} {e : NodeEvent} (h : st.apply id e = .ok st') :
    ∃ s s', st.node id = some s ∧ s.apply e = .ok s' ∧ st' = st.insert id s' := by
  unfold apply at h
  split at h
  · cases h
  · rename_i s hs
    cases he : s.apply e with
    | error err =>
      rw [he] at h
      cases h
    | ok s' =>
      rw [he] at h
      cases h
      exact ⟨s, s', hs, he, rfl⟩

theorem replayFrom_append (st : RunState) (xs ys : List StoredEvent) :
    st.replayFrom (xs ++ ys) = match st.replayFrom xs with
      | .error e => .error e
      | .ok st' => st'.replayFrom ys := by
  induction xs generalizing st with
  | nil => rfl
  | cons e rest ih =>
    simp only [List.cons_append, replayFrom]
    cases st.applyStored e with
    | error err => rfl
    | ok st' => exact ih st'

/-- The replay of a log that grew by one event. -/
theorem replay_concat {runId : RunId} {spec : GraphSpec} {events : List StoredEvent}
    {st : RunState} (e : StoredEvent) (h : replay runId spec events = .ok st) :
    replay runId spec (events ++ [e]) = st.applyStored e := by
  unfold replay at h ⊢
  rw [replayFrom_append, h]
  simp only [replayFrom]
  cases st.applyStored e <;> rfl

/-- A run-level event leaves the replayed state as it is. -/
theorem replay_concat_runLevel {runId : RunId} {spec : GraphSpec} {events : List StoredEvent}
    {st : RunState} {e : StoredEvent} (h : replay runId spec events = .ok st)
    (he : e.nodeId = none) : replay runId spec (events ++ [e]) = .ok st := by
  rw [replay_concat e h, applyStored, he]

/-- A node event whose payload decodes to `ev`, with `ev` legal for its node. -/
theorem replay_concat_node {runId : RunId} {spec : GraphSpec} {events : List StoredEvent}
    {st : RunState} {stored : StoredEvent} {id : NodeId} {node : NodeRef} {ev : NodeEvent}
    {s s' : NodeState} (h : replay runId spec events = .ok st) (hid : stored.nodeId = some id)
    (hnode : st.nodes id = some node) (hdec : NodeEvent.fromStored stored node = .ok ev)
    (hs : st.node id = some s) (hap : s.apply ev = .ok s') :
    replay runId spec (events ++ [stored]) = .ok (st.insert id s') := by
  rw [replay_concat stored h, applyStored, hid]
  have hst : st.states id = some s := hs
  simp only [hnode, hdec, apply, hst, hap, Except.map]

/-- An event the replay steps over is run-level, or a legal event of a known
node that its payload decodes to. -/
theorem applyStored_ok {st st' : RunState} {stored : StoredEvent}
    (h : st.applyStored stored = .ok st') :
    (stored.nodeId = none ∧ st' = st) ∨
    ∃ id node ev s s', stored.nodeId = some id ∧ st.nodes id = some node ∧
      NodeEvent.fromStored stored node = .ok ev ∧ st.node id = some s ∧
      s.apply ev = .ok s' ∧ st' = st.insert id s' := by
  unfold applyStored at h
  split at h
  · rename_i hn
    cases h
    exact Or.inl ⟨hn, rfl⟩
  · rename_i id hn
    split at h
    · cases h
    · rename_i node hnode
      split at h
      · cases h
      · rename_i ev hev
        obtain ⟨s, s', hs, hap, hst⟩ := apply_ok h
        exact Or.inr ⟨id, node, ev, s, s', hn, hnode, hev, hs, hap, hst⟩

/-! ### Invariants of a replay -/

/-- A property of run states that every stored event the replay accepts
preserves holds of the replayed state. -/
theorem replayFrom_induction {P : RunState → Prop} {events : List StoredEvent}
    {st st' : RunState} (h : st.replayFrom events = .ok st') (hinit : P st)
    (hstep : ∀ a b e, P a → a.applyStored e = .ok b → P b) : P st' := by
  induction events generalizing st with
  | nil =>
    cases h
    exact hinit
  | cons e rest ih =>
    simp only [replayFrom] at h
    split at h
    · cases h
    · rename_i st₁ hst₁
      exact ih h (hstep st st₁ e hinit hst₁)

theorem replay_nodes {runId : RunId} {spec : GraphSpec} {events : List StoredEvent}
    {st : RunState} (h : replay runId spec events = .ok st) : st.nodes = spec.nodeRef := by
  refine replayFrom_induction (P := fun st => st.nodes = spec.nodeRef) h rfl ?_
  intro a b e ha hab
  rcases applyStored_ok hab with ⟨_, rfl⟩ | ⟨_, _, _, _, _, _, _, _, _, _, rfl⟩
  · exact ha
  · exact ha

theorem replay_runId {runId : RunId} {spec : GraphSpec} {events : List StoredEvent}
    {st : RunState} (h : replay runId spec events = .ok st) : st.runId = runId := by
  refine replayFrom_induction (P := fun st => st.runId = runId) h rfl ?_
  intro a b e ha hab
  rcases applyStored_ok hab with ⟨_, rfl⟩ | ⟨_, _, _, _, _, _, _, _, _, _, rfl⟩
  · exact ha
  · exact ha

/-- Exactly the nodes of the graph have a replayed state. -/
theorem replay_isSome {runId : RunId} {spec : GraphSpec} {events : List StoredEvent}
    {st : RunState} (h : replay runId spec events = .ok st) (id : NodeId) :
    (st.node id).isSome = (spec.findNode id).isSome := by
  refine replayFrom_induction
    (P := fun st => ∀ id, (st.node id).isSome = (spec.findNode id).isSome) h ?_ ?_ id
  · intro id
    simp [new, node]
  · intro a b e ha hab id
    rcases applyStored_ok hab with ⟨_, rfl⟩ | ⟨id', _, _, s, s', _, _, _, hs, _, rfl⟩
    · exact ha id
    · by_cases hid : id = id'
      · subst hid
        rw [node_insert_self, ← ha id, hs]
        rfl
      · rw [node_insert_other a s' hid]
        exact ha id

/-- Every replayed node state is well formed. -/
theorem replay_wf {runId : RunId} {spec : GraphSpec} {events : List StoredEvent}
    {st : RunState} (h : replay runId spec events = .ok st) {id : NodeId} {s : NodeState}
    (hs : st.node id = some s) : s.Wf := by
  refine replayFrom_induction (P := fun st => ∀ id s, st.node id = some s → s.Wf) h ?_ ?_ id s hs
  · intro id s hs
    simp only [new, node, Option.map_eq_some_iff] at hs
    obtain ⟨_, _, rfl⟩ := hs
    exact NodeState.wf_initial
  · intro a b e ha hab id s hs
    rcases applyStored_ok hab with ⟨_, rfl⟩ | ⟨id', _, _, s₀, s', _, _, _, hs₀, hap, rfl⟩
    · exact ha id s hs
    · by_cases hid : id = id'
      · subst hid
        rw [node_insert_self] at hs
        cases hs
        exact (ha id s₀ hs₀).step (NodeState.apply_step hap)
      · rw [node_insert_other a s' hid] at hs
        exact ha id s hs

end RunState

/-! ### Decoding what the operations write -/

namespace NodeEvent

/-- The reference the replay decodes out of an event: its run and node are not
in the payload. -/
def inRun (run : RunId) (node : NodeRef) : NodeEvent → NodeEvent
  | receiptAdmitted k r v => receiptAdmitted k ⟨r.id, run, node⟩ v
  | e => e

/-- The fields `from_stored` reads out of a payload are those of the event. The
operations add fields of their own beside them. -/
def CarriedBy (p : Json) : NodeEvent → Prop
  | dispatched k => p.getNonNull "number" = some k.toJson
  | executionFinished k o d => p.getNonNull "number" = some k.toJson ∧
      p.getNonNull "outcome" = some o.toJson ∧
      p.getNonNull "result_digest" = d.map (·.toJson)
  | receiptAdmitted k r v => p.getNonNull "number" = some k.toJson ∧
      p.getNonNull "receipt_id" = some r.id.toJson ∧ p.getNonNull "verdict" = some v.toJson
  | gateOpened packet => p.getNonNull "packet_id" = some packet.toJson
  | decisionAdmitted packet d => p.getNonNull "packet_id" = some packet.toJson ∧
      p.getNonNull "decision" = some d.toJson
  | retryAllowed => True
  | cancelled => True

theorem field_of_get {α : Type} {e : StoredEvent} {name : String}
    {decode : Json → Except DecodeError α} {v : Json} {a : α}
    (hget : e.payload.getNonNull name = some v) (hdec : decode v = .ok a) :
    field e name decode = .ok a := by
  simp only [field, hget, hdec]
  rfl

theorem optionalField_of_get {α : Type} {e : StoredEvent} {name : String}
    {decode : Json → Except DecodeError α} {enc : α → Json} {a : Option α}
    (hget : e.payload.getNonNull name = a.map enc) (hdec : ∀ x, decode (enc x) = .ok x) :
    optionalField e name decode = .ok a := by
  cases a with
  | none => simp only [optionalField, hget, Option.map_none]
  | some x =>
    simp only [optionalField, hget, Option.map_some, hdec]
    rfl

/-- A stored event whose payload carries `e` decodes to it. -/
theorem fromStored_of_carried (seq : Nat) (run : RunId) (id : NodeId) (node : NodeRef) {p : Json}
    {e : NodeEvent} (h : e.CarriedBy p) :
    fromStored ⟨seq, run, some id, e.kind, p⟩ node = .ok (e.inRun run node) := by
  cases e with
  | dispatched k =>
    let stored : StoredEvent := ⟨seq, run, some id, kinds.attemptDispatched, p⟩
    have hk := field_of_get (e := stored) h (decodeAttemptNumber_toJson k)
    change fromStored stored node = _
    rw [fromStored, if_pos rfl, hk]
    rfl
  | executionFinished k o d =>
    let stored : StoredEvent := ⟨seq, run, some id, kinds.attemptSealed, p⟩
    have hk := field_of_get (e := stored) h.1 (decodeAttemptNumber_toJson k)
    have ho := field_of_get (e := stored) h.2.1 (decodeOutcome_toJson o)
    have hd := optionalField_of_get (e := stored) h.2.2 decodeDigest_toJson
    change fromStored stored node = _
    rw [fromStored, if_neg (show ¬kinds.attemptSealed = kinds.attemptDispatched by decide),
      if_pos rfl, hk, ho, hd]
    rfl
  | receiptAdmitted k r v =>
    let stored : StoredEvent := ⟨seq, run, some id, kinds.receiptAdmitted, p⟩
    have hk := field_of_get (e := stored) h.1 (decodeAttemptNumber_toJson k)
    have hr := field_of_get (e := stored) h.2.1 (decodeIdent_toJson r.id)
    have hv := field_of_get (e := stored) h.2.2 (decodeVerdict_toJson v)
    change fromStored stored node = _
    rw [fromStored, if_neg (show ¬kinds.receiptAdmitted = kinds.attemptDispatched by decide),
      if_neg (show ¬kinds.receiptAdmitted = kinds.attemptSealed by decide),
      if_pos rfl, hk, hr, hv]
    rfl
  | gateOpened packet =>
    let stored : StoredEvent := ⟨seq, run, some id, kinds.gateOpened, p⟩
    have hp := field_of_get (e := stored) h (decodeIdent_toJson packet)
    change fromStored stored node = _
    rw [fromStored, if_neg (show ¬kinds.gateOpened = kinds.attemptDispatched by decide),
      if_neg (show ¬kinds.gateOpened = kinds.attemptSealed by decide),
      if_neg (show ¬kinds.gateOpened = kinds.receiptAdmitted by decide),
      if_pos rfl, hp]
    rfl
  | decisionAdmitted packet d =>
    let stored : StoredEvent := ⟨seq, run, some id, kinds.decisionAdmitted, p⟩
    have hp := field_of_get (e := stored) h.1 (decodeIdent_toJson packet)
    have hd := field_of_get (e := stored) h.2 (decodeDecision_toJson d)
    change fromStored stored node = _
    rw [fromStored, if_neg (show ¬kinds.decisionAdmitted = kinds.attemptDispatched by decide),
      if_neg (show ¬kinds.decisionAdmitted = kinds.attemptSealed by decide),
      if_neg (show ¬kinds.decisionAdmitted = kinds.receiptAdmitted by decide),
      if_neg (show ¬kinds.decisionAdmitted = kinds.gateOpened by decide),
      if_pos rfl, hp, hd]
    rfl
  | retryAllowed => rfl
  | cancelled => rfl

/-- What the replay reads out of a stored event about `node`. -/
def DecodedFrom (e : StoredEvent) (node : NodeRef) : NodeEvent → Prop
  | dispatched k => field e "number" decodeAttemptNumber = .ok k
  | executionFinished k o d => field e "number" decodeAttemptNumber = .ok k ∧
      field e "outcome" decodeOutcome = .ok o ∧
      optionalField e "result_digest" decodeDigest = .ok d
  | receiptAdmitted k r v => field e "number" decodeAttemptNumber = .ok k ∧
      field e "receipt_id" decodeIdent = .ok r.id ∧ r = ⟨r.id, e.runId, node⟩ ∧
      field e "verdict" decodeVerdict = .ok v
  | gateOpened packet => field e "packet_id" decodeIdent = .ok packet
  | decisionAdmitted packet d => field e "packet_id" decodeIdent = .ok packet ∧
      field e "decision" decodeDecision = .ok d
  | retryAllowed => True
  | cancelled => True

/-- A decoded event has the stored kind and the stored fields. -/
theorem fromStored_ok {e : StoredEvent} {node : NodeRef} {ev : NodeEvent}
    (h : fromStored e node = .ok ev) : e.kind = ev.kind ∧ ev.DecodedFrom e node := by
  unfold fromStored at h
  split at h
  · rename_i hkind
    obtain ⟨k, hk, rfl⟩ := map_ok h
    exact ⟨hkind, hk⟩
  split at h
  · rename_i hkind
    obtain ⟨k, hk, h⟩ := bind_ok h
    obtain ⟨o, ho, h⟩ := bind_ok h
    obtain ⟨d, hd, h⟩ := bind_ok h
    cases h
    exact ⟨hkind, hk, ho, hd⟩
  split at h
  · rename_i hkind
    obtain ⟨k, hk, h⟩ := bind_ok h
    obtain ⟨id, hid, h⟩ := bind_ok h
    obtain ⟨v, hv, h⟩ := bind_ok h
    cases h
    exact ⟨hkind, hk, hid, rfl, hv⟩
  split at h
  · rename_i hkind
    obtain ⟨p, hp, rfl⟩ := map_ok h
    exact ⟨hkind, hp⟩
  split at h
  · rename_i hkind
    obtain ⟨p, hp, h⟩ := bind_ok h
    obtain ⟨d, hd, h⟩ := bind_ok h
    cases h
    exact ⟨hkind, hp, hd⟩
  split at h
  · rename_i hkind
    cases h
    exact ⟨hkind, trivial⟩
  split at h
  · rename_i hkind
    cases h
    exact ⟨hkind, trivial⟩
  · cases h

/-- The payload an event writes for itself carries it. -/
theorem payload_carries (e : NodeEvent) : e.CarriedBy e.payload := by
  cases e with
  | dispatched k => rfl
  | executionFinished k o d => cases d <;> exact ⟨rfl, rfl, rfl⟩
  | receiptAdmitted k r v => exact ⟨rfl, rfl, rfl⟩
  | gateOpened packet => rfl
  | decisionAdmitted packet d => exact ⟨rfl, rfl⟩
  | retryAllowed => trivial
  | cancelled => trivial

end NodeEvent

end Checkspan
