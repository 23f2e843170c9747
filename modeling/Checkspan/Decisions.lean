import Checkspan.Acceptance

/-!
# Admitting a decision

`Store::admit_decision` asks only that the packet is stored and undecided. The
other operations try their event on the replayed node before they write it; a
decision is written for whatever node its scope names.
-/

namespace Checkspan

open Transition

/-! ### Packets in the log -/

/-- A `gate_opened` event belongs to a stored packet about its node. -/
def Store.PacketOf (s : Store) (e : StoredEvent) (p : GatePacket) : Prop :=
  p ∈ s.gatePackets ∧ p.runId = e.runId ∧ e.nodeId = some p.node.nodeId ∧
    NodeEvent.field e "packet_id" decodeIdent = .ok p.id

/-- Packets have distinct keys, and every `gate_opened` event has its packet. -/
structure Store.PacketsOk (s : Store) : Prop where
  keys : (s.gatePackets.map (fun p => (p.runId, p.id))).Nodup
  opened : ∀ e ∈ s.events, e.kind = kinds.gateOpened → ∃ p, s.PacketOf e p

/-- The packet stored under a key (`PRIMARY KEY (run_id, packet_id)`). -/
def Store.gatePacket (s : Store) (run : RunId) (id : Ident) : Option GatePacket :=
  s.gatePackets.find? (fun p => p.runId = run ∧ p.id = id)

theorem Store.PacketsOk.gatePacket_eq {s : Store} (h : s.PacketsOk) {p : GatePacket}
    (hp : p ∈ s.gatePackets) : s.gatePacket p.runId p.id = some p := by
  refine find?_of_unique hp (by simp) ?_
  intro q hq hsame
  rw [decide_eq_true_eq] at hsame
  exact List.inj_on_of_nodup_map h.keys hq hp (Prod.ext hsame.1 hsame.2)

theorem Gates.openResolveWork_packet (rt : Runtime) {s s' : Store} {spec : GraphSpec}
    {run : GraphRun} {id : NodeId} {now expiresAt : Timestamp} {packet : GatePacket}
    (h : Gates.openResolveWork rt s spec run id now expiresAt = .ok (packet, s')) :
    packet.runId = run.runId ∧ packet.node.nodeId = id ∧
      ∀ q ∈ s.gatePackets, (q.runId, q.id) ≠ (packet.runId, packet.id) := by
  unfold Gates.openResolveWork at h
  obtain ⟨_, -, h⟩ := bind_ok h
  obtain ⟨node, hnode, h⟩ := bind_ok h
  obtain ⟨st, -, h⟩ := bind_ok h
  obtain ⟨state, -, h⟩ := bind_ok h
  obtain ⟨number, -, h⟩ := bind_ok h
  obtain ⟨sealedRow, -, h⟩ := bind_ok h
  obtain ⟨attempt, -, h⟩ := bind_ok h
  obtain ⟨built, hbuilt, h⟩ := bind_ok h
  obtain ⟨_, -, h⟩ := bind_ok h
  obtain ⟨next, -, h⟩ := bind_ok h
  obtain ⟨s₁, hs₁, h⟩ := bind_ok h
  obtain ⟨s₂, -, h⟩ := bind_ok h
  cases h
  have hfresh := mapError_ok hs₁
  unfold Store.insertGatePacket at hfresh
  obtain ⟨_, -, hfresh⟩ := bind_ok hfresh
  obtain ⟨_, hguard, -⟩ := bind_ok hfresh
  have hguard := guardOk_ok hguard
  simp only [Bool.and_eq_true, Bool.not_eq_true', List.any_eq_false, decide_eq_true_eq]
    at hguard
  unfold Gates.buildPacket at hbuilt
  obtain ⟨refs, -, hbuilt⟩ := bind_ok hbuilt
  obtain ⟨pid, -, hbuilt⟩ := bind_ok hbuilt
  obtain ⟨digest, -, hbuilt⟩ := bind_ok hbuilt
  cases hbuilt
  refine ⟨rfl, GraphSpec.findNode_id (someOr_ok hnode), ?_⟩
  intro q hq heq
  exact hguard.2 q hq ⟨congrArg Prod.fst heq, congrArg Prod.snd heq⟩

section

variable {rt : Runtime} {s s' : Store}

/-- A step that opens no packet leaves the packets. -/
theorem LedgerStep.packets_eq {label : Option (RunId × NodeId × NodeEvent)}
    (h : LedgerStep rt s label s')
    (hne : ∀ run id packet, label ≠ some (run, id, .gateOpened packet)) :
    s'.gatePackets = s.gatePackets := by
  cases h with
  | same => rfl
  | graph row fresh => rfl
  | run r fresh known => rfl
  | revoke run payload known => rfl
  | claim bound h => rw [h.store_eq]
  | complete hrun bound h => rw [h.store_eq]; rfl
  | cancel bound h => rw [h.store_eq]
  | reclaim bound h => rw [h.store_eq]; rfl
  | admitted bound h => rw [h.store_eq]
  | retry payload bound replayed state_eq legal => rfl
  | exhausted payload bound replayed state_eq stopped legal => rfl
  | opened bound h => exact absurd rfl (hne _ _ _)
  | decided payload decisions waits carried => rfl

theorem Store.PacketsOk.same (h : s.PacketsOk) (packets : s'.gatePackets = s.gatePackets)
    (events : ∀ e ∈ s'.events, e.kind = kinds.gateOpened → e ∈ s.events) : s'.PacketsOk := by
  refine { keys := packets ▸ h.keys, opened := ?_ }
  intro e he hk
  obtain ⟨p, hp⟩ := h.opened e (events e he hk) hk
  refine ⟨p, ?_⟩
  unfold Store.PacketOf at hp ⊢
  rw [packets]
  exact hp

theorem Store.PacketsOk.openResolveWork (h : s.PacketsOk) {spec : GraphSpec} {run : GraphRun}
    {id : NodeId} {now expiresAt : Timestamp} {packet : GatePacket}
    (hopen : Gates.openResolveWork rt s spec run id now expiresAt = .ok (packet, s')) :
    s'.PacketsOk := by
  obtain ⟨st, state, next, hdone⟩ := Gates.openResolveWork_ok rt hopen
  obtain ⟨hrun, hid, hfresh⟩ := Gates.openResolveWork_packet rt hopen
  have hpackets : s'.gatePackets = s.gatePackets ++ [packet] := by rw [hdone.store_eq]
  refine { keys := ?_, opened := ?_ }
  · rw [hpackets, List.map_append, List.map_singleton, ← List.concat_eq_append]
    refine h.keys.concat ?_
    rw [List.mem_map]
    rintro ⟨q, hq, heq⟩
    exact hfresh q hq heq
  · intro e he hk
    rw [hdone.store_eq] at he
    rcases List.mem_append.mp he with he | he
    · obtain ⟨p, hp, hrest⟩ := h.opened e he hk
      exact ⟨p, hpackets ▸ List.mem_append_left _ hp, hrest⟩
    · obtain rfl := List.mem_singleton.mp he
      refine ⟨packet, hpackets ▸ List.mem_append_right _ (List.mem_singleton_self _), hrun, ?_, ?_⟩
      · rw [hid]
        rfl
      · exact NodeEvent.field_of_get (v := packet.id.toJson) rfl (decodeIdent_toJson packet.id)

end

/-! ### Any decision -/

/-- Legal use, except that a decision may name any scope. -/
def LedgerOp.AnyDecision (s : Store) : LedgerOp → Prop
  | admitDecision _ _ => True
  | op => op.Legal s

/-- The ledger under legal use and any decision. -/
def decisionLedger (rt : Runtime) : System Store LedgerOp :=
  ledgerSystem rt (fun s op => op.AnyDecision s)

/-- Only opening a packet reports a `gate_opened`. -/
theorem LedgerOp.checked_gateOpened {op : LedgerOp} {r : op.Result} {run : RunId} {id : NodeId}
    {packet : Ident} (h : op.checked r = some (run, id, .gateOpened packet)) :
    ∃ spec record now expiresAt, op = .openResolveWork spec record id now expiresAt := by
  unfold LedgerOp.checked at h
  split at h
  all_goals first
    | cases h
    | (rw [Option.map_eq_some_iff] at h
       obtain ⟨_, _, h⟩ := h
       cases h)
  exact ⟨_, _, _, _, rfl⟩

theorem packetsOk_exec (rt : Runtime) {s : Store} (h : s.PacketsOk) {op : LedgerOp}
    (allowed : op.AnyDecision s) : (op.exec rt s).2.PacketsOk := by
  have quiet : op.Legal s → kinds.gateOpened ∉ op.eventKinds → (op.exec rt s).2.PacketsOk := by
    intro legal hkind
    have hne : ∀ run id packet,
        op.checked (op.exec rt s).1 ≠ some (run, id, .gateOpened packet) := by
      intro run id packet hlabel
      obtain ⟨spec, record, now, expiresAt, rfl⟩ := LedgerOp.checked_gateOpened hlabel
      exact hkind (List.mem_singleton_self _)
    refine h.same ((exec_step rt s legal).packets_eq hne) ?_
    intro e he hk
    exact exec_event_old rt s he (hk ▸ hkind)
  cases op with
  | openResolveWork spec run id now expiresAt =>
    exact Store.transaction_property (P := Store.PacketsOk) h
      (fun _ _ hopen => h.openResolveWork hopen)
  | admitDecision run d =>
    refine h.same ?_ ?_
    · refine Store.transaction_property (P := fun t => t.gatePackets = s.gatePackets) rfl ?_
      intro _ s' hdecide
      obtain rfl := admitDecision_ok rt hdecide
      rfl
    · intro e he hk
      refine exec_event_old rt s he ?_
      rw [hk]
      simp only [LedgerOp.eventKinds]
      decide
  | storeGraph | createRun | claimNext | complete | cancel | reclaim | admitReceipt
  | applyRetryPolicy | revokeReceipt | appendDecision =>
    refine quiet allowed ?_
    simp only [LedgerOp.eventKinds]
    decide

theorem packetsOk_invariant (rt : Runtime) : (decisionLedger rt).Invariant Store.PacketsOk := by
  refine System.Invariant.step System.invariant_true ?_ ?_
  · rintro s rfl
    exact { keys := List.nodup_nil, opened := fun _ he => absurd he List.not_mem_nil }
  · rintro s op s' - h ⟨allowed, rfl⟩
    exact packetsOk_exec rt h allowed

/-! ### What a node waits on -/

namespace RunState

/-- The replay invariant rule with the event at hand. -/
theorem replayFrom_mem_induction {P : RunState → Prop} {events : List StoredEvent}
    {st st' : RunState} (h : st.replayFrom events = .ok st') (hinit : P st)
    (hstep : ∀ a b, ∀ e ∈ events, P a → a.applyStored e = .ok b → P b) : P st' := by
  induction events generalizing st with
  | nil =>
    cases h
    exact hinit
  | cons e rest ih =>
    simp only [replayFrom] at h
    split at h
    · cases h
    · rename_i st₁ hst₁
      refine ih h (hstep st st₁ e List.mem_cons_self hinit hst₁) ?_
      intro a b x hx
      exact hstep a b x (List.mem_cons_of_mem e hx)

/-- The node is gated and waits on the packet. -/
def Awaits (st : RunState) (id : NodeId) (packet : Ident) : Prop :=
  ∃ state, st.node id = some state ∧ state.status = .gated ∧ state.waitingOnGate = some packet

end RunState

theorem NodeState.Step.waits {s s' : NodeState} {e : NodeEvent} (h : Step s e s') {packet : Ident}
    (hw : s'.waitingOnGate = some packet) :
    e = .gateOpened packet ∨ s.waitingOnGate = some packet := by
  cases h with
  | dispatch k hs hk => cases hw
  | finish k o d hs hk hc => cases o <;> exact Or.inr hw
  | decide k r v hs hk hc =>
    cases v with
    | accept => exact Or.inr hw
    | reject => exact Or.inr hw
    | undecidable => cases hw
  | retry hs => exact Or.inr hw
  | gate p hs =>
    cases hw
    exact Or.inl rfl
  | packet p hs hp =>
    cases hw
    exact Or.inl rfl
  | route p d hs hp => cases d <;> cases hw
  | cancelOpen hs => cases hw
  | cancelRunning hs => exact Or.inr hw
  | cancelStopped hs => exact Or.inr hw

/-- A node waits only on a packet that a `gate_opened` event of the log opened
for it. -/
theorem RunState.replay_waits {run : RunId} {spec : GraphSpec} {events : List StoredEvent}
    {st : RunState} (h : RunState.replay run spec events = .ok st) {id : NodeId}
    {state : NodeState} {packet : Ident} (hs : st.node id = some state)
    (hw : state.waitingOnGate = some packet) :
    ∃ e ∈ events, e.nodeId = some id ∧ e.kind = kinds.gateOpened ∧
      NodeEvent.field e "packet_id" decodeIdent = .ok packet := by
  refine RunState.replayFrom_mem_induction
    (P := fun st => ∀ id state, st.node id = some state → state.waitingOnGate = some packet →
      ∃ e ∈ events, e.nodeId = some id ∧ e.kind = kinds.gateOpened ∧
        NodeEvent.field e "packet_id" decodeIdent = .ok packet) h ?_ ?_ id state hs hw
  · intro id state hs hw
    simp only [RunState.new, RunState.node, Option.map_eq_some_iff] at hs
    obtain ⟨_, _, rfl⟩ := hs
    cases hw
  · intro a b e he ha hab i x hx hxw
    rcases RunState.applyStored_ok hab with ⟨_, rfl⟩ | ⟨id', node, ev, old, new, hid, _, hdec, hold,
      hap, rfl⟩
    · exact ha i x hx hxw
    · by_cases hi : i = id'
      · subst hi
        rw [RunState.node_insert_self] at hx
        cases hx
        rcases (NodeState.apply_step hap).waits hxw with rfl | hkept
        · exact ⟨e, he, hid, NodeEvent.fromStored_ok hdec⟩
        · exact ha i old hold hkept
      · rw [RunState.node_insert_other a new hi] at hx
        exact ha i x hx hxw

/-- The packet a node of a replayed run waits on is stored, and is about it. -/
theorem Store.PacketsOk.awaited {s : Store} (h : s.PacketsOk) {run : RunId} {spec : GraphSpec}
    {st : RunState} (hst : s.replay run spec = .ok st) {id : NodeId} {packet : Ident}
    (hw : st.Awaits id packet) :
    ∃ p, s.gatePacket run packet = some p ∧ p.id = packet ∧ p.node.nodeId = id := by
  obtain ⟨state, hs, -, hwait⟩ := hw
  obtain ⟨e, he, hid, hkind, hfield⟩ := RunState.replay_waits hst hs hwait
  unfold Store.eventsOf at he
  rw [List.mem_filter, decide_eq_true_eq] at he
  obtain ⟨p, hp, hrun, hnode, hpid⟩ := h.opened e he.1 hkind
  have hsame : p.id = packet := Except.ok.inj (hpid.symm.trans hfield)
  have hfound := h.gatePacket_eq hp
  rw [hrun, he.2, hsame] at hfound
  exact ⟨p, hfound, hsame, Option.some.inj (hnode.symm.trans hid)⟩

/-! ### When a decision is harmless -/

/-- The decision's event has its only effect on the node of the decided packet,
which waited on exactly that packet; the log still replays. -/
def Harmless (s s' : Store) (run : RunId) (spec : GraphSpec) (st : RunState) (d : GateDecision) :
    Prop :=
  ∃ packet next, s.gatePacket run d.gatePacketId = some packet ∧
    st.Awaits packet.node.nodeId packet.id ∧
    s'.replay run spec = .ok (st.insert packet.node.nodeId next)

section

variable {rt : Runtime} {s s' : Store} {run : RunId} {spec : GraphSpec} {st : RunState}
  {d : GateDecision}

/-- The decoded event of an admitted decision. -/
theorem decision_decodes (s : Store) (run : RunId) (d : GateDecision) (node : NodeRef) :
    NodeEvent.fromStored (s.nextEvent run (some d.scope.node.nodeId) kinds.decisionAdmitted
      (Store.decisionPayload d.gatePacketId d.decision)) node =
      .ok (.decisionAdmitted d.gatePacketId d.decision) :=
  NodeEvent.fromStored_of_carried (s.events.length + 1) run d.scope.node.nodeId node
    (NodeEvent.payload_carries (.decisionAdmitted d.gatePacketId d.decision))

theorem decision_replay (hst : s.replay run spec = .ok st)
    (h : s.admitDecision rt run d = .ok ((), s')) :
    s'.replay run spec = st.applyStored (s.nextEvent run
      (some d.scope.node.nodeId) kinds.decisionAdmitted
      (Store.decisionPayload d.gatePacketId d.decision)) := by
  obtain rfl := admitDecision_ok rt h
  unfold Store.replay at hst ⊢
  have hself := @Store.eventsOf_self s { s with
      gateDecisions := s.gateDecisions ++ [(run, d)]
      events := s.events ++ [s.nextEvent run (some d.scope.node.nodeId)
        kinds.decisionAdmitted (Store.decisionPayload d.gatePacketId d.decision)] } _ rfl
  change Store.eventsOf _ run = _ at hself
  rw [hself]
  exact RunState.replay_concat _ hst

/-- An admitted decision whose log still replays was awaited by the node its scope
names. -/
theorem awaits_of_replays (hst : s.replay run spec = .ok st)
    (h : s.admitDecision rt run d = .ok ((), s')) {st' : RunState}
    (hst' : s'.replay run spec = .ok st') :
    st.Awaits d.scope.node.nodeId d.gatePacketId := by
  rw [decision_replay hst h] at hst'
  rcases RunState.applyStored_ok hst' with ⟨hnone, _⟩ | ⟨id, node, ev, old, new, hid, _, hdec, hold,
    hap, _⟩
  · cases hnone
  · obtain rfl := Option.some.inj hid
    rw [decision_decodes] at hdec
    obtain rfl := Except.ok.inj hdec
    cases NodeState.apply_step hap with
    | route p k hs hw => exact ⟨old, hold, hs, hw⟩

theorem replays_of_awaits (hst : s.replay run spec = .ok st)
    (h : s.admitDecision rt run d = .ok ((), s'))
    (hw : st.Awaits d.scope.node.nodeId d.gatePacketId) :
    ∃ next, s'.replay run spec = .ok (st.insert d.scope.node.nodeId next) := by
  obtain ⟨old, hold, hs, hwait⟩ := hw
  have hlegal := NodeState.step_apply (NodeState.Step.route d.gatePacketId d.decision hs hwait)
  have hknown := RunState.replay_isSome hst d.scope.node.nodeId
  rw [hold, Option.isSome_some, eq_comm, Option.isSome_iff_exists] at hknown
  obtain ⟨n, hn⟩ := hknown
  have hnode : st.nodes d.scope.node.nodeId = some (spec.refOf n) := by
    rw [RunState.replay_nodes hst, GraphSpec.nodeRef, hn, Option.map_some]
  refine ⟨old.route d.decision, ?_⟩
  rw [decision_replay hst h, RunState.applyStored]
  have hstate : st.states d.scope.node.nodeId = some old := hold
  have hdec := decision_decodes s run d (spec.refOf n)
  unfold Store.nextEvent at hdec ⊢
  simp only [hnode, hdec, RunState.apply, hstate, hlegal, Except.map]

end

/-- A decision that `admit_decision` records leaves the run replayable, with its
only effect on the node of its packet, exactly when the node its scope names is
gated and waits on that packet. -/
theorem admitDecision_harmless_iff (rt : Runtime) {s s' : Store}
    (hs : (decisionLedger rt).Reachable s) {run : RunId} {spec : GraphSpec} {st : RunState}
    (hst : s.replay run spec = .ok st) {d : GateDecision}
    (h : s.admitDecision rt run d = .ok ((), s')) :
    Harmless s s' run spec st d ↔ st.Awaits d.scope.node.nodeId d.gatePacketId := by
  constructor
  · rintro ⟨packet, next, -, -, hreplay⟩
    exact awaits_of_replays hst h hreplay
  · intro hw
    obtain ⟨packet, hfound, hid, hnode⟩ := (packetsOk_invariant rt s hs).awaited hst hw
    obtain ⟨next, hnext⟩ := replays_of_awaits hst h hw
    refine ⟨packet, next, hfound, ?_, ?_⟩
    · rw [hid, hnode]
      exact hw
    · rw [hnode]
      exact hnext

namespace Pilot

/-- The patch fails and a packet is opened for it; then it is cancelled. -/
def failedAttempt : Attempt :=
  { attemptOf patch [] with
    result := none
    execution := some { outcome := .failed, errorCode := none, errorText := none } }

def failPatch : LedgerOp := .complete scheduler (claimOf patch 1 []) failedAttempt
def tomorrow : Timestamp := ⟨"2026-01-02T00:00:00Z", by decide +kernel⟩
def openPatch : LedgerOp := .openResolveWork spec run patchId now tomorrow
def cancelPatch : LedgerOp := .cancel scheduler patchId

def packetOpen : Store := claimed.play runtime [failPatch, openPatch]
def packetCancelled : Store := claimed.play runtime [failPatch, openPatch, cancelPatch]

/-- A decision on that packet, with the node of the packet in its scope. -/
def retryPatch : GateDecision :=
  { record := .gateDecision, schemaVersion := 1, gatePacketId := ⟨"gate-patch-1", by decide +kernel⟩
    gatePacketDigest := zeroDigest
    authority := { identity := "operator", level := .localController }, decidedAt := now
    decision := .retry, assessment := none
    scope := { runId := runId, node := patchRef, action := none }
    expiresAt := none, authorizationRef := none }

def decided (s : Store) : Store := ((LedgerOp.admitDecision runId retryPatch).exec runtime s).2

theorem play_reachable {allowed : Store → LedgerOp → Prop}
    (hallowed : ∀ s op, op.Legal s → allowed s op) (ops : List LedgerOp)
    (hops : ∀ op ∈ ops, op.Of run spec) :
    (ledgerSystem runtime allowed).Reachable (created.play runtime ops) := by
  have hcreated : (ledgerSystem runtime allowed).Reachable created :=
    .step (a := .createRun run) (.step (a := .storeGraph spec) (.init rfl)
      ⟨hallowed _ _ trivial, rfl⟩) ⟨hallowed _ _ trivial, rfl⟩
  exact (Store.play_reachable hallowed hcreated created_bound hops).1

theorem anyDecision_of_legal (s : Store) (op : LedgerOp) (h : op.Legal s) : op.AnyDecision s := by
  cases op with
  | admitDecision run d => trivial
  | storeGraph | createRun | claimNext | complete | cancel | reclaim | admitReceipt
  | applyRetryPolicy | openResolveWork | revokeReceipt | appendDecision => exact h

end Pilot

open Pilot in
theorem admitDecision_harmless_awaited :
    ∃ st, packetOpen.replay runId spec = .ok st ∧
      Harmless packetOpen (decided packetOpen) runId spec st retryPatch := by
  have hreach := play_reachable anyDecision_of_legal [claimPatch, failPatch, openPatch]
    (by decide +kernel)
  have hst := get_eq (x := packetOpen.replay runId spec) (by decide +kernel)
  refine ⟨_, hst, (admitDecision_harmless_iff runtime hreach hst
    (Store.transaction_ok (by decide +kernel))).mpr ?_⟩
  exact ⟨{ status := .gated, currentAttempt := some one, attemptsStarted := 1, checking := false
           receipt := none, waitingOnGate := some retryPatch.gatePacketId },
    by decide +kernel, rfl, rfl⟩

open Pilot in
/-- A packet's node is cancelled, the decision on it is admitted, and the log of
the run no longer replays. -/
theorem admitDecision_after_cancel :
    (decisionLedger runtime).Reachable packetCancelled ∧
      (packetCancelled.replay runId spec).isOk = true ∧
      packetCancelled.admitDecision runtime runId retryPatch = .ok ((), decided packetCancelled) ∧
      ((decided packetCancelled).replay runId spec).isOk = false ∧
      ∀ st, ¬ Harmless packetCancelled (decided packetCancelled) runId spec st retryPatch := by
  have hfails : ((decided packetCancelled).replay runId spec).isOk = false := by decide +kernel
  refine ⟨play_reachable anyDecision_of_legal [claimPatch, failPatch, openPatch, cancelPatch]
      (by decide +kernel), by decide +kernel,
    Store.transaction_ok (by decide +kernel), hfails, ?_⟩
  rintro st ⟨packet, next, -, -, hreplay⟩
  rw [hreplay] at hfails
  cases hfails

end Checkspan
