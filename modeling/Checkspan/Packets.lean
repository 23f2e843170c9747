import Checkspan.Decisions

/-!
# What a gate packet presents

The receipt of a packet is the newest one of its node, whichever attempt that is about.
Receipts of a node come in the order of its attempts, so it is about the attempt of the
packet exactly when that attempt has a receipt.
-/

namespace Checkspan

open Transition

/-! ### The newest receipt of a node -/

namespace Gates

/-- An event that is no admission for the node changes nothing. -/
theorem lastReceiptId_quiet {events : List StoredEvent} {e : StoredEvent} {id : NodeId}
    (hquiet : ¬ (e.kind = kinds.receiptAdmitted ∧ e.nodeId = some id)) :
    lastReceiptId (events ++ [e]) id = lastReceiptId events id := by
  unfold lastReceiptId
  rw [List.reverse_append, List.reverse_singleton, List.singleton_append,
    List.find?_cons_of_neg (by rwa [decide_eq_true_eq])]

theorem lastReceiptId_admitted {events : List StoredEvent} {e : StoredEvent} {id : NodeId}
    {text : String} (hkind : e.kind = kinds.receiptAdmitted) (hid : e.nodeId = some id)
    (hpayload : e.payload.get "receipt_id" = some (.str text)) :
    lastReceiptId (events ++ [e]) id = some text := by
  unfold lastReceiptId
  rw [List.reverse_append, List.reverse_singleton, List.singleton_append,
    List.find?_cons_of_pos (by rw [decide_eq_true_eq]; exact ⟨hkind, hid⟩)]
  simp only [hpayload]

/-- The same over one event more of any run. -/
theorem lastReceiptId_grown {s s' : Store} {e : StoredEvent} {run : RunId} {id : NodeId}
    (h : s'.events = s.events ++ [e])
    (hquiet : ¬ (e.runId = run ∧ e.kind = kinds.receiptAdmitted ∧ e.nodeId = some id)) :
    lastReceiptId (s'.eventsOf run) id = lastReceiptId (s.eventsOf run) id := by
  by_cases hrun : e.runId = run
  · subst hrun
    rw [Store.eventsOf_self h, lastReceiptId_quiet (fun hadm => hquiet ⟨rfl, hadm⟩)]
  · rw [Store.eventsOf_other h hrun]

end Gates

/-- The receipts about a node, in the order they were admitted. -/
def Store.receiptsOf (s : Store) (run : RunId) (id : NodeId) : List VerifierReceipt :=
  s.receipts.filter (fun r => r.attempt.runId = run ∧ r.attempt.node.nodeId = id)

theorem Store.mem_receiptsOf {s : Store} {run : RunId} {id : NodeId} {r : VerifierReceipt} :
    r ∈ s.receiptsOf run id ↔
      r ∈ s.receipts ∧ r.attempt.runId = run ∧ r.attempt.node.nodeId = id := by
  unfold Store.receiptsOf
  rw [List.mem_filter, decide_eq_true_eq]

/-- Of two receipts of a run the later one has another id, and is about a later attempt if
both are about one node. -/
def VerifierReceipt.Precedes (a b : VerifierReceipt) : Prop :=
  a.attempt.runId = b.attempt.runId → a.id ≠ b.id ∧
    (a.attempt.node.nodeId = b.attempt.node.nodeId → a.attempt.number.get < b.attempt.number.get)

/-- The log names the newest receipt of every node, receipts come in the order of the
attempts, and an attempt names its node as the graph of its run does. -/
structure Store.ReceiptsInOrder (s : Store) : Prop where
  newest : ∀ run id, Gates.lastReceiptId (s.eventsOf run) id =
    (s.receiptsOf run id).getLast?.map (·.id.text)
  rising : s.receipts.Pairwise VerifierReceipt.Precedes
  nodeRefs : ∀ a ∈ s.attempts, ∃ run spec, s.Stored run spec ∧ run.runId = a.runId ∧
    spec.nodeRef a.node.nodeId = some a.node

section

variable {rt : Runtime} {s s' : Store}

/-- A step that admits no receipt leaves the newest one of every node. -/
theorem LedgerStep.quiet_log {label : Option (RunId × NodeId × NodeEvent)}
    (h : LedgerStep rt s label s')
    (hquiet : ∀ run id k r v, label ≠ some (run, id, .receiptAdmitted k r v)) (run : RunId)
    (id : NodeId) :
    Gates.lastReceiptId (s'.eventsOf run) id = Gates.lastReceiptId (s.eventsOf run) id := by
  cases label with
  | none =>
    cases h with
    | same => rfl
    | graph row fresh => rfl
    | run r fresh known =>
      refine Gates.lastReceiptId_grown rfl ?_
      rintro ⟨-, -, hnode⟩
      cases hnode
    | revoke r payload known =>
      refine Gates.lastReceiptId_grown rfl ?_
      rintro ⟨-, -, hnode⟩
      cases hnode
  | some l =>
    obtain ⟨r, i, e⟩ := l
    obtain ⟨record, spec, st, old, new, payload, hrec⟩ := h.recorded
    refine Gates.lastReceiptId_grown hrec.events ?_
    rintro ⟨-, hkind, -⟩
    cases e with
    | receiptAdmitted k ref v => exact hquiet r i k ref v rfl
    | dispatched k => exact absurd hkind (show kinds.attemptDispatched ≠ _ by decide)
    | executionFinished k o d => exact absurd hkind (show kinds.attemptSealed ≠ _ by decide)
    | gateOpened p => exact absurd hkind (show kinds.gateOpened ≠ _ by decide)
    | decisionAdmitted p d => exact absurd hkind (show kinds.decisionAdmitted ≠ _ by decide)
    | retryAllowed => exact absurd hkind (show kinds.retryAllowed ≠ _ by decide)
    | cancelled => exact absurd hkind (show kinds.nodeCancelled ≠ _ by decide)

/-- The number of a receipt is one its node has started. -/
theorem Store.ReceiptsOk.number_le (h : s.ReceiptsOk rt) (hc : s.ClaimsOk) {r : VerifierReceipt}
    (hr : r ∈ s.receipts) :
    r.attempt.number.get ≤ s.started r.attempt.runId r.attempt.node.nodeId := by
  obtain ⟨run, spec, node, a, result, hb⟩ := h.bound r hr
  obtain ⟨row, hrow, hkey⟩ := List.mem_map.mp (hc.claimed a hb.row)
  rw [hb.key_eq] at hkey
  simp only [ClaimRow.key, VerifierReceipt.key, Prod.mk.injEq] at hkey
  have hle := hc.number_le hrow
  rwa [hkey.1, hkey.2.1, hkey.2.2] at hle

/-- A sealed attempt is an old one, or names its node as the graph of its run does. -/
theorem LedgerStep.attempt_node {label : Option (RunId × NodeId × NodeEvent)}
    (h : LedgerStep rt s label s') {a : Attempt} (ha : a ∈ s'.attempts) :
    a ∈ s.attempts ∨ ∃ run spec, s.Stored run spec ∧ run.runId = a.runId ∧
      spec.nodeRef a.node.nodeId = some a.node := by
  cases h with
  | @complete sched claim attempt _ row execution st state next record hrun bound h =>
    rw [h.store_eq] at ha
    rcases List.mem_append.mp ha with ha | ha
    · exact Or.inl ha
    · obtain rfl := List.mem_singleton.mp ha
      refine Or.inr ⟨record, sched.spec, bound.1, hrun.trans h.runId_eq.symm, ?_⟩
      rw [GraphSpec.nodeRef_nodeId h.nodeRef_eq]
      exact h.nodeRef_eq
  | @reclaim sched id now number _ node row startedAt st state next bound h =>
    rw [h.store_eq] at ha
    rcases List.mem_append.mp ha with ha | ha
    · exact Or.inl ha
    · obtain rfl := List.mem_singleton.mp ha
      refine Or.inr ⟨sched.run, sched.spec, bound.1, rfl, ?_⟩
      have hnode := h.nodeRef_eq
      rw [← GraphSpec.nodeRef_nodeId hnode] at hnode
      exact hnode
  | claim bound h =>
    rw [h.store_eq] at ha
    exact Or.inl ha
  | cancel bound h =>
    rw [h.store_eq] at ha
    exact Or.inl ha
  | admitted bound h =>
    rw [h.store_eq] at ha
    exact Or.inl ha
  | opened bound h =>
    rw [h.store_eq] at ha
    exact Or.inl ha
  | same | graph | run | revoke | retry | exhausted | decided => exact Or.inl ha

/-- An admitted receipt follows every earlier one. -/
theorem Receipts.Admitted.follows {spec : GraphSpec} {run : GraphRun} {receipt : VerifierReceipt}
    {now : Timestamp} {node : NodeSpec} {attempt : Attempt} {result : ResultRef} {st : RunState}
    {state : NodeState}
    (h : Receipts.Admitted rt s spec run receipt now s' node attempt result st state)
    (bound : s.Bound run spec) (hs : s.Sound) (hc : s.ClaimsOk) (hr : s.ReceiptsOk rt)
    {q : VerifierReceipt} (hq : q ∈ s.receipts) : q.Precedes receipt := by
  intro hrun
  refine ⟨h.idFree q hq hrun, ?_⟩
  intro hid
  have hle := hr.number_le hc hq
  have hnode : s.nodeState run.runId receipt.attempt.node.nodeId = some state :=
    (hs.nodeState_of_replay bound.1 h.replayed _).trans h.state_eq
  have hlast := (Store.nodeState_wf hnode).currentIsLast _ h.current
  have hstarted : s.started q.attempt.runId q.attempt.node.nodeId = state.attemptsStarted := by
    unfold Store.started
    rw [hrun, hid, h.runId_eq, hnode]
  -- The attempt under check has no receipt yet.
  have hother : q.attempt.number.get ≠ receipt.attempt.number.get := by
    intro hsame
    have hrunning := (RunState.replay_wf h.replayed h.state_eq).checkingRuns h.checking
    refine hr.decided q hq state ?_ ⟨hrunning, ?_⟩
    · rw [hrun, hid, h.runId_eq]
      exact hnode
    · rw [PositiveU32.ext_get hsame]
      exact h.current
  omega

theorem Store.ReceiptsInOrder.step (h : s.ReceiptsInOrder) (hs : s.Sound) (hc : s.ClaimsOk)
    (hr : s.ReceiptsOk rt) {label : Option (RunId × NodeId × NodeEvent)}
    (hstep : LedgerStep rt s label s') : s'.ReceiptsInOrder := by
  have hrefs : ∀ a ∈ s'.attempts, ∃ run spec, s'.Stored run spec ∧ run.runId = a.runId ∧
      spec.nodeRef a.node.nodeId = some a.node := by
    intro a ha
    have hold : ∃ run spec, s.Stored run spec ∧ run.runId = a.runId ∧
        spec.nodeRef a.node.nodeId = some a.node :=
      (hstep.attempt_node ha).elim (h.nodeRefs a) id
    obtain ⟨run, spec, hstored, hrest⟩ := hold
    exact ⟨run, spec, hstep.stored hstored, hrest⟩
  rcases hstep.receipts_cases with ⟨hsame, hquiet⟩ |
    ⟨spec, run, receipt, now, node, attempt, result, st, state, bound, hadm, rfl⟩
  · refine ⟨?_, by rw [hsame]; exact h.rising, hrefs⟩
    intro run id
    rw [hstep.quiet_log hquiet, h.newest]
    unfold Store.receiptsOf
    rw [hsame]
  · have hreceipts : s'.receipts = s.receipts ++ [receipt] := by rw [hadm.store_eq]
    have hevents : s'.events = s.events ++ [s.nextEvent receipt.attempt.runId
        (some receipt.attempt.node.nodeId) kinds.receiptAdmitted
        (Receipts.admittedPayload receipt)] := by rw [hadm.store_eq]
    refine ⟨?_, ?_, hrefs⟩
    · intro r id
      unfold Store.receiptsOf
      rw [hreceipts, List.filter_append]
      by_cases hown : receipt.attempt.runId = r ∧ receipt.attempt.node.nodeId = id
      · obtain ⟨rfl, rfl⟩ := hown
        rw [List.filter_cons_of_pos (by simp), List.filter_nil, List.getLast?_concat]
        have hlog := Store.eventsOf_self hevents
        rw [show (s.nextEvent _ _ _ _).runId = receipt.attempt.runId from rfl] at hlog
        rw [hlog, Gates.lastReceiptId_admitted rfl rfl rfl]
        rfl
      · rw [List.filter_cons_of_neg (by simpa using hown), List.filter_nil, List.append_nil]
        rw [Gates.lastReceiptId_grown hevents, h.newest]
        · rfl
        · rintro ⟨hrun, -, hid⟩
          exact hown ⟨hrun, Option.some.inj hid⟩
    · rw [hreceipts, List.pairwise_append]
      refine ⟨h.rising, List.pairwise_singleton _ _, ?_⟩
      intro q hq x hx
      rw [List.mem_singleton.mp hx]
      exact hadm.follows bound hs hc hr hq

end

theorem receiptsInOrder_invariant (rt : Runtime) :
    (legalLedger rt).Invariant Store.ReceiptsInOrder := by
  refine System.Invariant.step (((sound_invariant rt).and (claimsOk_invariant rt)).and
    (receiptsOk_invariant rt)) ?_ ?_
  · rintro s rfl
    exact ⟨fun _ _ => rfl, List.Pairwise.nil, fun _ h => absurd h List.not_mem_nil⟩
  · rintro s op s' ⟨⟨hs, hc⟩, hr⟩ h ⟨legal, rfl⟩
    exact h.step hs hc hr (exec_step rt s legal)

/-- A run and an id name one receipt. -/
theorem Store.ReceiptsInOrder.id_unique {s : Store} (h : s.ReceiptsInOrder) {q r : VerifierReceipt}
    (hq : q ∈ s.receipts) (hr : r ∈ s.receipts) (hrun : q.attempt.runId = r.attempt.runId)
    (hid : q.id = r.id) : q = r := by
  have hkeys : (s.receipts.map (fun r => (r.attempt.runId, r.id))).Nodup := by
    refine List.pairwise_map.mpr (h.rising.imp ?_)
    intro a b hab hsame
    obtain ⟨hruns, hids⟩ := Prod.mk.inj hsame
    exact (hab hruns).1 hids
  exact List.inj_on_of_nodup_map hkeys hq hr (Prod.ext hrun hid)

/-- No receipt of a node is about a later attempt than the newest one. -/
theorem Store.ReceiptsInOrder.number_le_newest {s : Store} (h : s.ReceiptsInOrder) {run : RunId}
    {id : NodeId} {q r : VerifierReceipt} (hlast : (s.receiptsOf run id).getLast? = some r)
    (hq : q ∈ s.receiptsOf run id) : q = r ∨ q.attempt.number.get < r.attempt.number.get := by
  have hrising : (s.receiptsOf run id).Pairwise VerifierReceipt.Precedes := h.rising.filter _
  obtain ⟨before, hlist⟩ := List.getLast?_eq_some_iff.mp hlast
  have hr := Store.mem_receiptsOf.mp (List.mem_of_getLast? hlast)
  have hq' := Store.mem_receiptsOf.mp hq
  rw [hlist] at hrising hq
  rcases List.mem_append.mp hq with hq | hq
  · have hprec := (List.pairwise_append.mp hrising).2.2 q hq r (List.mem_singleton_self r)
    exact Or.inr ((hprec (hq'.2.1.trans hr.2.1.symm)).2 (hq'.2.2.trans hr.2.2.symm))
  · exact Or.inl (List.mem_singleton.mp hq)

/-! ### The context of a packet -/

namespace Gates

variable {rt : Runtime} {s s' : Store} {spec : GraphSpec} {run : GraphRun} {id : NodeId}
  {packet : GatePacket}

/-- The references of a packet to an attempt, to a receipt and to the attempt's result. -/
def attemptContext (a : Attempt) (digest : Digest) : ContextRef :=
  { kind := .attempt, id := a.attemptRef.display, digest := digest }

def receiptRefContext (r : VerifierReceipt) (digest : Digest) : ContextRef :=
  { kind := .receipt, id := r.id.text, digest := digest }

def artifactContext (a : Attempt) : List ContextRef :=
  (a.result.map (fun result =>
    { kind := .artifact, id := result.artifactRef, digest := result.digest })).toList

/-- The current attempt of the node, and the context the packet has of it. -/
structure BuiltFrom (rt : Runtime) (s : Store) (spec : GraphSpec) (run : GraphRun) (id : NodeId)
    (packet : GatePacket) (st : RunState) (state : NodeState) (a : Attempt) : Prop where
  replayed : s.replay run.runId spec = .ok st
  state_eq : st.node id = some state
  current : state.currentAttempt = some a.number
  row : a ∈ s.attempts
  key_eq : a.key = (run.runId, id, a.number)
  nodeRef_eq : spec.nodeRef id = some packet.node
  context : contextRefs rt s run.runId id a = .ok packet.contextRefs

theorem openResolveWork_built {now expiresAt : Timestamp}
    (h : openResolveWork rt s spec run id now expiresAt = .ok (packet, s')) :
    ∃ st state a, BuiltFrom rt s spec run id packet st state a := by
  unfold openResolveWork at h
  obtain ⟨_, -, h⟩ := bind_ok h
  obtain ⟨node, hnode, h⟩ := bind_ok h
  obtain ⟨st, hst, h⟩ := bind_ok h
  obtain ⟨state, hstate, h⟩ := bind_ok h
  obtain ⟨number, hnumber, h⟩ := bind_ok h
  obtain ⟨sealedRow, hsealed, h⟩ := bind_ok h
  obtain ⟨attempt, hattempt, h⟩ := bind_ok h
  obtain ⟨packet', hpacket, h⟩ := bind_ok h
  obtain ⟨_, -, h⟩ := bind_ok h
  obtain ⟨next, -, h⟩ := bind_ok h
  obtain ⟨s₁, -, h⟩ := bind_ok h
  obtain ⟨s₂, -, h⟩ := bind_ok h
  cases h
  unfold buildPacket at hpacket
  obtain ⟨refs, hrefs, hpacket⟩ := bind_ok hpacket
  obtain ⟨packetName, -, hpacket⟩ := bind_ok hpacket
  obtain ⟨digest, -, hpacket⟩ := bind_ok hpacket
  cases hpacket
  have hfound := mapError_ok hsealed
  rw [someOr_ok hattempt] at hfound
  obtain ⟨hrow, hkey⟩ := Store.attempt_some hfound
  have hid := GraphSpec.findNode_id (someOr_ok hnode)
  have hown : attempt.number = number := by
    simp only [Attempt.key, Prod.mk.injEq] at hkey
    exact hkey.2.2
  refine ⟨st, state, attempt, ?_⟩
  exact { replayed := mapError_ok hst
          state_eq := someOr_ok hstate
          current := by rw [hown]; exact someOr_ok hnumber
          row := hrow
          key_eq := by rw [hown]; exact hkey
          nodeRef_eq := by rw [GraphSpec.nodeRef, someOr_ok hnode]; rfl
          context := by rw [← hid]; exact hrefs }

/-- The receipt a packet refers to is the newest one of the node. -/
theorem receiptContext_newest (hord : s.ReceiptsInOrder) {run : RunId} {refs : List ContextRef}
    (h : receiptContext rt s run id = .ok refs) :
    ((s.receiptsOf run id).getLast? = none ∧ refs = []) ∨
    ∃ r digest, (s.receiptsOf run id).getLast? = some r ∧
      digestOfRecord rt r.toJson = .ok digest ∧ refs = [receiptRefContext r digest] := by
  unfold receiptContext at h
  rw [hord.newest] at h
  cases hlast : (s.receiptsOf run id).getLast? with
  | none =>
    rw [hlast] at h
    cases h
    exact Or.inl ⟨rfl, rfl⟩
  | some r =>
    rw [hlast] at h
    obtain ⟨stored, hstored, h⟩ := bind_ok h
    obtain ⟨hmem, hrun, hid⟩ := Store.mem_receiptsOf.mp (List.mem_of_getLast? hlast)
    have hfind : s.receipts.find? (fun q => q.attempt.runId = run ∧ q.id.text = r.id.text) =
        some r := by
      refine find?_of_unique hmem (by simp [hrun]) ?_
      intro q hq hsame
      rw [decide_eq_true_eq] at hsame
      exact hord.id_unique hq hmem (hsame.1.trans hrun.symm) (Identifier.ext_text hsame.2)
    have hread := mapError_ok hstored
    unfold Store.receipt at hread
    rw [hfind] at hread
    obtain rfl : stored = some r := by
      cases stored with
      | none =>
        have hnone := Store.readOptional_none hread
        cases hnone
      | some q => exact (Store.readOptional_some hread).1.symm
    obtain ⟨digest, hdigest, h⟩ := bind_ok h
    cases h
    exact Or.inr ⟨r, digest, rfl, mapError_ok hdigest, rfl⟩

theorem contextRefs_ok {run : RunId} {a : Attempt} {refs : List ContextRef}
    (h : contextRefs rt s run id a = .ok refs) : ∃ digest receipts,
      digestOfRecord rt a.toJson = .ok digest ∧ receiptContext rt s run id = .ok receipts ∧
      refs = attemptContext a digest :: receipts ++ artifactContext a := by
  unfold contextRefs at h
  obtain ⟨digest, hdigest, h⟩ := bind_ok h
  obtain ⟨receipts, hreceipts, h⟩ := bind_ok h
  cases h
  refine ⟨digest, receipts, mapError_ok hdigest, hreceipts, ?_⟩
  unfold artifactContext
  cases a.result <;> rfl

end Gates

/-- The context of the packet is the attempt, the receipt admitted for that very attempt if
there is one, and the attempt's result if it has one. -/
def GatePacket.Presents (rt : Runtime) (s : Store) (packet : GatePacket) (a : Attempt) : Prop :=
  ∃ digest, digestOfRecord rt a.toJson = .ok digest ∧
    ((packet.contextRefs = Gates.attemptContext a digest :: Gates.artifactContext a ∧
        ∀ r ∈ s.receipts, r.attempt ≠ a.attemptRef) ∨
      ∃ r ∈ s.receipts, ∃ receiptDigest, r.attempt = a.attemptRef ∧
        digestOfRecord rt r.toJson = .ok receiptDigest ∧
        packet.contextRefs = Gates.attemptContext a digest ::
          Gates.receiptRefContext r receiptDigest :: Gates.artifactContext a)

/-- A packet is about the current sealed attempt of its node, and presents it exactly when no
attempt of the node has a receipt or that one has. -/
theorem packet_presents_iff (rt : Runtime) {s s' : Store} (hs : (legalLedger rt).Reachable s)
    {spec : GraphSpec} {run : GraphRun} {id : NodeId} {now expiresAt : Timestamp}
    {packet : GatePacket} (hbound : s.Bound run spec)
    (h : Gates.openResolveWork rt s spec run id now expiresAt = .ok (packet, s')) :
    ∃ st state a, s.replay run.runId spec = .ok st ∧ st.node id = some state ∧
      state.currentAttempt = some a.number ∧ a ∈ s.attempts ∧
      a.attemptRef = ⟨run.runId, packet.node, a.number⟩ ∧
      (packet.Presents rt s a ↔
        ((∃ r ∈ s.receipts, r.attempt.runId = run.runId ∧ r.attempt.node.nodeId = id) →
          ∃ r ∈ s.receipts, r.attempt = a.attemptRef)) := by
  have hsound := sound_invariant rt s hs
  have hord := receiptsInOrder_invariant rt s hs
  have hclaims := claimsOk_invariant rt s hs
  have hreceipts := receiptsOk_invariant rt s hs
  obtain ⟨st, state, a, hbuilt⟩ := Gates.openResolveWork_built h
  have hkey := hbuilt.key_eq
  simp only [Attempt.key, Prod.mk.injEq, and_true] at hkey
  obtain ⟨hrun, hid⟩ := hkey
  have href : a.attemptRef = ⟨run.runId, packet.node, a.number⟩ := by
    obtain ⟨run', spec', hstored, hrun', hnode⟩ := hord.nodeRefs a hbuilt.row
    obtain ⟨rfl, rfl⟩ := hsound.stored_unique hstored hbound.1 (hrun'.trans hrun)
    rw [hid, hbuilt.nodeRef_eq] at hnode
    rw [Attempt.attemptRef, hrun, ← Option.some.inj hnode]
  have hnodeId : packet.node.nodeId = id := GraphSpec.nodeRef_nodeId hbuilt.nodeRef_eq
  have hown : ∀ r ∈ s.receipts, r.attempt = a.attemptRef → r ∈ s.receiptsOf run.runId id := by
    intro r hr hattempt
    rw [Store.mem_receiptsOf, hattempt, href]
    exact ⟨hr, rfl, hnodeId⟩
  refine ⟨st, state, a, hbuilt.replayed, hbuilt.state_eq, hbuilt.current, hbuilt.row, href, ?_⟩
  obtain ⟨digest, refs, hdigest, hrefs, hcontext⟩ := Gates.contextRefs_ok hbuilt.context
  rcases Gates.receiptContext_newest hord hrefs with ⟨hnone, rfl⟩ | ⟨r, rdigest, hlast, hr, rfl⟩
  · have hempty := List.getLast?_eq_none_iff.mp hnone
    have hnot : ∀ r, r ∉ s.receiptsOf run.runId id := by
      intro r
      rw [hempty]
      exact List.not_mem_nil
    refine iff_of_true ⟨digest, hdigest, Or.inl ⟨hcontext, ?_⟩⟩ ?_
    · exact fun r hr hattempt => hnot r (hown r hr hattempt)
    · rintro ⟨r, hr, hmine⟩
      exact absurd (Store.mem_receiptsOf.mpr ⟨hr, hmine⟩) (hnot r)
  · have hlastMem := Store.mem_receiptsOf.mp (List.mem_of_getLast? hlast)
    by_cases hsame : r.attempt = a.attemptRef
    · exact iff_of_true ⟨digest, hdigest, Or.inr ⟨r, hlastMem.1, rdigest, hsame, hr, hcontext⟩⟩
        (fun _ => ⟨r, hlastMem.1, hsame⟩)
    · refine iff_of_false ?_ ?_
      · rintro ⟨digest', -, ⟨hshort, -⟩ | ⟨q, hq, qdigest, hattempt, -, hlong⟩⟩
        · rw [hcontext] at hshort
          have hlengths := congrArg List.length hshort
          simp only [List.cons_append, List.nil_append, List.length_cons] at hlengths
          omega
        · rw [hcontext] at hlong
          simp only [List.cons_append, List.nil_append, List.cons.injEq] at hlong
          have hids : r.id.text = q.id.text := congrArg ContextRef.id hlong.2.1
          have hq' := Store.mem_receiptsOf.mp (hown q hq hattempt)
          have heq := hord.id_unique hlastMem.1 hq (hlastMem.2.1.trans hq'.2.1.symm)
            (Identifier.ext_text hids)
          exact hsame (heq ▸ hattempt)
      · intro hall
        obtain ⟨q, hq, hattempt⟩ := hall ⟨r, hlastMem⟩
        -- The newest receipt is about no later attempt than the current one.
        have hle := hreceipts.number_le hclaims hlastMem.1
        have hstate : s.nodeState run.runId id = some state :=
          (hsound.nodeState_of_replay hbound.1 hbuilt.replayed _).trans hbuilt.state_eq
        have hcurrent := (Store.nodeState_wf hstate).currentIsLast _ hbuilt.current
        have hstarted : s.started r.attempt.runId r.attempt.node.nodeId =
            state.attemptsStarted := by
          unfold Store.started
          rw [hlastMem.2.1, hlastMem.2.2, hstate]
        have hnumber : q.attempt.number = a.number := congrArg AttemptRef.number hattempt
        rcases hord.number_le_newest hlast (hown q hq hattempt) with rfl | hlt
        · exact hsame hattempt
        · rw [hnumber] at hlt
          omega

namespace Pilot

/-- The patch alone, retried after a rejection: the first attempt is rejected, the second
fails. -/
def strictPatch : NodeSpec :=
  { patch with retryPolicy := { patch.retryPolicy with allowedFailureClasses := [.rejected] } }

def strictSpec : GraphSpec := { spec with nodes := [strictPatch], targets := [patchRef] }

def strictScheduler : Scheduler :=
  get (Scheduler.new strictSpec run controller) (by decide +kernel)

def rejection : VerifierReceipt :=
  { receiptOf patch [] ⟨"receipt-rejected", by decide +kernel⟩ with
    verdict := .reject
    reasonCode := some ident }

def secondFailure : Attempt := { failedAttempt with number := two }

def strictOps : List LedgerOp :=
  [.claimNext strictScheduler now "2026-01-01T00:00:01Z",
    .complete strictScheduler (claimOf patch 1 []) (attemptOf patch []),
    .admitReceipt strictSpec run rejection now,
    .applyRetryPolicy strictSpec run patchId Narrowing.empty now,
    .claimNext strictScheduler now "2026-01-01T00:00:03Z",
    .complete strictScheduler { claimOf patch 2 [] with number := two } secondFailure]

def strictCreated : Store := Store.empty.play runtime [.storeGraph strictSpec, .createRun run]

def failedTwice : Store := strictCreated.play runtime strictOps

theorem strictScheduler_eq : strictScheduler.run = run ∧ strictScheduler.spec = strictSpec := by
  decide +kernel

theorem strictCreated_bound : (legalLedger runtime).Reachable strictCreated ∧
    strictCreated.Bound run strictSpec := by
  have hcreated : (legalLedger runtime).Reachable strictCreated :=
    .step (a := .createRun run) (.step (a := .storeGraph strictSpec) (.init rfl) ⟨trivial, rfl⟩)
      ⟨trivial, rfl⟩
  have hadmitted := strictScheduler.admitted
  rw [strictScheduler_eq.2] at hadmitted
  exact ⟨hcreated, ⟨by decide +kernel, by decide +kernel⟩, strictScheduler.graph, hadmitted⟩

theorem failedTwice_bound : (legalLedger runtime).Reachable failedTwice ∧
    failedTwice.Bound run strictSpec :=
  Store.play_reachable (fun _ _ legal => legal) strictCreated_bound.1 strictCreated_bound.2
    (by decide +kernel)

/-- The first attempt of the patch is rejected. -/
def rejectedOnce : Store := strictCreated.play runtime (strictOps.take 3)

theorem rejectedOnce_bound : (legalLedger runtime).Reachable rejectedOnce ∧
    rejectedOnce.Bound run strictSpec :=
  Store.play_reachable (fun _ _ legal => legal) strictCreated_bound.1 strictCreated_bound.2
    (by decide +kernel)

end Pilot

open Pilot in
/-- A packet for a rejected attempt presents the attempt, its receipt and its result. -/
theorem packet_presents_iff_failed : ∃ packet s',
    Gates.openResolveWork runtime rejectedOnce strictSpec run patchId now tomorrow =
        .ok (packet, s') ∧
      packet.contextRefs.map (·.kind) = [.attempt, .receipt, .artifact] ∧
      packet.Presents runtime rejectedOnce (attemptOf patch []) := by
  have hopen := get_eq
    (x := Gates.openResolveWork runtime rejectedOnce strictSpec run patchId now tomorrow)
    (by decide +kernel)
  refine ⟨_, _, hopen, by decide +kernel, ?_⟩
  obtain ⟨st, state, a, -, -, -, ha, -, hiff⟩ :=
    packet_presents_iff runtime rejectedOnce_bound.1 rejectedOnce_bound.2 hopen
  have hattempts : rejectedOnce.attempts = [attemptOf patch []] := by decide +kernel
  rw [hattempts, List.mem_singleton] at ha
  subst ha
  refine hiff.mpr (fun _ => ⟨rejection, ?_, rfl⟩)
  have hreceipts : rejectedOnce.receipts = [rejection] := by decide +kernel
  rw [hreceipts]
  exact List.mem_singleton_self _

open Pilot in
/-- A packet for the second attempt of a node refers to the receipt of the first. -/
theorem packet_presents_earlier_receipt : (legalLedger runtime).Reachable failedTwice ∧
    failedTwice.Bound run strictSpec ∧ ∃ packet s',
      Gates.openResolveWork runtime failedTwice strictSpec run patchId now tomorrow =
        .ok (packet, s') ∧
      secondFailure ∈ failedTwice.attempts ∧
      packet.contextRefs.map (fun c => (c.kind, c.id)) =
        [(.attempt, secondFailure.attemptRef.display), (.receipt, rejection.id.text)] ∧
      rejection.attempt.number ≠ secondFailure.number ∧
      ¬ packet.Presents runtime failedTwice secondFailure := by
  have hopen := get_eq
    (x := Gates.openResolveWork runtime failedTwice strictSpec run patchId now tomorrow)
    (by decide +kernel)
  generalize hout : get (Gates.openResolveWork runtime failedTwice strictSpec run patchId now
    tomorrow) (by decide +kernel) = out at hopen
  have hrefs : out.1.contextRefs.map (fun c => (c.kind, c.id)) =
      [(.attempt, secondFailure.attemptRef.display), (.receipt, rejection.id.text)] := by
    rw [← hout]
    decide +kernel
  refine ⟨failedTwice_bound.1, failedTwice_bound.2, out.1, out.2, hopen, by decide +kernel, hrefs,
    by decide +kernel, ?_⟩
  rintro ⟨digest, -, ⟨hshort, -⟩ | ⟨r, hr, -, hattempt, -⟩⟩
  · rw [hshort] at hrefs
    cases hrefs
  · have hall : ∀ r ∈ failedTwice.receipts, r.attempt ≠ secondFailure.attemptRef := by
      decide +kernel
    exact hall r hr hattempt

end Checkspan
