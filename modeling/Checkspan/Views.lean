import Mathlib.Data.List.Induction
import Checkspan.Contracts.View
import Checkspan.Decisions

/-!
# Views of replayed states

A view takes its receipt from the node state, and every transition has to leave
the receipt that the status it reaches allows. The events about a node that come
last decide which receipt is there.
-/

namespace Checkspan

/-- `to_view` (`state/mod.rs:526-539`). -/
def NodeState.toView (s : NodeState) (runId : RunId) (node : NodeRef) : NodeView :=
  { record := .nodeView, schemaVersion := 1, runId := runId, node := node, status := s.status
    currentAttempt := s.currentAttempt, receipt := s.receipt, blockedReason := none
    waitingOnGate := s.waitingOnGate }

/-- `views` (`state/mod.rs:615-627`): the graph's nodes in document order; `none`
is the failed `expect`. -/
def RunState.views (st : RunState) (spec : GraphSpec) : Option (List NodeView) :=
  spec.nodes.mapM (fun n => (st.node n.id).map (fun s => s.toView st.runId (spec.refOf n)))

/-! ### The last events about a node -/

namespace StoredEvent

/-- The verdict a stored event records. -/
def verdict (e : StoredEvent) : Option Verdict :=
  if e.kind = kinds.receiptAdmitted then (NodeEvent.field e "verdict" decodeVerdict).toOption
  else none

/-- The event records an accepting or a rejecting verdict. -/
def Decides (e : StoredEvent) : Prop := e.verdict = some .accept ∨ e.verdict = some .reject

end StoredEvent

/-- The events about one node, in order. -/
def eventsAbout (events : List StoredEvent) (id : NodeId) : List StoredEvent :=
  events.filter (fun e => e.nodeId = some id)

theorem verdict_of_kind {e : StoredEvent} (h : e.kind ≠ kinds.receiptAdmitted) :
    e.verdict = none := if_neg h

theorem NodeEvent.verdict_of_decoded {e : StoredEvent} {node : NodeRef} {ev : NodeEvent}
    (h : fromStored e node = .ok ev) (hne : ∀ k r v, ev ≠ .receiptAdmitted k r v) :
    e.verdict = none := by
  refine verdict_of_kind ?_
  rw [(fromStored_ok h).1]
  cases ev with
  | receiptAdmitted k r v => exact absurd rfl (hne k r v)
  | dispatched k => exact show kinds.attemptDispatched ≠ kinds.receiptAdmitted by decide
  | executionFinished k o d => exact show kinds.attemptSealed ≠ kinds.receiptAdmitted by decide
  | gateOpened p => exact show kinds.gateOpened ≠ kinds.receiptAdmitted by decide
  | decisionAdmitted p d => exact show kinds.decisionAdmitted ≠ kinds.receiptAdmitted by decide
  | retryAllowed => exact show kinds.retryAllowed ≠ kinds.receiptAdmitted by decide
  | cancelled => exact show kinds.nodeCancelled ≠ kinds.receiptAdmitted by decide

theorem NodeEvent.verdict_of_receipt {e : StoredEvent} {node : NodeRef} {k : AttemptNumber}
    {r : ReceiptRef} {v : Verdict} (h : fromStored e node = .ok (.receiptAdmitted k r v)) :
    e.verdict = some v ∧ r = ⟨r.id, e.runId, node⟩ := by
  obtain ⟨hkind, -, -, hr, hv⟩ := fromStored_ok h
  refine ⟨?_, hr⟩
  have hif : e.kind = kinds.receiptAdmitted := hkind
  rw [StoredEvent.verdict, if_pos hif, hv]
  rfl

theorem NodeEvent.cancelled_of_kind {e : StoredEvent} {node : NodeRef} {ev : NodeEvent}
    (h : fromStored e node = .ok ev) (hk : e.kind = kinds.nodeCancelled) : ev = .cancelled := by
  rw [(fromStored_ok h).1] at hk
  cases ev with
  | cancelled => rfl
  | dispatched k => exact absurd hk (show kinds.attemptDispatched ≠ kinds.nodeCancelled by decide)
  | executionFinished k o d =>
    exact absurd hk (show kinds.attemptSealed ≠ kinds.nodeCancelled by decide)
  | receiptAdmitted k r v =>
    exact absurd hk (show kinds.receiptAdmitted ≠ kinds.nodeCancelled by decide)
  | gateOpened p => exact absurd hk (show kinds.gateOpened ≠ kinds.nodeCancelled by decide)
  | decisionAdmitted p d =>
    exact absurd hk (show kinds.decisionAdmitted ≠ kinds.nodeCancelled by decide)
  | retryAllowed => exact absurd hk (show kinds.retryAllowed ≠ kinds.nodeCancelled by decide)

/-- How the events about a node end, and the receipt that leaves on its state: a
verdict's own, the rejecting one a cancellation left there, or none. -/
inductive Ending (node : NodeRef) (xs : List StoredEvent) (s : NodeState) : Prop
  | decided (e : StoredEvent) (id : Ident) (last : xs.getLast? = some e)
      (hs : e.verdict = some .accept ∧ s.status = .accepted ∨
        e.verdict = some .reject ∧ s.status = .rejected)
      (hr : s.receipt = some ⟨id, e.runId, node⟩)
  | left (e c : StoredEvent) (r : ReceiptRef) (before : xs.dropLast.getLast? = some e)
      (last : xs.getLast? = some c) (hv : e.verdict = some .reject)
      (hc : c.kind = kinds.nodeCancelled) (hs : s.status = .cancelled) (hr : s.receipt = some r)
  | clear (hr : s.receipt = none) (hd : ∀ e, xs.getLast? = some e → ¬ e.Decides)
      (hl : ∀ e c, xs.dropLast.getLast? = some e → xs.getLast? = some c →
        e.verdict = some .reject → c.kind ≠ kinds.nodeCancelled)

namespace Ending

variable {node : NodeRef} {xs : List StoredEvent} {s s' : NodeState} {e : StoredEvent}

/-- A node whose last event rejects is rejected. -/
theorem rejected (h : Ending node xs s) (last : xs.getLast? = some e)
    (hv : e.verdict = some .reject) : s.status = .rejected := by
  cases h with
  | decided e' id last' hs hr =>
    obtain rfl := Option.some.inj (last.symm.trans last')
    rcases hs with ⟨ha, -⟩ | ⟨-, hs⟩
    · rw [hv] at ha
      cases ha
    · exact hs
  | left e' c r before last' hv' hc hs hr =>
    obtain rfl := Option.some.inj (last.symm.trans last')
    rw [verdict_of_kind (by rw [hc]; decide)] at hv
    cases hv
  | clear hr hd hl => exact absurd (Or.inr hv) (hd e last)

/-- An event that decides nothing and is no cancellation of a rejected node, onto
a state without a receipt. -/
theorem quiet (h : Ending node xs s) (hr : s'.receipt = none) (hd : ¬ e.Decides)
    (hc : e.kind = kinds.nodeCancelled → s.status ≠ .rejected) : Ending node (xs ++ [e]) s' := by
  refine Ending.clear hr ?_ ?_
  · intro x hx
    rw [List.getLast?_concat, Option.some.injEq] at hx
    exact hx ▸ hd
  · intro x c hx hlast hv
    rw [List.dropLast_concat] at hx
    rw [List.getLast?_concat, Option.some.injEq] at hlast
    intro hkind
    rw [← hlast] at hkind
    exact hc hkind (h.rejected hx hv)

/-- The ending after one more event. -/
theorem step {ev : NodeEvent} (h : Ending node xs s) (hw : s.Wf) (hstep : NodeState.Step s ev s')
    (hdec : NodeEvent.fromStored e node = .ok ev) : Ending node (xs ++ [e]) s' := by
  have silent : (∀ k r v, ev ≠ .receiptAdmitted k r v) → ¬ e.Decides := by
    intro hne
    unfold StoredEvent.Decides
    rw [NodeEvent.verdict_of_decoded hdec hne]
    simp
  have uncancelled : ev ≠ .cancelled → e.kind = kinds.nodeCancelled → s.status ≠ .rejected :=
    fun hne hk => absurd (NodeEvent.cancelled_of_kind hdec hk) hne
  cases hstep with
  | dispatch k hs hk => exact h.quiet rfl (silent (by simp)) (uncancelled (by simp))
  | finish k o d hs hk hc =>
    have hr := hw.receipt_none (by simp [hs]) (by simp [hs]) (by simp [hs])
    exact h.quiet (by cases o <;> exact hr) (silent (by simp)) (uncancelled (by simp))
  | decide k r v hs hk hc =>
    obtain ⟨hv, hr⟩ := NodeEvent.verdict_of_receipt hdec
    cases v with
    | accept =>
      exact Ending.decided e r.id List.getLast?_concat (Or.inl ⟨hv, rfl⟩) (congrArg some hr)
    | reject =>
      exact Ending.decided e r.id List.getLast?_concat (Or.inr ⟨hv, rfl⟩) (congrArg some hr)
    | undecidable =>
      refine h.quiet rfl ?_ (uncancelled (by simp))
      unfold StoredEvent.Decides
      rw [hv]
      simp
  | retry hs => exact h.quiet rfl (silent (by simp)) (uncancelled (by simp))
  | gate p hs => exact h.quiet rfl (silent (by simp)) (uncancelled (by simp))
  | packet p hs hp =>
    have hr := hw.receipt_none (by simp [hs]) (by simp [hs]) (by simp [hs])
    exact h.quiet hr (silent (by simp)) (uncancelled (by simp))
  | route p d hs hp =>
    exact h.quiet (by cases d <;> rfl) (silent (by simp)) (uncancelled (by simp))
  | cancelOpen hs =>
    have hne : s.status ≠ .rejected := by rcases hs with hs | hs <;> simp [hs]
    have hr : s.receipt = none := by
      rcases hs with hs | hs <;>
        exact hw.receipt_none (by simp [hs]) (by simp [hs]) (by simp [hs])
    exact h.quiet hr (silent (by simp)) (fun _ => hne)
  | cancelRunning hs =>
    have hr := hw.receipt_none (by simp [hs]) (by simp [hs]) (by simp [hs])
    exact h.quiet hr (silent (by simp)) (fun _ => by simp [hs])
  | cancelStopped hs =>
    rcases hs with hs | hs
    · -- the rejecting verdict stays behind
      cases h with
      | decided x id last hx hr =>
        rcases hx with ⟨-, hacc⟩ | ⟨hv, -⟩
        · rw [hs] at hacc
          cases hacc
        · refine Ending.left x e _ ?_ List.getLast?_concat hv
            (NodeEvent.fromStored_ok hdec).1 rfl hr
          rw [List.dropLast_concat]
          exact last
      | left x c r before last hv hc hcancelled hr =>
        rw [hs] at hcancelled
        cases hcancelled
      | clear hr hd hl => exact absurd hr (hw.decidedHasReceipt (Or.inr hs))
    · have hr := hw.receipt_none (by simp [hs]) (by simp [hs]) (by simp [hs])
      exact h.quiet hr (silent (by simp)) (fun _ => by simp [hs])

end Ending

/-- Only an undecidable verdict leaves a gated node without a packet. -/
theorem NodeState.Step.unopened {s s' : NodeState} {ev : NodeEvent} (h : Step s ev s')
    (hs : s'.status = .gated) (hw : s'.waitingOnGate = none) :
    ∃ k r, ev = .receiptAdmitted k r .undecidable := by
  cases h with
  | decide k r v hrun hk hc =>
    cases v with
    | undecidable => exact ⟨k, r, rfl⟩
    | accept => cases hs
    | reject => cases hs
  | dispatch k hrun hk => cases hs
  | finish k o d hrun hk hc => cases o <;> simp [NodeState.finish, hrun] at hs
  | retry hstop => cases hs
  | gate p hstop => cases hw
  | packet p hgated hp => cases hw
  | route p d hgated hp => cases d <;> cases hs
  | cancelOpen hopen => cases hs
  | cancelRunning hrun => cases hs
  | cancelStopped hstop => cases hs

/-! ### The state a log leaves -/

/-- The last event about a node admits an undecidable verdict. -/
def Unopened (xs : List StoredEvent) : Prop :=
  ∃ e, xs.getLast? = some e ∧ e.verdict = some .undecidable

theorem RunState.replay_snoc {run : RunId} {spec : GraphSpec} {events : List StoredEvent}
    {e : StoredEvent} {st : RunState} (h : replay run spec (events ++ [e]) = .ok st) :
    ∃ st₀, replay run spec events = .ok st₀ ∧ st₀.applyStored e = .ok st := by
  cases hst : replay run spec events with
  | error err =>
    unfold replay at h hst
    rw [replayFrom_append, hst] at h
    cases h
  | ok st₀ =>
    rw [replay_concat e hst] at h
    exact ⟨st₀, rfl, h⟩

theorem eventsAbout_append (events : List StoredEvent) (e : StoredEvent) (id : NodeId) :
    eventsAbout (events ++ [e]) id =
      if e.nodeId = some id then eventsAbout events id ++ [e] else eventsAbout events id := by
  unfold eventsAbout
  rw [List.filter_append]
  split
  · rename_i h
    rw [List.filter_cons_of_pos (by simpa using h), List.filter_nil]
  · rename_i h
    rw [List.filter_cons_of_neg (by simpa using h), List.filter_nil, List.append_nil]

/-- Every replayed node state is the one its last events leave. -/
theorem RunState.replay_ending {run : RunId} {spec : GraphSpec} {events : List StoredEvent}
    {st : RunState} (h : replay run spec events = .ok st) {id : NodeId} {node : NodeRef}
    (hnode : spec.nodeRef id = some node) {s : NodeState} (hs : st.node id = some s) :
    Ending node (eventsAbout events id) s ∧
      (s.status = .gated → s.waitingOnGate = none → Unopened (eventsAbout events id)) := by
  induction events using List.reverseRecOn generalizing st s with
  | nil =>
    cases h
    simp only [RunState.new, RunState.node, Option.map_eq_some_iff] at hs
    obtain ⟨_, _, rfl⟩ := hs
    refine ⟨Ending.clear rfl ?_ ?_, fun hgated _ => absurd hgated (by decide)⟩
    · intro e he
      cases he
    · intro e c he
      cases he
  | append_singleton rest e ih =>
    obtain ⟨st₀, h₀, happ⟩ := replay_snoc h
    rw [eventsAbout_append]
    rcases applyStored_ok happ with ⟨hnone, rfl⟩ |
      ⟨i, ref, ev, old, new, hi, href, hdec, hold, hap, rfl⟩
    · rw [if_neg (by rw [hnone]; simp)]
      exact ih h₀ hs
    · by_cases hid : id = i
      · subst hid
        rw [replay_nodes h₀, hnode] at href
        obtain rfl := Option.some.inj href
        rw [node_insert_self] at hs
        obtain rfl := Option.some.inj hs
        rw [if_pos hi]
        have hstep := NodeState.apply_step hap
        refine ⟨(ih h₀ hold).1.step (replay_wf h₀ hold) hstep hdec, ?_⟩
        intro hgated hwaits
        obtain ⟨k, r, rfl⟩ := hstep.unopened hgated hwaits
        exact ⟨e, List.getLast?_concat, (NodeEvent.verdict_of_receipt hdec).1⟩
      · rw [node_insert_other st₀ new hid] at hs
        rw [if_neg (by rw [hi]; simpa using fun heq => hid heq.symm)]
        exact ih h₀ hs

/-! ### Valid views -/

/-- A view that satisfies its rules; a gated node whose packet is not opened yet
may only lack the packet. -/
def ValidView (events : List StoredEvent) (v : NodeView) : Prop :=
  v.checkBindings = [] ∨
    (v.status = .gated ∧ Unopened (eventsAbout events v.node.nodeId) ∧
      v.checkBindings = [.gateRequired])

/-- What a log has to respect about one node: a verdict that ends it is of this run
and of the revision the view is of, and a cancellation does not follow a rejection. -/
structure EndsOrderly (run : RunId) (spec : GraphSpec) (events : List StoredEvent) (n : NodeSpec) :
    Prop where
  decided : ∀ e, (eventsAbout events n.id).getLast? = some e → e.Decides →
    e.runId = run ∧ spec.nodeRef n.id = some (spec.refOf n)
  uncancelled : ∀ e c, (eventsAbout events n.id).dropLast.getLast? = some e →
    (eventsAbout events n.id).getLast? = some c → e.verdict = some .reject →
    c.kind ≠ kinds.nodeCancelled

/-- Of the rules about one view, a well-formed state can break those about the
receipt and about the missing packet. -/
theorem NodeState.Wf.checkBindings_toView {s : NodeState} (hw : s.Wf) (run : RunId)
    (node : NodeRef) :
    (s.toView run node).checkBindings = (s.toView run node).receiptErrors ++
      (if s.status = .gated ∧ s.waitingOnGate = none then [.gateRequired] else []) := by
  have hattempt : (s.toView run node).attemptErrors = [] := by
    have hcur := hw.hasAttempt
    unfold NodeView.attemptErrors NodeState.toView
    cases hs : s.status <;> cases hk : s.currentAttempt <;>
      simp_all [NodeStatus.needsAttempt]
  have hgate : (s.toView run node).gateErrors =
      if s.status = .gated ∧ s.waitingOnGate = none then [.gateRequired] else [] := by
    have hgated := hw.gateWaits
    unfold NodeView.gateErrors NodeState.toView
    cases hg : s.waitingOnGate <;> simp_all
  have hblocked : (s.toView run node).blockedErrors = [] := by
    unfold NodeView.blockedErrors NodeState.toView
    simp
  rw [NodeView.checkBindings, hattempt, hgate, hblocked, List.append_nil, List.append_nil]

section

variable {run : RunId} {spec : GraphSpec} {events : List StoredEvent} {n : NodeSpec}
  {node : NodeRef} {s : NodeState}

/-- A view whose receipt is the deciding event's own. -/
theorem validView_decided (hw : s.Wf) {e : StoredEvent} {id : Ident}
    (hs : s.status = .accepted ∨ s.status = .rejected)
    (hr : s.receipt = some ⟨id, e.runId, node⟩) :
    ValidView events (s.toView run (spec.refOf n)) ↔ e.runId = run ∧ node = spec.refOf n := by
  have hnot : ¬ (s.status = .gated ∧ s.waitingOnGate = none) := by
    rcases hs with hs | hs <;> simp [hs]
  have herrors := hw.checkBindings_toView run (spec.refOf n)
  rw [if_neg hnot, List.append_nil] at herrors
  have hreceipt : (s.toView run (spec.refOf n)).receiptErrors =
      (if node ≠ spec.refOf n then [.receiptForOtherNode ⟨id, e.runId, node⟩] else []) ++
      (if e.runId ≠ run then [.receiptForOtherRun ⟨id, e.runId, node⟩] else []) := by
    unfold NodeView.receiptErrors NodeState.toView
    rcases hs with hs | hs <;> rw [hs, hr] <;> rfl
  unfold ValidView
  rw [herrors, hreceipt]
  by_cases hnode : node = spec.refOf n <;> by_cases hrun : e.runId = run <;>
    simp [hnode, hrun]

theorem validView_left (hw : s.Wf) {r : ReceiptRef} (hs : s.status = .cancelled)
    (hr : s.receipt = some r) : ¬ ValidView events (s.toView run (spec.refOf n)) := by
  have herrors := hw.checkBindings_toView run (spec.refOf n)
  have hreceipt : (s.toView run (spec.refOf n)).receiptErrors =
      [.receiptNotAllowed .cancelled] := by
    unfold NodeView.receiptErrors NodeState.toView
    rw [hs, hr]
    rfl
  rw [hreceipt] at herrors
  unfold ValidView
  rw [herrors]
  simp

theorem validView_clear (hw : s.Wf) (hr : s.receipt = none)
    (hopen : s.status = .gated → s.waitingOnGate = none → Unopened (eventsAbout events n.id)) :
    ValidView events (s.toView run (spec.refOf n)) := by
  have herrors := hw.checkBindings_toView run (spec.refOf n)
  have hdecided := hw.decidedHasReceipt
  have hreceipt : (s.toView run (spec.refOf n)).receiptErrors = [] := by
    unfold NodeView.receiptErrors NodeState.toView
    cases hs : s.status <;> simp_all [NodeStatus.needsReceipt]
  rw [hreceipt, List.nil_append] at herrors
  by_cases hgate : s.status = .gated ∧ s.waitingOnGate = none
  · rw [if_pos hgate] at herrors
    exact Or.inr ⟨hgate.1, hopen hgate.1 hgate.2, herrors⟩
  · rw [if_neg hgate] at herrors
    exact Or.inl herrors

theorem validView_iff (hnode : spec.nodeRef n.id = some node) (hw : s.Wf)
    (hend : Ending node (eventsAbout events n.id) s)
    (hopen : s.status = .gated → s.waitingOnGate = none → Unopened (eventsAbout events n.id)) :
    ValidView events (s.toView run (spec.refOf n)) ↔ EndsOrderly run spec events n := by
  cases hend with
  | decided e id last hs hr =>
    have hdecides : e.Decides := hs.imp And.left And.left
    rw [validView_decided hw (hs.imp And.right And.right) hr]
    constructor
    · rintro ⟨hrun, rfl⟩
      refine { decided := ?_, uncancelled := ?_ }
      · intro x hx _
        rw [last, Option.some.injEq] at hx
        exact ⟨hx ▸ hrun, hnode⟩
      · intro x c _ hc _ hkind
        rw [last, Option.some.injEq] at hc
        subst hc
        have hnone := verdict_of_kind (e := e) (by rw [hkind]; decide)
        rcases hdecides with hv | hv <;> rw [hnone] at hv <;> cases hv
    · intro h
      obtain ⟨hrun, href⟩ := h.decided e last hdecides
      exact ⟨hrun, Option.some.inj (hnode.symm.trans href)⟩
  | left e c r before last hv hc hs hr =>
    refine iff_of_false (validView_left hw hs hr) ?_
    intro h
    exact h.uncancelled e c before last hv hc
  | clear hr hd hl =>
    refine iff_of_true (validView_clear hw hr hopen) ?_
    exact { decided := fun e he hdecides => absurd hdecides (hd e he), uncancelled := hl }

end

theorem mapM_some {α β : Type} {f : α → Option β} {xs : List α}
    (h : ∀ a ∈ xs, ∃ b, f a = some b) :
    ∃ bs, xs.mapM f = some bs ∧ ∀ b, b ∈ bs ↔ ∃ a ∈ xs, f a = some b := by
  induction xs with
  | nil => exact ⟨[], rfl, by simp⟩
  | cons a rest ih =>
    obtain ⟨b, hb⟩ := h a List.mem_cons_self
    obtain ⟨bs, hbs, hmem⟩ := ih (fun x hx => h x (List.mem_cons_of_mem a hx))
    refine ⟨b :: bs, by rw [List.mapM_cons, hb, hbs]; rfl, ?_⟩
    intro c
    rw [List.mem_cons, hmem, List.exists_mem_cons_iff, hb, Option.some.injEq, eq_comm]

/-- A replayed state has a view for every node of the graph, and they are all valid
exactly when the log ends orderly for every node. -/
theorem views_valid_iff {run : RunId} {spec : GraphSpec} {events : List StoredEvent} {st : RunState}
    (h : RunState.replay run spec events = .ok st) :
    ∃ views, st.views spec = some views ∧
      ((∀ v ∈ views, ValidView events v) ↔ ∀ n ∈ spec.nodes, EndsOrderly run spec events n) := by
  have hstate :
      ∀ n ∈ spec.nodes, ∃ s node, st.node n.id = some s ∧ spec.nodeRef n.id = some node := by
    intro n hn
    have hsome : (spec.findNode n.id).isSome = true := by
      rw [GraphSpec.findNode, List.find?_isSome]
      exact ⟨n, hn, by simp⟩
    have hs := RunState.replay_isSome h n.id
    rw [hsome, Option.isSome_iff_exists] at hs
    obtain ⟨s, hs⟩ := hs
    obtain ⟨m, hm⟩ := Option.isSome_iff_exists.mp hsome
    exact ⟨s, spec.refOf m, hs, by rw [GraphSpec.nodeRef, hm, Option.map_some]⟩
  have hview : ∀ n ∈ spec.nodes, ∃ v,
      (st.node n.id).map (fun s => s.toView st.runId (spec.refOf n)) = some v := by
    intro n hn
    obtain ⟨s, _, hs, -⟩ := hstate n hn
    exact ⟨_, by rw [hs, Option.map_some]⟩
  obtain ⟨views, hviews, hmem⟩ := mapM_some hview
  have hvalid : ∀ n ∈ spec.nodes, ∀ v,
      (st.node n.id).map (fun s => s.toView st.runId (spec.refOf n)) = some v →
      (ValidView events v ↔ EndsOrderly run spec events n) := by
    intro n hn v hv
    obtain ⟨s, node, hs, hnode⟩ := hstate n hn
    obtain ⟨hend, hopen⟩ := RunState.replay_ending h hnode hs
    rw [hs, Option.map_some, Option.some.injEq, RunState.replay_runId h] at hv
    rw [← hv]
    exact validView_iff hnode (RunState.replay_wf h hs) hend hopen
  refine ⟨views, hviews, ?_⟩
  constructor
  · intro hall n hn
    obtain ⟨v, hv⟩ := hview n hn
    exact (hvalid n hn v hv).mp (hall v ((hmem v).mpr ⟨n, hn, hv⟩))
  · intro hall v hv
    obtain ⟨n, hn, hnv⟩ := (hmem v).mp hv
    exact (hvalid n hn v hnv).mpr (hall n hn)

namespace Pilot

/-- The patch is rejected, and then cancelled. -/
def rejectPatch : LedgerOp := .admitReceipt spec run
  { patchReceipt with
      verdict := .reject, reasonCode := some ident, reasonText := some "tests fail" } now
def rejectedCancelled : Store :=
  created.play runtime [claimPatch, completePatch, rejectPatch, cancelPatch]

def rejectedCancelledState : RunState :=
  get (rejectedCancelled.replay runId spec) (by decide +kernel)

end Pilot

open Pilot in
theorem views_valid_accepted :
    ∃ st views, patchAccepted.replay runId spec = .ok st ∧ st.views spec = some views ∧
      ((∀ v ∈ views, ValidView (patchAccepted.eventsOf runId) v) ↔
        ∀ n ∈ spec.nodes, EndsOrderly runId spec (patchAccepted.eventsOf runId) n) := by
  have hst := get_eq (x := patchAccepted.replay runId spec) (by decide +kernel)
  obtain ⟨views, hviews, hvalid⟩ := views_valid_iff hst
  exact ⟨_, views, hst, hviews, hvalid⟩

open Pilot in
/-- The view of a node cancelled after its rejection carries the rejecting receipt. -/
theorem views_invalid_after_reject :
    (legalLedger runtime).Reachable rejectedCancelled ∧
      RunState.replay runId spec (rejectedCancelled.eventsOf runId) = .ok rejectedCancelledState ∧
      ∃ views, rejectedCancelledState.views spec = some views ∧
        ∃ v ∈ views, v.checkBindings = [.receiptNotAllowed .cancelled] ∧
          ¬ ValidView (rejectedCancelled.eventsOf runId) v := by
  have hviews : (rejectedCancelledState.views spec).any
      (fun views => views.any (fun v => v.checkBindings = [.receiptNotAllowed .cancelled])) =
        true := by
    decide +kernel
  rw [Option.any_eq_true] at hviews
  obtain ⟨views, hsome, hany⟩ := hviews
  rw [List.any_eq_true] at hany
  obtain ⟨v, hv, herrors⟩ := hany
  rw [decide_eq_true_eq] at herrors
  refine ⟨play_reachable (fun _ _ h => h) [claimPatch, completePatch, rejectPatch, cancelPatch]
    (by decide +kernel), get_eq (by decide +kernel), views, hsome, v, hv, herrors, ?_⟩
  rintro (hnil | ⟨-, -, hgate⟩)
  · rw [herrors] at hnil
    cases hnil
  · rw [herrors] at hgate
    cases hgate

end Checkspan
