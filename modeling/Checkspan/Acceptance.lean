import Checkspan.Claims

/-!
# Acceptance integrity

A node is accepted by one admitted receipt about its last attempt, and every
admitted receipt stays bound to the contract and the sealed attempt it was
checked against: attempts, contracts and receipts never change once stored.
-/

namespace Checkspan

open Transition

/-! ### Receipts and states -/

/-- The run, node and number a receipt is about. -/
def VerifierReceipt.key (r : VerifierReceipt) : RunId × NodeId × AttemptNumber :=
  (r.attempt.runId, r.attempt.node.nodeId, r.attempt.number)

namespace NodeState

/-- The node was accepted by `ref`, for attempt `k`. -/
def AcceptedBy (s : NodeState) (ref : ReceiptRef) (k : AttemptNumber) : Prop :=
  s.status = .accepted ∧ s.receipt = some ref ∧ s.currentAttempt = some k

theorem Step.not_accepted {s s' : NodeState} {e : NodeEvent} (h : Step s e s') :
    s.status ≠ .accepted := by
  intro hacc
  cases h with
  | dispatch k hs hk => simp [hacc] at hs
  | finish k o d hs hk hc => simp [hacc] at hs
  | decide k r v hs hk hc => simp [hacc] at hs
  | retry hs => simp [hacc] at hs
  | gate p hs => simp [hacc] at hs
  | packet p hs hw => simp [hacc] at hs
  | route p d hs hw => simp [hacc] at hs
  | cancelOpen hs => simp [hacc] at hs
  | cancelRunning hs => simp [hacc] at hs
  | cancelStopped hs => simp [hacc] at hs

/-- Only an accepting receipt for the current attempt accepts a node. -/
theorem Step.accepts {s s' : NodeState} {e : NodeEvent} (h : Step s e s')
    (hacc : s'.status = .accepted) :
    ∃ k ref, e = .receiptAdmitted k ref .accept ∧ s'.AcceptedBy ref k := by
  cases h with
  | decide k r v hs hk hc =>
    cases v with
    | accept => exact ⟨k, r, rfl, rfl, rfl, hk⟩
    | reject => simp [NodeState.decide] at hacc
    | undecidable => simp [NodeState.decide] at hacc
  | dispatch k hs hk => simp at hacc
  | finish k o d hs hk hc => cases o <;> simp [NodeState.finish, hs] at hacc
  | retry hs => simp at hacc
  | gate p hs => simp at hacc
  | packet p hs hw => simp [hs] at hacc
  | route p d hs hw => cases d <;> simp [NodeState.route] at hacc
  | cancelOpen hs => simp at hacc
  | cancelRunning hs => simp at hacc
  | cancelStopped hs => simp at hacc

/-- An attempt runs after a step if the step dispatched it or it ran before. -/
theorem Step.running_current {s s' : NodeState} {e : NodeEvent} (h : Step s e s')
    {k : AttemptNumber} (hrun : s'.status = .running) (hcur : s'.currentAttempt = some k) :
    e = .dispatched k ∨ (s.status = .running ∧ s.currentAttempt = some k ∧
      ∀ j r v, e ≠ .receiptAdmitted j r v) := by
  cases h with
  | dispatch j hs hj =>
    cases hcur
    exact Or.inl rfl
  | finish j o d hs hj hc =>
    cases o with
    | completed => exact Or.inr ⟨hs, hcur, by simp⟩
    | failed => simp [NodeState.finish] at hrun
    | timedOut => simp [NodeState.finish] at hrun
    | cancelled => simp [NodeState.finish] at hrun
  | decide j r v hs hj hc => cases v <;> simp [NodeState.decide] at hrun
  | retry hs => simp at hrun
  | gate p hs => simp at hrun
  | packet p hs hw => simp [hs] at hrun
  | route p d hs hw => cases d <;> simp [NodeState.route] at hrun
  | cancelOpen hs => simp at hrun
  | cancelRunning hs => simp at hrun
  | cancelStopped hs => simp at hrun

end NodeState

/-! ### Tables that only grow -/

/-- What a later store keeps of an earlier one: graphs and runs, sealed attempts
and receipts in their order, and acceptance. -/
structure Extends (s s' : Store) : Prop where
  stored : ∀ r spec, s.Stored r spec → s'.Stored r spec
  attempts : ∃ more, s'.attempts = s.attempts ++ more
  receipts : ∃ more, s'.receipts = s.receipts ++ more
  accepted : ∀ run id state, s.nodeState run id = some state → state.status = .accepted →
    s'.nodeState run id = some state

theorem Extends.refl (s : Store) : Extends s s :=
  { stored := fun _ _ h => h
    attempts := ⟨[], (List.append_nil _).symm⟩
    receipts := ⟨[], (List.append_nil _).symm⟩
    accepted := fun _ _ _ h _ => h }

theorem Extends.trans {s t u : Store} (h : Extends s t) (h' : Extends t u) : Extends s u := by
  obtain ⟨as, has⟩ := h.attempts
  obtain ⟨bs, hbs⟩ := h'.attempts
  obtain ⟨cs, hcs⟩ := h.receipts
  obtain ⟨ds, hds⟩ := h'.receipts
  exact { stored := fun r spec hr => h'.stored r spec (h.stored r spec hr)
          attempts := ⟨as ++ bs, by rw [hbs, has, List.append_assoc]⟩
          receipts := ⟨cs ++ ds, by rw [hds, hcs, List.append_assoc]⟩
          accepted := fun run id state hs hacc =>
            h'.accepted run id state (h.accepted run id state hs hacc) hacc }

section

variable {rt : Runtime} {s s' : Store}

theorem LedgerStep.attempts_append {label : Option (RunId × NodeId × NodeEvent)}
    (h : LedgerStep rt s label s') (hs : s.Sound) : ∃ more, s'.attempts = s.attempts ++ more := by
  cases label with
  | none =>
    refine ⟨[], ?_⟩
    rw [List.append_nil]
    cases h <;> rfl
  | some l =>
    obtain ⟨run, id, e⟩ := l
    obtain ⟨old, new, hm⟩ := h.moved hs
    cases h.claimEffect hs hm with
    | taken row hrun hid hfence hactive hrelease claims attempts =>
      exact ⟨[], by rw [attempts, List.append_nil]⟩
    | finished row a how o d hrow hrun hid hactive hhow hkey hfresh claims attempts =>
      exact ⟨[a], attempts⟩
    | cancelled claims attempts => exact ⟨[], by rw [attempts, List.append_nil]⟩
    | quiet e he hold claims attempts => exact ⟨[], by rw [attempts, List.append_nil]⟩

/-- A step leaves the receipts, or is the admission of one. -/
theorem LedgerStep.receipts_cases {label : Option (RunId × NodeId × NodeEvent)}
    (h : LedgerStep rt s label s') :
    (s'.receipts = s.receipts ∧ ∀ run id k r v, label ≠ some (run, id, .receiptAdmitted k r v)) ∨
    ∃ spec run receipt now node attempt result st state, s.Bound run spec ∧
      Receipts.Admitted rt s spec run receipt now s' node attempt result st state ∧
      label = some (run.runId, receipt.attempt.node.nodeId, .receiptAdmitted
        receipt.attempt.number receipt.receiptRef receipt.verdict) := by
  cases h with
  | @admitted spec run receipt now _ node attempt result st state bound h =>
    exact Or.inr ⟨spec, run, receipt, now, node, attempt, result, st, state, bound, h, rfl⟩
  | same => exact Or.inl ⟨rfl, by simp⟩
  | graph row fresh => exact Or.inl ⟨rfl, by simp⟩
  | run r fresh known => exact Or.inl ⟨rfl, by simp⟩
  | revoke r payload known => exact Or.inl ⟨rfl, by simp⟩
  | claim bound h => exact Or.inl ⟨by rw [h.store_eq], by simp⟩
  | complete hrun bound h => exact Or.inl ⟨by rw [h.store_eq]; rfl, by simp⟩
  | cancel bound h => exact Or.inl ⟨by rw [h.store_eq], by simp⟩
  | reclaim bound h => exact Or.inl ⟨by rw [h.store_eq]; rfl, by simp⟩
  | retry payload bound replayed state_eq legal => exact Or.inl ⟨rfl, by simp⟩
  | exhausted payload bound replayed state_eq stopped legal => exact Or.inl ⟨rfl, by simp⟩
  | opened bound h => exact Or.inl ⟨by rw [h.store_eq], by simp⟩
  | decided payload decisions waits carried => exact Or.inl ⟨rfl, by simp⟩

theorem LedgerStep.receipts_append {label : Option (RunId × NodeId × NodeEvent)}
    (h : LedgerStep rt s label s') : ∃ more, s'.receipts = s.receipts ++ more := by
  rcases h.receipts_cases with ⟨heq, -⟩ | ⟨_, _, receipt, _, _, _, _, _, _, -, hadm, -⟩
  · exact ⟨[], by rw [heq, List.append_nil]⟩
  · exact ⟨[receipt], by rw [hadm.store_eq]⟩

theorem LedgerStep.accepted {label : Option (RunId × NodeId × NodeEvent)}
    (h : LedgerStep rt s label s') (hs : s.Sound) {run : RunId} {id : NodeId} {state : NodeState}
    (hstate : s.nodeState run id = some state) (hacc : state.status = .accepted) :
    s'.nodeState run id = some state := by
  cases label with
  | none =>
    rcases h.unmoved hs run id with heq | ⟨hnone, -⟩
    · rw [heq, hstate]
    · rw [hnone] at hstate
      cases hstate
  | some l =>
    obtain ⟨r, i, e⟩ := l
    obtain ⟨old, new, hm⟩ := h.moved hs
    by_cases hne : run = r ∧ id = i
    · obtain ⟨rfl, rfl⟩ := hne
      rw [hm.before] at hstate
      cases hstate
      exact absurd hacc hm.legal.not_accepted
    · rw [hm.others run id hne, hstate]

theorem LedgerStep.extends {label : Option (RunId × NodeId × NodeEvent)}
    (h : LedgerStep rt s label s') (hs : s.Sound) : Extends s s' :=
  { stored := fun _ _ hr => h.stored hr
    attempts := h.attempts_append hs
    receipts := h.receipts_append
    accepted := fun _ _ _ hstate hacc => h.accepted hs hstate hacc }

end

theorem Extends.mem_attempts {s s' : Store} (h : Extends s s') {a : Attempt}
    (ha : a ∈ s.attempts) : a ∈ s'.attempts := by
  obtain ⟨more, hmore⟩ := h.attempts
  rw [hmore]
  exact List.mem_append_left _ ha

/-! ### The invariant -/

/-- What a receipt stays bound to: the node of the stored graph at its exact
revision, and the sealed attempt. -/
structure BoundReceipt (rt : Runtime) (s : Store) (r : VerifierReceipt) (run : GraphRun)
    (spec : GraphSpec) (node : NodeSpec) (a : Attempt) (result : ResultRef) : Prop where
  stored : s.Stored run spec
  run_eq : run.runId = r.attempt.runId
  node_eq : spec.findNode r.attempt.node.nodeId = some node
  nodeRef_eq : spec.nodeRef r.attempt.node.nodeId = some r.attempt.node
  row : a ∈ s.attempts
  key_eq : a.key = r.key
  binds : Receipts.Binds rt node r a result

/-- Receipts are bound, one an attempt, and acceptance is by an accepting one. -/
structure Store.ReceiptsOk (rt : Runtime) (s : Store) : Prop where
  bound : ∀ r ∈ s.receipts, ∃ run spec node a result, BoundReceipt rt s r run spec node a result
  once : (s.receipts.map VerifierReceipt.key).Nodup
  decided : ∀ r ∈ s.receipts, ∀ state, s.nodeState r.attempt.runId r.attempt.node.nodeId =
    some state → ¬ (state.status = .running ∧ state.currentAttempt = some r.attempt.number)
  accepting : ∀ r ∈ s.receipts, r.verdict = .accept → ∃ state,
    s.nodeState r.attempt.runId r.attempt.node.nodeId = some state ∧
    state.AcceptedBy r.receiptRef r.attempt.number
  accepted : ∀ run id state, s.nodeState run id = some state → state.status = .accepted →
    ∃ r ∈ s.receipts, r.verdict = .accept ∧ r.key = (run, id, r.attempt.number) ∧
      state.AcceptedBy r.receiptRef r.attempt.number

section

variable {rt : Runtime} {s s' : Store}

theorem BoundReceipt.extend {r : VerifierReceipt} {run : GraphRun} {spec : GraphSpec}
    {node : NodeSpec} {a : Attempt} {result : ResultRef}
    (h : BoundReceipt rt s r run spec node a result) (hx : Extends s s') :
    BoundReceipt rt s' r run spec node a result :=
  { h with
    stored := hx.stored run spec h.stored
    row := hx.mem_attempts h.row }

theorem Store.attempt_some {run : RunId} {id : NodeId} {k : AttemptNumber} {a : Attempt}
    (h : s.attempt run id k.get = .ok (some a)) : a ∈ s.attempts ∧ a.key = (run, id, k) := by
  obtain ⟨hfind, -⟩ := Store.readOptional_some h
  have hp := List.find?_some hfind
  simp only [decide_eq_true_eq] at hp
  have hnumber : a.number = k := PositiveU32.ext_get hp.2.2
  refine ⟨List.mem_of_find?_eq_some hfind, ?_⟩
  simp only [Attempt.key, hp.1, hp.2.1, hnumber]

/-- The receipt an admission adds is bound. -/
theorem Receipts.Admitted.boundReceipt {spec : GraphSpec} {run : GraphRun}
    {receipt : VerifierReceipt} {now : Timestamp} {node : NodeSpec} {attempt : Attempt}
    {result : ResultRef} {st : RunState} {state : NodeState}
    (h : Receipts.Admitted rt s spec run receipt now s' node attempt result st state)
    (hstored : s.Stored run spec) (hx : Extends s s') :
    BoundReceipt rt s' receipt run spec node attempt result := by
  obtain ⟨hrow, hkey⟩ := Store.attempt_some h.attempt_eq
  exact { stored := hx.stored run spec hstored
          run_eq := h.runId_eq.symm
          node_eq := h.node_eq
          nodeRef_eq := h.nodeRef_eq
          row := hx.mem_attempts hrow
          key_eq := by rw [hkey, VerifierReceipt.key, h.runId_eq]
          binds := h.binds }

/-- An accepted node was accepted by this step or before it. -/
theorem LedgerStep.accepted_cases {label : Option (RunId × NodeId × NodeEvent)}
    (h : LedgerStep rt s label s') (hs : s.Sound) {run : RunId} {id : NodeId} {state : NodeState}
    (hstate : s'.nodeState run id = some state) (hacc : state.status = .accepted) :
    s.nodeState run id = some state ∨
      ∃ k ref, label = some (run, id, .receiptAdmitted k ref .accept) ∧ state.AcceptedBy ref k := by
  cases label with
  | none =>
    rcases h.unmoved hs run id with heq | ⟨-, hinitial⟩
    · rw [heq] at hstate
      exact Or.inl hstate
    · rw [hinitial] at hstate
      cases hstate
      cases hacc
  | some l =>
    obtain ⟨r, i, e⟩ := l
    obtain ⟨old, new, hm⟩ := h.moved hs
    by_cases hne : run = r ∧ id = i
    · obtain ⟨rfl, rfl⟩ := hne
      rw [hm.after] at hstate
      cases hstate
      obtain ⟨k, ref, rfl, hby⟩ := hm.legal.accepts hacc
      exact Or.inr ⟨k, ref, rfl, hby⟩
    · rw [hm.others run id hne] at hstate
      exact Or.inl hstate

/-- A receipt's attempt does not run again. -/
theorem Store.ReceiptsOk.decided_step (h : s.ReceiptsOk rt) (hc : s.ClaimsOk)
    {label : Option (RunId × NodeId × NodeEvent)} (hstep : LedgerStep rt s label s') (hs : s.Sound)
    {r : VerifierReceipt} (hr : r ∈ s.receipts) {state : NodeState}
    (hstate : s'.nodeState r.attempt.runId r.attempt.node.nodeId = some state) :
    ¬ (state.status = .running ∧ state.currentAttempt = some r.attempt.number) := by
  rintro ⟨hrun, hcur⟩
  cases label with
  | none =>
    rcases hstep.unmoved hs r.attempt.runId r.attempt.node.nodeId with heq | ⟨-, hinitial⟩
    · rw [heq] at hstate
      exact h.decided r hr state hstate ⟨hrun, hcur⟩
    · rw [hinitial] at hstate
      cases hstate
      cases hrun
  | some l =>
    obtain ⟨rr, ii, e⟩ := l
    obtain ⟨old, new, hm⟩ := hstep.moved hs
    by_cases hne : r.attempt.runId = rr ∧ r.attempt.node.nodeId = ii
    · obtain ⟨rfl, rfl⟩ := hne
      rw [hm.after] at hstate
      cases hstate
      rcases hm.legal.running_current hrun hcur with rfl | ⟨hrun', hcur', -⟩
      · -- The number dispatched is above those the node has sealed.
        obtain ⟨run, spec, node, a, result, hb⟩ := h.bound r hr
        obtain ⟨row, hrow, hkey⟩ := List.mem_map.mp (hc.claimed a hb.row)
        rw [hb.key_eq] at hkey
        simp only [ClaimRow.key, VerifierReceipt.key, Prod.mk.injEq] at hkey
        have hle := hc.number_le hrow
        rw [hkey.1, hkey.2.1, hkey.2.2, hm.started_self.1] at hle
        have hdispatch : r.attempt.number.get = old.attemptsStarted + 1 := by
          cases hm.legal with
          | dispatch k hs hk => exact hk
        omega
      · exact h.decided r hr old hm.before ⟨hrun', hcur'⟩
    · rw [hm.others _ _ hne] at hstate
      exact h.decided r hr state hstate ⟨hrun, hcur⟩

theorem Store.ReceiptsOk.keep (h : s.ReceiptsOk rt) (hc : s.ClaimsOk)
    {label : Option (RunId × NodeId × NodeEvent)} (hstep : LedgerStep rt s label s') (hs : s.Sound)
    (receipts : s'.receipts = s.receipts)
    (hlabel : ∀ run id k r v, label ≠ some (run, id, .receiptAdmitted k r v)) :
    s'.ReceiptsOk rt := by
  have hx := hstep.extends hs
  refine { bound := ?_, once := ?_, decided := ?_, accepting := ?_, accepted := ?_ }
  · intro r hr
    rw [receipts] at hr
    obtain ⟨run, spec, node, a, result, hb⟩ := h.bound r hr
    exact ⟨run, spec, node, a, result, hb.extend hx⟩
  · rw [receipts]
    exact h.once
  · intro r hr state hstate
    rw [receipts] at hr
    exact h.decided_step hc hstep hs hr hstate
  · intro r hr hv
    rw [receipts] at hr
    obtain ⟨state, hstate, hby⟩ := h.accepting r hr hv
    exact ⟨state, hx.accepted _ _ state hstate hby.1, hby⟩
  · intro run id state hstate hacc
    rw [receipts]
    rcases hstep.accepted_cases hs hstate hacc with hbefore | ⟨k, ref, heq, -⟩
    · exact h.accepted run id state hbefore hacc
    · exact absurd heq (hlabel run id k ref .accept)

theorem Store.ReceiptsOk.admit_step (h : s.ReceiptsOk rt) (hc : s.ClaimsOk) {spec : GraphSpec}
    {run : GraphRun} {receipt : VerifierReceipt} {now : Timestamp} {node : NodeSpec}
    {attempt : Attempt} {result : ResultRef} {st : RunState} {state : NodeState}
    (hadm : Receipts.Admitted rt s spec run receipt now s' node attempt result st state)
    (bound : s.Bound run spec) (hs : s.Sound) : s'.ReceiptsOk rt := by
  have hstep := LedgerStep.admitted bound hadm
  have hx := hstep.extends hs
  obtain ⟨old, new, hm⟩ := hstep.moved hs
  have hrunId := hadm.runId_eq
  have hreceipts : s'.receipts = s.receipts ++ [receipt] := by rw [hadm.store_eq]
  have hbefore : s.nodeState run.runId receipt.attempt.node.nodeId = some state :=
    (hs.nodeState_of_replay bound.1 hadm.replayed _).trans hadm.state_eq
  have hnew : new = state.decide receipt.receiptRef receipt.verdict := by
    have hold : old = state := Option.some.inj (hm.before.symm.trans hbefore)
    rw [hold] at hm
    cases hm.legal with
    | decide k r v hs hk hc => rfl
  have hrunning := (RunState.replay_wf hadm.replayed hadm.state_eq).checkingRuns hadm.checking
  have hfresh : receipt.key ∉ s.receipts.map VerifierReceipt.key := by
    intro hmem
    obtain ⟨q, hq, hkey⟩ := List.mem_map.mp hmem
    simp only [VerifierReceipt.key, Prod.mk.injEq] at hkey
    obtain ⟨hr, hi, hk⟩ := hkey
    refine h.decided q hq state ?_ ⟨hrunning, ?_⟩
    · rw [hr, hi, hrunId]
      exact hbefore
    · rw [hk]
      exact hadm.current
  refine { bound := ?_, once := ?_, decided := ?_, accepting := ?_, accepted := ?_ }
  · intro r hr
    rw [hreceipts, List.mem_append, List.mem_singleton] at hr
    rcases hr with hr | rfl
    · obtain ⟨q, x, n, a, res, hb⟩ := h.bound r hr
      exact ⟨q, x, n, a, res, hb.extend hx⟩
    · exact ⟨run, spec, node, attempt, result, hadm.boundReceipt bound.1 hx⟩
  · rw [hreceipts, List.map_append, List.map_singleton, ← List.concat_eq_append]
    exact h.once.concat hfresh
  · intro r hr x hstate
    rw [hreceipts, List.mem_append, List.mem_singleton] at hr
    rcases hr with hr | rfl
    · exact h.decided_step hc hstep hs hr hstate
    · rintro ⟨hrun, -⟩
      rw [hrunId, hm.after] at hstate
      cases hstate
      rw [hnew] at hrun
      cases hv : r.verdict <;> simp [hv, NodeState.decide] at hrun
  · intro r hr hv
    rw [hreceipts, List.mem_append, List.mem_singleton] at hr
    rcases hr with hr | rfl
    · obtain ⟨x, hstate, hby⟩ := h.accepting r hr hv
      exact ⟨x, hx.accepted _ _ x hstate hby.1, hby⟩
    · refine ⟨new, by rw [hrunId]; exact hm.after, ?_⟩
      rw [hnew, hv]
      exact ⟨rfl, rfl, hadm.current⟩
  · intro r i x hstate hacc
    rw [hreceipts]
    rcases hstep.accepted_cases hs hstate hacc with hbefore' | ⟨k, ref, heq, hby⟩
    · obtain ⟨q, hq, hv, hkey, hby⟩ := h.accepted r i x hbefore' hacc
      exact ⟨q, List.mem_append_left _ hq, hv, hkey, hby⟩
    · simp only [Option.some.injEq, Prod.mk.injEq, NodeEvent.receiptAdmitted.injEq] at heq
      obtain ⟨rfl, rfl, rfl, rfl, hv⟩ := heq
      refine ⟨receipt, List.mem_append_right _ (List.mem_singleton_self _), hv, ?_, hby⟩
      rw [VerifierReceipt.key, hrunId]

theorem Store.ReceiptsOk.step (h : s.ReceiptsOk rt) (hc : s.ClaimsOk)
    {label : Option (RunId × NodeId × NodeEvent)} (hstep : LedgerStep rt s label s')
    (hs : s.Sound) : s'.ReceiptsOk rt := by
  rcases hstep.receipts_cases with ⟨heq, hlabel⟩ |
    ⟨spec, run, receipt, now, node, attempt, result, st, state, bound, hadm, rfl⟩
  · exact h.keep hc hstep hs heq hlabel
  · exact h.admit_step hc hadm bound hs

end

theorem receiptsOk_invariant (rt : Runtime) :
    (legalLedger rt).Invariant (Store.ReceiptsOk rt) := by
  refine System.Invariant.step ((sound_invariant rt).and (claimsOk_invariant rt)) ?_ ?_
  · rintro s rfl
    refine { bound := fun _ h => absurd h List.not_mem_nil, once := List.nodup_nil
             decided := fun _ h => absurd h List.not_mem_nil
             accepting := fun _ h => absurd h List.not_mem_nil, accepted := ?_ }
    intro run id state hstate
    rw [Store.nodeState_none_of_run rfl] at hstate
    cases hstate
  · rintro s op s' ⟨hs, hc⟩ h ⟨legal, rfl⟩
    exact h.step hc (exec_step rt s legal) hs

/-! ### Acceptance integrity -/

/-- In every store that legal use reaches, a node is accepted exactly when an
accepting receipt was admitted for its current attempt, the last one it started.
Every admitted receipt is bound to the node's exact revision, its pinned verifier
and policy, and the attempt sealed as completed: its result digest, the subject it
froze and the recomputed context digest. No attempt has two receipts. -/
theorem acceptance_integrity (rt : Runtime) {s : Store} (hs : (legalLedger rt).Reachable s) :
    (∀ run spec st, s.Stored run spec → s.replay run.runId spec = .ok st → ∀ id state,
      st.node id = some state →
      (state.status = .accepted ↔ ∃ r ∈ s.receipts, r.verdict = .accept ∧
        r.attempt.runId = run.runId ∧ r.attempt.node.nodeId = id ∧
        state.currentAttempt = some r.attempt.number ∧
        r.attempt.number.get = state.attemptsStarted) ∧
      ∀ r ∈ s.receipts, r.attempt.runId = run.runId → r.attempt.node.nodeId = id →
        ∃ node a execution result, spec.findNode id = some node ∧
          r.attempt.node = spec.refOf node ∧ r.verifier = node.acceptance.verifier ∧
          r.policyRef = node.acceptance.policyRef ∧ a ∈ s.attempts ∧
          a.key = (run.runId, id, r.attempt.number) ∧ a.execution = some execution ∧
          execution.outcome = .completed ∧ a.result = some result ∧
          r.resultDigest = result.digest ∧
          (∀ e, a.inputManifest.find? (fun e => e.subject.startsWith "patch_subject:") = some e →
            r.subject = e.subject) ∧
          attemptContextDigest rt node r.attempt a result.digest = .ok r.contextDigest) ∧
    (s.receipts.map VerifierReceipt.key).Nodup := by
  have hsound := sound_invariant rt s hs
  have hok := receiptsOk_invariant rt s hs
  refine ⟨?_, hok.once⟩
  intro run spec st hstored hst id state hnode
  have hstate : s.nodeState run.runId id = some state :=
    (hsound.nodeState_of_replay hstored hst id).trans hnode
  refine ⟨⟨?_, ?_⟩, ?_⟩
  · intro hacc
    obtain ⟨r, hr, hv, hkey, -, -, hcur⟩ := hok.accepted _ _ state hstate hacc
    simp only [VerifierReceipt.key, Prod.mk.injEq] at hkey
    have hlast := (Store.nodeState_wf hstate).currentIsLast _ hcur
    exact ⟨r, hr, hv, hkey.1, hkey.2.1, hcur, hlast⟩
  · rintro ⟨r, hr, hv, hrun, hid, -, -⟩
    obtain ⟨x, hx, hby⟩ := hok.accepting r hr hv
    rw [hrun, hid, hstate] at hx
    cases hx
    exact hby.1
  · intro r hr hrun hid
    obtain ⟨q, x, node, a, result, hb⟩ := hok.bound r hr
    obtain ⟨rfl, rfl⟩ := hsound.stored_unique hb.stored hstored (hb.run_eq.trans hrun)
    obtain ⟨hresult, execution, hexecution, hcompleted⟩ :=
      Attempt.completedResult_some hb.binds.completed
    have hfind := hb.node_eq
    have href := hb.nodeRef_eq
    rw [GraphSpec.nodeRef, hfind, Option.map_some, Option.some.injEq] at href
    rw [hid] at hfind
    refine ⟨node, a, execution, result, hfind, href.symm, hb.binds.verifier, hb.binds.policy,
      hb.row, ?_, hexecution, hcompleted, hresult, hb.binds.resultDigest, ?_, ?_⟩
    · rw [hb.key_eq, VerifierReceipt.key, hrun, hid]
    · intro e he
      exact hb.binds.subject e.subject (by
        rw [Receipts.frozenSubject, Receipts.patchSubjectPrefix, he, Option.map_some])
    · rw [← hb.binds.resultDigest]
      exact hb.binds.context

namespace Pilot

/-- What a controller seals for a claim on `node`, its receipt, and the three
operations that lead from the claim to acceptance. -/
def attemptOf (node : NodeSpec) (refs : List ReceiptRef) : Attempt :=
  { record := .attempt, schemaVersion := 1, runId := runId, node := spec.refOf node, number := one
    owner := controller.text, startedAt := now, finishedAt := some now, repairHint := none
    inputManifest := [], dependencyReceipts := refs
    result := some { resultType := resultType, artifactRef := "artifact", digest := zeroDigest }
    producedEvidence := []
    execution := some { outcome := .completed, errorCode := none, errorText := none }
    verifierReceipt := none }

def claimOf (node : NodeSpec) (fence : Nat) (refs : List ReceiptRef) : Claim :=
  { runId := runId, nodeId := node.id, number := one, fence := fence, owner := controller
    dependencyReceipts := refs, narrowing := none }

/-- The accepting receipt for a sealed attempt. -/
def receiptOf (node : NodeSpec) (refs : List ReceiptRef) (id : Ident) : VerifierReceipt :=
  { record := .verifierReceipt, schemaVersion := 1, id := id
    attempt := (attemptOf node refs).attemptRef, subject := "candidate", resultDigest := zeroDigest
    contextDigest := zeroDigest, verifier := verifier, policyRef := policy, verdict := .accept
    reasonCode := none, reasonText := none, retryHint := none, checkedAt := now
    validity := { validUntil := none, conditions := [] }
    provenance := { level := .localController, issuer := "controller", attestationRef := none } }

def patchReceipt : VerifierReceipt := receiptOf patch [] ⟨"receipt-patch", by decide +kernel⟩

def completePatch : LedgerOp := .complete scheduler (claimOf patch 1 []) (attemptOf patch [])
def admitPatch : LedgerOp := .admitReceipt spec run patchReceipt now

/-- The patch is sealed, then accepted. -/
def patchSealed : Store := (completePatch.exec runtime claimed).2
def patchAccepted : Store := (admitPatch.exec runtime patchSealed).2

theorem patchSealed_reachable : (legalLedger runtime).Reachable patchSealed := by
  have hcomplete : completePatch.Legal claimed :=
    ⟨run, rfl, scheduler_eq.2 ▸ bound (by decide +kernel) (by decide +kernel)⟩
  exact .step (a := completePatch) claimed_reachable ⟨hcomplete, rfl⟩

theorem patchAccepted_reachable : (legalLedger runtime).Reachable patchAccepted := by
  have haccept : admitPatch.Legal patchSealed := bound (by decide +kernel) (by decide +kernel)
  exact .step (a := admitPatch) patchSealed_reachable ⟨haccept, rfl⟩

end Pilot

open Pilot in
theorem acceptance_integrity_patch :
    patchReceipt ∈ patchAccepted.receipts ∧
      (patchAccepted.receipts.map VerifierReceipt.key).Nodup ∧
      ∀ st, patchAccepted.replay runId spec = .ok st → ∀ state, st.node patchId = some state →
        (state.status = .accepted ↔ ∃ r ∈ patchAccepted.receipts, r.verdict = .accept ∧
          r.attempt.runId = runId ∧ r.attempt.node.nodeId = patchId ∧
          state.currentAttempt = some r.attempt.number ∧
          r.attempt.number.get = state.attemptsStarted) := by
  have hmain := acceptance_integrity runtime patchAccepted_reachable
  refine ⟨by decide +kernel, hmain.2, ?_⟩
  intro st hst state hstate
  have hbound : patchAccepted.Bound run spec := bound (by decide +kernel) (by decide +kernel)
  exact (hmain.1 run spec st hbound.1 hst patchId state hstate).1

end Checkspan
