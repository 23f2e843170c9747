import Checkspan.Lineage
import Checkspan.Sealing

/-!
# Retry limits over whole runs

The cap of a node is enforced only where a retry is allowed (`budget/mod.rs:371-517`),
not where an attempt is dispatched. An open node has room for one more attempt because
a retry found room for it or a decision added some, and the class of an outcome is read
from the attempt table because failing seals a row.
-/

namespace Checkspan

open Transition

/-! ### What the log counts -/

/-- Whether a decision opens the node again. -/
def DecisionKind.reopens : DecisionKind → Bool
  | .cancel => false
  | .revise => false
  | _ => true

/-- An admitted decision that reopens its node. -/
def StoredEvent.reopens (e : StoredEvent) : Bool :=
  e.kind = kinds.decisionAdmitted && match NodeEvent.field e "decision" decodeDecision with
    | .ok d => d.reopens
    | .error _ => false

namespace Store

/-- The events of a node of a run that `p` selects. -/
def countOf (s : Store) (run : RunId) (id : NodeId) (p : StoredEvent → Bool) : Nat :=
  s.events.countP (fun e => e.runId = run && e.nodeId = some id && p e)

/-- The attempts dispatched for a node. -/
def dispatched (s : Store) (run : RunId) (id : NodeId) : Nat :=
  s.countOf run id (fun e => e.kind = kinds.attemptDispatched)

/-- The admitted decisions that reopened a node. -/
def reopened (s : Store) (run : RunId) (id : NodeId) : Nat :=
  s.countOf run id StoredEvent.reopens

section

variable {s s' : Store} {run : RunId} {id : NodeId} {p : StoredEvent → Bool}

theorem countOf_self {e : StoredEvent} (h : s'.events = s.events ++ [e]) (hrun : e.runId = run)
    (hid : e.nodeId = some id) :
    s'.countOf run id p = s.countOf run id p + if p e then 1 else 0 := by
  unfold countOf
  rw [h, List.countP_append, List.countP_singleton, hrun, hid]
  simp

theorem countOf_other {e : StoredEvent} (h : s'.events = s.events ++ [e])
    (hne : ¬ (e.runId = run ∧ e.nodeId = some id)) :
    s'.countOf run id p = s.countOf run id p := by
  have hoff : (decide (e.runId = run) && decide (e.nodeId = some id)) = false := by
    simpa using hne
  unfold countOf
  rw [h, List.countP_append, List.countP_singleton, hoff]
  simp

end

end Store

/-! ### What a retry was granted on -/

/-- The class of a node's last outcome: rejected by its verdict, else read from its
sealed attempt, a timeout exactly when that says so. -/
inductive Store.OutcomeClass (s : Store) (run : RunId) (id : NodeId) (state : NodeState) :
    FailureClass → Prop
  | rejected (h : state.status = .rejected) : OutcomeClass s run id state .rejected
  | timeout {k : AttemptNumber} {a : Attempt} (h : state.status = .failed)
      (current : state.currentAttempt = some k) (row : a ∈ s.attempts) (key : a.key = (run, id, k))
      (outcome : a.execution.map (·.outcome) = some .timedOut) :
      OutcomeClass s run id state .timeout
  | infrastructure {k : AttemptNumber} {a : Attempt} (h : state.status = .failed)
      (current : state.currentAttempt = some k) (row : a ∈ s.attempts) (key : a.key = (run, id, k))
      (outcome : a.execution.map (·.outcome) ≠ some .timedOut) :
      OutcomeClass s run id state .infrastructure

/-- What the policy asks of a retry at a moment: an allowed class, an attempt left
under the node's cap, and room in the budget of the run's lineage before the
deadline. -/
structure Store.RetryGranted (s : Store) (run : GraphRun) (spec : GraphSpec) (node : NodeSpec)
    (now : Timestamp) : Prop where
  bound : s.Bound run spec
  node_eq : spec.findNode node.id = some node
  cls : ∃ state, s.nodeState run.runId node.id = some state ∧
    ∃ c ∈ node.retryPolicy.allowedFailureClasses, s.OutcomeClass run.runId node.id state c
  cap : s.dispatched run.runId node.id < node.retryPolicy.maxAttempts
  room : ∀ line : RunId → Bool,
    (∀ a, line a = true → a = run.runId ∨ s.Lineage run.budgetLineageRef a) →
    s.dispatches line < spec.budget.totalAttempts
  time : ∀ d, spec.budget.deadline = some d → now.isBefore d = true

/-- A failed node's current attempt is sealed as failed or timed out. -/
def Store.FailedSealed (s : Store) : Prop :=
  s.MarkSealed (fun state => state.status = .failed) (fun o => o = .failed ∨ o = .timedOut)

/-- A node fails when its attempt does. -/
theorem NodeState.Step.fails {s s' : NodeState} {e : NodeEvent} (h : Step s e s')
    (hf : s'.status = .failed) {k : AttemptNumber} (hk : s'.currentAttempt = some k) :
    (∃ o d, e = .executionFinished k o d ∧ (o = .failed ∨ o = .timedOut)) ∨
      (s.status = .failed ∧ s.currentAttempt = some k) := by
  cases h with
  | finish j o d hs hj hcheck =>
    cases o with
    | failed =>
      obtain rfl := Option.some.inj (hj.symm.trans hk)
      exact Or.inl ⟨_, d, rfl, Or.inl rfl⟩
    | timedOut =>
      obtain rfl := Option.some.inj (hj.symm.trans hk)
      exact Or.inl ⟨_, d, rfl, Or.inr rfl⟩
    | completed => exact absurd (hs.symm.trans hf) (by decide)
    | cancelled => cases hf
  | decide j r v hs hj hcheck => cases v <;> cases hf
  | packet p hs hw => exact absurd (hs.symm.trans hf) (by decide)
  | route p d hs hw => cases d <;> cases hf
  | dispatch | retry | gate | cancelOpen | cancelRunning | cancelStopped => cases hf

theorem failedSealed_invariant (rt : Runtime) : (legalLedger rt).Invariant Store.FailedSealed :=
  markSealed_invariant rt (by simp [NodeState.initial]) (fun h hf _ hk => h.fails hf hk)

namespace Budget

/-- The class the policy reads is the class of the sealed outcome. -/
theorem failureClass_outcome {s : Store} (hfailed : s.FailedSealed) (hclaims : s.ClaimsOk)
    {run : RunId} {id : NodeId} {state : NodeState} (hstate : s.nodeState run id = some state)
    {c : FailureClass} (h : failureClass s run id state = .ok (some c)) :
    s.OutcomeClass run id state c := by
  unfold failureClass at h
  split at h
  · rename_i hs
    cases h
    exact Store.OutcomeClass.rejected hs
  · rename_i hs
    have hcurrent := (Store.nodeState_wf hstate).hasAttempt (by simp [hs]) (by simp [hs])
    obtain ⟨k, hk⟩ := Option.ne_none_iff_exists'.mp hcurrent
    obtain ⟨a, ha, hkey, -⟩ := hfailed run id state k hstate hs hk
    obtain ⟨found, hfound, h⟩ := bind_ok h
    have hread := mapError_ok hfound
    rw [hk] at hread
    unfold Store.attempt at hread
    rw [hclaims.find_attempt ha hkey] at hread
    have hrow : found = some a := by
      cases found with
      | none => cases Store.readOptional_none hread
      | some b => exact (Store.readOptional_some hread).1.symm
    rw [hrow] at h
    have hclass : c = if a.execution.map (·.outcome) = some .timedOut then .timeout
        else .infrastructure := (Option.some.inj (Except.ok.inj h)).symm
    by_cases hout : a.execution.map (·.outcome) = some .timedOut
    · rw [hclass, if_pos hout]
      exact Store.OutcomeClass.timeout hs hk ha hkey hout
    · rw [hclass, if_neg hout]
      exact Store.OutcomeClass.infrastructure hs hk ha hkey hout
  · cases h

/-- Everything a disposition to retry checked. -/
theorem disposition_retry {s : Store} {spec : GraphSpec} {run : GraphRun} {state : NodeState}
    {node : NodeSpec} {now : Timestamp} {c : FailureClass} {started cap : Nat}
    (h : disposition s spec run state node now = .ok (.retry c started cap)) :
    failureClass s run.runId node.id state = .ok (some c) ∧
      c ∈ node.retryPolicy.allowedFailureClasses ∧
      state.attemptsStarted < node.retryPolicy.maxAttempts ∧
      ∃ b, status s spec run now = .ok b ∧ b.exhaustion = none := by
  unfold disposition at h
  obtain ⟨found, hfound, hrest⟩ := bind_ok h
  obtain ⟨cls, hcls, h⟩ := bind_ok hrest
  rw [someOr_ok hcls] at hfound
  clear hrest hcls
  by_cases hallowed : cls ∈ node.retryPolicy.allowedFailureClasses
  · rw [if_neg (not_not.mpr hallowed)] at h
    by_cases hcap : state.attemptsStarted ≥ node.retryPolicy.maxAttempts
    · rw [if_pos hcap] at h
      cases h
    · rw [if_neg hcap] at h
      obtain ⟨b, hb, h⟩ := bind_ok h
      cases hroom : b.exhaustion with
      | some reason =>
        rw [hroom] at h
        cases h
      | none =>
        rw [hroom] at h
        cases h
        exact ⟨hfound, hallowed, by omega, b, hb, hroom⟩
  · rw [if_pos hallowed] at h
    cases h

/-- A budget with room has its deadline ahead. -/
theorem status_time {s : Store} {spec : GraphSpec} {run : GraphRun} {now : Timestamp}
    {b : BudgetStatus} (h : status s spec run now = .ok b) (hex : b.exhaustion = none)
    {d : Timestamp} (hd : spec.budget.deadline = some d) : now.isBefore d = true := by
  unfold status at h
  obtain ⟨⟨consumed, walked⟩, -, h⟩ := bind_ok h
  cases h
  cases hlate : now.isBefore d with
  | true => rfl
  | false => simp [BudgetStatus.exhaustion, hd, hlate] at hex

end Budget

/-! ### The cap over whole runs -/

/-- An event that reopens its node by decision. -/
def NodeEvent.reopens : NodeEvent → Bool
  | .decisionAdmitted _ d => d.reopens
  | _ => false

/-- A stored event reopens as the node event it carries does. -/
theorem NodeEvent.reopens_of_carried {e : NodeEvent} {payload : Json} (h : e.CarriedBy payload)
    (s : Store) (run : RunId) (id : NodeId) :
    (s.nextEvent run (some id) e.kind payload).reopens = e.reopens := by
  cases e with
  | decisionAdmitted packet d =>
    have hfield : NodeEvent.field (s.nextEvent run (some id) kinds.decisionAdmitted payload)
        "decision" decodeDecision = .ok d :=
      NodeEvent.field_of_get h.2 (decodeDecision_toJson d)
    simp [StoredEvent.reopens, NodeEvent.kind, NodeEvent.reopens, Store.nextEvent] at hfield ⊢
    rw [hfield]
  | dispatched | executionFinished | receiptAdmitted | gateOpened | retryAllowed | cancelled =>
    refine Bool.and_eq_false_iff.mpr (Or.inl (decide_eq_false ?_))
    simp [NodeEvent.kind, Store.nextEvent, kinds.attemptDispatched, kinds.attemptSealed,
      kinds.receiptAdmitted, kinds.gateOpened, kinds.retryAllowed, kinds.nodeCancelled,
      kinds.decisionAdmitted]

namespace NodeState

/-- The attempts a node has started or may start without another retry. -/
def allowance (s : NodeState) : Nat := s.attemptsStarted + if s.status = .open then 1 else 0

/-- Only a dispatch starts an attempt. -/
theorem Step.started_add {s s' : NodeState} {e : NodeEvent} (h : Step s e s') :
    s'.attemptsStarted = s.attemptsStarted + if e.kind = kinds.attemptDispatched then 1 else 0 := by
  cases h with
  | dispatch k hs hk => rfl
  | finish k o d hs hk hc => cases o <;> rfl
  | decide k r v hs hk hc => cases v <;> rfl
  | route p d hs hw => cases d <;> rfl
  | retry | gate | packet | cancelOpen | cancelRunning | cancelStopped => rfl

theorem allowance_of_not_open {s : NodeState} (h : s.status ≠ .open) :
    s.allowance = s.attemptsStarted := by
  rw [allowance, if_neg h, Nat.add_zero]

/-- Apart from a retry, only a reopening decision adds to the allowance. -/
theorem Step.allowance_le {s s' : NodeState} {e : NodeEvent} (h : Step s e s')
    (he : e ≠ .retryAllowed) :
    s'.allowance ≤ s.allowance + if e.reopens = true then 1 else 0 := by
  have hstarted : s.attemptsStarted ≤ s.allowance := Nat.le_add_right _ _
  have hstays : s'.status ≠ .open → s'.attemptsStarted = s.attemptsStarted →
      s'.allowance ≤ s.allowance + if e.reopens = true then 1 else 0 := by
    intro hstop hsame
    rw [allowance_of_not_open hstop, hsame]
    omega
  cases h with
  | dispatch k hs hk =>
    have hroom : s.allowance = s.attemptsStarted + 1 := by rw [allowance, if_pos hs]
    rw [allowance_of_not_open (by simp), hroom]
    exact Nat.le_add_right _ _
  | finish k o d hs hk hc => cases o <;> exact hstays (by simp [NodeState.finish, hs]) rfl
  | decide k r v hs hk hc => cases v <;> exact hstays (by simp [NodeState.decide]) rfl
  | retry hs => exact absurd rfl he
  | gate p hs => exact hstays (by simp) rfl
  | packet p hs hw => exact hstays (by simp [hs]) rfl
  | route p d hs hw =>
    cases d with
    | cancel | revise => exact hstays (by simp [NodeState.route]) rfl
    | retry | approveAction | denyAction | recordAssessment =>
      rw [allowance_of_not_open (s := s) (by simp [hs])]
      exact le_refl _
  | cancelOpen hs => exact hstays (by simp) rfl
  | cancelRunning hs => exact hstays (by simp) rfl
  | cancelStopped hs => exact hstays (by simp) rfl

theorem Step.allowance_retry {s s' : NodeState} (h : Step s .retryAllowed s') :
    s'.allowance = s.attemptsStarted + 1 := by
  cases h with
  | retry hs => rfl

end NodeState

/-- Each node's dispatches are the attempts it started, and its allowance stays within
its cap and the decisions that reopened it. -/
structure Store.CapOk (s : Store) : Prop where
  counted : ∀ run id, s.dispatched run id = s.started run id
  capped : ∀ run spec node state, s.Bound run spec → node ∈ spec.nodes →
    s.nodeState run.runId node.id = some state →
    state.allowance ≤ node.retryPolicy.maxAttempts + s.reopened run.runId node.id

section

variable {rt : Runtime} {s s' : Store}

theorem maxAttempts_pos {spec : GraphSpec} {g : AdmittedGraph} (h : Graph.admitGraph spec = .ok g)
    {node : NodeSpec} (hn : node ∈ spec.nodes) : 0 < node.retryPolicy.maxAttempts := by
  have hcontract := Graph.admitGraph_checkContract h hn
  unfold NodeSpec.checkContract at hcontract
  simp only [List.append_eq_nil_iff, ite_eq_right_iff, List.cons_ne_nil, imp_false] at hcontract
  omega

/-- A bound run with a state was bound before the step that left it so. -/
theorem Store.Bound.back {run : GraphRun} {spec : GraphSpec} (h : s'.Bound run spec) {id : NodeId}
    {state : NodeState} (hstate : s.nodeState run.runId id = some state) (hx : Extends s s')
    (hs' : s'.Sound) : s.Bound run spec := by
  obtain ⟨r, x, st, hrun, hstored, -, -⟩ := Store.nodeState_some hstate
  obtain ⟨rfl, rfl⟩ := hs'.stored_unique (hx.stored r x hstored) h.1 hrun
  exact ⟨hstored, h.2⟩

/-- A step without a node event writes no event of a node. -/
theorem LedgerStep.countOf_unlabelled (h : LedgerStep rt s none s') (run : RunId) (id : NodeId)
    (p : StoredEvent → Bool) : s'.countOf run id p = s.countOf run id p := by
  cases h with
  | same => rfl
  | graph row fresh => rfl
  | run r fresh known =>
    exact Store.countOf_other rfl (fun hx => nomatch hx.2)
  | revoke run payload known =>
    exact Store.countOf_other rfl (fun hx => nomatch hx.2)

theorem Store.CapOk.unlabelled (h : s.CapOk) (hstep : LedgerStep rt s none s') (hs : s.Sound) :
    s'.CapOk := by
  refine { counted := ?_, capped := ?_ }
  · intro run id
    have hsame := h.counted run id
    unfold Store.dispatched at hsame ⊢
    rw [hstep.countOf_unlabelled, hsame]
    rcases hstep.unmoved hs run id with heq | ⟨hnone, hinitial⟩
    · simp only [Store.started, heq]
    · simp only [Store.started, hnone, hinitial, NodeState.initial]
  · intro run spec node state bound hnode hstate
    unfold Store.reopened
    rw [hstep.countOf_unlabelled]
    rcases hstep.unmoved hs run.runId node.id with heq | ⟨-, hinitial⟩
    · rw [heq] at hstate
      exact h.capped run spec node state (bound.back hstate (hstep.extends hs) (hstep.sound hs))
        hnode hstate
    · rw [hinitial] at hstate
      obtain rfl := Option.some.inj hstate
      obtain ⟨g, hg⟩ := bound.2
      have hpos := maxAttempts_pos hg hnode
      simp only [NodeState.allowance, NodeState.initial, if_true]
      omega

theorem Store.CapOk.labelled (h : s.CapOk) {run : RunId} {id : NodeId} {e : NodeEvent}
    (hstep : LedgerStep rt s (some (run, id, e)) s') (hs : s.Sound)
    (hretry : e = .retryAllowed → ∀ record spec node state, s.Bound record spec →
      record.runId = run → node ∈ spec.nodes → node.id = id → s.nodeState run id = some state →
      state.attemptsStarted < node.retryPolicy.maxAttempts) : s'.CapOk := by
  obtain ⟨record, spec₀, st, old₀, new₀, payload, hrec⟩ := hstep.recorded
  obtain ⟨old, new, hm⟩ := hstep.moved hs
  refine { counted := ?_, capped := ?_ }
  · intro r i
    by_cases hne : r = run ∧ i = id
    · obtain ⟨rfl, rfl⟩ := hne
      have hcount := h.counted r i
      have hself : ∀ p, s'.countOf r i p = s.countOf r i p + _ :=
        fun p => Store.countOf_self hrec.events rfl rfl
      unfold Store.dispatched at hcount ⊢
      rw [hself, hcount, hm.started_self.1, hm.started_self.2, hm.legal.started_add]
      by_cases hk : e.kind = kinds.attemptDispatched <;> simp [Store.nextEvent, hk]
    · have hother : ¬ (run = r ∧ some id = some i) :=
        fun hx => hne ⟨hx.1.symm, (Option.some.inj hx.2).symm⟩
      have hcount := h.counted r i
      unfold Store.dispatched at hcount ⊢
      rw [Store.countOf_other hrec.events hother, hcount, hm.started_other hne]
  · intro r spec node state bound hnode hstate
    have hx := hstep.extends hs
    by_cases hne : r.runId = run ∧ node.id = id
    · obtain ⟨hr, hi⟩ := hne
      rw [hr, hi] at hstate ⊢
      obtain rfl := Option.some.inj (hm.after.symm.trans hstate)
      have hbefore : s.nodeState r.runId id = some old := by rw [hr]; exact hm.before
      have hbound := bound.back hbefore hx (hstep.sound hs)
      have hold := h.capped r spec node old hbound hnode (by rw [hi]; exact hbefore)
      rw [hr, hi] at hold
      unfold Store.reopened at hold ⊢
      have hself : ∀ p, s'.countOf run id p = s.countOf run id p + _ :=
        fun p => Store.countOf_self hrec.events rfl rfl
      rw [hself, NodeEvent.reopens_of_carried hrec.carried]
      by_cases he : e = .retryAllowed
      · have hroom := hretry he r spec node old hbound hr hnode hi hm.before
        have hlegal := hm.legal
        rw [he] at hlegal
        rw [hlegal.allowance_retry]
        omega
      · have hle := hm.legal.allowance_le he
        omega
    · have hother : ¬ (run = r.runId ∧ some id = some node.id) :=
        fun hx => hne ⟨hx.1.symm, (Option.some.inj hx.2).symm⟩
      rw [hm.others _ _ hne] at hstate
      unfold Store.reopened
      rw [Store.countOf_other hrec.events hother]
      exact h.capped r spec node state (bound.back hstate hx (hstep.sound hs)) hnode hstate

end

/-! ### Retries over whole runs -/

/-- Only the retry policy reports a retry. -/
theorem LedgerOp.checked_retryAllowed {op : LedgerOp} {r : op.Result} {run : RunId} {id : NodeId}
    (h : op.checked r = some (run, id, .retryAllowed)) :
    ∃ spec record narrowing now, op = .applyRetryPolicy spec record id narrowing now := by
  unfold LedgerOp.checked at h
  split at h
  all_goals first
    | cases h
    | (rw [Option.map_eq_some_iff] at h
       obtain ⟨_, _, h⟩ := h
       cases h)
  exact ⟨_, _, _, _, rfl⟩

section

variable {s : Store}

/-- A retry that the policy records was granted. -/
theorem exec_retry (rt : Runtime) (hs : (legalLedger rt).Reachable s) (hcap : s.CapOk)
    {op : LedgerOp} (legal : op.Legal s) {run : RunId} {id : NodeId}
    (h : op.checked (op.exec rt s).1 = some (run, id, .retryAllowed)) :
    ∃ record spec node now, record.runId = run ∧ node.id = id ∧
      s.RetryGranted record spec node now := by
  have hsound := sound_invariant rt s hs
  obtain ⟨spec, record, narrowing, now, rfl⟩ := LedgerOp.checked_retryAllowed h
  cases hpolicy : Budget.applyRetryPolicy rt s spec record id narrowing now with
  | error e =>
    simp only [LedgerOp.exec, hpolicy, Store.transaction] at h
    cases h
  | ok out =>
    obtain ⟨decision, s'⟩ := out
    simp only [LedgerOp.exec, hpolicy, Store.transaction] at h
    cases decision with
    | exhausted reason route => cases route <;> cases h
    | retry c started cap =>
      simp only [LedgerOp.checked, Option.some.injEq, Prod.mk.injEq, and_true] at h
      obtain ⟨node, st, state, hnode, hst, hstate, hdisp, -⟩ :=
        Budget.applyRetryPolicy_ok rt hpolicy
      obtain ⟨hclass, hallowed, hless, b, hb, hroom⟩ := Budget.disposition_retry hdisp
      have hid := GraphSpec.findNode_id hnode
      have hlive : s.nodeState record.runId node.id = some state := by
        rw [hid, hsound.nodeState_of_replay legal.1 hst id]
        exact hstate
      have houtcome := Budget.failureClass_outcome (failedSealed_invariant rt s hs)
        (claimsOk_invariant rt s hs) hlive hclass
      refine ⟨record, spec, node, now, h, hid, ?_⟩
      exact { bound := legal
              node_eq := by rw [hid]; exact hnode
              cls := ⟨state, hlive, c, hallowed, houtcome⟩
              cap := by
                rw [hcap.counted]
                simp only [Store.started, hlive]
                exact hless
              room := fun line hline => Budget.status_covers hsound hb hroom hline
              time := fun d hd => Budget.status_time hb hroom hd }

theorem capOk_invariant (rt : Runtime) : (legalLedger rt).Invariant Store.CapOk := by
  intro s hs
  induction hs with
  | init h =>
    rw [h]
    exact { counted := fun _ _ => rfl
            capped := fun _ _ _ _ bound _ _ => absurd bound.1.1 List.not_mem_nil }
  | @step s s' op hr h ih =>
    obtain ⟨legal, rfl⟩ := h
    have hsound := sound_invariant rt s hr
    have hstep := exec_step rt s legal
    cases hlabel : op.checked (op.exec rt s).1 with
    | none =>
      rw [hlabel] at hstep
      exact ih.unlabelled hstep hsound
    | some l =>
      obtain ⟨run, id, e⟩ := l
      rw [hlabel] at hstep
      refine ih.labelled hstep hsound ?_
      rintro rfl record spec node state bound rfl hnode rfl hstate
      obtain ⟨record', spec', node', now, hrun, hid, hgranted⟩ := exec_retry rt hr ih legal hlabel
      obtain ⟨rfl, rfl⟩ := hsound.stored_unique hgranted.bound.1 bound.1 hrun
      obtain ⟨g, hg⟩ := bound.2
      have hfind := Graph.findNode_of_mem hg hnode
      rw [← hid, hgranted.node_eq] at hfind
      obtain rfl := Option.some.inj hfind
      have hcount := hgranted.cap
      rw [ih.counted] at hcount
      simp only [Store.started, hstate] at hcount
      exact hcount

/-- The event a step without a node event may write is about the whole run. -/
theorem LedgerStep.events_unlabelled {rt : Runtime} {s' : Store} (h : LedgerStep rt s none s')
    {e : StoredEvent} (he : e ∈ s'.events) :
    e ∈ s.events ∨ e.kind = kinds.runCreated ∨ e.kind = kinds.receiptRevoked := by
  cases h with
  | same => exact Or.inl he
  | graph row fresh => exact Or.inl he
  | run r fresh known =>
    rcases List.mem_append.mp he with he | he
    · exact Or.inl he
    · rw [List.mem_singleton.mp he]
      exact Or.inr (Or.inl rfl)
  | revoke run payload known =>
    rcases List.mem_append.mp he with he | he
    · exact Or.inl he
    · rw [List.mem_singleton.mp he]
      exact Or.inr (Or.inr rfl)

/-- Each retry of the log was granted in the store it was recorded in. -/
theorem retry_granted (rt : Runtime) (hs : (legalLedger rt).Reachable s) {e : StoredEvent}
    (he : e ∈ s.events) (hkind : e.kind = kinds.retryAllowed) :
    ∃ s₀ ops rest run spec node now, (legalLedger rt).Reachable s₀ ∧
      (legalLedger rt).Run s₀ ops s ∧ s.events = s₀.events ++ e :: rest ∧
      e.runId = run.runId ∧ e.nodeId = some node.id ∧ s₀.RetryGranted run spec node now := by
  induction hs with
  | init h =>
    rw [h] at he
    exact absurd he List.not_mem_nil
  | @step s s' op hr h ih =>
    have hmove : (legalLedger rt).step s op s' := h
    obtain ⟨legal, rfl⟩ := h
    have hstep := exec_step rt s legal
    -- An event recorded before keeps its place, whatever this step appends.
    have hkept : e ∈ s.events → ∀ more, (op.exec rt s).2.events = s.events ++ more →
        ∃ s₀ ops rest run spec node now, (legalLedger rt).Reachable s₀ ∧
          (legalLedger rt).Run s₀ ops (op.exec rt s).2 ∧
          (op.exec rt s).2.events = s₀.events ++ e :: rest ∧
          e.runId = run.runId ∧ e.nodeId = some node.id ∧ s₀.RetryGranted run spec node now := by
      intro hbefore more happ
      obtain ⟨s₀, ops, rest, run, spec, node, now, hreach, hrun, hevents, hgranted⟩ := ih hbefore
      refine ⟨s₀, ops ++ [op], rest ++ more, run, spec, node, now, hreach, .snoc hrun hmove, ?_,
        hgranted⟩
      rw [happ, hevents, List.append_assoc, List.cons_append]
    have happ : ∃ more, (op.exec rt s).2.events = s.events ++ more := by
      rcases exec_logged rt s op with hsame | ⟨x, happ, -⟩
      · exact ⟨[], by rw [hsame, List.append_nil]⟩
      · exact ⟨[x], happ⟩
    cases hlabel : op.checked (op.exec rt s).1 with
    | none =>
      rw [hlabel] at hstep
      rcases hstep.events_unlabelled he with hbefore | hrun | hrevoked
      · obtain ⟨more, hmore⟩ := happ
        exact hkept hbefore more hmore
      · exact absurd (hkind.symm.trans hrun) (by decide)
      · exact absurd (hkind.symm.trans hrevoked) (by decide)
    | some l =>
      obtain ⟨run, id, ev⟩ := l
      rw [hlabel] at hstep
      obtain ⟨record, spec, st, old, new, payload, hrec⟩ := hstep.recorded
      rw [hrec.events, List.mem_append, List.mem_singleton] at he
      rcases he with hbefore | rfl
      · exact hkept hbefore _ hrec.events
      · have hretry : ev = .retryAllowed := by
          cases ev with
          | retryAllowed => rfl
          | dispatched | executionFinished | receiptAdmitted | gateOpened | decisionAdmitted
          | cancelled =>
            simp [NodeEvent.kind, Store.nextEvent, kinds.attemptDispatched, kinds.attemptSealed,
              kinds.receiptAdmitted, kinds.gateOpened, kinds.retryAllowed, kinds.nodeCancelled,
              kinds.decisionAdmitted] at hkind
        rw [hretry] at hlabel
        obtain ⟨record', spec', node, now, hrun, hid, hgranted⟩ :=
          exec_retry rt hr (capOk_invariant rt s hr) legal hlabel
        exact ⟨s, [op], [], record', spec', node, now, hr, .snoc (.nil s) hmove, hrec.events,
          hrun.symm, by rw [hid]; rfl, hgranted⟩

end

/-- In every store that legal use reaches: a node of an admitted graph has at most as
many attempts dispatched as its cap and the admitted decisions that reopened it, and
each recorded retry was recorded while its outcome's class was allowed, fewer attempts
than the cap had started, the run's lineage had budget left and the deadline was
ahead. -/
theorem retries_bounded (rt : Runtime) {s : Store} (hs : (legalLedger rt).Reachable s) :
    (∀ run spec node, s.Bound run spec → node ∈ spec.nodes →
      s.dispatched run.runId node.id ≤
        node.retryPolicy.maxAttempts + s.reopened run.runId node.id) ∧
    ∀ e ∈ s.events, e.kind = kinds.retryAllowed →
      ∃ s₀ ops rest run spec node now, (legalLedger rt).Reachable s₀ ∧
        (legalLedger rt).Run s₀ ops s ∧ s.events = s₀.events ++ e :: rest ∧
        e.runId = run.runId ∧ e.nodeId = some node.id ∧ s₀.RetryGranted run spec node now := by
  have hok := capOk_invariant rt s hs
  refine ⟨?_, fun e he hkind => retry_granted rt hs he hkind⟩
  intro run spec node bound hnode
  rw [hok.counted]
  cases hstate : s.nodeState run.runId node.id with
  | none =>
    simp only [Store.started, hstate]
    exact Nat.zero_le _
  | some state =>
    have hcapped := hok.capped run spec node state bound hnode hstate
    have hstarted : state.attemptsStarted ≤ state.allowance := Nat.le_add_right _ _
    simp only [Store.started, hstate]
    omega

namespace Pilot

/-- The patch alone, retried after a timeout, and a run in which its first attempt
times out. -/
def patientPatch : NodeSpec :=
  { patch with retryPolicy := { patch.retryPolicy with allowedFailureClasses := [.timeout] } }

def patientSpec : GraphSpec := { spec with nodes := [patientPatch], targets := [patchRef] }

def patientScheduler : Scheduler :=
  get (Scheduler.new patientSpec run controller) (by decide +kernel)

def timedOut : Attempt :=
  { attemptOf patch [] with
    result := none
    execution := some { outcome := .timedOut, errorCode := none, errorText := none } }

def patientOps : List LedgerOp :=
  [.claimNext patientScheduler now "2026-01-01T00:00:01Z",
    .complete patientScheduler (claimOf patch 1 []) timedOut,
    .applyRetryPolicy patientSpec run patchId Narrowing.empty now,
    .claimNext patientScheduler now "2026-01-01T00:00:03Z"]

def patientCreated : Store :=
  ((LedgerOp.createRun run).exec runtime
    ((LedgerOp.storeGraph patientSpec).exec runtime Store.empty).2).2

def retried : Store := patientCreated.play runtime patientOps

theorem patientScheduler_eq : patientScheduler.run = run ∧ patientScheduler.spec = patientSpec := by
  decide +kernel

theorem patientCreated_bound : patientCreated.Bound run patientSpec := by
  have hadmitted := patientScheduler.admitted
  rw [patientScheduler_eq.2] at hadmitted
  exact ⟨⟨by decide +kernel, by decide +kernel⟩, patientScheduler.graph, hadmitted⟩

theorem retried_reachable : (legalLedger runtime).Reachable retried ∧
    retried.Bound run patientSpec := by
  have hcreated : (legalLedger runtime).Reachable patientCreated :=
    .step (a := .createRun run) (.step (a := .storeGraph patientSpec) (.init rfl)
      ⟨trivial, rfl⟩) ⟨trivial, rfl⟩
  exact Store.play_reachable (fun _ _ legal => legal) hcreated patientCreated_bound
    (show ∀ op ∈ patientOps, op.Of run patientSpec by decide +kernel)

end Pilot

open Pilot in
/-- Both attempts the cap allows were started, the second after a granted retry. -/
theorem retries_bounded_retried :
    (retried.dispatched runId patchId = 2 ∧ retried.dispatched runId patchId ≤
      patientPatch.retryPolicy.maxAttempts + retried.reopened runId patchId) ∧
    ∃ e ∈ retried.events, e.kind = kinds.retryAllowed ∧
      ∃ (s₀ : Store) (run : GraphRun) (spec : GraphSpec) (node : NodeSpec) (now : Timestamp),
        s₀.RetryGranted run spec node now ∧ e.nodeId = some node.id := by
  have hmain := retries_bounded runtime retried_reachable.1
  have hmem : patientPatch ∈ patientSpec.nodes := by decide +kernel
  have hcap := hmain.1 run patientSpec patientPatch retried_reachable.2 hmem
  obtain ⟨e, he, hkind⟩ : ∃ e ∈ retried.events, e.kind = kinds.retryAllowed := by decide +kernel
  obtain ⟨s₀, -, -, r, spec, node, now, -, -, -, -, hnode, hgranted⟩ := hmain.2 e he hkind
  exact ⟨⟨by decide +kernel, hcap⟩, e, he, hkind, s₀, r, spec, node, now, hgranted, hnode⟩

end Checkspan
