import Checkspan.Prerequisites

/-!
# Sealed attempts

An attempt row is written once, by `complete` or `reclaim`, and `check_bindings`
(`attempt.rs:250-292`) says what it must look like. `complete` compares the record
with its claim in run, node, number and pinned receipts and asks for an execution
(`scheduler/mod.rs:452-541`); the rest is up to the controller that calls it.
-/

namespace Checkspan

open Transition

/-! ### What a row should be -/

/-- The row keeps the rules of its record, names the owner of its claim, and has a
result of the type its node declares once execution completed. -/
structure Store.WellSealed (s : Store) (a : Attempt) : Prop where
  bindings : a.checkBindings = []
  owner : ∃ row ∈ s.claims, row.key = a.key ∧ row.owner = a.owner
  typed : ∀ run spec node, s.Stored run spec → run.runId = a.runId →
    spec.findNode a.node.nodeId = some node → a.execution.map (·.outcome) = some .completed →
    ∃ result, a.result = some result ∧ result.resultType = node.resultType

/-- A verdict short of acceptance that repeats what the contract and the sealed
attempt fix, under an unused id. -/
structure Receipts.Judges (rt : Runtime) (s : Store) (run : GraphRun) (node : NodeSpec)
    (a : Attempt) (result : ResultRef) (receipt : VerifierReceipt) (now : Timestamp) : Prop where
  wellFormed : receipt.checkBindings = []
  about : receipt.attempt = a.attemptRef
  binds : Receipts.Binds rt node receipt a result
  verdict : receipt.verdict ≠ .accept
  valid : ∀ t, receipt.validity.validUntil = some t → t.isBefore now = false
  unused : s.receipt run.runId receipt.id.text = .ok none
  recordFits : (rt.text receipt.toJson).utf8ByteSize ≤ maxRecordLen
  payloadFits : (rt.text (Receipts.admittedPayload receipt)).utf8ByteSize ≤ maxRecordLen

/-- Every node that checks an attempt has a sealed result of its declared type, and
admits each verdict that judges it. -/
def Store.Judgeable (rt : Runtime) (s : Store) : Prop :=
  ∀ run spec st id state k, s.Stored run spec → s.replay run.runId spec = .ok st →
    st.node id = some state → state.checking = true → state.currentAttempt = some k →
    ∃ node a result, spec.findNode id = some node ∧ a ∈ s.attempts ∧
      a.key = (run.runId, id, k) ∧ a.completedResult = some result ∧
      result.resultType = node.resultType ∧
      ∀ receipt now, Receipts.Judges rt s run node a result receipt now →
        ∃ s', Receipts.admitReceipt rt s spec run receipt now = .ok ((), s')

structure Store.SealedWell (rt : Runtime) (s : Store) : Prop where
  rows : ∀ a ∈ s.attempts, s.WellSealed a
  judgeable : s.Judgeable rt

/-! ### What is left to the caller -/

/-- The record agrees with its claim and its contract where `complete` does not
look. -/
structure Scheduler.Careful (spec : GraphSpec) (claim : Claim) (a : Attempt) : Prop where
  header : a.toRecordHeader.isFor .attempt = true
  owner : a.owner = claim.owner.text
  finished : a.finishedAt.isSome = true
  receipt : a.ReceiptFits
  pins : (a.dependencyReceipts.map (·.id)).Nodup
  ports : (a.inputManifest.map (·.portName)).Nodup
  typed : ∀ node, spec.findNode claim.nodeId = some node →
    a.execution.map (·.outcome) = some .completed →
    ∃ result, a.result = some result ∧ result.resultType = node.resultType

/-- A record for a held claim is careful, and a claim taken over pins receipts of
distinct ids. -/
def LedgerOp.SealsWell (s : Store) : LedgerOp → Prop
  | complete sched claim a => ∀ execution row, sched.checkCompletion claim a = .ok execution →
      Scheduler.heldClaim s claim = .ok row → row.dependencyReceipts = a.dependencyReceipts →
      Scheduler.Careful sched.spec claim a
  | reclaim sched id _ => ∀ row ∈ s.claims, row.active = true → row.runId = sched.run.runId →
      row.nodeId = id → (row.dependencyReceipts.map (·.id)).Nodup
  | _ => True

/-- Legal use that seals well. -/
def sealingLedger (rt : Runtime) : System Store LedgerOp :=
  ledgerSystem rt (fun s op => op.Legal s ∧ op.SealsWell s)

theorem sealing_legal {rt : Runtime} {s : Store} (hs : (sealingLedger rt).Reachable s) :
    (legalLedger rt).Reachable s := by
  induction hs with
  | init h => exact .init h
  | step hr h ih => exact .step ih ⟨h.1.1, h.2⟩

/-! ### How an execution ended -/

namespace NodeState.Step

variable {s s' : NodeState} {e : NodeEvent}

/-- A node starts to check when its attempt completes. -/
theorem checks (h : Step s e s') (hc : s'.checking = true) {k : AttemptNumber}
    (hk : s'.currentAttempt = some k) :
    (∃ o d, e = .executionFinished k o d ∧ o = .completed) ∨
      (s.checking = true ∧ s.currentAttempt = some k) := by
  cases h with
  | dispatch j hs hj => cases hc
  | finish j o d hs hj hcheck =>
    cases o with
    | completed =>
      obtain rfl := Option.some.inj (hj.symm.trans hk)
      exact Or.inl ⟨_, d, rfl, rfl⟩
    | failed | timedOut | cancelled => exact Or.inr ⟨hc, hk⟩
  | decide j r v hs hj hcheck => cases v <;> cases hc
  | retry hs => cases hk
  | gate p hs => exact Or.inr ⟨hc, hk⟩
  | packet p hs hw => exact Or.inr ⟨hc, hk⟩
  | route p d hs hw =>
    cases d with
    | cancel | revise => exact Or.inr ⟨hc, hk⟩
    | retry | approveAction | denyAction | recordAssessment => cases hk
  | cancelOpen hs => exact Or.inr ⟨hc, hk⟩
  | cancelRunning hs => cases hc
  | cancelStopped hs => exact Or.inr ⟨hc, hk⟩

end NodeState.Step

/-- Every current attempt whose node shows the mark is sealed with one of the
outcomes. -/
def Store.MarkSealed (mark : NodeState → Prop) (outcomes : ExecutionOutcome → Prop) (s : Store) :
    Prop :=
  ∀ run id state k, s.nodeState run id = some state → mark state →
    state.currentAttempt = some k →
    ∃ a ∈ s.attempts, a.key = (run, id, k) ∧
      ∃ o, a.execution.map (·.outcome) = some o ∧ outcomes o

section

variable {rt : Runtime} {s s' : Store}

/-- The row a recorded end of execution seals. -/
theorem LedgerStep.sealed_row {run : RunId} {id : NodeId} {k : AttemptNumber}
    {o : ExecutionOutcome} {d : Option Digest}
    (h : LedgerStep rt s (some (run, id, .executionFinished k o d)) s') :
    ∃ a ∈ s'.attempts, a.key = (run, id, k) ∧ a.execution.map (·.outcome) = some o := by
  cases h with
  | @complete sched claim attempt _ row execution st state next record hrun bound h =>
    have hattempts : s'.attempts = s.attempts ++ [attempt] := by rw [h.store_eq]; rfl
    refine ⟨attempt, ?_, ?_, ?_⟩
    · rw [hattempts]
      exact List.mem_append_right _ (List.mem_singleton_self _)
    · simp only [Attempt.key, h.runId_eq, h.number_eq, GraphSpec.nodeRef_nodeId h.nodeRef_eq]
    · rw [h.execution_eq, Option.map_some]
  | @reclaim sched _ now number _ node row startedAt st state next bound h =>
    have hattempts : s'.attempts = s.attempts ++
        [sched.reclaimedAttempt node row startedAt now] := by
      rw [h.store_eq]
      rfl
    refine ⟨sched.reclaimedAttempt node row startedAt now, ?_, ?_, rfl⟩
    · rw [hattempts]
      exact List.mem_append_right _ (List.mem_singleton_self _)
    · simp only [Attempt.key, Scheduler.reclaimedAttempt, h.number_eq,
        GraphSpec.nodeRef_nodeId h.nodeRef_eq]

variable {mark : NodeState → Prop} {outcomes : ExecutionOutcome → Prop}

theorem Store.MarkSealed.step (h : s.MarkSealed mark outcomes)
    (hinitial : ¬ mark NodeState.initial)
    (hmark : ∀ {s e s'}, NodeState.Step s e s' → mark s' → ∀ {k}, s'.currentAttempt = some k →
      (∃ o d, e = .executionFinished k o d ∧ outcomes o) ∨
        (mark s ∧ s.currentAttempt = some k))
    {label : Option (RunId × NodeId × NodeEvent)} (hstep : LedgerStep rt s label s')
    (hs : s.Sound) : s'.MarkSealed mark outcomes := by
  intro run id state k hstate hshown hcurrent
  have hx := hstep.extends hs
  have hkept : ∀ state, s.nodeState run id = some state → mark state →
      state.currentAttempt = some k → ∃ a ∈ s'.attempts, a.key = (run, id, k) ∧
        ∃ o, a.execution.map (·.outcome) = some o ∧ outcomes o := by
    intro state hbefore hshown hcurrent
    obtain ⟨a, ha, hkey, hdone⟩ := h run id state k hbefore hshown hcurrent
    exact ⟨a, hx.mem_attempts ha, hkey, hdone⟩
  cases label with
  | none =>
    rcases hstep.unmoved hs run id with heq | ⟨-, hfirst⟩
    · exact hkept state (heq ▸ hstate) hshown hcurrent
    · rw [hfirst] at hstate
      obtain rfl := Option.some.inj hstate
      exact absurd hshown hinitial
  | some l =>
    obtain ⟨r, i, e⟩ := l
    obtain ⟨old, new, hm⟩ := hstep.moved hs
    by_cases hne : run = r ∧ id = i
    · obtain ⟨rfl, rfl⟩ := hne
      obtain rfl := Option.some.inj (hm.after.symm.trans hstate)
      rcases hmark hm.legal hshown hcurrent with ⟨o, d, rfl, ho⟩ | ⟨hbefore, hcur⟩
      · obtain ⟨a, ha, hkey, hdone⟩ := hstep.sealed_row
        exact ⟨a, ha, hkey, o, hdone, ho⟩
      · exact hkept old hm.before hbefore hcur
    · rw [hm.others run id hne] at hstate
      exact hkept state hstate hshown hcurrent

end

/-- A mark that only the end of an execution sets stands for a sealed outcome. -/
theorem markSealed_invariant (rt : Runtime) {mark : NodeState → Prop}
    {outcomes : ExecutionOutcome → Prop} (hinitial : ¬ mark NodeState.initial)
    (hmark : ∀ {s e s'}, NodeState.Step s e s' → mark s' → ∀ {k}, s'.currentAttempt = some k →
      (∃ o d, e = .executionFinished k o d ∧ outcomes o) ∨
        (mark s ∧ s.currentAttempt = some k)) :
    (legalLedger rt).Invariant (Store.MarkSealed mark outcomes) := by
  refine System.Invariant.step (sound_invariant rt) ?_ ?_
  · rintro s rfl run id state k hstate
    cases hstate
  · rintro s op s' hs h ⟨legal, rfl⟩
    exact h.step hinitial hmark (exec_step rt s legal) hs

/-- The attempt of a checking node is sealed as completed. -/
def Store.CheckingSealed (s : Store) : Prop :=
  s.MarkSealed (fun state => state.checking = true) (fun o => o = .completed)

theorem checkingSealed_invariant (rt : Runtime) :
    (legalLedger rt).Invariant Store.CheckingSealed :=
  markSealed_invariant rt (by simp [NodeState.initial]) (fun h hc _ hk => h.checks hc hk)

/-! ### Careful records -/

/-- What stays true of a row sealed with care, and of its claim. -/
structure Store.CarefulRow (s : Store) (a : Attempt) (run : GraphRun) (spec : GraphSpec)
    (node : NodeSpec) : Prop where
  header : a.toRecordHeader.isFor .attempt = true
  bindings : a.checkBindings = []
  owner : ∃ row ∈ s.claims, row.key = a.key ∧ row.owner = a.owner
  stored : s.Stored run spec
  run_eq : run.runId = a.runId
  contract : Receipts.contractOf spec a.node = some node
  typed : a.execution.map (·.outcome) = some .completed →
    ∃ result, a.result = some result ∧ result.resultType = node.resultType

structure Store.SealingOk (s : Store) : Prop where
  owners : ∀ row ∈ s.claims, isBlank row.owner = false
  rows : ∀ a ∈ s.attempts, ∃ run spec node, s.CarefulRow a run spec node

namespace Scheduler

variable {sched : Scheduler} {s s' : Store}

theorem Completed.checked {claim : Claim} {a : Attempt} {row : ClaimRow} {execution : Execution}
    {st : RunState} {state next : NodeState}
    (h : sched.Completed s claim a s' row execution st state next) :
    sched.checkCompletion claim a = .ok execution ∧ heldClaim s claim = .ok row := by
  have hid := GraphSpec.nodeRef_nodeId h.nodeRef_eq
  constructor
  · simp [checkCompletion, bind_eq_ok, guardOk_eq_ok, someOr_eq_ok, h.runId_eq, h.number_eq, hid,
      h.nodeRef_eq, h.execution_eq]
  · simp [heldClaim, bind_eq_ok, guardOk_eq_ok, someOr_eq_ok, h.row_eq, h.active, h.fence_eq,
      h.owner_eq]

/-- A careful completion seals a row as it should be. -/
theorem Completed.carefulRow {claim : Claim} {a : Attempt} {row : ClaimRow} {execution : Execution}
    {st : RunState} {state next : NodeState}
    (h : sched.Completed s claim a s' row execution st state next) {run : GraphRun}
    (hrun : run.runId = claim.runId) (hstored : s.Stored run sched.spec)
    (hcare : Careful sched.spec claim a) : ∃ node, s.CarefulRow a run sched.spec node := by
  obtain ⟨hrow, hr, hi, hk⟩ := Store.claim_some h.row_eq
  have hnumber : row.number = claim.number := PositiveU32.ext_get hk
  have hid := GraphSpec.nodeRef_nodeId h.nodeRef_eq
  have hfinished : a.execution.isSome = true := by rw [h.execution_eq]; rfl
  obtain ⟨node, hfind, hcontract⟩ := Receipts.contractOf_of_nodeRef h.nodeRef_eq
  refine ⟨node, ?_⟩
  exact { header := hcare.header
          bindings := (Attempt.checkBindings_eq_nil hfinished).mpr
            ⟨hcare.owner ▸ claim.owner.nonblank, hcare.finished, hcare.receipt, hcare.pins,
              hcare.ports⟩
          owner := by
            refine ⟨row, hrow, ?_, h.owner_eq.trans hcare.owner.symm⟩
            simp only [ClaimRow.key, Attempt.key, hr, hi, hnumber, h.runId_eq, hid, h.number_eq]
          stored := hstored
          run_eq := hrun.trans h.runId_eq.symm
          contract := hcontract
          typed := hcare.typed node hfind }

/-- A takeover seals a row as it should be, if its claim pins distinct receipts. -/
theorem Reclaimed.carefulRow {id : NodeId} {now : Timestamp} {number : AttemptNumber}
    {node : NodeRef} {row : ClaimRow} {startedAt : Timestamp} {st : RunState}
    {state next : NodeState}
    (h : sched.Reclaimed s id now number s' node row startedAt st state next)
    (hstored : s.Stored sched.run sched.spec) (howner : isBlank row.owner = false)
    (hpins : (row.dependencyReceipts.map (·.id)).Nodup) :
    ∃ n, s.CarefulRow (sched.reclaimedAttempt node row startedAt now) sched.run sched.spec n := by
  have hid := GraphSpec.nodeRef_nodeId h.nodeRef_eq
  obtain ⟨n, -, hcontract⟩ := Receipts.contractOf_of_nodeRef h.nodeRef_eq
  refine ⟨n, ?_⟩
  exact { header := rfl
          bindings := (Attempt.checkBindings_eq_nil rfl).mpr
            ⟨howner, rfl, fun _ hnone => (nomatch hnone), hpins, List.nodup_nil⟩
          owner := by
            refine ⟨row, h.row_mem, ?_, rfl⟩
            simp only [ClaimRow.key, Attempt.key, reclaimedAttempt, h.row_run, h.row_node, hid]
          stored := hstored
          run_eq := rfl
          contract := hcontract
          typed := fun hdone => (nomatch hdone) }

end Scheduler

section

variable {rt : Runtime} {s s' : Store}

theorem Store.CarefulRow.keep {a : Attempt} {run : GraphRun} {spec : GraphSpec} {node : NodeSpec}
    (h : s.CarefulRow a run spec node) {label : Option (RunId × NodeId × NodeEvent)}
    (hstep : LedgerStep rt s label s') (hs : s.Sound) : s'.CarefulRow a run spec node := by
  obtain ⟨row, hrow, hkey, howner⟩ := h.owner
  obtain ⟨row', hrow', hissued⟩ := hstep.claim_kept hrow
  exact { h with
    owner := ⟨row', hrow', (ClaimRow.key_of_issued hissued).trans hkey,
      (ClaimRow.owner_of_issued hissued).trans howner⟩
    stored := (hstep.extends hs).stored run spec h.stored }

/-- A step that ends no execution seals nothing. -/
theorem LedgerStep.attempts_eq {label : Option (RunId × NodeId × NodeEvent)}
    (h : LedgerStep rt s label s')
    (hne : ∀ run id k o d, label ≠ some (run, id, .executionFinished k o d)) :
    s'.attempts = s.attempts := by
  cases h with
  | same => rfl
  | graph row fresh => rfl
  | run r fresh known => rfl
  | revoke run payload known => rfl
  | claim bound h => rw [h.store_eq]
  | complete hrun bound h => exact absurd rfl (hne _ _ _ _ _)
  | cancel bound h => rw [h.store_eq]
  | reclaim bound h => exact absurd rfl (hne _ _ _ _ _)
  | admitted bound h => rw [h.store_eq]
  | retry payload bound replayed state_eq legal => rfl
  | exhausted payload bound replayed state_eq stopped legal => rfl
  | opened bound h => rw [h.store_eq]
  | decided payload decisions waits carried => rfl

/-- Only `complete` and `reclaim` report an end of execution. -/
theorem LedgerOp.checked_finished {op : LedgerOp} {r : op.Result} {run : RunId} {id : NodeId}
    {k : AttemptNumber} {o : ExecutionOutcome} {d : Option Digest}
    (h : op.checked r = some (run, id, .executionFinished k o d)) :
    (∃ sched claim a, op = .complete sched claim a) ∨ ∃ sched now, op = .reclaim sched id now := by
  unfold LedgerOp.checked at h
  split at h
  all_goals first
    | cases h
    | skip
  · exact Or.inl ⟨_, _, _, rfl⟩
  · exact Or.inr ⟨_, _, rfl⟩

/-- What sealing well seals is careful. -/
theorem sealed_careful (rt : Runtime) {op : LedgerOp} (legal : op.Legal s) (hwell : op.SealsWell s)
    (howners : ∀ row ∈ s.claims, isBlank row.owner = false) {a : Attempt}
    (ha : a ∈ (op.exec rt s).2.attempts) :
    a ∈ s.attempts ∨ ∃ run spec node, s.CarefulRow a run spec node := by
  cases op with
  | complete sched claim attempt =>
    obtain ⟨run, hrun, bound⟩ := legal
    revert ha
    refine Store.transaction_property (P := fun t => a ∈ t.attempts → _) Or.inl ?_
    intro u s' h ha
    obtain ⟨row, execution, st, state, next, hdone⟩ := Scheduler.complete_ok rt h
    have hattempts : s'.attempts = s.attempts ++ [attempt] := by rw [hdone.store_eq]; rfl
    rw [hattempts, List.mem_append, List.mem_singleton] at ha
    rcases ha with ha | rfl
    · exact Or.inl ha
    · have hcare := hwell execution row hdone.checked.1 hdone.checked.2 hdone.pinned
      obtain ⟨node, hnode⟩ := hdone.carefulRow hrun bound.1 hcare
      exact Or.inr ⟨run, sched.spec, node, hnode⟩
  | reclaim sched id now =>
    revert ha
    refine Store.transaction_property (P := fun t => a ∈ t.attempts → _) Or.inl ?_
    intro number s' h ha
    obtain ⟨node, row, startedAt, st, state, next, hdone⟩ := Scheduler.reclaim_ok rt h
    have hattempts : s'.attempts =
        s.attempts ++ [sched.reclaimedAttempt node row startedAt now] := by
      rw [hdone.store_eq]
      rfl
    rw [hattempts, List.mem_append, List.mem_singleton] at ha
    rcases ha with ha | rfl
    · exact Or.inl ha
    · obtain ⟨n, hn⟩ := hdone.carefulRow legal.1 (howners row hdone.row_mem)
        (hwell row hdone.row_mem hdone.active hdone.row_run hdone.row_node)
      exact Or.inr ⟨sched.run, sched.spec, n, hn⟩
  | storeGraph | createRun | claimNext | cancel | admitReceipt | applyRetryPolicy
  | openResolveWork | revokeReceipt | admitDecision | appendDecision =>
    have hstep := exec_step rt s legal
    rw [hstep.attempts_eq] at ha
    · exact Or.inl ha
    · intro run id k o d hlabel
      rcases LedgerOp.checked_finished hlabel with ⟨_, _, _, heq⟩ | ⟨_, _, heq⟩ <;> cases heq

theorem Store.SealingOk.exec (rt : Runtime) (h : s.SealingOk) {op : LedgerOp} (legal : op.Legal s)
    (hwell : op.SealsWell s) (hs : s.Sound) : (op.exec rt s).2.SealingOk := by
  have hstep := exec_step rt s legal
  refine { owners := ?_, rows := ?_ }
  · intro row' hrow'
    rcases hstep.claim_rows hrow' with ⟨row, hrow, hissued⟩ |
      ⟨sched, now, claimedAt, claim, node, st, state, next, snapshot, bound, hclaim, rfl⟩
    · rw [ClaimRow.owner_of_issued hissued]
      exact h.owners row hrow
    · exact sched.controller.nonblank
  · intro a ha
    have hbefore : ∃ run spec node, s.CarefulRow a run spec node := by
      rcases sealed_careful rt legal hwell h.owners ha with ha | hcareful
      · exact h.rows a ha
      · exact hcareful
    obtain ⟨run, spec, node, hrow⟩ := hbefore
    exact ⟨run, spec, node, hrow.keep hstep hs⟩

end

theorem sealingOk_invariant (rt : Runtime) : (sealingLedger rt).Invariant Store.SealingOk := by
  have hsound : (sealingLedger rt).Invariant Store.Sound :=
    fun s hs => sound_invariant rt s (sealing_legal hs)
  refine System.Invariant.step hsound ?_ ?_
  · rintro s rfl
    exact { owners := fun _ h => absurd h List.not_mem_nil
            rows := fun _ h => absurd h List.not_mem_nil }
  · rintro s op s' hs h ⟨⟨legal, hwell⟩, rfl⟩
    exact h.exec rt legal hwell hs

/-! ### Verdicts -/

/-- A sealed row is the one found under its key. -/
theorem Store.ClaimsOk.find_attempt {s : Store} (h : s.ClaimsOk) {a : Attempt}
    (ha : a ∈ s.attempts) {run : RunId} {id : NodeId} {k : AttemptNumber}
    (hkey : a.key = (run, id, k)) :
    s.attempts.find? (fun b => b.runId = run ∧ b.node.nodeId = id ∧ b.number.get = k.get) =
      some a := by
  simp only [Attempt.key, Prod.mk.injEq] at hkey
  obtain ⟨rfl, rfl, rfl⟩ := hkey
  refine find?_of_unique ha (by simp) ?_
  intro b hb hsame
  rw [decide_eq_true_eq] at hsame
  have hnumber : b.number = a.number := PositiveU32.ext_get hsame.2.2
  refine List.inj_on_of_nodup_map h.sealedOnce hb ha ?_
  simp only [Attempt.key, hsame.1, hsame.2.1, hnumber]

/-- A sealed row with the header of an attempt reads back. -/
theorem Store.ClaimsOk.attempt_eq {s : Store} (h : s.ClaimsOk) {a : Attempt} (ha : a ∈ s.attempts)
    (hheader : a.toRecordHeader.isFor .attempt = true) {run : RunId} {id : NodeId}
    {k : AttemptNumber} (hkey : a.key = (run, id, k)) :
    s.attempt run id k.get = .ok (some a) := by
  unfold Store.attempt
  rw [h.find_attempt ha hkey]
  exact Store.readOptional_of_header hheader

theorem Store.CarefulRow.wellSealed {s : Store} {a : Attempt} {run : GraphRun} {spec : GraphSpec}
    {node : NodeSpec} (h : s.CarefulRow a run spec node) (hs : s.Sound) : s.WellSealed a := by
  refine { bindings := h.bindings, owner := h.owner, typed := ?_ }
  intro run' spec' node' hstored hrun hnode
  obtain ⟨rfl, rfl⟩ := hs.stored_unique hstored h.stored (hrun.trans h.run_eq.symm)
  obtain rfl := Option.some.inj (hnode.symm.trans (Receipts.contractOf_some h.contract).1)
  exact h.typed

/-- A verdict that judges the attempt a node checks is admitted. -/
theorem Receipts.Judges.admitted {rt : Runtime} {s : Store} {run : GraphRun} {spec : GraphSpec}
    {node : NodeSpec} {a : Attempt} {result : ResultRef} {receipt : VerifierReceipt}
    {now : Timestamp} (h : Receipts.Judges rt s run node a result receipt now)
    (hrow : s.attempt run.runId a.node.nodeId a.number.get = .ok (some a))
    (hnode : Receipts.contractOf spec a.node = some node) {st : RunState} {state : NodeState}
    (hst : s.replay run.runId spec = .ok st) (hstate : st.node a.node.nodeId = some state)
    (hchecking : state.checking = true) (hcurrent : state.currentAttempt = some a.number)
    (hrun : s.hasRun run.runId = true) :
    ∃ s', Receipts.admitReceipt rt s spec run receipt now = .ok ((), s') := by
  obtain ⟨hmem, hkey⟩ := Store.attempt_some hrow
  have hrunId : receipt.attempt.runId = run.runId := by
    rw [h.about]
    exact congrArg Prod.fst hkey
  have hnodeRef : receipt.attempt.node = a.node := by rw [h.about]; rfl
  have hnumber : receipt.attempt.number = a.number := by rw [h.about]; rfl
  have hchecked : Receipts.checkReceipt spec run receipt now = .ok node := by
    simp only [Receipts.checkReceipt, bind_eq_ok, guardOk_eq_ok, someOr_eq_ok, decide_eq_true_eq,
      exists_const, h.wellFormed, List.isEmpty_nil, hrunId, hnodeRef, hnode, Option.some.injEq,
      true_and]
    exact ⟨node, rfl, h.binds.verifier, h.binds.policy, Receipts.unexpired_iff.mpr h.valid, rfl⟩
  have hsealed : Receipts.checkSealed rt s run node receipt = .ok a := by
    have hcontext := h.binds.context
    rw [h.binds.resultDigest] at hcontext
    simp only [Receipts.checkSealed, bind_eq_ok, guardOk_eq_ok, someOr_eq_ok, mapError_eq_ok,
      Receipts.checkSubject_eq_ok, decide_eq_true_eq, exists_const, hnodeRef, hnumber]
    exact ⟨none, h.unused, rfl, some a, hrow, a, rfl, result, h.binds.completed,
      h.binds.resultDigest, h.binds.subject, receipt.contextDigest, hcontext, rfl, rfl⟩
  have hstale : Receipts.isChecking (st.node receipt.attempt.node.nodeId) receipt.attempt.number
      = true := by
    rw [hnodeRef, hnumber]
    exact Receipts.isChecking_eq_true.mpr ⟨state, hstate, hchecking, hcurrent⟩
  have hdeps : Receipts.checkDependencies s spec run st a receipt now = .ok () := by
    unfold Receipts.checkDependencies
    rw [if_neg h.verdict]
  have hinsert : s.insertReceipt rt receipt =
      .ok { s with receipts := s.receipts ++ [receipt] } := by
    refine (Receipts.insertReceipt_eq_ok rt ?_ (by rw [hrunId]; exact h.unused)).mpr
      ⟨h.recordFits, rfl⟩
    rw [List.any_eq_true]
    exact ⟨a, hmem, by simp [h.about, Attempt.attemptRef]⟩
  have hallowed := Receipts.admitted_allowed (s := s) (hrunId ▸ hrun)
  obtain ⟨s', hs'⟩ : ∃ s', Store.appendEvent rt { s with receipts := s.receipts ++ [receipt] }
      receipt.attempt.runId (some receipt.attempt.node.nodeId) kinds.receiptAdmitted
      (Receipts.admittedPayload receipt) = .ok s' :=
    ⟨_, (Store.appendEvent_eq_ok rt).mpr ⟨h.payloadFits, hallowed, rfl⟩⟩
  refine ⟨s', ?_⟩
  simp only [Receipts.admitReceipt, bind_eq_ok, mapError_eq_ok, guardOk_eq_ok]
  exact ⟨node, hchecked, a, hsealed, st, hst, (), hstale, (), hdeps, _, hinsert, s', hs', rfl⟩

theorem Store.SealingOk.judgeable (rt : Runtime) {s : Store} (h : s.SealingOk)
    (hchecking : s.CheckingSealed) (hclaims : s.ClaimsOk) (hs : s.Sound) : s.Judgeable rt := by
  intro run spec st id state k hstored hst hstate hcheck hcurrent
  have hnode := hs.nodeState_of_replay hstored hst id
  obtain ⟨a, ha, hkey, o, hdone, rfl⟩ :=
    hchecking run.runId id state k (hnode.trans hstate) hcheck hcurrent
  obtain ⟨run', spec', node, hrow⟩ := h.rows a ha
  have hread := hclaims.attempt_eq ha hrow.header hkey
  simp only [Attempt.key, Prod.mk.injEq] at hkey
  obtain ⟨hrun, rfl, rfl⟩ := hkey
  obtain ⟨rfl, rfl⟩ := hs.stored_unique hrow.stored hstored (hrow.run_eq.trans hrun)
  obtain ⟨result, hresult, htype⟩ := hrow.typed hdone
  obtain ⟨execution, hexec, houtcome⟩ := Option.map_eq_some_iff.mp hdone
  have hcompleted : a.completedResult = some result := by
    unfold Attempt.completedResult
    rw [hexec, hresult]
    exact if_pos houtcome
  refine ⟨node, a, result, (Receipts.contractOf_some hrow.contract).1, ha, ?_, hcompleted, htype,
    ?_⟩
  · simp only [Attempt.key, hrun]
  · intro receipt now hjudges
    exact hjudges.admitted hread hrow.contract hst hstate hcheck hcurrent hstored.hasRun

/-- In every run of legal use that completes held claims with careful records, and
takes over only claims that pin receipts of distinct ids, each attempt row is well
formed, names the owner of its claim and has a result of its node's type once
completed, and every checking node admits the verdicts that judge its attempt. -/
theorem sealedWell_of_reachable (rt : Runtime) {s : Store} (hs : (sealingLedger rt).Reachable s) :
    s.SealedWell rt := by
  have hlegal := sealing_legal hs
  have hsound := sound_invariant rt s hlegal
  have hok := sealingOk_invariant rt s hs
  refine { rows := ?_, judgeable := ?_ }
  · intro a ha
    obtain ⟨run, spec, node, hrow⟩ := hok.rows a ha
    exact hrow.wellSealed hsound
  · exact hok.judgeable rt (checkingSealed_invariant rt s hlegal) (claimsOk_invariant rt s hlegal)
      hsound

/-- Care is exactly what a completion leaves out: the row it seals is readable and
well sealed only if the record was careful. -/
theorem Scheduler.Completed.careful_iff {rt : Runtime} {sched : Scheduler} {s s' : Store}
    {claim : Claim} {a : Attempt} {row : ClaimRow} {execution : Execution} {st : RunState}
    {state next : NodeState} (h : sched.Completed s claim a s' row execution st state next)
    (hs : (legalLedger rt).Reachable s) {run : GraphRun} (hrun : run.runId = claim.runId)
    (bound : s.Bound run sched.spec) :
    (a.toRecordHeader.isFor .attempt = true ∧ s'.WellSealed a) ↔ Careful sched.spec claim a := by
  have hstep : LedgerStep rt s _ s' := LedgerStep.complete hrun bound h
  have hsound := sound_invariant rt s hs
  have hclaims := (claimsOk_invariant rt s hs).step hstep hsound
  obtain ⟨hrow, hr, hi, hk⟩ := Store.claim_some h.row_eq
  have hnumber : row.number = claim.number := PositiveU32.ext_get hk
  have hid := GraphSpec.nodeRef_nodeId h.nodeRef_eq
  have hfinished : a.execution.isSome = true := by rw [h.execution_eq]; rfl
  constructor
  · rintro ⟨hheader, hwell⟩
    obtain ⟨-, hfinish, hreceipt, hpins, hports⟩ :=
      (Attempt.checkBindings_eq_nil hfinished).mp hwell.bindings
    obtain ⟨row₁, hrow₁, hkey₁, howner₁⟩ := hwell.owner
    obtain ⟨row₂, hrow₂, hissued⟩ := hstep.claim_kept hrow
    have hkey : row₁.key = row₂.key := by
      rw [hkey₁, ClaimRow.key_of_issued hissued]
      simp only [ClaimRow.key, Attempt.key, hr, hi, hnumber, h.runId_eq, hid, h.number_eq]
    obtain rfl := hclaims.key_unique hrow₁ hrow₂ hkey
    exact { header := hheader
            owner := howner₁.symm.trans ((ClaimRow.owner_of_issued hissued).trans h.owner_eq)
            finished := hfinish
            receipt := hreceipt
            pins := hpins
            ports := hports
            typed := fun node hnode => hwell.typed run sched.spec node (hstep.stored bound.1)
              (hrun.trans h.runId_eq.symm) (hid ▸ hnode) }
  · intro hcare
    obtain ⟨node, hcareful⟩ := h.carefulRow hrun bound.1 hcare
    exact ⟨hcare.header, (hcareful.keep hstep hsound).wellSealed (hstep.sound hsound)⟩

namespace Pilot

/-- A completion without a result, a finish time or the owner of its claim. -/
def careless : Attempt :=
  { attemptOf patch [] with owner := "another-controller", finishedAt := none, result := none }

def completeCareless : LedgerOp := .complete scheduler (claimOf patch 1 []) careless
def carelesslySealed : Store := (completeCareless.exec runtime claimed).2

theorem careful_patch : Scheduler.Careful spec (claimOf patch 1 []) (attemptOf patch []) :=
  { header := by decide
    owner := rfl
    finished := rfl
    receipt := fun _ hnone => nomatch hnone
    pins := List.nodup_nil
    ports := List.nodup_nil
    typed := by
      intro node hnode _
      have hpatch : spec.findNode patchId = some patch := by decide +kernel
      obtain rfl := Option.some.inj (hpatch.symm.trans hnode)
      exact ⟨_, rfl, rfl⟩ }

end Pilot

open Pilot in
theorem sealedWell_of_reachable_patch : patchSealed.SealedWell runtime := by
  have hcreated : (sealingLedger runtime).Reachable created :=
    .step (a := .createRun run) (.step (a := .storeGraph spec) (.init rfl)
      ⟨⟨trivial, trivial⟩, rfl⟩) ⟨⟨trivial, trivial⟩, rfl⟩
  have hclaimed : (sealingLedger runtime).Reachable claimed :=
    .step (a := claimPatch) hcreated ⟨⟨claimPatch_legal, trivial⟩, rfl⟩
  have hlegal : completePatch.Legal claimed :=
    ⟨run, rfl, scheduler_eq.2 ▸ bound (by decide +kernel) (by decide +kernel)⟩
  have hwell : completePatch.SealsWell claimed := fun _ _ _ _ _ => scheduler_eq.2 ▸ careful_patch
  exact sealedWell_of_reachable runtime
    (.step (a := completePatch) hclaimed ⟨⟨hlegal, hwell⟩, rfl⟩)

open Pilot in
/-- A careless completion of a held claim is sealed: its row breaks the rules of its
record, names another owner and has no result, its node checks it, and no receipt is
ever admitted for it. -/
theorem carelessly_sealed :
    (legalLedger runtime).Reachable carelesslySealed ∧ ¬ carelesslySealed.SealedWell runtime ∧
      carelesslySealed.attempts = [careless] ∧
      careless.checkBindings = [.executionWithoutFinish] ∧
      (∀ row ∈ carelesslySealed.claims, row.key = careless.key → row.owner ≠ careless.owner) ∧
      careless.execution.map (·.outcome) = some .completed ∧ careless.result = none ∧
      (∃ st state, carelesslySealed.replay runId spec = .ok st ∧ st.node patchId = some state ∧
        state.checking = true ∧ state.currentAttempt = some one) ∧
      ∀ receipt now out,
        Receipts.admitReceipt runtime carelesslySealed spec run receipt now ≠ .ok out := by
  have hbound : claimed.Bound run scheduler.spec :=
    scheduler_eq.2 ▸ bound (by decide +kernel) (by decide +kernel)
  have hlegal : completeCareless.Legal claimed := ⟨run, rfl, hbound⟩
  have hrows : carelesslySealed.attempts = [careless] := by decide +kernel
  have hbroken : careless.checkBindings = [.executionWithoutFinish] := by decide +kernel
  refine ⟨.step (a := completeCareless) claimed_reachable ⟨hlegal, rfl⟩, ?_, hrows, hbroken,
    by decide +kernel, rfl, rfl, ?_, ?_⟩
  · intro h
    have hwell := h.rows careless (by rw [hrows]; exact List.mem_singleton_self _)
    have hok := get_eq (x := (claimed.transaction
      (scheduler.complete runtime claimed (claimOf patch 1 []) careless)).1) (by decide +kernel)
    obtain ⟨row, execution, st, state, next, hdone⟩ :=
      Scheduler.complete_ok runtime (Store.transaction_ok hok)
    have hcareful := (hdone.careful_iff claimed_reachable (by rfl) hbound).mp ⟨by decide, hwell⟩
    exact absurd hcareful.finished (by decide)
  · have hst := get_eq (x := carelesslySealed.replay runId spec) (by decide +kernel)
    exact ⟨_, { status := .running, currentAttempt := some one, attemptsStarted := 1
                checking := true, receipt := none, waitingOnGate := none }, hst,
      by decide +kernel, rfl, rfl⟩
  · rintro receipt now ⟨u, s'⟩ h
    obtain ⟨node, a, result, st, state, hadm⟩ := Receipts.admitReceipt_ok runtime h
    have ha := (Store.attempt_some hadm.attempt_eq).1
    rw [hrows, List.mem_singleton] at ha
    have hresult := hadm.binds.completed
    rw [ha] at hresult
    cases hresult

end Checkspan
