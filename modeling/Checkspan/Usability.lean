import Checkspan.Recheck

/-!
# Accepted and usable

Admission and dependency resolution check the same receipt and the same sealed
attempt with two separately written lists. Where admission is the weaker one, an
acceptance stands that no consumer can use.
-/

namespace Checkspan

open Transition

/-! ### Revocations name stored receipts -/

/-- Every revocation in the log names a receipt stored for its run. -/
def Store.RevocationsOk (s : Store) : Prop :=
  ∀ e ∈ s.events, e.kind = kinds.receiptRevoked →
    ∀ id, e.payload.get "receipt_id" = some (.str id) →
    ∃ r ∈ s.receipts, r.attempt.runId = e.runId ∧ r.id.text = id

theorem Store.RevocationsOk.extend {s s' : Store} (h : s.RevocationsOk)
    (receipts : ∃ more, s'.receipts = s.receipts ++ more)
    (events : ∀ e ∈ s'.events, e.kind = kinds.receiptRevoked → e ∈ s.events) :
    s'.RevocationsOk := by
  obtain ⟨more, hmore⟩ := receipts
  intro e he hkind id hid
  obtain ⟨r, hr, hrest⟩ := h e (events e he hkind) hkind id hid
  exact ⟨r, hmore ▸ List.mem_append_left _ hr, hrest⟩

theorem Store.RevocationsOk.revokeReceipt {rt : Runtime} {s s' : Store} (h : s.RevocationsOk)
    {run : RunId} {receiptId reason : String} {u : Unit}
    (hrevoke : s.revokeReceipt rt run receiptId reason = .ok (u, s')) : s'.RevocationsOk := by
  unfold Store.revokeReceipt at hrevoke
  obtain ⟨_, hstored, hrevoke⟩ := bind_ok hrevoke
  obtain ⟨_, hs', hrevoke⟩ := bind_ok hrevoke
  cases hrevoke
  obtain ⟨-, rfl⟩ := Store.appendEvent_ok rt hs'
  have hstored := guardOk_ok hstored
  rw [List.any_eq_true] at hstored
  obtain ⟨r, hr, hkey⟩ := hstored
  rw [decide_eq_true_eq] at hkey
  intro e he hkind id hid
  rcases List.mem_append.mp he with he | he
  · exact h e he hkind id hid
  · obtain rfl := List.mem_singleton.mp he
    have hname : receiptId = id := by
      have hget : some (Json.str receiptId) = some (.str id) := hid
      simpa using hget
    exact ⟨r, hr, hkey.1, hkey.2.trans hname⟩

theorem revocationsOk_exec (rt : Runtime) {s : Store} (h : s.RevocationsOk) {op : LedgerOp}
    (legal : op.Legal s) : (op.exec rt s).2.RevocationsOk := by
  have quiet : kinds.receiptRevoked ∉ op.eventKinds → (op.exec rt s).2.RevocationsOk := by
    intro hkind
    refine h.extend (exec_step rt s legal).receipts_append ?_
    intro e he hk
    exact exec_event_old rt s he (hk ▸ hkind)
  cases op with
  | revokeReceipt run receiptId reason =>
    exact Store.transaction_property (P := Store.RevocationsOk) h
      (fun _ _ hrevoke => h.revokeReceipt hrevoke)
  | storeGraph | createRun | claimNext | complete | cancel | reclaim | admitReceipt
  | applyRetryPolicy | openResolveWork | admitDecision | appendDecision =>
    refine quiet ?_
    simp only [LedgerOp.eventKinds]
    decide

theorem revocationsOk_invariant (rt : Runtime) :
    (legalLedger rt).Invariant Store.RevocationsOk := by
  refine System.Invariant.step System.invariant_true ?_ ?_
  · rintro s rfl e he
    exact absurd he List.not_mem_nil
  · rintro s op s' - h ⟨legal, rfl⟩
    exact revocationsOk_exec rt h legal

theorem Store.mem_revokedReceipts {s : Store} {run : RunId} {id : String} :
    id ∈ s.revokedReceipts run ↔ ∃ e ∈ s.events, e.runId = run ∧ e.kind = kinds.receiptRevoked ∧
      e.payload.get "receipt_id" = some (.str id) := by
  unfold Store.revokedReceipts Store.eventsOf
  simp only [List.mem_filterMap, List.mem_filter, decide_eq_true_eq, and_assoc]
  refine exists_congr fun e => and_congr_right fun _ => and_congr_right fun _ => ?_
  split
  · rename_i hkind
    split
    · rename_i text hget
      simp [hkind, hget]
    · rename_i hget
      simp only [hkind, reduceCtorEq, true_and, false_iff]
      exact hget id
  · rename_i hkind
    simp [hkind]

/-! ### The ledger after an admission -/

namespace Receipts.Admitted

variable {rt : Runtime} {s s' : Store} {spec : GraphSpec} {run : GraphRun}
  {receipt : VerifierReceipt} {now : Timestamp} {node : NodeSpec} {attempt : Attempt}
  {result : ResultRef} {st : RunState} {state : NodeState}

/-- The receipt's key finds it, and reading it back tests its header. -/
theorem stored_receipt (h : Admitted rt s spec run receipt now s' node attempt result st state)
    {r : VerifierReceipt} :
    s'.receipt receipt.attempt.runId receipt.id.text = .ok (some r) ↔
      r = receipt ∧ receipt.toRecordHeader.isFor .verifierReceipt = true := by
  have hnone : s.receipts.find? (fun q => q.attempt.runId = receipt.attempt.runId ∧
      q.id.text = receipt.id.text) = none := by
    rw [List.find?_eq_none]
    intro q hq hkey
    rw [decide_eq_true_eq] at hkey
    exact h.idFree q hq hkey.1 (Identifier.ext_text hkey.2)
  have hfind : s'.receipts.find? (fun q => q.attempt.runId = receipt.attempt.runId ∧
      q.id.text = receipt.id.text) = some receipt := by
    rw [h.store_eq, List.find?_append, hnone, Option.none_or,
      List.find?_cons_of_pos (by simp)]
  unfold Store.receipt
  rw [hfind]
  constructor
  · intro hread
    obtain ⟨hsome, hheader⟩ := Store.readOptional_some hread
    cases hsome
    exact ⟨rfl, hheader⟩
  · rintro ⟨rfl, hheader⟩
    exact Store.readOptional_of_header hheader

theorem unrevoked (h : Admitted rt s spec run receipt now s' node attempt result st state)
    (hs : s.RevocationsOk) : receipt.id.text ∉ s'.revokedReceipts receipt.attempt.runId := by
  rw [Store.mem_revokedReceipts]
  rintro ⟨e, he, hrun, hkind, hid⟩
  rw [h.store_eq] at he
  rcases List.mem_append.mp he with he | he
  · obtain ⟨q, hq, hqrun, hqid⟩ := hs e he hkind _ hid
    exact h.idFree q hq (hqrun.trans hrun) (Identifier.ext_text hqid)
  · obtain rfl := List.mem_singleton.mp he
    exact absurd hkind (show kinds.receiptAdmitted ≠ kinds.receiptRevoked by decide)

/-- Admitting an accepting receipt accepts its node by it. -/
theorem accepts (h : Admitted rt s spec run receipt now s' node attempt result st state)
    (hs : s.Sound) (bound : s.Bound run spec) (hverdict : receipt.verdict = .accept)
    {st' : RunState} (hst' : s'.replay run.runId spec = .ok st') :
    ∃ next, st'.node receipt.attempt.node.nodeId = some next ∧ next.status = .accepted ∧
      next.receipt = some receipt.receiptRef := by
  have hstep : LedgerStep rt s _ s' := LedgerStep.admitted bound h
  obtain ⟨old, next, hmoved⟩ := hstep.moved hs
  have hnode := (hstep.sound hs).nodeState_of_replay (hstep.stored bound.1) hst'
    receipt.attempt.node.nodeId
  rw [hmoved.after] at hnode
  have hlegal := hmoved.legal
  rw [hverdict] at hlegal
  refine ⟨next, hnode.symm, ?_⟩
  cases hlegal with
  | decide k r v hrunning hk hc => exact ⟨rfl, rfl⟩

end Receipts.Admitted

/-! ### What admission leaves unchecked -/

/-- What a consumer's check asks of a receipt and admission does not: a receipt
header, a validity that has not ended at this very moment, and a sealed result of
the type the node declares. -/
structure UsableReceipt (s : Store) (spec : GraphSpec) (receipt : VerifierReceipt)
    (now : Timestamp) : Prop where
  header : receipt.toRecordHeader.isFor .verifierReceipt = true
  fresh : ∀ t, receipt.validity.validUntil = some t → now.isBefore t = true
  typed : ∀ node attempt result, spec.findNode receipt.attempt.node.nodeId = some node →
    s.attempt receipt.attempt.runId receipt.attempt.node.nodeId receipt.attempt.number.get =
      .ok (some attempt) → attempt.result = some result → result.resultType = node.resultType

theorem DependencyService.expiredAt_eq_none {svc : DependencyService} {o : Option Timestamp} :
    svc.expiredAt o = none ↔ ∀ t, o = some t → svc.now.isBefore t = true := by
  unfold DependencyService.expiredAt
  cases o with
  | none => simp
  | some t => simp [Option.filter_eq_none_iff]

/-- A dependency on an accepted node resolves in its own run or not at all. -/
theorem DependencyService.resolveOne_accepted {svc : DependencyService} {dep : Dependency}
    {node : NodeSpec} {s : NodeState} (hnode : svc.spec.findNode dep.node.nodeId = some node)
    (hs : svc.acceptedState dep.node.nodeId = some s) :
    svc.resolveOne dep = svc.resolveSameRun dep s := by
  unfold DependencyService.resolveOne DependencyService.knownNode
  rw [hnode, hs]
  rfl

namespace Receipts.Admitted

open DependencyService

variable {rt : Runtime} {s : Store} {run : GraphRun} {receipt : VerifierReceipt}
  {node : NodeSpec} {attempt : Attempt} {result : ResultRef} {st : RunState} {state : NodeState}
  {svc : DependencyService} {consumer : NodeSpec} {dep : Dependency}

/-- The sealed attempt reads back as before the admission. -/
theorem attempt_kept {spec : GraphSpec} {now : Timestamp} {s' : Store}
    (h : Admitted rt s spec run receipt now s' node attempt result st state)
    {a : Attempt} : s'.attempt receipt.attempt.runId receipt.attempt.node.nodeId
      receipt.attempt.number.get = .ok (some a) ↔ a = attempt := by
  have hattempts : s'.attempts = s.attempts := by rw [h.store_eq]
  have hrow := h.attempt_eq
  rw [← h.runId_eq] at hrow
  unfold Store.attempt at hrow ⊢
  rw [hattempts, hrow]
  simp [eq_comm]

/-- A consumer's dependency on the admitted node names exactly the receipt's node, and
expects the type that node declares. -/
theorem dependency (h : Admitted rt s svc.spec run receipt svc.now svc.store node attempt result st
      state) {g : AdmittedGraph} (hg : Graph.admitGraph svc.spec = .ok g)
    (hconsumer : consumer ∈ svc.spec.nodes) (hdep : dep ∈ consumer.deps)
    (hnode : dep.node.nodeId = receipt.attempt.node.nodeId) :
    dep.node = receipt.attempt.node ∧ dep.expectedType = node.resultType := by
  constructor
  · have hdepref := nodeRef_of_cleanDep hg hconsumer hdep
    rw [hnode, h.nodeRef_eq] at hdepref
    exact (Option.some.inj hdepref).symm
  · obtain ⟨p, hp, hid, -, hptype, -⟩ := (Graph.admitGraph_cleanDep hg hconsumer hdep).producer
    have hfind := Graph.findNode_of_mem hg hp
    rw [hid, hnode, h.node_eq] at hfind
    rw [← hptype, Option.some.inj hfind]

/-- The evidence a consumer's check finds behind the admitted receipt. -/
theorem usable_iff (h : Admitted rt s svc.spec run receipt svc.now svc.store node attempt result st
      state) (hs : s.RevocationsOk) (hverdict : receipt.verdict = .accept)
    (href : dep.node = receipt.attempt.node) (htype : dep.expectedType = node.resultType) :
    (∃ r a x, svc.Usable receipt.receiptRef dep.node dep.expectedType receipt.resultDigest r a x) ↔
      UsableReceipt s svc.spec receipt svc.now := by
  obtain ⟨hresult, -⟩ := Attempt.completedResult_some h.binds.completed
  constructor
  · rintro ⟨r, a, x, husable⟩
    obtain ⟨rfl, hheader⟩ := h.stored_receipt.mp husable.stored
    obtain rfl := h.attempt_kept.mp husable.sealedRow
    refine { header := hheader, fresh := expiredAt_eq_none.mp husable.fresh, typed := ?_ }
    intro node' attempt' result' hnode' hattempt' hresult'
    rw [h.node_eq] at hnode'
    rw [h.runId_eq, h.attempt_eq] at hattempt'
    obtain rfl := Option.some.inj hnode'
    obtain rfl := Option.some.inj (Except.ok.inj hattempt')
    rw [husable.result_eq] at hresult'
    obtain rfl := Option.some.inj hresult'
    rw [husable.type_eq, htype]
  · intro husable
    have hrow := h.attempt_eq
    rw [← h.runId_eq] at hrow
    refine ⟨receipt, attempt, result, ?_⟩
    exact { stored := h.stored_receipt.mpr ⟨rfl, husable.header⟩
            verdict := hverdict
            node_eq := href.symm
            sealedRow := h.attempt_kept.mpr rfl
            result_eq := hresult
            type_eq := by rw [htype]; exact husable.typed _ _ _ h.node_eq hrow hresult
            digest_eq := h.binds.resultDigest.symm
            found := rfl
            fresh := expiredAt_eq_none.mpr husable.fresh
            unrevoked := h.unrevoked hs }

end Receipts.Admitted

open DependencyService in
/-- An accepting receipt is admitted at `now`: on the ledger that records it, at the
same `now`, a consumer's dependency on its node resolves to it exactly when it is
usable. -/
theorem admitted_resolves_iff (rt : Runtime) {s : Store} (hs : (legalLedger rt).Reachable s)
    {svc : DependencyService} (bound : s.Bound svc.run svc.spec) {receipt : VerifierReceipt}
    (haccept : Receipts.admitReceipt rt s svc.spec svc.run receipt svc.now = .ok ((), svc.store))
    (hverdict : receipt.verdict = .accept)
    (hst : svc.store.replay svc.run.runId svc.spec = .ok svc.state) {consumer : NodeSpec}
    (hconsumer : consumer ∈ svc.spec.nodes) {dep : Dependency} (hdep : dep ∈ consumer.deps)
    (hnode : dep.node.nodeId = receipt.attempt.node.nodeId) :
    svc.resolveOne dep = .ok { dependency := dep, receipt := receipt.receiptRef
                               provenance := .sameRun, resultDigest := receipt.resultDigest } ↔
      UsableReceipt s svc.spec receipt svc.now := by
  obtain ⟨node, attempt, result, st, state, hadm⟩ := Receipts.admitReceipt_ok rt haccept
  obtain ⟨g, hg⟩ := bound.2
  obtain ⟨next, hnext, haccepted, hreceipt⟩ :=
    hadm.accepts (sound_invariant rt s hs) bound hverdict hst
  obtain ⟨href, htype⟩ := hadm.dependency hg hconsumer hdep hnode
  have hfound : svc.spec.findNode dep.node.nodeId = some node := by rw [hnode, hadm.node_eq]
  have haccepts : svc.acceptedState dep.node.nodeId = some next := by
    unfold acceptedState
    rw [hnode, hnext, Option.filter_some_pos (by simpa using haccepted)]
  rw [resolveOne_accepted hfound haccepts, resolveSameRun_eq_ok,
    ← hadm.usable_iff (revocationsOk_invariant rt s hs) hverdict href htype]
  constructor
  · rintro ⟨-, -, -, hok⟩
    exact (admissible_eq_ok.mp hok).1
  · intro husable
    refine ⟨rfl, rfl, hreceipt, admissible_eq_ok.mpr ⟨husable, ?_⟩⟩
    intro d hd
    cases hd

namespace Pilot

/-- The service of the first run over the ledger that accepts the patch by a receipt. -/
def accepting (receipt : VerifierReceipt) : Store :=
  ((LedgerOp.admitReceipt spec run receipt now).exec runtime patchSealed).2

def serviceAt (receipt : VerifierReceipt)
    (h : ((accepting receipt).replay runId spec).isOk = true) : DependencyService :=
  { spec := spec, run := run, state := get _ h, store := accepting receipt, now := now }

theorem serviceAt_replay (receipt : VerifierReceipt)
    (h : ((accepting receipt).replay runId spec).isOk = true) :
    (accepting receipt).replay runId spec = .ok (serviceAt receipt h).state := get_eq h

/-- A receipt whose validity ends at the very moment it is admitted. -/
def lastMoment : VerifierReceipt :=
  { patchReceipt with validity := { validUntil := some now, conditions := [] } }

def patchDep : Dependency :=
  { node := patchRef, outputPort := resultPort, expectedType := resultType }

def unexpiring : DependencyService := serviceAt patchReceipt (by decide +kernel)
def expired : DependencyService := serviceAt lastMoment (by decide +kernel)

end Pilot

open Pilot in
theorem admitted_resolves_patch :
    unexpiring.resolveOne patchDep = .ok { dependency := patchDep
                                           receipt := patchReceipt.receiptRef
                                           provenance := .sameRun
                                           resultDigest := zeroDigest } := by
  have hbound : patchSealed.Bound unexpiring.run unexpiring.spec :=
    bound (by decide +kernel) (by decide +kernel)
  have haccept : Receipts.admitReceipt runtime patchSealed unexpiring.spec unexpiring.run
      patchReceipt unexpiring.now = .ok ((), unexpiring.store) :=
    Store.transaction_ok (s := patchSealed) (by decide +kernel)
  have hst : unexpiring.store.replay unexpiring.run.runId unexpiring.spec = .ok unexpiring.state :=
    serviceAt_replay patchReceipt (by decide +kernel)
  refine (admitted_resolves_iff runtime patchSealed_reachable hbound haccept rfl hst
    (List.mem_cons_of_mem _ (List.mem_singleton_self check)) (List.mem_singleton_self patchDep)
    rfl).mpr ?_
  have hnode : unexpiring.spec.findNode patchReceipt.attempt.node.nodeId = some patch := by
    decide +kernel
  have hattempt : patchSealed.attempt patchReceipt.attempt.runId patchReceipt.attempt.node.nodeId
      patchReceipt.attempt.number.get = .ok (some (attemptOf patch [])) := by decide +kernel
  refine { header := rfl, fresh := fun t ht => (nomatch ht), typed := ?_ }
  intro n a x hn ha hx
  obtain rfl := Option.some.inj (hnode.symm.trans hn)
  obtain rfl := Option.some.inj (Except.ok.inj (hattempt.symm.trans ha))
  obtain rfl := Option.some.inj hx
  rfl

open Pilot in
/-- A receipt valid until `now` is admitted at `now`, and at `now` the dependency on
the accepted node is blocked by its expiry. -/
theorem admitted_not_usable :
    (legalLedger runtime).Reachable patchSealed ∧ patchSealed.Bound expired.run expired.spec ∧
      Receipts.admitReceipt runtime patchSealed expired.spec expired.run lastMoment expired.now =
        .ok ((), expired.store) ∧
      expired.store.replay expired.run.runId expired.spec = .ok expired.state ∧
      patchDep ∈ check.deps ∧
      expired.resolveOne patchDep = .error (.expired lastMoment.receiptRef now) :=
  ⟨patchSealed_reachable, bound (by decide +kernel) (by decide +kernel),
    Store.transaction_ok (s := patchSealed) (by decide +kernel),
    serviceAt_replay lastMoment (by decide +kernel), List.mem_singleton_self patchDep,
    by decide +kernel⟩

end Checkspan
