import Checkspan.Coverage
import Checkspan.Packets

/-!
# Admitting what was issued

`issue` and `admit` bind a receipt to its attempt each on its own. For the attempt that a
node is checking they agree, except on what a verifier may leave out.
-/

namespace Checkspan

/-- Node `node` of the graph of a stored run is checking its sealed attempt `a`. -/
structure Store.Checks (s : Store) (spec : GraphSpec) (run : GraphRun) (node : NodeSpec)
    (a : Attempt) (st : RunState) (state : NodeState) : Prop where
  bound : s.Bound run spec
  node_eq : spec.findNode node.id = some node
  replayed : s.replay run.runId spec = .ok st
  state_eq : st.node node.id = some state
  checking : state.checking = true
  current : state.currentAttempt = some a.number
  sealedRow : s.attempt run.runId node.id a.number.get = .ok (some a)

namespace Store.Checks

variable {rt : Runtime} {s : Store} {spec : GraphSpec} {run : GraphRun} {node : NodeSpec}
  {a : Attempt} {st : RunState} {state : NodeState}

theorem key_eq (h : s.Checks spec run node a st state) :
    a ∈ s.attempts ∧ a.runId = run.runId ∧ a.node.nodeId = node.id := by
  obtain ⟨hrow, hkey⟩ := Store.attempt_some h.sealedRow
  simp only [Attempt.key, Prod.mk.injEq] at hkey
  exact ⟨hrow, hkey.1, hkey.2.1⟩

/-- The attempt names the node at the revision of the graph. -/
theorem contract (h : s.Checks spec run node a st state) (hs : s.Sound) (hord : s.ReceiptsInOrder) :
    Receipts.contractOf spec a.node = some node := by
  obtain ⟨hrow, hrun, hid⟩ := h.key_eq
  obtain ⟨run', spec', hstored, hrun', hnode⟩ := hord.nodeRefs a hrow
  obtain ⟨rfl, rfl⟩ := hs.stored_unique hstored h.bound.1 (hrun'.trans hrun)
  obtain ⟨found, hfound, hcontract⟩ := Receipts.contractOf_of_nodeRef hnode
  rw [hid, h.node_eq] at hfound
  obtain rfl := Option.some.inj hfound
  exact hcontract

end Store.Checks

namespace Receipts

variable {rt : Runtime} {response : VerifierResponse} {node : NodeSpec} {a : Attempt}
  {receiptId : Ident} {subject issuer : String} {checkedAt : Timestamp} {validity : Validity}

/-- A frozen subject is not blank. -/
theorem frozenSubject_given {t : String} (h : frozenSubject a = some t) : isBlank t = false := by
  obtain ⟨e, he, rfl⟩ := Option.map_eq_some_iff.mp h
  have hstarts := List.find?_some he
  rw [String.startsWith_string_iff] at hstarts
  obtain ⟨rest, hrest⟩ := hstarts
  have hfirst : patchSubjectPrefix.toList = 'p' :: "atch_subject:".toList := by decide
  have hletter : isWhiteSpace 'p' = false := by decide
  unfold isBlank
  rw [← hrest, hfirst, List.cons_append, List.all_cons, hletter, Bool.false_and]

/-- The receipt made of a response, with this result and this context. -/
def issued (response : VerifierResponse) (node : NodeSpec) (result : ResultRef) (context : Digest)
    (receiptId : Ident) (subject issuer : String) (checkedAt : Timestamp) (validity : Validity) :
    VerifierReceipt :=
  { record := .verifierReceipt
    schemaVersion := 1
    id := receiptId
    attempt := response.attempt
    subject := subject
    resultDigest := result.digest
    contextDigest := context
    verifier := node.acceptance.verifier
    policyRef := node.acceptance.policyRef
    verdict := response.verdict
    reasonCode := response.reasonCode
    reasonText := response.reasonText
    retryHint := none
    checkedAt := checkedAt
    validity := validity
    provenance := { level := .localController, issuer := issuer, attestationRef := none } }

theorem issue_eq_ok {r : VerifierReceipt} :
    issue rt response node a receiptId subject issuer checkedAt validity = .ok r ↔
      response.attempt = a.attemptRef ∧ response.verifier = node.acceptance.verifier ∧
      ∃ result context, a.completedResult = some result ∧
        attemptContextDigest rt node response.attempt a result.digest = .ok context ∧
        r = issued response node result context receiptId subject issuer checkedAt validity := by
  unfold issue
  simp only [bind_eq_ok, guardOk_eq_ok, someOr_eq_ok, mapError_eq_ok, decide_eq_true_eq,
    exists_const, Except.ok.injEq]
  constructor
  · rintro ⟨hattempt, hverifier, result, hresult, context, hcontext, rfl⟩
    exact ⟨hattempt, hverifier, result, context, hresult, hcontext, rfl⟩
  · rintro ⟨hattempt, hverifier, result, context, hresult, hcontext, rfl⟩
    exact ⟨hattempt, hverifier, result, hresult, context, hcontext, rfl⟩

/-- The record alone is well formed when a refusal has its reason. -/
theorem checkBindings_issued {result : ResultRef} {context : Digest}
    (hsubject : isBlank subject = false) (hissuer : isBlank issuer = false) :
    (issued response node result context receiptId subject issuer checkedAt
      validity).checkBindings.isEmpty = true ↔
      (response.verdict ≠ .accept → response.reasonCode.isSome = true) := by
  unfold VerifierReceipt.checkBindings issued
  simp only [hsubject, hissuer]
  cases response.verdict <;> cases response.reasonCode <;> simp

end Receipts

/-- A receipt issued from any response for the attempt that a node is checking, with a fresh
id, the frozen subject (or any other when none was frozen), an issuer and a validity that has
not ended, is admitted exactly when a refusal names its reason and the records fit. -/
theorem issued_admitted_iff (rt : Runtime) {s : Store} (hs : (legalLedger rt).Reachable s)
    {spec : GraphSpec} {run : GraphRun} {node : NodeSpec} {a : Attempt} {st : RunState}
    {state : NodeState} (hchecks : s.Checks spec run node a st state)
    {response : VerifierResponse} {receiptId : Ident} {subject issuer : String}
    {checkedAt now : Timestamp} {validity : Validity} {receipt : VerifierReceipt}
    (hfresh : s.receipt run.runId receiptId.text = .ok none)
    (hsubject : Receipts.frozenSubject a = some subject ∨
      (Receipts.frozenSubject a = none ∧ isBlank subject = false))
    (hissuer : isBlank issuer = false)
    (hvalid : ∀ t, validity.validUntil = some t → t.isBefore now = false)
    (hissued : Receipts.issue rt response node a receiptId subject issuer checkedAt validity =
      .ok receipt)
    (hdeps : response.verdict = .accept → DependencyService.recheckRefs
      { spec := spec, run := run, state := st, store := s, now := now } node.id
      a.dependencyReceipts = .ok ()) :
    (∃ s', Receipts.admitReceipt rt s spec run receipt now = .ok ((), s')) ↔
      (response.verdict ≠ .accept → response.reasonCode.isSome = true) ∧
      (rt.text receipt.toJson).utf8ByteSize ≤ maxRecordLen ∧
      (rt.text (Receipts.admittedPayload receipt)).utf8ByteSize ≤ maxRecordLen := by
  have hsound := sound_invariant rt s hs
  have hcontract := hchecks.contract hsound (receiptsInOrder_invariant rt s hs)
  obtain ⟨hrow, hrun, hid⟩ := hchecks.key_eq
  obtain ⟨hattempt, -, result, context, hresult, hcontext, hreceipt⟩ :=
    Receipts.issue_eq_ok.mp hissued
  have hgiven : isBlank subject = false :=
    hsubject.elim Receipts.frozenSubject_given And.right
  have hbindings : receipt.checkBindings.isEmpty = true ↔
      (response.verdict ≠ .accept → response.reasonCode.isSome = true) := by
    rw [hreceipt]
    exact Receipts.checkBindings_issued hgiven hissuer
  have habout : receipt.attempt = a.attemptRef := by rw [hreceipt]; exact hattempt
  have hreceiptRun : receipt.attempt.runId = run.runId := by rw [habout]; exact hrun
  have hreceiptNode : receipt.attempt.node.nodeId = node.id := by rw [habout]; exact hid
  have hfree : s.receipt receipt.attempt.runId receipt.id.text = .ok none := by
    rw [hreceiptRun, hreceipt]
    exact hfresh
  have hfrozen : ∀ t, Receipts.frozenSubject a = some t → receipt.subject = t := by
    intro t ht
    rw [hreceipt]
    rcases hsubject with hown | ⟨hnone, -⟩
    · exact Option.some.inj (hown.symm.trans ht)
    · rw [hnone] at ht
      cases ht
  have hcheck : Receipts.checkReceipt spec run receipt now = .ok node ↔
      receipt.checkBindings.isEmpty = true := by
    unfold Receipts.checkReceipt
    simp only [bind_eq_ok, guardOk_eq_ok, someOr_eq_ok, decide_eq_true_eq, exists_const,
      hreceiptRun, true_and]
    rw [habout]
    refine and_iff_left ⟨node, hcontract, by rw [hreceipt]; rfl, by rw [hreceipt]; rfl, ?_, rfl⟩
    rw [hreceipt]
    exact Receipts.unexpired_iff.mpr hvalid
  have hsealed : Receipts.checkSealed rt s run node receipt = .ok a := by
    unfold Receipts.checkSealed
    refine bind_eq_ok.mpr ⟨none, mapError_eq_ok.mpr (by rw [← hreceiptRun]; exact hfree), ?_⟩
    refine bind_eq_ok.mpr ⟨(), guardOk_eq_ok.mpr rfl, bind_eq_ok.mpr ⟨some a,
      mapError_eq_ok.mpr ?_, bind_eq_ok.mpr ⟨a, rfl, bind_eq_ok.mpr ⟨result,
      someOr_eq_ok.mpr hresult, bind_eq_ok.mpr ⟨(), guardOk_eq_ok.mpr ?_, bind_eq_ok.mpr ⟨(),
      Receipts.checkSubject_eq_ok.mpr hfrozen, bind_eq_ok.mpr ⟨context, mapError_eq_ok.mpr ?_,
      bind_eq_ok.mpr ⟨(), guardOk_eq_ok.mpr ?_, rfl⟩⟩⟩⟩⟩⟩⟩⟩
    · rw [hreceiptNode, habout]
      exact hchecks.sealedRow
    · rw [decide_eq_true_eq, hreceipt]
      rfl
    · rw [habout, ← hattempt]
      exact hcontext
    · rw [decide_eq_true_eq, hreceipt]
      rfl
  have hchecking : Receipts.isChecking (st.node receipt.attempt.node.nodeId)
      receipt.attempt.number = true := by
    rw [hreceiptNode, habout]
    exact Receipts.isChecking_eq_true.mpr ⟨state, hchecks.state_eq, hchecks.checking,
      hchecks.current⟩
  have hrecheck : Receipts.checkDependencies s spec run st a receipt now = .ok () := by
    unfold Receipts.checkDependencies
    split
    · rename_i haccept
      rw [hreceipt] at haccept
      rw [hreceiptNode]
      exact mapError_eq_ok.mpr (hdeps haccept)
    · rfl
  have hinsert : ∀ s', s.insertReceipt rt receipt = .ok s' ↔
      (rt.text receipt.toJson).utf8ByteSize ≤ maxRecordLen ∧
        s' = { s with receipts := s.receipts ++ [receipt] } := by
    intro s'
    refine Receipts.insertReceipt_eq_ok rt ?_ hfree
    rw [List.any_eq_true]
    exact ⟨a, hrow, by simp [habout, Attempt.attemptRef]⟩
  have hknown : s.hasRun receipt.attempt.runId = true := by
    rw [hreceiptRun]
    exact hchecks.bound.1.hasRun
  have hallowed := Receipts.admitted_allowed hknown
  rw [← hbindings, ← hcheck]
  constructor
  · rintro ⟨s', h⟩
    unfold Receipts.admitReceipt at h
    obtain ⟨node', hnode, h⟩ := bind_ok h
    obtain ⟨a', ha', h⟩ := bind_ok h
    obtain ⟨st', hst', h⟩ := bind_ok h
    obtain ⟨_, -, h⟩ := bind_ok h
    obtain ⟨_, -, h⟩ := bind_ok h
    obtain ⟨s₁, hs₁, h⟩ := bind_ok h
    obtain ⟨s₂, hs₂, -⟩ := bind_ok h
    obtain ⟨hrecord, -⟩ := (hinsert _).mp (mapError_ok hs₁)
    obtain ⟨hpayload, -⟩ := (Store.appendEvent_eq_ok rt).mp (mapError_ok hs₂)
    refine ⟨?_, hrecord, hpayload⟩
    obtain ⟨-, hsame, -⟩ := Receipts.checkReceipt_ok hnode
    have hattemptNode : receipt.attempt.node = a.node := by rw [habout]; rfl
    rw [hattemptNode, hcontract] at hsame
    rw [Option.some.inj hsame]
    exact hnode
  · rintro ⟨hnode, hrecord, hpayload⟩
    exact ⟨_, bind_eq_ok.mpr ⟨node, hnode, bind_eq_ok.mpr ⟨a, hsealed, bind_eq_ok.mpr ⟨st,
      mapError_eq_ok.mpr hchecks.replayed, bind_eq_ok.mpr ⟨(), guardOk_eq_ok.mpr hchecking,
      bind_eq_ok.mpr ⟨(), hrecheck, bind_eq_ok.mpr ⟨_, mapError_eq_ok.mpr ((hinsert _).mpr
      ⟨hrecord, rfl⟩), bind_eq_ok.mpr ⟨_, mapError_eq_ok.mpr ((Store.appendEvent_eq_ok rt).mpr
      ⟨hpayload, hallowed, rfl⟩), rfl⟩⟩⟩⟩⟩⟩⟩⟩

namespace Pilot

/-- A refusal by the pinned verifier that gives no reason. -/
def unreasonedText : String :=
  "\x7b\"protocol\":1,\"verifier\":\x7b\"id\":\"pinned\",\"version\":1,\"digest\":\"" ++
  zeroDigest.text ++ "\"\x7d,\"attempt\":\x7b\"run_id\":\"run-1\",\"node\":\x7b" ++
  "\"graph_id\":\"pilot\",\"node_id\":\"patch\",\"revision\":1\x7d,\"number\":1\x7d," ++
  "\"verdict\":\"reject\"\x7d"

def unreasoned : VerifierResponse :=
  { verifier := verifier, attempt := (attemptOf patch []).attemptRef, verdict := .reject
    checks := [], reasonCode := none, reasonText := none }

def unreasonedBytes : List UInt8 := unreasonedText.toUTF8.data.toList

/-- The decoder on that document, and an error elsewhere. -/
def unreasonedDecoder : Decoder :=
  { next := fun bytes =>
      if bytes = unreasonedBytes then some (.ok (unreasoned, unreasonedBytes.length))
      else some (.error "expected a document at line 1 column 1") }

def unreasonedReceipt : VerifierReceipt := { patchReceipt with verdict := .reject }

def patchState : RunState := get (patchSealed.replay runId spec) (by decide +kernel)

def patchChecking : NodeState :=
  { status := .running, currentAttempt := some one, attemptsStarted := 1, checking := true
    receipt := none, waitingOnGate := none }

theorem patchSealed_checks :
    patchSealed.Checks spec run patch (attemptOf patch []) patchState patchChecking where
  bound := bound (by decide +kernel) (by decide +kernel)
  node_eq := by decide +kernel
  replayed := get_eq (by decide +kernel)
  state_eq := by decide +kernel
  checking := rfl
  current := rfl
  sealedRow := by decide +kernel

end Pilot

open Pilot in
theorem issued_admitted_iff_patch :
    (∃ s', Receipts.admitReceipt runtime patchSealed spec run patchReceipt now = .ok ((), s')) ↔
      (skipped.verdict ≠ .accept → skipped.reasonCode.isSome = true) ∧
      (runtime.text patchReceipt.toJson).utf8ByteSize ≤ maxRecordLen ∧
      (runtime.text (Receipts.admittedPayload patchReceipt)).utf8ByteSize ≤ maxRecordLen :=
  @issued_admitted_iff runtime patchSealed patchSealed_reachable spec run patch (attemptOf patch [])
    patchState patchChecking patchSealed_checks skipped patchReceipt.id "candidate" "controller" now
    now { validUntil := none, conditions := [] } patchReceipt (by decide +kernel)
    (by decide +kernel) (by decide +kernel) (by decide +kernel) (by decide +kernel)
    (by decide +kernel)

open Pilot in
/-- A refusal without a reason passes the host and is issued, and is not admitted. -/
theorem issued_unreasoned_refused : (legalLedger runtime).Reachable patchSealed ∧
    patchSealed.Checks spec run patch (attemptOf patch []) patchState patchChecking ∧
    VerifierHost.run runtime unreasonedDecoder skippingRun.profile verification.request
      { skippingRun.child with stdout := unreasonedBytes } = .ok unreasoned ∧
    Receipts.issue runtime unreasoned patch (attemptOf patch []) patchReceipt.id "candidate"
      "controller" now { validUntil := none, conditions := [] } = .ok unreasonedReceipt ∧
    patchSealed.receipt runId unreasonedReceipt.id.text = .ok none ∧
    Receipts.frozenSubject (attemptOf patch []) = none ∧
    ¬ ∃ s', Receipts.admitReceipt runtime patchSealed spec run unreasonedReceipt now =
      .ok ((), s') := by
  have hrefused : (Receipts.admitReceipt runtime patchSealed spec run unreasonedReceipt
      now).isOk = false := by decide +kernel
  refine ⟨patchSealed_reachable, patchSealed_checks, by decide +kernel, by decide +kernel,
    by decide +kernel, by decide +kernel, ?_⟩
  rintro ⟨s', h⟩
  rw [h] at hrefused
  cases hrefused

end Checkspan
