import Checkspan.Acceptance

/-!
# Required checks and acceptance

The documentation of `CheckOutcome::Skipped` says that a skipped required check
never passes. Host, issue and admission each read a verifier's document
(`src/verifier_host/mod.rs:255-419`, `src/receipts/mod.rs:62-375`), and none of
them reads its check reports: what an accepting document says about the required
checks is up to the verifier alone.
-/

namespace Checkspan

/-! ### One verification -/

/-- The verification of a sealed attempt of a run: the contract its node reference
names in the graph, the attempt as stored, the request made for it, and what the
receipt is issued and admitted with. -/
structure Verification where
  spec : GraphSpec
  run : GraphRun
  store : Store
  node : NodeSpec
  attempt : Attempt
  request : VerifierRequest
  receiptId : Ident
  subject : String
  issuer : String
  checkedAt : Timestamp
  validity : Validity
  now : Timestamp
  contract : Receipts.contractOf spec attempt.node = some node
  ofRun : attempt.runId = run.runId
  sealedRow : store.attempt run.runId attempt.node.nodeId attempt.number.get = .ok (some attempt)
  asksVerifier : request.verifier = node.acceptance.verifier
  asksAttempt : request.attempt = attempt.attemptRef
  asksChecks : request.requiredChecks = node.acceptance.requiredChecks

/-- One run of the pinned verifier: its profile, what the child did, and the
decoder of its output. -/
structure VerifierRun where
  decoder : Decoder
  profile : VerifierProfile
  child : ChildRun

/-- Every required check is reported, and only as passed. -/
def Covers (node : NodeSpec) (doc : VerifierResponse) : Prop :=
  ∀ check ∈ node.acceptance.requiredChecks, (∃ report ∈ doc.checks, report.id = check) ∧
    ∀ report ∈ doc.checks, report.id = check → report.outcome = .passed

instance (node : NodeSpec) (doc : VerifierResponse) : Decidable (Covers node doc) :=
  inferInstanceAs (Decidable (∀ check ∈ _, _))

namespace Verification

variable (rt : Runtime) (v : Verification)

def runVerifier (r : VerifierRun) : Except ProcessFailure VerifierResponse :=
  VerifierHost.run rt r.decoder r.profile v.request r.child

def issueFor (doc : VerifierResponse) : Except IssueError VerifierReceipt :=
  Receipts.issue rt doc v.node v.attempt v.receiptId v.subject v.issuer v.checkedAt v.validity

def admitFor (receipt : VerifierReceipt) : Except AdmitError (Unit × Store) :=
  Receipts.admitReceipt rt v.store v.spec v.run receipt v.now

/-- Whatever document the verifier prints, if host, issue and admission turn it
into an accepting receipt, it covers the required checks. -/
def NoUncoveredAcceptance (r : VerifierRun) : Prop :=
  ∀ response receipt s', v.runVerifier rt r = .ok response → v.issueFor rt response = .ok receipt →
    v.admitFor rt receipt = .ok ((), s') → receipt.verdict = .accept → Covers v.node response

/-! ### The accepting path, in terms of its inputs -/

/-- The receipt an accepting document is turned into. -/
def receipt (doc : VerifierResponse) (result : ResultRef) (context : Digest) : VerifierReceipt :=
  { record := .verifierReceipt
    schemaVersion := 1
    id := v.receiptId
    attempt := v.attempt.attemptRef
    subject := v.subject
    resultDigest := result.digest
    contextDigest := context
    verifier := v.node.acceptance.verifier
    policyRef := v.node.acceptance.policyRef
    verdict := .accept
    reasonCode := doc.reasonCode
    reasonText := doc.reasonText
    retryHint := none
    checkedAt := v.checkedAt
    validity := v.validity
    provenance := { level := .localController, issuer := v.issuer, attestationRef := none } }

/-- The ledger is ready to accept the sealed attempt by this receipt. -/
structure Ready (result : ResultRef) (context : Digest) (st : RunState) (state : NodeState)
    (doc : VerifierResponse) : Prop where
  completed : v.attempt.completedResult = some result
  context_eq : attemptContextDigest rt v.node v.attempt.attemptRef v.attempt result.digest =
    .ok context
  subjectGiven : isBlank v.subject = false
  issuerGiven : isBlank v.issuer = false
  subjectFrozen : ∀ t, Receipts.frozenSubject v.attempt = some t → t = v.subject
  fresh : ∀ t, v.validity.validUntil = some t → t.isBefore v.now = false
  idFree : v.store.receipt v.run.runId v.receiptId.text = .ok none
  runKnown : v.store.hasRun v.run.runId = true
  replayed : v.store.replay v.run.runId v.spec = .ok st
  state_eq : st.node v.attempt.node.nodeId = some state
  checking : state.checking = true
  current : state.currentAttempt = some v.attempt.number
  prerequisites : DependencyService.recheckRefs
    { spec := v.spec, run := v.run, state := st, store := v.store, now := v.now }
    v.attempt.node.nodeId v.attempt.dependencyReceipts = .ok ()
  recordFits : (rt.text (v.receipt doc result context).toJson).utf8ByteSize ≤ maxRecordLen
  payloadFits : (rt.text (Receipts.admittedPayload (v.receipt doc result context))).utf8ByteSize ≤
    maxRecordLen

/-- `doc` is an accepting document about this attempt by its pinned verifier, the
child printed it, and the ledger is ready. -/
structure Accepting (r : VerifierRun) (doc : VerifierResponse) : Prop where
  prints : VerifierHost.Prints rt r.decoder r.profile r.child doc
  verifier : doc.verifier = v.node.acceptance.verifier
  attempt_eq : doc.attempt = v.attempt.attemptRef
  verdict : doc.verdict = .accept
  ready : ∃ result context st state, v.Ready rt result context st state doc

variable {rt} {v}

/-- The host returns exactly the one document the child printed, when it echoes
the request. -/
theorem runVerifier_eq_ok {r : VerifierRun} {doc : VerifierResponse} :
    v.runVerifier rt r = .ok doc ↔
      VerifierHost.Prints rt r.decoder r.profile r.child doc ∧
      doc.verifier = v.node.acceptance.verifier ∧ doc.attempt = v.attempt.attemptRef := by
  rw [runVerifier, VerifierHost.run_eq_ok, v.asksVerifier, v.asksAttempt]

/-- Issue turns an accepting document into the receipt, when the attempt is sealed
as completed with a result. -/
theorem issueFor_eq_ok {doc : VerifierResponse} {receipt : VerifierReceipt}
    (hverifier : doc.verifier = v.node.acceptance.verifier)
    (hattempt : doc.attempt = v.attempt.attemptRef) (hverdict : doc.verdict = .accept) :
    v.issueFor rt doc = .ok receipt ↔ ∃ result context,
      v.attempt.completedResult = some result ∧
      attemptContextDigest rt v.node v.attempt.attemptRef v.attempt result.digest = .ok context ∧
      receipt = v.receipt doc result context := by
  unfold issueFor Receipts.issue
  simp only [bind_eq_ok, guardOk_eq_ok, someOr_eq_ok, mapError_eq_ok, decide_eq_true_eq, hverifier,
    hattempt, hverdict, exists_const, true_and, Except.ok.injEq, Verification.receipt]
  constructor
  · rintro ⟨result, hresult, context, hcontext, rfl⟩
    exact ⟨result, context, hresult, hcontext, rfl⟩
  · rintro ⟨result, context, hresult, hcontext, rfl⟩
    exact ⟨result, hresult, context, hcontext, rfl⟩

theorem receipt_attempt_node {doc : VerifierResponse} {result : ResultRef} {context : Digest} :
    (v.receipt doc result context).attempt.node = v.attempt.node := rfl

theorem checkBindings_receipt {doc : VerifierResponse} {result : ResultRef} {context : Digest} :
    (v.receipt doc result context).checkBindings.isEmpty = true ↔
      isBlank v.subject = false ∧ isBlank v.issuer = false := by
  unfold VerifierReceipt.checkBindings
  simp only [Verification.receipt]
  by_cases hs : isBlank v.subject = true
  · simp [hs]
  · by_cases hi : isBlank v.issuer = true
    · simp [hi]
    · simp [hs, hi]

theorem checkReceipt_eq_ok {doc : VerifierResponse} {result : ResultRef} {context : Digest}
    {node : NodeSpec} :
    Receipts.checkReceipt v.spec v.run (v.receipt doc result context) v.now = .ok node ↔
      node = v.node ∧ isBlank v.subject = false ∧ isBlank v.issuer = false ∧
      ∀ t, v.validity.validUntil = some t → t.isBefore v.now = false := by
  have hrun : (v.receipt doc result context).attempt.runId = v.run.runId := v.ofRun
  unfold Receipts.checkReceipt
  simp only [bind_eq_ok, guardOk_eq_ok, someOr_eq_ok, decide_eq_true_eq, exists_const,
    checkBindings_receipt, hrun, receipt_attempt_node, v.contract, Option.some.injEq, true_and]
  constructor
  · rintro ⟨⟨hsubject, hissuer⟩, found, rfl, -, -, hfresh, hnode⟩
    cases hnode
    exact ⟨rfl, hsubject, hissuer, Receipts.unexpired_iff.mp hfresh⟩
  · rintro ⟨rfl, hsubject, hissuer, hfresh⟩
    exact ⟨⟨hsubject, hissuer⟩, v.node, rfl, rfl, rfl, Receipts.unexpired_iff.mpr hfresh, rfl⟩

theorem checkSealed_eq_ok {doc : VerifierResponse} {result : ResultRef} {context : Digest}
    {a : Attempt} (hcompleted : v.attempt.completedResult = some result)
    (hcontext : attemptContextDigest rt v.node v.attempt.attemptRef v.attempt result.digest =
      .ok context) :
    Receipts.checkSealed rt v.store v.run v.node (v.receipt doc result context) = .ok a ↔
      a = v.attempt ∧ v.store.receipt v.run.runId v.receiptId.text = .ok none ∧
      ∀ t, Receipts.frozenSubject v.attempt = some t → t = v.subject := by
  have hrow : v.store.attempt v.run.runId (v.receipt doc result context).attempt.node.nodeId
      (v.receipt doc result context).attempt.number.get = .ok (some v.attempt) := v.sealedRow
  have hdigest : attemptContextDigest rt v.node (v.receipt doc result context).attempt v.attempt
      result.digest = .ok context := hcontext
  unfold Receipts.checkSealed
  simp only [bind_eq_ok, guardOk_eq_ok, someOr_eq_ok, mapError_eq_ok, Receipts.checkSubject_eq_ok,
    decide_eq_true_eq, exists_const, hrow, Except.ok.injEq]
  constructor
  · rintro ⟨existing, hexisting, hnone, _, rfl, found, hfound, _, -, -, hsubject, _, -, -, rfl⟩
    cases hfound
    rw [Option.isNone_iff_eq_none] at hnone
    rw [hnone] at hexisting
    exact ⟨rfl, hexisting, fun t ht => (hsubject t ht).symm⟩
  · rintro ⟨rfl, hfree, hsubject⟩
    exact ⟨none, hfree, rfl, _, rfl, v.attempt, rfl, result, hcompleted, rfl,
      fun t ht => (hsubject t ht).symm, context, hdigest, rfl, rfl⟩

/-- A free id and the sealed attempt let the receipt row in, if it fits. -/
theorem insertReceipt_eq_ok {doc : VerifierResponse} {result : ResultRef} {context : Digest}
    (hfree : v.store.receipt v.run.runId v.receiptId.text = .ok none) {s' : Store} :
    v.store.insertReceipt rt (v.receipt doc result context) = .ok s' ↔
      (rt.text (v.receipt doc result context).toJson).utf8ByteSize ≤ maxRecordLen ∧
      s' = { v.store with receipts := v.store.receipts ++ [v.receipt doc result context] } := by
  obtain ⟨hmem, hkey⟩ := Store.attempt_some v.sealedRow
  have hrun : (v.receipt doc result context).attempt.runId = v.run.runId := v.ofRun
  refine Receipts.insertReceipt_eq_ok rt ?_ (by rw [hrun]; exact hfree)
  rw [List.any_eq_true]
  exact ⟨v.attempt, hmem, by simp [Verification.receipt, Attempt.attemptRef]⟩

theorem checkDependencies_eq_ok {doc : VerifierResponse} {result : ResultRef} {context : Digest}
    {st : RunState} {u : Unit} :
    Receipts.checkDependencies v.store v.spec v.run st v.attempt (v.receipt doc result context)
      v.now = .ok u ↔ DependencyService.recheckRefs
        { spec := v.spec, run := v.run, state := st, store := v.store, now := v.now }
        v.attempt.node.nodeId v.attempt.dependencyReceipts = .ok () := by
  have haccept : (v.receipt doc result context).verdict = .accept := rfl
  unfold Receipts.checkDependencies
  rw [if_pos haccept, mapError_eq_ok]
  rfl

/-- Admission takes the receipt exactly when the ledger is ready for it. -/
theorem admitFor_eq_ok {doc : VerifierResponse} {result : ResultRef} {context : Digest}
    (hcompleted : v.attempt.completedResult = some result)
    (hcontext : attemptContextDigest rt v.node v.attempt.attemptRef v.attempt result.digest =
      .ok context) :
    (∃ s', v.admitFor rt (v.receipt doc result context) = .ok ((), s')) ↔
      ∃ st state, v.Ready rt result context st state doc := by
  constructor
  · rintro ⟨s', h⟩
    unfold admitFor Receipts.admitReceipt at h
    obtain ⟨node, hnode, h⟩ := bind_ok h
    obtain ⟨rfl, hsubject, hissuer, hfresh⟩ := checkReceipt_eq_ok.mp hnode
    obtain ⟨a, ha, h⟩ := bind_ok h
    obtain ⟨rfl, hfree, hfrozen⟩ := (checkSealed_eq_ok hcompleted hcontext).mp ha
    obtain ⟨st, hst, h⟩ := bind_ok h
    obtain ⟨_, hchecking, h⟩ := bind_ok h
    obtain ⟨state, hstate, hcheck, hcurrent⟩ :=
      Receipts.isChecking_eq_true.mp (guardOk_ok hchecking)
    obtain ⟨_, hdeps, h⟩ := bind_ok h
    obtain ⟨s₁, hs₁, h⟩ := bind_ok h
    obtain ⟨hfits, rfl⟩ := (insertReceipt_eq_ok hfree).mp (mapError_ok hs₁)
    obtain ⟨s₂, hs₂, h⟩ := bind_ok h
    obtain ⟨hpayload, hallowed, -⟩ := (Store.appendEvent_eq_ok rt).mp (mapError_ok hs₂)
    have hknown := Store.hasRun_of_eventAllowed hallowed
    rw [show (v.receipt doc result context).attempt.runId = v.run.runId from v.ofRun] at hknown
    refine ⟨st, state, ?_⟩
    exact { completed := hcompleted
            context_eq := hcontext
            subjectGiven := hsubject
            issuerGiven := hissuer
            subjectFrozen := hfrozen
            fresh := hfresh
            idFree := hfree
            runKnown := hknown
            replayed := mapError_ok hst
            state_eq := hstate
            checking := hcheck
            current := hcurrent
            prerequisites := checkDependencies_eq_ok.mp hdeps
            recordFits := hfits
            payloadFits := hpayload }
  · rintro ⟨st, state, h⟩
    have hchecking := Receipts.isChecking_eq_true.mpr ⟨state, h.state_eq, h.checking, h.current⟩
    have hrow : v.store.insertReceipt rt (v.receipt doc result context) = .ok _ :=
      (insertReceipt_eq_ok h.idFree).mpr ⟨h.recordFits, rfl⟩
    have hknown : v.store.hasRun (v.receipt doc result context).attempt.runId = true := by
      rw [← h.runKnown]
      exact congrArg v.store.hasRun v.ofRun
    have hallowed := Receipts.admitted_allowed hknown
    exact ⟨_, bind_eq_ok.mpr ⟨v.node, checkReceipt_eq_ok.mpr ⟨rfl, h.subjectGiven, h.issuerGiven,
      h.fresh⟩, bind_eq_ok.mpr ⟨v.attempt, (checkSealed_eq_ok hcompleted hcontext).mpr
      ⟨rfl, h.idFree, h.subjectFrozen⟩, bind_eq_ok.mpr ⟨st, mapError_eq_ok.mpr h.replayed,
      bind_eq_ok.mpr ⟨(), guardOk_eq_ok.mpr hchecking, bind_eq_ok.mpr ⟨(),
      checkDependencies_eq_ok.mpr h.prerequisites, bind_eq_ok.mpr ⟨_, mapError_eq_ok.mpr hrow,
      bind_eq_ok.mpr ⟨_, mapError_eq_ok.mpr ((Store.appendEvent_eq_ok rt).mpr
        ⟨h.payloadFits, hallowed, rfl⟩), rfl⟩⟩⟩⟩⟩⟩⟩⟩

/-- The document a verifier prints is accepted exactly when it is accepting. -/
theorem accepted_iff {r : VerifierRun} {doc : VerifierResponse} :
    (∃ receipt s', v.runVerifier rt r = .ok doc ∧ v.issueFor rt doc = .ok receipt ∧
      v.admitFor rt receipt = .ok ((), s') ∧ receipt.verdict = .accept) ↔
      v.Accepting rt r doc := by
  constructor
  · rintro ⟨receipt, s', hrun, hissue, hentered, hverdict⟩
    obtain ⟨hprints, hverifier, hattempt⟩ := runVerifier_eq_ok.mp hrun
    have hdoc : doc.verdict = .accept := by
      unfold issueFor Receipts.issue at hissue
      obtain ⟨_, -, hissue⟩ := bind_ok hissue
      obtain ⟨_, -, hissue⟩ := bind_ok hissue
      obtain ⟨_, -, hissue⟩ := bind_ok hissue
      obtain ⟨_, -, hissue⟩ := bind_ok hissue
      cases hissue
      exact hverdict
    obtain ⟨result, context, hcompleted, hcontext, rfl⟩ :=
      (issueFor_eq_ok hverifier hattempt hdoc).mp hissue
    obtain ⟨st, state, hready⟩ := (admitFor_eq_ok hcompleted hcontext).mp ⟨s', hentered⟩
    exact { prints := hprints
            verifier := hverifier
            attempt_eq := hattempt
            verdict := hdoc
            ready := ⟨result, context, st, state, hready⟩ }
  · intro h
    obtain ⟨result, context, st, state, hready⟩ := h.ready
    obtain ⟨s', hentered⟩ := (admitFor_eq_ok hready.completed hready.context_eq).mpr
      ⟨st, state, hready⟩
    exact ⟨v.receipt doc result context, s',
      runVerifier_eq_ok.mpr ⟨h.prints, h.verifier, h.attempt_eq⟩,
      (issueFor_eq_ok h.verifier h.attempt_eq h.verdict).mpr
        ⟨result, context, hready.completed, hready.context_eq, rfl⟩, hentered, rfl⟩

end Verification

/-! ### Required checks -/

/-- What a verifier prints is never accepted over an uncovered required check
exactly when every accepting document it prints covers them: nothing in the host,
in issue or in admission reads the reports. -/
theorem noUncoveredAcceptance_iff (rt : Runtime) (v : Verification) (r : VerifierRun) :
    v.NoUncoveredAcceptance rt r ↔ ∀ doc, v.Accepting rt r doc → Covers v.node doc := by
  constructor
  · intro h doc hdoc
    obtain ⟨receipt, s', hrun, hissue, hentered, hverdict⟩ := Verification.accepted_iff.mpr hdoc
    exact h doc receipt s' hrun hissue hentered hverdict
  · intro h response receipt s' hrun hissue hentered hverdict
    exact h response (Verification.accepted_iff.mp ⟨receipt, s', hrun, hissue, hentered, hverdict⟩)

namespace Pilot

/-- An accepting document of the pinned verifier that reports the one required
check as skipped. -/
def skippedText : String :=
  "\x7b\"protocol\":1,\"verifier\":\x7b\"id\":\"pinned\",\"version\":1,\"digest\":\"" ++
  zeroDigest.text ++ "\"\x7d,\"attempt\":\x7b\"run_id\":\"run-1\",\"node\":\x7b" ++
  "\"graph_id\":\"pilot\",\"node_id\":\"patch\",\"revision\":1\x7d,\"number\":1\x7d," ++
  "\"verdict\":\"accept\",\"checks\":[\x7b\"id\":\"tests\",\"outcome\":\"skipped\"\x7d]\x7d"

def skipped : VerifierResponse :=
  { verifier := verifier, attempt := (attemptOf patch []).attemptRef, verdict := .accept
    checks := [{ id := ident, outcome := .skipped, detail := none }]
    reasonCode := none, reasonText := none }

def skippedBytes : List UInt8 := skippedText.toUTF8.data.toList

/-- The decoder on that document, and an error elsewhere. -/
def decoder : Decoder :=
  { next := fun bytes =>
      if bytes = skippedBytes then some (.ok (skipped, skippedBytes.length))
      else some (.error "expected value at line 1 column 1") }

def skippingRun : VerifierRun :=
  { decoder := decoder
    profile := { executableDigest := none, maxStdoutBytes := 65536 }
    child := { executable := none, spawned := .ok (), ended := .exited (some 0)
               stdout := skippedBytes } }

def verification : Verification :=
  { spec := spec, run := run, store := patchSealed, node := patch, attempt := attemptOf patch []
    request := { verifier := verifier, attempt := (attemptOf patch []).attemptRef
                 subject := "candidate", claim := "done", requiredChecks := [ident]
                 policyRef := policy, inputManifestDigest := zeroDigest, evidence := [] }
    receiptId := patchReceipt.id, subject := "candidate"
    issuer := "controller", checkedAt := now, validity := { validUntil := none, conditions := [] }
    now := now
    contract := by decide +kernel
    ofRun := rfl
    sealedRow := by decide +kernel
    asksVerifier := rfl
    asksAttempt := rfl
    asksChecks := rfl }

end Pilot

open Pilot in
/-- The node is accepted over its one required check, which the accepting document
reports as skipped. -/
theorem accepted_over_skipped_check :
    ¬ verification.NoUncoveredAcceptance runtime skippingRun := by
  intro h
  have hrun : verification.runVerifier runtime skippingRun = .ok skipped := by decide +kernel
  have hissue : verification.issueFor runtime skipped = .ok patchReceipt := by decide +kernel
  have hentered := get_eq (x := verification.admitFor runtime patchReceipt) (by decide +kernel)
  have hcovers : Covers patch skipped := h skipped patchReceipt _ hrun hissue hentered rfl
  revert hcovers
  decide +kernel

end Checkspan
