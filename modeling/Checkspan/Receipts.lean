import Checkspan.Deps
import Checkspan.VerifierHost

/-!
# Issuing and admitting receipts (`src/receipts/mod.rs`)

A receipt is the only path to acceptance, and admission is where every binding
is enforced, inside the transaction that records it.
-/

namespace Checkspan

inductive IssueError where
  | wrongAttempt
  | wrongVerifier
  | notCompleted
  | canonical (error : CanonicalError)
deriving DecidableEq

/-- The causes of `AdmitError::Malformed`, whose text the source keeps. -/
inductive MalformedReceipt where
  | bindings (errors : List ReceiptError)
  | canonical (error : CanonicalError)
  | replay (error : TransitionError)
deriving DecidableEq

/-- Why a receipt was refused (`receipts/mod.rs:119-168`). -/
inductive AdmitError where
  | malformed (cause : MalformedReceipt)
  | wrongRun
  | wrongNode
  | wrongVerifier (pinned offered : String)
  | wrongPolicy
  | unknownAttempt
  | notCompleted
  | stale (state : String)
  | duplicate
  | wrongResult
  | wrongSubject (expected offered : String)
  | contextMismatch
  | expired
  | dependencyBlocked (reason : String)
  | store (error : StoreError)
deriving DecidableEq

namespace Receipts

variable (rt : Runtime)

/-! ### `issue` (`receipts/mod.rs:56-117`) -/

def issue (response : VerifierResponse) (node : NodeSpec) (attempt : Attempt) (receiptId : Ident)
    (subject issuer : String) (checkedAt : Timestamp) (validity : Validity) :
    Except IssueError VerifierReceipt := do
  guardOk (response.attempt = attempt.attemptRef) .wrongAttempt
  guardOk (response.verifier = node.acceptance.verifier) .wrongVerifier
  let result ← someOr attempt.completedResult .notCompleted
  let context ← (attemptContextDigest rt node response.attempt attempt result.digest).mapError
    .canonical
  .ok { record := .verifierReceipt
        schemaVersion := 1
        id := receiptId
        attempt := response.attempt
        subject := subject
        resultDigest := result.digest
        contextDigest := context
        verifier := node.acceptance.verifier
        policyRef := node.acceptance.policyRef
        verdict := response.verdict
        reasonCode := response.reasonCode
        reasonText := response.reasonText
        retryHint := none
        checkedAt := checkedAt
        validity := validity
        provenance := { level := .localController, issuer := issuer, attestationRef := none } }

/-- What issuing a receipt checks, and what the receipt says of the attempt. -/
theorem issue_ok {response : VerifierResponse} {node : NodeSpec} {attempt : Attempt}
    {receiptId : Ident} {subject issuer : String} {checkedAt : Timestamp} {validity : Validity}
    {r : VerifierReceipt}
    (h : issue rt response node attempt receiptId subject issuer checkedAt validity = .ok r) :
    response.attempt = attempt.attemptRef ∧ r.attempt = response.attempt ∧
      r.verdict = response.verdict ∧
      ∃ result, attempt.completedResult = some result ∧ r.resultDigest = result.digest := by
  unfold issue at h
  obtain ⟨_, hattempt, h⟩ := bind_ok h
  obtain ⟨_, -, h⟩ := bind_ok h
  obtain ⟨result, hresult, h⟩ := bind_ok h
  obtain ⟨context, -, h⟩ := bind_ok h
  cases h
  exact ⟨by simpa using guardOk_ok hattempt, rfl, rfl, result, someOr_ok hresult, rfl⟩

/-- A receipt is about the subject it was issued for. -/
theorem issue_subject {response : VerifierResponse} {node : NodeSpec} {attempt : Attempt}
    {receiptId : Ident} {subject issuer : String} {checkedAt : Timestamp} {validity : Validity}
    {r : VerifierReceipt}
    (h : issue rt response node attempt receiptId subject issuer checkedAt validity = .ok r) :
    r.subject = subject := by
  unfold issue at h
  obtain ⟨_, -, h⟩ := bind_ok h
  obtain ⟨_, -, h⟩ := bind_ok h
  obtain ⟨_, -, h⟩ := bind_ok h
  obtain ⟨_, -, h⟩ := bind_ok h
  cases h
  rfl

/-! ### `admit` (`receipts/mod.rs:227-375`) -/

def patchSubjectPrefix : String := "patch_subject:"

/-- `frozen_subject` (`receipts/mod.rs:377-384`). -/
def frozenSubject (attempt : Attempt) : Option String :=
  (attempt.inputManifest.find? (fun e => e.subject.startsWith patchSubjectPrefix)).map (·.subject)

/-- The contract a receipt names: the node at exactly its reference. -/
def contractOf (spec : GraphSpec) (ref : NodeRef) : Option NodeSpec :=
  (spec.findNode ref.nodeId).filter (fun n => spec.refOf n = ref)

/-- The checks before the transaction. -/
def checkReceipt (spec : GraphSpec) (run : GraphRun) (receipt : VerifierReceipt)
    (now : Timestamp) : Except AdmitError NodeSpec := do
  guardOk receipt.checkBindings.isEmpty (.malformed (.bindings receipt.checkBindings))
  guardOk (receipt.attempt.runId = run.runId) .wrongRun
  let node ← someOr (contractOf spec receipt.attempt.node) .wrongNode
  guardOk (receipt.verifier = node.acceptance.verifier)
    (.wrongVerifier node.acceptance.verifier.display receipt.verifier.display)
  guardOk (receipt.policyRef = node.acceptance.policyRef) .wrongPolicy
  guardOk (match receipt.validity.validUntil with
    | some t => !t.isBefore now
    | none => true) .expired
  .ok node

/-- The subject an attempt froze must be the receipt's. -/
def checkSubject (attempt : Attempt) (receipt : VerifierReceipt) : Except AdmitError Unit :=
  match frozenSubject attempt with
  | some expected =>
    guardOk (expected = receipt.subject) (.wrongSubject expected receipt.subject)
  | none => .ok ()

/-- The bindings of the receipt to the sealed attempt. -/
def checkSealed (s : Store) (run : GraphRun) (node : NodeSpec) (receipt : VerifierReceipt) :
    Except AdmitError Attempt := do
  let existing ← (s.receipt run.runId receipt.id.text).mapError .store
  guardOk existing.isNone .duplicate
  let sealedRow ← (s.attempt run.runId receipt.attempt.node.nodeId
    receipt.attempt.number.get).mapError .store
  let attempt ← someOr sealedRow .unknownAttempt
  let result ← someOr attempt.completedResult .notCompleted
  guardOk (receipt.resultDigest = result.digest) .wrongResult
  checkSubject attempt receipt
  let context ← (attemptContextDigest rt node receipt.attempt attempt result.digest).mapError
    (fun e => .malformed (.canonical e))
  guardOk (context = receipt.contextDigest) .contextMismatch
  .ok attempt

/-- The description of a state that is not checking the receipt's attempt. -/
def describeState : Option NodeState → String
  | none => "no state"
  | some s => "status " ++ s.status.asStr ++ ", attempt " ++
      (match s.currentAttempt with
        | some n => "Some(" ++ n.display ++ ")"
        | none => "None") ++
      ", checking " ++ (if s.checking then "true" else "false")

def isChecking (state : Option NodeState) (number : AttemptNumber) : Bool :=
  match state with
  | some s => s.checking && s.currentAttempt = some number
  | none => false

/-- The pre-acceptance recheck of an accepting receipt. -/
def checkDependencies (s : Store) (spec : GraphSpec) (run : GraphRun) (st : RunState)
    (attempt : Attempt) (receipt : VerifierReceipt) (now : Timestamp) : Except AdmitError Unit :=
  if receipt.verdict = .accept then
    (DependencyService.recheckRefs { spec := spec, run := run, state := st, store := s, now := now }
      receipt.attempt.node.nodeId attempt.dependencyReceipts).mapError
      (fun blockers => .dependencyBlocked (displayBlockers blockers))
  else .ok ()

/-- The payload of `receipt_admitted`. -/
def admittedPayload (receipt : VerifierReceipt) : Json :=
  .obj [("receipt_id", receipt.id.toJson), ("number", receipt.attempt.number.toJson),
    ("verdict", receipt.verdict.toJson), ("result_digest", receipt.resultDigest.toJson)]

def admitReceipt (s : Store) (spec : GraphSpec) (run : GraphRun) (receipt : VerifierReceipt)
    (now : Timestamp) : Except AdmitError (Unit × Store) := do
  let node ← checkReceipt spec run receipt now
  let attempt ← checkSealed rt s run node receipt
  let st ← (RunState.replay run.runId spec (s.eventsOf run.runId)).mapError
    (fun e => .malformed (.replay e))
  let state := st.node receipt.attempt.node.nodeId
  guardOk (isChecking state receipt.attempt.number) (.stale (describeState state))
  checkDependencies s spec run st attempt receipt now
  let s₁ ← (s.insertReceipt rt receipt).mapError .store
  let s₂ ← (s₁.appendEvent rt receipt.attempt.runId (some receipt.attempt.node.nodeId)
    kinds.receiptAdmitted (admittedPayload receipt)).mapError .store
  .ok ((), s₂)

/-! ### What admission establishes -/

theorem contractOf_some {spec : GraphSpec} {ref : NodeRef} {node : NodeSpec}
    (h : contractOf spec ref = some node) :
    spec.findNode ref.nodeId = some node ∧ spec.refOf node = ref := by
  unfold contractOf at h
  rw [Option.filter_eq_some_iff] at h
  exact ⟨h.1, by simpa using h.2⟩

theorem contractOf_nodeRef {spec : GraphSpec} {ref : NodeRef} {node : NodeSpec}
    (h : contractOf spec ref = some node) : spec.nodeRef ref.nodeId = some ref := by
  obtain ⟨hfind, href⟩ := contractOf_some h
  rw [GraphSpec.nodeRef, hfind, Option.map_some, href]

theorem contractOf_of_nodeRef {spec : GraphSpec} {id : NodeId} {ref : NodeRef}
    (h : spec.nodeRef id = some ref) :
    ∃ node, spec.findNode id = some node ∧ contractOf spec ref = some node := by
  have hid := GraphSpec.nodeRef_nodeId h
  rw [GraphSpec.nodeRef, Option.map_eq_some_iff] at h
  obtain ⟨node, hfind, href⟩ := h
  refine ⟨node, hfind, ?_⟩
  rw [contractOf, hid, hfind, Option.filter_some, href]
  simp

/-- The bindings of a receipt to the sealed attempt it is about. -/
structure Binds (node : NodeSpec) (receipt : VerifierReceipt) (attempt : Attempt)
    (result : ResultRef) : Prop where
  verifier : receipt.verifier = node.acceptance.verifier
  policy : receipt.policyRef = node.acceptance.policyRef
  completed : attempt.completedResult = some result
  resultDigest : receipt.resultDigest = result.digest
  subject : ∀ t, frozenSubject attempt = some t → receipt.subject = t
  context : attemptContextDigest rt node receipt.attempt attempt receipt.resultDigest =
    .ok receipt.contextDigest

/-- Everything a successful admission checked and wrote. -/
structure Admitted (s : Store) (spec : GraphSpec) (run : GraphRun) (receipt : VerifierReceipt)
    (now : Timestamp) (s' : Store) (node : NodeSpec) (attempt : Attempt) (result : ResultRef)
    (st : RunState) (state : NodeState) : Prop where
  runId_eq : receipt.attempt.runId = run.runId
  node_eq : spec.findNode receipt.attempt.node.nodeId = some node
  nodeRef_eq : spec.nodeRef receipt.attempt.node.nodeId = some receipt.attempt.node
  attempt_eq : s.attempt run.runId receipt.attempt.node.nodeId receipt.attempt.number.get =
    .ok (some attempt)
  binds : Binds rt node receipt attempt result
  replayed : RunState.replay run.runId spec (s.eventsOf run.runId) = .ok st
  state_eq : st.node receipt.attempt.node.nodeId = some state
  checking : state.checking = true
  current : state.currentAttempt = some receipt.attempt.number
  rechecked : receipt.verdict = .accept →
    DependencyService.recheckRefs { spec := spec, run := run, state := st, store := s, now := now }
      receipt.attempt.node.nodeId attempt.dependencyReceipts = .ok ()
  idFree : ∀ q ∈ s.receipts, q.attempt.runId = receipt.attempt.runId → q.id ≠ receipt.id
  store_eq : s' = { s with
    receipts := s.receipts ++ [receipt]
    events := s.events ++ [s.nextEvent receipt.attempt.runId (some receipt.attempt.node.nodeId)
      kinds.receiptAdmitted (admittedPayload receipt)] }

theorem checkSubject_eq_ok {attempt : Attempt} {receipt : VerifierReceipt} {u : Unit} :
    checkSubject attempt receipt = .ok u ↔
      ∀ t, frozenSubject attempt = some t → receipt.subject = t := by
  unfold checkSubject
  cases frozenSubject attempt with
  | none => simp
  | some t =>
    rw [guardOk_eq_ok, decide_eq_true_eq]
    constructor
    · intro h x hx
      cases hx
      exact h.symm
    · intro h
      exact (h t rfl).symm

theorem checkReceipt_ok {spec : GraphSpec} {run : GraphRun} {receipt : VerifierReceipt}
    {now : Timestamp} {node : NodeSpec} (h : checkReceipt spec run receipt now = .ok node) :
    receipt.attempt.runId = run.runId ∧ contractOf spec receipt.attempt.node = some node ∧
      receipt.verifier = node.acceptance.verifier ∧
      receipt.policyRef = node.acceptance.policyRef := by
  unfold checkReceipt at h
  obtain ⟨_, -, h⟩ := bind_ok h
  obtain ⟨_, hrun, h⟩ := bind_ok h
  obtain ⟨node', hnode, h⟩ := bind_ok h
  obtain ⟨_, hver, h⟩ := bind_ok h
  obtain ⟨_, hpol, h⟩ := bind_ok h
  obtain ⟨_, -, h⟩ := bind_ok h
  cases h
  have hrun' := guardOk_ok hrun
  have hver' := guardOk_ok hver
  have hpol' := guardOk_ok hpol
  simp only [decide_eq_true_eq] at hrun' hver' hpol'
  exact ⟨hrun', someOr_ok hnode, hver', hpol'⟩

theorem checkSealed_ok {s : Store} {run : GraphRun} {node : NodeSpec} {receipt : VerifierReceipt}
    {attempt : Attempt} (hv : receipt.verifier = node.acceptance.verifier)
    (hp : receipt.policyRef = node.acceptance.policyRef)
    (h : checkSealed rt s run node receipt = .ok attempt) :
    s.attempt run.runId receipt.attempt.node.nodeId receipt.attempt.number.get =
      .ok (some attempt) ∧ ∃ result, Binds rt node receipt attempt result := by
  unfold checkSealed at h
  obtain ⟨_, -, h⟩ := bind_ok h
  obtain ⟨_, -, h⟩ := bind_ok h
  obtain ⟨sealedRow, hsealed, h⟩ := bind_ok h
  obtain ⟨attempt', hattempt, h⟩ := bind_ok h
  obtain ⟨result, hresult, h⟩ := bind_ok h
  obtain ⟨_, hdigest, h⟩ := bind_ok h
  obtain ⟨_, hsubject, h⟩ := bind_ok h
  obtain ⟨context, hcontext, h⟩ := bind_ok h
  obtain ⟨_, hmatch, h⟩ := bind_ok h
  cases h
  have hrow := mapError_ok hsealed
  rw [someOr_ok hattempt] at hrow
  have hd := guardOk_ok hdigest
  have hm := guardOk_ok hmatch
  simp only [decide_eq_true_eq] at hd hm
  refine ⟨hrow, result, ?_⟩
  exact { verifier := hv
          policy := hp
          completed := someOr_ok hresult
          resultDigest := hd
          subject := checkSubject_eq_ok.mp hsubject
          context := by rw [hd, ← hm]; exact mapError_ok hcontext }

theorem isChecking_eq_true {state : Option NodeState} {number : AttemptNumber} :
    isChecking state number = true ↔
      ∃ s, state = some s ∧ s.checking = true ∧ s.currentAttempt = some number := by
  cases state with
  | none => simp [isChecking]
  | some s => simp [isChecking]

/-- A free id and a sealed attempt let the receipt row in, if it fits. -/
theorem insertReceipt_eq_ok {s s' : Store} {receipt : VerifierReceipt}
    (hattempt : s.attempts.any (fun a => a.runId = receipt.attempt.runId ∧
      a.node.nodeId = receipt.attempt.node.nodeId ∧ a.number = receipt.attempt.number) = true)
    (hfree : s.receipt receipt.attempt.runId receipt.id.text = .ok none) :
    s.insertReceipt rt receipt = .ok s' ↔
      (rt.text receipt.toJson).utf8ByteSize ≤ maxRecordLen ∧
      s' = { s with receipts := s.receipts ++ [receipt] } := by
  have hunique : (!s.receipts.any (fun q =>
      q.attempt.runId = receipt.attempt.runId ∧ q.id = receipt.id)) = true := by
    have hnone := Store.readOptional_none hfree
    rw [List.find?_eq_none] at hnone
    rw [Bool.not_eq_true', List.any_eq_false]
    intro q hq hsame
    simp only [decide_eq_true_eq] at hsame
    refine hnone q hq ?_
    rw [decide_eq_true_eq]
    exact ⟨hsame.1, congrArg Identifier.text hsame.2⟩
  unfold Store.insertReceipt
  simp only [bind_eq_ok, Store.jsonLenChecked_eq_ok, guardOk_eq_ok, hattempt, hunique, if_true,
    exists_const, true_and, Except.ok.injEq]
  exact and_congr_right (fun _ => eq_comm)

/-- The expiry test of a receipt. -/
theorem unexpired_iff {validUntil : Option Timestamp} {now : Timestamp} :
    (match validUntil with
      | some t => !t.isBefore now
      | none => true) = true ↔ ∀ t, validUntil = some t → t.isBefore now = false := by
  cases validUntil with
  | none => simp
  | some t => simp

/-- The event of a receipt just inserted is allowed. -/
theorem admitted_allowed {s : Store} {receipt : VerifierReceipt}
    (hknown : s.hasRun receipt.attempt.runId = true) :
    Store.eventAllowed { s with receipts := s.receipts ++ [receipt] } receipt.attempt.runId
      kinds.receiptAdmitted (admittedPayload receipt) = true := by
  have hexists : Store.receiptRowExists { s with receipts := s.receipts ++ [receipt] }
      receipt.attempt.runId (admittedPayload receipt) = true := by
    simp only [Store.receiptRowExists, admittedPayload, Json.get_obj, List.lookup_cons,
      Identifier.toJson, beq_self_eq_true, List.any_append, List.any_cons, and_self,
      decide_true, Bool.true_or, Bool.or_true]
  unfold Store.eventAllowed
  rw [hexists, Bool.or_true, Bool.and_true]
  exact hknown

theorem admitReceipt_ok {s s' : Store} {spec : GraphSpec} {run : GraphRun}
    {receipt : VerifierReceipt} {now : Timestamp} {u : Unit}
    (h : admitReceipt rt s spec run receipt now = .ok (u, s')) :
    ∃ node attempt result st state,
      Admitted rt s spec run receipt now s' node attempt result st state := by
  unfold admitReceipt at h
  obtain ⟨node, hnode, h⟩ := bind_ok h
  obtain ⟨attempt, hattempt, h⟩ := bind_ok h
  obtain ⟨st, hst, h⟩ := bind_ok h
  obtain ⟨_, hchecking, h⟩ := bind_ok h
  obtain ⟨_, hdeps, h⟩ := bind_ok h
  obtain ⟨s₁, hs₁, h⟩ := bind_ok h
  obtain ⟨s₂, hs₂, h⟩ := bind_ok h
  cases h
  obtain ⟨hrun, hcontract, hver, hpol⟩ := checkReceipt_ok hnode
  obtain ⟨hrow, result, hbinds⟩ := checkSealed_ok rt hver hpol hattempt
  obtain ⟨state, hstate, hcheck, hcur⟩ := isChecking_eq_true.mp (guardOk_ok hchecking)
  obtain ⟨hfree, rfl⟩ := Store.insertReceipt_ok rt (mapError_ok hs₁)
  obtain ⟨-, rfl⟩ := Store.appendEvent_ok rt (mapError_ok hs₂)
  refine ⟨node, attempt, result, st, state, ?_⟩
  exact { runId_eq := hrun
          node_eq := (contractOf_some hcontract).1
          nodeRef_eq := contractOf_nodeRef hcontract
          attempt_eq := hrow
          binds := hbinds
          replayed := mapError_ok hst
          state_eq := hstate
          checking := hcheck
          current := hcur
          rechecked := by
            intro hv
            unfold checkDependencies at hdeps
            rw [if_pos hv] at hdeps
            exact mapError_ok hdeps
          idFree := hfree
          store_eq := rfl }

end Receipts

end Checkspan
