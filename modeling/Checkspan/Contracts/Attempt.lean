import Checkspan.Contracts.Node

/-!
# Attempts, evidence and verifier receipts

`src/contracts/attempt.rs`, `src/contracts/evidence.rs` and the record kinds of
`src/contracts/record.rs`: what was executed on which exact inputs, and what
the designated verifier concluded about the exact result.
-/

namespace Checkspan

/-- Kind of a top-level record (`record.rs:11-33`). -/
inductive RecordKind where
  | graphSpec
  | graphRun
  | attempt
  | verifierReceipt
  | gatePacket
  | gateDecision
  | nodeView
  | patchResult
  | softwareCheckResult
deriving DecidableEq

def RecordKind.asStr : RecordKind → String
  | graphSpec => "graph_spec"
  | graphRun => "graph_run"
  | attempt => "attempt"
  | verifierReceipt => "verifier_receipt"
  | gatePacket => "gate_packet"
  | gateDecision => "gate_decision"
  | nodeView => "node_view"
  | patchResult => "patch_result"
  | softwareCheckResult => "software_check_result"

/-- The self-describing header of a record: its kind and schema version, as
written. -/
structure RecordHeader where
  record : RecordKind
  schemaVersion : Nat
deriving DecidableEq

/-- The header test of `parse_record_value` (`record.rs:155-174`): every record
type of this build has version 1. -/
def RecordHeader.isFor (h : RecordHeader) (kind : RecordKind) : Bool :=
  h.record = kind && h.schemaVersion = 1

def RecordHeader.fields (h : RecordHeader) : List (String × Json) :=
  [("record", .str h.record.asStr), ("schema_version", .num h.schemaVersion)]

/-! ### References -/

/-- Exact reference to one attempt (`attempt.rs:19-29`). -/
structure AttemptRef where
  runId : RunId
  node : NodeRef
  number : AttemptNumber
deriving DecidableEq

def AttemptRef.display (a : AttemptRef) : String :=
  a.runId.text ++ "/" ++ a.node.display ++ "#" ++ a.number.display

def AttemptRef.toJson (a : AttemptRef) : Json :=
  .obj [("run_id", a.runId.toJson), ("node", a.node.toJson), ("number", a.number.toJson)]

/-- Reference to a verifier receipt (`attempt.rs:37-47`). -/
structure ReceiptRef where
  id : Ident
  runId : RunId
  node : NodeRef
deriving DecidableEq

def ReceiptRef.display (r : ReceiptRef) : String :=
  r.id.text ++ " (" ++ r.runId.text ++ "/" ++ r.node.display ++ ")"

def ReceiptRef.toJson (r : ReceiptRef) : Json :=
  .obj [("id", r.id.toJson), ("run_id", r.runId.toJson), ("node", r.node.toJson)]

/-! ### Evidence (`src/contracts/evidence.rs`) -/

/-- Who produced a piece of evidence. -/
structure EvidenceProvenance where
  producer : String
  attestationRef : Option String
deriving DecidableEq

def EvidenceProvenance.toJson (p : EvidenceProvenance) : Json :=
  .obj (("producer", .str p.producer) ::
    Json.optField "attestation_ref" (p.attestationRef.map .str))

/-- Evidence resolved for one port of one attempt. -/
structure EvidenceRef where
  portName : Ident
  locator : String
  subject : String
  version : String
  contentDigest : Digest
  provenance : EvidenceProvenance
  policyRef : PolicyRef
  validUntil : Option Timestamp
deriving DecidableEq

def EvidenceRef.toJson (e : EvidenceRef) : Json :=
  .obj ([("port_name", e.portName.toJson), ("locator", .str e.locator),
    ("subject", .str e.subject), ("version", .str e.version),
    ("content_digest", e.contentDigest.toJson), ("provenance", e.provenance.toJson),
    ("policy_ref", e.policyRef.toJson)] ++
    Json.optField "valid_until" (e.validUntil.map (·.toJson)))

/-! ### Attempts -/

/-- How an attempt's execution ended. None of these is a verdict. -/
inductive ExecutionOutcome where
  | completed
  | failed
  | timedOut
  | cancelled
deriving DecidableEq

def ExecutionOutcome.asStr : ExecutionOutcome → String
  | completed => "completed"
  | failed => "failed"
  | timedOut => "timed_out"
  | cancelled => "cancelled"

def ExecutionOutcome.toJson (o : ExecutionOutcome) : Json := .str o.asStr

/-- Execution record of a finished attempt (`attempt.rs:93-105`). -/
structure Execution where
  outcome : ExecutionOutcome
  errorCode : Option Ident
  errorText : Option String
deriving DecidableEq

def Execution.toJson (e : Execution) : Json :=
  .obj (("outcome", e.outcome.toJson) ::
    (Json.optField "error_code" (e.errorCode.map (·.toJson)) ++
      Json.optField "error_text" (e.errorText.map .str)))

/-- The candidate an attempt produced (`attempt.rs:107-118`). -/
structure ResultRef where
  resultType : TypeRef
  artifactRef : String
  digest : Digest
deriving DecidableEq

def ResultRef.toJson (r : ResultRef) : Json :=
  .obj [("type", r.resultType.toJson), ("artifact_ref", .str r.artifactRef),
    ("digest", r.digest.toJson)]

/-- One attempt of one node within one run (`attempt.rs:120-168`). -/
structure Attempt extends RecordHeader where
  runId : RunId
  node : NodeRef
  number : AttemptNumber
  owner : String
  startedAt : Timestamp
  finishedAt : Option Timestamp
  repairHint : Option String
  inputManifest : List EvidenceRef
  dependencyReceipts : List ReceiptRef
  result : Option ResultRef
  producedEvidence : List EvidenceRef
  execution : Option Execution
  verifierReceipt : Option ReceiptRef
deriving DecidableEq

namespace Attempt

def toJson (a : Attempt) : Json :=
  .obj (a.toRecordHeader.fields ++ [("run_id", a.runId.toJson), ("node", a.node.toJson),
    ("number", a.number.toJson), ("owner", .str a.owner), ("started_at", a.startedAt.toJson)] ++
    Json.optField "finished_at" (a.finishedAt.map (·.toJson)) ++
    Json.optField "repair_hint" (a.repairHint.map .str) ++
    Json.listField "input_manifest" (a.inputManifest.map (·.toJson)) ++
    Json.listField "dependency_receipts" (a.dependencyReceipts.map (·.toJson)) ++
    Json.optField "result" (a.result.map (·.toJson)) ++
    Json.listField "produced_evidence" (a.producedEvidence.map (·.toJson)) ++
    Json.optField "execution" (a.execution.map (·.toJson)) ++
    Json.optField "verifier_receipt" (a.verifierReceipt.map (·.toJson)))

/-- `attempt_ref` (`attempt.rs:246-252`). -/
def attemptRef (a : Attempt) : AttemptRef := ⟨a.runId, a.node, a.number⟩

/-- The sealed result, when execution completed with one: the match made by both
`issue` and `admit` (`src/receipts/mod.rs`). -/
def completedResult (a : Attempt) : Option ResultRef :=
  match a.execution, a.result with
  | some execution, some result =>
    if execution.outcome = .completed then some result else none
  | _, _ => none

theorem completedResult_some {a : Attempt} {r : ResultRef} (h : a.completedResult = some r) :
    a.result = some r ∧ ∃ e, a.execution = some e ∧ e.outcome = .completed := by
  unfold completedResult at h
  split at h
  · rename_i e r' he hr
    split at h
    · rename_i hc
      cases h
      exact ⟨hr, e, he, hc⟩
    · cases h
  · cases h

end Attempt

/-- A binding rule of the record alone that an attempt breaks. -/
inductive AttemptError where
  | emptyOwner
  | finishedWithoutExecution
  | executionWithoutFinish
  | resultWithoutExecution
  | receiptWithoutResult
  | receiptRequiresCompletedExecution (found : Option ExecutionOutcome)
  | receiptForOtherNode (receipt : ReceiptRef)
  | receiptForOtherRun (receipt : ReceiptRef)
  | duplicateDependencyReceipt (id : Ident)
  | duplicateInputPort (port : Ident)
deriving DecidableEq

def AttemptError.display : AttemptError → String
  | emptyOwner => "owner is empty"
  | finishedWithoutExecution => "finished_at is set without an execution record"
  | executionWithoutFinish => "execution is recorded without finished_at"
  | resultWithoutExecution => "a result exists for an attempt that has not finished"
  | receiptWithoutResult => "a verifier receipt is referenced but there is no result"
  | receiptRequiresCompletedExecution o =>
    "a verifier receipt requires completed execution, found " ++
      (match o with
        | some outcome => outcome.asStr
        | none => "none")
  | receiptForOtherNode r => "verifier receipt " ++ r.display ++ " is about another node"
  | receiptForOtherRun r => "verifier receipt " ++ r.display ++ " was issued in another run"
  | duplicateDependencyReceipt id => "dependency receipt Ident(" ++ id.text.quote ++
      ") is pinned more than once"
  | duplicateInputPort port => "input manifest satisfies port Ident(" ++ port.text.quote ++
      ") more than once"

namespace Attempt

def finishErrors (a : Attempt) : List AttemptError :=
  match a.finishedAt, a.execution with
  | some _, none => [.finishedWithoutExecution]
  | none, some _ => [.executionWithoutFinish]
  | _, _ => []

def receiptErrors (a : Attempt) : List AttemptError :=
  match a.verifierReceipt with
  | none => []
  | some receipt =>
    let outcome := a.execution.map (·.outcome)
    (if a.result.isNone then [.receiptWithoutResult] else []) ++
    (if outcome ≠ some .completed then [.receiptRequiresCompletedExecution outcome] else []) ++
    (if receipt.node ≠ a.node then [.receiptForOtherNode receipt] else []) ++
    (if receipt.runId ≠ a.runId then [.receiptForOtherRun receipt] else [])

/-- `check_bindings` (`attempt.rs:250-292`). -/
def checkBindings (a : Attempt) : List AttemptError :=
  (if isBlank a.owner then [.emptyOwner] else []) ++
  a.finishErrors ++
  (if a.result.isSome && a.execution.isNone then [.resultWithoutExecution] else []) ++
  a.receiptErrors ++
  (repeats (a.dependencyReceipts.map (·.id))).map .duplicateDependencyReceipt ++
  (repeats (a.inputManifest.map (·.portName))).map .duplicateInputPort

/-- The verifier receipt the record names, if any, is about its node and run, and
about the result of a completed execution. -/
def ReceiptFits (a : Attempt) : Prop :=
  ∀ receipt, a.verifierReceipt = some receipt → a.result.isSome = true ∧
    a.execution.map (·.outcome) = some .completed ∧ receipt.node = a.node ∧ receipt.runId = a.runId

theorem receiptErrors_eq_nil (a : Attempt) : a.receiptErrors = [] ↔ a.ReceiptFits := by
  unfold receiptErrors ReceiptFits
  cases h : a.verifierReceipt with
  | none => simp
  | some receipt =>
    have hresult : a.result = none ↔ ¬ a.result.isSome = true := by simp
    simp only [List.append_eq_nil_iff, ite_eq_right_iff, List.cons_ne_nil, imp_false,
      Option.isNone_iff_eq_none, hresult, Decidable.not_not, ne_eq, Option.some.injEq, forall_eq',
      and_assoc]

theorem finishErrors_eq_nil (a : Attempt) :
    a.finishErrors = [] ↔ a.finishedAt.isSome = a.execution.isSome := by
  unfold finishErrors
  cases a.finishedAt <;> cases a.execution <;> simp

/-- The rules of a finished attempt. -/
theorem checkBindings_eq_nil {a : Attempt} (h : a.execution.isSome = true) :
    a.checkBindings = [] ↔ isBlank a.owner = false ∧ a.finishedAt.isSome = true ∧ a.ReceiptFits ∧
      (a.dependencyReceipts.map (·.id)).Nodup ∧ (a.inputManifest.map (·.portName)).Nodup := by
  have hexec : a.execution.isNone = false := by
    rw [Option.isNone_eq_false_iff]
    exact h
  simp only [checkBindings, List.append_eq_nil_iff, List.map_eq_nil_iff, repeats_eq_nil,
    receiptErrors_eq_nil, finishErrors_eq_nil, h, hexec, ite_eq_right_iff, List.cons_ne_nil,
    imp_false, Bool.not_eq_true, Bool.and_false, Bool.false_eq_true, not_false_eq_true, and_true,
    and_assoc]

end Attempt

/-! ### Verifier receipts -/

/-- What the verifier concluded. -/
inductive Verdict where
  | accept
  | reject
  | undecidable
deriving DecidableEq

def Verdict.asStr : Verdict → String
  | accept => "accept"
  | reject => "reject"
  | undecidable => "undecidable"

def Verdict.toJson (v : Verdict) : Json := .str v.asStr

/-- How strongly a record's issuer is authenticated. -/
inductive ProvenanceLevel where
  | localController
  | authenticatedUpstream
  | signedOperator
deriving DecidableEq

def ProvenanceLevel.asStr : ProvenanceLevel → String
  | localController => "local_controller"
  | authenticatedUpstream => "authenticated_upstream"
  | signedOperator => "signed_operator"

/-- Who issued a receipt and how that is authenticated. -/
structure ReceiptProvenance where
  level : ProvenanceLevel
  issuer : String
  attestationRef : Option String
deriving DecidableEq

def ReceiptProvenance.toJson (p : ReceiptProvenance) : Json :=
  .obj ([("level", .str p.level.asStr), ("issuer", .str p.issuer)] ++
    Json.optField "attestation_ref" (p.attestationRef.map .str))

/-- How long and under what conditions a receipt stays admissible. -/
structure Validity where
  validUntil : Option Timestamp
  conditions : List String
deriving DecidableEq

def Validity.toJson (v : Validity) : Json :=
  .obj (Json.optField "valid_until" (v.validUntil.map (·.toJson)) ++
    Json.listField "conditions" (v.conditions.map .str))

/-- A verifier's verdict about one exact attempt result (`attempt.rs:374-420`). -/
structure VerifierReceipt extends RecordHeader where
  id : Ident
  attempt : AttemptRef
  subject : String
  resultDigest : Digest
  contextDigest : Digest
  verifier : VerifierRef
  policyRef : PolicyRef
  verdict : Verdict
  reasonCode : Option Ident
  reasonText : Option String
  retryHint : Option String
  checkedAt : Timestamp
  validity : Validity
  provenance : ReceiptProvenance
deriving DecidableEq

/-- A binding rule of the record alone that a receipt breaks. -/
inductive ReceiptError where
  | emptySubject
  | emptyIssuer
  | missingReasonCode (verdict : Verdict)
  | retryHintOnAccept
deriving DecidableEq

def ReceiptError.display : ReceiptError → String
  | emptySubject => "subject is empty"
  | emptyIssuer => "provenance.issuer is empty"
  | missingReasonCode v => "a " ++ v.asStr ++ " verdict requires a reason_code"
  | retryHintOnAccept => "an accept verdict cannot carry a retry_hint"

namespace VerifierReceipt

def toJson (r : VerifierReceipt) : Json :=
  .obj (r.toRecordHeader.fields ++ [("id", r.id.toJson), ("attempt", r.attempt.toJson),
    ("subject", .str r.subject), ("result_digest", r.resultDigest.toJson),
    ("context_digest", r.contextDigest.toJson), ("verifier", r.verifier.toJson),
    ("policy_ref", r.policyRef.toJson), ("verdict", r.verdict.toJson)] ++
    Json.optField "reason_code" (r.reasonCode.map (·.toJson)) ++
    Json.optField "reason_text" (r.reasonText.map .str) ++
    Json.optField "retry_hint" (r.retryHint.map .str) ++
    [("checked_at", r.checkedAt.toJson), ("validity", r.validity.toJson),
      ("provenance", r.provenance.toJson)])

/-- `receipt_ref` (`attempt.rs:490-496`). -/
def receiptRef (r : VerifierReceipt) : ReceiptRef := ⟨r.id, r.attempt.runId, r.attempt.node⟩

/-- `check_bindings` (`attempt.rs:498-520`). -/
def checkBindings (r : VerifierReceipt) : List ReceiptError :=
  (if isBlank r.subject then [.emptySubject] else []) ++
  (if isBlank r.provenance.issuer then [.emptyIssuer] else []) ++
  (match r.verdict with
    | .accept => if r.retryHint.isSome then [.retryHintOnAccept] else []
    | .reject => if r.reasonCode.isNone then [.missingReasonCode r.verdict] else []
    | .undecidable => if r.reasonCode.isNone then [.missingReasonCode r.verdict] else [])

end VerifierReceipt

end Checkspan
