import Checkspan.Lib.Fields
import Checkspan.Contracts.Graph
import Checkspan.Contracts.View
import Checkspan.Contracts.Software

/-!
# The contract types as JSON

The `Serialize` and `Deserialize` sides of the types in `src/contracts`, field by field as
their attributes have it. Every structure refuses unknown fields. What `serde_json` says about
a document it refuses is not kept.
-/

namespace Checkspan

open Json (Codec Shape listField_eq)

/-! ### Identity primitives (`src/contracts/ids.rs`, `patch.rs:21-60`) -/

def Identifier.codec (k : IdKind) : Codec (Identifier k) :=
  .text (fun s => (Identifier.new k s).toOption) text fun a => by simp [Except.toOption]

def GraphId.codec : Codec GraphId := Identifier.codec .graphId
def NodeId.codec : Codec NodeId := Identifier.codec .nodeId
def RunId.codec : Codec RunId := Identifier.codec .runId
def Ident.codec : Codec Ident := Identifier.codec .identifier

def PositiveU32.codec (kind : String) : Codec PositiveU32 :=
  .fin (2 ^ 32) (fun n => (PositiveU32.new kind n.val n.isLt).toOption) (fun a => ⟨a.get, a.bound⟩)
    fun a => by
      rw [PositiveU32.new, dif_pos a.pos]
      rfl

def Revision.codec : Codec Revision := PositiveU32.codec "revision"
def Version.codec : Codec Version := PositiveU32.codec "version"
def AttemptNumber.codec : Codec AttemptNumber := PositiveU32.codec "attempt number"

def Digest.codec : Codec Digest :=
  .text (fun s => (Digest.new s).toOption) text fun a => by simp [Except.toOption]

def Timestamp.codec : Codec Timestamp :=
  .text (fun s => (Timestamp.new s).toOption) text fun a => by
    rw [Timestamp.new, dif_pos a.valid]
    rfl

def CommitId.codec : Codec CommitId :=
  .text (fun s => (CommitId.new s).toOption) text fun a => by simp [Except.toOption]

def u32 : Codec (Fin (2 ^ 32)) := .fin (2 ^ 32) some id fun _ => rfl

def u64 : Codec UInt64 := .fin (2 ^ 64) (fun n => some (.ofFin n)) UInt64.toFin fun _ => rfl

/-- `Exactly<V>` (`ids.rs:216-248`). -/
def exactly (v : Fin (2 ^ 32)) : Codec Unit :=
  .fin (2 ^ 32) (fun found => if found = v then some () else none) (fun _ => v) fun _ => by simp

/-! ### References -/

def GraphRef.codec : Codec GraphRef :=
  Shape.start GraphRef.mk
    |>.field "graph_id" GraphId.codec.required GraphRef.graphId
    |>.field "revision" Revision.codec.required GraphRef.revision
    |>.codec GraphRef.toJson

def NodeRef.codec : Codec NodeRef :=
  Shape.start NodeRef.mk
    |>.field "graph_id" GraphId.codec.required NodeRef.graphId
    |>.field "node_id" NodeId.codec.required NodeRef.nodeId
    |>.field "revision" Revision.codec.required NodeRef.revision
    |>.codec NodeRef.toJson

def TypeRef.codec : Codec TypeRef :=
  Shape.start TypeRef.mk
    |>.field "schema_id" Ident.codec.required TypeRef.schemaId
    |>.field "version" Version.codec.required TypeRef.version
    |>.field "digest" Digest.codec.required TypeRef.digest
    |>.codec TypeRef.toJson

def VerifierRef.codec : Codec VerifierRef :=
  Shape.start VerifierRef.mk
    |>.field "id" Ident.codec.required VerifierRef.id
    |>.field "version" Version.codec.required VerifierRef.version
    |>.field "digest" Digest.codec.required VerifierRef.digest
    |>.codec VerifierRef.toJson

def PolicyRef.codec : Codec PolicyRef :=
  Shape.start PolicyRef.mk
    |>.field "id" Ident.codec.required PolicyRef.id
    |>.field "version" Version.codec.required PolicyRef.version
    |>.codec PolicyRef.toJson

def AttemptRef.codec : Codec AttemptRef :=
  Shape.start AttemptRef.mk
    |>.field "run_id" RunId.codec.required AttemptRef.runId
    |>.field "node" NodeRef.codec.required AttemptRef.node
    |>.field "number" AttemptNumber.codec.required AttemptRef.number
    |>.codec AttemptRef.toJson

def ReceiptRef.codec : Codec ReceiptRef :=
  Shape.start ReceiptRef.mk
    |>.field "id" Ident.codec.required ReceiptRef.id
    |>.field "run_id" RunId.codec.required ReceiptRef.runId
    |>.field "node" NodeRef.codec.required ReceiptRef.node
    |>.codec ReceiptRef.toJson

/-! ### Node contracts -/

def NodeKind.codec : Codec NodeKind :=
  .variant [.task, .check, .humanGate, .sink] asStr fun a => by cases a <;> rfl

def PortKind.codec : Codec PortKind :=
  .variant [.rag, .human, .logs, .code, .proofs] asStr fun a => by cases a <;> rfl

def FailureClass.codec : Codec FailureClass :=
  .variant [.rejected, .infrastructure, .timeout] asStr fun a => by cases a <;> rfl

def OnExhaustion.codec : Codec OnExhaustion :=
  .variant [.gate, .cancel] asStr fun a => by cases a <;> rfl

def ResourceAccess.codec : Codec ResourceAccess :=
  .variant [.exclusive, .shared] asStr fun a => by cases a <;> rfl

def Dependency.codec : Codec Dependency :=
  Shape.start Dependency.mk
    |>.field "node" NodeRef.codec.required Dependency.node
    |>.field "output_port" Ident.codec.required Dependency.outputPort
    |>.field "expected_type" TypeRef.codec.required Dependency.expectedType
    |>.codec Dependency.toJson

def PortSpec.codec : Codec PortSpec :=
  Shape.start PortSpec.mk
    |>.field "name" Ident.codec.required PortSpec.name
    |>.field "kind" PortKind.codec.required PortSpec.kind
    |>.field "expected_type" TypeRef.codec.required PortSpec.expectedType
    |>.field "required" Codec.bool.required PortSpec.required
    |>.field "allowed_source_scope" Codec.string.list.required PortSpec.allowedSourceScope
    |>.field "handling_policy_ref" PolicyRef.codec.required PortSpec.handlingPolicyRef
    |>.codec PortSpec.toJson

def AcceptanceSpec.codec : Codec AcceptanceSpec :=
  Shape.start AcceptanceSpec.mk
    |>.field "claim" Codec.string.required AcceptanceSpec.claim
    |>.field "required_checks" Ident.codec.list.required AcceptanceSpec.requiredChecks
    |>.field "verifier" VerifierRef.codec.required AcceptanceSpec.verifier
    |>.field "policy_ref" PolicyRef.codec.required AcceptanceSpec.policyRef
    |>.codec AcceptanceSpec.toJson

def RetryPolicy.default : RetryPolicy :=
  { maxAttempts := 3, allowedFailureClasses := [.rejected, .infrastructure, .timeout]
    onExhaustion := .gate, bound := by decide }

def RetryPolicy.codec : Codec RetryPolicy :=
  Shape.start (fun _ attempts classes exhaustion => RetryPolicy.mk attempts.val classes exhaustion
      attempts.isLt)
    |>.field "version" (exactly 1).required (fun _ => ())
    |>.field "max_attempts" u32.required (fun p => ⟨p.maxAttempts, p.bound⟩)
    |>.field "allowed_failure_classes" FailureClass.codec.list.required
      RetryPolicy.allowedFailureClasses
    |>.field "on_exhaustion" OnExhaustion.codec.required RetryPolicy.onExhaustion
    |>.codec RetryPolicy.toJson

def ResourceClaim.codec : Codec ResourceClaim :=
  Shape.start ResourceClaim.mk
    |>.field "resource" Ident.codec.required ResourceClaim.resource
    |>.field "access" ResourceAccess.codec.required ResourceClaim.access
    |>.codec ResourceClaim.toJson

def NodeSpec.shape : Shape NodeSpec NodeSpec :=
  Shape.start NodeSpec.mk
    |>.field "id" NodeId.codec.required NodeSpec.id
    |>.field "revision" Revision.codec.required NodeSpec.revision
    |>.field "kind" NodeKind.codec.required NodeSpec.kind
    |>.field "display_name" Codec.string.optional NodeSpec.displayName
    |>.field "prompt" Codec.string.required NodeSpec.prompt
    |>.field "deps" Dependency.codec.listed NodeSpec.deps
    |>.field "evidence_ports" PortSpec.codec.listed NodeSpec.evidencePorts
    |>.field "result_type" TypeRef.codec.required NodeSpec.resultType
    |>.field "acceptance" AcceptanceSpec.codec.required NodeSpec.acceptance
    |>.field "retry_policy" (RetryPolicy.codec.defaulted RetryPolicy.default) NodeSpec.retryPolicy
    |>.field "authority_policy_ref" PolicyRef.codec.required NodeSpec.authorityPolicyRef
    |>.field "resource_scope" ResourceClaim.codec.listed NodeSpec.resourceScope
    |>.field "supersedes" NodeRef.codec.optional NodeSpec.supersedes

theorem NodeSpec.written : NodeSpec.shape.WrittenBy NodeSpec.toJson := by
  intro n
  refine ⟨_, rfl, ?_⟩
  simp only [listField_eq, List.append_assoc]
  rfl

def NodeSpec.codec : Codec NodeSpec := NodeSpec.shape.codec toJson written

/-! ### Graphs and runs -/

def GraphBudget.codec : Codec GraphBudget :=
  Shape.start (fun attempts deadline => GraphBudget.mk attempts.val deadline attempts.isLt)
    |>.field "total_attempts" u32.required (fun b => ⟨b.totalAttempts, b.bound⟩)
    |>.field "deadline" Timestamp.codec.optional GraphBudget.deadline
    |>.codec GraphBudget.toJson

def ImportedReceipt.codec : Codec ImportedReceipt :=
  Shape.start ImportedReceipt.mk
    |>.field "node_id" NodeId.codec.required ImportedReceipt.nodeId
    |>.field "receipt" ReceiptRef.codec.required ImportedReceipt.receipt
    |>.field "result_digest" Digest.codec.required ImportedReceipt.resultDigest
    |>.field "result_type" TypeRef.codec.required ImportedReceipt.resultType
    |>.field "subject" Codec.string.required ImportedReceipt.subject
    |>.field "admitted_at" Timestamp.codec.required ImportedReceipt.admittedAt
    |>.field "valid_until" Timestamp.codec.optional ImportedReceipt.validUntil
    |>.codec ImportedReceipt.toJson

/-! ### Attempts and receipts -/

def ExecutionOutcome.codec : Codec ExecutionOutcome :=
  .variant [.completed, .failed, .timedOut, .cancelled] asStr fun a => by cases a <;> rfl

def Verdict.codec : Codec Verdict :=
  .variant [.accept, .reject, .undecidable] asStr fun a => by cases a <;> rfl

def ProvenanceLevel.codec : Codec ProvenanceLevel :=
  .variant [.localController, .authenticatedUpstream, .signedOperator] asStr
    fun a => by cases a <;> rfl

def EvidenceProvenance.codec : Codec EvidenceProvenance :=
  Shape.start EvidenceProvenance.mk
    |>.field "producer" Codec.string.required EvidenceProvenance.producer
    |>.field "attestation_ref" Codec.string.optional EvidenceProvenance.attestationRef
    |>.codec EvidenceProvenance.toJson

def EvidenceRef.codec : Codec EvidenceRef :=
  Shape.start EvidenceRef.mk
    |>.field "port_name" Ident.codec.required EvidenceRef.portName
    |>.field "locator" Codec.string.required EvidenceRef.locator
    |>.field "subject" Codec.string.required EvidenceRef.subject
    |>.field "version" Codec.string.required EvidenceRef.version
    |>.field "content_digest" Digest.codec.required EvidenceRef.contentDigest
    |>.field "provenance" EvidenceProvenance.codec.required EvidenceRef.provenance
    |>.field "policy_ref" PolicyRef.codec.required EvidenceRef.policyRef
    |>.field "valid_until" Timestamp.codec.optional EvidenceRef.validUntil
    |>.codec EvidenceRef.toJson

def Execution.shape : Shape Execution Execution :=
  Shape.start Execution.mk
    |>.field "outcome" ExecutionOutcome.codec.required Execution.outcome
    |>.field "error_code" Ident.codec.optional Execution.errorCode
    |>.field "error_text" Codec.string.optional Execution.errorText

theorem Execution.written : Execution.shape.WrittenBy Execution.toJson := by
  intro e
  refine ⟨_, rfl, ?_⟩
  simp only [List.cons_append, List.append_assoc]
  rfl

def Execution.codec : Codec Execution := Execution.shape.codec toJson written

def ResultRef.codec : Codec ResultRef :=
  Shape.start ResultRef.mk
    |>.field "type" TypeRef.codec.required ResultRef.resultType
    |>.field "artifact_ref" Codec.string.required ResultRef.artifactRef
    |>.field "digest" Digest.codec.required ResultRef.digest
    |>.codec ResultRef.toJson

def ReceiptProvenance.codec : Codec ReceiptProvenance :=
  Shape.start ReceiptProvenance.mk
    |>.field "level" ProvenanceLevel.codec.required ReceiptProvenance.level
    |>.field "issuer" Codec.string.required ReceiptProvenance.issuer
    |>.field "attestation_ref" Codec.string.optional ReceiptProvenance.attestationRef
    |>.codec ReceiptProvenance.toJson

def Validity.shape : Shape Validity Validity :=
  Shape.start Validity.mk
    |>.field "valid_until" Timestamp.codec.optional Validity.validUntil
    |>.field "conditions" Codec.string.listed Validity.conditions

theorem Validity.written : Validity.shape.WrittenBy Validity.toJson := by
  intro v
  refine ⟨_, rfl, ?_⟩
  simp only [listField_eq, List.append_assoc]
  rfl

def Validity.codec : Codec Validity := Validity.shape.codec toJson written

/-! ### Gates and views -/

def NodeStatus.codec : Codec NodeStatus :=
  .variant [.open, .running, .accepted, .rejected, .failed, .gated, .cancelled] asStr
    fun a => by cases a <;> rfl

def DecisionKind.codec : Codec DecisionKind :=
  .variant [.retry, .revise, .cancel, .approveAction, .denyAction, .recordAssessment] asStr
    fun a => by cases a <;> rfl

def GatePurpose.codec : Codec GatePurpose :=
  .variant [.resolveWork, .assessClaims, .authorizeAction] asStr fun a => by cases a <;> rfl

def ActionKind.codec : Codec ActionKind :=
  .variant [.send, .merge, .secretAccess, .pay, .delete] asStr fun a => by cases a <;> rfl

def ContextKind.codec : Codec ContextKind :=
  .variant [.attempt, .receipt, .artifact, .claimMatrix] asStr fun a => by cases a <;> rfl

def AssessmentOutcome.codec : Codec AssessmentOutcome :=
  .variant [.adequateSupport, .inadequateSupport, .cannotDetermine] asStr
    fun a => by cases a <;> rfl

def ActionRequest.codec : Codec ActionRequest :=
  Shape.start ActionRequest.mk
    |>.field "action" ActionKind.codec.required ActionRequest.action
    |>.field "target" Codec.string.required ActionRequest.target
    |>.codec ActionRequest.toJson

def ContextRef.codec : Codec ContextRef :=
  Shape.start ContextRef.mk
    |>.field "kind" ContextKind.codec.required ContextRef.kind
    |>.field "id" Codec.string.required ContextRef.id
    |>.field "digest" Digest.codec.required ContextRef.digest
    |>.codec ContextRef.toJson

def RequestedDecision.codec : Codec RequestedDecision :=
  Shape.start RequestedDecision.mk
    |>.field "options" DecisionKind.codec.list.required RequestedDecision.options
    |>.field "action" ActionRequest.codec.optional RequestedDecision.action
    |>.codec RequestedDecision.toJson

def Assessment.codec : Codec Assessment :=
  Shape.start Assessment.mk
    |>.field "claim_matrix_digest" Digest.codec.required Assessment.claimMatrixDigest
    |>.field "reviewed_claim_ids" Ident.codec.list.required Assessment.reviewedClaimIds
    |>.field "outcome" AssessmentOutcome.codec.required Assessment.outcome
    |>.field "rationale_ref" Codec.string.optional Assessment.rationaleRef
    |>.codec Assessment.toJson

def DecisionScope.codec : Codec DecisionScope :=
  Shape.start DecisionScope.mk
    |>.field "run_id" RunId.codec.required DecisionScope.runId
    |>.field "node" NodeRef.codec.required DecisionScope.node
    |>.field "action" ActionRequest.codec.optional DecisionScope.action
    |>.codec DecisionScope.toJson

def Authority.codec : Codec Authority :=
  Shape.start Authority.mk
    |>.field "identity" Codec.string.required Authority.identity
    |>.field "level" ProvenanceLevel.codec.required Authority.level
    |>.codec Authority.toJson

/-! ### Candidates and checks -/

def CandidateKind.codec : Codec CandidateKind :=
  .variant [.commit, .workingTree] asStr fun a => by cases a <;> rfl

def ChangeKind.codec : Codec ChangeKind :=
  .variant [.added, .modified, .deleted, .untracked] asStr fun a => by cases a <;> rfl

def SoftwareCheckOutcome.codec : Codec SoftwareCheckOutcome :=
  .variant [.passed, .failed, .timedOut] asStr fun a => by cases a <;> rfl

def Conclusion.codec : Codec Conclusion :=
  .variant [.accept, .reject] asStr fun a => by cases a <;> rfl

def Repository.codec : Codec Repository :=
  Shape.start Repository.mk
    |>.field "root_commits" CommitId.codec.list.required Repository.rootCommits
    |>.codec Repository.toJson

def Candidate.codec : Codec Candidate :=
  Shape.start Candidate.mk
    |>.field "kind" CandidateKind.codec.required Candidate.kind
    |>.field "commit" CommitId.codec.required Candidate.commit
    |>.field "patch_digest" Digest.codec.required Candidate.patchDigest
    |>.codec Candidate.toJson

def Change.shape : Shape Change Change :=
  Shape.start Change.mk
    |>.field "path" Codec.string.required Change.path
    |>.field "change" ChangeKind.codec.required Change.change
    |>.field "content_digest" Digest.codec.optional Change.contentDigest
    |>.field "size" u64.optional Change.size

theorem Change.written : Change.shape.WrittenBy Change.toJson := by
  intro c
  refine ⟨_, rfl, ?_⟩
  simp only [List.append_assoc]
  rfl

def Change.codec : Codec Change := Change.shape.codec toJson written

def Tool.codec : Codec Tool :=
  Shape.start Tool.mk
    |>.field "name" Codec.string.required Tool.name
    |>.field "version" Codec.string.required Tool.version
    |>.codec Tool.toJson

def CheckExecution.shape : Shape CheckExecution CheckExecution :=
  Shape.start CheckExecution.mk
    |>.field "id" Ident.codec.required CheckExecution.id
    |>.field "outcome" SoftwareCheckOutcome.codec.required CheckExecution.outcome
    |>.field "exit_code" Codec.int32.optional CheckExecution.exitCode
    |>.field "duration_ms" u64.required CheckExecution.durationMs
    |>.field "stdout_digest" Digest.codec.required CheckExecution.stdoutDigest
    |>.field "stderr_digest" Digest.codec.required CheckExecution.stderrDigest
    |>.field "detail" Codec.string.optional CheckExecution.detail

theorem CheckExecution.written : CheckExecution.shape.WrittenBy CheckExecution.toJson := by
  intro c
  refine ⟨_, rfl, ?_⟩
  simp only [List.append_assoc]
  rfl

def CheckExecution.codec : Codec CheckExecution := CheckExecution.shape.codec toJson written

def EnvironmentInfo.codec : Codec EnvironmentInfo :=
  Shape.start EnvironmentInfo.mk
    |>.field "os" Codec.string.required EnvironmentInfo.os
    |>.field "arch" Codec.string.required EnvironmentInfo.arch
    |>.codec EnvironmentInfo.toJson

end Checkspan
