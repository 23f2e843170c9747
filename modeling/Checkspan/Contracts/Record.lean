import Checkspan.Contracts.Codecs

/-!
# Self-describing records (`src/contracts/record.rs`)

The nine top-level record types, and the parser that checks a document's header before it
reads the body.
-/

namespace Checkspan

open Json (Codec Shape Reader readObject listField_eq)

def RecordKind.codec : Codec RecordKind :=
  .variant [.graphSpec, .graphRun, .attempt, .verifierReceipt, .gatePacket, .gateDecision,
    .nodeView, .patchResult, .softwareCheckResult] asStr fun a => by cases a <;> rfl

/-- The records of a type that carry the kind and version their type demands. -/
abbrev Own {α : Type} (header : α → RecordHeader) (kind : RecordKind) : Type :=
  { a : α // (header a).isFor kind = true }

theorem RecordHeader.isFor_iff {h : RecordHeader} {kind : RecordKind} :
    h.isFor kind = true ↔ h.record = kind ∧ h.schemaVersion = 1 := by
  simp [RecordHeader.isFor]

theorem Own.version_lt {α : Type} {header : α → RecordHeader} {kind : RecordKind}
    (a : Own header kind) : (header a.1).schemaVersion < 2 ^ 32 := by
  rw [(RecordHeader.isFor_iff.mp a.2).2]
  decide

/-- The two header fields, before the constructor takes the others. -/
def headed {α β : Type} {header : α → RecordHeader} {kind : RecordKind} (make : RecordHeader → β) :
    Shape (Own header kind) β :=
  Shape.start (fun record version => make ⟨record, version.val⟩)
    |>.field "record" RecordKind.codec.required (fun a => (header a.1).record)
      (by simp [Shape.start])
    |>.field "schema_version" u32.required (fun a => ⟨(header a.1).schemaVersion, a.version_lt⟩)
      (by simp [Shape.start, Shape.field])

/-- A record type (`record.rs:68-77`), with its fields. `SCHEMA_ID` is not part of reading. -/
class Record (α : Type) where
  kind : RecordKind
  header : α → RecordHeader
  toJson : α → Json
  shape : Shape (Own header kind) α
  written : shape.WrittenBy (fun a => toJson a.1)
  value_eq : ∀ a, shape.value a = a.1
  headed : ∀ a, ∃ rest, toJson a = .obj ((header a).fields ++ rest)

/-! ### The record types -/

def GraphSpec.shape : Shape (Own GraphSpec.toRecordHeader .graphSpec) GraphSpec :=
  headed GraphSpec.mk
    |>.field "graph_id" GraphId.codec.required (·.1.graphId)
    |>.field "revision" Revision.codec.required (·.1.revision)
    |>.field "display_name" Codec.string.optional (·.1.displayName)
    |>.field "nodes" NodeSpec.codec.list.required (·.1.nodes)
    |>.field "targets" NodeRef.codec.list.required (·.1.targets)
    |>.field "budget" GraphBudget.codec.required (·.1.budget)
    |>.field "supersedes" GraphRef.codec.optional (·.1.supersedes)

theorem GraphSpec.written : GraphSpec.shape.WrittenBy (·.1.toJson) := by
  intro g
  refine ⟨_, rfl, ?_⟩
  simp only [List.append_assoc]
  rfl

instance : Record GraphSpec where
  kind := .graphSpec
  header := GraphSpec.toRecordHeader
  toJson := GraphSpec.toJson
  shape := GraphSpec.shape
  written := GraphSpec.written
  value_eq _ := rfl
  headed _ := ⟨_, rfl⟩

def GraphRun.shape : Shape (Own GraphRun.toRecordHeader .graphRun) GraphRun :=
  headed GraphRun.mk
    |>.field "run_id" RunId.codec.required (·.1.runId)
    |>.field "graph_ref" GraphRef.codec.required (·.1.graphRef)
    |>.field "budget_lineage_ref" RunId.codec.optional (·.1.budgetLineageRef)
    |>.field "admitted_imports" ImportedReceipt.codec.listed (·.1.admittedImports)

theorem GraphRun.written : GraphRun.shape.WrittenBy (·.1.toJson) := by
  intro r
  refine ⟨_, rfl, ?_⟩
  simp only [listField_eq, List.append_assoc]
  rfl

instance : Record GraphRun where
  kind := .graphRun
  header := GraphRun.toRecordHeader
  toJson := GraphRun.toJson
  shape := GraphRun.shape
  written := GraphRun.written
  value_eq _ := rfl
  headed _ := ⟨_, rfl⟩

def Attempt.shape : Shape (Own Attempt.toRecordHeader .attempt) Attempt :=
  headed Attempt.mk
    |>.field "run_id" RunId.codec.required (·.1.runId)
    |>.field "node" NodeRef.codec.required (·.1.node)
    |>.field "number" AttemptNumber.codec.required (·.1.number)
    |>.field "owner" Codec.string.required (·.1.owner)
    |>.field "started_at" Timestamp.codec.required (·.1.startedAt)
    |>.field "finished_at" Timestamp.codec.optional (·.1.finishedAt)
    |>.field "repair_hint" Codec.string.optional (·.1.repairHint)
    |>.field "input_manifest" EvidenceRef.codec.listed (·.1.inputManifest)
    |>.field "dependency_receipts" ReceiptRef.codec.listed (·.1.dependencyReceipts)
    |>.field "result" ResultRef.codec.optional (·.1.result)
    |>.field "produced_evidence" EvidenceRef.codec.listed (·.1.producedEvidence)
    |>.field "execution" Execution.codec.optional (·.1.execution)
    |>.field "verifier_receipt" ReceiptRef.codec.optional (·.1.verifierReceipt)

theorem Attempt.written : Attempt.shape.WrittenBy (·.1.toJson) := by
  intro a
  refine ⟨_, rfl, ?_⟩
  simp only [listField_eq, List.append_assoc]
  rfl

instance : Record Attempt where
  kind := .attempt
  header := Attempt.toRecordHeader
  toJson := Attempt.toJson
  shape := Attempt.shape
  written := Attempt.written
  value_eq _ := rfl
  headed _ := ⟨_, rfl⟩

def VerifierReceipt.shape :
    Shape (Own VerifierReceipt.toRecordHeader .verifierReceipt) VerifierReceipt :=
  headed VerifierReceipt.mk
    |>.field "id" Ident.codec.required (·.1.id)
    |>.field "attempt" AttemptRef.codec.required (·.1.attempt)
    |>.field "subject" Codec.string.required (·.1.subject)
    |>.field "result_digest" Digest.codec.required (·.1.resultDigest)
    |>.field "context_digest" Digest.codec.required (·.1.contextDigest)
    |>.field "verifier" VerifierRef.codec.required (·.1.verifier)
    |>.field "policy_ref" PolicyRef.codec.required (·.1.policyRef)
    |>.field "verdict" Verdict.codec.required (·.1.verdict)
    |>.field "reason_code" Ident.codec.optional (·.1.reasonCode)
    |>.field "reason_text" Codec.string.optional (·.1.reasonText)
    |>.field "retry_hint" Codec.string.optional (·.1.retryHint)
    |>.field "checked_at" Timestamp.codec.required (·.1.checkedAt)
    |>.field "validity" (Validity.codec.defaulted ⟨none, []⟩) (·.1.validity)
    |>.field "provenance" ReceiptProvenance.codec.required (·.1.provenance)

theorem VerifierReceipt.written : VerifierReceipt.shape.WrittenBy (·.1.toJson) := by
  intro r
  refine ⟨_, rfl, ?_⟩
  simp only [List.append_assoc]
  rfl

instance : Record VerifierReceipt where
  kind := .verifierReceipt
  header := VerifierReceipt.toRecordHeader
  toJson := VerifierReceipt.toJson
  shape := VerifierReceipt.shape
  written := VerifierReceipt.written
  value_eq _ := rfl
  headed _ := ⟨_, rfl⟩

def GatePacket.shape : Shape (Own GatePacket.toRecordHeader .gatePacket) GatePacket :=
  headed GatePacket.mk
    |>.field "id" Ident.codec.required (·.1.id)
    |>.field "run_id" RunId.codec.required (·.1.runId)
    |>.field "node" NodeRef.codec.required (·.1.node)
    |>.field "purpose" GatePurpose.codec.required (·.1.purpose)
    |>.field "context_refs" ContextRef.codec.list.required (·.1.contextRefs)
    |>.field "subject_digest" Digest.codec.required (·.1.subjectDigest)
    |>.field "requested_decision" RequestedDecision.codec.required (·.1.requestedDecision)
    |>.field "authority_policy_ref" PolicyRef.codec.required (·.1.authorityPolicyRef)
    |>.field "created_at" Timestamp.codec.required (·.1.createdAt)
    |>.field "expires_at" Timestamp.codec.required (·.1.expiresAt)

theorem GatePacket.written : GatePacket.shape.WrittenBy (·.1.toJson) := by
  intro p
  refine ⟨_, rfl, ?_⟩
  simp only [List.append_assoc]
  rfl

instance : Record GatePacket where
  kind := .gatePacket
  header := GatePacket.toRecordHeader
  toJson := GatePacket.toJson
  shape := GatePacket.shape
  written := GatePacket.written
  value_eq _ := rfl
  headed _ := ⟨_, rfl⟩

def GateDecision.shape : Shape (Own GateDecision.toRecordHeader .gateDecision) GateDecision :=
  headed GateDecision.mk
    |>.field "gate_packet_id" Ident.codec.required (·.1.gatePacketId)
    |>.field "gate_packet_digest" Digest.codec.required (·.1.gatePacketDigest)
    |>.field "authority" Authority.codec.required (·.1.authority)
    |>.field "decided_at" Timestamp.codec.required (·.1.decidedAt)
    |>.field "decision" DecisionKind.codec.required (·.1.decision)
    |>.field "assessment" Assessment.codec.optional (·.1.assessment)
    |>.field "scope" DecisionScope.codec.required (·.1.scope)
    |>.field "expires_at" Timestamp.codec.optional (·.1.expiresAt)
    |>.field "authorization_ref" Codec.string.optional (·.1.authorizationRef)

theorem GateDecision.written : GateDecision.shape.WrittenBy (·.1.toJson) := by
  intro d
  refine ⟨_, rfl, ?_⟩
  simp only [List.append_assoc]
  rfl

instance : Record GateDecision where
  kind := .gateDecision
  header := GateDecision.toRecordHeader
  toJson := GateDecision.toJson
  shape := GateDecision.shape
  written := GateDecision.written
  value_eq _ := rfl
  headed _ := ⟨_, rfl⟩

def NodeView.shape : Shape (Own NodeView.toRecordHeader .nodeView) NodeView :=
  headed NodeView.mk
    |>.field "run_id" RunId.codec.required (·.1.runId)
    |>.field "node" NodeRef.codec.required (·.1.node)
    |>.field "status" NodeStatus.codec.required (·.1.status)
    |>.field "current_attempt" AttemptNumber.codec.optional (·.1.currentAttempt)
    |>.field "receipt" ReceiptRef.codec.optional (·.1.receipt)
    |>.field "blocked_reason" Codec.string.optional (·.1.blockedReason)
    |>.field "waiting_on_gate" Ident.codec.optional (·.1.waitingOnGate)

theorem NodeView.written : NodeView.shape.WrittenBy (·.1.toJson) := by
  intro v
  refine ⟨_, rfl, ?_⟩
  simp only [List.append_assoc]
  rfl

instance : Record NodeView where
  kind := .nodeView
  header := NodeView.toRecordHeader
  toJson := NodeView.toJson
  shape := NodeView.shape
  written := NodeView.written
  value_eq _ := rfl
  headed _ := ⟨_, rfl⟩

def PatchResult.shape : Shape (Own PatchResult.toRecordHeader .patchResult) PatchResult :=
  headed PatchResult.mk
    |>.field "repository" Repository.codec.required (·.1.repository)
    |>.field "base_commit" CommitId.codec.required (·.1.baseCommit)
    |>.field "candidate" Candidate.codec.required (·.1.candidate)
    |>.field "changes" Change.codec.list.required (·.1.changes)
    |>.field "captured_at" Timestamp.codec.required (·.1.capturedAt)
    |>.field "tool" Tool.codec.required (·.1.tool)

theorem PatchResult.written : PatchResult.shape.WrittenBy (·.1.toJson) := by
  intro p
  refine ⟨_, rfl, ?_⟩
  simp only [List.append_assoc]
  rfl

instance : Record PatchResult where
  kind := .patchResult
  header := PatchResult.toRecordHeader
  toJson := PatchResult.toJson
  shape := PatchResult.shape
  written := PatchResult.written
  value_eq _ := rfl
  headed _ := ⟨_, rfl⟩

def SoftwareCheckResult.shape :
    Shape (Own SoftwareCheckResult.toRecordHeader .softwareCheckResult) SoftwareCheckResult :=
  headed SoftwareCheckResult.mk
    |>.field "attempt" AttemptRef.codec.required (·.1.attempt)
    |>.field "subject" Codec.string.required (·.1.subject)
    |>.field "candidate" Candidate.codec.required (·.1.candidate)
    |>.field "base_commit" CommitId.codec.required (·.1.baseCommit)
    |>.field "repository" Repository.codec.required (·.1.repository)
    |>.field "profile" VerifierRef.codec.required (·.1.profile)
    |>.field "environment" EnvironmentInfo.codec.required (·.1.environment)
    |>.field "required_checks" Ident.codec.list.required (·.1.requiredChecks)
    |>.field "checks" CheckExecution.codec.list.required (·.1.checks)
    |>.field "conclusion" Conclusion.codec.required (·.1.conclusion)

theorem SoftwareCheckResult.written : SoftwareCheckResult.shape.WrittenBy (·.1.toJson) := by
  intro r
  refine ⟨_, rfl, ?_⟩
  simp only [List.append_assoc]
  rfl

instance : Record SoftwareCheckResult where
  kind := .softwareCheckResult
  header := SoftwareCheckResult.toRecordHeader
  toJson := SoftwareCheckResult.toJson
  shape := SoftwareCheckResult.shape
  written := SoftwareCheckResult.written
  value_eq _ := rfl
  headed _ := ⟨_, rfl⟩

/-- The type of the records of a kind. -/
def RecordKind.Type : RecordKind → Type
  | graphSpec => GraphSpec
  | graphRun => GraphRun
  | attempt => Attempt
  | verifierReceipt => VerifierReceipt
  | gatePacket => GatePacket
  | gateDecision => GateDecision
  | nodeView => NodeView
  | patchResult => PatchResult
  | softwareCheckResult => SoftwareCheckResult

instance (kind : RecordKind) : Record kind.Type :=
  match kind with
  | .graphSpec => inferInstanceAs (Record GraphSpec)
  | .graphRun => inferInstanceAs (Record GraphRun)
  | .attempt => inferInstanceAs (Record Attempt)
  | .verifierReceipt => inferInstanceAs (Record VerifierReceipt)
  | .gatePacket => inferInstanceAs (Record GatePacket)
  | .gateDecision => inferInstanceAs (Record GateDecision)
  | .nodeView => inferInstanceAs (Record NodeView)
  | .patchResult => inferInstanceAs (Record PatchResult)
  | .softwareCheckResult => inferInstanceAs (Record SoftwareCheckResult)

/-! ### Parsing (`record.rs:133-174`) -/

/-- Why a document could not be read as the requested record. -/
inductive ContractError where
  | json
  | header
  | wrongRecord (expected : RecordKind) (found : String)
  | unsupportedVersion (record : RecordKind) (found supported : Nat)
  | shape
deriving DecidableEq

/-- `RecordHeader` of the parser: the kind as written, which this build may not know. -/
structure DeclaredHeader where
  record : String
  schemaVersion : Fin (2 ^ 32)
deriving DecidableEq

def DeclaredHeader.shape : Shape DeclaredHeader DeclaredHeader :=
  Shape.start DeclaredHeader.mk
    |>.field "record" Codec.string.required DeclaredHeader.record
    |>.field "schema_version" u32.required DeclaredHeader.schemaVersion

/-- The body's fields are unknown to the header, and it does not refuse them. -/
def readHeader : Reader DeclaredHeader
  | .obj fields => DeclaredHeader.shape.read fields
  | .arr items =>
    if items.length ≤ 2 then DeclaredHeader.shape.read (DeclaredHeader.shape.names.zip items)
    else none
  | _ => none

section

variable {α : Type} [Record α]

/-- Every record type of this build has this version. -/
def supportedVersion : Nat := 1

def parseRecordValue (value : Json) : Except ContractError α :=
  match readHeader value with
  | none => .error .header
  | some h =>
    let kind := Record.kind α
    if h.record ≠ kind.asStr then .error (.wrongRecord kind h.record)
    else if h.schemaVersion.val ≠ supportedVersion then
      .error (.unsupportedVersion kind h.schemaVersion.val supportedVersion)
    else match readObject (Record.shape (α := α)).names Record.shape.read value with
      | none => .error .shape
      | some record => .ok record

/-- `parse` is `serde_json::from_str::<Value>`. -/
def parseRecord (parse : String → Option Json) (text : String) : Except ContractError α :=
  match parse text with
  | none => .error .json
  | some value => parseRecordValue value

/-- The header of a written record, as it is read back. -/
theorem readHeader_fields {h : RecordHeader} (hversion : h.schemaVersion < 2 ^ 32)
    {rest : List (String × Json)} {j : Json} (hj : (Json.obj (h.fields ++ rest)).Same j) :
    readHeader j = some ⟨h.record.asStr, ⟨h.schemaVersion, hversion⟩⟩ := by
  cases hj with
  | obj hsame =>
    apply DeclaredHeader.shape.reads ⟨h.record.asStr, ⟨h.schemaVersion, hversion⟩⟩
    intro name hname
    have hnames : name = "record" ∨ name = "schema_version" := by
      simpa [DeclaredHeader.shape, Shape.start, Shape.field] using hname
    obtain rfl | rfl := hnames
    · exact hsame "record"
    · exact hsame "schema_version"

/-- A record under its own header is parsed back from every tree of its document. -/
theorem parseRecordValue_own {a : α} (ha : (Record.header a).isFor (Record.kind α) = true)
    {j : Json} (hj : (Record.toJson a).Same j) : parseRecordValue j = .ok a := by
  obtain ⟨hkind, hversion⟩ := RecordHeader.isFor_iff.mp ha
  have hlt : (Record.header a).schemaVersion < 2 ^ 32 := Own.version_lt ⟨a, ha⟩
  have hbody : readObject (Record.shape (α := α)).names Record.shape.read j = some a := by
    have hwritten := Record.written.eq (⟨a, ha⟩ : Own Record.header (Record.kind α))
    rw [hwritten] at hj
    rw [Record.shape.reads_object hj, Record.value_eq]
  obtain ⟨rest, hrest⟩ := Record.headed a
  rw [hrest] at hj
  simp [parseRecordValue, readHeader_fields hlt hj, hkind, hversion, supportedVersion, hbody]

theorem RecordKind.asStr_inj {a b : RecordKind} (h : a.asStr = b.asStr) : a = b := by
  cases a <;> cases b <;> first | rfl | (exact absurd h (by decide))

end

end Checkspan
