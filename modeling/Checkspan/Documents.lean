import Checkspan.Contracts.Record
import Checkspan.StrictJson
import Checkspan.InputDigests
import Checkspan.SoftwareVerifier
import Checkspan.Admission

/-!
# Documents (`src/validation/mod.rs`, `src/cli.rs:272-463`)

A document passes its stages in order and the first one that fails stops it. `inspect` describes
a document that passed them all, and on the way takes two results for granted: that its graph
is admitted, and that its patch result has a subject digest. A panic there is `none`.
-/

namespace Checkspan

namespace Validation

structure Limits where
  maxBytes : Nat
  maxDepth : Nat

def Limits.default : Limits := { maxBytes := 4 * 1024 * 1024, maxDepth := 64 }

/-- The stage a diagnostic comes from, in order. -/
inductive Stage where
  | size
  | syntaxError
  | depth
  | duplicateKey
  | header
  | schema
  | shape
  | contract
  | admission
deriving DecidableEq

def Stage.asStr : Stage → String
  | size => "size"
  | syntaxError => "syntax"
  | depth => "depth"
  | duplicateKey => "duplicate_key"
  | header => "header"
  | schema => "schema"
  | shape => "shape"
  | contract => "contract"
  | admission => "admission"

def Stage.ofParse : ParseErrorKind → Stage
  | .syntaxError => syntaxError
  | .depth => depth
  | .duplicateKey => duplicateKey

structure Diagnostic where
  stage : Stage
  path : String
  message : String

inductive ValidatedRecord where
  | graphSpec (spec : GraphSpec)
  | graphRun (run : GraphRun)
  | attempt (attempt : Attempt)
  | verifierReceipt (receipt : VerifierReceipt)
  | gatePacket (packet : GatePacket)
  | gateDecision (decision : GateDecision)
  | nodeView (view : NodeView)
  | patchResult (patch : PatchResult)
  | softwareCheckResult (result : SoftwareCheckResult)

def ValidatedRecord.kind : ValidatedRecord → RecordKind
  | graphSpec _ => .graphSpec
  | graphRun _ => .graphRun
  | attempt _ => .attempt
  | verifierReceipt _ => .verifierReceipt
  | gatePacket _ => .gatePacket
  | gateDecision _ => .gateDecision
  | nodeView _ => .nodeView
  | patchResult _ => .patchResult
  | softwareCheckResult _ => .softwareCheckResult

def ValidatedRecord.spec : ValidatedRecord → Option GraphSpec
  | graphSpec spec => some spec
  | _ => none

structure Report where
  header : Option DeclaredHeader
  diagnostics : List Diagnostic
  record : Option ValidatedRecord

def Report.isValid (r : Report) : Bool := r.diagnostics.isEmpty && r.record.isSome

def reject (header : Option DeclaredHeader) (diagnostics : List Diagnostic) : Report :=
  { header := header, diagnostics := diagnostics, record := none }

def one (stage : Stage) (path message : String) : List Diagnostic := [⟨stage, path, message⟩]

/-! ### The registry (`contracts/registry.rs`) -/

def schemaIdFor (kind : RecordKind) : String :=
  "https://checkspan.invalid/schemas/v1/" ++
    (match kind with
      | .graphSpec => "graph-spec"
      | .graphRun => "graph-run"
      | .attempt => "attempt"
      | .verifierReceipt => "verifier-receipt"
      | .gatePacket => "gate-packet"
      | .gateDecision => "gate-decision"
      | .nodeView => "node-view"
      | .patchResult => "patch-result"
      | .softwareCheckResult => "software-check-result") ++ ".schema.json"

/-- The kinds and versions this build reads, with the schema of each. -/
def supported : List (RecordKind × Nat × String) :=
  [.graphSpec, .graphRun, .attempt, .verifierReceipt, .gatePacket, .gateDecision, .nodeView,
    .patchResult, .softwareCheckResult].map (fun kind => (kind, 1, schemaIdFor kind))

/-- The libraries a document is read with. -/
structure Readers where
  utf8Error : List UInt8 → String
  serde : Deserializer
  /-- Why `serde_json::from_value` refuses a header, or the body of a kind. -/
  headerError : Json → String
  bodyError : RecordKind → Json → String
  /-- The compiled schema of an id: the paths and texts of the errors it finds. -/
  validatorFor : String → Except String (Json → List (String × String))

def displayContract (serde : String) : ContractError → String
  | .json => "document is not valid JSON: " ++ serde
  | .header => "document has no valid record/schema_version header: " ++ serde
  | .wrongRecord expected found =>
    "expected a " ++ expected.asStr ++ " record, found " ++ found.quote
  | .unsupportedVersion record found version => record.asStr ++ " schema_version " ++
      toString found ++ " is not supported; this build supports " ++ toString version
  | .shape => "document does not match the record shape: " ++ serde

/-! ### The rules of each record -/

def contract (path : String) (errors : List String) : List Diagnostic :=
  errors.map (fun e => ⟨.contract, path, e⟩)

def identityPath : IdentityError → String
  | .duplicateNodeId _ => "/nodes"
  | .noTargets => "/targets"
  | .duplicateTarget _ => "/targets"
  | .foreignTarget _ => "/targets"
  | .unknownTarget _ => "/targets"
  | .targetRevisionMismatch _ _ => "/targets"
  | .supersedesForeignGraph _ => "/supersedes"
  | .supersedesNotEarlier _ => "/supersedes"
  | .zeroAttemptBudget => "/budget/total_attempts"
  | .selfLineage _ => "/budget_lineage_ref"
  | .duplicateImport _ => "/admitted_imports"
  | .selfImport _ => "/admitted_imports"

def identity (errors : List IdentityError) : List Diagnostic :=
  errors.map (fun e => ⟨.contract, identityPath e, e.display⟩)

def nodesContract (index : Nat) : List NodeSpec → List Diagnostic
  | [] => []
  | node :: rest =>
    contract ("/nodes/" ++ toString index) (node.checkContract.map (·.display)) ++
      nodesContract (index + 1) rest

/-- The body of a kind and what its rules say against it, one branch of `typed`. -/
def branch {α : Type} [Record α] (make : α → ValidatedRecord) (rules : α → List Diagnostic)
    (value : Json) : Except ContractError (ValidatedRecord × List Diagnostic) :=
  (parseRecordValue value).map (fun record => (make record, rules record))

def typed (value : Json) : RecordKind → Except ContractError (ValidatedRecord × List Diagnostic)
  | .graphSpec => branch .graphSpec
      (fun spec => identity spec.checkIdentity ++ nodesContract 0 spec.nodes) value
  | .graphRun => branch .graphRun (fun run => identity run.checkIdentity) value
  | .attempt => branch .attempt
      (fun attempt => contract "" (attempt.checkBindings.map (·.display))) value
  | .verifierReceipt => branch .verifierReceipt
      (fun receipt => contract "" (receipt.checkBindings.map (·.display))) value
  | .gatePacket => branch .gatePacket
      (fun packet => contract "/requested_decision" (packet.checkBindings.map (·.display))) value
  | .gateDecision => branch .gateDecision
      (fun decision => contract "" (decision.checkBindings.map (·.display))) value
  | .nodeView => branch .nodeView
      (fun view => contract "/status" (view.checkBindings.map (·.display))) value
  | .patchResult => branch .patchResult
      (fun patch => contract "/changes" patch.checkBindings) value
  | .softwareCheckResult => branch .softwareCheckResult
      (fun result => contract "/checks" (result.checkBindings.map (·.display))) value

/-! ### The stages -/

def isObject : Json → Bool
  | .obj _ => true
  | _ => false

/-- What `reject` is called with: the header, once it is read, and the diagnostics. -/
abbrev Rejection := Option DeclaredHeader × List Diagnostic

section

variable (readers : Readers) (limits : Limits)

/-- The stages behind the encoding. -/
def textStages (text : String) : Except Rejection (DeclaredHeader × ValidatedRecord) := do
  let value ← (parseStrict readers.serde text limits.maxDepth).mapError
    (fun e => (none, one (.ofParse e.kind) e.path e.message))
  guardOk (isObject value) (none, one .header "" "document is not a JSON object")
  let header ← someOr (readHeader value) (none, one .header ""
    ("document has no valid record/schema_version header: " ++ readers.headerError value))
  let entry ← someOr
    (supported.find? (fun e => e.1.asStr = header.record ∧ e.2.1 = header.schemaVersion.val))
    (some header, one .header "" ("record " ++ header.record.quote ++
      " schema_version " ++ toString header.schemaVersion.val ++
      " is not supported; supported records: " ++
      joinText ", " (supported.map (fun e => e.1.asStr ++ "@" ++ toString e.2.1))))
  let validator ← (readers.validatorFor entry.2.2).mapError
    (fun e => (some header, one .schema "" e))
  let schemaDiagnostics := (validator value).map (fun e => Diagnostic.mk .schema e.1 e.2)
  guardOk schemaDiagnostics.isEmpty (some header, schemaDiagnostics)
  let record ← (typed value entry.1).mapError (fun e => (some header,
    one .shape "" (displayContract (readers.bodyError entry.1 value) e)))
  guardOk record.2.isEmpty (some header, record.2)
  .ok (header, record.1)

def stages (bytes : List UInt8) : Except Rejection (DeclaredHeader × ValidatedRecord) := do
  guardOk (bytes.length ≤ limits.maxBytes) (none, one .size ""
    ("document is " ++ toString bytes.length ++ " bytes; the limit is " ++
      toString limits.maxBytes))
  let text ← someOr (String.fromUTF8? ⟨bytes.toArray⟩) (none, one .syntaxError ""
    ("document is not UTF-8: " ++ readers.utf8Error bytes))
  textStages readers limits text

/-- `validate`: the report of the last stage that was reached. -/
def validate (bytes : List UInt8) : Report :=
  match stages readers limits bytes with
  | .error rejection => reject rejection.1 rejection.2
  | .ok (header, record) => { header := some header, diagnostics := [], record := some record }

end

end Validation

/-! ### Reading a file (`cli.rs`) -/

namespace Cli

open Validation

/-- `admission_diagnostics` (`graph/mod.rs:582-598`). -/
def admissionDiagnostics (spec : GraphSpec) : Option (List Diagnostic) :=
  match Graph.admitGraph spec with
  | .ok _ => some []
  | .error errors => errors.map (List.map (fun e =>
    ⟨.admission, ((e.node.bind (Graph.indexOf spec)).map ("/nodes/" ++ toString ·)).getD "",
      e.display⟩))

/-- What the file system answers for a path: the length of its metadata, then its bytes. -/
structure File where
  path : String
  length : Except String UInt64
  bytes : Except String (List UInt8)

def admission (report : Report) : Option Report :=
  match report.record.bind (·.spec) with
  | none => some report
  | some spec => (admissionDiagnostics spec).map (fun diagnostics =>
    if diagnostics.isEmpty then report
    else { report with diagnostics := diagnostics, record := none })

/-- `load`: the report, or why the file could not be read. -/
def load (readers : Readers) (file : File) : Except String (Option Report) := do
  let cannotRead (e : String) := "cannot read " ++ file.path ++ ": " ++ e
  let length ← file.length.mapError cannotRead
  if length.toNat > Limits.default.maxBytes then
    .ok (some (reject none (one .size "" ("document is " ++ toString length.toNat ++
      " bytes; the limit is " ++ toString Limits.default.maxBytes))))
  else do
    let bytes ← file.bytes.mapError cannotRead
    .ok (admission (validate readers Limits.default bytes))

def diagnosticJson (d : Diagnostic) : Json :=
  .obj [("stage", .str d.stage.asStr), ("path", .str d.path), ("message", .str d.message)]

def reportJson (command path : String) (report : Report) : Json :=
  .obj [("command", .str command), ("path", .str path), ("valid", .bool report.isValid),
    ("record", .ofOption (report.header.map (fun h => .str h.record))),
    ("schema_version", .ofOption (report.header.map (fun h => .num h.schemaVersion.val))),
    ("schema_id", .ofOption (report.record.map (fun r => .str (schemaIdFor r.kind)))),
    ("diagnostics", .arr (report.diagnostics.map diagnosticJson))]

def ioErrorJson (command path message : String) : Json :=
  .obj [("command", .str command), ("path", .str path), ("valid", .bool false), ("record", .null),
    ("schema_version", .null), ("schema_id", .null),
    ("diagnostics", .arr [.obj [("stage", .str "io"), ("path", .str ""),
      ("message", .str message)]])]

def dependencyJson (d : Dependency) : Json :=
  .obj [("node_id", d.node.nodeId.toJson), ("revision", d.node.revision.toJson),
    ("output_port", d.outputPort.toJson), ("expected_type", .str d.expectedType.display)]

def portJson (p : PortSpec) : Json :=
  .obj [("name", p.name.toJson), ("kind", .str p.kind.asStr), ("required", .bool p.required),
    ("allowed_source_scope", .arr (p.allowedSourceScope.map .str))]

def nodeJson (n : NodeSpec) : Json :=
  .obj [("id", n.id.toJson), ("revision", n.revision.toJson), ("kind", .str n.kind.asStr),
    ("display_name", .ofOption (n.displayName.map .str)),
    ("result_type", .str n.resultType.display), ("deps", .arr (n.deps.map dependencyJson)),
    ("evidence_ports", .arr (n.evidencePorts.map portJson)),
    ("required_checks", .arr (n.acceptance.requiredChecks.map (·.toJson))),
    ("verifier", .str (n.acceptance.verifier.id.text ++ "@" ++
      n.acceptance.verifier.version.display)),
    ("max_attempts", .num n.retryPolicy.maxAttempts)]

def graphJson (g : AdmittedGraph) : Json :=
  .obj [("graph_id", g.spec.graphId.toJson), ("revision", g.spec.revision.toJson),
    ("display_name", .ofOption (g.spec.displayName.map .str)),
    ("budget", .obj [("total_attempts", .num g.spec.budget.totalAttempts),
      ("deadline", .ofOption (g.spec.budget.deadline.map (·.toJson)))]),
    ("supersedes", .ofOption (g.spec.supersedes.map (·.toJson))),
    ("nodes", .arr (g.spec.nodes.map nodeJson)),
    ("targets", .arr (g.spec.targets.map (·.nodeId.toJson))),
    ("order", .arr (g.order.map (·.toJson))), ("required", .arr (g.required.map (·.toJson))),
    ("optional", .arr (g.optional.map (·.toJson))),
    ("gates", .arr (g.gates.map (fun b =>
      .obj [("gate", b.gate.toJson), ("resolves", .arr (b.resolves.map (·.toJson)))])))]

section

variable (rt : Runtime)

/-- `patch_subject_digest` (`digests/mod.rs:161-167`). -/
def patchSubjectDigest (patch : PatchResult) : Except CanonicalError Digest :=
  digestOf rt "checkspan.patch_subject@1" patch.subject

def patchJson (patch : PatchResult) (subject : Digest) : Json :=
  .obj [("base_commit", patch.baseCommit.toJson),
    ("candidate", .str patch.candidate.kind.asStr), ("commit", patch.candidate.commit.toJson),
    ("changes", .num patch.changes.length), ("subject_digest", subject.toJson)]

/-- `describe`: the key and the detail of a valid record. -/
def describe : ValidatedRecord → Option (String × Json)
  | .graphSpec spec => (Graph.admitGraph spec).toOption.map (fun g => ("graph", graphJson g))
  | .graphRun run => some ("identity", .obj [("run_id", run.runId.toJson),
      ("graph_ref", run.graphRef.toJson),
      ("budget_lineage_ref", .ofOption (run.budgetLineageRef.map (·.toJson)))])
  | .attempt attempt => some ("identity", .obj [("run_id", attempt.runId.toJson),
      ("node", .str attempt.node.display), ("number", attempt.number.toJson),
      ("execution", .ofOption (attempt.execution.map (fun e => .str e.outcome.asStr))),
      ("verifier_receipt", .ofOption (attempt.verifierReceipt.map (·.id.toJson)))])
  | .verifierReceipt receipt => some ("identity", .obj [("id", receipt.id.toJson),
      ("attempt", .str receipt.attempt.display), ("verdict", .str receipt.verdict.asStr),
      ("provenance_level", .str receipt.provenance.level.asStr)])
  | .gatePacket packet => some ("identity", .obj [("id", packet.id.toJson),
      ("run_id", packet.runId.toJson), ("node", .str packet.node.display),
      ("purpose", .str packet.purpose.asStr),
      ("options", .arr (packet.requestedDecision.options.map (·.toJson)))])
  | .gateDecision decision => some ("identity", .obj [
      ("gate_packet_id", decision.gatePacketId.toJson),
      ("decision", .str decision.decision.asStr), ("authority", .str decision.authority.identity),
      ("authority_level", .str decision.authority.level.asStr)])
  | .patchResult patch => (patchSubjectDigest rt patch).toOption.map
      (fun digest => ("identity", patchJson patch digest))
  | .softwareCheckResult result => some ("identity", .obj [
      ("attempt", .str result.attempt.display), ("subject", .str result.subject),
      ("profile", .str (result.profile.id.text ++ "@" ++ result.profile.version.display)),
      ("conclusion", .str result.conclusion.asStr), ("checks", .num result.checks.length)])
  | .nodeView view => some ("identity", .obj [("run_id", view.runId.toJson),
      ("node", .str view.node.display), ("status", .str view.status.asStr),
      ("current_attempt", .ofOption (view.currentAttempt.map (·.toJson))),
      ("receipt", .ofOption (view.receipt.map (·.id.toJson)))])

def exitInvalid : UInt8 := 1
def exitIo : UInt8 := 3

/-- `Command::Inspect`: the exit code and the output. -/
def inspect (readers : Readers) (file : File) : Option (UInt8 × Json) :=
  match load readers file with
  | .error message => some (exitIo, ioErrorJson "inspect" file.path message)
  | .ok loaded => do
    let report ← loaded
    if report.isValid then do
      let record ← report.record
      let detail ← describe rt record
      some (0, (reportJson "inspect" file.path report).set detail.1 detail.2)
    else some (exitInvalid, reportJson "inspect" file.path report)

end

/-! ### The subject of a valid patch result -/

theorem changesErrors_size {previous : Option String} {changes : List Change}
    (h : PatchResult.changesErrors previous changes = []) {c : Change} (hc : c ∈ changes)
    {n : UInt64} (hn : c.size = some n) : n.toNat ≤ maxSafeInteger := by
  induction changes generalizing previous with
  | nil => cases hc
  | cons d rest ih =>
    rw [PatchResult.changesErrors, List.append_eq_nil_iff] at h
    rcases List.mem_cons.mp hc with rfl | hc
    · have hsize := (List.append_eq_nil_iff.mp h.1).2
      simp only [hn, Option.any_some, decide_eq_true_eq, ite_eq_right_iff, reduceCtorEq,
        imp_false, not_lt, gt_iff_lt] at hsize
      unfold maxSafeInteger
      omega
    · exact ih h.2 hc

theorem walkNumbers_change (path : String) {c : Change}
    (hsize : ∀ n, c.size = some n → n.toNat ≤ maxSafeInteger) :
    walkNumbers path c.toJson = .ok () := by
  rw [Change.toJson, walkNumbers, walkFields_eq_ok]
  intro f hf
  rcases List.mem_append.mp hf with hf | hf
  · rcases List.mem_append.mp hf with hf | hf
    · simp only [List.mem_cons, List.not_mem_nil, or_false] at hf
      rcases hf with rfl | rfl
      · rfl
      · rfl
    · obtain ⟨hvalue, -⟩ := mem_optField.mp hf
      obtain ⟨digest, -, hdigest⟩ := Option.map_eq_some_iff.mp hvalue
      rw [← hdigest]
      rfl
  · obtain ⟨hvalue, -⟩ := mem_optField.mp hf
    obtain ⟨n, hn, hnum⟩ := Option.map_eq_some_iff.mp hvalue
    rw [← hnum]
    simp [walkNumbers, hsize n hn]

/-- Every number in the subject of a checked patch result is one an envelope carries. -/
theorem walkNumbers_subject (path : String) {patch : PatchResult} (h : patch.checkBindings = []) :
    walkNumbers path patch.subject = .ok () := by
  simp only [PatchResult.checkBindings, List.append_eq_nil_iff] at h
  have hchanges : ∀ p i, walkItems p i (patch.changes.map (·.toJson)) = .ok () :=
    walkItems_map fun p _ hc => walkNumbers_change p fun _ => changesErrors_size h.1.2 hc
  have hcommits : ∀ p i, walkItems p i (patch.repository.rootCommits.map (.str ·.text)) = .ok () :=
    walkItems_map fun _ _ _ => rfl
  simp [PatchResult.subject, Repository.toJson, Candidate.toJson, CommitId.toJson, Digest.toJson,
    walkNumbers, walkFields, hchanges, hcommits]

theorem checkEnvelopeNumbers_subject {patch : PatchResult} (h : patch.checkBindings = []) :
    checkEnvelopeNumbers patch.subjectEnvelope = .ok () := by
  simp [checkEnvelopeNumbers, PatchResult.subjectEnvelope, walkNumbers, walkFields,
    walkNumbers_subject _ h]

theorem patchSubjectDigest_ok {rt : Runtime}
    (htotal : ∀ v, checkEnvelopeNumbers v = .ok () → ∃ bytes, rt.jcs v = .ok bytes)
    {patch : PatchResult} (h : patch.checkBindings = []) :
    ∃ digest, patchSubjectDigest rt patch = .ok digest :=
  envelopeDigest_ok htotal (checkEnvelopeNumbers_subject h)

/-! ### What a valid report holds -/

theorem branch_ok {α : Type} [Record α] {make : α → ValidatedRecord} {rules : α → List Diagnostic}
    {value : Json} {record : ValidatedRecord} {diagnostics : List Diagnostic}
    (h : branch make rules value = .ok (record, diagnostics)) :
    ∃ a, record = make a ∧ diagnostics = rules a := by
  obtain ⟨a, -, ha⟩ := map_ok h
  cases ha
  exact ⟨a, rfl, rfl⟩

theorem typed_patch {value : Json} {kind : RecordKind} {patch : PatchResult}
    (h : typed value kind = .ok (.patchResult patch, [])) : patch.checkBindings = [] := by
  cases kind with
  | patchResult =>
    obtain ⟨a, ha, hrules⟩ := branch_ok h
    cases ha
    exact List.map_eq_nil_iff.mp hrules.symm
  | graphSpec => obtain ⟨_, ⟨⟩, -⟩ := branch_ok h
  | graphRun => obtain ⟨_, ⟨⟩, -⟩ := branch_ok h
  | attempt => obtain ⟨_, ⟨⟩, -⟩ := branch_ok h
  | verifierReceipt => obtain ⟨_, ⟨⟩, -⟩ := branch_ok h
  | gatePacket => obtain ⟨_, ⟨⟩, -⟩ := branch_ok h
  | gateDecision => obtain ⟨_, ⟨⟩, -⟩ := branch_ok h
  | nodeView => obtain ⟨_, ⟨⟩, -⟩ := branch_ok h
  | softwareCheckResult => obtain ⟨_, ⟨⟩, -⟩ := branch_ok h

theorem textStages_ok {readers : Readers} {limits : Limits} {text : String}
    {header : DeclaredHeader} {record : ValidatedRecord}
    (h : textStages readers limits text = .ok (header, record)) :
    ∃ value kind, typed value kind = .ok (record, []) := by
  unfold textStages at h
  obtain ⟨value, -, h⟩ := bind_ok h
  obtain ⟨_, -, h⟩ := bind_ok h
  obtain ⟨header', -, h⟩ := bind_ok h
  obtain ⟨entry, -, h⟩ := bind_ok h
  obtain ⟨validator, -, h⟩ := bind_ok h
  obtain ⟨_, -, h⟩ := bind_ok h
  obtain ⟨⟨record', diagnostics⟩, htyped, h⟩ := bind_ok h
  obtain ⟨_, hguard, h⟩ := bind_ok h
  cases h
  have hnone := List.isEmpty_iff.mp (guardOk_ok hguard)
  cases hnone
  exact ⟨value, entry.1, mapError_ok htyped⟩

theorem validate_record {readers : Readers} {limits : Limits} {bytes : List UInt8}
    {record : ValidatedRecord} (h : (validate readers limits bytes).record = some record) :
    ∃ value kind, typed value kind = .ok (record, []) := by
  unfold validate at h
  split at h
  · cases h
  · rename_i header' record' hstages
    cases h
    obtain ⟨_, -, hstages⟩ := bind_ok hstages
    obtain ⟨text, -, hstages⟩ := bind_ok hstages
    exact textStages_ok hstages

/-- Admission of a graph reports nothing exactly when the graph is admitted, and it always ends. -/
theorem admissionDiagnostics_spec (spec : GraphSpec) :
    ∃ diagnostics, admissionDiagnostics spec = some diagnostics ∧
      (diagnostics = [] → ∃ g, Graph.admitGraph spec = .ok g) := by
  unfold admissionDiagnostics
  by_cases hadm : Graph.Admissible spec
  · obtain ⟨g, hg⟩ := (Graph.admitGraph_decides spec).1.mpr hadm
    rw [hg]
    exact ⟨[], rfl, fun _ => ⟨g, rfl⟩⟩
  · obtain ⟨errors, hne, herrors⟩ := (Graph.admitGraph_decides spec).2 hadm
    rw [herrors]
    exact ⟨_, rfl, fun hnil => absurd (List.map_eq_nil_iff.mp hnil) hne⟩

theorem admission_some (report : Report) : ∃ report', admission report = some report' ∧
    ∀ record, report'.record = some record → report.record = some record ∧
      ∀ spec, record = .graphSpec spec → ∃ g, Graph.admitGraph spec = .ok g := by
  unfold admission
  cases hspec : report.record.bind (·.spec) with
  | none =>
    refine ⟨report, rfl, fun record hrecord => ⟨hrecord, ?_⟩⟩
    rintro spec rfl
    rw [hrecord] at hspec
    cases hspec
  | some spec =>
    obtain ⟨diagnostics, hdiagnostics, hadmit⟩ := admissionDiagnostics_spec spec
    simp only [hdiagnostics, Option.map_some]
    cases diagnostics with
    | nil =>
      refine ⟨report, rfl, fun record hrecord => ⟨hrecord, ?_⟩⟩
      rintro spec' rfl
      rw [hrecord] at hspec
      cases hspec
      exact hadmit rfl
    | cons d rest =>
      refine ⟨_, rfl, ?_⟩
      rintro record ⟨⟩

/-- What loading a file leaves: an error or a report, whose record keeps the rules of its kind. -/
theorem load_spec (readers : Readers) (file : File) {loaded : Option Report}
    (h : load readers file = .ok loaded) : ∃ report, loaded = some report ∧
      ∀ record, report.record = some record →
        (∀ spec, record = .graphSpec spec → ∃ g, Graph.admitGraph spec = .ok g) ∧
        ∀ patch, record = .patchResult patch → patch.checkBindings = [] := by
  unfold load at h
  obtain ⟨length, -, h⟩ := bind_ok h
  split at h
  · cases h
    refine ⟨_, rfl, ?_⟩
    rintro record ⟨⟩
  · obtain ⟨bytes, -, h⟩ := bind_ok h
    obtain ⟨report, hadmission, hreport⟩ :=
      admission_some (validate readers Limits.default bytes)
    cases h
    refine ⟨report, hadmission, fun record hrecord => ?_⟩
    obtain ⟨hvalidated, hgraph⟩ := hreport record hrecord
    refine ⟨hgraph, ?_⟩
    rintro patch rfl
    obtain ⟨value, kind, htyped⟩ := validate_record hvalidated
    exact typed_patch htyped

/-- What `describe` answers for a record: a graph's detail is that of its admission, a patch
result's carries the digest of a subject whose numbers an envelope takes. -/
structure Described (rt : Runtime) (record : ValidatedRecord) (detail : String × Json) : Prop where
  answer : describe rt record = some detail
  graph : ∀ spec, record = .graphSpec spec →
    ∃ g, Graph.admitGraph spec = .ok g ∧ detail = ("graph", graphJson g)
  patch : ∀ patch, record = .patchResult patch → checkEnvelopeNumbers patch.subject = .ok () ∧
    ∃ digest, patchSubjectDigest rt patch = .ok digest ∧
      detail = ("identity", patchJson patch digest)

theorem describe_described {rt : Runtime}
    (htotal : ∀ v, checkEnvelopeNumbers v = .ok () → ∃ bytes, rt.jcs v = .ok bytes)
    {record : ValidatedRecord}
    (hgraph : ∀ spec, record = .graphSpec spec → ∃ g, Graph.admitGraph spec = .ok g)
    (hpatch : ∀ patch, record = .patchResult patch → patch.checkBindings = []) :
    ∃ detail, Described rt record detail := by
  cases record with
  | graphSpec spec =>
    obtain ⟨g, hg⟩ := hgraph spec rfl
    refine ⟨_, by rw [describe, hg]; rfl, ?_, ?_⟩
    · rintro _ ⟨⟩
      exact ⟨g, hg, rfl⟩
    · rintro _ ⟨⟩
  | patchResult patch =>
    obtain ⟨digest, hdigest⟩ := patchSubjectDigest_ok htotal (hpatch patch rfl)
    refine ⟨_, by rw [describe, hdigest]; rfl, ?_, ?_⟩
    · rintro _ ⟨⟩
    · rintro _ ⟨⟩
      exact ⟨walkNumbers_subject "" (hpatch patch rfl), digest, hdigest, rfl⟩
  | graphRun run => exact ⟨_, rfl, by rintro _ ⟨⟩, by rintro _ ⟨⟩⟩
  | attempt attempt => exact ⟨_, rfl, by rintro _ ⟨⟩, by rintro _ ⟨⟩⟩
  | verifierReceipt receipt => exact ⟨_, rfl, by rintro _ ⟨⟩, by rintro _ ⟨⟩⟩
  | gatePacket packet => exact ⟨_, rfl, by rintro _ ⟨⟩, by rintro _ ⟨⟩⟩
  | gateDecision decision => exact ⟨_, rfl, by rintro _ ⟨⟩, by rintro _ ⟨⟩⟩
  | nodeView view => exact ⟨_, rfl, by rintro _ ⟨⟩, by rintro _ ⟨⟩⟩
  | softwareCheckResult result => exact ⟨_, rfl, by rintro _ ⟨⟩, by rintro _ ⟨⟩⟩

/-- No file makes `inspect` panic, and the record of every valid report is described. -/
theorem inspect_describes {rt : Runtime}
    (htotal : ∀ v, checkEnvelopeNumbers v = .ok () → ∃ bytes, rt.jcs v = .ok bytes)
    (readers : Readers) (file : File) :
    (∃ answer, inspect rt readers file = some answer) ∧
    ∀ report, load readers file = .ok (some report) → report.isValid = true →
      ∃ record detail, report.record = some record ∧ Described rt record detail := by
  have hdescribe : ∀ report, load readers file = .ok (some report) → report.isValid = true →
      ∃ record detail, report.record = some record ∧ Described rt record detail := by
    intro report hload hvalid
    obtain ⟨_, ⟨⟩, hreport⟩ := load_spec readers file hload
    obtain ⟨record, hrecord⟩ := Option.isSome_iff_exists.mp (Bool.and_eq_true_iff.mp hvalid).2
    obtain ⟨hgraph, hpatch⟩ := hreport record hrecord
    obtain ⟨detail, hdetail⟩ := describe_described htotal hgraph hpatch
    exact ⟨record, detail, hrecord, hdetail⟩
  refine ⟨?_, hdescribe⟩
  unfold inspect
  cases hload : load readers file with
  | error message => exact ⟨_, rfl⟩
  | ok loaded =>
    obtain ⟨report, rfl, -⟩ := load_spec readers file hload
    simp only [Option.bind_eq_bind, Option.bind_some]
    split
    · rename_i hvalid
      obtain ⟨record, detail, hrecord, hdetail⟩ := hdescribe report hload hvalid
      rw [hrecord, Option.bind_some, hdetail.answer]
      exact ⟨_, rfl⟩
    · exact ⟨_, rfl⟩

section

open Pilot

mutual

/-- The calls `serde_json` makes for a document. -/
def visitOf : Json → Visit
  | .null => .null
  | .bool b => .bool b
  | .num n => .int n
  | .float literal => .float ⟨literal, true⟩
  | .str s => .str s
  | .arr items => .seq (visitItems items) none
  | .obj fields => .map (visitFields fields) none

def visitItems : List Json → List Visit
  | [] => []
  | item :: rest => visitOf item :: visitItems rest

def visitFields : List (String × Json) → List (String × Visit)
  | [] => []
  | (name, value) :: rest => (name, visitOf value) :: visitFields rest

end

/-- A working tree with one untracked file. -/
def noteResult (digest : Digest) (size : UInt64) : PatchResult :=
  { SoftwareVerifier.dirtyTree.result with
    changes := [⟨"notes.md", .untracked, some digest, some size⟩] }

def noteAdded : PatchResult := noteResult zeroDigest 3

/-- Reads the one document; its schema finds nothing. -/
def noteReaders : Readers where
  utf8Error _ := "invalid utf-8 sequence"
  serde :=
    { opens := 128
      visit := fun text =>
        if text = canonical noteAdded.toJson then visitOf noteAdded.toJson
        else .error "expected value"
      trailing := fun _ => none }
  headerError _ := "missing field"
  bodyError _ _ := "unknown field"
  validatorFor _ := .ok (fun _ => [])

def noteFile : File where
  path := "patch.json"
  length := .ok 584
  bytes := .ok (canonical noteAdded.toJson).toByteArray.data.toList

theorem noteResult_bindings (digest : Digest) {size : UInt64} (h : size.toNat ≤ 2 ^ 53 - 1) :
    (noteResult digest size).checkBindings = [] := by
  have hpath : isCleanRelativePath "notes.md" = true := by
    rw [isCleanRelativePath, String.contains_char_eq, String.contains_char_eq]
    decide +kernel
  have hroots : PatchResult.ascending [SoftwareVerifier.head] = true := rfl
  simp only [PatchResult.checkBindings, noteResult, SoftwareVerifier.dirtyTree, hroots,
    PatchResult.changesErrors, PatchResult.changeErrors, hpath]
  simpa using h

theorem noteAdded_bindings : noteAdded.checkBindings = [] :=
  noteResult_bindings zeroDigest (by decide)

theorem noteAdded_typed :
    typed noteAdded.toJson .patchResult = .ok (.patchResult noteAdded, []) := by
  have hread : parseRecordValue noteAdded.toJson = .ok noteAdded :=
    parseRecordValue_own (by decide) (Json.Same.refl _)
  rw [typed, branch, hread]
  change Except.ok (_, contract "/changes" noteAdded.checkBindings) = _
  rw [noteAdded_bindings]
  rfl

theorem noteAdded_parsed : parseStrict noteReaders.serde (canonical noteAdded.toJson)
    Limits.default.maxDepth = .ok noteAdded.toJson := by
  have hvisit : noteReaders.serde.visit (canonical noteAdded.toJson) =
      visitOf noteAdded.toJson := by
    simp only [noteReaders, if_true]
  unfold parseStrict
  rw [hvisit]
  rfl

theorem fromUTF8?_toByteArray (s : String) :
    String.fromUTF8? ⟨s.toByteArray.data.toList.toArray⟩ = some s := by
  rw [Array.toArray_toList]
  exact dif_pos s.isValidUTF8

theorem noteAdded_stages : stages noteReaders Limits.default
    (canonical noteAdded.toJson).toByteArray.data.toList =
      .ok (⟨"patch_result", 1⟩, .patchResult noteAdded) := by
  refine bind_eq_ok.mpr ⟨(), guardOk_eq_ok.mpr (by decide +kernel), ?_⟩
  refine bind_eq_ok.mpr ⟨_, someOr_eq_ok.mpr (fromUTF8?_toByteArray _), ?_⟩
  refine bind_eq_ok.mpr ⟨_, mapError_eq_ok.mpr noteAdded_parsed, ?_⟩
  refine bind_eq_ok.mpr ⟨(), rfl, ?_⟩
  refine bind_eq_ok.mpr ⟨⟨"patch_result", 1⟩, rfl, ?_⟩
  refine bind_eq_ok.mpr ⟨(.patchResult, 1, schemaIdFor .patchResult), rfl, ?_⟩
  refine bind_eq_ok.mpr ⟨fun _ => [], rfl, ?_⟩
  refine bind_eq_ok.mpr ⟨(), rfl, ?_⟩
  exact bind_eq_ok.mpr ⟨_, mapError_eq_ok.mpr noteAdded_typed, rfl⟩

def noteReport : Report :=
  validate noteReaders Limits.default (canonical noteAdded.toJson).toByteArray.data.toList

theorem noteReport_record : noteReport.record = some (.patchResult noteAdded) := by
  rw [noteReport, validate, noteAdded_stages]

theorem noteReport_isValid : noteReport.isValid = true := by
  rw [Report.isValid, noteReport_record, noteReport, validate, noteAdded_stages]
  rfl

theorem noteFile_load : load noteReaders noteFile = .ok (some noteReport) := by
  unfold load
  refine bind_eq_ok.mpr ⟨584, rfl, ?_⟩
  rw [if_neg (by decide)]
  refine bind_eq_ok.mpr ⟨_, rfl, ?_⟩
  have hvalidate : validate noteReaders Limits.default
      (canonical noteAdded.toJson).toByteArray.data.toList = noteReport := rfl
  rw [hvalidate]
  unfold admission
  rw [noteReport_record]
  rfl

/-- The document of the patch is described by its subject digest. -/
theorem inspect_describes_note : ∃ report record detail,
    load noteReaders noteFile = .ok (some report) ∧ report.isValid = true ∧
      report.record = some record ∧ Described hashing record detail := by
  obtain ⟨record, detail, hdescribed⟩ :=
    (inspect_describes hashing_total noteReaders noteFile).2 _ noteFile_load noteReport_isValid
  exact ⟨_, record, detail, noteFile_load, noteReport_isValid, hdescribed⟩

end

end Cli

end Checkspan
