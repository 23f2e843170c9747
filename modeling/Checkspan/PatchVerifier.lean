import Checkspan.Documents
import Checkspan.SoftwareVerifier

/-!
# The patch-capture verifier (`src/verifiers/patch.rs`)

One child process that reads its artifact and captures the candidate again. What its file and
the capture show is an oracle.
-/

namespace Checkspan

open Validation

/-- `Display` of a diagnostic. -/
def Validation.Diagnostic.display (d : Diagnostic) : String :=
  "[" ++ d.stage.asStr ++ "] " ++ d.path.quote ++ ": " ++ d.message

namespace PatchVerifier

open SoftwareVerifier (Exit candidates theCandidate patchSubject checkFailed)

/-- What one child finds outside. -/
structure World where
  stdin : Except String String
  /-- `serde_json::from_str`. -/
  readRequest : String → Except String VerifierRequest
  /-- `fs::read` of the artifact. -/
  artifact : Except String (List UInt8)
  capture : String → Selection → Except String CapturedPatch

def artifactExists : Ident := ⟨"artifact_exists", by decide +kernel⟩
def baseMatches : Ident := ⟨"base_matches", by decide +kernel⟩

def verifierVersion : Nat := 1

variable (rt : Runtime) (readers : Readers) (schema : List UInt8) (path : String) (w : World)

/-- `pinned_digest`: of the bundled `patch_result` schema text. -/
def pinnedDigest : Digest := artifactDigest rt schema

def reportFor (id : Ident) (passed : Bool) (detail : Option String) : CheckReport :=
  { id := id, outcome := if passed then .passed else .failed, detail := detail }

/-- A child's request, when it is for this verifier. -/
def readRequest : Except Exit VerifierRequest := do
  let text ← w.stdin.mapError (fun _ => .request)
  let request ← (w.readRequest text).mapError (fun _ => .request)
  guardOk (request.verifier.id.text = patchVerifierId ∧ request.verifier.version.get =
    verifierVersion ∧ request.verifier.digest = pinnedDigest rt schema) .profile
  .ok request

/-- The record of a report that is valid. -/
def recordOf (report : Report) : Option PatchResult :=
  if report.isValid then
    report.record.bind (fun record =>
      match record with
      | .patchResult patch => some patch
      | _ => none)
  else none

/-- The artifact: present, valid and consistent. -/
def checkArtifact : CheckReport × Option PatchResult :=
  match w.artifact with
  | .error e =>
    (reportFor artifactExists false (some ("cannot read " ++ path ++ ": " ++ e)), none)
  | .ok bytes =>
    let report := validate readers Limits.default bytes
    match recordOf report with
    | some patch => (reportFor artifactExists true none, some patch)
    | none => (reportFor artifactExists false (some ((report.diagnostics.head?.map
        (·.display)).getD "not a patch_result document")), none)

/-- The candidate on disk against the request and the artifact. -/
def checkBase (request : VerifierRequest) (root : String) (frozen : Selection)
    (record : Option PatchResult) : CheckReport :=
  match w.capture root { candidate := .workingTree, base := frozen.base } with
  | .error e => reportFor baseMatches false (some ("cannot capture the candidate: " ++ e))
  | .ok captured =>
    if patchSubject captured ≠ request.subject then
      reportFor baseMatches false (some ("the checkout is " ++ patchSubject captured ++
        "; the request froze " ++ request.subject))
    else match record with
      | none => reportFor baseMatches false (some "no readable artifact to compare")
      | some patch =>
        match Cli.patchSubjectDigest rt patch with
        | .error e => reportFor baseMatches false (some e.display)
        | .ok digest =>
          if captured.subjectDigest = digest then reportFor baseMatches true none
          else reportFor baseMatches false (some ("the artifact describes patch_subject:" ++
            digest.text ++ ", not the checkout"))

def responseOf (request : VerifierRequest) (ran : List CheckReport) : VerifierResponse :=
  let failed := ran.filter (fun c => c.outcome ≠ .passed)
  { verifier := request.verifier, attempt := request.attempt
    verdict := if !ran.isEmpty && failed.isEmpty then .accept else .reject
    checks := ran
    reasonCode := if failed.isEmpty then none else some checkFailed
    reasonText := if failed.isEmpty then none
      else some ("not passed: " ++ joinText ", " (failed.map (·.id.text))) }

/-- `run_child`: an error is the exit code without an answer. -/
def runChild : Except Exit VerifierResponse := do
  let request ← readRequest rt schema w
  let (_, root, frozen) ← theCandidate request
  guardOk (request.requiredChecks.all (fun id => id = artifactExists || id = baseMatches)) .contract
  let (artifact, record) := checkArtifact readers path w
  let checks := if baseMatches ∈ request.requiredChecks
    then [artifact, checkBase rt w request root frozen record] else [artifact]
  .ok (responseOf request (checks.filter (fun c => c.id ∈ request.requiredChecks)))

/-- The document a child reads, when it is valid and a patch result. -/
def Reads (patch : PatchResult) : Prop :=
  ∃ bytes, w.artifact = .ok bytes ∧
    (validate readers Limits.default bytes).record = some (.patchResult patch)

/-- The working tree is the candidate the request froze, and the one the document describes. -/
def Matches (request : VerifierRequest) (root : String) (frozen : Selection)
    (patch : PatchResult) : Prop :=
  ∃ captured, w.capture root { candidate := .workingTree, base := frozen.base } = .ok captured ∧
    patchSubject captured = request.subject ∧
    Cli.patchSubjectDigest rt patch = .ok captured.subjectDigest

variable {rt readers schema path w}

theorem validate_isValid {bytes : List UInt8} {record : ValidatedRecord}
    (h : (validate readers Limits.default bytes).record = some record) :
    (validate readers Limits.default bytes).isValid = true := by
  unfold validate at h ⊢
  split
  · rename_i rejection hstages
    rw [hstages] at h
    cases h
  · rfl

theorem checkArtifact_record {patch : PatchResult} :
    (checkArtifact readers path w).2 = some patch ↔ Reads readers w patch := by
  unfold checkArtifact Reads
  cases hartifact : w.artifact with
  | error e => simp
  | ok bytes =>
    cases hrecord : (validate readers Limits.default bytes).record with
    | none => simp [recordOf, hrecord]
    | some record =>
      have hvalid := validate_isValid hrecord
      cases record <;> simp [recordOf, hrecord, hvalid]

theorem checkArtifact_id : (checkArtifact readers path w).1.id = artifactExists := by
  unfold checkArtifact
  split
  · rfl
  · dsimp only
    split <;> rfl

theorem checkArtifact_passed : (checkArtifact readers path w).1.outcome = .passed ↔
    ∃ patch, Reads readers w patch := by
  simp only [← @checkArtifact_record readers path w]
  unfold checkArtifact
  split
  · simp [reportFor]
  · dsimp only
    split <;> simp [reportFor]

theorem checkBase_id {request : VerifierRequest} {root : String} {frozen : Selection}
    {record : Option PatchResult} :
    (checkBase rt w request root frozen record).id = baseMatches := by
  unfold checkBase
  split
  · rfl
  · split
    · rfl
    · split
      · rfl
      · split
        · rfl
        · split <;> rfl

theorem checkBase_passed {request : VerifierRequest} {root : String} {frozen : Selection}
    {record : Option PatchResult} :
    (checkBase rt w request root frozen record).outcome = .passed ↔
      ∃ patch, record = some patch ∧ Matches rt w request root frozen patch := by
  unfold checkBase Matches
  cases hcapture : w.capture root { candidate := .workingTree, base := frozen.base } with
  | error e => simp [reportFor]
  | ok captured =>
    by_cases hsubject : patchSubject captured = request.subject
    · cases record with
      | none => simp [hsubject, reportFor]
      | some patch =>
        cases hdigest : Cli.patchSubjectDigest rt patch with
        | error e => simp [hsubject, hdigest, reportFor]
        | ok digest =>
          by_cases hsame : captured.subjectDigest = digest
          · simp [hsubject, hdigest, hsame, reportFor]
          · simp [hsubject, hdigest, hsame, Ne.symm hsame, reportFor]
    · simp [hsubject, reportFor]

theorem checkArtifact_reads {bytes : List UInt8} {patch : PatchResult}
    (hbytes : w.artifact = .ok bytes)
    (hrecord : (validate readers Limits.default bytes).record =
      some (.patchResult patch)) : checkArtifact readers path w =
      (reportFor artifactExists true none, some patch) := by
  have hvalid := validate_isValid hrecord
  simp [checkArtifact, hbytes, recordOf, hvalid, hrecord]

theorem checkBase_matches {rt : Runtime} {w : World} {request : VerifierRequest}
    {root : String} {frozen : Selection} {patch : PatchResult}
    (h : Matches rt w request root frozen patch) :
    checkBase rt w request root frozen (some patch) =
      reportFor baseMatches true none := by
  obtain ⟨captured, hcapture, hsubject, hdigest⟩ := h
  simp [checkBase, hcapture, hsubject, hdigest]

theorem responseOf_accept {request : VerifierRequest} {ran : List CheckReport} :
    (responseOf request ran).verdict = .accept ↔ ran ≠ [] ∧ ∀ c ∈ ran, c.outcome = .passed := by
  have hnone : (ran.filter (fun c => c.outcome ≠ .passed)).isEmpty = true ↔
      ∀ c ∈ ran, c.outcome = .passed := by
    simp [List.filter_eq_nil_iff]
  unfold responseOf
  dsimp only
  rw [← hnone]
  cases ran with
  | nil => simp
  | cons c rest => cases ((c :: rest).filter (fun c => c.outcome ≠ .passed)).isEmpty <;> simp

/-- What the reported checks say together. -/
theorem reported_accept {request : VerifierRequest} {root : String} {frozen : Selection}
    (hknown : ∀ id ∈ request.requiredChecks, id = artifactExists ∨ id = baseMatches) :
    (responseOf request ((if baseMatches ∈ request.requiredChecks
      then [(checkArtifact readers path w).1,
        checkBase rt w request root frozen (checkArtifact readers path w).2]
      else [(checkArtifact readers path w).1]).filter
        (fun c => c.id ∈ request.requiredChecks))).verdict = .accept ↔
    request.requiredChecks ≠ [] ∧ ∃ patch, Reads readers w patch ∧
      (baseMatches ∈ request.requiredChecks → Matches rt w request root frozen patch) := by
  obtain ⟨patch?, hpatch⟩ : ∃ patch?, (checkArtifact readers path w).2 = patch? := ⟨_, rfl⟩
  have hread : ∀ patch, patch? = some patch ↔ Reads readers w patch := by
    intro patch
    rw [← hpatch]
    exact checkArtifact_record
  have hartifact := @checkArtifact_passed readers path w
  have hbase := @checkBase_passed rt w request root frozen patch?
  have hboth : (∃ patch, patch? = some patch ∧ Matches rt w request root frozen patch) ↔
      ∃ patch, Reads readers w patch ∧ Matches rt w request root frozen patch :=
    exists_congr (fun patch => and_congr_left (fun _ => hread patch))
  have hne : ∀ {id}, id ∈ request.requiredChecks → request.requiredChecks ≠ [] := by
    intro id hid hnil
    rw [hnil] at hid
    exact absurd hid List.not_mem_nil
  rw [hpatch, responseOf_accept]
  by_cases hb : baseMatches ∈ request.requiredChecks
  · by_cases ha : artifactExists ∈ request.requiredChecks
    · simp only [hb, ha, if_true, List.filter_cons, List.filter_nil, checkArtifact_id, checkBase_id,
        decide_true, forall_const]
      rw [List.forall_mem_cons, List.forall_mem_singleton, hartifact, hbase, hboth]
      refine and_congr (iff_of_true (List.cons_ne_nil _ _) (hne hb)) ?_
      constructor
      · exact And.right
      · rintro ⟨patch, hreads, hmatches⟩
        exact ⟨⟨patch, hreads⟩, patch, hreads, hmatches⟩
    · simp only [hb, ha, if_true, List.filter_cons, List.filter_nil, checkArtifact_id, checkBase_id,
        decide_true, decide_false, Bool.false_eq_true, if_false, forall_const]
      rw [List.forall_mem_singleton, hbase, hboth]
      exact and_congr (iff_of_true (List.cons_ne_nil _ _) (hne hb)) Iff.rfl
  · by_cases ha : artifactExists ∈ request.requiredChecks
    · simp only [hb, ha, if_true, if_false, List.filter_cons, List.filter_nil, checkArtifact_id,
        decide_true, false_implies, and_true]
      rw [List.forall_mem_singleton, hartifact]
      exact and_congr (iff_of_true (List.cons_ne_nil _ _) (hne ha)) Iff.rfl
    · have hnil : request.requiredChecks = [] := by
        refine List.eq_nil_iff_forall_not_mem.mpr ?_
        intro id hid
        rcases hknown id hid with rfl | rfl
        · exact ha hid
        · exact hb hid
      simp [hnil]

theorem knownChecks_iff {request : VerifierRequest} :
    request.requiredChecks.all (fun id => id = artifactExists || id = baseMatches) = true ↔
      ∀ id ∈ request.requiredChecks, id = artifactExists ∨ id = baseMatches := by
  simp

/-- What a child that accepts has found. -/
theorem runChild_accept {request : VerifierRequest}
    (hrequest : readRequest rt schema w = .ok request) {response : VerifierResponse}
    (h : runChild rt readers schema path w = .ok response) (haccept : response.verdict = .accept) :
    ∃ reference root frozen patch, candidates request = [(reference, root, frozen)] ∧
      request.requiredChecks ≠ [] ∧
      (∀ id ∈ request.requiredChecks, id = artifactExists ∨ id = baseMatches) ∧
      Reads readers w patch ∧
      (baseMatches ∈ request.requiredChecks → Matches rt w request root frozen patch) := by
  obtain ⟨request', hrequest', h⟩ := bind_ok h
  obtain rfl := Except.ok.inj (hrequest.symm.trans hrequest')
  obtain ⟨⟨reference, root, frozen⟩, hcandidate, h⟩ := bind_ok h
  obtain ⟨_, hchecks, h⟩ := bind_ok h
  have hknown := knownChecks_iff.mp (guardOk_ok hchecks)
  cases h
  obtain ⟨hne, patch, hreads, hmatches⟩ := (reported_accept hknown).mp haccept
  exact ⟨reference, root, frozen, patch, SoftwareVerifier.theCandidate_ok hcandidate, hne, hknown,
    hreads, hmatches⟩

/-- A child whose request is for it accepts exactly when the request names one candidate, asks
for at least one check and for no others than the two, the document is a valid patch result and,
if asked, the working tree is what the request froze and the document describes. -/
theorem run_child_accepts_iff {request : VerifierRequest}
    (hrequest : readRequest rt schema w = .ok request) :
    (∃ response, runChild rt readers schema path w = .ok response ∧ response.verdict = .accept) ↔
      ∃ reference root frozen patch, candidates request = [(reference, root, frozen)] ∧
        request.requiredChecks ≠ [] ∧
        (∀ id ∈ request.requiredChecks, id = artifactExists ∨ id = baseMatches) ∧
        Reads readers w patch ∧
        (baseMatches ∈ request.requiredChecks → Matches rt w request root frozen patch) := by
  constructor
  · rintro ⟨response, h, haccept⟩
    exact runChild_accept hrequest h haccept
  · rintro ⟨reference, root, frozen, patch, hcandidate, hne, hknown, hreads, hmatches⟩
    have hthe : theCandidate request = .ok (reference, root, frozen) := by
      rw [theCandidate, hcandidate]
    refine ⟨_, ?_, (@reported_accept _ _ path _ _ _ _ hknown).mpr ⟨hne, patch, hreads, hmatches⟩⟩
    rw [runChild, hrequest]
    refine bind_eq_ok.mpr ⟨request, rfl, bind_eq_ok.mpr ⟨_, hthe, bind_eq_ok.mpr ⟨(), ?_, rfl⟩⟩⟩
    exact guardOk_eq_ok.mpr (knownChecks_iff.mpr hknown)

/-! ### A working tree with a note -/

section

open Pilot (zeroDigest one canonical)
open Combined (codePort patchId csCi)

def noteBytes : List UInt8 := (canonical Cli.noteAdded.toJson).toByteArray.data.toList

def runtime : Runtime :=
  { text := fun _ => ""
    jcs := fun v => .ok (canonical v).toByteArray.data.toList
    sha256 := fun _ => zeroDigest }

def noteTree : CapturedPatch := { SoftwareVerifier.dirtyTree with result := Cli.noteAdded }

def csPatch : NodeSpec :=
  { Combined.csPatch with
    acceptance := { Combined.csPatch.acceptance with
      requiredChecks := [artifactExists, baseMatches] } }

def spec : GraphSpec := { Combined.spec with nodes := [csPatch, csCi] }

def run : GraphRun := { Combined.run with graphRef := spec.graphRef }

def noteReference : EvidenceRef :=
  Resolver.codeReference runtime codePort noteTree.seen noteBytes

def patchRequest : VerifierRequest :=
  Controller.requestFor csPatch run patchId one (SoftwareVerifier.patchSubject noteTree)
    [noteReference] zeroDigest

def patchWorld : World :=
  { stdin := .ok ""
    readRequest := fun _ => .ok patchRequest
    artifact := .ok noteBytes
    capture := fun _ _ => .ok noteTree }

theorem note_selection : codeSelection noteReference.locator =
    some ("/work", locatorSelection .workingTree SoftwareVerifier.head SoftwareVerifier.head) :=
  codeSelection_locator _ _ _ _

theorem note_record : (validate Cli.noteReaders Limits.default
    noteBytes).record = some (.patchResult Cli.noteAdded) := by
  have h := Cli.noteReport_record
  unfold Cli.noteReport at h
  exact h

theorem note_subject : Cli.patchSubjectDigest runtime Cli.noteAdded = .ok zeroDigest := by
  have hnumbers := Cli.checkEnvelopeNumbers_subject Cli.noteAdded_bindings
  change envelopeDigest runtime Cli.noteAdded.subjectEnvelope = .ok zeroDigest
  rw [envelopeDigest, envelopeBytes, hnumbers]
  rfl

theorem theCandidate_first {request : VerifierRequest} {reference : EvidenceRef}
    {rest : List EvidenceRef} {c : String × Selection}
    (hevidence : request.evidence = reference :: rest)
    (hfirst : codeSelection reference.locator = some c)
    (hrest : ∀ r ∈ rest, codeSelection r.locator = none) :
    SoftwareVerifier.theCandidate request = .ok (reference, c) := by
  have hnone : rest.filterMap (fun r => (codeSelection r.locator).map (fun c => (r, c))) = [] := by
    refine List.filterMap_eq_nil_iff.mpr ?_
    intro r hr
    rw [hrest r hr, Option.map_none]
  simp [SoftwareVerifier.theCandidate, SoftwareVerifier.candidates, hevidence, hfirst, hnone]

theorem patch_candidate : SoftwareVerifier.theCandidate patchRequest = .ok (noteReference, "/work",
    locatorSelection .workingTree SoftwareVerifier.head SoftwareVerifier.head) :=
  theCandidate_first rfl note_selection (fun _ hr => absurd hr List.not_mem_nil)

theorem patch_request :
    readRequest runtime [] patchWorld = .ok patchRequest :=
  bind_eq_ok.mpr ⟨"", rfl, bind_eq_ok.mpr ⟨patchRequest, rfl,
    bind_eq_ok.mpr ⟨(), guardOk_eq_ok.mpr (decide_eq_true ⟨rfl, rfl, rfl⟩), rfl⟩⟩⟩

theorem run_child_accepts_iff_note : ∃ response,
    runChild runtime Cli.noteReaders [] "patch.json" patchWorld = .ok response ∧
      response.verdict = .accept :=
  (run_child_accepts_iff patch_request).mpr
    ⟨noteReference, "/work", _, Cli.noteAdded, SoftwareVerifier.theCandidate_ok patch_candidate,
      by decide, by decide, ⟨noteBytes, rfl, note_record⟩,
      fun _ => ⟨noteTree, rfl, rfl, note_subject⟩⟩

end

end PatchVerifier

end Checkspan
