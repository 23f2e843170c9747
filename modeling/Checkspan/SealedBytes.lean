import Checkspan.Artifacts
import Checkspan.Issuance
import Checkspan.PatchVerifier
import Checkspan.PolicySteps

/-!
# Sealed bytes and verdicts

A receipt is issued from the answer of a verifier child. The file the child read or left holds
the bytes that were sealed, so the verdict is about the content behind the receipt's result
digest; unless a check whose attempt is sealed is run again.
-/

namespace Checkspan

open Process Transition

/-! ### What a child sees -/

/-- A receipt, the sealed attempt it judges, and the last child that ran before its call admitted
it: the receipt is issued from the child's answer, under the contract of the node, and the file
of the child had bytes of the attempt's result digest. -/
structure IssuedOver (b : Build) (p : Sessions) (r : VerifierReceipt) (a : Attempt)
    (node : NodeSpec) (args : ChildArgs) (request : VerifierRequest) (child : ChildEnd)
    (response : VerifierResponse) (bytes : List UInt8) : Prop where
  admitted : ∃ i before after spec run now,
    p.MadeAt i (before ++ Did.ran args request child :: after) (Did.admitted spec run r now) ∧
      ∀ y ∈ after, ∀ args request, y.effect ≠ .child args request
  answered : Controller.childOutcome b request child = .ok response
  issued : ∃ id issuer now, Receipts.issue b.runtime response node a id r.subject issuer now
    { validUntil := none, conditions := [] } = .ok r
  judged : Judged p.world.store r a
  contract : ∀ run spec, p.world.store.Stored run spec → run.runId = r.attempt.runId →
    spec.findNode r.attempt.node.nodeId = some node
  subject_eq : request.subject = r.subject
  verifier_eq : request.verifier = node.acceptance.verifier
  checks_eq : request.requiredChecks = node.acceptance.requiredChecks
  seen : child.seen = some bytes
  digest_eq : ∃ result, a.result = some result ∧ result.digest = artifactDigest b.runtime bytes

namespace IssuedOver

variable {b : Build} {p : Sessions} {r : VerifierReceipt} {a : Attempt} {node : NodeSpec}
  {args : ChildArgs} {request : VerifierRequest} {child : ChildEnd} {response : VerifierResponse}
  {bytes : List UInt8}

theorem made (h : IssuedOver b p r a node args request child response bytes) :
    ∃ i past, p.MadeAt i past (Did.ran args request child) := by
  obtain ⟨i, before, after, spec, run, now, hmade, -⟩ := h.admitted
  exact ⟨i, before, hmade.before rfl⟩

theorem attempt_eq (h : IssuedOver b p r a node args request child response bytes) :
    request.attempt = r.attempt := by
  obtain ⟨id, issuer, now, hissued⟩ := h.issued
  obtain ⟨-, hattempt, -⟩ := Receipts.issue_ok b.runtime hissued
  have hecho := (VerifierHost.run_eq_ok.mp h.answered).2.2
  exact hecho.symm.trans hattempt.symm

end IssuedOver

section

variable {b : Build} {docs : GraphSpec → Prop} {allowed : Sessions → SessionMove → Prop}
  {p : Sessions}

end

/-! ### What an acceptance says of the content -/

open Validation

/-- A child that answers is the verifier its arguments name, run on the request and on the file
it saw, and a software child leaves the text of its result. `pretty` is `to_vec_pretty` with a
line feed. -/
inductive Answers (b : Build) (readers : Readers) (pretty : SoftwareCheckResult → List UInt8)
    (request : VerifierRequest) (child : ChildEnd) (response : VerifierResponse) : ChildArgs → Prop
  | patch (artifact : String) (w : PatchVerifier.World)
      (hrequest : PatchVerifier.readRequest b.runtime b.patchSchema w = .ok request)
      (hfile : w.artifact.toOption = child.seen)
      (hrun : PatchVerifier.runChild b.runtime readers b.patchSchema artifact w = .ok response) :
      Answers b readers pretty request child response (.patch artifact)
  | software (profile out : String) (w : SoftwareVerifier.World) (a : SoftwareVerifier.Answer)
      (hrequest : SoftwareVerifier.readRequest w = .ok request)
      (hrun : SoftwareVerifier.runChild b.runtime w = .ok a) (hresponse : a.response = response)
      (hfile : child.seen = some (pretty a.result)) :
      Answers b readers pretty request child response (.software profile out)

/-- A child whose answer the host takes is one of the two verifiers. -/
def Did.Verified (b : Build) (readers : Readers) (pretty : SoftwareCheckResult → List UInt8)
    (x : Did) : Prop :=
  ∀ args request child response, x = Did.ran args request child →
    Controller.childOutcome b request child = .ok response →
    Answers b readers pretty request child response args

def Verifiers (b : Build) (readers : Readers) (pretty : SoftwareCheckResult → List UInt8) :
    SessionMove → Prop
  | .act _ x => Did.Verified b readers pretty x
  | _ => True

/-- What stands in the bytes of an accepted result: a valid patch document, of the receipt's
subject when the contract asks for the base; or a check result that accepts the subject, every
required check passed, in order. -/
inductive AcceptedContent (rt : Runtime) (readers : Readers)
    (pretty : SoftwareCheckResult → List UInt8) (r : VerifierReceipt) (required : List Ident)
    (bytes : List UInt8) : Prop
  | patch (patch : PatchResult)
      (record : (validate readers Limits.default bytes).record = some (.patchResult patch))
      (subject : PatchVerifier.baseMatches ∈ required →
        ∃ d, Cli.patchSubjectDigest rt patch = .ok d ∧ r.subject = "patch_subject:" ++ d.text)
  | check (result : SoftwareCheckResult) (written : bytes = pretty result)
      (attempt : result.attempt = r.attempt) (subject : result.subject = r.subject)
      (conclusion : result.conclusion = .accept) (ran : result.checks.map (·.id) = required)
      (passed : ∀ c ∈ result.checks, c.outcome = .passed)

section

variable {b : Build} {readers : Readers} {pretty : SoftwareCheckResult → List UInt8}
  {request : VerifierRequest} {child : ChildEnd} {response : VerifierResponse} {args : ChildArgs}
  {bytes : List UInt8}

/-- The result of a software child that answered, by its request. -/
theorem SoftwareVerifier.runChild_result {rt : Runtime} {w : SoftwareVerifier.World}
    {a : SoftwareVerifier.Answer} (hrequest : SoftwareVerifier.readRequest w = .ok request)
    (h : SoftwareVerifier.runChild rt w = .ok a) :
    a.result.attempt = request.attempt ∧ a.result.subject = request.subject ∧
      a.result.checks.map (·.id) = request.requiredChecks ∧
      (a.response.verdict = .accept ↔ a.result.conclusion = .accept) ∧
      (a.result.conclusion = .accept → ∀ c ∈ a.result.checks, c.outcome = .passed) := by
  obtain ⟨request', hrequest', h⟩ := bind_ok h
  obtain rfl := Except.ok.inj (hrequest.symm.trans hrequest')
  obtain ⟨profile, -, h⟩ := bind_ok h
  obtain ⟨⟨reference, root, frozen⟩, -, h⟩ := bind_ok h
  obtain ⟨specs, hspecs, h⟩ := bind_ok h
  obtain ⟨before, -, h⟩ := bind_ok h
  obtain ⟨_, hsubject, h⟩ := bind_ok h
  rw [runChecks_eq] at h
  obtain ⟨after, -, h⟩ := bind_ok h
  obtain ⟨_, -, h⟩ := bind_ok h
  obtain ⟨_, -, h⟩ := bind_ok h
  cases h
  refine ⟨rfl, (of_decide_eq_true (guardOk_ok hsubject)).1, ?_, responseOf_verdict request _, ?_⟩
  · refine (zipWith_ids (processes_length before.root [] specs)).trans ?_
    exact specs_ids (findSpecs_ok hspecs)
  · intro hconclusion c hc
    have hall : SoftwareCheckResult.allPassed (List.zipWith (runCheck rt) specs
        (processes w before.root [] specs)) = true := by
      by_contra hnot
      simp [resultOf, hnot] at hconclusion
    exact of_decide_eq_true (List.all_eq_true.mp hall c hc)

/-- What an accepting child of the two leaves behind. -/
theorem Answers.accepted {r : VerifierReceipt}
    (h : Answers b readers pretty request child response args)
    (hseen : child.seen = some bytes) (hattempt : request.attempt = r.attempt)
    (hsubject : request.subject = r.subject) (haccept : response.verdict = .accept) :
    AcceptedContent b.runtime readers pretty r request.requiredChecks bytes := by
  cases h with
  | patch artifact w hrequest hfile hrun =>
    obtain ⟨reference, root, frozen, patch, -, -, -, ⟨found, hfound, hrecord⟩, hmatches⟩ :=
      PatchVerifier.runChild_accept hrequest hrun haccept
    rw [hfound] at hfile
    obtain rfl := Option.some.inj (hfile.trans hseen)
    refine .patch patch hrecord ?_
    intro hbase
    obtain ⟨captured, -, hcaptured, hdigest⟩ := hmatches hbase
    exact ⟨_, hdigest, (hcaptured.trans hsubject).symm⟩
  | software profile out w a hrequest hrun hresponse hfile =>
    obtain ⟨hto, habout, hran, hverdict, hpassed⟩ :=
      SoftwareVerifier.runChild_result hrequest hrun
    have hconclusion := hverdict.mp (hresponse ▸ haccept)
    exact .check a.result (Option.some.inj (hseen.symm.trans hfile)) (hto.trans hattempt)
      (habout.trans hsubject) hconclusion hran (hpassed hconclusion)

variable {docs : GraphSpec → Prop} {allowed : Sessions → SessionMove → Prop}

theorem verified_invariant (hchildren : ∀ s m, allowed s m → Verifiers b readers pretty m) :
    ((sessions b docs).system allowed).Invariant
      (fun p => ∀ t ∈ p.threads, Along (fun _ => Did.Verified b readers pretty) t.past) := by
  refine Machine.along_invariant (P := fun _ _ => Did.Verified b readers pretty) (fun (p : Sessions)
    (hp : ((sessions b docs).system allowed).Reachable p) => hp) ?_ ?_
  · exact fun _ _ _ _ _ _ _ h => h
  · exact fun p i past e k r w _ _ hallow _ _ => hchildren p _ hallow

/-- The child of a check that answered left the text of a result of its verdict. -/
theorem Check.wrote (hchildren : ∀ s m, allowed s m → Verifiers b readers pretty m) {p : Sessions}
    (hp : ((sessions b docs).system allowed).Reachable p) {c : Command} (k : Check b c) {i : Nat}
    {tail : List Did} {x : Did} (hmade : p.MadeAt i (k.history ++ tail) x) :
    ∃ result, k.child.seen = some (pretty result) ∧ result.attempt = k.request.attempt ∧
      (k.response.verdict = .accept ↔ result.conclusion = .accept) := by
  have hran := @Process.Pool.MadeAt.before _ _ _ _ _ _ _ _ hmade
    (k.toFreeze.history ++ [Did.dirMade k.dir] ++ [Did.exeFound])
    (Did.bytesRead k.path k.bytes :: tail)
    (Did.ran (.software k.profile k.path) k.request k.child) (by rw [Check.history]; simp)
  obtain ⟨t, ht, rest, hpast⟩ := hran
  have hanswers := verified_invariant hchildren p hp t (List.mem_of_getElem? ht) _ _ rest hpast
    _ _ _ _ rfl k.answered
  cases hanswers with
  | software profile out w a hrequest hrun hresponse hfile =>
    obtain ⟨hto, -, -, hverdict, -⟩ := SoftwareVerifier.runChild_result hrequest hrun
    exact ⟨a.result, hfile, hto, hresponse ▸ hverdict⟩

/-- No text of a check result reads as a patch result. -/
def ReadsApart (readers : Readers) (pretty : SoftwareCheckResult → List UInt8) : Prop :=
  ∀ result patch, (validate readers Limits.default (pretty result)).record ≠
    some (.patchResult patch)

end

/-! ### A run with both verifiers -/

namespace Verified

open Pilot (zeroDigest one canonical)
open Combined (csCi ciId proofPort tree prints)
open PatchVerifier (runtime noteBytes noteTree spec run noteReference patchRequest patchWorld
  theCandidate_first note_selection note_subject note_record patch_candidate patch_request)

/-- The accepted patch, as evidence of the check. -/
def proofReference : EvidenceRef :=
  { portName := proofPort.name, locator := "receipt:rcpt-cs_patch-1"
    subject := "node:combined/cs_patch@1", version := "rcpt-cs_patch-1"
    contentDigest := zeroDigest
    provenance := { producer := "run:run-0001"
                    attestationRef := some "receipt:rcpt-cs_patch-1" }
    policyRef := Pilot.policy, validUntil := none }

def ciRequest : VerifierRequest :=
  Controller.requestFor csCi run ciId one (SoftwareVerifier.patchSubject noteTree)
    [noteReference, proofReference] zeroDigest

def ciWorld : SoftwareVerifier.World :=
  { SoftwareVerifier.oneCheckWorld with
    readRequest := fun _ => .ok ciRequest
    capture := fun _ _ _ => .ok noteTree }

def patchAnswer : VerifierResponse :=
  PatchVerifier.responseOf patchRequest
    [PatchVerifier.reportFor PatchVerifier.artifactExists true none,
      PatchVerifier.reportFor PatchVerifier.baseMatches true none]

def ciResult : SoftwareCheckResult :=
  SoftwareVerifier.resultOf ciWorld ciRequest (SoftwareVerifier.patchSubject noteTree) noteTree
    [SoftwareVerifier.runCheck runtime SoftwareVerifier.testCheck
      (ciWorld.process [] SoftwareVerifier.testCheck "/work")]

def ciAnswer : SoftwareVerifier.Answer :=
  { ran := [SoftwareVerifier.testCheck], result := ciResult
    response := SoftwareVerifier.responseOf ciRequest ciResult }

def pretty (result : SoftwareCheckResult) : List UInt8 :=
  (canonical result.toJson ++ "\n").toByteArray.data.toList

def build : Build :=
  { runtime := runtime
    decoder := { next := fun bytes => match bytes with
      | [0] => some (.ok (patchAnswer, 1))
      | [1] => some (.ok (ciAnswer.response, 1))
      | _ => none }
    patchSchema := [] }

theorem patch_answers (artifact : String) :
    PatchVerifier.runChild runtime Cli.noteReaders [] artifact patchWorld = .ok patchAnswer := by
  refine bind_eq_ok.mpr ⟨patchRequest, patch_request, bind_eq_ok.mpr ⟨_, patch_candidate,
    bind_eq_ok.mpr ⟨(), rfl, ?_⟩⟩⟩
  rw [PatchVerifier.checkArtifact_reads rfl note_record]
  dsimp only
  rw [PatchVerifier.checkBase_matches ⟨noteTree, rfl, rfl, note_subject⟩, if_pos (by decide)]
  rfl

theorem ci_candidate : SoftwareVerifier.theCandidate ciRequest = .ok (noteReference, "/work",
    locatorSelection .workingTree SoftwareVerifier.head SoftwareVerifier.head) := by
  have hproof : codeSelection proofReference.locator = none := by decide +kernel
  refine @theCandidate_first _ _ [proofReference] _ rfl note_selection ?_
  intro r hr
  rw [List.mem_singleton.mp hr, hproof]

theorem ci_answers : SoftwareVerifier.runChild runtime ciWorld = .ok ciAnswer := by
  have hread : ciWorld.readProfile SoftwareVerifier.oneCheckProfile =
      .ok ⟨Combined.softwareVerifier.id, Combined.softwareVerifier.version,
        [SoftwareVerifier.testCheck]⟩ := by
    simp [ciWorld, SoftwareVerifier.oneCheckWorld]
  have hprofile : SoftwareVerifier.readProfile runtime ciWorld ciRequest =
      .ok ⟨Combined.softwareVerifier.id, Combined.softwareVerifier.version,
        [SoftwareVerifier.testCheck]⟩ := by
    refine bind_eq_ok.mpr ⟨SoftwareVerifier.oneCheckProfile, rfl, bind_eq_ok.mpr ⟨(), rfl,
      bind_eq_ok.mpr ⟨_, mapError_eq_ok.mpr hread, bind_eq_ok.mpr ⟨(), rfl, rfl⟩⟩⟩⟩
  refine bind_eq_ok.mpr
    ⟨ciRequest, rfl, bind_eq_ok.mpr ⟨_, hprofile, bind_eq_ok.mpr ⟨_, ci_candidate,
    bind_eq_ok.mpr ⟨[SoftwareVerifier.testCheck], rfl, bind_eq_ok.mpr ⟨noteTree, rfl,
    bind_eq_ok.mpr
      ⟨(), guardOk_eq_ok.mpr (decide_eq_true ⟨rfl, rfl⟩), bind_eq_ok.mpr ⟨noteTree, rfl,
    bind_eq_ok.mpr ⟨(), guardOk_eq_ok.mpr (decide_eq_true rfl), rfl⟩⟩⟩⟩⟩⟩⟩⟩

/-- The child is one of the two verifiers. -/
def childSound : ChildArgs → VerifierRequest → ChildEnd → Bool
  | .patch _, request, child => request = patchRequest ∧ child.seen = some noteBytes ∧
      Controller.childOutcome build request child = .ok patchAnswer
  | .software _ _, request, child => request = ciRequest ∧ child.seen = some (pretty ciResult) ∧
      Controller.childOutcome build request child = .ok ciAnswer.response

def sound : Did → Bool
  | ⟨.child args request, r⟩ => childSound args request r
  | _ => true

theorem childSound_answers {args : ChildArgs} {request : VerifierRequest} {child : ChildEnd}
    {response : VerifierResponse} (h : childSound args request child = true)
    (hanswered : Controller.childOutcome build request child = .ok response) :
    Answers build Cli.noteReaders pretty request child response args := by
  cases args with
  | patch artifact =>
    obtain ⟨rfl, hseen, hout⟩ := of_decide_eq_true h
    obtain rfl := Except.ok.inj (hout.symm.trans hanswered)
    exact .patch artifact patchWorld patch_request hseen.symm (patch_answers artifact)
  | software profile out =>
    obtain ⟨rfl, hseen, hout⟩ := of_decide_eq_true h
    obtain rfl := Except.ok.inj (hout.symm.trans hanswered)
    exact .software profile out ciWorld ciAnswer rfl ci_answers rfl hseen

theorem sound_verified (x : Did) (h : sound x = true) :
    Did.Verified build Cli.noteReaders pretty x := by
  rintro args request child response rfl hanswered
  exact childSound_answers h hanswered

def guard (p : Sessions) (i : Nat) (x : Did) : Bool := Combined.fresh p i x && sound x

def Allowed (p : Sessions) (m : SessionMove) : Prop :=
  Unrepeated p m ∧ Verifiers build Cli.noteReaders pretty m

theorem guard_allowed (p : Sessions) (i : Nat) (x : Did) (h : guard p i x = true) :
    Allowed p (.act i x) := by
  obtain ⟨hfresh, hsound⟩ := Bool.and_eq_true_iff.mp h
  exact ⟨Combined.fresh_unrepeated p i x hfresh, sound_verified x hsound⟩

def workspace : Workspace := { Combined.workspace with graph := .ok spec }
def step : Command := { Combined.step with ws := workspace }

def host (stdout bytes : List UInt8) : Host :=
  { clock := "2026-01-01T00:00:01Z"
    seen := { tree zeroDigest with capture := fun _ => .ok noteTree.seen }
    child := prints stdout bytes }

def created : Sessions :=
  outside build (.createRun run) (outside build (.storeGraph spec)
    ⟨{ store := Store.empty, files := fun _ => none }, []⟩)

def passes (mark : UInt8) (i : Nat) (p : Sessions) : Sessions :=
  playOn build (host [mark] (pretty ciResult)) guard i 14 (p.call (step.call build).run)

theorem created_reachable : ((sessions build (· = spec)).system Allowed).Reachable created := by
  have hinit : ((sessions build (· = spec)).system Allowed).Reachable
      ⟨{ store := Store.empty, files := fun _ => none }, []⟩ := .init ⟨rfl, rfl⟩
  have hstored := outside_reachable hinit (.storeGraph spec) trivial rfl ⟨trivial, trivial⟩
  exact outside_reachable hstored (.createRun run) trivial trivial ⟨trivial, trivial⟩

theorem passes_reachable {p : Sessions}
    (hp : ((sessions build (· = spec)).system Allowed).Reachable p) (mark : UInt8) (i : Nat) :
    ((sessions build (· = spec)).system Allowed).Reachable (passes mark i p) := by
  refine playOn_reachable (call_reachable hp step ?_ ⟨trivial, trivial⟩) guard_allowed _ _ _
  intro g hg
  exact (Except.ok.inj hg).symm

theorem distinct_spec : Distinct build.runtime (· = spec) := by
  rintro g g' d rfl rfl - - -
  rfl

/-- A written check result ends in a line feed, and the one document that is read does not. -/
theorem apart : ReadsApart Cli.noteReaders pretty := by
  intro result patch hrecord
  have hne : canonical result.toJson ++ "\n" ≠ canonical Cli.noteAdded.toJson := by
    intro hsame
    have hlast := congrArg (fun s : String => s.toByteArray.data.toList.getLast?) hsame
    have hnote : (canonical Cli.noteAdded.toJson).toByteArray.data.toList.getLast? = some 125 := by
      decide +kernel
    have hbreak : "\n".toByteArray.data = #[10] := by decide +kernel
    simp [String.toByteArray_append, hnote, hbreak] at hlast
  cases hstages : stages Cli.noteReaders Limits.default (pretty result) with
  | error e =>
    rw [validate, hstages] at hrecord
    cases hrecord
  | ok found =>
    obtain ⟨_, -, hstages⟩ := bind_ok hstages
    obtain ⟨text, htext, hstages⟩ := bind_ok hstages
    obtain ⟨value, hparse, -⟩ := bind_ok hstages
    obtain rfl := Option.some.inj ((Cli.fromUTF8?_toByteArray _).symm.trans (someOr_ok htext))
    have hvisit : Cli.noteReaders.serde.visit (canonical result.toJson ++ "\n") =
        .error "expected value" := by simp only [Cli.noteReaders, hne, if_false]
    have hparse := mapError_ok hparse
    rw [parseStrict, hvisit] at hparse
    cases hparse

end Verified

namespace Combined

open Pilot (zeroDigest)

/-- The second call runs the check and dies when it has sealed the refused result; the third runs
the child again, which accepts and leaves another result. -/
def patched : Sessions := calls (host zeroDigest [0, 1] [0]) step 0 14 created
def refused : Sessions := calls (host zeroDigest [1, 0] [0]) step 1 13 patched
end Combined

end Checkspan
