import Checkspan.Captures
import Checkspan.Contracts.Software
import Checkspan.Plays

/-!
# The software-check verifier (`src/verifiers/software.rs`)

One child process: a request in, the required checks run one after another on the captured
candidate, a result record and a response out. What the processes and captures show is an
oracle; each is asked with the checks that were run before.
-/

namespace Checkspan

/-! ### The result record's own check (`contracts/software.rs:143-281`) -/

inductive SoftwareError where
  | emptySubject
  | noChecks
  | duplicateCheck (id : String)
  | noRequiredChecks
  | duplicateRequired (id : String)
  | acceptWithoutCheck (id : String)
  | acceptWithFailure (id : String)
  | rejectWithoutFailure
  | timedOutWithExit (id : String)
  | completedWithoutExit (id : String)
  | durationNotExact (id : String)
deriving DecidableEq

def SoftwareError.display : SoftwareError → String
  | emptySubject => "subject is empty"
  | noChecks => "no check ran"
  | duplicateCheck id => "check " ++ id.quote ++ " appears twice"
  | noRequiredChecks => "no check is required"
  | duplicateRequired id => "required check " ++ id.quote ++ " appears twice"
  | acceptWithoutCheck id => "conclusion is accept but required check " ++ id.quote ++
      " did not run"
  | acceptWithFailure id => "conclusion is accept but check " ++ id.quote ++ " is not passed"
  | rejectWithoutFailure => "conclusion is reject but every check passed"
  | timedOutWithExit id => "timed-out check " ++ id.quote ++ " carries an exit code"
  | completedWithoutExit id => "completed check " ++ id.quote ++ " lacks its exit code"
  | durationNotExact id => "duration of check " ++ id.quote ++ " exceeds 2^53 - 1"

namespace SoftwareCheckResult

def maxExactInteger : Nat := 2 ^ 53 - 1

/-- A check that timed out has no exit code, any other has one. -/
def exitErrors (c : CheckExecution) : List SoftwareError :=
  match c.outcome, c.exitCode with
  | .timedOut, some _ => [.timedOutWithExit c.id.text]
  | .passed, none => [.completedWithoutExit c.id.text]
  | .failed, none => [.completedWithoutExit c.id.text]
  | _, _ => []

def checkErrors (ran : List Ident) (c : CheckExecution) : List SoftwareError :=
  (if c.id ∈ ran then [.duplicateCheck c.id.text] else []) ++ exitErrors c ++
  (if c.durationMs.toNat > maxExactInteger then [.durationNotExact c.id.text] else [])

def checksErrors (ran : List Ident) : List CheckExecution → List SoftwareError
  | [] => []
  | c :: rest => checkErrors ran c ++ checksErrors (c.id :: ran) rest

def allPassed (checks : List CheckExecution) : Bool := checks.all (fun c => c.outcome = .passed)

def conclusionErrors (r : SoftwareCheckResult) : List SoftwareError :=
  match r.conclusion with
  | .accept =>
    (r.requiredChecks.filter (fun id => id ∉ r.checks.map (·.id))).map
      (fun id => .acceptWithoutCheck id.text) ++
    (r.checks.filter (fun c => c.outcome ≠ .passed)).map (fun c => .acceptWithFailure c.id.text)
  | .reject => if allPassed r.checks then [.rejectWithoutFailure] else []

/-- `check_bindings`: every internal inconsistency, in document order. -/
def checkBindings (r : SoftwareCheckResult) : List SoftwareError :=
  (if isBlank r.subject then [.emptySubject] else []) ++
  (if r.requiredChecks.isEmpty then [.noRequiredChecks] else []) ++
  (repeats r.requiredChecks).map (fun id => .duplicateRequired id.text) ++
  (if r.checks.isEmpty then [.noChecks] else []) ++
  checksErrors [] r.checks ++ conclusionErrors r

end SoftwareCheckResult

/-! ### One check -/

structure CheckSpec where
  id : Ident
  program : String
  args : List String
  env : List (String × String)
  timeoutMs : UInt64

/-- The pinned validation profile; `profile` is `Exactly<1>`. -/
structure ValidationProfile where
  id : Ident
  version : Version
  checks : List CheckSpec

/-- How a process ended; on a signal it has no code. -/
inductive ExitStatus where
  | code (n : Int32)
  | signal
deriving DecidableEq

def ExitStatus.success (s : ExitStatus) : Bool := s = .code 0

def ExitStatus.toCode : ExitStatus → Option Int32
  | .code n => some n
  | .signal => none

inductive TryWait where
  | exited (status : ExitStatus)
  | running
  | failed

/-- One process: whether it started, what `try_wait` said while its deadline was ahead and
when it had passed, what was read of its output, and how long it took. -/
structure ProcessRun where
  spawned : Except String Unit
  early : List TryWait
  late : TryWait
  stdout : List UInt8
  stderr : List UInt8
  elapsedMs : Nat

namespace ProcessRun

/-- The wait loop: `none` when the process was killed. -/
def waitLoop (late : TryWait) : List TryWait → Option ExitStatus
  | [] =>
    match late with
    | .exited status => some status
    | .running => none
    | .failed => none
  | .exited status :: _ => some status
  | .failed :: _ => none
  | .running :: rest => waitLoop late rest

def status (p : ProcessRun) : Option ExitStatus := waitLoop p.late p.early

/-- The process started, was not killed and exited successfully. -/
def Succeeded (p : ProcessRun) : Prop :=
  p.spawned = .ok () ∧ ∃ status, p.status = some status ∧ status.success = true

end ProcessRun

namespace SoftwareVerifier

variable (rt : Runtime)

/-- `{:?}` of an exit code. -/
def debugCode : Option Int32 → String
  | some n => "Some(" ++ toString n.toInt ++ ")"
  | none => "None"

/-- `run_check`, with what its process showed. -/
def runCheck (spec : CheckSpec) (p : ProcessRun) : CheckExecution :=
  match p.spawned with
  | .error e =>
    { id := spec.id, outcome := .failed, exitCode := some (-1)
      durationMs := UInt64.ofNat p.elapsedMs, stdoutDigest := artifactDigest rt []
      stderrDigest := artifactDigest rt []
      detail := some ("cannot start " ++ spec.program ++ ": " ++ e) }
  | .ok () =>
    let (outcome, exitCode, detail) :=
      match p.status with
      | some status =>
        if status.success then (SoftwareCheckOutcome.passed, status.toCode, none)
        else (.failed, status.toCode.or (some (-1)),
          some ("exit status " ++ debugCode status.toCode))
      | none => (.timedOut, none, some ("timed out after " ++ toString spec.timeoutMs ++ "ms"))
    { id := spec.id, outcome := outcome, exitCode := exitCode
      durationMs := UInt64.ofNat p.elapsedMs, stdoutDigest := artifactDigest rt p.stdout
      stderrDigest := artifactDigest rt p.stderr, detail := detail }

/-! ### The child -/

/-- What one child finds outside. A process and a capture are asked with the checks that ran
before them. -/
structure World where
  stdin : Except String String
  /-- `serde_json::from_str`. -/
  readRequest : String → Except String VerifierRequest
  profileBytes : Except String (List UInt8)
  /-- `serde_json::from_slice`. -/
  readProfile : List UInt8 → Except String ValidationProfile
  capture : List CheckSpec → String → Selection → Except String CapturedPatch
  process : List CheckSpec → CheckSpec → String → ProcessRun
  environment : EnvironmentInfo
  /-- `fs::write` of the result. -/
  writeResult : SoftwareCheckResult → Except String Unit

inductive Exit where
  | profile
  | subject
  | contract
  | request
deriving DecidableEq

def Exit.code : Exit → Int32
  | profile => 4
  | subject => 5
  | contract => 6
  | request => 7

/-- A child that answered: the checks it ran, in order, the result it wrote and the response
it printed. -/
structure Answer where
  ran : List CheckSpec
  result : SoftwareCheckResult
  response : VerifierResponse

variable (w : World)

/-- Runs checks one after another after those in `ran`. -/
def runChecks (root : String) (ran : List CheckSpec) :
    List CheckSpec → List CheckExecution × List CheckSpec
  | [] => ([], ran)
  | spec :: rest =>
    let execution := runCheck rt spec (w.process ran spec root)
    let (checks, ran) := runChecks root (ran ++ [spec]) rest
    (execution :: checks, ran)

/-- The pinned definitions of the required checks, the first of each id. -/
def findSpecs (profile : ValidationProfile) : List Ident → Except Exit (List CheckSpec)
  | [] => .ok []
  | id :: rest => do
    let spec ← someOr (profile.checks.find? (fun c => c.id = id)) .contract
    let specs ← findSpecs profile rest
    .ok (spec :: specs)

/-- The evidence entries that name a candidate. -/
def candidates (request : VerifierRequest) : List (EvidenceRef × String × Selection) :=
  request.evidence.filterMap (fun r => (codeSelection r.locator).map (fun c => (r, c)))

def patchSubject (c : CapturedPatch) : String := "patch_subject:" ++ c.subjectDigest.text

def report (c : CheckExecution) : CheckReport where
  id := c.id
  outcome := match c.outcome with
    | .passed => .passed
    | .failed => .failed
    | .timedOut => .failed
  detail := c.detail

def checkFailed : Ident := ⟨"check_failed", by decide⟩

def readRequest : Except Exit VerifierRequest := do
  let text ← w.stdin.mapError (fun _ => .request)
  (w.readRequest text).mapError (fun _ => .request)

/-- The profile, when its bytes, id and version are the pinned ones. -/
def readProfile (request : VerifierRequest) : Except Exit ValidationProfile := do
  let bytes ← w.profileBytes.mapError (fun _ => .profile)
  guardOk (artifactDigest rt bytes = request.verifier.digest) .profile
  let profile ← (w.readProfile bytes).mapError (fun _ => .profile)
  guardOk (profile.id = request.verifier.id ∧ profile.version = request.verifier.version) .profile
  .ok profile

def theCandidate (request : VerifierRequest) : Except Exit (EvidenceRef × String × Selection) :=
  match candidates request with
  | [candidate] => .ok candidate
  | _ => .error .contract

def resultOf (request : VerifierRequest) (subject : String) (before : CapturedPatch)
    (checks : List CheckExecution) : SoftwareCheckResult :=
  { record := .softwareCheckResult, schemaVersion := 1, attempt := request.attempt
    subject := subject, candidate := before.result.candidate
    baseCommit := before.result.baseCommit, repository := before.result.repository
    profile := request.verifier, environment := w.environment
    requiredChecks := request.requiredChecks, checks := checks
    conclusion := if SoftwareCheckResult.allPassed checks then .accept else .reject }

def responseOf (request : VerifierRequest) (result : SoftwareCheckResult) : VerifierResponse :=
  let failed := result.checks.filter (fun c => c.outcome ≠ .passed)
  { verifier := request.verifier, attempt := request.attempt
    verdict := match result.conclusion with
      | .accept => .accept
      | .reject => .reject
    checks := result.checks.map report
    reasonCode := if failed.isEmpty then none else some checkFailed
    reasonText := if failed.isEmpty then none
      else some ("not passed: " ++ joinText ", " (failed.map (·.id.text))) }

/-- `run_child`: an error is the exit code without an answer. -/
def runChild : Except Exit Answer := do
  let request ← readRequest w
  let profile ← readProfile rt w request
  let (reference, root, frozen) ← theCandidate request
  -- The checks run on the files as they are, so the working tree is what is captured.
  let selection : Selection := { candidate := .workingTree, base := frozen.base }
  let specs ← findSpecs profile request.requiredChecks
  let before ← (w.capture [] root selection).mapError (fun _ => .subject)
  guardOk (patchSubject before = request.subject ∧ patchSubject before = reference.subject) .subject
  let (checks, ran) := runChecks rt w before.root [] specs
  let after ← (w.capture ran root selection).mapError (fun _ => .subject)
  guardOk (after.subjectDigest = before.subjectDigest) .subject
  let result := resultOf w request (patchSubject before) before checks
  let _ ← (w.writeResult result).mapError (fun _ => .contract)
  .ok { ran := ran, result := result, response := responseOf request result }

/-! ### What an answer shows -/

/-- The processes of checks that run one after another after those in `ran`. -/
def processes (root : String) (ran : List CheckSpec) : List CheckSpec → List ProcessRun
  | [] => []
  | spec :: rest => w.process ran spec root :: processes root (ran ++ [spec]) rest

/-- A recorded check against its process: passed only by success, timed out only by being
killed. -/
structure Shows (p : ProcessRun) (c : CheckExecution) : Prop where
  passed : c.outcome = .passed ↔ p.Succeeded
  timedOut : c.outcome = .timedOut ↔ p.spawned = .ok () ∧ p.status = none

/-- A reported check against the recorded one. -/
structure Reports (c : CheckExecution) (r : CheckReport) : Prop where
  id : r.id = c.id
  passed : r.outcome = .passed ↔ c.outcome = .passed
  failed : r.outcome = .failed ↔ c.outcome ≠ .passed

/-- What holds of every answer to a request. -/
structure Answered (request : VerifierRequest) (a : Answer) : Prop where
  profile : ∃ bytes profile, w.profileBytes = .ok bytes ∧
    artifactDigest rt bytes = request.verifier.digest ∧ w.readProfile bytes = .ok profile ∧
    profile.id = request.verifier.id ∧ profile.version = request.verifier.version ∧
    List.Forall₂ (fun id spec => profile.checks.find? (fun c => c.id = id) = some spec)
      request.requiredChecks a.ran
  order : a.ran.map (·.id) = request.requiredChecks
  candidate : ∃ reference root frozen before after,
    candidates request = [(reference, root, frozen)] ∧ patchSubject before = reference.subject ∧
    w.capture [] root ⟨.workingTree, frozen.base⟩ = .ok before ∧
    patchSubject before = request.subject ∧
    w.capture a.ran root ⟨.workingTree, frozen.base⟩ = .ok after ∧
    patchSubject after = request.subject ∧
    List.Forall₂ Shows (processes w before.root [] a.ran) a.result.checks ∧
    (a.response.verdict = .accept ↔ ∀ p ∈ processes w before.root [] a.ran, p.Succeeded)
  decided : a.response.verdict = .accept ∨ a.response.verdict = .reject
  written : w.writeResult a.result = .ok ()
  conclusion : a.result.conclusion = .accept ↔ a.response.verdict = .accept
  bindings : a.result.checkBindings = []
  reports : List.Forall₂ Reports a.result.checks a.response.checks
  reason : a.response.reasonCode.isSome = true ↔ a.response.verdict = .reject

variable {rt w}

theorem runChecks_eq (root : String) (ran specs : List CheckSpec) :
    runChecks rt w root ran specs =
      (List.zipWith (runCheck rt) specs (processes w root ran specs), ran ++ specs) := by
  induction specs generalizing ran with
  | nil => simp [runChecks, processes]
  | cons spec rest ih => simp [runChecks, processes, ih]

theorem runCheck_id (spec : CheckSpec) (p : ProcessRun) : (runCheck rt spec p).id = spec.id := by
  unfold runCheck
  split <;> rfl

theorem runCheck_duration (spec : CheckSpec) (p : ProcessRun) :
    (runCheck rt spec p).durationMs = UInt64.ofNat p.elapsedMs := by
  unfold runCheck
  split <;> rfl

theorem runCheck_exit (spec : CheckSpec) (p : ProcessRun) :
    SoftwareCheckResult.exitErrors (runCheck rt spec p) = [] := by
  unfold runCheck
  split
  · rfl
  · cases hstatus : p.status with
    | none => rfl
    | some status =>
      cases status with
      | signal => rfl
      | code n =>
        by_cases hn : n = 0
        · subst hn
          rfl
        · have hfail : (ExitStatus.code n).success = false := by simp [ExitStatus.success, hn]
          simp [hfail, SoftwareCheckResult.exitErrors, ExitStatus.toCode]

theorem runCheck_shows (spec : CheckSpec) (p : ProcessRun) : Shows p (runCheck rt spec p) := by
  unfold runCheck
  split
  · rename_i e hspawned
    constructor <;> simp [ProcessRun.Succeeded, hspawned]
  · rename_i hspawned
    cases hstatus : p.status with
    | none => constructor <;> simp [ProcessRun.Succeeded, hspawned, hstatus]
    | some status =>
      cases hsuccess : status.success with
      | true => constructor <;> simp [ProcessRun.Succeeded, hspawned, hstatus, hsuccess]
      | false => constructor <;> simp [ProcessRun.Succeeded, hspawned, hstatus, hsuccess]

theorem report_reports (c : CheckExecution) : Reports c (report c) := by
  unfold report
  cases hc : c.outcome <;> constructor <;> simp [hc]

theorem findSpecs_ok {profile : ValidationProfile} {ids : List Ident} {specs : List CheckSpec}
    (h : findSpecs profile ids = .ok specs) :
    List.Forall₂
      (fun id spec => profile.checks.find? (fun c => c.id = id) = some spec) ids specs := by
  induction ids generalizing specs with
  | nil =>
    cases h
    exact .nil
  | cons id rest ih =>
    obtain ⟨spec, hspec, h⟩ := bind_ok h
    obtain ⟨specs, hspecs, h⟩ := bind_ok h
    cases h
    exact .cons (someOr_ok hspec) (ih hspecs)

theorem specs_ids {profile : ValidationProfile} {ids : List Ident} {specs : List CheckSpec}
    (h : List.Forall₂ (fun id spec => profile.checks.find? (fun c => c.id = id) = some spec)
      ids specs) : specs.map (·.id) = ids := by
  induction h with
  | nil => rfl
  | cons hfind _ ih =>
    have hid := List.find?_some hfind
    rw [List.map_cons, ih, of_decide_eq_true hid]

theorem processes_length (root : String) (ran specs : List CheckSpec) :
    (processes w root ran specs).length = specs.length := by
  induction specs generalizing ran with
  | nil => rfl
  | cons spec rest ih => rw [processes, List.length_cons, List.length_cons, ih]

theorem zipWith_ids {specs : List CheckSpec} {ps : List ProcessRun} (h : ps.length = specs.length) :
    (List.zipWith (runCheck rt) specs ps).map (·.id) = specs.map (·.id) := by
  induction specs generalizing ps with
  | nil => simp
  | cons spec specs ih =>
    obtain ⟨p, ps, rfl⟩ := List.exists_cons_of_length_eq_add_one h
    simp [runCheck_id, ih (Nat.succ.inj h)]

theorem zipWith_shows {specs : List CheckSpec} {ps : List ProcessRun}
    (h : ps.length = specs.length) :
    List.Forall₂ Shows ps (List.zipWith (runCheck rt) specs ps) := by
  induction specs generalizing ps with
  | nil =>
    rw [List.length_eq_zero_iff.mp h]
    exact .nil
  | cons spec specs ih =>
    obtain ⟨p, ps, rfl⟩ := List.exists_cons_of_length_eq_add_one h
    exact .cons (runCheck_shows spec p) (ih (Nat.succ.inj h))

theorem allPassed_iff {ps : List ProcessRun} {checks : List CheckExecution}
    (h : List.Forall₂ Shows ps checks) :
    SoftwareCheckResult.allPassed checks = true ↔ ∀ p ∈ ps, p.Succeeded := by
  induction h with
  | nil => simp [SoftwareCheckResult.allPassed]
  | cons hshows _ ih =>
    unfold SoftwareCheckResult.allPassed at ih ⊢
    rw [List.all_cons, Bool.and_eq_true, ih, decide_eq_true_eq, hshows.passed, List.forall_mem_cons]

theorem checksErrors_eq_nil {checks : List CheckExecution} (ran : List Ident)
    (hexit : ∀ c ∈ checks, SoftwareCheckResult.exitErrors c = [])
    (hduration : ∀ c ∈ checks, c.durationMs.toNat ≤ SoftwareCheckResult.maxExactInteger)
    (hids : (checks.map (·.id)).Nodup) (hran : ∀ c ∈ checks, c.id ∉ ran) :
    SoftwareCheckResult.checksErrors ran checks = [] := by
  induction checks generalizing ran with
  | nil => rfl
  | cons c rest ih =>
    obtain ⟨hexit_c, hexit⟩ := List.forall_mem_cons.mp hexit
    obtain ⟨hduration_c, hduration⟩ := List.forall_mem_cons.mp hduration
    obtain ⟨hran_c, hran⟩ := List.forall_mem_cons.mp hran
    rw [List.map_cons] at hids
    obtain ⟨hnew, hids⟩ := List.nodup_cons.mp hids
    have hrest : ∀ d ∈ rest, d.id ∉ c.id :: ran := by
      intro d hd hmem
      rcases List.mem_cons.mp hmem with heq | hmem
      · exact hnew (heq ▸ List.mem_map_of_mem hd)
      · exact hran d hd hmem
    rw [SoftwareCheckResult.checksErrors, ih (c.id :: ran) hexit hduration hids hrest,
      SoftwareCheckResult.checkErrors, if_neg hran_c, hexit_c, if_neg (by omega)]
    rfl

theorem mem_zipWith_runCheck {c : CheckExecution} {specs : List CheckSpec} {ps : List ProcessRun}
    (hc : c ∈ List.zipWith (runCheck rt) specs ps) : ∃ spec, ∃ p ∈ ps, c = runCheck rt spec p := by
  obtain ⟨k, hk, rfl⟩ := List.mem_iff_getElem.mp hc
  rw [List.getElem_zipWith]
  exact ⟨_, _, List.getElem_mem _, rfl⟩

theorem mem_processes {p : ProcessRun} {root : String} {ran specs : List CheckSpec}
    (hp : p ∈ processes w root ran specs) : ∃ ran spec, p = w.process ran spec root := by
  induction specs generalizing ran with
  | nil => cases hp
  | cons spec rest ih =>
    rcases List.mem_cons.mp hp with rfl | hp
    · exact ⟨ran, spec, rfl⟩
    · exact ih hp

theorem resultOf_bindings {request : VerifierRequest} {before : CapturedPatch} {root : String}
    {specs : List CheckSpec} (hne : request.requiredChecks ≠ [])
    (hnd : request.requiredChecks.Nodup) (hids : specs.map (·.id) = request.requiredChecks)
    (hshort : ∀ ran spec root, (w.process ran spec root).elapsedMs < 2 ^ 53) :
    (resultOf w request (patchSubject before) before
      (List.zipWith (runCheck rt) specs (processes w root [] specs))).checkBindings = [] := by
  have hlen := processes_length (w := w) root [] specs
  have hchecks : (List.zipWith (runCheck rt) specs (processes w root [] specs)).map (·.id) =
      specs.map (·.id) := zipWith_ids hlen
  rw [hids] at hchecks
  generalize hps : processes w root [] specs = ps at hlen hchecks ⊢
  have hprocess : ∀ p ∈ ps, p.elapsedMs < 2 ^ 53 := by
    intro p hp
    rw [← hps] at hp
    obtain ⟨ran, spec, rfl⟩ := mem_processes hp
    exact hshort ran spec root
  generalize hzip : List.zipWith (runCheck rt) specs ps = checks at hchecks ⊢
  have hsubject : isBlank (patchSubject before) = false := by
    simp [patchSubject, isBlank, isWhiteSpace]
  have hnonempty : checks ≠ [] := by
    rintro rfl
    exact hne hchecks.symm
  have hexit : ∀ c ∈ checks, SoftwareCheckResult.exitErrors c = [] := by
    intro c hc
    rw [← hzip] at hc
    obtain ⟨spec, p, -, rfl⟩ := mem_zipWith_runCheck hc
    exact runCheck_exit spec p
  have hduration : ∀ c ∈ checks, c.durationMs.toNat ≤ SoftwareCheckResult.maxExactInteger := by
    intro c hc
    rw [← hzip] at hc
    obtain ⟨spec, p, hp, rfl⟩ := mem_zipWith_runCheck hc
    have hlt := hprocess p hp
    rw [runCheck_duration, UInt64.toNat_ofNat', SoftwareCheckResult.maxExactInteger]
    omega
  have hran := checksErrors_eq_nil [] hexit hduration (hchecks ▸ hnd)
    (fun _ _ => List.not_mem_nil)
  have hconclusion :
      (resultOf w request (patchSubject before) before checks).conclusionErrors = [] := by
    unfold SoftwareCheckResult.conclusionErrors resultOf
    cases hall : SoftwareCheckResult.allPassed checks with
    | true =>
      have hpassed : ∀ c ∈ checks, c.outcome = .passed := by
        intro c hc
        exact of_decide_eq_true (List.all_eq_true.mp hall c hc)
      simp only [if_true, hchecks, List.append_eq_nil_iff, List.map_eq_nil_iff,
        List.filter_eq_nil_iff]
      refine ⟨?_, ?_⟩
      · intro id hid
        simpa using hid
      · intro c hc
        simpa using hpassed c hc
    | false => simp
  unfold SoftwareCheckResult.checkBindings
  rw [hconclusion]
  simp only [resultOf, hsubject, hran, (repeats_eq_nil _).mpr hnd, List.isEmpty_iff, hne, hnonempty]
  rfl

theorem responseOf_verdict (request : VerifierRequest) (result : SoftwareCheckResult) :
    (responseOf request result).verdict = .accept ↔ result.conclusion = .accept := by
  unfold responseOf
  cases result.conclusion <;> simp

theorem failed_isEmpty (checks : List CheckExecution) :
    (checks.filter (fun c => c.outcome ≠ .passed)).isEmpty =
      SoftwareCheckResult.allPassed checks := by
  rw [Bool.eq_iff_iff, List.isEmpty_iff, List.filter_eq_nil_iff]
  simp [SoftwareCheckResult.allPassed]

theorem responseOf_decided (request : VerifierRequest) (result : SoftwareCheckResult) :
    (responseOf request result).verdict = .accept ∨
    (responseOf request result).verdict = .reject := by
  unfold responseOf
  cases result.conclusion
  · exact Or.inl rfl
  · exact Or.inr rfl

theorem responseOf_reason (request : VerifierRequest) {result : SoftwareCheckResult}
    (h : result.conclusion = .accept ↔ SoftwareCheckResult.allPassed result.checks = true) :
    (responseOf request result).reasonCode.isSome = true ↔
      (responseOf request result).verdict = .reject := by
  unfold responseOf
  simp only [failed_isEmpty]
  cases hall : SoftwareCheckResult.allPassed result.checks with
  | true => simp [h.mpr hall]
  | false =>
    cases hc : result.conclusion with
    | accept => simp [h.mp hc] at hall
    | reject => simp

theorem readProfile_ok {request : VerifierRequest} {profile : ValidationProfile}
    (h : readProfile rt w request = .ok profile) : ∃ bytes, w.profileBytes = .ok bytes ∧
      artifactDigest rt bytes = request.verifier.digest ∧ w.readProfile bytes = .ok profile ∧
      profile.id = request.verifier.id ∧ profile.version = request.verifier.version := by
  obtain ⟨bytes, hbytes, h⟩ := bind_ok h
  obtain ⟨_, hdigest, h⟩ := bind_ok h
  obtain ⟨profile', hprofile, h⟩ := bind_ok h
  obtain ⟨_, hpin, h⟩ := bind_ok h
  cases h
  obtain ⟨hid, hversion⟩ := of_decide_eq_true (guardOk_ok hpin)
  exact ⟨bytes, mapError_ok hbytes, of_decide_eq_true (guardOk_ok hdigest), mapError_ok hprofile,
    hid, hversion⟩

theorem theCandidate_ok {request : VerifierRequest} {c : EvidenceRef × String × Selection}
    (h : theCandidate request = .ok c) : candidates request = [c] := by
  unfold theCandidate at h
  split at h
  · rename_i heq
    cases h
    exact heq
  · cases h

theorem run_child_answers {request : VerifierRequest} (hrequest : readRequest w = .ok request)
    (hne : request.requiredChecks ≠ []) (hnd : request.requiredChecks.Nodup)
    (hshort : ∀ ran spec root, (w.process ran spec root).elapsedMs < 2 ^ 53) {a : Answer}
    (h : runChild rt w = .ok a) : Answered rt w request a := by
  obtain ⟨request', hrequest', h⟩ := bind_ok h
  rw [hrequest] at hrequest'
  cases hrequest'
  obtain ⟨profile, hprofile, h⟩ := bind_ok h
  obtain ⟨⟨reference, root, frozen⟩, hcandidate, h⟩ := bind_ok h
  obtain ⟨specs, hspecs, h⟩ := bind_ok h
  obtain ⟨before, hbefore, h⟩ := bind_ok h
  obtain ⟨_, hsubject, h⟩ := bind_ok h
  rw [runChecks_eq] at h
  obtain ⟨after, hafter, h⟩ := bind_ok h
  obtain ⟨_, hsame, h⟩ := bind_ok h
  obtain ⟨_, hwrite, h⟩ := bind_ok h
  cases h
  have hspecs := findSpecs_ok hspecs
  have hids := specs_ids hspecs
  obtain ⟨hsubject, hreference⟩ := of_decide_eq_true (guardOk_ok hsubject)
  have hsame := of_decide_eq_true (guardOk_ok hsame)
  have hshows : List.Forall₂ Shows (processes w before.root [] specs)
      (List.zipWith (runCheck rt) specs (processes w before.root [] specs)) :=
    zipWith_shows (processes_length before.root [] specs)
  have hall := allPassed_iff hshows
  have hverdict := responseOf_verdict request (resultOf w request (patchSubject before) before
    (List.zipWith (runCheck rt) specs (processes w before.root [] specs)))
  have hconclusion : (resultOf w request (patchSubject before) before
      (List.zipWith (runCheck rt) specs (processes w before.root [] specs))).conclusion = .accept ↔
      SoftwareCheckResult.allPassed
        (List.zipWith (runCheck rt) specs (processes w before.root [] specs)) = true := by
    unfold resultOf
    cases SoftwareCheckResult.allPassed _ <;> simp
  obtain ⟨bytes, hpinned⟩ := readProfile_ok hprofile
  exact {
    profile := ⟨bytes, profile, hpinned.1, hpinned.2.1, hpinned.2.2.1, hpinned.2.2.2.1,
      hpinned.2.2.2.2, hspecs⟩
    order := hids
    candidate := ⟨reference, root, frozen, before, after, theCandidate_ok hcandidate, hreference,
      mapError_ok hbefore, hsubject, mapError_ok hafter,
      by rw [← hsubject, patchSubject, patchSubject, hsame], hshows,
      hverdict.trans (hconclusion.trans hall)⟩
    decided := responseOf_decided request _
    written := mapError_ok hwrite
    conclusion := hverdict.symm
    bindings := resultOf_bindings hne hnd hids hshort
    reports := List.forall₂_map_right_iff.mpr (List.forall₂_same.mpr (fun c _ => report_reports c))
    reason := responseOf_reason request hconclusion }

section
open Pilot (zeroDigest one policy get_eq)
open Combined (candidate required ciRef runId softwareVerifier)

def head : CommitId := ⟨"0123456789abcdef0123456789abcdef01234567", by decide +kernel⟩

def dirtyTree : CapturedPatch :=
  { root := "/work"
    result :=
      { record := .patchResult, schemaVersion := 1, repository := ⟨[head]⟩, baseCommit := head
        candidate := ⟨.workingTree, head, zeroDigest⟩, changes := [], capturedAt := Pilot.now
        tool := ⟨"git", "2.45.0"⟩ }
    subjectDigest := zeroDigest }

/-- A request for one check of a working tree, as it comes on standard input. -/
def oneCheckText : String :=
  "\x7b\"protocol\":1,\"verifier\":\x7b\"id\":\"software_check\",\"version\":1,\"digest\":\"" ++
  zeroDigest.text ++ "\"\x7d,\"attempt\":\x7b\"run_id\":\"run-0001\",\"node\":\x7b" ++
  "\"graph_id\":\"combined\",\"node_id\":\"cs_ci\",\"revision\":1\x7d,\"number\":1\x7d," ++
  "\"subject\":\"" ++ patchSubject dirtyTree ++
    "\",\"claim\":\"done\",\"required_checks\":[\"test\"]," ++
  "\"policy_ref\":\x7b\"id\":\"default\",\"version\":1\x7d,\"input_manifest_digest\":\"" ++
  zeroDigest.text ++ "\",\"evidence\":[\x7b\"port_name\":\"candidate\",\"locator\":\"" ++
  Resolver.codeLocator dirtyTree.seen ++ "\",\"subject\":\"" ++ patchSubject dirtyTree ++
  "\",\"version\":\"" ++ head.text ++ "\",\"content_digest\":\"" ++ zeroDigest.text ++
  "\",\"provenance\":\x7b\"producer\":\"checkspan/code-adapter\"\x7d," ++
  "\"policy_ref\":\x7b\"id\":\"default\",\"version\":1\x7d\x7d]\x7d"

def oneCheckRequest : VerifierRequest :=
  { verifier := softwareVerifier, attempt := ⟨runId, ciRef, one⟩
    subject := patchSubject dirtyTree, claim := "done", requiredChecks := [required]
    policyRef := policy, inputManifestDigest := zeroDigest
    evidence := [
      { portName := candidate, locator := Resolver.codeLocator dirtyTree.seen
        subject := patchSubject dirtyTree, version := head.text, contentDigest := zeroDigest
        provenance := { producer := "checkspan/code-adapter", attestationRef := none }
        policyRef := policy, validUntil := none }] }

def testCheck : CheckSpec :=
  { id := required, program := "/bin/true", args := [], env := [], timeoutMs := 1000 }

def oneCheckProfile : List UInt8 :=
  ("\x7b\"profile\":1,\"id\":\"software_check\",\"version\":1,\"checks\":[\x7b\"id\":\"test\"," ++
    "\"program\":\"/bin/true\",\"timeout_ms\":1000\x7d]\x7d").toUTF8.data.toList

/-- The one check runs and passes, and nothing changes. -/
def oneCheckWorld : World :=
  { stdin := .ok oneCheckText
    readRequest := fun text =>
      if text = oneCheckText then .ok oneCheckRequest else .error "expected value"
    profileBytes := .ok oneCheckProfile
    readProfile := fun bytes =>
      if bytes = oneCheckProfile then
        .ok ⟨softwareVerifier.id, softwareVerifier.version, [testCheck]⟩
      else .error "expected value"
    capture := fun _ _ _ => .ok dirtyTree
    process := fun _ _ _ => ⟨.ok (), [.running], .exited (.code 0), [], [], 12⟩
    environment := ⟨"linux", "x86_64"⟩
    writeResult := fun _ => .ok () }

theorem run_child_answers_test : ∃ a, runChild Combined.build.runtime oneCheckWorld = .ok a ∧
    Answered Combined.build.runtime oneCheckWorld oneCheckRequest a := by
  have hanswer := get_eq (x := runChild Combined.build.runtime oneCheckWorld) (by decide +kernel)
  exact ⟨_, hanswer, run_child_answers (by decide +kernel) (by decide) (by decide)
    (fun _ _ _ => (by decide : 12 < 2 ^ 53)) hanswer⟩

end

end SoftwareVerifier

end Checkspan
