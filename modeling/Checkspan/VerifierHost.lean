import Mathlib.Logic.Basic
import Checkspan.Digests

/-!
# The verifier process protocol (`src/verifier_host/mod.rs`)

One request in, one response document out. What the child process does is an
input (`ChildRun`); the JSON decoder of its output is third-party (`Decoder`).
-/

namespace Checkspan

/-- What a verifier is asked (`verifier_host/mod.rs:41-62`); `protocol` is
`Exactly<1>`. -/
structure VerifierRequest where
  verifier : VerifierRef
  attempt : AttemptRef
  subject : String
  claim : String
  requiredChecks : List Ident
  policyRef : PolicyRef
  inputManifestDigest : Digest
  evidence : List EvidenceRef
deriving DecidableEq

inductive CheckOutcome where
  | passed
  | failed
  | skipped
deriving DecidableEq

structure CheckReport where
  id : Ident
  outcome : CheckOutcome
  detail : Option String
deriving DecidableEq

/-- The one document a verifier writes to standard output. -/
structure VerifierResponse where
  verifier : VerifierRef
  attempt : AttemptRef
  verdict : Verdict
  checks : List CheckReport
  reasonCode : Option Ident
  reasonText : Option String
deriving DecidableEq

/-- Why a verifier run is not a verdict (`verifier_host/mod.rs:141-190`). -/
inductive ProcessFailure where
  | executableMismatch (expected : Digest) (actual : Option Digest)
  | spawn (error : String)
  | timedOut
  | cancelled
  | nonZeroExit (code : Option Int)
  | outputTooLarge (limit : Nat)
  | malformedOutput (error : String)
  | extraOutput (trailingBytes : Nat)
  | echoMismatch (field : String)
deriving DecidableEq

/-- The pinned execution profile, as far as the host's decisions read it. -/
structure VerifierProfile where
  executableDigest : Option Digest
  maxStdoutBytes : Nat

/-- How the wait loop ended. -/
inductive WaitEnd where
  | exited (code : Option Int)
  | waitFailed (error : String)
  | overflowed
  | cancelled
  | timedOut
deriving DecidableEq

/-- One run of a child process: the executable's bytes when readable, whether it
started, how the wait ended, and everything it wrote to standard output. -/
structure ChildRun where
  executable : Option (List UInt8)
  spawned : Except String Unit
  ended : WaitEnd
  stdout : List UInt8

/-- `serde_json`'s streaming decoder: nothing but whitespace, an error, or the
first document with the offset behind it. -/
structure Decoder where
  next : List UInt8 → Option (Except String (VerifierResponse × Nat))

def isAsciiWhitespace (b : UInt8) : Bool := b = 32 || b = 9 || b = 10 || b = 12 || b = 13

namespace VerifierHost

variable (rt : Runtime) (dec : Decoder)

/-- `parse_response` (`verifier_host/mod.rs:397-419`). -/
def parseResponse (bytes : List UInt8) : Except ProcessFailure VerifierResponse :=
  match dec.next bytes with
  | some (.ok (response, offset)) =>
    let trailing := (bytes.drop offset).countP (fun b => !isAsciiWhitespace b)
    if trailing > 0 then .error (.extraOutput trailing) else .ok response
  | some (.error e) => .error (.malformedOutput e)
  | none => .error (.malformedOutput "standard output is empty")

def checkExecutable (profile : VerifierProfile) (child : ChildRun) : Except ProcessFailure Unit :=
  match profile.executableDigest with
  | some expected =>
    let actual := child.executable.map (artifactDigest rt)
    if actual = some expected then .ok () else .error (.executableMismatch expected actual)
  | none => .ok ()

/-- What the wait loop's end means before any output is read. -/
def checkEnd (profile : VerifierProfile) (child : ChildRun) : Except ProcessFailure Unit :=
  match child.ended with
  | .exited code =>
    if code ≠ some 0 then .error (.nonZeroExit code)
    else if child.stdout.length > profile.maxStdoutBytes then
      .error (.outputTooLarge profile.maxStdoutBytes)
    else .ok ()
  | .waitFailed e => .error (.spawn e)
  | .overflowed => .error (.outputTooLarge profile.maxStdoutBytes)
  | .cancelled => .error .cancelled
  | .timedOut => .error .timedOut

def checkEcho (request : VerifierRequest) (response : VerifierResponse) :
    Except ProcessFailure VerifierResponse :=
  if response.verifier ≠ request.verifier then .error (.echoMismatch "verifier")
  else if response.attempt ≠ request.attempt then .error (.echoMismatch "attempt")
  else .ok response

/-- `run` (`verifier_host/mod.rs:248-395`): the outcome of one completed child. -/
def run (profile : VerifierProfile) (request : VerifierRequest) (child : ChildRun) :
    Except ProcessFailure VerifierResponse :=
  match checkExecutable rt profile child with
  | .error e => .error e
  | .ok () =>
    match child.spawned with
    | .error e => .error (.spawn e)
    | .ok () =>
      match checkEnd profile child with
      | .error e => .error e
      | .ok () =>
        match parseResponse dec (child.stdout.take profile.maxStdoutBytes) with
        | .error e => .error e
        | .ok response => checkEcho request response

theorem checkEcho_ok {request : VerifierRequest} {response r : VerifierResponse}
    (h : checkEcho request response = .ok r) :
    r = response ∧ response.verifier = request.verifier ∧ response.attempt = request.attempt := by
  unfold checkEcho at h
  split at h
  · cases h
  · rename_i hv
    split at h
    · cases h
    · rename_i ha
      cases h
      exact ⟨rfl, not_not.mp hv, not_not.mp ha⟩

theorem checkEcho_eq_ok {request : VerifierRequest} {response doc : VerifierResponse} :
    checkEcho request response = .ok doc ↔
      response = doc ∧ doc.verifier = request.verifier ∧ doc.attempt = request.attempt := by
  constructor
  · intro h
    obtain ⟨rfl, hv, ha⟩ := checkEcho_ok h
    exact ⟨rfl, hv, ha⟩
  · rintro ⟨rfl, hv, ha⟩
    simp [checkEcho, hv, ha]

/-- The child printed `doc` and nothing else, within the cap, and exited with
status zero. -/
structure Prints (profile : VerifierProfile) (child : ChildRun) (doc : VerifierResponse) :
    Prop where
  executable : ∀ expected, profile.executableDigest = some expected →
    child.executable.map (artifactDigest rt) = some expected
  spawned : child.spawned = .ok ()
  exited : child.ended = .exited (some 0)
  within : child.stdout.length ≤ profile.maxStdoutBytes
  document : ∃ offset, dec.next child.stdout = some (.ok (doc, offset)) ∧
    (child.stdout.drop offset).countP (fun b => !isAsciiWhitespace b) = 0

variable {rt} {dec}

theorem checkExecutable_eq_ok {profile : VerifierProfile} {child : ChildRun} {u : Unit} :
    checkExecutable rt profile child = .ok u ↔
      ∀ expected, profile.executableDigest = some expected →
        child.executable.map (artifactDigest rt) = some expected := by
  unfold checkExecutable
  cases profile.executableDigest with
  | none => simp
  | some expected =>
    by_cases h : child.executable.map (artifactDigest rt) = some expected
    · simp [h]
    · refine iff_of_false (by simp [h]) ?_
      intro hall
      exact h (hall expected rfl)

theorem checkEnd_eq_ok {profile : VerifierProfile} {child : ChildRun} {u : Unit} :
    checkEnd profile child = .ok u ↔
      child.ended = .exited (some 0) ∧ child.stdout.length ≤ profile.maxStdoutBytes := by
  unfold checkEnd
  cases child.ended with
  | exited code =>
    by_cases hc : code = some 0
    · by_cases hl : child.stdout.length > profile.maxStdoutBytes
      · have hle : ¬ child.stdout.length ≤ profile.maxStdoutBytes := by omega
        simp [hc, hl, hle]
      · have hle : child.stdout.length ≤ profile.maxStdoutBytes := by omega
        simp [hc, hl, hle]
    · simp [hc]
  | waitFailed e => simp
  | overflowed => simp
  | cancelled => simp
  | timedOut => simp

theorem parseResponse_eq_ok {bytes : List UInt8} {doc : VerifierResponse} :
    parseResponse dec bytes = .ok doc ↔ ∃ offset,
      dec.next bytes = some (.ok (doc, offset)) ∧
      (bytes.drop offset).countP (fun b => !isAsciiWhitespace b) = 0 := by
  unfold parseResponse
  cases hnext : dec.next bytes with
  | none => simp
  | some out =>
    cases out with
    | error e => simp
    | ok out =>
      obtain ⟨found, offset⟩ := out
      simp only [Option.some.injEq, Except.ok.injEq, Prod.mk.injEq]
      by_cases htail : (bytes.drop offset).countP (fun b => !isAsciiWhitespace b) = 0
      · rw [if_neg (by omega), Except.ok.injEq]
        constructor
        · rintro rfl
          exact ⟨offset, ⟨rfl, rfl⟩, htail⟩
        · rintro ⟨_, ⟨rfl, -⟩, -⟩
          rfl
      · rw [if_pos (by omega)]
        refine iff_of_false (by simp) ?_
        rintro ⟨_, ⟨-, rfl⟩, hzero⟩
        exact htail hzero

/-- The host returns the one document the child printed, when it echoes the
request's verifier and attempt; anything else is a process failure. -/
theorem run_eq_ok {profile : VerifierProfile} {request : VerifierRequest} {child : ChildRun}
    {doc : VerifierResponse} :
    run rt dec profile request child = .ok doc ↔ Prints rt dec profile child doc ∧
      doc.verifier = request.verifier ∧ doc.attempt = request.attempt := by
  constructor
  · intro h
    unfold run at h
    split at h
    · cases h
    · rename_i hexecutable
      split at h
      · cases h
      · rename_i hspawned
        split at h
        · cases h
        · rename_i hend
          obtain ⟨hexited, hwithin⟩ := checkEnd_eq_ok.mp hend
          split at h
          · cases h
          · rename_i response hparse
            obtain ⟨rfl, hecho⟩ := checkEcho_eq_ok.mp h
            rw [List.take_of_length_le hwithin] at hparse
            refine ⟨?_, hecho⟩
            exact { executable := checkExecutable_eq_ok.mp hexecutable
                    spawned := hspawned
                    exited := hexited
                    within := hwithin
                    document := parseResponse_eq_ok.mp hparse }
  · rintro ⟨hprints, hecho⟩
    have hexecutable := (checkExecutable_eq_ok (u := ())).mpr hprints.executable
    have hend := (checkEnd_eq_ok (u := ())).mpr ⟨hprints.exited, hprints.within⟩
    have hparse := parseResponse_eq_ok.mpr hprints.document
    rw [← List.take_of_length_le hprints.within] at hparse
    have hresult := checkEcho_eq_ok.mpr ⟨rfl, hecho⟩
    simp only [run, hexecutable, hprints.spawned, hend, hparse, hresult]

end VerifierHost

end Checkspan
