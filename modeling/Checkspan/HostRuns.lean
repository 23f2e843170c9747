import Checkspan.Coverage
import Checkspan.Lib.Watch
import Checkspan.SoftwareVerifier

/-!
# Child processes under their host (`src/verifier_host/mod.rs`, `src/verifiers/software.rs`)

Both hosts drain a child's output with bounded readers on threads of their own while a loop polls
it. The child, whoever else holds its pipes, the readers, the deadline, the cancellation flag and
the loop take their steps in any order.
-/

namespace Checkspan

open Transition

/-- The buffer of one read (`verifier_host/mod.rs:433`). -/
def readerChunk : Nat := 8192

structure HostProfile extends VerifierProfile where
  maxStderrBytes : Nat

namespace VerifierHost

def watch (profile : HostProfile) : Watch.Config where
  capOut := profile.maxStdoutBytes
  capErr := profile.maxStderrBytes
  chunk := readerChunk
  output := true
  cancel := true

/-- A run of a verifier's child: the code of its exit is all `run` reads of its status. -/
abbrev HostRun := Watch.State UInt8 (Option Int)

/-- `Completion`, without the duration; its text is the lossy decoding of these bytes. -/
structure Completion where
  outcome : Except ProcessFailure VerifierResponse
  stderr : List UInt8

variable (rt : Runtime) (dec : Decoder)

/-- `run` behind its wait loop (`verifier_host/mod.rs:357-389`). -/
def outcomeAt (profile : HostProfile) (request : VerifierRequest) (s : HostRun) :
    Watch.End (Option Int) → Except ProcessFailure VerifierResponse
  | .waitFailed e => .error (.spawn e)
  | .overflowed => .error (.outputTooLarge profile.maxStdoutBytes)
  | .cancelled => .error .cancelled
  | .expired => .error .timedOut
  | .exited code =>
    if code ≠ some 0 then .error (.nonZeroExit code)
    else if s.out.warned then .error (.outputTooLarge profile.maxStdoutBytes)
    else do
      let response ← parseResponse dec s.out.kept
      checkEcho request response

/-- The completion, once the loop is over and both readers are joined. -/
def completion (profile : HostProfile) (request : VerifierRequest) (s : HostRun) :
    Option Completion :=
  match s.phase with
  | .finished e =>
    if s.out.ended && s.err.ended then some ⟨outcomeAt dec profile request s e, s.err.kept⟩
    else none
  | _ => none

def waitEnd : Watch.End (Option Int) → WaitEnd
  | .exited code => .exited code
  | .waitFailed e => .waitFailed e
  | .overflowed => .overflowed
  | .cancelled => .cancelled
  | .expired => .timedOut

/-- The child as `run` knows it at the end: what its output's reader was given. -/
def childOf (executable : Option (List UInt8)) (s : HostRun) (e : Watch.End (Option Int)) :
    ChildRun where
  executable := executable
  spawned := .ok ()
  ended := waitEnd e
  stdout := s.out.given

variable {rt dec}

/-- With the executable as pinned, the outcome is that of one run on everything the reader was
given. -/
theorem outcomeAt_eq_run {profile : HostProfile} {request : VerifierRequest} {s : HostRun}
    (hs : s.Sound (watch profile)) {executable : Option (List UInt8)}
    {e : Watch.End (Option Int)}
    (hexe : checkExecutable rt profile.toVerifierProfile (childOf executable s e) = .ok ()) :
    outcomeAt dec profile request s e =
      run rt dec profile.toVerifierProfile request (childOf executable s e) := by
  have hlen : s.out.given.length = s.out.taken := Watch.Pipe.length_given hs.out
  have hkept : s.out.given.take profile.maxStdoutBytes = s.out.kept := hs.out.kept.symm
  have hwarned : s.out.warned = true ↔ profile.maxStdoutBytes < s.out.taken := hs.out.warned
  unfold run
  rw [hexe]
  cases e with
  | waitFailed e => rfl
  | overflowed => rfl
  | cancelled => rfl
  | expired => rfl
  | exited code =>
    simp only [outcomeAt, childOf, waitEnd, checkEnd, hlen, hkept, gt_iff_lt, ← hwarned]
    split
    · rfl
    · split
      · rfl
      · cases parseResponse dec s.out.kept <;> rfl

theorem completion_eq_some {profile : HostProfile} {request : VerifierRequest} {s : HostRun}
    {c : Completion} (h : completion dec profile request s = some c) :
    ∃ e, s.phase = .finished e ∧ s.out.ended = true ∧ s.err.ended = true ∧
      c = ⟨outcomeAt dec profile request s e, s.err.kept⟩ := by
  unfold completion at h
  split at h
  · next e hphase =>
    split at h
    · next hended =>
      rw [Bool.and_eq_true] at hended
      exact ⟨e, hphase, hended.1, hended.2, (Option.some.inj h).symm⟩
    · cases h
  · cases h

/-- What a completion says about the child, its output and the loop. -/
structure Delivered (rt : Runtime) (dec : Decoder) (profile : HostProfile)
    (request : VerifierRequest) (executable : Option (List UInt8)) (s : HostRun) (c : Completion) :
    Prop where
  outcome : ∃ e, s.phase = .finished e ∧ s.Caused (watch profile) e ∧
    c.outcome = run rt dec profile.toVerifierProfile request (childOf executable s e)
  given : s.out.given <+: s.out.wrote
  whole : s.out.failed = false → s.out.given = s.out.wrote ∧ s.out.closed = true
  stderr : c.stderr = s.err.given.take profile.maxStderrBytes
  verdict : ∀ response, c.outcome = .ok response → s.child = some (some 0) ∧ s.killed = false ∧
    Prints rt dec profile.toVerifierProfile (childOf executable s (.exited (some 0))) response ∧
    response.verifier = request.verifier ∧ response.attempt = request.attempt

/-- Whatever the order of the steps, the completion is that of one run on everything the reader
was given, for a cause the loop saw; a verdict is that of a child which ended by itself. -/
theorem completed_in_any_order {profile : HostProfile} {request : VerifierRequest} {s : HostRun}
    {c : Completion} {executable : Option (List UInt8)}
    (hs : (Watch.system UInt8 (Option Int) (watch profile)).Reachable s)
    (hc : completion dec profile request s = some c)
    (hexe : ∀ expected, profile.executableDigest = some expected →
      executable.map (artifactDigest rt) = some expected) :
    Delivered rt dec profile request executable s c := by
  have hsound := Watch.sound_invariant (watch profile) s hs
  obtain ⟨e, hphase, hout, -, rfl⟩ := completion_eq_some hc
  have hcaused : s.Caused (watch profile) e := by
    have hsettled := hsound.settled
    rwa [hphase] at hsettled
  have hrun : outcomeAt dec profile request s e = _ :=
    outcomeAt_eq_run hsound (checkExecutable_eq_ok.mpr hexe)
  refine ⟨⟨e, hphase, hcaused, hrun⟩, List.take_prefix _ _, ?_, hsound.err.kept, ?_⟩
  · intro hfailed
    obtain ⟨hclosed, htaken⟩ := hsound.out.whole hout hfailed
    exact ⟨List.take_of_length_le (Nat.le_of_eq htaken.symm), hclosed⟩
  · intro response hok
    obtain ⟨hprints, hecho⟩ := run_eq_ok.mp (hrun.symm.trans hok)
    cases e with
    | exited code =>
      have hcode : code = some 0 := by simpa [childOf, waitEnd] using hprints.exited
      subst hcode
      exact ⟨hcaused.1, hcaused.2, hprints, hecho⟩
    | waitFailed e => cases hok
    | overflowed => cases hok
    | cancelled => cases hok
    | expired => cases hok

section

open Checkspan.Pilot

def hostProfile : HostProfile := { skippingRun.profile with maxStderrBytes := 4 }

/-- A document written and read in two parts, and six bytes of standard error, while the loop
looks twice. -/
def spoken : List (Watch.Op UInt8 (Option Int)) :=
  [.out (.write (skippedBytes.take 100)), .out (.read 64), .poll, .err (.write [1, 2, 3, 4, 5, 6]),
    .err (.read 6), .out (.write (skippedBytes.drop 100)), .poll, .out (.read 200), .exit (some 0),
    .out .close, .poll, .out (.read (skippedBytes.length - 264)), .err .close, .err .eof, .poll,
    .out .eof, .poll]

theorem completed_in_any_order_spoken : ∃ s c,
    Watch.plays (watch hostProfile) {} spoken = some s ∧ c.outcome = .ok skipped ∧
      c.stderr = [1, 2, 3, 4] ∧
      Delivered runtime decoder hostProfile verification.request none s c := by
  have hplays := Option.some_get
    (show (Watch.plays (watch hostProfile) {} spoken).isSome = true by decide +kernel)
  have hcompletion := Option.some_get (show (completion decoder hostProfile verification.request
    ((Watch.plays (watch hostProfile) {} spoken).get (by decide +kernel))).isSome = true by
      decide +kernel)
  exact ⟨_, _, hplays.symm, by decide +kernel, by decide +kernel,
    completed_in_any_order ((Watch.run_of_plays hplays.symm).reachable (.init rfl))
      hcompletion.symm (fun _ h => by cases h)⟩

end

/-- Once the child is over, more than the cap was read, the flag is raised or the deadline has
passed, the loop takes at most four more looks, none of which is ever held up, and is over after
the fourth. -/
theorem loop_over_in_four {profile : HostProfile} {s t : HostRun}
    {ops : List (Watch.Op UInt8 (Option Int))}
    (hs : (Watch.system UInt8 (Option Int) (watch profile)).Reachable s)
    (hr : (Watch.system UInt8 (Option Int) (watch profile)).Run s ops t)
    (hstop : s.child.isSome = true ∨ profile.maxStdoutBytes < s.out.taken ∨ s.flag = true ∨
      s.late = true) :
    ops.countP Watch.Op.isPoll ≤ 4 ∧
      (ops.countP Watch.Op.isPoll = 4 → ∃ e, t.phase = .finished e) ∧
      ((∀ e, t.phase ≠ .finished e) → (t.poll (watch profile)).isSome = true) := by
  have hsound := Watch.sound_invariant (watch profile) s hs
  have hp : ∃ p, s.Stops (watch profile) p := by
    rcases hstop with h | h | h | h
    · exact ⟨.reap, h⟩
    · exact ⟨.output, rfl, hsound.heard (hsound.out.warned.mpr h)⟩
    · exact ⟨.flag, rfl, h⟩
    · exact ⟨.clock, h⟩
  obtain ⟨p, hp⟩ := hp
  have hleft := (Watch.looks_left hr hp).1
  have hfour := p.left_le s.phase
  refine ⟨by omega, ?_, Watch.State.poll_isSome⟩
  intro h
  exact Watch.Phase.left_eq_zero (p := p) (by omega)

def flood : List (Watch.Op UInt8 (Option Int)) :=
  [.out (.write [1, 2, 3]), .out (.read 2), .poll]

theorem loop_over_in_four_flooded :
    let profile : HostProfile := { hostProfile with maxStdoutBytes := 1 }
    let ops : List (Watch.Op UInt8 (Option Int)) := [.out (.write [4]), .poll, .expire]
    ∃ s t, Watch.plays (watch profile) {} flood = some s ∧
      Watch.plays (watch profile) s ops = some t ∧
      ops.countP Watch.Op.isPoll ≤ 4 ∧
      (ops.countP Watch.Op.isPoll = 4 → ∃ e, t.phase = .finished e) ∧
      ((∀ e, t.phase ≠ .finished e) → (t.poll (watch profile)).isSome = true) := by
  intro profile ops
  refine ⟨_, _, rfl, rfl, ?_⟩
  exact loop_over_in_four ((@Watch.run_of_plays _ _ _ _ _ flood rfl).reachable (.init rfl))
    (Watch.run_of_plays rfl) (.inr (.inl (by decide)))

end VerifierHost

namespace SoftwareVerifier

/-- `CHECK_OUTPUT_CAP`. -/
def checkOutputCap : Nat := 2 ^ 20

/-- The loop of `run_check` looks at the child and the clock only. -/
def watch : Watch.Config where
  capOut := checkOutputCap
  capErr := checkOutputCap
  chunk := readerChunk
  output := false
  cancel := false

abbrev CheckRun := Watch.State UInt8 ExitStatus

/-- The loop's `status`. -/
def statusOf : Watch.End ExitStatus → Option ExitStatus
  | .exited status => some status
  | _ => none

variable (rt : Runtime)

/-- `run_check` behind its spawn (`verifiers/software.rs:327-368`): the record, once the loop is
over and both readers are joined. -/
def recordOf (spec : CheckSpec) (s : CheckRun) (elapsedMs : Nat) : Option CheckExecution :=
  match s.phase with
  | .finished e =>
    if s.out.ended && s.err.ended then
      let (outcome, exitCode, detail) :=
        match statusOf e with
        | some status =>
          if status.success then (SoftwareCheckOutcome.passed, status.toCode, none)
          else (.failed, status.toCode.or (some (-1)),
            some ("exit status " ++ debugCode status.toCode))
        | none => (.timedOut, none, some ("timed out after " ++ toString spec.timeoutMs ++ "ms"))
      some {
        id := spec.id, outcome := outcome, exitCode := exitCode
        durationMs := UInt64.ofNat elapsedMs, stdoutDigest := artifactDigest rt s.out.kept
        stderrDigest := artifactDigest rt s.err.kept, detail := detail }
    else none
  | _ => none

/-- The process as one check's record knows it. -/
def processOf (s : CheckRun) (e : Watch.End ExitStatus) (elapsedMs : Nat) : ProcessRun where
  spawned := .ok ()
  early := ((statusOf e).map TryWait.exited).toList
  late := .running
  stdout := s.out.given.take checkOutputCap
  stderr := s.err.given.take checkOutputCap
  elapsedMs := elapsedMs

theorem status_processOf (s : CheckRun) (e : Watch.End ExitStatus) (elapsedMs : Nat) :
    (processOf s e elapsedMs).status = statusOf e := by
  cases e <;> rfl

variable {rt}

theorem recordOf_eq_some {spec : CheckSpec} {s : CheckRun} {elapsedMs : Nat} {r : CheckExecution}
    (hs : s.Sound watch) (h : recordOf rt spec s elapsedMs = some r) :
    ∃ e, s.phase = .finished e ∧ r = runCheck rt spec (processOf s e elapsedMs) := by
  unfold recordOf at h
  split at h
  · next e hphase =>
    split at h
    · refine ⟨e, hphase, (Option.some.inj h).symm.trans ?_⟩
      unfold runCheck
      rw [status_processOf]
      have hout : s.out.kept = s.out.given.take checkOutputCap := hs.out.kept
      have herr : s.err.kept = s.err.given.take checkOutputCap := hs.err.kept
      rw [hout, herr]
      rfl
    · cases h
  · cases h

/-- Whatever the order of the steps, a check's record is that of one process whose output is the
capped output its readers were given: passed when the child exited successfully by itself, timed
out when the loop killed it. -/
theorem recorded_in_any_order {spec : CheckSpec} {s : CheckRun} {elapsedMs : Nat}
    {r : CheckExecution} (hs : (Watch.system UInt8 ExitStatus watch).Reachable s)
    (hr : recordOf rt spec s elapsedMs = some r) :
    (∃ p : ProcessRun, r = runCheck rt spec p ∧ Shows p r ∧
      p.stdout = s.out.given.take checkOutputCap ∧ p.stderr = s.err.given.take checkOutputCap) ∧
    (r.outcome = .passed ↔ s.child = some (.code 0) ∧ s.killed = false) ∧
    (r.outcome = .timedOut ↔ s.killed = true) := by
  have hsound := Watch.sound_invariant watch s hs
  obtain ⟨e, hphase, hrun⟩ := recordOf_eq_some hsound hr
  have hshows : Shows (processOf s e elapsedMs) r := hrun ▸ runCheck_shows spec _
  have hcaused : s.Caused watch e := by
    have hsettled := hsound.settled
    rwa [hphase] at hsettled
  refine ⟨⟨_, hrun, hshows, rfl, rfl⟩, ?_, ?_⟩
  · rw [hshows.passed, ProcessRun.Succeeded, status_processOf]
    cases e with
    | exited status =>
      obtain ⟨hchild, hkilled⟩ := hcaused
      simp [processOf, statusOf, hchild, hkilled, ExitStatus.success]
    | waitFailed e => simp [statusOf, show s.killed = true from hcaused]
    | overflowed => simp [statusOf, hcaused.2.2]
    | cancelled => simp [statusOf, hcaused.2.2]
    | expired => simp [statusOf, hcaused.2]
  · rw [hshows.timedOut, status_processOf]
    cases e with
    | exited status => simp [statusOf, hcaused.2]
    | waitFailed e => simp [processOf, statusOf, show s.killed = true from hcaused]
    | overflowed => simp [processOf, statusOf, hcaused.2.2]
    | cancelled => simp [processOf, statusOf, hcaused.2.2]
    | expired => simp [processOf, statusOf, hcaused.2]

section

open Checkspan.Pilot

def failing : List (Watch.Op UInt8 ExitStatus) :=
  [.poll, .out (.write [111, 107]), .poll, .out (.read 1), .poll, .poll, .exit (.code 1),
    .out (.read 1), .out .close, .out .eof, .poll, .err .fail]

theorem recorded_in_any_order_failing : ∃ s r, Watch.plays watch {} failing = some s ∧
    recordOf runtime testCheck s 40 = some r ∧
    (∃ p : ProcessRun, r = runCheck runtime testCheck p ∧ Shows p r ∧
      p.stdout = s.out.given.take checkOutputCap ∧ p.stderr = s.err.given.take checkOutputCap) ∧
    (r.outcome = .passed ↔ s.child = some (.code 0) ∧ s.killed = false) ∧
    (r.outcome = .timedOut ↔ s.killed = true) := by
  have hplays := Option.some_get
    (show (Watch.plays watch {} failing).isSome = true by decide +kernel)
  have hrecord := Option.some_get (show (recordOf runtime testCheck
    ((Watch.plays watch {} failing).get (by decide +kernel)) 40).isSome = true by decide +kernel)
  exact ⟨_, _, hplays.symm, hrecord.symm,
    recorded_in_any_order ((Watch.run_of_plays hplays.symm).reachable (.init rfl)) hrecord.symm⟩

end

end SoftwareVerifier

end Checkspan
