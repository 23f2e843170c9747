import Checkspan.Contracts.Patch

/-!
# Software check results (`src/contracts/software.rs`)

The typed result of running the required software checks on one exact candidate.
-/

namespace Checkspan

/-- How one check actually ended. -/
inductive SoftwareCheckOutcome where
  | passed
  | failed
  | timedOut
deriving DecidableEq

def SoftwareCheckOutcome.asStr : SoftwareCheckOutcome → String
  | passed => "passed"
  | failed => "failed"
  | timedOut => "timed_out"

/-- What the checks collectively established. -/
inductive Conclusion where
  | accept
  | reject
deriving DecidableEq

def Conclusion.asStr : Conclusion → String
  | accept => "accept"
  | reject => "reject"

/-- One check as it actually ran (`software.rs:78-98`). -/
structure CheckExecution where
  id : Ident
  outcome : SoftwareCheckOutcome
  exitCode : Option Int32
  durationMs : UInt64
  stdoutDigest : Digest
  stderrDigest : Digest
  detail : Option String
deriving DecidableEq

def CheckExecution.toJson (c : CheckExecution) : Json :=
  .obj ([("id", c.id.toJson), ("outcome", .str c.outcome.asStr)] ++
    Json.optField "exit_code" (c.exitCode.map (fun n => .num n.toInt)) ++
    [("duration_ms", .num c.durationMs.toNat), ("stdout_digest", c.stdoutDigest.toJson),
      ("stderr_digest", c.stderrDigest.toJson)] ++
    Json.optField "detail" (c.detail.map .str))

/-- Where the checks ran. -/
structure EnvironmentInfo where
  os : String
  arch : String
deriving DecidableEq

def EnvironmentInfo.toJson (e : EnvironmentInfo) : Json :=
  .obj [("os", .str e.os), ("arch", .str e.arch)]

/-- The result of the required checks on one candidate (`software.rs:110-138`). -/
structure SoftwareCheckResult extends RecordHeader where
  attempt : AttemptRef
  subject : String
  candidate : Candidate
  baseCommit : CommitId
  repository : Repository
  profile : VerifierRef
  environment : EnvironmentInfo
  requiredChecks : List Ident
  checks : List CheckExecution
  conclusion : Conclusion
deriving DecidableEq

def SoftwareCheckResult.toJson (r : SoftwareCheckResult) : Json :=
  .obj (r.toRecordHeader.fields ++ [("attempt", r.attempt.toJson), ("subject", .str r.subject),
    ("candidate", r.candidate.toJson), ("base_commit", r.baseCommit.toJson),
    ("repository", r.repository.toJson), ("profile", r.profile.toJson),
    ("environment", r.environment.toJson),
    ("required_checks", .arr (r.requiredChecks.map (·.toJson))),
    ("checks", .arr (r.checks.map (·.toJson))), ("conclusion", .str r.conclusion.asStr)])

end Checkspan
