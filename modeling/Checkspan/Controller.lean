import Checkspan.Lib.Process
import Checkspan.Ledger
import Checkspan.Evidence

/-!
# The run workflow (`src/controller/mod.rs`)

`step` and `drive` as processes: each store transaction, store read, file operation,
capture and verifier run is one effect, and a call may stop at any of them.
-/

namespace Checkspan

open Process

/-! ### The workspace -/

/-- Everything one controller needs (`controller/mod.rs:49-66`); `graph` is what
reading and parsing the graph document returns. -/
structure Workspace where
  graph : Except String GraphSpec
  repo : Option String
  softwareProfile : Option String
  artifacts : String
  controller : String
  gateExpiry : String

/-- What a build brings along: the third-party functions and the bundled
`patch_result` schema text. -/
structure Build where
  runtime : Runtime
  decoder : Decoder
  patchSchema : List UInt8

/-- Why a run command failed: the values its diagnostic text is made of. `panicked`
is a failed `expect`. -/
inductive RunError where
  | failed (what : String)
  | invalid (what : String) (error : InvalidValue)
  | graph (errors : Option (List AdmissionError))
  | store (what : String) (error : StoreError)
  | replay (error : TransitionError)
  | scheduler (what : String) (error : SchedulerError)
  | budget (error : BudgetError)
  | gate (error : GateBuildError)
  | canonical (error : CanonicalError)
  | issue (error : IssueError)
  | admission (error : AdmitError)
  | panicked

/-! ### Effects -/

/-- The command line of a verifier child. -/
inductive ChildArgs where
  | patch (artifact : String)
  | software (profile out : String)
deriving DecidableEq

/-- The file a child reads or writes its artifact in. -/
def ChildArgs.path : ChildArgs → String
  | patch artifact => artifact
  | software _ out => out

/-- How a verifier child ended: its process, its standard error, and what its
artifact file holds then. -/
structure ChildEnd where
  run : ChildRun
  stderr : String
  seen : Option (List UInt8)

/-- What a call asks of the world. A `resolve` and an `observe` are made for a claim. -/
inductive Effect where
  | ledger (op : LedgerOp)
  | run (id : RunId)
  | events (run : RunId)
  | attempt (run : RunId) (node : NodeId) (number : Nat)
  | resolve (claim : Claim) (spec : GraphSpec) (run : GraphRun) (st : RunState) (now : Timestamp)
  | clock
  | observe (claim : Claim)
  | makeDir (path : String)
  | write (path : String) (bytes : List UInt8)
  | read (path : String)
  | currentExe
  | child (args : ChildArgs) (request : VerifierRequest)

def Effect.Answer : Effect → Type
  | ledger op => op.Result
  | run _ => Except StoreError (Option GraphRun)
  | events _ => List StoredEvent
  | attempt _ _ _ => Except StoreError (Option Attempt)
  | resolve _ _ _ _ _ => Except (List Blocker) DependencySnapshot
  | clock => String
  | observe _ => Observed
  | makeDir _ => Except String Unit
  | write _ _ => Except String Unit
  | read _ => Except String (List UInt8)
  | currentExe => Except String Unit
  | child _ _ => ChildEnd

/-- A run command: a process over these effects that may fail. -/
abbrev Call (α : Type) : Type := Fallible Effect Effect.Answer RunError α

/-! ### Reports -/

/-- What the retry policy decided. -/
inductive RetryReport where
  | retry (cls : FailureClass)
  | exhausted (reason : ExhaustReason) (route : OnExhaustion) (packet : Option Ident)
deriving DecidableEq

/-- The action one step reports. -/
inductive Action where
  | verified (node : NodeId) (attempt : AttemptNumber) (verdict : Verdict) (receipt : Ident)
      (disposition : Option RetryReport) (packet : Option Ident)
  | attemptFailed (node : NodeId) (attempt : AttemptNumber) (reason : String)
      (disposition : RetryReport)
  | verificationFailed (node : NodeId) (attempt : AttemptNumber) (reason : String)
  | idle (reason : String)
  | budgetExhausted (reason : ExhaustReason)
  | complete
  | blocked (blocked : List (NodeId × String)) (conflicts : List (NodeId × Ident))
deriving DecidableEq

/-- The actions that end a drive. -/
def Action.stops : Action → Bool
  | complete => true
  | idle _ => true
  | blocked _ _ => true
  | budgetExhausted _ => true
  | _ => false

/-! ### Helpers (`controller/mod.rs:580-870`) -/

def repoSource : String := "repo:local"

def verifierTimeoutMs : Nat := 600000

def verifierOutputCap : Nat := 4 * 2 ^ 20

def patchVerifierId : String := "patch_capture"

def softwareVerifierId : String := "software_check"

/-- `Path::join` of a relative name. -/
def joinPath (dir name : String) : String :=
  if dir = "" ∨ dir.endsWith "/" then dir ++ name else dir ++ "/" ++ name

/-- `str::trim`. -/
def trimText (s : String) : String :=
  String.ofList (((s.toList.dropWhile isWhiteSpace).reverse.dropWhile isWhiteSpace).reverse)

def ProcessFailure.display : ProcessFailure → String
  | executableMismatch expected (some actual) => "executable digest is " ++ actual.text ++
      ", profile pins " ++ expected.text
  | executableMismatch expected none => "executable cannot be read; profile pins " ++ expected.text
  | spawn e => "cannot start the verifier: " ++ e
  | timedOut => "timed out after " ++ toString verifierTimeoutMs ++ "ms; process tree killed"
  | cancelled => "cancelled; process tree killed"
  | nonZeroExit (some code) => "exited with status " ++ toString code
  | nonZeroExit none => "terminated without an exit code"
  | outputTooLarge limit => "wrote more than " ++ toString limit ++
      " bytes of output; process tree killed"
  | malformedOutput e => "output is not a response document: " ++ e
  | extraOutput n => toString n ++ " bytes of output follow the response document"
  | echoMismatch field => "response does not echo the request's " ++ field

namespace Controller

variable (b : Build) (ws : Workspace)

/-- `load_graph` (`controller/mod.rs:582-596`). -/
def loadGraph : Except RunError GraphSpec := do
  let spec ← ws.graph.mapError (fun e => .failed ("the graph document is invalid: " ++ e))
  let _ ← (Graph.admitGraph spec).mapError .graph
  .ok spec

/-- `scheduler_for` (`controller/mod.rs:613-621`). -/
def schedulerFor (spec : GraphSpec) (run : GraphRun) : Except RunError Scheduler := do
  let controller ← (ControllerId.new ws.controller).mapError (.scheduler "controller id")
  (Scheduler.new spec run controller).mapError (.scheduler "scheduler")

/-- `open_run` (`controller/mod.rs:598-611`). -/
def openRun (spec : GraphSpec) (runId : String) : Call GraphRun := do
  let id ← Fallible.ofExcept ((Identifier.new .runId runId).mapError (.invalid "run id"))
  let _ ← Fallible.attempt (.ledger (.storeGraph spec)) (fun r : Except StoreError Bool =>
    r.mapError (.store "the graph file does not match the stored revision"))
  let found ← Fallible.attempt (.run id) (fun r : Except StoreError (Option GraphRun) =>
    r.mapError (.store "cannot read the run"))
  Fallible.ofExcept (someOr found (.failed ("run " ++ runId ++ " does not exist in this store")))

def askEvents (run : RunId) : Call (List StoredEvent) := Fallible.ask (Effect.events run)

def askResolve (claim : Claim) (spec : GraphSpec) (run : GraphRun) (st : RunState)
    (now : Timestamp) : Call (Except (List Blocker) DependencySnapshot) :=
  Fallible.ask (Effect.resolve claim spec run st now)

def askObserve (claim : Claim) : Call Observed := Fallible.ask (Effect.observe claim)

def askClock : Call String := Fallible.ask Effect.clock

def askChild (args : ChildArgs) (request : VerifierRequest) : Call ChildEnd :=
  Fallible.ask (Effect.child args request)

/-- The replay of a run's log as read. -/
def readState (spec : GraphSpec) (run : GraphRun) : Call RunState := do
  let events ← askEvents run.runId
  Fallible.ofExcept ((RunState.replay run.runId spec events).mapError .replay)

def manifestSubject (evidence : List EvidenceRef) : Option String :=
  (evidence.find? (fun r => r.subject.startsWith Receipts.patchSubjectPrefix)).map (·.subject)

def nodeRefIn (run : GraphRun) (node : NodeSpec) (id : NodeId) : NodeRef :=
  ⟨run.graphRef.graphId, id, node.revision⟩

/-- `request_for_fields` (`controller/mod.rs:796-825`). -/
def requestFor (node : NodeSpec) (run : GraphRun) (id : NodeId) (number : AttemptNumber)
    (subject : String) (evidence : List EvidenceRef) (manifestDigest : Digest) : VerifierRequest :=
  { verifier := node.acceptance.verifier
    attempt := ⟨run.runId, nodeRefIn run node id, number⟩
    subject := subject
    claim := node.acceptance.claim
    requiredChecks := node.acceptance.requiredChecks
    policyRef := node.acceptance.policyRef
    inputManifestDigest := manifestDigest
    evidence := evidence }

/-- The directory of a run's artifacts, and one artifact in it. -/
def artifactDir (run : RunId) : String := joinPath ws.artifacts run.text

def artifactFile (run : RunId) (id : NodeId) (number : AttemptNumber) : String :=
  joinPath (artifactDir ws run) (id.text ++ "-" ++ number.display ++ ".json")

/-- `artifact_path` (`controller/mod.rs:834-846`). -/
def artifactPath (run : RunId) (id : NodeId) (number : AttemptNumber) : Call String := do
  Fallible.attempt (.makeDir (artifactDir ws run)) (fun r : Except String Unit =>
    r.mapError (fun e => .failed ("cannot create the artifact directory: " ++ e)))
  pure (artifactFile ws run id number)

/-- `host_profile` and `verifier_host::run`: one verifier child. -/
def runVerifier (args : ChildArgs) (request : VerifierRequest) : Call ChildEnd := do
  Fallible.attempt .currentExe (fun r : Except String Unit =>
    r.mapError (fun e => .failed ("cannot locate this binary: " ++ e)))
  askChild args request

def hostProfile : VerifierProfile :=
  { executableDigest := none, maxStdoutBytes := verifierOutputCap }

/-- The outcome of a finished child. -/
def childOutcome (request : VerifierRequest) (child : ChildEnd) :
    Except ProcessFailure VerifierResponse :=
  VerifierHost.run b.runtime b.decoder hostProfile request child.run

/-- `outcome_of` (`controller/mod.rs:864-870`). -/
def outcomeOf : ProcessFailure → ExecutionOutcome
  | .timedOut => .timedOut
  | .cancelled => .cancelled
  | _ => .failed

def failureReason (failure : ProcessFailure) (child : ChildEnd) : String :=
  failure.display ++ "; stderr: " ++ trimText child.stderr

/-! ### Sealing (`controller/mod.rs:680-727`) -/

/-- The record `seal` writes. -/
def sealedAttempt (run : GraphRun) (node : NodeSpec) (claim : Claim) (now : Timestamp)
    (inputManifest : List EvidenceRef) (result : Option (String × List UInt8))
    (outcome : ExecutionOutcome) (errorText : Option String) : Attempt :=
  { record := .attempt
    schemaVersion := 1
    runId := run.runId
    node := nodeRefIn run node claim.nodeId
    number := claim.number
    owner := claim.owner.text
    startedAt := now
    finishedAt := some now
    repairHint := claim.narrowing.bind (·.repairHint)
    inputManifest := inputManifest
    dependencyReceipts := claim.dependencyReceipts
    result := result.map (fun r =>
      { resultType := node.resultType
        artifactRef := "file:" ++ r.1
        digest := artifactDigest b.runtime r.2 })
    producedEvidence := []
    execution := some { outcome := outcome, errorCode := none, errorText := errorText }
    verifierReceipt := none }

def sealAttempt (spec : GraphSpec) (run : GraphRun) (claim : Claim) (attempt : Attempt) :
    Call Attempt := do
  let sched ← Fallible.ofExcept (schedulerFor ws spec run)
  Fallible.attempt (.ledger (.complete sched claim attempt)) (fun r : Except SchedulerError Unit =>
    r.mapError (.scheduler "cannot seal"))
  pure attempt

/-! ### Policy (`controller/mod.rs:729-768`) -/

def openPacket (spec : GraphSpec) (run : GraphRun) (id : NodeId) (now : Timestamp) :
    Call GatePacket := do
  let expires ← Fallible.ofExcept ((Timestamp.new ws.gateExpiry).mapError (.invalid "gate expiry"))
  Fallible.attempt (.ledger (.openResolveWork spec run id now expires))
    (fun r : Except GateBuildError GatePacket => r.mapError .gate)

def retry (spec : GraphSpec) (run : GraphRun) (id : NodeId) (now : Timestamp) :
    Call RetryReport := do
  let disposition ← Fallible.attempt (.ledger (.applyRetryPolicy spec run id Narrowing.empty now))
    (fun r : Except BudgetError Disposition => r.mapError .budget)
  match disposition with
  | .retry cls _ _ => pure (.retry cls)
  | .exhausted reason .cancel => pure (.exhausted reason .cancel none)
  | .exhausted reason .gate => do
    let packet ← openPacket ws spec run id now
    pure (.exhausted reason .gate (some packet.id))

/-! ### Verification (`controller/mod.rs:449-578`) -/

def receiptIdFor (id : NodeId) (number : AttemptNumber) : Except InvalidValue Ident :=
  Identifier.new .identifier ("rcpt-" ++ id.text ++ "-" ++ number.display)

/-- `admit_response` (`controller/mod.rs:520-578`). -/
def admitResponse (spec : GraphSpec) (run : GraphRun) (node : NodeSpec) (attempt : Attempt)
    (response : VerifierResponse) (subject : String) (now : Timestamp) : Call Action := do
  let id ← Fallible.ofExcept
    ((receiptIdFor node.id attempt.number).mapError (.invalid "receipt id"))
  let receipt ← Fallible.ofExcept ((Receipts.issue b.runtime response node attempt id subject
    ("checkspan-controller:" ++ ws.controller) now
    { validUntil := none, conditions := [] }).mapError .issue)
  Fallible.attempt (.ledger (.admitReceipt spec run receipt now)) (fun r : Except AdmitError Unit =>
    r.mapError .admission)
  match receipt.verdict with
  | .accept => pure (.verified node.id attempt.number receipt.verdict receipt.id none none)
  | .reject => do
    let disposition ← retry ws spec run node.id now
    pure (.verified node.id attempt.number receipt.verdict receipt.id (some disposition) none)
  | .undecidable => do
    let packet ← openPacket ws spec run node.id now
    pure (.verified node.id attempt.number receipt.verdict receipt.id none (some packet.id))

/-- The command line of the verifier a node pins. -/
def verifierArgs (run : GraphRun) (node : NodeSpec) (attempt : Attempt) : Call ChildArgs :=
  if node.acceptance.verifier.id.text = patchVerifierId then do
    let artifact ← Fallible.ofExcept (someOr
      (attempt.result.bind (fun r => stripPrefix "file:" r.artifactRef))
      (.failed "the sealed attempt has no file artifact"))
    pure (.patch artifact)
  else if node.acceptance.verifier.id.text = softwareVerifierId then do
    let profile ← Fallible.ofExcept (someOr ws.softwareProfile
      (.failed "no --software-profile was given"))
    let out ← artifactPath ws run.runId node.id attempt.number
    pure (.software profile out)
  else Fallible.ofExcept (.error (.failed ("no verifier named " ++
    node.acceptance.verifier.id.text ++ " is built in")))

/-- `verify_and_admit` (`controller/mod.rs:449-518`). -/
def verifyAndAdmit (spec : GraphSpec) (run : GraphRun) (node : NodeSpec) (attempt : Attempt)
    (now : Timestamp) : Call Action := do
  let subject ← Fallible.ofExcept (someOr (manifestSubject attempt.inputManifest)
    (.failed "the sealed attempt froze no code evidence"))
  let manifestDigest ← Fallible.ofExcept ((inputManifestDigest b.runtime attempt.inputManifest
    attempt.dependencyReceipts).mapError .canonical)
  let request := requestFor node run node.id attempt.number subject attempt.inputManifest
    manifestDigest
  let args ← verifierArgs ws run node attempt
  let child ← runVerifier args request
  match childOutcome b request child with
  | .ok response => admitResponse b ws spec run node attempt response subject now
  | .error failure =>
    pure (.verificationFailed node.id attempt.number (failureReason failure child))

/-! ### Execution (`controller/mod.rs:309-447`) -/

def sources : Sources :=
  match ws.repo with
  | some root => [(repoSource, .repository root)]
  | none => []

def resolver (now : Timestamp) : Resolver :=
  { sources := sources ws, limits := ResolverLimits.default, now := now, schema := b.patchSchema }

/-- The working tree, offered for every code port the narrowing keeps. -/
def offersFor (node : NodeSpec) (narrowing : Option Narrowing) : List Offer :=
  (node.evidencePorts.filter (fun port => port.kind = .code &&
      !(match narrowing with
        | some n => port.name ∈ n.droppedPorts
        | none => false))).map
    (fun port => { port := port.name, source := repoSource
                   item := .candidate { candidate := .workingTree, base := none } })

/-- `resolve_evidence` (`controller/mod.rs:623-678`): a manifest, or why not. -/
def resolveEvidence (spec : GraphSpec) (run : GraphRun) (node : NodeSpec) (claim : Claim)
    (now : Timestamp) : Call (Except String Manifest) := do
  let events ← askEvents run.runId
  match RunState.replay run.runId spec events with
  | .error e => pure (.error e.display)
  | .ok st =>
    let found ← askResolve claim spec run st now
    match found with
    | .error blockers => pure (.error (displayBlockers blockers))
    | .ok snapshot =>
      let observed ← askObserve claim
      pure (((resolver b ws now).resolve b.runtime observed node claim.narrowing snapshot
        (offersFor node claim.narrowing)).mapError displayErrors)

/-- An attempt sealed without a result, and what the policy makes of it. -/
def sealFailure (spec : GraphSpec) (run : GraphRun) (node : NodeSpec) (claim : Claim)
    (now : Timestamp) (inputManifest : List EvidenceRef) (outcome : ExecutionOutcome)
    (reason : String) : Call Action := do
  let attempt ← sealAttempt ws spec run claim
    (sealedAttempt b run node claim now inputManifest none outcome (some reason))
  let disposition ← retry ws spec run claim.nodeId now
  pure (.attemptFailed claim.nodeId attempt.number reason disposition)

/-- The bytes of the first captured candidate in a manifest. -/
def candidateBytes (manifest : Manifest) : Option (List UInt8) :=
  (manifest.evidence.find? (fun r => r.bytes.isSome &&
    r.reference.subject.startsWith Receipts.patchSubjectPrefix)).bind (·.bytes)

/-- A task whose result is the captured candidate itself. -/
def executePatch (spec : GraphSpec) (run : GraphRun) (node : NodeSpec) (claim : Claim)
    (now : Timestamp) (manifest : Manifest) : Call Action := do
  let bytes ← Fallible.ofExcept (someOr (candidateBytes manifest)
    (.failed "the patch task resolved no code evidence"))
  let artifact ← artifactPath ws run.runId claim.nodeId claim.number
  Fallible.attempt (.write artifact bytes) (fun r : Except String Unit =>
    r.mapError (fun e => .failed ("cannot write the artifact: " ++ e)))
  let attempt ← sealAttempt ws spec run claim
    (sealedAttempt b run node claim now manifest.references (some (artifact, bytes))
      .completed none)
  verifyAndAdmit b ws spec run node attempt now

/-- A check whose result is the verifier's own typed report. -/
def executeCheck (spec : GraphSpec) (run : GraphRun) (node : NodeSpec) (claim : Claim)
    (now : Timestamp) (manifest : Manifest) : Call Action := do
  let subject ← Fallible.ofExcept (someOr (manifestSubject manifest.references)
    (.failed "the check resolved no code evidence"))
  let profile ← Fallible.ofExcept (someOr ws.softwareProfile
    (.failed "no --software-profile was given"))
  let out ← artifactPath ws run.runId claim.nodeId claim.number
  let request := requestFor node run claim.nodeId claim.number subject manifest.references
    manifest.digest
  let child ← runVerifier (.software profile out) request
  match childOutcome b request child with
  | .ok response => do
    let bytes ← Fallible.attempt (.read out) (fun r : Except String (List UInt8) =>
      r.mapError (fun e => .failed ("cannot read the check result: " ++ e)))
    let attempt ← sealAttempt ws spec run claim
      (sealedAttempt b run node claim now manifest.references (some (out, bytes)) .completed none)
    admitResponse b ws spec run node attempt response subject now
  | .error failure =>
    sealFailure b ws spec run node claim now manifest.references (outcomeOf failure)
      (failureReason failure child)

/-- `execute_claim` (`controller/mod.rs:309-447`). -/
def executeClaim (spec : GraphSpec) (run : GraphRun) (claim : Claim) (now : Timestamp) :
    Call Action := do
  let node ← Fallible.ofExcept (someOr (spec.findNode claim.nodeId) .panicked)
  let resolved ← resolveEvidence b ws spec run node claim now
  match resolved with
  | .error reason => sealFailure b ws spec run node claim now [] .failed reason
  | .ok manifest =>
    if node.resultType.schemaId.text = "patch_result" then
      executePatch b ws spec run node claim now manifest
    else if node.resultType.schemaId.text = "software_check_result" then
      executeCheck b ws spec run node claim now manifest
    else Fallible.ofExcept (.error (.failed ("this controller cannot execute a node producing " ++
      node.resultType.schemaId.text)))

/-! ### Steps (`controller/mod.rs:191-307`) -/

def targetsAccepted (spec : GraphSpec) (st : RunState) : Bool :=
  spec.targets.all (fun target =>
    match st.node target.nodeId with
    | some s => s.status = .accepted
    | none => false)

/-- The first node whose sealed attempt awaits its verdict. -/
def firstChecking (spec : GraphSpec) (st : RunState) : Option (NodeSpec × NodeState) :=
  spec.nodes.findSome?
    (fun node => ((st.node node.id).filter (·.checking)).map (fun s => (node, s)))

/-- The sealed attempt a checking node awaits the verdict of. -/
def readAttempt (run : GraphRun) (node : NodeSpec) (state : NodeState) : Call Attempt := do
  let number ← Fallible.ofExcept (someOr state.currentAttempt .panicked)
  let found ← Fallible.attempt (.attempt run.runId node.id number.get)
    (fun r : Except StoreError (Option Attempt) => r.mapError (.store "attempt"))
  Fallible.ofExcept (someOr found (.failed ("attempt " ++ number.display ++ " of " ++
    node.id.text ++ " is not sealed")))

/-- What a step reports when no claim was made. -/
def reportOutcome (spec : GraphSpec) (st : RunState) (blocked : List (NodeId × String))
    (conflicts : List (NodeId × Ident)) : Action :=
  if targetsAccepted spec st then .complete
  else if blocked.isEmpty && conflicts.isEmpty then .idle "nothing is ready"
  else .blocked blocked conflicts

/-- `step_inner` (`controller/mod.rs:232-296`). -/
def stepInner (spec : GraphSpec) (run : GraphRun) (now : Timestamp) : Call Action := do
  let sched ← Fallible.ofExcept (schedulerFor ws spec run)
  let st ← readState spec run
  match firstChecking spec st with
  | some (node, state) => do
    let attempt ← readAttempt run node state
    verifyAndAdmit b ws spec run node attempt now
  | none => do
    let claimedAt ← askClock
    let outcome ← Fallible.attempt (.ledger (.claimNext sched now claimedAt))
      (fun r : Except SchedulerError ClaimOutcome => r.mapError (.scheduler "claim"))
    match outcome with
    | .claimed claim => executeClaim b ws spec run claim now
    | .busy active maxActive => pure (.idle (toString active ++ " active claims at the cap of " ++
        toString maxActive))
    | .budgetExhausted reason => pure (.budgetExhausted reason)
    | .nothingReady blocked conflicts => pure (reportOutcome spec st blocked conflicts)

/-- The loop of `drive`, with the actions taken so far. -/
def driveLoop (spec : GraphSpec) (run : GraphRun) (now : Timestamp) :
    Nat → List Action → Call (List Action)
  | 0, done => pure done
  | n + 1, done => do
    let action ← stepInner b ws spec run now
    if action.stops then pure (done ++ [action]) else driveLoop spec run now n (done ++ [action])

/-- `step` (`controller/mod.rs:191-196`). -/
def step (runId : String) (now : Timestamp) : Call (List Action) := do
  let spec ← Fallible.ofExcept (loadGraph ws)
  let run ← openRun spec runId
  let action ← stepInner b ws spec run now
  pure [action]

/-- `drive` (`controller/mod.rs:198-230`). -/
def drive (runId : String) (now : Timestamp) (maxSteps : Nat) : Call (List Action) := do
  let spec ← Fallible.ofExcept (loadGraph ws)
  let run ← openRun spec runId
  driveLoop b ws spec run now maxSteps []

end Controller

end Checkspan
