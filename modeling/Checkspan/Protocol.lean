import Checkspan.Controller

/-!
# What one call may do

The effects of a `step` or a `drive`, each with the history it may follow. Every
call keeps to this protocol whatever it is answered, so what holds across calls,
crashes and controllers is proved from the protocol and never from the program.
-/

namespace Checkspan

open Process

/-! ### Commands -/

/-- A `step` (`maxSteps` absent) or a `drive`. -/
structure Command where
  ws : Workspace
  runId : String
  now : Timestamp
  maxSteps : Option Nat

def Command.call (b : Build) (c : Command) : Call (List Action) :=
  match c.maxSteps with
  | none => Controller.step b c.ws c.runId c.now
  | some n => Controller.drive b c.ws c.runId c.now n

/-! ### Entries -/

/-- An effect of a call with its answer. -/
abbrev Did := Entry Effect Effect.Answer

namespace Did

def graphStored (spec : GraphSpec) (fresh : Bool) : Did :=
  ⟨.ledger (.storeGraph spec), (.ok fresh : Except StoreError Bool)⟩

def runRead (id : RunId) (run : GraphRun) : Did :=
  ⟨.run id, (.ok (some run) : Except StoreError (Option GraphRun))⟩

def eventsRead (run : RunId) (events : List StoredEvent) : Did := ⟨.events run, events⟩

def attemptRead (run : RunId) (id : NodeId) (number : Nat) (a : Attempt) : Did :=
  ⟨.attempt run id number, (.ok (some a) : Except StoreError (Option Attempt))⟩

def claimed (sched : Scheduler) (now : Timestamp) (claimedAt : String) (claim : Claim) : Did :=
  ⟨.ledger (.claimNext sched now claimedAt),
    (.ok (.claimed claim) : Except SchedulerError ClaimOutcome)⟩

def resolved (claim : Claim) (spec : GraphSpec) (run : GraphRun) (st : RunState) (now : Timestamp)
    (snapshot : DependencySnapshot) : Did :=
  ⟨.resolve claim spec run st now, (.ok snapshot : Except (List Blocker) DependencySnapshot)⟩

def observed (claim : Claim) (o : Observed) : Did := ⟨.observe claim, o⟩

def dirMade (path : String) : Did := ⟨.makeDir path, (.ok () : Except String Unit)⟩

def exeFound : Did := ⟨.currentExe, (.ok () : Except String Unit)⟩

def wrote (path : String) (bytes : List UInt8) : Did :=
  ⟨.write path bytes, (.ok () : Except String Unit)⟩

def bytesRead (path : String) (bytes : List UInt8) : Did :=
  ⟨.read path, (.ok bytes : Except String (List UInt8))⟩

def ran (args : ChildArgs) (request : VerifierRequest) (child : ChildEnd) : Did :=
  ⟨.child args request, child⟩

def sealed (sched : Scheduler) (claim : Claim) (a : Attempt) : Did :=
  ⟨.ledger (.complete sched claim a), (.ok () : Except SchedulerError Unit)⟩

def admitted (spec : GraphSpec) (run : GraphRun) (r : VerifierReceipt) (now : Timestamp) : Did :=
  ⟨.ledger (.admitReceipt spec run r now), (.ok () : Except AdmitError Unit)⟩

end Did

/-! ### What a call owes -/

/-- Whether an attempt is sealed with an outcome the retry policy is asked about. -/
def Attempt.failed (a : Attempt) : Bool :=
  match a.execution with
  | some x => x.outcome = .failed || x.outcome = .timedOut
  | none => false

/-- Whether an attempt is sealed as completed. -/
def Attempt.completed (a : Attempt) : Bool :=
  match a.execution with
  | some x => x.outcome = .completed
  | none => false

namespace Did

/-- The node an entry leaves the retry policy or a packet owed to, given the one
owed before. -/
def after (owed : Option (RunId × NodeId)) : Did → Option (RunId × NodeId)
  | ⟨.ledger (.complete sched claim a), r⟩ =>
    match (r : Except SchedulerError Unit) with
    | .ok () => if a.failed then some (sched.run.runId, claim.nodeId) else none
    | .error _ => owed
  | ⟨.ledger (.admitReceipt _ run receipt _), r⟩ =>
    match (r : Except AdmitError Unit) with
    | .ok () => if receipt.verdict = .accept then none
      else some (run.runId, receipt.attempt.node.nodeId)
    | .error _ => owed
  | ⟨.ledger (.applyRetryPolicy _ run id _ _), r⟩ =>
    match (r : Except BudgetError Disposition) with
    | .ok (.exhausted _ .gate) => some (run.runId, id)
    | .ok _ => none
    | .error _ => owed
  | ⟨.ledger (.openResolveWork _ _ _ _ _), r⟩ =>
    match (r : Except GateBuildError GatePacket) with
    | .ok _ => none
    | .error _ => owed
  | _ => owed

end Did

/-- The node a call owes the retry policy or a packet: it sealed a failure, admitted
a verdict other than acceptance or found the attempts exhausted, and has not
committed what follows. -/
def owing (h : List Did) : Option (RunId × NodeId) := h.foldl Did.after none

@[simp] theorem owing_append (h : List Did) (x : Did) : owing (h ++ [x]) = x.after (owing h) := by
  simp [owing]

/-! ### The protocol -/

/-- The run and the graph document a call has read. -/
structure Entered (c : Command) (h : List Did) (spec : GraphSpec) (run : GraphRun) : Prop where
  document : c.ws.graph = .ok spec
  admitted : ∃ g, Graph.admitGraph spec = .ok g
  stored : ∃ fresh, Did.graphStored spec fresh ∈ h
  read : ∃ id, Did.runRead id run ∈ h

/-- The run and the graph a call works on: the run is of the graph. -/
structure Opened (c : Command) (h : List Did) (spec : GraphSpec) (run : GraphRun) : Prop
    extends Entered c h spec run where
  ofRun : run.graphRef = spec.graphRef

theorem Entered.append {c : Command} {h h' : List Did} {spec : GraphSpec} {run : GraphRun}
    (he : Entered c h spec run) (hh : h <+: h') : Entered c h' spec run := by
  obtain ⟨fresh, hfresh⟩ := he.stored
  obtain ⟨id, hid⟩ := he.read
  exact ⟨he.document, he.admitted, ⟨fresh, hh.subset hfresh⟩, ⟨id, hh.subset hid⟩⟩

theorem Opened.append {c : Command} {h h' : List Did} {spec : GraphSpec} {run : GraphRun}
    (ho : Opened c h spec run) (hh : h <+: h') : Opened c h' spec run :=
  ⟨ho.toEntered.append hh, ho.ofRun⟩

/-- A claim a call made, and the manifest it froze for it. -/
structure Freeze (b : Build) (c : Command) where
  before : List Did
  sched : Scheduler
  claimedAt : String
  claim : Claim
  node : NodeSpec
  events : List StoredEvent
  st : RunState
  snapshot : DependencySnapshot
  seen : Observed
  manifest : Manifest
  opened : Opened c before sched.spec sched.run
  scheduler : Controller.schedulerFor c.ws sched.spec sched.run = .ok sched
  quiet : owing before = none
  node_eq : sched.spec.findNode claim.nodeId = some node
  replayed : RunState.replay sched.run.runId sched.spec events = .ok st
  manifest_eq : (Controller.resolver b c.ws c.now).resolve b.runtime seen node claim.narrowing
    snapshot (Controller.offersFor node claim.narrowing) = .ok manifest

namespace Freeze

variable {b : Build} {c : Command} (f : Freeze b c)

/-- The history of the call when it has the manifest. -/
def history : List Did :=
  f.before ++ [Did.claimed f.sched c.now f.claimedAt f.claim,
    Did.eventsRead f.sched.run.runId f.events,
    Did.resolved f.claim f.sched.spec f.sched.run f.st c.now f.snapshot,
    Did.observed f.claim f.seen]

/-- The directory and the file of the claim's artifact. -/
def dir : String := Controller.artifactDir c.ws f.sched.run.runId

def path : String :=
  Controller.artifactFile c.ws f.sched.run.runId f.claim.nodeId f.claim.number

theorem before_prefix : f.before <+: f.history := List.prefix_append _ _

theorem owing_history : owing f.history = none := by
  rw [history, owing, List.foldl_append]
  exact f.quiet

/-- The record sealed over these bytes. -/
def sealedOver (bytes : List UInt8) : Attempt :=
  Controller.sealedAttempt b f.sched.run f.node f.claim c.now f.manifest.references
    (some (f.path, bytes)) .completed none

end Freeze

/-- The execution of a check: its child, and the result read back. -/
structure Check (b : Build) (c : Command) extends Freeze b c where
  subject : String
  profile : String
  child : ChildEnd
  response : VerifierResponse
  bytes : List UInt8
  subject_eq : Controller.manifestSubject manifest.references = some subject
  answered : Controller.childOutcome b (Controller.requestFor node sched.run claim.nodeId
    claim.number subject manifest.references manifest.digest) child = .ok response

namespace Check

variable {b : Build} {c : Command} (k : Check b c)

def request : VerifierRequest :=
  Controller.requestFor k.node k.sched.run k.claim.nodeId k.claim.number k.subject
    k.manifest.references k.manifest.digest

def history : List Did :=
  k.toFreeze.history ++ [Did.dirMade k.dir, Did.exeFound,
    Did.ran (.software k.profile k.path) k.request k.child, Did.bytesRead k.path k.bytes]

end Check

/-- A call has the sealed attempt of a node: read from the ledger, or sealed by
itself. -/
inductive Held (h : List Did) (run : GraphRun) (node : NodeSpec) (a : Attempt) : Prop
  | read (number : Nat) (hmem : Did.attemptRead run.runId node.id number a ∈ h)
  | own (sched : Scheduler) (claim : Claim) (hrun : sched.run = run)
      (hnode : claim.nodeId = node.id) (hmem : Did.sealed sched claim a ∈ h)

/-- The command line of the verifier a node pins, for its sealed attempt. -/
inductive ArgsFor (node : NodeSpec) (a : Attempt) (path : String) : ChildArgs → Prop
  | patch (artifact : String) (result : ResultRef)
      (hpin : node.acceptance.verifier.id.text = patchVerifierId)
      (hresult : a.result = some result)
      (hfile : stripPrefix "file:" result.artifactRef = some artifact) :
      ArgsFor node a path (.patch artifact)
  | software (profile : String) (hpin : node.acceptance.verifier.id.text = softwareVerifierId) :
      ArgsFor node a path (.software profile path)

/-- The verification of a sealed attempt, up to the start of its child. -/
structure Verify (b : Build) (c : Command) where
  before : List Did
  spec : GraphSpec
  run : GraphRun
  node : NodeSpec
  attempt : Attempt
  subject : String
  digest : Digest
  args : ChildArgs
  opened : Opened c before spec run
  quiet : owing before = none
  node_mem : node ∈ spec.nodes
  held : Held before run node attempt
  subject_eq : Controller.manifestSubject attempt.inputManifest = some subject
  digest_eq : inputManifestDigest b.runtime attempt.inputManifest attempt.dependencyReceipts =
    .ok digest
  args_for : ArgsFor node attempt
    (Controller.artifactFile c.ws run.runId node.id attempt.number) args

def Verify.request {b : Build} {c : Command} (v : Verify b c) : VerifierRequest :=
  Controller.requestFor v.node v.run v.node.id v.attempt.number v.subject v.attempt.inputManifest
    v.digest

/-- When a call may seal an attempt under a claim. -/
inductive Sealing (b : Build) (c : Command) (h : List Did) (sched : Scheduler) (claim : Claim)
    (a : Attempt) : Prop
  | patch (f : Freeze b c) (bytes : List UInt8) (hsched : f.sched = sched)
    (hclaim : f.claim = claim)
      (history : h = f.history ++ [Did.dirMade f.dir, Did.wrote f.path bytes])
      (ha : a = f.sealedOver bytes)
      (hproduces : f.node.resultType.schemaId.text = "patch_result")
  | check (k : Check b c) (hsched : k.sched = sched) (hclaim : k.claim = claim)
      (history : h = k.history) (ha : a = k.sealedOver k.bytes)
  | failed (claimedAt : String) (opened : Opened c h sched.spec sched.run) (quiet : owing h = none)
      (hclaim : Did.claimed sched c.now claimedAt claim ∈ h) (ha : a.completed = false)

/-- When a call may start a verifier child. -/
inductive Starting (b : Build) (c : Command) (h : List Did) (args : ChildArgs)
    (request : VerifierRequest) : Prop
  | check (f : Freeze b c) (subject profile : String)
      (hsubject : Controller.manifestSubject f.manifest.references = some subject)
      (history : h = f.history ++ [Did.dirMade f.dir, Did.exeFound])
      (hargs : args = .software profile f.path)
      (hrequest : request = Controller.requestFor f.node f.sched.run f.claim.nodeId f.claim.number
        subject f.manifest.references f.manifest.digest)
  | verify (v : Verify b c) (history : h = v.before) (hargs : args = v.args)
      (hrequest : request = v.request)

/-- When a call may admit a receipt: what it issued from a child that answered. -/
inductive Admitting (b : Build) (c : Command) (h : List Did) (spec : GraphSpec) (run : GraphRun)
    (receipt : VerifierReceipt) : Prop
  | check (k : Check b c) (id : Ident)
      (history : h = k.history ++ [Did.sealed k.sched k.claim (k.sealedOver k.bytes)])
      (hspec : k.sched.spec = spec) (hrun : k.sched.run = run)
      (issued : Receipts.issue b.runtime k.response k.node (k.sealedOver k.bytes) id k.subject
        ("checkspan-controller:" ++ c.ws.controller) c.now
        { validUntil := none, conditions := [] } = .ok receipt)
  | verify (v : Verify b c) (child : ChildEnd) (response : VerifierResponse) (id : Ident)
      (history : h = v.before ++ [Did.ran v.args v.request child])
      (hspec : v.spec = spec) (hrun : v.run = run)
      (answered : Controller.childOutcome b v.request child = .ok response)
      (issued : Receipts.issue b.runtime response v.node v.attempt id v.subject
        ("checkspan-controller:" ++ c.ws.controller) c.now
        { validUntil := none, conditions := [] } = .ok receipt)

/-- When a call may do an effect, by the history before it. -/
def Protocol (b : Build) (c : Command) (h : List Did) : Effect → Prop
  | .ledger (.storeGraph spec) => c.ws.graph = .ok spec ∧ ∃ g, Graph.admitGraph spec = .ok g
  | .ledger (.claimNext sched now _) =>
    Opened c h sched.spec sched.run ∧ owing h = none ∧ now = c.now
  | .ledger (.complete sched claim a) => Sealing b c h sched claim a
  | .ledger (.admitReceipt spec run receipt now) => Admitting b c h spec run receipt ∧ now = c.now
  | .ledger (.applyRetryPolicy spec run id _ _) =>
    Opened c h spec run ∧ ∀ owed, owing h = some owed → owed = (run.runId, id)
  | .ledger (.openResolveWork spec run id _ _) =>
    Opened c h spec run ∧ ∀ owed, owing h = some owed → owed = (run.runId, id)
  | .ledger _ => False
  | .write path bytes => ∃ f : Freeze b c, h = f.history ++ [Did.dirMade f.dir] ∧ path = f.path ∧
      Controller.candidateBytes f.manifest = some bytes
  | .child args request => Starting b c h args request
  | _ => True

/-- A call that returns owes nothing. -/
def Settled {α : Type} (h : List Did) (r : Except RunError α) : Prop :=
  ∀ a, r = .ok a → owing h = none

end Checkspan
