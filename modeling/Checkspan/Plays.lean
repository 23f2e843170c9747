import Checkspan.Sessions

/-!
# Plays of calls

Runs of the pool that are computed: a host answers every effect of a call, and the
store is whatever the transactions make of it. The concrete run is the combined pilot
of the schema notes, a patch and the software check of it.
-/

namespace Checkspan

open Process Transition

/-! ### Hosts -/

/-- What one call finds outside the store and the artifact files. -/
structure Host where
  clock : String
  seen : Observed
  child : ChildEnd

/-- The files with one of them replaced. -/
def World.put (w : World) (path : String) (bytes : Option (List UInt8)) : World :=
  { w with files := fun p => if p = path then bytes else w.files p }

/-- The answer of a host, and the world after it: every file operation succeeds. -/
def Host.respond (rt : Runtime) (host : Host) (w : World) : (e : Effect) → e.Answer × World
  | .ledger op => ((op.exec rt w.store).1, { w with store := (op.exec rt w.store).2 })
  | .run id => (w.store.run id, w)
  | .events id => (w.store.eventsOf id, w)
  | .attempt id node number => (w.store.attempt id node number, w)
  | .resolve claim spec record st now => (DependencyService.resolve
      { spec := spec, run := record, state := st, store := w.store, now := now } claim.nodeId, w)
  | .clock => (host.clock, w)
  | .observe _ => (host.seen, w)
  | .makeDir _ => (.ok (), w)
  | .write path bytes => (.ok (), w.put path (some bytes))
  | .read path => (someOr (w.files path) "no such file", w)
  | .currentExe => (.ok (), w)
  | .child (.patch artifact) _ => ({ host.child with seen := w.files artifact }, w)
  | .child (.software _ out) _ => (host.child, w.put out host.child.seen)

theorem Host.respond_performs (rt : Runtime) (host : Host) (w : World) (e : Effect) :
    e.Performs rt w (host.respond rt w e).1 (host.respond rt w e).2 := by
  have hother : ∀ path bytes p, p ≠ path → (w.put path bytes).files p = w.files p :=
    fun _ _ _ hp => if_neg hp
  have hself : ∀ path bytes, (w.put path bytes).files path = bytes := fun _ _ => if_pos rfl
  cases e with
  | write path bytes => exact ⟨rfl, hother path _, fun _ => hself path _⟩
  | read path => exact ⟨rfl, fun bytes hread => someOr_ok hread⟩
  | child args request =>
    cases args with
    | patch artifact => exact ⟨rfl, rfl⟩
    | software profile out => exact ⟨rfl, hother out _, hself out _⟩
  | ledger | run | events | attempt | resolve => exact ⟨rfl, rfl⟩
  | clock | observe | makeDir | currentExe => rfl

/-- Process `i` of a pool of calls acts up to `n` times before a host. -/
def playOn (b : Build) (host : Host) (guard : Sessions → Nat → Did → Bool) (i n : Nat)
    (p : Sessions) : Sessions :=
  p.advance (host.respond b.runtime) guard i n

/-- An operation of others, if it is one transaction more. -/
def outside (b : Build) (op : LedgerOp) (p : Sessions) : Sessions :=
  { p with world := { p.world with store := (op.exec b.runtime p.world.store).2 } }

section

variable {b : Build} {docs : GraphSpec → Prop} {allowed : Sessions → SessionMove → Prop}

theorem playOn_reachable {p : Sessions} (hp : ((sessions b docs).system allowed).Reachable p)
    {guard : Sessions → Nat → Did → Bool}
    (hguard : ∀ s i x, guard s i x = true → allowed s (.act i x)) (host : Host) (i n : Nat) :
    ((sessions b docs).system allowed).Reachable (playOn b host guard i n p) :=
  Machine.advance_reachable (host.respond_performs b.runtime) hguard i n hp

theorem outside_reachable {p : Sessions} (hp : ((sessions b docs).system allowed).Reachable p)
    (op : LedgerOp) (legal : op.Legal p.world.store) (houtside : op.Outside docs)
    (hallowed : allowed p (.env op)) :
    ((sessions b docs).system allowed).Reachable (outside b op p) :=
  Machine.env_reachable hp ⟨legal, houtside, rfl⟩ hallowed

theorem call_reachable {p : Sessions} (hp : ((sessions b docs).system allowed).Reachable p)
    (c : Command) (hdocs : ∀ spec, c.ws.graph = .ok spec → docs spec)
    (hallowed : allowed p (.start (c.call b).run)) :
    ((sessions b docs).system allowed).Reachable (p.call (c.call b).run) :=
  Machine.call_reachable hp ⟨c, hdocs, rfl⟩ hallowed

end

/-! ### The combined pilot -/

namespace Combined

open Pilot (one zeroDigest policy now get get_eq)

def otherDigest : Digest :=
  ⟨"sha256:1111111111111111111111111111111111111111111111111111111111111111", by decide +kernel⟩

def graphId : GraphId := ⟨"combined", by decide +kernel⟩
def patchId : NodeId := ⟨"cs_patch", by decide +kernel⟩
def ciId : NodeId := ⟨"cs_ci", by decide +kernel⟩
def runId : RunId := ⟨"run-0001", by decide +kernel⟩
def candidate : Ident := ⟨"candidate", by decide +kernel⟩
def patchProof : Ident := ⟨"patch", by decide +kernel⟩
def required : Ident := ⟨"test", by decide +kernel⟩
def resultPort : Ident := Pilot.resultPort
def patchType : TypeRef := Pilot.resultType
def checkType : TypeRef := ⟨⟨"software_check_result", by decide +kernel⟩, one, zeroDigest⟩
def patchVerifier : VerifierRef := ⟨⟨"patch_capture", by decide +kernel⟩, one, zeroDigest⟩
def softwareVerifier : VerifierRef := ⟨⟨"software_check", by decide +kernel⟩, one, zeroDigest⟩
def patchRef : NodeRef := ⟨graphId, patchId, one⟩
def ciRef : NodeRef := ⟨graphId, ciId, one⟩

def codePort : PortSpec :=
  { name := candidate, kind := .code, expectedType := patchType, required := true
    allowedSourceScope := [repoSource], handlingPolicyRef := policy }

def proofPort : PortSpec :=
  { name := patchProof, kind := .proofs, expectedType := patchType, required := true
    allowedSourceScope := ["node:cs_patch"], handlingPolicyRef := policy }

def node (id : NodeId) (kind : NodeKind) (deps : List Dependency) (ports : List PortSpec)
    (resultType : TypeRef) (verifier : VerifierRef) : NodeSpec :=
  { id := id, revision := one, kind := kind, displayName := none, prompt := "do", deps := deps
    evidencePorts := ports, resultType := resultType
    acceptance := { claim := "done", requiredChecks := [required], verifier := verifier
                    policyRef := policy }
    retryPolicy := { Pilot.patch.retryPolicy with allowedFailureClasses := [.rejected] }
    authorityPolicyRef := policy, resourceScope := [], supersedes := none }

def csPatch : NodeSpec := node patchId .task [] [codePort] patchType patchVerifier
def csCi : NodeSpec :=
  node ciId .check [{ node := patchRef, outputPort := resultPort, expectedType := patchType }]
    [codePort, proofPort] checkType softwareVerifier

def spec : GraphSpec :=
  { record := .graphSpec, schemaVersion := 1, graphId := graphId, revision := one
    displayName := none, nodes := [csPatch, csCi], targets := [ciRef]
    budget := Pilot.spec.budget
    supersedes := none }

def run : GraphRun :=
  { record := .graphRun, schemaVersion := 1, runId := runId, graphRef := spec.graphRef
    budgetLineageRef := none, admittedImports := [] }

/-- What a verifier prints about the first attempt of a node: which node, then its verdict. -/
def document (node : NodeSpec) (verdict : Verdict) : VerifierResponse :=
  { verifier := node.acceptance.verifier
    attempt := ⟨runId, spec.refOf node, one⟩
    verdict := verdict, checks := [], reasonCode := none, reasonText := none }

def verdictOf (v : UInt8) : Verdict := if v = 1 then .accept else .reject

/-- Stand-ins for the third-party functions: two digests that tell contents apart by
their first byte, and documents of two bytes. -/
def build : Build :=
  { runtime := {
      text := fun _ => ""
      jcs := fun _ => .ok []
      sha256 := fun bytes => if bytes.head? = some 1 then otherDigest else zeroDigest }
    decoder := { next := fun bytes => match bytes with
      | [0, v] => some (.ok (document csPatch (verdictOf v), 2))
      | [1, v] => some (.ok (document csCi (verdictOf v), 2))
      | _ => none }
    patchSchema := [] }

def workspace : Workspace :=
  { graph := .ok spec, repo := some "repo", softwareProfile := some "profile.json"
    artifacts := "artifacts", controller := "ctl-1", gateExpiry := "2027-01-01T00:00:00Z" }

def step : Command :=
  { ws := workspace, runId := "run-0001", now := now, maxSteps := none }

/-- A working tree with this subject digest. -/
def tree (digest : Digest) : Observed :=
  { capture := fun _ => .ok { root := "repo", baseCommit := "b", kind := .workingTree
                              commit := "c", result := .null, subjectDigest := digest }
    attestation := fun _ => .notAFile
    file := fun _ => .notAFile }

/-- A child that prints a document, exits with status zero and leaves these bytes. -/
def prints (stdout bytes : List UInt8) : ChildEnd :=
  { run := { executable := none, spawned := .ok (), ended := .exited (some 0), stdout := stdout }
    stderr := "", seen := some bytes }

def host (digest : Digest) (stdout bytes : List UInt8) : Host :=
  { clock := "2026-01-01T00:00:01Z", seen := tree digest, child := prints stdout bytes }

/-- The pool with the run created and no call started. -/
def created : Sessions :=
  outside build (.createRun run) (outside build (.storeGraph spec)
    ⟨{ store := Store.empty, files := fun _ => none }, []⟩)

theorem created_reachable {allowed : Sessions → SessionMove → Prop}
    (henv : ∀ s op, allowed s (.env op)) :
    ((sessions build (· = spec)).system allowed).Reachable created := by
  have hinit : ((sessions build (· = spec)).system allowed).Reachable
      ⟨{ store := Store.empty, files := fun _ => none }, []⟩ := .init ⟨rfl, rfl⟩
  have hstored := outside_reachable hinit (.storeGraph spec) trivial rfl (henv _ _)
  exact outside_reachable hstored (.createRun run) trivial trivial (henv _ _)

theorem distinct_spec {rt : Runtime} : Distinct rt (· = spec) := by
  rintro g g' d rfl rfl - - -
  rfl

/-- One more step, with this tree, answered with an acceptance of the node `mark` names. -/
def passes (guard : Sessions → Nat → Did → Bool) (digest : Digest) (mark : UInt8) (i : Nat)
    (p : Sessions) : Sessions :=
  playOn build (host digest [mark, 1] [mark]) guard i 14 (p.call (step.call build).run)

theorem passes_reachable {allowed : Sessions → SessionMove → Prop} {p : Sessions}
    (hp : ((sessions build (· = spec)).system allowed).Reachable p)
    {guard : Sessions → Nat → Did → Bool}
    (hguard : ∀ s i x, guard s i x = true → allowed s (.act i x))
    (hstart : ∀ s q, allowed s (.start q)) (digest : Digest) (mark : UInt8) (i : Nat) :
    ((sessions build (· = spec)).system allowed).Reachable (passes guard digest mark i p) := by
  refine playOn_reachable (call_reachable hp step ?_ (hstart _ _)) hguard _ _ _
  intro g hg
  exact (Except.ok.inj hg).symm

end Combined

end Checkspan
