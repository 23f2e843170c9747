import Checkspan.Captures
import Checkspan.Manifests

/-!
# Verifying a frozen manifest (`src/evidence/mod.rs:553-592, 786-900`)

`Resolver::verify` reads each reference's locator back to a source and compares what it
finds there with what was frozen. Resolution and verification read one disk.
-/

namespace Checkspan

/-- What a resolver can read: repositories, files below a root, and real paths. -/
structure Disk where
  git : Git
  limits : CaptureLimits
  file : String → String → FileView
  canonicalize : String → Option String

namespace Disk

def sameDirectory (d : Disk) (a b : String) : Bool :=
  match d.canonicalize a, d.canonicalize b with
  | some a, some b => a = b
  | _, _ => false

def capture (rt : Runtime) (d : Disk) (now : Timestamp) (root : String) (selection : Selection) :
    Except String Captured :=
  (d.git.capture rt d.limits root selection now).map CapturedPatch.seen

/-- What one source shows: the candidate of a repository, or the attestation and one file of
a directory. -/
def look (rt : Runtime) (d : Disk) (now : Timestamp) : Source → Item → Observed
  | .repository root, .candidate selection =>
    { capture := fun _ => d.capture rt now root selection
      attestation := fun _ => .notAFile
      file := fun _ => .notAFile }
  | .directory root _ attestation _, .file path _ _ _ =>
    { capture := fun _ => .error "not a repository"
      attestation := fun _ => (attestation.map (fun a => d.file root a.reference)).getD .notAFile
      file := fun _ => d.file root path }
  | _, _ =>
    { capture := fun _ => .error "not a repository"
      attestation := fun _ => .notAFile
      file := fun _ => .notAFile }

def seenFor (rt : Runtime) (d : Disk) (r : Resolver) (offers : List Offer) (port : Ident) :
    Option Observed := do
  let offer ← offers.find? (fun x => x.port = port)
  let source ← r.sources.lookup offer.source
  some (d.look rt r.now source offer.item)

def observe (rt : Runtime) (d : Disk) (r : Resolver) (offers : List Offer) : Observed where
  capture port := ((d.seenFor rt r offers port).map (fun o => o.capture port)).getD
    (.error "nothing is offered")
  attestation port :=
    ((d.seenFor rt r offers port).map (fun o => o.attestation port)).getD .notAFile
  file port := ((d.seenFor rt r offers port).map (fun o => o.file port)).getD .notAFile

end Disk

/-- The errors of a verification: those of a resolution and two of its own. -/
inductive VerifyError where
  | evidence (error : EvidenceError)
  | badLocator (port : Ident) (locator : String)
  | subjectChanged (port : Ident) (expected actual : String)
deriving DecidableEq

namespace Resolver

variable (rt : Runtime) (d : Disk) (r : Resolver)

/-- Whether a registered repository of the port's scope is this directory. -/
def registeredAt (port : PortSpec) (root : String) : Bool :=
  port.allowedSourceScope.any (fun name =>
    match r.sources.lookup name with
    | some (.repository registered) => d.sameDirectory registered root
    | _ => false)

def verifyCode (port : PortSpec) (reference : EvidenceRef) : Except VerifyError Unit := do
  (r.checkCodeType rt port).mapError .evidence
  let (root, selection) ← someOr (codeSelection reference.locator)
    (.badLocator port.name reference.locator)
  guardOk (r.registeredAt d port root) (.evidence (.unregisteredSource port.name root))
  let c ← (d.capture rt r.now root selection).mapError (fun e => .evidence (.capture port.name e))
  guardOk (codeSubject c = reference.subject)
    (.subjectChanged port.name reference.subject (codeSubject c))

/-- The file of a directory source, with the checks of `verify_log` on the source. -/
def readLog (port : PortSpec) (name : String) (source : Source) (path : String) :
    Except EvidenceError (List UInt8) :=
  match source with
  | .repository _ => .error (.sourceKindMismatch port.name name port.kind)
  | .directory root producer attestation validUntil => do
    let seen := d.look rt r.now (.directory root producer attestation validUntil)
      (.file path "" "" none)
    checkAttestation rt seen port.name name attestation
    guardOk (validUntil.all (fun t => !t.isBefore r.now))
      (.expired port.name (validUntil.getD r.now))
    readContained port.name path (d.file root path) r.limits.maxFileBytes r.limits.maxTotalBytes
      r.limits.maxTotalBytes

def verifyLog (port : PortSpec) (reference : EvidenceRef) : Except VerifyError Unit := do
  let rest ← someOr (stripPrefix "file:" reference.locator)
    (.badLocator port.name reference.locator)
  let (name, path) ← someOr (splitOnce rest '/') (.badLocator port.name reference.locator)
  let source ← (r.sourceFor port name).mapError .evidence
  let bytes ← (r.readLog rt d port name source path).mapError .evidence
  guardOk (artifactDigest rt bytes = reference.contentDigest) (.evidence
    (.digestMismatch port.name reference.contentDigest (artifactDigest rt bytes)))

/-- The first pinned dependency whose receipt has this id. -/
def pinned (snapshot : DependencySnapshot) (id : String) : Option ResolvedDependency :=
  snapshot.resolved.find? (fun x => x.receipt.id.text = id)

def verifyProof (port : PortSpec) (reference : EvidenceRef) (snapshot : DependencySnapshot) :
    Except VerifyError Unit := do
  let id ← someOr (stripPrefix "receipt:" reference.locator)
    (.badLocator port.name reference.locator)
  let dep ← someOr (pinned snapshot id)
    (.evidence (.proofMissing port.name port.allowedSourceScope))
  guardOk (dep.resultDigest = reference.contentDigest) (.evidence
    (.digestMismatch port.name reference.contentDigest dep.resultDigest))

def verifyKind (port : PortSpec) (reference : EvidenceRef) (snapshot : DependencySnapshot) :
    Except VerifyError Unit :=
  match port.kind with
  | .code => r.verifyCode rt d port reference
  | .logs => r.verifyLog rt d port reference
  | .proofs => verifyProof port reference snapshot
  | .rag | .human => .error (.evidence (.unsupported reference.portName port.kind))

def verifyReference (node : NodeSpec) (snapshot : DependencySnapshot) (reference : EvidenceRef) :
    List VerifyError :=
  match node.evidencePorts.find? (fun p => p.name = reference.portName) with
  | none => [.evidence (.unknownPort reference.portName)]
  | some port =>
    ((reference.validUntil.filter (fun t => t.isBefore r.now)).toList.map
      (fun t => .evidence (.expired reference.portName t))) ++
    (match r.verifyKind rt d port reference snapshot with
      | .ok () => []
      | .error e => [e])

/-- `verify`: every reason the manifest no longer holds. -/
def verify (node : NodeSpec) (manifest : List EvidenceRef) (snapshot : DependencySnapshot) :
    List VerifyError :=
  manifest.flatMap (r.verifyReference rt d node snapshot)

/-! ### What a passed verification says -/

/-- A reference is drawn from a source inside the scope of its port, and what is found there
is what was frozen. -/
inductive Drawn (port : PortSpec) (snapshot : DependencySnapshot) (reference : EvidenceRef) : Prop
  | code (name registered root : String) (selection : Selection) (c : Captured)
      (hkind : port.kind = .code) (hscope : name ∈ port.allowedSourceScope)
      (hsource : r.sources.lookup name = some (.repository registered))
      (hlocator : codeSelection reference.locator = some (root, selection))
      (hsame : d.sameDirectory registered root = true)
      (hcapture : d.capture rt r.now root selection = .ok c)
      (hsubject : codeSubject c = reference.subject)
  | log (name root producer path : String) (attestation : Option Attestation)
      (validUntil : Option Timestamp) (listed : Nat) (bytes : List UInt8)
      (hkind : port.kind = .logs) (hscope : name ∈ port.allowedSourceScope)
      (hsource : r.sources.lookup name = some (.directory root producer attestation validUntil))
      (hvalid : ∀ t, validUntil = some t → t.isBefore r.now = false)
      (hlocator : reference.locator = "file:" ++ (name ++ String.singleton '/' ++ path))
      (hfile : d.file root path = .file listed (.ok bytes))
      (hdigest : artifactDigest rt bytes = reference.contentDigest)
  | proof (dep : ResolvedDependency) (hkind : port.kind = .proofs) (hdep : dep ∈ snapshot.resolved)
      (hlocator : reference.locator = "receipt:" ++ dep.receipt.id.text)
      (hscope : covers port dep = true) (hdigest : dep.resultDigest = reference.contentDigest)

/-- A reference of a declared port, not past its validity, and drawn from its scope. -/
def Sound (node : NodeSpec) (snapshot : DependencySnapshot) (reference : EvidenceRef) : Prop :=
  ∃ port, node.evidencePorts.find? (fun p => p.name = reference.portName) = some port ∧
    (∀ t, reference.validUntil = some t → t.isBefore r.now = false) ∧
    Drawn rt d r port snapshot reference

/-- Of the receipts with the id a proofs reference names, one whose dependency the scope of
the port names has the digest of the first. -/
def ProofsScoped (node : NodeSpec) (snapshot : DependencySnapshot) (reference : EvidenceRef) :
    Prop :=
  ∀ port id first, node.evidencePorts.find? (fun p => p.name = reference.portName) = some port →
    port.kind = .proofs → stripPrefix "receipt:" reference.locator = some id →
    pinned snapshot id = some first → ∃ dep ∈ snapshot.resolved, dep.receipt.id.text = id ∧
      covers port dep = true ∧ dep.resultDigest = first.resultDigest

variable {rt d r}

theorem verifyReference_eq_nil {node : NodeSpec} {snapshot : DependencySnapshot}
    {reference : EvidenceRef} : r.verifyReference rt d node snapshot reference = [] ↔
      ∃ port, node.evidencePorts.find? (fun p => p.name = reference.portName) = some port ∧
        (∀ t, reference.validUntil = some t → t.isBefore r.now = false) ∧
        r.verifyKind rt d port reference snapshot = .ok () := by
  unfold verifyReference
  cases hport : node.evidencePorts.find? (fun p => p.name = reference.portName) with
  | none => simp
  | some port =>
    simp only [List.append_eq_nil_iff, List.map_eq_nil_iff, Option.toList_eq_nil_iff,
      Option.filter_eq_none_iff, Option.some.injEq, exists_eq_left']
    refine and_congr ?_ ?_
    · simp
    · cases r.verifyKind rt d port reference snapshot with
      | ok u => simp
      | error e => simp

theorem registeredAt_iff {port : PortSpec} {root : String} : r.registeredAt d port root = true ↔
    ∃ name ∈ port.allowedSourceScope, ∃ registered,
      r.sources.lookup name = some (.repository registered) ∧
        d.sameDirectory registered root = true := by
  unfold registeredAt
  rw [List.any_eq_true]
  refine exists_congr fun name => and_congr_right fun _ => ?_
  cases hsource : r.sources.lookup name with
  | none => simp
  | some source =>
    cases source with
    | repository registered => simp
    | directory => simp

theorem verifyCode_drawn {port : PortSpec} {snapshot : DependencySnapshot} {reference : EvidenceRef}
    (hkind : port.kind = .code) (h : r.verifyCode rt d port reference = .ok ()) :
    Drawn rt d r port snapshot reference := by
  obtain ⟨_, -, h⟩ := bind_ok h
  obtain ⟨⟨root, selection⟩, hlocator, h⟩ := bind_ok h
  obtain ⟨_, hregistered, h⟩ := bind_ok h
  obtain ⟨c, hcapture, h⟩ := bind_ok h
  obtain ⟨name, hscope, registered, hsource, hsame⟩ :=
    registeredAt_iff.mp (guardOk_ok hregistered)
  exact .code name registered root selection c hkind hscope hsource (someOr_ok hlocator) hsame
    (mapError_ok hcapture) (of_decide_eq_true (guardOk_ok h))

theorem verifyLog_drawn {port : PortSpec} {snapshot : DependencySnapshot} {reference : EvidenceRef}
    (hkind : port.kind = .logs) (h : r.verifyLog rt d port reference = .ok ()) :
    Drawn rt d r port snapshot reference := by
  obtain ⟨rest, hrest, h⟩ := bind_ok h
  obtain ⟨⟨name, path⟩, hsplit, h⟩ := bind_ok h
  obtain ⟨source, hsource, h⟩ := bind_ok h
  obtain ⟨bytes, hread, hdigest⟩ := bind_ok h
  obtain ⟨hscope, hsource⟩ := sourceFor_ok (mapError_ok hsource)
  have hread := mapError_ok hread
  have hlocator := Graph.stripPrefix_eq_some.mp (someOr_ok hrest)
  rw [splitOnce_eq (someOr_ok hsplit)] at hlocator
  cases source with
  | repository registered => cases hread
  | directory root producer attestation validUntil =>
    obtain ⟨_, -, hread⟩ := bind_ok hread
    obtain ⟨_, hvalid, hread⟩ := bind_ok hread
    obtain ⟨⟨listed, hfile⟩, -⟩ := readContained_ok hread
    refine .log name root producer path attestation validUntil listed bytes hkind hscope hsource ?_
      hlocator hfile (of_decide_eq_true (guardOk_ok hdigest))
    rintro t rfl
    simpa using guardOk_ok hvalid

theorem verifyProof_ok {port : PortSpec} {snapshot : DependencySnapshot} {reference : EvidenceRef}
    (h : verifyProof port reference snapshot = .ok ()) : ∃ id first,
      stripPrefix "receipt:" reference.locator = some id ∧ pinned snapshot id = some first ∧
        first.resultDigest = reference.contentDigest := by
  obtain ⟨id, hid, h⟩ := bind_ok h
  obtain ⟨first, hfirst, h⟩ := bind_ok h
  exact ⟨id, first, someOr_ok hid, someOr_ok hfirst, of_decide_eq_true (guardOk_ok h)⟩

theorem verify_sound_iff {node : NodeSpec} {manifest : List EvidenceRef}
    {snapshot : DependencySnapshot} (h : r.verify rt d node manifest snapshot = []) :
    (∀ reference ∈ manifest, Sound rt d r node snapshot reference) ↔
      ∀ reference ∈ manifest, ProofsScoped node snapshot reference := by
  refine forall₂_congr fun reference href => ?_
  have href := List.flatMap_eq_nil_iff.mp h reference href
  obtain ⟨port, hport, hvalid, hkind⟩ := verifyReference_eq_nil.mp href
  constructor
  · rintro ⟨port', hport', -, hdrawn⟩ port'' id first hport'' hproofs hid hfirst
    rw [hport] at hport' hport''
    cases hport'
    cases hport''
    unfold verifyKind at hkind
    rw [hproofs] at hkind
    obtain ⟨id', first', hid', hfirst', hdigest⟩ := verifyProof_ok hkind
    rw [hid] at hid'
    cases hid'
    rw [hfirst] at hfirst'
    cases hfirst'
    cases hdrawn with
    | code _ _ _ _ _ hcode => rw [hproofs] at hcode; cases hcode
    | log _ _ _ _ _ _ _ _ hlogs => rw [hproofs] at hlogs; cases hlogs
    | proof dep _ hdep hlocator hscope hdigest' =>
      rw [hlocator, Graph.stripPrefix_eq_some.mpr rfl] at hid
      cases hid
      exact ⟨dep, hdep, rfl, hscope, hdigest'.trans hdigest.symm⟩
  · intro hscoped
    refine ⟨port, hport, hvalid, ?_⟩
    unfold verifyKind at hkind
    cases hportKind : port.kind with
    | code =>
      rw [hportKind] at hkind
      exact verifyCode_drawn hportKind hkind
    | logs =>
      rw [hportKind] at hkind
      exact verifyLog_drawn hportKind hkind
    | proofs =>
      rw [hportKind] at hkind
      obtain ⟨id, first, hid, hfirst, hdigest⟩ := verifyProof_ok hkind
      obtain ⟨dep, hdep, hdepId, hcovers, hsame⟩ :=
        hscoped port id first hport hportKind hid hfirst
      refine .proof dep hportKind hdep ?_ hcovers (hsame.trans hdigest)
      rw [hdepId]
      exact Graph.stripPrefix_eq_some.mp hid
    | rag =>
      rw [hportKind] at hkind
      cases hkind
    | human =>
      rw [hportKind] at hkind
      cases hkind

section
open Combined (ciId ciRef patchRef graphId runId patchType checkType softwareVerifier codePort
  proofPort otherDigest build)
open Pilot (one zeroDigest)

def headCommit : CommitId := ⟨"89abcdef0123456789abcdef0123456789abcdef", by decide +kernel⟩

/-- A clean repository of one commit at `/work`, with a directory `/work/sub`. -/
def workDisk : Disk :=
  { git := {
      toplevel := fun path => if path = "/work" ∨ path = "/work/sub" then .ok "/work"
        else .error "not a git repository"
      version := fun _ => .ok "2.45.0"
      resolve := fun _ rev => if rev = "HEAD" ∨ rev = headCommit.text then .ok headCommit
        else .error "unknown revision"
      firstParent := fun _ _ => .error "no parent"
      isClean := fun _ => .ok true
      nameStatus := fun _ _ _ => .ok []
      untracked := fun _ => .ok []
      blob := fun _ _ _ => .error "no such path"
      workingFile := fun _ _ => .error "no such path"
      patch := fun _ _ _ => .ok []
      rootCommits := fun _ _ => .ok [headCommit] }
    limits := .default
    file := fun _ _ => .io "no such file"
    canonicalize := some }

def workResolver (root : String) : Resolver :=
  { sources := [(repoSource, .repository root)], limits := .default, now := Pilot.now
    schema := [] }

def lintRef : NodeRef := ⟨graphId, ⟨"cs_lint", by decide +kernel⟩, one⟩

def pinnedOf (node : NodeRef) (id : Ident) (digest : Digest) : ResolvedDependency :=
  { dependency := { node := node, outputPort := Combined.resultPort, expectedType := patchType }
    receipt := ⟨id, runId, node⟩, provenance := .sameRun, resultDigest := digest }

def patchPinned : ResolvedDependency :=
  pinnedOf patchRef ⟨"receipt-1", by decide +kernel⟩ zeroDigest
def lintPinned : ResolvedDependency := pinnedOf lintRef ⟨"receipt-2", by decide +kernel⟩ otherDigest

/-- A check of a patch that also depends on a node its proof port does not name. -/
def lintedCi : NodeSpec :=
  Combined.node ciId .check [patchPinned.dependency, lintPinned.dependency] [codePort, proofPort]
    checkType softwareVerifier

def bothPinned : DependencySnapshot := ⟨ciId, [patchPinned, lintPinned]⟩

theorem verify_sound_iff_patch :
    (∀ reference ∈ [proofReference proofPort patchPinned], Sound build.runtime workDisk
        (workResolver "/work") lintedCi bothPinned reference) ↔
      ∀ reference ∈ [proofReference proofPort patchPinned],
        ProofsScoped lintedCi bothPinned reference :=
  verify_sound_iff (by decide +kernel)

/-- The receipt of a node outside the scope of the port verifies. -/
theorem verify_outside_scope :
    (workResolver "/work").verify build.runtime workDisk lintedCi
      [proofReference proofPort lintPinned] bothPinned = [] ∧
    ¬ Sound build.runtime workDisk (workResolver "/work") lintedCi bothPinned
      (proofReference proofPort lintPinned) := by
  refine ⟨by decide +kernel, ?_⟩
  rintro ⟨port, hport, -, hdrawn⟩
  have hfound : lintedCi.evidencePorts.find?
      (fun p => p.name = (proofReference proofPort lintPinned).portName) = some proofPort := by
    decide +kernel
  rw [hfound] at hport
  cases hport
  cases hdrawn with
  | code _ _ _ _ _ hkind => cases hkind
  | log _ _ _ _ _ _ _ _ hkind => cases hkind
  | proof dep _ hdep _ hscope hdigest =>
    rcases List.mem_pair.mp hdep with rfl | rfl
    · exact absurd hdigest (by decide +kernel)
    · exact absurd hscope (by decide +kernel)

end

end Resolver

end Checkspan
