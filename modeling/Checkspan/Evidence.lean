import Checkspan.Budget
import Checkspan.Contracts.Patch
import Checkspan.Graph

/-!
# Evidence resolution (`src/evidence/mod.rs`)

`Resolver::resolve`: every evidence port of a node filled, or refused, before a
worker or verifier runs. What the resolution reads outside the ledger, a captured
candidate or a contained file for each port, is an input (`Observed`).
-/

namespace Checkspan

/-! ### Candidates (`src/adapters/code/mod.rs:46-77`) -/

inductive Selector where
  | workingTree
  | commit (rev : String)
deriving DecidableEq

/-- What to capture and what to compare it with. -/
structure Selection where
  candidate : Selector
  base : Option String
deriving DecidableEq

/-- A captured candidate: the fields of its record that resolution reads, the
record as serialized, and its subject. -/
structure Captured where
  root : String
  baseCommit : String
  kind : CandidateKind
  commit : String
  result : Json
  subjectDigest : Digest

/-! ### Sources and offers (`evidence/mod.rs:29-122`) -/

/-- Ceilings on what one resolution reads; those of the capture are its own. -/
structure ResolverLimits where
  maxFileBytes : Nat
  maxTotalBytes : Nat

def ResolverLimits.default : ResolverLimits :=
  { maxFileBytes := 16 * 1024 * 1024, maxTotalBytes := 64 * 1024 * 1024 }

structure Attestation where
  reference : String
  digest : Digest
deriving DecidableEq

/-- A registered source a run may draw evidence from. -/
inductive Source where
  | repository (root : String)
  | directory (root producer : String) (attestation : Option Attestation)
      (validUntil : Option Timestamp)
deriving DecidableEq

/-- The sources registered for a run, by name. -/
abbrev Sources := List (String × Source)

/-- What is offered for one port. -/
inductive Item where
  | candidate (selection : Selection)
  | file (path subject version : String) (expectedDigest : Option Digest)
deriving DecidableEq

structure Offer where
  port : Ident
  source : String
  item : Item
deriving DecidableEq

/-- One resolved port; a proof has no bytes of its own. -/
structure ResolvedEvidence where
  reference : EvidenceRef
  bytes : Option (List UInt8)

/-- The input manifest frozen at dispatch. -/
structure Manifest where
  evidence : List ResolvedEvidence
  omitted : List Ident
  digest : Digest

def Manifest.references (m : Manifest) : List EvidenceRef := m.evidence.map (·.reference)

/-- Why a port could not be resolved (`evidence/mod.rs:157-298`). -/
inductive EvidenceError where
  | narrowing (error : NarrowingError)
  | unknownPort (port : Ident)
  | droppedPort (port : Ident)
  | duplicateOffer (port : Ident)
  | missingRequired (port : Ident)
  | unsupported (port : Ident) (kind : PortKind)
  | proofsNotOffered (port : Ident)
  | proofMissing (port : Ident) (scope : List String)
  | ambiguousProof (port : Ident)
  | undeclaredSource (port : Ident) (source : String)
  | unregisteredSource (port : Ident) (source : String)
  | sourceKindMismatch (port : Ident) (source : String) (kind : PortKind)
  | itemKindMismatch (port : Ident)
  | typeMismatch (port : Ident) (expected : TypeRef) (produced : String)
  | pathNotRelative (port : Ident) (path : String)
  | pathEscapes (port : Ident) (path : String)
  | notAFile (port : Ident) (path : String)
  | io (port : Ident) (path error : String)
  | tooLarge (port : Ident) (path : String) (size max : Nat)
  | totalTooLarge (port : Ident) (max : Nat)
  | digestMismatch (port : Ident) (expected actual : Digest)
  | invalidAttestation (source reason : String)
  | expired (port : Ident) (validUntil : Timestamp)
  | capture (port : Ident) (error : String)
  | canonical (error : CanonicalError)
deriving DecidableEq

def NarrowingError.display : NarrowingError → String
  | unknownPort p => "port " ++ p.text ++ " is not declared on the node"
  | requiredPort p => "port " ++ p.text ++ " is required and cannot be dropped"
  | duplicatePort p => "port " ++ p.text ++ " is listed more than once"
  | restrictedAndDropped p => "port " ++ p.text ++ " is both dropped and restricted"
  | emptySources p => "port " ++ p.text ++ " would be left with no source"
  | widensScope p source => "source " ++ source.quote ++ " is outside port " ++ p.text ++
      "'s approved scope; widening needs a new approved contract"

/-- `{:?}` of a list of texts. -/
def debugTexts (texts : List String) : String :=
  "[" ++ joinText ", " (texts.map String.quote) ++ "]"

def EvidenceError.display : EvidenceError → String
  | narrowing e => e.display
  | unknownPort p => "port " ++ p.text ++ " is not declared"
  | droppedPort p => "port " ++ p.text ++ " was dropped by the retry narrowing"
  | duplicateOffer p => "port " ++ p.text ++ " is offered twice"
  | missingRequired p => "required port " ++ p.text ++ " has no evidence"
  | unsupported p kind => "port " ++ p.text ++ " is a " ++ kind.asStr ++
      " port; this build cannot resolve " ++ kind.asStr ++ " evidence"
  | proofsNotOffered p => "proof port " ++ p.text ++
      " is filled from pinned receipts, not from an offer"
  | proofMissing p scope => "proof port " ++ p.text ++ " has no pinned receipt for " ++
      debugTexts scope
  | ambiguousProof p => "proof port " ++ p.text ++ " matches more than one pinned receipt"
  | undeclaredSource p source => "source " ++ source.quote ++ " is outside the scope of port " ++
      p.text
  | unregisteredSource p source => "source " ++ source.quote ++ " allowed for port " ++ p.text ++
      " is not registered for this run"
  | sourceKindMismatch p source kind => "source " ++ source.quote ++ " cannot feed " ++
      kind.asStr ++ " port " ++ p.text
  | itemKindMismatch p => "the offer for port " ++ p.text ++ " is not the item its kind takes"
  | typeMismatch p expected produced => "port " ++ p.text ++ " expects " ++ expected.display ++
      " with digest " ++ expected.digest.text ++ "; this build produces " ++ produced
  | pathNotRelative p path => "port " ++ p.text ++ ": " ++ path.quote ++
      " is not a clean relative path"
  | pathEscapes p path => "port " ++ p.text ++ ": " ++ path.quote ++ " resolves outside its source"
  | notAFile p path => "port " ++ p.text ++ ": " ++ path.quote ++ " is not a regular file"
  | io p path error => "port " ++ p.text ++ ": cannot read " ++ path.quote ++ ": " ++ error
  | tooLarge p path size max => "port " ++ p.text ++ ": " ++ path.quote ++ " is " ++
      toString size ++ " bytes, above the " ++ toString max ++ "-byte ceiling"
  | totalTooLarge p max => "port " ++ p.text ++ ": reading it would exceed the " ++ toString max ++
      "-byte total ceiling"
  | digestMismatch p expected actual => "port " ++ p.text ++ ": expected " ++ expected.text ++
      ", found " ++ actual.text
  | invalidAttestation source reason => "source " ++ source.quote ++ ": attestation invalid: " ++
      reason
  | expired p t => "port " ++ p.text ++ ": evidence expired at " ++ t.text
  | capture p error => "port " ++ p.text ++ ": " ++ error
  | canonical e => e.display

/-- Errors as one line, as the controller reports them. -/
def displayErrors (errors : List EvidenceError) : String := joinText "; " (errors.map (·.display))

/-! ### Contained files (`evidence/mod.rs:1006-1069`) -/

/-- `is_clean_relative_path` (`src/contracts/patch.rs:255-263`). -/
def isCleanRelativePath (path : String) : Bool :=
  !path.isEmpty && path.front != '/' && !path.contains '\\' && !path.contains '\x00' &&
    (path.toList.splitOn '/').all (fun segment =>
      !segment.isEmpty && segment != ['.'] && segment != ['.', '.'])

/-- What the file system says about a path below a root: the first call that fails,
where the path leads, or the file's size and the read of its bytes. -/
inductive FileView where
  | io (error : String)
  | escapes
  | notAFile
  | file (size : Nat) (bytes : Except String (List UInt8))

def u64Max : Nat := 2 ^ 64 - 1

/-- `read_contained`, without the subtraction from `remaining`. -/
def readContained (port : Ident) (path : String) (view : FileView)
    (maxFile remaining maxTotal : Nat) : Except EvidenceError (List UInt8) :=
  if !isCleanRelativePath path then .error (.pathNotRelative port path)
  else match view with
    | .io e => .error (.io port path e)
    | .escapes => .error (.pathEscapes port path)
    | .notAFile => .error (.notAFile port path)
    | .file size read =>
      if size > maxFile then .error (.tooLarge port path size maxFile)
      else if size > remaining then .error (.totalTooLarge port maxTotal)
      else match read with
        | .error e => .error (.io port path e)
        | .ok bytes =>
          if bytes.length > maxFile || bytes.length > remaining then
            .error (.tooLarge port path bytes.length (min maxFile remaining))
          else .ok bytes

/-! ### The resolver -/

/-- What one resolution observes outside the ledger: each port is captured, or its
file and its source's attestation read, at most once. -/
structure Observed where
  capture : Ident → Except String Captured
  attestation : Ident → FileView
  file : Ident → FileView

/-- A resolver over registered sources; `schema` is the bundled `patch_result`
schema text. -/
structure Resolver where
  sources : Sources
  limits : ResolverLimits
  now : Timestamp
  schema : List UInt8

namespace Resolver

variable (rt : Runtime) (r : Resolver) (o : Observed)

/-- `check_attestation` (`evidence/mod.rs:965-1004`). -/
def checkAttestation (port : Ident) (source : String) :
    Option Attestation → Except EvidenceError Unit
  | none => .ok ()
  | some a =>
    match readContained port a.reference (o.attestation port) u64Max u64Max u64Max with
    | .error e => .error (.invalidAttestation source e.display)
    | .ok bytes =>
      let actual := artifactDigest rt bytes
      if actual = a.digest then .ok ()
      else .error (.invalidAttestation source (a.reference ++ " has digest " ++ actual.text ++
        ", not " ++ a.digest.text))

/-- `check_code_type` (`evidence/mod.rs:892-909`). -/
def checkCodeType (port : PortSpec) : Except EvidenceError Unit :=
  guardOk (port.expectedType.schemaId.text = RecordKind.patchResult.asStr &&
      port.expectedType.version.get = 1 &&
      port.expectedType.digest = artifactDigest rt r.schema)
    (.typeMismatch port.name port.expectedType "patch_result@1 with the bundled schema digest")

/-- `code_locator`. -/
def codeLocator (c : Captured) : String :=
  "git:" ++ c.root ++ "#base=" ++ c.baseCommit ++ "&candidate=" ++ c.kind.asStr ++ ":" ++ c.commit

/-- The subject of a captured candidate. -/
def codeSubject (c : Captured) : String := "patch_subject:" ++ c.subjectDigest.text

/-- The reference a captured candidate is frozen as. -/
def codeReference (port : PortSpec) (c : Captured) (bytes : List UInt8) : EvidenceRef :=
  { portName := port.name
    locator := codeLocator c
    subject := codeSubject c
    version := c.commit
    contentDigest := artifactDigest rt bytes
    provenance := { producer := "checkspan/code-adapter", attestationRef := none }
    policyRef := port.handlingPolicyRef
    validUntil := none }

/-- `resolve_code` (`evidence/mod.rs:736-785`), with the bytes left to read. -/
def resolveCode (port : PortSpec) (remaining : Nat) :
    Except EvidenceError (ResolvedEvidence × Nat) := do
  r.checkCodeType rt port
  let c ← (o.capture port.name).mapError (.capture port.name)
  let bytes ← (jcsBytes rt c.result).mapError .canonical
  guardOk (bytes.length ≤ remaining) (.totalTooLarge port.name r.limits.maxTotalBytes)
  .ok (⟨codeReference rt port c bytes, some bytes⟩, remaining - bytes.length)

/-- The reference a proof is frozen as. -/
def proofReference (port : PortSpec) (d : ResolvedDependency) : EvidenceRef :=
  { portName := port.name
    locator := "receipt:" ++ d.receipt.id.text
    subject := "node:" ++ d.receipt.node.display
    version := d.receipt.id.text
    contentDigest := d.resultDigest
    provenance := {
      producer := match d.provenance with
        | .sameRun => "run:" ++ d.receipt.runId.text
        | .imported => "import:" ++ d.receipt.runId.text
      attestationRef := some ("receipt:" ++ d.receipt.id.text) }
    policyRef := port.handlingPolicyRef
    validUntil := none }

/-- Whether a scope entry `node:<id>` of the port names the dependency. -/
def covers (port : PortSpec) (d : ResolvedDependency) : Bool :=
  port.allowedSourceScope.any (fun scope =>
    stripPrefix nodeScopePrefix scope = some d.dependency.node.nodeId.text)

/-- `resolve_proof` (`evidence/mod.rs:599-637`). -/
def resolveProof (port : PortSpec) (snapshot : DependencySnapshot) :
    Except EvidenceError ResolvedEvidence :=
  match snapshot.resolved.filter (covers port) with
  | [] => .error (.proofMissing port.name port.allowedSourceScope)
  | [d] => .ok ⟨proofReference port d, none⟩
  | _ => .error (.ambiguousProof port.name)

/-- `source_for`. -/
def sourceFor (port : PortSpec) (name : String) : Except EvidenceError Source :=
  if name ∉ port.allowedSourceScope then .error (.undeclaredSource port.name name)
  else someOr (r.sources.lookup name) (.unregisteredSource port.name name)

/-- The `logs` branch of `resolve_offer`: the outcome, and the bytes left to read. -/
def resolveLog (port : PortSpec) (source producer path subject version : String)
    (attestation : Option Attestation) (validUntil : Option Timestamp)
    (expectedDigest : Option Digest) (remaining : Nat) :
    Except EvidenceError ResolvedEvidence × Nat :=
  match checkAttestation rt o port.name source attestation with
  | .error e => (.error e, remaining)
  | .ok () =>
    match validUntil.filter (fun t => t.isBefore r.now) with
    | some t => (.error (.expired port.name t), remaining)
    | none =>
      match readContained port.name path (o.file port.name) r.limits.maxFileBytes remaining
          r.limits.maxTotalBytes with
      | .error e => (.error e, remaining)
      | .ok bytes =>
        let digest := artifactDigest rt bytes
        match expectedDigest.filter (fun d => d ≠ digest) with
        | some expected =>
          (.error (.digestMismatch port.name expected digest), remaining - bytes.length)
        | none => (.ok {
            reference := {
              portName := port.name
              locator := "file:" ++ source ++ "/" ++ path
              subject := subject
              version := version
              contentDigest := digest
              provenance := {
                producer := producer
                attestationRef :=
                  attestation.map (fun a => "file:" ++ source ++ "/" ++ a.reference) }
              policyRef := port.handlingPolicyRef
              validUntil := validUntil }
            bytes := some bytes }, remaining - bytes.length)

/-- `resolve_offer` (`evidence/mod.rs:653-734`): the outcome, and the bytes left to
read. -/
def resolveOffer (port : PortSpec) (offer : Offer) (remaining : Nat) :
    Except EvidenceError ResolvedEvidence × Nat :=
  match r.sourceFor port offer.source with
  | .error e => (.error e, remaining)
  | .ok source =>
    match port.kind, source, offer.item with
    | .code, .repository _, .candidate _ =>
      match r.resolveCode rt o port remaining with
      | .ok (resolved, left) => (.ok resolved, left)
      | .error e => (.error e, remaining)
    | .code, .repository _, .file _ _ _ _ => (.error (.itemKindMismatch port.name), remaining)
    | .logs, .directory _ producer attestation validUntil, .file path subject version expected =>
      r.resolveLog rt o port offer.source producer path subject version attestation validUntil
        expected remaining
    | .logs, .directory _ _ _ _, .candidate _ => (.error (.itemKindMismatch port.name), remaining)
    | _, _, _ => (.error (.sourceKindMismatch port.name offer.source port.kind), remaining)

/-- The outcome of one port of the loop, and the bytes left to read. -/
def resolvePort (snapshot : DependencySnapshot) (offer : Option Offer) (port : PortSpec)
    (remaining : Nat) : Except EvidenceError (Option ResolvedEvidence) × Nat :=
  match port.kind with
  | .proofs =>
    match offer with
    | some _ => (.error (.proofsNotOffered port.name), remaining)
    | none => ((resolveProof port snapshot).map some, remaining)
  | .rag | .human =>
    if offer.isNone && !port.required then (.ok none, remaining)
    else (.error (.unsupported port.name port.kind), remaining)
  | .code | .logs =>
    match offer with
    | none =>
      if port.required then (.error (.missingRequired port.name), remaining) else
        (.ok none, remaining)
    | some offer =>
      ((r.resolveOffer rt o port offer remaining).1.map some,
        (r.resolveOffer rt o port offer remaining).2)

/-- The accumulators of the loop over the ports. -/
structure Progress where
  evidence : List ResolvedEvidence
  omitted : List Ident
  errors : List EvidenceError
  remaining : Nat

def stepPort (snapshot : DependencySnapshot) (offered : List (Ident × Offer)) (acc : Progress)
    (port : PortSpec) : Progress :=
  match r.resolvePort rt o snapshot (offered.lookup port.name) port acc.remaining with
  | (.ok (some resolved), left) =>
    { acc with evidence := acc.evidence ++ [resolved], remaining := left }
  | (.ok none, left) => { acc with omitted := acc.omitted ++ [port.name], remaining := left }
  | (.error e, left) => { acc with errors := acc.errors ++ [e], remaining := left }

/-- `BTreeMap::insert` by port name. -/
def insertPort (port : PortSpec) : List PortSpec → List PortSpec
  | [] => [port]
  | q :: rest =>
    if port.name.text < q.name.text then port :: q :: rest
    else if port.name = q.name then port :: rest
    else q :: insertPort port rest

/-- The ports by name, in the order of their names. -/
def portMap (ports : List PortSpec) : List PortSpec :=
  ports.foldl (fun m port => insertPort port m) []

/-- One offer: recorded for its port, and refused when the port is not effective or
already offered. -/
def stepOffer (node : NodeSpec) (ports : List PortSpec)
    (acc : List (Ident × Offer) × List EvidenceError) (offer : Offer) :
    List (Ident × Offer) × List EvidenceError :=
  if ports.all (fun p => p.name ≠ offer.port) then
    (acc.1, acc.2 ++ [if node.evidencePorts.any (fun p => p.name = offer.port)
      then .droppedPort offer.port else .unknownPort offer.port])
  else ((offer.port, offer) :: acc.1,
    if (acc.1.lookup offer.port).isSome then acc.2 ++ [.duplicateOffer offer.port] else acc.2)

/-- The ports a claim may use. -/
def effectivePorts (node : NodeSpec) : Option Narrowing → Except EvidenceError (List PortSpec)
  | some n => (n.check node).mapError .narrowing
  | none => .ok node.evidencePorts

/-- `resolve` (`evidence/mod.rs:480-558`). -/
def resolve (node : NodeSpec) (narrowing : Option Narrowing) (snapshot : DependencySnapshot)
    (offers : List Offer) : Except (List EvidenceError) Manifest := do
  let effective ← (effectivePorts node narrowing).mapError (fun e => [e])
  let ports := portMap effective
  let (offered, refused) := offers.foldl (stepOffer node ports) ([], [])
  let out := ports.foldl (r.stepPort rt o snapshot offered)
    { evidence := [], omitted := [], errors := refused, remaining := r.limits.maxTotalBytes }
  guardOk out.errors.isEmpty out.errors
  let digest ← (inputManifestDigest rt (out.evidence.map (·.reference))
    snapshot.receiptRefs).mapError (fun e => [.canonical e])
  .ok { evidence := out.evidence, omitted := out.omitted, digest := digest }

end Resolver

end Checkspan
