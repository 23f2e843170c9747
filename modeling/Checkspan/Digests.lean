import Mathlib.Data.List.Sort
import Checkspan.Contracts.Graph

/-!
# Content binding (`src/digests/mod.rs`)

Envelope digests: RFC 8785 canonical bytes of a JSON envelope, hashed with
SHA-256. The canonicalizer, the hash and the JSON writer are third-party crates
(`serde_json_canonicalizer`, `sha2`, `serde_json`); they are the fields of
`Runtime`, and nothing is assumed about them here.
-/

namespace Checkspan

/-- The third-party functions the model is parametrised by. -/
structure Runtime where
  /-- `serde_json::to_string`: the ledger reads only the length of its text. -/
  text : Json → String
  /-- `serde_json_canonicalizer::to_vec`. -/
  jcs : Json → Except String (List UInt8)
  /-- `Sha256::digest` followed by `Digest::from_sha256`. -/
  sha256 : List UInt8 → Digest

/-- Largest integer magnitude an envelope may carry (`digests/mod.rs:35-37`). -/
def maxSafeInteger : Nat := 2 ^ 53

/-- Why a value could not be canonicalized. -/
inductive CanonicalError where
  | unsupportedNumber (path value : String)
  | serialize (error : String)
deriving DecidableEq

def CanonicalError.display : CanonicalError → String
  | unsupportedNumber path value => "number " ++ value ++ " at " ++ path.quote ++
      " is not an integer within ±2^53; envelopes cannot carry it"
  | serialize e => "cannot serialize envelope: " ++ e

/-- `pointer_push` (`src/validation/parse.rs:68-72`). -/
def pointerPush (base segment : String) : String :=
  base ++ "/" ++ (segment.replace "~" "~0").replace "/" "~1"

mutual

/-- The walk of `check_envelope_numbers` (`digests/mod.rs:103-131`). -/
def walkNumbers (path : String) : Json → Except CanonicalError Unit
  | .num n =>
    if n.natAbs ≤ maxSafeInteger then .ok () else .error (.unsupportedNumber path (toString n))
  | .float literal => .error (.unsupportedNumber path literal)
  | .arr items => walkItems path 0 items
  | .obj fields => walkFields path fields
  | _ => .ok ()

def walkItems (path : String) (i : Nat) : List Json → Except CanonicalError Unit
  | [] => .ok ()
  | item :: rest =>
    match walkNumbers (pointerPush path (toString i)) item with
    | .ok () => walkItems path (i + 1) rest
    | .error e => .error e

def walkFields (path : String) : List (String × Json) → Except CanonicalError Unit
  | [] => .ok ()
  | (k, v) :: rest =>
    match walkNumbers (pointerPush path k) v with
    | .ok () => walkFields path rest
    | .error e => .error e

end

def checkEnvelopeNumbers (value : Json) : Except CanonicalError Unit := walkNumbers "" value

variable (rt : Runtime)

/-- SHA-256 of exact bytes: the identity of an artifact. -/
def artifactDigest (bytes : List UInt8) : Digest := rt.sha256 bytes

/-- `jcs_bytes` (`digests/mod.rs:97-99`). -/
def jcsBytes (value : Json) : Except CanonicalError (List UInt8) :=
  (rt.jcs value).mapError .serialize

/-- `envelope_bytes`: numbers checked, then RFC 8785. -/
def envelopeBytes (value : Json) : Except CanonicalError (List UInt8) :=
  match checkEnvelopeNumbers value with
  | .ok () => jcsBytes rt value
  | .error e => .error e

/-- `envelope_digest` (`digests/mod.rs:140-142`). -/
def envelopeDigest (value : Json) : Except CanonicalError Digest :=
  (envelopeBytes rt value).map (artifactDigest rt)

/-- `digest_of` (`digests/mod.rs:158-171`): the kind is part of the hashed bytes. -/
def digestOf (kind : String) (body : Json) : Except CanonicalError Digest :=
  envelopeDigest rt (.obj [("algorithm", .str "jcs-sha256@1"), ("kind", .str kind), ("body", body)])

def graphSpecDigest (spec : GraphSpec) : Except CanonicalError Digest :=
  digestOf rt "checkspan.graph_spec@1" spec.toJson

/-- Stable sort by a text key, as `sort_by(|a, b| a.key.cmp(&b.key))`. -/
def sortByKey {α : Type} (key : α → String) (xs : List α) : List α :=
  xs.insertionSort (fun a b => ¬ key b < key a)

/-- `input_manifest_digest` (`digests/mod.rs:198-215`): evidence by port name,
receipts by id. -/
def inputManifestDigest (evidence : List EvidenceRef) (dependencyReceipts : List ReceiptRef) :
    Except CanonicalError Digest :=
  digestOf rt "checkspan.input_manifest@1" (.obj [
    ("evidence",
      .arr ((sortByKey (fun e : EvidenceRef => e.portName.text) evidence).map (·.toJson))),
    ("dependency_receipts",
      .arr ((sortByKey (fun r : ReceiptRef => r.id.text) dependencyReceipts).map (·.toJson)))])

/-- Everything a verifier verdict is bound to (`digests/mod.rs:217-232`). -/
structure VerificationContext where
  attempt : AttemptRef
  node : NodeSpec
  inputManifestDigest : Digest
  dependencyReceipts : List ReceiptRef
  resultDigest : Digest
  producedEvidence : List EvidenceRef

def VerificationContext.toJson (c : VerificationContext) : Json :=
  .obj [("attempt", c.attempt.toJson), ("node", c.node.toJson),
    ("input_manifest_digest", c.inputManifestDigest.toJson),
    ("dependency_receipts", .arr (c.dependencyReceipts.map (·.toJson))),
    ("result_digest", c.resultDigest.toJson),
    ("produced_evidence", .arr (c.producedEvidence.map (·.toJson)))]

/-- `context_digest` (`digests/mod.rs:234-237`). -/
def contextDigest (context : VerificationContext) : Except CanonicalError Digest :=
  digestOf rt "checkspan.verification_context@1" context.toJson

/-- The two digests `issue` and `admit` compute from a sealed attempt and the
contract: the input manifest, then the whole context over `resultDigest`
(`src/receipts/mod.rs:84-95`, `:303-316`). -/
def attemptContextDigest (node : NodeSpec) (ref : AttemptRef) (attempt : Attempt)
    (resultDigest : Digest) : Except CanonicalError Digest :=
  match inputManifestDigest rt attempt.inputManifest attempt.dependencyReceipts with
  | .error e => .error e
  | .ok manifest => contextDigest rt {
      attempt := ref
      node := node
      inputManifestDigest := manifest
      dependencyReceipts := attempt.dependencyReceipts
      resultDigest := resultDigest
      producedEvidence := attempt.producedEvidence }

/-- `digest_of_record` (`src/gates/mod.rs:240-245`): no envelope, no number check. -/
def digestOfRecord (record : Json) : Except CanonicalError Digest :=
  (jcsBytes rt record).map (artifactDigest rt)

end Checkspan
