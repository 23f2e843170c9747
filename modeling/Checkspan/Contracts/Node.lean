import Checkspan.Contracts.Ids

/-!
# Node contracts (`src/contracts/node.rs`)

What a node must deliver, what it may consume, and the policies that bound its
attempts. `NodeRef` is declared in `src/contracts/graph.rs`; it stands here
because dependencies are written with it.
-/

namespace Checkspan

/-! ### Text helpers -/

/-- Unicode `White_Space`, what `str::trim` removes. -/
def isWhiteSpace (c : Char) : Bool :=
  let n := c.toNat
  (9 ≤ n && n ≤ 13) || n == 0x20 || n == 0x85 || n == 0xA0 || n == 0x1680 ||
    (0x2000 ≤ n && n ≤ 0x200A) || n == 0x2028 || n == 0x2029 || n == 0x202F ||
    n == 0x205F || n == 0x3000

/-- `value.trim().is_empty()`. -/
def isBlank (value : String) : Bool := value.toList.all isWhiteSpace

/-- A search finds the only entry it accepts. -/
theorem find?_of_unique {α : Type} {p : α → Bool} {xs : List α} {a : α} (ha : a ∈ xs)
    (hp : p a = true) (hunique : ∀ b ∈ xs, p b = true → b = a) : xs.find? p = some a := by
  cases hfind : xs.find? p with
  | none =>
    rw [List.find?_eq_none] at hfind
    exact absurd hp (hfind a ha)
  | some b => rw [hunique b (List.mem_of_find?_eq_some hfind) (List.find?_some hfind)]

/-- The entries a `HashSet` filled from left to right refuses, starting from the
entries `seen`. -/
def repeatsFrom {α : Type} [DecidableEq α] (seen : List α) : List α → List α
  | [] => []
  | x :: xs => if x ∈ seen then x :: repeatsFrom seen xs else repeatsFrom (x :: seen) xs

/-- The entries of a list that occur earlier in it. -/
def repeats {α : Type} [DecidableEq α] (xs : List α) : List α := repeatsFrom [] xs

theorem repeatsFrom_eq_nil {α : Type} [DecidableEq α] (seen xs : List α) :
    repeatsFrom seen xs = [] ↔ xs.Nodup ∧ ∀ x ∈ xs, x ∉ seen := by
  induction xs generalizing seen with
  | nil => simp [repeatsFrom]
  | cons x xs ih =>
    unfold repeatsFrom
    split
    · rename_i h
      simp [h]
    · rename_i h
      rw [ih (x :: seen)]
      simp only [List.nodup_cons, List.mem_cons, not_or, forall_eq_or_imp]
      constructor
      · rintro ⟨hnd, hfresh⟩
        exact ⟨⟨fun hx => (hfresh x hx).1 rfl, hnd⟩, h, fun y hy => (hfresh y hy).2⟩
      · rintro ⟨⟨hx, hnd⟩, _, hfresh⟩
        exact ⟨hnd, fun y hy => ⟨fun he => hx (he ▸ hy), hfresh y hy⟩⟩

theorem repeats_eq_nil {α : Type} [DecidableEq α] (xs : List α) :
    repeats xs = [] ↔ xs.Nodup := by
  unfold repeats
  rw [repeatsFrom_eq_nil]
  simp

/-! ### Pinned references -/

/-- Exact reference to one graph revision (`graph.rs:15-23`). -/
structure GraphRef where
  graphId : GraphId
  revision : Revision
deriving DecidableEq

/-- Exact reference to one node revision inside one graph (`graph.rs:29-38`). -/
structure NodeRef where
  graphId : GraphId
  nodeId : NodeId
  revision : Revision
deriving DecidableEq

namespace NodeRef

def display (n : NodeRef) : String :=
  n.graphId.text ++ "/" ++ n.nodeId.text ++ "@" ++ n.revision.display

def toJson (n : NodeRef) : Json :=
  .obj [("graph_id", n.graphId.toJson), ("node_id", n.nodeId.toJson),
    ("revision", n.revision.toJson)]

end NodeRef

def GraphRef.toJson (g : GraphRef) : Json :=
  .obj [("graph_id", g.graphId.toJson), ("revision", g.revision.toJson)]

/-- What a node does in the graph. -/
inductive NodeKind where
  | task
  | check
  | humanGate
  | sink
deriving DecidableEq

def NodeKind.asStr : NodeKind → String
  | task => "task"
  | check => "check"
  | humanGate => "human_gate"
  | sink => "sink"

/-- Evidence a port may carry. -/
inductive PortKind where
  | rag
  | human
  | logs
  | code
  | proofs
deriving DecidableEq

def PortKind.asStr : PortKind → String
  | rag => "rag"
  | human => "human"
  | logs => "logs"
  | code => "code"
  | proofs => "proofs"

/-- Pinned result schema (`node.rs:69-79`). -/
structure TypeRef where
  schemaId : Ident
  version : Version
  digest : Digest
deriving DecidableEq

def TypeRef.display (t : TypeRef) : String := t.schemaId.text ++ "@" ++ t.version.display

def TypeRef.toJson (t : TypeRef) : Json :=
  .obj [("schema_id", t.schemaId.toJson), ("version", t.version.toJson),
    ("digest", t.digest.toJson)]

/-- Pinned verifier identity (`node.rs:87-97`). -/
structure VerifierRef where
  id : Ident
  version : Version
  digest : Digest
deriving DecidableEq

def VerifierRef.display (v : VerifierRef) : String :=
  v.id.text ++ "@" ++ v.version.display ++ " " ++ v.digest.text

def VerifierRef.toJson (v : VerifierRef) : Json :=
  .obj [("id", v.id.toJson), ("version", v.version.toJson), ("digest", v.digest.toJson)]

/-- Reference to a versioned policy (`node.rs:99-107`). -/
structure PolicyRef where
  id : Ident
  version : Version
deriving DecidableEq

def PolicyRef.toJson (p : PolicyRef) : Json :=
  .obj [("id", p.id.toJson), ("version", p.version.toJson)]

/-! ### The contract -/

/-- Typed dependency on another node's output port (`node.rs:115-125`). -/
structure Dependency where
  node : NodeRef
  outputPort : Ident
  expectedType : TypeRef
deriving DecidableEq

def Dependency.toJson (d : Dependency) : Json :=
  .obj [("node", d.node.toJson), ("output_port", d.outputPort.toJson),
    ("expected_type", d.expectedType.toJson)]

/-- Declared evidence input (`node.rs:127-144`). -/
structure PortSpec where
  name : Ident
  kind : PortKind
  expectedType : TypeRef
  required : Bool
  allowedSourceScope : List String
  handlingPolicyRef : PolicyRef
deriving DecidableEq

def PortSpec.toJson (p : PortSpec) : Json :=
  .obj [("name", p.name.toJson), ("kind", .str p.kind.asStr),
    ("expected_type", p.expectedType.toJson), ("required", .bool p.required),
    ("allowed_source_scope", .arr (p.allowedSourceScope.map .str)),
    ("handling_policy_ref", p.handlingPolicyRef.toJson)]

/-- The pinned acceptance contract (`node.rs:146-158`). -/
structure AcceptanceSpec where
  claim : String
  requiredChecks : List Ident
  verifier : VerifierRef
  policyRef : PolicyRef
deriving DecidableEq

def AcceptanceSpec.toJson (a : AcceptanceSpec) : Json :=
  .obj [("claim", .str a.claim), ("required_checks", .arr (a.requiredChecks.map (·.toJson))),
    ("verifier", a.verifier.toJson), ("policy_ref", a.policyRef.toJson)]

/-- Failure classes a retry policy may allow another attempt for. -/
inductive FailureClass where
  | rejected
  | infrastructure
  | timeout
deriving DecidableEq

def FailureClass.asStr : FailureClass → String
  | rejected => "rejected"
  | infrastructure => "infrastructure"
  | timeout => "timeout"

/-- What happens when a node's attempts run out. -/
inductive OnExhaustion where
  | gate
  | cancel
deriving DecidableEq

def OnExhaustion.asStr : OnExhaustion → String
  | gate => "gate"
  | cancel => "cancel"

/-- Bounded retry behaviour for one node (`node.rs:183-196`); `max_attempts` is a `u32`. The
field `version` is `Exactly<1>`: it has one value. -/
structure RetryPolicy where
  maxAttempts : Nat
  allowedFailureClasses : List FailureClass
  onExhaustion : OnExhaustion
  bound : maxAttempts < 2 ^ 32

theorem RetryPolicy.eq_iff {a b : RetryPolicy} :
    (a.maxAttempts = b.maxAttempts ∧ a.allowedFailureClasses = b.allowedFailureClasses ∧
      a.onExhaustion = b.onExhaustion) ↔ a = b := by
  cases a
  cases b
  simp

instance : DecidableEq RetryPolicy := fun _ _ => decidable_of_decidable_of_iff RetryPolicy.eq_iff

def RetryPolicy.toJson (p : RetryPolicy) : Json :=
  .obj [("version", .num 1), ("max_attempts", .num p.maxAttempts),
    ("allowed_failure_classes", .arr (p.allowedFailureClasses.map (fun c => .str c.asStr))),
    ("on_exhaustion", .str p.onExhaustion.asStr)]

/-- How a node uses a named resource. -/
inductive ResourceAccess where
  | exclusive
  | shared
deriving DecidableEq

def ResourceAccess.asStr : ResourceAccess → String
  | exclusive => "exclusive"
  | shared => "shared"

/-- A resource the node needs while an attempt runs (`node.rs:222-230`). -/
structure ResourceClaim where
  resource : Ident
  access : ResourceAccess
deriving DecidableEq

def ResourceClaim.toJson (r : ResourceClaim) : Json :=
  .obj [("resource", r.resource.toJson), ("access", .str r.access.asStr)]

/-- One immutable node contract (`node.rs:232-272`). -/
structure NodeSpec where
  id : NodeId
  revision : Revision
  kind : NodeKind
  displayName : Option String
  prompt : String
  deps : List Dependency
  evidencePorts : List PortSpec
  resultType : TypeRef
  acceptance : AcceptanceSpec
  retryPolicy : RetryPolicy
  authorityPolicyRef : PolicyRef
  resourceScope : List ResourceClaim
  supersedes : Option NodeRef
deriving DecidableEq

def NodeSpec.toJson (n : NodeSpec) : Json :=
  .obj ([("id", n.id.toJson), ("revision", n.revision.toJson), ("kind", .str n.kind.asStr)] ++
    Json.optField "display_name" (n.displayName.map .str) ++
    [("prompt", .str n.prompt)] ++
    Json.listField "deps" (n.deps.map (·.toJson)) ++
    Json.listField "evidence_ports" (n.evidencePorts.map (·.toJson)) ++
    [("result_type", n.resultType.toJson), ("acceptance", n.acceptance.toJson),
      ("retry_policy", n.retryPolicy.toJson),
      ("authority_policy_ref", n.authorityPolicyRef.toJson)] ++
    Json.listField "resource_scope" (n.resourceScope.map (·.toJson)) ++
    Json.optField "supersedes" (n.supersedes.map (·.toJson)))

/-! ### `check_contract` (`node.rs:275-423`) -/

/-- A contract rule that a structurally valid node breaks. -/
inductive NodeContractError where
  | emptyPrompt
  | noRequiredChecks
  | duplicateRequiredCheck (check : Ident)
  | duplicateDependency (node : NodeRef) (outputPort : Ident)
  | duplicatePortName (port : Ident)
  | emptySourceScope (port : Ident)
  | duplicateResource (resource : Ident)
  | kindRequiresDependencies (kind : NodeKind)
  | humanGateNeedsOneHumanPort (found : Nat)
  | humanPortOnNonGate (kind : NodeKind) (port : Ident)
  | zeroMaxAttempts
  | supersedesDifferentNode (node : NodeRef)
  | supersedesNotEarlier (node : NodeRef)
deriving DecidableEq

/-- `Display` of a contract error; `{:?}` of an identifier prints the type's
debug form `Ident("text")`. -/
def NodeContractError.display : NodeContractError → String
  | emptyPrompt => "prompt is empty"
  | noRequiredChecks => "acceptance.required_checks is empty"
  | duplicateRequiredCheck c =>
    "required check Ident(" ++ c.text.quote ++ ") is listed more than once"
  | duplicateDependency node port => "dependency on " ++ node.display ++ " port Ident(" ++
      port.text.quote ++ ") is listed more than once"
  | duplicatePortName p =>
    "evidence port Ident(" ++ p.text.quote ++ ") is declared more than once"
  | emptySourceScope p => "evidence port Ident(" ++ p.text.quote ++ ") allows no sources"
  | duplicateResource r => "resource Ident(" ++ r.text.quote ++ ") is claimed more than once"
  | kindRequiresDependencies k => "a " ++ k.asStr ++ " node needs at least one dependency"
  | humanGateNeedsOneHumanPort found =>
    "a human_gate node needs exactly one human evidence port, found " ++ toString found
  | humanPortOnNonGate kind port => "a " ++ kind.asStr ++
      " node cannot declare human evidence port Ident(" ++ port.text.quote ++ ")"
  | zeroMaxAttempts => "retry_policy.max_attempts must be at least 1"
  | supersedesDifferentNode n => "supersedes names a different node " ++ n.display
  | supersedesNotEarlier n => "supersedes revision " ++ n.revision.display ++
      " is not earlier than this revision"

namespace NodeSpec

/-- The errors of one evidence port, given the names already seen. -/
def portErrors (kind : NodeKind) (seen : List Ident) (port : PortSpec) : List NodeContractError :=
  (if port.name ∈ seen then [.duplicatePortName port.name] else []) ++
  (if port.allowedSourceScope.isEmpty then [.emptySourceScope port.name] else []) ++
  (if port.kind = .human ∧ kind ≠ .humanGate then [.humanPortOnNonGate kind port.name] else [])

def portsErrors (kind : NodeKind) (seen : List Ident) : List PortSpec → List NodeContractError
  | [] => []
  | port :: rest => portErrors kind seen port ++ portsErrors kind (port.name :: seen) rest

def humanPorts (n : NodeSpec) : Nat := n.evidencePorts.countP (fun p => p.kind = .human)

/-- `check_contract`: every violation, in document order. -/
def checkContract (n : NodeSpec) : List NodeContractError :=
  (if isBlank n.prompt then [.emptyPrompt] else []) ++
  (if n.acceptance.requiredChecks.isEmpty then [.noRequiredChecks] else []) ++
  (repeats n.acceptance.requiredChecks).map .duplicateRequiredCheck ++
  (repeats (n.deps.map (fun d => (d.node, d.outputPort)))).map
    (fun d => .duplicateDependency d.1 d.2) ++
  portsErrors n.kind [] n.evidencePorts ++
  (repeats (n.resourceScope.map (·.resource))).map .duplicateResource ++
  (match n.kind with
    | .check => if n.deps.isEmpty then [.kindRequiresDependencies n.kind] else []
    | .sink => if n.deps.isEmpty then [.kindRequiresDependencies n.kind] else []
    | .humanGate =>
      if n.humanPorts ≠ 1 then [.humanGateNeedsOneHumanPort n.humanPorts] else []
    | .task => []) ++
  (if n.retryPolicy.maxAttempts = 0 then [.zeroMaxAttempts] else []) ++
  (match n.supersedes with
    | none => []
    | some prev =>
      if prev.nodeId ≠ n.id then [.supersedesDifferentNode prev]
      else if prev.revision.get ≥ n.revision.get then [.supersedesNotEarlier prev]
      else [])

/-- A contract without errors lists each `(node, output_port)` pair once. -/
theorem deps_nodup_of_checkContract (n : NodeSpec) (h : n.checkContract = []) :
    (n.deps.map (fun d => (d.node, d.outputPort))).Nodup := by
  unfold checkContract at h
  simp only [List.append_eq_nil_iff, List.map_eq_nil_iff] at h
  exact (repeats_eq_nil _).mp h.1.1.1.1.1.2

end NodeSpec

end Checkspan
