import Checkspan.Contracts.Attempt

/-!
# Graph envelopes (`src/contracts/graph.rs`)

A graph revision, the nodes it names, its required targets, and one run of it.
-/

namespace Checkspan

/-- Graph-wide limits (`graph.rs:46-55`); `total_attempts` is a `u32`. -/
structure GraphBudget where
  totalAttempts : Nat
  deadline : Option Timestamp
  bound : totalAttempts < 2 ^ 32

theorem GraphBudget.eq_iff {a b : GraphBudget} :
    a.totalAttempts = b.totalAttempts ∧ a.deadline = b.deadline ↔ a = b := by
  cases a
  cases b
  simp

instance : DecidableEq GraphBudget := fun _ _ => decidable_of_decidable_of_iff GraphBudget.eq_iff

def GraphBudget.toJson (b : GraphBudget) : Json :=
  .obj (("total_attempts", .num b.totalAttempts) ::
    Json.optField "deadline" (b.deadline.map (·.toJson)))

/-- One immutable revision of a graph (`graph.rs:57-80`). -/
structure GraphSpec extends RecordHeader where
  graphId : GraphId
  revision : Revision
  displayName : Option String
  nodes : List NodeSpec
  targets : List NodeRef
  budget : GraphBudget
  supersedes : Option GraphRef
deriving DecidableEq

/-- An accepted receipt from another run, admitted to stand in for one node
(`graph.rs:88-108`). -/
structure ImportedReceipt where
  nodeId : NodeId
  receipt : ReceiptRef
  resultDigest : Digest
  resultType : TypeRef
  subject : String
  admittedAt : Timestamp
  validUntil : Option Timestamp
deriving DecidableEq

def ImportedReceipt.toJson (i : ImportedReceipt) : Json :=
  .obj ([("node_id", i.nodeId.toJson), ("receipt", i.receipt.toJson),
    ("result_digest", i.resultDigest.toJson), ("result_type", i.resultType.toJson),
    ("subject", .str i.subject), ("admitted_at", i.admittedAt.toJson)] ++
    Json.optField "valid_until" (i.validUntil.map (·.toJson)))

/-- One execution of one graph revision (`graph.rs:110-128`). -/
structure GraphRun extends RecordHeader where
  runId : RunId
  graphRef : GraphRef
  budgetLineageRef : Option RunId
  admittedImports : List ImportedReceipt
deriving DecidableEq

def GraphRun.toJson (r : GraphRun) : Json :=
  .obj (r.toRecordHeader.fields ++ [("run_id", r.runId.toJson), ("graph_ref", r.graphRef.toJson)] ++
    Json.optField "budget_lineage_ref" (r.budgetLineageRef.map (·.toJson)) ++
    Json.listField "admitted_imports" (r.admittedImports.map (·.toJson)))

/-- A cross-field identity rule that a structurally valid record breaks. -/
inductive IdentityError where
  | duplicateNodeId (id : NodeId)
  | noTargets
  | duplicateTarget (target : NodeRef)
  | foreignTarget (target : NodeRef)
  | unknownTarget (target : NodeRef)
  | targetRevisionMismatch (target : NodeRef) (actual : Revision)
  | supersedesForeignGraph (graph : GraphRef)
  | supersedesNotEarlier (graph : GraphRef)
  | zeroAttemptBudget
  | selfLineage (run : RunId)
  | duplicateImport (node : NodeId)
  | selfImport (node : NodeId)
deriving DecidableEq

def IdentityError.display : IdentityError → String
  | duplicateNodeId id => "node id NodeId(" ++ id.text.quote ++ ") appears more than once"
  | noTargets => "graph declares no targets"
  | duplicateTarget t => "target " ++ t.display ++ " is listed more than once"
  | foreignTarget t => "target " ++ t.display ++ " names another graph"
  | unknownTarget t => "target " ++ t.display ++ " is not a node in this graph"
  | targetRevisionMismatch t actual => "target " ++ t.display ++
      " does not match the node's revision " ++ actual.display ++ " in this graph"
  | supersedesForeignGraph g => "supersedes names another graph " ++ g.graphId.text ++ "@" ++
      g.revision.display
  | supersedesNotEarlier g => "supersedes revision " ++ g.revision.display ++
      " is not earlier than this revision"
  | zeroAttemptBudget => "budget.total_attempts must be at least 1"
  | selfLineage r => "run " ++ r.text ++ " names itself as budget lineage"
  | duplicateImport n => "node " ++ n.text ++ " has more than one admitted import"
  | selfImport n => "the import for node " ++ n.text ++ " names a receipt from this run"

namespace GraphSpec

def toJson (g : GraphSpec) : Json :=
  .obj (g.toRecordHeader.fields ++
    [("graph_id", g.graphId.toJson), ("revision", g.revision.toJson)] ++
    Json.optField "display_name" (g.displayName.map .str) ++
    [("nodes", .arr (g.nodes.map (·.toJson))), ("targets", .arr (g.targets.map (·.toJson))),
      ("budget", g.budget.toJson)] ++
    Json.optField "supersedes" (g.supersedes.map (·.toJson)))

/-- `graph_ref` (`graph.rs:216-222`). -/
def graphRef (g : GraphSpec) : GraphRef := ⟨g.graphId, g.revision⟩

/-- `spec.nodes.iter().find(|n| &n.id == id)`, the lookup every module makes. -/
def findNode (g : GraphSpec) (id : NodeId) : Option NodeSpec := g.nodes.find? (fun n => n.id = id)

/-- The full reference of a node of this graph. -/
def refOf (g : GraphSpec) (n : NodeSpec) : NodeRef := ⟨g.graphId, n.id, n.revision⟩

/-- `node_ref` (`graph.rs:224-234`). -/
def nodeRef (g : GraphSpec) (id : NodeId) : Option NodeRef := (g.findNode id).map g.refOf

theorem findNode_id {g : GraphSpec} {id : NodeId} {n : NodeSpec} (h : g.findNode id = some n) :
    n.id = id := by
  have hp := List.find?_some h
  simpa using hp

theorem findNode_mem {g : GraphSpec} {id : NodeId} {n : NodeSpec} (h : g.findNode id = some n) :
    n ∈ g.nodes := List.mem_of_find?_eq_some h

theorem nodeRef_some {g : GraphSpec} {id : NodeId} {r : NodeRef} (h : g.nodeRef id = some r) :
    ∃ n, g.findNode id = some n ∧ r = ⟨g.graphId, id, n.revision⟩ := by
  unfold nodeRef at h
  rw [Option.map_eq_some_iff] at h
  obtain ⟨n, hn, hr⟩ := h
  refine ⟨n, hn, ?_⟩
  rw [← hr, refOf, findNode_id hn]

theorem nodeRef_nodeId {g : GraphSpec} {id : NodeId} {r : NodeRef} (h : g.nodeRef id = some r) :
    r.nodeId = id := by
  obtain ⟨n, _, hr⟩ := nodeRef_some h
  rw [hr]

/-- The identity errors of one target (`graph.rs:249-268`). -/
def targetErrors (g : GraphSpec) (seen : List NodeRef) (t : NodeRef) : List IdentityError :=
  if t ∈ seen then [.duplicateTarget t]
  else if t.graphId ≠ g.graphId then [.foreignTarget t]
  else match g.findNode t.nodeId with
    | none => [.unknownTarget t]
    | some node =>
      if node.revision ≠ t.revision then [.targetRevisionMismatch t node.revision] else []

def targetsErrors (g : GraphSpec) (seen : List NodeRef) : List NodeRef → List IdentityError
  | [] => []
  | t :: rest => targetErrors g seen t ++ targetsErrors g (t :: seen) rest

/-- `check_identity` (`graph.rs:236-284`). -/
def checkIdentity (g : GraphSpec) : List IdentityError :=
  (repeats (g.nodes.map (·.id))).map .duplicateNodeId ++
  (if g.targets.isEmpty then [.noTargets] else []) ++
  targetsErrors g [] g.targets ++
  (match g.supersedes with
    | none => []
    | some prev =>
      if prev.graphId ≠ g.graphId then [.supersedesForeignGraph prev]
      else if prev.revision.get ≥ g.revision.get then [.supersedesNotEarlier prev]
      else []) ++
  (if g.budget.totalAttempts = 0 then [.zeroAttemptBudget] else [])

/-- A graph without identity errors has distinct node ids. -/
theorem nodes_nodup_of_checkIdentity (g : GraphSpec) (h : g.checkIdentity = []) :
    (g.nodes.map (·.id)).Nodup := by
  unfold checkIdentity at h
  simp only [List.append_eq_nil_iff, List.map_eq_nil_iff] at h
  exact (repeats_eq_nil _).mp h.1.1.1.1

end GraphSpec

namespace GraphRun

def importsErrors (r : GraphRun) (seen : List NodeId) : List ImportedReceipt → List IdentityError
  | [] => []
  | i :: rest =>
    (if i.nodeId ∈ seen then [.duplicateImport i.nodeId] else []) ++
    (if i.receipt.runId = r.runId then [.selfImport i.nodeId] else []) ++
    importsErrors r (i.nodeId :: seen) rest

/-- `check_identity` of a run (`graph.rs:283-301`). -/
def checkIdentity (r : GraphRun) : List IdentityError :=
  (if r.budgetLineageRef = some r.runId then [.selfLineage r.runId] else []) ++
  importsErrors r [] r.admittedImports

end GraphRun

end Checkspan
