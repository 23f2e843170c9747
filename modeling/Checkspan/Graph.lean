import Mathlib.Algebra.GroupWithZero.Nat
import Mathlib.Data.List.Nodup
import Mathlib.Tactic.ByContra
import Checkspan.Contracts.Graph

/-!
# Graph admission (`src/graph/mod.rs`)

Turns individually valid records into an inspectable DAG, or says why the graph
cannot be dispatched. Vectors indexed by node position are lists, hash maps are
lookups in them; each loop carries a fuel argument that its caller sets to the
number of iterations the loop can make.
-/

namespace Checkspan

def resultPort : String := "result"

def nodeScopePrefix : String := "node:"

def stripChars : List Char → List Char → Option (List Char)
  | [], rest => some rest
  | _ :: _, [] => none
  | p :: ps, c :: cs => if p = c then stripChars ps cs else none

/-- `value.strip_prefix(pre)`. -/
def stripPrefix (pre value : String) : Option String :=
  (stripChars pre.toList value.toList).map String.ofList

/-- Why a structurally valid graph cannot be admitted (`graph/mod.rs:37-137`). -/
inductive AdmissionError where
  | identity (error : IdentityError)
  | contract (node : NodeId) (error : NodeContractError)
  | externalDependency (node : NodeId) (dependency : NodeRef)
  | unresolvedDependency (node : NodeId) (dependency : NodeRef)
  | dependencyRevisionMismatch (node : NodeId) (dependency : NodeRef) (actual : Revision)
  | selfDependency (node : NodeId)
  | unknownOutputPort (node producer : NodeId) (port : Ident)
  | incompatibleType (node producer : NodeId) (expected actual : TypeRef)
  | hiddenProofDependency (node : NodeId) (port : Ident) (source : NodeId)
  | unresolvedProofSource (node : NodeId) (port : Ident) (source : String)
  | unsupportedExternalImport (node : NodeId) (port : Ident) (source : String)
  | gateResolvesUnknownNode (gate : NodeId) (target : String)
  | gateWaitCycle (gate resolves : NodeId) (path : List NodeId)
  | cycle (path : List NodeId)
deriving DecidableEq

namespace AdmissionError

/-- The node an error is reported against. -/
def node : AdmissionError → Option NodeId
  | identity _ => none
  | contract node _ => some node
  | externalDependency node _ => some node
  | unresolvedDependency node _ => some node
  | dependencyRevisionMismatch node _ _ => some node
  | selfDependency node => some node
  | unknownOutputPort node _ _ => some node
  | incompatibleType node _ _ _ => some node
  | hiddenProofDependency node _ _ => some node
  | unresolvedProofSource node _ _ => some node
  | unsupportedExternalImport node _ _ => some node
  | gateResolvesUnknownNode gate _ => some gate
  | gateWaitCycle gate _ _ => some gate
  | cycle path => path.head?

def join (ids : List NodeId) : String := joinText " -> " (ids.map (·.text))

def debugPort (port : Ident) : String := "Ident(" ++ port.text.quote ++ ")"

def display : AdmissionError → String
  | identity e => e.display
  | contract node e => "node " ++ node.text ++ ": " ++ e.display
  | externalDependency node dep => "node " ++ node.text ++ " depends on " ++ dep.display ++
      " in another graph; cross-graph imports are not supported"
  | unresolvedDependency node dep => "node " ++ node.text ++ " depends on " ++ dep.display ++
      ", which is not in this graph"
  | dependencyRevisionMismatch node dep actual => "node " ++ node.text ++ " depends on " ++
      dep.display ++ " but that node is at revision " ++ actual.display ++ " here"
  | selfDependency node => "node " ++ node.text ++ " depends on itself"
  | unknownOutputPort node producer port => "node " ++ node.text ++ " consumes port " ++
      debugPort port ++ " of " ++ producer.text ++ ", which only exposes " ++ resultPort.quote
  | incompatibleType node producer expected actual =>
    if expected.schemaId = actual.schemaId ∧ expected.version = actual.version then
      "node " ++ node.text ++ " expects " ++ expected.display ++ " from " ++ producer.text ++
        " with digest " ++ expected.digest.text ++ ", but " ++ producer.text ++
        " declares digest " ++ actual.digest.text
    else "node " ++ node.text ++ " expects " ++ expected.display ++ " from " ++ producer.text ++
      ", which produces " ++ actual.display
  | hiddenProofDependency node port source => "node " ++ node.text ++ " proof port " ++
      debugPort port ++ " draws on node " ++ source.text ++ " without declaring a dependency on it"
  | unresolvedProofSource node port source => "node " ++ node.text ++ " proof port " ++
      debugPort port ++ " names node " ++ source.quote ++ ", which is not in this graph"
  | unsupportedExternalImport node port source => "node " ++ node.text ++ " proof port " ++
      debugPort port ++ " names external source " ++ source.quote ++
      "; only in-graph `node:<id>` sources are supported"
  | gateResolvesUnknownNode gate target => "gate " ++ gate.text ++ " resolves " ++ target.quote ++
      ", which is not in this graph"
  | gateWaitCycle gate resolves path => "gate " ++ gate.text ++ " resolves " ++ resolves.text ++
      " but the acceptance chain " ++ join path ++
      " joins them; a gate cannot wait on the node it resolves"
  | cycle path => "dependency cycle: " ++ join path ++
      (path.head?.map (fun first => " -> " ++ first.text)).getD ""

end AdmissionError

structure GateBinding where
  gate : NodeId
  resolves : List NodeId
deriving DecidableEq

/-- A graph that passed admission (`graph/mod.rs:257-276`). -/
structure AdmittedGraph where
  spec : GraphSpec
  order : List NodeId
  required : List NodeId
  optional : List NodeId
  gates : List GateBinding
deriving DecidableEq

namespace Graph

/-- The position `index` holds for an id: that of its first node. -/
def indexOf (spec : GraphSpec) (id : NodeId) : Option Nat :=
  spec.nodes.findIdx? (fun n => n.id = id)

/-! ### Dependencies and proof scopes (`graph/mod.rs:331-420`) -/

/-- One dependency of `node`: an error that skips it, or its producer with the
errors that do not. -/
def resolveDep (spec : GraphSpec) (node : NodeSpec) (dep : Dependency) :
    Except AdmissionError (Nat × List AdmissionError) :=
  if dep.node.graphId ≠ spec.graphId then .error (.externalDependency node.id dep.node)
  else match indexOf spec dep.node.nodeId with
    | none => .error (.unresolvedDependency node.id dep.node)
    | some pi =>
      match spec.nodes[pi]? with
      | none => .error (.unresolvedDependency node.id dep.node)
      | some producer =>
        if producer.id = node.id then .error (.selfDependency node.id)
        else .ok (pi,
          (if producer.revision ≠ dep.node.revision then
            [.dependencyRevisionMismatch node.id dep.node producer.revision] else []) ++
          (if dep.outputPort.text ≠ resultPort then
            [.unknownOutputPort node.id producer.id dep.outputPort] else []) ++
          (if dep.expectedType ≠ producer.resultType then
            [.incompatibleType node.id producer.id dep.expectedType producer.resultType] else []))

/-- The dependency loop of one node: errors in order, and the producers pushed
without repeats. -/
def resolveDeps (spec : GraphSpec) (node : NodeSpec) :
    List Nat → List Dependency → List AdmissionError × List Nat
  | producers, [] => ([], producers)
  | producers, dep :: rest =>
    match resolveDep spec node dep with
    | .error e =>
      let (errors, out) := resolveDeps spec node producers rest
      (e :: errors, out)
    | .ok (pi, errs) =>
      let pushed := if pi ∈ producers then producers else producers ++ [pi]
      let (errors, out) := resolveDeps spec node pushed rest
      (errs ++ errors, out)

/-- The in-graph node a scope entry names after its prefix. -/
def scopeIndex (spec : GraphSpec) (name : String) : Option (NodeId × Nat) :=
  match Identifier.new .nodeId name with
  | .error _ => none
  | .ok id => (indexOf spec id).map (fun i => (id, i))

def proofSourceErrors (spec : GraphSpec) (node : NodeSpec) (producers : List Nat)
    (port : PortSpec) (source : String) : List AdmissionError :=
  match stripPrefix nodeScopePrefix source with
  | none => [.unsupportedExternalImport node.id port.name source]
  | some name =>
    match scopeIndex spec name with
    | none => [.unresolvedProofSource node.id port.name name]
    | some (id, si) => if si ∈ producers then [] else [.hiddenProofDependency node.id port.name id]

def proofErrors (spec : GraphSpec) (node : NodeSpec) (producers : List Nat) :
    List AdmissionError :=
  (node.evidencePorts.filter (fun p => p.kind = .proofs)).flatMap (fun port =>
    port.allowedSourceScope.flatMap (proofSourceErrors spec node producers port))

def nodeDepErrors (spec : GraphSpec) (node : NodeSpec) : List AdmissionError :=
  let (errors, producers) := resolveDeps spec node [] node.deps
  errors ++ proofErrors spec node producers

/-- `deps_of`: for each node position, the positions of its producers. -/
def depsOf (spec : GraphSpec) : List (List Nat) :=
  spec.nodes.map (fun node => (resolveDeps spec node [] node.deps).2)

def producersAt (deps : List (List Nat)) (i : Nat) : List Nat := (deps[i]?).getD []

/-! ### Human gates (`graph/mod.rs:422-458`) -/

/-- The nodes a gate's `human` port resolves, or the entry naming no node. -/
def gateTargets (spec : GraphSpec) (node : NodeSpec) :
    List (Except AdmissionError (NodeId × Nat)) :=
  (node.evidencePorts.filter (fun p => p.kind = .human)).flatMap (fun port =>
    port.allowedSourceScope.filterMap (fun source =>
      match stripPrefix nodeScopePrefix source with
      | none => none
      | some name =>
        match scopeIndex spec name with
        | none => some (.error (.gateResolvesUnknownNode node.id name))
        | some target => some (.ok target)))

def okOf {ε α : Type} : Except ε α → Option α
  | .ok a => some a
  | .error _ => none

def errorOf {ε α : Type} : Except ε α → Option ε
  | .ok _ => none
  | .error e => some e

def gateNodes (spec : GraphSpec) : List NodeSpec :=
  spec.nodes.filter (fun n => n.kind = .humanGate)

def gateErrors (spec : GraphSpec) : List AdmissionError :=
  (gateNodes spec).flatMap (fun n => (gateTargets spec n).filterMap errorOf)

def gateBindings (spec : GraphSpec) : List GateBinding :=
  (gateNodes spec).map (fun n => ⟨n.id, ((gateTargets spec n).filterMap okOf).map (·.1)⟩)

/-- `gate_pairs`: gate position and resolved position. -/
def gatePairs (spec : GraphSpec) : List (Nat × Nat) :=
  spec.nodes.zipIdx.flatMap (fun (node, gi) =>
    if node.kind = .humanGate then
      ((gateTargets spec node).filterMap okOf).map (fun t => (gi, t.2))
    else [])

/-! ### Kahn's algorithm (`graph/mod.rs:460-480`) -/

/-- The smallest element and the others: `BinaryHeap<Reverse<usize>>::pop`. -/
def popMin (ready : List Nat) : Option (Nat × List Nat) :=
  match ready.min? with
  | none => none
  | some i => some (i, ready.erase i)

structure KahnState where
  indegree : List Nat
  ready : List Nat
  order : List Nat

/-- The consumers of a node position, in position order. -/
def dependentsAt (deps : List (List Nat)) (i : Nat) : List Nat :=
  (List.range deps.length).filter (fun c => i ∈ producersAt deps c)

/-- One released edge: the consumer's indegree drops, and it becomes ready at zero. -/
def release (st : KahnState) (d : Nat) : KahnState :=
  let indegree := st.indegree.modify d (· - 1)
  if (indegree[d]?).getD 0 = 0 then { st with indegree := indegree, ready := d :: st.ready }
  else { st with indegree := indegree }

def kahnLoop (deps : List (List Nat)) : Nat → KahnState → KahnState
  | 0, st => st
  | fuel + 1, st =>
    match popMin st.ready with
    | none => st
    | some (i, rest) =>
      kahnLoop deps fuel ((dependentsAt deps i).foldl release
        { st with ready := rest, order := st.order ++ [i] })

def kahn (deps : List (List Nat)) : KahnState :=
  kahnLoop deps (deps.length + 1)
    { indegree := deps.map (·.length)
      ready := (List.range deps.length).filter (fun i => (producersAt deps i).isEmpty)
      order := [] }

/-! ### Cycle witness (`graph/mod.rs:481-514`) -/

def isRemaining (st : KahnState) (i : Nat) : Bool := (st.indegree[i]?).getD 0 > 0

/-- The walk along leftover producers; `none` is a failed `expect`. -/
def cycleWalk (deps : List (List Nat)) (st : KahnState) : Nat → List Nat → Nat → Option (List Nat)
  | 0, _, _ => none
  | fuel + 1, path, current =>
    match (producersAt deps current).find? (isRemaining st) with
    | none => none
    | some next =>
      match path.idxOf? next with
      | some pos => some (path.drop pos)
      | none => cycleWalk deps st fuel (path ++ [next]) next

def findCycle (deps : List (List Nat)) (st : KahnState) : Option (List Nat) :=
  match (List.range deps.length).find? (isRemaining st) with
  | none => none
  | some start => cycleWalk deps st (deps.length + 1) [start] start

/-! ### Gate wait chains (`dependency_path`, `graph/mod.rs:568-590`) -/

structure PathState where
  previous : List (Nat × Nat)
  queue : List Nat
  seen : List Nat

def pathBack (previous : List (Nat × Nat)) : Nat → Nat → List Nat → List Nat
  | 0, _, path => path
  | fuel + 1, node, path =>
    match previous.lookup node with
    | none => path
    | some p => pathBack previous fuel p (p :: path)

/-- The producers of one popped node: the path once `target` is among the new ones. -/
def pathExpand (target current fuel : Nat) : PathState → List Nat → PathState ⊕ List Nat
  | st, [] => .inl st
  | st, next :: rest =>
    if next ∈ st.seen then pathExpand target current fuel st rest
    else
      let previous := (next, current) :: st.previous
      if next = target then .inr (pathBack previous fuel target [target])
      else pathExpand target current fuel
        { previous := previous, queue := st.queue ++ [next], seen := next :: st.seen } rest

def pathLoop (deps : List (List Nat)) (target : Nat) : Nat → PathState → Option (List Nat)
  | 0, _ => none
  | fuel + 1, st =>
    match st.queue with
    | [] => none
    | current :: queue =>
      match pathExpand target current (deps.length + 1) { st with queue := queue }
        (producersAt deps current) with
      | .inr path => some path
      | .inl st' => pathLoop deps target fuel st'

def dependencyPath (deps : List (List Nat)) (source target : Nat) : Option (List Nat) :=
  pathLoop deps target (deps.length + 1) { previous := [], queue := [source], seen := [source] }

def idAt (spec : GraphSpec) (i : Nat) : Option NodeId := (spec.nodes[i]?).map (·.id)

def idsAt (spec : GraphSpec) (is : List Nat) : List NodeId := is.filterMap (idAt spec)

/-- The chain that joins a gate and a node it resolves, either way. -/
def gateChain (deps : List (List Nat)) (gi ti : Nat) : Option (List Nat) :=
  if gi = ti then some [gi]
  else (dependencyPath deps gi ti).orElse (fun _ => dependencyPath deps ti gi)

def gateWaitErrors (spec : GraphSpec) (deps : List (List Nat)) : List AdmissionError :=
  (gatePairs spec).filterMap (fun (gi, ti) =>
    match gateChain deps gi ti, idAt spec gi, idAt spec ti with
    | some chain, some gate, some resolves =>
      some (.gateWaitCycle gate resolves (idsAt spec chain))
    | _, _, _ => none)

/-! ### Required closure (`graph/mod.rs:535-546`) -/

def closureLoop (deps : List (List Nat)) : Nat → List Nat → List Nat → List Nat
  | 0, required, _ => required
  | fuel + 1, required, queue =>
    match queue with
    | [] => required
    | i :: rest =>
      if i ∈ required then closureLoop deps fuel required rest
      else closureLoop deps fuel (i :: required) (rest ++ producersAt deps i)

def requiredSet (spec : GraphSpec) (deps : List (List Nat)) : List Nat :=
  let queue := spec.targets.filterMap (fun t => indexOf spec t.nodeId)
  closureLoop deps (queue.length + (deps.map (·.length)).sum + 1) [] queue

/-! ### `admit` (`graph/mod.rs:314-566`) -/

/-- The errors of the order stage: one cycle, or every gate wait chain. `none` is
a panic of the cycle walk. -/
def orderErrors (spec : GraphSpec) (deps : List (List Nat)) : Option (List AdmissionError) :=
  let st := kahn deps
  if st.order.length < deps.length then
    (findCycle deps st).map (fun path => [.cycle (idsAt spec path)])
  else some (gateWaitErrors spec deps)

def contractErrors (spec : GraphSpec) : List AdmissionError :=
  spec.checkIdentity.map .identity ++
    spec.nodes.flatMap (fun node => node.checkContract.map (.contract node.id))

/-- Every reason the graph cannot be dispatched, in order; `none` is a panic. -/
def admissionErrors (spec : GraphSpec) : Option (List AdmissionError) :=
  (orderErrors spec (depsOf spec)).map (fun ordering =>
    contractErrors spec ++ spec.nodes.flatMap (nodeDepErrors spec) ++ gateErrors spec ++ ordering)

def admitted (spec : GraphSpec) : AdmittedGraph :=
  let deps := depsOf spec
  let order := (kahn deps).order
  let required := requiredSet spec deps
  { spec := spec
    order := idsAt spec order
    required := idsAt spec (order.filter (· ∈ required))
    optional := idsAt spec (order.filter (· ∉ required))
    gates := gateBindings spec }

/-- `admit`: the admitted graph, or every error. -/
def admitGraph (spec : GraphSpec) : Except (Option (List AdmissionError)) AdmittedGraph :=
  match admissionErrors spec with
  | some [] => .ok (admitted spec)
  | errors => .error errors

/-! ### What admission gives the operations -/

theorem admitGraph_ok {spec : GraphSpec} {g : AdmittedGraph} (h : admitGraph spec = .ok g) :
    admissionErrors spec = some [] ∧ g = admitted spec := by
  unfold admitGraph at h
  split at h
  · rename_i he
    cases h
    exact ⟨he, rfl⟩
  · cases h

theorem admitGraph_stages {spec : GraphSpec} {g : AdmittedGraph} (h : admitGraph spec = .ok g) :
    contractErrors spec = [] ∧ ∀ node ∈ spec.nodes, nodeDepErrors spec node = [] := by
  have he := (admitGraph_ok h).1
  unfold admissionErrors at he
  rw [Option.map_eq_some_iff] at he
  obtain ⟨ordering, _, hsum⟩ := he
  simp only [List.append_eq_nil_iff, List.flatMap_eq_nil_iff] at hsum
  exact ⟨hsum.1.1.1, hsum.1.1.2⟩

theorem admitGraph_nodup {spec : GraphSpec} {g : AdmittedGraph} (h : admitGraph spec = .ok g) :
    (spec.nodes.map (·.id)).Nodup := by
  have hc := (admitGraph_stages h).1
  unfold contractErrors at hc
  rw [List.append_eq_nil_iff, List.map_eq_nil_iff] at hc
  exact spec.nodes_nodup_of_checkIdentity hc.1

/-- The lookup by id finds every node of an admitted graph. -/
theorem findNode_of_mem {spec : GraphSpec} {g : AdmittedGraph} (h : admitGraph spec = .ok g)
    {n : NodeSpec} (hn : n ∈ spec.nodes) : spec.findNode n.id = some n := by
  refine find?_of_unique hn (by simp) ?_
  intro m hm hid
  exact List.inj_on_of_nodup_map (admitGraph_nodup h) hm hn (by simpa using hid)

theorem admitGraph_checkContract {spec : GraphSpec} {g : AdmittedGraph}
    (h : admitGraph spec = .ok g)
    {node : NodeSpec} (hn : node ∈ spec.nodes) : node.checkContract = [] := by
  have hc := (admitGraph_stages h).1
  unfold contractErrors at hc
  rw [List.append_eq_nil_iff, List.flatMap_eq_nil_iff] at hc
  exact List.map_eq_nil_iff.mp (hc.2 node hn)

/-- A dependency loop that reports nothing resolved every dependency cleanly. -/
theorem resolveDeps_clean {spec : GraphSpec} {node : NodeSpec} {producers : List Nat}
    {deps : List Dependency} (h : (resolveDeps spec node producers deps).1 = [])
    {dep : Dependency} (hd : dep ∈ deps) : ∃ pi, resolveDep spec node dep = .ok (pi, []) := by
  induction deps generalizing producers with
  | nil => cases hd
  | cons d rest ih =>
    simp only [resolveDeps] at h
    cases hr : resolveDep spec node d with
    | error e =>
      rw [hr] at h
      cases h
    | ok out =>
      obtain ⟨pi, errs⟩ := out
      rw [hr] at h
      simp only [List.append_eq_nil_iff] at h
      obtain ⟨herrs, hrest⟩ := h
      rcases List.mem_cons.mp hd with rfl | hmem
      · exact ⟨pi, by rw [hr, herrs]⟩
      · exact ih hrest hmem

/-- What a clean dependency says about its producer. -/
structure CleanDep (spec : GraphSpec) (node : NodeSpec) (dep : Dependency) : Prop where
  inGraph : dep.node.graphId = spec.graphId
  port : dep.outputPort.text = resultPort
  producer : ∃ p ∈ spec.nodes, p.id = dep.node.nodeId ∧ p.revision = dep.node.revision ∧
    p.resultType = dep.expectedType ∧ p.id ≠ node.id

theorem resolveDep_clean {spec : GraphSpec} {node : NodeSpec} {dep : Dependency} {pi : Nat}
    (h : resolveDep spec node dep = .ok (pi, [])) : CleanDep spec node dep := by
  unfold resolveDep at h
  split at h
  · cases h
  · rename_i hg
    split at h
    · cases h
    · rename_i i hi
      split at h
      · cases h
      · rename_i p hp
        split at h
        · cases h
        · rename_i hself
          simp only [Except.ok.injEq, Prod.mk.injEq, List.append_eq_nil_iff] at h
          obtain ⟨-, ⟨hrev, hport⟩, htype⟩ := h
          have hid : p.id = dep.node.nodeId := by
            have hfound := List.findIdx?_eq_some_iff_getElem.mp hi
            obtain ⟨hlt, hpid, -⟩ := hfound
            rw [List.getElem?_eq_getElem hlt] at hp
            cases hp
            simpa using hpid
          refine ⟨by simpa using hg, ?_, p, List.mem_of_getElem? hp, hid, ?_, ?_, hself⟩
          · by_contra hne
            simp [hne] at hport
          · by_contra hne
            simp [hne] at hrev
          · by_contra hne
            have hne' : dep.expectedType ≠ p.resultType := fun he => hne he.symm
            simp [hne'] at htype

/-- Every dependency of an admitted graph is clean. -/
theorem admitGraph_cleanDep {spec : GraphSpec} {g : AdmittedGraph} (h : admitGraph spec = .ok g)
    {node : NodeSpec} (hn : node ∈ spec.nodes) {dep : Dependency} (hd : dep ∈ node.deps) :
    CleanDep spec node dep := by
  have he := (admitGraph_stages h).2 node hn
  unfold nodeDepErrors at he
  simp only [List.append_eq_nil_iff] at he
  obtain ⟨pi, hpi⟩ := resolveDeps_clean he.1 hd
  exact resolveDep_clean hpi

end Graph

end Checkspan
