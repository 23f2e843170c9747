import Checkspan.Contracts.Rules
import Checkspan.GraphOrder

/-!
# What admission decides

The specification of `admit` over node ids, and the proof that admission returns a
graph exactly when it holds.
-/

namespace Checkspan

namespace Graph

open Walks Relation

/-! ### The specification -/

/-- The node `a` declares a dependency on `b`. -/
def DependsOn (spec : GraphSpec) (a b : NodeId) : Prop :=
  ∃ n ∈ spec.nodes, n.id = a ∧ ∃ dep ∈ n.deps, dep.node.nodeId = b

/-- The human gate `g` lists `node:<t>` on its human port. -/
def Resolves (spec : GraphSpec) (g t : NodeId) : Prop :=
  ∃ n ∈ spec.nodes, n.id = g ∧ n.kind = .humanGate ∧ ∃ port ∈ n.evidencePorts,
    port.kind = .human ∧ nodeScopePrefix ++ t.text ∈ port.allowedSourceScope

/-- Every source a proofs port of the node allows is a declared dependency. -/
def ProofsDeclared (node : NodeSpec) : Prop :=
  ∀ port ∈ node.evidencePorts, port.kind = .proofs → ∀ source ∈ port.allowedSourceScope,
    ∃ dep ∈ node.deps, source = nodeScopePrefix ++ dep.node.nodeId.text

/-- Every `node:` entry of the gate's human port names a node of the graph. -/
def GateResolvable (spec : GraphSpec) (gate : NodeSpec) : Prop :=
  ∀ port ∈ gate.evidencePorts, port.kind = .human → ∀ name,
    nodeScopePrefix ++ name ∈ port.allowedSourceScope → ∃ t ∈ spec.nodes, t.id.text = name

/-- The two nodes are one, or joined by a dependency path either way. -/
def Joined (spec : GraphSpec) (a b : NodeId) : Prop :=
  a = b ∨ TransGen (DependsOn spec) a b ∨ TransGen (DependsOn spec) b a

/-- The graphs that can be dispatched. -/
structure Admissible (spec : GraphSpec) : Prop where
  identity : IdentityRules spec
  contracts : ∀ node ∈ spec.nodes, ContractRules node
  deps : ∀ node ∈ spec.nodes, ∀ dep ∈ node.deps, CleanDep spec node dep
  proofs : ∀ node ∈ spec.nodes, ProofsDeclared node
  gates : ∀ gate ∈ spec.nodes, gate.kind = .humanGate → GateResolvable spec gate
  acyclic : Acyclic (DependsOn spec)
  apart : ∀ g t, Resolves spec g t → ¬ Joined spec g t

/-! ### Scope entries -/

theorem stripChars_eq_some {p c r : List Char} : stripChars p c = some r ↔ c = p ++ r := by
  induction p generalizing c with
  | nil => simp [stripChars]
  | cons x p ih =>
    cases c with
    | nil => simp [stripChars]
    | cons y c =>
      unfold stripChars
      by_cases hxy : x = y
      · subst hxy
        simp [ih]
      · simp [hxy, Ne.symm hxy]

theorem stripPrefix_eq_some {p v r : String} : stripPrefix p v = some r ↔ v = p ++ r := by
  unfold stripPrefix
  rw [Option.map_eq_some_iff]
  constructor
  · intro ⟨cs, hcs, hr⟩
    subst hr
    refine String.toList_injective ?_
    rw [stripChars_eq_some.mp hcs, String.toList_append, String.toList_ofList]
  · intro hv
    refine ⟨r.toList, stripChars_eq_some.mpr ?_, String.ofList_toList⟩
    rw [hv, String.toList_append]

theorem scope_entry {p v : String} : (stripPrefix p v = none ∧ ∀ r, v ≠ p ++ r) ∨
    ∃ r, stripPrefix p v = some r ∧ v = p ++ r := by
  cases hs : stripPrefix p v with
  | none =>
    refine Or.inl ⟨rfl, fun r hv => ?_⟩
    rw [stripPrefix_eq_some.mpr hv] at hs
    cases hs
  | some r => exact Or.inr ⟨r, rfl, stripPrefix_eq_some.mp hs⟩

theorem identifier_new_eq_ok {k : IdKind} {text : String} {a : Identifier k} :
    Identifier.new k text = .ok a ↔ a.text = text := by
  constructor
  · intro h
    unfold Identifier.new at h
    split at h
    · cases h
      rfl
    · cases h
  · intro h
    subst h
    exact Identifier.new_text a

theorem scopeIndex_eq_some {spec : GraphSpec} {name : String} {id : NodeId} {i : Nat} :
    scopeIndex spec name = some (id, i) ↔ id.text = name ∧ indexOf spec id = some i := by
  unfold scopeIndex
  cases hnew : Identifier.new .nodeId name with
  | error e =>
    simp only [reduceCtorEq, false_iff, not_and]
    intro hid
    rw [identifier_new_eq_ok.mpr hid] at hnew
    cases hnew
  | ok id' =>
    have hid' := identifier_new_eq_ok.mp hnew
    simp only [Option.map_eq_some_iff, Prod.mk.injEq]
    constructor
    · intro ⟨j, hj, heq, hji⟩
      subst heq hji
      exact ⟨hid', hj⟩
    · intro ⟨hid, hi⟩
      have hsame : id' = id := Identifier.ext_text (hid'.trans hid.symm)
      subst hsame
      exact ⟨i, hi, rfl, rfl⟩

/-! ### Positions and ids -/

/-- The graphs in which a position and an id say the same. -/
abbrev DistinctIds (spec : GraphSpec) : Prop := (spec.nodes.map (·.id)).Nodup

theorem indexOf_lt {spec : GraphSpec} {id : NodeId} {i : Nat} (h : indexOf spec id = some i) :
    ∃ n, spec.nodes[i]? = some n ∧ n.id = id := by
  obtain ⟨hlt, hid, -⟩ := List.findIdx?_eq_some_iff_getElem.mp h
  exact ⟨spec.nodes[i], List.getElem?_eq_getElem hlt, by simpa using hid⟩

theorem position_unique {spec : GraphSpec} (hnd : DistinctIds spec) {i j : Nat} {n m : NodeSpec}
    (hi : spec.nodes[i]? = some n) (hj : spec.nodes[j]? = some m) (hid : n.id = m.id) : i = j := by
  obtain ⟨hilt, hni⟩ := List.getElem?_eq_some_iff.mp hi
  obtain ⟨hjlt, hmj⟩ := List.getElem?_eq_some_iff.mp hj
  have hilt' : i < (spec.nodes.map (·.id)).length := by rwa [List.length_map]
  have hjlt' : j < (spec.nodes.map (·.id)).length := by rwa [List.length_map]
  have hsame : (spec.nodes.map (·.id))[i] = (spec.nodes.map (·.id))[j] := by
    rw [List.getElem_map, List.getElem_map, hni, hmj, hid]
  exact hnd.getElem_inj_iff.mp hsame

theorem indexOf_eq_some {spec : GraphSpec} (hnd : DistinctIds spec) {id : NodeId} {i : Nat} :
    indexOf spec id = some i ↔ ∃ n, spec.nodes[i]? = some n ∧ n.id = id := by
  constructor
  · exact indexOf_lt
  · intro ⟨n, hn, hid⟩
    cases hfind : indexOf spec id with
    | none =>
      have hnone := List.findIdx?_eq_none_iff.mp hfind n (List.mem_of_getElem? hn)
      simp [hid] at hnone
    | some j =>
      obtain ⟨m, hm, hmid⟩ := indexOf_lt hfind
      rw [position_unique hnd hm hn (hmid.trans hid.symm)]

theorem node_unique {spec : GraphSpec} (hnd : DistinctIds spec) {n m : NodeSpec}
    (hn : n ∈ spec.nodes) (hm : m ∈ spec.nodes) (hid : n.id = m.id) : n = m :=
  List.inj_on_of_nodup_map hnd hn hm hid

/-! ### Dependencies -/

theorem resolveDep_ok {spec : GraphSpec} {node : NodeSpec} {dep : Dependency} {pi : Nat}
    {errs : List AdmissionError} (h : resolveDep spec node dep = .ok (pi, errs)) :
    indexOf spec dep.node.nodeId = some pi := by
  unfold resolveDep at h
  split at h
  · cases h
  · split at h
    · cases h
    · split at h
      · cases h
      · split at h
        · cases h
        · rename_i hi _ _ _ _
          cases h
          exact hi

/-- A clean dependency resolves to its producer without an error. -/
theorem resolveDep_eq_ok {spec : GraphSpec} (hnd : DistinctIds spec) {node : NodeSpec}
    {dep : Dependency} (h : CleanDep spec node dep) :
    ∃ pi, resolveDep spec node dep = .ok (pi, []) := by
  obtain ⟨p, hp, hid, hrev, htype, hself⟩ := h.producer
  obtain ⟨pi, hpi⟩ := List.getElem?_of_mem hp
  have hindex : indexOf spec dep.node.nodeId = some pi := (indexOf_eq_some hnd).mpr ⟨p, hpi, hid⟩
  refine ⟨pi, ?_⟩
  unfold resolveDep
  simp [h.inGraph, hindex, hpi, hself, hrev, htype, h.port]

theorem resolveDeps_errors {spec : GraphSpec} {node : NodeSpec} {producers : List Nat}
    {deps : List Dependency} (h : ∀ dep ∈ deps, ∃ pi, resolveDep spec node dep = .ok (pi, [])) :
    (resolveDeps spec node producers deps).1 = [] := by
  induction deps generalizing producers with
  | nil => rfl
  | cons d rest ih =>
    obtain ⟨pi, hpi⟩ := h d (List.mem_cons_self ..)
    unfold resolveDeps
    rw [hpi]
    simp only [List.nil_append]
    exact ih (fun dep hdep => h dep (List.mem_cons_of_mem _ hdep))

/-- The producers of a node are the positions its dependencies resolve to. -/
theorem mem_resolveDeps {spec : GraphSpec} {node : NodeSpec} {producers : List Nat}
    {deps : List Dependency} {p : Nat} : p ∈ (resolveDeps spec node producers deps).2 ↔
      p ∈ producers ∨ ∃ dep ∈ deps, ∃ errs, resolveDep spec node dep = .ok (p, errs) := by
  induction deps generalizing producers with
  | nil => simp [resolveDeps]
  | cons d rest ih =>
    unfold resolveDeps
    cases hr : resolveDep spec node d with
    | error e =>
      simp only [ih, List.exists_mem_cons_iff, hr, reduceCtorEq, exists_false, false_or]
    | ok out =>
      obtain ⟨pi, errs⟩ := out
      have hpush : p ∈ (if pi ∈ producers then producers else producers ++ [pi]) ↔
          p ∈ producers ∨ pi = p := by
        split
        · rename_i hin
          constructor
          · exact Or.inl
          · rintro (hp | rfl)
            · exact hp
            · exact hin
        · simp [eq_comm]
      simp only [ih, hpush, List.exists_mem_cons_iff, hr, Except.ok.injEq, Prod.mk.injEq,
        exists_and_left, exists_eq', and_true, or_assoc]

theorem resolveDeps_nodup {spec : GraphSpec} {node : NodeSpec} {producers : List Nat}
    {deps : List Dependency} (h : producers.Nodup) :
    (resolveDeps spec node producers deps).2.Nodup := by
  induction deps generalizing producers with
  | nil => exact h
  | cons d rest ih =>
    unfold resolveDeps
    cases resolveDep spec node d with
    | error e => exact ih h
    | ok out =>
      refine ih ?_
      split
      · exact h
      · rename_i hnew
        rw [List.nodup_append]
        refine ⟨h, List.nodup_singleton _, ?_⟩
        intro a ha b hb hab
        rw [List.mem_singleton.mp hb] at hab
        exact hnew (hab ▸ ha)

theorem producersAt_depsOf {spec : GraphSpec} {i : Nat} {n : NodeSpec}
    (hn : spec.nodes[i]? = some n) :
    producersAt (depsOf spec) i = (resolveDeps spec n [] n.deps).2 := by
  simp [producersAt, depsOf, List.getElem?_map, hn]

@[simp] theorem depsOf_length (spec : GraphSpec) : (depsOf spec).length = spec.nodes.length := by
  simp [depsOf]

theorem edge_iff {spec : GraphSpec} {i p : Nat} : Edge (depsOf spec) i p ↔
    ∃ n, spec.nodes[i]? = some n ∧
      ∃ dep ∈ n.deps, ∃ errs, resolveDep spec n dep = .ok (p, errs) := by
  constructor
  · intro h
    have hlt := h.source_lt
    rw [depsOf_length] at hlt
    have hn := List.getElem?_eq_getElem hlt
    unfold Edge at h
    rw [producersAt_depsOf hn, mem_resolveDeps] at h
    exact ⟨_, hn, h.resolve_left List.not_mem_nil⟩
  · intro ⟨n, hn, hdep⟩
    unfold Edge
    rw [producersAt_depsOf hn, mem_resolveDeps]
    exact Or.inr hdep

/-- `deps_of` is well formed for every graph, admitted or not. -/
theorem depsOf_lists (spec : GraphSpec) : DepLists (depsOf spec) := by
  constructor
  · intro i
    cases hn : spec.nodes[i]? with
    | none => simp [producersAt, depsOf, List.getElem?_map, hn]
    | some n =>
      rw [producersAt_depsOf hn]
      exact resolveDeps_nodup List.nodup_nil
  · intro i p h
    obtain ⟨n, -, dep, -, errs, hdep⟩ := edge_iff.mp h
    obtain ⟨m, hm, -⟩ := indexOf_lt (resolveDep_ok hdep)
    rw [depsOf_length]
    exact (List.getElem?_eq_some_iff.mp hm).1

/-! ### Paths of positions and paths of ids -/

/-- Where every dependency is clean, an edge joins two nodes as their ids depend. -/
theorem edge_dependsOn {spec : GraphSpec} (hnd : DistinctIds spec)
    (hclean : ∀ node ∈ spec.nodes, ∀ dep ∈ node.deps, CleanDep spec node dep) {i p : Nat}
    {n m : NodeSpec} (hn : spec.nodes[i]? = some n) (hm : spec.nodes[p]? = some m) :
    Edge (depsOf spec) i p ↔ DependsOn spec n.id m.id := by
  rw [edge_iff]
  constructor
  · intro ⟨n', hn', dep, hdep, errs, hres⟩
    rw [hn] at hn'
    cases hn'
    obtain ⟨m', hm', hid⟩ := indexOf_lt (resolveDep_ok hres)
    rw [hm] at hm'
    cases hm'
    exact ⟨n, List.mem_of_getElem? hn, rfl, dep, hdep, hid.symm⟩
  · intro ⟨n', hn', hid, dep, hdep, htarget⟩
    have hsame : n' = n := node_unique hnd hn' (List.mem_of_getElem? hn) hid
    subst hsame
    obtain ⟨q, hq⟩ := resolveDep_eq_ok hnd (hclean n' hn' dep hdep)
    obtain ⟨m', hm', hmid⟩ := indexOf_lt (resolveDep_ok hq)
    have hqp : q = p := position_unique hnd hm' hm (hmid.trans htarget)
    subst hqp
    exact ⟨n', hn, dep, hdep, [], hq⟩

theorem reaches_iff {spec : GraphSpec} (hnd : DistinctIds spec)
    (hclean : ∀ node ∈ spec.nodes, ∀ dep ∈ node.deps, CleanDep spec node dep) {i p : Nat}
    {n m : NodeSpec} (hn : spec.nodes[i]? = some n) (hm : spec.nodes[p]? = some m) :
    TransGen (Edge (depsOf spec)) i p ↔ TransGen (DependsOn spec) n.id m.id := by
  constructor
  · intro h
    induction h generalizing m with
    | single hip => exact TransGen.single ((edge_dependsOn hnd hclean hn hm).mp hip)
    | tail _ hjp ih =>
      obtain ⟨k, hk, -⟩ := edge_iff.mp hjp
      exact TransGen.tail (ih hk) ((edge_dependsOn hnd hclean hk hm).mp hjp)
  · intro h
    generalize hb : m.id = b at h
    induction h generalizing p m with
    | single hab =>
      rw [← hb] at hab
      exact TransGen.single ((edge_dependsOn hnd hclean hn hm).mpr hab)
    | tail _ hcb ih =>
      obtain ⟨k, hk, hkid, -⟩ := id hcb
      obtain ⟨q, hq⟩ := List.getElem?_of_mem hk
      rw [← hb, ← hkid] at hcb
      exact TransGen.tail (ih hq hkid) ((edge_dependsOn hnd hclean hq hm).mpr hcb)

theorem acyclic_iff {spec : GraphSpec} (hnd : DistinctIds spec)
    (hclean : ∀ node ∈ spec.nodes, ∀ dep ∈ node.deps, CleanDep spec node dep) :
    Acyclic (Edge (depsOf spec)) ↔ Acyclic (DependsOn spec) := by
  constructor
  · intro h a ha
    obtain ⟨b, hab, -⟩ := TransGen.head'_iff.mp ha
    obtain ⟨n, hn, hid, -⟩ := hab
    obtain ⟨i, hi⟩ := List.getElem?_of_mem hn
    rw [← hid] at ha
    exact h i ((reaches_iff hnd hclean hi hi).mpr ha)
  · intro h i hi
    obtain ⟨j, hij, -⟩ := TransGen.head'_iff.mp hi
    obtain ⟨n, hn, -⟩ := edge_iff.mp hij
    exact h n.id ((reaches_iff hnd hclean hn hn).mp hi)

/-! ### Each stage against its rules -/

theorem contractErrors_eq_nil {spec : GraphSpec} : contractErrors spec = [] ↔
    IdentityRules spec ∧ ∀ node ∈ spec.nodes, ContractRules node := by
  simp only [contractErrors, List.append_eq_nil_iff, List.map_eq_nil_iff, List.flatMap_eq_nil_iff,
    checkIdentity_eq_nil, checkContract_eq_nil]

/-- A proofs source is silent when it is one of the node's producers. -/
theorem proofSourceErrors_eq_nil {spec : GraphSpec} {node : NodeSpec} {producers : List Nat}
    {port : PortSpec} {source : String} :
    proofSourceErrors spec node producers port source = [] ↔
      ∃ id si, source = nodeScopePrefix ++ id.text ∧ indexOf spec id = some si ∧
        si ∈ producers := by
  unfold proofSourceErrors
  rcases @scope_entry nodeScopePrefix source with ⟨hnone, hno⟩ | ⟨name, hsome, hsource⟩
  · simp only [hnone, List.cons_ne_nil, false_iff]
    intro ⟨id, si, hsource, _⟩
    exact hno _ hsource
  · simp only [hsome]
    subst hsource
    have hsplit : ∀ text, nodeScopePrefix ++ name = nodeScopePrefix ++ text ↔ name = text := by
      intro text
      rw [← stripPrefix_eq_some, hsome, Option.some.injEq]
    cases hscope : scopeIndex spec name with
    | none =>
      simp only [List.cons_ne_nil, false_iff, hsplit]
      intro ⟨id, si, hname, hindex, _⟩
      rw [scopeIndex_eq_some.mpr ⟨hname.symm, hindex⟩] at hscope
      cases hscope
    | some found =>
      obtain ⟨id, si⟩ := found
      obtain ⟨hname, hindex⟩ := scopeIndex_eq_some.mp hscope
      simp only [hsplit]
      constructor
      · intro hnil
        refine ⟨id, si, hname.symm, hindex, ?_⟩
        by_contra hout
        simp [hout] at hnil
      · intro ⟨id', si', hname', hindex', hin⟩
        have hid : id' = id := Identifier.ext_text (hname'.symm.trans hname.symm)
        subst hid
        rw [hindex] at hindex'
        cases hindex'
        simp [hin]

theorem proofErrors_eq_nil {spec : GraphSpec} (hnd : DistinctIds spec) {node : NodeSpec}
    (hclean : ∀ dep ∈ node.deps, CleanDep spec node dep) :
    proofErrors spec node (resolveDeps spec node [] node.deps).2 = [] ↔ ProofsDeclared node := by
  have hproducer : ∀ source, (∃ id si, source = nodeScopePrefix ++ id.text ∧
      indexOf spec id = some si ∧ si ∈ (resolveDeps spec node [] node.deps).2) ↔
      ∃ dep ∈ node.deps, source = nodeScopePrefix ++ dep.node.nodeId.text := by
    intro source
    simp only [mem_resolveDeps, List.not_mem_nil, false_or]
    constructor
    · intro ⟨id, si, hsource, hindex, dep, hdep, errs, hres⟩
      obtain ⟨n, hn, hid⟩ := indexOf_lt hindex
      obtain ⟨m, hm, hmid⟩ := indexOf_lt (resolveDep_ok hres)
      rw [hn] at hm
      cases hm
      exact ⟨dep, hdep, by rw [hsource, ← hid, hmid]⟩
    · intro ⟨dep, hdep, hsource⟩
      obtain ⟨pi, hpi⟩ := resolveDep_eq_ok hnd (hclean dep hdep)
      exact ⟨dep.node.nodeId, pi, hsource, resolveDep_ok hpi, dep, hdep, [], hpi⟩
  unfold proofErrors ProofsDeclared
  simp only [List.flatMap_eq_nil_iff, List.mem_filter, decide_eq_true_eq, and_imp,
    proofSourceErrors_eq_nil, hproducer]

theorem nodeDepErrors_eq_nil {spec : GraphSpec} (hnd : DistinctIds spec) {node : NodeSpec} :
    nodeDepErrors spec node = [] ↔
      (∀ dep ∈ node.deps, CleanDep spec node dep) ∧ ProofsDeclared node := by
  unfold nodeDepErrors
  simp only [List.append_eq_nil_iff]
  constructor
  · intro ⟨hdeps, hproofs⟩
    have hclean : ∀ dep ∈ node.deps, CleanDep spec node dep := by
      intro dep hdep
      obtain ⟨pi, hpi⟩ := resolveDeps_clean hdeps hdep
      exact resolveDep_clean hpi
    exact ⟨hclean, (proofErrors_eq_nil hnd hclean).mp hproofs⟩
  · intro ⟨hclean, hproofs⟩
    exact ⟨resolveDeps_errors (fun dep hdep => resolveDep_eq_ok hnd (hclean dep hdep)),
      (proofErrors_eq_nil hnd hclean).mpr hproofs⟩

/-! ### Gates -/

/-- The `node:` entries of a human port that name a node, each with its position. -/
theorem ok_mem_gateTargets {spec : GraphSpec} {node : NodeSpec} {target : NodeId × Nat} :
    .ok target ∈ gateTargets spec node ↔ ∃ port ∈ node.evidencePorts, port.kind = .human ∧
      ∃ name, nodeScopePrefix ++ name ∈ port.allowedSourceScope ∧
        scopeIndex spec name = some target := by
  unfold gateTargets
  simp only [List.mem_flatMap, List.mem_filter, decide_eq_true_eq, List.mem_filterMap, and_assoc]
  refine exists_congr fun port => and_congr_right fun _ => and_congr_right fun _ => ?_
  constructor
  · rintro ⟨source, hsource, hx⟩
    rcases @scope_entry nodeScopePrefix source with ⟨hnone, -⟩ | ⟨name, hsome, heq⟩
    · rw [hnone] at hx
      cases hx
    · rw [hsome] at hx
      dsimp only at hx
      refine ⟨name, heq ▸ hsource, ?_⟩
      cases hscope : scopeIndex spec name with
      | none =>
        rw [hscope] at hx
        cases hx
      | some found =>
        rw [hscope] at hx
        cases hx
        rfl
  · rintro ⟨name, hsource, hscope⟩
    refine ⟨_, hsource, ?_⟩
    rw [stripPrefix_eq_some.mpr rfl]
    dsimp only
    rw [hscope]

/-- The `node:` entries of a human port that name nothing. -/
theorem error_mem_gateTargets {spec : GraphSpec} {node : NodeSpec} {e : AdmissionError} :
    .error e ∈ gateTargets spec node ↔ ∃ port ∈ node.evidencePorts, port.kind = .human ∧
      ∃ name, nodeScopePrefix ++ name ∈ port.allowedSourceScope ∧
        scopeIndex spec name = none ∧ e = .gateResolvesUnknownNode node.id name := by
  unfold gateTargets
  simp only [List.mem_flatMap, List.mem_filter, decide_eq_true_eq, List.mem_filterMap, and_assoc]
  refine exists_congr fun port => and_congr_right fun _ => and_congr_right fun _ => ?_
  constructor
  · rintro ⟨source, hsource, hx⟩
    rcases @scope_entry nodeScopePrefix source with ⟨hnone, -⟩ | ⟨name, hsome, heq⟩
    · rw [hnone] at hx
      cases hx
    · rw [hsome] at hx
      dsimp only at hx
      refine ⟨name, heq ▸ hsource, ?_⟩
      cases hscope : scopeIndex spec name with
      | none =>
        rw [hscope] at hx
        cases hx
        exact ⟨rfl, rfl⟩
      | some found =>
        rw [hscope] at hx
        cases hx
  · rintro ⟨name, hsource, hscope, he⟩
    refine ⟨_, hsource, ?_⟩
    rw [stripPrefix_eq_some.mpr rfl]
    dsimp only
    rw [hscope, he]

theorem errorOf_eq_none {ε α : Type} {x : Except ε α} : errorOf x = none ↔ ∀ e, x ≠ .error e := by
  cases x <;> simp [errorOf]

theorem gateErrors_eq_nil {spec : GraphSpec} (hnd : DistinctIds spec) : gateErrors spec = [] ↔
    ∀ gate ∈ spec.nodes, gate.kind = .humanGate → GateResolvable spec gate := by
  have hnamed : ∀ name, (∃ t ∈ spec.nodes, t.id.text = name) ↔
      ∃ found, scopeIndex spec name = some found := by
    intro name
    constructor
    · intro ⟨t, ht, htext⟩
      obtain ⟨i, hi⟩ := List.getElem?_of_mem ht
      exact ⟨(t.id, i), scopeIndex_eq_some.mpr ⟨htext, (indexOf_eq_some hnd).mpr ⟨t, hi, rfl⟩⟩⟩
    · intro ⟨⟨id, i⟩, hscope⟩
      obtain ⟨hid, hindex⟩ := scopeIndex_eq_some.mp hscope
      obtain ⟨n, hn, hnid⟩ := indexOf_lt hindex
      exact ⟨n, List.mem_of_getElem? hn, by rw [hnid, hid]⟩
  unfold gateErrors gateNodes GateResolvable
  simp only [List.flatMap_eq_nil_iff, List.filterMap_eq_nil_iff, List.mem_filter,
    decide_eq_true_eq, and_imp, errorOf_eq_none, hnamed]
  refine forall_congr' fun gate => forall_congr' fun _ => forall_congr' fun _ => ?_
  constructor
  · intro h port hport hkind name hname
    by_contra hnone
    have hscope : scopeIndex spec name = none := by
      rw [Option.eq_none_iff_forall_not_mem]
      exact fun found hfound => hnone ⟨found, hfound⟩
    exact h _ (error_mem_gateTargets.mpr ⟨port, hport, hkind, name, hname, hscope, rfl⟩) _ rfl
  · rintro h x hx e rfl
    obtain ⟨port, hport, hkind, name, hname, hscope, -⟩ := error_mem_gateTargets.mp hx
    obtain ⟨found, hfound⟩ := h port hport hkind name hname
    rw [hscope] at hfound
    cases hfound

/-- The gate at position `gi` lists a node that resolves to position `ti`. -/
structure GatePair (spec : GraphSpec) (gi ti : Nat) (gate resolves : NodeId) : Prop where
  lists : ∃ g, spec.nodes[gi]? = some g ∧ g.id = gate ∧ g.kind = .humanGate ∧
    ∃ port ∈ g.evidencePorts, port.kind = .human ∧
      nodeScopePrefix ++ resolves.text ∈ port.allowedSourceScope
  resolved : indexOf spec resolves = some ti

theorem mem_gatePairs_iff {spec : GraphSpec} {gi ti : Nat} :
    (gi, ti) ∈ gatePairs spec ↔ ∃ gate resolves, GatePair spec gi ti gate resolves := by
  have hok : ∀ x : Except AdmissionError (NodeId × Nat), ∀ target,
      okOf x = some target ↔ x = .ok target := by
    intro x target
    cases x <;> simp [okOf]
  unfold gatePairs
  simp only [List.mem_flatMap, Prod.exists, List.mem_zipIdx_iff_getElem?]
  constructor
  · intro ⟨g, i, hg, hmem⟩
    by_cases hkind : g.kind = .humanGate
    · rw [if_pos hkind] at hmem
      simp only [List.mem_map, List.mem_filterMap, hok, exists_eq_right, Prod.mk.injEq, Prod.exists,
        ok_mem_gateTargets] at hmem
      obtain ⟨id, j, ⟨port, hport, hhuman, name, hname, hscope⟩, hgi, hti⟩ := hmem
      subst hgi hti
      obtain ⟨hid, hindex⟩ := scopeIndex_eq_some.mp hscope
      rw [← hid] at hname
      exact ⟨g.id, id, ⟨g, hg, rfl, hkind, port, hport, hhuman, hname⟩, hindex⟩
    · rw [if_neg hkind] at hmem
      cases hmem
  · intro ⟨gate, resolves, ⟨g, hg, hid, hkind, port, hport, hhuman, hname⟩, hindex⟩
    refine ⟨g, gi, hg, ?_⟩
    rw [if_pos hkind]
    simp only [List.mem_map, List.mem_filterMap, hok, exists_eq_right, Prod.mk.injEq, Prod.exists,
      ok_mem_gateTargets]
    have hscope : scopeIndex spec resolves.text = some (resolves, ti) :=
      scopeIndex_eq_some.mpr ⟨rfl, hindex⟩
    exact ⟨resolves, ti, ⟨port, hport, hhuman, resolves.text, hname, hscope⟩, trivial, rfl⟩

/-- The pairs the wait check looks at are the gates with what they resolve. -/
theorem mem_gatePairs {spec : GraphSpec} (hnd : DistinctIds spec) {gi ti : Nat} :
    (gi, ti) ∈ gatePairs spec ↔ ∃ g t, spec.nodes[gi]? = some g ∧ spec.nodes[ti]? = some t ∧
      Resolves spec g.id t.id := by
  rw [mem_gatePairs_iff]
  constructor
  · intro ⟨gate, resolves, ⟨g, hg, hid, hkind, port, hport, hhuman, hname⟩, hindex⟩
    obtain ⟨t, ht, htid⟩ := indexOf_lt hindex
    rw [← htid] at hname
    exact ⟨g, t, hg, ht, g, List.mem_of_getElem? hg, rfl, hkind, port, hport, hhuman, hname⟩
  · intro ⟨g, t, hg, ht, g', hg', hid, hkind, port, hport, hhuman, hname⟩
    have hsame : g' = g := node_unique hnd hg' (List.mem_of_getElem? hg) hid
    subst hsame
    exact ⟨g'.id, t.id, ⟨g', hg, rfl, hkind, port, hport, hhuman, hname⟩,
      (indexOf_eq_some hnd).mpr ⟨t, ht, rfl⟩⟩

/-- No wait chain is reported exactly when every gate is apart from what it resolves. -/
theorem gateWaitErrors_eq_nil {spec : GraphSpec} (hnd : DistinctIds spec)
    (hclean : ∀ node ∈ spec.nodes, ∀ dep ∈ node.deps, CleanDep spec node dep)
    (hgates : ∀ gate ∈ spec.nodes, gate.kind = .humanGate → GateResolvable spec gate) :
    gateWaitErrors spec (depsOf spec) = [] ↔ ∀ g t, Resolves spec g t → ¬ Joined spec g t := by
  have hchain : ∀ gi ti g t, spec.nodes[gi]? = some g → spec.nodes[ti]? = some t →
      ((gateChain (depsOf spec) gi ti).isSome = true ↔ Joined spec g.id t.id) := by
    intro gi ti g t hg ht
    have hglt : gi < (depsOf spec).length := by
      rw [depsOf_length]
      exact (List.getElem?_eq_some_iff.mp hg).1
    have htlt : ti < (depsOf spec).length := by
      rw [depsOf_length]
      exact (List.getElem?_eq_some_iff.mp ht).1
    have hsame : gi = ti ↔ g.id = t.id := by
      constructor
      · intro heq
        subst heq
        rw [hg] at ht
        cases ht
        rfl
      · exact position_unique hnd hg ht
    rw [gateChain_isSome (depsOf_lists spec) hglt htlt, hsame, reaches_iff hnd hclean hg ht,
      reaches_iff hnd hclean ht hg, Joined]
  unfold gateWaitErrors
  simp only [List.filterMap_eq_nil_iff, Prod.forall]
  constructor
  · intro h gid tid hres hjoined
    obtain ⟨g, hg, hgid, hkind, port, hport, hhuman, hname⟩ := id hres
    obtain ⟨t, ht, htext⟩ := hgates g hg hkind port hport hhuman _ hname
    have htid : t.id = tid := Identifier.ext_text htext
    obtain ⟨gi, hgi⟩ := List.getElem?_of_mem hg
    obtain ⟨ti, hti⟩ := List.getElem?_of_mem ht
    subst hgid htid
    have hnone := h gi ti ((mem_gatePairs hnd).mpr ⟨g, t, hgi, hti, hres⟩)
    obtain ⟨chain, hchain'⟩ := Option.isSome_iff_exists.mp ((hchain gi ti g t hgi hti).mpr hjoined)
    simp [hchain', idAt, hgi, hti] at hnone
  · intro h gi ti hpair
    obtain ⟨g, t, hg, ht, hres⟩ := (mem_gatePairs hnd).mp hpair
    have hnone : gateChain (depsOf spec) gi ti = none := by
      rw [← Option.not_isSome_iff_eq_none, hchain gi ti g t hg ht]
      exact h g.id t.id hres
    rw [hnone]

/-! ### Admission -/

/-- The order stage never panics, and is silent when there is no cycle and no wait
chain. -/
theorem orderErrors_spec {spec : GraphSpec} :
    ∃ ordering, orderErrors spec (depsOf spec) = some ordering ∧
    (ordering = [] ↔ Acyclic (Edge (depsOf spec)) ∧ gateWaitErrors spec (depsOf spec) = []) := by
  have hlists := depsOf_lists spec
  have hacyc := kahn_complete hlists
  unfold orderErrors
  dsimp only
  by_cases hshort : (kahn (depsOf spec)).order.length < (depsOf spec).length
  · obtain ⟨cycle, hcycle, -⟩ := findCycle_some hlists hshort
    rw [if_pos hshort, hcycle]
    refine ⟨_, rfl, ?_⟩
    simp only [List.cons_ne_nil, false_iff, not_and]
    intro h
    have hle := hacyc.mpr h
    omega
  · rw [if_neg hshort]
    refine ⟨_, rfl, ?_⟩
    have h := hacyc.mp (by omega)
    simp [h]

/-- Admission reports nothing exactly for the admissible graphs, and never panics. -/
theorem admissionErrors_spec (spec : GraphSpec) :
    ∃ errors, admissionErrors spec = some errors ∧ (errors = [] ↔ Admissible spec) := by
  obtain ⟨ordering, hordering, hnil⟩ := @orderErrors_spec spec
  refine ⟨_, by rw [admissionErrors, hordering, Option.map_some], ?_⟩
  simp only [List.append_eq_nil_iff, List.flatMap_eq_nil_iff, contractErrors_eq_nil, hnil]
  constructor
  · intro ⟨⟨⟨⟨hid, hcontracts⟩, hnodes⟩, hgate⟩, hacyc, hwait⟩
    have hdeps := fun node hn => ((nodeDepErrors_eq_nil hid.nodes).mp (hnodes node hn)).1
    have hproofs := fun node hn => ((nodeDepErrors_eq_nil hid.nodes).mp (hnodes node hn)).2
    have hgates := (gateErrors_eq_nil hid.nodes).mp hgate
    exact ⟨hid, hcontracts, hdeps, hproofs, hgates, (acyclic_iff hid.nodes hdeps).mp hacyc,
      (gateWaitErrors_eq_nil hid.nodes hdeps hgates).mp hwait⟩
  · intro h
    have hnd := h.identity.nodes
    exact ⟨⟨⟨⟨h.identity, h.contracts⟩,
      fun node hn => (nodeDepErrors_eq_nil hnd).mpr ⟨h.deps node hn, h.proofs node hn⟩⟩,
      (gateErrors_eq_nil hnd).mpr h.gates⟩, (acyclic_iff hnd h.deps).mpr h.acyclic,
      (gateWaitErrors_eq_nil hnd h.deps h.gates).mpr h.apart⟩

theorem admitGraph_admissible {spec : GraphSpec} {g : AdmittedGraph}
    (h : admitGraph spec = .ok g) : Admissible spec := by
  obtain ⟨errors, herrors, hnil⟩ := admissionErrors_spec spec
  rw [(admitGraph_ok h).1, Option.some.injEq] at herrors
  exact hnil.mp herrors.symm

/-- `admit` returns a graph exactly for the admissible ones, and otherwise says why. -/
theorem admitGraph_decides (spec : GraphSpec) :
    ((∃ g, admitGraph spec = .ok g) ↔ Admissible spec) ∧
    (¬ Admissible spec → ∃ errors, errors ≠ [] ∧ admitGraph spec = .error (some errors)) := by
  obtain ⟨errors, herrors, hnil⟩ := admissionErrors_spec spec
  cases errors with
  | nil =>
    have hadm := hnil.mp rfl
    have hok : admitGraph spec = .ok (admitted spec) := by
      unfold admitGraph
      rw [herrors]
    exact ⟨⟨fun _ => hadm, fun _ => ⟨_, hok⟩⟩, fun hnot => absurd hadm hnot⟩
  | cons e rest =>
    have hnot : ¬ Admissible spec := fun hadm => absurd (hnil.mpr hadm) (List.cons_ne_nil e rest)
    have herr : admitGraph spec = .error (some (e :: rest)) := by
      unfold admitGraph
      rw [herrors]
    exact ⟨⟨fun ⟨_, hg⟩ => admitGraph_admissible hg, fun hadm => absurd hadm hnot⟩,
      fun _ => ⟨_, List.cons_ne_nil e rest, herr⟩⟩

end Graph

end Checkspan
