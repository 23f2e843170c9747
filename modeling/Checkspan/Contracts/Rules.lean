import Mathlib.Data.List.Nodup
import Checkspan.Contracts.Graph

/-!
# The record rules as propositions

What the identity check of a graph and the contract check of a node demand, stated
without their error lists, and the checks against it.
-/

namespace Checkspan

/-! ### Node contracts -/

/-- The rules of one evidence port. -/
structure PortRules (kind : NodeKind) (port : PortSpec) : Prop where
  sources : port.allowedSourceScope ≠ []
  human : port.kind = .human → kind = .humanGate

/-- A contract that breaks no rule that concerns its node alone. -/
structure ContractRules (n : NodeSpec) : Prop where
  prompt : isBlank n.prompt = false
  checked : n.acceptance.requiredChecks ≠ []
  checks : n.acceptance.requiredChecks.Nodup
  deps : (n.deps.map (fun d => (d.node, d.outputPort))).Nodup
  portNames : (n.evidencePorts.map (·.name)).Nodup
  ports : ∀ port ∈ n.evidencePorts, PortRules n.kind port
  resources : (n.resourceScope.map (·.resource)).Nodup
  consumes : n.kind = .check ∨ n.kind = .sink → n.deps ≠ []
  answered : n.kind = .humanGate → n.humanPorts = 1
  attempts : n.retryPolicy.maxAttempts ≠ 0
  supersedes : ∀ prev, n.supersedes = some prev →
    prev.nodeId = n.id ∧ prev.revision.get < n.revision.get

theorem ite_nil_iff {α : Type} {p : Prop} [Decidable p] {x : α} {xs : List α} :
    (if p then x :: xs else []) = [] ↔ ¬ p := by
  by_cases hp : p <;> simp [hp]

theorem portErrors_eq_nil {kind : NodeKind} {seen : List Ident} {port : PortSpec} :
    NodeSpec.portErrors kind seen port = [] ↔ port.name ∉ seen ∧ PortRules kind port := by
  simp only [NodeSpec.portErrors, List.append_eq_nil_iff, ite_nil_iff, List.isEmpty_iff, not_and,
    Decidable.not_not]
  constructor
  · intro h
    exact ⟨h.1.1, h.1.2, h.2⟩
  · intro h
    exact ⟨⟨h.1, h.2.sources⟩, h.2.human⟩

theorem portsErrors_eq_nil {kind : NodeKind} {seen : List Ident} {ports : List PortSpec} :
    NodeSpec.portsErrors kind seen ports = [] ↔
      (ports.map (·.name)).Nodup ∧ ∀ port ∈ ports, port.name ∉ seen ∧ PortRules kind port := by
  induction ports generalizing seen with
  | nil => simp [NodeSpec.portsErrors]
  | cons port rest ih =>
    simp only [NodeSpec.portsErrors, List.append_eq_nil_iff, portErrors_eq_nil, ih, List.map_cons,
      List.nodup_cons, List.forall_mem_cons]
    simp only [List.mem_cons, not_or]
    constructor
    · intro ⟨hport, hnd, hrest⟩
      refine ⟨⟨?_, hnd⟩, hport, fun p hp => ⟨(hrest p hp).1.2, (hrest p hp).2⟩⟩
      intro hmem
      obtain ⟨p, hp, hname⟩ := List.mem_map.mp hmem
      exact (hrest p hp).1.1 hname
    · intro ⟨⟨hfresh, hnd⟩, hport, hrest⟩
      refine ⟨hport, hnd, fun p hp => ⟨⟨?_, (hrest p hp).1⟩, (hrest p hp).2⟩⟩
      intro hname
      exact hfresh (List.mem_map.mpr ⟨p, hp, hname⟩)

/-- `check_contract` reports nothing exactly when the rules hold. -/
theorem checkContract_eq_nil {n : NodeSpec} : n.checkContract = [] ↔ ContractRules n := by
  unfold NodeSpec.checkContract
  simp only [List.append_eq_nil_iff, ite_nil_iff, List.map_eq_nil_iff, repeats_eq_nil,
    portsErrors_eq_nil, Bool.not_eq_true, List.isEmpty_eq_false_iff]
  constructor
  · rintro ⟨⟨⟨⟨⟨⟨⟨⟨hprompt, hsome⟩, hchecks⟩, hdeps⟩, hnames, hports⟩, hres⟩, hin⟩, hmax⟩, hsup⟩
    refine ⟨hprompt, hsome, hchecks, hdeps, hnames, fun p hp => (hports p hp).2, hres, ?_, ?_, hmax,
      ?_⟩
    · intro hkind
      rcases hkind with hk | hk
      · rw [hk] at hin
        simpa using hin
      · rw [hk] at hin
        simpa using hin
    · intro hk
      rw [hk] at hin
      simpa using hin
    · intro prev hprev
      rw [hprev] at hsup
      by_cases hid : prev.nodeId = n.id
      · simpa [hid] using hsup
      · simp [hid] at hsup
  · intro h
    refine ⟨⟨⟨⟨⟨⟨⟨⟨h.prompt, h.checked⟩, h.checks⟩, h.deps⟩, h.portNames,
      fun p hp => ⟨List.not_mem_nil, h.ports p hp⟩⟩, h.resources⟩, ?_⟩, h.attempts⟩, ?_⟩
    · cases hk : n.kind with
      | task => rfl
      | check => simpa using h.consumes (Or.inl hk)
      | sink => simpa using h.consumes (Or.inr hk)
      | humanGate => simpa using h.answered hk
    · cases hprev : n.supersedes with
      | none => rfl
      | some prev =>
        obtain ⟨hid, hlt⟩ := h.supersedes prev hprev
        simpa [hid] using hlt

/-! ### Graph identity -/

/-- A target names this graph and one of its nodes, at that node's revision. -/
def TargetRules (g : GraphSpec) (t : NodeRef) : Prop :=
  t.graphId = g.graphId ∧ ∃ n ∈ g.nodes, n.id = t.nodeId ∧ n.revision = t.revision

/-- A graph whose records identify what they name. -/
structure IdentityRules (g : GraphSpec) : Prop where
  nodes : (g.nodes.map (·.id)).Nodup
  targeted : g.targets ≠ []
  distinct : g.targets.Nodup
  targets : ∀ t ∈ g.targets, TargetRules g t
  supersedes : ∀ prev, g.supersedes = some prev →
    prev.graphId = g.graphId ∧ prev.revision.get < g.revision.get
  budget : g.budget.totalAttempts ≠ 0

/-- With distinct ids, the lookup finds every node under its own id. -/
theorem GraphSpec.findNode_eq_some {g : GraphSpec} (hnd : (g.nodes.map (·.id)).Nodup)
    {id : NodeId} {n : NodeSpec} : g.findNode id = some n ↔ n ∈ g.nodes ∧ n.id = id := by
  constructor
  · intro h
    exact ⟨GraphSpec.findNode_mem h, GraphSpec.findNode_id h⟩
  · intro ⟨hn, hid⟩
    refine find?_of_unique hn (by simpa using hid) ?_
    intro m hm hmid
    refine List.inj_on_of_nodup_map hnd hm hn ?_
    rw [hid]
    simpa using hmid

theorem targetErrors_eq_nil {g : GraphSpec} (hnd : (g.nodes.map (·.id)).Nodup)
    {seen : List NodeRef} {t : NodeRef} :
    g.targetErrors seen t = [] ↔ t ∉ seen ∧ TargetRules g t := by
  unfold GraphSpec.targetErrors TargetRules
  by_cases hseen : t ∈ seen
  · simp [hseen]
  · by_cases hgraph : t.graphId = g.graphId
    · simp only [hseen, hgraph, if_false, ne_eq, not_true_eq_false, not_false_eq_true, true_and]
      cases hfind : g.findNode t.nodeId with
      | none =>
        simp only [List.cons_ne_nil, false_iff]
        intro ⟨n, hn, hid, _⟩
        rw [(GraphSpec.findNode_eq_some hnd).mpr ⟨hn, hid⟩] at hfind
        cases hfind
      | some node =>
        obtain ⟨hmem, hid⟩ := (GraphSpec.findNode_eq_some hnd).mp hfind
        simp only [ite_nil_iff, Decidable.not_not]
        constructor
        · intro hrev
          exact ⟨node, hmem, hid, hrev⟩
        · intro ⟨n, hn, hnid, hrev⟩
          have hsame := (GraphSpec.findNode_eq_some hnd).mpr ⟨hn, hnid⟩
          rw [hfind] at hsame
          cases hsame
          exact hrev
    · simp [hseen, hgraph]

theorem targetsErrors_eq_nil {g : GraphSpec} (hnd : (g.nodes.map (·.id)).Nodup)
    {seen targets : List NodeRef} :
    g.targetsErrors seen targets = [] ↔
      targets.Nodup ∧ ∀ t ∈ targets, t ∉ seen ∧ TargetRules g t := by
  induction targets generalizing seen with
  | nil => simp [GraphSpec.targetsErrors]
  | cons t rest ih =>
    simp only [GraphSpec.targetsErrors, List.append_eq_nil_iff, targetErrors_eq_nil hnd, ih,
      List.nodup_cons, List.forall_mem_cons]
    simp only [List.mem_cons, not_or]
    constructor
    · intro ⟨ht, hrest, hall⟩
      exact ⟨⟨fun hmem => (hall t hmem).1.1 rfl, hrest⟩, ht,
        fun u hu => ⟨(hall u hu).1.2, (hall u hu).2⟩⟩
    · intro ⟨⟨hfresh, hrest⟩, ht, hall⟩
      exact ⟨ht, hrest, fun u hu => ⟨⟨fun he => hfresh (he ▸ hu), (hall u hu).1⟩, (hall u hu).2⟩⟩

/-- `check_identity` reports nothing exactly when the rules hold. -/
theorem checkIdentity_eq_nil {g : GraphSpec} : g.checkIdentity = [] ↔ IdentityRules g := by
  unfold GraphSpec.checkIdentity
  simp only [List.append_eq_nil_iff, ite_nil_iff, List.map_eq_nil_iff, repeats_eq_nil,
    List.isEmpty_iff]
  constructor
  · rintro ⟨⟨⟨⟨hnd, hne⟩, htargets⟩, hsup⟩, hbudget⟩
    obtain ⟨hdistinct, hall⟩ := (targetsErrors_eq_nil hnd).mp htargets
    refine ⟨hnd, hne, hdistinct, fun t ht => (hall t ht).2, ?_, hbudget⟩
    intro prev hprev
    rw [hprev] at hsup
    by_cases hid : prev.graphId = g.graphId
    · simpa [hid] using hsup
    · simp [hid] at hsup
  · intro h
    have htargets : g.targetsErrors [] g.targets = [] := (targetsErrors_eq_nil h.nodes).mpr
      ⟨h.distinct, fun t ht => ⟨List.not_mem_nil, h.targets t ht⟩⟩
    refine ⟨⟨⟨⟨h.nodes, h.targeted⟩, htargets⟩, ?_⟩, h.budget⟩
    cases hprev : g.supersedes with
    | none => rfl
    | some prev =>
      obtain ⟨hid, hlt⟩ := h.supersedes prev hprev
      simpa [hid] using hlt

end Checkspan
