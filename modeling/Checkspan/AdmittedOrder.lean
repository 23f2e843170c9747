import Mathlib.Algebra.BigOperators.Group.Finset.Basic
import Checkspan.GateWaits

/-!
# The order and the required nodes of an admitted graph

The ready heap always holds exactly the nodes whose producers are placed, so the order
is the greedy one. The closure loop collects exactly what the targets reach.
-/

namespace Checkspan

namespace Graph

open Walks Relation

/-! ### The greedy order -/

/-- A node that waits for nothing and is not placed is ready. -/
theorem KahnInv.ready_of_available {deps : List (List Nat)} {st : KahnState}
    (h : KahnInv deps [] st) {i : Nat} (hi : i < deps.length) (hout : i ∉ st.order)
    (hall : ∀ p, Edge deps i p → p ∈ st.order) : i ∈ st.ready := by
  have hnone : pending deps st.order i = 0 := by
    refine List.countP_eq_zero.mpr ?_
    intro p hp
    simpa using hall p hp
  have hdegree : st.degree i = 0 := by
    rw [h.degree i hi, hnone, if_neg List.not_mem_nil]
  exact ((h.zero i hi).mpr hdegree).resolve_right hout

theorem kahnLoop_earliest {deps : List (List Nat)} (hdeps : DepLists deps) {fuel : Nat}
    {st : KahnState} (h : KahnInv deps [] st)
    (hearly : Earliest (· < deps.length) (Edge deps) st.order) :
    Earliest (· < deps.length) (Edge deps) (kahnLoop deps fuel st).order := by
  induction fuel generalizing st with
  | zero => exact hearly
  | succ fuel ih =>
    unfold kahnLoop
    cases hpop : popMin st.ready with
    | none => exact hearly
    | some out =>
      obtain ⟨i, rest⟩ := out
      obtain ⟨hi, hrest, hleast⟩ := popMin_eq_some hpop
      subst hrest
      refine ih ((h.pop hdeps hi).releases (dependentsAt_nodup deps i)
        (fun d hd => Edge.source_lt (mem_dependentsAt.mp hd))) ?_
      rw [releases_order]
      refine hearly.snoc ?_
      intro b hb hout hall
      exact hleast b (h.ready_of_available hb hout hall)

theorem kahn_earliest {deps : List (List Nat)} (hdeps : DepLists deps) :
    Earliest (· < deps.length) (Edge deps) (kahn deps).order := by
  refine kahnLoop_earliest hdeps kahn_init ?_
  intro l₁ a l₂ h
  simp at h

theorem kahn_perm {deps : List (List Nat)} (hdeps : DepLists deps) (hacyc : Acyclic (Edge deps)) :
    (kahn deps).order.Perm (List.range deps.length) := by
  have hlt : ∀ i ∈ (kahn deps).order, i < deps.length :=
    fun i hi => (kahn_spec hdeps).1.lt i (List.mem_append_right _ hi)
  have hnd := kahn_order_nodup hdeps
  refine (List.perm_ext_iff_of_nodup hnd List.nodup_range).mpr ?_
  intro i
  rw [List.mem_range]
  exact ⟨hlt i, mem_of_nodup_lt_length hnd hlt ((kahn_complete hdeps).mpr hacyc)⟩

/-! ### The closure loop -/

/-- The edges out of the positions that are not collected yet. -/
def unexplored (deps : List (List Nat)) (required : List Nat) : Nat :=
  ∑ i ∈ (Finset.range deps.length).filter (· ∉ required), (producersAt deps i).length

theorem unexplored_collect {deps : List (List Nat)} {required : List Nat} {i : Nat}
    (hi : i ∉ required) :
    unexplored deps required = (producersAt deps i).length + unexplored deps (i :: required) := by
  have hset : (Finset.range deps.length).filter (· ∉ i :: required) =
      ((Finset.range deps.length).filter (· ∉ required)).erase i := by
    ext j
    simp only [Finset.mem_filter, Finset.mem_erase, Finset.mem_range, List.mem_cons, not_or]
    tauto
  unfold unexplored
  rw [hset]
  by_cases hlt : i < deps.length
  · exact (Finset.add_sum_erase _ _ (Finset.mem_filter.mpr ⟨Finset.mem_range.mpr hlt, hi⟩)).symm
  · have hnone : producersAt deps i = [] := by
      simp [producersAt, List.getElem?_eq_none (Nat.le_of_not_lt hlt)]
    have hout : i ∉ (Finset.range deps.length).filter (· ∉ required) := by
      simp [hlt]
    rw [hnone, List.length_nil, Nat.zero_add, Finset.erase_eq_of_notMem hout]

theorem unexplored_nil (deps : List (List Nat)) :
    unexplored deps [] = (deps.map (·.length)).sum := by
  have hsum : ∀ l : List (List Nat), (l.map (·.length)).sum =
      ∑ i ∈ Finset.range l.length, ((l[i]?).getD []).length := by
    intro l
    induction l using List.reverseRecOn with
    | nil => rfl
    | append_singleton l x ih =>
      rw [List.map_append, List.sum_append, ih, List.length_append, List.length_singleton,
        Finset.sum_range_succ]
      congr 1
      · refine Finset.sum_congr rfl ?_
        intro i hi
        rw [List.getElem?_append_left (Finset.mem_range.mp hi)]
      · simp
  rw [hsum]
  simp [unexplored, producersAt]

/-- The loop state: what is collected or queued is reached, the start is among it, and
what is collected has its producers among it. -/
structure ClosureInv (deps : List (List Nat)) (start required queue : List Nat) : Prop where
  reached : ∀ i, i ∈ required ∨ i ∈ queue → ∃ s ∈ start, ReflTransGen (Edge deps) s i
  started : ∀ s ∈ start, s ∈ required ∨ s ∈ queue
  closed : ∀ i ∈ required, ∀ p, Edge deps i p → p ∈ required ∨ p ∈ queue

theorem ClosureInv.skip {deps : List (List Nat)} {start required queue : List Nat} {i : Nat}
    (h : ClosureInv deps start required (i :: queue)) (hi : i ∈ required) :
    ClosureInv deps start required queue := by
  have hdrop : ∀ {j}, j ∈ required ∨ j ∈ i :: queue → j ∈ required ∨ j ∈ queue := by
    rintro j (hj | hj)
    · exact Or.inl hj
    · rcases List.mem_cons.mp hj with rfl | hj
      · exact Or.inl hi
      · exact Or.inr hj
  refine ⟨?_, fun s hs => hdrop (h.started s hs), fun j hj p hp => hdrop (h.closed j hj p hp)⟩
  intro j hj
  exact h.reached j (hj.imp_right (List.mem_cons_of_mem _))

theorem ClosureInv.collect {deps : List (List Nat)} {start required queue : List Nat} {i : Nat}
    (h : ClosureInv deps start required (i :: queue)) :
    ClosureInv deps start (i :: required) (queue ++ producersAt deps i) := by
  have hmove : ∀ {j}, j ∈ required ∨ j ∈ i :: queue →
      j ∈ i :: required ∨ j ∈ queue ++ producersAt deps i := by
    rintro j (hj | hj)
    · exact Or.inl (List.mem_cons_of_mem _ hj)
    · rcases List.mem_cons.mp hj with rfl | hj
      · exact Or.inl List.mem_cons_self
      · exact Or.inr (List.mem_append_left _ hj)
  have hi := h.reached i (Or.inr List.mem_cons_self)
  refine ⟨?_, fun s hs => hmove (h.started s hs), ?_⟩
  · rintro j (hj | hj)
    · rcases List.mem_cons.mp hj with rfl | hj
      · exact hi
      · exact h.reached j (Or.inl hj)
    · rcases List.mem_append.mp hj with hj | hj
      · exact h.reached j (Or.inr (List.mem_cons_of_mem _ hj))
      · obtain ⟨s, hs, hsi⟩ := hi
        exact ⟨s, hs, hsi.tail hj⟩
  · intro j hj p hp
    rcases List.mem_cons.mp hj with rfl | hj
    · exact Or.inr (List.mem_append_right _ hp)
    · exact hmove (h.closed j hj p hp)

/-- With fuel for the queue and every edge out of what is not collected, the loop ends
with exactly what the start reaches. -/
theorem closureLoop_spec {deps : List (List Nat)} {start : List Nat} {fuel : Nat}
    {required queue : List Nat} (h : ClosureInv deps start required queue)
    (hfuel : queue.length + unexplored deps required < fuel) (i : Nat) :
    i ∈ closureLoop deps fuel required queue ↔ ∃ s ∈ start, ReflTransGen (Edge deps) s i := by
  induction fuel generalizing required queue with
  | zero => omega
  | succ fuel ih =>
    unfold closureLoop
    cases queue with
    | nil =>
      dsimp only
      constructor
      · exact fun hi => h.reached i (Or.inl hi)
      · rintro ⟨s, hs, hsi⟩
        have hclosed : ∀ a b, a ∈ required → Edge deps a b → b ∈ required :=
          fun a b ha hab => (h.closed a ha b hab).resolve_right List.not_mem_nil
        exact closed_reaches hclosed ((h.started s hs).resolve_right List.not_mem_nil) hsi
    | cons next queue =>
      dsimp only
      rw [List.length_cons] at hfuel
      split
      · rename_i hmem
        exact ih (h.skip hmem) (by omega)
      · rename_i hout
        refine ih h.collect ?_
        have hedges := @unexplored_collect deps _ _ hout
        rw [List.length_append]
        omega

theorem mem_requiredSet {spec : GraphSpec} {i : Nat} :
    i ∈ requiredSet spec (depsOf spec) ↔ ∃ t ∈ spec.targets, ∃ s, indexOf spec t.nodeId = some s ∧
      ReflTransGen (Edge (depsOf spec)) s i := by
  have hinit : ClosureInv (depsOf spec) (spec.targets.filterMap (fun t => indexOf spec t.nodeId)) []
      (spec.targets.filterMap (fun t => indexOf spec t.nodeId)) := by
    refine ⟨?_, fun s hs => Or.inr hs, fun j hj => absurd hj List.not_mem_nil⟩
    intro j hj
    exact ⟨j, hj.resolve_left List.not_mem_nil, ReflTransGen.refl⟩
  unfold requiredSet
  rw [closureLoop_spec hinit (by rw [unexplored_nil]; omega)]
  simp only [List.mem_filterMap]
  constructor
  · rintro ⟨s, ⟨t, ht, hs⟩, hsi⟩
    exact ⟨t, ht, s, hs, hsi⟩
  · rintro ⟨t, ht, s, hs, hsi⟩
    exact ⟨s, ⟨t, ht, hs⟩, hsi⟩

/-! ### From positions to ids -/

theorem mem_idsAt {spec : GraphSpec} {is : List Nat} {id : NodeId} :
    id ∈ idsAt spec is ↔ ∃ i ∈ is, ∃ n, spec.nodes[i]? = some n ∧ n.id = id := by
  simp [idsAt, idAt]

theorem idsAt_range (spec : GraphSpec) :
    idsAt spec (List.range spec.nodes.length) = spec.nodes.map (·.id) := by
  have h : ∀ nodes : List NodeSpec, (List.range nodes.length).filterMap
      (fun i => (nodes[i]?).map (·.id)) = nodes.map (·.id) := by
    intro nodes
    induction nodes using List.reverseRecOn with
    | nil => rfl
    | append_singleton nodes n ih =>
      rw [List.length_append, List.length_singleton, List.range_succ, List.filterMap_append,
        List.map_append, ← ih]
      congr 1
      · refine List.filterMap_congr ?_
        intro i hi
        rw [List.getElem?_append_left (List.mem_range.mp hi)]
      · simp
  exact h spec.nodes

/-- A split of the ids comes from a split of the positions. -/
theorem idsAt_split {spec : GraphSpec} {is : List Nat} {before after : List NodeId} {id : NodeId}
    (h : idsAt spec is = before ++ id :: after) : ∃ l₁ i l₂ n, is = l₁ ++ i :: l₂ ∧
      idsAt spec l₁ = before ∧ spec.nodes[i]? = some n ∧ n.id = id := by
  obtain ⟨l₁, rest, rfl, hbefore, hrest⟩ := List.filterMap_eq_append_iff.mp h
  obtain ⟨skip, i, l₂, rfl, hskip, hi, -⟩ := List.filterMap_eq_cons_iff.mp hrest
  obtain ⟨n, hn, hid⟩ := Option.map_eq_some_iff.mp hi
  refine ⟨l₁ ++ skip, i, l₂, n, by rw [List.append_assoc], ?_, hn, hid⟩
  rw [idsAt, List.filterMap_append, List.filterMap_eq_nil_iff.mpr hskip, List.append_nil]
  exact hbefore

theorem idsAt_filter {spec : GraphSpec} {is : List Nat} {p : Nat → Bool} {q : NodeId → Bool}
    (h : ∀ i ∈ is, ∀ n, spec.nodes[i]? = some n → p i = q n.id) :
    idsAt spec (is.filter p) = (idsAt spec is).filter q := by
  rw [idsAt, idsAt, List.filterMap_filter, List.filter_filterMap]
  refine List.filterMap_congr ?_
  intro i hi
  unfold idAt
  cases hn : spec.nodes[i]? with
  | none => simp
  | some n =>
    have hp := h i hi n hn
    by_cases hq : q n.id = true <;> simp [Option.filter, hp, hq]

/-! ### What admission returns -/

/-- A target reaches the node along dependencies. -/
def Required (spec : GraphSpec) (id : NodeId) : Prop :=
  ∃ t ∈ spec.targets, ReflTransGen (DependsOn spec) t.nodeId id

theorem reaches_refl_iff {spec : GraphSpec} (hnd : DistinctIds spec)
    (hclean : ∀ node ∈ spec.nodes, ∀ dep ∈ node.deps, CleanDep spec node dep) {i p : Nat}
    {n m : NodeSpec} (hn : spec.nodes[i]? = some n) (hm : spec.nodes[p]? = some m) :
    ReflTransGen (Edge (depsOf spec)) i p ↔ ReflTransGen (DependsOn spec) n.id m.id := by
  have hsame : p = i ↔ m.id = n.id := by
    constructor
    · rintro rfl
      rw [Option.some.inj (hm.symm.trans hn)]
    · exact position_unique hnd hm hn
  rw [Relation.reflTransGen_iff_eq_or_transGen, Relation.reflTransGen_iff_eq_or_transGen, hsame,
    reaches_iff hnd hclean hn hm]

theorem Admissible.mem_requiredSet {spec : GraphSpec} (h : Admissible spec) {i : Nat} {n : NodeSpec}
    (hn : spec.nodes[i]? = some n) :
    i ∈ requiredSet spec (depsOf spec) ↔ Required spec n.id := by
  have hnd := h.identity.nodes
  rw [Graph.mem_requiredSet]
  constructor
  · rintro ⟨t, ht, s, hs, hsi⟩
    obtain ⟨m, hm, hid⟩ := (indexOf_eq_some hnd).mp hs
    rw [reaches_refl_iff hnd h.deps hm hn, hid] at hsi
    exact ⟨t, ht, hsi⟩
  · rintro ⟨t, ht, hreach⟩
    -- A target that reaches a node of the graph is a node of the graph.
    have hnode : ∃ m ∈ spec.nodes, m.id = t.nodeId := by
      rcases ReflTransGen.cases_head hreach with heq | ⟨b, ⟨m, hm, hid, -⟩, -⟩
      · exact ⟨n, List.mem_of_getElem? hn, heq.symm⟩
      · exact ⟨m, hm, hid⟩
    obtain ⟨m, hm, hid⟩ := hnode
    obtain ⟨s, hs⟩ := List.getElem?_of_mem hm
    refine ⟨t, ht, s, (indexOf_eq_some hnd).mpr ⟨m, hs, hid⟩, ?_⟩
    rw [reaches_refl_iff hnd h.deps hs hn, hid]
    exact hreach

open Classical in
/-- The order of an admitted graph lists every node once and takes at each position the
first node of the document whose producers are all placed; the required nodes are those
a target reaches and the optional ones the others, both in order. -/
theorem admitted_order {spec : GraphSpec} {g : AdmittedGraph} (h : admitGraph spec = .ok g) :
    g.order.Perm (spec.nodes.map (·.id)) ∧
    (∀ before id after, g.order = before ++ id :: after →
      (∀ p, DependsOn spec id p → p ∈ before) ∧
      ∃ (i : Nat) (n : NodeSpec), spec.nodes[i]? = some n ∧ n.id = id ∧
        ∀ (j : Nat) (m : NodeSpec), spec.nodes[j]? = some m → m.id ∉ before →
          (∀ p, DependsOn spec m.id p → p ∈ before) → i ≤ j) ∧
    g.required = g.order.filter (Required spec ·) ∧
    g.optional = g.order.filter (¬ Required spec ·) := by
  have hadm := admitGraph_admissible h
  have hnd := hadm.identity.nodes
  have hlists := depsOf_lists spec
  have hacyc := (acyclic_iff hnd hadm.deps).mpr hadm.acyclic
  have hperm := kahn_perm hlists hacyc
  rw [depsOf_length] at hperm
  rw [(admitGraph_ok h).2]
  refine ⟨?_, ?_, ?_, ?_⟩
  · have hids := hperm.filterMap (idAt spec)
    rwa [← idsAt, ← idsAt, idsAt_range] at hids
  · intro before id after hsplit
    obtain ⟨l₁, i, l₂, n, hpos, hbefore, hn, hid⟩ := idsAt_split hsplit
    have hplaced :
        ∀ {j : Nat} {m : NodeSpec}, spec.nodes[j]? = some m → (m.id ∈ before ↔ j ∈ l₁) := by
      intro j m hm
      rw [← hbefore, mem_idsAt]
      constructor
      · rintro ⟨k, hk, m', hm', hsame⟩
        rwa [position_unique hnd hm hm' hsame.symm]
      · exact fun hj => ⟨j, hj, m, hm, rfl⟩
    have hdeps : ∀ {j : Nat} {m : NodeSpec}, spec.nodes[j]? = some m →
        ((∀ p, DependsOn spec m.id p → p ∈ before) ↔ ∀ q, Edge (depsOf spec) j q → q ∈ l₁) := by
      intro j m hm
      constructor
      · intro hall q hq
        have hlt := hlists.lt j q hq
        rw [depsOf_length] at hlt
        have hk := List.getElem?_eq_getElem hlt
        exact (hplaced hk).mp (hall _ ((edge_dependsOn hnd hadm.deps hm hk).mp hq))
      · intro hall p hp
        obtain ⟨m', hm', hid', dep, hdep, htarget⟩ := hp
        have hsame : m' = m := node_unique hnd hm' (List.mem_of_getElem? hm) hid'
        subst hsame
        obtain ⟨q, hq⟩ := resolveDep_eq_ok hnd (hadm.deps m' hm' dep hdep)
        obtain ⟨k, hk, hkid⟩ := indexOf_lt (resolveDep_ok hq)
        rw [← htarget, ← hkid, hplaced hk]
        exact hall q (edge_iff.mpr ⟨m', hm, dep, hdep, [], hq⟩)
    refine ⟨?_, i, n, hn, hid, ?_⟩
    · rw [← hid, hdeps hn]
      exact (kahn_spec hlists).1.ordered l₁ i l₂ hpos
    · intro j m hm hout hall
      refine kahn_earliest hlists l₁ i l₂ hpos j ?_ (mt (hplaced hm).mpr hout) ((hdeps hm).mp hall)
      rw [depsOf_length]
      exact (List.getElem?_eq_some_iff.mp hm).1
  · refine idsAt_filter ?_
    intro i _ n hn
    exact decide_eq_decide.mpr (hadm.mem_requiredSet hn)
  · refine idsAt_filter ?_
    intro i _ n hn
    exact decide_eq_decide.mpr (not_congr (hadm.mem_requiredSet hn))

open Pilot in
theorem admitted_order_twoGates : ∃ g, admitGraph (twoGates []) = .ok g ∧
    g.order = [gateA, gateB, taskA, taskB] ∧ g.order.Perm ((twoGates []).nodes.map (·.id)) := by
  have hg := get_eq (x := admitGraph (twoGates [])) (by decide +kernel)
  exact ⟨_, hg, by decide +kernel, (admitted_order hg).1⟩

end Graph

end Checkspan
