import Mathlib.Data.List.Count
import Checkspan.Graph
import Checkspan.Lib.Walks

/-!
# The searches of graph admission

Kahn's loop lists every node exactly when the dependencies are acyclic, the cycle
walk never fails on what it leaves over, and the path search finds a path exactly
when there is one.
-/

namespace Checkspan

namespace Graph

open Walks Relation

/-- The node at position `i` depends on the one at `p`. -/
def Edge (deps : List (List Nat)) (i p : Nat) : Prop := p ∈ producersAt deps i

/-- Producer lists as `deps_of` holds them: without repeats, inside the vector. -/
structure DepLists (deps : List (List Nat)) : Prop where
  nodup : ∀ i, (producersAt deps i).Nodup
  lt : ∀ i p, Edge deps i p → p < deps.length

theorem Edge.source_lt {deps : List (List Nat)} {i p : Nat} (h : Edge deps i p) :
    i < deps.length := by
  by_contra hge
  simp [Edge, producersAt, List.getElem?_eq_none (by omega : deps.length ≤ i)] at h

theorem mem_dependentsAt {deps : List (List Nat)} {i c : Nat} :
    c ∈ dependentsAt deps i ↔ Edge deps c i := by
  simp only [dependentsAt, List.mem_filter, List.mem_range, decide_eq_true_eq]
  exact ⟨fun h => h.2, fun h => ⟨Edge.source_lt h, h⟩⟩

theorem dependentsAt_nodup (deps : List (List Nat)) (i : Nat) : (dependentsAt deps i).Nodup :=
  List.Nodup.filter _ List.nodup_range

/-! ### Kahn's loop -/

/-- The indegree a position has left. -/
def KahnState.degree (st : KahnState) (i : Nat) : Nat := (st.indegree[i]?).getD 0

theorem isRemaining_iff {st : KahnState} {i : Nat} : isRemaining st i = true ↔ 0 < st.degree i := by
  simp [isRemaining, KahnState.degree]

/-- The producers of `i` that are not placed yet. -/
def pending (deps : List (List Nat)) (order : List Nat) (i : Nat) : Nat :=
  (producersAt deps i).countP (· ∉ order)

/-- The loop state while the consumers in `owed` still wait for their decrement. -/
structure KahnInv (deps : List (List Nat)) (owed : List Nat) (st : KahnState) : Prop where
  size : st.indegree.length = deps.length
  degree : ∀ i, i < deps.length →
    st.degree i = pending deps st.order i + (if i ∈ owed then 1 else 0)
  zero : ∀ i, i < deps.length → (i ∈ st.ready ∨ i ∈ st.order ↔ st.degree i = 0)
  nodup : (st.ready ++ st.order).Nodup
  lt : ∀ i, i ∈ st.ready ++ st.order → i < deps.length
  ordered : Ordered (Edge deps) st.order

@[simp] theorem release_order (st : KahnState) (d : Nat) : (release st d).order = st.order := by
  unfold release
  dsimp only
  split <;> rfl

theorem release_degree {st : KahnState} {d : Nat} (hd : d < st.indegree.length) (i : Nat) :
    (release st d).degree i = if i = d then st.degree d - 1 else st.degree i := by
  have hind : (release st d).indegree = st.indegree.modify d (· - 1) := by
    unfold release
    dsimp only
    split <;> rfl
  unfold KahnState.degree
  rw [hind, List.getElem?_modify]
  by_cases hid : i = d
  · subst hid
    simp [hd]
  · simp [hid, Ne.symm hid]

theorem release_ready {st : KahnState} {d : Nat} (hd : d < st.indegree.length) :
    (release st d).ready = if st.degree d - 1 = 0 then d :: st.ready else st.ready := by
  have hdeg : ((st.indegree.modify d (· - 1))[d]?).getD 0 = st.degree d - 1 := by
    simp [KahnState.degree, hd]
  unfold release
  dsimp only
  rw [hdeg]
  split <;> rfl

theorem KahnInv.release {deps : List (List Nat)} {owed : List Nat} {d : Nat} {st : KahnState}
    (h : KahnInv deps (d :: owed) st) (hnew : d ∉ owed) (hlt : d < deps.length) :
    KahnInv deps owed (Graph.release st d) := by
  have hd : d < st.indegree.length := by
    rw [h.size]
    exact hlt
  have hdeg : st.degree d = pending deps st.order d + 1 := by
    have hdd := h.degree d hlt
    simpa using hdd
  have hout : d ∉ st.ready ∧ d ∉ st.order := by
    have hz := (h.zero d hlt).not.mpr (by omega)
    exact not_or.mp hz
  have hready : ∀ i, i ∈ (Graph.release st d).ready ↔
      i ∈ st.ready ∨ (i = d ∧ st.degree d - 1 = 0) := by
    intro i
    rw [release_ready hd]
    split <;> rename_i hz
    · simp [hz, or_comm]
    · simp [hz]
  refine ⟨?_, ?_, ?_, ?_, ?_, ?_⟩
  · have hsize := h.size
    unfold Graph.release
    dsimp only
    split <;> simpa using hsize
  · intro i hi
    rw [release_degree hd, release_order]
    by_cases hid : i = d
    · subst hid
      rw [if_pos rfl, if_neg hnew]
      omega
    · have hdi := h.degree i hi
      rw [if_neg hid, hdi]
      simp [hid]
  · intro i hi
    rw [hready, release_degree hd, release_order]
    by_cases hid : i = d
    · subst hid
      simp [hout.1, hout.2]
    · simpa [hid] using h.zero i hi
  · rw [release_order, release_ready hd]
    have hnd := h.nodup
    split
    · rw [List.cons_append, List.nodup_cons, List.mem_append, not_or]
      exact ⟨hout, hnd⟩
    · exact hnd
  · intro i hi
    rw [release_order, List.mem_append, hready] at hi
    rcases hi with (hi | ⟨rfl, -⟩) | hi
    · exact h.lt i (List.mem_append_left _ hi)
    · exact hlt
    · exact h.lt i (List.mem_append_right _ hi)
  · rw [release_order]
    exact h.ordered

theorem KahnInv.releases {deps : List (List Nat)} {owed : List Nat} {st : KahnState}
    (h : KahnInv deps owed st) (hnd : owed.Nodup) (hlt : ∀ d, d ∈ owed → d < deps.length) :
    KahnInv deps [] (owed.foldl Graph.release st) := by
  induction owed generalizing st with
  | nil => exact h
  | cons d rest ih =>
    have hnew : d ∉ rest := (List.nodup_cons.mp hnd).1
    have hstep := h.release hnew (hlt d (List.mem_cons_self ..))
    exact ih hstep (List.nodup_cons.mp hnd).2 (fun x hx => hlt x (List.mem_cons_of_mem _ hx))

@[simp] theorem releases_order (owed : List Nat) (st : KahnState) :
    (owed.foldl release st).order = st.order := by
  induction owed generalizing st with
  | nil => rfl
  | cons d rest ih =>
    rw [List.foldl_cons, ih, release_order]

theorem popMin_eq_none {ready : List Nat} (h : popMin ready = none) : ready = [] := by
  unfold popMin at h
  split at h
  · exact List.min?_eq_none_iff.mp ‹_›
  · cases h

theorem popMin_eq_some {ready rest : List Nat} {i : Nat} (h : popMin ready = some (i, rest)) :
    i ∈ ready ∧ rest = ready.erase i ∧ ∀ j, j ∈ ready → i ≤ j := by
  unfold popMin at h
  split at h
  · cases h
  · rename_i hmin
    cases h
    obtain ⟨hmem, hle⟩ := List.min?_eq_some_iff.mp hmin
    exact ⟨hmem, rfl, hle⟩

/-- Placing a node settles one pending producer of each of its consumers. -/
theorem pending_place {deps : List (List Nat)} (hdeps : DepLists deps) {order : List Nat} {i : Nat}
    (hi : i ∉ order) (j : Nat) :
    pending deps order j =
      pending deps (order ++ [i]) j + (if j ∈ dependentsAt deps i then 1 else 0) := by
  have hnd := hdeps.nodup j
  simp only [mem_dependentsAt, Edge, pending]
  generalize producersAt deps j = l at hnd
  induction l with
  | nil => simp
  | cons p rest ih =>
    have hp := (List.nodup_cons.mp hnd).1
    have hrest := ih (List.nodup_cons.mp hnd).2
    rw [List.countP_cons, List.countP_cons, hrest]
    by_cases hpi : p = i
    · subst hpi
      simp [hi, hp]
    · have hip : i ≠ p := Ne.symm hpi
      simp only [List.mem_append, List.mem_cons, List.not_mem_nil, or_false, hpi, hip, false_or]
      omega

theorem KahnInv.pop {deps : List (List Nat)} (hdeps : DepLists deps) {st : KahnState}
    (h : KahnInv deps [] st) {i : Nat} (hi : i ∈ st.ready) :
    KahnInv deps (dependentsAt deps i)
      { st with ready := st.ready.erase i, order := st.order ++ [i] } := by
  have hilt : i < deps.length := h.lt i (List.mem_append_left _ hi)
  have hnd := List.nodup_append.mp h.nodup
  have hout : i ∉ st.order := fun ho => hnd.2.2 i hi i ho rfl
  have hnone : ∀ p, Edge deps i p → p ∈ st.order := by
    have hz := (h.zero i hilt).mp (Or.inl hi)
    have hp : pending deps st.order i = 0 := by
      have hd := h.degree i hilt
      omega
    intro p hip
    have hcount := List.countP_eq_zero.mp hp p hip
    simpa using hcount
  have hmem :
      ∀ j, (j ∈ st.ready.erase i ∨ j ∈ st.order ++ [i]) ↔ (j ∈ st.ready ∨ j ∈ st.order) := by
    intro j
    rw [hnd.1.mem_erase_iff, List.mem_append, List.mem_singleton]
    by_cases hj : j = i
    · subst hj
      simp [hi]
    · simp [hj]
  refine ⟨h.size, ?_, ?_, ?_, ?_, h.ordered.snoc hnone⟩
  · intro j hj
    have hd := h.degree j hj
    rw [if_neg List.not_mem_nil, Nat.add_zero, pending_place hdeps hout] at hd
    exact hd
  · intro j hj
    exact (hmem j).trans (h.zero j hj)
  · have hperm : (st.ready.erase i ++ (st.order ++ [i])).Perm (st.ready ++ st.order) := by
      rw [← List.append_assoc]
      refine (List.perm_append_singleton i _).trans ?_
      rw [← List.cons_append]
      exact List.Perm.append_right _ (List.perm_cons_erase hi).symm
    exact hperm.nodup_iff.mpr h.nodup
  · intro j hj
    rw [List.mem_append, hmem, ← List.mem_append] at hj
    exact h.lt j hj

theorem KahnInv.order_length_le {deps : List (List Nat)} {owed : List Nat} {st : KahnState}
    (h : KahnInv deps owed st) : st.order.length ≤ deps.length :=
  length_le_of_nodup_lt (List.nodup_append.mp h.nodup).2.1
    (fun i hi => h.lt i (List.mem_append_right _ hi))

/-- The loop keeps its invariant and, with fuel for every node, empties the queue. -/
theorem kahnLoop_spec {deps : List (List Nat)} (hdeps : DepLists deps) {fuel : Nat} {st : KahnState}
    (h : KahnInv deps [] st) (hfuel : deps.length < fuel + st.order.length) :
    KahnInv deps [] (kahnLoop deps fuel st) ∧ (kahnLoop deps fuel st).ready = [] := by
  induction fuel generalizing st with
  | zero =>
    have hle := h.order_length_le
    omega
  | succ fuel ih =>
    unfold kahnLoop
    cases hpop : popMin st.ready with
    | none => exact ⟨h, popMin_eq_none hpop⟩
    | some out =>
      obtain ⟨i, rest⟩ := out
      obtain ⟨hi, hrest, -⟩ := popMin_eq_some hpop
      subst hrest
      have hstep := (h.pop hdeps hi).releases (dependentsAt_nodup deps i)
        (fun d hd => Edge.source_lt (mem_dependentsAt.mp hd))
      refine ih hstep ?_
      rw [releases_order, List.length_append, List.length_singleton]
      omega

theorem kahn_init {deps : List (List Nat)} :
    KahnInv deps []
      { indegree := deps.map (·.length)
        ready := (List.range deps.length).filter (fun i => (producersAt deps i).isEmpty)
        order := [] } := by
  have hdeg : ∀ i, i < deps.length →
      ((deps.map (·.length))[i]?).getD 0 = (producersAt deps i).length := by
    intro i hi
    simp [producersAt, List.getElem?_map, List.getElem?_eq_getElem hi]
  refine ⟨by simp, ?_, ?_, ?_, ?_, Ordered.nil⟩
  · intro i hi
    rw [KahnState.degree, hdeg i hi]
    simp [pending]
  · intro i hi
    simp only [KahnState.degree, hdeg i hi, List.mem_filter, List.mem_range, hi, true_and,
      List.not_mem_nil, or_false, List.isEmpty_iff, List.length_eq_zero_iff]
  · rw [List.append_nil]
    exact List.Nodup.filter _ List.nodup_range
  · intro i hi
    rw [List.append_nil, List.mem_filter, List.mem_range] at hi
    exact hi.1

theorem kahn_spec {deps : List (List Nat)} (hdeps : DepLists deps) :
    KahnInv deps [] (kahn deps) ∧ (kahn deps).ready = [] :=
  kahnLoop_spec hdeps kahn_init (by simp)

theorem kahn_order_nodup {deps : List (List Nat)} (hdeps : DepLists deps) :
    (kahn deps).order.Nodup :=
  (List.nodup_append.mp (kahn_spec hdeps).1.nodup).2.1

/-- What the loop leaves over is what it did not place. -/
theorem kahn_remaining {deps : List (List Nat)} (hdeps : DepLists deps) {i : Nat}
    (hi : i < deps.length) : isRemaining (kahn deps) i = true ↔ i ∉ (kahn deps).order := by
  obtain ⟨hinv, hready⟩ := kahn_spec hdeps
  have hz := hinv.zero i hi
  rw [hready] at hz
  simp only [List.not_mem_nil, false_or] at hz
  rw [isRemaining_iff, hz]
  omega

/-- A leftover node has a leftover producer. -/
theorem kahn_leftover {deps : List (List Nat)} (hdeps : DepLists deps) {i : Nat}
    (hi : i < deps.length) (hr : isRemaining (kahn deps) i = true) :
    ∃ p, Edge deps i p ∧ isRemaining (kahn deps) p = true := by
  have hinv := (kahn_spec hdeps).1
  have hpos : 0 < pending deps (kahn deps).order i := by
    have hd := hinv.degree i hi
    rw [isRemaining_iff] at hr
    simpa [hd] using hr
  obtain ⟨p, hp, hnot⟩ := List.countP_pos_iff.mp hpos
  exact ⟨p, hp, (kahn_remaining hdeps (hdeps.lt i p hp)).mpr (by simpa using hnot)⟩

/-- The loop places every node exactly when the dependencies are acyclic. -/
theorem kahn_complete {deps : List (List Nat)} (hdeps : DepLists deps) :
    deps.length ≤ (kahn deps).order.length ↔ Acyclic (Edge deps) := by
  have hinv := (kahn_spec hdeps).1
  have hlt : ∀ i ∈ (kahn deps).order, i < deps.length :=
    fun i hi => hinv.lt i (List.mem_append_right _ hi)
  constructor
  · intro hlen a hc
    obtain ⟨b, hab, -⟩ := TransGen.head'_iff.mp hc
    have ha := mem_of_nodup_lt_length (kahn_order_nodup hdeps) hlt hlen (Edge.source_lt hab)
    exact hinv.ordered.no_cycle (kahn_order_nodup hdeps) ha hc
  · intro hacyc
    by_contra hshort
    let leftover := (List.range deps.length).filter (isRemaining (kahn deps))
    have hmem : ∀ i, i ∈ leftover ↔ i < deps.length ∧ isRemaining (kahn deps) i = true := by
      intro i
      simp [leftover]
    have hne : leftover ≠ [] := by
      intro hnil
      have hsub : List.range deps.length ⊆ (kahn deps).order := by
        intro i hi
        have hi' := List.mem_range.mp hi
        by_contra hout
        have hin := (hmem i).mpr ⟨hi', (kahn_remaining hdeps hi').mpr hout⟩
        rw [hnil] at hin
        cases hin
      have hle := (List.nodup_range.subperm hsub).length_le
      rw [List.length_range] at hle
      exact hshort hle
    have hsucc : ∀ a ∈ leftover, ∃ b ∈ leftover, Edge deps a b := by
      intro a ha
      obtain ⟨hlta, hra⟩ := (hmem a).mp ha
      obtain ⟨p, hap, hrp⟩ := kahn_leftover hdeps hlta hra
      exact ⟨p, (hmem p).mpr ⟨hdeps.lt a p hap, hrp⟩, hap⟩
    obtain ⟨a, -, hc⟩ := exists_cycle hne hsucc
    exact hacyc a hc

/-! ### The cycle walk -/

/-- The walk ends, within its fuel, in a cycle of the edges. -/
theorem cycleWalk_some {deps : List (List Nat)} (hdeps : DepLists deps) {fuel : Nat}
    {path : List Nat} {start current : Nat} (hnd : path.Nodup) (hlt : ∀ i ∈ path, i < deps.length)
    (hwalk : Walk (Edge deps) start current path) (hr : isRemaining (kahn deps) current = true)
    (hfuel : deps.length < fuel + path.length) :
    ∃ cycle, cycleWalk deps (kahn deps) fuel path current = some cycle ∧
    Ring (Edge deps) cycle := by
  induction fuel generalizing path current with
  | zero =>
    have hle := length_le_of_nodup_lt hnd hlt
    omega
  | succ fuel ih =>
    unfold cycleWalk
    have hcur : current ∈ path := List.mem_of_getLast? hwalk.last
    obtain ⟨p, hcp, hrp⟩ := kahn_leftover hdeps (hlt current hcur) hr
    cases hfind : (producersAt deps current).find? (isRemaining (kahn deps)) with
    | none =>
      have hnone := List.find?_eq_none.mp hfind p hcp
      exact absurd hrp hnone
    | some next =>
      have hnext : Edge deps current next := List.mem_of_find?_eq_some hfind
      dsimp only
      cases hpos : path.idxOf? next with
      | some pos =>
        obtain ⟨hposlt, hat, -⟩ := List.findIdx?_eq_some_iff_getElem.mp hpos
        have hhead : (path.drop pos).head? = some next := by
          rw [List.head?_drop, List.getElem?_eq_getElem hposlt]
          simpa using hat
        have hlast : (path.drop pos).getLast? = some current := by
          rw [List.getLast?_drop, if_neg (by omega), hwalk.last]
        refine ⟨path.drop pos, rfl, ?_, hnd.sublist (List.drop_sublist pos path),
          hwalk.chain.drop pos, ?_⟩
        · intro hnil
          rw [hnil] at hhead
          cases hhead
        · intro a b ha hb
          rw [hlast] at ha
          rw [hhead] at hb
          cases ha
          cases hb
          exact hnext
      | none =>
        have hnew : next ∉ path := List.idxOf?_eq_none_iff.mp hpos
        refine ih ?_ ?_ (hwalk.snoc hnext) (List.find?_some hfind) ?_
        · rw [List.nodup_append]
          refine ⟨hnd, List.nodup_singleton next, ?_⟩
          intro a ha b hb hab
          rw [List.mem_singleton.mp hb] at hab
          exact hnew (hab ▸ ha)
        · intro i hi
          rcases List.mem_append.mp hi with hi | hi
          · exact hlt i hi
          · rw [List.mem_singleton.mp hi]
            exact hdeps.lt current next hnext
        · rw [List.length_append, List.length_singleton]
          omega

theorem findCycle_some {deps : List (List Nat)} (hdeps : DepLists deps)
    (hshort : (kahn deps).order.length < deps.length) :
    ∃ cycle, findCycle deps (kahn deps) = some cycle ∧ Ring (Edge deps) cycle := by
  unfold findCycle
  cases hfind : (List.range deps.length).find? (isRemaining (kahn deps)) with
  | none =>
    have hsub : List.range deps.length ⊆ (kahn deps).order := by
      intro i hi
      have hnone := List.find?_eq_none.mp hfind i hi
      rw [kahn_remaining hdeps (List.mem_range.mp hi)] at hnone
      exact Decidable.not_not.mp hnone
    have hle := (List.nodup_range.subperm hsub).length_le
    rw [List.length_range] at hle
    omega
  | some start =>
    have hstart : start < deps.length := List.mem_range.mp (List.mem_of_find?_eq_some hfind)
    refine cycleWalk_some hdeps (List.nodup_singleton start) ?_ (Walk.single start)
      (List.find?_some hfind) (by simp only [List.length_singleton]; omega)
    intro i hi
    rw [List.mem_singleton.mp hi]
    exact hstart

/-! ### The path search -/

/-- The search state while the producers `owed` of `current` are still to scan. -/
structure PathInv (deps : List (List Nat)) (source target current : Nat) (owed : List Nat)
    (st : PathState) : Prop where
  nodup : st.seen.Nodup
  lt : ∀ i, i ∈ st.seen → i < deps.length
  started : source ∈ st.seen
  missed : target ∉ st.seen
  queued : ∀ i, i ∈ st.queue → i ∈ st.seen
  reached : ∀ i, i ∈ st.seen → ReflTransGen (Edge deps) source i
  closed : ∀ i, i ∈ st.seen → i ∉ st.queue →
    ∀ p, Edge deps i p → p ∈ st.seen ∨ (i = current ∧ p ∈ owed)

/-- Scanning the producers of one node finds the target, or keeps the invariant and
queues what it marks. -/
theorem pathExpand_spec {deps : List (List Nat)} (hdeps : DepLists deps) (fuel : Nat)
    {source target current : Nat} {owed : List Nat} {st : PathState}
    (h : PathInv deps source target current owed st) (hcur : current ∈ st.seen)
    (hedge : ∀ p ∈ owed, Edge deps current p) :
    match pathExpand target current fuel st owed with
    | .inl st' => PathInv deps source target current [] st' ∧
        st'.queue.length + st.seen.length = st.queue.length + st'.seen.length
    | .inr _ => TransGen (Edge deps) source target := by
  induction owed generalizing st with
  | nil => exact ⟨h, rfl⟩
  | cons next rest ih =>
    have hnext : Edge deps current next := hedge next (List.mem_cons_self ..)
    have hrest : ∀ p ∈ rest, Edge deps current p := fun p hp => hedge p (List.mem_cons_of_mem _ hp)
    unfold pathExpand
    by_cases hseen : next ∈ st.seen
    · rw [if_pos hseen]
      refine ih ⟨h.nodup, h.lt, h.started, h.missed, h.queued, h.reached, ?_⟩ hcur hrest
      intro i hi hq p hp
      rcases h.closed i hi hq p hp with hs | ⟨hic, hpo⟩
      · exact Or.inl hs
      · rcases List.mem_cons.mp hpo with rfl | hpr
        · exact Or.inl hseen
        · exact Or.inr ⟨hic, hpr⟩
    · rw [if_neg hseen]
      have hreach : TransGen (Edge deps) source next :=
        TransGen.tail' (h.reached current hcur) hnext
      by_cases htarget : next = target
      · subst htarget
        simpa using hreach
      · simp only [htarget, if_false]
        have hinv : PathInv deps source target current rest
            { previous := (next, current) :: st.previous, queue := st.queue ++ [next],
              seen := next :: st.seen } := by
          refine ⟨List.nodup_cons.mpr ⟨hseen, h.nodup⟩, ?_, List.mem_cons_of_mem _ h.started, ?_,
            ?_, ?_, ?_⟩
          · intro i hi
            rcases List.mem_cons.mp hi with rfl | hi
            · exact hdeps.lt current i hnext
            · exact h.lt i hi
          · intro hmem
            rcases List.mem_cons.mp hmem with heq | hmem
            · exact htarget heq.symm
            · exact h.missed hmem
          · intro i hi
            rcases List.mem_append.mp hi with hi | hi
            · exact List.mem_cons_of_mem _ (h.queued i hi)
            · rw [List.mem_singleton.mp hi]
              exact List.mem_cons_self ..
          · intro i hi
            rcases List.mem_cons.mp hi with rfl | hi
            · exact hreach.to_reflTransGen
            · exact h.reached i hi
          · intro i hi hq p hp
            rw [List.mem_append, List.mem_singleton, not_or] at hq
            have hold : i ∈ st.seen := (List.mem_cons.mp hi).resolve_left hq.2
            rcases h.closed i hold hq.1 p hp with hs | ⟨hic, hpo⟩
            · exact Or.inl (List.mem_cons_of_mem _ hs)
            · rcases List.mem_cons.mp hpo with rfl | hpr
              · exact Or.inl (List.mem_cons_self ..)
              · exact Or.inr ⟨hic, hpr⟩
        have hout := ih hinv (List.mem_cons_of_mem _ hcur) hrest
        split at hout
        · refine ⟨hout.1, ?_⟩
          have hlen := hout.2
          simp only [List.length_append, List.length_cons, List.length_nil] at hlen
          omega
        · exact hout

/-- With fuel for every node, the search finds a path exactly when there is one. -/
theorem pathLoop_spec {deps : List (List Nat)} (hdeps : DepLists deps) {source target : Nat}
    {fuel current : Nat} {st : PathState} (h : PathInv deps source target current [] st)
    (hfuel : st.queue.length + deps.length < fuel + st.seen.length) :
    (pathLoop deps target fuel st).isSome = true ↔ TransGen (Edge deps) source target := by
  induction fuel generalizing st current with
  | zero =>
    have hle := length_le_of_nodup_lt h.nodup h.lt
    omega
  | succ fuel ih =>
    unfold pathLoop
    cases hq : st.queue with
    | nil =>
      simp only [Option.isSome_none, Bool.false_eq_true, false_iff]
      intro hpath
      have hclosed : ∀ i p, i ∈ st.seen → Edge deps i p → p ∈ st.seen := by
        intro i p hi hp
        rcases h.closed i hi (by simp [hq]) p hp with hs | ⟨-, hpo⟩
        · exact hs
        · cases hpo
      exact h.missed (closed_reaches hclosed h.started hpath.to_reflTransGen)
    | cons next queue =>
      have hnext : next ∈ st.seen := h.queued next (by simp [hq])
      have hinv : PathInv deps source target next (producersAt deps next)
          { st with queue := queue } := by
        refine ⟨h.nodup, h.lt, h.started, h.missed, ?_, h.reached, ?_⟩
        · intro i hi
          exact h.queued i (by rw [hq]; exact List.mem_cons_of_mem _ hi)
        · intro i hi hnq p hp
          by_cases hin : i = next
          · subst hin
            exact Or.inr ⟨rfl, hp⟩
          · have hout : i ∉ st.queue := by
              rw [hq, List.mem_cons, not_or]
              exact ⟨hin, hnq⟩
            rcases h.closed i hi hout p hp with hs | ⟨-, hpo⟩
            · exact Or.inl hs
            · cases hpo
      have hout := pathExpand_spec hdeps (deps.length + 1) hinv hnext (fun p hp => hp)
      dsimp only
      split at hout
      · rename_i st' heq
        rw [heq]
        refine ih hout.1 ?_
        have hlen := hout.2
        rw [hq, List.length_cons] at hfuel
        dsimp only at hlen
        omega
      · rename_i path heq
        rw [heq]
        simpa using hout

theorem dependencyPath_isSome {deps : List (List Nat)} (hdeps : DepLists deps) {source target : Nat}
    (hlt : source < deps.length) (hne : source ≠ target) :
    (dependencyPath deps source target).isSome = true ↔ TransGen (Edge deps) source target := by
  have hinv : PathInv deps source target source []
      { previous := [], queue := [source], seen := [source] } := by
    refine ⟨List.nodup_singleton source, ?_, List.mem_singleton_self source, ?_, fun _ hi => hi,
      ?_, ?_⟩
    · intro i hi
      rw [List.mem_singleton.mp hi]
      exact hlt
    · intro hmem
      exact hne (List.mem_singleton.mp hmem).symm
    · intro i hi
      rw [List.mem_singleton.mp hi]
    · intro i hi hq
      exact absurd hi hq
  unfold dependencyPath
  refine pathLoop_spec hdeps hinv ?_
  simp only [List.length_singleton]
  omega

/-- The chain between two positions is there exactly when one is the other, or they
are joined by a dependency path either way. -/
theorem gateChain_isSome {deps : List (List Nat)} (hdeps : DepLists deps) {gi ti : Nat}
    (hg : gi < deps.length) (ht : ti < deps.length) :
    (gateChain deps gi ti).isSome = true ↔
      gi = ti ∨ TransGen (Edge deps) gi ti ∨ TransGen (Edge deps) ti gi := by
  unfold gateChain
  by_cases heq : gi = ti
  · simp [heq]
  · rw [if_neg heq]
    have hdown := dependencyPath_isSome hdeps hg heq
    have hback := dependencyPath_isSome hdeps ht (Ne.symm heq)
    simp only [heq, false_or, ← hdown, ← hback, Option.orElse_eq_or,
      Option.isSome_or, Bool.or_eq_true]

end Graph

end Checkspan
