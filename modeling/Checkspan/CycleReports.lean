import Checkspan.AdmittedOrder

/-!
# The cycles and wait chains admission reports

The search for a wait chain keeps for each found position the one it was found from, so
the path it reads back is a walk. Every graph with a cycle gets one report, of a ring of
dependencies; every other graph gets one walk for each gate joined to what it resolves.
-/

namespace Checkspan

namespace Graph

open Walks Relation

/-! ### The path read back -/

/-- What the search has found from `source`: each entry is a new position and the one it
was found from, the newest first. -/
def Trail (deps : List (List Nat)) (source : Nat) : List (Nat × Nat) → Prop
  | [] => True
  | (next, current) :: rest => next ≠ source ∧ next ∉ rest.map Prod.fst ∧ Edge deps current next ∧
      (current = source ∨ current ∈ rest.map Prod.fst) ∧ Trail deps source rest

theorem Trail.not_source {deps : List (List Nat)} {source : Nat} {previous : List (Nat × Nat)}
    (h : Trail deps source previous) : source ∉ previous.map Prod.fst := by
  induction previous with
  | nil => exact List.not_mem_nil
  | cons entry rest ih =>
    obtain ⟨next, current⟩ := entry
    rw [List.map_cons, List.mem_cons, not_or]
    exact ⟨Ne.symm h.1, ih h.2.2.2.2⟩

theorem Trail.keys_nodup {deps : List (List Nat)} {source : Nat} {previous : List (Nat × Nat)}
    (h : Trail deps source previous) : (previous.map Prod.fst).Nodup := by
  induction previous with
  | nil => exact List.nodup_nil
  | cons entry rest ih => exact List.nodup_cons.mpr ⟨h.2.1, ih h.2.2.2.2⟩

theorem Trail.length_le {deps : List (List Nat)} (hdeps : DepLists deps) {source : Nat}
    {previous : List (Nat × Nat)} (h : Trail deps source previous) :
    previous.length ≤ deps.length := by
  have hlt : ∀ i ∈ previous.map Prod.fst, i < deps.length := by
    induction previous with
    | nil => exact fun i hi => absurd hi List.not_mem_nil
    | cons entry rest ih =>
      obtain ⟨next, current⟩ := entry
      intro i hi
      rcases List.mem_cons.mp hi with rfl | hi
      · exact hdeps.lt current _ h.2.2.1
      · exact ih h.2.2.2.2 i hi
  have hle := length_le_of_nodup_lt h.keys_nodup hlt
  rwa [List.length_map] at hle

theorem lookup_of_mem {previous : List (Nat × Nat)} (hnd : (previous.map Prod.fst).Nodup)
    {next current : Nat} (h : (next, current) ∈ previous) :
    previous.lookup next = some current := by
  induction previous with
  | nil => cases h
  | cons entry rest ih =>
    obtain ⟨key, value⟩ := entry
    obtain ⟨hkey, hrest⟩ := List.nodup_cons.mp hnd
    rw [List.lookup_cons]
    rcases List.mem_cons.mp h with heq | h
    · cases heq
      rw [beq_self_eq_true]
    · have hne : (next == key) = false := by
        refine beq_eq_false_iff_ne.mpr ?_
        intro heq
        have hmem : next ∈ rest.map Prod.fst := List.mem_map_of_mem h
        exact hkey (heq ▸ hmem)
      rw [hne]
      exact ih hrest h

theorem lookup_none {previous : List (Nat × Nat)} {key : Nat}
    (h : key ∉ previous.map Prod.fst) : previous.lookup key = none := by
  induction previous with
  | nil => rfl
  | cons entry rest ih =>
    rw [List.map_cons, List.mem_cons, not_or] at h
    rw [List.lookup_cons, beq_eq_false_iff_ne.mpr h.1]
    exact ih h.2

/-- The path read back from a position of the trail is a walk from the source. -/
theorem pathBack_walk {deps : List (List Nat)} {source target : Nat}
    {previous older newer : List (Nat × Nat)} (h : Trail deps source previous)
    (hsplit : previous = newer ++ older) (htrail : Trail deps source older) {fuel node : Nat}
    (hnode : node = source ∨ node ∈ older.map Prod.fst) (hfuel : older.length ≤ fuel)
    {path : List Nat} (hpath : Walk (Edge deps) node target path) :
    Walk (Edge deps) source target (pathBack previous fuel node path) := by
  induction older generalizing newer fuel node path with
  | nil =>
    obtain rfl := hnode.resolve_right List.not_mem_nil
    cases fuel with
    | zero => exact hpath
    | succ fuel =>
      unfold pathBack
      rw [lookup_none h.not_source]
      exact hpath
  | cons entry rest ih =>
    obtain ⟨next, current⟩ := entry
    have hsplit' : previous = (newer ++ [(next, current)]) ++ rest := by simp [hsplit]
    by_cases hfound : node = next
    · subst hfound
      obtain ⟨fuel, rfl⟩ : ∃ n, fuel = n + 1 := ⟨fuel - 1, by simp at hfuel; omega⟩
      have hmem : (node, current) ∈ previous := by simp [hsplit]
      unfold pathBack
      rw [lookup_of_mem h.keys_nodup hmem]
      exact ih hsplit' htrail.2.2.2.2 htrail.2.2.2.1 (by simpa using hfuel)
        (hpath.cons htrail.2.2.1)
    · refine ih hsplit' htrail.2.2.2.2 ?_ (by simp at hfuel; omega) hpath
      rcases hnode with hsource | hmem
      · exact Or.inl hsource
      · exact Or.inr ((List.mem_cons.mp hmem).resolve_left hfound)

/-- The search state: what is marked is the source or has an entry. -/
structure TrailInv (deps : List (List Nat)) (source : Nat) (st : PathState) : Prop where
  trail : Trail deps source st.previous
  marked : ∀ i, i ∈ st.seen ↔ i = source ∨ i ∈ st.previous.map Prod.fst
  queued : ∀ i ∈ st.queue, i ∈ st.seen

theorem pathExpand_walk {deps : List (List Nat)} (hdeps : DepLists deps) (target : Nat)
    {source current : Nat} {owed : List Nat} {st : PathState} (h : TrailInv deps source st)
    (hcur : current ∈ st.seen) (hedge : ∀ p ∈ owed, Edge deps current p) :
    (∀ st', pathExpand target current (deps.length + 1) st owed = .inl st' →
      TrailInv deps source st') ∧
    ∀ path, pathExpand target current (deps.length + 1) st owed = .inr path →
      Walk (Edge deps) source target path := by
  induction owed generalizing st with
  | nil =>
    refine ⟨?_, fun path heq => by cases heq⟩
    intro st' heq
    cases heq
    exact h
  | cons next rest ih =>
    have hnext : Edge deps current next := hedge next List.mem_cons_self
    have hrest : ∀ p ∈ rest, Edge deps current p := fun p hp => hedge p (List.mem_cons_of_mem _ hp)
    unfold pathExpand
    by_cases hseen : next ∈ st.seen
    · rw [if_pos hseen]
      exact ih h hcur hrest
    · rw [if_neg hseen]
      dsimp only
      have hnew := not_or.mp (mt (h.marked next).mpr hseen)
      have htrail : Trail deps source ((next, current) :: st.previous) :=
        ⟨hnew.1, hnew.2, hnext, (h.marked current).mp hcur, h.trail⟩
      by_cases htarget : next = target
      · rw [if_pos htarget]
        subst htarget
        refine ⟨fun st' heq => (by cases heq), ?_⟩
        intro path heq
        cases heq
        exact pathBack_walk htrail (List.nil_append _).symm htrail
          (Or.inr List.mem_cons_self) (Nat.le_succ_of_le (htrail.length_le hdeps)) (Walk.single _)
      · rw [if_neg htarget]
        refine ih ⟨htrail, ?_, ?_⟩ (List.mem_cons_of_mem _ hcur) hrest
        · intro i
          rw [List.mem_cons, h.marked i, List.map_cons, List.mem_cons]
          exact or_left_comm
        · intro i hi
          rcases List.mem_append.mp hi with hi | hi
          · exact List.mem_cons_of_mem _ (h.queued i hi)
          · rw [List.mem_singleton.mp hi]
            exact List.mem_cons_self

theorem pathLoop_walk {deps : List (List Nat)} (hdeps : DepLists deps) {source target fuel : Nat}
    {st : PathState} (h : TrailInv deps source st) {path : List Nat}
    (hpath : pathLoop deps target fuel st = some path) : Walk (Edge deps) source target path := by
  induction fuel generalizing st with
  | zero => cases hpath
  | succ fuel ih =>
    unfold pathLoop at hpath
    cases hqueue : st.queue with
    | nil =>
      rw [hqueue] at hpath
      cases hpath
    | cons current queue =>
      rw [hqueue] at hpath
      dsimp only at hpath
      have hcur : current ∈ st.seen := h.queued current (by simp [hqueue])
      have hpopped : TrailInv deps source { st with queue := queue } :=
        ⟨h.trail, h.marked,
          fun i hi => h.queued i (by rw [hqueue]; exact List.mem_cons_of_mem _ hi)⟩
      obtain ⟨hinl, hinr⟩ := pathExpand_walk hdeps target hpopped hcur (fun p hp => hp)
      split at hpath
      · rename_i out heq
        cases hpath
        exact hinr _ heq
      · rename_i st' heq
        exact ih (hinl st' heq) hpath

theorem dependencyPath_walk {deps : List (List Nat)} (hdeps : DepLists deps) {source target : Nat}
    {path : List Nat} (h : dependencyPath deps source target = some path) :
    Walk (Edge deps) source target path := by
  refine pathLoop_walk hdeps ?_ h
  exact ⟨trivial, fun i => by simp, fun i hi => hi⟩

theorem gateChain_walk {deps : List (List Nat)} (hdeps : DepLists deps) {gi ti : Nat}
    {path : List Nat} (h : gateChain deps gi ti = some path) :
    (gi = ti ∧ path = [gi]) ∨ Walk (Edge deps) gi ti path ∨ Walk (Edge deps) ti gi path := by
  unfold gateChain at h
  split at h
  · rename_i heq
    cases h
    exact Or.inl ⟨heq, rfl⟩
  · rw [Option.orElse_eq_or, Option.or_eq_some_iff] at h
    rcases h with h | ⟨-, h⟩
    · exact Or.inr (Or.inl (dependencyPath_walk hdeps h))
    · exact Or.inr (Or.inr (dependencyPath_walk hdeps h))

/-! ### Positions by name -/

/-- An edge joins two nodes of the document by a declared dependency, and its end is
where its id resolves to. -/
theorem edge_names {spec : GraphSpec} {i p : Nat} (h : Edge (depsOf spec) i p) :
    ∃ n m, spec.nodes[i]? = some n ∧ spec.nodes[p]? = some m ∧ indexOf spec m.id = some p ∧
      DependsOn spec n.id m.id := by
  obtain ⟨n, hn, dep, hdep, errs, hres⟩ := edge_iff.mp h
  have hindex := resolveDep_ok hres
  obtain ⟨m, hm, hid⟩ := indexOf_lt hindex
  rw [← hid] at hindex
  exact ⟨n, m, hn, hm, hindex, n, List.mem_of_getElem? hn, rfl, dep, hdep, hid.symm⟩

theorem idAt_eq_some {spec : GraphSpec} {i : Nat} {id : NodeId} :
    idAt spec i = some id ↔ ∃ n, spec.nodes[i]? = some n ∧ n.id = id := by
  rw [idAt, Option.map_eq_some_iff]

theorem edge_idAt {spec : GraphSpec} {i p : Nat} (h : Edge (depsOf spec) i p) (a b : NodeId)
    (ha : idAt spec i = some a) (hb : idAt spec p = some b) : DependsOn spec a b := by
  obtain ⟨n, m, hn, hm, -, hdep⟩ := edge_names h
  rw [idAt, hn] at ha
  rw [idAt, hm] at hb
  cases ha
  cases hb
  exact hdep

theorem idsAt_map_some {spec : GraphSpec} {is : List Nat}
    (h : ∀ i ∈ is, ∃ id, idAt spec i = some id) :
    (idsAt spec is).map some = is.map (idAt spec) := by
  induction is with
  | nil => rfl
  | cons i is ih =>
    obtain ⟨id, hid⟩ := h i List.mem_cons_self
    rw [idsAt, List.filterMap_cons_some hid, List.map_cons, List.map_cons, hid]
    congr 1
    exact ih (fun j hj => h j (List.mem_cons_of_mem i hj))

theorem chain_ids {spec : GraphSpec} {x y : Nat} {path : List Nat} {a b : NodeId}
    (h : Walk (Edge (depsOf spec)) x y path) (ha : idAt spec x = some a)
    (hb : idAt spec y = some b) :
    Walk (DependsOn spec) a b (idsAt spec path) := by
  refine h.names (idsAt_map_some ?_) ha hb (fun _ _ => edge_idAt)
  intro i hi
  obtain ⟨before, after, rfl⟩ := List.append_of_mem hi
  rcases after with _ | ⟨next, after⟩
  · have hlast := h.last
    rw [List.getLast?_concat] at hlast
    exact ⟨b, Option.some.inj hlast ▸ hb⟩
  · have hedge := (List.isChain_append_cons_cons.mp h.chain).2.1
    obtain ⟨n, -, hn, -⟩ := edge_names hedge
    exact ⟨n.id, idAt_eq_some.mpr ⟨n, hn, rfl⟩⟩

/-- The ids of a ring of edges are a ring: every position of it is where its id
resolves to, so no id repeats. -/
theorem ring_ids {spec : GraphSpec} {cycle : List Nat} (h : Ring (Edge (depsOf spec)) cycle) :
    Ring (DependsOn spec) (idsAt spec cycle) := by
  have hnamed : ∀ i ∈ cycle, ∃ m, spec.nodes[i]? = some m ∧ indexOf spec m.id = some i := by
    intro i hi
    obtain ⟨j, -, hedge⟩ := h.pred hi
    obtain ⟨-, m, -, hm, hindex, -⟩ := edge_names hedge
    exact ⟨m, hm, hindex⟩
  refine h.names (idsAt_map_some ?_) (fun _ _ => edge_idAt) ?_
  · intro i hi
    obtain ⟨m, hm, -⟩ := hnamed i hi
    exact ⟨m.id, idAt_eq_some.mpr ⟨m, hm, rfl⟩⟩
  · intro i hi j hj hsame
    obtain ⟨m, hm, him⟩ := hnamed i hi
    obtain ⟨k, hk, hjk⟩ := hnamed j hj
    rw [idAt, idAt, hm, hk, Option.map_some, Option.map_some, Option.some.injEq] at hsame
    rw [hsame, hjk] at him
    exact (Option.some.inj him).symm

/-! ### The reports -/

/-- The errors of the order stage. -/
def ofOrder : AdmissionError → Bool
  | .cycle _ => true
  | .gateWaitCycle _ _ _ => true
  | _ => false

theorem resolveDep_quiet {spec : GraphSpec} {node : NodeSpec} {dep : Dependency} :
    (∀ e, resolveDep spec node dep = .error e → ofOrder e = false) ∧
    ∀ pi errs, resolveDep spec node dep = .ok (pi, errs) → ∀ e ∈ errs, ofOrder e = false := by
  unfold resolveDep
  split
  · exact ⟨fun e h => (by cases h; rfl), fun pi errs h => (by cases h)⟩
  · split
    · exact ⟨fun e h => (by cases h; rfl), fun pi errs h => (by cases h)⟩
    · split
      · exact ⟨fun e h => (by cases h; rfl), fun pi errs h => (by cases h)⟩
      · split
        · exact ⟨fun e h => (by cases h; rfl), fun pi errs h => (by cases h)⟩
        · refine ⟨fun e h => (by cases h), ?_⟩
          intro pi errs h e he
          cases h
          simp only [List.mem_append, List.mem_ite_nil_right, List.mem_singleton] at he
          rcases he with (⟨-, rfl⟩ | ⟨-, rfl⟩) | ⟨-, rfl⟩ <;> rfl

theorem resolveDeps_quiet {spec : GraphSpec} {node : NodeSpec} {producers : List Nat}
    {deps : List Dependency} :
    ∀ e ∈ (resolveDeps spec node producers deps).1, ofOrder e = false := by
  induction deps generalizing producers with
  | nil => exact fun e he => absurd he List.not_mem_nil
  | cons dep rest ih =>
    obtain ⟨herror, hok⟩ := @resolveDep_quiet spec node dep
    unfold resolveDeps
    cases hr : resolveDep spec node dep with
    | error e =>
      intro x hx
      rcases List.mem_cons.mp hx with rfl | hx
      · exact herror _ hr
      · exact ih x hx
    | ok out =>
      obtain ⟨pi, errs⟩ := out
      intro x hx
      rcases List.mem_append.mp hx with hx | hx
      · exact hok pi errs hr x hx
      · exact ih x hx

theorem proofSourceErrors_quiet {spec : GraphSpec} {node : NodeSpec} {producers : List Nat}
    {port : PortSpec} {source : String} :
    ∀ e ∈ proofSourceErrors spec node producers port source, ofOrder e = false := by
  intro e he
  unfold proofSourceErrors at he
  split at he
  · rw [List.mem_singleton.mp he]
    rfl
  · split at he
    · rw [List.mem_singleton.mp he]
      rfl
    · split at he
      · cases he
      · rw [List.mem_singleton.mp he]
        rfl

/-- Only the order stage reports a cycle or a wait chain. -/
theorem earlier_quiet (spec : GraphSpec) : ∀ e ∈ contractErrors spec ++
    spec.nodes.flatMap (nodeDepErrors spec) ++ gateErrors spec, ofOrder e = false := by
  intro e he
  rcases List.mem_append.mp he with he | he
  · rcases List.mem_append.mp he with he | he
    · rcases List.mem_append.mp he with he | he
      · obtain ⟨x, -, rfl⟩ := List.mem_map.mp he
        rfl
      · obtain ⟨node, -, he⟩ := List.mem_flatMap.mp he
        obtain ⟨x, -, rfl⟩ := List.mem_map.mp he
        rfl
    · obtain ⟨node, -, he⟩ := List.mem_flatMap.mp he
      rcases List.mem_append.mp he with he | he
      · exact resolveDeps_quiet e he
      · obtain ⟨port, -, he⟩ := List.mem_flatMap.mp he
        obtain ⟨source, -, he⟩ := List.mem_flatMap.mp he
        exact proofSourceErrors_quiet e he
  · obtain ⟨node, -, he⟩ := List.mem_flatMap.mp he
    obtain ⟨x, hx, hxe⟩ := List.mem_filterMap.mp he
    cases x with
    | ok target => cases hxe
    | error e' =>
      cases hxe
      obtain ⟨port, -, -, name, -, -, rfl⟩ := error_mem_gateTargets.mp hx
      rfl

/-- `admit` reports these errors: none when it admits the graph. -/
def Reports (spec : GraphSpec) (errors : List AdmissionError) : Prop :=
  (errors = [] ∧ ∃ g, admitGraph spec = .ok g) ∨
    (errors ≠ [] ∧ admitGraph spec = .error (some errors))

theorem reports_of_errors {spec : GraphSpec} {errors : List AdmissionError}
    (h : admissionErrors spec = some errors) : Reports spec errors := by
  unfold Reports admitGraph
  rw [h]
  cases errors with
  | nil => exact Or.inl ⟨rfl, _, rfl⟩
  | cons e rest => exact Or.inr ⟨List.cons_ne_nil e rest, rfl⟩

/-- What is reported of the order is what the order stage finds. -/
theorem reports_order {spec : GraphSpec} {ordering : List AdmissionError}
    (h : orderErrors spec (depsOf spec) = some ordering) (hall : ∀ e ∈ ordering, ofOrder e = true) :
    ∃ errors, Reports spec errors ∧ errors.filter ofOrder = ordering := by
  refine ⟨_, reports_of_errors (by rw [admissionErrors, h, Option.map_some]), ?_⟩
  rw [List.filter_append, List.filter_eq_nil_iff.mpr, List.nil_append,
    List.filter_eq_self.mpr hall]
  intro e he
  rw [earlier_quiet spec e he]
  exact Bool.false_ne_true

/-- The path of a wait chain: the gate when it resolves itself, or a dependency walk
between the gate and what it resolves, from either end. -/
def WaitPath (spec : GraphSpec) (gate resolves : NodeId) (path : List NodeId) : Prop :=
  (gate = resolves ∧ path = [gate]) ∨ Walk (DependsOn spec) gate resolves path ∨
    Walk (DependsOn spec) resolves gate path

theorem mem_gateWaitErrors {spec : GraphSpec} {e : AdmissionError} :
    e ∈ gateWaitErrors spec (depsOf spec) ↔ ∃ gi ti gate resolves chain,
      GatePair spec gi ti gate resolves ∧ gateChain (depsOf spec) gi ti = some chain ∧
      e = .gateWaitCycle gate resolves (idsAt spec chain) := by
  unfold gateWaitErrors
  simp only [List.mem_filterMap, Prod.exists, mem_gatePairs_iff]
  constructor
  · rintro ⟨gi, ti, ⟨gate, resolves, hpair⟩, he⟩
    obtain ⟨g, hg, hid, -⟩ := id hpair.lists
    obtain ⟨t, ht, htid⟩ := indexOf_lt hpair.resolved
    cases hchain : gateChain (depsOf spec) gi ti with
    | none =>
      rw [hchain] at he
      cases he
    | some chain =>
      rw [hchain, idAt_eq_some.mpr ⟨g, hg, hid⟩, idAt_eq_some.mpr ⟨t, ht, htid⟩] at he
      cases he
      exact ⟨gi, ti, gate, resolves, chain, hpair, hchain, rfl⟩
  · rintro ⟨gi, ti, gate, resolves, chain, hpair, hchain, rfl⟩
    obtain ⟨g, hg, hid, -⟩ := id hpair.lists
    obtain ⟨t, ht, htid⟩ := indexOf_lt hpair.resolved
    refine ⟨gi, ti, ⟨gate, resolves, hpair⟩, ?_⟩
    rw [hchain, idAt_eq_some.mpr ⟨g, hg, hid⟩, idAt_eq_some.mpr ⟨t, ht, htid⟩]

/-- `admit` ends for every graph. Where the resolved dependencies have a cycle, it
reports one, a ring of dependencies, and nothing else of the order. Where they have
none, it reports no cycle, every wait chain it reports is a chain between a gate and
what the gate resolves, and it reports one for each such pair that is joined. -/
theorem cycle_reports (spec : GraphSpec) :
    (¬ Acyclic (Edge (depsOf spec)) → ∃ errors path, admitGraph spec = .error (some errors) ∧
      errors.filter ofOrder = [.cycle path] ∧ Ring (DependsOn spec) path) ∧
    (Acyclic (Edge (depsOf spec)) → ∃ errors, Reports spec errors ∧
      (∀ path, .cycle path ∉ errors) ∧
      (∀ gate resolves path, .gateWaitCycle gate resolves path ∈ errors →
        Resolves spec gate resolves ∧ WaitPath spec gate resolves path) ∧
      ∀ gi ti gate resolves, GatePair spec gi ti gate resolves →
        (gi = ti ∨ TransGen (Edge (depsOf spec)) gi ti ∨ TransGen (Edge (depsOf spec)) ti gi) →
        ∃ path, .gateWaitCycle gate resolves path ∈ errors) := by
  have hlists := depsOf_lists spec
  have hplaced := kahn_complete hlists
  constructor
  · intro hcyclic
    have hshort : (kahn (depsOf spec)).order.length < (depsOf spec).length := by
      rw [← hplaced] at hcyclic
      omega
    obtain ⟨cycle, hcycle, hring⟩ := findCycle_some hlists hshort
    have hstage : orderErrors spec (depsOf spec) = some [.cycle (idsAt spec cycle)] := by
      unfold orderErrors
      dsimp only
      rw [if_pos hshort, hcycle, Option.map_some]
    obtain ⟨errors, hreports, hfilter⟩ := reports_order hstage (by simp [ofOrder])
    rcases hreports with ⟨rfl, -⟩ | ⟨-, herror⟩
    · cases hfilter
    · exact ⟨errors, _, herror, hfilter, ring_ids hring⟩
  · intro hacyc
    have hstage : orderErrors spec (depsOf spec) = some (gateWaitErrors spec (depsOf spec)) := by
      have hle := hplaced.mpr hacyc
      unfold orderErrors
      dsimp only
      rw [if_neg (by omega)]
    have hall : ∀ e ∈ gateWaitErrors spec (depsOf spec), ofOrder e = true := by
      intro e he
      obtain ⟨_, _, _, _, _, -, -, rfl⟩ := mem_gateWaitErrors.mp he
      rfl
    obtain ⟨errors, hreports, hfilter⟩ := reports_order hstage hall
    have hmem : ∀ e, ofOrder e = true → (e ∈ errors ↔ e ∈ gateWaitErrors spec (depsOf spec)) := by
      intro e he
      rw [← hfilter, List.mem_filter]
      exact ⟨fun h => ⟨h, he⟩, fun h => h.1⟩
    refine ⟨errors, hreports, ?_, ?_, ?_⟩
    · intro path hpath
      obtain ⟨_, _, _, _, _, -, -, heq⟩ := mem_gateWaitErrors.mp ((hmem _ rfl).mp hpath)
      cases heq
    · intro gate resolves path hpath
      obtain ⟨gi, ti, _, _, chain, hpair, hchain, heq⟩ :=
        mem_gateWaitErrors.mp ((hmem _ rfl).mp hpath)
      cases heq
      obtain ⟨g, hg, hid, hkind, port, hport, hhuman, hname⟩ := hpair.lists
      obtain ⟨t, ht, htid⟩ := indexOf_lt hpair.resolved
      have hgi : idAt spec gi = some gate := idAt_eq_some.mpr ⟨g, hg, hid⟩
      have hti : idAt spec ti = some resolves := idAt_eq_some.mpr ⟨t, ht, htid⟩
      refine ⟨⟨g, List.mem_of_getElem? hg, hid, hkind, port, hport, hhuman, hname⟩, ?_⟩
      rcases gateChain_walk hlists hchain with ⟨rfl, rfl⟩ | hwalk | hwalk
      · refine Or.inl ⟨Option.some.inj (hgi.symm.trans hti), ?_⟩
        rw [idsAt, List.filterMap_cons_some hgi, List.filterMap_nil]
      · exact Or.inr (Or.inl (chain_ids hwalk hgi hti))
      · exact Or.inr (Or.inr (chain_ids hwalk hti hgi))
    · intro gi ti gate resolves hpair hjoined
      obtain ⟨g, hg, -⟩ := hpair.lists
      obtain ⟨t, ht, -⟩ := indexOf_lt hpair.resolved
      have hglt : gi < (depsOf spec).length := by
        rw [depsOf_length]
        exact (List.getElem?_eq_some_iff.mp hg).1
      have htlt : ti < (depsOf spec).length := by
        rw [depsOf_length]
        exact (List.getElem?_eq_some_iff.mp ht).1
      obtain ⟨chain, hchain⟩ := Option.isSome_iff_exists.mp
        ((gateChain_isSome hlists hglt htlt).mpr hjoined)
      exact ⟨_, (hmem _ rfl).mpr (mem_gateWaitErrors.mpr
        ⟨gi, ti, gate, resolves, chain, hpair, hchain, rfl⟩)⟩

end Graph

end Checkspan
