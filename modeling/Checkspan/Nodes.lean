import Checkspan.Refinement

/-!
# Replayed node states

The replayed state of one node of one run as a function of the store, and how
one step of the ledger moves it. The invariants of the claim, attempt and receipt
tables are stated over this function.
-/

namespace Checkspan

open Transition

namespace Store

/-- The graph a run is of. -/
def runSpec (s : Store) (run : RunId) : Option GraphSpec :=
  (s.runs.find? (fun r => r.runId = run)).bind (fun r => s.specOf r.graphRef)

/-- The replayed state of a node of a run. -/
def nodeState (s : Store) (run : RunId) (id : NodeId) : Option NodeState :=
  (s.runSpec run).bind (fun spec => (s.replay run spec).toOption.bind (fun st => st.node id))

variable {s : Store}

theorem runSpec_some {run : RunId} {spec : GraphSpec} (h : s.runSpec run = some spec) :
    ∃ r, r.runId = run ∧ s.Stored r spec := by
  unfold runSpec at h
  rw [Option.bind_eq_some_iff] at h
  obtain ⟨r, hr, hspec⟩ := h
  exact ⟨r, by simpa using List.find?_some hr, List.mem_of_find?_eq_some hr, hspec⟩

theorem Sound.runSpec_of_stored (hs : s.Sound) {r : GraphRun} {spec : GraphSpec}
    (h : s.Stored r spec) : s.runSpec r.runId = some spec := by
  unfold runSpec
  cases hfind : s.runs.find? (fun q => q.runId = r.runId) with
  | none =>
    rw [List.find?_eq_none] at hfind
    exact absurd (by simp) (hfind r h.1)
  | some q =>
    have hq : q.runId = r.runId := by simpa using List.find?_some hfind
    obtain rfl := hs.run_unique (List.mem_of_find?_eq_some hfind) h.1 hq
    exact h.2

theorem Sound.nodeState_of_replay (hs : s.Sound) {r : GraphRun} {spec : GraphSpec} {st : RunState}
    (h : s.Stored r spec) (hst : s.replay r.runId spec = .ok st) (id : NodeId) :
    s.nodeState r.runId id = st.node id := by
  unfold nodeState
  rw [hs.runSpec_of_stored h, Option.bind_some, hst]
  rfl

theorem nodeState_some {run : RunId} {id : NodeId} {state : NodeState}
    (h : s.nodeState run id = some state) :
    ∃ r spec st, r.runId = run ∧ s.Stored r spec ∧ s.replay run spec = .ok st ∧
      st.node id = some state := by
  unfold nodeState at h
  rw [Option.bind_eq_some_iff] at h
  obtain ⟨spec, hspec, h⟩ := h
  obtain ⟨r, hr, hstored⟩ := runSpec_some hspec
  rw [Option.bind_eq_some_iff] at h
  obtain ⟨st, hst, hnode⟩ := h
  refine ⟨r, spec, st, hr, hstored, ?_, hnode⟩
  cases hrep : s.replay run spec with
  | error e =>
    rw [hrep] at hst
    cases hst
  | ok st' =>
    rw [hrep] at hst
    cases hst
    rfl

theorem nodeState_wf {run : RunId} {id : NodeId} {state : NodeState}
    (h : s.nodeState run id = some state) : state.Wf := by
  obtain ⟨r, spec, st, rfl, -, hst, hnode⟩ := nodeState_some h
  exact RunState.replay_wf hst hnode

theorem nodeState_none_of_run {run : RunId} (h : s.hasRun run = false) (id : NodeId) :
    s.nodeState run id = none := by
  cases hstate : s.nodeState run id with
  | none => rfl
  | some state =>
    obtain ⟨r, spec, st, rfl, hstored, -, -⟩ := nodeState_some hstate
    rw [hstored.hasRun] at h
    cases h

end Store

/-! ### One step, node by node -/

/-- A step moved one node by one event, and no other. -/
structure Moved (s s' : Store) (run : RunId) (id : NodeId) (e : NodeEvent) (old new : NodeState) :
    Prop where
  before : s.nodeState run id = some old
  legal : NodeState.Step old e new
  after : s'.nodeState run id = some new
  others : ∀ r i, ¬ (r = run ∧ i = id) → s'.nodeState r i = s.nodeState r i

section

variable {rt : Runtime} {s s' : Store}

theorem Recorded.moved {run : RunId} {id : NodeId} {e : NodeEvent} {record : GraphRun}
    {spec : GraphSpec} {st : RunState} {old new : NodeState} {payload : Json}
    (h : Recorded s s' run id e record spec st old new payload) (hs : s.Sound) :
    Moved s s' run id e old new := by
  obtain rfl := h.record_run
  have hs' := h.sound hs
  have hstored := h.bound.1
  have hnode := hs.nodeState_of_replay hstored h.replayed
  have hnode' := hs'.nodeState_of_replay (h.stored.mpr hstored) h.replay_self
  refine { before := (hnode id).trans h.old_eq, legal := NodeState.apply_step h.legal
           after := (hnode' id).trans (RunState.node_insert_self st id new), others := ?_ }
  intro r i hne
  by_cases hr : r = record.runId
  · subst hr
    have hi : i ≠ id := fun hi => hne ⟨rfl, hi⟩
    rw [hnode' i, RunState.node_insert_other st new hi, hnode i]
  · have hspec : s'.runSpec r = s.runSpec r := by
      simp only [Store.runSpec, Store.specOf, h.runs, h.graphs]
    unfold Store.nodeState
    rw [hspec]
    congr 1
    funext x
    rw [h.replay_other hr]

theorem LedgerStep.moved {run : RunId} {id : NodeId} {e : NodeEvent}
    (h : LedgerStep rt s (some (run, id, e)) s') (hs : s.Sound) :
    ∃ old new, Moved s s' run id e old new := by
  obtain ⟨record, spec, st, old, new, payload, hrec⟩ := h.recorded
  exact ⟨old, new, hrec.moved hs⟩

/-- A step without a node event leaves the node states of stored runs, and opens
the nodes of the run it creates. -/
theorem LedgerStep.unmoved (h : LedgerStep rt s none s') (hs : s.Sound) (run : RunId)
    (id : NodeId) : s'.nodeState run id = s.nodeState run id ∨
      (s.nodeState run id = none ∧ s'.nodeState run id = some NodeState.initial) := by
  have hs' := h.sound hs
  by_cases hrun : s.hasRun run = true
  · obtain ⟨r, hr, rfl⟩ := Store.hasRun_iff.mp hrun
    obtain ⟨spec, hspec⟩ := Option.isSome_iff_exists.mp (hs.graphKnown r hr)
    obtain ⟨st, hst⟩ := hs.replays r spec ⟨hr, hspec⟩
    have hbefore := hs.nodeState_of_replay ⟨hr, hspec⟩ hst id
    have hafter := hs'.nodeState_of_replay (h.stored ⟨hr, hspec⟩) (h.replay_unlabelled hst) id
    exact Or.inl (hafter.trans hbefore.symm)
  · have hnone := Store.nodeState_none_of_run (by simpa using hrun) id
    cases hstate : s'.nodeState run id with
    | none => exact Or.inl hnone.symm
    | some state =>
      refine Or.inr ⟨hnone, ?_⟩
      obtain ⟨r, spec, st, rfl, hstored, hst, hnode⟩ := Store.nodeState_some hstate
      cases h with
      | same => exact absurd hstored.hasRun hrun
      | graph row fresh => exact absurd (Store.hasRun_iff.mpr ⟨r, hstored.1, rfl⟩) hrun
      | revoke _ payload known => exact absurd (Store.hasRun_iff.mpr ⟨r, hstored.1, rfl⟩) hrun
      | run q fresh known =>
        rcases List.mem_append.mp hstored.1 with hr | hr
        · exact absurd (Store.hasRun_iff.mpr ⟨r, hr, rfl⟩) hrun
        · obtain rfl := List.mem_singleton.mp hr
          have hnew := hs.replay_withRun fresh spec
          have hsame : st = RunState.new r.runId spec := Except.ok.inj (hst.symm.trans hnew)
          rw [hsame] at hnode
          simp only [RunState.new, RunState.node, Option.map_eq_some_iff] at hnode
          obtain ⟨_, _, hinitial⟩ := hnode
          rw [hinitial]

end

end Checkspan
