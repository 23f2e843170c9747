import Checkspan.Ledger

/-!
# Every checked operation refines the reducer

An operation validates a node event it builds, and writes a payload it builds
separately; the replay decodes that payload. The two agree, so the log of every
run replays, and one operation moves one node by the event it validated.
-/

namespace Checkspan

open Transition

/-! ### Sound stores -/

namespace Store

/-- Runs are distinct and of stored graphs, events belong to runs, and the log of
every run replays. -/
structure Sound (s : Store) : Prop where
  runsDistinct : (s.runs.map (·.runId)).Nodup
  graphKnown : ∀ r ∈ s.runs, (s.specOf r.graphRef).isSome
  eventsOfRuns : ∀ e ∈ s.events, s.hasRun e.runId = true
  replays : ∀ r spec, s.Stored r spec → ∃ st, s.replay r.runId spec = .ok st

theorem hasRun_iff {s : Store} {run : RunId} :
    s.hasRun run = true ↔ ∃ r ∈ s.runs, r.runId = run := by
  simp [hasRun]

theorem sound_empty : Sound Store.empty :=
  { runsDistinct := List.nodup_nil
    graphKnown := fun _ hr => absurd hr List.not_mem_nil
    eventsOfRuns := fun _ he => absurd he List.not_mem_nil
    replays := fun _ _ hr => absurd hr.1 List.not_mem_nil }

/-- A run id names one stored run. -/
theorem Sound.run_unique {s : Store} (hs : s.Sound) {a b : GraphRun} (ha : a ∈ s.runs)
    (hb : b ∈ s.runs) (h : a.runId = b.runId) : a = b :=
  List.inj_on_of_nodup_map hs.runsDistinct ha hb h

theorem Sound.stored_unique {s : Store} (hs : s.Sound) {a b : GraphRun} {x y : GraphSpec}
    (ha : s.Stored a x) (hb : s.Stored b y) (h : a.runId = b.runId) : a = b ∧ x = y := by
  obtain rfl := hs.run_unique ha.1 hb.1 h
  refine ⟨rfl, ?_⟩
  have hxy := ha.2.symm.trans hb.2
  exact Option.some.inj hxy

theorem Stored.hasRun {s : Store} {r : GraphRun} {spec : GraphSpec} (h : s.Stored r spec) :
    s.hasRun r.runId = true := hasRun_iff.mpr ⟨r, h.1, rfl⟩

theorem specOf_append {s : Store} {rows : List GraphRow} {ref : GraphRef} {spec : GraphSpec}
    (h : s.specOf ref = some spec) :
    Store.specOf { s with graphs := s.graphs ++ rows } ref = some spec := by
  unfold specOf at h ⊢
  rw [Option.map_eq_some_iff] at h ⊢
  obtain ⟨row, hrow, hspec⟩ := h
  refine ⟨row, ?_, hspec⟩
  rw [List.find?_append, hrow, Option.some_or]

end Store

/-! ### What one step does to the log -/

/-- One node event recorded: checked against the replayed state, and written in a
payload that carries it. -/
structure Recorded (s s' : Store) (run : RunId) (id : NodeId) (e : NodeEvent) (record : GraphRun)
    (spec : GraphSpec) (st : RunState) (old new : NodeState) (payload : Json) : Prop where
  record_run : record.runId = run
  bound : s.Bound record spec
  replayed : s.replay run spec = .ok st
  old_eq : st.node id = some old
  legal : old.apply e = .ok new
  carried : e.CarriedBy payload
  ownRun : ∀ node, spec.nodeRef id = some node → e.inRun run node = e
  events : s'.events = s.events ++ [s.nextEvent run (some id) e.kind payload]
  graphs : s'.graphs = s.graphs
  runs : s'.runs = s.runs

/-- A packet the replayed state waits on can be decided. -/
theorem decided_legal {run : RunId} {spec : GraphSpec} {events : List StoredEvent} {st : RunState}
    {id : NodeId} {state : NodeState} {packet : Ident} (decision : DecisionKind)
    (hst : RunState.replay run spec events = .ok st) (hs : st.node id = some state)
    (hw : state.waitingOnGate = some packet) :
    state.apply (.decisionAdmitted packet decision) = .ok (state.route decision) := by
  have hwf := RunState.replay_wf hst hs
  have hgated : state.status = .gated := hwf.gateWaits (by simp [hw])
  exact NodeState.step_apply (NodeState.Step.route packet decision hgated hw)

theorem sealedPayload_carries {a : Attempt} {x : Execution} (h : a.execution = some x) :
    (NodeEvent.executionFinished a.number x.outcome (a.result.map (·.digest))).CarriedBy
      (Store.sealedPayload a) := by
  unfold Store.sealedPayload
  rw [h]
  cases a.result <;> exact ⟨rfl, rfl, rfl⟩

theorem dispatchPayload_carries (k : AttemptNumber) (owner : ControllerId) (fence : Nat)
    (refs : List ReceiptRef) :
    (NodeEvent.dispatched k).CarriedBy (Scheduler.dispatchPayload k owner fence refs) := rfl

section

variable {rt : Runtime} {s s' : Store}

/-- Every labelled step records the event of its label. -/
theorem LedgerStep.recorded {run : RunId} {id : NodeId} {e : NodeEvent}
    (h : LedgerStep rt s (some (run, id, e)) s') :
    ∃ record spec st old new payload, Recorded s s' run id e record spec st old new payload := by
  cases h with
  | @claim sched now claimedAt claim _ node st state next snapshot bound h =>
    exact ⟨sched.run, sched.spec, st, state, next, _,
      { record_run := rfl
        bound := bound
        replayed := h.replayed
        old_eq := h.state_eq
        legal := h.legal
        carried := dispatchPayload_carries _ _ _ _
        ownRun := fun _ _ => rfl
        events := by rw [h.store_eq]; rfl
        graphs := by rw [h.store_eq]
        runs := by rw [h.store_eq] }⟩
  | @complete sched claim attempt _ row execution st state next record hrun bound h =>
    have hnode := GraphSpec.nodeRef_nodeId h.nodeRef_eq
    have hcarried := sealedPayload_carries h.execution_eq
    rw [h.number_eq] at hcarried
    exact ⟨record, sched.spec, st, state, next, Store.sealedPayload attempt,
      { record_run := hrun
        bound := bound
        replayed := h.replayed
        old_eq := h.state_eq
        legal := h.legal
        carried := hcarried
        ownRun := fun _ _ => rfl
        events := by rw [h.store_eq, h.runId_eq, hnode]; rfl
        graphs := by rw [h.store_eq]; rfl
        runs := by rw [h.store_eq]; rfl }⟩
  | @cancel sched _ _ st state next bound h =>
    exact ⟨sched.run, sched.spec, st, state, next, _,
      { record_run := rfl
        bound := bound
        replayed := h.replayed
        old_eq := h.state_eq
        legal := h.legal
        carried := trivial
        ownRun := fun _ _ => rfl
        events := by rw [h.store_eq]; rfl
        graphs := by rw [h.store_eq]
        runs := by rw [h.store_eq] }⟩
  | @reclaim sched _ now number _ node row startedAt st state next bound h =>
    obtain rfl := h.number_eq
    exact ⟨sched.run, sched.spec, st, state, next,
      Store.sealedPayload (sched.reclaimedAttempt node row startedAt now),
      { record_run := rfl
        bound := bound
        replayed := h.replayed
        old_eq := h.state_eq
        legal := h.legal
        carried := sealedPayload_carries (a := sched.reclaimedAttempt node row startedAt now) rfl
        ownRun := fun _ _ => rfl
        events := by rw [h.store_eq]; rfl
        graphs := by rw [h.store_eq]; rfl
        runs := by rw [h.store_eq]; rfl }⟩
  | @admitted spec record receipt now _ node attempt result st state bound h =>
    have hrunning := (RunState.replay_wf h.replayed h.state_eq).checkingRuns h.checking
    have hlegal := NodeState.step_apply (NodeState.Step.decide receipt.attempt.number
      receipt.receiptRef receipt.verdict hrunning h.current h.checking)
    exact ⟨record, spec, st, state, _, Receipts.admittedPayload receipt,
      { record_run := rfl
        bound := bound
        replayed := h.replayed
        old_eq := h.state_eq
        legal := hlegal
        carried := ⟨rfl, rfl, rfl⟩
        ownRun := by
          intro ref href
          rw [h.nodeRef_eq] at href
          cases href
          rw [← h.runId_eq]
          rfl
        events := by rw [h.store_eq, h.runId_eq]; rfl
        graphs := by rw [h.store_eq]
        runs := by rw [h.store_eq] }⟩
  | @retry spec record _ st state next payload bound replayed state_eq legal =>
    exact ⟨record, spec, st, state, next, payload,
      { record_run := rfl
        bound := bound
        replayed := replayed
        old_eq := state_eq
        legal := legal
        carried := trivial
        ownRun := fun _ _ => rfl
        events := rfl
        graphs := rfl
        runs := rfl }⟩
  | @exhausted spec record _ st state next payload bound replayed state_eq stopped legal =>
    exact ⟨record, spec, st, state, next, payload,
      { record_run := rfl
        bound := bound
        replayed := replayed
        old_eq := state_eq
        legal := legal
        carried := trivial
        ownRun := fun _ _ => rfl
        events := rfl
        graphs := rfl
        runs := rfl }⟩
  | @opened spec record _ packet _ st state next bound h =>
    exact ⟨record, spec, st, state, next, Gates.openedPayload packet,
      { record_run := rfl
        bound := bound
        replayed := h.replayed
        old_eq := h.state_eq
        legal := h.legal
        carried := rfl
        ownRun := fun _ _ => rfl
        events := by rw [h.store_eq]; rfl
        graphs := by rw [h.store_eq]
        runs := by rw [h.store_eq] }⟩
  | @decided _ _ packet decision payload decisions waits carried =>
    obtain ⟨record, spec, st, state, hrun, bound, hst, hs, hw⟩ := waits
    exact ⟨record, spec, st, state, state.route decision, payload,
      { record_run := hrun
        bound := bound
        replayed := hst
        old_eq := hs
        legal := decided_legal decision hst hs hw
        carried := carried
        ownRun := fun _ _ => rfl
        events := rfl
        graphs := rfl
        runs := rfl }⟩

end

namespace Store

variable {s s' : Store}

theorem eventsOf_of_events {es : List StoredEvent} (h : s'.events = s.events ++ es) (run : RunId) :
    s'.eventsOf run = s.eventsOf run ++ es.filter (fun e => e.runId = run) := by
  simp only [eventsOf, h, List.filter_append]

/-- An event of one run leaves the log of the others as it is. -/
theorem eventsOf_other {e : StoredEvent} (h : s'.events = s.events ++ [e]) {run : RunId}
    (hne : e.runId ≠ run) : s'.eventsOf run = s.eventsOf run := by
  rw [eventsOf_of_events h, List.filter_cons_of_neg (by simpa using hne), List.filter_nil,
    List.append_nil]

theorem eventsOf_self {e : StoredEvent} (h : s'.events = s.events ++ [e]) :
    s'.eventsOf e.runId = s.eventsOf e.runId ++ [e] := by
  rw [eventsOf_of_events h, List.filter_cons_of_pos (by simp), List.filter_nil]

/-- A run-level event leaves every replay as it is. -/
theorem replay_runLevel {e : StoredEvent} (h : s'.events = s.events ++ [e]) (he : e.nodeId = none)
    {run : RunId} {spec : GraphSpec} {st : RunState} (hst : s.replay run spec = .ok st) :
    s'.replay run spec = .ok st := by
  unfold replay at hst ⊢
  by_cases hr : e.runId = run
  · subst hr
    rw [eventsOf_self h]
    exact RunState.replay_concat_runLevel hst he
  · rw [eventsOf_other h hr]
    exact hst

end Store

namespace Recorded

variable {s s' : Store} {run : RunId} {id : NodeId} {e : NodeEvent} {record : GraphRun}
  {spec : GraphSpec} {st : RunState} {old new : NodeState} {payload : Json}

/-- The recorded event moves its node by the event that was checked, and no other
node of the run. -/
theorem replay_self (h : Recorded s s' run id e record spec st old new payload) :
    s'.replay run spec = .ok (st.insert id new) := by
  have hknown : (spec.findNode id).isSome = true := by
    rw [← RunState.replay_isSome h.replayed id, h.old_eq, Option.isSome_some]
  obtain ⟨n, hn⟩ := Option.isSome_iff_exists.mp hknown
  have hnode : spec.nodeRef id = some (spec.refOf n) := by
    rw [GraphSpec.nodeRef, hn, Option.map_some]
  have hnodes : st.nodes id = some (spec.refOf n) := by
    rw [RunState.replay_nodes h.replayed, hnode]
  have hdec := NodeEvent.fromStored_of_carried (s.events.length + 1) run id (spec.refOf n) h.carried
  rw [h.ownRun _ hnode] at hdec
  have hself := Store.eventsOf_self h.events
  have hst := h.replayed
  unfold Store.replay at hst ⊢
  change s'.eventsOf run = _ at hself
  rw [hself]
  exact RunState.replay_concat_node hst rfl hnodes hdec h.old_eq h.legal

theorem replay_other (h : Recorded s s' run id e record spec st old new payload) {run' : RunId}
    (hne : run' ≠ run) (spec' : GraphSpec) : s'.replay run' spec' = s.replay run' spec' := by
  unfold Store.replay
  rw [Store.eventsOf_other h.events (fun heq => hne heq.symm)]

theorem stored (h : Recorded s s' run id e record spec st old new payload) {r : GraphRun}
    {x : GraphSpec} : s'.Stored r x ↔ s.Stored r x := by
  simp only [Store.Stored, Store.specOf, h.graphs, h.runs]

end Recorded

/-! ### Soundness is preserved -/

section

variable {rt : Runtime} {s s' : Store}

theorem Recorded.sound {run : RunId} {id : NodeId} {e : NodeEvent} {record : GraphRun}
    {spec : GraphSpec} {st : RunState} {old new : NodeState} {payload : Json}
    (h : Recorded s s' run id e record spec st old new payload) (hs : s.Sound) : s'.Sound := by
  have hrun : s.hasRun run = true := by
    rw [← h.record_run]
    exact h.bound.1.hasRun
  refine { runsDistinct := h.runs ▸ hs.runsDistinct
           graphKnown := ?_, eventsOfRuns := ?_, replays := ?_ }
  · intro r hr
    rw [h.runs] at hr
    have hknown := hs.graphKnown r hr
    simpa only [Store.specOf, h.graphs] using hknown
  · intro ev hev
    rw [h.events, List.mem_append, List.mem_singleton] at hev
    simp only [Store.hasRun, h.runs]
    rcases hev with hev | rfl
    · exact hs.eventsOfRuns ev hev
    · exact hrun
  · intro r x hrx
    have hold := h.stored.mp hrx
    by_cases hr : r.runId = run
    · have hsame := hs.stored_unique hold h.bound.1 (hr.trans h.record_run.symm)
      obtain ⟨rfl, rfl⟩ := hsame
      rw [hr]
      exact ⟨_, h.replay_self⟩
    · rw [h.replay_other hr]
      exact hs.replays r x hold

/-- The events of a run that is not stored: none. -/
theorem Store.Sound.eventsOf_nil (hs : s.Sound) {run : RunId} (h : s.hasRun run = false) :
    s.eventsOf run = [] := by
  rw [Store.eventsOf, List.filter_eq_nil_iff]
  intro e he heq
  simp only [decide_eq_true_eq] at heq
  have hrun := hs.eventsOfRuns e he
  rw [heq, h] at hrun
  cases hrun

theorem Store.Sound.graph (hs : s.Sound) (row : GraphRow) :
    Store.Sound { s with graphs := s.graphs ++ [row] } := by
  refine { runsDistinct := hs.runsDistinct, graphKnown := ?_, eventsOfRuns := hs.eventsOfRuns
           replays := ?_ }
  · intro r hr
    obtain ⟨spec, hspec⟩ := Option.isSome_iff_exists.mp (hs.graphKnown r hr)
    rw [Store.specOf_append hspec]
    rfl
  · intro r x hrx
    obtain ⟨spec, hspec⟩ := Option.isSome_iff_exists.mp (hs.graphKnown r hrx.1)
    have hx : spec = x := Option.some.inj ((Store.specOf_append hspec).symm.trans hrx.2)
    exact hs.replays r x ⟨hrx.1, hx ▸ hspec⟩

theorem Store.Sound.revoke (hs : s.Sound) {run : RunId} {payload : Json}
    (known : s.hasRun run = true) :
    Store.Sound { s with events :=
      s.events ++ [s.nextEvent run none kinds.receiptRevoked payload] } :=
  { runsDistinct := hs.runsDistinct
    graphKnown := hs.graphKnown
    eventsOfRuns := by
      intro e he
      rw [List.mem_append, List.mem_singleton] at he
      rcases he with he | rfl
      · exact hs.eventsOfRuns e he
      · exact known
    replays := by
      intro r x hrx
      obtain ⟨st, hst⟩ := hs.replays r x hrx
      exact ⟨st, Store.replay_runLevel rfl rfl hst⟩ }

/-- The store after `create_run`. -/
def Store.withRun (s : Store) (r : GraphRun) : Store :=
  { s with
    runs := s.runs ++ [r]
    events := s.events ++ [s.nextEvent r.runId none kinds.runCreated (Store.runCreatedPayload r)] }

theorem Store.replay_withRun (s : Store) (r : GraphRun) {run : RunId} {spec : GraphSpec}
    {st : RunState} (h : s.replay run spec = .ok st) : (s.withRun r).replay run spec = .ok st := by
  have hevents : (s.withRun r).events = s.events ++ [s.nextEvent r.runId none kinds.runCreated
    (Store.runCreatedPayload r)] := rfl
  exact Store.replay_runLevel hevents rfl h

/-- A run starts with every node of its graph open. -/
theorem Store.Sound.replay_withRun (hs : s.Sound) {r : GraphRun} (fresh : s.hasRun r.runId = false)
    (spec : GraphSpec) :
    (s.withRun r).replay r.runId spec = .ok (RunState.new r.runId spec) := by
  have hnil : s.replay r.runId spec = .ok (RunState.new r.runId spec) := by
    unfold Store.replay
    rw [hs.eventsOf_nil fresh]
    rfl
  exact s.replay_withRun r hnil

theorem Store.Sound.run (hs : s.Sound) {r : GraphRun} (fresh : s.hasRun r.runId = false)
    (known : (s.specOf r.graphRef).isSome) : (s.withRun r).Sound := by
  refine { runsDistinct := ?_, graphKnown := ?_, eventsOfRuns := ?_, replays := ?_ }
  · have hfresh : r.runId ∉ s.runs.map (·.runId) := by
      intro hmem
      rw [Store.hasRun_iff.mpr (List.mem_map.mp hmem)] at fresh
      cases fresh
    rw [show (s.withRun r).runs = s.runs ++ [r] from rfl, List.map_append, List.map_singleton,
      ← List.concat_eq_append]
    exact hs.runsDistinct.concat hfresh
  · intro q hq
    rcases List.mem_append.mp hq with hq | hq
    · exact hs.graphKnown q hq
    · rw [List.mem_singleton.mp hq]
      exact known
  · intro e he
    rw [Store.hasRun_iff]
    rcases List.mem_append.mp he with he | he
    · obtain ⟨q, hq, heq⟩ := Store.hasRun_iff.mp (hs.eventsOfRuns e he)
      exact ⟨q, List.mem_append_left _ hq, heq⟩
    · rw [List.mem_singleton.mp he]
      exact ⟨r, List.mem_append_right _ (List.mem_singleton_self r), rfl⟩
  · intro q x hqx
    rcases List.mem_append.mp hqx.1 with hq | hq
    · obtain ⟨st, hst⟩ := hs.replays q x ⟨hq, hqx.2⟩
      exact ⟨st, s.replay_withRun r hst⟩
    · rw [List.mem_singleton.mp hq]
      exact ⟨_, hs.replay_withRun fresh x⟩

theorem LedgerStep.sound {label : Option (RunId × NodeId × NodeEvent)}
    (h : LedgerStep rt s label s') (hs : s.Sound) : s'.Sound := by
  cases label with
  | some l =>
    obtain ⟨run, id, e⟩ := l
    obtain ⟨record, spec, st, old, new, payload, hrec⟩ := h.recorded
    exact hrec.sound hs
  | none =>
    cases h with
    | same => exact hs
    | graph row fresh => exact hs.graph row
    | run r fresh known => exact hs.run fresh known
    | revoke run payload known => exact hs.revoke known

end

/-- Soundness holds of every store that legal use reaches. -/
theorem sound_invariant (rt : Runtime) : (legalLedger rt).Invariant Store.Sound := by
  refine System.Invariant.step System.invariant_true ?_ ?_
  · rintro s rfl
    exact Store.sound_empty
  · rintro s op s' - hs ⟨legal, rfl⟩
    exact (exec_step rt s legal).sound hs

/-! ### What every operation does to the replays -/

namespace LedgerOp

/-- Whether a result reports a node-level success: an event about one node. -/
def nodeLevel : (op : LedgerOp) → op.Result → Bool
  | claimNext _ _ _, .ok (.claimed _) => true
  | complete _ _ _, .ok () => true
  | cancel _ _, .ok () => true
  | reclaim _ _ _, .ok _ => true
  | admitReceipt _ _ _ _, .ok () => true
  | applyRetryPolicy _ _ _ _ _, .ok (.retry _ _ _) => true
  | applyRetryPolicy _ _ _ _ _, .ok (.exhausted _ .cancel) => true
  | openResolveWork _ _ _ _ _, .ok _ => true
  | admitDecision _ _, .ok () => true
  | appendDecision _ _ _ _ _, .ok () => true
  | _, _ => false

/-- Node-level successes are exactly the results that report a checked event. -/
theorem checked_isSome (rt : Runtime) (s : Store) (op : LedgerOp) :
    (op.checked (op.exec rt s).1).isSome = op.nodeLevel (op.exec rt s).1 := by
  cases op with
  | complete sched claim attempt =>
    change (checked (.complete sched claim attempt)
        (s.transaction (sched.complete rt s claim attempt)).1).isSome =
      nodeLevel (.complete sched claim attempt)
        (s.transaction (sched.complete rt s claim attempt)).1
    cases h : sched.complete rt s claim attempt with
    | error e => rfl
    | ok out =>
      obtain ⟨u, s'⟩ := out
      obtain ⟨row, execution, st, state, next, hdone⟩ := Scheduler.complete_ok rt h
      simp only [Store.transaction, checked, nodeLevel, hdone.execution_eq, Option.map_some,
        Option.isSome_some]
  | storeGraph spec => rfl
  | createRun run => rfl
  | revokeReceipt run receiptId reason => rfl
  | claimNext sched now claimedAt =>
    generalize (exec rt s (.claimNext sched now claimedAt)).1 = r
    cases r with
    | error e => rfl
    | ok out => cases out <;> rfl
  | applyRetryPolicy spec run id narrowing now =>
    generalize (exec rt s (.applyRetryPolicy spec run id narrowing now)).1 = r
    cases r with
    | error e => rfl
    | ok out =>
      cases out with
      | retry cls started cap => rfl
      | exhausted reason route => cases route <;> rfl
  | cancel sched id =>
    generalize (exec rt s (.cancel sched id)).1 = r
    cases r <;> rfl
  | reclaim sched id now =>
    generalize (exec rt s (.reclaim sched id now)).1 = r
    cases r <;> rfl
  | admitReceipt spec run receipt now =>
    generalize (exec rt s (.admitReceipt spec run receipt now)).1 = r
    cases r <;> rfl
  | openResolveWork spec run id now expiresAt =>
    generalize (exec rt s (.openResolveWork spec run id now expiresAt)).1 = r
    cases r <;> rfl
  | admitDecision run d =>
    generalize (exec rt s (.admitDecision run d)).1 = r
    cases r <;> rfl
  | appendDecision run id packet decision payload =>
    generalize (exec rt s (.appendDecision run id packet decision payload)).1 = r
    cases r <;> rfl

/-- An operation that fails leaves the store as it is. -/
theorem exec_failed (rt : Runtime) (s : Store) (op : LedgerOp)
    (h : op.succeeded (op.exec rt s).1 = false) : (op.exec rt s).2 = s := by
  have hfail : ∀ {ε α : Type} (body : Except ε (α × Store)),
      (s.transaction body).1.isOk = false → (s.transaction body).2 = s := by
    intro ε α body hbody
    cases body with
    | error e => rfl
    | ok out => cases hbody
  cases op <;> exact hfail _ h

end LedgerOp

section

variable {rt : Runtime} {s s' : Store}

/-- A stored run keeps its record and its graph. -/
theorem LedgerStep.stored {label : Option (RunId × NodeId × NodeEvent)}
    (h : LedgerStep rt s label s') {r : GraphRun} {spec : GraphSpec} (hr : s.Stored r spec) :
    s'.Stored r spec := by
  cases label with
  | some l =>
    obtain ⟨run, id, e⟩ := l
    obtain ⟨record, x, st, old, new, payload, hrec⟩ := h.recorded
    exact hrec.stored.mpr hr
  | none =>
    cases h with
    | same => exact hr
    | graph row fresh => exact ⟨hr.1, Store.specOf_append hr.2⟩
    | run q fresh known => exact ⟨List.mem_append_left _ hr.1, hr.2⟩
    | revoke run payload known => exact hr

/-- A step that records no node event leaves every replay as it is. -/
theorem LedgerStep.replay_unlabelled (h : LedgerStep rt s none s') {run : RunId}
    {spec : GraphSpec} {st : RunState} (hst : s.replay run spec = .ok st) :
    s'.replay run spec = .ok st := by
  cases h with
  | same => exact hst
  | graph row fresh => exact hst
  | run q fresh known => exact s.replay_withRun q hst
  | revoke run payload known => exact Store.replay_runLevel rfl rfl hst

end

/-- In every store that legal use reaches, every run's log replays. A node-level
operation that succeeds moves exactly one node of its run, to another state, by
the event the operation checked; any other result leaves every replayed state as
it is, and a failure leaves the whole store as it is. -/
theorem replay_refines_reducer (rt : Runtime) {s : Store} (hs : (legalLedger rt).Reachable s) :
    (∀ r spec, s.Stored r spec →
      ∃ st, RunState.replay r.runId spec (s.eventsOf r.runId) = .ok st) ∧
    ∀ op : LedgerOp, op.Legal s →
      (∀ r spec, s.Stored r spec → (op.exec rt s).2.Stored r spec) ∧
      (op.nodeLevel (op.exec rt s).1 = true → ∃ run id e record spec st old new,
        op.checked (op.exec rt s).1 = some (run, id, e) ∧ record.runId = run ∧
        s.Stored record spec ∧ s.replay run spec = .ok st ∧ st.node id = some old ∧
        old.apply e = .ok new ∧ new ≠ old ∧
        (op.exec rt s).2.replay run spec = .ok (st.insert id new) ∧
        ∀ r x, s.Stored r x → r.runId ≠ run →
          (op.exec rt s).2.replay r.runId x = s.replay r.runId x) ∧
      (op.nodeLevel (op.exec rt s).1 = false → ∀ r spec, s.Stored r spec →
        (op.exec rt s).2.replay r.runId spec = s.replay r.runId spec) ∧
      (op.succeeded (op.exec rt s).1 = false → (op.exec rt s).2 = s) := by
  have hsound := sound_invariant rt s hs
  refine ⟨hsound.replays, ?_⟩
  intro op legal
  have hstep := exec_step rt s legal
  have hsome := LedgerOp.checked_isSome rt s op
  refine ⟨fun r spec hr => hstep.stored hr, ?_, ?_, LedgerOp.exec_failed rt s op⟩
  · intro hnode
    rw [hnode] at hsome
    obtain ⟨⟨run, id, e⟩, hlabel⟩ := Option.isSome_iff_exists.mp hsome
    rw [hlabel] at hstep
    obtain ⟨record, spec, st, old, new, payload, hrec⟩ := hstep.recorded
    have hne := NodeState.step_ne (NodeState.apply_step hrec.legal)
    refine ⟨run, id, e, record, spec, st, old, new, hlabel, hrec.record_run, hrec.bound.1,
      hrec.replayed, hrec.old_eq, hrec.legal, hne, hrec.replay_self, ?_⟩
    intro r x _ hr
    exact hrec.replay_other hr x
  · intro hnode r spec hr
    rw [hnode, Option.isSome_eq_false_iff, Option.isNone_iff_eq_none] at hsome
    rw [hsome] at hstep
    obtain ⟨st, hst⟩ := hsound.replays r spec hr
    rw [hst]
    exact hstep.replay_unlabelled hst

/-! ### Plays -/

/-- The store after operations in order. -/
def Store.play (rt : Runtime) (s : Store) (ops : List LedgerOp) : Store :=
  ops.foldl (fun s op => (op.exec rt s).2) s

/-- The operation is on the run with this record and this graph. -/
def LedgerOp.Of (record : GraphRun) (spec : GraphSpec) : LedgerOp → Prop
  | claimNext sched _ _ => sched.run = record ∧ sched.spec = spec
  | complete sched claim _ => claim.runId = record.runId ∧ sched.spec = spec
  | cancel sched _ => sched.run = record ∧ sched.spec = spec
  | reclaim sched _ _ => sched.run = record ∧ sched.spec = spec
  | admitReceipt x r _ _ => r = record ∧ x = spec
  | applyRetryPolicy x r _ _ _ => r = record ∧ x = spec
  | openResolveWork x r _ _ _ => r = record ∧ x = spec
  | revokeReceipt _ _ _ => True
  | _ => False

instance (record : GraphRun) (spec : GraphSpec) (op : LedgerOp) :
    Decidable (op.Of record spec) := by
  cases op <;> unfold LedgerOp.Of <;> infer_instance

theorem LedgerOp.Of.legal {record : GraphRun} {spec : GraphSpec} {op : LedgerOp}
    (h : op.Of record spec) {s : Store} (bound : s.Bound record spec) : op.Legal s := by
  cases op with
  | claimNext sched now claimedAt =>
    obtain ⟨rfl, rfl⟩ := h
    exact bound
  | complete sched claim attempt =>
    obtain ⟨hrun, rfl⟩ := h
    exact ⟨record, hrun.symm, bound⟩
  | cancel sched id =>
    obtain ⟨rfl, rfl⟩ := h
    exact bound
  | reclaim sched id now =>
    obtain ⟨rfl, rfl⟩ := h
    exact bound
  | admitReceipt x r receipt now =>
    obtain ⟨rfl, rfl⟩ := h
    exact bound
  | applyRetryPolicy x r id narrowing now =>
    obtain ⟨rfl, rfl⟩ := h
    exact bound
  | openResolveWork x r id now expiresAt =>
    obtain ⟨rfl, rfl⟩ := h
    exact bound
  | revokeReceipt run receiptId reason => trivial
  | storeGraph | createRun | admitDecision | appendDecision => exact absurd h id

/-- Operations on one bound run stay legal, so a play of them is a run of every
ledger that allows legal use. -/
theorem Store.play_reachable {rt : Runtime} {allowed : Store → LedgerOp → Prop}
    (hallowed : ∀ s op, op.Legal s → allowed s op) {s : Store}
    (hs : (ledgerSystem rt allowed).Reachable s) {record : GraphRun} {spec : GraphSpec}
    (bound : s.Bound record spec) {ops : List LedgerOp} (hops : ∀ op ∈ ops, op.Of record spec) :
    (ledgerSystem rt allowed).Reachable (s.play rt ops) ∧ (s.play rt ops).Bound record spec := by
  induction ops generalizing s with
  | nil => exact ⟨hs, bound⟩
  | cons op rest ih =>
    have hlegal := (hops op List.mem_cons_self).legal bound
    have hstep := exec_step rt s hlegal
    exact ih (.step hs ⟨hallowed s op hlegal, rfl⟩) ⟨hstep.stored bound.1, bound.2⟩
      (fun x hx => hops x (List.mem_cons_of_mem op hx))

/-! ### A run to the first acceptance

A graph of two nodes, a patch and a check of it, and the ledger after each
operation of the patch: the concrete stores at which the results are tried. -/

namespace Pilot

def zeroDigest : Digest :=
  ⟨"sha256:0000000000000000000000000000000000000000000000000000000000000000", by decide +kernel⟩

/-- Constants in the place of the third-party functions: no result depends on them. -/
def runtime : Runtime :=
  { text := fun _ => ""
    jcs := fun _ => .ok []
    sha256 := fun _ => zeroDigest }

def one : PositiveU32 := .first

def graphId : GraphId := ⟨"pilot", by decide +kernel⟩
def patchId : NodeId := ⟨"patch", by decide +kernel⟩
def checkId : NodeId := ⟨"check", by decide +kernel⟩
def runId : RunId := ⟨"run-1", by decide +kernel⟩
def laterRunId : RunId := ⟨"run-2", by decide +kernel⟩
def ident : Ident := ⟨"tests", by decide +kernel⟩
def resultPort : Ident := ⟨"result", by decide +kernel⟩
def policy : PolicyRef := ⟨⟨"default", by decide +kernel⟩, one⟩
def verifier : VerifierRef := ⟨⟨"pinned", by decide +kernel⟩, one, zeroDigest⟩
def resultType : TypeRef := ⟨⟨"patch_result", by decide +kernel⟩, one, zeroDigest⟩

def patchRef : NodeRef := ⟨graphId, patchId, one⟩

def node (id : NodeId) (kind : NodeKind) (deps : List Dependency) : NodeSpec :=
  { id := id, revision := one, kind := kind, displayName := none, prompt := "do", deps := deps
    evidencePorts := [], resultType := resultType
    acceptance := { claim := "done", requiredChecks := [ident], verifier := verifier
                    policyRef := policy }
    retryPolicy :=
      { maxAttempts := 2, allowedFailureClasses := [], onExhaustion := .gate, bound := by decide }
    authorityPolicyRef := policy
    resourceScope := [⟨ident, .exclusive⟩]
    supersedes := none }

def patch : NodeSpec := node patchId .task []

def two : PositiveU32 := ⟨2, Nat.two_pos, patch.retryPolicy.bound⟩

def check : NodeSpec :=
  node checkId .check [{ node := patchRef, outputPort := resultPort, expectedType := resultType }]

def spec : GraphSpec :=
  { record := .graphSpec, schemaVersion := 1, graphId := graphId, revision := one
    displayName := none, nodes := [patch, check], targets := [⟨graphId, checkId, one⟩]
    budget := { totalAttempts := 5, deadline := none, bound := by decide }
    supersedes := none }

def run : GraphRun :=
  { record := .graphRun, schemaVersion := 1, runId := runId, graphRef := spec.graphRef
    budgetLineageRef := none, admittedImports := [] }

def controller : ControllerId := ⟨"controller-1", by decide +kernel⟩

def now : Timestamp := ⟨"2026-01-01T00:00:00Z", by decide +kernel⟩

/-- The value of a computation that succeeds. -/
def get {ε α : Type} (x : Except ε α) (h : x.isOk = true) : α :=
  match x, h with
  | .ok a, _ => a

theorem get_eq {ε α : Type} {x : Except ε α} (h : x.isOk = true) : x = .ok (get x h) := by
  cases x with
  | ok a => rfl
  | error e => cases h

def scheduler : Scheduler := get (Scheduler.new spec run controller) (by decide +kernel)

/-- The store after each operation. -/
def created : Store :=
  ((LedgerOp.createRun run).exec runtime ((LedgerOp.storeGraph spec).exec runtime Store.empty).2).2

def claimPatch : LedgerOp := .claimNext scheduler now "2026-01-01T00:00:01Z"
def claimed : Store := (claimPatch.exec runtime created).2

theorem scheduler_eq : scheduler.run = run ∧ scheduler.spec = spec := by decide +kernel

theorem created_reachable : (legalLedger runtime).Reachable created :=
  .step (a := .createRun run) (.step (a := .storeGraph spec) (.init rfl) ⟨trivial, rfl⟩)
    ⟨trivial, rfl⟩

theorem bound {s : Store} (hrun : run ∈ s.runs) (hspec : s.specOf run.graphRef = some spec) :
    s.Bound run spec := by
  have hadmitted := scheduler.admitted
  rw [scheduler_eq.2] at hadmitted
  exact ⟨⟨hrun, hspec⟩, scheduler.graph, hadmitted⟩

theorem created_bound : created.Bound run spec := bound (by decide +kernel) (by decide +kernel)

theorem claimPatch_legal : claimPatch.Legal created := by
  change created.Bound scheduler.run scheduler.spec
  rw [scheduler_eq.1, scheduler_eq.2]
  exact created_bound

theorem claimed_reachable : (legalLedger runtime).Reachable claimed :=
  .step (a := claimPatch) created_reachable ⟨claimPatch_legal, rfl⟩

end Pilot

theorem replay_refines_reducer_claim :
    ∃ run id e record spec st old new,
      Pilot.claimPatch.checked (Pilot.claimPatch.exec Pilot.runtime Pilot.created).1 =
        some (run, id, e) ∧ record.runId = run ∧ Pilot.created.Stored record spec ∧
      Pilot.created.replay run spec = .ok st ∧ st.node id = some old ∧ old.apply e = .ok new ∧
      new ≠ old ∧ (Pilot.claimPatch.exec Pilot.runtime Pilot.created).2.replay run spec =
        .ok (st.insert id new) ∧
      ∀ r x, Pilot.created.Stored r x → r.runId ≠ run →
        (Pilot.claimPatch.exec Pilot.runtime Pilot.created).2.replay r.runId x =
          Pilot.created.replay r.runId x :=
  ((replay_refines_reducer Pilot.runtime Pilot.created_reachable).2 Pilot.claimPatch
    Pilot.claimPatch_legal).2.1 (by decide +kernel)

end Checkspan
