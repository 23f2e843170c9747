import Checkspan.AdmittedOrder
import Checkspan.Claims

/-!
# Which node `claim_next` claims

The scan over the admitted order takes the first open node whose dependencies resolve
and whose resources are free. What the four outcomes say is compared with the ledger,
and the refusals are told apart from them.
-/

namespace Checkspan

open Transition

/-! ### Resolution, both ways -/

namespace DependencyService

variable (svc : DependencyService)

/-- Why a dependency cannot be used, if it cannot. -/
def blockerOf (dep : Dependency) : Option Blocker :=
  match svc.resolveOne dep with
  | .ok _ => none
  | .error b => some b

/-- The blockers of a node, in the order it declares its dependencies. -/
def blockersOf (node : NodeSpec) : List Blocker := node.deps.filterMap svc.blockerOf

variable {svc}

theorem resolveEach_blockers (deps : List Dependency) :
    (svc.resolveEach deps).2 = deps.filterMap svc.blockerOf := by
  induction deps with
  | nil => rfl
  | cons dep rest ih =>
    simp only [resolveEach, List.filterMap_cons, blockerOf]
    cases svc.resolveOne dep with
    | ok r => exact ih
    | error b => rw [ih]

theorem resolveEach_eq {deps : List Dependency} {resolved : List ResolvedDependency} :
    svc.resolveEach deps = (resolved, []) ↔
      List.Forall₂ (fun dep r => svc.resolveOne dep = .ok r) deps resolved := by
  refine ⟨resolveEach_ok, ?_⟩
  intro h
  induction h with
  | nil => rfl
  | cons hdep _ ih => simp only [resolveEach, ih, hdep]

/-- A node resolves to the receipts of its dependencies, one each and in order, or is
refused with the blockers of those that have none. -/
theorem resolve_known {id : NodeId} {node : NodeSpec} (hnode : svc.spec.findNode id = some node) :
    (∃ resolved, svc.resolve id = .ok ⟨id, resolved⟩ ∧ svc.blockersOf node = [] ∧
      List.Forall₂ (fun dep r => svc.resolveOne dep = .ok r) node.deps resolved) ∨
    (svc.resolve id = .error (svc.blockersOf node) ∧ svc.blockersOf node ≠ []) := by
  have hblockers := svc.resolveEach_blockers node.deps
  have hknown : svc.knownNode id = .ok node := someOr_eq_ok.mpr hnode
  cases heach : svc.resolveEach node.deps with
  | mk resolved blockers =>
    rw [heach] at hblockers
    simp only [resolve, hknown, Except.mapError, bind, Except.bind, heach]
    cases blockers with
    | nil => exact Or.inl ⟨resolved, rfl, hblockers.symm, resolveEach_ok heach⟩
    | cons b rest =>
      refine Or.inr ⟨?_, ?_⟩
      · rw [blockersOf, ← hblockers]
      · rw [blockersOf, ← hblockers]
        exact List.cons_ne_nil b rest

end DependencyService

/-! ### The scan -/

namespace Scheduler

/-- The node is open, each of its dependencies resolves, and no active claim excludes
one of its resources. -/
structure Dispatchable (svc : DependencyService) (active : List ClaimRow) (node : NodeSpec)
    (state : NodeState) (resolved : List ResolvedDependency) : Prop where
  known : svc.spec.findNode node.id = some node
  state_eq : svc.state.node node.id = some state
  isOpen : state.status = .open
  resolves : List.Forall₂ (fun dep r => svc.resolveOne dep = .ok r) node.deps resolved
  free : ∀ wanted ∈ node.resourceScope, ∀ row ∈ active, ∀ held ∈ row.resources,
    excludes wanted held = false

def Ready (svc : DependencyService) (active : List ClaimRow) (id : NodeId) : Prop :=
  ∃ node state resolved, node.id = id ∧ Dispatchable svc active node state resolved

/-- The declaration of a node that is open. -/
def openNode (svc : DependencyService) (id : NodeId) : Option NodeSpec :=
  if (svc.state.node id).any (fun state => state.status = .open) then svc.spec.findNode id else none

/-- What an open node with blockers is listed with. -/
def blockedEntry (svc : DependencyService) (id : NodeId) : Option (NodeId × String) :=
  (openNode svc id).bind (fun node =>
    if svc.blockersOf node = [] then none else some (id, displayBlockers (svc.blockersOf node)))

/-- What an open node whose dependencies resolve is listed with when a claim excludes
one of its resources. -/
def conflictEntry (svc : DependencyService) (active : List ClaimRow) (id : NodeId) :
    Option (NodeId × Ident) :=
  (openNode svc id).bind (fun node =>
    if svc.blockersOf node = [] then (conflict node active).map (fun resource => (id, resource))
    else none)

section

variable {svc : DependencyService} {active : List ClaimRow}

theorem conflict_eq_none {node : NodeSpec} : conflict node active = none ↔
    ∀ wanted ∈ node.resourceScope, ∀ row ∈ active, ∀ held ∈ row.resources,
      excludes wanted held = false := by
  refine ⟨fun h wanted hw row hr held hh => conflict_none h hw hr hh, ?_⟩
  intro h
  unfold conflict
  rw [Option.map_eq_none_iff, List.find?_eq_none]
  intro wanted hw
  simp only [List.any_eq_true, not_exists, not_and, Bool.not_eq_true]
  exact fun row hr held hh => h wanted hw row hr held hh

theorem openNode_eq_some {id : NodeId} {node : NodeSpec} : openNode svc id = some node ↔
    svc.spec.findNode id = some node ∧ ∃ state, svc.state.node id = some state ∧
      state.status = .open := by
  unfold openNode
  cases svc.state.node id with
  | none => simp
  | some state => simp [and_comm]

/-- A node that is not an open node of the graph is passed over. -/
theorem scan_skip {id : NodeId} (hopen : openNode svc id = none) (rest : List NodeId)
    (blocked : List (NodeId × String)) (conflicts : List (NodeId × Ident)) :
    ¬ Ready svc active id ∧ scan svc active (id :: rest) blocked conflicts =
      scan svc active rest (blocked ++ (blockedEntry svc id).toList)
        (conflicts ++ (conflictEntry svc active id).toList) := by
  constructor
  · rintro ⟨node, state, resolved, rfl, hready⟩
    have hsome := openNode_eq_some.mpr ⟨hready.known, state, hready.state_eq, hready.isOpen⟩
    rw [hopen] at hsome
    cases hsome
  · simp only [blockedEntry, conflictEntry, hopen, Option.bind_none, Option.toList_none,
      List.append_nil]
    rw [scan]
    split
    · rename_i state node hstate hnode
      have hclosed : state.status ≠ .open := by
        intro hstatus
        have hsome := openNode_eq_some.mpr ⟨hnode, state, hstate, hstatus⟩
        rw [hopen] at hsome
        cases hsome
      rw [if_pos hclosed]
    · rfl

variable (svc active) in
/-- One node of the scan: it is claimed, or noted with what holds it back. -/
theorem scan_cons (id : NodeId) (rest : List NodeId) (blocked : List (NodeId × String))
    (conflicts : List (NodeId × Ident)) :
    (∃ node state resolved, node.id = id ∧ Dispatchable svc active node state resolved ∧
      scan svc active (id :: rest) blocked conflicts = .found node state ⟨id, resolved⟩) ∨
    (¬ Ready svc active id ∧ scan svc active (id :: rest) blocked conflicts =
      scan svc active rest (blocked ++ (blockedEntry svc id).toList)
        (conflicts ++ (conflictEntry svc active id).toList)) := by
  cases hopen : openNode svc id with
  | none => exact Or.inr (scan_skip hopen rest blocked conflicts)
  | some node =>
    obtain ⟨hnode, state, hstate, hstatus⟩ := openNode_eq_some.mp hopen
    have hid := GraphSpec.findNode_id hnode
    -- Whoever is ready under this id is this node, with these dependencies.
    have hready : ∀ n st resolved, n.id = id → Dispatchable svc active n st resolved →
        svc.blockersOf node = [] ∧ conflict node active = none := by
      rintro n st resolved rfl hn
      obtain rfl := Option.some.inj (hn.known.symm.trans hnode)
      refine ⟨?_, conflict_eq_none.mpr hn.free⟩
      rw [DependencyService.blockersOf, ← DependencyService.resolveEach_blockers,
        DependencyService.resolveEach_eq.mpr hn.resolves]
    simp only [scan, hstate, hnode, hstatus, ne_eq, not_true_eq_false, if_false, blockedEntry,
      conflictEntry, hopen, Option.bind_some]
    rcases svc.resolve_known hnode with ⟨resolved, hres, hnil, hall⟩ | ⟨hres, hne⟩
    · rw [hres, if_pos hnil, if_pos hnil]
      cases hcon : conflict node active with
      | none =>
        refine Or.inl ⟨node, state, resolved, hid, ?_, rfl⟩
        subst hid
        exact { known := hnode
                state_eq := hstate
                isOpen := hstatus
                resolves := hall
                free := conflict_eq_none.mp hcon }
      | some resource =>
        refine Or.inr ⟨?_, ?_⟩
        · rintro ⟨n, st, rs, hn, hd⟩
          have hfree := (hready n st rs hn hd).2
          rw [hcon] at hfree
          cases hfree
        · simp
    · rw [hres, if_neg hne, if_neg hne]
      refine Or.inr ⟨?_, ?_⟩
      · rintro ⟨n, st, rs, hn, hd⟩
        exact hne (hready n st rs hn hd).1
      · simp

/-- The node is the first of the list that can be dispatched. -/
def First (svc : DependencyService) (active : List ClaimRow) (ids : List NodeId) (node : NodeSpec)
    (state : NodeState) (resolved : List ResolvedDependency) : Prop :=
  ∃ before after, ids = before ++ node.id :: after ∧ (∀ id ∈ before, ¬ Ready svc active id) ∧
    Dispatchable svc active node state resolved

variable (svc active) in
/-- The scan finds the first node that can be dispatched, or lists every open node with
what holds it back. -/
theorem scan_spec (ids : List NodeId) (blocked : List (NodeId × String))
    (conflicts : List (NodeId × Ident)) :
    (∃ node state resolved, First svc active ids node state resolved ∧
      scan svc active ids blocked conflicts = .found node state ⟨node.id, resolved⟩) ∨
    ((∀ id ∈ ids, ¬ Ready svc active id) ∧ scan svc active ids blocked conflicts =
      .nothing (blocked ++ ids.filterMap (blockedEntry svc))
        (conflicts ++ ids.filterMap (conflictEntry svc active))) := by
  induction ids generalizing blocked conflicts with
  | nil =>
    refine Or.inr ⟨fun id hid => absurd hid List.not_mem_nil, ?_⟩
    simp only [scan, List.filterMap_nil, List.append_nil]
  | cons id rest ih =>
    rcases scan_cons svc active id rest blocked conflicts with
      ⟨node, state, resolved, rfl, hd, hscan⟩ | ⟨hnot, hscan⟩
    · refine Or.inl ⟨node, state, resolved, ⟨[], rest, rfl, ?_, hd⟩, hscan⟩
      exact fun id hid => absurd hid List.not_mem_nil
    · rw [hscan]
      rcases ih (blocked ++ (blockedEntry svc id).toList)
          (conflicts ++ (conflictEntry svc active id).toList) with
        ⟨node, state, resolved, ⟨before, after, rfl, hbefore, hd⟩, hfound⟩ | ⟨hnone, hlists⟩
      · refine Or.inl ⟨node, state, resolved, ⟨id :: before, after, rfl, ?_, hd⟩, hfound⟩
        exact List.forall_mem_cons.mpr ⟨hnot, hbefore⟩
      · refine Or.inr ⟨List.forall_mem_cons.mpr ⟨hnot, hnone⟩, ?_⟩
        rw [hlists]
        cases hb : blockedEntry svc id <;> cases hc : conflictEntry svc active id <;>
          simp [hb, hc]

/-- Two nodes that are the first to be dispatched are one, with the same dependencies. -/
theorem First.unique {ids : List NodeId} {node node' : NodeSpec} {state state' : NodeState}
    {resolved resolved' : List ResolvedDependency} (h : First svc active ids node state resolved)
    (h' : First svc active ids node' state' resolved') :
    node' = node ∧ state' = state ∧ resolved' = resolved := by
  obtain ⟨before, after, hids, hbefore, hd⟩ := h
  obtain ⟨before', after', hids', hbefore', hd'⟩ := h'
  have hready : Ready svc active node.id := ⟨node, state, resolved, rfl, hd⟩
  have hready' : Ready svc active node'.id := ⟨node', state', resolved', rfl, hd'⟩
  have hid : node'.id = node.id := by
    rcases List.append_eq_append_iff.mp (hids.symm.trans hids') with
      ⟨mid, hmid, htail⟩ | ⟨mid, hmid, htail⟩
    · cases mid with
      | nil => exact (List.cons.inj htail).1.symm
      | cons x xs =>
        obtain ⟨rfl, -⟩ := List.cons.inj htail
        exact absurd hready (hbefore' _ (hmid ▸ by simp))
    · cases mid with
      | nil => exact (List.cons.inj htail).1
      | cons x xs =>
        obtain ⟨rfl, -⟩ := List.cons.inj htail
        exact absurd hready' (hbefore _ (hmid ▸ by simp))
  have hknown := hd'.known
  have hstate := hd'.state_eq
  rw [hid] at hknown hstate
  obtain rfl := Option.some.inj (hd.known.symm.trans hknown)
  refine ⟨rfl, Option.some.inj (hstate.symm.trans hd.state_eq), ?_⟩
  have hone := DependencyService.resolveEach_eq.mpr hd.resolves
  rw [DependencyService.resolveEach_eq.mpr hd'.resolves] at hone
  exact congrArg Prod.fst hone

theorem First.ready {ids : List NodeId} {node : NodeSpec} {state : NodeState}
    {resolved : List ResolvedDependency} (h : First svc active ids node state resolved) :
    ∃ id ∈ ids, Ready svc active id := by
  obtain ⟨before, after, rfl, -, hd⟩ := h
  exact ⟨node.id, by simp, node, state, resolved, rfl, hd⟩

end

/-! ### The number an attempt starts with -/

end Scheduler

namespace RunState

/-- A replay starts at most as many attempts of a node as it reads dispatches. -/
theorem replayFrom_started {st st' : RunState} {events : List StoredEvent}
    (h : st.replayFrom events = .ok st') {id : NodeId} {new : NodeState}
    (hnew : st'.node id = some new) : ∃ old, st.node id = some old ∧
      new.attemptsStarted ≤
        old.attemptsStarted + events.countP (fun e => e.kind = kinds.attemptDispatched) := by
  induction events generalizing st with
  | nil =>
    cases h
    exact ⟨new, hnew, Nat.le_add_right _ _⟩
  | cons e rest ih =>
    simp only [replayFrom] at h
    split at h
    · cases h
    · rename_i mid hmid
      obtain ⟨old, hold, hle⟩ := ih h
      rw [List.countP_cons]
      rcases applyStored_ok hmid with ⟨-, rfl⟩ | ⟨i, node, ev, a, b, -, -, hev, ha, hap, rfl⟩
      · exact ⟨old, hold, by omega⟩
      · by_cases hid : id = i
        · subst hid
          rw [node_insert_self] at hold
          obtain rfl := Option.some.inj hold
          refine ⟨a, ha, ?_⟩
          have hstep := NodeState.apply_step hap
          cases ev with
          | dispatched k =>
            have hkind : e.kind = kinds.attemptDispatched := (NodeEvent.fromStored_ok hev).1
            have hone : b.attemptsStarted = a.attemptsStarted + 1 := by
              cases hstep
              rfl
            simp only [hkind, decide_true, if_true]
            omega
          | _ =>
            have hsame := hstep.started_eq (by simp)
            omega
        · rw [node_insert_other _ _ hid] at hold
          exact ⟨old, hold, by omega⟩

theorem replay_started {run : RunId} {spec : GraphSpec} {events : List StoredEvent} {st : RunState}
    (h : replay run spec events = .ok st) {id : NodeId} {state : NodeState}
    (hstate : st.node id = some state) :
    state.attemptsStarted ≤ events.countP (fun e => e.kind = kinds.attemptDispatched) := by
  obtain ⟨old, hold, hle⟩ := replayFrom_started h hstate
  simp only [new, node, Option.map_eq_some_iff] at hold
  obtain ⟨-, -, rfl⟩ := hold
  rwa [NodeState.initial, Nat.zero_add] at hle

end RunState

namespace Scheduler

theorem nextNumber_eq {state : NodeState} {number : AttemptNumber} :
    nextNumber state = .ok number ↔ number.get = state.attemptsStarted + 1 := by
  refine ⟨nextNumber_ok, ?_⟩
  intro h
  have hlt := number.bound
  unfold nextNumber
  rw [dif_pos (by omega)]
  exact congrArg Except.ok (PositiveU32.ext_get h.symm)

/-! ### The writes of a claim -/

variable (rt : Runtime) (sched : Scheduler) (s : Store)

/-- The store takes the row and the event of a claim: the run is there, the node holds no
claim of this number, and the event is no larger than a record may be. -/
structure Takes (node : NodeSpec) (number : AttemptNumber) (refs : List ReceiptRef) : Prop where
  known : s.hasRun sched.run.runId = true
  free : ∀ row ∈ s.claims, row.runId = sched.run.runId → row.nodeId = node.id →
    row.number ≠ number
  fits : (rt.text (dispatchPayload number sched.controller (s.nextFence sched.run.runId)
    refs)).utf8ByteSize ≤ maxRecordLen

/-- The claim of an attempt. -/
def claimOf (node : NodeSpec) (number : AttemptNumber) (refs : List ReceiptRef) : Claim :=
  { runId := sched.run.runId
    nodeId := node.id
    number := number
    fence := s.nextFence sched.run.runId
    owner := sched.controller
    dependencyReceipts := refs
    narrowing := Narrowing.pending (s.eventsOf sched.run.runId) node.id }

/-- The store with the row and the event of a claim. -/
def withClaim (claimedAt : String) (node : NodeSpec) (number : AttemptNumber)
    (refs : List ReceiptRef) : Store :=
  { s with
    claims := s.claims ++ [sched.newRow node number (s.nextFence sched.run.runId) refs claimedAt]
    events := s.events ++ [s.nextEvent sched.run.runId (some node.id) kinds.attemptDispatched
      (dispatchPayload number sched.controller (s.nextFence sched.run.runId) refs)] }

end Scheduler

theorem Store.insertClaim_eq_ok {s s' : Store} {c : ClaimRow}
    (hfence : ∀ d ∈ s.claims, d.runId = c.runId → d.fence ≠ c.fence) :
    s.insertClaim c = .ok s' ↔ s.hasRun c.runId = true ∧
      (∀ d ∈ s.claims, d.runId = c.runId → d.nodeId = c.nodeId → d.number ≠ c.number) ∧
      s' = { s with claims := s.claims ++ [c] } := by
  constructor
  · intro h
    obtain ⟨hrun, -, hnumber, rfl⟩ := Store.insertClaim_ok h
    exact ⟨hrun, hnumber, rfl⟩
  · rintro ⟨hrun, hnumber, rfl⟩
    unfold Store.insertClaim
    rw [bind_eq_ok]
    refine ⟨(), ?_, rfl⟩
    rw [guardOk_eq_ok, hrun, Bool.true_and, Bool.not_eq_true', List.any_eq_false]
    intro d hd
    simp only [decide_eq_true_eq, not_and, not_or]
    exact fun hr => ⟨hnumber d hd hr, hfence d hd hr⟩

namespace Scheduler

variable {rt : Runtime} {sched : Scheduler} {s : Store}

/-- An open node is written under the next number, and only if the store takes it. -/
theorem writeClaim_eq_ok {node : NodeSpec} {state : NodeState} {snapshot : DependencySnapshot}
    {claimedAt : String} {number : AttemptNumber} {out : ClaimOutcome} {s' : Store}
    (hopen : state.status = .open) (hnumber : number.get = state.attemptsStarted + 1) :
    sched.writeClaim rt s node state snapshot claimedAt = .ok (out, s') ↔
      sched.Takes rt s node number snapshot.receiptRefs ∧
      out = .claimed (sched.claimOf s node number snapshot.receiptRefs) ∧
      s' = sched.withClaim s claimedAt node number snapshot.receiptRefs := by
  have happly : ∃ next, state.apply (.dispatched number) = .ok next :=
    ⟨_, NodeState.step_apply (.dispatch number hopen hnumber)⟩
  obtain ⟨next, happly⟩ := happly
  have hfresh : ∀ d ∈ s.claims, d.runId = sched.run.runId →
      d.fence ≠ s.nextFence sched.run.runId := by
    intro d hd hrun
    have hlt := Store.fence_lt_nextFence hd
    rw [hrun] at hlt
    exact Nat.ne_of_lt hlt
  unfold writeClaim
  rw [nextNumber_eq.mpr hnumber]
  simp only [bind_eq_ok, mapError_eq_ok, happly, Except.ok.injEq, exists_eq_left',
    Store.appendEvent_eq_ok, Prod.mk.injEq]
  constructor
  · rintro ⟨s₁, hs₁, s₂, ⟨hfits, -, rfl⟩, rfl, rfl⟩
    obtain ⟨hrun, hfree, rfl⟩ := (Store.insertClaim_eq_ok hfresh).mp hs₁
    exact ⟨⟨hrun, hfree, hfits⟩, rfl, rfl⟩
  · rintro ⟨htakes, rfl, rfl⟩
    refine ⟨_, (Store.insertClaim_eq_ok hfresh).mpr ⟨htakes.known, htakes.free, rfl⟩, _,
      ⟨htakes.fits, ?_, rfl⟩, rfl, rfl⟩
    simp only [Store.eventAllowed, Bool.and_eq_true]
    exact ⟨htakes.known, rfl⟩

/-! ### The outcome -/

/-- What `claim_next` answers and leaves behind, given the replayed states and the budget. -/
inductive Chosen (rt : Runtime) (sched : Scheduler) (s : Store) (now : Timestamp)
    (claimedAt : String) (st : RunState) (b : BudgetStatus) : ClaimOutcome → Store → Prop
  | budgetExhausted {reason : ExhaustReason} (spent : b.exhaustion = some reason) :
      Chosen rt sched s now claimedAt st b (.budgetExhausted reason) s
  | busy (left : b.exhaustion = none) (full : sched.maxActive ≤ s.activeClaims.length) :
      Chosen rt sched s now claimedAt st b (.busy s.activeClaims.length sched.maxActive) s
  | claimed {node : NodeSpec} {state : NodeState} {resolved : List ResolvedDependency}
      {number : AttemptNumber} (left : b.exhaustion = none)
      (room : s.activeClaims.length < sched.maxActive)
      (first : First (sched.service s st now) s.activeClaims sched.graph.order node state resolved)
      (hnumber : number.get = state.attemptsStarted + 1)
      (takes : sched.Takes rt s node number (resolved.map (·.receipt))) :
      Chosen rt sched s now claimedAt st b
        (.claimed (sched.claimOf s node number (resolved.map (·.receipt))))
        (sched.withClaim s claimedAt node number (resolved.map (·.receipt)))
  | nothingReady (left : b.exhaustion = none) (room : s.activeClaims.length < sched.maxActive)
      (none_ready : ∀ id ∈ sched.graph.order, ¬ Ready (sched.service s st now) s.activeClaims id) :
      Chosen rt sched s now claimedAt st b
        (.nothingReady (sched.graph.order.filterMap (blockedEntry (sched.service s st now)))
          (sched.graph.order.filterMap (conflictEntry (sched.service s st now) s.activeClaims))) s

/-- The first dispatchable node is there, the budget and the cap allow a claim, and the store
does not take it. -/
def Refused (rt : Runtime) (sched : Scheduler) (s : Store) (now : Timestamp) (st : RunState)
    (b : BudgetStatus) : Prop :=
  b.exhaustion = none ∧ s.activeClaims.length < sched.maxActive ∧
    ∃ node state resolved, ∃ number : AttemptNumber,
      First (sched.service s st now) s.activeClaims sched.graph.order node state resolved ∧
      number.get = state.attemptsStarted + 1 ∧
      ¬ sched.Takes rt s node number (resolved.map (·.receipt))

section

variable {now : Timestamp} {claimedAt : String} {st : RunState} {b : BudgetStatus}

variable (rt claimedAt) in
/-- With the replay and the budget read, the outcome is decided by the budget, then the cap,
then the scan. -/
theorem claimNext_read
    (hst : RunState.replay sched.run.runId sched.spec (s.eventsOf sched.run.runId) = .ok st)
    (hb : Budget.status s sched.spec sched.run now = .ok b) :
    (∀ reason, b.exhaustion = some reason →
      sched.claimNext rt s now claimedAt = .ok (.budgetExhausted reason, s)) ∧
    (b.exhaustion = none → sched.maxActive ≤ s.activeClaims.length →
      sched.claimNext rt s now claimedAt = .ok (.busy s.activeClaims.length sched.maxActive, s)) ∧
    (b.exhaustion = none → s.activeClaims.length < sched.maxActive →
      (∀ blocked conflicts, scan (sched.service s st now) s.activeClaims sched.graph.order [] [] =
          .nothing blocked conflicts →
        sched.claimNext rt s now claimedAt = .ok (.nothingReady blocked conflicts, s)) ∧
      ∀ node state snapshot, scan (sched.service s st now) s.activeClaims sched.graph.order [] [] =
          .found node state snapshot →
        sched.claimNext rt s now claimedAt =
          sched.writeClaim rt s node state snapshot claimedAt) := by
  simp only [claimNext, hst, hb, Except.mapError, bind, Except.bind]
  refine ⟨?_, ?_, ?_⟩
  · intro reason hspent
    rw [hspent]
  · intro hleft hfull
    rw [hleft]
    simp only [ge_iff_le, hfull, if_true]
  · intro hleft hroom
    rw [hleft]
    simp only [ge_iff_le, Nat.not_le.mpr hroom, if_false]
    refine ⟨?_, ?_⟩
    · intro blocked conflicts hscan
      rw [hscan]
    · intro node state snapshot hscan
      rw [hscan]

/-- The attempt after those a node started has a number while the budget has room. -/
theorem next_number
    (hst : RunState.replay sched.run.runId sched.spec (s.eventsOf sched.run.runId) = .ok st)
    (hb : Budget.status s sched.spec sched.run now = .ok b) (hleft : b.exhaustion = none)
    {id : NodeId} {state : NodeState} (hstate : st.node id = some state) :
    ∃ number : AttemptNumber, number.get = state.attemptsStarted + 1 := by
  have hstarted := RunState.replay_started hst hstate
  have hroom := Budget.dispatched_lt_of_remaining hb hleft
  exact ⟨⟨state.attemptsStarted + 1, by omega, by omega⟩, rfl⟩

variable (rt claimedAt) in
theorem claimNext_chosen
    (hst : RunState.replay sched.run.runId sched.spec (s.eventsOf sched.run.runId) = .ok st)
    (hb : Budget.status s sched.spec sched.run now = .ok b) :
    (∃ out s', sched.claimNext rt s now claimedAt = .ok (out, s') ∧
      Chosen rt sched s now claimedAt st b out s') ∨
    ((∃ e, sched.claimNext rt s now claimedAt = .error e) ∧ Refused rt sched s now st b) := by
  obtain ⟨hspent, hfull, hscan⟩ := claimNext_read rt claimedAt hst hb
  cases hex : b.exhaustion with
  | some reason => exact Or.inl ⟨_, _, hspent reason hex, .budgetExhausted hex⟩
  | none =>
    by_cases hroom : s.activeClaims.length < sched.maxActive
    · obtain ⟨hnothing, hfound⟩ := hscan hex hroom
      rcases scan_spec (sched.service s st now) s.activeClaims
          sched.graph.order [] [] with ⟨node, state, resolved, hfirst, hscanned⟩ | ⟨hnone, hlists⟩
      · have hcall := hfound _ _ _ hscanned
        obtain ⟨before, after, -, -, hd⟩ := id hfirst
        obtain ⟨number, hnumber⟩ := next_number hst hb hex hd.state_eq
        by_cases htakes : sched.Takes rt s node number (resolved.map (·.receipt))
        · refine Or.inl ⟨_, _, ?_, .claimed hex hroom hfirst hnumber htakes⟩
          rw [hcall, writeClaim_eq_ok hd.isOpen hnumber]
          exact ⟨htakes, rfl, rfl⟩
        · refine Or.inr ⟨?_, hex, hroom, node, state, resolved, number, hfirst, hnumber, htakes⟩
          cases hwrite : sched.writeClaim rt s node state ⟨node.id, resolved⟩ claimedAt with
          | error e => exact ⟨e, hcall.trans hwrite⟩
          | ok out =>
            obtain ⟨htaken, -⟩ := (writeClaim_eq_ok hd.isOpen hnumber).mp hwrite
            exact absurd htaken htakes
      · refine Or.inl ⟨_, _, hnothing _ _ hlists, ?_⟩
        rw [List.nil_append, List.nil_append]
        exact .nothingReady hex hroom hnone
    · have hle : sched.maxActive ≤ s.activeClaims.length := by omega
      exact Or.inl ⟨_, _, hfull hex hle, .busy hex hle⟩

/-- The ledger and the budget fix the outcome. -/
theorem Chosen.unique {out out' : ClaimOutcome} {s₁ s₂ : Store}
    (h : Chosen rt sched s now claimedAt st b out s₁)
    (h' : Chosen rt sched s now claimedAt st b out' s₂) : out' = out ∧ s₂ = s₁ := by
  cases h with
  | budgetExhausted spent =>
    cases h' with
    | budgetExhausted spent' =>
      obtain rfl := Option.some.inj (spent.symm.trans spent')
      exact ⟨rfl, rfl⟩
    | busy left' => exact absurd (spent.symm.trans left') (by simp)
    | claimed left' => exact absurd (spent.symm.trans left') (by simp)
    | nothingReady left' => exact absurd (spent.symm.trans left') (by simp)
  | busy left full =>
    cases h' with
    | budgetExhausted spent' => exact absurd (spent'.symm.trans left) (by simp)
    | busy => exact ⟨rfl, rfl⟩
    | claimed _ room' => omega
    | nothingReady _ room' => omega
  | claimed left room first hnumber takes =>
    cases h' with
    | budgetExhausted spent' => exact absurd (spent'.symm.trans left) (by simp)
    | busy _ full' => omega
    | claimed _ _ first' hnumber' =>
      obtain ⟨rfl, rfl, rfl⟩ := first.unique first'
      obtain rfl := PositiveU32.ext_get (hnumber'.trans hnumber.symm)
      exact ⟨rfl, rfl⟩
    | nothingReady _ _ none_ready' =>
      obtain ⟨id, hid, hready⟩ := first.ready
      exact absurd hready (none_ready' id hid)
  | nothingReady left room none_ready =>
    cases h' with
    | budgetExhausted spent' => exact absurd (spent'.symm.trans left) (by simp)
    | busy _ full' => omega
    | claimed _ _ first' =>
      obtain ⟨id, hid, hready⟩ := first'.ready
      exact absurd hready (none_ready id hid)
    | nothingReady => exact ⟨rfl, rfl⟩

/-- A refusal leaves no outcome. -/
theorem Chosen.not_refused {out : ClaimOutcome} {s' : Store}
    (h : Chosen rt sched s now claimedAt st b out s') : ¬ Refused rt sched s now st b := by
  rintro ⟨hleft, hroom, node, state, resolved, number, hfirst, hnumber, hnot⟩
  cases h with
  | budgetExhausted spent => exact absurd (spent.symm.trans hleft) (by simp)
  | busy _ full => omega
  | claimed _ _ first hnumber' takes =>
    obtain ⟨rfl, rfl, rfl⟩ := first.unique hfirst
    obtain rfl := PositiveU32.ext_get (hnumber'.trans hnumber.symm)
    exact hnot takes
  | nothingReady _ _ none_ready =>
    obtain ⟨id, hid, hready⟩ := hfirst.ready
    exact none_ready id hid hready

end

/-- In a ledger of legal use a claim is refused for nothing but the size of its event. -/
theorem takes_iff_fits (hs : (legalLedger rt).Reachable s) (hbound : s.Bound sched.run sched.spec)
    {st : RunState} (hst : s.replay sched.run.runId sched.spec = .ok st) {node : NodeSpec}
    {state : NodeState} (hstate : st.node node.id = some state) {number : AttemptNumber}
    (hnumber : number.get = state.attemptsStarted + 1) {refs : List ReceiptRef} :
    sched.Takes rt s node number refs ↔
      (rt.text (dispatchPayload number sched.controller (s.nextFence sched.run.runId)
        refs)).utf8ByteSize ≤ maxRecordLen := by
  refine ⟨Takes.fits, ?_⟩
  intro hfits
  refine { known := ?_, free := ?_, fits := hfits }
  · exact Store.hasRun_iff.mpr ⟨sched.run, hbound.1.1, rfl⟩
  · intro row hrow hrun hid heq
    have hle := (claimsOk_invariant rt s hs).number_le hrow
    have hnode := (sound_invariant rt s hs).nodeState_of_replay hbound.1 hst node.id
    have hstarted : s.started row.runId row.nodeId = state.attemptsStarted := by
      simp only [Store.started, hrun, hid, hnode, hstate]
    rw [hstarted, heq] at hle
    omega

/-- `claim_next` over a ledger that replays. When the budget cannot be read it fails;
otherwise it answers with the spent budget, the full cap, the first dispatchable node of
the admitted order or the lists of what holds the open nodes back, and fails exactly when
the store refuses the row or the event of that first node. Whatever it does not claim
leaves the store as it was, a claim's token is above all tokens of the run, its event
carries the receipts of the row, and in a ledger of legal use only the size of the event
can make the store refuse. -/
theorem claim_next_selects (rt : Runtime) (sched : Scheduler) {s : Store} {st : RunState}
    (hst : s.replay sched.run.runId sched.spec = .ok st) (now : Timestamp) (claimedAt : String) :
    sched.graph.order.Perm (sched.spec.nodes.map (·.id)) ∧
    (∀ e, Budget.status s sched.spec sched.run now = .error e →
      s.transaction (sched.claimNext rt s now claimedAt) = (.error (.budget e), s)) ∧
    (∀ b, Budget.status s sched.spec sched.run now = .ok b →
      (∀ out s', s.transaction (sched.claimNext rt s now claimedAt) = (.ok out, s') ↔
        Chosen rt sched s now claimedAt st b out s') ∧
      ((∃ e, s.transaction (sched.claimNext rt s now claimedAt) = (.error e, s)) ↔
        Refused rt sched s now st b)) ∧
    (∀ row ∈ s.claims, row.runId = sched.run.runId → row.fence < s.nextFence sched.run.runId) ∧
    (∀ number fence refs, (NodeEvent.dispatched number).CarriedBy
        (dispatchPayload number sched.controller fence refs) ∧
      (dispatchPayload number sched.controller fence refs).get "dependency_receipts" =
        some (.arr (refs.map (·.toJson)))) ∧
    ((legalLedger rt).Reachable s → s.Bound sched.run sched.spec →
      ∀ node state, st.node node.id = some state →
      ∀ (number : AttemptNumber) refs, number.get = state.attemptsStarted + 1 →
        (sched.Takes rt s node number refs ↔
          (rt.text (dispatchPayload number sched.controller (s.nextFence sched.run.runId)
            refs)).utf8ByteSize ≤ maxRecordLen)) := by
  refine ⟨(Graph.admitted_order sched.admitted).1, ?_, ?_, ?_, fun _ _ _ => ⟨rfl, rfl⟩, ?_⟩
  · intro e he
    have hcall : sched.claimNext rt s now claimedAt = .error (.budget e) := by
      unfold claimNext
      rw [show RunState.replay _ _ _ = .ok st from hst, he]
      rfl
    rw [hcall]
    rfl
  · intro b hb
    rcases claimNext_chosen rt claimedAt hst hb with
      ⟨out, s', hcall, hchosen⟩ | ⟨⟨e, hcall⟩, hrefused⟩
    · rw [hcall]
      refine ⟨?_, ?_⟩
      · intro out₁ s₁
        constructor
        · intro h
          cases h
          exact hchosen
        · intro h
          obtain ⟨rfl, rfl⟩ := hchosen.unique h
          rfl
      · refine iff_of_false ?_ hchosen.not_refused
        rintro ⟨e, h⟩
        cases h
    · rw [hcall]
      refine ⟨?_, iff_of_true ⟨e, rfl⟩ hrefused⟩
      intro out s'
      refine iff_of_false ?_ (fun h => h.not_refused hrefused)
      intro h
      cases h
  · intro row hrow hrun
    exact hrun ▸ Store.fence_lt_nextFence hrow
  · intro hs hbound node state hstate number refs hnumber
    exact takes_iff_fits hs hbound hst hstate hnumber

end Scheduler

namespace Pilot

/-- A run that names an unknown run as the one it inherits its budget from. -/
def orphan : GraphRun := { run with runId := laterRunId, budgetLineageRef := some runId }

def orphanScheduler : Scheduler := get (Scheduler.new spec orphan controller) (by decide +kernel)

def orphaned : Store := Store.empty.play runtime [.storeGraph spec, .createRun orphan]

theorem orphanScheduler_eq : orphanScheduler.run = orphan ∧ orphanScheduler.spec = spec := by
  decide +kernel

theorem orphaned_bound : (legalLedger runtime).Reachable orphaned ∧
    orphaned.Bound orphanScheduler.run orphanScheduler.spec := by
  refine ⟨?_, ?_, orphanScheduler.graph, orphanScheduler.admitted⟩
  · exact .step (a := .createRun orphan) (.step (a := .storeGraph spec) (.init rfl) ⟨trivial, rfl⟩)
      ⟨trivial, rfl⟩
  · rw [orphanScheduler_eq.1, orphanScheduler_eq.2]
    exact ⟨by decide +kernel, by decide +kernel⟩

end Pilot

open Pilot in
theorem Scheduler.claim_next_selects_created : ∃ st b,
    created.replay scheduler.run.runId scheduler.spec = .ok st ∧
    Budget.status created scheduler.spec scheduler.run now = .ok b ∧ ∀ out s',
      created.transaction (scheduler.claimNext runtime created now "2026-01-01T00:00:01Z") =
        (.ok out, s') ↔
      Chosen runtime scheduler created now "2026-01-01T00:00:01Z" st b out s' := by
  have hst := get_eq (x := created.replay scheduler.run.runId scheduler.spec) (by decide +kernel)
  have hb := get_eq (x := Budget.status created scheduler.spec scheduler.run now)
    (by decide +kernel)
  exact ⟨_, _, hst, hb, ((claim_next_selects runtime scheduler hst now "2026-01-01T00:00:01Z").2.2.1
    _ hb).1⟩

open Pilot in
/-- A run whose budget lineage names no stored run gets no outcome at all. -/
theorem Scheduler.claim_next_lineage_unknown : (legalLedger runtime).Reachable orphaned ∧
    orphaned.Bound orphanScheduler.run orphanScheduler.spec ∧
    (∃ st, orphaned.replay orphanScheduler.run.runId orphanScheduler.spec = .ok st) ∧
    ∀ out s', orphaned.transaction
      (orphanScheduler.claimNext runtime orphaned now "2026-01-01T00:00:01Z") ≠ (.ok out, s') := by
  refine ⟨orphaned_bound.1, orphaned_bound.2, ?_, ?_⟩
  · exact ⟨_, get_eq (x := orphaned.replay orphanScheduler.run.runId orphanScheduler.spec)
      (by decide +kernel)⟩
  · intro out s' h
    have hfails : (orphaned.transaction (orphanScheduler.claimNext runtime orphaned now
        "2026-01-01T00:00:01Z")).1.isOk = false := by decide +kernel
    rw [h] at hfails
    cases hfails

end Checkspan
