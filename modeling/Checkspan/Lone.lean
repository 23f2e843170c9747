import Checkspan.Lineage
import Checkspan.Plays
import Checkspan.Selection

/-!
# A call on its own

The runs of one call over a store nothing else writes to: what it opens, and what a
step reports when the run is finished.
-/

namespace Checkspan

open Process Transition

/-! ### Opening a run -/

theorem Effect.performs_total (rt : Runtime) (w : World) (e : Effect) :
    ∃ r w', e.Performs rt w r w' :=
  ⟨_, _, Host.respond_performs rt (Combined.host Pilot.zeroDigest [] []) w e⟩

/-- The call is about the stored run `run` of its document `spec`, by a controller that has
a name. -/
structure Command.Addresses (c : Command) (s : Store) (spec : GraphSpec) (run : GraphRun) :
    Prop where
  document : c.ws.graph = .ok spec
  bound : s.Bound run spec
  named : Identifier.new .runId c.runId = .ok run.runId
  read : s.run run.runId = .ok (some run)
  owner : isBlank c.ws.controller = false

/-- Storing the stored graph again writes nothing. -/
theorem storeGraph_again {rt : Runtime} {s : Store} (hs : (legalLedger rt).Reachable s)
    {spec : GraphSpec} (hspec : s.specOf spec.graphRef = some spec) :
    (LedgerOp.storeGraph spec).exec rt s = ((.ok false : Except StoreError Bool), s) := by
  obtain ⟨row, hrow, rfl⟩ := Option.map_eq_some_iff.mp hspec
  obtain ⟨hdigest, hfits⟩ := graphRows_invariant rt s hs row (List.mem_of_find?_eq_some hrow)
  have hbody : s.storeGraph rt row.spec = .ok (false, s) := by
    unfold Store.storeGraph
    rw [hdigest]
    refine bind_eq_ok.mpr ⟨row.digest, rfl, ?_⟩
    refine bind_eq_ok.mpr ⟨(), (Store.jsonLenChecked_eq_ok rt).mpr hfits, ?_⟩
    rw [hrow]
    exact if_pos rfl
  change s.transaction (s.storeGraph rt row.spec) = _
  rw [hbody]
  rfl

namespace Controller

variable {rt : Runtime} {c : Command} {spec : GraphSpec} {run : GraphRun} {w : World}
  {h : List Did}

theorem loadGraph_addressed {s : Store} (ha : c.Addresses s spec run) :
    loadGraph c.ws = .ok spec := by
  obtain ⟨-, g, hg⟩ := ha.bound
  unfold loadGraph
  exact bind_eq_ok.mpr ⟨spec, mapError_eq_ok.mpr ha.document,
    bind_eq_ok.mpr ⟨g, mapError_eq_ok.mpr hg, rfl⟩⟩

/-- Opening an addressed run changes nothing and gives that run. -/
theorem openRun_leads (hs : (legalLedger rt).Reachable w.store)
    (ha : c.Addresses w.store spec run) :
    Fallible.Leads (Effect.Performs rt) (fun w' _ r => w' = w ∧ r = .ok run)
      (openRun spec c.runId) w h := by
  have hspec : w.store.specOf spec.graphRef = some spec := by
    have hstored := ha.bound.1.2
    obtain ⟨row, hrow, rfl⟩ := Option.map_eq_some_iff.mp hstored
    have href : row.spec.graphRef = run.graphRef := by simpa using List.find?_some hrow
    rwa [← href] at hstored
  unfold openRun
  rw [ha.named]
  refine Fallible.Leads.ofExcept_bind ?_ (fun _ hx => by cases hx)
  intro id hid
  obtain rfl : run.runId = id := Except.ok.inj hid
  refine Fallible.Leads.attempt_bind ?_ ?_
  · rintro r w' fresh ⟨-, rfl⟩ -
    rw [storeGraph_again hs hspec]
    refine Fallible.Leads.attempt_bind ?_ ?_
    · rintro found w₂ v ⟨rfl, rfl⟩ hv
      change Except.mapError _ (w.store.run run.runId) = .ok v at hv
      rw [ha.read] at hv
      obtain rfl : some run = v := Except.ok.inj hv
      exact ⟨rfl, rfl⟩
    · rintro found w₂ y ⟨rfl, rfl⟩ hy
      change Except.mapError _ (w.store.run run.runId) = .error y at hy
      rw [ha.read] at hy
      cases hy
  · rintro r w' y ⟨rfl, -⟩ hy
    rw [storeGraph_again hs hspec] at hy
    cases hy

end Controller

/-- A scheduler starts over an admitted graph and a run of it. -/
theorem Scheduler.new_of_admitted {spec : GraphSpec} {run : GraphRun} {g : AdmittedGraph}
    (controller : ControllerId) (href : run.graphRef = spec.graphRef)
    (hg : Graph.admitGraph spec = .ok g) :
    ∃ sched, Scheduler.new spec run controller = .ok sched := by
  unfold Scheduler.new
  rw [dif_pos href]
  split
  · exact ⟨_, rfl⟩
  · rename_i hfail
    rw [hg] at hfail
    cases hfail

/-! ### A finished run -/

/-- Every target of the run is accepted, no node is checking, no claim is active, and no
node can be dispatched: the budget is spent, or the dependencies and resources allow none. -/
structure Finished (s : Store) (c : Command) (spec : GraphSpec) (run : GraphRun) (st : RunState) :
    Prop extends Command.Addresses c s spec run where
  replayed : s.replay run.runId spec = .ok st
  accepted : ∀ target ∈ spec.targets, ∃ state, st.node target.nodeId = some state ∧
    state.status = .accepted
  unchecked : ∀ id state, st.node id = some state → state.checking = false
  unclaimed : ∀ row ∈ s.claims, row.active = false
  stuck : (∃ bud reason, Budget.status s spec run c.now = .ok bud ∧ bud.exhaustion = some reason) ∨
    ∀ id, ¬ Scheduler.Ready { spec := spec, run := run, state := st, store := s, now := c.now }
      s.activeClaims id

/-- What a step of a finished run reports: the budget is asked first. -/
def finishedReport (s : Store) (spec : GraphSpec) (run : GraphRun) (now : Timestamp) :
    Except RunError Action :=
  match Budget.status s spec run now with
  | .error e => .error (.scheduler "claim" (.budget e))
  | .ok bud =>
    match bud.exhaustion with
    | some reason => .ok (.budgetExhausted reason)
    | none => .ok .complete

theorem finishedReport_complete {s : Store} {spec : GraphSpec} {run : GraphRun} {now : Timestamp} :
    finishedReport s spec run now = .ok .complete ↔
      ∃ bud, Budget.status s spec run now = .ok bud ∧ bud.exhaustion = none := by
  unfold finishedReport
  cases Budget.status s spec run now with
  | error e => simp
  | ok bud => cases hex : bud.exhaustion <;> simp [hex]

theorem finishedReport_spent {s : Store} {spec : GraphSpec} {run : GraphRun} {now : Timestamp}
    {bud : BudgetStatus} {reason : ExhaustReason} (hb : Budget.status s spec run now = .ok bud)
    (hex : bud.exhaustion = some reason) :
    finishedReport s spec run now = .ok (.budgetExhausted reason) := by
  unfold finishedReport
  simp only [hb, hex]

theorem finishedReport_stops {s : Store} {spec : GraphSpec} {run : GraphRun} {now : Timestamp}
    {action : Action} (h : finishedReport s spec run now = .ok action) : action.stops = true := by
  unfold finishedReport at h
  split at h
  · cases h
  · split at h
    · cases h
      rfl
    · cases h
      rfl

namespace Finished

variable {rt : Runtime} {s : Store} {c : Command} {spec : GraphSpec} {run : GraphRun}
  {st : RunState} {sched : Scheduler}

theorem targetsAccepted (hf : Finished s c spec run st) :
    Controller.targetsAccepted spec st = true := by
  unfold Controller.targetsAccepted
  rw [List.all_eq_true]
  intro target htarget
  obtain ⟨state, hstate, haccepted⟩ := hf.accepted target htarget
  simp only [hstate, haccepted, decide_true]

theorem firstChecking (hf : Finished s c spec run st) :
    Controller.firstChecking spec st = none := by
  unfold Controller.firstChecking
  rw [List.findSome?_eq_none_iff]
  intro node _
  rw [Option.map_eq_none_iff, Option.filter_eq_none_iff]
  intro state hstate
  rw [hf.unchecked node.id state hstate]
  exact Bool.false_ne_true

theorem schedulerFor (hf : Finished s c spec run st) : ∃ sched,
    Controller.schedulerFor c.ws spec run = .ok sched ∧ sched.spec = spec ∧ sched.run = run := by
  obtain ⟨g, hg⟩ := hf.bound.2
  obtain ⟨row, hrow, hspec⟩ := Option.map_eq_some_iff.mp hf.bound.1.2
  have href : spec.graphRef = run.graphRef := by
    rw [← hspec]
    simpa using List.find?_some hrow
  obtain ⟨sched, hnew⟩ := Scheduler.new_of_admitted ⟨c.ws.controller, hf.owner⟩ href.symm hg
  have hsched : Controller.schedulerFor c.ws spec run = .ok sched := by
    unfold Controller.schedulerFor ControllerId.new
    rw [dif_pos hf.owner]
    exact bind_eq_ok.mpr ⟨_, rfl, mapError_eq_ok.mpr hnew⟩
  exact ⟨sched, hsched, Controller.schedulerFor_ok (c := c) hsched⟩

variable (rt) in
/-- What `claim_next` answers there. -/
theorem claimNext (hf : Finished s c spec run st) (hspec : sched.spec = spec)
    (hrun : sched.run = run) (claimedAt : String) :
    (∃ e, Budget.status s spec run c.now = .error e ∧
      sched.claimNext rt s c.now claimedAt = .error (.budget e)) ∨
    ∃ bud, Budget.status s spec run c.now = .ok bud ∧
      ((∃ reason, bud.exhaustion = some reason ∧
        sched.claimNext rt s c.now claimedAt = .ok (.budgetExhausted reason, s)) ∨
      (bud.exhaustion = none ∧ ∃ blocked conflicts,
        sched.claimNext rt s c.now claimedAt = .ok (.nothingReady blocked conflicts, s))) := by
  subst hspec hrun
  cases hb : Budget.status s sched.spec sched.run c.now with
  | error e =>
    refine Or.inl ⟨e, rfl, ?_⟩
    unfold Scheduler.claimNext
    rw [show RunState.replay _ _ _ = .ok st from hf.replayed, hb]
    rfl
  | ok bud =>
    refine Or.inr ⟨bud, rfl, ?_⟩
    obtain ⟨hspent, -, hscan⟩ :=
      Scheduler.claimNext_read rt claimedAt hf.replayed hb
    cases hex : bud.exhaustion with
    | some reason => exact Or.inl ⟨reason, rfl, hspent reason hex⟩
    | none =>
      refine Or.inr ⟨rfl, ?_⟩
      have hnone : ∀ id, ¬ Scheduler.Ready (sched.service s st c.now) s.activeClaims id := by
        rcases hf.stuck with ⟨bud', reason, hb', hreason⟩ | hnone
        · rw [hb] at hb'
          obtain rfl := Except.ok.inj hb'
          rw [hex] at hreason
          cases hreason
        · exact hnone
      have hempty : s.activeClaims = [] := by
        refine List.eq_nil_iff_forall_not_mem.mpr ?_
        intro row hrow
        obtain ⟨hmem, hactive⟩ := Store.mem_activeClaims.mp hrow
        rw [hf.unclaimed row hmem] at hactive
        cases hactive
      have hroom : s.activeClaims.length < sched.maxActive := by
        rw [hempty]
        exact sched.capPos
      obtain ⟨hnothing, -⟩ := hscan hex hroom
      rcases Scheduler.scan_spec (sched.service s st c.now) s.activeClaims
          sched.graph.order [] [] with ⟨node, state, resolved, hfirst, -⟩ | ⟨-, hlists⟩
      · obtain ⟨id, -, hready⟩ := hfirst.ready
        exact absurd hready (hnone id)
      · exact ⟨_, _, hnothing _ _ hlists⟩

/-- A step of a finished run gives that report. -/
theorem stepInner_leads {b : Build} {w : World} (hf : Finished w.store c spec run st)
    {h : List Did} : Fallible.Leads (Effect.Performs b.runtime)
      (fun _ _ r => r = finishedReport w.store spec run c.now)
      (Controller.stepInner b c.ws spec run c.now) w h := by
  obtain ⟨sched, hsched, hspec, hrun⟩ := hf.schedulerFor
  unfold Controller.stepInner
  rw [hsched]
  refine Fallible.Leads.ofExcept_bind ?_ (fun _ hx => by cases hx)
  intro sched' hsched'
  cases hsched'
  refine Fallible.Leads.andThen (R := fun w' _ r => w' = w ∧ r = .ok st) ?_ ?_ ?_
  · unfold Controller.readState Controller.askEvents
    refine Fallible.Leads.ask_bind ?_
    rintro events w' ⟨rfl, rfl⟩
    refine ⟨rfl, ?_⟩
    rw [show RunState.replay _ _ _ = .ok st from hf.replayed]
    rfl
  · rintro w' h' st' ⟨rfl, hst⟩
    obtain rfl := Except.ok.inj hst
    rw [hf.firstChecking]
    unfold Controller.askClock
    refine Fallible.Leads.ask_bind ?_
    rintro claimedAt w₁ rfl
    have hexec : ∀ x, sched.claimNext b.runtime w₁.store c.now claimedAt = x →
        (LedgerOp.claimNext sched c.now claimedAt).exec b.runtime w₁.store =
          w₁.store.transaction x := fun x hx => hx ▸ rfl
    unfold finishedReport
    rcases hf.claimNext b.runtime hspec hrun claimedAt with
      ⟨e, hb, hcall⟩ | ⟨bud, hb, ⟨reason, hex, hcall⟩ | ⟨hex, blocked, conflicts, hcall⟩⟩
    · refine Fallible.Leads.attempt_bind ?_ ?_
      · rintro r w₂ v ⟨rfl, -⟩ hv
        rw [hexec _ hcall] at hv
        cases hv
      · rintro r w₂ y ⟨rfl, -⟩ hy
        rw [hexec _ hcall] at hy
        rw [hb, ← Except.error.inj hy]
    · refine Fallible.Leads.attempt_bind ?_ ?_
      · rintro r w₂ v ⟨rfl, -⟩ hv
        rw [hexec _ hcall] at hv
        cases hv
        show _ = _
        simp only [hb, hex]
      · rintro r w₂ y ⟨rfl, -⟩ hy
        rw [hexec _ hcall] at hy
        cases hy
    · refine Fallible.Leads.attempt_bind ?_ ?_
      · rintro r w₂ v ⟨rfl, -⟩ hv
        rw [hexec _ hcall] at hv
        cases hv
        show _ = _
        simp only [hb, hex, Controller.reportOutcome, hf.targetsAccepted, if_true]
      · rintro r w₂ y ⟨rfl, -⟩ hy
        rw [hexec _ hcall] at hy
        cases hy
  · rintro w' h' x ⟨-, hx⟩
    cases hx

/-- A step or a drive of a finished run reports that alone. -/
theorem call_leads {b : Build} {w : World} (hs : (legalLedger b.runtime).Reachable w.store)
    (hf : Finished w.store c spec run st) (hsteps : c.maxSteps ≠ some 0) {h : List Did} :
    Fallible.Leads (Effect.Performs b.runtime)
      (fun _ _ r => r = (finishedReport w.store spec run c.now).map (fun action => [action]))
      (c.call b) w h := by
  have hload := Controller.loadGraph_addressed hf.toAddresses
  unfold Command.call
  cases hmax : c.maxSteps with
  | none =>
    unfold Controller.step
    rw [hload]
    refine Fallible.Leads.ofExcept_bind ?_ (fun _ hx => by cases hx)
    intro spec' hspec'
    cases hspec'
    refine Fallible.Leads.andThen (Controller.openRun_leads hs hf.toAddresses) ?_ ?_
    · rintro w' h' run' ⟨rfl, hrun⟩
      cases hrun
      refine Fallible.Leads.andThen hf.stepInner_leads ?_ ?_
      · intro w₁ h₁ action haction
        rw [← haction]
        rfl
      · intro w₁ h₁ x hx
        rw [← hx]
        rfl
    · rintro w' h' x ⟨-, hx⟩
      cases hx
  | some n =>
    cases n with
    | zero => exact absurd hmax hsteps
    | succ n =>
      unfold Controller.drive
      rw [hload]
      refine Fallible.Leads.ofExcept_bind ?_ (fun _ hx => by cases hx)
      intro spec' hspec'
      cases hspec'
      refine Fallible.Leads.andThen (Controller.openRun_leads hs hf.toAddresses) ?_ ?_
      · rintro w' h' run' ⟨rfl, hrun⟩
        cases hrun
        unfold Controller.driveLoop
        refine Fallible.Leads.andThen hf.stepInner_leads ?_ ?_
        · intro w₁ h₁ action haction
          rw [finishedReport_stops haction.symm, ← haction]
          rfl
        · intro w₁ h₁ x hx
          rw [← hx]
          rfl
      · rintro w' h' x ⟨-, hx⟩
        cases hx

end Finished

/-- Every `step`, and every `drive` of at least one step, of a finished run ends, and reports
that the run is complete exactly when its budget can be read and has room for one more
attempt. -/
theorem finished_reports_complete (b : Build) {c : Command} {w : World} {spec : GraphSpec}
    {run : GraphRun} {st : RunState} (hs : (legalLedger b.runtime).Reachable w.store)
    (hf : Finished w.store c spec run st) (hsteps : c.maxSteps ≠ some 0) :
    (∃ h w' r, (c.call b).run.Runs (Effect.Performs b.runtime) w h w' r) ∧
    ∀ h w' r, (c.call b).run.Runs (Effect.Performs b.runtime) w h w' r →
      (r = .ok [.complete] ↔
        ∃ bud, Budget.status w.store spec run c.now = .ok bud ∧ bud.exhaustion = none) := by
  refine ⟨Proc.exists_runs (Effect.performs_total b.runtime) _ w, ?_⟩
  intro h w' r hruns
  have hreport := hruns.leads (hf.call_leads hs hsteps (h := []))
  rw [hreport, ← finishedReport_complete]
  cases finishedReport w.store spec run c.now with
  | error e => simp [Except.map]
  | ok action => simp [Except.map]

namespace Pilot

def frugalScheduler : Scheduler := get (Scheduler.new frugal run controller) (by decide +kernel)

theorem frugalScheduler_eq : frugalScheduler.run = run ∧ frugalScheduler.spec = frugal := by
  decide +kernel

def frugalCreated : Store := Store.empty.play runtime [.storeGraph frugal, .createRun run]

/-- The only node of the graph is accepted with the only attempt of the budget. -/
def spendOps : List LedgerOp :=
  [.claimNext frugalScheduler now "2026-01-01T00:00:01Z",
    .complete frugalScheduler (claimOf patch 1 []) (attemptOf patch []),
    .admitReceipt frugal run patchReceipt now]

def spent : Store := frugalCreated.play runtime spendOps

theorem spent_bound : (legalLedger runtime).Reachable spent ∧ spent.Bound run frugal := by
  have hcreated : (legalLedger runtime).Reachable frugalCreated :=
    .step (a := .createRun run) (.step (a := .storeGraph frugal) (.init rfl) ⟨trivial, rfl⟩)
      ⟨trivial, rfl⟩
  have hgraph := frugalScheduler.admitted
  rw [frugalScheduler_eq.2] at hgraph
  have hbound : frugalCreated.Bound run frugal :=
    ⟨⟨by decide +kernel, by decide +kernel⟩, frugalScheduler.graph, hgraph⟩
  exact Store.play_reachable (fun _ _ legal => legal) hcreated hbound (by decide +kernel)

def spentState : RunState := get (spent.replay run.runId frugal) (by decide +kernel)

def build : Build := { Combined.build with runtime := runtime }

/-- A step of that run. -/
def spentStep : Command :=
  { ws := { Combined.workspace with graph := .ok frugal }
    runId := "run-1", now := now, maxSteps := none }

def spentWorld : World := { store := spent, files := fun _ => none }

theorem spent_finished : Finished spent spentStep frugal run spentState := by
  have hreplay : spent.replay run.runId frugal = .ok spentState := get_eq (by decide +kernel)
  have hbudget := get_eq (x := Budget.status spent frugal run now) (by decide +kernel)
  have hreason : ((get (Budget.status spent frugal run now)
      (by decide +kernel)).exhaustion).isSome = true := by decide +kernel
  obtain ⟨reason, hreason⟩ := Option.isSome_iff_exists.mp hreason
  refine { document := rfl, bound := spent_bound.2, named := rfl, read := by decide +kernel
           owner := by decide +kernel, replayed := hreplay, accepted := ?_, unchecked := ?_
           unclaimed := by decide +kernel, stuck := Or.inl ⟨_, reason, hbudget, hreason⟩ }
  · intro target htarget
    obtain rfl := List.mem_singleton.mp htarget
    have hstatus : ((spentState.node patchRef.nodeId).map (·.status)) = some .accepted := by
      decide +kernel
    obtain ⟨state, hstate, haccepted⟩ := Option.map_eq_some_iff.mp hstatus
    exact ⟨state, hstate, haccepted⟩
  · intro id state hstate
    have hknown := RunState.replay_isSome hreplay id
    rw [hstate] at hknown
    obtain ⟨node, hnode⟩ := Option.isSome_iff_exists.mp hknown.symm
    have hid := GraphSpec.findNode_id hnode
    have hmem : node ∈ frugal.nodes := List.mem_of_find?_eq_some hnode
    obtain rfl := List.mem_singleton.mp hmem
    have hchecking : ((spentState.node patchId).map (·.checking)) = some false := by decide +kernel
    rw [show patchId = id from hid, hstate] at hchecking
    exact Option.some.inj hchecking

end Pilot

open Pilot in
theorem finished_reports_complete_spent :
    (∃ h w' r, (spentStep.call build).run.Runs (Effect.Performs runtime) spentWorld h w' r) ∧
    ∀ h w' r, (spentStep.call build).run.Runs (Effect.Performs runtime) spentWorld h w' r →
      (r = .ok [.complete] ↔
        ∃ bud, Budget.status spent frugal run now = .ok bud ∧ bud.exhaustion = none) :=
  finished_reports_complete build (w := spentWorld) spent_bound.1 spent_finished (by decide)

open Pilot in
/-- A run accepted with the last attempt of its budget is reported as out of budget. -/
theorem finished_reports_budget : (legalLedger runtime).Reachable spent ∧
    Finished spent spentStep frugal run spentState ∧
    (∃ h w' r, (spentStep.call build).run.Runs (Effect.Performs runtime) spentWorld h w' r) ∧
    ∀ h w' r, (spentStep.call build).run.Runs (Effect.Performs runtime) spentWorld h w' r →
      r = .ok [.budgetExhausted (.graphBudget 1 1)] := by
  refine ⟨spent_bound.1, spent_finished, Proc.exists_runs (Effect.performs_total runtime) _ _, ?_⟩
  intro h w' r hruns
  have hreport := hruns.leads (Finished.call_leads (b := build) (w := spentWorld) spent_bound.1
    spent_finished (by decide) (h := []))
  have hbudget := get_eq (x := Budget.status spent frugal run now) (by decide +kernel)
  have hreason : (get (Budget.status spent frugal run now) (by decide +kernel)).exhaustion =
    some (.graphBudget 1 1) := by decide +kernel
  rw [hreport]
  exact congrArg (Except.map (fun action => [action])) (finishedReport_spent hbudget hreason)

end Checkspan
