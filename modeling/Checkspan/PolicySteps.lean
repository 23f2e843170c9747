import Checkspan.Nodes
import Checkspan.Origins
import Checkspan.Plays

/-!
# Policy steps across crashes

A node that a verdict or a failure stopped waits for its policy step, a transaction of its own:
a retry, a cancellation or a packet. A fresh call verifies sealed attempts and claims open nodes
and does not come back to a stopped one, so a policy step that a crash cut off stays out.
-/

namespace Checkspan

open Process Transition

/-! ### Nodes that wait -/

/-- Rejected, failed, or gated without a packet. -/
def NodeState.owed (s : NodeState) : Bool :=
  s.status = .rejected || s.status = .failed || (s.status = .gated && s.waitingOnGate.isNone)

/-- The events that leave a node to the retry policy or to a packet. -/
def NodeEvent.stops : NodeEvent → Bool
  | .executionFinished _ .failed _ => true
  | .executionFinished _ .timedOut _ => true
  | .receiptAdmitted _ _ .reject => true
  | .receiptAdmitted _ _ .undecidable => true
  | _ => false

theorem NodeState.Step.stops {s s' : NodeState} {e : NodeEvent} (h : NodeState.Step s e s')
    (howed : s'.owed = true) : e.stops = true := by
  cases h with
  | dispatch k hs hk => simp [NodeState.owed] at howed
  | finish k o d hs hk hc =>
    cases o with
    | completed => simp [NodeState.owed, NodeState.finish, hs] at howed
    | failed => rfl
    | timedOut => rfl
    | cancelled => simp [NodeState.owed, NodeState.finish] at howed
  | decide k r v hs hk hc =>
    cases v with
    | accept => simp [NodeState.owed, NodeState.decide] at howed
    | reject => rfl
    | undecidable => rfl
  | retry hs => simp [NodeState.owed] at howed
  | gate p hs => simp [NodeState.owed] at howed
  | packet p hs hw => simp [NodeState.owed, hs] at howed
  | route p d hs hw => cases d <;> simp [NodeState.owed, NodeState.route] at howed
  | cancelOpen hs => simp [NodeState.owed] at howed
  | cancelRunning hs => simp [NodeState.owed] at howed
  | cancelStopped hs => simp [NodeState.owed] at howed

def Attempt.reclaimed (a : Attempt) : Bool :=
  a.execution.bind (·.errorCode) = some reclaimedErrorCode

namespace Store

/-- The node waits for its policy step. -/
def Owes (s : Store) (run : RunId) (id : NodeId) : Prop :=
  ∃ state, s.nodeState run id = some state ∧ state.owed = true

/-- The node waits for the policy step of an attempt that was taken over. -/
def OwesReclaimed (s : Store) (run : RunId) (id : NodeId) : Prop :=
  ∃ state a, s.nodeState run id = some state ∧ state.owed = true ∧ a ∈ s.attempts ∧
    a.reclaimed = true ∧ a.key = (run, id, a.number) ∧ state.currentAttempt = some a.number

end Store

section

variable {rt : Runtime} {s s' : Store} {run : RunId} {id : NodeId}
  {label : Option (RunId × NodeId × NodeEvent)}

/-- A step that is not about the node leaves a known state of it. -/
theorem LedgerStep.state_kept (h : LedgerStep rt s label s') (hs : s.Sound)
    (hother : ∀ e, label ≠ some (run, id, e)) {state : NodeState}
    (hstate : s.nodeState run id = some state) : s'.nodeState run id = some state := by
  cases label with
  | none =>
    rcases h.unmoved hs run id with heq | ⟨hnone, -⟩
    · exact heq.trans hstate
    · rw [hnone] at hstate
      cases hstate
  | some l =>
    obtain ⟨r, i, e⟩ := l
    obtain ⟨old, new, hmoved⟩ := h.moved hs
    refine (hmoved.others run id ?_).trans hstate
    rintro ⟨rfl, rfl⟩
    exact hother e rfl

/-- A node that waits after a step was stopped by it, or waited before and the step was about
something else. -/
theorem LedgerStep.owes (h : LedgerStep rt s label s') (hs : s.Sound) (howes : s'.Owes run id) :
    (∃ e, label = some (run, id, e) ∧ e.stops = true) ∨
      (s.Owes run id ∧ ∀ e, label ≠ some (run, id, e)) := by
  obtain ⟨state, hstate, howed⟩ := howes
  cases label with
  | none =>
    rcases h.unmoved hs run id with heq | ⟨-, hinitial⟩
    · exact Or.inr ⟨⟨state, heq ▸ hstate, howed⟩, fun e he => by cases he⟩
    · rw [hinitial] at hstate
      cases hstate
      cases howed
  | some l =>
    obtain ⟨r, i, e⟩ := l
    obtain ⟨old, new, hmoved⟩ := h.moved hs
    by_cases hnode : run = r ∧ id = i
    · obtain ⟨rfl, rfl⟩ := hnode
      rw [hmoved.after] at hstate
      cases hstate
      exact Or.inl ⟨e, rfl, hmoved.legal.stops howed⟩
    · refine Or.inr ⟨⟨state, (hmoved.others run id hnode).symm.trans hstate, howed⟩, ?_⟩
      intro e' he
      cases he
      exact hnode ⟨rfl, rfl⟩

theorem Store.OwesReclaimed.keep (h : s.OwesReclaimed run id) (hstep : LedgerStep rt s label s')
    (hs : s.Sound) (hother : ∀ e, label ≠ some (run, id, e)) : s'.OwesReclaimed run id := by
  obtain ⟨state, a, hstate, howed, ha, hreclaimed, hkey, hcurrent⟩ := h
  exact ⟨state, a, hstep.state_kept hs hother hstate, howed, (hstep.extends hs).mem_attempts ha,
    hreclaimed, hkey, hcurrent⟩

end

/-! ### What a call's operation leaves to the call -/

section

variable {b : Build} {c : Command} {h : List Did} {op : LedgerOp} {s : Store} {run : RunId}
  {id : NodeId}

/-- A call owes the policy step of the node it stops. -/
theorem Protocol.owing_stops (hp : Protocol b c h (.ledger op)) (hh : ∀ x ∈ h, x.Holds s)
    {r : op.Result} {e : NodeEvent} (he : op.checked r = some (run, id, e))
    (hstops : e.stops = true) : owing (h ++ [⟨.ledger op, r⟩]) = some (run, id) := by
  rw [owing_append]
  cases op with
  | storeGraph spec => cases he
  | claimNext sched now claimedAt =>
    cases r with
    | error x => cases he
    | ok out =>
      cases out with
      | claimed claim =>
        cases he
        cases hstops
      | busy active cap => cases he
      | budgetExhausted reason => cases he
      | nothingReady blocked conflicts => cases he
  | complete sched claim a =>
    cases r with
    | error x => cases he
    | ok u =>
      obtain ⟨-, -, claimedAt, hclaim⟩ := Sealing.claimed hp
      obtain ⟨hrun, -⟩ := hh _ hclaim claim rfl
      obtain ⟨x, hx, heq⟩ := Option.map_eq_some_iff.mp he
      cases heq
      have hfailed : a.failed = true := by
        rw [Attempt.failed, hx]
        cases ho : x.outcome <;> simp [ho, NodeEvent.stops] at hstops ⊢
      show (if a.failed then some (sched.run.runId, claim.nodeId) else none) = _
      rw [if_pos hfailed, hrun]
  | admitReceipt spec run receipt now =>
    cases r with
    | error x => cases he
    | ok u =>
      cases he
      have hverdict : receipt.verdict ≠ .accept := by
        intro hverdict
        rw [hverdict] at hstops
        cases hstops
      exact if_neg hverdict
  | applyRetryPolicy spec run id narrowing now =>
    cases r with
    | error x => cases he
    | ok out =>
      cases out with
      | retry cls started cap =>
        cases he
        cases hstops
      | exhausted reason route =>
        cases route with
        | cancel =>
          cases he
          cases hstops
        | gate => cases he
  | openResolveWork spec run id now expiresAt =>
    cases r with
    | error x => cases he
    | ok packet =>
      cases he
      cases hstops
  | createRun run => exact hp.elim
  | cancel sched id => exact hp.elim
  | reclaim sched id now => exact hp.elim
  | revokeReceipt run receiptId reason => exact hp.elim
  | admitDecision run d => exact hp.elim
  | appendDecision run id packet decision payload => exact hp.elim

/-- A call goes on owing a policy step until an operation about the node. -/
theorem Protocol.owing_kept (hp : Protocol b c h (.ledger op)) (howe : owing h = some (run, id))
    {r : op.Result} (hother : ∀ e, op.checked r ≠ some (run, id, e)) :
    owing (h ++ [⟨.ledger op, r⟩]) = some (run, id) := by
  rw [owing_append, howe]
  cases op with
  | storeGraph spec => rfl
  | claimNext sched now claimedAt =>
    rw [hp.2.1] at howe
    cases howe
  | complete sched claim a =>
    rw [(Sealing.claimed hp).2.1] at howe
    cases howe
  | admitReceipt spec run receipt now =>
    rw [hp.1.opened.2] at howe
    cases howe
  | applyRetryPolicy spec run id narrowing now =>
    cases hp.2 _ howe
    cases r with
    | error x => rfl
    | ok out =>
      cases out with
      | retry cls started cap => exact absurd rfl (hother .retryAllowed)
      | exhausted reason route =>
        cases route with
        | cancel => exact absurd rfl (hother .cancelled)
        | gate => rfl
  | openResolveWork spec run id now expiresAt =>
    cases hp.2 _ howe
    cases r with
    | error x => rfl
    | ok packet => exact absurd rfl (hother (.gateOpened packet.id))
  | createRun run => exact hp.elim
  | cancel sched id => exact hp.elim
  | reclaim sched id now => exact hp.elim
  | revokeReceipt run receiptId reason => exact hp.elim
  | admitDecision run d => exact hp.elim
  | appendDecision run id packet decision payload => exact hp.elim

end

theorem owing_read {h : List Did} {e : Effect} (he : ∀ op, e ≠ .ledger op) (r : e.Answer) :
    owing (h ++ [⟨e, r⟩]) = owing h := by
  rw [owing_append]
  cases e with
  | ledger op => exact absurd rfl (he op)
  | run | events | attempt | resolve | clock | observe | makeDir | write | read | currentExe
  | child => rfl

/-- Of what others do, only a takeover stops a node. -/
theorem outside_stops {rt : Runtime} {docs : GraphSpec → Prop} {op : LedgerOp} {s : Store}
    {run : RunId} {id : NodeId} {e : NodeEvent} (legal : op.Legal s) (hs : s.Sound)
    (houtside : op.Outside docs) (he : op.checked (op.exec rt s).1 = some (run, id, e))
    (hstops : e.stops = true) : (op.exec rt s).2.OwesReclaimed run id := by
  have hstep := exec_step rt s legal
  rw [he] at hstep
  obtain ⟨old, new, hmoved⟩ := hstep.moved hs
  cases e with
  | executionFinished k o d =>
    rcases LedgerOp.checked_finished he with ⟨_, _, _, rfl⟩ | ⟨sched, now, rfl⟩
    · exact houtside.elim
    · cases h : sched.reclaim rt s id now with
      | error x =>
        simp only [LedgerOp.exec, h, Store.transaction] at he
        cases he
      | ok out =>
        obtain ⟨number, s'⟩ := out
        obtain ⟨node, row, startedAt, st, state, next, htaken⟩ := Scheduler.reclaim_ok rt h
        have hafter : (LedgerOp.exec rt s (.reclaim sched id now)).2 = s' := by
          simp only [LedgerOp.exec, h, Store.transaction]
        simp only [LedgerOp.exec, h, Store.transaction] at he
        cases he
        have hstate := hmoved.after
        have hattempts : s'.attempts =
            s.attempts ++ [sched.reclaimedAttempt node row startedAt now] := by
          rw [htaken.store_eq]
          rfl
        have hnode : node.nodeId = id := GraphSpec.nodeRef_nodeId htaken.nodeRef_eq
        have hlegal := hmoved.legal
        rw [hafter] at hstate ⊢
        cases hlegal with
        | finish _ _ _ hs hk hc =>
          refine ⟨_, sched.reclaimedAttempt node row startedAt now, hstate, rfl, ?_, ?_, ?_, ?_⟩
          · rw [hattempts]
            exact List.mem_append_right _ (List.mem_singleton_self _)
          · exact decide_eq_true rfl
          · rw [← hnode]
            rfl
          · exact hk.trans (congrArg some htaken.number_eq)
  | receiptAdmitted k ref v =>
    obtain ⟨_, _, _, _, rfl⟩ := LedgerOp.checked_verdict he
    exact houtside.elim
  | dispatched k => cases hstops
  | gateOpened packet => cases hstops
  | decisionAdmitted packet decision => cases hstops
  | retryAllowed => cases hstops
  | cancelled => cases hstops

/-! ### Careful runs -/

/-- The actions the call `i` returned. -/
def ended (p : Sessions) (i : Nat) : Option (List Action) := (p.returned i).bind Except.toOption

/-- Calls are made one at a time. One starts only when no earlier call died between the
transaction that stopped a node and its policy step, unless that step was taken since, and goes
on only when no node of a taken over attempt waits for its own. -/
def Careful (p : Sessions) : SessionMove → Prop
  | .start _ => ∀ t ∈ p.threads, ∀ run id, owing t.past = some (run, id) →
      ¬ p.world.store.Owes run id
  | .act i _ => i + 1 = p.threads.length ∧ ∀ run id, ¬ p.world.store.OwesReclaimed run id
  | .env _ => True

/-- Every node that waits is owed its policy step by the newest call, or was taken over. -/
def Accounted (p : Sessions) : Prop :=
  ∀ run id, p.world.store.Owes run id →
    (∃ t, p.threads.getLast? = some t ∧ owing t.past = some (run, id)) ∨
      p.world.store.OwesReclaimed run id

section

variable {b : Build} {docs : GraphSpec → Prop} {p p' : Sessions}

theorem ended_some {i : Nat} {actions : List Action} (h : ended p i = some actions) :
    ∃ t, p.threads[i]? = some t ∧ t.rest = .pure (.ok actions) := by
  obtain ⟨r, hr, h⟩ := Option.bind_eq_some_iff.mp h
  obtain ⟨t, ht, hrest⟩ := Pool.returned_some hr
  refine ⟨t, ht, ?_⟩
  rw [hrest]
  cases r with
  | error e => cases h
  | ok a => rw [Option.some.inj h]

theorem getLast?_of_length {ts : List (Thread Effect Effect.Answer (Except RunError (List Action)))}
    {i : Nat} (hi : i + 1 = ts.length) : ts.getLast? = ts[i]? := by
  rw [List.getLast?_eq_getElem?, ← hi, Nat.add_sub_cancel]

/-- After an effect of the newest call, a node that waits is owed its policy step by the call,
or was taken over before. -/
theorem Accounted.act (hc : Conducted b docs p) (ha : Accounted p) {i : Nat}
    (hlast : i + 1 = p.threads.length) {past : List Did} {e : Effect}
    {k : e.Answer → Proc Effect Effect.Answer (Except RunError (List Action))} {r : e.Answer}
    {w : World} (hi : p.threads[i]? = some ⟨past, .act e k⟩)
    (hperf : e.Performs b.runtime p.world r w) {run : RunId} {id : NodeId}
    (howes : w.store.Owes run id) : owing (past ++ [⟨e, r⟩]) = some (run, id) ∨
      (p.world.store.OwesReclaimed run id ∧ w.store.OwesReclaimed run id) := by
  have hmem := List.mem_of_getElem? hi
  have hbefore : p.world.store.Owes run id →
      owing past = some (run, id) ∨ p.world.store.OwesReclaimed run id := by
    intro hold
    rcases ha run id hold with ⟨t, ht, howe⟩ | hreclaimed
    · rw [getLast?_of_length hlast, hi] at ht
      cases ht
      exact Or.inl howe
    · exact Or.inr hreclaimed
  rcases e.ledger_or with ⟨op, rfl⟩ | hread
  · obtain ⟨rfl, rfl⟩ := hperf
    obtain ⟨c, hf⟩ := hc.follows _ hmem
    have hprotocol := hf.protocol rfl
    have hstep := exec_step b.runtime _ (hc.legal hi)
    rcases hstep.owes hc.sound howes with ⟨e, he, hstops⟩ | ⟨hold, hother⟩
    · exact Or.inl (hprotocol.owing_stops (hc.holds _ hmem) he hstops)
    · rcases hbefore hold with howe | hreclaimed
      · exact Or.inl (hprotocol.owing_kept howe hother)
      · exact Or.inr ⟨hreclaimed, hreclaimed.keep hstep hc.sound hother⟩
  · have hsame := (@Effect.Performs.holds b.runtime _ _ _ _ hperf hread).1
    rw [hsame] at howes ⊢
    rw [owing_read hread]
    exact (hbefore howes).imp_right (fun h => ⟨h, h⟩)

theorem accounted_invariant (hdist : Distinct b.runtime docs) :
    ((sessions b docs).system Careful).Invariant Accounted := by
  refine System.Invariant.step (conducted_invariant hdist) ?_ ?_
  · rintro p ⟨hempty, -⟩ run id ⟨state, hstate, -⟩
    have hstore : p.world.store = Store.empty := hempty
    rw [hstore, Store.nodeState_none_of_run rfl] at hstate
    cases hstate
  · rintro p m p' hc ha ⟨hallowed, hstep⟩ run id howes
    cases hstep with
    | start h =>
      rcases ha run id howes with ⟨t, ht, howe⟩ | hreclaimed
      · exact absurd howes (hallowed t (List.mem_of_getLast? ht) run id howe)
      · exact Or.inr hreclaimed
    | env h =>
      obtain ⟨legal, houtside, rfl⟩ := h
      have hstep := exec_step b.runtime _ legal
      rcases hstep.owes hc.sound howes with ⟨e, he, hstops⟩ | ⟨hold, hother⟩
      · exact Or.inr (outside_stops legal hc.sound houtside he hstops)
      · exact (ha run id hold).imp_right (fun h => h.keep hstep hc.sound hother)
    | @act i past e k r w hi hperf =>
      refine (Accounted.act hc ha hallowed.1 hi hperf howes).imp ?_ And.right
      intro howe
      refine ⟨⟨past ++ [⟨e, r⟩], k r⟩, ?_, howe⟩
      rw [getLast?_of_length (hallowed.1.trans List.length_set.symm)]
      exact Machine.getElem?_set_of_some hi

/-- In every careful run, a call that returns leaves no node waiting for its policy step. -/
theorem ended_call_owes_nothing (hdist : Distinct b.runtime docs)
    (hp : ((sessions b docs).system Careful).Reachable p) {i : Nat} {x : Did}
    (hstep : ((sessions b docs).system Careful).step p (.act i x) p') {actions : List Action}
    (hended : ended p' i = some actions) (run : RunId) (id : NodeId) :
    ¬ p'.world.store.Owes run id := by
  intro howes
  have hc := conducted_invariant hdist p hp
  have hc' := conducted_invariant hdist p' (.step hp hstep)
  obtain ⟨hallowed, hmove⟩ := hstep
  cases hmove with
  | @act _ past e k r w hi hperf =>
    obtain ⟨t, ht, hreturned⟩ := ended_some hended
    obtain ⟨c, hf⟩ := hc'.follows t (List.mem_of_getElem? ht)
    have hsettled := hf.rest
    rw [hreturned] at hsettled
    obtain rfl := Option.some.inj (ht.symm.trans (Machine.getElem?_set_of_some hi))
    have hquiet : owing (past ++ [⟨e, r⟩]) = none := hsettled actions rfl
    rcases Accounted.act hc (accounted_invariant hdist p hp) hallowed.1 hi hperf howes with
      howe | ⟨hreclaimed, -⟩
    · rw [hquiet] at howe
      cases howe
    · exact hallowed.2 run id hreclaimed

end

/-! ### Runs of the combined pilot -/

namespace Combined

open Pilot (zeroDigest)

def drive : Command := { step with maxSteps := some 4 }

/-- The calls are made one at a time, and nothing was taken over. -/
def oneAtATime (p : Sessions) (i : Nat) (_ : Did) : Bool :=
  i + 1 = p.threads.length && p.world.store.attempts.all (fun a => !a.reclaimed)

/-- One more call before a host, for `n` effects. -/
def calls (host : Host) (c : Command) (i n : Nat) (p : Sessions) : Sessions :=
  playOn build host oneAtATime i n (p.call (c.call build).run)

/-- The repository cannot be captured. -/
def uncaptured : Host :=
  { host zeroDigest [] [] with
    seen := { tree zeroDigest with capture := fun _ => .error "not a repository" } }

section

variable {allowed : Sessions → SessionMove → Prop} {p : Sessions} {c : Command}

theorem started (hp : ((sessions build (· = spec)).system allowed).Reachable p)
    (hc : c.ws = workspace) (hstart : allowed p (.start (c.call build).run)) :
    ((sessions build (· = spec)).system allowed).Reachable (p.call (c.call build).run) := by
  refine call_reachable hp c ?_ hstart
  intro g hg
  rw [hc] at hg
  exact (Except.ok.inj hg).symm

theorem calls_reachable (hp : ((sessions build (· = spec)).system allowed).Reachable p)
    (hc : c.ws = workspace) (hstart : allowed p (.start (c.call build).run))
    (hact : ∀ s i x, oneAtATime s i x = true → allowed s (.act i x)) (host : Host) (i n : Nat) :
    ((sessions build (· = spec)).system allowed).Reachable (calls host c i n p) :=
  playOn_reachable (started hp hc hstart) hact host i n

/-- The last effect of a call that returned. -/
theorem calls_ended (hp : ((sessions build (· = spec)).system allowed).Reachable p)
    (hc : c.ws = workspace) (hstart : allowed p (.start (c.call build).run))
    (hact : ∀ s i x, oneAtATime s i x = true → allowed s (.act i x)) (host : Host) (i n : Nat)
    (hbefore : ended (p.call (c.call build).run) i = none) {actions : List Action}
    (hended : ended (calls host c i n p) i = some actions) :
    ∃ q x, ((sessions build (· = spec)).system allowed).Reachable q ∧
      ((sessions build (· = spec)).system allowed).step q (.act i x) (calls host c i n p) := by
  rcases Machine.advance_last (host.respond_performs build.runtime) hact i n
    (started hp hc hstart) with hsame | hlast
  · have hcalls : calls host c i n p = p.call (c.call build).run := hsame
    rw [hcalls, hbefore] at hended
    cases hended
  · exact hlast

theorem oneAtATime_alone (s : Sessions) (i : Nat) (x : Did) (h : oneAtATime s i x = true) :
    Machine.Alone s (.act i x : SessionMove) := by
  have hnewest : i + 1 = s.threads.length := of_decide_eq_true (Bool.and_eq_true_iff.mp h).1
  exact hnewest

theorem careful_act (s : Sessions) (i : Nat) (x : Did) (h : oneAtATime s i x = true) :
    Careful s (.act i x) := by
  obtain ⟨hlast, hnone⟩ := Bool.and_eq_true_iff.mp h
  refine ⟨of_decide_eq_true hlast, ?_⟩
  rintro r id ⟨state, a, -, -, ha, hreclaimed, -, -⟩
  have hnot := List.all_eq_true.mp hnone a ha
  rw [hreclaimed] at hnot
  cases hnot

theorem careful_start (h : ∀ t ∈ p.threads, owing t.past = none)
    (q : Proc Effect Effect.Answer (Except RunError (List Action))) : Careful p (.start q) := by
  intro t ht r id howe
  rw [h t ht] at howe
  cases howe

end

/-- The first call dies when its verifier has answered, the second verifies the sealed patch
again, and the third makes the check. -/
def interrupted : Sessions := calls (host zeroDigest [0, 1] [0]) step 0 13 created

def recovered : Sessions := calls (host zeroDigest [0, 1] [0]) step 1 7 interrupted

def checked : Sessions := calls (host zeroDigest [1, 1] [1]) step 2 14 recovered

theorem checked_reachable : ((sessions build (· = spec)).system Careful).Reachable checked := by
  have hinterrupted := calls_reachable (created_reachable (fun _ _ => trivial)) rfl
    (careful_start (by decide +kernel) (step.call build).run) careful_act
    (host zeroDigest [0, 1] [0]) 0 13
  have hrecovered := calls_reachable hinterrupted rfl
    (careful_start (by decide +kernel) (step.call build).run) careful_act
    (host zeroDigest [0, 1] [0]) 1 7
  exact calls_reachable hrecovered rfl (careful_start (by decide +kernel) (step.call build).run)
    careful_act (host zeroDigest [1, 1] [1]) 2 14

/-- The first call dies when it has sealed the failure of the patch. -/
def cut : Sessions := calls uncaptured step 0 9 created

end Combined

open Combined in
theorem ended_call_owes_nothing_checked :
    ended (calls uncaptured drive 3 5 checked) 3 = some [.complete] ∧
    ∀ run id, ¬ (calls uncaptured drive 3 5 checked).world.store.Owes run id := by
  have hended : ended (calls uncaptured drive 3 5 checked) 3 = some [.complete] := by
    decide +kernel
  obtain ⟨q, x, hq, hlast⟩ := calls_ended checked_reachable rfl
    (careful_start (by decide +kernel) (drive.call build).run) careful_act uncaptured 3 5
    (by decide +kernel) hended
  exact ⟨hended, ended_call_owes_nothing distinct_spec hq hlast hended⟩

open Combined in
/-- A drive after a crash between a sealed failure and its policy step reports the check as
blocked and leaves the patch failed. -/
theorem ended_call_owes_after_cut : ∃ q x p,
    ((sessions build (· = spec)).system Machine.Alone).Reachable q ∧
    ((sessions build (· = spec)).system Machine.Alone).step q (.act 1 x) p ∧
    ended p 1 = some [.blocked
      [(ciId, "dependency cs_patch is failed in this run, not accepted")] []] ∧
    p.world.store.Owes run.runId patchId := by
  have hcut : ((sessions build (· = spec)).system Machine.Alone).Reachable cut :=
    calls_reachable (created_reachable (fun _ _ => trivial)) rfl trivial oneAtATime_alone
      uncaptured 0 9
  have hended : ended (calls uncaptured drive 1 5 cut) 1 = some [.blocked
      [(ciId, "dependency cs_patch is failed in this run, not accepted")] []] := by
    decide +kernel
  obtain ⟨q, x, hq, hlast⟩ := calls_ended hcut rfl trivial oneAtATime_alone uncaptured 1 5
    (by decide +kernel) hended
  have howed : ((calls uncaptured drive 1 5 cut).world.store.nodeState run.runId patchId).map
      (·.owed) = some true := by decide +kernel
  obtain ⟨state, hstate, howed⟩ := Option.map_eq_some_iff.mp howed
  exact ⟨q, x, _, hq, hlast, hended, state, hstate, howed⟩

end Checkspan
