import Checkspan.Acceptance

/-!
# Budget lineages

`budget_status` adds the attempts a run dispatched to those of the runs it inherits
its budget from (`budget/mod.rs:318-361`), and `claim_next` refuses a claim once they
reach the total its graph declares. A run does not count its siblings, nor the runs
that inherit from it.
-/

namespace Checkspan

open Transition

namespace Store

/-- The runs that following `budget_lineage_ref` from a reference meets. -/
inductive Lineage (s : Store) : Option RunId → RunId → Prop
  | head (a : RunId) : Lineage s (some a) a
  | tail {record : GraphRun} {a : RunId} (hr : record ∈ s.runs)
      (h : Lineage s record.budgetLineageRef a) : Lineage s (some record.runId) a

/-- The attempts dispatched in the runs of a family. -/
def dispatches (s : Store) (family : RunId → Bool) : Nat :=
  s.events.countP (fun e => e.kind = kinds.attemptDispatched && family e.runId)

/-- The stored runs of a family are of graphs that declare the same total. -/
def Declares (s : Store) (family : RunId → Bool) (total : Nat) : Prop :=
  ∀ run spec, s.Stored run spec → family run.runId = true → spec.budget.totalAttempts = total

theorem dispatches_mono {s : Store} {p q : RunId → Bool}
    (h : ∀ e ∈ s.events, e.kind = kinds.attemptDispatched → p e.runId = true → q e.runId = true) :
    s.dispatches p ≤ s.dispatches q := by
  refine List.countP_mono_left ?_
  intro e he hp
  rw [Bool.and_eq_true, decide_eq_true_eq] at hp ⊢
  exact ⟨hp.1, h e he hp.1 hp.2⟩

theorem countP_le_add {α : Type} {p q r : α → Bool} {xs : List α}
    (h : ∀ x ∈ xs, p x = true → q x = true ∨ r x = true) :
    xs.countP p ≤ xs.countP q + xs.countP r := by
  induction xs with
  | nil => exact Nat.zero_le _
  | cons x rest ih =>
    have hrest := ih (fun y hy => h y (List.mem_cons_of_mem x hy))
    have hhead := h x List.mem_cons_self
    simp only [List.countP_cons]
    cases hp : p x with
    | false =>
      simp only [Bool.false_eq_true, if_false]
      omega
    | true =>
      rcases hhead hp with hq | hr
      · rw [if_pos rfl, if_pos hq]
        omega
      · rw [if_pos rfl, if_pos hr]
        omega

theorem dispatches_split (s : Store) (family : RunId → Bool) (run : RunId) :
    s.dispatches family ≤
      s.dispatches (fun a => a = run) + s.dispatches (fun a => family a && a ≠ run) := by
  refine countP_le_add ?_
  intro e _ he
  rw [Bool.and_eq_true, decide_eq_true_eq] at he
  by_cases hrun : e.runId = run
  · exact Or.inl (by simp [he.1, hrun])
  · exact Or.inr (by simp [he.1, he.2, hrun])

theorem dispatches_eq_zero {s : Store} {family : RunId → Bool} (h : ∀ a, family a = false) :
    s.dispatches family = 0 := by
  unfold dispatches
  rw [List.countP_eq_zero]
  intro e _
  simp [h e.runId]

theorem dispatchCount_eq (s : Store) (run : RunId) :
    s.dispatchCount run = min (s.dispatches (fun a => a = run)) u32Max := by
  have hcount : (s.eventsOf run).countP (fun e => e.kind = kinds.attemptDispatched) =
      s.dispatches (fun a => a = run) := by
    unfold eventsOf dispatches
    rw [List.countP_filter]
  unfold dispatchCount
  rw [hcount]
  rfl

end Store

namespace Budget

/-! ### What a budget covers -/

/-- The walk counts every run of the lineage, up to the capacity of a `u32`. -/
theorem lineageLoop_covers {s : Store} (hs : s.Sound) {run : RunId} {fuel : Nat}
    {seen lineage walked : List RunId} {consumed total : Nat} {next : Option RunId}
    (h : lineageLoop s run fuel seen lineage consumed next = .ok (total, walked))
    {family : RunId → Bool} (hfamily : ∀ a, family a = true → s.Lineage next a) :
    min (consumed + s.dispatches family) u32Max ≤ total := by
  induction fuel generalizing seen lineage consumed next family with
  | zero =>
    cases next with
    | none =>
      cases h
      have hnone : s.dispatches family = 0 := by
        refine Store.dispatches_eq_zero ?_
        intro a
        by_contra ha
        cases hfamily a (by simpa using ha)
      omega
    | some p => cases h
  | succ fuel ih =>
    cases next with
    | none =>
      cases h
      have hnone : s.dispatches family = 0 := by
        refine Store.dispatches_eq_zero ?_
        intro a
        by_contra ha
        cases hfamily a (by simpa using ha)
      omega
    | some p =>
      unfold lineageLoop at h
      split at h
      · cases h
      · cases hp : s.run p with
        | error e =>
          rw [hp] at h
          cases h
        | ok found =>
          cases found with
          | none =>
            rw [hp] at h
            cases h
          | some ancestor =>
            rw [hp] at h
            have hfound := (Store.readOptional_some hp).1
            have hmem := List.mem_of_find?_eq_some hfound
            have hid : ancestor.runId = p := by simpa using List.find?_some hfound
            -- The rest of the family is met from the ancestor on.
            have hrest : ∀ a, (family a && decide (a ≠ p)) = true →
                s.Lineage ancestor.budgetLineageRef a := by
              intro a ha
              rw [Bool.and_eq_true, decide_eq_true_eq] at ha
              generalize hnext : some p = next at hfamily
              cases hfamily a ha.1 with
              | head => exact absurd (Option.some.inj hnext).symm ha.2
              | tail hr hline =>
                rw [← hs.run_unique hr hmem ((Option.some.inj hnext).symm.trans hid.symm)]
                exact hline
            have hle := ih h hrest
            have hsplit := s.dispatches_split family p
            have hcount := s.dispatchCount_eq p
            unfold saturatingAdd at hle
            omega

/-- A run that may claim has dispatched, with the runs it inherits from, fewer
attempts than its graph declares. -/
theorem status_covers {s : Store} (hs : s.Sound) {spec : GraphSpec} {run : GraphRun}
    {now : Timestamp} {b : BudgetStatus} (h : status s spec run now = .ok b)
    (hex : b.exhaustion = none) {line : RunId → Bool}
    (hline : ∀ a, line a = true → a = run.runId ∨ s.Lineage run.budgetLineageRef a) :
    s.dispatches line < spec.budget.totalAttempts := by
  obtain ⟨htotal, hhere, hdeadline⟩ := status_deadline h
  have hpos := remaining_pos hex hdeadline
  have hbound := spec.budget.bound
  unfold status at h
  obtain ⟨⟨consumed, walked⟩, hloop, h⟩ := bind_ok h
  have hrest : ∀ a, (line a && decide (a ≠ run.runId)) = true →
      s.Lineage run.budgetLineageRef a := by
    intro a ha
    rw [Bool.and_eq_true, decide_eq_true_eq] at ha
    exact (hline a ha.1).resolve_left ha.2
  have hcovered := lineageLoop_covers hs hloop hrest
  have hsplit := s.dispatches_split line run.runId
  have hcount := s.dispatchCount_eq run.runId
  have hlineage : b.consumedByLineage = consumed := by
    cases h
    rfl
  unfold BudgetStatus.remaining BudgetStatus.consumed saturatingAdd at hpos
  have hmax : u32Max = 2 ^ 32 - 1 := rfl
  omega

end Budget

theorem Scheduler.claimNext_affordable {rt : Runtime} {sched : Scheduler} {s s' : Store}
    {now : Timestamp} {claimedAt : String} {claim : Claim}
    (h : sched.claimNext rt s now claimedAt = .ok (.claimed claim, s')) :
    ∃ b, Budget.status s sched.spec sched.run now = .ok b ∧ b.exhaustion = none := by
  unfold Scheduler.claimNext at h
  obtain ⟨st, -, h⟩ := bind_ok h
  obtain ⟨b, hb, h⟩ := bind_ok h
  split at h
  · cases h
  · rename_i hex
    exact ⟨b, mapError_ok hb, hex⟩

/-! ### What a lineage spends -/

section

variable {rt : Runtime} {s : Store} {family : RunId → Bool}

theorem exec_dispatches (rt : Runtime) (s : Store) (family : RunId → Bool) (op : LedgerOp) :
    (op.exec rt s).2.dispatches family = s.dispatches family ∨
      ∃ sched now claimedAt claim s', op = .claimNext sched now claimedAt ∧
        sched.claimNext rt s now claimedAt = .ok (.claimed claim, s') ∧
        family sched.run.runId = true ∧
        (op.exec rt s).2.dispatches family = s.dispatches family + 1 := by
  have hquiet : kinds.attemptDispatched ∉ op.eventKinds →
      (op.exec rt s).2.dispatches family = s.dispatches family := by
    intro hkind
    rcases exec_logged rt s op with hsame | ⟨e, happ, he⟩
    · simp only [Store.dispatches, hsame]
    · have hother : e.kind ≠ kinds.attemptDispatched := fun heq => hkind (heq ▸ he)
      simp [Store.dispatches, happ, hother]
  cases op with
  | claimNext sched now claimedAt =>
    refine Store.transaction_property (P := fun t => t.dispatches family = s.dispatches family ∨
      ∃ sched' now' claimedAt' claim s', LedgerOp.claimNext sched now claimedAt =
        .claimNext sched' now' claimedAt' ∧
        sched'.claimNext rt s now' claimedAt' = .ok (.claimed claim, s') ∧
        family sched'.run.runId = true ∧ t.dispatches family = s.dispatches family + 1)
      (Or.inl rfl) ?_
    intro out s' h
    rcases Scheduler.claimNext_ok rt h with ⟨-, rfl⟩ |
      ⟨claim, node, st, state, next, snapshot, rfl, hclaim⟩
    · exact Or.inl rfl
    · cases hfamily : family sched.run.runId with
      | false =>
        refine Or.inl ?_
        simp [Store.dispatches, hclaim.store_eq, Store.nextEvent, hfamily]
      | true =>
        refine Or.inr ⟨sched, now, claimedAt, claim, s', rfl, h, hfamily, ?_⟩
        simp [Store.dispatches, hclaim.store_eq, Store.nextEvent, hfamily]
  | storeGraph | createRun | complete | cancel | reclaim | admitReceipt | applyRetryPolicy
  | openResolveWork | revokeReceipt | admitDecision | appendDecision =>
    refine Or.inl (hquiet ?_)
    simp only [LedgerOp.eventKinds]
    decide

/-- A run of the family claims only while the attempts the family dispatched are its
own or of the runs it inherits from. -/
def LedgerOp.Inherits (family : RunId → Bool) (s : Store) : LedgerOp → Prop
  | claimNext sched _ _ => family sched.run.runId = true → ∀ e ∈ s.events,
      e.kind = kinds.attemptDispatched → family e.runId = true →
      e.runId = sched.run.runId ∨ s.Lineage sched.run.budgetLineageRef e.runId
  | _ => True

/-- Legal use in which the family's claims inherit. -/
def inheritingLedger (rt : Runtime) (family : RunId → Bool) : System Store LedgerOp :=
  ledgerSystem rt (fun s op => op.Legal s ∧ op.Inherits family s)

theorem inheriting_legal (hs : (inheritingLedger rt family).Reachable s) :
    (legalLedger rt).Reachable s := by
  induction hs with
  | init h => exact .init h
  | step hr h ih => exact .step ih ⟨h.1.1, h.2⟩

theorem inheriting_single (hs : (legalLedger rt).Reachable s) (run : RunId) :
    (inheritingLedger rt (fun a => a = run)).Reachable s := by
  induction hs with
  | init h => exact .init h
  | @step s s' op hr h ih =>
    refine .step ih ⟨⟨h.1, ?_⟩, h.2⟩
    cases op with
    | claimNext sched now claimedAt =>
      intro hrun e _ _ he
      rw [decide_eq_true_eq] at hrun he
      exact Or.inl (he.trans hrun.symm)
    | storeGraph | createRun | complete | cancel | reclaim | admitReceipt | applyRetryPolicy
    | openResolveWork | revokeReceipt | admitDecision | appendDecision => trivial

/-- A family whose claims inherit spends no more than the total it declares. -/
theorem inheriting_spends (hs : (inheritingLedger rt family).Reachable s) {total : Nat}
    (htotal : s.Declares family total) : s.dispatches family ≤ total := by
  induction hs with
  | init h =>
    rw [h]
    exact Nat.zero_le _
  | @step s s' op hr h ih =>
    obtain ⟨⟨legal, hinherits⟩, rfl⟩ := h
    have hsound := sound_invariant rt s (inheriting_legal hr)
    have hx := (exec_step rt s legal).extends hsound
    have hbefore : s.Declares family total :=
      fun run spec hstored => htotal run spec (hx.stored run spec hstored)
    rcases exec_dispatches rt s family op with heq | ⟨sched, now, claimedAt, claim, s', rfl, hclaim,
      hfamily, heq⟩
    · rw [heq]
      exact ih hbefore
    · obtain ⟨b, hstatus, hroom⟩ := Scheduler.claimNext_affordable hclaim
      have hdeclared := hbefore sched.run sched.spec legal.1 hfamily
      -- The runs of the family that have dispatched are of this lineage.
      let line : RunId → Bool := fun a => family a &&
        s.events.any (fun e => e.kind = kinds.attemptDispatched && decide (e.runId = a))
      have hline : ∀ a, line a = true →
          a = sched.run.runId ∨ s.Lineage sched.run.budgetLineageRef a := by
        intro a ha
        simp only [line, Bool.and_eq_true, List.any_eq_true, decide_eq_true_eq] at ha
        obtain ⟨hmember, e, he, hkind, rfl⟩ := ha
        exact hinherits hfamily e he hkind hmember
      have hless := Budget.status_covers hsound hstatus hroom hline
      have hall : s.dispatches family ≤ s.dispatches line := by
        refine Store.dispatches_mono ?_
        intro e he hkind hmember
        simp only [line, Bool.and_eq_true, List.any_eq_true, decide_eq_true_eq]
        exact ⟨hmember, e, he, hkind, rfl⟩
      omega

end

/-- In every store that legal use reaches, for a family of runs of graphs that
declare the same total: when a run of the family is issued a claim, it and the runs
it inherits from have dispatched fewer attempts than the total; no run of the family
has dispatched more than the total; and neither has the whole family, if each of its
runs claimed only while the attempts dispatched were its own or inherited. -/
theorem lineage_spends (rt : Runtime) {s : Store} (hs : (legalLedger rt).Reachable s)
    {family : RunId → Bool} {total : Nat} (htotal : s.Declares family total) :
    (∀ (sched : Scheduler) now claimedAt claim s', s.Bound sched.run sched.spec →
      family sched.run.runId = true →
      sched.claimNext rt s now claimedAt = .ok (.claimed claim, s') →
      ∀ line : RunId → Bool, (∀ a, line a = true →
        a = sched.run.runId ∨ s.Lineage sched.run.budgetLineageRef a) →
      s.dispatches line < total) ∧
    (∀ run, family run = true → s.dispatches (fun a => a = run) ≤ total) ∧
    ((inheritingLedger rt family).Reachable s → s.dispatches family ≤ total) := by
  refine ⟨?_, ?_, fun hinherits => inheriting_spends hinherits htotal⟩
  · intro sched now claimedAt claim s' bound hfamily hclaim line hline
    obtain ⟨b, hstatus, hroom⟩ := Scheduler.claimNext_affordable hclaim
    rw [← htotal sched.run sched.spec bound.1 hfamily]
    exact Budget.status_covers (sound_invariant rt s hs) hstatus hroom hline
  · intro run hfamily
    refine inheriting_spends (inheriting_single hs run) ?_
    intro record spec hstored hrun
    rw [decide_eq_true_eq] at hrun
    exact htotal record spec hstored (hrun ▸ hfamily)

namespace Pilot

/-- A graph of the patch alone, with a budget of one attempt, and two runs of it that
inherit from the first. -/
def frugal : GraphSpec :=
  { spec with
    nodes := [{ patch with resourceScope := [] }]
    targets := [patchRef]
    budget := { totalAttempts := 1, deadline := none, bound := one.bound } }

def elder : GraphRun :=
  { run with runId := laterRunId, budgetLineageRef := some runId }

def younger : GraphRun :=
  { run with runId := ⟨"run-3", by decide +kernel⟩, budgetLineageRef := some runId }

def elderScheduler : Scheduler :=
  (get (Scheduler.new frugal elder controller) (by decide +kernel)).withMaxActive 2

def youngerScheduler : Scheduler :=
  (get (Scheduler.new frugal younger controller) (by decide +kernel)).withMaxActive 2

def family : Store :=
  Store.empty.play runtime
    [.storeGraph frugal, .createRun run, .createRun elder, .createRun younger]

def claimElder : LedgerOp := .claimNext elderScheduler now "2026-01-01T00:00:01Z"
def claimYounger : LedgerOp := .claimNext youngerScheduler now "2026-01-01T00:00:02Z"

def elderClaimed : Store := (claimElder.exec runtime family).2
def overspent : Store := (claimYounger.exec runtime elderClaimed).2

theorem schedulers_eq : (elderScheduler.run = elder ∧ elderScheduler.spec = frugal) ∧
    youngerScheduler.run = younger ∧ youngerScheduler.spec = frugal := by decide +kernel

theorem overspent_reachable : (legalLedger runtime).Reachable overspent := by
  have hfamily : (legalLedger runtime).Reachable family :=
    .step (a := .createRun younger) (.step (a := .createRun elder) (.step (a := .createRun run)
      (.step (a := .storeGraph frugal) (.init rfl) ⟨trivial, rfl⟩) ⟨trivial, rfl⟩)
      ⟨trivial, rfl⟩) ⟨trivial, rfl⟩
  have helder : claimElder.Legal family := by
    refine ⟨?_, elderScheduler.graph, elderScheduler.admitted⟩
    rw [schedulers_eq.1.1, schedulers_eq.1.2]
    exact ⟨by decide +kernel, by decide +kernel⟩
  have hyounger : claimYounger.Legal elderClaimed := by
    refine ⟨?_, youngerScheduler.graph, youngerScheduler.admitted⟩
    rw [schedulers_eq.2.1, schedulers_eq.2.2]
    exact ⟨by decide +kernel, by decide +kernel⟩
  exact .step (a := claimYounger) (.step (a := claimElder) hfamily ⟨helder, rfl⟩) ⟨hyounger, rfl⟩

theorem two_attempts_bound : 2 < 2 ^ 32 := by decide

/-- The same graph with a budget of two attempts: its first run claims, and then the run that
inherits from it. -/
def thrifty : GraphSpec :=
  { frugal with budget := { totalAttempts := 2, deadline := none, bound := two_attempts_bound } }

def founderScheduler : Scheduler :=
  (get (Scheduler.new thrifty run controller) (by decide +kernel)).withMaxActive 2

def heirScheduler : Scheduler :=
  (get (Scheduler.new thrifty elder controller) (by decide +kernel)).withMaxActive 2

def claimFounder : LedgerOp := .claimNext founderScheduler now "2026-01-01T00:00:01Z"
def claimHeir : LedgerOp := .claimNext heirScheduler now "2026-01-01T00:00:02Z"

def founded : Store :=
  Store.empty.play runtime [.storeGraph thrifty, .createRun run, .createRun elder]

def founderClaimed : Store := (claimFounder.exec runtime founded).2
def heirClaimed : Store := (claimHeir.exec runtime founderClaimed).2

theorem heirs_eq : (founderScheduler.run = run ∧ founderScheduler.spec = thrifty) ∧
    heirScheduler.run = elder ∧ heirScheduler.spec = thrifty := by decide +kernel

theorem founder_bound : founderClaimed.Bound elder thrifty := by
  refine ⟨⟨by decide +kernel, by decide +kernel⟩, ?_⟩
  have hadmitted := heirScheduler.admitted
  rw [heirs_eq.2.2] at hadmitted
  exact ⟨heirScheduler.graph, hadmitted⟩

/-- The heir claims after the run it inherits from. -/
theorem heir_inherits : claimHeir.Inherits (fun _ => true) founderClaimed := by
  intro _ e he hkind _
  have hfounder : ∀ e ∈ founderClaimed.events, e.kind = kinds.attemptDispatched →
      e.runId = runId := by decide +kernel
  rw [hfounder e he hkind, heirs_eq.2.1]
  exact Or.inr (.head runId)

theorem founder_reachable :
    (inheritingLedger runtime (fun _ => true)).Reachable founderClaimed := by
  have hfounded : (inheritingLedger runtime (fun _ => true)).Reachable founded :=
    .step (a := .createRun elder) (.step (a := .createRun run)
      (.step (a := .storeGraph thrifty) (.init rfl) ⟨⟨trivial, trivial⟩, rfl⟩)
      ⟨⟨trivial, trivial⟩, rfl⟩) ⟨⟨trivial, trivial⟩, rfl⟩
  have hlegal : claimFounder.Legal founded := by
    refine ⟨?_, founderScheduler.graph, founderScheduler.admitted⟩
    rw [heirs_eq.1.1, heirs_eq.1.2]
    exact ⟨by decide +kernel, by decide +kernel⟩
  have hquiet : ∀ e ∈ founded.events, e.kind ≠ kinds.attemptDispatched := by decide +kernel
  exact .step (a := claimFounder) hfounded
    ⟨⟨hlegal, fun _ e he hkind => absurd hkind (hquiet e he)⟩, rfl⟩

theorem heir_reachable : (inheritingLedger runtime (fun _ => true)).Reachable heirClaimed := by
  have hlegal : claimHeir.Legal founderClaimed := by
    change founderClaimed.Bound heirScheduler.run heirScheduler.spec
    rw [heirs_eq.2.1, heirs_eq.2.2]
    exact founder_bound
  exact .step (a := claimHeir) founder_reachable ⟨⟨hlegal, heir_inherits⟩, rfl⟩

theorem declares_thrifty {s : Store} (hgraphs : ∀ r ∈ s.runs, r.graphRef = thrifty.graphRef)
    (hspec : s.specOf thrifty.graphRef = some thrifty) : s.Declares (fun _ => true) 2 := by
  rintro record x ⟨hrecord, hx⟩ -
  rw [hgraphs record hrecord, hspec] at hx
  obtain rfl := Option.some.inj hx
  rfl

end Pilot

open Pilot in
/-- The run that inherits claims while it and its founder have dispatched one attempt of two;
then each has dispatched one, and the family has spent its budget. -/
theorem lineage_spends_claimed :
    founderClaimed.dispatches (fun a => a = laterRunId || a = runId) = 1 ∧
      founderClaimed.dispatches (fun a => a = laterRunId || a = runId) < 2 ∧
      heirClaimed.dispatches (fun a => a = laterRunId) ≤ 2 ∧
      heirClaimed.dispatches (fun _ => true) = 2 ∧ heirClaimed.dispatches (fun _ => true) ≤ 2 := by
  have hbefore := lineage_spends runtime (inheriting_legal founder_reachable)
    (declares_thrifty (by decide +kernel) (by decide +kernel))
  have hafter := lineage_spends runtime (inheriting_legal heir_reachable)
    (declares_thrifty (by decide +kernel) (by decide +kernel))
  have hcount : heirClaimed.dispatches (fun _ => true) = 2 := by decide +kernel
  have hone : founderClaimed.dispatches (fun _ => true) = 1 := by decide +kernel
  refine ⟨by decide +kernel, ?_, hafter.2.1 laterRunId rfl, hcount, hafter.2.2 heir_reachable⟩
  rcases exec_dispatches runtime founderClaimed (fun _ => true) claimHeir with
    hsame | ⟨sched, moment, claimedAt, claim, s', hop, hclaim, -, -⟩
  · exact absurd (hcount.symm.trans (hsame.trans hone)) (by decide)
  · obtain ⟨rfl, rfl, rfl⟩ := LedgerOp.claimNext.inj hop
    refine hbefore.1 heirScheduler now _ claim s' ?_ rfl hclaim _ ?_
    · rw [heirs_eq.2.1, heirs_eq.2.2]
      exact founder_bound
    · intro a ha
      rw [heirs_eq.2.1]
      rcases Bool.or_eq_true_iff.mp ha with h | h
      · exact Or.inl (of_decide_eq_true h)
      · rw [of_decide_eq_true h]
        exact Or.inr (.head runId)

open Pilot in
/-- Two runs that inherit from the same run each claim once within a budget of one. -/
theorem siblings_overspend :
    (legalLedger runtime).Reachable overspent ∧ overspent.Declares (fun _ => true) 1 ∧
      (∀ r ∈ overspent.runs, r = run ∨ r.budgetLineageRef = some runId) ∧
      overspent.dispatches (fun _ => true) = 2 := by
  refine ⟨overspent_reachable, ?_, by decide +kernel, by decide +kernel⟩
  rintro record x ⟨hrecord, hx⟩ -
  have hgraphs : ∀ r ∈ overspent.runs, r.graphRef = frugal.graphRef := by decide +kernel
  have hspec : overspent.specOf frugal.graphRef = some frugal := by decide +kernel
  rw [hgraphs record hrecord, hspec] at hx
  obtain rfl := Option.some.inj hx
  rfl

/-! ### The walk along a lineage -/

namespace Store

/-- Following `budget_lineage_ref` through the stored runs: the runs met, nearest
first, and the reference that comes next. -/
inductive Ancestry (s : Store) : Option RunId → List RunId → Option RunId → Prop
  | here (next : Option RunId) : Ancestry s next [] next
  | up {a : RunId} {line : List RunId} {next : Option RunId} {record : GraphRun}
      (hr : s.run a = .ok (some record)) (h : Ancestry s record.budgetLineageRef line next) :
      Ancestry s (some a) (a :: line) next

/-- No record of the run can be read. -/
def Unknown (s : Store) (a : RunId) : Prop := ∀ record, s.run a ≠ .ok (some record)

variable {s : Store}

theorem run_some {a : RunId} {record : GraphRun} (h : s.run a = .ok (some record)) :
    a ∈ s.runs.map (·.runId) := by
  have hfound := (readOptional_some h).1
  have hid : record.runId = a := by simpa using List.find?_some hfound
  rw [← hid]
  exact List.mem_map_of_mem (List.mem_of_find?_eq_some hfound)

theorem Ancestry.snoc {first : Option RunId} {line : List RunId} {a : RunId} {record : GraphRun}
    (h : s.Ancestry first line (some a)) (hr : s.run a = .ok (some record)) :
    s.Ancestry first (line ++ [a]) record.budgetLineageRef := by
  generalize hnext : some a = next at h
  induction h with
  | here next =>
    subst hnext
    exact .up hr (.here _)
  | up hr' h ih => exact .up hr' (ih hnext)

/-- Every run met has a record. -/
theorem Ancestry.stored {first next : Option RunId} {line : List RunId}
    (h : s.Ancestry first line next) : ∀ a ∈ line, a ∈ s.runs.map (·.runId) := by
  induction h with
  | here next => exact fun _ ha => absurd ha List.not_mem_nil
  | up hr h ih =>
    intro x hx
    rcases List.mem_cons.mp hx with rfl | hx
    · exact run_some hr
    · exact ih x hx

/-- A line that ends and any other from the same reference: the other is its start. -/
theorem Ancestry.start {first : Option RunId} {whole line : List RunId} {a : RunId}
    (h : s.Ancestry first whole none) (hline : s.Ancestry first line (some a)) :
    ∃ rest record, whole = line ++ a :: rest ∧ s.run a = .ok (some record) := by
  generalize hend : none = last at h
  induction h generalizing line with
  | here next =>
    subst hend
    cases hline
  | @up b rest next record hr h ih =>
    cases hline with
    | here => exact ⟨rest, record, rfl, hr⟩
    | up hr' hline =>
      have hsame : record = _ := Option.some.inj (Except.ok.inj (hr.symm.trans hr'))
      subst hsame
      obtain ⟨more, other, rfl, hother⟩ := ih hline hend
      exact ⟨more, other, rfl, hother⟩

theorem dispatches_apart (s : Store) {p q r : RunId → Bool} (hr : ∀ a, r a = (p a || q a))
    (hapart : ∀ a, p a = true → q a = false) :
    s.dispatches r = s.dispatches p + s.dispatches q := by
  unfold dispatches
  induction s.events with
  | nil => rfl
  | cons e rest ih =>
    rw [List.countP_cons, List.countP_cons, List.countP_cons, ih, hr]
    cases hp : p e.runId with
    | false =>
      simp only [Bool.false_or, Bool.and_false, Bool.false_eq_true, if_false]
      omega
    | true =>
      simp only [hapart _ hp, Bool.true_or, Bool.and_false, Bool.false_eq_true, if_false]
      omega

end Store

namespace Budget

/-- Where the walk stands: the line it went, each run once, and what it counted. -/
structure Walking (s : Store) (run : RunId) (first : Option RunId) (seen lineage : List RunId)
    (consumed : Nat) (next : Option RunId) : Prop where
  went : s.Ancestry first lineage next
  once : (run :: lineage).Nodup
  seen_iff : ∀ a, a ∈ seen ↔ a ∈ run :: lineage
  counted : consumed = min (s.dispatches (fun a => a ∈ lineage)) u32Max

/-- What a walk that ends found. -/
structure Walked (s : Store) (run : RunId) (first : Option RunId) (out : Nat × List RunId) :
    Prop where
  went : s.Ancestry first out.2 none
  once : (run :: out.2).Nodup
  counted : out.1 = min (s.dispatches (fun a => a ∈ out.2)) u32Max

/-- A line from the reference reaches a run that is unknown or already on it. -/
def Stray (s : Store) (run : RunId) (first : Option RunId) : Prop :=
  ∃ line a, s.Ancestry first line (some a) ∧ (a ∈ run :: line ∨ s.Unknown a)

section

variable {s : Store} {run : RunId} {first next : Option RunId} {seen lineage : List RunId}
  {consumed : Nat}

theorem Walking.length_le (h : Walking s run first seen lineage consumed next) :
    lineage.length ≤ s.runs.length := by
  have hnd := (List.nodup_cons.mp h.once).2
  have hle := (List.subperm_of_subset hnd h.went.stored).length_le
  rwa [List.length_map] at hle

theorem Walking.up {a : RunId} {record : GraphRun}
    (h : Walking s run first seen lineage consumed (some a)) (hnew : a ∉ seen)
    (hr : s.run a = .ok (some record)) :
    Walking s run first (a :: seen) (lineage ++ [a])
      (saturatingAdd consumed (s.dispatchCount a)) record.budgetLineageRef := by
  rw [h.seen_iff, List.mem_cons, not_or] at hnew
  refine { went := h.went.snoc hr, once := ?_, seen_iff := ?_, counted := ?_ }
  · obtain ⟨hrun, hline⟩ := List.nodup_cons.mp h.once
    refine List.nodup_cons.mpr ⟨?_, ?_⟩
    · rw [List.mem_append, List.mem_singleton, not_or]
      exact ⟨hrun, fun heq => hnew.1 heq.symm⟩
    · refine List.nodup_append.mpr ⟨hline, List.nodup_singleton a, ?_⟩
      intro x hx y hy
      rw [List.mem_singleton.mp hy]
      exact fun heq => hnew.2 (heq ▸ hx)
  · intro x
    rw [List.mem_cons, h.seen_iff]
    simp only [List.mem_cons, List.mem_append]
    tauto
  · have hsplit : s.dispatches (fun x => x ∈ lineage ++ [a]) =
        s.dispatches (fun x => x ∈ lineage) + s.dispatches (fun x => x = a) := by
      refine s.dispatches_apart (fun x => by simp) ?_
      intro x hx
      rw [decide_eq_true_eq] at hx
      exact decide_eq_false (fun heq => hnew.2 (heq ▸ hx))
    rw [hsplit, h.counted, s.dispatchCount_eq]
    unfold saturatingAdd
    omega

/-- The walk ends: with the line it went when that ends, else with a stray reference.
Its length is bounded by the number of stored runs. -/
theorem lineageLoop_walks {fuel : Nat} (h : Walking s run first seen lineage consumed next)
    (hfuel : s.runs.length < lineage.length + fuel) :
    (∃ out, lineageLoop s run fuel seen lineage consumed next = .ok out ∧
      Walked s run first out) ∨
    ((∃ e, lineageLoop s run fuel seen lineage consumed next = .error e) ∧
      Stray s run first) := by
  induction fuel generalizing seen lineage consumed next with
  | zero =>
    have hle := h.length_le
    omega
  | succ fuel ih =>
    cases next with
    | none => exact Or.inl ⟨(consumed, lineage), rfl, ⟨h.went, h.once, h.counted⟩⟩
    | some a =>
      unfold lineageLoop
      split
      · rename_i hseen
        exact Or.inr ⟨⟨_, rfl⟩, lineage, a, h.went, Or.inl ((h.seen_iff a).mp hseen)⟩
      · rename_i hnew
        split
        · rename_i e hr
          exact Or.inr
            ⟨⟨_, rfl⟩, lineage, a, h.went, Or.inr (fun _ hok => by rw [hr] at hok; cases hok)⟩
        · rename_i hr
          exact Or.inr
            ⟨⟨_, rfl⟩, lineage, a, h.went, Or.inr (fun _ hok => by rw [hr] at hok; cases hok)⟩
        · rename_i record hr
          refine ih (h.up hnew hr) ?_
          rw [List.length_append, List.length_singleton]
          omega

theorem lineageLoop_fuel {fuel more : Nat} (h : Walking s run first seen lineage consumed next)
    (hfuel : s.runs.length < lineage.length + fuel) :
    lineageLoop s run (fuel + more) seen lineage consumed next =
      lineageLoop s run fuel seen lineage consumed next := by
  induction fuel generalizing seen lineage consumed next with
  | zero =>
    have hle := h.length_le
    omega
  | succ fuel ih =>
    rw [Nat.succ_add]
    cases next with
    | none => rfl
    | some a =>
      unfold lineageLoop
      split
      · rfl
      · rename_i hnew
        split
        · rfl
        · rfl
        · rename_i record hr
          refine ih (h.up hnew hr) ?_
          rw [List.length_append, List.length_singleton]
          omega

theorem Walking.start (s : Store) (run : RunId) (first : Option RunId) :
    Walking s run first [run] [] 0 first where
  went := .here first
  once := List.nodup_singleton run
  seen_iff := fun a => Iff.rfl
  counted := by
    rw [Store.dispatches_eq_zero (fun a => by simp)]
    rfl

theorem Walked.not_stray {out : Nat × List RunId} (h : Walked s run first out) :
    ¬ Stray s run first := by
  rintro ⟨line, a, hline, hstray⟩
  obtain ⟨rest, record, hwhole, hr⟩ := h.went.start hline
  rcases hstray with hseen | hunknown
  · have hnd := h.once
    rw [hwhole, ← List.cons_append] at hnd
    exact (List.nodup_append.mp hnd).2.2 a hseen a List.mem_cons_self rfl
  · exact hunknown record hr

end

end Budget

/-- The walk along a lineage ends within as many steps as runs are stored. It fails
exactly when following the references reaches a run that is unknown or was met before.
Otherwise its line is the ancestors, nearest first and each once, and what it counts
as consumed is the attempts dispatched in the run and in them, up to the capacity of a
`u32`. -/
theorem lineage_counted (s : Store) (spec : GraphSpec) (run : GraphRun) (now : Timestamp) :
    (∀ more, Budget.lineageLoop s run.runId (s.runs.length + 1 + more) [run.runId] [] 0
        run.budgetLineageRef =
      Budget.lineageLoop s run.runId (s.runs.length + 1) [run.runId] [] 0 run.budgetLineageRef) ∧
    ((∃ e, Budget.status s spec run now = .error e) ↔
      Budget.Stray s run.runId run.budgetLineageRef) ∧
    ∀ b, Budget.status s spec run now = .ok b →
      s.Ancestry run.budgetLineageRef b.lineage none ∧ (run.runId :: b.lineage).Nodup ∧
      b.consumed = min (s.dispatches (fun a => a ∈ run.runId :: b.lineage)) u32Max := by
  have hstart := Budget.Walking.start s run.runId run.budgetLineageRef
  have hfuel : s.runs.length < ([] : List RunId).length + (s.runs.length + 1) := by simp
  refine ⟨fun more => Budget.lineageLoop_fuel hstart hfuel, ?_⟩
  unfold Budget.status
  rcases Budget.lineageLoop_walks hstart hfuel with ⟨out, hout, hwalked⟩ | ⟨⟨e, he⟩, hstray⟩
  · rw [hout]
    refine ⟨⟨?_, fun hstray => absurd hstray hwalked.not_stray⟩, ?_⟩
    · rintro ⟨e, he⟩
      cases he
    · rintro b hb
      cases hb
      refine ⟨hwalked.went, hwalked.once, ?_⟩
      have hsplit : s.dispatches (fun a => a ∈ run.runId :: out.2) =
          s.dispatches (fun a => a = run.runId) + s.dispatches (fun a => a ∈ out.2) := by
        refine s.dispatches_apart (fun a => by simp) ?_
        intro a ha
        rw [decide_eq_true_eq] at ha
        rw [ha]
        exact decide_eq_false (List.nodup_cons.mp hwalked.once).1
      rw [hsplit]
      simp only [BudgetStatus.consumed, saturatingAdd, hwalked.counted, s.dispatchCount_eq]
      omega
  · rw [he]
    refine ⟨⟨fun _ => hstray, fun _ => ⟨e, rfl⟩⟩, ?_⟩
    rintro b hb
    cases hb

end Checkspan
