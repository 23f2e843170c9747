import Mathlib.Data.String.Basic
import Checkspan.Lib.KeyedSort
import Checkspan.Lib.Relational
import Checkspan.Packets

/-!
# What the ledger reports (`src/store/mod.rs:1032-1066`, `src/controller/mod.rs:173-193`)

The summary of a run counts rows, and the log records every row with an event. The packet shown
for a node is the newest row about it, and the node waits on the packet of its last event.
-/

namespace Checkspan

open Transition

structure NodeSummary where
  nodeId : NodeId
  attempts : Nat
  receipts : Nat
  lastVerdict : Option String
deriving DecidableEq

namespace Store

/-- The attempts of a run, each with its receipts. -/
def judged (s : Store) (run : RunId) : List (Attempt × Option VerifierReceipt) :=
  Relational.leftJoin (fun a r => decide (r.key = a.key))
    (s.attempts.filter (fun a => a.runId = run)) s.receipts

def summaryOf (s : Store) (run : RunId) (id : NodeId) : NodeSummary :=
  let group := (s.judged run).filter (fun row => row.1.node.nodeId = id)
  { nodeId := id
    attempts := (group.map (fun row => row.1.number)).dedup.length
    receipts := group.countP (fun row => row.2.isSome)
    lastVerdict := (s.receiptsOf run id).getLast?.map (·.verdict.asStr) }

/-- `summary`. -/
def summary (s : Store) (run : RunId) : List NodeSummary :=
  let nodes := ((s.judged run).map (fun row => row.1.node.nodeId)).dedup
  (KeyedSort.sortOn Identifier.text nodes).map (s.summaryOf run)

/-- The newest packet about a node. -/
def newestPacket (s : Store) (run : RunId) (id : String) : Option GatePacket :=
  (s.gatePackets.filter (fun p => p.runId = run)).reverse.find? (fun p => p.node.nodeId.text = id)

/-- The events of one kind about a node. -/
def tally (s : Store) (kind : String) (run : RunId) (id : NodeId) : Nat :=
  s.events.countP (fun e => e.runId = run ∧ e.kind = kind ∧ e.nodeId = some id)

end Store

section

variable {rt : Runtime} {s s' : Store}

/-- What a step adds to the log. -/
theorem LedgerStep.events_cases {label : Option (RunId × NodeId × NodeEvent)}
    (h : LedgerStep rt s label s') :
    (label = none ∧ (s'.events = s.events ∨ ∃ e, s'.events = s.events ++ [e] ∧ e.nodeId = none)) ∨
      ∃ run id ev payload, label = some (run, id, ev) ∧
        s'.events = s.events ++ [s.nextEvent run (some id) ev.kind payload] := by
  cases label with
  | some l =>
    obtain ⟨run, id, ev⟩ := l
    obtain ⟨record, spec, st, old, new, payload, hrec⟩ := h.recorded
    exact .inr ⟨run, id, ev, payload, rfl, hrec.events⟩
  | none =>
    cases h with
    | same => exact .inl ⟨rfl, .inl rfl⟩
    | graph row fresh => exact .inl ⟨rfl, .inl rfl⟩
    | run r fresh known => exact .inl ⟨rfl, .inr ⟨_, rfl, rfl⟩⟩
    | revoke r payload known => exact .inl ⟨rfl, .inr ⟨_, rfl, rfl⟩⟩

/-- The label is an event of this kind about this node. -/
def Marks (kind : String) (run : RunId) (id : NodeId) :
    Option (RunId × NodeId × NodeEvent) → Prop
  | some (r, i, ev) => r = run ∧ ev.kind = kind ∧ i = id
  | none => False

theorem NodeEvent.receiptAdmitted_of_kind {ev : NodeEvent} (h : ev.kind = kinds.receiptAdmitted) :
    ∃ k ref v, ev = .receiptAdmitted k ref v := by
  cases ev with
  | receiptAdmitted k ref v => exact ⟨k, ref, v, rfl⟩
  | dispatched k => exact absurd h (show kinds.attemptDispatched ≠ _ by decide)
  | executionFinished k o d => exact absurd h (show kinds.attemptSealed ≠ _ by decide)
  | gateOpened p => exact absurd h (show kinds.gateOpened ≠ _ by decide)
  | decisionAdmitted p d => exact absurd h (show kinds.decisionAdmitted ≠ _ by decide)
  | retryAllowed => exact absurd h (show kinds.retryAllowed ≠ _ by decide)
  | cancelled => exact absurd h (show kinds.nodeCancelled ≠ _ by decide)

/-- A kind is counted once more by the steps of its label about the node, and by no others. -/
theorem LedgerStep.tally_eq {label : Option (RunId × NodeId × NodeEvent)}
    (h : LedgerStep rt s label s') (kind : String) (run : RunId) (id : NodeId) :
    (Marks kind run id label → s'.tally kind run id = s.tally kind run id + 1) ∧
      (¬ Marks kind run id label → s'.tally kind run id = s.tally kind run id) := by
  unfold Store.tally
  rcases h.events_cases with ⟨rfl, heq | ⟨e, heq, hnone⟩⟩ | ⟨r, i, ev, payload, rfl, heq⟩
  · exact ⟨False.elim, fun _ => by rw [heq]⟩
  · exact ⟨False.elim, fun _ => by simp [heq, hnone]⟩
  · rw [heq, List.countP_append, List.countP_singleton]
    constructor
    · rintro ⟨rfl, rfl, rfl⟩
      simp [Store.nextEvent]
    · intro hne
      have hne' : ¬ (r = run ∧ ev.kind = kind ∧ i = id) := hne
      simpa [Store.nextEvent] using hne'

/-- An attempt row comes with the end of its execution, and with nothing else. -/
theorem LedgerStep.attempts_cases {label : Option (RunId × NodeId × NodeEvent)}
    (h : LedgerStep rt s label s') :
    (s'.attempts = s.attempts ∧ ∀ run id, ¬ Marks kinds.attemptSealed run id label) ∨
      ∃ a, s'.attempts = s.attempts ++ [a] ∧ ∀ run id,
        Marks kinds.attemptSealed run id label ↔ a.runId = run ∧ a.node.nodeId = id := by
  cases h with
  | @complete sched claim attempt _ row execution st state next record hrun bound h =>
    refine .inr ⟨attempt, by rw [h.store_eq]; rfl, fun run id => ?_⟩
    rw [h.runId_eq, GraphSpec.nodeRef_nodeId h.nodeRef_eq]
    simp [Marks, NodeEvent.kind]
  | @reclaim sched id now number _ node row startedAt st state next bound h =>
    refine .inr ⟨sched.reclaimedAttempt node row startedAt now, by rw [h.store_eq]; rfl,
      fun run i => ?_⟩
    simp [Marks, NodeEvent.kind, Scheduler.reclaimedAttempt, GraphSpec.nodeRef_nodeId h.nodeRef_eq]
  | same => exact .inl ⟨rfl, fun _ _ h => h⟩
  | graph row fresh => exact .inl ⟨rfl, fun _ _ h => h⟩
  | run r fresh known => exact .inl ⟨rfl, fun _ _ h => h⟩
  | revoke run payload known => exact .inl ⟨rfl, fun _ _ h => h⟩
  | claim bound h => exact .inl ⟨by rw [h.store_eq], by simp [Marks, NodeEvent.kind]; decide⟩
  | cancel bound h => exact .inl ⟨by rw [h.store_eq], by simp [Marks, NodeEvent.kind]; decide⟩
  | admitted bound h => exact .inl ⟨by rw [h.store_eq], by simp [Marks, NodeEvent.kind]; decide⟩
  | retry => exact .inl ⟨rfl, by simp [Marks, NodeEvent.kind]; decide⟩
  | exhausted => exact .inl ⟨rfl, by simp [Marks, NodeEvent.kind]; decide⟩
  | opened bound h => exact .inl ⟨by rw [h.store_eq], by simp [Marks, NodeEvent.kind]; decide⟩
  | decided => exact .inl ⟨rfl, by simp [Marks, NodeEvent.kind]; decide⟩

/-- The log has an event for every sealed attempt and for every receipt of a node. -/
structure Store.Tallied (s : Store) : Prop where
  attempts : ∀ run id, s.attempts.countP (fun a => a.runId = run ∧ a.node.nodeId = id) =
    s.tally kinds.attemptSealed run id
  receipts : ∀ run id, (s.receiptsOf run id).length = s.tally kinds.receiptAdmitted run id

theorem Store.Tallied.step (h : s.Tallied) {label : Option (RunId × NodeId × NodeEvent)}
    (hstep : LedgerStep rt s label s') : s'.Tallied := by
  constructor
  · intro run id
    obtain ⟨hmarked, hquiet⟩ := hstep.tally_eq kinds.attemptSealed run id
    have hold := h.attempts run id
    rcases hstep.attempts_cases with ⟨hsame, hlabel⟩ | ⟨a, hmore, hlabel⟩
    · rw [hsame, hold, hquiet (hlabel run id)]
    · rw [hmore, List.countP_append, List.countP_singleton, hold]
      by_cases hown : a.runId = run ∧ a.node.nodeId = id
      · simp [hmarked ((hlabel run id).mpr hown), hown]
      · simp [hquiet (fun hm => hown ((hlabel run id).mp hm)), hown]
  · intro run id
    obtain ⟨hmarked, hquiet⟩ := hstep.tally_eq kinds.receiptAdmitted run id
    have hold := h.receipts run id
    unfold Store.receiptsOf at hold ⊢
    rcases hstep.receipts_cases with ⟨hsame, hlabel⟩ |
      ⟨spec, r, receipt, now, node, attempt, result, st, state, bound, hadm, rfl⟩
    · rw [hsame, hold, hquiet]
      cases label with
      | none => exact fun hm => hm
      | some l =>
        obtain ⟨r, i, ev⟩ := l
        intro hm
        obtain ⟨k, ref, v, rfl⟩ := NodeEvent.receiptAdmitted_of_kind hm.2.1
        exact hlabel r i k ref v rfl
    · have hreceipts : s'.receipts = s.receipts ++ [receipt] := by rw [hadm.store_eq]
      have hlabel : Marks kinds.receiptAdmitted run id (some (r.runId, receipt.attempt.node.nodeId,
          .receiptAdmitted receipt.attempt.number receipt.receiptRef receipt.verdict)) ↔
          receipt.attempt.runId = run ∧ receipt.attempt.node.nodeId = id := by
        rw [hadm.runId_eq]
        simp [Marks, NodeEvent.kind]
      rw [hreceipts, List.filter_append, List.length_append, hold]
      by_cases hown : receipt.attempt.runId = run ∧ receipt.attempt.node.nodeId = id
      · simp [hmarked (hlabel.mpr hown), hown]
      · simp [hquiet (fun hm => hown (hlabel.mp hm)), hown]

end

theorem tallied_invariant (rt : Runtime) : (legalLedger rt).Invariant Store.Tallied := by
  refine System.Invariant.step System.invariant_true ?_ ?_
  · rintro s rfl
    exact ⟨fun _ _ => rfl, fun _ _ => rfl⟩
  · rintro s op s' - h ⟨legal, rfl⟩
    exact h.step (exec_step rt s legal)

/-! ### The summary of a run -/

namespace Store

variable {s : Store} {run : RunId} {id : NodeId}

def attemptsOf (s : Store) (run : RunId) (id : NodeId) : List Attempt :=
  s.attempts.filter (fun a => a.runId = run ∧ a.node.nodeId = id)

theorem mem_attemptsOf {a : Attempt} :
    a ∈ s.attemptsOf run id ↔ a ∈ s.attempts ∧ a.runId = run ∧ a.node.nodeId = id := by
  unfold attemptsOf
  rw [List.mem_filter, decide_eq_true_eq]

theorem group_eq : (s.judged run).filter (fun row => row.1.node.nodeId = id) =
    Relational.leftJoin (fun a r => decide (r.key = a.key)) (s.attemptsOf run id) s.receipts := by
  unfold judged attemptsOf
  rw [Relational.filter_leftJoin _ (fun a : Attempt => decide (a.node.nodeId = id)),
    List.filter_filter]
  congr 2
  funext a
  simp [and_comm]

theorem keys_nodup (h : s.ClaimsOk) : ((s.attemptsOf run id).map Attempt.key).Nodup :=
  h.sealedOnce.sublist ((List.filter_sublist).map _)

theorem numbers_nodup (h : s.ClaimsOk) : ((s.attemptsOf run id).map (·.number)).Nodup := by
  have hkeys := @keys_nodup s run id h
  have hmap : (s.attemptsOf run id).map Attempt.key =
      ((s.attemptsOf run id).map (·.number)).map (fun k => (run, id, k)) := by
    rw [List.map_map]
    refine List.map_congr_left fun a ha => ?_
    obtain ⟨-, rfl, rfl⟩ := mem_attemptsOf.mp ha
    rfl
  rw [hmap] at hkeys
  exact hkeys.of_map _

/-- A receipt is about an attempt of its node. -/
theorem key_mem {rt : Runtime} (h : s.ReceiptsOk rt) {r : VerifierReceipt} (hr : r ∈ s.receipts) :
    (r.attempt.runId = run ∧ r.attempt.node.nodeId = id) ↔
      r.key ∈ (s.attemptsOf run id).map Attempt.key := by
  constructor
  · rintro ⟨rfl, rfl⟩
    obtain ⟨_, _, _, a, _, hb⟩ := h.bound r hr
    have hkey := hb.key_eq
    simp only [Attempt.key, VerifierReceipt.key, Prod.mk.injEq] at hkey
    exact List.mem_map.mpr ⟨a, mem_attemptsOf.mpr ⟨hb.row, hkey.1, hkey.2.1⟩, hb.key_eq⟩
  · intro hmem
    obtain ⟨a, ha, hkey⟩ := List.mem_map.mp hmem
    obtain ⟨-, hrun, hid⟩ := mem_attemptsOf.mp ha
    simp only [Attempt.key, VerifierReceipt.key, Prod.mk.injEq] at hkey
    exact ⟨hkey.1 ▸ hrun, hkey.2.1 ▸ hid⟩

theorem summaryOf_attempts (h : s.ClaimsOk) (ht : s.Tallied) :
    (s.summaryOf run id).attempts = s.tally kinds.attemptSealed run id := by
  rw [← ht.attempts run id]
  change (((s.judged run).filter _).map (fun row => row.1.number)).dedup.length = _
  rw [group_eq, Relational.distinct_leftJoin _ (numbers_nodup h), attemptsOf,
    ← List.countP_eq_length_filter]

theorem summaryOf_receipts {rt : Runtime} (h : s.ClaimsOk) (hr : s.ReceiptsOk rt) :
    (s.summaryOf run id).receipts = (s.receiptsOf run id).length := by
  change ((s.judged run).filter _).countP (fun row => row.2.isSome) = _
  rw [group_eq, Relational.countP_leftJoin_key (keys_nodup h)
    (fun r => decide (r.attempt.runId = run ∧ r.attempt.node.nodeId = id)), receiptsOf,
    ← List.countP_eq_length_filter]
  intro r hmem
  rw [decide_eq_true_eq]
  exact key_mem hr hmem

/-- No attempt is judged twice. -/
theorem receiptsOf_once {rt : Runtime} (hr : s.ReceiptsOk rt) :
    ((s.receiptsOf run id).map VerifierReceipt.key).Nodup :=
  hr.once.sublist ((List.filter_sublist).map _)

theorem receiptsOf_length_le {rt : Runtime} (hr : s.ReceiptsOk rt) :
    (s.receiptsOf run id).length ≤ (s.attemptsOf run id).length := by
  have hsub : (s.receiptsOf run id).map VerifierReceipt.key ⊆
      (s.attemptsOf run id).map Attempt.key := by
    intro k hk
    obtain ⟨r, hmem, rfl⟩ := List.mem_map.mp hk
    have hown := mem_receiptsOf.mp hmem
    exact (key_mem hr hown.1).mp hown.2
  have hle := (List.subperm_of_subset (receiptsOf_once hr) hsub).length_le
  rwa [List.length_map, List.length_map] at hle

/-- The newest receipt accepts exactly at an accepted node. -/
theorem newest_accepts {rt : Runtime} (h : s.ClaimsOk) (hr : s.ReceiptsOk rt)
    (ho : s.ReceiptsInOrder) :
    (∃ r, (s.receiptsOf run id).getLast? = some r ∧ r.verdict = .accept) ↔
      ∃ state, s.nodeState run id = some state ∧ state.status = .accepted := by
  constructor
  · rintro ⟨r, hlast, hacc⟩
    obtain ⟨hmem, rfl, rfl⟩ := mem_receiptsOf.mp (List.mem_of_getLast? hlast)
    obtain ⟨state, hstate, hby⟩ := hr.accepting r hmem hacc
    exact ⟨state, hstate, hby.1⟩
  · rintro ⟨state, hstate, hacc⟩
    obtain ⟨q, hq, hverdict, hkey, hby⟩ := hr.accepted run id state hstate hacc
    simp only [VerifierReceipt.key, Prod.mk.injEq, and_true] at hkey
    have hown := mem_receiptsOf.mpr ⟨hq, hkey.1, hkey.2⟩
    obtain ⟨r, hlast⟩ := Option.ne_none_iff_exists'.mp
      (mt List.getLast?_eq_none_iff.mp (List.ne_nil_of_mem hown))
    obtain ⟨hmem, hrun, hid⟩ := mem_receiptsOf.mp (List.mem_of_getLast? hlast)
    refine ⟨r, hlast, ?_⟩
    rcases ho.number_le_newest hlast hown with rfl | hlt
    · exact hverdict
    · -- The accepted attempt is the last one started.
      have hle := hr.number_le h hmem
      have hcurrent := (nodeState_wf hstate).currentIsLast _ hby.2.2
      rw [hrun, hid, started, hstate] at hle
      simp only at hle
      omega

theorem mem_judged : (∃ row ∈ s.judged run, row.1.node.nodeId = id) ↔ s.attemptsOf run id ≠ [] := by
  rw [List.ne_nil_iff_exists_cons, judged]
  constructor
  · rintro ⟨row, hrow, hid⟩
    have hleft := (Relational.mem_leftJoin_left _).mp (List.mem_map.mpr ⟨row, hrow, rfl⟩)
    obtain ⟨hmem, hrun⟩ := List.mem_filter.mp hleft
    have hown := mem_attemptsOf.mpr ⟨hmem, of_decide_eq_true hrun, hid⟩
    exact List.exists_cons_of_ne_nil (List.ne_nil_of_mem hown)
  · rintro ⟨a, rest, hlist⟩
    obtain ⟨hmem, hrun, hid⟩ := mem_attemptsOf.mp (hlist ▸ List.mem_cons_self)
    have hleft : a ∈ s.attempts.filter (fun a => a.runId = run) :=
      List.mem_filter.mpr ⟨hmem, decide_eq_true hrun⟩
    obtain ⟨row, hrow, rfl⟩ := List.mem_map.mp ((Relational.mem_leftJoin_left
      (fun (a : Attempt) (r : VerifierReceipt) => decide (r.key = a.key)) (r := s.receipts)).mpr
        hleft)
    exact ⟨row, hrow, hid⟩

theorem mem_summary {row : NodeSummary} : row ∈ s.summary run ↔
    s.attemptsOf run row.nodeId ≠ [] ∧ row = s.summaryOf run row.nodeId := by
  unfold summary
  simp only [List.mem_map, (KeyedSort.sortOn_perm _).mem_iff, List.mem_dedup]
  constructor
  · rintro ⟨id, hrow, rfl⟩
    exact ⟨mem_judged.mp hrow, rfl⟩
  · rintro ⟨hne, heq⟩
    exact ⟨row.nodeId, mem_judged.mpr hne, heq.symm⟩

/-- The rows come by the texts of their nodes, one for each. -/
theorem summary_sorted :
    ((s.summary run).map (·.nodeId)).Pairwise (fun a b => a.text < b.text) := by
  have hids : (s.summary run).map (·.nodeId) = KeyedSort.sortOn Identifier.text
      ((s.judged run).map (fun row => row.1.node.nodeId)).dedup := by
    rw [summary, List.map_map]
    exact List.map_id _
  have hnodup : (KeyedSort.sortOn Identifier.text
      ((s.judged run).map (fun row => row.1.node.nodeId)).dedup).Nodup :=
    (KeyedSort.sortOn_perm _).nodup_iff.mpr (List.nodup_dedup _)
  rw [hids]
  refine List.Pairwise.imp₂ ?_ (KeyedSort.sortOn_sorted _) hnodup
  intro a b hle hne
  exact lt_of_le_of_ne (not_lt.mp hle) (fun heq => hne (Identifier.ext_text heq))

end Store

/-- A row of the summary, against the log and the replayed state. -/
structure Store.Reported (s : Store) (run : RunId) (row : NodeSummary) : Prop where
  attempts : row.attempts = s.tally kinds.attemptSealed run row.nodeId
  receipts : row.receipts = s.tally kinds.receiptAdmitted run row.nodeId
  judged : row.receipts ≤ row.attempts
  once : ((s.receiptsOf run row.nodeId).map VerifierReceipt.key).Nodup
  unjudged : row.lastVerdict = none ↔ row.receipts = 0
  accepted : row.lastVerdict = some Verdict.accept.asStr ↔
    ∃ state, s.nodeState run row.nodeId = some state ∧ state.status = .accepted

theorem Verdict.asStr_inj {a b : Verdict} (h : a.asStr = b.asStr) : a = b := by
  cases a <;> cases b <;> first | rfl | exact absurd h (by decide)

/-- The summary lists the nodes of sealed attempts once each, and its counts and last verdicts
are those of the events and of the replay. -/
theorem summary_agrees (rt : Runtime) {s : Store} (hs : (legalLedger rt).Reachable s)
    (run : RunId) :
    ((s.summary run).map (·.nodeId)).Pairwise (fun a b => a.text < b.text) ∧
      (∀ id, (∃ row ∈ s.summary run, row.nodeId = id) ↔ 0 < s.tally kinds.attemptSealed run id) ∧
      ∀ row ∈ s.summary run, s.Reported run row := by
  have hclaims := claimsOk_invariant rt s hs
  have hreceipts := receiptsOk_invariant rt s hs
  have hord := receiptsInOrder_invariant rt s hs
  have htally := tallied_invariant rt s hs
  refine ⟨Store.summary_sorted, ?_, ?_⟩
  · intro id
    rw [← htally.attempts run id, List.countP_eq_length_filter, List.length_pos_iff]
    constructor
    · rintro ⟨row, hrow, rfl⟩
      exact (Store.mem_summary.mp hrow).1
    · intro hne
      exact ⟨s.summaryOf run id, Store.mem_summary.mpr ⟨hne, rfl⟩, rfl⟩
  · intro row hrow
    obtain ⟨-, heq⟩ := Store.mem_summary.mp hrow
    generalize row.nodeId = id at heq
    subst heq
    have hcount := @Store.summaryOf_receipts s run id rt hclaims hreceipts
    have hlength := @Store.receiptsOf_length_le s run id rt hreceipts
    refine { attempts := Store.summaryOf_attempts hclaims htally, receipts := ?_, judged := ?_
             once := Store.receiptsOf_once hreceipts, unjudged := ?_, accepted := ?_ }
    · rw [hcount, htally.receipts run id]
      rfl
    · rw [hcount, Store.summaryOf_attempts hclaims htally, ← htally.attempts run id,
        List.countP_eq_length_filter]
      exact hlength
    · rw [hcount, List.length_eq_zero_iff]
      simp [Store.summaryOf]
    · refine Iff.trans ?_ (Store.newest_accepts hclaims hreceipts hord)
      change Option.map _ _ = _ ↔ _
      rw [Option.map_eq_some_iff]
      refine exists_congr fun r => and_congr_right fun _ => ?_
      exact ⟨fun h => Verdict.asStr_inj h, fun h => by rw [h]⟩

open Pilot in
theorem summary_agrees_patch :
    (patchAccepted.summary runId).map (fun row => (row.nodeId, row.attempts, row.receipts)) =
        [(patchId, 1, 1)] ∧
      ∀ row ∈ patchAccepted.summary runId, patchAccepted.Reported runId row :=
  ⟨by decide +kernel, (summary_agrees runtime patchAccepted_reachable runId).2.2⟩

/-! ### The packet of a node -/

/-- A node that waits, waits on the newest packet about it. -/
def Store.Shows (s : Store) : Prop :=
  ∀ run id state p, s.nodeState run id = some state → state.waitingOnGate = some p →
    ∃ packet, s.newestPacket run id.text = some packet ∧ packet.id = p

section

variable {rt : Runtime} {s s' : Store}

theorem Store.newestPacket_self {packet : GatePacket}
    (h : s'.gatePackets = s.gatePackets ++ [packet]) :
    s'.newestPacket packet.runId packet.node.nodeId.text = some packet := by
  simp [newestPacket, h]

theorem Store.newestPacket_other {packet : GatePacket} {run : RunId} {id : NodeId}
    (h : s'.gatePackets = s.gatePackets ++ [packet])
    (hne : ¬ (packet.runId = run ∧ packet.node.nodeId = id)) :
    s'.newestPacket run id.text = s.newestPacket run id.text := by
  unfold newestPacket
  rw [h, List.filter_append]
  by_cases hrun : packet.runId = run
  · have htext : packet.node.nodeId.text ≠ id.text :=
      fun heq => hne ⟨hrun, Identifier.ext_text heq⟩
    simp [hrun, htext]
  · simp [hrun]

theorem Store.newestPacket_same {run : RunId} {id : String}
    (h : s'.gatePackets = s.gatePackets) : s'.newestPacket run id = s.newestPacket run id := by
  rw [newestPacket, newestPacket, h]

/-- A step that opens no packet. -/
theorem Store.Shows.quiet (h : s.Shows) (hs : s.Sound)
    {label : Option (RunId × NodeId × NodeEvent)} (hstep : LedgerStep rt s label s')
    (hne : ∀ run id packet, label ≠ some (run, id, .gateOpened packet)) : s'.Shows := by
  intro run id state p hstate hw
  rw [newestPacket_same (hstep.packets_eq hne)]
  cases label with
  | none =>
    rcases hstep.unmoved hs run id with hsame | ⟨-, hinit⟩
    · exact h run id state p (hsame ▸ hstate) hw
    · cases hinit.symm.trans hstate
      cases hw
  | some l =>
    obtain ⟨r, i, e⟩ := l
    obtain ⟨old, new, hmoved⟩ := hstep.moved hs
    by_cases hown : run = r ∧ id = i
    · obtain ⟨rfl, rfl⟩ := hown
      cases hmoved.after.symm.trans hstate
      rcases hmoved.legal.waits hw with rfl | hold
      · exact absurd rfl (hne run id p)
      · exact h run id old p hmoved.before hold
    · exact h run id state p (hmoved.others run id hown ▸ hstate) hw

theorem Store.Shows.opened (h : s.Shows) (hs : s.Sound) {run : RunId} {packet : GatePacket}
    (hstep : LedgerStep rt s (some (run, packet.node.nodeId, .gateOpened packet.id)) s')
    (hrun : packet.runId = run) (hpackets : s'.gatePackets = s.gatePackets ++ [packet]) :
    s'.Shows := by
  intro r i state p hstate hw
  obtain ⟨old, new, hmoved⟩ := hstep.moved hs
  by_cases hown : r = run ∧ i = packet.node.nodeId
  · obtain ⟨rfl, rfl⟩ := hown
    cases hmoved.after.symm.trans hstate
    refine ⟨packet, hrun ▸ newestPacket_self hpackets, ?_⟩
    have hlegal := hmoved.legal
    cases hlegal with
    | gate _ hs => exact Option.some.inj hw
    | packet _ hs hwait => exact Option.some.inj hw
  · rw [newestPacket_other hpackets (fun hp => hown ⟨hp.1.symm.trans hrun, hp.2.symm⟩)]
    exact h r i state p (hmoved.others r i hown ▸ hstate) hw

theorem Store.Shows.exec (h : s.Shows) (hs : s.Sound) {op : LedgerOp} (legal : op.Legal s) :
    (op.exec rt s).2.Shows := by
  have hstep := exec_step rt s legal
  by_cases hopen : ∃ run id packet, op.checked (op.exec rt s).1 = some (run, id, .gateOpened packet)
  · obtain ⟨run, id, packet, hlabel⟩ := hopen
    obtain ⟨spec, record, now, expiresAt, rfl⟩ := LedgerOp.checked_gateOpened hlabel
    refine Store.transaction_property (P := Store.Shows) h fun packet s' hdone => ?_
    obtain ⟨st, state, next, hopened⟩ := Gates.openResolveWork_ok rt hdone
    obtain ⟨hrun, rfl, -⟩ := Gates.openResolveWork_packet rt hdone
    have hopen : LedgerStep rt s _ s' := .opened legal hopened
    exact h.opened hs hopen hrun (by rw [hopened.store_eq])
  · exact h.quiet hs hstep fun run id packet heq => hopen ⟨run, id, packet, heq⟩

end

theorem shows_invariant (rt : Runtime) : (legalLedger rt).Invariant Store.Shows := by
  refine System.Invariant.step (sound_invariant rt) ?_ ?_
  · rintro s rfl run id state p hstate
    rw [Store.nodeState_none_of_run rfl] at hstate
    cases hstate
  · rintro s op s' hs h ⟨legal, rfl⟩
    exact h.exec hs legal

/-- A decision moves a node exactly when it names the packet the operator is shown for it and the
node still waits. -/
theorem shown_packet_answered (rt : Runtime) {s : Store} (hs : (legalLedger rt).Reachable s)
    {run : RunId} {id : NodeId} {state : NodeState} (hstate : s.nodeState run id = some state)
    (packet : Ident) (decision : DecisionKind) :
    (∃ next, state.apply (.decisionAdmitted packet decision) = .ok next) ↔
      state.waitingOnGate.isSome ∧ ∃ shown, s.newestPacket run id.text = some shown ∧
        shown.id = packet := by
  constructor
  · rintro ⟨next, hnext⟩
    cases NodeState.apply_step hnext with
    | route _ _ hgated hw => exact ⟨by rw [hw]; rfl, shows_invariant rt s hs _ _ _ _ hstate hw⟩
  · rintro ⟨hwaits, shown, hshown, rfl⟩
    obtain ⟨p, hw⟩ := Option.isSome_iff_exists.mp hwaits
    obtain ⟨q, hq, rfl⟩ := shows_invariant rt s hs _ _ _ _ hstate hw
    cases hshown.symm.trans hq
    have hgated := (Store.nodeState_wf hstate).gateWaits (by rw [hw]; exact Option.some_ne_none _)
    exact ⟨_, NodeState.step_apply (.route _ _ hgated hw)⟩

open Pilot in
theorem shown_packet_answered_retry :
    ∃ state, packetOpen.nodeState runId patchId = some state ∧
      ((∃ next, state.apply (.decisionAdmitted retryPatch.gatePacketId .retry) = .ok next) ↔
        state.waitingOnGate.isSome ∧ ∃ shown, packetOpen.newestPacket runId patchId.text =
          some shown ∧ shown.id = retryPatch.gatePacketId) := by
  have hreach := play_reachable (fun _ _ legal => legal) [claimPatch, failPatch, openPatch]
    (by decide +kernel)
  have hstate : packetOpen.nodeState runId patchId = some (Option.get _ _) :=
    (Option.some_get (by decide +kernel)).symm
  exact ⟨_, hstate, shown_packet_answered runtime hreach hstate _ _⟩

end Checkspan
