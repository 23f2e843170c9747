import Checkspan.Nodes

/-!
# Claim ownership and fencing

The claim table, the attempt table and the replayed states move together: a claim
is active while its attempt executes, the numbers of a node's claims are the
attempts it started, and an attempt is sealed once, by the claim that is released
for it.
-/

namespace Checkspan

open Transition

/-! ### Attempts in execution -/

namespace NodeState

/-- Attempt `k` is running and its execution has not ended. -/
def Executing (s : NodeState) (k : AttemptNumber) : Prop :=
  s.status = .running ∧ s.checking = false ∧ s.currentAttempt = some k

/-- Only a dispatch starts an attempt. -/
theorem Step.started_eq {s s' : NodeState} {e : NodeEvent} (h : Step s e s')
    (he : ∀ k, e ≠ .dispatched k) : s'.attemptsStarted = s.attemptsStarted := by
  cases h with
  | dispatch k hs hk => exact absurd rfl (he k)
  | finish k o d hs hk hc => cases o <;> rfl
  | decide k r v hs hk hc => cases v <;> rfl
  | route p d hs hw => cases d <;> rfl
  | retry hs => rfl
  | gate p hs => rfl
  | packet p hs hw => rfl
  | cancelOpen hs => rfl
  | cancelRunning hs => rfl
  | cancelStopped hs => rfl

/-- Only a dispatch leaves an attempt in execution. -/
theorem Step.not_executing {s s' : NodeState} {e : NodeEvent} (h : Step s e s')
    (he : ∀ k, e ≠ .dispatched k) (k : AttemptNumber) : ¬ s'.Executing k := by
  rintro ⟨hrun, hcheck, -⟩
  cases h with
  | dispatch k hs hk => exact he k rfl
  | finish k o d hs hk hc => cases o <;> simp [NodeState.finish] at hrun hcheck
  | decide k r v hs hk hc => cases v <;> simp [NodeState.decide] at hrun
  | route p d hs hw => cases d <;> simp [NodeState.route] at hrun
  | retry hs => simp at hrun
  | gate p hs => simp at hrun
  | packet p hs hw => simp [hs] at hrun
  | cancelOpen hs => simp at hrun
  | cancelRunning hs => simp at hrun
  | cancelStopped hs => simp at hrun

/-- An attempt in execution only finishes or is cancelled. -/
theorem Step.of_executing {s s' : NodeState} {e : NodeEvent} (h : Step s e s') {k : AttemptNumber}
    (hk : s.Executing k) : (∃ o d, e = .executionFinished k o d) ∨ e = .cancelled := by
  obtain ⟨hrun, hcheck, hcur⟩ := hk
  cases h with
  | finish j o d hs hj hc =>
    rw [hcur] at hj
    cases hj
    exact Or.inl ⟨o, d, rfl⟩
  | cancelOpen hs => exact Or.inr rfl
  | cancelRunning hs => exact Or.inr rfl
  | cancelStopped hs => exact Or.inr rfl
  | dispatch j hs hj => simp [hrun] at hs
  | decide j r v hs hj hc => simp [hcheck] at hc
  | retry hs => simp [hrun] at hs
  | gate p hs => simp [hrun] at hs
  | packet p hs hw => simp [hrun] at hs
  | route p d hs hw => simp [hrun] at hs

end NodeState

/-! ### Keys -/

/-- The run, node and number of a claim: what its attempt is sealed under. -/
def ClaimRow.key (c : ClaimRow) : RunId × NodeId × AttemptNumber := (c.runId, c.nodeId, c.number)

def Attempt.key (a : Attempt) : RunId × NodeId × AttemptNumber := (a.runId, a.node.nodeId, a.number)

/-- Released because its attempt was sealed. -/
def ClaimRow.Sealed (c : ClaimRow) : Prop :=
  c.release = some "completed" ∨ c.release = some "reclaimed"

@[simp] theorem ClaimRow.releaseIf_key (p : ClaimRow → Bool) (release : String) (c : ClaimRow) :
    (ClaimRow.releaseIf p release c).key = c.key := by
  simp [ClaimRow.key]

namespace Store

/-- The claims on a node, in the order they were issued. -/
def claimsOf (s : Store) (run : RunId) (id : NodeId) : List ClaimRow :=
  s.claims.filter (fun c => c.runId = run ∧ c.nodeId = id)

/-- The attempts a node started. -/
def started (s : Store) (run : RunId) (id : NodeId) : Nat :=
  match s.nodeState run id with
  | some state => state.attemptsStarted
  | none => 0

theorem mem_claimsOf {s : Store} {run : RunId} {id : NodeId} {c : ClaimRow} :
    c ∈ s.claimsOf run id ↔ c ∈ s.claims ∧ c.runId = run ∧ c.nodeId = id := by
  simp [claimsOf]

theorem attemptKeyTaken_false {s : Store} {a : Attempt} (h : s.attemptKeyTaken a = false) :
    a.key ∉ s.attempts.map Attempt.key := by
  intro hmem
  obtain ⟨b, hb, hkey⟩ := List.mem_map.mp hmem
  simp only [attemptKeyTaken, List.any_eq_false, decide_eq_true_eq] at h
  simp only [Attempt.key, Prod.mk.injEq] at hkey
  exact h b hb hkey

theorem le_foldl_max (xs : List Nat) (a : Nat) :
    a ≤ xs.foldl max a ∧ ∀ x ∈ xs, x ≤ xs.foldl max a := by
  induction xs generalizing a with
  | nil => exact ⟨le_refl a, fun x hx => absurd hx List.not_mem_nil⟩
  | cons y ys ih =>
    obtain ⟨hstart, hrest⟩ := ih (max a y)
    rw [List.foldl_cons]
    refine ⟨by omega, ?_⟩
    intro x hx
    rcases List.mem_cons.mp hx with rfl | hx
    · omega
    · exact hrest x hx

/-- The next fence of a run is above every fence it issued. -/
theorem fence_lt_nextFence {s : Store} {c : ClaimRow} (hc : c ∈ s.claims) :
    c.fence < s.nextFence c.runId := by
  unfold nextFence
  have hmem : c.fence ∈ (s.claims.filter (fun d => d.runId = c.runId)).map (·.fence) := by
    refine List.mem_map.mpr ⟨c, ?_, rfl⟩
    simp [hc]
  have hle := (le_foldl_max _ 0).2 _ hmem
  omega

end Store

/-! ### What a step does to claims and attempts -/

/-- The effect of a recorded event on the claim and the attempt table. -/
inductive ClaimEffect (s s' : Store) (run : RunId) (id : NodeId) (old : NodeState) :
    NodeEvent → Prop
  | taken (row : ClaimRow) (hrun : row.runId = run) (hid : row.nodeId = id)
      (hfence : row.fence = s.nextFence run) (hactive : row.active = true)
      (hrelease : row.release = none) (claims : s'.claims = s.claims ++ [row])
      (attempts : s'.attempts = s.attempts) :
      ClaimEffect s s' run id old (.dispatched row.number)
  | finished (row : ClaimRow) (a : Attempt) (how : String) (o : ExecutionOutcome)
      (d : Option Digest) (hrow : row ∈ s.claims) (hrun : row.runId = run) (hid : row.nodeId = id)
      (hactive : row.active = true) (hhow : how = "completed" ∨ how = "reclaimed")
      (hkey : a.key = row.key) (hfresh : a.key ∉ s.attempts.map Attempt.key)
      (claims : s'.claims = s.claims.map
        (ClaimRow.releaseIf (ClaimRow.isHeldUnder run id row.number.get row.fence) how))
      (attempts : s'.attempts = s.attempts ++ [a]) :
      ClaimEffect s s' run id old (.executionFinished row.number o d)
  | cancelled (claims : s'.claims = s.claims.map
        (ClaimRow.releaseIf (Scheduler.holdsNode run id) "cancelled"))
      (attempts : s'.attempts = s.attempts) :
      ClaimEffect s s' run id old .cancelled
  | quiet (e : NodeEvent) (he : ∀ k, e ≠ .dispatched k) (hold : ∀ k, ¬ old.Executing k)
      (claims : s'.claims = s.claims) (attempts : s'.attempts = s.attempts) :
      ClaimEffect s s' run id old e

theorem Store.claim_some {s : Store} {run : RunId} {id : NodeId} {k : Nat} {row : ClaimRow}
    (h : s.claim run id k = some row) :
    row ∈ s.claims ∧ row.runId = run ∧ row.nodeId = id ∧ row.number.get = k := by
  have hp := List.find?_some h
  simp only [decide_eq_true_eq] at hp
  exact ⟨List.mem_of_find?_eq_some h, hp⟩

theorem LedgerStep.claimEffect {rt : Runtime} {s s' : Store} {run : RunId} {id : NodeId}
    {e : NodeEvent} {old new : NodeState} (h : LedgerStep rt s (some (run, id, e)) s')
    (hs : s.Sound) (hm : Moved s s' run id e old new) : ClaimEffect s s' run id old e := by
  have hquiet : (∀ k, e ≠ .dispatched k) → (∀ k o d, e ≠ .executionFinished k o d) →
      e ≠ .cancelled → ∀ k, ¬ old.Executing k := by
    intro _ hfin hcan k hk
    rcases hm.legal.of_executing hk with ⟨o, d, he⟩ | he
    · exact hfin k o d he
    · exact hcan he
  cases h with
  | @claim sched now claimedAt claim _ node st state next snapshot bound h =>
    exact ClaimEffect.taken (sched.newRow node claim.number (s.nextFence sched.run.runId)
      snapshot.receiptRefs claimedAt) rfl rfl rfl rfl rfl (by rw [h.store_eq]) (by rw [h.store_eq])
  | @complete sched claim attempt _ row execution st state next record hrun bound h =>
    obtain ⟨hmem, hr, hid, hk⟩ := Store.claim_some h.row_eq
    obtain hnumber : row.number = claim.number := PositiveU32.ext_get hk
    have hnode := GraphSpec.nodeRef_nodeId h.nodeRef_eq
    rw [← hnumber]
    refine ClaimEffect.finished row attempt "completed" _ _ hmem hr hid h.active (Or.inl rfl) ?_
      (Store.attemptKeyTaken_false h.unsealed) ?_ ?_
    · simp only [Attempt.key, ClaimRow.key, h.runId_eq, hnode, h.number_eq, hr, hid, hnumber]
    · rw [h.store_eq, h.fence_eq, hnumber]
      rfl
    · rw [h.store_eq]
      rfl
  | @cancel sched _ _ st state next bound h =>
    exact ClaimEffect.cancelled (by rw [h.store_eq]) (by rw [h.store_eq])
  | @reclaim sched _ now number _ node row startedAt st state next bound h =>
    obtain rfl := h.number_eq
    have hnode := GraphSpec.nodeRef_nodeId h.nodeRef_eq
    refine ClaimEffect.finished row (sched.reclaimedAttempt node row startedAt now) "reclaimed" _ _
      h.row_mem h.row_run h.row_node h.active (Or.inr rfl) ?_
      (Store.attemptKeyTaken_false h.unsealed) ?_ ?_
    · simp only [Attempt.key, ClaimRow.key, Scheduler.reclaimedAttempt, hnode, h.row_run,
        h.row_node]
    · rw [h.store_eq]
      rfl
    · rw [h.store_eq]
      rfl
  | exhausted payload bound replayed state_eq stopped legal =>
    refine ClaimEffect.quiet _ (by simp) ?_ rfl rfl
    rintro k ⟨hrun, -, -⟩
    have hstate := (hs.nodeState_of_replay bound.1 replayed id).trans state_eq
    rw [hm.before] at hstate
    cases hstate
    rcases stopped with hst | hst <;> simp [hst] at hrun
  | admitted bound h =>
    exact ClaimEffect.quiet _ (by simp) (hquiet (by simp) (by simp) (by simp))
      (by rw [h.store_eq]) (by rw [h.store_eq])
  | retry payload bound replayed state_eq legal =>
    exact ClaimEffect.quiet _ (by simp) (hquiet (by simp) (by simp) (by simp)) rfl rfl
  | opened bound h =>
    exact ClaimEffect.quiet _ (by simp) (hquiet (by simp) (by simp) (by simp))
      (by rw [h.store_eq]) (by rw [h.store_eq])
  | decided payload decisions waits carried =>
    exact ClaimEffect.quiet _ (by simp) (hquiet (by simp) (by simp) (by simp)) rfl rfl

/-! ### The invariant -/

/-- Claims, attempts and replayed states agree. -/
structure Store.ClaimsOk (s : Store) : Prop where
  numbered : ∀ run id, (s.claimsOf run id).map (·.number.get) =
    (List.range (s.started run id)).map (· + 1)
  held : ∀ row ∈ s.claims, row.active = true ↔
    ∃ state, s.nodeState row.runId row.nodeId = some state ∧ state.Executing row.number
  fenced : ∀ run, ((s.claims.filter (fun c => c.runId = run)).map (·.fence)).Pairwise (· < ·)
  unreleased : ∀ row ∈ s.claims, row.active = true → row.release = none
  sealedOnce : (s.attempts.map Attempt.key).Nodup
  sealedBy : ∀ row ∈ s.claims, row.Sealed ↔ row.key ∈ s.attempts.map Attempt.key
  claimed : ∀ a ∈ s.attempts, a.key ∈ s.claims.map ClaimRow.key

namespace Store.ClaimsOk

variable {s s' : Store}

theorem empty : Store.ClaimsOk Store.empty :=
  { numbered := fun _ _ => rfl
    held := fun _ h => absurd h List.not_mem_nil
    fenced := fun _ => List.Pairwise.nil
    unreleased := fun _ h => absurd h List.not_mem_nil
    sealedOnce := List.nodup_nil
    sealedBy := fun _ h => absurd h List.not_mem_nil
    claimed := fun _ h => absurd h List.not_mem_nil }

/-- A claim's number is one its node has started. -/
theorem number_le (h : s.ClaimsOk) {c : ClaimRow} (hc : c ∈ s.claims) :
    c.number.get ≤ s.started c.runId c.nodeId := by
  have hmem : c.number.get ∈ (s.claimsOf c.runId c.nodeId).map (·.number.get) :=
    List.mem_map.mpr ⟨c, mem_claimsOf.mpr ⟨hc, rfl, rfl⟩, rfl⟩
  rw [h.numbered, List.mem_map] at hmem
  obtain ⟨n, hn, heq⟩ := hmem
  rw [List.mem_range] at hn
  omega

/-- A key names one claim. -/
theorem key_unique (h : s.ClaimsOk) {a b : ClaimRow} (ha : a ∈ s.claims) (hb : b ∈ s.claims)
    (hkey : a.key = b.key) : a = b := by
  simp only [ClaimRow.key, Prod.mk.injEq] at hkey
  obtain ⟨hrun, hid, hnumber⟩ := hkey
  have hnodup : ((s.claimsOf a.runId a.nodeId).map (·.number.get)).Nodup := by
    rw [h.numbered]
    exact List.Nodup.map (fun x y hxy => by simpa using hxy) List.nodup_range
  refine List.inj_on_of_nodup_map hnodup (mem_claimsOf.mpr ⟨ha, rfl, rfl⟩)
    (mem_claimsOf.mpr ⟨hb, hrun.symm, hid.symm⟩) ?_
  rw [hnumber]

/-- The steps that leave both tables and every node's progress as they are. -/
theorem congr (h : s.ClaimsOk) (claims : s'.claims = s.claims) (attempts : s'.attempts = s.attempts)
    (started : ∀ run id, s'.started run id = s.started run id)
    (executing : ∀ run id k, (∃ state, s'.nodeState run id = some state ∧ state.Executing k) ↔
      ∃ state, s.nodeState run id = some state ∧ state.Executing k) : s'.ClaimsOk := by
  refine { numbered := ?_, held := ?_, fenced := ?_, unreleased := ?_, sealedOnce := ?_
           sealedBy := ?_, claimed := ?_ }
  · intro run id
    rw [started, ← h.numbered, claimsOf, claimsOf, claims]
  · intro row hrow
    rw [claims] at hrow
    rw [h.held row hrow, executing]
  · rw [claims]
    exact h.fenced
  · rw [claims]
    exact h.unreleased
  · rw [attempts]
    exact h.sealedOnce
  · rw [claims, attempts]
    exact h.sealedBy
  · rw [claims, attempts]
    exact h.claimed

end Store.ClaimsOk

section

variable {rt : Runtime} {s s' : Store} {run : RunId} {id : NodeId} {e : NodeEvent}
  {old new : NodeState}

namespace Moved

theorem started_self (h : Moved s s' run id e old new) :
    s.started run id = old.attemptsStarted ∧ s'.started run id = new.attemptsStarted := by
  simp only [Store.started, h.before, h.after, and_self]

theorem started_other (h : Moved s s' run id e old new) {r : RunId} {i : NodeId}
    (hne : ¬ (r = run ∧ i = id)) : s'.started r i = s.started r i := by
  simp only [Store.started, h.others r i hne]

/-- Without a dispatch no node starts an attempt. -/
theorem started_eq (h : Moved s s' run id e old new) (he : ∀ k, e ≠ .dispatched k) (r : RunId)
    (i : NodeId) : s'.started r i = s.started r i := by
  by_cases hne : r = run ∧ i = id
  · obtain ⟨rfl, rfl⟩ := hne
    rw [h.started_self.1, h.started_self.2, h.legal.started_eq he]
  · exact h.started_other hne

/-- Without a dispatch the moved node executes no attempt afterwards. -/
theorem not_executing (h : Moved s s' run id e old new) (he : ∀ k, e ≠ .dispatched k)
    (k : AttemptNumber) : ¬ ∃ state, s'.nodeState run id = some state ∧ state.Executing k := by
  rintro ⟨state, hstate, hk⟩
  rw [h.after] at hstate
  cases hstate
  exact h.legal.not_executing he k hk

end Moved

theorem Store.ClaimsOk.quiet (h : s.ClaimsOk) (hm : Moved s s' run id e old new)
    (he : ∀ k, e ≠ .dispatched k) (hold : ∀ k, ¬ old.Executing k)
    (claims : s'.claims = s.claims) (attempts : s'.attempts = s.attempts) : s'.ClaimsOk := by
  refine h.congr claims attempts (hm.started_eq he) ?_
  intro r i k
  by_cases hne : r = run ∧ i = id
  · obtain ⟨rfl, rfl⟩ := hne
    have hbefore : ¬ ∃ state, s.nodeState r i = some state ∧ state.Executing k := by
      rintro ⟨state, hstate, hk⟩
      rw [hm.before] at hstate
      cases hstate
      exact hold k hk
    exact iff_of_false (hm.not_executing he k) hbefore
  · rw [hm.others r i hne]

theorem claimsOf_map {claims : List ClaimRow} {p : ClaimRow → Bool} {release : String}
    (h : s'.claims = claims.map (ClaimRow.releaseIf p release)) (r : RunId) (i : NodeId) :
    (s'.claimsOf r i).map (·.number.get) =
      (claims.filter (fun c => c.runId = r ∧ c.nodeId = i)).map (·.number.get) := by
  rw [Store.claimsOf, h, List.filter_map, List.map_map]
  simp [Function.comp_def]

theorem fences_map {claims : List ClaimRow} {p : ClaimRow → Bool} {release : String}
    (h : s'.claims = claims.map (ClaimRow.releaseIf p release)) (r : RunId) :
    ((s'.claims.filter (fun c => c.runId = r)).map (·.fence)) =
      ((claims.filter (fun c => c.runId = r)).map (·.fence)) := by
  rw [h, List.filter_map, List.map_map]
  simp [Function.comp_def]

/-- A release of the node's claim in execution, whichever operation makes it. -/
theorem Store.ClaimsOk.released (h : s.ClaimsOk) (hm : Moved s s' run id e old new)
    (he : ∀ k, e ≠ .dispatched k) {p : ClaimRow → Bool} {how : String} {sealedNow : List Attempt}
    (claims : s'.claims = s.claims.map (ClaimRow.releaseIf p how))
    (attempts : s'.attempts = s.attempts ++ sealedNow)
    (hp : ∀ c ∈ s.claims, p c = true ↔ c.runId = run ∧ c.nodeId = id ∧ c.active = true)
    (hsealed : ∀ c ∈ s.claims, p c = true →
      ((how = "completed" ∨ how = "reclaimed") ↔ c.key ∈ sealedNow.map Attempt.key))
    (hown : ∀ a ∈ sealedNow, ∃ c ∈ s.claims, p c = true ∧ a.key = c.key)
    (hnodup : (s'.attempts.map Attempt.key).Nodup) : s'.ClaimsOk := by
  refine { numbered := ?_, held := ?_, fenced := ?_, unreleased := ?_, sealedOnce := hnodup
           sealedBy := ?_, claimed := ?_ }
  · intro r i
    rw [hm.started_eq he, ← h.numbered, claimsOf_map claims]
    rfl
  · intro row' hrow'
    rw [claims] at hrow'
    obtain ⟨row, hrow, rfl⟩ := List.mem_map.mp hrow'
    simp only [ClaimRow.releaseIf_active, ClaimRow.releaseIf_runId, ClaimRow.releaseIf_nodeId,
      ClaimRow.releaseIf_number, Bool.and_eq_true, Bool.not_eq_true']
    by_cases hne : row.runId = run ∧ row.nodeId = id
    · obtain ⟨hr, hi⟩ := hne
      rw [hr, hi]
      refine iff_of_false ?_ (hm.not_executing he row.number)
      rintro ⟨hactive, hoff⟩
      rw [(hp row hrow).mpr ⟨hr, hi, hactive⟩] at hoff
      cases hoff
    · have hoff : p row = false := by
        rw [Bool.eq_false_iff]
        intro hpos
        have hnode := (hp row hrow).mp hpos
        exact hne ⟨hnode.1, hnode.2.1⟩
      rw [hm.others _ _ hne, ← h.held row hrow]
      simp [hoff]
  · intro r
    rw [fences_map claims]
    exact h.fenced r
  · intro row' hrow' hactive
    rw [claims] at hrow'
    obtain ⟨row, hrow, rfl⟩ := List.mem_map.mp hrow'
    rw [ClaimRow.releaseIf_active, Bool.and_eq_true, Bool.not_eq_true'] at hactive
    rw [ClaimRow.releaseIf_neg p how row hactive.2]
    exact h.unreleased row hrow hactive.1
  · intro row' hrow'
    rw [claims] at hrow'
    obtain ⟨row, hrow, rfl⟩ := List.mem_map.mp hrow'
    rw [ClaimRow.releaseIf_key, attempts, List.map_append, List.mem_append]
    cases hpos : p row with
    | true =>
      have hactive := ((hp row hrow).mp hpos).2.2
      have hbefore : row.key ∉ s.attempts.map Attempt.key := by
        rw [← h.sealedBy row hrow, ClaimRow.Sealed, h.unreleased row hrow hactive]
        simp
      have hnow := hsealed row hrow hpos
      rw [ClaimRow.releaseIf_pos p how row hpos]
      simp only [ClaimRow.Sealed, Option.some.injEq]
      rw [hnow]
      exact (or_iff_right hbefore).symm
    | false =>
      rw [ClaimRow.releaseIf_neg p how row hpos, h.sealedBy row hrow]
      refine (or_iff_left ?_).symm
      intro hmem
      obtain ⟨a, ha, hakey⟩ := List.mem_map.mp hmem
      obtain ⟨c, hc, hpc, hckey⟩ := hown a ha
      obtain rfl := h.key_unique hc hrow (hckey.symm.trans hakey)
      rw [hpos] at hpc
      cases hpc
  · intro a ha
    have hkeys : s'.claims.map ClaimRow.key = s.claims.map ClaimRow.key := by
      rw [claims, List.map_map]
      simp [Function.comp_def]
    rw [hkeys]
    rw [attempts, List.mem_append] at ha
    rcases ha with ha | ha
    · exact h.claimed a ha
    · obtain ⟨c, hc, -, hkey⟩ := hown a ha
      exact List.mem_map.mpr ⟨c, hc, hkey.symm⟩

/-- The active rows of a node are the claim on the attempt in execution. -/
theorem Store.ClaimsOk.active_number (h : s.ClaimsOk) {c d : ClaimRow} (hc : c ∈ s.claims)
    (hd : d ∈ s.claims) (hrun : c.runId = d.runId) (hid : c.nodeId = d.nodeId)
    (hac : c.active = true) (had : d.active = true) : c = d := by
  obtain ⟨x, hx, -, -, hkx⟩ := (h.held c hc).mp hac
  obtain ⟨y, hy, -, -, hky⟩ := (h.held d hd).mp had
  rw [hrun, hid, hy] at hx
  cases hx
  have hnumber : c.number = d.number := Option.some.inj (hkx.symm.trans hky)
  exact h.key_unique hc hd (by simp only [ClaimRow.key, hrun, hid, hnumber])

theorem Store.ClaimsOk.taken (h : s.ClaimsOk) {row : ClaimRow}
    (hm : Moved s s' run id (.dispatched row.number) old new) (hrun : row.runId = run)
    (hid : row.nodeId = id) (hfence : row.fence = s.nextFence run) (hactive : row.active = true)
    (hrelease : row.release = none) (claims : s'.claims = s.claims ++ [row])
    (attempts : s'.attempts = s.attempts) : s'.ClaimsOk := by
  subst hrun hid
  have hdispatch : old.status = .open ∧ row.number.get = old.attemptsStarted + 1 ∧
      new.attemptsStarted = old.attemptsStarted + 1 ∧ new.Executing row.number := by
    cases hm.legal with
    | dispatch k hs hk => exact ⟨hs, hk, rfl, rfl, rfl, rfl⟩
  obtain ⟨hopen, hnumber, hstarted, hexec⟩ := hdispatch
  have hbound : ∀ c ∈ s.claims, c.runId = row.runId → c.nodeId = row.nodeId →
      c.number.get ≤ old.attemptsStarted := by
    intro c hc hr hi
    have hle := h.number_le hc
    rw [hr, hi, hm.started_self.1] at hle
    exact hle
  refine { numbered := ?_, held := ?_, fenced := ?_, unreleased := ?_, sealedOnce := ?_
           sealedBy := ?_, claimed := ?_ }
  · intro r i
    have hsplit : s'.claimsOf r i = s.claimsOf r i ++
        [row].filter (fun c => c.runId = r ∧ c.nodeId = i) := by
      rw [Store.claimsOf, claims, List.filter_append]
      rfl
    rw [hsplit, List.map_append, h.numbered]
    by_cases hne : r = row.runId ∧ i = row.nodeId
    · obtain ⟨rfl, rfl⟩ := hne
      rw [hm.started_self.1, hm.started_self.2, hstarted, List.range_succ, List.map_append]
      simp [hnumber]
    · have hoff : ¬ (row.runId = r ∧ row.nodeId = i) := fun hx => hne ⟨hx.1.symm, hx.2.symm⟩
      rw [hm.started_other hne]
      simp [hoff]
  · intro c hc
    rw [claims, List.mem_append, List.mem_singleton] at hc
    rcases hc with hc | rfl
    · by_cases hne : c.runId = row.runId ∧ c.nodeId = row.nodeId
      · rw [hne.1, hne.2]
        have hinactive : ¬ c.active = true := by
          rw [h.held c hc, hne.1, hne.2]
          rintro ⟨state, hstate, hst, -, -⟩
          rw [hm.before] at hstate
          cases hstate
          rw [hopen] at hst
          cases hst
        refine iff_of_false hinactive ?_
        rintro ⟨state, hstate, -, -, hcur⟩
        rw [hm.after] at hstate
        cases hstate
        have hsame : c.number = row.number := Option.some.inj (hcur.symm.trans hexec.2.2)
        have hle := hbound c hc hne.1 hne.2
        rw [hsame] at hle
        omega
      · rw [hm.others _ _ hne]
        exact h.held c hc
    · exact iff_of_true hactive ⟨new, hm.after, hexec⟩
  · intro r
    rw [claims, List.filter_append, List.map_append, List.pairwise_append]
    refine ⟨h.fenced r, ?_, ?_⟩
    · by_cases hr : row.runId = r <;> simp [hr]
    · intro x hx y hy
      obtain ⟨c, hc, rfl⟩ := List.mem_map.mp hx
      obtain ⟨d, hd, rfl⟩ := List.mem_map.mp hy
      simp only [List.mem_filter, List.mem_singleton, decide_eq_true_eq] at hc hd
      obtain ⟨rfl, hdr⟩ := hd
      rw [hfence, hdr, ← hc.2]
      exact Store.fence_lt_nextFence hc.1
  · intro c hc hact
    rw [claims, List.mem_append, List.mem_singleton] at hc
    rcases hc with hc | rfl
    · exact h.unreleased c hc hact
    · exact hrelease
  · rw [attempts]
    exact h.sealedOnce
  · intro c hc
    rw [attempts]
    rw [claims, List.mem_append, List.mem_singleton] at hc
    rcases hc with hc | rfl
    · exact h.sealedBy c hc
    · refine iff_of_false (by simp [ClaimRow.Sealed, hrelease]) ?_
      intro hmem
      obtain ⟨a, ha, hkey⟩ := List.mem_map.mp hmem
      obtain ⟨d, hd, hdkey⟩ := List.mem_map.mp (h.claimed a ha)
      rw [hkey] at hdkey
      simp only [ClaimRow.key, Prod.mk.injEq] at hdkey
      have hle := hbound d hd hdkey.1 hdkey.2.1
      rw [hdkey.2.2] at hle
      omega
  · intro a ha
    rw [attempts] at ha
    rw [claims, List.map_append, List.mem_append]
    exact Or.inl (h.claimed a ha)

theorem Scheduler.holdsNode_iff {c : ClaimRow} : Scheduler.holdsNode run id c = true ↔
    c.runId = run ∧ c.nodeId = id ∧ c.active = true := by
  simp [Scheduler.holdsNode, and_assoc]

/-- The release clause of a held claim selects the active rows of its node. -/
theorem Store.ClaimsOk.isHeldUnder_iff (h : s.ClaimsOk) {row : ClaimRow} (hrow : row ∈ s.claims)
    (hrun : row.runId = run) (hid : row.nodeId = id) (hactive : row.active = true) {c : ClaimRow}
    (hc : c ∈ s.claims) : ClaimRow.isHeldUnder run id row.number.get row.fence c = true ↔
      c.runId = run ∧ c.nodeId = id ∧ c.active = true := by
  simp only [ClaimRow.isHeldUnder, Bool.and_eq_true, decide_eq_true_eq]
  constructor
  · rintro ⟨⟨⟨⟨hr, hi⟩, -⟩, -⟩, hact⟩
    exact ⟨hr, hi, hact⟩
  · rintro ⟨hr, hi, hact⟩
    obtain rfl := h.active_number hc hrow (hr.trans hrun.symm) (hi.trans hid.symm) hact hactive
    exact ⟨⟨⟨⟨hr, hi⟩, rfl⟩, rfl⟩, hact⟩

theorem Store.ClaimsOk.unmoved (h : s.ClaimsOk)
    (hstay : ∀ r i, s'.nodeState r i = s.nodeState r i ∨
      (s.nodeState r i = none ∧ s'.nodeState r i = some NodeState.initial))
    (claims : s'.claims = s.claims) (attempts : s'.attempts = s.attempts) : s'.ClaimsOk := by
  refine h.congr claims attempts ?_ ?_
  · intro r i
    rcases hstay r i with heq | ⟨hnone, hinitial⟩
    · simp only [Store.started, heq]
    · simp only [Store.started, hnone, hinitial, NodeState.initial]
  · intro r i k
    rcases hstay r i with heq | ⟨hnone, hinitial⟩
    · rw [heq]
    · rw [hnone, hinitial]
      refine iff_of_false ?_ (by simp)
      rintro ⟨state, hstate, hrunning, -, -⟩
      cases hstate
      cases hrunning

/-- One step keeps claims, attempts and replayed states in agreement. -/
theorem Store.ClaimsOk.step (h : s.ClaimsOk) {label : Option (RunId × NodeId × NodeEvent)}
    (hstep : LedgerStep rt s label s') (hs : s.Sound) : s'.ClaimsOk := by
  cases label with
  | none =>
    have hstay := hstep.unmoved hs
    cases hstep with
    | same => exact h
    | graph row fresh => exact h.unmoved hstay rfl rfl
    | run r fresh known => exact h.unmoved hstay rfl rfl
    | revoke r payload known => exact h.unmoved hstay rfl rfl
  | some l =>
    obtain ⟨run, id, e⟩ := l
    obtain ⟨old, new, hm⟩ := hstep.moved hs
    cases hstep.claimEffect hs hm with
    | taken row hrun hid hfence hactive hrelease claims attempts =>
      exact h.taken hm hrun hid hfence hactive hrelease claims attempts
    | finished row a how o d hrow hrun hid hactive hhow hkey hfresh claims attempts =>
      have hheld := fun c hc => h.isHeldUnder_iff hrow hrun hid hactive (c := c) hc
      have honly : ∀ c ∈ s.claims,
          ClaimRow.isHeldUnder run id row.number.get row.fence c = true → c = row := by
        intro c hc hpos
        obtain ⟨hr, hi, hact⟩ := (hheld c hc).mp hpos
        exact h.active_number hc hrow (hr.trans hrun.symm) (hi.trans hid.symm) hact hactive
      refine h.released hm (by simp) claims attempts hheld ?_ ?_ ?_
      · intro c hc hpos
        refine iff_of_true hhow ?_
        rw [honly c hc hpos, ← hkey]
        exact List.mem_singleton_self _
      · intro b hb
        rw [List.mem_singleton.mp hb]
        exact ⟨row, hrow, (hheld row hrow).mpr ⟨hrun, hid, hactive⟩, hkey⟩
      · rw [attempts, List.map_append, List.map_singleton, ← List.concat_eq_append]
        exact h.sealedOnce.concat hfresh
    | cancelled claims attempts =>
      have hempty : s'.attempts = s.attempts ++ [] := by rw [attempts, List.append_nil]
      refine h.released hm (by simp) claims hempty (fun c _ => Scheduler.holdsNode_iff) ?_ ?_ ?_
      · intro c _ _
        simp
      · intro b hb
        exact absurd hb List.not_mem_nil
      · rw [attempts]
        exact h.sealedOnce
    | quiet e he hold claims attempts => exact h.quiet hm he hold claims attempts

end

theorem claimsOk_invariant (rt : Runtime) : (legalLedger rt).Invariant Store.ClaimsOk := by
  refine System.Invariant.step (sound_invariant rt) ?_ ?_
  · rintro s rfl
    exact Store.ClaimsOk.empty
  · rintro s op s' hs h ⟨legal, rfl⟩
    exact h.step (exec_step rt s legal) hs

/-! ### Ownership and fencing -/

/-- A claim that is no longer the active row it was issued as: released under any
name, or held under another token or by another owner. -/
def Store.Lost (s : Store) (claim : Claim) : Prop :=
  ∀ row, s.claim claim.runId claim.nodeId claim.number.get = some row →
    row.active = false ∨ row.fence ≠ claim.fence ∨ row.owner ≠ claim.owner.text

/-- In every store that legal use reaches, for every run with its graph and its
replayed state: a claim is active exactly while its attempt runs unchecked, the
claim numbers of a node are the attempts it started and the fences of the run
increase in the order issued, an attempt row exists exactly for the claims
released as completed or reclaimed, once each, and completing a lost claim fails
and writes nothing. -/
theorem claims_own_attempts (rt : Runtime) {s : Store} (hs : (legalLedger rt).Reachable s) :
    (∀ run spec st, s.Stored run spec → s.replay run.runId spec = .ok st → ∀ id,
      (∀ k, (∃ row ∈ s.claims, row.key = (run.runId, id, k) ∧ row.active = true) ↔
        ∃ state, st.node id = some state ∧ state.status = .running ∧ state.checking = false ∧
          state.currentAttempt = some k) ∧
      (∀ state, st.node id = some state → (s.claimsOf run.runId id).map (·.number.get) =
        (List.range state.attemptsStarted).map (· + 1))) ∧
    (∀ run, ((s.claims.filter (fun c => c.runId = run)).map (·.fence)).Pairwise (· < ·)) ∧
    (∀ run id k, (∃ a ∈ s.attempts, a.key = (run, id, k)) ↔
      ∃ row ∈ s.claims, row.key = (run, id, k) ∧
        (row.release = some "completed" ∨ row.release = some "reclaimed")) ∧
    (s.attempts.map Attempt.key).Nodup ∧
    (∀ sched claim attempt, s.Lost claim → ∃ e,
      (LedgerOp.complete sched claim attempt).exec rt s = (.error e, s)) := by
  have hsound := sound_invariant rt s hs
  have hok := claimsOk_invariant rt s hs
  refine ⟨?_, hok.fenced, ?_, hok.sealedOnce, ?_⟩
  · intro run spec st hstored hst id
    have hnode := hsound.nodeState_of_replay hstored hst id
    refine ⟨?_, ?_⟩
    · intro k
      constructor
      · rintro ⟨row, hrow, hkey, hactive⟩
        simp only [ClaimRow.key, Prod.mk.injEq] at hkey
        obtain ⟨hr, hi, hk⟩ := hkey
        obtain ⟨state, hstate, hexec⟩ := (hok.held row hrow).mp hactive
        rw [hr, hi, hnode] at hstate
        rw [hk] at hexec
        exact ⟨state, hstate, hexec⟩
      · rintro ⟨state, hstate, hexec⟩
        rw [← hnode] at hstate
        -- The attempt in execution is the last one started, so a claim has its number.
        have hlast := (Store.nodeState_wf hstate).currentIsLast k hexec.2.2
        have hstarted : s.started run.runId id = k.get := by
          simp only [Store.started, hstate, hlast]
        have hmem : k.get ∈ (s.claimsOf run.runId id).map (·.number.get) := by
          rw [hok.numbered, hstarted, List.mem_map]
          have hpos := k.pos
          exact ⟨k.get - 1, List.mem_range.mpr (by omega), by omega⟩
        obtain ⟨row, hrow, hk⟩ := List.mem_map.mp hmem
        obtain ⟨hrow, hr, hi⟩ := Store.mem_claimsOf.mp hrow
        obtain hnumber : row.number = k := PositiveU32.ext_get hk
        refine ⟨row, hrow, by simp only [ClaimRow.key, hr, hi, hnumber], ?_⟩
        rw [hok.held row hrow, hr, hi, hnumber]
        exact ⟨state, hstate, hexec⟩
    · intro state hstate
      rw [← hnode] at hstate
      rw [hok.numbered]
      simp only [Store.started, hstate]
  · intro run id k
    constructor
    · rintro ⟨a, ha, hkey⟩
      obtain ⟨row, hrow, hrowkey⟩ := List.mem_map.mp (hok.claimed a ha)
      refine ⟨row, hrow, hrowkey.trans hkey, ?_⟩
      rw [show (row.release = some "completed" ∨ row.release = some "reclaimed") = row.Sealed from
        rfl, hok.sealedBy row hrow, hrowkey]
      exact List.mem_map.mpr ⟨a, ha, rfl⟩
    · rintro ⟨row, hrow, hkey, hsealed⟩
      obtain ⟨a, ha, hakey⟩ := List.mem_map.mp ((hok.sealedBy row hrow).mp hsealed)
      exact ⟨a, ha, hakey.trans hkey⟩
  · intro sched claim attempt hlost
    have hstale : ∃ e, sched.complete rt s claim attempt = .error e :=
      Scheduler.complete_stale rt hlost
    obtain ⟨e, he⟩ := hstale
    refine ⟨e, ?_⟩
    change s.transaction (sched.complete rt s claim attempt) = (.error e, s)
    rw [he]
    rfl

theorem claims_own_attempts_claimed :
    (Pilot.claimed.attempts.map Attempt.key).Nodup ∧
    (∀ sched claim attempt, Pilot.claimed.Lost claim → ∃ e,
      (LedgerOp.complete sched claim attempt).exec Pilot.runtime Pilot.claimed =
        (.error e, Pilot.claimed)) :=
  (claims_own_attempts Pilot.runtime Pilot.claimed_reachable).2.2.2

end Checkspan
