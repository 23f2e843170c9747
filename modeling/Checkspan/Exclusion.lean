import Checkspan.Refinement

/-!
# Resource exclusion and the claim cap

Only `claim_next` takes a claim, under its cap and with no conflicting claim
active; everything else releases claims or leaves them. So the cap and the
exclusion hold across the whole store, for claims of any runs, whatever else the
operations are used on.
-/

namespace Checkspan

open Transition

/-! ### What an operation does to the claim table -/

/-- The effect of any operation on the claim table, whatever it is used on: a claim
taken while there was room and no conflict, or rows released. -/
inductive ClaimTable (s : Store) (cap : Nat) : List ClaimRow → Prop
  | same : ClaimTable s cap s.claims
  | taken (node : NodeSpec) (row : ClaimRow) (hresources : row.resources = node.resourceScope)
      (hroom : s.activeClaims.length < cap) (hfree : conflict node s.activeClaims = none) :
      ClaimTable s cap (s.claims ++ [row])
  | released (p : ClaimRow → Bool) (release : String) :
      ClaimTable s cap (s.claims.map (ClaimRow.releaseIf p release))

/-- An operation of a scheduler whose cap is at most `cap`, or of another module. -/
def LedgerOp.Capped (cap : Nat) : LedgerOp → Prop
  | .claimNext sched _ _ => sched.maxActive ≤ cap
  | _ => True

section

variable (rt : Runtime) {s s' : Store} {cap : Nat}

theorem ClaimTable.of_eq (h : s'.claims = s.claims) : ClaimTable s cap s'.claims := by
  rw [h]
  exact ClaimTable.same

theorem appendEvent_claims {x : Store} {run : RunId} {id : Option NodeId} {kind : String}
    {payload : Json} (h : x.appendEvent rt run id kind payload = .ok s') :
    s'.claims = x.claims := by
  obtain ⟨-, rfl⟩ := Store.appendEvent_ok rt h
  rfl

/-- Only a claim adds a row to the claim table, and only releases change one. -/
theorem exec_claimTable {op : LedgerOp} (h : op.Capped cap) :
    ClaimTable s cap (op.exec rt s).2.claims := by
  cases op with
  | claimNext sched now claimedAt =>
    refine Store.transaction_property (P := fun x => ClaimTable s cap x.claims) .same ?_
    intro out s' hok
    rcases Scheduler.claimNext_ok rt hok with ⟨-, rfl⟩ |
      ⟨claim, node, st, state, next, snapshot, -, hclaim⟩
    · exact ClaimTable.same
    · rw [hclaim.store_eq]
      exact ClaimTable.taken node _ rfl (Nat.lt_of_lt_of_le hclaim.room h) hclaim.free
  | complete sched claim attempt =>
    refine Store.transaction_property (P := fun x => ClaimTable s cap x.claims) .same ?_
    intro out s' hok
    obtain ⟨row, execution, st, state, next, hdone⟩ := Scheduler.complete_ok rt hok
    rw [hdone.store_eq]
    exact ClaimTable.released _ _
  | cancel sched id =>
    refine Store.transaction_property (P := fun x => ClaimTable s cap x.claims) .same ?_
    intro out s' hok
    obtain ⟨st, state, next, hdone⟩ := Scheduler.cancel_ok rt hok
    rw [hdone.store_eq]
    exact ClaimTable.released _ _
  | reclaim sched id now =>
    refine Store.transaction_property (P := fun x => ClaimTable s cap x.claims) .same ?_
    intro out s' hok
    obtain ⟨node, row, startedAt, st, state, next, hdone⟩ := Scheduler.reclaim_ok rt hok
    rw [hdone.store_eq]
    exact ClaimTable.released _ _
  | storeGraph spec =>
    refine Store.transaction_property (P := fun x => ClaimTable s cap x.claims) .same ?_
    intro out s' hok
    unfold Store.storeGraph at hok
    obtain ⟨digest, -, hok⟩ := bind_ok hok
    obtain ⟨_, -, hok⟩ := bind_ok hok
    split at hok
    · split at hok
      · cases hok
        exact ClaimTable.same
      · cases hok
    · cases hok
      exact ClaimTable.same
  | createRun run =>
    refine Store.transaction_property (P := fun x => ClaimTable s cap x.claims) .same ?_
    intro out s' hok
    unfold Store.createRun at hok
    obtain ⟨_, -, hok⟩ := bind_ok hok
    obtain ⟨_, -, hok⟩ := bind_ok hok
    obtain ⟨_, -, hok⟩ := bind_ok hok
    obtain ⟨s₁, hs₁, hok⟩ := bind_ok hok
    cases hok
    have hsame := appendEvent_claims rt hs₁
    exact ClaimTable.of_eq hsame
  | admitReceipt spec run receipt now =>
    refine Store.transaction_property (P := fun x => ClaimTable s cap x.claims) .same ?_
    intro out s' hok
    obtain ⟨node, attempt, result, st, state, hdone⟩ := Receipts.admitReceipt_ok rt hok
    exact ClaimTable.of_eq (by rw [hdone.store_eq])
  | applyRetryPolicy spec run id narrowing now =>
    refine Store.transaction_property (P := fun x => ClaimTable s cap x.claims) .same ?_
    intro out s' hok
    obtain ⟨node, st, state, -, -, -, -, happlied⟩ := Budget.applyRetryPolicy_ok rt hok
    cases happlied <;> exact ClaimTable.same
  | openResolveWork spec run id now expiresAt =>
    refine Store.transaction_property (P := fun x => ClaimTable s cap x.claims) .same ?_
    intro out s' hok
    obtain ⟨st, state, next, hdone⟩ := Gates.openResolveWork_ok rt hok
    exact ClaimTable.of_eq (by rw [hdone.store_eq])
  | revokeReceipt run receiptId reason =>
    refine Store.transaction_property (P := fun x => ClaimTable s cap x.claims) .same ?_
    intro out s' hok
    unfold Store.revokeReceipt at hok
    obtain ⟨_, -, hok⟩ := bind_ok hok
    obtain ⟨s₁, hs₁, hok⟩ := bind_ok hok
    cases hok
    have hsame := appendEvent_claims rt hs₁
    exact ClaimTable.of_eq hsame
  | admitDecision run d =>
    refine Store.transaction_property (P := fun x => ClaimTable s cap x.claims) .same ?_
    intro out s' hok
    unfold Store.admitDecision at hok
    obtain ⟨s₁, hs₁, hok⟩ := bind_ok hok
    obtain ⟨s₂, hs₂, hok⟩ := bind_ok hok
    cases hok
    obtain rfl := Store.insertGateDecision_ok rt hs₁
    have hsame := appendEvent_claims rt hs₂
    exact ClaimTable.of_eq hsame
  | appendDecision run id packet decision payload =>
    refine Store.transaction_property (P := fun x => ClaimTable s cap x.claims) .same ?_
    intro out s' hok
    cases hs₁ : s.appendEvent rt run (some id) kinds.decisionAdmitted payload with
    | error e =>
      rw [hs₁] at hok
      cases hok
    | ok s₁ =>
      rw [hs₁] at hok
      cases hok
      have hsame := appendEvent_claims rt hs₁
      exact ClaimTable.of_eq hsame

end

/-- Two claims of which neither excludes the other: no resource of both is used
exclusively by one. -/
def ClaimRow.Compatible (a b : ClaimRow) : Prop :=
  ∀ x ∈ a.resources, ∀ y ∈ b.resources, x.resource = y.resource →
    x.access ≠ .exclusive ∧ y.access ≠ .exclusive

theorem compatible_of_excludes {a b : ClaimRow}
    (h : ∀ y ∈ b.resources, ∀ x ∈ a.resources, excludes y x = false) : a.Compatible b := by
  intro x hx y hy hsame
  have hfree := h y hy x hx
  simp only [excludes, Bool.and_eq_false_iff, Bool.or_eq_false_iff, decide_eq_false_iff_not]
    at hfree
  rcases hfree with hne | ⟨hwanted, hheld⟩
  · exact absurd hsame hne
  · exact ⟨hheld, hwanted⟩

/-- The active rows of the claim table, in the order issued. -/
def Store.activeRows (s : Store) : List ClaimRow := s.claims.filter (·.active)

theorem activeRows_releaseIf_sublist (claims : List ClaimRow) (p : ClaimRow → Bool)
    (release : String) :
    ((claims.map (ClaimRow.releaseIf p release)).filter (·.active)).Sublist
      (claims.filter (·.active)) := by
  induction claims with
  | nil => exact List.Sublist.slnil
  | cons c rest ih =>
    rw [List.map_cons]
    cases hp : p c with
    | true =>
      rw [List.filter_cons_of_neg (by simp [hp])]
      exact ih.trans (List.Sublist.filter _ (List.sublist_cons_self c rest))
    | false =>
      rw [ClaimRow.releaseIf_neg p release c hp]
      cases hc : c.active with
      | true =>
        rw [List.filter_cons_of_pos (by simpa using hc),
          List.filter_cons_of_pos (by simpa using hc)]
        exact ih.cons_cons c
      | false =>
        rw [List.filter_cons_of_neg (by simp [hc]), List.filter_cons_of_neg (by simp [hc])]
        exact ih

/-- At most `cap` active claims, pairwise compatible. -/
structure ExclusionOk (cap : Nat) (claims : List ClaimRow) : Prop where
  capped : (claims.filter (·.active)).length ≤ cap
  compatible : (claims.filter (·.active)).Pairwise ClaimRow.Compatible

theorem ClaimTable.exclusionOk {s : Store} {cap : Nat} {claims : List ClaimRow}
    (h : ClaimTable s cap claims) (hs : ExclusionOk cap s.claims) : ExclusionOk cap claims := by
  cases h with
  | same => exact hs
  | taken node row hresources hroom hfree =>
    rw [Store.activeClaims_length, List.countP_eq_length_filter] at hroom
    have hsplit : (s.claims ++ [row]).filter (·.active) =
        s.claims.filter (·.active) ++ [row].filter (·.active) := List.filter_append _ _
    refine { capped := ?_, compatible := ?_ }
    · have hone : ([row].filter (·.active)).length ≤ 1 := List.length_filter_le _ _
      rw [hsplit, List.length_append]
      omega
    · rw [hsplit, List.pairwise_append]
      refine ⟨hs.compatible, ?_, ?_⟩
      · exact (List.pairwise_singleton _ row).sublist List.filter_sublist
      · intro a ha b hb
        obtain rfl := List.mem_singleton.mp (List.mem_filter.mp hb).1
        have hactive : a ∈ s.activeClaims :=
          Store.mem_activeClaims.mpr (by simpa using List.mem_filter.mp ha)
        refine compatible_of_excludes ?_
        intro y hy x hx
        rw [hresources] at hy
        exact conflict_none hfree hy hactive hx
  | released p release =>
    have hsub := activeRows_releaseIf_sublist s.claims p release
    exact { capped := Nat.le_trans hsub.length_le hs.capped
            compatible := hs.compatible.sublist hsub }

/-- In every store that any operations reach, by schedulers whose caps are at most
`cap`, at most `cap` claims are active, and no two of them, of whatever runs, use
one resource with exclusive access on a side. -/
theorem claims_exclude (rt : Runtime) (cap : Nat) {s : Store}
    (hs : (ledgerSystem rt (fun _ op => op.Capped cap)).Reachable s) :
    s.activeRows.length ≤ cap ∧ s.activeRows.Pairwise (fun a b =>
      ∀ x ∈ a.resources, ∀ y ∈ b.resources, x.resource = y.resource →
        x.access ≠ .exclusive ∧ y.access ≠ .exclusive) := by
  have hinv : (ledgerSystem rt (fun _ op => op.Capped cap)).Invariant
      (fun s => ExclusionOk cap s.claims) := by
    refine System.Invariant.step System.invariant_true ?_ ?_
    · rintro s rfl
      exact { capped := Nat.zero_le cap, compatible := List.Pairwise.nil }
    · rintro s op s' - hok ⟨hcap, rfl⟩
      exact (exec_claimTable rt hcap).exclusionOk hok
  exact ⟨(hinv s hs).capped, (hinv s hs).compatible⟩

namespace Pilot

/-- The patch shares its resource, so that two runs of the graph may work on it at once. -/
def sharing : GraphSpec :=
  { spec with nodes := [{ patch with resourceScope := [⟨ident, .shared⟩] }, check] }

def laterRun : GraphRun := { run with runId := laterRunId }

def firstSharer : Scheduler :=
  (get (Scheduler.new sharing run controller) (by decide +kernel)).withMaxActive 2

def secondSharer : Scheduler :=
  (get (Scheduler.new sharing laterRun controller) (by decide +kernel)).withMaxActive 2

def shared : Store :=
  Store.empty.play runtime [.storeGraph sharing, .createRun run, .createRun laterRun,
    .claimNext firstSharer now "2026-01-01T00:00:01Z",
    .claimNext secondSharer now "2026-01-01T00:00:02Z"]

theorem shared_reachable : (ledgerSystem runtime (fun _ op => op.Capped 2)).Reachable shared := by
  have hcaps : firstSharer.maxActive ≤ 2 ∧ secondSharer.maxActive ≤ 2 := by decide +kernel
  exact .step (a := .claimNext secondSharer now "2026-01-01T00:00:02Z")
    (.step (a := .claimNext firstSharer now "2026-01-01T00:00:01Z")
      (.step (a := .createRun laterRun) (.step (a := .createRun run)
        (.step (a := .storeGraph sharing) (.init rfl) ⟨trivial, rfl⟩) ⟨trivial, rfl⟩)
        ⟨trivial, rfl⟩) ⟨hcaps.1, rfl⟩) ⟨hcaps.2, rfl⟩

end Pilot

open Pilot in
/-- Two runs hold a claim each, on one resource that both share. -/
theorem claims_exclude_claimed :
    shared.activeRows.map (fun c => (c.runId, c.resources)) =
        [(runId, [⟨ident, .shared⟩]), (laterRunId, [⟨ident, .shared⟩])] ∧
      shared.activeRows.length ≤ 2 ∧ shared.activeRows.Pairwise (fun a b =>
        ∀ x ∈ a.resources, ∀ y ∈ b.resources, x.resource = y.resource →
          x.access ≠ .exclusive ∧ y.access ≠ .exclusive) :=
  ⟨by decide +kernel, claims_exclude runtime 2 shared_reachable⟩

end Checkspan
