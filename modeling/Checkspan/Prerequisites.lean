import Mathlib.Data.List.Forall2
import Mathlib.Logic.Relation
import Checkspan.Acceptance

/-!
# No acceptance without accepted prerequisites

The references a claim pins were resolved against receipts of its own run or its
admitted imports; completion and takeover seal exactly those references, and
admission finds among them one for every declared dependency. Acceptance is
terminal and receipts never change, so what was checked keeps holding.
-/

namespace Checkspan

open Transition

/-! ### Stored evidence stays -/

section

variable {s s' : Store}

theorem readOptional_mono {α : Type} {header : α → RecordHeader} {kind : RecordKind}
    {o o' : Option α} {a : α} (h : Store.readOptional header kind o = .ok (some a))
    (ho : ∀ b, o = some b → o' = some b) : Store.readOptional header kind o' = .ok (some a) := by
  have hsome := (Store.readOptional_some h).1
  rw [ho a hsome]
  rw [hsome] at h
  exact h

theorem find?_append_mono {α : Type} {p : α → Bool} {xs ys zs : List α} (h : ys = xs ++ zs) {a : α}
    (hfind : xs.find? p = some a) : ys.find? p = some a := by
  rw [h, List.find?_append, hfind, Option.some_or]

theorem Extends.receipt (h : Extends s s') {run : RunId} {id : String} {r : VerifierReceipt}
    (hr : s.receipt run id = .ok (some r)) : s'.receipt run id = .ok (some r) := by
  obtain ⟨more, hmore⟩ := h.receipts
  exact readOptional_mono hr (fun _ hfind => find?_append_mono hmore hfind)

theorem Extends.attempt (h : Extends s s') {run : RunId} {id : NodeId} {k : Nat} {a : Attempt}
    (ha : s.attempt run id k = .ok (some a)) : s'.attempt run id k = .ok (some a) := by
  obtain ⟨more, hmore⟩ := h.attempts
  exact readOptional_mono ha (fun _ hfind => find?_append_mono hmore hfind)

theorem Extends.admissible (h : Extends s s') {ref : ReceiptRef} {node : NodeRef} {type : TypeRef}
    {digest : Digest} (ha : DependencyService.Admissible s ref node type digest) :
    DependencyService.Admissible s' ref node type digest := by
  obtain ⟨receipt, attempt, result, he⟩ := ha
  exact ⟨receipt, attempt, result,
    { he with
      stored := h.receipt he.stored
      sealedRow := h.attempt he.sealedRow }⟩

end

/-! ### Pinned references -/

/-- A reference that resolved a dependency of a node of `run`: from this run's
acceptance of the producer or from an import admitted for it, with evidence. -/
structure Pinned (s : Store) (run : GraphRun) (dep : Dependency) (ref : ReceiptRef) : Prop where
  origin : (∃ state, s.nodeState run.runId dep.node.nodeId = some state ∧
      state.status = .accepted ∧ state.receipt = some ref) ∨
    ∃ i ∈ run.admittedImports, i.nodeId = dep.node.nodeId ∧ i.receipt = ref
  evidence : ∃ digest, DependencyService.Admissible s ref dep.node dep.expectedType digest

theorem Pinned.extend {s s' : Store} {run : GraphRun} {dep : Dependency} {ref : ReceiptRef}
    (h : Pinned s run dep ref) (hx : Extends s s') : Pinned s' run dep ref := by
  obtain ⟨digest, hdigest⟩ := h.evidence
  refine { origin := ?_, evidence := ⟨digest, hx.admissible hdigest⟩ }
  rcases h.origin with ⟨state, hstate, hacc, href⟩ | himport
  · exact Or.inl ⟨state, hx.accepted _ _ state hstate hacc, hacc, href⟩
  · exact Or.inr himport

/-- What a claim pins for its node. -/
structure PinnedClaim (s : Store) (row : ClaimRow) (run : GraphRun) (spec : GraphSpec)
    (node : NodeSpec) : Prop where
  bound : s.Bound run spec
  run_eq : run.runId = row.runId
  node_eq : spec.findNode row.nodeId = some node
  pinned : List.Forall₂ (Pinned s run) node.deps row.dependencyReceipts

/-- What the recheck found for an accepting receipt. -/
structure RecheckedReceipt (s : Store) (r : VerifierReceipt) (run : GraphRun) (spec : GraphSpec)
    (node : NodeSpec) (a : Attempt) : Prop where
  stored : s.Stored run spec
  run_eq : run.runId = r.attempt.runId
  node_eq : spec.findNode r.attempt.node.nodeId = some node
  row : a ∈ s.attempts
  key_eq : a.key = r.key
  covered : ∀ dep ∈ node.deps, ∃ ref digest,
    a.dependencyReceipts.find? (fun q => q.node = dep.node) = some ref ∧
    DependencyService.Admissible s ref dep.node dep.expectedType digest

structure Store.PrerequisitesOk (s : Store) : Prop where
  claims : ∀ row ∈ s.claims, ∃ run spec node, PinnedClaim s row run spec node
  attempts : ∀ a ∈ s.attempts, ∃ row ∈ s.claims,
    row.key = a.key ∧ row.dependencyReceipts = a.dependencyReceipts
  receipts : ∀ r ∈ s.receipts, r.verdict = .accept →
    ∃ run spec node a, RecheckedReceipt s r run spec node a

/-! ### Steps -/

section

variable {rt : Runtime} {s s' : Store}

theorem Store.Bound.extend {run : GraphRun} {spec : GraphSpec} (h : s.Bound run spec)
    (hx : Extends s s') : s'.Bound run spec := ⟨hx.stored run spec h.1, h.2⟩

/-- A claim pins resolved references. -/
theorem Scheduler.Claimed.pinned {sched : Scheduler} {now : Timestamp} {claimedAt : String}
    {claim : Claim} {node : NodeSpec} {st : RunState} {state next : NodeState}
    {snapshot : DependencySnapshot}
    (h : sched.Claimed s now claimedAt claim s' node st state next snapshot) (hs : s.Sound)
    (bound : s.Bound sched.run sched.spec) :
    List.Forall₂ (Pinned s sched.run) node.deps snapshot.receiptRefs := by
  obtain ⟨node', hnode', hresolved⟩ := DependencyService.resolve_ok h.resolved
  have hsame : node' = node := Option.some.inj (hnode'.symm.trans h.node_mem)
  rw [hsame] at hresolved
  rw [DependencySnapshot.receiptRefs, List.forall₂_map_right_iff]
  refine List.Forall₂.imp ?_ hresolved
  intro dep r hr
  obtain ⟨-, horigin, hadmissible⟩ := DependencyService.resolveOne_ok hr
  refine { origin := ?_, evidence := ⟨r.resultDigest, hadmissible⟩ }
  cases horigin with
  | sameRun p hp hacc href =>
    refine Or.inl ⟨p, ?_, hacc, href⟩
    exact (hs.nodeState_of_replay bound.1 h.replayed _).trans hp
  | imported i hi hn href => exact Or.inr ⟨i, hi, hn, href⟩

/-- The row as it was issued: a release changes nothing else. -/
def ClaimRow.issued (c : ClaimRow) : ClaimRow := { c with active := true, release := none }

@[simp] theorem ClaimRow.releaseIf_issued (p : ClaimRow → Bool) (release : String) (c : ClaimRow) :
    (ClaimRow.releaseIf p release c).issued = c.issued := by
  unfold ClaimRow.releaseIf
  split <;> rfl

theorem ClaimRow.key_of_issued {a b : ClaimRow} (h : a.issued = b.issued) : a.key = b.key :=
  show a.issued.key = b.issued.key from congrArg ClaimRow.key h

theorem ClaimRow.pins_of_issued {a b : ClaimRow} (h : a.issued = b.issued) :
    a.dependencyReceipts = b.dependencyReceipts :=
  show a.issued.dependencyReceipts = b.issued.dependencyReceipts from
    congrArg ClaimRow.dependencyReceipts h

theorem ClaimRow.owner_of_issued {a b : ClaimRow} (h : a.issued = b.issued) : a.owner = b.owner :=
  show a.issued.owner = b.issued.owner from congrArg ClaimRow.owner h

/-- A row after a step is one of before, possibly released, or a new claim. -/
theorem LedgerStep.claim_rows {label : Option (RunId × NodeId × NodeEvent)}
    (h : LedgerStep rt s label s') {row' : ClaimRow} (hrow' : row' ∈ s'.claims) :
    (∃ row ∈ s.claims, row'.issued = row.issued) ∨
    ∃ sched now claimedAt claim node st state next snapshot, s.Bound sched.run sched.spec ∧
      Scheduler.Claimed sched s now claimedAt claim s' node st state next snapshot ∧
      row' = sched.newRow node claim.number (s.nextFence sched.run.runId) snapshot.receiptRefs
        claimedAt := by
  have hsame : s'.claims = s.claims → ∃ row ∈ s.claims, row'.issued = row.issued := by
    intro heq
    rw [heq] at hrow'
    exact ⟨row', hrow', rfl⟩
  have hmap : ∀ p how, s'.claims = s.claims.map (ClaimRow.releaseIf p how) →
      ∃ row ∈ s.claims, row'.issued = row.issued := by
    intro p how heq
    rw [heq] at hrow'
    obtain ⟨row, hrow, rfl⟩ := List.mem_map.mp hrow'
    exact ⟨row, hrow, ClaimRow.releaseIf_issued p how row⟩
  cases h with
  | @claim sched now claimedAt claim _ node st state next snapshot bound h =>
    rw [h.store_eq, List.mem_append, List.mem_singleton] at hrow'
    rcases hrow' with hrow' | rfl
    · exact Or.inl ⟨row', hrow', rfl⟩
    · exact Or.inr ⟨sched, now, claimedAt, claim, node, st, state, next, snapshot, bound, h, rfl⟩
  | complete hrun bound h => exact Or.inl (hmap _ _ (by rw [h.store_eq]; rfl))
  | cancel bound h => exact Or.inl (hmap _ _ (by rw [h.store_eq]))
  | reclaim bound h => exact Or.inl (hmap _ _ (by rw [h.store_eq]; rfl))
  | same => exact Or.inl (hsame rfl)
  | graph row fresh => exact Or.inl (hsame rfl)
  | run r fresh known => exact Or.inl (hsame rfl)
  | revoke r payload known => exact Or.inl (hsame rfl)
  | admitted bound h => exact Or.inl (hsame (by rw [h.store_eq]))
  | retry payload bound replayed state_eq legal => exact Or.inl (hsame rfl)
  | exhausted payload bound replayed state_eq stopped legal => exact Or.inl (hsame rfl)
  | opened bound h => exact Or.inl (hsame (by rw [h.store_eq]))
  | decided payload decisions waits carried => exact Or.inl (hsame rfl)

/-- No step drops a claim or changes what it was issued for. -/
theorem LedgerStep.claim_kept {label : Option (RunId × NodeId × NodeEvent)}
    (h : LedgerStep rt s label s') {row : ClaimRow} (hrow : row ∈ s.claims) :
    ∃ row' ∈ s'.claims, row'.issued = row.issued := by
  have hsame : s'.claims = s.claims → ∃ row' ∈ s'.claims, row'.issued = row.issued := by
    intro heq
    rw [heq]
    exact ⟨row, hrow, rfl⟩
  have hmap : ∀ p how, s'.claims = s.claims.map (ClaimRow.releaseIf p how) →
      ∃ row' ∈ s'.claims, row'.issued = row.issued := by
    intro p how heq
    rw [heq]
    exact ⟨_, List.mem_map.mpr ⟨row, hrow, rfl⟩, ClaimRow.releaseIf_issued p how row⟩
  cases h with
  | claim bound h =>
    rw [h.store_eq]
    exact ⟨row, List.mem_append_left _ hrow, rfl⟩
  | complete hrun bound h => exact hmap _ _ (by rw [h.store_eq]; rfl)
  | cancel bound h => exact hmap _ _ (by rw [h.store_eq])
  | reclaim bound h => exact hmap _ _ (by rw [h.store_eq]; rfl)
  | same => exact hsame rfl
  | graph row fresh => exact hsame rfl
  | run r fresh known => exact hsame rfl
  | revoke r payload known => exact hsame rfl
  | admitted bound h => exact hsame (by rw [h.store_eq])
  | retry payload bound replayed state_eq legal => exact hsame rfl
  | exhausted payload bound replayed state_eq stopped legal => exact hsame rfl
  | opened bound h => exact hsame (by rw [h.store_eq])
  | decided payload decisions waits carried => exact hsame rfl

/-- An attempt after a step was sealed before, or now seals what its claim pins. -/
theorem LedgerStep.attempt_rows {label : Option (RunId × NodeId × NodeEvent)}
    (h : LedgerStep rt s label s') {a : Attempt} (ha : a ∈ s'.attempts) :
    a ∈ s.attempts ∨ ∃ row ∈ s.claims, row.key = a.key ∧
      row.dependencyReceipts = a.dependencyReceipts := by
  cases h with
  | @complete sched claim attempt _ row execution st state next record hrun bound h =>
    have hattempts : s'.attempts = s.attempts ++ [attempt] := by rw [h.store_eq]; rfl
    rw [hattempts, List.mem_append, List.mem_singleton] at ha
    rcases ha with ha | rfl
    · exact Or.inl ha
    · obtain ⟨hmem, hr, hi, hk⟩ := Store.claim_some h.row_eq
      have hnumber : row.number = claim.number := PositiveU32.ext_get hk
      refine Or.inr ⟨row, hmem, ?_, h.pinned⟩
      simp only [ClaimRow.key, Attempt.key, hr, hi, hnumber, h.runId_eq,
        GraphSpec.nodeRef_nodeId h.nodeRef_eq, h.number_eq]
  | @reclaim sched _ now number _ node row startedAt st state next bound h =>
    have hattempts : s'.attempts = s.attempts ++
        [sched.reclaimedAttempt node row startedAt now] := by
      rw [h.store_eq]
      rfl
    rw [hattempts, List.mem_append, List.mem_singleton] at ha
    rcases ha with ha | rfl
    · exact Or.inl ha
    · refine Or.inr ⟨row, h.row_mem, ?_, rfl⟩
      simp only [ClaimRow.key, Attempt.key, Scheduler.reclaimedAttempt, h.row_run, h.row_node,
        GraphSpec.nodeRef_nodeId h.nodeRef_eq]
  | claim bound h =>
    rw [h.store_eq] at ha
    exact Or.inl ha
  | cancel bound h =>
    rw [h.store_eq] at ha
    exact Or.inl ha
  | admitted bound h =>
    rw [h.store_eq] at ha
    exact Or.inl ha
  | opened bound h =>
    rw [h.store_eq] at ha
    exact Or.inl ha
  | same => exact Or.inl ha
  | graph row fresh => exact Or.inl ha
  | run r fresh known => exact Or.inl ha
  | revoke r payload known => exact Or.inl ha
  | retry payload bound replayed state_eq legal => exact Or.inl ha
  | exhausted payload bound replayed state_eq stopped legal => exact Or.inl ha
  | decided payload decisions waits carried => exact Or.inl ha

/-- The recheck an accepting receipt passed. -/
theorem Receipts.Admitted.rechecked_receipt {spec : GraphSpec} {run : GraphRun}
    {receipt : VerifierReceipt} {now : Timestamp} {node : NodeSpec} {attempt : Attempt}
    {result : ResultRef} {st : RunState} {state : NodeState}
    (h : Receipts.Admitted rt s spec run receipt now s' node attempt result st state)
    (hstored : s.Stored run spec) (hv : receipt.verdict = .accept) :
    RecheckedReceipt s receipt run spec node attempt := by
  obtain ⟨hrow, hkey⟩ := Store.attempt_some h.attempt_eq
  obtain ⟨node', hnode', hcovered⟩ := DependencyService.recheckRefs_ok (h.rechecked hv)
  have hsame : node' = node := Option.some.inj (hnode'.symm.trans h.node_eq)
  rw [hsame] at hcovered
  exact { stored := hstored
          run_eq := h.runId_eq.symm
          node_eq := h.node_eq
          row := hrow
          key_eq := by rw [hkey, VerifierReceipt.key, h.runId_eq]
          covered := hcovered }

theorem RecheckedReceipt.extend {r : VerifierReceipt} {run : GraphRun} {spec : GraphSpec}
    {node : NodeSpec} {a : Attempt} (h : RecheckedReceipt s r run spec node a)
    (hx : Extends s s') : RecheckedReceipt s' r run spec node a :=
  { h with
    stored := hx.stored run spec h.stored
    row := hx.mem_attempts h.row
    covered := by
      intro dep hdep
      obtain ⟨ref, digest, hfind, hadm⟩ := h.covered dep hdep
      exact ⟨ref, digest, hfind, hx.admissible hadm⟩ }

theorem Store.PrerequisitesOk.step (h : s.PrerequisitesOk)
    {label : Option (RunId × NodeId × NodeEvent)} (hstep : LedgerStep rt s label s')
    (hs : s.Sound) : s'.PrerequisitesOk := by
  have hx := hstep.extends hs
  refine { claims := ?_, attempts := ?_, receipts := ?_ }
  · intro row' hrow'
    rcases hstep.claim_rows hrow' with ⟨row, hrow, hissued⟩ |
      ⟨sched, now, claimedAt, claim, node, st, state, next, snapshot, bound, hclaim, rfl⟩
    · obtain ⟨run, spec, node, hp⟩ := h.claims row hrow
      have hkey := ClaimRow.key_of_issued hissued
      have hrefs := ClaimRow.pins_of_issued hissued
      simp only [ClaimRow.key, Prod.mk.injEq] at hkey
      refine ⟨run, spec, node, ?_⟩
      exact { bound := hp.bound.extend hx
              run_eq := hp.run_eq.trans hkey.1.symm
              node_eq := by rw [hkey.2.1]; exact hp.node_eq
              pinned := by
                rw [hrefs]
                exact hp.pinned.imp (fun _ _ hpin => hpin.extend hx) }
    · refine ⟨sched.run, sched.spec, node, ?_⟩
      exact { bound := bound.extend hx
              run_eq := rfl
              node_eq := hclaim.node_mem
              pinned := (hclaim.pinned hs bound).imp (fun _ _ hpin => hpin.extend hx) }
  · intro a ha
    have hbefore : ∃ row ∈ s.claims, row.key = a.key ∧
        row.dependencyReceipts = a.dependencyReceipts := by
      rcases hstep.attempt_rows ha with ha | hrow
      · exact h.attempts a ha
      · exact hrow
    obtain ⟨row, hrow, hkey, hrefs⟩ := hbefore
    obtain ⟨row', hrow', hissued⟩ := hstep.claim_kept hrow
    exact ⟨row', hrow', (ClaimRow.key_of_issued hissued).trans hkey,
      (ClaimRow.pins_of_issued hissued).trans hrefs⟩
  · intro r hr hv
    rcases hstep.receipts_cases with ⟨heq, -⟩ |
      ⟨spec, run, receipt, now, node, attempt, result, st, state, bound, hadm, -⟩
    · rw [heq] at hr
      obtain ⟨run, spec, node, a, hp⟩ := h.receipts r hr hv
      exact ⟨run, spec, node, a, hp.extend hx⟩
    · rw [hadm.store_eq, List.mem_append, List.mem_singleton] at hr
      rcases hr with hr | rfl
      · obtain ⟨run, spec, node, a, hp⟩ := h.receipts r hr hv
        exact ⟨run, spec, node, a, hp.extend hx⟩
      · exact ⟨run, spec, node, attempt, (hadm.rechecked_receipt bound.1 hv).extend hx⟩

end

theorem prerequisitesOk_invariant (rt : Runtime) :
    (legalLedger rt).Invariant Store.PrerequisitesOk := by
  refine System.Invariant.step (sound_invariant rt) ?_ ?_
  · rintro s rfl
    exact { claims := fun _ h => absurd h List.not_mem_nil
            attempts := fun _ h => absurd h List.not_mem_nil
            receipts := fun _ h => absurd h List.not_mem_nil }
  · rintro s op s' hs h ⟨legal, rfl⟩
    exact h.step (exec_step rt s legal) hs

/-! ### Accepted prerequisites -/

theorem forall₂_mem_right {α β : Type} {R : α → β → Prop} {xs : List α} {ys : List β}
    (h : List.Forall₂ R xs ys) {y : β} (hy : y ∈ ys) : ∃ x ∈ xs, R x y := by
  induction h with
  | nil => exact absurd hy List.not_mem_nil
  | cons hxy _ ih =>
    rcases List.mem_cons.mp hy with rfl | hy
    · exact ⟨_, List.mem_cons_self, hxy⟩
    · obtain ⟨x, hx, hr⟩ := ih hy
      exact ⟨x, List.mem_cons_of_mem _ hx, hr⟩

/-- Stored evidence is about one node. -/
theorem DependencyService.Admissible.node_unique {s : Store} {ref : ReceiptRef} {a b : NodeRef}
    {x y : TypeRef} {d e : Digest} (ha : DependencyService.Admissible s ref a x d)
    (hb : DependencyService.Admissible s ref b y e) : a = b := by
  obtain ⟨r, _, _, hr⟩ := ha
  obtain ⟨q, _, _, hq⟩ := hb
  have hsame : r = q := by
    have h := hr.stored.symm.trans hq.stored
    simpa using h
  rw [← hr.node_eq, ← hq.node_eq, hsame]

/-- An admitted graph lists each producer of a node once. -/
theorem deps_unique {spec : GraphSpec} {g : AdmittedGraph} (h : Graph.admitGraph spec = .ok g)
    {id : NodeId} {node : NodeSpec} (hnode : spec.findNode id = some node) {a b : Dependency}
    (ha : a ∈ node.deps) (hb : b ∈ node.deps) (heq : a.node = b.node) : a = b := by
  have hmem := GraphSpec.findNode_mem hnode
  have hnodup := NodeSpec.deps_nodup_of_checkContract node
    (Graph.admitGraph_checkContract h hmem)
  have hport : a.outputPort = b.outputPort := by
    apply Identifier.ext_text
    rw [(Graph.admitGraph_cleanDep h hmem ha).port, (Graph.admitGraph_cleanDep h hmem hb).port]
  refine List.inj_on_of_nodup_map hnodup ha hb ?_
  rw [heq, hport]

/-- A node of the run is accepted. -/
def RunState.Accepted (st : RunState) (id : NodeId) : Prop :=
  ∃ state, st.node id = some state ∧ state.status = .accepted

/-- `a` declares a dependency on `b`. -/
def DependsOn (spec : GraphSpec) (a b : NodeId) : Prop :=
  ∃ node, spec.findNode a = some node ∧ ∃ dep ∈ node.deps, dep.node.nodeId = b

/-- An import stands in for the node. -/
def GraphRun.Imports (run : GraphRun) (id : NodeId) : Prop :=
  ∃ i ∈ run.admittedImports, i.nodeId = id

/-- The accepted attempt of a node and the reference it pins for each dependency. -/
structure Supported (s : Store) (run : GraphRun) (st : RunState) (id : NodeId)
    (state : NodeState) (node : NodeSpec) (a : Attempt) : Prop where
  row : a ∈ s.attempts
  run_eq : a.runId = run.runId
  node_eq : a.node.nodeId = id
  current : state.currentAttempt = some a.number
  /-- Each dependency has a pinned receipt for exactly its node, stored as an
  acceptance of a result of the declared type, from this run's own acceptance of
  the producer or from an import admitted for it. -/
  pins : ∀ dep ∈ node.deps, ∃ ref ∈ a.dependencyReceipts, ref.node = dep.node ∧
    (∃ r b result, s.receipt ref.runId ref.id.text = .ok (some r) ∧ r.verdict = .accept ∧
      r.attempt.node = dep.node ∧ s.attempt r.attempt.runId r.attempt.node.nodeId
        r.attempt.number.get = .ok (some b) ∧ b.result = some result ∧
      result.resultType = dep.expectedType) ∧
    ((∃ p, st.node dep.node.nodeId = some p ∧ p.status = .accepted ∧ p.receipt = some ref) ∨
      ∃ i ∈ run.admittedImports, i.nodeId = dep.node.nodeId ∧ i.receipt = ref)
  /-- Nothing else is pinned but receipts of this run and admitted imports. -/
  ownRun : ∀ ref ∈ a.dependencyReceipts,
    ref.runId = run.runId ∨ ∃ i ∈ run.admittedImports, i.receipt = ref

theorem supported_of_accepted {rt : Runtime} {s : Store} (hs : s.Sound) (hr : s.ReceiptsOk rt)
    (hp : s.PrerequisitesOk) {run : GraphRun} {spec : GraphSpec} {st : RunState}
    (hstored : s.Stored run spec) (hst : s.replay run.runId spec = .ok st)
    (id : NodeId) (state : NodeState) (hnode : st.node id = some state)
    (hacc : state.status = .accepted) :
    ∃ node a, spec.findNode id = some node ∧ Supported s run st id state node a := by
  have hreplay := hs.nodeState_of_replay hstored hst
  obtain ⟨r, hrmem, hv, hrkey, -, -, hcur⟩ :=
    hr.accepted run.runId id state ((hreplay id).trans hnode) hacc
  simp only [VerifierReceipt.key, Prod.mk.injEq] at hrkey
  obtain ⟨run', spec', node, a, hre⟩ := hp.receipts r hrmem hv
  obtain ⟨rfl, rfl⟩ := hs.stored_unique hre.stored hstored (hre.run_eq.trans hrkey.1)
  obtain ⟨row, hrow, hkey, hrefs⟩ := hp.attempts a hre.row
  obtain ⟨q, x, node', hpin⟩ := hp.claims row hrow
  have hakey := hre.key_eq
  simp only [Attempt.key, VerifierReceipt.key, Prod.mk.injEq] at hakey
  simp only [ClaimRow.key, Attempt.key, Prod.mk.injEq] at hkey
  obtain ⟨rfl, rfl⟩ := hs.stored_unique hpin.bound.1 hstored
    (by rw [hpin.run_eq, hkey.1, hakey.1, hrkey.1])
  have hfind := hre.node_eq
  have hfind' := hpin.node_eq
  rw [hrkey.2.1] at hfind
  rw [hkey.2.1, hakey.2.1, hrkey.2.1, hfind] at hfind'
  cases hfind'
  obtain ⟨g, hg⟩ := hpin.bound.2
  have hpinned := hpin.pinned
  rw [hrefs] at hpinned
  refine ⟨node, a, hfind, ?_⟩
  refine { row := hre.row, run_eq := hakey.1.trans hrkey.1, node_eq := hakey.2.1.trans hrkey.2.1
           current := by rw [hcur, hakey.2.2], pins := ?_, ownRun := ?_ }
  · intro dep hdep
    obtain ⟨ref, digest, hfound, hadm⟩ := hre.covered dep hdep
    have hmem := List.mem_of_find?_eq_some hfound
    have href : ref.node = dep.node := by simpa using List.find?_some hfound
    -- The dependency the claim resolved to this reference is the one rechecked.
    obtain ⟨dep', hdep', hpin'⟩ := forall₂_mem_right hpinned hmem
    obtain ⟨digest', hadm'⟩ := hpin'.evidence
    have hsame := deps_unique hg hfind hdep' hdep (hadm'.node_unique hadm)
    subst hsame
    obtain ⟨receipt, b, result, he⟩ := hadm
    refine ⟨ref, hmem, href, ⟨receipt, b, result, he.stored, he.verdict, he.node_eq, he.sealedRow,
      he.result_eq, he.type_eq⟩, ?_⟩
    rcases hpin'.origin with ⟨p, hpstate, hpacc, hpref⟩ | himport
    · exact Or.inl ⟨p, (hreplay _).symm.trans hpstate, hpacc, hpref⟩
    · exact Or.inr himport
  · intro ref hmem
    obtain ⟨dep, -, hpin'⟩ := forall₂_mem_right hpinned hmem
    rcases hpin'.origin with ⟨p, hpstate, hpacc, hpref⟩ | ⟨i, hi, -, hiref⟩
    · obtain ⟨q, -, -, hqkey, -, hqref, -⟩ := hr.accepted _ _ p hpstate hpacc
      rw [hpref] at hqref
      cases hqref
      simp only [VerifierReceipt.key, Prod.mk.injEq] at hqkey
      exact Or.inl hqkey.1
    · exact Or.inr ⟨i, hi, hiref⟩

/-- Along dependencies no import stands in for, acceptance goes back to the producers. -/
theorem accepted_along {rt : Runtime} {s : Store} (hs : s.Sound) (hr : s.ReceiptsOk rt)
    (hp : s.PrerequisitesOk) {run : GraphRun} {spec : GraphSpec} {st : RunState}
    (hstored : s.Stored run spec) (hst : s.replay run.runId spec = .ok st) {target id : NodeId}
    (htarget : st.Accepted target) (hpath : Relation.ReflTransGen
      (fun a b => DependsOn spec a b ∧ ¬ run.Imports b) target id) : st.Accepted id := by
  induction hpath with
  | refl => exact htarget
  | tail _ hstep ih =>
    obtain ⟨⟨node, hnode, dep, hdep, rfl⟩, hcut⟩ := hstep
    obtain ⟨state, hstate, hacc⟩ := ih
    obtain ⟨node', a, hnode', hsup⟩ :=
      supported_of_accepted hs hr hp hstored hst _ state hstate hacc
    rw [hnode] at hnode'
    cases hnode'
    obtain ⟨ref, -, -, -, horigin⟩ := hsup.pins dep hdep
    rcases horigin with ⟨p, hp, hpacc, -⟩ | ⟨i, hi, hin, -⟩
    · exact ⟨p, hp, hpacc⟩
    · exact absurd ⟨i, hi, hin⟩ hcut

/-- In every store that legal use reaches, an accepted node of an admitted graph
pins, in its accepted attempt, an accepting receipt for every declared dependency,
of this run's acceptance of the producer or of an admitted import for it, and
nothing of another run beside admitted imports. So every transitive dependency
of an accepted node is accepted in the run, unless an import cuts it off. -/
theorem accepted_prerequisites (rt : Runtime) {s : Store} (hs : (legalLedger rt).Reachable s)
    (run : GraphRun) (spec : GraphSpec) (st : RunState) (hstored : s.Stored run spec)
    (hst : s.replay run.runId spec = .ok st) :
    (∀ id state, st.node id = some state → state.status = .accepted →
      ∃ node a, spec.findNode id = some node ∧ Supported s run st id state node a) ∧
    (∀ target id, st.Accepted target → Relation.ReflTransGen
      (fun a b => DependsOn spec a b ∧ ¬ run.Imports b) target id → st.Accepted id) := by
  have hsound := sound_invariant rt s hs
  have hreceipts := receiptsOk_invariant rt s hs
  have hprerequisites := prerequisitesOk_invariant rt s hs
  exact ⟨fun id state => supported_of_accepted hsound hreceipts hprerequisites hstored hst id state,
    fun _ _ => accepted_along hsound hreceipts hprerequisites hstored hst⟩

namespace Pilot

/-- The check of the accepted patch: claimed, sealed, accepted. -/
def claimCheck : LedgerOp := .claimNext scheduler now "2026-01-01T00:00:02Z"
def checkClaimed : Store := (claimCheck.exec runtime patchAccepted).2
def completeCheck : LedgerOp := .complete scheduler (claimOf check 2 [patchReceipt.receiptRef])
  (attemptOf check [patchReceipt.receiptRef])
def checkSealed : Store := (completeCheck.exec runtime checkClaimed).2
def admitCheck : LedgerOp := .admitReceipt spec run
  (receiptOf check [patchReceipt.receiptRef] ⟨"receipt-check", by decide +kernel⟩) now
def checkAccepted : Store := (admitCheck.exec runtime checkSealed).2

theorem checkAccepted_reachable : (legalLedger runtime).Reachable checkAccepted := by
  have hclaim : claimCheck.Legal patchAccepted := by
    change patchAccepted.Bound scheduler.run scheduler.spec
    rw [scheduler_eq.1, scheduler_eq.2]
    exact bound (by decide +kernel) (by decide +kernel)
  have hcomplete : completeCheck.Legal checkClaimed :=
    ⟨run, rfl, scheduler_eq.2 ▸ bound (by decide +kernel) (by decide +kernel)⟩
  have haccept : admitCheck.Legal checkSealed := bound (by decide +kernel) (by decide +kernel)
  exact .step (a := admitCheck) (.step (a := completeCheck) (.step (a := claimCheck)
    patchAccepted_reachable ⟨hclaim, rfl⟩) ⟨hcomplete, rfl⟩) ⟨haccept, rfl⟩

def final : RunState := get (checkAccepted.replay runId spec) (by decide +kernel)

def checkState : NodeState :=
  { status := .accepted, currentAttempt := some one, attemptsStarted := 1, checking := false
    receipt := some ⟨⟨"receipt-check", by decide +kernel⟩, runId, spec.refOf check⟩
    waitingOnGate := none }

end Pilot

open Pilot in
theorem accepted_prerequisites_check : ∃ node a, spec.findNode checkId = some node ∧
    Supported checkAccepted run final checkId checkState node a := by
  have hbound : checkAccepted.Bound run spec := bound (by decide +kernel) (by decide +kernel)
  exact (accepted_prerequisites runtime checkAccepted_reachable run spec final hbound.1
    (get_eq (by decide +kernel))).1 checkId checkState (by decide +kernel) rfl

end Checkspan
