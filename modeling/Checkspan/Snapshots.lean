import Checkspan.Manifests
import Checkspan.Origins

/-!
# Frozen inputs and pinned dependencies

A claim pins the receipts its dependencies resolve to, and the evidence of its attempt is
frozen over a second resolution. The two agree while no producer that the claim
took from an import is accepted in the run in between.
-/

namespace Checkspan

open Process Transition

/-! ### What a dependency resolves through -/

/-- The receipt a dependency on a node resolves to: this run's acceptance of it first,
then the import for it. -/
def receiptFor (run : GraphRun) (node : Option NodeState) (id : NodeId) : Option ReceiptRef :=
  match node.filter (fun s => s.status = .accepted) with
  | some s => s.receipt
  | none => (run.admittedImports.find? (fun i => i.nodeId = id)).map (·.receipt)

/-- A receipt this run's acceptance of a node names, or the import for the node. -/
def PinnedThrough (run : GraphRun) (node : Option NodeState) (id : NodeId) (ref : ReceiptRef) :
    Prop :=
  (∃ s, node = some s ∧ s.status = .accepted ∧ s.receipt = some ref) ∨
    (run.admittedImports.find? (fun i => i.nodeId = id)).map (·.receipt) = some ref

section

variable {run : GraphRun} {node : Option NodeState} {id : NodeId} {ref : ReceiptRef}

theorem pinnedThrough_of_receiptFor (h : receiptFor run node id = some ref) :
    PinnedThrough run node id ref := by
  unfold receiptFor at h
  split at h
  · rename_i s hs
    obtain ⟨hnode, hacc⟩ := Option.filter_eq_some_iff.mp hs
    exact Or.inl ⟨s, hnode, by simpa using hacc, h⟩
  · exact Or.inr h

/-- A pinned receipt is resolved to again, unless another one was accepted since. -/
theorem PinnedThrough.again (h : PinnedThrough run node id ref)
    (hstands : ∀ s, node = some s → s.status = .accepted → s.receipt = some ref) :
    receiptFor run node id = some ref := by
  unfold receiptFor
  split
  · rename_i s hs
    obtain ⟨hnode, hacc⟩ := Option.filter_eq_some_iff.mp hs
    exact hstands s hnode (by simpa using hacc)
  · rename_i hnone
    rcases h with ⟨s, hnode, hacc, -⟩ | himport
    · rw [hnode, Option.filter_some, if_pos (decide_eq_true hacc)] at hnone
      cases hnone
    · exact himport

end

theorem DependencyService.resolveOne_receiptFor {svc : DependencyService} {dep : Dependency}
    {r : ResolvedDependency} (h : svc.resolveOne dep = .ok r) :
    receiptFor svc.run (svc.state.node dep.node.nodeId) dep.node.nodeId = some r.receipt := by
  unfold resolveOne at h
  obtain ⟨_, -, h⟩ := bind_ok h
  unfold receiptFor
  split at h
  · rename_i s hs
    rw [show (svc.state.node dep.node.nodeId).filter
      (fun s => s.status = .accepted) = some s from hs]
    unfold resolveSameRun at h
    obtain ⟨receipt, hreceipt, h⟩ := bind_ok h
    obtain ⟨digest, -, h⟩ := bind_ok h
    cases h
    exact someOr_ok hreceipt
  · rename_i hnone
    rw [show (svc.state.node dep.node.nodeId).filter (fun s => s.status = .accepted) = none from
      hnone]
    split at h
    · rename_i i hi
      unfold resolveImport at h
      obtain ⟨_, -, h⟩ := bind_ok h
      obtain ⟨_, -, h⟩ := bind_ok h
      obtain ⟨digest, -, h⟩ := bind_ok h
      cases h
      exact congrArg (Option.map (·.receipt)) hi
    · cases h

/-! ### The condition -/

/-- Every dependency of the claimed node that is accepted in the run by now is pinned
through that acceptance. -/
def ClaimStands (spec : GraphSpec) (st : RunState) (claim : Claim) : Prop :=
  ∀ node, spec.findNode claim.nodeId = some node →
    ∀ x ∈ node.deps.zip claim.dependencyReceipts, ∀ s, st.node x.1.node.nodeId = some s →
      s.status = .accepted → s.receipt = some x.2

/-- No producer that a claim took from an import is accepted before the claim's evidence
is resolved. -/
def ClaimsStand (_ : Sessions) : SessionMove → Prop
  | .act _ ⟨.resolve claim spec _ st _, _⟩ => ClaimStands spec st claim
  | _ => True

/-! ### Two resolutions -/

/-- A resolved dependency: what it resolves through in this state, with the digest of the
stored receipt. -/
structure Bound (s : Store) (run : GraphRun) (st : RunState) (dep : Dependency)
    (d : ResolvedDependency) : Prop where
  chosen : receiptFor run (st.node dep.node.nodeId) dep.node.nodeId = some d.receipt
  digest : ∃ r, s.receipt d.receipt.runId d.receipt.id.text = .ok (some r) ∧
    d.resultDigest = r.resultDigest

/-- What the entries of a call say of the dependencies of its claim: what the claim pinned,
that the log read afterwards shows it, and what the second resolution found. -/
def Did.Resolves (s : Store) (h : List Did) : Did → Prop
  | ⟨.ledger (.claimNext sched _ _), r⟩ => ∀ claim node,
    r = (.ok (.claimed claim) : Except SchedulerError ClaimOutcome) →
    sched.spec.findNode claim.nodeId = some node →
    List.Forall₂ (fun dep => PinnedThrough sched.run
      (s.nodeState sched.run.runId dep.node.nodeId) dep.node.nodeId)
      node.deps claim.dependencyReceipts
  | ⟨.events id, events⟩ => ∀ sched now claimedAt claim node st,
    Did.claimed sched now claimedAt claim ∈ h → id = sched.run.runId →
    sched.spec.findNode claim.nodeId = some node →
    RunState.replay id sched.spec events = .ok st →
    List.Forall₂ (fun dep => PinnedThrough sched.run (st.node dep.node.nodeId) dep.node.nodeId)
      node.deps claim.dependencyReceipts
  | ⟨.resolve claim spec run st _, r⟩ => ∀ snapshot,
    r = (.ok snapshot : Except (List Blocker) DependencySnapshot) → ClaimStands spec st claim ∧
    ∃ node, spec.findNode claim.nodeId = some node ∧
      List.Forall₂ (Bound s run st) node.deps snapshot.resolved
  | _ => True

/-- When the claim stands, the second resolution finds the receipts it pins. -/
theorem receipts_again {s : Store} {run : GraphRun} {st : RunState} {deps : List Dependency}
    {pins : List ReceiptRef} {resolved : List ResolvedDependency}
    (hpinned : List.Forall₂ (fun dep => PinnedThrough run (st.node dep.node.nodeId) dep.node.nodeId)
      deps pins) (hbound : List.Forall₂ (Bound s run st) deps resolved)
    (hstands : ∀ x ∈ deps.zip pins, ∀ state, st.node x.1.node.nodeId = some state →
      state.status = .accepted → state.receipt = some x.2) : resolved.map (·.receipt) = pins := by
  induction hpinned generalizing resolved with
  | nil =>
    cases hbound
    rfl
  | @cons dep ref deps pins hpin _ ih =>
    cases hbound with
    | cons hd hrest =>
      have hagain := hpin.again (hstands (dep, ref) List.mem_cons_self)
      rw [List.map_cons, ih hrest (fun x hx => hstands x (List.mem_cons_of_mem _ hx)),
        Option.some.inj (hd.chosen.symm.trans hagain)]

section

variable {rt : Runtime} {s s' : Store}

theorem PinnedThrough.extend {run : GraphRun} {id : NodeId} {ref : ReceiptRef} (hx : Extends s s')
    (h : PinnedThrough run (s.nodeState run.runId id) id ref) :
    PinnedThrough run (s'.nodeState run.runId id) id ref := by
  rcases h with ⟨state, hstate, hacc, href⟩ | himport
  · exact Or.inl ⟨state, hx.accepted _ _ state hstate hacc, hacc, href⟩
  · exact Or.inr himport

theorem Did.Resolves.extend (hx : Extends s s') {h : List Did} {x : Did} (hr : Did.Resolves s h x) :
    Did.Resolves s' h x := by
  unfold Did.Resolves at hr ⊢
  split
  · intro claim node hclaim hnode
    exact (hr claim node hclaim hnode).imp (fun dep ref hpin => hpin.extend hx)
  · exact hr
  · intro snapshot hsnapshot
    obtain ⟨hstands, node, hnode, hbound⟩ := hr snapshot hsnapshot
    refine ⟨hstands, node, hnode, hbound.imp ?_⟩
    intro dep d hd
    obtain ⟨r, hstored, hdigest⟩ := hd.digest
    exact ⟨hd.chosen, r, hx.receipt hstored, hdigest⟩
  · trivial

/-- What a claim pins when it is made. -/
theorem Scheduler.claimed_pins {sched : Scheduler} {now : Timestamp} {claimedAt : String}
    {claim : Claim} {node : NodeSpec} (hs : s.Sound) (hbound : s.Bound sched.run sched.spec)
    (h : sched.claimNext rt s now claimedAt = .ok (.claimed claim, s'))
    (hnode : sched.spec.findNode claim.nodeId = some node) :
    List.Forall₂ (fun dep => PinnedThrough sched.run
      (s.nodeState sched.run.runId dep.node.nodeId) dep.node.nodeId)
      node.deps claim.dependencyReceipts := by
  rcases Scheduler.claimNext_ok rt h with ⟨hnone, -⟩ |
    ⟨claim', node', st, state, next, snapshot, hsame, hclaimed⟩
  · exact absurd rfl (hnone claim)
  · cases hsame
    have hid : claim.nodeId = node'.id := congrArg Claim.nodeId hclaimed.claim_eq
    rw [hid, hclaimed.node_mem] at hnode
    cases hnode
    have hpins : claim.dependencyReceipts = snapshot.receiptRefs :=
      congrArg Claim.dependencyReceipts hclaimed.claim_eq
    obtain ⟨x, hx, hresolved⟩ := DependencyService.resolve_ok hclaimed.resolved
    obtain rfl := Option.some.inj (hx.symm.trans hclaimed.node_mem)
    rw [hpins, DependencySnapshot.receiptRefs, List.forall₂_map_right_iff]
    refine hresolved.imp ?_
    intro dep d hd
    rw [hs.nodeState_of_replay hbound.1 hclaimed.replayed]
    exact pinnedThrough_of_receiptFor (DependencyService.resolveOne_receiptFor hd)

end

section

variable {b : Build} {docs : GraphSpec → Prop} {p : Sessions}

/-- The scheduler of a claim is bound to a stored run. -/
theorem Conducted.claimed_bound (hc : Conducted b docs p) {i : Nat} {h : List Did}
    {sched : Scheduler} {now : Timestamp} {claimedAt : String} {claim : Claim}
    (hmade : p.MadeAt i h (Did.claimed sched now claimedAt claim)) :
    p.world.store.Bound sched.run sched.spec := by
  obtain ⟨c, hopened, -⟩ := hc.protocol hmade
  exact hopened.bound (fun y hy => hc.holds_made hmade (List.mem_append_left _ hy))

/-- The log a call reads after its claim shows what the claim pinned. -/
theorem Conducted.events_pinned (hc : Conducted b docs p) {i : Nat} {past before after : List Did}
    {rest : Proc Effect Effect.Answer (Except RunError (List Action))}
    (hi : p.threads[i]? = some ⟨past, rest⟩) {sched : Scheduler} {now : Timestamp}
    {claimedAt : String} {claim : Claim}
    (hpast : past = before ++ Did.claimed sched now claimedAt claim :: after) {node : NodeSpec}
    {st : RunState} (hnode : sched.spec.findNode claim.nodeId = some node)
    (hresolves : Did.Resolves p.world.store before (Did.claimed sched now claimedAt claim))
    (hst : p.world.store.replay sched.run.runId sched.spec = .ok st) :
    List.Forall₂ (fun dep => PinnedThrough sched.run (st.node dep.node.nodeId) dep.node.nodeId)
      node.deps claim.dependencyReceipts := by
  have hbound := hc.claimed_bound ⟨_, hi, after, hpast⟩
  refine (hresolves claim node rfl hnode).imp (fun dep ref hpin => ?_)
  rw [← hc.sound.nodeState_of_replay hbound.1 hst]
  exact hpin

theorem resolves_invariant (hdist : Distinct b.runtime docs) :
    ((sessions b docs).system ClaimsStand).Invariant
      (fun p => ∀ t ∈ p.threads, Along (Did.Resolves p.world.store) t.past) := by
  refine Machine.along_invariant (P := fun w => Did.Resolves w.store)
    (conducted_invariant hdist) ?_ ?_
  · exact fun p m p' hc hstep h x hx => hx.extend (hc.store_extends hstep)
  · intro p i past e k a w hc hi hallowed hperf halong
    cases e with
    | ledger op =>
      cases op with
      | claimNext sched now claimedAt =>
        intro claim node hclaim hnode
        have legal := hc.legal hi
        have hbody := Store.transaction_ok (hperf.1.symm.trans hclaim)
        have hx := (exec_step b.runtime p.world.store legal).extends hc.sound
        rw [hperf.2]
        exact (Scheduler.claimed_pins hc.sound legal hbody hnode).imp
          (fun dep ref hpin => hpin.extend hx)
      | storeGraph | createRun | complete | cancel | reclaim | admitReceipt | applyRetryPolicy
      | openResolveWork | revokeReceipt | admitDecision | appendDecision => trivial
    | events id =>
      obtain ⟨rfl, rfl⟩ := hperf
      rintro sched now claimedAt claim node st hmem rfl hnode hst
      obtain ⟨before, after, hpast⟩ := List.append_of_mem hmem
      exact hc.events_pinned hi hpast hnode
        (halong _ (List.mem_of_getElem? hi) before _ after hpast) hst
    | resolve claim spec run st now =>
      obtain ⟨hresolve, rfl⟩ := hperf
      intro snapshot hsnapshot
      obtain ⟨node, hnode, hresolved⟩ :=
        DependencyService.resolve_ok (hresolve.symm.trans hsnapshot)
      refine ⟨hallowed, node, hnode, hresolved.imp ?_⟩
      intro dep d hd
      obtain ⟨r, _, _, he⟩ := (DependencyService.resolveOne_ok hd).2.2
      exact ⟨DependencyService.resolveOne_receiptFor hd, r, he.stored, he.found⟩
    | run | attempt | clock | observe | makeDir | write | read | currentExe | child => trivial

/-- What a call froze for its claim is over the receipts the claim pins. -/
theorem Freeze.pinned {c : Command} (f : Freeze b c) {s : Store} {past tail : List Did}
    (halong : Along (Did.Resolves s) past) (hpast : past = f.history ++ tail) :
    f.snapshot.receiptRefs = f.claim.dependencyReceipts ∧
      ∀ d ∈ f.snapshot.resolved, ∃ r, s.receipt d.receipt.runId d.receipt.id.text = .ok (some r) ∧
        d.resultDigest = r.resultDigest := by
  rw [hpast] at halong
  have hread : Did.Resolves s (f.before ++ [Did.claimed f.sched c.now f.claimedAt f.claim])
      (Did.eventsRead f.sched.run.runId f.events) :=
    halong _ _ (Did.resolved f.claim f.sched.spec f.sched.run f.st c.now f.snapshot ::
      Did.observed f.claim f.seen :: tail) (by simp [Freeze.history])
  have hresolved : Did.Resolves s (f.before ++ [Did.claimed f.sched c.now f.claimedAt f.claim,
      Did.eventsRead f.sched.run.runId f.events])
      (Did.resolved f.claim f.sched.spec f.sched.run f.st c.now f.snapshot) :=
    halong _ _ (Did.observed f.claim f.seen :: tail) (by simp [Freeze.history])
  have hpinned := hread f.sched c.now f.claimedAt f.claim f.node f.st (by simp) rfl f.node_eq
    f.replayed
  obtain ⟨hstands, node, hnode, hbound⟩ := hresolved f.snapshot rfl
  obtain rfl := Option.some.inj (hnode.symm.trans f.node_eq)
  refine ⟨receipts_again hpinned hbound (hstands f.node f.node_eq), ?_⟩
  intro d hd
  obtain ⟨dep, -, hdep⟩ := forall₂_mem_right hbound hd
  exact hdep.digest

theorem Did.claimed_inj {sched sched' : Scheduler} {now now' : Timestamp} {at₁ at₂ : String}
    {claim claim' : Claim}
    (h : Did.claimed sched now at₁ claim = Did.claimed sched' now' at₂ claim') :
    sched = sched' ∧ claim = claim' := by
  cases h
  exact ⟨rfl, rfl⟩

theorem Did.resolved_inj {claim claim' : Claim} {spec spec' : GraphSpec} {run run' : GraphRun}
    {st st' : RunState} {now now' : Timestamp} {snapshot snapshot' : DependencySnapshot}
    (h : Did.resolved claim spec run st now snapshot =
      Did.resolved claim' spec' run' st' now' snapshot') : snapshot = snapshot' := by
  cases h
  rfl

theorem Did.observed_inj {claim claim' : Claim} {seen seen' : Observed}
    (h : Did.observed claim seen = Did.observed claim' seen') : seen = seen' := by
  cases h
  rfl

/-- What was frozen is determined by the history of the call. -/
theorem Freeze.same {c : Command} {f g : Freeze b c} (hbefore : f.before = g.before)
    (hhistory : f.history = g.history) :
    f.manifest = g.manifest ∧ f.snapshot = g.snapshot ∧ f.claim = g.claim := by
  unfold Freeze.history at hhistory
  rw [hbefore] at hhistory
  obtain ⟨hclaimed, hrest⟩ := List.cons.inj (List.append_cancel_left hhistory)
  obtain ⟨-, hrest⟩ := List.cons.inj hrest
  obtain ⟨hresolved, hrest⟩ := List.cons.inj hrest
  obtain ⟨hobserved, -⟩ := List.cons.inj hrest
  obtain ⟨hsched, hclaim⟩ := Did.claimed_inj hclaimed
  have hsnapshot := Did.resolved_inj hresolved
  have hseen := Did.observed_inj hobserved
  have hnode : f.node = g.node := by
    have hfind := f.node_eq
    rw [hsched, hclaim, g.node_eq] at hfind
    exact (Option.some.inj hfind).symm
  have hmanifest := f.manifest_eq
  rw [hseen, hnode, hclaim, hsnapshot, g.manifest_eq] at hmanifest
  exact ⟨(Except.ok.inj hmanifest).symm, hsnapshot, hclaim⟩

/-! ### Frozen inputs -/

/-- A proofs entry names a receipt: its id, its node and the run it is of. -/
structure NamesReceipt (e : EvidenceRef) (ref : ReceiptRef) : Prop where
  locator : e.locator = "receipt:" ++ ref.id.text
  subject : e.subject = "node:" ++ ref.node.display
  version : e.version = ref.id.text
  producer : e.provenance.producer = "run:" ++ ref.runId.text ∨
    e.provenance.producer = "import:" ++ ref.runId.text

/-- The frozen inputs of an attempt agree with the receipts it pins. -/
structure InputsAgree (rt : Runtime) (p : Sessions) (a : Attempt) : Prop where
  proofs : ∀ run spec node, p.world.store.Stored run spec → run.runId = a.runId →
    spec.findNode a.node.nodeId = some node → ∀ q ∈ node.evidencePorts, q.kind = .proofs →
    ∀ e ∈ a.inputManifest, e.portName = q.name → ∃ ref ∈ a.dependencyReceipts,
      NamesReceipt e ref ∧ ∃ r, p.world.store.receipt ref.runId ref.id.text = .ok (some r) ∧
        e.contentDigest = r.resultDigest
  /-- What every verifier run for the attempt was told. -/
  sent : ∀ i h args request child, p.MadeAt i h (Did.ran args request child) →
    request.attempt = a.attemptRef →
    inputManifestDigest rt a.inputManifest a.dependencyReceipts = .ok request.inputManifestDigest
  /-- What the context of every receipt for the attempt binds. -/
  bound : ∀ r ∈ p.world.store.receipts, r.attempt = a.attemptRef → ∃ context,
    contextDigest rt context = .ok r.contextDigest ∧
    inputManifestDigest rt a.inputManifest a.dependencyReceipts = .ok context.inputManifestDigest

/-- The proofs entries of a manifest name receipts of the snapshot, with their digests. -/
theorem Freeze.proofs {c : Command} (f : Freeze b c) {q : PortSpec} (hq : q ∈ f.node.evidencePorts)
    (hkind : q.kind = .proofs) {e : EvidenceRef} (he : e ∈ f.manifest.references)
    (hport : e.portName = q.name) : ∃ d ∈ f.snapshot.resolved, NamesReceipt e d.receipt ∧
      e.contentDigest = d.resultDigest := by
  obtain ⟨entry, hentry, rfl⟩ := List.mem_map.mp he
  obtain ⟨g, hg⟩ := f.opened.admitted
  have hnode := Graph.admitGraph_checkContract hg (GraphSpec.findNode_mem f.node_eq)
  have hnd := (checkContract_eq_nil.mp hnode).portNames
  obtain ⟨q', hq', hsourced⟩ := Resolver.resolve_sourced hnd f.manifest_eq hentry
  have hname : q'.name = q.name := hsourced.name.symm.trans hport
  obtain rfl := List.inj_on_of_nodup_map hnd hq' hq hname
  cases hsourced with
  | code offer root selection captured bytes hcode => cases hkind.symm.trans hcode
  | log offer root producer path subject version attestation validUntil expected listed bytes
      hlogs =>
    cases hkind.symm.trans hlogs
  | proof d hproofs honly heq =>
    have hd : d ∈ f.snapshot.resolved := List.mem_of_mem_filter (honly ▸ List.mem_singleton_self d)
    refine ⟨d, hd, ?_, by rw [heq]; rfl⟩
    rw [heq]
    refine { locator := rfl, subject := rfl, version := rfl, producer := ?_ }
    cases hprovenance : d.provenance with
    | sameRun => exact Or.inl (by simp [Resolver.proofReference, hprovenance])
    | imported => exact Or.inr (by simp [Resolver.proofReference, hprovenance])

/-- The frozen inputs of a completed attempt, with the thread that sealed it. -/
structure FrozenBy (p : Sessions) (a : Attempt) (c : Command) (f : Freeze b c) (i : Nat)
    (tail : List Did) : Prop extends SealedBy p a c f i tail where
  pins : f.snapshot.receiptRefs = a.dependencyReceipts
  digests : ∀ d ∈ f.snapshot.resolved, ∃ r,
    p.world.store.receipt d.receipt.runId d.receipt.id.text = .ok (some r) ∧
      d.resultDigest = r.resultDigest

theorem SealedBy.frozen (hdist : Distinct b.runtime docs)
    (hp : ((sessions b docs).system ClaimsStand).Reachable p) {a : Attempt} {c : Command}
    {f : Freeze b c} {i : Nat} {tail : List Did} (hsealed : SealedBy p a c f i tail) :
    FrozenBy p a c f i tail := by
  obtain ⟨t, ht, rest, hpast⟩ := hsealed.made
  have halong := resolves_invariant hdist p hp t (List.mem_of_getElem? ht)
  obtain ⟨hpins, hdigests⟩ := f.pinned halong (hpast.trans (List.append_assoc _ _ _))
  obtain ⟨bytes, hover⟩ := hsealed.record
  exact { hsealed with pins := by rw [hover]; exact hpins, digests := hdigests }

/-- The receipts that the proofs entries of a completed attempt name are pinned. -/
theorem FrozenBy.proofs {a : Attempt} {c : Command} {f : Freeze b c} {i : Nat} {tail : List Did}
    (hfrozen : FrozenBy p a c f i tail) (hs : p.world.store.Sound) {run : GraphRun}
    {spec : GraphSpec} {node : NodeSpec} (hstored : p.world.store.Stored run spec)
    (hrun : run.runId = a.runId) (hnode : spec.findNode a.node.nodeId = some node) {q : PortSpec}
    (hq : q ∈ node.evidencePorts) (hkind : q.kind = .proofs) {e : EvidenceRef}
    (he : e ∈ a.inputManifest) (hport : e.portName = q.name) : ∃ ref ∈ a.dependencyReceipts,
      NamesReceipt e ref ∧ ∃ r, p.world.store.receipt ref.runId ref.id.text = .ok (some r) ∧
        e.contentDigest = r.resultDigest := by
  have hkey := hfrozen.key_eq
  simp only [Attempt.key, Claim.key, Prod.mk.injEq] at hkey
  obtain ⟨-, hspec⟩ := hs.stored_unique hstored hfrozen.bound.1
    ((hrun.trans hkey.1).trans hfrozen.run_eq)
  rw [hspec, hkey.2.1, f.node_eq] at hnode
  obtain rfl := Option.some.inj hnode
  obtain ⟨bytes, hover⟩ := hfrozen.record
  have hmanifest : a.inputManifest = f.manifest.references := by rw [hover]; rfl
  rw [hmanifest] at he
  obtain ⟨d, hd, hnames, hdigest⟩ := f.proofs hq hkind he hport
  obtain ⟨r, hr, hresult⟩ := hfrozen.digests d hd
  refine ⟨d.receipt, ?_, hnames, r, hr, hdigest.trans hresult⟩
  rw [← hfrozen.pins]
  exact List.mem_map.mpr ⟨d, hd, rfl⟩

/-- A claim is made once, so the freeze a child was started for is the one sealed. -/
theorem frozen_same (hdist : Distinct b.runtime docs)
    (hp : ((sessions b docs).system ClaimsStand).Reachable p) {a : Attempt}
    (ha : a ∈ p.world.store.attempts) (hdone : a.completed = true) {c : Command} {i : Nat}
    {t : Thread Effect Effect.Answer (Except RunError (List Action))}
    (ht : p.threads[i]? = some t) (hf : Follows b docs c t) (f : Freeze b c) {tail : List Did}
    (hpast : t.past = f.history ++ tail) (hkey : f.claim.key = a.key) :
    a.inputManifest = f.manifest.references ∧
      f.snapshot.receiptRefs = a.dependencyReceipts := by
  have hc := conducted_invariant hdist p hp
  have hclaimed : ∀ {d : Command} (g : Freeze b d) {j tail'} {u : Thread Effect Effect.Answer _},
      p.threads[j]? = some u → u.past = g.history ++ tail' →
      p.MadeAt j g.before (Did.claimed g.sched d.now g.claimedAt g.claim) := by
    intro d g j tail' u hu hpast
    exact ⟨u, hu, _, by rw [hpast, Freeze.history, List.append_assoc]; rfl⟩
  obtain ⟨c', f', j, tail', hsealed⟩ := sealedBy hdist p hp a ha hdone
  obtain ⟨u, hu, rest, hsealedAt⟩ := hsealed.made
  have hkey' : f'.claim.key = a.key := hsealed.key_eq.symm
  obtain ⟨rfl, -, -⟩ := claimed_once hdist p hp j i _ _ _ _ a.key
    (hclaimed f' hu (hsealedAt.trans (List.append_assoc _ _ _))) (hclaimed f ht hpast)
    (congrArg some hkey') (congrArg some hkey)
  -- The same call sealed the attempt: what it froze is seen under its own command.
  obtain rfl := Option.some.inj (hu.symm.trans ht)
  obtain ⟨g, tail'', hgclaim, hg⟩ := hf.sealed_by hc hu hsealedAt hdone
  have hfrozen := hg.frozen hdist hp
  obtain ⟨w, hw, rest', hgpast⟩ := hg.made
  obtain rfl := Option.some.inj (hw.symm.trans hu)
  obtain ⟨-, hbefore, -⟩ := claimed_once hdist p hp j j _ _ _ _ a.key
    (hclaimed f ht hpast) (hclaimed g ht (hgpast.trans (List.append_assoc _ _ _)))
    (congrArg some hkey) (congrArg some hg.key_eq.symm)
  have hlength : f.history.length = g.history.length := by simp [Freeze.history, hbefore]
  have hhistory : f.history = g.history := by
    rw [hpast, List.append_assoc] at hgpast
    exact List.append_inj_left hgpast hlength
  obtain ⟨hmanifest, hsnapshot, -⟩ := Freeze.same hbefore hhistory
  obtain ⟨bytes, hover⟩ := hg.record
  rw [hmanifest, hsnapshot]
  exact ⟨by rw [hover]; rfl, hfrozen.pins⟩

/-- An attempt a call holds is a stored one of the node. -/
theorem Held.stored (hc : Conducted b docs p) {i : Nat} {h : List Did} {x : Did}
    (hmade : p.MadeAt i h x) {run : GraphRun} {node : NodeSpec} {a : Attempt}
    (hheld : Held h run node a) :
    a ∈ p.world.store.attempts ∧ a.runId = run.runId ∧ a.node.nodeId = node.id := by
  have hholds : ∀ y ∈ h, y.Holds p.world.store :=
    fun y hy => hc.holds_made hmade (List.mem_append_left _ hy)
  cases hheld with
  | read number hmem => exact hholds _ hmem a rfl
  | own sched claim hrun hnode hmem =>
    obtain ⟨hrow, hkey⟩ := hholds _ hmem rfl
    obtain ⟨before, after, hsplit⟩ := List.append_of_mem hmem
    obtain ⟨c, hsealing⟩ := hc.protocol (hmade.before hsplit)
    obtain ⟨-, -, claimedAt, hclaimed⟩ := Sealing.claimed hsealing
    have hclaim := (hholds _ (hsplit ▸ List.mem_append_left _ hclaimed) claim rfl).1
    simp only [Attempt.key, Claim.key, Prod.mk.injEq] at hkey
    exact ⟨hrow, by rw [hkey.1, hclaim, hrun], hkey.2.1.trans hnode⟩

/-- Stored attempts with one reference are one attempt. -/
theorem Store.ClaimsOk.attempt_unique {s : Store} (h : s.ClaimsOk) {a d : Attempt}
    (ha : a ∈ s.attempts) (hd : d ∈ s.attempts) (hkey : a.key = d.key) : a = d := by
  have hfind := h.find_attempt ha (hkey.trans rfl)
  rw [h.find_attempt hd rfl] at hfind
  exact (Option.some.inj hfind).symm

/-- What a verifier is told of an attempt is over what the attempt freezes and pins. -/
theorem sent_agrees (hdist : Distinct b.runtime docs)
    (hp : ((sessions b docs).system ClaimsStand).Reachable p) {a : Attempt}
    (ha : a ∈ p.world.store.attempts) (hdone : a.completed = true) {i : Nat} {h : List Did}
    {args : ChildArgs} {request : VerifierRequest} {child : ChildEnd}
    (hmade : p.MadeAt i h (Did.ran args request child))
    (hattempt : request.attempt = a.attemptRef) :
    inputManifestDigest b.runtime a.inputManifest a.dependencyReceipts =
      .ok request.inputManifestDigest := by
  have hc := conducted_invariant hdist p hp
  have hholds : ∀ y ∈ h, y.Holds p.world.store :=
    fun y hy => hc.holds_made hmade (List.mem_append_left _ hy)
  have hstored : ∀ run node d, Held h run node d → d ∈ p.world.store.attempts ∧
      d.runId = run.runId ∧ d.node.nodeId = node.id := fun _ _ _ hheld => hheld.stored hc hmade
  obtain ⟨t, ht, tail, hpast⟩ := hmade
  obtain ⟨c, hf⟩ := hc.follows t (List.mem_of_getElem? ht)
  have hstarting : Starting b c h args request := hf.past h _ tail hpast
  cases hstarting with
  | check f subject profile hsubject history hargs hrequest =>
    subst history
    have hclaimed : Did.claimed f.sched c.now f.claimedAt f.claim ∈ f.history := by
      simp [Freeze.history]
    have hrun := (hholds _ (List.mem_append_left _ hclaimed) f.claim rfl).1
    have hkey : f.claim.key = a.key := by
      rw [hrequest] at hattempt
      have href : (⟨f.sched.run.runId, Controller.nodeRefIn f.sched.run f.node f.claim.nodeId,
        f.claim.number⟩ : AttemptRef) = a.attemptRef := hattempt
      simp only [Attempt.attemptRef, AttemptRef.mk.injEq] at href
      simp only [Claim.key, Attempt.key, hrun, href.1, ← href.2.1, ← href.2.2,
        Controller.nodeRefIn]
    obtain ⟨hmanifest, hpins⟩ := frozen_same hdist hp ha hdone ht hf f
      (hpast.trans (List.append_assoc _ _ _)) hkey
    rw [hmanifest, ← hpins, hrequest]
    exact Resolver.resolve_digest f.manifest_eq
  | verify v history hargs hrequest =>
    subst history
    obtain ⟨hrow, hrun, hnode⟩ := hstored _ _ _ v.held
    have hkey : v.attempt.key = a.key := by
      rw [hrequest] at hattempt
      have href : (⟨v.run.runId, Controller.nodeRefIn v.run v.node v.node.id, v.attempt.number⟩ :
        AttemptRef) = a.attemptRef := hattempt
      simp only [Attempt.attemptRef, AttemptRef.mk.injEq] at href
      simp only [Attempt.key, hrun, hnode, href.1, ← href.2.1, ← href.2.2, Controller.nodeRefIn]
    have hsame := Store.ClaimsOk.attempt_unique (claimsOk_invariant b.runtime _ hc.reachable)
      hrow ha hkey
    rw [hrequest, ← hsame]
    exact v.digest_eq

/-- While no producer that a claim took from an import is accepted before the claim's
evidence is resolved, the frozen inputs of every completed attempt agree with the
receipts it pins. -/
theorem inputs_agree (hdist : Distinct b.runtime docs)
    (hp : ((sessions b docs).system ClaimsStand).Reachable p) {a : Attempt}
    (ha : a ∈ p.world.store.attempts) (hdone : a.completed = true) : InputsAgree b.runtime p a := by
  have hc := conducted_invariant hdist p hp
  obtain ⟨c, f, i, tail, hsealed⟩ := sealedBy hdist p hp a ha hdone
  refine { proofs := ?_, sent := ?_, bound := ?_ }
  · intro run spec node hstored hrun hnode q hq hkind e he hport
    exact (hsealed.frozen hdist hp).proofs hc.sound hstored hrun hnode hq hkind he hport
  · exact fun i h args request child hmade hattempt => sent_agrees hdist hp ha hdone hmade hattempt
  · intro r hr hattempt
    obtain ⟨run, spec, node, d, result, hbound⟩ :=
      (receiptsOk_invariant b.runtime _ hc.reachable).bound r hr
    have hkey : d.key = a.key := by
      rw [hbound.key_eq, VerifierReceipt.key, hattempt]
      rfl
    obtain rfl := Store.ClaimsOk.attempt_unique (claimsOk_invariant b.runtime _ hc.reachable)
      hbound.row ha hkey
    have hcontext := hbound.binds.context
    unfold attemptContextDigest at hcontext
    split at hcontext
    · cases hcontext
    · rename_i manifest hmanifest
      exact ⟨_, hcontext, hmanifest⟩

end

namespace Combined

open Pilot (now one zeroDigest)

/-- The dependencies of a node accepted by now are pinned through that. -/
def pinsAccepted (st : RunState) (claim : Claim) (node : NodeSpec) : Bool :=
  (node.deps.zip claim.dependencyReceipts).all (fun x => (st.node x.1.node.nodeId).all (fun s =>
    s.status ≠ .accepted || s.receipt = some x.2))

/-- No resolution finds an acceptance that the claim did not pin. -/
def stands (_ : Sessions) (_ : Nat) : Did → Bool
  | ⟨.resolve claim spec _ st _, _⟩ => (spec.findNode claim.nodeId).all (pinsAccepted st claim)
  | _ => true

theorem stands_claimsStand (p : Sessions) (i : Nat) (x : Did) (h : stands p i x = true) :
    ClaimsStand p (.act i x) := by
  obtain ⟨e, r⟩ := x
  cases e with
  | resolve claim spec run st now =>
    intro node hnode x hx s hs hacc
    have hall : (spec.findNode claim.nodeId).all (pinsAccepted st claim) = true := h
    rw [hnode] at hall
    have hdep := List.all_eq_true.mp (show pinsAccepted st claim node = true from hall) x hx
    rw [hs] at hdep
    simpa [hacc] using hdep
  | ledger | run | events | attempt | observe | clock | makeDir | write | read | currentExe
  | child => trivial

/-- The patch and its check, one after the other. -/
def inTurn : Sessions := passes stands zeroDigest 1 1 (passes stands zeroDigest 0 0 created)

theorem inTurn_reachable : ((sessions build (· = spec)).system ClaimsStand).Reachable inTurn :=
  passes_reachable (passes_reachable (created_reachable (fun _ _ => trivial)) stands_claimsStand
    (fun _ _ => trivial) _ _ _) stands_claimsStand (fun _ _ => trivial) _ _ _

end Combined

open Combined in
theorem inputs_agree_inTurn : ∃ a ∈ inTurn.world.store.attempts, a.node.nodeId = ciId ∧
    a.inputManifest.length = 2 ∧ InputsAgree build.runtime inTurn a := by
  have hlast : (inTurn.world.store.attempts[1]?).isSome = true := by decide +kernel
  obtain ⟨a, ha⟩ := Option.isSome_iff_exists.mp hlast
  have hall : ∀ d ∈ inTurn.world.store.attempts[1]?, d.node.nodeId = ciId ∧
      d.inputManifest.length = 2 ∧ d.completed = true := by decide +kernel
  obtain ⟨hnode, hlength, hdone⟩ := hall a ha
  have hmem := List.mem_of_getElem? ha
  exact ⟨a, hmem, hnode, hlength, inputs_agree distinct_spec inTurn_reachable hmem hdone⟩

namespace Combined

open Pilot (now one zeroDigest)

/-- An earlier run of the graph, and a run that imports the patch accepted in it. -/
def earlierRunId : RunId := ⟨"run-0000", by decide +kernel⟩

def earlierRun : GraphRun := { run with runId := earlierRunId }

def earlierPatch : ImportedReceipt :=
  { nodeId := patchId, receipt := ⟨⟨"rcpt-cs_patch-1", by decide +kernel⟩, earlierRunId, patchRef⟩
    resultDigest := zeroDigest, resultType := patchType, subject := "candidate", admittedAt := now
    validUntil := none }

def importingRun : GraphRun := { run with admittedImports := [earlierPatch] }

def canonical : Json → List UInt8
  | .null => []
  | _ => [1]

/-- A build whose canonical form tells `null` from other values, and whose decoder knows
one more document: the acceptance of the patch of the earlier run. -/
def importBuild : Build :=
  { build with
    runtime := { build.runtime with jcs := fun j => .ok (canonical j) }
    decoder := { next := fun bytes => match bytes with
      | [2, v] => some (.ok ({ document csPatch (verdictOf v) with
          attempt := ⟨earlierRunId, patchRef, one⟩ }, 2))
      | _ => build.decoder.next bytes } }

/-- A tree whose patch is canonically another one. -/
def editedHost (mark : UInt8) : Host :=
  { host zeroDigest [mark, 1] [mark] with
    seen := { tree zeroDigest with
      capture := fun _ => .ok
        { root := "repo", baseCommit := "b", kind := .workingTree
          commit := "c", result := .bool true, subjectDigest := zeroDigest } } }

def stepOf (run controller : String) : Command :=
  { step with runId := run, ws := { workspace with controller := controller } }

/-- The patch is accepted in the earlier run, and the importing run is created. -/
def imported : Sessions :=
  outside importBuild (.createRun importingRun) (playOn importBuild (host zeroDigest [2, 1] [])
    (fun _ _ _ => true) 0 14 ((outside importBuild (.createRun earlierRun)
      (outside importBuild (.storeGraph spec)
        ⟨{ store := Store.empty, files := fun _ => none }, []⟩)).call
        ((stepOf "run-0000" "ctl-1").call importBuild).run))

/-- One controller seals the patch of the importing run; another, which read the log
before, claims the check through the import; the patch is accepted; the check goes on. -/
def raced : Sessions :=
  let first := fun n p => playOn importBuild (editedHost 0) (fun _ _ _ => true) 1 n p
  let second := fun n p => playOn importBuild (editedHost 1) (fun _ _ _ => true) 2 n p
  second 9 (first 3 (second 1 (first 6 (second 4 ((first 5
    (imported.call ((stepOf "run-0001" "ctl-1").call importBuild).run)).call
      ((stepOf "run-0001" "ctl-2").call importBuild).run)))))

theorem imported_reachable :
    ((sessions importBuild (· = spec)).system (fun _ _ => True)).Reachable imported := by
  have hinit : ((sessions importBuild (· = spec)).system (fun _ _ => True)).Reachable
      ⟨{ store := Store.empty, files := fun _ => none }, []⟩ := .init ⟨rfl, rfl⟩
  have hstored := outside_reachable hinit (.storeGraph spec) trivial rfl trivial
  have hearlier := outside_reachable hstored (.createRun earlierRun) trivial trivial trivial
  have hcalled := call_reachable hearlier (stepOf "run-0000" "ctl-1")
    (fun g hg => (Except.ok.inj hg).symm) trivial
  exact outside_reachable (playOn_reachable hcalled (fun _ _ _ _ => trivial) _ _ _)
    (.createRun importingRun) trivial trivial trivial

theorem raced_reachable :
    ((sessions importBuild (· = spec)).system (fun _ _ => True)).Reachable raced := by
  have hplay : ∀ mark i n p,
      ((sessions importBuild (· = spec)).system (fun _ _ => True)).Reachable p →
      ((sessions importBuild (· = spec)).system (fun _ _ => True)).Reachable
        (playOn importBuild (editedHost mark) (fun _ _ _ => true) i n p) :=
    fun mark i n p hp => playOn_reachable hp (fun _ _ _ _ => trivial) _ _ _
  have hcall : ∀ controller p,
      ((sessions importBuild (· = spec)).system (fun _ _ => True)).Reachable p →
      ((sessions importBuild (· = spec)).system (fun _ _ => True)).Reachable
        (p.call ((stepOf "run-0001" controller).call importBuild).run) :=
    fun controller p hp => call_reachable hp _ (fun g hg => (Except.ok.inj hg).symm) trivial
  exact hplay _ _ _ _ (hplay _ _ _ _ (hplay _ _ _ _ (hplay _ _ _ _ (hplay _ _ _ _ (hcall _ _
    (hplay _ _ _ _ (hcall _ _ imported_reachable)))))))

end Combined

open Combined in
/-- An attempt is sealed over a patch that was accepted after the claim pinned the import. -/
theorem inputs_agree_raced : ∃ p,
    ((sessions importBuild (· = spec)).system (fun _ _ => True)).Reachable p ∧
    ∃ a ∈ p.world.store.attempts, a.completed = true ∧ ¬ InputsAgree importBuild.runtime p a := by
  have hlast : (raced.world.store.attempts[2]?).isSome = true := by decide +kernel
  obtain ⟨a, ha⟩ := Option.isSome_iff_exists.mp hlast
  have hall : ∀ d ∈ raced.world.store.attempts[2]?, d.runId = importingRun.runId ∧
      d.node.nodeId = ciId ∧ d.completed = true ∧
      (∀ ref ∈ d.dependencyReceipts, ref.runId = earlierRunId) ∧
      ∃ e ∈ d.inputManifest, e.portName = patchProof ∧ e.contentDigest = otherDigest := by
    decide +kernel
  obtain ⟨hrun, hnode, hdone, hpins, e, he, hport, hdigest⟩ := hall a ha
  refine ⟨raced, raced_reachable, a, List.mem_of_getElem? ha, hdone, ?_⟩
  intro hagree
  obtain ⟨ref, href, -, r, hr, hsame⟩ := hagree.proofs importingRun spec csCi
    ⟨by decide +kernel, by decide +kernel⟩ hrun.symm (by rw [hnode]; decide +kernel) proofPort
    (List.mem_cons_of_mem _ (List.mem_singleton_self _)) rfl e he hport
  have hreceipts : ∀ r ∈ raced.world.store.receipts, r.attempt.runId = earlierRunId →
      r.resultDigest ≠ otherDigest := by decide +kernel
  obtain ⟨hfind, -⟩ := Store.readOptional_some hr
  have hfound := List.find?_some hfind
  simp only [decide_eq_true_eq] at hfound
  exact hreceipts r (List.mem_of_find?_eq_some hfind) (hfound.1.trans (hpins ref href))
    (hsame.symm.trans hdigest)

end Checkspan
