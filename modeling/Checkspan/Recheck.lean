import Checkspan.Prerequisites
import Checkspan.Decisions

/-!
# Dispatch and the recheck before acceptance

Resolution finds a dependency's receipt through the replayed state or the admitted
imports; the recheck finds it among the pinned references by the node each one
names. What the two have to agree on, and what the recheck no longer sees.
-/

namespace Checkspan

open Transition

namespace DependencyService

variable {svc : DependencyService}

/-! ### One resolved dependency -/

variable (svc) in
/-- The branch of `resolve_one` that bound a dependency. -/
inductive Resolves (dep : Dependency) (r : ResolvedDependency) : Prop
  | sameRun (s : NodeState) (accepted : svc.acceptedState dep.node.nodeId = some s)
      (receipt : s.receipt = some r.receipt) (provenance : r.provenance = .sameRun)
      (admissible : svc.admissible r.receipt dep.node dep.expectedType none = .ok r.resultDigest)
  | imported (i : ImportedReceipt) (open_ : svc.acceptedState dep.node.nodeId = none)
      (found : svc.importFor dep.node.nodeId = some i) (receipt : i.receipt = r.receipt)
      (provenance : r.provenance = .imported) (fresh : svc.expiredAt i.validUntil = none)
      (type_eq : i.resultType = dep.expectedType)
      (admissible : svc.admissible r.receipt dep.node dep.expectedType (some i.resultDigest) =
        .ok r.resultDigest)

theorem resolveOne_resolves {dep : Dependency} {r : ResolvedDependency}
    (h : svc.resolveOne dep = .ok r) : r.dependency = dep ∧ svc.Resolves dep r := by
  unfold resolveOne at h
  obtain ⟨_, -, h⟩ := bind_ok h
  split at h
  · rename_i s hs
    unfold resolveSameRun at h
    obtain ⟨receipt, hreceipt, h⟩ := bind_ok h
    obtain ⟨digest, hdigest, h⟩ := bind_ok h
    cases h
    exact ⟨rfl, .sameRun s hs (someOr_ok hreceipt) rfl hdigest⟩
  · rename_i hnone
    split at h
    · rename_i i hi
      unfold resolveImport at h
      obtain ⟨_, hfresh, h⟩ := bind_ok h
      obtain ⟨_, htype, h⟩ := bind_ok h
      obtain ⟨digest, hdigest, h⟩ := bind_ok h
      cases h
      exact ⟨rfl, .imported i hnone hi rfl rfl (checkFresh_eq_ok.mp hfresh)
        (by simpa using guardOk_ok htype) hdigest⟩
    · cases h

theorem Resolves.digest {dep : Dependency} {r : ResolvedDependency} (h : svc.Resolves dep r) :
    svc.admissible r.receipt dep.node dep.expectedType (some r.resultDigest) =
      .ok r.resultDigest := by
  have husable : ∃ receipt attempt result, svc.Usable r.receipt dep.node dep.expectedType
      r.resultDigest receipt attempt result := by
    cases h with
    | sameRun s accepted receipt provenance hadm => exact (admissible_eq_ok.mp hadm).1
    | imported i open_ found receipt provenance fresh type_eq hadm =>
      exact (admissible_eq_ok.mp hadm).1
  exact admissible_eq_ok.mpr ⟨husable, fun d hd => (Option.some.inj hd).symm⟩

theorem admissible_none {ref : ReceiptRef} {node : NodeRef} {type : TypeRef}
    {expected : Option Digest} {digest : Digest}
    (h : svc.admissible ref node type expected = .ok digest) :
    svc.admissible ref node type none = .ok digest :=
  admissible_eq_ok.mpr ⟨(admissible_eq_ok.mp h).1, fun _ hd => nomatch hd⟩

/-- A snapshot holds the node's declared dependencies in order, each bound. -/
theorem resolve_resolved {id : NodeId} {snapshot : DependencySnapshot}
    (h : svc.resolve id = .ok snapshot) :
    ∃ node, svc.spec.findNode id = some node ∧
      snapshot.resolved.map (·.dependency) = node.deps ∧
      ∀ r ∈ snapshot.resolved, svc.Resolves r.dependency r := by
  obtain ⟨node, hnode, hresolved⟩ := resolve_ok h
  refine ⟨node, hnode, ?_, ?_⟩
  · have hdeps : List.Forall₂ (fun dep (r : ResolvedDependency) => dep = r.dependency) node.deps
        snapshot.resolved :=
      hresolved.imp (fun dep r hr => (resolveOne_resolves hr).1.symm)
    rw [← List.forall₂_map_right_iff (f := fun r : ResolvedDependency => r.dependency),
      List.forall₂_eq_eq_eq] at hdeps
    exact hdeps.symm
  · intro r hr
    obtain ⟨dep, -, hone⟩ := forall₂_mem_right hresolved hr
    obtain ⟨hdep, hres⟩ := resolveOne_resolves hone
    rw [hdep]
    exact hres

/-! ### Matching by node and matching by position -/

section

variable {id : NodeId} {node : NodeSpec} {resolved : List ResolvedDependency}

/-- Each pinned reference names the node of the dependency it was resolved for. -/
def Named (resolved : List ResolvedDependency) : Prop :=
  ∀ r ∈ resolved, r.receipt.node = r.dependency.node

theorem find_named (hdistinct : (resolved.map (fun r => r.dependency.node)).Nodup)
    (hnamed : Named resolved) {r : ResolvedDependency} (hr : r ∈ resolved) :
    (resolved.map (·.receipt)).find? (fun q => q.node = r.dependency.node) = some r.receipt := by
  rw [List.find?_map]
  cases hfind : resolved.find? ((fun q : ReceiptRef => decide (q.node = r.dependency.node)) ∘
      fun r => r.receipt) with
  | none =>
    rw [List.find?_eq_none] at hfind
    exact absurd (by simpa using hnamed r hr) (hfind r hr)
  | some x =>
    have hx := List.find?_some hfind
    simp only [Function.comp_apply, decide_eq_true_eq] at hx
    have hmem := List.mem_of_find?_eq_some hfind
    rw [hnamed x hmem] at hx
    rw [List.inj_on_of_nodup_map hdistinct hmem hr hx]
    rfl

theorem used_named (hdeps : resolved.map (·.dependency) = node.deps)
    (hdistinct : (resolved.map (fun r => r.dependency.node)).Nodup) (hnamed : Named resolved)
    {i : Nat} (hi : i < resolved.length) :
    isUsed node.deps (resolved.map (·.receipt)) i = true := by
  unfold isUsed
  rw [List.any_eq_true]
  refine ⟨resolved[i].dependency, ?_, ?_⟩
  · rw [← hdeps]
    exact List.mem_map.mpr ⟨_, List.getElem_mem hi, rfl⟩
  · rw [decide_eq_true_eq, List.findIdx?_eq_some_iff_getElem]
    refine ⟨by simpa using hi, ?_, ?_⟩
    · simpa using hnamed _ (List.getElem_mem hi)
    · intro j hj
      have hjlt : j < resolved.length := by omega
      have hne : resolved[j].dependency.node ≠ resolved[i].dependency.node := by
        intro heq
        have hjlt' : j < (resolved.map (fun r => r.dependency.node)).length := by simpa using hjlt
        have hi' : i < (resolved.map (fun r => r.dependency.node)).length := by simpa using hi
        have hmap : (resolved.map (fun r => r.dependency.node))[j] =
            (resolved.map (fun r => r.dependency.node))[i] := by
          simpa using heq
        have hji := (List.getElem_inj hdistinct).mp hmap
        omega
      have hname := hnamed _ (List.getElem_mem hjlt)
      simpa [hname] using hne

/-- References that name their dependencies' nodes pass the recheck while they are
admissible. -/
theorem recheckRefs_of_named (hnode : svc.spec.findNode id = some node)
    (hdeps : resolved.map (·.dependency) = node.deps)
    (hdistinct : (resolved.map (fun r => r.dependency.node)).Nodup) (hnamed : Named resolved)
    (hadm : ∀ r ∈ resolved, ∃ digest, svc.admissible r.receipt r.dependency.node
      r.dependency.expectedType none = .ok digest) :
    svc.recheckRefs id (resolved.map (·.receipt)) = .ok () := by
  rw [recheckRefs_eq_ok]
  refine ⟨node, hnode, ?_, ?_⟩
  · intro dep hdep
    rw [← hdeps] at hdep
    obtain ⟨r, hr, rfl⟩ := List.mem_map.mp hdep
    obtain ⟨digest, hdigest⟩ := hadm r hr
    exact ⟨r.receipt, digest, find_named hdistinct hnamed hr, hdigest⟩
  · intro i hi
    exact used_named hdeps hdistinct hnamed (by simpa using hi)

variable (svc) in
/-- References with evidence that pass the recheck name their dependencies' nodes,
and each is admissible for its own dependency. -/
theorem recheckRefs_named (hnode : svc.spec.findNode id = some node)
    (hdeps : resolved.map (·.dependency) = node.deps)
    (hdistinct : (resolved.map (fun r => r.dependency.node)).Nodup)
    (hevidence : ∀ r ∈ resolved, ∃ digest,
      Admissible svc.store r.receipt r.dependency.node r.dependency.expectedType digest)
    (h : svc.recheckRefs id (resolved.map (·.receipt)) = .ok ()) :
    ∀ r ∈ resolved, r.receipt.node = r.dependency.node ∧ ∃ digest, svc.admissible r.receipt
      r.dependency.node r.dependency.expectedType none = .ok digest := by
  intro r hr
  obtain ⟨node', hnode', hcovered, -⟩ := recheckRefs_eq_ok.mp h
  obtain rfl : node' = node := Option.some.inj (hnode'.symm.trans hnode)
  have hdep : r.dependency ∈ node'.deps := hdeps ▸ List.mem_map.mpr ⟨r, hr, rfl⟩
  obtain ⟨ref, digest, hfind, hdigest⟩ := hcovered r.dependency hdep
  obtain ⟨x, hx, rfl⟩ := List.mem_map.mp (List.mem_of_find?_eq_some hfind)
  have hname : x.receipt.node = r.dependency.node := by simpa using List.find?_some hfind
  -- the stored receipt behind a reference is about one node
  obtain ⟨d, hd⟩ := hevidence x hx
  have hsame : x.dependency.node = r.dependency.node := hd.node_unique (admissible_ok hdigest)
  obtain rfl := List.inj_on_of_nodup_map hdistinct hx hr hsame
  exact ⟨hname, digest, hdigest⟩

end

theorem deps_distinct {spec : GraphSpec} {g : AdmittedGraph} (h : Graph.admitGraph spec = .ok g)
    {id : NodeId} {node : NodeSpec} (hnode : spec.findNode id = some node)
    {resolved : List ResolvedDependency} (hdeps : resolved.map (·.dependency) = node.deps) :
    (resolved.map (fun r => r.dependency.node)).Nodup := by
  have hnodup := NodeSpec.deps_nodup_of_checkContract node
    (Graph.admitGraph_checkContract h (GraphSpec.findNode_mem hnode))
  have hmap : (node.deps.map (·.node)).Nodup :=
    (List.Nodup.of_map _ hnodup).map_on (fun a ha b hb heq => deps_unique h hnode ha hb heq)
  rw [← hdeps, List.map_map] at hmap
  exact hmap

end DependencyService

/-! ### What dispatch pins -/

theorem NodeState.Step.receipt_kept {s s' : NodeState} {e : NodeEvent} (h : Step s e s')
    {ref : ReceiptRef} (hr : s'.receipt = some ref) :
    (∃ k v, e = .receiptAdmitted k ref v) ∨ s.receipt = some ref := by
  cases h with
  | decide k r v hs hk hc =>
    cases v with
    | accept =>
      cases hr
      exact Or.inl ⟨k, .accept, rfl⟩
    | reject =>
      cases hr
      exact Or.inl ⟨k, .reject, rfl⟩
    | undecidable => cases hr
  | dispatch k hs hk => cases hr
  | finish k o d hs hk hc => cases o <;> exact Or.inr hr
  | retry hs => cases hr
  | gate p hs => cases hr
  | packet p hs hw => exact Or.inr hr
  | route p d hs hw => cases d <;> cases hr
  | cancelOpen hs => exact Or.inr hr
  | cancelRunning hs => exact Or.inr hr
  | cancelStopped hs => exact Or.inr hr

/-- A replayed receipt names the graph's reference of its node. -/
theorem RunState.replay_receipt {run : RunId} {spec : GraphSpec} {events : List StoredEvent}
    {st : RunState} (h : RunState.replay run spec events = .ok st) {id : NodeId}
    {state : NodeState} {ref : ReceiptRef} (hs : st.node id = some state)
    (hr : state.receipt = some ref) : spec.nodeRef id = some ref.node := by
  refine (RunState.replayFrom_induction (P := fun st => st.nodes = spec.nodeRef ∧
    ∀ id state ref, st.node id = some state → state.receipt = some ref →
      spec.nodeRef id = some ref.node) h ⟨rfl, ?_⟩ ?_).2 id state ref hs hr
  · intro id state ref hs hr
    simp only [RunState.new, RunState.node, Option.map_eq_some_iff] at hs
    obtain ⟨_, _, rfl⟩ := hs
    cases hr
  · rintro a b e ⟨hnodes, ha⟩ hab
    rcases RunState.applyStored_ok hab with ⟨_, rfl⟩ | ⟨i, node, ev, old, new, _, hnode, hdec, hold,
      hap, rfl⟩
    · exact ⟨hnodes, ha⟩
    · refine ⟨hnodes, ?_⟩
      intro j x ref hx hr
      by_cases hj : j = i
      · subst hj
        rw [RunState.node_insert_self] at hx
        obtain rfl := Option.some.inj hx
        rcases (NodeState.apply_step hap).receipt_kept hr with ⟨k, v, rfl⟩ | hkept
        · obtain ⟨-, -, -, href, -⟩ := NodeEvent.fromStored_ok hdec
          rw [← hnodes, hnode, href]
        · exact ha j old ref hold hkept
      · rw [RunState.node_insert_other a new hj] at hx
        exact ha j x ref hx hr

namespace DependencyService

variable {svc : DependencyService}

variable (svc) in
/-- The import a dependency resolves through, if it does, names the dependency's
node in its receipt reference. -/
def ImportNamed (dep : Dependency) : Prop :=
  svc.acceptedState dep.node.nodeId = none →
    ∀ i, svc.importFor dep.node.nodeId = some i → i.receipt.node = dep.node

/-- A dependency's producer has exactly the reference it names. -/
theorem nodeRef_of_cleanDep {spec : GraphSpec} {g : AdmittedGraph}
    (h : Graph.admitGraph spec = .ok g) {node : NodeSpec} (hn : node ∈ spec.nodes)
    {dep : Dependency} (hd : dep ∈ node.deps) : spec.nodeRef dep.node.nodeId = some dep.node := by
  have hclean := Graph.admitGraph_cleanDep h hn hd
  obtain ⟨p, hp, hid, hrev, -, -⟩ := hclean.producer
  have hfind := Graph.findNode_of_mem h hp
  rw [hid] at hfind
  rw [GraphSpec.nodeRef, hfind, Option.map_some, GraphSpec.refOf, hid, hrev, ← hclean.inGraph]

theorem named_iff {g : AdmittedGraph} (hg : Graph.admitGraph svc.spec = .ok g)
    {events : List StoredEvent}
    (hst : RunState.replay svc.run.runId svc.spec events = .ok svc.state) {id : NodeId}
    {node : NodeSpec} (hnode : svc.spec.findNode id = some node)
    {resolved : List ResolvedDependency} (hdeps : resolved.map (·.dependency) = node.deps)
    (hres : ∀ r ∈ resolved, svc.Resolves r.dependency r) :
    Named resolved ↔ ∀ dep ∈ node.deps, svc.ImportNamed dep := by
  constructor
  · intro hnamed dep hdep hopen i hi
    rw [← hdeps] at hdep
    obtain ⟨r, hr, rfl⟩ := List.mem_map.mp hdep
    cases hres r hr with
    | sameRun s accepted receipt provenance hadm =>
      rw [hopen] at accepted
      cases accepted
    | imported j open_ found receipt provenance fresh type_eq hadm =>
      obtain rfl := Option.some.inj (hi.symm.trans found)
      rw [receipt]
      exact hnamed r hr
  · intro himports r hr
    have hdep : r.dependency ∈ node.deps := hdeps ▸ List.mem_map.mpr ⟨r, hr, rfl⟩
    cases hres r hr with
    | sameRun s accepted receipt provenance hadm =>
      unfold acceptedState at accepted
      rw [Option.filter_eq_some_iff] at accepted
      have hname := RunState.replay_receipt hst accepted.1 receipt
      rw [nodeRef_of_cleanDep hg (GraphSpec.findNode_mem hnode) hdep] at hname
      exact (Option.some.inj hname).symm
    | imported i open_ found receipt provenance fresh type_eq hadm =>
      rw [← receipt]
      exact himports r.dependency hdep open_ i found

end DependencyService

open DependencyService in
/-- What resolution pins passes both rechecks at once exactly when every import it
resolved through names the dependency's node. -/
theorem resolve_rechecked_iff {svc : DependencyService} {g : AdmittedGraph}
    (hg : Graph.admitGraph svc.spec = .ok g) {events : List StoredEvent}
    (hst : RunState.replay svc.run.runId svc.spec events = .ok svc.state) {id : NodeId}
    {snapshot : DependencySnapshot} (h : svc.resolve id = .ok snapshot) {node : NodeSpec}
    (hnode : svc.spec.findNode id = some node) :
    (svc.recheck snapshot = .ok () ∧ svc.recheckRefs id snapshot.receiptRefs = .ok ()) ↔
      ∀ dep ∈ node.deps, svc.ImportNamed dep := by
  obtain ⟨node', hnode', hdeps, hres⟩ := resolve_resolved h
  obtain rfl : node' = node := Option.some.inj (hnode'.symm.trans hnode)
  have hdistinct := deps_distinct hg hnode hdeps
  rw [← named_iff hg hst hnode hdeps hres]
  constructor
  · rintro ⟨-, hrefs⟩ r hr
    have hevidence : ∀ r ∈ snapshot.resolved, ∃ digest,
        Admissible svc.store r.receipt r.dependency.node r.dependency.expectedType digest :=
      fun r hr => ⟨r.resultDigest, admissible_ok (hres r hr).digest⟩
    exact (recheckRefs_named svc hnode hdeps hdistinct hevidence hrefs r hr).1
  · intro hnamed
    refine ⟨recheck_eq_ok.mpr (fun r hr => (hres r hr).digest), ?_⟩
    exact recheckRefs_of_named hnode hdeps hdistinct hnamed
      (fun r hr => ⟨r.resultDigest, admissible_none (hres r hr).digest⟩)

namespace Pilot

/-- A second run that imports the accepted patch, with the node the import's
reference names. -/
def importOf (node : NodeRef) : ImportedReceipt :=
  { nodeId := patchId, receipt := ⟨patchReceipt.id, runId, node⟩, resultDigest := zeroDigest
    resultType := resultType, subject := "candidate", admittedAt := now, validUntil := none }

def importingRun (i : ImportedReceipt) : GraphRun :=
  { run with runId := laterRunId, admittedImports := [i] }

def importing (i : ImportedReceipt) : Store :=
  ((LedgerOp.createRun (importingRun i)).exec runtime patchAccepted).2

theorem importing_reachable (i : ImportedReceipt) : (legalLedger runtime).Reachable (importing i) :=
  .step (a := .createRun (importingRun i)) patchAccepted_reachable ⟨trivial, rfl⟩

def serviceOf (i : ImportedReceipt)
    (h : ((importing i).replay (importingRun i).runId spec).isOk = true) : DependencyService :=
  { spec := spec, run := importingRun i, state := get _ h, store := importing i, now := now }

theorem serviceOf_replay (i : ImportedReceipt)
    (h : ((importing i).replay (importingRun i).runId spec).isOk = true) :
    (importing i).replay (importingRun i).runId spec = .ok (serviceOf i h).state := get_eq h

/-- The patch at a revision the graph does not have. -/
def otherRevision : NodeRef := ⟨graphId, patchId, two⟩

def named : DependencyService := serviceOf (importOf patchRef) (by decide +kernel)
def misnamed : DependencyService := serviceOf (importOf otherRevision) (by decide +kernel)

theorem spec_admitted : Graph.admitGraph spec = .ok scheduler.graph := by
  have h := scheduler.admitted
  rw [scheduler_eq.2] at h
  exact h

end Pilot

open Pilot in
theorem resolve_rechecked_named :
    ∃ snapshot, named.resolve checkId = .ok snapshot ∧ named.recheck snapshot = .ok () ∧
      named.recheckRefs checkId snapshot.receiptRefs = .ok () := by
  have h := get_eq (x := named.resolve checkId) (by decide +kernel)
  have hst : RunState.replay named.run.runId named.spec
      (named.store.eventsOf named.run.runId) = .ok named.state :=
    serviceOf_replay (importOf patchRef) (by decide +kernel)
  have hg : Graph.admitGraph named.spec = .ok scheduler.graph := spec_admitted
  have hnode : named.spec.findNode checkId = some check := by decide +kernel
  refine ⟨_, h, (resolve_rechecked_iff hg hst h hnode).mpr ?_⟩
  intro dep hdep _ i hi
  obtain rfl := List.mem_singleton.mp hdep
  have himport : named.importFor patchId = some (importOf patchRef) := by decide +kernel
  obtain rfl := Option.some.inj (himport.symm.trans hi)
  rfl

open Pilot in
/-- An import whose reference names another revision resolves, and the pinned
reference fails the recheck in the same ledger at the same moment. -/
theorem resolve_not_rechecked :
    (legalLedger runtime).Reachable misnamed.store ∧
      misnamed.store.Bound misnamed.run misnamed.spec ∧
      misnamed.store.replay misnamed.run.runId misnamed.spec = .ok misnamed.state ∧
      ∃ snapshot, misnamed.resolve checkId = .ok snapshot ∧ misnamed.recheck snapshot = .ok () ∧
        misnamed.recheckRefs checkId snapshot.receiptRefs ≠ .ok () := by
  have hbound : misnamed.store.Bound misnamed.run misnamed.spec :=
    ⟨⟨by decide +kernel, by decide +kernel⟩, _, spec_admitted⟩
  refine ⟨importing_reachable _, hbound,
    serviceOf_replay (importOf otherRevision) (by decide +kernel), _,
    get_eq (x := misnamed.resolve checkId) (by decide +kernel), by decide +kernel, ?_⟩
  decide +kernel

/-! ### From dispatch to acceptance -/

section

variable {rt : Runtime}

/-- The store only grows along a run. -/
theorem run_extends {s t : Store} {ops : List LedgerOp} (hrun : (legalLedger rt).Run s ops t)
    (hs : (legalLedger rt).Reachable s) : Extends s t := by
  refine hrun.related hs Extends.refl (fun _ _ _ => Extends.trans) ?_
  rintro x op y hx ⟨legal, rfl⟩
  exact (exec_step rt x legal).extends (sound_invariant rt x hx)

/-- A claim keeps its key and what it pins along a run. -/
theorem run_claim_kept {s t : Store} {ops : List LedgerOp} (hrun : (legalLedger rt).Run s ops t)
    (hs : (legalLedger rt).Reachable s) : ∀ row ∈ s.claims, ∃ row' ∈ t.claims,
      row'.key = row.key ∧ row'.dependencyReceipts = row.dependencyReceipts := by
  refine hrun.related (R := fun s t => ∀ row ∈ s.claims, ∃ row' ∈ t.claims,
    row'.key = row.key ∧ row'.dependencyReceipts = row.dependencyReceipts) hs ?_ ?_ ?_
  · intro x row hrow
    exact ⟨row, hrow, rfl, rfl⟩
  · intro x y z hxy hyz row hrow
    obtain ⟨row', hrow', hkey, hrefs⟩ := hxy row hrow
    obtain ⟨row'', hrow'', hkey', hrefs'⟩ := hyz row' hrow'
    exact ⟨row'', hrow'', hkey'.trans hkey, hrefs'.trans hrefs⟩
  · rintro x op y hx ⟨legal, rfl⟩ row hrow
    obtain ⟨row', hrow', hissued⟩ := (exec_step rt x legal).claim_kept hrow
    exact ⟨row', hrow', ClaimRow.key_of_issued hissued, ClaimRow.pins_of_issued hissued⟩

/-- A sealed attempt carries what its claim pinned. -/
theorem sealed_pins {s : Store} (hs : (legalLedger rt).Reachable s) {a : Attempt}
    (ha : a ∈ s.attempts) {row : ClaimRow} (hrow : row ∈ s.claims) (hkey : row.key = a.key) :
    a.dependencyReceipts = row.dependencyReceipts := by
  obtain ⟨row', hrow', hkey', hrefs⟩ := (prerequisitesOk_invariant rt s hs).attempts a ha
  rw [← hrefs, (claimsOk_invariant rt s hs).key_unique hrow' hrow (hkey'.trans hkey.symm)]

end

namespace DependencyService

variable {svc : DependencyService}

variable (svc) in
/-- A pinned dependency passes every check of the branch of `resolve_one` that
bound it. -/
def StillResolves (r : ResolvedDependency) : Prop :=
  match r.provenance with
  | .sameRun => ∃ s, svc.acceptedState r.dependency.node.nodeId = some s ∧
      svc.resolveSameRun r.dependency s = .ok r
  | .imported => ∃ i, svc.importFor r.dependency.node.nodeId = some i ∧
      svc.resolveImport r.dependency i = .ok r

variable (svc) in
/-- The import a dependency was resolved through has not expired. -/
def ImportFresh (r : ResolvedDependency) : Prop :=
  r.provenance = .imported → ∀ i, svc.importFor r.dependency.node.nodeId = some i →
    svc.expiredAt i.validUntil = none

theorem resolveSameRun_eq_ok {dep : Dependency} {s : NodeState} {r : ResolvedDependency} :
    svc.resolveSameRun dep s = .ok r ↔ r.dependency = dep ∧ r.provenance = .sameRun ∧
      s.receipt = some r.receipt ∧
      svc.admissible r.receipt dep.node dep.expectedType none = .ok r.resultDigest := by
  unfold resolveSameRun
  simp only [bind_eq_ok, someOr_eq_ok, Except.ok.injEq]
  constructor
  · rintro ⟨receipt, hreceipt, digest, hdigest, rfl⟩
    exact ⟨rfl, rfl, hreceipt, hdigest⟩
  · obtain ⟨dependency, receipt, provenance, digest⟩ := r
    rintro ⟨rfl, rfl, hreceipt, hdigest⟩
    exact ⟨receipt, hreceipt, digest, hdigest, rfl⟩

theorem resolveImport_eq_ok {dep : Dependency} {i : ImportedReceipt} {r : ResolvedDependency} :
    svc.resolveImport dep i = .ok r ↔ r.dependency = dep ∧ r.provenance = .imported ∧
      i.receipt = r.receipt ∧ svc.expiredAt i.validUntil = none ∧
      i.resultType = dep.expectedType ∧
      svc.admissible r.receipt dep.node dep.expectedType (some i.resultDigest) =
        .ok r.resultDigest := by
  unfold resolveImport
  simp only [bind_eq_ok, guardOk_eq_ok, decide_eq_true_eq, checkFresh_eq_ok, Except.ok.injEq]
  constructor
  · rintro ⟨_, hfresh, _, htype, digest, hdigest, rfl⟩
    exact ⟨rfl, rfl, rfl, hfresh, htype, hdigest⟩
  · obtain ⟨dependency, receipt, provenance, digest⟩ := r
    rintro ⟨rfl, rfl, rfl, hfresh, htype, hdigest⟩
    exact ⟨(), hfresh, (), htype, digest, hdigest, rfl⟩

/-- Stored evidence gives one digest. -/
theorem Admissible.digest_unique {s : Store} {ref : ReceiptRef} {a b : NodeRef} {x y : TypeRef}
    {d e : Digest} (hd : Admissible s ref a x d) (he : Admissible s ref b y e) : d = e := by
  obtain ⟨r, _, _, hr⟩ := hd
  obtain ⟨q, _, _, hq⟩ := he
  have hsame : r = q := by
    have h := hr.stored.symm.trans hq.stored
    simpa using h
  rw [hr.found, hq.found, hsame]

variable (svc) in
/-- A dependency resolved before, over a store that has grown since: while its
receipt is admissible, only the import's own expiry is left to check. -/
theorem stillResolves_iff (svc₀ : DependencyService) (hrun : svc.run = svc₀.run)
    (hx : Extends svc₀.store svc.store)
    (haccepted : ∀ id s, svc₀.acceptedState id = some s → svc.acceptedState id = some s)
    {r : ResolvedDependency} (hres : svc₀.Resolves r.dependency r) {digest : Digest}
    (hadm : svc.admissible r.receipt r.dependency.node r.dependency.expectedType none =
      .ok digest) : svc.StillResolves r ↔ svc.ImportFresh r := by
  have himport : ∀ id, svc.importFor id = svc₀.importFor id := by
    intro id
    unfold importFor
    rw [hrun]
  have hsame : digest = r.resultDigest :=
    (admissible_ok hadm).digest_unique (hx.admissible (admissible_ok hres.digest))
  rw [hsame] at hadm
  unfold StillResolves ImportFresh
  cases hres with
  | sameRun s accepted receipt provenance hadm₀ =>
    simp only [provenance]
    refine iff_of_true ⟨s, haccepted _ s accepted, ?_⟩ (fun h => nomatch h)
    exact resolveSameRun_eq_ok.mpr ⟨rfl, provenance, receipt, hadm⟩
  | imported i open_ found receipt provenance fresh type_eq hadm₀ =>
    simp only [provenance, himport, found, Option.some.injEq, forall_eq', exists_eq_left',
      forall_const]
    rw [resolveImport_eq_ok]
    constructor
    · rintro ⟨-, -, -, hfresh, -⟩
      exact hfresh
    · intro hfresh
      refine ⟨rfl, provenance, receipt, hfresh, type_eq, ?_⟩
      exact admissible_eq_ok.mpr ⟨(admissible_eq_ok.mp hadm).1, (admissible_eq_ok.mp hadm₀).2⟩

end DependencyService

/-- A store replays a stored run to the node states it is read by. -/
theorem acceptedState_extends {s s' : Store} (hs : s.Sound) (hs' : s'.Sound)
    (hx : Extends s s') {svc svc' : DependencyService} {r : GraphRun} {spec : GraphSpec}
    (hstored : s.Stored r spec) (hst : s.replay r.runId spec = .ok svc.state)
    (hst' : s'.replay r.runId spec = .ok svc'.state) {id : NodeId} {state : NodeState}
    (h : svc.acceptedState id = some state) : svc'.acceptedState id = some state := by
  unfold DependencyService.acceptedState at h ⊢
  rw [Option.filter_eq_some_iff, decide_eq_true_eq] at h ⊢
  have hnode := (hs.nodeState_of_replay hstored hst id).trans h.1
  have hkept := hx.accepted r.runId id state hnode h.2
  rw [hs'.nodeState_of_replay (hx.stored r spec hstored) hst' id] at hkept
  exact ⟨hkept, h.2⟩

open DependencyService in
/-- An accepting receipt is admitted for an attempt whose claim was pinned at any
earlier moment: every pinned dependency passes at `now` what resolution checks
exactly when no import among them has expired. -/
theorem admitted_stillResolves_iff (rt : Runtime) {s₀ s₁ s s' : Store}
    (hs₀ : (legalLedger rt).Reachable s₀) {sched : Scheduler}
    (bound : s₀.Bound sched.run sched.spec) {now₀ : Timestamp} {claimedAt : String}
    {claim : Claim} {st₀ : RunState} {snapshot : DependencySnapshot}
    (hst₀ : s₀.replay sched.run.runId sched.spec = .ok st₀)
    (hsnap : (sched.service s₀ st₀ now₀).resolve claim.nodeId = .ok snapshot)
    (hclaim : sched.claimNext rt s₀ now₀ claimedAt = .ok (.claimed claim, s₁))
    {ops : List LedgerOp} (hrun : (legalLedger rt).Run s₁ ops s) {receipt : VerifierReceipt}
    {now : Timestamp}
    (haccept : Receipts.admitReceipt rt s sched.spec sched.run receipt now = .ok ((), s'))
    (hverdict : receipt.verdict = .accept) (hnode : receipt.attempt.node.nodeId = claim.nodeId)
    (hnumber : receipt.attempt.number = claim.number) {st : RunState}
    (hst : s.replay sched.run.runId sched.spec = .ok st) :
    (∀ r ∈ snapshot.resolved, (sched.service s st now).StillResolves r) ↔
      ∀ r ∈ snapshot.resolved, (sched.service s st now).ImportFresh r := by
  -- the claim's row, from the claim to the sealed attempt
  rcases Scheduler.claimNext_ok rt hclaim with ⟨hnone, -⟩ |
    ⟨c, node, stc, statec, nextc, pinned, hc, hdone⟩
  · exact absurd rfl (hnone claim)
  obtain rfl : claim = c := ClaimOutcome.claimed.inj hc
  have hid : claim.nodeId = node.id := congrArg Claim.nodeId hdone.claim_eq
  have hstc : stc = st₀ := Except.ok.inj (hdone.replayed.symm.trans hst₀)
  have hpinned : pinned = snapshot := by
    have hresolved := hdone.resolved
    rw [← hid, hstc, hsnap] at hresolved
    exact (Except.ok.inj hresolved).symm
  subst hstc hpinned
  have hs₁ : (legalLedger rt).Reachable s₁ := by
    refine .step (a := .claimNext sched now₀ claimedAt) hs₀ ⟨bound, ?_⟩
    simp only [LedgerOp.exec, hclaim, Store.transaction]
  have hs := hrun.reachable hs₁
  have hlabel : LedgerStep rt s₀ _ s₁ := LedgerStep.claim bound hdone
  have hx₁ := hlabel.extends (sound_invariant rt s₀ hs₀)
  have hx := hx₁.trans (run_extends hrun hs₁)
  have hrow₁ : sched.newRow node claim.number (s₀.nextFence sched.run.runId) pinned.receiptRefs
      claimedAt ∈ s₁.claims := by
    rw [hdone.store_eq]
    exact List.mem_append_right _ (List.mem_singleton_self _)
  obtain ⟨row, hrow, hkey, hrefs⟩ := run_claim_kept hrun hs₁ _ hrow₁
  obtain ⟨node', attempt, result, sta, state, hadmitted⟩ := Receipts.admitReceipt_ok rt haccept
  have hsta : sta = st := Except.ok.inj (hadmitted.replayed.symm.trans hst)
  subst hsta
  obtain ⟨hattempt, hakey⟩ := Store.attempt_some hadmitted.attempt_eq
  have hsamekey : row.key = attempt.key := by
    rw [hkey, hakey, hnode, hnumber, hid]
    rfl
  have hpins : attempt.dependencyReceipts = pinned.resolved.map (·.receipt) := by
    rw [sealed_pins hs hattempt hrow hsamekey, hrefs]
    rfl
  -- the recheck read these references
  obtain ⟨spec', hfound, hdeps, hres⟩ := resolve_resolved hsnap
  have hrecheck := hadmitted.rechecked hverdict
  rw [hpins, hnode] at hrecheck
  obtain ⟨g, hg⟩ := bound.2
  have hevidence : ∀ r ∈ pinned.resolved, ∃ digest, Admissible s r.receipt r.dependency.node
      r.dependency.expectedType digest :=
    fun r hr => ⟨r.resultDigest, hx.admissible (admissible_ok (hres r hr).digest)⟩
  have hnamed := recheckRefs_named (sched.service s sta now) hfound hdeps
    (deps_distinct hg hfound hdeps) hevidence hrecheck
  refine forall₂_congr fun r hr => ?_
  obtain ⟨-, digest, hdigest⟩ := hnamed r hr
  have haccepted : ∀ id state, (sched.service s₀ stc now₀).acceptedState id = some state →
      (sched.service s sta now).acceptedState id = some state := by
    intro id state hacc
    exact acceptedState_extends (sound_invariant rt s₀ hs₀) (sound_invariant rt s hs) hx bound.1
      hst₀ hst hacc
  exact stillResolves_iff (sched.service s sta now) (sched.service s₀ stc now₀) rfl hx haccepted
    (hres r hr) hdigest

namespace Pilot

/-- The second run with an import that expires tomorrow: its own patch is
cancelled, its check claimed through the import and completed. -/
def expiring : ImportedReceipt := { importOf patchRef with validUntil := some tomorrow }
def secondRun : GraphRun := importingRun expiring
def secondScheduler : Scheduler := get (Scheduler.new spec secondRun controller) (by decide +kernel)

def claimImported : LedgerOp := .claimNext secondScheduler now "2026-01-01T00:00:03Z"
def importedClaim : Claim :=
  { claimOf check 1 [expiring.receipt] with runId := secondRun.runId }
def importedAttempt : Attempt :=
  { attemptOf check [expiring.receipt] with runId := secondRun.runId }
def completeImported : LedgerOp := .complete secondScheduler importedClaim importedAttempt

def beforeImported : Store :=
  (importing expiring).play runtime [.cancel secondScheduler patchId]
def claimedImported : Store := (claimImported.exec runtime beforeImported).2
def sealedImported : Store := (completeImported.exec runtime claimedImported).2

def importedReceipt : VerifierReceipt :=
  { receiptOf check [expiring.receipt] ⟨"receipt-second", by decide +kernel⟩ with
    attempt := importedAttempt.attemptRef }

def acceptImported (moment : Timestamp) : LedgerOp :=
  .admitReceipt secondScheduler.spec secondScheduler.run importedReceipt moment

def dayAfter : Timestamp := ⟨"2026-01-03T00:00:00Z", by decide +kernel⟩

theorem secondScheduler_eq : secondScheduler.run = secondRun ∧ secondScheduler.spec = spec := by
  decide +kernel

theorem second_bound {s : Store} (hrun : secondRun ∈ s.runs)
    (hspec : s.specOf run.graphRef = some spec) :
    s.Bound secondScheduler.run secondScheduler.spec := by
  rw [secondScheduler_eq.1, secondScheduler_eq.2]
  exact ⟨⟨hrun, hspec⟩, _, spec_admitted⟩

theorem beforeImported_reachable : (legalLedger runtime).Reachable beforeImported :=
  (Store.play_reachable (fun _ _ h => h) (importing_reachable expiring)
    (second_bound (by decide +kernel) (by decide +kernel)) (by simp [LedgerOp.Of])).1

theorem sealedImported_run : (legalLedger runtime).Run claimedImported [completeImported]
    sealedImported := by
  have hlegal : completeImported.Legal claimedImported :=
    ⟨secondScheduler.run, by decide +kernel, second_bound (by decide +kernel) (by decide +kernel)⟩
  exact .snoc (.nil claimedImported) ⟨hlegal, rfl⟩

def beforeState : RunState :=
  get (beforeImported.replay secondScheduler.run.runId secondScheduler.spec) (by decide +kernel)
def sealedState : RunState :=
  get (sealedImported.replay secondScheduler.run.runId secondScheduler.spec) (by decide +kernel)

def pinnedImport : DependencySnapshot :=
  get ((secondScheduler.service beforeImported beforeState now).resolve checkId)
    (by decide +kernel)

theorem beforeState_eq : beforeImported.replay secondScheduler.run.runId secondScheduler.spec =
    .ok beforeState := get_eq (by decide +kernel)

theorem sealedState_eq : sealedImported.replay secondScheduler.run.runId secondScheduler.spec =
    .ok sealedState := get_eq (by decide +kernel)

theorem pinnedImport_eq : (secondScheduler.service beforeImported beforeState now).resolve
    importedClaim.nodeId = .ok pinnedImport := get_eq (by decide +kernel)

end Pilot

open Pilot in
theorem admitted_stillResolves_today :
    pinnedImport.resolved ≠ [] ∧ ∀ r ∈ pinnedImport.resolved,
      (secondScheduler.service sealedImported sealedState now).StillResolves r := by
  have hclaim : secondScheduler.claimNext runtime beforeImported now "2026-01-01T00:00:03Z" =
      .ok (.claimed importedClaim, claimedImported) := Store.transaction_ok (by decide +kernel)
  obtain ⟨accepted, haccept⟩ : ∃ s', Receipts.admitReceipt runtime sealedImported
      secondScheduler.spec secondScheduler.run importedReceipt now = .ok ((), s') :=
    ⟨_, Store.transaction_ok (s := sealedImported) (by decide +kernel)⟩
  have himport : ∀ r ∈ pinnedImport.resolved, (secondScheduler.service sealedImported sealedState
      now).importFor r.dependency.node.nodeId = some expiring := by decide +kernel
  have hbound : beforeImported.Bound secondScheduler.run secondScheduler.spec :=
    second_bound (by decide +kernel) (by decide +kernel)
  have hverdict : importedReceipt.verdict = .accept := rfl
  have hnode : importedReceipt.attempt.node.nodeId = importedClaim.nodeId := rfl
  have hnumber : importedReceipt.attempt.number = importedClaim.number := rfl
  refine ⟨by decide +kernel, (@admitted_stillResolves_iff runtime beforeImported claimedImported
    sealedImported _ beforeImported_reachable secondScheduler hbound now _ importedClaim beforeState
    pinnedImport beforeState_eq pinnedImport_eq hclaim _ sealedImported_run importedReceipt now
    haccept hverdict hnode hnumber sealedState sealedState_eq).mpr ?_⟩
  intro r hr _ i hi
  obtain rfl := Option.some.inj ((himport r hr).symm.trans hi)
  decide +kernel

open Pilot in
/-- The check is accepted two days after its claim; the import it was claimed
through expired the day before. -/
theorem admitted_over_expired_import :
    (legalLedger runtime).Reachable sealedImported ∧
      (acceptImported dayAfter).Legal sealedImported ∧
      (acceptImported dayAfter).succeeded
        ((acceptImported dayAfter).exec runtime sealedImported).1 =
        true ∧
      importedReceipt.attempt = importedAttempt.attemptRef ∧
      ∃ r ∈ pinnedImport.resolved, ¬ (secondScheduler.service sealedImported sealedState
        dayAfter).StillResolves r := by
  have hclaimed : (legalLedger runtime).Reachable claimedImported :=
    .step (a := claimImported) beforeImported_reachable
      ⟨second_bound (by decide +kernel) (by decide +kernel), rfl⟩
  refine ⟨sealedImported_run.reachable hclaimed,
    second_bound (by decide +kernel) (by decide +kernel), by decide +kernel, rfl, ?_⟩
  have hfirst : pinnedImport.resolved.any (fun r => r.provenance = .imported ∧
      (secondScheduler.service sealedImported sealedState dayAfter).importFor
        r.dependency.node.nodeId = some expiring ∧
      ((secondScheduler.service sealedImported sealedState dayAfter).resolveImport r.dependency
        expiring).isOk = false) = true := by decide +kernel
  rw [List.any_eq_true] at hfirst
  obtain ⟨r, hr, hcheck⟩ := hfirst
  simp only [decide_eq_true_eq] at hcheck
  obtain ⟨hprovenance, himport, hfails⟩ := hcheck
  refine ⟨r, hr, ?_⟩
  unfold DependencyService.StillResolves
  rw [hprovenance]
  rintro ⟨i, hi, hok⟩
  obtain rfl := Option.some.inj (himport.symm.trans hi)
  rw [hok] at hfails
  cases hfails

end Checkspan
