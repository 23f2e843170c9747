import Checkspan.Manifests
import Checkspan.Origins

/-!
# One candidate along a dependency chain

Each claim captures the working tree afresh, and admission compares nodes, types and
digests but no subjects. A chain is accepted over one candidate when every capture finds
the candidate the producers were accepted over.
-/

namespace Checkspan

open Process Transition

/-! ### Accepting receipts -/

/-- `r` is the accepting receipt of a node of a run. -/
structure Store.AcceptedOver (s : Store) (run : RunId) (id : NodeId) (r : VerifierReceipt) :
    Prop where
  row : r ∈ s.receipts
  verdict : r.verdict = .accept
  key_eq : r.key = (run, id, r.attempt.number)
  state : ∃ state, s.nodeState run id = some state ∧
    state.AcceptedBy r.receiptRef r.attempt.number

section

variable {rt : Runtime} {s s' : Store} {run : RunId} {id : NodeId} {r q : VerifierReceipt}

theorem Store.AcceptedOver.extend (h : s.AcceptedOver run id r) (hx : Extends s s') :
    s'.AcceptedOver run id r := by
  obtain ⟨state, hstate, hacc⟩ := h.state
  obtain ⟨more, hmore⟩ := hx.receipts
  exact { h with
    row := hmore ▸ List.mem_append_left _ h.row
    state := ⟨state, hx.accepted run id state hstate hacc.1, hacc⟩ }

/-- A node has one accepting receipt. -/
theorem Store.AcceptedOver.unique (hs : s.ReceiptsOk rt) (hr : s.AcceptedOver run id r)
    (hq : s.AcceptedOver run id q) : r = q := by
  obtain ⟨x, hx, -, -, hxk⟩ := hr.state
  obtain ⟨y, hy, -, -, hyk⟩ := hq.state
  rw [hx] at hy
  cases hy
  have hnumber := Option.some.inj (hxk.symm.trans hyk)
  refine List.inj_on_of_nodup_map hs.once hr.row hq.row ?_
  rw [hr.key_eq, hq.key_eq, hnumber]

/-- An accepted node has an accepting receipt. -/
theorem Store.ReceiptsOk.acceptedOver (hs : s.ReceiptsOk rt) {state : NodeState}
    (hstate : s.nodeState run id = some state) (hacc : state.status = .accepted) :
    ∃ r, s.AcceptedOver run id r := by
  obtain ⟨r, hr, hv, hkey, hby⟩ := hs.accepted run id state hstate hacc
  exact ⟨r, hr, hv, hkey, state, hstate, hby⟩

end

/-! ### The candidate of a chain -/

/-- The node takes code evidence. -/
def TakesCode (spec : GraphSpec) (id : NodeId) : Prop :=
  ∃ node, spec.findNode id = some node ∧ ∃ q ∈ node.evidencePorts, q.kind = .code

/-- A node with a code port is accepted over the candidate of every node with a code port
it depends on. -/
def OneCandidate (s : Store) (run : GraphRun) (spec : GraphSpec) : Prop :=
  ∀ a id ra r, Relation.TransGen (DependsOn spec) a id → TakesCode spec a → TakesCode spec id →
    s.AcceptedOver run.runId a ra → s.AcceptedOver run.runId id r → ra.subject = r.subject

/-- What was captured for the code ports of a node is the candidate of `r`. -/
def Captures (node : NodeSpec) (seen : Observed) (r : VerifierReceipt) : Prop :=
  ∀ q ∈ node.evidencePorts, q.kind = .code → ∀ c, seen.capture q.name = .ok c →
    Resolver.codeSubject c = r.subject

/-- The tree captured for a claim of a run without imports is the candidate of the
accepted nodes with a code port that the claimed node depends on. -/
def Store.SameTree (s : Store) (claim : Claim) (seen : Observed) : Prop :=
  ∀ run spec node, s.Stored run spec → run.runId = claim.runId → run.admittedImports = [] →
    spec.findNode claim.nodeId = some node →
    ∀ id r, Relation.TransGen (DependsOn spec) claim.nodeId id → TakesCode spec id →
      s.AcceptedOver claim.runId id r → Captures node seen r

/-- The tree is not edited between the acceptance of a candidate and the captures for the
nodes that depend on it. -/
def TreeKept (p : Sessions) : SessionMove → Prop
  | .act _ ⟨.observe claim, seen⟩ => p.world.store.SameTree claim seen
  | _ => True

/-- A capture for a claim found the candidate of the whole chain below its node. -/
structure CapturedFor (s : Store) (claim : Claim) (seen : Observed) (run : GraphRun)
    (spec : GraphSpec) (node : NodeSpec) : Prop where
  stored : s.Stored run spec
  run_eq : run.runId = claim.runId
  node_eq : spec.findNode claim.nodeId = some node
  chain : run.admittedImports = [] → ∀ id, Relation.TransGen (DependsOn spec) claim.nodeId id →
    ∃ r, s.AcceptedOver claim.runId id r ∧ (TakesCode spec id → Captures node seen r)

theorem CapturedFor.extend {s s' : Store} {claim : Claim} {seen : Observed} {run : GraphRun}
    {spec : GraphSpec} {node : NodeSpec} (h : CapturedFor s claim seen run spec node)
    (hx : Extends s s') : CapturedFor s' claim seen run spec node := by
  refine { h with stored := hx.stored run spec h.stored, chain := ?_ }
  intro himports id hpath
  obtain ⟨r, hr, hcaptures⟩ := h.chain himports id hpath
  exact ⟨r, hr.extend hx, hcaptures⟩

section

variable {rt : Runtime} {s : Store}

/-- Every node a claimed node depends on is accepted in the run. -/
theorem accepted_below (hs : (legalLedger rt).Reachable s) {row : ClaimRow} {run : GraphRun}
    {spec : GraphSpec} {node : NodeSpec} (hpin : PinnedClaim s row run spec node)
    (himports : run.admittedImports = []) {id : NodeId}
    (hpath : Relation.TransGen (DependsOn spec) row.nodeId id) :
    ∃ r, s.AcceptedOver row.runId id r := by
  have hsound := sound_invariant rt s hs
  have hreceipts := receiptsOk_invariant rt s hs
  obtain ⟨st, hst⟩ := hsound.replays run spec hpin.bound.1
  have hreplay := hsound.nodeState_of_replay hpin.bound.1 hst
  -- The direct dependencies are pinned by acceptances of this run, and these go on.
  obtain ⟨next, ⟨node', hnode, dep, hdep, rfl⟩, hrest⟩ := Relation.TransGen.head'_iff.mp hpath
  rw [hpin.node_eq] at hnode
  cases hnode
  have hdirect : st.Accepted dep.node.nodeId := by
    obtain ⟨ref, -, href⟩ :=
      forall₂_mem_right (List.Forall₂.flip (R := flip (Pinned s run)) hpin.pinned) hdep
    rcases href.origin with ⟨state, hstate, hacc, -⟩ | ⟨i, hi, -⟩
    · exact ⟨state, (hreplay _).symm.trans hstate, hacc⟩
    · rw [himports] at hi
      exact absurd hi List.not_mem_nil
  have hall : Relation.ReflTransGen (fun a b => DependsOn spec a b ∧ ¬ run.Imports b)
      dep.node.nodeId id := by
    refine Relation.ReflTransGen.mono (fun a b hab => ⟨hab, ?_⟩) _ _ hrest
    rintro ⟨i, hi, -⟩
    rw [himports] at hi
    exact absurd hi List.not_mem_nil
  obtain ⟨state, hstate, hacc⟩ := accepted_along hsound hreceipts
    (prerequisitesOk_invariant rt s hs) hpin.bound.1 hst hdirect hall
  rw [← hpin.run_eq]
  exact hreceipts.acceptedOver ((hreplay id).trans hstate) hacc

end

/-- The subject a claim freezes is that of a candidate captured for a code port. -/
theorem Freeze.subject_captured {b : Build} {c : Command} (f : Freeze b c) {subject : String}
    (h : Controller.manifestSubject f.manifest.references = some subject) :
    ∃ q ∈ f.node.evidencePorts, q.kind = .code ∧ ∃ captured, f.seen.capture q.name = .ok captured ∧
      Resolver.codeSubject captured = subject := by
  obtain ⟨ref, href, rfl⟩ := Option.map_eq_some_iff.mp h
  have hstarts : ref.subject.startsWith Receipts.patchSubjectPrefix = true := by
    simpa using List.find?_some href
  obtain ⟨e, he, rfl⟩ := List.mem_map.mp (List.mem_of_find?_eq_some href)
  obtain ⟨g, hg⟩ := f.opened.admitted
  have hnode := Graph.admitGraph_checkContract hg (GraphSpec.findNode_mem f.node_eq)
  have hnd := (checkContract_eq_nil.mp hnode).portNames
  obtain ⟨q, hq, hsourced⟩ := Resolver.resolve_sourced hnd f.manifest_eq he
  cases hsourced with
  | code offer root selection captured bytes hkind honly hscope hsource hitem hcapture hbytes heq =>
    exact ⟨q, hq, hkind, captured, hcapture, by rw [heq]; rfl⟩
  | log offer root producer path subject version attestation validUntil expected listed bytes hkind
      honly hscope hsource hitem =>
    -- The controller offers candidates only.
    have hoffer : offer ∈ Controller.offersFor f.node f.claim.narrowing :=
      List.mem_of_mem_filter (honly ▸ List.mem_singleton_self offer)
    obtain ⟨port, -, rfl⟩ := List.mem_map.mp hoffer
    cases hitem
  | proof d hkind honly heq =>
    rw [heq, String.startsWith_string_iff] at hstarts
    have hfirst : Receipts.patchSubjectPrefix.toList = 'p' :: "atch_subject:".toList := by decide
    obtain ⟨rest, hrest⟩ := hstarts
    simp [Resolver.proofReference, hfirst] at hrest

/-! ### Captures of a pool -/

/-- A capture made for a claim of the call found the candidate of the claim's chain. -/
def CapturesChain (s : Store) (h : List Did) : Did → Prop
  | ⟨.observe claim, seen⟩ => (∃ sched now claimedAt, Did.claimed sched now claimedAt claim ∈ h) →
    ∃ run spec node, CapturedFor s claim seen run spec node
  | _ => True

section

variable {b : Build} {docs : GraphSpec → Prop} {p : Sessions}

/-- A capture that finds the same tree finds the candidate of the whole chain. -/
theorem Conducted.captured (hc : Conducted b docs p) {t : Thread Effect Effect.Answer _}
    (ht : t ∈ p.threads) {claim : Claim} {seen : Observed}
    (hsame : p.world.store.SameTree claim seen)
    (hclaim : ∃ sched now claimedAt, Did.claimed sched now claimedAt claim ∈ t.past) :
    ∃ run spec node, CapturedFor p.world.store claim seen run spec node := by
  obtain ⟨sched, now, claimedAt, hmem⟩ := hclaim
  obtain ⟨-, row, hrow, hkey, -⟩ := hc.holds t ht _ hmem claim rfl
  obtain ⟨run, spec, node, hpin⟩ :=
    (prerequisitesOk_invariant b.runtime _ hc.reachable).claims row hrow
  simp only [ClaimRow.key, Claim.key, Prod.mk.injEq] at hkey
  obtain ⟨hrun, hnode, -⟩ := hkey
  have hfind : spec.findNode claim.nodeId = some node := hnode ▸ hpin.node_eq
  refine ⟨run, spec, node, hpin.bound.1, hpin.run_eq.trans hrun, hfind, ?_⟩
  intro himports id hpath
  rw [← hnode] at hpath
  obtain ⟨r, hr⟩ := accepted_below hc.reachable hpin himports hpath
  rw [hrun] at hr
  rw [hnode] at hpath
  exact ⟨r, hr, fun htakes => hsame run spec node hpin.bound.1 (hpin.run_eq.trans hrun) himports
    hfind id r hpath htakes hr⟩

theorem capturesChain_invariant (hdist : Distinct b.runtime docs) :
    ((sessions b docs).system TreeKept).Invariant
      (fun p => ∀ t ∈ p.threads, Along (CapturesChain p.world.store) t.past) := by
  refine Machine.along_invariant (P := fun w => CapturesChain w.store)
    (conducted_invariant hdist) ?_ ?_
  · intro p m p' hc hstep h x hx
    unfold CapturesChain at hx ⊢
    split
    · intro hclaim
      obtain ⟨run, spec, node, hcaptured⟩ := hx hclaim
      exact ⟨run, spec, node, hcaptured.extend (hc.store_extends hstep)⟩
    · trivial
  · intro p i past e k a w hc hi hallowed hperf _
    cases e with
    | observe claim =>
      obtain rfl : w = p.world := hperf
      exact hc.captured (List.mem_of_getElem? hi) hallowed
    | ledger | run | events | attempt | resolve | clock | makeDir | write | read | currentExe
    | child => trivial

/-- The accepted attempt of a node froze a candidate captured for its claim, when the tree
is kept the candidate of the whole chain below the node. -/
theorem accepted_captured (hdist : Distinct b.runtime docs)
    (hp : ((sessions b docs).system TreeKept).Reachable p) {run : GraphRun} {spec : GraphSpec}
    (hstored : p.world.store.Stored run spec) {a : NodeId} {ra : VerifierReceipt}
    (hra : p.world.store.AcceptedOver run.runId a ra) : ∃ claim seen node, claim.nodeId = a ∧
      CapturedFor p.world.store claim seen run spec node ∧
      ∃ q ∈ node.evidencePorts, q.kind = .code ∧ ∃ captured, seen.capture q.name = .ok captured ∧
        Resolver.codeSubject captured = ra.subject := by
  have hc := conducted_invariant hdist p hp
  obtain ⟨att, hjudged⟩ := receipts_judged hdist p hp ra hra.row
  obtain ⟨c, f, i, tail, hsealed⟩ := sealedBy hdist p hp att hjudged.row hjudged.done
  have hkey := hsealed.key_eq
  rw [hjudged.key_eq, hra.key_eq] at hkey
  simp only [Claim.key, Prod.mk.injEq] at hkey
  obtain ⟨hrun, hnode, -⟩ := hkey
  -- The capture was made after the claim, in the same call.
  have hobserved : p.MadeAt i (f.before ++ [Did.claimed f.sched c.now f.claimedAt f.claim,
      Did.eventsRead f.sched.run.runId f.events,
      Did.resolved f.claim f.sched.spec f.sched.run f.st c.now f.snapshot])
      (Did.observed f.claim f.seen) := by
    have hsplit : f.history ++ tail = (f.before ++ [Did.claimed f.sched c.now f.claimedAt f.claim,
        Did.eventsRead f.sched.run.runId f.events,
        Did.resolved f.claim f.sched.spec f.sched.run f.st c.now f.snapshot]) ++
        Did.observed f.claim f.seen :: tail := by simp [Freeze.history]
    exact hsealed.made.before hsplit
  obtain ⟨t, ht, rest, hpast⟩ := hobserved
  obtain ⟨q, x, node, hfor⟩ := capturesChain_invariant hdist p hp t (List.mem_of_getElem? ht) _ _
    rest hpast ⟨f.sched, c.now, f.claimedAt, by simp⟩
  obtain ⟨rfl, rfl⟩ := hc.sound.stored_unique hfor.stored hstored (hfor.run_eq.trans hrun.symm)
  obtain ⟨-, hspec⟩ := hc.sound.stored_unique hsealed.bound.1 hfor.stored
    (hsealed.run_eq.symm.trans hfor.run_eq.symm)
  have hfind := f.node_eq
  rw [hspec, hfor.node_eq] at hfind
  obtain rfl := Option.some.inj hfind
  obtain ⟨bytes, hover⟩ := hsealed.record
  have hsubject := hjudged.subject
  rw [hover] at hsubject
  exact ⟨f.claim, f.seen, f.node, hnode.symm, hfor, f.subject_captured hsubject⟩

/-- In a run without imports whose captures find the tree unchanged, an accepted node with
a code port is accepted over the candidate of every accepted node with a code port below
it. -/
theorem one_candidate (hdist : Distinct b.runtime docs)
    (hp : ((sessions b docs).system TreeKept).Reachable p) {run : GraphRun} {spec : GraphSpec}
    (hstored : p.world.store.Stored run spec) (himports : run.admittedImports = []) :
    OneCandidate p.world.store run spec := by
  intro a id ra r hpath _ hid hra hr
  have hc := conducted_invariant hdist p hp
  obtain ⟨claim, seen, node, rfl, hfor, q, hq, hkind, captured, hcapture, hsubject⟩ :=
    accepted_captured hdist hp hstored hra
  obtain ⟨r', hr', hcaptures⟩ := hfor.chain himports id hpath
  rw [← hfor.run_eq] at hr'
  obtain rfl := hr.unique (receiptsOk_invariant b.runtime _ hc.reachable) hr'
  rw [← hsubject]
  exact hcaptures hid q hq hkind captured hcapture

end

namespace Combined

open Pilot (zeroDigest)

/-- The stored candidates and the captured ones are one. -/
def keepsTree (p : Sessions) (_ : Nat) : Did → Bool
  | ⟨.observe _, seen⟩ => p.world.store.graphs.all (fun row => row.spec.nodes.all (fun node =>
      node.evidencePorts.all (fun q => (seen.capture q.name).toOption.all (fun c =>
        p.world.store.receipts.all (fun r => Resolver.codeSubject c = r.subject)))))
  | _ => true

theorem keepsTree_kept (p : Sessions) (i : Nat) (x : Did) (h : keepsTree p i x = true) :
    TreeKept p (.act i x) := by
  obtain ⟨e, seen⟩ := x
  cases e with
  | observe claim =>
    intro run spec node hstored _ _ hfind id r _ _ hr q hq _ c hc
    obtain ⟨row, hrow, rfl⟩ := Option.map_eq_some_iff.mp hstored.2
    have hnode := List.all_eq_true.mp (List.all_eq_true.mp (List.all_eq_true.mp h row
      (List.mem_of_find?_eq_some hrow)) node (GraphSpec.findNode_mem hfind)) q hq
    rw [hc] at hnode
    simpa using List.all_eq_true.mp hnode r hr.row
  | ledger | run | events | attempt | resolve | clock | makeDir | write | read | currentExe
  | child => trivial

/-- The patch and its check, with the tree as it was and with the tree edited in between. -/
def kept : Sessions := passes keepsTree zeroDigest 1 1 (passes keepsTree zeroDigest 0 0 created)

def edited : Sessions := passes (fun _ _ _ => true) otherDigest 1 1
  (passes (fun _ _ _ => true) zeroDigest 0 0 created)

theorem kept_reachable : ((sessions build (· = spec)).system TreeKept).Reachable kept :=
  passes_reachable (passes_reachable (created_reachable (fun _ _ => trivial))
    keepsTree_kept (fun _ _ => trivial) _ _ _) keepsTree_kept (fun _ _ => trivial) _ _ _

theorem edited_reachable :
    ((sessions build (· = spec)).system (fun _ _ => True)).Reachable edited :=
  passes_reachable (passes_reachable (created_reachable (fun _ _ => trivial))
    (fun _ _ _ _ => trivial) (fun _ _ => trivial) _ _ _) (fun _ _ _ _ => trivial)
    (fun _ _ => trivial) _ _ _

end Combined

open Combined in
theorem one_candidate_kept : OneCandidate kept.world.store run spec ∧
    (kept.world.store.nodeState run.runId ciId).map (·.status) = some .accepted :=
  ⟨one_candidate distinct_spec kept_reachable ⟨by decide +kernel, by decide +kernel⟩ rfl,
    by decide +kernel⟩

open Combined in
/-- A check is accepted over a tree that was edited after the patch was accepted. -/
theorem one_candidate_edited : ∃ p,
    ((sessions build (· = spec)).system (fun _ _ => True)).Reachable p ∧
    p.world.store.Stored run spec ∧ run.admittedImports = [] ∧
    ¬ OneCandidate p.world.store run spec := by
  refine ⟨edited, edited_reachable, ⟨by decide +kernel, by decide +kernel⟩, rfl, ?_⟩
  intro hone
  have hreceipts := receiptsOk_invariant build.runtime _
    (conducted_invariant distinct_spec _ edited_reachable).reachable
  have haccepted : ∀ id, ((edited.world.store.nodeState run.runId id).map (·.status)) =
      some .accepted → ∃ r, edited.world.store.AcceptedOver run.runId id r := by
    intro id hid
    obtain ⟨state, hstate, hacc⟩ := Option.map_eq_some_iff.mp hid
    exact hreceipts.acceptedOver hstate hacc
  obtain ⟨patch, hpatch⟩ := haccepted patchId (by decide +kernel)
  obtain ⟨ci, hci⟩ := haccepted ciId (by decide +kernel)
  have hdepends : DependsOn spec ciId patchId :=
    ⟨csCi, by decide +kernel, _, List.mem_singleton_self _, rfl⟩
  have hsame := hone ciId patchId ci patch (.single hdepends)
    ⟨csCi, by decide +kernel, codePort, List.mem_cons_self, rfl⟩
    ⟨csPatch, by decide +kernel, codePort, List.mem_singleton_self _, rfl⟩ hci hpatch
  have hsubjects : ∀ r ∈ edited.world.store.receipts, ∀ q ∈ edited.world.store.receipts,
      r.key.2.1 = ciId → q.key.2.1 = patchId → r.subject ≠ q.subject := by decide +kernel
  exact hsubjects ci hci.row patch hpatch.row (by rw [hci.key_eq]) (by rw [hpatch.key_eq]) hsame

end Checkspan
