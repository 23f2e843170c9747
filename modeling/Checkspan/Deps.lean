import Checkspan.Replay
import Checkspan.Store

/-!
# Dependency resolution (`src/deps/mod.rs`)

A node's dependencies resolve against receipts admitted in this run, or against
the receipts of other runs that the run record lists as admitted imports. The
same test (`admissible`) runs at dispatch and again, on the pinned references,
before the dependent's acceptance.
-/

namespace Checkspan

/-- Why a dependency cannot be used now (`deps/mod.rs:69-133`). -/
inductive Blocker where
  | notAccepted (node : NodeId) (status : NodeStatus)
  | noReceipt (node : NodeId)
  | receiptMissing (receipt : ReceiptRef)
  | notAnAcceptance (receipt : ReceiptRef) (verdict : Verdict)
  | nodeMismatch (expected found : NodeRef)
  | attemptMissing (receipt : ReceiptRef)
  | noResult (receipt : ReceiptRef)
  | resultTypeMismatch (expected found : TypeRef)
  | subjectMismatch (expected found : Digest)
  | expired (receipt : ReceiptRef) (validUntil : Timestamp)
  | revoked (receipt : ReceiptRef)
  | unknownNode (node : NodeId)
  | store (error : String)
deriving DecidableEq

def Blocker.display : Blocker → String
  | notAccepted node status => "dependency " ++ node.text ++ " is " ++ status.asStr ++
      " in this run, not accepted"
  | noReceipt node => "dependency " ++ node.text ++ " names no receipt"
  | receiptMissing r => "receipt " ++ r.display ++ " is not stored"
  | notAnAcceptance r v => "receipt " ++ r.display ++ " is a " ++ v.asStr ++
      " verdict, not an acceptance"
  | nodeMismatch expected found => "receipt is about " ++ found.display ++ ", not " ++
      expected.display
  | attemptMissing r => "the attempt behind receipt " ++ r.display ++ " is not stored"
  | noResult r => "the attempt behind receipt " ++ r.display ++ " has no result"
  | resultTypeMismatch expected found => "producer declares " ++ found.display ++
      " but the consumer expects " ++ expected.display
  | subjectMismatch expected found => "result digest " ++ found.text ++
      " is not the expected " ++ expected.text
  | expired r t => "receipt " ++ r.display ++ " expired at " ++ t.text
  | revoked r => "receipt " ++ r.display ++ " was revoked"
  | unknownNode n => "node " ++ n.text ++ " is not in the graph"
  | store e => "store error: " ++ e

/-- Blockers as one line, as every caller reports them. -/
def displayBlockers (blockers : List Blocker) : String := joinText "; " (blockers.map (·.display))

inductive DependencyProvenance where
  | sameRun
  | imported
deriving DecidableEq

/-- One dependency bound to the receipt that satisfies it (`deps/mod.rs:43-54`). -/
structure ResolvedDependency where
  dependency : Dependency
  receipt : ReceiptRef
  provenance : DependencyProvenance
  resultDigest : Digest
deriving DecidableEq

/-- The dependency snapshot pinned at dispatch. -/
structure DependencySnapshot where
  node : NodeId
  resolved : List ResolvedDependency
deriving DecidableEq

def DependencySnapshot.receiptRefs (s : DependencySnapshot) : List ReceiptRef :=
  s.resolved.map (·.receipt)

/-- `ok_or_else`. -/
def someOr {ε α : Type} (o : Option α) (e : ε) : Except ε α :=
  match o with
  | some a => .ok a
  | none => .error e

theorem someOr_ok {ε α : Type} {o : Option α} {e : ε} {a : α} (h : someOr o e = .ok a) :
    o = some a := by
  cases o with
  | none => cases h
  | some b =>
    cases h
    rfl

theorem someOr_eq_ok {ε α : Type} {o : Option α} {e : ε} {a : α} :
    someOr o e = .ok a ↔ o = some a := by
  refine ⟨someOr_ok, ?_⟩
  rintro rfl
  rfl

structure DependencyService where
  spec : GraphSpec
  run : GraphRun
  state : RunState
  store : Store
  now : Timestamp

namespace DependencyService

variable (svc : DependencyService)

def storeErr {α : Type} (x : Except StoreError α) : Except Blocker α :=
  x.mapError (fun e => .store e.display)

/-- The moment a receipt or import stopped being valid, if it has. -/
def expiredAt (validUntil : Option Timestamp) : Option Timestamp :=
  validUntil.filter (fun t => !svc.now.isBefore t)

def checkFresh (ref : ReceiptRef) (validUntil : Option Timestamp) : Except Blocker Unit :=
  match svc.expiredAt validUntil with
  | some t => .error (.expired ref t)
  | none => .ok ()

def checkDigest (expected : Option Digest) (found : Digest) : Except Blocker Unit :=
  match expected with
  | some digest => guardOk (digest = found) (.subjectMismatch digest found)
  | none => .ok ()

/-- `admissible` (`deps/mod.rs:187-286`). -/
def admissible (ref : ReceiptRef) (expectedNode : NodeRef) (expectedType : TypeRef)
    (expectedDigest : Option Digest) : Except Blocker Digest := do
  let stored ← storeErr (svc.store.receipt ref.runId ref.id.text)
  let receipt ← someOr stored (.receiptMissing ref)
  guardOk (receipt.verdict = .accept) (.notAnAcceptance ref receipt.verdict)
  guardOk (receipt.attempt.node = expectedNode) (.nodeMismatch expectedNode receipt.attempt.node)
  let sealedRow ← storeErr (svc.store.attempt receipt.attempt.runId receipt.attempt.node.nodeId
    receipt.attempt.number.get)
  let attempt ← someOr sealedRow (.attemptMissing ref)
  let result ← someOr attempt.result (.noResult ref)
  guardOk (result.resultType = expectedType) (.resultTypeMismatch expectedType result.resultType)
  guardOk (result.digest = receipt.resultDigest)
    (.subjectMismatch result.digest receipt.resultDigest)
  checkDigest expectedDigest receipt.resultDigest
  svc.checkFresh ref receipt.validity.validUntil
  guardOk (ref.id.text ∉ svc.store.revokedReceipts ref.runId) (.revoked ref)
  .ok receipt.resultDigest

def knownNode (id : NodeId) : Except Blocker NodeSpec :=
  someOr (svc.spec.findNode id) (.unknownNode id)

def importFor (id : NodeId) : Option ImportedReceipt :=
  svc.run.admittedImports.find? (fun i => i.nodeId = id)

/-- The status a dependency is reported with when nothing satisfies it. -/
def statusOf (id : NodeId) : NodeStatus :=
  match svc.state.node id with
  | some s => s.status
  | none => .open

/-- The import branch of `resolve_one`. -/
def resolveImport (dep : Dependency) (i : ImportedReceipt) : Except Blocker ResolvedDependency := do
  svc.checkFresh i.receipt i.validUntil
  guardOk (i.resultType = dep.expectedType) (.resultTypeMismatch dep.expectedType i.resultType)
  let digest ← svc.admissible i.receipt dep.node dep.expectedType (some i.resultDigest)
  .ok { dependency := dep, receipt := i.receipt, provenance := .imported, resultDigest := digest }

/-- The same-run branch of `resolve_one`. -/
def resolveSameRun (dep : Dependency) (s : NodeState) : Except Blocker ResolvedDependency := do
  let receipt ← someOr s.receipt (.noReceipt dep.node.nodeId)
  let digest ← svc.admissible receipt dep.node dep.expectedType none
  .ok { dependency := dep, receipt := receipt, provenance := .sameRun, resultDigest := digest }

/-- The replayed state of an accepted producer. -/
def acceptedState (id : NodeId) : Option NodeState :=
  (svc.state.node id).filter (fun s => s.status = .accepted)

/-- `resolve_one` (`deps/mod.rs:288-345`): this run's acceptance first, then an
admitted import, else blocked. -/
def resolveOne (dep : Dependency) : Except Blocker ResolvedDependency := do
  let _ ← svc.knownNode dep.node.nodeId
  match svc.acceptedState dep.node.nodeId with
  | some s => svc.resolveSameRun dep s
  | none =>
    match svc.importFor dep.node.nodeId with
    | some i => svc.resolveImport dep i
    | none => .error (.notAccepted dep.node.nodeId (svc.statusOf dep.node.nodeId))

/-- The loop of `resolve`: bound dependencies and blockers, both in order. -/
def resolveEach : List Dependency → List ResolvedDependency × List Blocker
  | [] => ([], [])
  | dep :: rest =>
    let (resolved, blockers) := resolveEach rest
    match svc.resolveOne dep with
    | .ok r => (r :: resolved, blockers)
    | .error b => (resolved, b :: blockers)

/-- `resolve` (`deps/mod.rs:347-370`). -/
def resolve (id : NodeId) : Except (List Blocker) DependencySnapshot := do
  let node ← (svc.knownNode id).mapError (fun b => [b])
  match svc.resolveEach node.deps with
  | (resolved, []) => .ok { node := id, resolved := resolved }
  | (_, blockers) => .error blockers

/-- The blocker of one declared dependency in `recheck_refs`, if any. -/
def recheckDep (pinned : List ReceiptRef) (dep : Dependency) : Option Blocker :=
  match pinned.find? (fun r => r.node = dep.node) with
  | some receipt =>
    match svc.admissible receipt dep.node dep.expectedType none with
    | .ok _ => none
    | .error b => some b
  | none => some (.notAccepted dep.node.nodeId (svc.statusOf dep.node.nodeId))

/-- Whether pinned position `i` is the one some dependency uses. -/
def isUsed (deps : List Dependency) (pinned : List ReceiptRef) (i : Nat) : Bool :=
  deps.any (fun dep => pinned.findIdx? (fun r => r.node = dep.node) = some i)

/-- `recheck_refs` (`deps/mod.rs:399-443`). -/
def recheckRefs (id : NodeId) (pinned : List ReceiptRef) : Except (List Blocker) Unit := do
  let node ← (svc.knownNode id).mapError (fun b => [b])
  let blockers := node.deps.filterMap (svc.recheckDep pinned) ++
    pinned.zipIdx.filterMap (fun (extra, i) =>
      if isUsed node.deps pinned i then none
      else some (.nodeMismatch ⟨svc.spec.graphId, id, node.revision⟩ extra.node))
  if blockers.isEmpty then .ok () else .error blockers

/-- The blocker of one resolved dependency in `recheck`, if any. -/
def recheckOne (r : ResolvedDependency) : Option Blocker :=
  match svc.admissible r.receipt r.dependency.node r.dependency.expectedType
    (some r.resultDigest) with
  | .ok _ => none
  | .error b => some b

/-- `recheck` (`deps/mod.rs:372-394`). -/
def recheck (snapshot : DependencySnapshot) : Except (List Blocker) Unit :=
  let blockers := snapshot.resolved.filterMap svc.recheckOne
  if blockers.isEmpty then .ok () else .error blockers

/-! ### What resolution establishes -/

/-- The stored evidence behind a reference that a dependency on `node` with `type`
may use: an accepting receipt about exactly that node, and its sealed result. -/
structure Evidence (s : Store) (ref : ReceiptRef) (node : NodeRef) (type : TypeRef)
    (digest : Digest) (receipt : VerifierReceipt) (attempt : Attempt) (result : ResultRef) :
    Prop where
  stored : s.receipt ref.runId ref.id.text = .ok (some receipt)
  verdict : receipt.verdict = .accept
  node_eq : receipt.attempt.node = node
  sealedRow : s.attempt receipt.attempt.runId receipt.attempt.node.nodeId
    receipt.attempt.number.get = .ok (some attempt)
  result_eq : attempt.result = some result
  type_eq : result.resultType = type
  digest_eq : result.digest = receipt.resultDigest
  found : digest = receipt.resultDigest

/-- A reference with such evidence. -/
def Admissible (s : Store) (ref : ReceiptRef) (node : NodeRef) (type : TypeRef)
    (digest : Digest) : Prop :=
  ∃ receipt attempt result, Evidence s ref node type digest receipt attempt result

variable {svc}

theorem admissible_ok {ref : ReceiptRef} {node : NodeRef} {type : TypeRef}
    {expected : Option Digest} {digest : Digest}
    (h : svc.admissible ref node type expected = .ok digest) :
    Admissible svc.store ref node type digest := by
  unfold admissible at h
  obtain ⟨stored, hstored, h⟩ := bind_ok h
  obtain ⟨receipt, hreceipt, h⟩ := bind_ok h
  obtain ⟨_, hverdict, h⟩ := bind_ok h
  obtain ⟨_, hnode, h⟩ := bind_ok h
  obtain ⟨sealedRow, hsealed, h⟩ := bind_ok h
  obtain ⟨attempt, hattempt, h⟩ := bind_ok h
  obtain ⟨result, hresult, h⟩ := bind_ok h
  obtain ⟨_, htype, h⟩ := bind_ok h
  obtain ⟨_, hdigest, h⟩ := bind_ok h
  obtain ⟨_, -, h⟩ := bind_ok h
  obtain ⟨_, -, h⟩ := bind_ok h
  obtain ⟨_, -, h⟩ := bind_ok h
  cases h
  have hs := mapError_ok hstored
  rw [someOr_ok hreceipt] at hs
  have ha := mapError_ok hsealed
  rw [someOr_ok hattempt] at ha
  have hv := guardOk_ok hverdict
  have hn := guardOk_ok hnode
  have ht := guardOk_ok htype
  have hd := guardOk_ok hdigest
  simp only [decide_eq_true_eq] at hv hn ht hd
  refine ⟨receipt, attempt, result, ?_⟩
  exact { stored := hs
          verdict := hv
          node_eq := hn
          sealedRow := ha
          result_eq := someOr_ok hresult
          type_eq := ht
          digest_eq := hd
          found := rfl }

/-- Where a resolved dependency's receipt comes from. -/
inductive Origin (svc : DependencyService) (dep : Dependency) (ref : ReceiptRef) : Prop
  | sameRun (s : NodeState) (hs : svc.state.node dep.node.nodeId = some s)
      (ha : s.status = .accepted) (hr : s.receipt = some ref)
  | imported (i : ImportedReceipt) (hi : i ∈ svc.run.admittedImports)
      (hn : i.nodeId = dep.node.nodeId) (hr : i.receipt = ref)

theorem resolveOne_ok {dep : Dependency} {r : ResolvedDependency}
    (h : svc.resolveOne dep = .ok r) :
    r.dependency = dep ∧ Origin svc dep r.receipt ∧
      Admissible svc.store r.receipt dep.node dep.expectedType r.resultDigest := by
  unfold resolveOne at h
  obtain ⟨_, -, h⟩ := bind_ok h
  split at h
  · rename_i s hs
    unfold acceptedState at hs
    rw [Option.filter_eq_some_iff] at hs
    unfold resolveSameRun at h
    obtain ⟨receipt, hreceipt, h⟩ := bind_ok h
    obtain ⟨digest, hdigest, h⟩ := bind_ok h
    cases h
    refine ⟨rfl, ?_, admissible_ok hdigest⟩
    exact Origin.sameRun s hs.1 (by simpa using hs.2) (someOr_ok hreceipt)
  · split at h
    · rename_i i hi
      unfold resolveImport at h
      obtain ⟨_, -, h⟩ := bind_ok h
      obtain ⟨_, -, h⟩ := bind_ok h
      obtain ⟨digest, hdigest, h⟩ := bind_ok h
      cases h
      unfold importFor at hi
      refine ⟨rfl, ?_, admissible_ok hdigest⟩
      exact Origin.imported i (List.mem_of_find?_eq_some hi)
        (by simpa using List.find?_some hi) rfl
    · cases h

theorem resolveEach_ok {deps : List Dependency} {resolved : List ResolvedDependency}
    (h : svc.resolveEach deps = (resolved, [])) :
    List.Forall₂ (fun dep r => svc.resolveOne dep = .ok r) deps resolved := by
  induction deps generalizing resolved with
  | nil =>
    cases h
    exact List.Forall₂.nil
  | cons dep rest ih =>
    simp only [resolveEach] at h
    split at h
    · rename_i r hr
      simp only [Prod.mk.injEq] at h
      obtain ⟨rfl, hrest⟩ := h
      exact List.Forall₂.cons hr (ih (Prod.ext rfl hrest))
    · simp at h

/-- A snapshot binds every declared dependency, in declaration order. -/
theorem resolve_ok {id : NodeId} {snapshot : DependencySnapshot}
    (h : svc.resolve id = .ok snapshot) :
    ∃ node, svc.spec.findNode id = some node ∧
      List.Forall₂ (fun dep r => svc.resolveOne dep = .ok r) node.deps snapshot.resolved := by
  unfold resolve at h
  obtain ⟨node, hnode, h⟩ := bind_ok h
  refine ⟨node, someOr_ok (mapError_ok hnode), ?_⟩
  split at h
  · rename_i resolved heq
    cases h
    exact resolveEach_ok heq
  · cases h

/-- References that pass the recheck: each dependency has a pinned receipt for
exactly its node, and that receipt is admissible. -/
theorem recheckRefs_ok {id : NodeId} {pinned : List ReceiptRef}
    (h : svc.recheckRefs id pinned = .ok ()) :
    ∃ node, svc.spec.findNode id = some node ∧ ∀ dep ∈ node.deps,
      ∃ ref digest, pinned.find? (fun r => r.node = dep.node) = some ref ∧
        Admissible svc.store ref dep.node dep.expectedType digest := by
  unfold recheckRefs at h
  obtain ⟨node, hnode, h⟩ := bind_ok h
  refine ⟨node, someOr_ok (mapError_ok hnode), ?_⟩
  intro dep hdep
  simp only at h
  split at h
  · rename_i hempty
    simp only [List.isEmpty_iff, List.append_eq_nil_iff, List.filterMap_eq_nil_iff] at hempty
    have hb := hempty.1 dep hdep
    unfold recheckDep at hb
    split at hb
    · rename_i ref hfind
      split at hb
      · rename_i digest hadm
        exact ⟨ref, digest, hfind, admissible_ok hadm⟩
      · cases hb
    · cases hb
  · cases h

/-! ### Exactly when -/

variable (svc) in
/-- The stored evidence behind a reference, fresh and not revoked at `now`. -/
structure Usable (ref : ReceiptRef) (node : NodeRef) (type : TypeRef) (digest : Digest)
    (receipt : VerifierReceipt) (attempt : Attempt) (result : ResultRef) : Prop
    extends Evidence svc.store ref node type digest receipt attempt result where
  fresh : svc.expiredAt receipt.validity.validUntil = none
  unrevoked : ref.id.text ∉ svc.store.revokedReceipts ref.runId

theorem checkFresh_eq_ok {ref : ReceiptRef} {validUntil : Option Timestamp} {u : Unit} :
    svc.checkFresh ref validUntil = .ok u ↔ svc.expiredAt validUntil = none := by
  unfold checkFresh
  cases svc.expiredAt validUntil <;> simp

theorem checkDigest_eq_ok {expected : Option Digest} {found : Digest} {u : Unit} :
    checkDigest expected found = .ok u ↔ ∀ d, expected = some d → d = found := by
  unfold checkDigest
  cases expected with
  | none => simp
  | some digest => simp [guardOk_eq_ok]

/-- A reference is admissible exactly when its evidence is usable and carries the
expected digest. -/
theorem admissible_eq_ok {ref : ReceiptRef} {node : NodeRef} {type : TypeRef}
    {expected : Option Digest} {digest : Digest} :
    svc.admissible ref node type expected = .ok digest ↔
      (∃ receipt attempt result, svc.Usable ref node type digest receipt attempt result) ∧
        ∀ d, expected = some d → d = digest := by
  unfold admissible storeErr
  simp only [bind_eq_ok, mapError_eq_ok, someOr_eq_ok, guardOk_eq_ok, decide_eq_true_eq,
    checkDigest_eq_ok, checkFresh_eq_ok, Except.ok.injEq]
  constructor
  · rintro ⟨_, hstored, receipt, rfl, _, hverdict, _, hnode, _, hsealed, attempt, rfl, result,
      hresult, _, htype, _, hdigest, _, hexpected, _, hfresh, _, hrevoked, rfl⟩
    refine ⟨⟨receipt, attempt, result, ?_⟩, hexpected⟩
    exact { stored := hstored, verdict := hverdict, node_eq := hnode, sealedRow := hsealed
            result_eq := hresult, type_eq := htype, digest_eq := hdigest, found := rfl
            fresh := hfresh, unrevoked := hrevoked }
  · rintro ⟨⟨receipt, attempt, result, h⟩, hexpected⟩
    exact ⟨_, h.stored, receipt, rfl, (), h.verdict, (), h.node_eq, _, h.sealedRow, attempt, rfl,
      result, h.result_eq, (), h.type_eq, (), h.digest_eq, (), fun d hd => h.found ▸ hexpected d hd,
      (), h.fresh, (), h.unrevoked, h.found.symm⟩

theorem recheckOne_eq_none {r : ResolvedDependency} :
    svc.recheckOne r = none ↔ svc.admissible r.receipt r.dependency.node r.dependency.expectedType
      (some r.resultDigest) = .ok r.resultDigest := by
  unfold recheckOne
  cases h : svc.admissible r.receipt r.dependency.node r.dependency.expectedType
    (some r.resultDigest) with
  | error b => simp
  | ok digest =>
    have hdigest := (admissible_eq_ok.mp h).2 r.resultDigest rfl
    simp [hdigest]

theorem blockersOk_eq_ok {blockers : List Blocker} {u : Unit} :
    (if blockers.isEmpty then .ok () else .error blockers : Except (List Blocker) Unit) = .ok u ↔
      blockers.isEmpty = true := by
  cases blockers <;> simp

theorem recheck_eq_ok {snapshot : DependencySnapshot} {u : Unit} :
    svc.recheck snapshot = .ok u ↔ ∀ r ∈ snapshot.resolved, svc.admissible r.receipt
      r.dependency.node r.dependency.expectedType (some r.resultDigest) = .ok r.resultDigest := by
  unfold recheck
  rw [blockersOk_eq_ok, List.isEmpty_iff, List.filterMap_eq_nil_iff]
  simp only [recheckOne_eq_none]

theorem recheckDep_eq_none {pinned : List ReceiptRef} {dep : Dependency} :
    svc.recheckDep pinned dep = none ↔ ∃ ref digest,
      pinned.find? (fun r => r.node = dep.node) = some ref ∧
        svc.admissible ref dep.node dep.expectedType none = .ok digest := by
  unfold recheckDep
  cases pinned.find? (fun r => r.node = dep.node) with
  | none => simp
  | some ref => cases h : svc.admissible ref dep.node dep.expectedType none <;> simp [h]

theorem recheckRefs_eq_ok {id : NodeId} {pinned : List ReceiptRef} {u : Unit} :
    svc.recheckRefs id pinned = .ok u ↔ ∃ node, svc.spec.findNode id = some node ∧
      (∀ dep ∈ node.deps, ∃ ref digest, pinned.find? (fun r => r.node = dep.node) = some ref ∧
        svc.admissible ref dep.node dep.expectedType none = .ok digest) ∧
      ∀ i < pinned.length, isUsed node.deps pinned i = true := by
  unfold recheckRefs knownNode
  simp only [bind_eq_ok, mapError_eq_ok, someOr_eq_ok]
  refine exists_congr fun node => and_congr_right fun _ => ?_
  have hextra : ∀ error : ReceiptRef → Blocker, (pinned.zipIdx.filterMap (fun (extra, i) =>
      if isUsed node.deps pinned i then none else some (error extra)) = []) ↔
      ∀ i < pinned.length, isUsed node.deps pinned i = true := by
    intro error
    rw [List.filterMap_eq_nil_iff]
    constructor
    · intro h i hi
      have hmem : (pinned[i], i) ∈ pinned.zipIdx := by
        rw [List.mk_mem_zipIdx_iff_getElem?, List.getElem?_eq_getElem hi]
      by_contra hne
      exact absurd (h _ hmem) (by simp [hne])
    · rintro h ⟨extra, i⟩ hmem
      rw [List.mk_mem_zipIdx_iff_getElem?] at hmem
      obtain ⟨hi, -⟩ := List.getElem?_eq_some_iff.mp hmem
      simp [h i hi]
  have hblockers := and_congr
    (List.filterMap_eq_nil_iff (f := svc.recheckDep pinned) (l := node.deps)) (hextra (fun extra =>
      Blocker.nodeMismatch ⟨svc.spec.graphId, id, node.revision⟩ extra.node))
  rw [← List.append_eq_nil_iff, ← List.isEmpty_iff] at hblockers
  simp only [recheckDep_eq_none] at hblockers
  rw [← hblockers]
  exact blockersOk_eq_ok

end DependencyService

end Checkspan
