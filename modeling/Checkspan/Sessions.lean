import Checkspan.Conduct
import Checkspan.Prerequisites

/-!
# Calls over one store

The pool in which calls run: the store and the artifact files, what each effect
does to them, and what others may do. A reachable pool holds a store that legal use
reaches, and what a call once read or wrote stays true.
-/

namespace Checkspan

open Process Transition

/-! ### The world -/

/-- The store, and the artifact files by path. -/
structure World where
  store : Store
  files : String → Option (List UInt8)

/-- What an effect answers and leaves. A ledger operation is one transaction; a file
is as it was last written, and a failed write leaves any content; captures, clocks and
children answer anything. A patch child reads its artifact; a software child leaves
any content in its output file. -/
def Effect.Performs (rt : Runtime) (w : World) : (e : Effect) → e.Answer → World → Prop
  | .ledger op, r, w' =>
    r = (op.exec rt w.store).1 ∧ w' = { w with store := (op.exec rt w.store).2 }
  | .run id, r, w' => r = w.store.run id ∧ w' = w
  | .events id, r, w' => r = w.store.eventsOf id ∧ w' = w
  | .attempt id node number, r, w' => r = w.store.attempt id node number ∧ w' = w
  | .resolve claim spec record st now, r, w' =>
    r = DependencyService.resolve
      { spec := spec, run := record, state := st, store := w.store, now := now } claim.nodeId ∧
      w' = w
  | .clock, _, w' => w' = w
  | .observe _, _, w' => w' = w
  | .makeDir _, _, w' => w' = w
  | .write path bytes, r, w' => w'.store = w.store ∧ (∀ p, p ≠ path → w'.files p = w.files p) ∧
      (r = .ok () → w'.files path = some bytes)
  | .read path, r, w' => w' = w ∧ ∀ bytes, r = .ok bytes → w.files path = some bytes
  | .currentExe, _, w' => w' = w
  | .child (.patch artifact) _, r, w' => w' = w ∧ ChildEnd.seen r = w.files artifact
  | .child (.software _ out) _, r, w' => w'.store = w.store ∧
      (∀ p, p ≠ out → w'.files p = w.files p) ∧ w'.files out = ChildEnd.seen r

/-- The operations made by others than the calls: a claim, a completion and a receipt
come from calls only, and a graph is one of the documents. -/
def LedgerOp.Outside (docs : GraphSpec → Prop) : LedgerOp → Prop
  | .storeGraph spec => docs spec
  | .claimNext _ _ _ => False
  | .complete _ _ _ => False
  | .admitReceipt _ _ _ _ => False
  | _ => True

/-- A pool of calls. -/
abbrev Sessions := Pool World Effect Effect.Answer (Except RunError (List Action))

/-- A step of such a pool. -/
abbrev SessionMove := Move Effect Effect.Answer (Except RunError (List Action)) LedgerOp

/-- Calls on documents of `docs`, from the empty store on. -/
def sessions (b : Build) (docs : GraphSpec → Prop) :
    Machine World Effect Effect.Answer (Except RunError (List Action)) LedgerOp where
  init w := w.store = Store.empty
  start _ p := ∃ c : Command, (∀ spec, c.ws.graph = .ok spec → docs spec) ∧ p = (c.call b).run
  perform w e a w' := e.Performs b.runtime w a w'
  env w op w' := op.Legal w.store ∧ op.Outside docs ∧
    w' = { w with store := (op.exec b.runtime w.store).2 }

/-- No two documents of one revision have one digest. -/
def Distinct (rt : Runtime) (docs : GraphSpec → Prop) : Prop :=
  ∀ g g' d, docs g → docs g' → g.graphRef = g'.graphRef → graphSpecDigest rt g = .ok d →
    graphSpecDigest rt g' = .ok d → g = g'

/-! ### Stored graphs -/

section

variable {rt : Runtime} {s : Store}

theorem transaction_graphs {ε α : Type} {body : Except ε (α × Store)}
    (h : ∀ a s', body = .ok (a, s') → s'.graphs = s.graphs) :
    (s.transaction body).2.graphs = s.graphs :=
  Store.transaction_property (P := fun s' => s'.graphs = s.graphs) rfl h

/-- Only storing a graph changes the stored graphs, by the graph and its digest. -/
theorem exec_graphs (op : LedgerOp) : (op.exec rt s).2.graphs = s.graphs ∨
    ∃ spec digest, op = .storeGraph spec ∧ s.specOf spec.graphRef = none ∧
      graphSpecDigest rt spec = .ok digest ∧
      (rt.text spec.toJson).utf8ByteSize ≤ maxRecordLen ∧
      (op.exec rt s).2.graphs = s.graphs ++ [⟨spec, digest⟩] := by
  cases op with
  | storeGraph spec =>
    cases h : s.storeGraph rt spec with
    | error e =>
      refine Or.inl ?_
      simp only [LedgerOp.exec, h, Store.transaction]
    | ok out =>
      have hout := h
      unfold Store.storeGraph at h
      obtain ⟨digest, hdigest, h⟩ := bind_ok h
      obtain ⟨_, hfits, h⟩ := bind_ok h
      simp only [LedgerOp.exec, hout, Store.transaction]
      split at h
      · split at h
        · cases h
          exact Or.inl rfl
        · cases h
      · rename_i hnone
        cases h
        exact Or.inr ⟨spec, digest, rfl, Option.map_eq_none_iff.mpr hnone, mapError_ok hdigest,
          (Store.jsonLenChecked_eq_ok rt).mp hfits, rfl⟩
  | createRun run =>
    refine Or.inl (transaction_graphs ?_)
    intro u s' h
    unfold Store.createRun at h
    obtain ⟨_, -, h⟩ := bind_ok h
    obtain ⟨_, -, h⟩ := bind_ok h
    obtain ⟨_, -, h⟩ := bind_ok h
    obtain ⟨s₁, hs₁, h⟩ := bind_ok h
    cases h
    obtain ⟨-, rfl⟩ := Store.appendEvent_ok rt hs₁
    rfl
  | claimNext sched now claimedAt =>
    refine Or.inl (transaction_graphs ?_)
    intro out s' h
    rcases Scheduler.claimNext_ok rt h with ⟨-, rfl⟩ |
      ⟨claim, node, st, state, next, snapshot, -, hc⟩
    · rfl
    · rw [hc.store_eq]
  | complete sched claim attempt =>
    refine Or.inl (transaction_graphs ?_)
    intro u s' h
    obtain ⟨row, execution, st, state, next, hdone⟩ := Scheduler.complete_ok rt h
    rw [hdone.store_eq]
    rfl
  | cancel sched id =>
    refine Or.inl (transaction_graphs ?_)
    intro u s' h
    obtain ⟨st, state, next, hdone⟩ := Scheduler.cancel_ok rt h
    rw [hdone.store_eq]
  | reclaim sched id now =>
    refine Or.inl (transaction_graphs ?_)
    intro number s' h
    obtain ⟨node, row, startedAt, st, state, next, hdone⟩ := Scheduler.reclaim_ok rt h
    rw [hdone.store_eq]
    rfl
  | admitReceipt spec run receipt now =>
    refine Or.inl (transaction_graphs ?_)
    intro u s' h
    obtain ⟨node, attempt, result, st, state, hdone⟩ := Receipts.admitReceipt_ok rt h
    rw [hdone.store_eq]
  | applyRetryPolicy spec run id narrowing now =>
    refine Or.inl (transaction_graphs ?_)
    intro decision s' h
    obtain ⟨node, st, state, -, -, -, -, happ⟩ := Budget.applyRetryPolicy_ok rt h
    cases happ <;> rfl
  | openResolveWork spec run id now expiresAt =>
    refine Or.inl (transaction_graphs ?_)
    intro packet s' h
    obtain ⟨st, state, next, hdone⟩ := Gates.openResolveWork_ok rt h
    rw [hdone.store_eq]
  | revokeReceipt run receiptId reason =>
    refine Or.inl (transaction_graphs ?_)
    intro u s' h
    unfold Store.revokeReceipt at h
    obtain ⟨_, -, h⟩ := bind_ok h
    obtain ⟨s₁, hs₁, h⟩ := bind_ok h
    cases h
    obtain ⟨-, rfl⟩ := Store.appendEvent_ok rt hs₁
    rfl
  | admitDecision run d =>
    refine Or.inl (transaction_graphs ?_)
    intro u s' h
    unfold Store.admitDecision at h
    obtain ⟨s₁, hs₁, h⟩ := bind_ok h
    obtain ⟨s₂, hs₂, h⟩ := bind_ok h
    cases h
    obtain rfl := Store.insertGateDecision_ok rt hs₁
    obtain ⟨-, rfl⟩ := Store.appendEvent_ok rt hs₂
    rfl
  | appendDecision run id packet decision payload =>
    refine Or.inl (transaction_graphs ?_)
    intro u s' h
    cases happ : s.appendEvent rt run (some id) kinds.decisionAdmitted payload with
    | error e =>
      rw [happ] at h
      cases h
    | ok s₁ =>
      rw [happ] at h
      cases h
      obtain ⟨-, rfl⟩ := Store.appendEvent_ok rt happ
      rfl

end

/-- Every stored graph is kept with its digest and fits a record. -/
theorem graphRows_invariant (rt : Runtime) : (legalLedger rt).Invariant (fun s =>
    ∀ row ∈ s.graphs, graphSpecDigest rt row.spec = .ok row.digest ∧
      (rt.text row.spec.toJson).utf8ByteSize ≤ maxRecordLen) := by
  refine System.Invariant.step System.invariant_true ?_ ?_
  · rintro s rfl
    exact fun row hrow => absurd hrow List.not_mem_nil
  · rintro s op s' - hs ⟨-, rfl⟩ row hrow
    rcases @exec_graphs rt s op with heq | ⟨spec, digest, -, -, hdigest, hfits, heq⟩
    · exact hs row (heq ▸ hrow)
    · rw [heq] at hrow
      rcases List.mem_append.mp hrow with hrow | hrow
      · exact hs row hrow
      · rw [List.mem_singleton.mp hrow]
        exact ⟨hdigest, hfits⟩

/-! ### What stays true -/

def Claim.key (c : Claim) : RunId × NodeId × AttemptNumber := (c.runId, c.nodeId, c.number)

/-- What an entry of a history says about every later store. -/
def Did.Holds (s : Store) : Did → Prop
  | ⟨.ledger (.storeGraph spec), r⟩ =>
    ∀ fresh, r = (.ok fresh : Except StoreError Bool) → s.specOf spec.graphRef = some spec
  | ⟨.ledger (.claimNext sched _ _), r⟩ =>
    ∀ claim, r = (.ok (.claimed claim) : Except SchedulerError ClaimOutcome) →
      claim.runId = sched.run.runId ∧ ∃ row ∈ s.claims, row.key = claim.key ∧
        row.dependencyReceipts = claim.dependencyReceipts
  | ⟨.ledger (.complete _ claim a), r⟩ =>
    r = (.ok () : Except SchedulerError Unit) → a ∈ s.attempts ∧ a.key = claim.key
  | ⟨.run _, r⟩ =>
    ∀ record, r = (.ok (some record) : Except StoreError (Option GraphRun)) → record ∈ s.runs
  | ⟨.attempt run id _, r⟩ =>
    ∀ a, r = (.ok (some a) : Except StoreError (Option Attempt)) →
      a ∈ s.attempts ∧ a.runId = run ∧ a.node.nodeId = id
  | _ => True

section

variable {rt : Runtime} {s s' : Store}

theorem LedgerStep.specOf_kept {label : Option (RunId × NodeId × NodeEvent)}
    (h : LedgerStep rt s label s') {ref : GraphRef} {spec : GraphSpec}
    (hspec : s.specOf ref = some spec) : s'.specOf ref = some spec := by
  cases label with
  | some l =>
    obtain ⟨run, id, e⟩ := l
    obtain ⟨record, x, st, old, new, payload, hrec⟩ := h.recorded
    rw [Store.specOf, hrec.graphs]
    exact hspec
  | none =>
    cases h with
    | graph row fresh => exact Store.specOf_append hspec
    | same => exact hspec
    | run q fresh known => exact hspec
    | revoke run payload known => exact hspec

theorem LedgerStep.run_kept {label : Option (RunId × NodeId × NodeEvent)}
    (h : LedgerStep rt s label s') {r : GraphRun} (hr : r ∈ s.runs) : r ∈ s'.runs := by
  cases label with
  | some l =>
    obtain ⟨run, id, e⟩ := l
    obtain ⟨record, x, st, old, new, payload, hrec⟩ := h.recorded
    rw [hrec.runs]
    exact hr
  | none =>
    cases h with
    | run q fresh known => exact List.mem_append_left _ hr
    | same => exact hr
    | graph row fresh => exact hr
    | revoke run payload known => exact hr

theorem Did.Holds.keep {x : Did} (hx : x.Holds s) {label : Option (RunId × NodeId × NodeEvent)}
    (h : LedgerStep rt s label s') (hs : s.Sound) : x.Holds s' := by
  have hextends := h.extends hs
  unfold Did.Holds at hx ⊢
  split
  · intro fresh hr
    exact h.specOf_kept (hx fresh hr)
  · intro claim hr
    obtain ⟨hrun, row, hrow, hkey, hrefs⟩ := hx claim hr
    obtain ⟨row', hrow', hissued⟩ := h.claim_kept hrow
    have hkey' := ClaimRow.key_of_issued hissued
    have hrefs' := ClaimRow.pins_of_issued hissued
    exact ⟨hrun, row', hrow', hkey'.trans hkey, hrefs'.trans hrefs⟩
  · intro hr
    obtain ⟨ha, hkey⟩ := hx hr
    exact ⟨hextends.mem_attempts ha, hkey⟩
  · intro record hr
    exact h.run_kept (hx record hr)
  · intro a hr
    obtain ⟨ha, hkey⟩ := hx a hr
    exact ⟨hextends.mem_attempts ha, hkey⟩
  · trivial

end

/-! ### Grounded pools -/

/-- What a reachable pool holds: a store that legal use reaches, of the documents, and
histories that are true of it. -/
structure Grounded (rt : Runtime) (docs : GraphSpec → Prop) (p : Sessions) : Prop where
  reachable : (legalLedger rt).Reachable p.world.store
  documents : ∀ row ∈ p.world.store.graphs,
    docs row.spec ∧ graphSpecDigest rt row.spec = .ok row.digest
  holds : ∀ t ∈ p.threads, ∀ x ∈ t.past, Did.Holds p.world.store x

section

variable {b : Build} {docs : GraphSpec → Prop} {allowed : Sessions → SessionMove → Prop}

/-- What a call has done, by its command. -/
structure Follows (b : Build) (docs : GraphSpec → Prop) (c : Command)
    (t : Thread Effect Effect.Answer (Except RunError (List Action))) : Prop where
  documents : ∀ spec, c.ws.graph = .ok spec → docs spec
  rest : t.rest.Meets (Protocol b c) Settled t.past
  past : Along (fun h x => Protocol b c h x.effect) t.past

theorem follows_invariant : ((sessions b docs).system allowed).Invariant
    (fun p => ∀ t ∈ p.threads, ∃ c, Follows b docs c t) := by
  have hmeets : ((sessions b docs).system allowed).Invariant (fun p => ∀ t ∈ p.threads,
      ∃ c : Command, (∀ spec, c.ws.graph = .ok spec → docs spec) ∧
        t.rest.Meets (Protocol b c) Settled t.past ∧
        Along (fun h x => Protocol b c h x.effect) t.past) := by
    refine Machine.threads_meet ?_
    rintro w p ⟨c, hdocs, rfl⟩
    exact ⟨c, hdocs, c.call_meets b⟩
  intro p hp t ht
  obtain ⟨c, hdocs, hrest, hpast⟩ := hmeets p hp t ht
  exact ⟨c, hdocs, hrest, hpast⟩

/-- An opened run is bound to its document. -/
theorem Opened.bound {c : Command} {h : List Did} {spec : GraphSpec} {run : GraphRun} {s : Store}
    (ho : Opened c h spec run) (hh : ∀ x ∈ h, x.Holds s) : s.Bound run spec := by
  obtain ⟨fresh, hfresh⟩ := ho.stored
  obtain ⟨id, hid⟩ := ho.read
  refine ⟨⟨hh _ hid run rfl, ?_⟩, ho.admitted⟩
  rw [ho.ofRun]
  exact hh _ hfresh fresh rfl

variable {c : Command} {h : List Did} {spec : GraphSpec} {run : GraphRun}

/-- The claim a sealing is made under. -/
theorem Sealing.claimed {sched : Scheduler} {claim : Claim} {a : Attempt}
    (hseal : Sealing b c h sched claim a) : Opened c h sched.spec sched.run ∧ owing h = none ∧
      ∃ claimedAt, Did.claimed sched c.now claimedAt claim ∈ h := by
  cases hseal with
  | patch f bytes hsched hclaim history ha =>
    subst hsched hclaim
    have hgrow : f.history <+: h := history ▸ List.prefix_append _ _
    refine ⟨f.opened.append (f.before_prefix.trans hgrow), ?_, f.claimedAt, hgrow.subset ?_⟩
    · rw [history, owing, List.foldl_append]
      exact f.owing_history
    · simp [Freeze.history]
  | check k hsched hclaim history ha =>
    subst hsched hclaim
    have hgrow : k.toFreeze.history <+: h := history ▸ List.prefix_append _ _
    refine ⟨k.opened.append (k.before_prefix.trans hgrow), ?_, k.claimedAt, hgrow.subset ?_⟩
    · rw [history, Check.history, owing, List.foldl_append]
      exact k.owing_history
    · simp [Freeze.history]
  | failed claimedAt opened quiet hclaim ha => exact ⟨opened, quiet, claimedAt, hclaim⟩

/-- The run and the graph of an admission. -/
theorem Admitting.opened {spec : GraphSpec} {run : GraphRun} {receipt : VerifierReceipt}
    (hentered : Admitting b c h spec run receipt) : Opened c h spec run ∧ owing h = none := by
  cases hentered with
  | check k id history hspec hrun issued =>
    subst hspec hrun
    have hgrow : k.toFreeze.history <+: h := by
      rw [history, Check.history, List.append_assoc]
      exact List.prefix_append _ _
    refine ⟨k.opened.append (k.before_prefix.trans hgrow), ?_⟩
    rw [history, owing_append]
    rfl
  | verify v child response id history hspec hrun answered issued =>
    subst hspec hrun
    refine ⟨v.opened.append (history ▸ List.prefix_append _ _), ?_⟩
    rw [history, owing_append]
    exact v.quiet

/-- Every operation of a call is in legal use. -/
theorem Protocol.legal {s : Store} {op : LedgerOp} (hp : Protocol b c h (.ledger op))
    (hh : ∀ x ∈ h, x.Holds s) : op.Legal s := by
  cases op with
  | storeGraph spec => trivial
  | claimNext sched now claimedAt => exact hp.1.bound hh
  | complete sched claim a =>
    obtain ⟨ho, -, claimedAt, hclaim⟩ := Sealing.claimed hp
    exact ⟨sched.run, (hh _ hclaim claim rfl).1.symm, ho.bound hh⟩
  | admitReceipt spec run receipt now => exact hp.1.opened.1.bound hh
  | applyRetryPolicy spec run id narrowing now => exact hp.1.bound hh
  | openResolveWork spec run id now expiresAt => exact hp.1.bound hh
  | createRun run => exact hp.elim
  | cancel sched id => exact hp.elim
  | reclaim sched id now => exact hp.elim
  | revokeReceipt run receiptId reason => exact hp.elim
  | admitDecision run d => exact hp.elim
  | appendDecision run id packet decision payload => exact hp.elim

/-- What an operation answers is true of the store it leaves. -/
theorem Did.holds_exec {rt : Runtime} {s : Store} (op : LedgerOp) (legal : op.Legal s)
    (hdist : Distinct rt docs) (hdocs : ∀ row ∈ s.graphs,
      docs row.spec ∧ graphSpecDigest rt row.spec = .ok row.digest)
    (hspec : ∀ spec, op = .storeGraph spec → docs spec) :
    Did.Holds (op.exec rt s).2 ⟨.ledger op, (op.exec rt s).1⟩ := by
  cases op with
  | storeGraph spec =>
    intro fresh hr
    have hbody := Store.transaction_ok hr
    show Store.specOf (s.transaction (s.storeGraph rt spec)).2 spec.graphRef = some spec
    revert hbody
    generalize (s.transaction (s.storeGraph rt spec)).2 = s'
    intro hbody
    unfold Store.storeGraph at hbody
    obtain ⟨digest, hdigest, hbody⟩ := bind_ok hbody
    obtain ⟨_, -, hbody⟩ := bind_ok hbody
    split at hbody
    · rename_i row hfind
      split at hbody
      · rename_i heq
        cases hbody
        obtain ⟨hrow, hrowDigest⟩ := hdocs row (List.mem_of_find?_eq_some hfind)
        have href : row.spec.graphRef = spec.graphRef := by simpa using List.find?_some hfind
        have hsame : row.spec = spec := by
          refine hdist _ _ digest hrow (hspec spec rfl) href ?_ (mapError_ok hdigest)
          rw [hrowDigest, heq]
        rw [Store.specOf, hfind, Option.map_some, hsame]
      · cases hbody
    · rename_i hnone
      cases hbody
      rw [Store.specOf, List.find?_append, hnone]
      simp
  | claimNext sched now claimedAt =>
    intro claim hr
    have hbody := Store.transaction_ok hr
    rcases Scheduler.claimNext_ok rt hbody with ⟨hnone, -⟩ |
      ⟨claim', node, st, state, next, snapshot, hsame, hclaimed⟩
    · exact absurd rfl (hnone claim)
    · cases hsame
      have hkey := hclaimed.claim_eq
      refine ⟨congrArg Claim.runId hkey, sched.newRow node claim.number
        (s.nextFence sched.run.runId) snapshot.receiptRefs claimedAt, ?_, ?_, ?_⟩
      · show _ ∈ Store.claims (s.transaction (sched.claimNext rt s now claimedAt)).2
        rw [hclaimed.store_eq]
        exact List.mem_append_right _ (List.mem_singleton_self _)
      · have hrun : claim.runId = sched.run.runId := congrArg Claim.runId hkey
        have hnode : claim.nodeId = node.id := congrArg Claim.nodeId hkey
        simp only [ClaimRow.key, Claim.key, Scheduler.newRow, hrun, hnode]
      · exact (congrArg Claim.dependencyReceipts hkey).symm
  | complete sched claim a =>
    intro hr
    have hbody := Store.transaction_ok hr
    obtain ⟨row, execution, st, state, next, hdone⟩ := Scheduler.complete_ok rt hbody
    refine ⟨?_, ?_⟩
    · show a ∈ Store.attempts (s.transaction (sched.complete rt s claim a)).2
      rw [hdone.store_eq]
      exact List.mem_append_right _ (List.mem_singleton_self _)
    · simp only [Attempt.key, Claim.key, hdone.runId_eq, hdone.number_eq,
        GraphSpec.nodeRef_nodeId hdone.nodeRef_eq]
  | createRun run => trivial
  | cancel sched id => trivial
  | reclaim sched id now => trivial
  | admitReceipt spec run receipt now => trivial
  | applyRetryPolicy spec run id narrowing now => trivial
  | openResolveWork spec run id now expiresAt => trivial
  | revokeReceipt run receiptId reason => trivial
  | admitDecision run d => trivial
  | appendDecision run id packet decision payload => trivial

theorem Effect.ledger_or (e : Effect) : (∃ op, e = .ledger op) ∨ ∀ op, e ≠ .ledger op := by
  by_cases h : ∃ op, e = .ledger op
  · exact Or.inl h
  · exact Or.inr (fun op hop => h ⟨op, hop⟩)

/-- An effect other than a ledger operation leaves the store, and what it reads is
true of it. -/
theorem Effect.Performs.holds {rt : Runtime} {w w' : World} {e : Effect} {r : e.Answer}
    (hperf : e.Performs rt w r w') (hread : ∀ op, e ≠ .ledger op) :
    w'.store = w.store ∧ Did.Holds w.store ⟨e, r⟩ := by
  cases e with
  | ledger op => exact absurd rfl (hread op)
  | run id =>
    refine ⟨congrArg World.store hperf.2, ?_⟩
    intro record hr
    obtain ⟨hfind, -⟩ := Store.readOptional_some (hperf.1.symm.trans hr)
    exact List.mem_of_find?_eq_some hfind
  | attempt id node number =>
    refine ⟨congrArg World.store hperf.2, ?_⟩
    intro a hr
    obtain ⟨hfind, -⟩ := Store.readOptional_some (hperf.1.symm.trans hr)
    have hp := List.find?_some hfind
    simp only [decide_eq_true_eq] at hp
    exact ⟨List.mem_of_find?_eq_some hfind, hp.1, hp.2.1⟩
  | events id => exact ⟨congrArg World.store hperf.2, trivial⟩
  | resolve claim spec run st now => exact ⟨congrArg World.store hperf.2, trivial⟩
  | clock => exact ⟨congrArg World.store hperf, trivial⟩
  | observe claim => exact ⟨congrArg World.store hperf, trivial⟩
  | makeDir path => exact ⟨congrArg World.store hperf, trivial⟩
  | write path bytes => exact ⟨hperf.1, trivial⟩
  | read path => exact ⟨congrArg World.store hperf.1, trivial⟩
  | currentExe => exact ⟨congrArg World.store hperf, trivial⟩
  | child args request =>
    cases args with
    | patch artifact => exact ⟨congrArg World.store hperf.1, trivial⟩
    | software profile out => exact ⟨hperf.1, trivial⟩

/-- How a step changes the store: by an operation in legal use, or not at all. -/
inductive StoreStep (rt : Runtime) (docs : GraphSpec → Prop) (s s' : Store) : Prop
  | same (h : s' = s)
  | op (op : LedgerOp) (legal : op.Legal s) (hdocs : ∀ spec, op = .storeGraph spec → docs spec)
      (h : s' = (op.exec rt s).2)

/-- The thread that acts keeps to its protocol. -/
theorem Follows.protocol {t : Thread Effect Effect.Answer (Except RunError (List Action))}
    (hf : Follows b docs c t) {e : Effect}
    {k : e.Answer → Proc Effect Effect.Answer (Except RunError (List Action))}
    (ht : t.rest = .act e k) : Protocol b c t.past e := by
  have hrest := hf.rest
  rw [ht] at hrest
  exact hrest.1

theorem Machine.Step.store {p p' : Sessions} {m : SessionMove} (hg : Grounded b.runtime docs p)
    (hf : ∀ t ∈ p.threads, ∃ c, Follows b docs c t) (hstep : (sessions b docs).Step p m p') :
    StoreStep b.runtime docs p.world.store p'.world.store := by
  cases hstep with
  | start h => exact StoreStep.same rfl
  | @env op w h =>
    obtain ⟨legal, houtside, rfl⟩ := h
    refine StoreStep.op op legal ?_ rfl
    rintro spec rfl
    exact houtside
  | @act i past e k r w hi h =>
    obtain ⟨c, hc⟩ := hf _ (List.mem_of_getElem? hi)
    have hp := hc.protocol rfl
    rcases e.ledger_or with ⟨op, rfl⟩ | hread
    · obtain ⟨-, rfl⟩ := h
      refine StoreStep.op op (hp.legal (hg.holds _ (List.mem_of_getElem? hi))) ?_ rfl
      rintro spec rfl
      exact hc.documents spec hp.1
    · exact StoreStep.same (@Effect.Performs.holds b.runtime _ _ _ _ h hread).1

/-- Every reachable pool is grounded. -/
theorem grounded_invariant (hdist : Distinct b.runtime docs) :
    ((sessions b docs).system allowed).Invariant (Grounded b.runtime docs) := by
  refine System.Invariant.step follows_invariant ?_ ?_
  · rintro p ⟨hempty, hthreads⟩
    have hstore : p.world.store = Store.empty := hempty
    refine { reachable := .init hstore, documents := ?_, holds := ?_ }
    · rw [hstore]
      exact fun row hrow => absurd hrow List.not_mem_nil
    · rw [hthreads]
      exact fun t ht => absurd ht List.not_mem_nil
  · rintro p m p' hf hg ⟨-, hstep⟩
    have hsound := sound_invariant _ _ hg.reachable
    have hstore := Machine.Step.store hg hf hstep
    have hkeep : ∀ x : Did, x.Holds p.world.store → x.Holds p'.world.store := by
      intro x hx
      cases hstore with
      | same h => exact h ▸ hx
      | op op legal hdocs h =>
        rw [h]
        exact hx.keep (exec_step _ _ legal) hsound
    refine { reachable := ?_, documents := ?_, holds := ?_ }
    · cases hstore with
      | same h => exact h ▸ hg.reachable
      | op op legal hdocs h => exact .step (a := op) hg.reachable ⟨legal, h⟩
    · cases hstore with
      | same h => exact h ▸ hg.documents
      | op op legal hdocs h =>
        rw [h]
        rcases @exec_graphs b.runtime p.world.store op with heq |
          ⟨spec, digest, rfl, -, hdigest, -, heq⟩
        · rw [heq]
          exact hg.documents
        · rw [heq]
          intro row hrow
          rcases List.mem_append.mp hrow with hrow | hrow
          · exact hg.documents row hrow
          · rw [List.mem_singleton.mp hrow]
            exact ⟨hdocs spec rfl, hdigest⟩
    · intro t ht x hx
      cases hstep with
      | start h =>
        rcases List.mem_append.mp ht with ht | ht
        · exact hkeep x (hg.holds t ht x hx)
        · rw [List.mem_singleton.mp ht] at hx
          exact absurd hx List.not_mem_nil
      | env h => exact hkeep x (hg.holds t ht x hx)
      | @act i past e k r w hi h =>
        rcases Machine.mem_set ht with ht | rfl
        · exact hkeep x (hg.holds t ht x hx)
        · rcases List.mem_append.mp hx with hx | hx
          · exact hkeep x (hg.holds _ (List.mem_of_getElem? hi) x hx)
          · rw [List.mem_singleton.mp hx]
            obtain ⟨c, hc⟩ := hf _ (List.mem_of_getElem? hi)
            have hp := hc.protocol rfl
            rcases e.ledger_or with ⟨op, rfl⟩ | hread
            · obtain ⟨rfl, rfl⟩ := h
              refine Did.holds_exec op (hp.legal (hg.holds _ (List.mem_of_getElem? hi))) hdist
                hg.documents ?_
              rintro spec rfl
              exact hc.documents spec hp.1
            · obtain ⟨hsame, hholds⟩ := @Effect.Performs.holds b.runtime _ _ _ _ h hread
              exact hsame ▸ hholds

end

end Checkspan
