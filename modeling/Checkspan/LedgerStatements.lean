import Checkspan.FileReads

/-!
# The ledger's transactions as statements

Each operation of the ledger writes by the statements of the store, so the ledger it leaves is the
one the file holds after them.
-/

namespace Checkspan

open Transition

/-! ### What is kept -/

/-- The events of a ledger and the fences of its claims, in a later one. -/
structure Store.Grown (s s' : Store) : Prop where
  events : ∀ e ∈ s.events, e ∈ s'.events
  fences : ∀ c ∈ s.claims, ∃ c' ∈ s'.claims, c'.fence = c.fence

/-- The statement's events and fences are in the ledger, and a claim went in as a new one. -/
def Statement.Left (s : Store) : Statement → Prop
  | appendEvent _ _ kind payload => ∃ e ∈ s.events, e.kind = kind ∧ e.payload = payload
  | insertClaim now c => c.claimedAt = now ∧ c.active = true ∧ c.release = none ∧
      ∃ c' ∈ s.claims, c'.fence = c.fence
  | releaseClaim _ _ _ fence _ => ∃ c ∈ s.claims, c.fence = fence
  | revokeReceipt _ receiptId reason => ∃ e ∈ s.events, e.kind = kinds.receiptRevoked ∧
      e.payload = .obj [("receipt_id", .str receiptId), ("reason", .str reason)]
  | _ => True

theorem Statement.Left.grown {s s' : Store} (h : s.Grown s') {statement : Statement}
    (hleft : statement.Left s) : statement.Left s' := by
  cases statement with
  | appendEvent run node kind payload =>
    obtain ⟨e, he, heq⟩ := hleft
    exact ⟨e, h.events e he, heq⟩
  | insertClaim now c =>
    obtain ⟨hnow, hactive, hrelease, c', hc', hfence⟩ := hleft
    obtain ⟨c'', hc'', heq⟩ := h.fences c' hc'
    exact ⟨hnow, hactive, hrelease, c'', hc'', heq.trans hfence⟩
  | releaseClaim run node number fence release =>
    obtain ⟨c, hc, hfence⟩ := hleft
    obtain ⟨c', hc', heq⟩ := h.fences c hc
    exact ⟨c', hc', heq.trans hfence⟩
  | revokeReceipt run receiptId reason =>
    obtain ⟨e, he, heq⟩ := hleft
    exact ⟨e, h.events e he, heq⟩
  | _ => trivial

/-- In a ledger that reads back, a statement that left its rows is one the file takes. -/
theorem Statement.Left.plain {rt : Runtime} {sq : Sqlite} {s : Store} (hs : s.Readable rt sq)
    {statement : Statement} (hleft : statement.Left s) : statement.Plain sq rt := by
  cases statement with
  | appendEvent run node kind payload =>
    obtain ⟨e, he, rfl, rfl⟩ := hleft
    exact hs.named e he
  | insertClaim now c =>
    obtain ⟨hnow, hactive, hrelease, c', hc', hfence⟩ := hleft
    exact ⟨hnow, hactive, hrelease, hfence ▸ hs.fences c' hc'⟩
  | releaseClaim run node number fence release =>
    obtain ⟨c, hc, rfl⟩ := hleft
    exact hs.fences c hc
  | revokeReceipt run receiptId reason =>
    obtain ⟨e, he, hkind, hpayload⟩ := hleft
    change sq.Names rt _
    rw [← hpayload]
    exact hs.named e he (Or.inr hkind)
  | _ => trivial

namespace Store

theorem Grown.same {s s' : Store} (hevents : s'.events = s.events)
    (hclaims : s'.claims = s.claims) :
    s.Grown s' where
  events _ he := hevents ▸ he
  fences c hc := ⟨c, hclaims ▸ hc, rfl⟩

theorem Grown.event {s s' : Store} {e : StoredEvent} (hevents : s'.events = s.events ++ [e])
    (hclaims : s'.claims = s.claims) : s.Grown s' where
  events _ he := hevents ▸ List.mem_append_left _ he
  fences c hc := ⟨c, hclaims ▸ hc, rfl⟩

theorem Grown.trans {s t u : Store} (h : s.Grown t) (h' : t.Grown u) : s.Grown u where
  events e he := h'.events e (h.events e he)
  fences c hc := by
    obtain ⟨c', hc', heq⟩ := h.fences c hc
    obtain ⟨c'', hc'', heq'⟩ := h'.fences c' hc'
    exact ⟨c'', hc'', heq'.trans heq⟩

/-! ### Sequences -/

variable {rt : Runtime} {s s₁ s₂ : Store}

/-- The statements from one ledger to the next, with what they left. -/
def Issued (rt : Runtime) (s s' : Store) : Prop :=
  ∃ batch answers, issue (perform rt) batch s = .ok (answers, s') ∧ (∀ st ∈ batch, st.Left s') ∧
    s.Grown s'

theorem Issued.refl (s : Store) : Issued rt s s :=
  ⟨[], [], rfl, fun _ h => absurd h List.not_mem_nil, .same rfl rfl⟩

theorem issue_append {batch rest : List Statement} {answers more : List Bool}
    (h : issue (perform rt) batch s = .ok (answers, s₁))
    (h' : issue (perform rt) rest s₁ = .ok (more, s₂)) :
    issue (perform rt) (batch ++ rest) s = .ok (answers ++ more, s₂) := by
  induction batch generalizing s answers with
  | nil =>
    cases h
    exact h'
  | cons st batch ih =>
    obtain ⟨⟨answer, t⟩, ht, h⟩ := bind_ok h
    obtain ⟨⟨answers', t'⟩, ht', h⟩ := bind_ok h
    cases h
    rw [List.cons_append, issue, ht]
    change (issue (perform rt) (batch ++ rest) t >>= _) = _
    rw [ih ht']
    rfl

theorem Issued.trans (h : Issued rt s s₁) (h' : Issued rt s₁ s₂) : Issued rt s s₂ := by
  obtain ⟨batch, answers, hissue, hleft, hgrown⟩ := h
  obtain ⟨rest, more, hissue', hleft', hgrown'⟩ := h'
  refine ⟨batch ++ rest, answers ++ more, issue_append hissue hissue', ?_, hgrown.trans hgrown'⟩
  intro st hst
  rcases List.mem_append.mp hst with hst | hst
  · exact (hleft st hst).grown hgrown'
  · exact hleft' st hst

theorem Issued.one {st : Statement} {answer : Bool} (h : perform rt st s = .ok (answer, s₁))
    (hleft : st.Left s₁) (hgrown : s.Grown s₁) : Issued rt s s₁ := by
  refine ⟨[st], [answer], ?_, List.forall_mem_singleton.mpr hleft, hgrown⟩
  rw [issue, h]
  rfl

theorem issued_appendEvent {run : RunId} {node : Option NodeId} {kind : String} {payload : Json}
    (h : s.appendEvent rt run node kind payload = .ok s₁) : Issued rt s s₁ := by
  have hperform : perform rt (.appendEvent run node kind payload) s = .ok (true, s₁) := by
    rw [perform, h]
    rfl
  obtain ⟨-, rfl⟩ := appendEvent_ok rt h
  exact .one hperform ⟨_, List.mem_append_right _ (List.mem_singleton_self _), rfl, rfl⟩
    (.event rfl rfl)

theorem issued_sealAttempt {a : Attempt} (h : s.sealAttempt rt a = .ok s₁) : Issued rt s s₁ := by
  have hperform : perform rt (.sealAttempt a) s = .ok (true, s₁) := by
    rw [perform, h]
    rfl
  obtain ⟨-, rfl⟩ := sealAttempt_ok rt h
  exact .one hperform trivial (.event rfl rfl)

theorem issued_insertReceipt {r : VerifierReceipt} (h : s.insertReceipt rt r = .ok s₁) :
    Issued rt s s₁ := by
  have hperform : perform rt (.insertReceipt r) s = .ok (true, s₁) := by
    rw [perform, h]
    rfl
  obtain ⟨-, rfl⟩ := insertReceipt_ok rt h
  exact .one hperform trivial (.same rfl rfl)

theorem issued_insertGatePacket {p : GatePacket} (h : s.insertGatePacket rt p = .ok s₁) :
    Issued rt s s₁ := by
  have hperform : perform rt (.insertGatePacket p) s = .ok (true, s₁) := by
    rw [perform, h]
    rfl
  obtain rfl := insertGatePacket_ok rt h
  exact .one hperform trivial (.same rfl rfl)

theorem issued_insertGateDecision {run : RunId} {d : GateDecision}
    (h : s.insertGateDecision rt run d = .ok s₁) : Issued rt s s₁ := by
  have hperform : perform rt (.insertGateDecision run d) s = .ok (true, s₁) := by
    rw [perform, h]
    rfl
  obtain rfl := insertGateDecision_ok rt h
  exact .one hperform trivial (.same rfl rfl)

theorem issued_insertClaim {c : ClaimRow} (h : s.insertClaim c = .ok s₁) (hactive : c.active = true)
    (hrelease : c.release = none) : Issued rt s s₁ := by
  have hperform : perform rt (.insertClaim c.claimedAt c) s = .ok (true, s₁) := by
    rw [perform, h]
    rfl
  obtain ⟨-, -, -, rfl⟩ := insertClaim_ok h
  refine .one hperform ⟨rfl, hactive, hrelease, c, ?_, rfl⟩ ?_
  · exact List.mem_append_right _ (List.mem_singleton_self c)
  · exact ⟨fun _ he => he, fun c hc => ⟨c, List.mem_append_left _ hc, rfl⟩⟩

theorem issued_releaseClaim {run : RunId} {node : NodeId} {number fence : Nat} (release : String)
    (h : ∃ c ∈ s.claims, c.fence = fence) :
    Issued rt s (s.releaseClaim run node number fence release).2 := by
  have hgrown : s.Grown (s.releaseClaim run node number fence release).2 := by
    refine ⟨fun _ he => he, ?_⟩
    intro c hc
    exact ⟨_, List.mem_map_of_mem hc, ClaimRow.releaseIf_fence _ _ c⟩
  have hperform : perform rt (.releaseClaim run node number fence release) s =
      .ok (s.releaseClaim run node number fence release) := rfl
  refine .one hperform ?_ hgrown
  obtain ⟨c, hc, rfl⟩ := h
  exact hgrown.fences c hc

theorem issued_storeGraph {spec : GraphSpec} {inserted : Bool}
    (h : s.storeGraph rt spec = .ok (inserted, s₁)) : Issued rt s s₁ := by
  refine @Issued.one _ _ _ (.storeGraph spec) _ h trivial ?_
  obtain ⟨digest, -, h⟩ := bind_ok h
  obtain ⟨_, -, h⟩ := bind_ok h
  split at h
  · split at h
    · cases h
      exact .same rfl rfl
    · cases h
  · cases h
    exact .same rfl rfl

theorem issued_createRun {run : GraphRun} (h : s.createRun rt run = .ok ((), s₁)) :
    Issued rt s s₁ := by
  have hperform : perform rt (.createRun run) s = .ok (true, s₁) := by
    rw [perform, h]
    rfl
  refine .one hperform trivial ?_
  obtain ⟨_, -, h⟩ := bind_ok h
  obtain ⟨_, -, h⟩ := bind_ok h
  obtain ⟨_, -, h⟩ := bind_ok h
  obtain ⟨t, ht, h⟩ := bind_ok h
  cases h
  obtain ⟨-, rfl⟩ := appendEvent_ok rt ht
  exact .event rfl rfl

theorem issued_revokeReceipt {run : RunId} {receiptId reason : String}
    (h : s.revokeReceipt rt run receiptId reason = .ok ((), s₁)) : Issued rt s s₁ := by
  have hperform : perform rt (.revokeReceipt run receiptId reason) s = .ok (true, s₁) := by
    rw [perform, h]
    rfl
  obtain ⟨_, -, h⟩ := bind_ok h
  obtain ⟨t, ht, h⟩ := bind_ok h
  cases h
  obtain ⟨-, rfl⟩ := appendEvent_ok rt ht
  exact .one hperform ⟨_, List.mem_append_right _ (List.mem_singleton_self _), rfl, rfl⟩
    (.event rfl rfl)

/-! ### Operations -/

variable {sched : Scheduler}

theorem issued_claimNext {now : Timestamp} {claimedAt : String} {out : ClaimOutcome}
    (h : sched.claimNext rt s now claimedAt = .ok (out, s₁)) : Issued rt s s₁ := by
  obtain ⟨st, -, h⟩ := bind_ok h
  obtain ⟨budget, -, h⟩ := bind_ok h
  split at h
  · cases h
    exact .refl s
  · split at h
    · cases h
      exact .refl s
    · split at h
      · cases h
        exact .refl s
      · obtain ⟨number, -, h⟩ := bind_ok h
        obtain ⟨_, -, h⟩ := bind_ok h
        obtain ⟨t, ht, h⟩ := bind_ok h
        obtain ⟨t', ht', h⟩ := bind_ok h
        cases h
        exact (issued_insertClaim (mapError_ok ht) rfl rfl).trans
          (issued_appendEvent (mapError_ok ht'))

/-- A fence stays in the claims. -/
theorem Issued.fence (h : Issued rt s s₁) {fence : Nat} (hs : ∃ c ∈ s.claims, c.fence = fence) :
    ∃ c ∈ s₁.claims, c.fence = fence := by
  obtain ⟨_, _, -, -, hgrown⟩ := h
  obtain ⟨c, hc, rfl⟩ := hs
  exact hgrown.fences c hc

theorem heldClaim_fence {claim : Claim} {row : ClaimRow}
    (h : Scheduler.heldClaim s claim = .ok row) : ∃ c ∈ s.claims, c.fence = claim.fence := by
  obtain ⟨hclaim, -, hfence, -⟩ := Scheduler.heldClaim_ok h
  exact ⟨row, List.mem_of_find?_eq_some hclaim, hfence⟩

theorem issued_complete {claim : Claim} {attempt : Attempt}
    (h : sched.complete rt s claim attempt = .ok ((), s₁)) : Issued rt s s₁ := by
  obtain ⟨execution, -, h⟩ := bind_ok h
  obtain ⟨row, hrow, h⟩ := bind_ok h
  obtain ⟨_, -, h⟩ := bind_ok h
  obtain ⟨state, -, h⟩ := bind_ok h
  obtain ⟨_, -, h⟩ := bind_ok h
  obtain ⟨t, ht, h⟩ := bind_ok h
  obtain ⟨_, -, h⟩ := bind_ok h
  cases h
  have hsealed := issued_sealAttempt (mapError_ok ht)
  exact hsealed.trans (issued_releaseClaim "completed" (hsealed.fence (heldClaim_fence hrow)))

theorem issued_releases (run : RunId) (id : NodeId) (release : String) {rows : List ClaimRow}
    (h : ∀ row ∈ rows, ∃ c ∈ s.claims, c.fence = row.fence) :
    Issued rt s (rows.foldl (Scheduler.releaseIfOf run id release) s) := by
  induction rows generalizing s with
  | nil => exact .refl s
  | cons row rows ih =>
    obtain ⟨hrow, hrows⟩ := List.forall_mem_cons.mp h
    have hone : Issued rt s (Scheduler.releaseIfOf run id release s row) := by
      unfold Scheduler.releaseIfOf
      split
      · exact issued_releaseClaim release hrow
      · exact .refl s
    exact hone.trans (ih (fun r hr => hone.fence (hrows r hr)))

theorem issued_cancel {id : NodeId} (h : sched.cancel rt s id = .ok ((), s₁)) : Issued rt s s₁ := by
  obtain ⟨_, -, h⟩ := bind_ok h
  obtain ⟨state, -, h⟩ := bind_ok h
  obtain ⟨_, -, h⟩ := bind_ok h
  obtain ⟨t, ht, h⟩ := bind_ok h
  cases h
  refine (issued_releases sched.run.runId id "cancelled" ?_).trans
    (issued_appendEvent (mapError_ok ht))
  intro row hrow
  exact ⟨row, (mem_activeClaims.mp hrow).1, rfl⟩

theorem issued_reclaim {id : NodeId} {now : Timestamp} {number : AttemptNumber}
    (h : sched.reclaim rt s id now = .ok (number, s₁)) : Issued rt s s₁ := by
  obtain ⟨node, -, h⟩ := bind_ok h
  obtain ⟨row, hrow, h⟩ := bind_ok h
  obtain ⟨st, -, h⟩ := bind_ok h
  obtain ⟨startedAt, -, h⟩ := bind_ok h
  obtain ⟨state, -, h⟩ := bind_ok h
  obtain ⟨_, -, h⟩ := bind_ok h
  obtain ⟨t, ht, h⟩ := bind_ok h
  cases h
  have hsealed := issued_sealAttempt (mapError_ok ht)
  have hmem := mem_activeClaims.mp (List.mem_of_find?_eq_some (someOr_ok hrow))
  exact hsealed.trans (issued_releaseClaim "reclaimed" (hsealed.fence ⟨row, hmem.1, rfl⟩))

theorem issued_admitReceipt {spec : GraphSpec} {run : GraphRun} {receipt : VerifierReceipt}
    {now : Timestamp} (h : Receipts.admitReceipt rt s spec run receipt now = .ok ((), s₁)) :
    Issued rt s s₁ := by
  obtain ⟨node, -, h⟩ := bind_ok h
  obtain ⟨attempt, -, h⟩ := bind_ok h
  obtain ⟨st, -, h⟩ := bind_ok h
  obtain ⟨_, -, h⟩ := bind_ok h
  obtain ⟨_, -, h⟩ := bind_ok h
  obtain ⟨t, ht, h⟩ := bind_ok h
  obtain ⟨t', ht', h⟩ := bind_ok h
  cases h
  exact (issued_insertReceipt (mapError_ok ht)).trans (issued_appendEvent (mapError_ok ht'))

theorem issued_applyRetryPolicy {spec : GraphSpec} {run : GraphRun} {id : NodeId}
    {narrowing : Narrowing} {now : Timestamp} {decision : Disposition}
    (h : Budget.applyRetryPolicy rt s spec run id narrowing now = .ok (decision, s₁)) :
    Issued rt s s₁ := by
  obtain ⟨node, -, h⟩ := bind_ok h
  obtain ⟨state, -, h⟩ := bind_ok h
  obtain ⟨d, -, h⟩ := bind_ok h
  obtain ⟨t, ht, h⟩ := bind_ok h
  cases h
  unfold Budget.applyDisposition at ht
  split at ht
  · obtain ⟨_, -, ht⟩ := bind_ok ht
    obtain ⟨_, -, ht⟩ := bind_ok ht
    exact issued_appendEvent (mapError_ok ht)
  · obtain ⟨_, -, ht⟩ := bind_ok ht
    obtain ⟨_, -, ht⟩ := bind_ok ht
    exact issued_appendEvent (mapError_ok ht)
  · cases ht
    exact .refl s

theorem issued_openResolveWork {spec : GraphSpec} {run : GraphRun} {id : NodeId}
    {now expiresAt : Timestamp} {packet : GatePacket}
    (h : Gates.openResolveWork rt s spec run id now expiresAt = .ok (packet, s₁)) :
    Issued rt s s₁ := by
  obtain ⟨_, -, h⟩ := bind_ok h
  obtain ⟨node, -, h⟩ := bind_ok h
  obtain ⟨st, -, h⟩ := bind_ok h
  obtain ⟨state, -, h⟩ := bind_ok h
  obtain ⟨number, -, h⟩ := bind_ok h
  obtain ⟨sealedRow, -, h⟩ := bind_ok h
  obtain ⟨attempt, -, h⟩ := bind_ok h
  obtain ⟨packet', -, h⟩ := bind_ok h
  obtain ⟨_, -, h⟩ := bind_ok h
  obtain ⟨next, -, h⟩ := bind_ok h
  obtain ⟨t, ht, h⟩ := bind_ok h
  obtain ⟨t', ht', h⟩ := bind_ok h
  cases h
  exact (issued_insertGatePacket (mapError_ok ht)).trans (issued_appendEvent (mapError_ok ht'))

theorem issued_admitDecision {run : RunId} {d : GateDecision}
    (h : s.admitDecision rt run d = .ok ((), s₁)) : Issued rt s s₁ := by
  obtain ⟨t, ht, h⟩ := bind_ok h
  obtain ⟨t', ht', h⟩ := bind_ok h
  cases h
  exact (issued_insertGateDecision ht).trans (issued_appendEvent ht')

theorem issued_transaction {ε α : Type} {body : Except ε (α × Store)}
    (h : ∀ a t, body = .ok (a, t) → Issued rt s t) : Issued rt s (s.transaction body).2 :=
  transaction_property (.refl s) h

/-- Every operation of the ledger is a sequence of statements. -/
theorem exec_issued (op : LedgerOp) (s : Store) : Issued rt s (op.exec rt s).2 := by
  cases op with
  | storeGraph spec => exact issued_transaction (fun _ _ h => issued_storeGraph h)
  | createRun run => exact issued_transaction (fun _ _ h => issued_createRun h)
  | claimNext sched now claimedAt => exact issued_transaction (fun _ _ h => issued_claimNext h)
  | complete sched claim attempt => exact issued_transaction (fun _ _ h => issued_complete h)
  | cancel sched id => exact issued_transaction (fun _ _ h => issued_cancel h)
  | reclaim sched id now => exact issued_transaction (fun _ _ h => issued_reclaim h)
  | admitReceipt spec run receipt now =>
    exact issued_transaction (fun _ _ h => issued_admitReceipt h)
  | applyRetryPolicy spec run id narrowing now =>
    exact issued_transaction (fun _ _ h => issued_applyRetryPolicy h)
  | openResolveWork spec run id now expiresAt =>
    exact issued_transaction (fun _ _ h => issued_openResolveWork h)
  | revokeReceipt run receiptId reason =>
    exact issued_transaction (fun _ _ h => issued_revokeReceipt h)
  | admitDecision run d => exact issued_transaction (fun _ _ h => issued_admitDecision h)
  | appendDecision run id packet decision payload =>
    refine issued_transaction ?_
    intro u t h
    obtain ⟨t', ht', heq⟩ := map_ok h
    cases heq
    exact issued_appendEvent ht'

end Store

/-! ### The file of a ledger -/

theorem transactions_append {σ ε : Type} {perform : Statement → σ → Except ε (Bool × σ)}
    {batch : List Statement} {answers : List Bool} {s t : σ} (batches : List (List Statement))
    (h : issue perform batch (transactions perform batches s).2 = .ok (answers, t)) :
    transactions perform (batches ++ [batch]) s =
      ((transactions perform batches s).1 ++ [.ok answers], t) := by
  induction batches generalizing s with
  | nil =>
    simp only [transactions] at h
    simp [transactions, h, commit]
  | cons first rest ih =>
    simp only [transactions, List.cons_append] at h ⊢
    rw [ih h]

theorem ledger_issued {rt : Runtime} {s : Store} (hs : (legalLedger rt).Reachable s) :
    ∃ batches, let t := transactions (Store.perform rt) batches Store.empty
      (∀ answer ∈ t.1, Except.isOk answer = true) ∧ t.2 = s ∧
        ∀ batch ∈ batches, ∀ st ∈ batch, st.Left s := by
  induction hs with
  | init h =>
    cases h
    refine ⟨[], ?_, rfl, ?_⟩
    · rintro answer ⟨⟩
    · rintro batch ⟨⟩
  | @step s s' op _ h ih =>
    obtain ⟨-, rfl⟩ := h
    obtain ⟨batches, hok, hstore, hleft⟩ := ih
    obtain ⟨batch, answers, hissue, hbatch, hgrown⟩ := @Store.exec_issued rt op s
    have happend := transactions_append (s := Store.empty) batches (by rw [hstore]; exact hissue)
    refine ⟨batches ++ [batch], ?_⟩
    rw [happend]
    refine ⟨?_, rfl, ?_⟩
    · intro answer hanswer
      rcases List.mem_append.mp hanswer with hanswer | hanswer
      · exact hok answer hanswer
      · rw [List.mem_singleton.mp hanswer]
        rfl
    · intro b hb st hst
      rcases List.mem_append.mp hb with hb | hb
      · exact (hleft b hb st hst).grown hgrown
      · exact hbatch st (List.mem_singleton.mp hb ▸ hst)

/-- A ledger reached by its operations is the one its file holds after the same transactions, all
of them committed, and every read of the file is a read of the ledger. -/
theorem ledger_read_from_file (rt : Runtime) (sq : Sqlite) (s : Store)
    (hs : (legalLedger rt).Reachable s) (hread : s.Readable rt sq) :
    ∃ batches, let d := transactions (Database.perform sq rt) batches Database.empty
      (∀ answer ∈ d.1, Except.isOk answer = true) ∧ d.2 = s.file rt ∧ s.ReadFrom rt sq d.2 := by
  obtain ⟨batches, hok, hstore, hleft⟩ := ledger_issued hs
  have hplain : ∀ batch ∈ batches, ∀ st ∈ batch, st.Plain sq rt :=
    fun batch hb st hst => (hleft batch hb st hst).plain hread
  have hfile := Store.file_transactions (s := Store.empty) hplain Database.empty_sound
  rw [hstore] at hfile
  have hwrites := @Database.transactions_wrote sq rt batches Database.empty
  have hsound := (Database.writes_keep hwrites Database.empty_sound).1
  refine ⟨batches, ?_⟩
  change transactions _ batches Database.empty = _ at hfile
  rw [hfile] at hsound ⊢
  refine ⟨?_, rfl, hread.readFrom hsound⟩
  intro answer hanswer
  obtain ⟨a, ha, rfl⟩ := List.mem_map.mp hanswer
  have haok := hok a ha
  cases a with
  | ok answers => rfl
  | error e => cases haok

/-! ### An accepted patch and its file -/

namespace Pilot

open Json (Same entry)

mutual

/-- A document as it is parsed: the entries of its objects by their names. -/
def settle : Json → Json
  | .arr items => .arr (settleItems items)
  | .obj fields => .obj ((settleFields fields).insertionSort (fun a b => a.1 ≤ b.1))
  | other => other

def settleItems : List Json → List Json
  | [] => []
  | item :: rest => settle item :: settleItems rest

def settleFields : List (String × Json) → List (String × Json)
  | [] => []
  | (k, v) :: rest => (k, settle v) :: settleFields rest

end

theorem entry_orderedInsert (f : String × Json) (fields : List (String × Json)) (name : String) :
    entry (fields.orderedInsert (fun a b => a.1 ≤ b.1) f) name = entry (f :: fields) name := by
  induction fields with
  | nil => rfl
  | cons g fields ih =>
    rw [List.orderedInsert_cons]
    split
    · rfl
    · rename_i hnot
      have hne : f.1 ≠ g.1 := fun h => hnot h.le
      rw [Json.entry_cons, ih, Json.entry_cons, Json.entry_cons, Json.entry_cons]
      by_cases hg : name = g.1
      · simp [hg, hne.symm]
      · simp [hg]

theorem entry_insertionSort (fields : List (String × Json)) (name : String) :
    entry (fields.insertionSort (fun a b => a.1 ≤ b.1)) name = entry fields name := by
  induction fields with
  | nil => rfl
  | cons f fields ih =>
    rw [List.insertionSort_cons, entry_orderedInsert, Json.entry_cons, Json.entry_cons, ih]

mutual

theorem same_settle : ∀ j : Json, Same j (settle j)
  | .null => .null
  | .bool b => .bool b
  | .num n => .num n
  | .float literal => .float literal
  | .str s => .str s
  | .arr items => .arr (same_settleItems items)
  | .obj fields => .obj fun name => by
    rw [entry_insertionSort]
    exact same_settleFields fields name

theorem same_settleItems : ∀ items : List Json, List.Forall₂ Same items (settleItems items)
  | [] => .nil
  | item :: rest => .cons (same_settle item) (same_settleItems rest)

theorem same_settleFields : ∀ (fields : List (String × Json)) (name : String),
    Option.Rel Same (entry fields name) (entry (settleFields fields) name)
  | [], _ => .none
  | (k, v) :: rest, name => by
    rw [settleFields, Json.entry_cons, Json.entry_cons]
    split
    · exact .some (same_settle v)
    · exact same_settleFields rest name

end

/-- The documents of a patch that is claimed, sealed and accepted. -/
def documents : List Json :=
  [spec.toJson, run.toJson, Store.runCreatedPayload run,
    Scheduler.dispatchPayload one controller 1 [], Store.sealedPayload (attemptOf patch []),
    Receipts.admittedPayload patchReceipt, (attemptOf patch []).toJson, patchReceipt.toJson,
    ReceiptRef.codec.list.write [], ResourceClaim.codec.list.write patch.resourceScope]

set_option maxRecDepth 10000 in
theorem documents_differ : (documents.map render).Nodup := by decide +kernel

def parseText (text : String) : Option Json :=
  (documents.find? (fun j => render j = text)).map settle

theorem parseText_render {j : Json} (h : j ∈ documents) : parseText (render j) =
    some (settle j) := by
  have hfind : documents.find? (fun k => render k = render j) = some j := by
    refine find?_of_unique h (decide_eq_true rfl) ?_
    intro other hother hsame
    exact List.inj_on_of_nodup_map documents_differ hother h (of_decide_eq_true hsame)
  rw [parseText, hfind, Option.map_some]

theorem document_readsBack {j : Json} (h : j ∈ documents) : ReadsBack rendering parseText j :=
  ⟨settle j, parseText_render h, same_settle j⟩

def receiptIdOf : Option Json → SqlValue
  | some (.str id) => .text id
  | some (.num n) => .number (toString n)
  | _ => .null

def sqlite : Sqlite where
  parse := parseText
  serde _ _ := ""
  receiptId text := receiptIdOf ((parseText text).bind (·.get "receipt_id"))

theorem receiptId_render {j : Json} (h : j ∈ documents) :
    sqlite.receiptId (render j) = receiptIdOf ((settle j).get "receipt_id") := by
  change receiptIdOf ((parseText (render j)).bind (·.get "receipt_id")) = _
  rw [parseText_render h]
  rfl

def patchFiled : Store := recorded.play rendering [claimPatch, completePatch, admitPatch]

set_option maxRecDepth 100000 in
theorem patchFiled_eq : patchFiled = {
    graphs := [⟨spec, zeroDigest⟩]
    runs := [run]
    events := [⟨1, runId, none, kinds.runCreated, Store.runCreatedPayload run⟩,
      ⟨2, runId, some patchId, kinds.attemptDispatched,
        Scheduler.dispatchPayload one controller 1 []⟩,
      ⟨3, runId, some patchId, kinds.attemptSealed, Store.sealedPayload (attemptOf patch [])⟩,
      ⟨4, runId, some patchId, kinds.receiptAdmitted, Receipts.admittedPayload patchReceipt⟩]
    attempts := [attemptOf patch []]
    receipts := [patchReceipt]
    gatePackets := []
    gateDecisions := []
    claims := [{ patchRow with active := false, release := some "completed" }]
    artifacts := [] } := by rfl

theorem patchFiled_reachable : (legalLedger rendering).Reachable patchFiled := by
  have hof : ∀ op ∈ [claimPatch, completePatch, admitPatch], op.Of run spec := by decide +kernel
  exact (Store.play_reachable (fun _ _ h => h) recorded_reachable
    (bound (by decide +kernel) (by decide +kernel)) hof).1

theorem patchFiled_readable : patchFiled.Readable rendering sqlite := by
  have hadmitted : sqlite.Names rendering (Receipts.admittedPayload patchReceipt) := by
    have hget : receiptIdOf ((settle (Receipts.admittedPayload patchReceipt)).get "receipt_id") =
        .text patchReceipt.id.text := by decide +kernel
    exact ⟨patchReceipt.id.text, rfl, (receiptId_render (by simp [documents])).trans hget⟩
  have hother : ∀ {kind : String} {payload : Json}, kind ≠ kinds.receiptAdmitted →
      kind ≠ kinds.receiptRevoked → sqlite.Takes rendering kind payload := by
    rintro kind payload hone htwo (h | h)
    · exact absurd h hone
    · exact absurd h htwo
  have hversion : 1 < 2 ^ 32 := by decide
  have hnil : ∀ {α : Type} {P : α → Prop}, ∀ x ∈ ([] : List α), P x := by simp
  rw [patchFiled_eq]
  refine ⟨?_, ?_, ?_, ?_, ?_, ?_, ?_, ?_, ?_⟩
  · exact List.forall_mem_singleton.mpr
      ⟨hversion, document_readsBack (j := spec.toJson) (by simp [documents])⟩
  · exact List.forall_mem_singleton.mpr
      ⟨hversion, document_readsBack (j := run.toJson) (by simp [documents])⟩
  · exact List.forall_mem_singleton.mpr
      ⟨hversion, document_readsBack (j := (attemptOf patch []).toJson) (by simp [documents])⟩
  · exact List.forall_mem_singleton.mpr
      ⟨hversion, document_readsBack (j := patchReceipt.toJson) (by simp [documents])⟩
  · exact hnil
  · simp only [List.forall_mem_cons]
    exact ⟨document_readsBack (by simp [documents]), document_readsBack (by simp [documents]),
      document_readsBack (by simp [documents]), document_readsBack (by simp [documents]), hnil⟩
  · simp only [List.forall_mem_cons]
    exact ⟨hother (by decide) (by decide), hother (by decide) (by decide),
      hother (by decide) (by decide), fun _ => hadmitted, hnil⟩
  · exact List.forall_mem_singleton.mpr
      ⟨document_readsBack (j := ReceiptRef.codec.list.write []) (by simp [documents]),
        document_readsBack (j := ResourceClaim.codec.list.write patch.resourceScope)
          (by simp [documents])⟩
  · exact List.forall_mem_singleton.mpr (by decide)

end Pilot

open Pilot in
theorem ledger_read_from_file_patch :
    ∃ batches, let d := transactions (Database.perform sqlite rendering) batches Database.empty
      (∀ answer ∈ d.1, Except.isOk answer = true) ∧ d.2 = patchFiled.file rendering ∧
        patchFiled.ReadFrom rendering sqlite d.2 :=
  ledger_read_from_file rendering sqlite patchFiled patchFiled_reachable patchFiled_readable

end Checkspan
