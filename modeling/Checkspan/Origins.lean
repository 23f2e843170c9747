import Checkspan.Sealing
import Checkspan.Sessions

/-!
# Where rows come from

A completed attempt, a receipt and a claim are each in the store because one call put
it there: the call's history says what led to it, and no two calls got one claim.
-/

namespace Checkspan

open Process Transition

/-! ### What an operation adds -/

section

variable {rt : Runtime} {s : Store}

/-- A completed attempt after an operation was sealed before, or is what it seals. -/
theorem exec_attempts (op : LedgerOp) (legal : op.Legal s) {a : Attempt}
    (ha : a ∈ (op.exec rt s).2.attempts) (hdone : a.completed = true) :
    a ∈ s.attempts ∨
      ∃ sched claim, (⟨.ledger op, (op.exec rt s).1⟩ : Did) = Did.sealed sched claim a := by
  cases op with
  | complete sched claim attempt =>
    cases h : sched.complete rt s claim attempt with
    | error e =>
      simp only [LedgerOp.exec, h, Store.transaction] at ha
      exact Or.inl ha
    | ok out =>
      obtain ⟨u, s'⟩ := out
      obtain ⟨row, execution, st, state, next, hsealed⟩ := Scheduler.complete_ok rt h
      simp only [LedgerOp.exec, h, Store.transaction] at ha ⊢
      have hattempts : s'.attempts = s.attempts ++ [attempt] := by rw [hsealed.store_eq]; rfl
      rw [hattempts, List.mem_append, List.mem_singleton] at ha
      rcases ha with ha | rfl
      · exact Or.inl ha
      · exact Or.inr ⟨sched, claim, rfl⟩
  | reclaim sched id now =>
    revert ha
    refine Store.transaction_property (P := fun t => a ∈ t.attempts → _) Or.inl ?_
    intro number s' h ha
    obtain ⟨node, row, startedAt, st, state, next, htaken⟩ := Scheduler.reclaim_ok rt h
    have hattempts : s'.attempts =
        s.attempts ++ [sched.reclaimedAttempt node row startedAt now] := by
      rw [htaken.store_eq]
      rfl
    rw [hattempts, List.mem_append, List.mem_singleton] at ha
    rcases ha with ha | rfl
    · exact Or.inl ha
    · cases hdone
  | storeGraph | createRun | claimNext | cancel | admitReceipt | applyRetryPolicy
  | openResolveWork | revokeReceipt | admitDecision | appendDecision =>
    have hstep := exec_step rt s legal
    rw [hstep.attempts_eq] at ha
    · exact Or.inl ha
    · intro run id k o d hlabel
      rcases LedgerOp.checked_finished hlabel with ⟨_, _, _, heq⟩ | ⟨_, _, heq⟩ <;> cases heq

/-- Only `admitReceipt` reports a verdict. -/
theorem LedgerOp.checked_verdict {op : LedgerOp} {r : op.Result} {run : RunId} {id : NodeId}
    {k : AttemptNumber} {ref : ReceiptRef} {v : Verdict}
    (h : op.checked r = some (run, id, .receiptAdmitted k ref v)) :
    ∃ spec record receipt now, op = .admitReceipt spec record receipt now := by
  unfold LedgerOp.checked at h
  split at h
  all_goals first
    | cases h
    | (rw [Option.map_eq_some_iff] at h
       obtain ⟨_, _, h⟩ := h
       cases h)
  exact ⟨_, _, _, _, rfl⟩

/-- A receipt after an operation was admitted before, or is what it admits. -/
theorem exec_receipts (op : LedgerOp) (legal : op.Legal s) {r : VerifierReceipt}
    (hr : r ∈ (op.exec rt s).2.receipts) : r ∈ s.receipts ∨
      ∃ spec run now, (⟨.ledger op, (op.exec rt s).1⟩ : Did) = Did.admitted spec run r now := by
  cases op with
  | admitReceipt spec run receipt now =>
    cases h : Receipts.admitReceipt rt s spec run receipt now with
    | error e =>
      simp only [LedgerOp.exec, h, Store.transaction] at hr
      exact Or.inl hr
    | ok out =>
      obtain ⟨u, s'⟩ := out
      obtain ⟨node, attempt, result, st, state, hadm⟩ := Receipts.admitReceipt_ok rt h
      simp only [LedgerOp.exec, h, Store.transaction] at hr ⊢
      rw [hadm.store_eq, List.mem_append, List.mem_singleton] at hr
      rcases hr with hr | rfl
      · exact Or.inl hr
      · exact Or.inr ⟨spec, run, now, rfl⟩
  | storeGraph | createRun | claimNext | complete | cancel | reclaim | applyRetryPolicy
  | openResolveWork | revokeReceipt | admitDecision | appendDecision =>
    have hstep := exec_step rt s legal
    rcases hstep.receipts_cases with ⟨heq, -⟩ | ⟨_, _, _, _, _, _, _, _, _, -, -, hlabel⟩
    · rw [heq] at hr
      exact Or.inl hr
    · obtain ⟨_, _, _, _, heq⟩ := LedgerOp.checked_verdict hlabel
      cases heq

end

/-! ### Histories of a reachable pool -/

/-- A reachable pool of calls: the store is grounded, and every call keeps to its
protocol. -/
structure Conducted (b : Build) (docs : GraphSpec → Prop) (p : Sessions) : Prop
    extends Grounded b.runtime docs p where
  follows : ∀ t ∈ p.threads, ∃ c, Follows b docs c t

section

variable {b : Build} {docs : GraphSpec → Prop} {allowed : Sessions → SessionMove → Prop}
  {p : Sessions}

theorem conducted_invariant (hdist : Distinct b.runtime docs) :
    ((sessions b docs).system allowed).Invariant (Conducted b docs) :=
  fun p hp => { toGrounded := grounded_invariant hdist p hp, follows := follows_invariant p hp }

namespace Conducted

variable {i : Nat} {h : List Did} {x : Did}

theorem sound (hc : Conducted b docs p) : p.world.store.Sound :=
  sound_invariant b.runtime _ hc.reachable

/-- An entry followed the protocol of its call when it was made. -/
theorem protocol (hc : Conducted b docs p) (hmade : p.MadeAt i h x) :
    ∃ c, Protocol b c h x.effect := by
  obtain ⟨t, ht, tail, hpast⟩ := hmade
  obtain ⟨c, hf⟩ := hc.follows t (List.mem_of_getElem? ht)
  exact ⟨c, hf.past h x tail hpast⟩

/-- An entry and those before it are true of the store. -/
theorem holds_made (hc : Conducted b docs p) (hmade : p.MadeAt i h x) {y : Did}
    (hy : y ∈ h ++ [x]) : y.Holds p.world.store := by
  obtain ⟨t, ht, tail, hpast⟩ := hmade
  refine hc.holds t (List.mem_of_getElem? ht) y ?_
  rw [hpast, ← List.singleton_append, ← List.append_assoc]
  exact List.mem_append_left _ hy

/-- A step of the pool extends the store. -/
theorem store_extends (hc : Conducted b docs p) {m : SessionMove} {p' : Sessions}
    (hstep : (sessions b docs).Step p m p') : Extends p.world.store p'.world.store := by
  cases Machine.Step.store hc.toGrounded hc.follows hstep with
  | same h => exact h ▸ Extends.refl _
  | op op legal hdocs h => exact h ▸ (exec_step b.runtime _ legal).extends hc.sound

/-- What an effect adds to the store is an operation in legal use. -/
theorem legal (hc : Conducted b docs p) {past : List Did} {op : LedgerOp}
    {k : op.Result → Proc Effect Effect.Answer (Except RunError (List Action))}
    (hi : p.threads[i]? = some ⟨past, .act (.ledger op) k⟩) : op.Legal p.world.store := by
  obtain ⟨c, hf⟩ := hc.follows _ (List.mem_of_getElem? hi)
  exact (hf.protocol rfl).legal (hc.holds _ (List.mem_of_getElem? hi))

end Conducted

/-! ### Origins -/

/-- Rows that only calls add, each by one entry, were added by entries. -/
theorem row_made {κ : Type} (hdist : Distinct b.runtime docs) {R : Store → κ → Prop}
    {made : κ → Did → Prop} (hempty : ∀ c, ¬ R Store.empty c)
    (hexec : ∀ s (op : LedgerOp), op.Legal s → ∀ c, R (op.exec b.runtime s).2 c →
      R s c ∨ made c ⟨.ledger op, (op.exec b.runtime s).1⟩)
    (hcalls : ∀ op r c, made c (⟨.ledger op, r⟩ : Did) → ¬ op.Outside docs) :
    ((sessions b docs).system allowed).Invariant
      (fun p => ∀ c, R p.world.store c → ∃ i h x, p.MadeAt i h x ∧ made c x) := by
  refine Machine.origin_invariant (R := fun w c => R w.store c)
    (conducted_invariant hdist) ?_ ?_ ?_
  · intro w hw c hc
    have hstore : w.store = Store.empty := hw
    rw [hstore] at hc
    exact hempty c hc
  · rintro p op w hp ⟨legal, houtside, rfl⟩ c hc
    rcases hexec _ op legal c hc with hc | hmade
    · exact hc
    · exact absurd houtside (hcalls op _ c hmade)
  · intro p i past e k r w hp hi hperf c hc
    rcases e.ledger_or with ⟨op, rfl⟩ | hread
    · obtain ⟨rfl, rfl⟩ := hperf
      exact hexec _ op (hp.legal hi) c hc
    · have hsame := (@Effect.Performs.holds b.runtime _ _ _ _ hperf hread).1
      rw [hsame] at hc
      exact Or.inl hc

/-- Every completed attempt was sealed by a call. -/
theorem sealed_made (hdist : Distinct b.runtime docs) :
    ((sessions b docs).system allowed).Invariant (fun p => ∀ a, a ∈ p.world.store.attempts ∧
      a.completed = true →
        ∃ i h x, p.MadeAt i h x ∧ ∃ sched claim, x = Did.sealed sched claim a) := by
  refine row_made hdist (R := fun s a => a ∈ s.attempts ∧ a.completed = true) ?_ ?_ ?_
  · exact fun a ha => absurd ha.1 List.not_mem_nil
  · rintro s op legal a ⟨ha, hdone⟩
    exact (exec_attempts op legal ha hdone).imp (fun ha => ⟨ha, hdone⟩) id
  · rintro op r a ⟨sched, claim, hx⟩ houtside
    cases hx
    exact houtside

/-- Every receipt was admitted by a call. -/
theorem admitted_made (hdist : Distinct b.runtime docs) :
    ((sessions b docs).system allowed).Invariant (fun p => ∀ r, r ∈ p.world.store.receipts →
      ∃ i h x, p.MadeAt i h x ∧ ∃ spec run now, x = Did.admitted spec run r now) := by
  refine row_made hdist (R := fun s r => r ∈ s.receipts) ?_ ?_ ?_
  · exact fun r hr => absurd hr List.not_mem_nil
  · exact fun s op legal r hr => exec_receipts op legal hr
  · rintro op r receipt ⟨spec, run, now, hx⟩ houtside
    cases hx
    exact houtside

/-- A completed attempt is sealed over a manifest frozen under its claim. -/
theorem Sealing.frozen {c : Command} {h : List Did} {sched : Scheduler} {claim : Claim}
    {a : Attempt} (hseal : Sealing b c h sched claim a) (hdone : a.completed = true) :
    ∃ (f : Freeze b c) (bytes : List UInt8), f.sched = sched ∧ f.claim = claim ∧
      f.history <+: h ∧ a = f.sealedOver bytes := by
  cases hseal with
  | patch f bytes hsched hclaim history ha =>
    exact ⟨f, bytes, hsched, hclaim, history ▸ List.prefix_append _ _, ha⟩
  | check k hsched hclaim history ha =>
    exact ⟨k.toFreeze, k.bytes, hsched, hclaim, history ▸ List.prefix_append _ _, ha⟩
  | failed claimedAt opened quiet hclaim ha =>
    rw [ha] at hdone
    cases hdone

/-- The sealed attempt a receipt is issued for, and the subject it froze. -/
structure Judged (s : Store) (r : VerifierReceipt) (a : Attempt) : Prop where
  row : a ∈ s.attempts
  about : r.attempt = a.attemptRef
  subject : Controller.manifestSubject a.inputManifest = some r.subject
  completed : ∃ result, a.completedResult = some result ∧ r.resultDigest = result.digest

theorem Judged.done {s : Store} {r : VerifierReceipt} {a : Attempt} (h : Judged s r a) :
    a.completed = true := by
  obtain ⟨result, hresult, -⟩ := h.completed
  obtain ⟨-, execution, hexecution, houtcome⟩ := Attempt.completedResult_some hresult
  simp [Attempt.completed, hexecution, houtcome]

theorem Judged.key_eq {s : Store} {r : VerifierReceipt} {a : Attempt} (h : Judged s r a) :
    a.key = r.key := by
  rw [VerifierReceipt.key, h.about]
  rfl

/-- An issued receipt judges the attempt it was issued for. -/
theorem judged_of_issue {s : Store} {rt : Runtime} {response : VerifierResponse} {node : NodeSpec}
    {a : Attempt} {id : Ident} {subject issuer : String} {now : Timestamp} {validity : Validity}
    {r : VerifierReceipt} (ha : a ∈ s.attempts)
    (hsubject : Controller.manifestSubject a.inputManifest = some subject)
    (h : Receipts.issue rt response node a id subject issuer now validity = .ok r) :
    Judged s r a := by
  obtain ⟨habout, hr, -, hresult⟩ := Receipts.issue_ok rt h
  exact { row := ha, about := hr.trans habout
          subject := by rw [hsubject, Receipts.issue_subject rt h]
          completed := hresult }

/-- A receipt a call admits judges a sealed attempt. -/
theorem Admitting.judged {s : Store} {c : Command} {h : List Did} {spec : GraphSpec}
    {run : GraphRun} {r : VerifierReceipt} (hadm : Admitting b c h spec run r)
    (hholds : ∀ y ∈ h, y.Holds s) : ∃ a, Judged s r a := by
  cases hadm with
  | check k id history hspec hrun issued =>
    obtain ⟨ha, -⟩ := hholds (Did.sealed k.sched k.claim (k.sealedOver k.bytes))
      (by rw [history]; exact List.mem_append_right _ (List.mem_singleton_self _)) rfl
    exact ⟨_, judged_of_issue ha k.subject_eq issued⟩
  | verify v child response id history hspec hrun answered issued =>
    have hmem : ∀ y ∈ v.before, y.Holds s := fun y hy =>
      hholds y (by rw [history]; exact List.mem_append_left _ hy)
    refine ⟨v.attempt, judged_of_issue ?_ v.subject_eq issued⟩
    cases v.held with
    | read number hread => exact (hmem _ hread v.attempt rfl).1
    | own sched claim hrun hnode hsealed => exact (hmem _ hsealed rfl).1

/-- The claim an entry returned. -/
def Did.claim : Did → Option Claim
  | ⟨.ledger (.claimNext _ _ _), r⟩ =>
    match (r : Except SchedulerError ClaimOutcome) with
    | .ok (.claimed claim) => some claim
    | _ => none
  | _ => none

/-- No two entries returned one claim. -/
theorem claimed_once (hdist : Distinct b.runtime docs) :
    ((sessions b docs).system allowed).Invariant (fun p => ∀ i j h g x y key, p.MadeAt i h x →
      p.MadeAt j g y → (Did.claim x).map Claim.key = some key →
        (Did.claim y).map Claim.key = some key →
      i = j ∧ h = g ∧ x = y) := by
  refine @Machine.unique_invariant _ _ _ _ _ _ _ _ _ (conducted_invariant hdist)
    (fun x => (Did.claim x).map Claim.key) ?_
  intro p i past e k r w hp hi hperf key hkey j h x hmade hsame
  have hclaimed : ∀ {y : Did} {claim}, Did.claim y = some claim →
      ∃ sched now claimedAt, y = Did.claimed sched now claimedAt claim := by
    intro y claim hy
    unfold Did.claim at hy
    split at hy
    · split at hy
      · cases hy
        exact ⟨_, _, _, rfl⟩
      · cases hy
    · cases hy
  obtain ⟨claim, hclaim, rfl⟩ := Option.map_eq_some_iff.mp hkey
  obtain ⟨old, hold, hkeys⟩ := Option.map_eq_some_iff.mp hsame
  obtain ⟨sched, now, claimedAt, hentry⟩ := hclaimed hclaim
  obtain ⟨sched', now', claimedAt', rfl⟩ := hclaimed hold
  cases hentry
  -- The older claim has a row, and a new claim takes a number no row has.
  obtain ⟨-, row, hrow, hrowKey, -⟩ :=
    hp.holds_made hmade (List.mem_append_right _ (List.mem_singleton_self _)) old rfl
  have hbody := Store.transaction_ok hperf.1.symm
  rcases Scheduler.claimNext_ok b.runtime hbody with ⟨hnone, -⟩ |
    ⟨claim', node, st, state, next, snapshot, hsame, hnew⟩
  · exact hnone claim rfl
  · cases hsame
    have hrun : claim.runId = sched.run.runId := congrArg Claim.runId hnew.claim_eq
    have hnode : claim.nodeId = node.id := congrArg Claim.nodeId hnew.claim_eq
    have hall : row.key = claim.key := hrowKey.trans hkeys
    simp only [ClaimRow.key, Claim.key, Prod.mk.injEq] at hall
    exact hnew.numberFree row hrow (hall.1.trans hrun) (hall.2.1.trans hnode) hall.2.2

/-- Every receipt judges a sealed attempt. -/
theorem receipts_judged (hdist : Distinct b.runtime docs) :
    ((sessions b docs).system allowed).Invariant
      (fun p => ∀ r ∈ p.world.store.receipts, ∃ a, Judged p.world.store r a) := by
  intro p hp r hr
  have hc := conducted_invariant hdist p hp
  obtain ⟨i, h, -, hmade, spec, run, now, rfl⟩ := admitted_made hdist p hp r hr
  obtain ⟨c, hprotocol⟩ := hc.protocol hmade
  exact Admitting.judged hprotocol.1 (fun y hy => hc.holds_made hmade (List.mem_append_left _ hy))

/-- The call that sealed a completed attempt, and what it froze for its claim. -/
structure SealedBy (p : Sessions) (a : Attempt) (c : Command) (f : Freeze b c) (i : Nat)
    (tail : List Did) : Prop where
  made : p.MadeAt i (f.history ++ tail) (Did.sealed f.sched f.claim a)
  record : ∃ bytes, a = f.sealedOver bytes
  key_eq : a.key = f.claim.key
  run_eq : f.claim.runId = f.sched.run.runId
  bound : p.world.store.Bound f.sched.run f.sched.spec

/-- What a call that sealed a completed attempt had frozen for its claim. -/
theorem Follows.sealed_by {c : Command} {i : Nat}
    {t : Thread Effect Effect.Answer (Except RunError (List Action))} (hc : Conducted b docs p)
    (hf : Follows b docs c t) (ht : p.threads[i]? = some t) {g rest : List Did} {sched : Scheduler}
    {claim : Claim} {a : Attempt} (hpast : t.past = g ++ Did.sealed sched claim a :: rest)
    (hdone : a.completed = true) :
    ∃ f : Freeze b c, ∃ tail, f.claim = claim ∧ SealedBy p a c f i tail := by
  have hmade : p.MadeAt i g (Did.sealed sched claim a) := ⟨t, ht, rest, hpast⟩
  obtain ⟨f, bytes, rfl, rfl, ⟨tail, rfl⟩, hover⟩ := Sealing.frozen (hf.past g _ rest hpast) hdone
  have hholds : ∀ y ∈ f.history ++ tail, y.Holds p.world.store :=
    fun y hy => hc.holds_made hmade (List.mem_append_left _ hy)
  have hclaimed : Did.claimed f.sched c.now f.claimedAt f.claim ∈ f.history := by
    simp [Freeze.history]
  refine ⟨f, tail, rfl, ?_⟩
  exact { made := hmade
          record := ⟨bytes, hover⟩
          key_eq := (hc.holds_made hmade
            (List.mem_append_right _ (List.mem_singleton_self _)) rfl).2
          run_eq := (hholds _ (List.mem_append_left _ hclaimed) f.claim rfl).1
          bound := f.opened.bound (fun y hy => hholds y
            (List.mem_append_left _ (f.before_prefix.subset hy))) }

/-- Every completed attempt was sealed by a call over what it froze. -/
theorem sealedBy (hdist : Distinct b.runtime docs) :
    ((sessions b docs).system allowed).Invariant (fun p => ∀ a ∈ p.world.store.attempts,
      a.completed = true → ∃ c, ∃ f : Freeze b c, ∃ i tail, SealedBy p a c f i tail) := by
  intro p hp a ha hdone
  have hc := conducted_invariant hdist p hp
  obtain ⟨i, g, -, ⟨t, ht, rest, hpast⟩, sched, claim, rfl⟩ := sealed_made hdist p hp a ⟨ha, hdone⟩
  obtain ⟨c, hf⟩ := hc.follows t (List.mem_of_getElem? ht)
  obtain ⟨f, tail, -, hsealed⟩ := hf.sealed_by hc ht hpast hdone
  exact ⟨c, f, i, tail, hsealed⟩

end

end Checkspan
