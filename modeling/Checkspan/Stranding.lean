import Checkspan.Lone

/-!
# The claim of a step that fails

After `claim_next` a step has exits that end it with an error. Which of them leave the
claim active is read off what the world answered before the attempt was sealed.
-/

namespace Checkspan

open Process Transition

/-! ### Sealing under a claim just made -/

/-- The attempt and its event are no larger than a record may be. -/
def Attempt.Fits (rt : Runtime) (a : Attempt) : Prop :=
  (rt.text a.toJson).utf8ByteSize ≤ maxRecordLen ∧
    (rt.text (Store.sealedPayload a)).utf8ByteSize ≤ maxRecordLen

namespace Store

variable {rt : Runtime} {s : Store} {a : Attempt}

theorem insertAttempt_eq_ok {s' : Store} : s.insertAttempt rt a = .ok s' ↔
    (rt.text a.toJson).utf8ByteSize ≤ maxRecordLen ∧ s.hasRun a.runId = true ∧
      s.attemptKeyTaken a = false ∧ s' = { s with attempts := s.attempts ++ [a] } := by
  unfold insertAttempt
  rw [bind_eq_ok]
  simp only [jsonLenChecked_eq_ok, exists_const]
  refine and_congr_right ?_
  intro _
  by_cases hrun : s.hasRun a.runId = true
  · rw [if_pos hrun, bind_eq_ok]
    simp only [guardOk_eq_ok, exists_const, Bool.not_eq_true', hrun, true_and, Except.ok.injEq]
    exact and_congr_right (fun _ => eq_comm)
  · rw [if_neg hrun]
    exact iff_of_false (by simp) (fun h => hrun h.1)

/-- A fresh attempt of a stored run is sealed exactly when it fits. -/
theorem sealAttempt_iff (hrun : s.hasRun a.runId = true) (hfresh : s.attemptKeyTaken a = false) :
    (∃ s', s.sealAttempt rt a = .ok s') ↔ a.Fits rt := by
  unfold sealAttempt Attempt.Fits
  simp only [bind_eq_ok, insertAttempt_eq_ok, appendEvent_eq_ok]
  constructor
  · rintro ⟨s', s₁, ⟨hattempt, -, -, rfl⟩, hpayload, -⟩
    exact ⟨hattempt, hpayload⟩
  · rintro ⟨hattempt, hpayload⟩
    refine ⟨_, _, ⟨hattempt, hrun, hfresh, rfl⟩, hpayload, ?_, rfl⟩
    simp only [eventAllowed, Bool.and_eq_true]
    exact ⟨hrun, rfl⟩

end Store

namespace Scheduler.Claimed

variable {rt : Runtime} {sched : Scheduler} {s s' : Store} {now : Timestamp} {claimedAt : String}
  {claim : Claim} {node : NodeSpec} {st : RunState} {state next : NodeState}
  {snapshot : DependencySnapshot}

theorem runId_eq (h : Claimed sched s now claimedAt claim s' node st state next snapshot) :
    claim.runId = sched.run.runId := congrArg Claim.runId h.claim_eq

theorem nodeId_eq (h : Claimed sched s now claimedAt claim s' node st state next snapshot) :
    claim.nodeId = node.id := congrArg Claim.nodeId h.claim_eq

theorem owner_eq (h : Claimed sched s now claimedAt claim s' node st state next snapshot) :
    claim.owner = sched.controller := congrArg Claim.owner h.claim_eq

theorem fence_eq (h : Claimed sched s now claimedAt claim s' node st state next snapshot) :
    claim.fence = s.nextFence sched.run.runId := congrArg Claim.fence h.claim_eq

theorem refs_eq (h : Claimed sched s now claimedAt claim s' node st state next snapshot) :
    claim.dependencyReceipts = snapshot.receiptRefs := congrArg Claim.dependencyReceipts h.claim_eq

/-- The row the claim was written in. -/
def row (sched : Scheduler) (s : Store) (claimedAt : String) (claim : Claim) (node : NodeSpec)
    (snapshot : DependencySnapshot) : ClaimRow :=
  sched.newRow node claim.number (s.nextFence sched.run.runId) snapshot.receiptRefs claimedAt

theorem claims_eq (h : Claimed sched s now claimedAt claim s' node st state next snapshot) :
    s'.claims = s.claims ++ [row sched s claimedAt claim node snapshot] := by
  rw [h.store_eq]
  rfl

/-- Nothing held the key of the claim before. -/
theorem fresh (h : Claimed sched s now claimedAt claim s' node st state next snapshot)
    {c : ClaimRow} (hc : c ∈ s.claims) : c.key ≠ claim.key := by
  intro hkey
  simp only [ClaimRow.key, Claim.key, Prod.mk.injEq] at hkey
  exact h.numberFree c hc (hkey.1.trans h.runId_eq) (hkey.2.1.trans h.nodeId_eq) hkey.2.2

theorem row_key (h : Claimed sched s now claimedAt claim s' node st state next snapshot) :
    (row sched s claimedAt claim node snapshot).key = claim.key := by
  simp only [ClaimRow.key, Claim.key, row, newRow, h.runId_eq, h.nodeId_eq]

/-- The claim finds its row. -/
theorem found (h : Claimed sched s now claimedAt claim s' node st state next snapshot) :
    s'.claim claim.runId claim.nodeId claim.number.get =
      some (row sched s claimedAt claim node snapshot) := by
  have hnone : s.claims.find? (fun c => c.runId = claim.runId ∧ c.nodeId = claim.nodeId ∧
      c.number.get = claim.number.get) = none := by
    rw [List.find?_eq_none]
    intro c hc
    simp only [decide_eq_true_eq]
    rintro ⟨hrun, hid, hnumber⟩
    refine h.fresh hc ?_
    simp only [ClaimRow.key, Claim.key, hrun, hid, PositiveU32.ext_get hnumber]
  have hkey := h.row_key
  simp only [ClaimRow.key, Claim.key, Prod.mk.injEq] at hkey
  unfold Store.claim
  rw [h.claims_eq, List.find?_append, hnone, Option.none_or, List.find?_cons_of_pos]
  simp only [hkey, and_self, decide_true]

/-- The ledger replays to the dispatched node. -/
theorem replays (h : Claimed sched s now claimedAt claim s' node st state next snapshot) :
    s'.replay sched.run.runId sched.spec = .ok (st.insert node.id next) := by
  have hevents : s'.eventsOf sched.run.runId = s.eventsOf sched.run.runId ++
      [s.nextEvent sched.run.runId (some node.id) kinds.attemptDispatched
        (dispatchPayload claim.number sched.controller (s.nextFence sched.run.runId)
          snapshot.receiptRefs)] := by
    rw [h.store_eq, Store.eventsOf, List.filter_append]
    congr 1
    exact List.filter_cons_of_pos (by simp [Store.nextEvent])
  unfold Store.replay
  rw [hevents]
  have href : st.nodes node.id = some (sched.spec.refOf node) := by
    rw [RunState.replay_nodes h.replayed, GraphSpec.nodeRef, h.node_mem]
    rfl
  have hdecoded := NodeEvent.fromStored_of_carried (s.events.length + 1) sched.run.runId node.id
    (sched.spec.refOf node)
    (dispatchPayload_carries claim.number sched.controller (s.nextFence sched.run.runId)
      snapshot.receiptRefs)
  exact RunState.replay_concat_node h.replayed rfl href hdecoded h.state_eq h.legal

/-- The dispatched node runs the attempt of the claim. -/
theorem executing (h : Claimed sched s now claimedAt claim s' node st state next snapshot) :
    next.Executing claim.number := by
  have hstep := NodeState.apply_step h.legal
  cases hstep
  exact ⟨rfl, rfl, rfl⟩

/-- No attempt is sealed under the claim yet. -/
theorem unsealed (h : Claimed sched s now claimedAt claim s' node st state next snapshot)
    (hok : s.ClaimsOk) {a : Attempt} (hkey : a.key = claim.key) : s'.attemptKeyTaken a = false := by
  have hattempts : s'.attempts = s.attempts := by rw [h.store_eq]
  unfold Store.attemptKeyTaken
  rw [hattempts, List.any_eq_false]
  intro c hc
  simp only [decide_eq_true_eq]
  rintro ⟨hrun, hid, hnumber⟩
  obtain ⟨row, hrow, hrowkey⟩ := List.mem_map.mp (hok.claimed c hc)
  refine h.fresh hrow ?_
  rw [hrowkey, ← hkey]
  simp only [Attempt.key, hrun, hid, hnumber]

theorem heldUnder (h : Claimed sched s now claimedAt claim s' node st state next snapshot) :
    ClaimRow.isHeldUnder claim.runId claim.nodeId claim.number.get claim.fence
      (row sched s claimedAt claim node snapshot) = true := by
  simp only [ClaimRow.isHeldUnder, h.runId_eq, h.nodeId_eq, h.fence_eq, row, newRow, decide_true,
    Bool.and_self]

/-- A release under the claim's token finds exactly the claim's row. -/
theorem releases (h : Claimed sched s now claimedAt claim s' node st state next snapshot) :
    s'.claims.countP (ClaimRow.isHeldUnder claim.runId claim.nodeId claim.number.get
      claim.fence) = 1 := by
  have hnone : s.claims.countP (ClaimRow.isHeldUnder claim.runId claim.nodeId claim.number.get
      claim.fence) = 0 := by
    rw [List.countP_eq_zero]
    intro c hc hheld
    simp only [ClaimRow.isHeldUnder, Bool.and_eq_true, decide_eq_true_eq] at hheld
    refine h.fresh hc ?_
    simp only [ClaimRow.key, Claim.key, hheld.1.1.1.1, hheld.1.1.1.2,
      PositiveU32.ext_get hheld.1.1.2]
  rw [h.claims_eq, List.countP_append, hnone, List.countP_singleton, if_pos h.heldUnder]

/-- A record of the claimed attempt is sealed exactly when it fits. -/
theorem completes (h : Claimed sched s now claimedAt claim s' node st state next snapshot)
    (hok : s.ClaimsOk) {a : Attempt} {x : Execution} (hrun : a.runId = claim.runId)
    (hnode : sched.spec.nodeRef claim.nodeId = some a.node) (hnumber : a.number = claim.number)
    (hexec : a.execution = some x) (hrefs : a.dependencyReceipts = claim.dependencyReceipts) :
    (∃ s₂, sched.complete rt s' claim a = .ok ((), s₂)) ↔ a.Fits rt := by
  have hid : a.node.nodeId = claim.nodeId := GraphSpec.nodeRef_nodeId hnode
  have hkey : a.key = claim.key := by simp only [Attempt.key, Claim.key, hrun, hid, hnumber]
  have hcheck : sched.checkCompletion claim a = .ok x := by
    unfold checkCompletion
    refine bind_eq_ok.mpr ⟨(), guardOk_eq_ok.mpr ?_, bind_eq_ok.mpr ⟨a.node,
      someOr_eq_ok.mpr hnode, bind_eq_ok.mpr ⟨(), guardOk_eq_ok.mpr ?_, someOr_eq_ok.mpr hexec⟩⟩⟩
    · simp only [hrun, hid, hnumber, decide_true, Bool.and_self]
    · simp only [decide_true]
  have hheld : heldClaim s' claim = .ok (row sched s claimedAt claim node snapshot) := by
    unfold heldClaim
    refine bind_eq_ok.mpr ⟨_, someOr_eq_ok.mpr h.found, bind_eq_ok.mpr ⟨(), guardOk_eq_ok.mpr ?_,
      rfl⟩⟩
    simp only [row, newRow, h.fence_eq, h.owner_eq, decide_true, Bool.and_self]
  have hpin : (row sched s claimedAt claim node snapshot).dependencyReceipts =
      a.dependencyReceipts := by
    rw [hrefs, h.refs_eq]
    rfl
  have hstate : replayNode sched.spec s' claim.runId claim.nodeId = .ok next := by
    unfold replayNode
    rw [h.runId_eq, h.nodeId_eq]
    refine bind_eq_ok.mpr ⟨_, mapError_eq_ok.mpr h.replays, someOr_eq_ok.mpr ?_⟩
    exact RunState.node_insert_self _ _ _
  obtain ⟨hrunning, hchecking, hcurrent⟩ := h.executing
  have happly := NodeState.step_apply (NodeState.Step.finish claim.number x.outcome
    (a.result.map (·.digest)) hrunning hcurrent hchecking)
  have hknown : s'.hasRun a.runId = true := by
    have hruns : s'.hasRun sched.run.runId = s.hasRun sched.run.runId := by
      unfold Store.hasRun
      rw [h.store_eq]
    rw [hrun, h.runId_eq, hruns]
    exact h.runStored
  rw [← Store.sealAttempt_iff hknown (h.unsealed hok hkey)]
  unfold complete
  simp only [bind_eq_ok, hcheck, hheld, hstate, happly, mapError_eq_ok, guardOk_eq_ok,
    Except.ok.injEq, exists_eq_left', exists_const, Prod.mk.injEq, true_and, hpin, decide_true]
  constructor
  · rintro ⟨s₂, s₁, hs₁, -⟩
    exact ⟨s₁, hs₁⟩
  · rintro ⟨s₁, hs₁⟩
    refine ⟨_, s₁, hs₁, ?_, rfl⟩
    have hclaims : s₁.claims = s'.claims := by
      obtain ⟨-, rfl⟩ := Store.sealAttempt_ok rt hs₁
      rfl
    simp only [Store.releaseClaim, hclaims, h.releases, decide_true]

end Scheduler.Claimed

/-! ### What a step leaves behind -/

/-- Every claim that `s'` has and `s` has not is released, and its attempt is sealed. -/
def NoneStranded (s s' : Store) : Prop :=
  ∀ row ∈ s'.claims, row.key ∉ s.claims.map ClaimRow.key →
    row.active = false ∧ row.key ∈ s'.attempts.map Attempt.key

theorem NoneStranded.of_claims {s s' : Store} (h : s'.claims = s.claims) : NoneStranded s s' := by
  intro row hrow hnew
  rw [h] at hrow
  exact absurd (List.mem_map_of_mem hrow) hnew

/-- What is said of two stores is said of the ones with the same claims and attempts. -/
theorem NoneStranded.congr {s₁ s₂ s s' : Store} (hs : s₁.claims = s.claims)
    (hclaims : s₂.claims = s'.claims) (hattempts : s₂.attempts = s'.attempts) :
    NoneStranded s₁ s₂ ↔ NoneStranded s s' := by
  unfold NoneStranded
  rw [hs, hclaims, hattempts]

namespace Scheduler.Claimed

variable {rt : Runtime} {sched : Scheduler} {s s' : Store} {now : Timestamp} {claimedAt : String}
  {claim : Claim} {node : NodeSpec} {st : RunState} {state next : NodeState}
  {snapshot : DependencySnapshot}

theorem fresh_key (h : Claimed sched s now claimedAt claim s' node st state next snapshot) :
    claim.key ∉ s.claims.map ClaimRow.key := by
  intro hmem
  obtain ⟨c, hc, hkey⟩ := List.mem_map.mp hmem
  exact h.fresh hc hkey

/-- While nothing is sealed the claim is stranded. -/
theorem stranded (h : Claimed sched s now claimedAt claim s' node st state next snapshot) :
    ¬ NoneStranded s s' := by
  intro hnone
  have hmem : row sched s claimedAt claim node snapshot ∈ s'.claims := by
    rw [h.claims_eq]
    exact List.mem_append_right _ (List.mem_singleton_self _)
  have hactive := (hnone _ hmem (h.row_key ▸ h.fresh_key)).1
  cases hactive

/-- A completion releases the claim and seals its attempt. -/
theorem settled (h : Claimed sched s now claimedAt claim s' node st state next snapshot)
    {a : Attempt} {s₂ : Store} (hdone : sched.complete rt s' claim a = .ok ((), s₂)) :
    NoneStranded s s₂ := by
  obtain ⟨held, execution, st', state', next', hcompleted⟩ := complete_ok rt hdone
  have hclaims : s₂.claims = s'.claims.map (ClaimRow.releaseIf (ClaimRow.isHeldUnder claim.runId
      claim.nodeId claim.number.get claim.fence) "completed") := by
    rw [hcompleted.store_eq]
    rfl
  have hattempts : s₂.attempts = s'.attempts ++ [a] := by
    rw [hcompleted.store_eq]
    rfl
  have hkey : a.key = claim.key := by
    simp only [Attempt.key, Claim.key, hcompleted.runId_eq, hcompleted.number_eq,
      GraphSpec.nodeRef_nodeId hcompleted.nodeRef_eq]
  intro c hc hnew
  rw [hclaims, List.mem_map] at hc
  obtain ⟨old, hold, rfl⟩ := hc
  rw [ClaimRow.releaseIf_key] at hnew ⊢
  rw [h.claims_eq, List.mem_append, List.mem_singleton] at hold
  rcases hold with hold | rfl
  · exact absurd (List.mem_map_of_mem hold) hnew
  · refine ⟨?_, ?_⟩
    · rw [ClaimRow.releaseIf_pos _ _ _ h.heldUnder]
    · rw [hattempts, List.map_append, h.row_key, ← hkey]
      exact List.mem_append_right _ (List.mem_singleton_self _)

end Scheduler.Claimed

/-! ### The answers before the sealing -/

namespace Did

def observation : Did → Option Observed
  | ⟨.observe _, o⟩ => some o
  | _ => none

def clockRead : Did → Option String
  | ⟨.clock, text⟩ => some text
  | _ => none

def directory : Did → Option (Except String Unit)
  | ⟨.makeDir _, r⟩ => some r
  | _ => none

def written : Did → Option (Except String Unit)
  | ⟨.write _ _, r⟩ => some r
  | _ => none

def executable : Did → Option (Except String Unit)
  | ⟨.currentExe, r⟩ => some r
  | _ => none

def childEnd : Did → Option ChildEnd
  | ⟨.child _ _, r⟩ => some r
  | _ => none

def content : Did → Option (Except String (List UInt8))
  | ⟨.read _, r⟩ => some r
  | _ => none

end Did

/-- The value of the first answer of a kind, if it was given and is no failure. -/
def firstOk {α : Type} (view : Did → Option (Except String α)) (h : List Did) : Option α :=
  (h.findSome? view).bind Except.toOption

section

variable (b : Build) (c : Command) (spec : GraphSpec) (run : GraphRun) (node : NodeSpec)
  (claim : Claim)

/-- The evidence of a claim, resolved in the store `s` over what the world showed. -/
def claimEvidence (s : Store) (h : List Did) : Option (Except String Manifest) :=
  match s.replay run.runId spec with
  | .error e => some (.error e.display)
  | .ok st =>
    match DependencyService.resolve
        { spec := spec, run := run, state := st, store := s, now := c.now } claim.nodeId with
    | .error blockers => some (.error (displayBlockers blockers))
    | .ok snapshot => (h.findSome? Did.observation).map (fun seen =>
        ((Controller.resolver b c.ws c.now).resolve b.runtime seen node claim.narrowing snapshot
          (Controller.offersFor node claim.narrowing)).mapError displayErrors)

/-- The record of a completed attempt with these bytes as its artifact. -/
def completedOver (manifest : Manifest) (bytes : List UInt8) : Attempt :=
  Controller.sealedAttempt b run node claim c.now manifest.references
    (some (Controller.artifactFile c.ws run.runId claim.nodeId claim.number, bytes)) .completed none

/-- The record of a check whose child ended so. -/
def recordAnswered (manifest : Manifest) (subject : String) (h : List Did) (child : ChildEnd) :
    Option Attempt :=
  match Controller.childOutcome b (Controller.requestFor node run claim.nodeId claim.number
      subject manifest.references manifest.digest) child with
  | .ok _ => (firstOk Did.content h).map (completedOver b c run node claim manifest)
  | .error failure => some (Controller.sealedAttempt b run node claim c.now manifest.references
      none (Controller.outcomeOf failure) (some (Controller.failureReason failure child)))

/-- The record a step seals for its claim over this evidence, if it gets that far. -/
def recordOver (h : List Did) : Except String Manifest → Option Attempt
  | .error reason =>
    some (Controller.sealedAttempt b run node claim c.now [] none .failed (some reason))
  | .ok manifest =>
    if node.resultType.schemaId.text = "patch_result" then do
      let bytes ← Controller.candidateBytes manifest
      let _ ← firstOk Did.directory h
      let _ ← firstOk Did.written h
      some (completedOver b c run node claim manifest bytes)
    else if node.resultType.schemaId.text = "software_check_result" then do
      let subject ← Controller.manifestSubject manifest.references
      let _ ← c.ws.softwareProfile
      let _ ← firstOk Did.directory h
      let _ ← firstOk Did.executable h
      let child ← h.findSome? Did.childEnd
      recordAnswered b c run node claim manifest subject h child
    else none

/-- The step has something to seal for its claim, and it fits. -/
def Sealable (s : Store) (h : List Did) : Prop :=
  ∃ evidence a, claimEvidence b c spec run node claim s h = some evidence ∧
    recordOver b c run node claim h evidence = some a ∧ a.Fits b.runtime

end

/-- Later answers do not change a first answer. -/
theorem findSome?_grows {α : Type} {view : Did → Option α} {h h' : List Did} {a : α}
    (hh : h <+: h') (hview : h.findSome? view = some a) : h'.findSome? view = some a := by
  obtain ⟨t, rfl⟩ := hh
  rw [List.findSome?_append, hview]
  rfl

theorem findSome?_snoc {α : Type} {view : Did → Option α} {h : List Did}
    (hnone : h.findSome? view = none) (x : Did) : (h ++ [x]).findSome? view = view x := by
  rw [List.findSome?_append, hnone, Option.none_or, List.findSome?_singleton]

theorem firstOk_grows {α : Type} {view : Did → Option (Except String α)} {h h' : List Did} {a : α}
    (hh : h <+: h') (hview : firstOk view h = some a) : firstOk view h' = some a := by
  obtain ⟨r, hr, ha⟩ := Option.bind_eq_some_iff.mp hview
  rw [firstOk, findSome?_grows hh hr]
  exact ha

section

variable {b : Build} {c : Command} {spec : GraphSpec} {run : GraphRun} {node : NodeSpec}
  {claim : Claim} {s : Store} {h h' : List Did}

theorem claimEvidence_grows {evidence : Except String Manifest} (hh : h <+: h')
    (hev : claimEvidence b c spec run node claim s h = some evidence) :
    claimEvidence b c spec run node claim s h' = some evidence := by
  unfold claimEvidence at hev ⊢
  split
  · rename_i e he
    rwa [he] at hev
  · rename_i st hst
    simp only [hst] at hev
    split
    · rename_i blockers hblockers
      rwa [hblockers] at hev
    · rename_i snapshot hsnapshot
      simp only [hsnapshot] at hev
      obtain ⟨seen, hseen, hresolved⟩ := Option.map_eq_some_iff.mp hev
      rw [findSome?_grows hh hseen]
      exact congrArg some hresolved

theorem recordAnswered_grows {manifest : Manifest} {subject : String} {child : ChildEnd}
    {a : Attempt} (hh : h <+: h')
    (ha : recordAnswered b c run node claim manifest subject h child = some a) :
    recordAnswered b c run node claim manifest subject h' child = some a := by
  unfold recordAnswered at ha ⊢
  split
  · rename_i response hresponse
    rw [hresponse] at ha
    obtain ⟨bytes, hbytes, ha⟩ := Option.map_eq_some_iff.mp ha
    rw [firstOk_grows hh hbytes]
    exact congrArg some ha
  · rename_i failure hfailure
    rwa [hfailure] at ha

theorem recordOver_grows {evidence : Except String Manifest} {a : Attempt} (hh : h <+: h')
    (ha : recordOver b c run node claim h evidence = some a) :
    recordOver b c run node claim h' evidence = some a := by
  cases evidence with
  | error reason => exact ha
  | ok manifest =>
    unfold recordOver at ha ⊢
    dsimp only at ha ⊢
    split
    · rename_i hpatch
      rw [if_pos hpatch] at ha
      obtain ⟨bytes, hbytes, ha⟩ := Option.bind_eq_some_iff.mp ha
      obtain ⟨_, hdir, ha⟩ := Option.bind_eq_some_iff.mp ha
      obtain ⟨_, hwritten, ha⟩ := Option.bind_eq_some_iff.mp ha
      rw [hbytes, firstOk_grows hh hdir, firstOk_grows hh hwritten]
      exact ha
    · rename_i hpatch
      rw [if_neg hpatch] at ha
      split
      · rename_i hcheck
        rw [if_pos hcheck] at ha
        obtain ⟨subject, hsubject, ha⟩ := Option.bind_eq_some_iff.mp ha
        obtain ⟨_, hprofile, ha⟩ := Option.bind_eq_some_iff.mp ha
        obtain ⟨_, hdir, ha⟩ := Option.bind_eq_some_iff.mp ha
        obtain ⟨_, hexe, ha⟩ := Option.bind_eq_some_iff.mp ha
        obtain ⟨child, hchild, ha⟩ := Option.bind_eq_some_iff.mp ha
        rw [hsubject, hprofile, firstOk_grows hh hdir, firstOk_grows hh hexe,
          findSome?_grows hh hchild]
        exact recordAnswered_grows hh ha
      · rename_i hcheck
        rw [if_neg hcheck] at ha
        cases ha

theorem sealable_iff {evidence : Except String Manifest}
    (hev : claimEvidence b c spec run node claim s h = some evidence) :
    Sealable b c spec run node claim s h ↔
      ∃ a, recordOver b c run node claim h evidence = some a ∧ a.Fits b.runtime := by
  constructor
  · rintro ⟨evidence', a, hev', ha, hfits⟩
    rw [hev] at hev'
    obtain rfl := Option.some.inj hev'
    exact ⟨a, ha, hfits⟩
  · rintro ⟨a, ha, hfits⟩
    exact ⟨evidence, a, hev, ha, hfits⟩

end

/-! ### Effects that keep claims and attempts -/

/-- An operation that neither makes, releases nor seals. -/
def LedgerOp.Mild : LedgerOp → Prop
  | admitReceipt _ _ _ _ => True
  | applyRetryPolicy _ _ _ _ _ => True
  | openResolveWork _ _ _ _ _ => True
  | _ => False

def Effect.Mild (e : Effect) : Prop := ∀ op, e = .ledger op → op.Mild

theorem Effect.mild_ledger {op : LedgerOp} (h : op.Mild) : (Effect.ledger op).Mild := by
  intro op' hop
  cases hop
  exact h

/-- The claims and the attempts are these. -/
def Tables (claims : List ClaimRow) (attempts : List Attempt) (w : World) : Prop :=
  w.store.claims = claims ∧ w.store.attempts = attempts

theorem exec_mild {rt : Runtime} {s : Store} {op : LedgerOp} (h : op.Mild) :
    (op.exec rt s).2.claims = s.claims ∧ (op.exec rt s).2.attempts = s.attempts := by
  cases op with
  | admitReceipt spec run receipt now =>
    refine Store.transaction_property (P := fun s' => s'.claims = s.claims ∧
      s'.attempts = s.attempts) ⟨rfl, rfl⟩ ?_
    intro u s' h
    obtain ⟨node, attempt, result, st, state, hdone⟩ := Receipts.admitReceipt_ok rt h
    rw [hdone.store_eq]
    exact ⟨rfl, rfl⟩
  | applyRetryPolicy spec run id narrowing now =>
    refine Store.transaction_property (P := fun s' => s'.claims = s.claims ∧
      s'.attempts = s.attempts) ⟨rfl, rfl⟩ ?_
    intro decision s' h
    obtain ⟨node, st, state, -, -, -, -, happ⟩ := Budget.applyRetryPolicy_ok rt h
    cases happ <;> exact ⟨rfl, rfl⟩
  | openResolveWork spec run id now expiresAt =>
    refine Store.transaction_property (P := fun s' => s'.claims = s.claims ∧
      s'.attempts = s.attempts) ⟨rfl, rfl⟩ ?_
    intro packet s' h
    obtain ⟨st, state, next, hdone⟩ := Gates.openResolveWork_ok rt h
    rw [hdone.store_eq]
    exact ⟨rfl, rfl⟩
  | storeGraph | createRun | claimNext | complete | cancel | reclaim | revokeReceipt
  | admitDecision | appendDecision => exact h.elim

theorem Effect.Performs.tables {rt : Runtime} {claims : List ClaimRow} {attempts : List Attempt}
    (w : World) (e : Effect) (r : e.Answer) (w' : World) (he : e.Mild)
    (hw : Tables claims attempts w) (h : e.Performs rt w r w') : Tables claims attempts w' := by
  rcases e.ledger_or with ⟨op, rfl⟩ | hread
  · obtain ⟨-, rfl⟩ := h
    obtain ⟨hclaims, hattempts⟩ := @exec_mild rt w.store op (he op rfl)
    exact ⟨hclaims.trans hw.1, hattempts.trans hw.2⟩
  · have hstore := (@Effect.Performs.holds rt _ _ _ _ h hread).1
    rw [Tables, hstore]
    exact hw

namespace Controller

variable {b : Build} {ws : Workspace} {spec : GraphSpec} {run : GraphRun} {node : NodeSpec}
  {now : Timestamp}

theorem openPacket_mild (id : NodeId) :
    Fallible.Only Effect.Mild (openPacket ws spec run id now) := by
  refine Fallible.Only.bind (Fallible.only_ofExcept _) ?_
  exact fun expires => Fallible.only_attempt (Effect.mild_ledger trivial)

theorem retry_mild (id : NodeId) : Fallible.Only Effect.Mild (retry ws spec run id now) := by
  refine Fallible.Only.bind (Fallible.only_attempt (Effect.mild_ledger trivial)) ?_
  intro disposition
  cases disposition with
  | retry cls started cap => trivial
  | exhausted reason route =>
    cases route with
    | cancel => trivial
    | gate => exact Fallible.Only.bind (openPacket_mild id) (fun _ => trivial)

theorem admitResponse_mild (attempt : Attempt) (response : VerifierResponse) (subject : String) :
    Fallible.Only Effect.Mild (admitResponse b ws spec run node attempt response subject now) := by
  refine Fallible.Only.bind (Fallible.only_ofExcept _) ?_
  intro id
  refine Fallible.Only.bind (Fallible.only_ofExcept _) ?_
  intro receipt
  refine Fallible.Only.bind (Fallible.only_attempt (Effect.mild_ledger trivial)) ?_
  intro u
  cases receipt.verdict with
  | accept => trivial
  | reject => exact Fallible.Only.bind (retry_mild node.id) (fun _ => trivial)
  | undecidable => exact Fallible.Only.bind (openPacket_mild node.id) (fun _ => trivial)

theorem artifactPath_mild (id : NodeId) (number : AttemptNumber) :
    Fallible.Only Effect.Mild (artifactPath ws run.runId id number) :=
  Fallible.Only.bind (Fallible.only_attempt (fun _ h => by cases h)) (fun _ => trivial)

theorem verifierArgs_mild (attempt : Attempt) :
    Fallible.Only Effect.Mild (verifierArgs ws run node attempt) := by
  unfold verifierArgs
  split
  · exact Fallible.Only.bind (Fallible.only_ofExcept _) (fun _ => trivial)
  · split
    · refine Fallible.Only.bind (Fallible.only_ofExcept _) ?_
      exact fun profile => Fallible.Only.bind (artifactPath_mild _ _) (fun _ => trivial)
    · exact Fallible.only_ofExcept _

theorem verifyAndAdmit_mild (attempt : Attempt) :
    Fallible.Only Effect.Mild (verifyAndAdmit b ws spec run node attempt now) := by
  refine Fallible.Only.bind (Fallible.only_ofExcept _) ?_
  intro subject
  refine Fallible.Only.bind (Fallible.only_ofExcept _) ?_
  intro digest
  refine Fallible.Only.bind (verifierArgs_mild attempt) ?_
  intro args
  refine Fallible.Only.bind ?_ ?_
  · refine Fallible.Only.bind (Fallible.only_attempt (fun _ h => by cases h)) ?_
    exact fun _ => Fallible.only_ask (fun _ h => by cases h)
  · intro child
    split
    · exact admitResponse_mild attempt _ subject
    · trivial

end Controller

namespace Controller

variable {rt : Runtime} {ws : Workspace} {w : World} {h : List Did}

theorem artifactPath_leads {run : RunId} {id : NodeId} {number : AttemptNumber} :
    Fallible.Leads (Effect.Performs rt) (fun w' h' r => w' = w ∧ ∃ made,
      h' = h ++ [⟨.makeDir (artifactDir ws run), made⟩] ∧
      ((∃ u, made = .ok u ∧ r = .ok (artifactFile ws run id number)) ∨
        ∃ e x, made = .error e ∧ r = .error x)) (artifactPath ws run id number) w h := by
  refine Fallible.Leads.attempt_bind ?_ ?_
  · rintro made w' u rfl hmade
    exact ⟨rfl, made, rfl, Or.inl ⟨u, mapError_ok hmade, rfl⟩⟩
  · rintro made w' y rfl hmade
    cases made with
    | ok u => cases hmade
    | error e => exact ⟨rfl, _, rfl, Or.inr ⟨e, y, rfl, rfl⟩⟩

/-- A verifier child answers once this binary is found. -/
theorem runVerifier_leads {args : ChildArgs} {request : VerifierRequest} :
    Fallible.Leads (Effect.Performs rt) (fun w' h' r => w'.store = w.store ∧
      ((∃ u child, h' = h ++ [⟨.currentExe, (.ok u : Except String Unit)⟩,
        Did.ran args request child] ∧ r = .ok child) ∨
        ∃ e x, h' = h ++ [⟨.currentExe, (.error e : Except String Unit)⟩] ∧ r = .error x))
      (runVerifier args request) w h := by
  refine Fallible.Leads.attempt_bind ?_ ?_
  · rintro found w' u rfl hfound
    obtain rfl : found = .ok u := mapError_ok hfound
    refine Fallible.Leads.ask_bind (f := pure) ?_
    intro child w'' hchild
    have hstore := (@Effect.Performs.holds rt _ _ _ _ hchild (fun _ hx => by cases hx)).1
    exact ⟨hstore, Or.inl ⟨u, child, List.append_assoc _ _ _, rfl⟩⟩
  · rintro found w' y rfl hfound
    cases found with
    | ok u => cases hfound
    | error e => exact ⟨rfl, Or.inr ⟨e, y, rfl, rfl⟩⟩

end Controller

/-! ### A step after its claim -/

/-- The call has just made a claim over the store `s`, and the store is `s₁`. -/
structure Pending (c : Command) (s s₁ : Store) (sched : Scheduler) (claim : Claim)
    (node : NodeSpec) : Prop where
  scheduler : Controller.schedulerFor c.ws sched.spec sched.run = .ok sched
  claimsOk : s.ClaimsOk
  made : ∃ claimedAt st state next snapshot,
    sched.Claimed s c.now claimedAt claim s₁ node st state next snapshot

/-- What is claimed of the end of a step: a failure strands nothing, exactly when the step
had something to seal. -/
def ClaimJudged (b : Build) (c : Command) (s s₁ : Store) (sched : Scheduler) (claim : Claim)
    (node : NodeSpec) {α : Type} (w : World) (h : List Did) (r : Except RunError α) : Prop :=
  ((∃ e, r = .error e) → NoneStranded s w.store) ↔
    Sealable b c sched.spec sched.run node claim s₁ h

namespace Pending

variable {b : Build} {c : Command} {s s₁ : Store} {sched : Scheduler} {claim : Claim}
  {node : NodeSpec} {w : World} {h : List Did} {evidence : Except String Manifest}

theorem findNode (hp : Pending c s s₁ sched claim node) :
    sched.spec.findNode claim.nodeId = some node := by
  obtain ⟨claimedAt, st, state, next, snapshot, hc⟩ := hp.made
  rw [hc.nodeId_eq]
  exact hc.node_mem

theorem stranded (hp : Pending c s s₁ sched claim node) : ¬ NoneStranded s s₁ := by
  obtain ⟨claimedAt, st, state, next, snapshot, hc⟩ := hp.made
  exact hc.stranded

/-- A record the step builds for its claim is sealed exactly when it fits. -/
theorem completes (hp : Pending c s s₁ sched claim node) {references : List EvidenceRef}
    {result : Option (String × List UInt8)} {outcome : ExecutionOutcome} {text : Option String} :
    (∃ s₂, sched.complete b.runtime s₁ claim (Controller.sealedAttempt b sched.run node claim c.now
      references result outcome text) = .ok ((), s₂)) ↔
      (Controller.sealedAttempt b sched.run node claim c.now references result outcome text).Fits
        b.runtime := by
  obtain ⟨claimedAt, st, state, next, snapshot, hc⟩ := hp.made
  refine hc.completes hp.claimsOk hc.runId_eq.symm ?_ rfl rfl rfl
  have href : sched.spec.nodeRef claim.nodeId = some (sched.spec.refOf node) := by
    rw [GraphSpec.nodeRef, hp.findNode]
    rfl
  rw [href]
  simp only [GraphSpec.refOf, Controller.sealedAttempt, Controller.nodeRefIn, sched.ofRun,
    GraphSpec.graphRef, hc.nodeId_eq]

theorem settled (hp : Pending c s s₁ sched claim node) {rt : Runtime} {a : Attempt} {s₂ : Store}
    (hdone : sched.complete rt s₁ claim a = .ok ((), s₂)) : NoneStranded s s₂ := by
  obtain ⟨claimedAt, st, state, next, snapshot, hc⟩ := hp.made
  exact hc.settled hdone

/-- A step that gives up before the sealing strands its claim. -/
theorem exit (hp : Pending c s s₁ sched claim node) (hw : w.store = s₁)
    (hev : claimEvidence b c sched.spec sched.run node claim s₁ h = some evidence)
    (hnone : recordOver b c sched.run node claim h evidence = none) {α : Type} (e : RunError) :
    ClaimJudged b c s s₁ sched claim node w h (.error e : Except RunError α) := by
  unfold ClaimJudged
  rw [sealable_iff hev, hnone, hw]
  refine iff_of_false (fun hkept => hp.stranded (hkept ⟨e, rfl⟩)) ?_
  rintro ⟨a, ha, -⟩
  cases ha

/-- The sealing, and whatever mild follows it. -/
theorem seal_leads (hp : Pending c s s₁ sched claim node) (hw : w.store = s₁)
    (hev : claimEvidence b c sched.spec sched.run node claim s₁ h = some evidence)
    {references : List EvidenceRef} {result : Option (String × List UInt8)}
    {outcome : ExecutionOutcome} {text : Option String}
    (hrecord : recordOver b c sched.run node claim h evidence = some (Controller.sealedAttempt b
      sched.run node claim c.now references result outcome text))
    {f : Attempt → Call Action} (hf : ∀ a, Fallible.Only Effect.Mild (f a)) :
    Fallible.Leads (Effect.Performs b.runtime) (ClaimJudged b c s s₁ sched claim node)
      (Controller.sealAttempt c.ws sched.spec sched.run claim (Controller.sealedAttempt b sched.run
        node claim c.now references result outcome text) >>= f) w h := by
  have hcompletes := @completes b c s s₁ sched claim node hp references result outcome text
  generalize Controller.sealedAttempt b sched.run node claim c.now references result outcome text =
    a at hrecord hcompletes ⊢
  refine Fallible.Leads.andThen (R := fun w' h' r => h <+: h' ∧
    ((∃ s₂, r = .ok a ∧ w'.store = s₂ ∧ sched.complete b.runtime s₁ claim a = .ok ((), s₂)) ∨
      ((∃ e, r = .error e) ∧ w'.store = s₁ ∧ ¬ a.Fits b.runtime))) ?_ ?_ ?_
  · unfold Controller.sealAttempt
    rw [hp.scheduler]
    refine Fallible.Leads.ofExcept_bind ?_ (fun _ hx => by cases hx)
    intro sched' hsched'
    cases hsched'
    have hexec : ∀ x, sched.complete b.runtime w.store claim a = x →
        (LedgerOp.complete sched claim a).exec b.runtime w.store = w.store.transaction x :=
      fun x hx => hx ▸ rfl
    rw [← hw] at hcompletes ⊢
    refine Fallible.Leads.attempt_bind ?_ ?_
    · rintro r w' v ⟨rfl, rfl⟩ hv
      refine ⟨List.prefix_append h _, Or.inl ?_⟩
      cases hcall : sched.complete b.runtime w.store claim a with
      | error e =>
        rw [hexec _ hcall] at hv
        cases hv
      | ok out => exact ⟨out.2, rfl, by rw [hexec _ hcall]; rfl, rfl⟩
    · rintro r w' y ⟨rfl, rfl⟩ hy
      refine ⟨List.prefix_append h _, Or.inr ⟨⟨y, rfl⟩, ?_⟩⟩
      cases hcall : sched.complete b.runtime w.store claim a with
      | error e =>
        refine ⟨by rw [hexec _ hcall]; rfl, ?_⟩
        intro hfits
        obtain ⟨s₂, hok⟩ := hcompletes.mpr hfits
        rw [hcall] at hok
        cases hok
      | ok out =>
        rw [hexec _ hcall] at hy
        cases hy
  · rintro w' h' a' ⟨hgrow, ⟨s₂, ha', hs₂, hdone⟩ | ⟨⟨e, he⟩, -⟩⟩
    · have hfits : a.Fits b.runtime := hcompletes.mp ⟨s₂, hdone⟩
      have hkeep := Proc.Leads.grows (Proc.Only.leads (P := Effect.Performs b.runtime)
        (I := Tables s₂.claims s₂.attempts) Effect.Performs.tables (hf a') (w := w') (h := h')
        ⟨by rw [hs₂], by rw [hs₂]⟩)
      refine Proc.Leads.imp hkeep ?_
      rintro w'' h'' r ⟨hgrow', hclaims, hattempts⟩
      have hwhole := hgrow.trans hgrow'
      refine iff_of_true (fun _ => ?_) ⟨evidence, a, claimEvidence_grows hwhole hev,
        recordOver_grows hwhole hrecord, hfits⟩
      exact (NoneStranded.congr rfl hclaims hattempts).mpr (hp.settled hdone)
    · cases he
  · rintro w' h' e ⟨hgrow, ⟨s₂, ha', -⟩ | ⟨-, hs₁, hnot⟩⟩
    · cases ha'
    · unfold ClaimJudged
      rw [sealable_iff (claimEvidence_grows hgrow hev), recordOver_grows hgrow hrecord, hs₁]
      refine iff_of_false (fun hkept => hp.stranded (hkept ⟨e, rfl⟩)) ?_
      rintro ⟨a', ha', hfits⟩
      exact hnot (Option.some.inj ha' ▸ hfits)

/-- Nothing has been asked of the files or the verifiers yet. -/
structure Unasked (h : List Did) : Prop where
  directory : h.findSome? Did.directory = none
  written : h.findSome? Did.written = none
  executable : h.findSome? Did.executable = none
  childEnd : h.findSome? Did.childEnd = none
  content : h.findSome? Did.content = none

theorem firstOk_snoc {α : Type} {view : Did → Option (Except String α)}
    (hnone : h.findSome? view = none) (x : Did) :
    firstOk view (h ++ [x]) = (view x).bind Except.toOption := by
  rw [firstOk, findSome?_snoc hnone]

theorem executePatch_leads (hp : Pending c s s₁ sched claim node) (hw : w.store = s₁)
    (hq : Unasked h) {manifest : Manifest}
    (hev : claimEvidence b c sched.spec sched.run node claim s₁ h = some (.ok manifest))
    (hpatch : node.resultType.schemaId.text = "patch_result") :
    Fallible.Leads (Effect.Performs b.runtime) (ClaimJudged b c s s₁ sched claim node)
      (Controller.executePatch b c.ws sched.spec sched.run node claim c.now manifest) w h := by
  have hrecord : ∀ h, recordOver b c sched.run node claim h (.ok manifest) =
      (Controller.candidateBytes manifest).bind (fun bytes => (firstOk Did.directory h).bind
        (fun _ => (firstOk Did.written h).bind
          (fun _ => some (completedOver b c sched.run node claim manifest bytes)))) :=
    fun h => if_pos hpatch
  unfold Controller.executePatch
  refine Fallible.Leads.ofExcept_bind ?_ ?_
  · intro bytes hbytes
    have hbytes' := someOr_ok hbytes
    refine Fallible.Leads.andThen Controller.artifactPath_leads ?_ ?_
    · rintro w' h' path ⟨rfl, made, rfl, ⟨u, rfl, hpath⟩ | ⟨e, x, -, hx⟩⟩
      · obtain rfl := Except.ok.inj hpath
        have hwritten := (findSome?_snoc hq.written
          ⟨.makeDir (Controller.artifactDir c.ws sched.run.runId), (.ok u : Except String Unit)⟩)
        refine Fallible.Leads.attempt_bind ?_ ?_
        · rintro wrote w'' u' ⟨hstore, -, -⟩ hwrote
          obtain rfl : wrote = .ok u' := mapError_ok hwrote
          refine hp.seal_leads (hstore.trans hw)
            (claimEvidence_grows ((List.prefix_append h _).trans (List.prefix_append _ _)) hev) ?_
            (fun a => Controller.verifyAndAdmit_mild a)
          rw [hrecord, hbytes', firstOk_snoc hwritten, firstOk, List.findSome?_append,
            findSome?_snoc hq.directory]
          rfl
        · rintro wrote w'' y ⟨hstore, -, -⟩ hwrote
          cases wrote with
          | ok u' => cases hwrote
          | error e =>
            refine hp.exit (hstore.trans hw) (claimEvidence_grows
              ((List.prefix_append h _).trans (List.prefix_append _ _)) hev) ?_ y
            rw [hrecord, hbytes', firstOk_snoc hwritten, firstOk, List.findSome?_append,
              findSome?_snoc hq.directory]
            rfl
      · cases hx
    · rintro w' h' y ⟨rfl, made, rfl, ⟨u, rfl, hpath⟩ | ⟨e, x, rfl, hx⟩⟩
      · cases hpath
      · refine hp.exit hw (claimEvidence_grows (List.prefix_append h _) hev) ?_ y
        rw [hrecord, hbytes', firstOk_snoc hq.directory]
        rfl
  · intro y hy
    refine hp.exit hw hev ?_ y
    cases hbytes : Controller.candidateBytes manifest with
    | none =>
      rw [hrecord, hbytes]
      rfl
    | some bytes =>
      rw [hbytes] at hy
      cases hy

theorem executeCheck_leads (hp : Pending c s s₁ sched claim node) (hw : w.store = s₁)
    (hq : Unasked h) {manifest : Manifest}
    (hev : claimEvidence b c sched.spec sched.run node claim s₁ h = some (.ok manifest))
    (hpatch : node.resultType.schemaId.text ≠ "patch_result")
    (hcheck : node.resultType.schemaId.text = "software_check_result") :
    Fallible.Leads (Effect.Performs b.runtime) (ClaimJudged b c s s₁ sched claim node)
      (Controller.executeCheck b c.ws sched.spec sched.run node claim c.now manifest) w h := by
  have hrecord : ∀ h, recordOver b c sched.run node claim h (.ok manifest) =
      (Controller.manifestSubject manifest.references).bind (fun subject =>
        c.ws.softwareProfile.bind (fun _ => (firstOk Did.directory h).bind (fun _ =>
          (firstOk Did.executable h).bind (fun _ => (h.findSome? Did.childEnd).bind (fun child =>
            recordAnswered b c sched.run node claim manifest subject h child))))) :=
    fun h => (if_neg hpatch).trans (if_pos hcheck)
  unfold Controller.executeCheck
  refine Fallible.Leads.ofExcept_bind ?_ ?_
  swap
  · intro y hy
    refine hp.exit hw hev ?_ y
    cases hsubject : Controller.manifestSubject manifest.references with
    | none =>
      rw [hrecord, hsubject]
      rfl
    | some subject =>
      rw [hsubject] at hy
      cases hy
  intro subject hsubject
  have hsubject' := someOr_ok hsubject
  refine Fallible.Leads.ofExcept_bind ?_ ?_
  swap
  · intro y hy
    refine hp.exit hw hev ?_ y
    cases hprofile : c.ws.softwareProfile with
    | none =>
      rw [hrecord, hsubject', hprofile]
      rfl
    | some profile =>
      rw [hprofile] at hy
      cases hy
  intro profile hprofile
  have hprofile' := someOr_ok hprofile
  refine Fallible.Leads.andThen Controller.artifactPath_leads ?_ ?_
  swap
  · rintro w' h' y ⟨rfl, made, rfl, ⟨u, rfl, hpath⟩ | ⟨e, x, rfl, hx⟩⟩
    · cases hpath
    · refine hp.exit hw (claimEvidence_grows (List.prefix_append h _) hev) ?_ y
      rw [hrecord, hsubject', hprofile', firstOk_snoc hq.directory]
      rfl
  rintro w₁ h' path ⟨rfl, made, rfl, ⟨u, rfl, hpath⟩ | ⟨e, x, -, hx⟩⟩
  swap
  · cases hx
  obtain rfl := Except.ok.inj hpath
  generalize hdir : (⟨.makeDir (Controller.artifactDir c.ws sched.run.runId),
    (.ok u : Except String Unit)⟩ : Did) = dir
  have hmade : firstOk Did.directory (h ++ [dir]) = some u := by
    rw [firstOk_snoc hq.directory, ← hdir]
    rfl
  refine Fallible.Leads.andThen Controller.runVerifier_leads ?_ ?_
  swap
  · rintro w₂ h' y ⟨hstore, ⟨u', child, -, hx⟩ | ⟨e, x, rfl, hx⟩⟩
    · cases hx
    · have hgrow := List.prefix_append (h ++ [dir])
        [(⟨.currentExe, (.error e : Except String Unit)⟩ : Did)]
      have hnone : (h ++ [dir]).findSome? Did.executable = none := by
        rw [findSome?_snoc hq.executable, ← hdir]
        rfl
      refine hp.exit (hstore.trans hw)
        (claimEvidence_grows ((List.prefix_append h _).trans hgrow) hev) ?_ y
      rw [hrecord, hsubject', hprofile', firstOk_grows hgrow hmade, firstOk_snoc hnone]
      rfl
  rintro w₂ h' child ⟨hstore, ⟨u', child', rfl, hx⟩ | ⟨e, x, -, hx⟩⟩
  swap
  · cases hx
  obtain rfl := Except.ok.inj hx
  have hw₂ : w₂.store = s₁ := hstore.trans hw
  generalize hasked : h ++ [dir] ++ [⟨.currentExe, (.ok u' : Except String Unit)⟩,
    Did.ran (.software profile (Controller.artifactFile c.ws sched.run.runId claim.nodeId
      claim.number)) (Controller.requestFor node sched.run claim.nodeId claim.number subject
        manifest.references manifest.digest) child] = h₂
  have hgrow₁ : h ++ [dir] <+: h₂ := hasked ▸ List.prefix_append _ _
  have hexe : firstOk Did.executable h₂ = some u' := by
    rw [← hasked, ← hdir, firstOk, List.append_assoc, List.findSome?_append, hq.executable]
    rfl
  have hchild : h₂.findSome? Did.childEnd = some child := by
    rw [← hasked, ← hdir, List.append_assoc, List.findSome?_append, hq.childEnd]
    rfl
  have hcontent : h₂.findSome? Did.content = none := by
    rw [← hasked, ← hdir, List.append_assoc, List.findSome?_append, hq.content]
    rfl
  have hrecord₂ : ∀ h', h₂ <+: h' → recordOver b c sched.run node claim h' (.ok manifest) =
      recordAnswered b c sched.run node claim manifest subject h' child := by
    intro h' hgrow
    rw [hrecord, hsubject', hprofile', firstOk_grows (hgrow₁.trans hgrow) hmade,
      firstOk_grows hgrow hexe, findSome?_grows hgrow hchild]
    rfl
  have hev₂ : ∀ h', h₂ <+: h' →
      claimEvidence b c sched.spec sched.run node claim s₁ h' = some (.ok manifest) :=
    fun h' hgrow => claimEvidence_grows
      (((List.prefix_append h [dir]).trans hgrow₁).trans hgrow) hev
  cases houtcome : Controller.childOutcome b (Controller.requestFor node sched.run claim.nodeId
      claim.number subject manifest.references manifest.digest) child with
  | error failure =>
    refine hp.seal_leads hw₂ (hev₂ h₂ List.prefix_rfl) ?_ ?_
    · rw [hrecord₂ h₂ List.prefix_rfl, recordAnswered, houtcome]
    · exact fun a => Fallible.Only.bind (Controller.retry_mild _) (fun _ => trivial)
  | ok response =>
    refine Fallible.Leads.attempt_bind ?_ ?_
    · rintro read w₃ bytes ⟨rfl, -⟩ hread
      obtain rfl : read = .ok bytes := mapError_ok hread
      refine hp.seal_leads hw₂ (hev₂ _ (List.prefix_append h₂ _)) ?_ ?_
      · rw [hrecord₂ _ (List.prefix_append h₂ _), recordAnswered, houtcome]
        dsimp only
        rw [firstOk_snoc hcontent]
        rfl
      · exact fun a => Controller.admitResponse_mild a response subject
    · rintro read w₃ y ⟨rfl, -⟩ hread
      cases read with
      | ok bytes => cases hread
      | error e =>
        refine hp.exit hw₂ (hev₂ _ (List.prefix_append h₂ _)) ?_ y
        rw [hrecord₂ _ (List.prefix_append h₂ _), recordAnswered, houtcome]
        dsimp only
        rw [firstOk_snoc hcontent]
        rfl

/-- An entry of none of these kinds leaves them unasked. -/
theorem Unasked.snoc (hq : Unasked h) {x : Did} (hx : Unasked [x]) : Unasked (h ++ [x]) where
  directory := by rw [List.findSome?_append, hq.directory, hx.directory]; rfl
  written := by rw [List.findSome?_append, hq.written, hx.written]; rfl
  executable := by rw [List.findSome?_append, hq.executable, hx.executable]; rfl
  childEnd := by rw [List.findSome?_append, hq.childEnd, hx.childEnd]; rfl
  content := by rw [List.findSome?_append, hq.content, hx.content]; rfl

/-- Resolution leaves the evidence that the store and the observation determine. -/
theorem resolveEvidence_leads (hw : w.store = s₁) (hq : Unasked h)
    (hseen : h.findSome? Did.observation = none) {run : GraphRun} :
    Fallible.Leads (Effect.Performs b.runtime) (fun w' h' r => w'.store = s₁ ∧ Unasked h' ∧
      ∃ evidence, r = .ok evidence ∧
        claimEvidence b c sched.spec run node claim s₁ h' = some evidence)
      (Controller.resolveEvidence b c.ws sched.spec run node claim c.now) w h := by
  unfold Controller.resolveEvidence Controller.askEvents
  refine Fallible.Leads.ask_bind ?_
  rintro events w' ⟨rfl, rfl⟩
  have hq₁ :=
    hq.snoc (x := ⟨.events run.runId, w'.store.eventsOf run.runId⟩) ⟨rfl, rfl, rfl, rfl, rfl⟩
  cases hst : RunState.replay run.runId sched.spec (w'.store.eventsOf run.runId) with
  | error e =>
    refine ⟨hw, hq₁, _, rfl, ?_⟩
    unfold claimEvidence
    rw [← hw, show w'.store.replay run.runId sched.spec = .error e from hst]
  | ok st =>
    unfold Controller.askResolve
    refine Fallible.Leads.ask_bind ?_
    rintro found w'' ⟨rfl, rfl⟩
    have hq₂ : ∀ r, Unasked (h ++ [⟨.events run.runId, w''.store.eventsOf run.runId⟩] ++
        [⟨.resolve claim sched.spec run st c.now, r⟩]) :=
      fun r => hq₁.snoc ⟨rfl, rfl, rfl, rfl, rfl⟩
    cases hfound : DependencyService.resolve
        { spec := sched.spec, run := run, state := st, store := w''.store, now := c.now }
        claim.nodeId with
    | error blockers =>
      refine ⟨hw, hq₂ _, _, rfl, ?_⟩
      unfold claimEvidence
      rw [← hw, show w''.store.replay run.runId sched.spec = .ok st from hst]
      simp only [hfound]
    | ok snapshot =>
      unfold Controller.askObserve
      refine Fallible.Leads.ask_bind ?_
      rintro seen w₃ rfl
      refine ⟨hw, (hq₂ _).snoc (x := ⟨.observe claim, seen⟩) ⟨rfl, rfl, rfl, rfl, rfl⟩, _, rfl, ?_⟩
      unfold claimEvidence
      rw [← hw, show w₃.store.replay run.runId sched.spec = .ok st from hst]
      simp only [hfound, List.findSome?_append, hseen]
      rfl

theorem executeClaim_leads (hp : Pending c s s₁ sched claim node) (hw : w.store = s₁)
    (hq : Unasked h) (hseen : h.findSome? Did.observation = none) :
    Fallible.Leads (Effect.Performs b.runtime) (ClaimJudged b c s s₁ sched claim node)
      (Controller.executeClaim b c.ws sched.spec sched.run claim c.now) w h := by
  unfold Controller.executeClaim
  rw [hp.findNode]
  refine Fallible.Leads.ofExcept_bind ?_ (fun _ hx => by cases hx)
  intro node' hnode'
  cases hnode'
  refine Fallible.Leads.andThen (resolveEvidence_leads hw hq hseen) ?_ ?_
  · rintro w' h' resolved ⟨hw', hq', evidence, hresolved, hev⟩
    obtain rfl := Except.ok.inj hresolved
    cases resolved with
    | error reason =>
      refine hp.seal_leads hw' hev rfl ?_
      exact fun a => Fallible.Only.bind (Controller.retry_mild _) (fun _ => trivial)
    | ok manifest =>
      dsimp only
      by_cases hpatch : node.resultType.schemaId.text = "patch_result"
      · rw [if_pos hpatch]
        exact hp.executePatch_leads hw' hq' hev hpatch
      · rw [if_neg hpatch]
        by_cases hcheck : node.resultType.schemaId.text = "software_check_result"
        · rw [if_pos hcheck]
          exact hp.executeCheck_leads hw' hq' hev hpatch hcheck
        · rw [if_neg hcheck]
          refine hp.exit hw' hev ?_ _
          exact (if_neg hpatch).trans (if_neg hcheck)
  · rintro w' h' y ⟨-, -, evidence, hx, -⟩
    cases hx

end Pending

/-! ### A whole step -/

/-- The call opens the run `run` of its document `spec` over `s`, which storing the document
makes `s₀`. -/
structure Opens (b : Build) (c : Command) (s s₀ : Store) (spec : GraphSpec) (run : GraphRun) :
    Prop where
  document : Controller.loadGraph c.ws = .ok spec
  stored : ∃ fresh, (LedgerOp.storeGraph spec).exec b.runtime s =
    ((.ok fresh : Except StoreError Bool), s₀)
  read : ∃ id, Identifier.new .runId c.runId = .ok id ∧ s₀.run id = .ok (some run)

/-- A step of the call over `s` comes to claim `node`: no node is checking, and `claim_next`
makes `claim` and leaves `s₁`. -/
structure Claims (b : Build) (c : Command) (s : Store) (clock : String) (s₀ s₁ : Store)
    (sched : Scheduler) (st : RunState) (claim : Claim) (node : NodeSpec) : Prop
    extends Opens b c s s₀ sched.spec sched.run where
  scheduler : Controller.schedulerFor c.ws sched.spec sched.run = .ok sched
  replayed : s₀.replay sched.run.runId sched.spec = .ok st
  unchecked : Controller.firstChecking sched.spec st = none
  claimed : (LedgerOp.claimNext sched c.now clock).exec b.runtime s₀ =
    ((.ok (.claimed claim) : Except SchedulerError ClaimOutcome), s₁)
  known : sched.spec.findNode claim.nodeId = some node

theorem Opens.unique {b : Build} {c : Command} {s s₀ s₀' : Store} {spec spec' : GraphSpec}
    {run run' : GraphRun} (h : Opens b c s s₀ spec run) (h' : Opens b c s s₀' spec' run') :
    s₀' = s₀ ∧ spec' = spec ∧ run' = run := by
  have hspec := h'.document
  rw [h.document] at hspec
  obtain rfl := Except.ok.inj hspec
  obtain ⟨fresh, hstored⟩ := h.stored
  obtain ⟨fresh', hstored'⟩ := h'.stored
  rw [hstored] at hstored'
  obtain rfl := (Prod.mk.inj hstored').2
  obtain ⟨id, hid, hread⟩ := h.read
  obtain ⟨id', hid', hread'⟩ := h'.read
  rw [hid] at hid'
  obtain rfl := Except.ok.inj hid'
  rw [hread] at hread'
  exact ⟨rfl, rfl, (Option.some.inj (Except.ok.inj hread')).symm⟩

/-- At the end of a step: a failure strands nothing, exactly when a step that comes to claim
has something to seal. -/
def StepJudged (b : Build) (c : Command) (s : Store) {α : Type} (w : World) (h : List Did)
    (r : Except RunError α) : Prop :=
  ((∃ e, r = .error e) → NoneStranded s w.store) ↔
    ∀ clock s₀ s₁ sched st claim node, h.findSome? Did.clockRead = some clock →
      Claims b c s clock s₀ s₁ sched st claim node →
      Sealable b c sched.spec sched.run node claim s₁ h

section

variable {b : Build} {c : Command} {s s₀ s₁ : Store} {w : World} {h : List Did} {α : Type}
  {r : Except RunError α}

/-- A step that makes no claim strands none. -/
theorem StepJudged.quiet (hclaims : w.store.claims = s.claims)
    (hnone : ∀ clock s₀ s₁ sched st claim node, h.findSome? Did.clockRead = some clock →
      ¬ Claims b c s clock s₀ s₁ sched st claim node) : StepJudged b c s w h r := by
  refine iff_of_true (fun _ => NoneStranded.of_claims hclaims) ?_
  intro clock s₀ s₁ sched st claim node hclock hc
  exact absurd hc (hnone clock s₀ s₁ sched st claim node hclock)

/-- What is judged of the claim is judged of the step. -/
theorem StepJudged.of_claims {clock : String} {sched : Scheduler} {st : RunState} {claim : Claim}
    {node : NodeSpec} (hclock : h.findSome? Did.clockRead = some clock)
    (hc : Claims b c s clock s₀ s₁ sched st claim node) (hclaims : s₀.claims = s.claims)
    (hj : ClaimJudged b c s₀ s₁ sched claim node w h r) : StepJudged b c s w h r := by
  have hsame : NoneStranded s w.store ↔ NoneStranded s₀ w.store :=
    NoneStranded.congr hclaims.symm rfl rfl
  unfold StepJudged
  rw [hsame]
  refine Iff.trans hj ⟨?_, fun hall => hall clock s₀ s₁ sched st claim node hclock hc⟩
  intro hseal clock' s₀' s₁' sched' st' claim' node' hclock' hc'
  rw [hclock] at hclock'
  obtain rfl := Option.some.inj hclock'
  obtain ⟨rfl, hspec, hrun⟩ := hc.toOpens.unique hc'.toOpens
  have hsched := hc'.scheduler
  rw [hspec, hrun, hc.scheduler] at hsched
  obtain rfl := Except.ok.inj hsched
  have hclaimed := hc'.claimed
  rw [hc.claimed] at hclaimed
  obtain ⟨hclaim, rfl⟩ := Prod.mk.inj hclaimed
  cases hclaim
  have hknown := hc'.known
  rw [hc.known] at hknown
  obtain rfl := Option.some.inj hknown
  exact hseal

end

/-- Nothing that the judgement looks at has been asked. -/
structure Silent (h : List Did) : Prop extends Pending.Unasked h where
  observation : h.findSome? Did.observation = none
  clock : h.findSome? Did.clockRead = none

theorem Silent.snoc {h : List Did} {x : Did} (hq : Silent h) (hx : Silent [x]) :
    Silent (h ++ [x]) where
  toUnasked := hq.toUnasked.snoc hx.toUnasked
  observation := by rw [List.findSome?_append, hq.observation, hx.observation]; rfl
  clock := by rw [List.findSome?_append, hq.clock, hx.clock]; rfl

theorem silent_nil : Silent [] := ⟨⟨rfl, rfl, rfl, rfl, rfl⟩, rfl, rfl⟩

namespace Controller

variable {b : Build} {c : Command} {spec : GraphSpec} {w : World}

theorem storeGraph_claims (rt : Runtime) (s : Store) :
    ((LedgerOp.storeGraph spec).exec rt s).2.claims = s.claims := by
  refine Store.transaction_property (P := fun s' => s'.claims = s.claims) rfl ?_
  intro fresh s' h
  unfold Store.storeGraph at h
  obtain ⟨digest, -, h⟩ := bind_ok h
  obtain ⟨u, -, h⟩ := bind_ok h
  split at h
  · split at h
    · cases h
      rfl
    · cases h
  · cases h
    rfl

/-- What opening a run leads to: the run of the call, or there is none to open. -/
structure OpenEnd (b : Build) (c : Command) (spec : GraphSpec) (s : Store) (w : World)
    (h : List Did) (r : Except RunError GraphRun) : Prop where
  silent : Silent h
  claims : w.store.claims = s.claims
  reachable : (legalLedger b.runtime).Reachable w.store
  opens : ∀ run, r = .ok run → Opens b c s w.store spec run
  fails : ∀ e, r = .error e → ∀ s₀ spec' run, ¬ Opens b c s s₀ spec' run

theorem openRun_ends (hs : (legalLedger b.runtime).Reachable w.store)
    (hload : loadGraph c.ws = .ok spec) :
    Fallible.Leads (Effect.Performs b.runtime) (OpenEnd b c spec w.store)
      (openRun spec c.runId) w [] := by
  have hsame : ∀ {s₀ spec' run}, Opens b c w.store s₀ spec' run → spec' = spec := by
    intro s₀ spec' run ho
    have hdoc := ho.document
    rw [hload] at hdoc
    exact (Except.ok.inj hdoc).symm
  unfold openRun
  refine Fallible.Leads.ofExcept_bind ?_ ?_
  swap
  · intro y hy
    refine ⟨silent_nil, rfl, hs, fun _ hx => (by cases hx), ?_⟩
    rintro e - s₀ spec' run ho
    obtain ⟨id, hid, -⟩ := ho.read
    rw [hid] at hy
    cases hy
  intro id hid
  have hid' := mapError_ok hid
  refine Fallible.Leads.attempt_bind ?_ ?_
  swap
  · rintro r w' y ⟨rfl, rfl⟩ hy
    have hs' : (legalLedger b.runtime).Reachable
        ((LedgerOp.storeGraph spec).exec b.runtime w.store).2 :=
      .step (a := .storeGraph spec) hs ⟨trivial, rfl⟩
    refine ⟨silent_nil.snoc ⟨⟨rfl, rfl, rfl, rfl, rfl⟩, rfl, rfl⟩, storeGraph_claims _ _, hs',
      fun _ hx => (by cases hx), ?_⟩
    rintro e - s₀ spec' run ho
    obtain rfl := hsame ho
    obtain ⟨fresh, hstored⟩ := ho.stored
    rw [hstored] at hy
    cases hy
  rintro r w' fresh ⟨rfl, rfl⟩ hfresh
  have hstored : (LedgerOp.storeGraph spec).exec b.runtime w.store =
      ((.ok fresh : Except StoreError Bool),
        ((LedgerOp.storeGraph spec).exec b.runtime w.store).2) :=
    Prod.ext (mapError_ok hfresh) rfl
  have hs' : (legalLedger b.runtime).Reachable
      ((LedgerOp.storeGraph spec).exec b.runtime w.store).2 :=
    .step (a := .storeGraph spec) hs ⟨trivial, rfl⟩
  have hread : ∀ {s₀ spec' run}, Opens b c w.store s₀ spec' run →
      ((LedgerOp.storeGraph spec).exec b.runtime w.store).2.run id = .ok (some run) := by
    intro s₀ spec' run ho
    obtain rfl := hsame ho
    obtain ⟨fresh', hstored'⟩ := ho.stored
    obtain ⟨id', hid'', hrun⟩ := ho.read
    rw [hid'] at hid''
    obtain rfl := Except.ok.inj hid''
    rw [hstored']
    exact hrun
  have hsilent : ∀ x : Except StoreError (Option GraphRun),
      Silent ([] ++ [(⟨.ledger (.storeGraph spec), ((LedgerOp.storeGraph spec).exec b.runtime
        w.store).1⟩ : Did)] ++ [⟨.run id, x⟩]) :=
    fun x => (silent_nil.snoc ⟨⟨rfl, rfl, rfl, rfl, rfl⟩, rfl, rfl⟩).snoc
      ⟨⟨rfl, rfl, rfl, rfl, rfl⟩, rfl, rfl⟩
  refine Fallible.Leads.attempt_bind ?_ ?_
  swap
  · rintro found w' y ⟨rfl, rfl⟩ hy
    refine ⟨hsilent _, storeGraph_claims _ _, hs', fun _ hx => (by cases hx), ?_⟩
    rintro e - s₀ spec' run ho
    rw [hread ho] at hy
    cases hy
  rintro found w' v ⟨rfl, rfl⟩ hv
  have hv' := mapError_ok hv
  cases v with
  | none =>
    refine ⟨hsilent _, storeGraph_claims _ _, hs', fun _ hx => (by cases hx), ?_⟩
    rintro e - s₀ spec' run ho
    have hrun := hread ho
    rw [hv'] at hrun
    cases hrun
  | some run =>
    refine ⟨hsilent _, storeGraph_claims _ _, hs', ?_, fun _ hx => (by cases hx)⟩
    rintro run' hrun'
    cases hrun'
    exact ⟨hload, ⟨fresh, hstored⟩, id, hid', hv'⟩

end Controller

namespace Controller

variable {b : Build} {c : Command} {spec : GraphSpec} {run : GraphRun} {s : Store} {w : World}
  {h : List Did}

theorem readState_leads : Fallible.Leads (Effect.Performs b.runtime) (fun w' h' r => w' = w ∧
      h' = h ++ [⟨.events run.runId, w.store.eventsOf run.runId⟩] ∧
      r = (w.store.replay run.runId spec).mapError .replay) (readState spec run) w h := by
  unfold readState askEvents
  refine Fallible.Leads.ask_bind ?_
  rintro events w' ⟨rfl, rfl⟩
  exact ⟨rfl, rfl, rfl⟩

theorem readAttempt_mild {node : NodeSpec} {state : NodeState} :
    Fallible.Only Effect.Mild (readAttempt run node state) := by
  refine Fallible.Only.bind (Fallible.only_ofExcept _) ?_
  intro number
  refine Fallible.Only.bind (Fallible.only_attempt (fun _ h => by cases h)) ?_
  exact fun found => Fallible.only_ofExcept _

/-- A step of an opened run is judged by the claim it comes to. -/
theorem stepInner_judged (hs : (legalLedger b.runtime).Reachable w.store) (hq : Silent h)
    (ho : Opens b c s w.store spec run) (hclaims : w.store.claims = s.claims) :
    Fallible.Leads (Effect.Performs b.runtime) (StepJudged b c s)
      (stepInner b c.ws spec run c.now) w h := by
  unfold stepInner
  refine Fallible.Leads.ofExcept_bind ?_ ?_
  swap
  · intro y hy
    refine StepJudged.quiet hclaims ?_
    intro clock s₀ s₁ sched st claim node _ hc
    obtain ⟨rfl, rfl, rfl⟩ := ho.unique hc.toOpens
    rw [hc.scheduler] at hy
    cases hy
  intro sched hsched
  obtain ⟨rfl, rfl⟩ := schedulerFor_ok (c := c) hsched
  refine Fallible.Leads.andThen readState_leads ?_ ?_
  swap
  · rintro w' h' y ⟨rfl, rfl, hy⟩
    refine StepJudged.quiet hclaims ?_
    intro clock s₀ s₁ sched' st claim node _ hc
    obtain ⟨rfl, hspec, hrun⟩ := ho.unique hc.toOpens
    rw [← hspec, ← hrun, hc.replayed] at hy
    cases hy
  rintro w' h₁ st ⟨rfl, rfl, hst⟩
  have hst' := mapError_ok hst.symm
  have hq₁ : Silent (h ++ [⟨.events sched.run.runId, w'.store.eventsOf sched.run.runId⟩]) :=
    hq.snoc ⟨⟨rfl, rfl, rfl, rfl, rfl⟩, rfl, rfl⟩
  generalize h ++ [(⟨.events sched.run.runId, w'.store.eventsOf sched.run.runId⟩ : Did)] = h₁ at hq₁
  have hfound : ∀ {clock s₀ s₁ sched' st' claim node},
      Claims b c s clock s₀ s₁ sched' st' claim node →
        s₀ = w'.store ∧ sched' = sched ∧ firstChecking sched.spec st = none := by
    intro clock s₀ s₁ sched' st' claim node hc
    obtain ⟨rfl, hspec, hrun⟩ := ho.unique hc.toOpens
    have hsame := hc.scheduler
    rw [hspec, hrun, hsched] at hsame
    obtain rfl := Except.ok.inj hsame
    have hreplay := hc.replayed
    rw [hst'] at hreplay
    obtain rfl := Except.ok.inj hreplay
    exact ⟨rfl, rfl, hc.unchecked⟩
  cases hfirst : firstChecking sched.spec st with
  | some found =>
    obtain ⟨node, state⟩ := found
    have hmild : Fallible.Only Effect.Mild (readAttempt sched.run node state >>= fun attempt =>
        verifyAndAdmit b c.ws sched.spec sched.run node attempt c.now) :=
      Fallible.Only.bind readAttempt_mild (fun attempt => verifyAndAdmit_mild attempt)
    have hkeep := Proc.Only.leads (P := Effect.Performs b.runtime)
      (I := Tables w'.store.claims w'.store.attempts) Effect.Performs.tables hmild (w := w')
      (h := h₁) (And.intro rfl rfl)
    refine Proc.Leads.imp hkeep ?_
    rintro w₂ h₂ r ⟨hkept, -⟩
    refine StepJudged.quiet (hkept.trans hclaims) ?_
    intro clock s₀ s₁ sched' st' claim node' _ hc
    rw [(hfound hc).2.2] at hfirst
    cases hfirst
  | none =>
    unfold askClock
    refine Fallible.Leads.ask_bind ?_
    rintro claimedAt w₂ rfl
    have hclock : ∀ {x : Except SchedulerError ClaimOutcome},
        List.findSome? Did.clockRead (h₁ ++ [⟨.clock, claimedAt⟩] ++
          [⟨.ledger (.claimNext sched c.now claimedAt), x⟩]) = some claimedAt := by
      intro x
      rw [List.findSome?_append, List.findSome?_append, hq₁.clock]
      rfl
    have hquiet :
        ∀ (w₃ : World) {out : Except SchedulerError ClaimOutcome} {r : Except RunError Action},
        w₃.store.claims = w₂.store.claims →
        out = ((LedgerOp.claimNext sched c.now claimedAt).exec b.runtime w₂.store).1 →
        (∀ claim, out ≠ .ok (.claimed claim)) →
        StepJudged b c s w₃ (h₁ ++ [⟨.clock, claimedAt⟩] ++
          [⟨.ledger (.claimNext sched c.now claimedAt), out⟩]) r := by
      rintro w₃ out r hkept rfl hout
      refine StepJudged.quiet (hkept.trans hclaims) ?_
      intro clock s₀ s₁ sched' st' claim node hclock' hc
      obtain rfl := Option.some.inj (hclock.symm.trans hclock')
      obtain ⟨rfl, rfl, -⟩ := hfound hc
      exact hout claim (congrArg Prod.fst hc.claimed)
    have hexec : ∀ x, sched.claimNext b.runtime w₂.store c.now claimedAt = x →
        (LedgerOp.claimNext sched c.now claimedAt).exec b.runtime w₂.store =
          w₂.store.transaction x := fun x hx => hx ▸ rfl
    refine Fallible.Leads.attempt_bind ?_ ?_
    · rintro out w₃ outcome ⟨hout, rfl⟩ houtcome
      have hok := mapError_ok houtcome
      subst hok
      have hbody : sched.claimNext b.runtime w₂.store c.now claimedAt = _ :=
        Store.transaction_ok hout.symm
      rcases Scheduler.claimNext_ok b.runtime hbody with ⟨hnone, hsame⟩ |
        ⟨claim, node, st', state, next, snapshot, rfl, hclaimed⟩
      · have hq₂ := fun r => hquiet (r := r) { w₂ with store := ((LedgerOp.claimNext sched
            c.now claimedAt).exec b.runtime w₂.store).2 } (congrArg Store.claims hsame) hout
          (fun claim hclaim => hnone claim (Except.ok.inj hclaim))
        cases outcome with
        | claimed claim => exact absurd rfl (hnone claim)
        | busy active maxActive => exact hq₂ _
        | budgetExhausted reason => exact hq₂ _
        | nothingReady blocked conflicts => exact hq₂ _
      · have hp : Pending c w₂.store _ sched claim node :=
          ⟨hsched, claimsOk_invariant b.runtime _ hs, claimedAt, st', state, next, snapshot,
            hclaimed⟩
        have hc : Claims b c s claimedAt w₂.store _ sched st claim node :=
          { toOpens := ho, scheduler := hsched, replayed := hst', unchecked := hfirst
            claimed := Prod.ext hout.symm rfl, known := hp.findNode }
        have hstep := hp.executeClaim_leads (b := b)
          (w := { w₂ with store :=
            ((LedgerOp.claimNext sched c.now claimedAt).exec b.runtime w₂.store).2 })
          (h := h₁ ++ [⟨.clock, claimedAt⟩] ++ [Did.claimed sched c.now claimedAt claim]) rfl
          (hq₁.toUnasked.snoc ⟨rfl, rfl, rfl, rfl, rfl⟩ |>.snoc ⟨rfl, rfl, rfl, rfl, rfl⟩) ?_
        · refine Proc.Leads.imp (Proc.Leads.grows hstep) ?_
          rintro w₄ h₄ r ⟨hgrow, hj⟩
          exact StepJudged.of_claims (findSome?_grows hgrow hclock) hc hclaims hj
        · rw [List.findSome?_append, List.findSome?_append, hq₁.observation]
          rfl
    · rintro out w₃ y ⟨rfl, rfl⟩ hy
      refine hquiet _ ?_ rfl ?_
      · cases hcall : sched.claimNext b.runtime w₂.store c.now claimedAt with
        | error e => rw [hexec _ hcall]; rfl
        | ok out =>
          rw [hexec _ hcall] at hy
          cases hy
      · intro claim hclaim
        rw [hclaim] at hy
        cases hy

end Controller

/-- A `step` is judged by the claim it comes to. -/
theorem Command.step_judged {b : Build} {c : Command} {w : World}
    (hs : (legalLedger b.runtime).Reachable w.store) (hstep : c.maxSteps = none) :
    Fallible.Leads (Effect.Performs b.runtime) (StepJudged b c w.store) (c.call b) w [] := by
  have hnone : ∀ {w' : World} {h : List Did} {r : Except RunError (List Action)},
      w'.store.claims = w.store.claims → (∀ s₀ spec run, ¬ Opens b c w.store s₀ spec run) →
      StepJudged b c w.store w' h r := by
    intro w' h r hclaims hopen
    refine StepJudged.quiet hclaims ?_
    exact fun clock s₀ s₁ sched st claim node _ hc => hopen s₀ _ _ hc.toOpens
  unfold Command.call
  rw [hstep]
  unfold Controller.step
  refine Fallible.Leads.ofExcept_bind ?_ ?_
  swap
  · intro y hy
    refine hnone rfl ?_
    intro s₀ spec run ho
    rw [ho.document] at hy
    cases hy
  intro spec hload
  refine Fallible.Leads.andThen (Controller.openRun_ends hs hload) ?_ ?_
  swap
  · exact fun w' h y hend => hnone hend.claims (hend.fails y rfl)
  intro w' h run hend
  have hinner := Controller.stepInner_judged hend.reachable hend.silent (hend.opens run rfl)
    hend.claims
  refine Fallible.Leads.andThen hinner ?_ ?_
  · intro w₂ h₂ action hjudged
    refine iff_of_true (fun hfail => ?_) (hjudged.mp (fun hfail => ?_))
    · obtain ⟨e, he⟩ := hfail
      cases he
    · obtain ⟨e, he⟩ := hfail
      cases he
  · intro w₂ h₂ y hjudged
    exact Iff.trans ⟨fun hkept _ => hkept ⟨y, rfl⟩, fun hkept _ => hkept ⟨y, rfl⟩⟩ hjudged

/-- Every `step` over a reachable store ends. If it fails it leaves no claim of its own active
and unsealed, exactly when, should it come to claim a node, it has something to seal: evidence
that does not resolve, a captured candidate whose file is written, or a check whose child ran
and whose result is read, and the record fits. -/
theorem failed_step_strands_none (b : Build) {c : Command} {w : World}
    (hs : (legalLedger b.runtime).Reachable w.store) (hstep : c.maxSteps = none) :
    (∃ h w' r, (c.call b).run.Runs (Effect.Performs b.runtime) w h w' r) ∧
    ∀ h w' r, (c.call b).run.Runs (Effect.Performs b.runtime) w h w' r →
      (((∃ e, r = .error e) → NoneStranded w.store w'.store) ↔
        ∀ clock s₀ s₁ sched st claim node, h.findSome? Did.clockRead = some clock →
          Claims b c w.store clock s₀ s₁ sched st claim node →
          Sealable b c sched.spec sched.run node claim s₁ h) := by
  refine ⟨Proc.exists_runs (Effect.performs_total b.runtime) _ w, ?_⟩
  intro h w' r hruns
  exact hruns.leads (Command.step_judged hs hstep)

namespace Pilot

theorem frugalCreated_reachable : (legalLedger runtime).Reachable frugalCreated :=
  .step (a := .createRun run) (.step (a := .storeGraph frugal) (.init rfl) ⟨trivial, rfl⟩)
    ⟨trivial, rfl⟩

def frugalWorld : World := { store := frugalCreated, files := fun _ => none }

/-- The first step of the run: its patch task has no code port. -/
def portlessRun : List Did × World × Except RunError (List Action) :=
  (spentStep.call build).run.answered
    ((Combined.host zeroDigest [] []).respond runtime) frugalWorld

end Pilot

open Pilot in
theorem failed_step_strands_none_created :
    (∃ h w' r, (spentStep.call build).run.Runs (Effect.Performs runtime) frugalWorld h w' r) ∧
    ∀ h w' r, (spentStep.call build).run.Runs (Effect.Performs runtime) frugalWorld h w' r →
      (((∃ e, r = .error e) → NoneStranded frugalCreated w'.store) ↔
        ∀ clock s₀ s₁ sched st claim node, h.findSome? Did.clockRead = some clock →
          Claims build spentStep frugalCreated clock s₀ s₁ sched st claim node →
          Sealable build spentStep sched.spec sched.run node claim s₁ h) :=
  failed_step_strands_none build (w := frugalWorld) frugalCreated_reachable rfl

open Pilot in
/-- A patch task without code evidence fails the step and keeps its claim. -/
theorem failed_step_strands_portless : (legalLedger runtime).Reachable frugalCreated ∧
    ∃ h w', (spentStep.call build).run.Runs (Effect.Performs runtime) frugalWorld h w'
        (.error (.failed "the patch task resolved no code evidence")) ∧
      ¬ NoneStranded frugalCreated w'.store := by
  have hfails : portlessRun.2.2 = .error (.failed "the patch task resolved no code evidence") := rfl
  refine ⟨frugalCreated_reachable, portlessRun.1, portlessRun.2.1, ?_, ?_⟩
  · rw [← hfails]
    exact Proc.runs_answered (Host.respond_performs runtime _) _ _
  · have hactive : portlessRun.2.1.store.claims.any (·.active) = true := by decide +kernel
    obtain ⟨row, hrow, hactive⟩ := List.any_eq_true.mp hactive
    intro hnone
    have hnew : row.key ∉ frugalCreated.claims.map ClaimRow.key := by
      rw [show frugalCreated.claims = [] by decide +kernel]
      exact List.not_mem_nil
    rw [(hnone row hrow hnew).1] at hactive
    cases hactive

end Checkspan
