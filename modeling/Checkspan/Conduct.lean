import Checkspan.Protocol

/-!
# Every call keeps to the protocol

One lemma for each part of a call: what its history is when the part ends. The
loop of `drive` is an induction over the steps left, with the opened run and the
paid debt as its invariant.
-/

namespace Checkspan

open Process

namespace Controller

variable {b : Build} {c : Command} {h : List Did} {spec : GraphSpec} {run : GraphRun}

/-- The history after a part of a call that started with `h`. -/
def Ends {α : Type} (h : List Did) (h' : List Did) (r : Except RunError α) : Prop :=
  h <+: h' ∧ Settled h' r

theorem Ends.error {α : Type} {h' : List Did} {x : RunError} (hh : h <+: h') :
    Ends h h' (Except.error x : Except RunError α) := by
  refine ⟨hh, ?_⟩
  intro a ha
  cases ha

theorem Ends.ok {α : Type} {h' : List Did} {a : α} (hh : h <+: h') (howe : owing h' = none) :
    Ends h h' (Except.ok a : Except RunError α) :=
  ⟨hh, fun _ _ => howe⟩

/-- A part that ends after a longer history ends after a shorter one. -/
theorem Ends.weaken {α : Type} {h₀ h' : List Did} {r : Except RunError α} (hr : Ends h h' r)
    (hh : h₀ <+: h) : Ends h₀ h' r :=
  ⟨hh.trans hr.1, hr.2⟩

/-! ### Policy -/

theorem openPacket_meets {id : NodeId} (ho : Opened c h spec run)
    (howe : ∀ owed, owing h = some owed → owed = (run.runId, id)) :
    Fallible.Meets (Protocol b c) (Ends h) (openPacket c.ws spec run id c.now) h := by
  unfold openPacket
  refine Fallible.Meets.ofExcept_bind ?_ (fun _ => Ends.error List.prefix_rfl)
  intro expires _
  refine Fallible.meets_attempt.mpr ⟨⟨ho, howe⟩, ?_⟩
  intro a
  cases a with
  | error e => exact Ends.error (List.prefix_append h _)
  | ok packet => exact Ends.ok (List.prefix_append h _) (owing_append h _)

theorem retry_meets {id : NodeId} (ho : Opened c h spec run)
    (howe : ∀ owed, owing h = some owed → owed = (run.runId, id)) :
    Fallible.Meets (Protocol b c) (Ends h) (retry c.ws spec run id c.now) h := by
  unfold retry
  refine Fallible.Meets.attempt_bind ⟨ho, howe⟩ ?_ (fun _ _ => Ends.error (List.prefix_append h _))
  intro a disposition ha
  obtain rfl : a = .ok disposition := mapError_ok ha
  cases disposition with
  | retry cls started cap =>
    exact Ends.ok (List.prefix_append h _) (owing_append h _)
  | exhausted reason route =>
    cases route with
    | cancel => exact Ends.ok (List.prefix_append h _) (owing_append h _)
    | gate =>
      refine Fallible.Meets.andThen (openPacket_meets (ho.append (List.prefix_append h _)) ?_) ?_ ?_
      · intro owed howed
        rw [owing_append] at howed
        exact (Option.some.inj howed).symm
      · intro h' packet hp
        exact Ends.ok ((List.prefix_append h _).trans hp.1) (hp.2 packet rfl)
      · intro h' x hp
        exact Ends.error ((List.prefix_append h _).trans hp.1)

/-! ### Verification -/

theorem admitResponse_meets {node : NodeSpec} {attempt : Attempt} {response : VerifierResponse}
    {subject : String} (ho : Opened c h spec run)
    (hnode : response.attempt.node.nodeId = node.id)
    (hentered : ∀ id receipt, Receipts.issue b.runtime response node attempt id subject
      ("checkspan-controller:" ++ c.ws.controller) c.now { validUntil := none, conditions := [] } =
        .ok receipt → Admitting b c h spec run receipt) :
    Fallible.Meets (Protocol b c) (Ends h)
      (admitResponse b c.ws spec run node attempt response subject c.now) h := by
  unfold admitResponse
  refine Fallible.Meets.ofExcept_bind ?_ (fun _ => Ends.error List.prefix_rfl)
  intro id _
  refine Fallible.Meets.ofExcept_bind ?_ (fun _ => Ends.error List.prefix_rfl)
  intro receipt hissue
  have hissued := mapError_ok hissue
  have hid : receipt.attempt.node.nodeId = node.id := by
    rw [(Receipts.issue_ok _ hissued).2.1, hnode]
  refine Fallible.Meets.attempt_bind ⟨hentered id receipt hissued, rfl⟩ ?_
    (fun _ _ => Ends.error (List.prefix_append h _))
  intro a u ha
  obtain rfl : a = .ok u := mapError_ok ha
  have hgrow : h <+: h ++ [Did.admitted spec run receipt c.now] := List.prefix_append h _
  have howe : owing (h ++ [Did.admitted spec run receipt c.now]) =
      if receipt.verdict = .accept then none else some (run.runId, node.id) := by
    rw [owing_append, ← hid]
    rfl
  have hdebt : ∀ owed, owing (h ++ [Did.admitted spec run receipt c.now]) = some owed →
      owed = (run.runId, node.id) := by
    intro owed howed
    rw [howe] at howed
    split at howed
    · cases howed
    · exact (Option.some.inj howed).symm
  cases hverdict : receipt.verdict with
  | accept => exact Ends.ok hgrow (howe.trans (if_pos hverdict))
  | reject =>
    refine Fallible.Meets.andThen (retry_meets (ho.append hgrow) hdebt) ?_ ?_
    · intro h' disposition hp
      exact Ends.ok (hgrow.trans hp.1) (hp.2 disposition rfl)
    · intro h' x hp
      exact Ends.error (hgrow.trans hp.1)
  | undecidable =>
    refine Fallible.Meets.andThen (openPacket_meets (ho.append hgrow) hdebt) ?_ ?_
    · intro h' packet hp
      exact Ends.ok (hgrow.trans hp.1) (hp.2 packet rfl)
    · intro h' x hp
      exact Ends.error (hgrow.trans hp.1)

/-- A part that records no ledger entry owes what was owed before it. -/
def Quiet {α : Type} (h : List Did) (P : α → Prop) (h' : List Did) (r : Except RunError α) : Prop :=
  h <+: h' ∧ owing h' = owing h ∧ ∀ a, r = .ok a → P a

theorem verifierArgs_meets {node : NodeSpec} {attempt : Attempt} :
    Fallible.Meets (Protocol b c)
      (Quiet h (ArgsFor node attempt (artifactFile c.ws run.runId node.id attempt.number)))
      (verifierArgs c.ws run node attempt) h := by
  unfold verifierArgs
  split
  · rename_i hpin
    refine Fallible.Meets.ofExcept_bind ?_
      (fun _ => ⟨List.prefix_rfl, rfl, fun _ hx => by cases hx⟩)
    intro artifact hartifact
    obtain ⟨result, hresult, hfile⟩ := Option.bind_eq_some_iff.mp (someOr_ok hartifact)
    refine ⟨List.prefix_rfl, rfl, ?_⟩
    intro args hargs
    cases hargs
    exact ArgsFor.patch artifact result hpin hresult hfile
  · split
    · rename_i hpin
      refine Fallible.Meets.ofExcept_bind ?_
        (fun _ => ⟨List.prefix_rfl, rfl, fun _ hx => by cases hx⟩)
      intro profile _
      refine Fallible.Meets.bind ?_
      unfold artifactPath
      refine Fallible.Meets.attempt_bind trivial ?_
        (fun _ _ => ⟨List.prefix_append h _, owing_append h _, fun _ hx => by cases hx⟩)
      intro a u _
      refine ⟨List.prefix_append h _, owing_append h _, ?_⟩
      intro args hargs
      cases hargs
      exact ArgsFor.software profile hpin
    · exact ⟨List.prefix_rfl, rfl, fun _ hx => by cases hx⟩

theorem verifyAndAdmit_meets {node : NodeSpec} {attempt : Attempt} (ho : Opened c h spec run)
    (hquiet : owing h = none) (hmem : node ∈ spec.nodes) (hheld : Held h run node attempt) :
    Fallible.Meets (Protocol b c) (Ends h)
      (verifyAndAdmit b c.ws spec run node attempt c.now) h := by
  unfold verifyAndAdmit
  refine Fallible.Meets.ofExcept_bind ?_ (fun _ => Ends.error List.prefix_rfl)
  intro subject hsubject
  refine Fallible.Meets.ofExcept_bind ?_ (fun _ => Ends.error List.prefix_rfl)
  intro digest hdigest
  refine Fallible.Meets.andThen verifierArgs_meets ?_ (fun h' x hp => Ends.error hp.1)
  intro h₁ args hargs
  refine Fallible.Meets.bind ?_
  unfold runVerifier
  refine Fallible.Meets.attempt_bind trivial ?_
    (fun _ _ => Ends.error (hargs.1.trans (List.prefix_append h₁ _)))
  intro found u hfound
  obtain rfl : found = .ok u := mapError_ok hfound
  have hgrow : h <+: h₁ ++ [Did.exeFound] := hargs.1.trans (List.prefix_append h₁ _)
  have hheld' : Held (h₁ ++ [Did.exeFound]) run node attempt := by
    cases hheld with
    | read number hread => exact Held.read number (hgrow.subset hread)
    | own sched claim hrun hnode hown => exact Held.own sched claim hrun hnode (hgrow.subset hown)
  let v : Verify b c :=
    { before := h₁ ++ [Did.exeFound], spec := spec, run := run, node := node, attempt := attempt
      subject := subject, digest := digest, args := args
      opened := ho.append hgrow
      quiet := (owing_append h₁ _).trans (hargs.2.1.trans hquiet)
      node_mem := hmem, held := hheld', subject_eq := someOr_ok hsubject
      digest_eq := mapError_ok hdigest, args_for := hargs.2.2 args rfl }
  refine Fallible.Meets.ask_bind (Starting.verify v rfl rfl rfl) ?_
  intro child
  have hgrow' : h <+: v.before ++ [Did.ran v.args v.request child] :=
    hgrow.trans (List.prefix_append _ _)
  refine Fallible.meets_pure.mpr ?_
  dsimp only
  generalize hanswered : childOutcome b _ child = outcome
  cases outcome with
  | error failure =>
    exact Ends.ok hgrow' ((owing_append v.before _).trans v.quiet)
  | ok response =>
    have hecho := (VerifierHost.run_eq_ok.mp hanswered).2.2
    refine Proc.Meets.imp (admitResponse_meets (h := v.before ++ [Did.ran v.args v.request child])
      (ho.append hgrow') (by rw [hecho]; rfl) ?_) (fun _ _ hr => hr.weaken hgrow')
    intro id receipt hissue
    exact Admitting.verify v child response id rfl rfl rfl hanswered hissue

/-! ### Execution -/

variable {sched : Scheduler} {claim : Claim} {node : NodeSpec}

/-- The scheduler a call seals with is the one it claimed with. -/
theorem sealAttempt_meets {attempt : Attempt}
    (hsched : schedulerFor c.ws sched.spec sched.run = .ok sched)
    (hseal : Sealing b c h sched claim attempt) :
    Fallible.Meets (Protocol b c)
      (fun h' r => h <+: h' ∧ ∀ a, r = .ok a → a = attempt ∧
        h' = h ++ [Did.sealed sched claim attempt])
      (sealAttempt c.ws sched.spec sched.run claim attempt) h := by
  unfold sealAttempt
  rw [hsched]
  refine Fallible.Meets.ofExcept_bind ?_ (fun _ => ⟨List.prefix_rfl, fun _ hx => by cases hx⟩)
  intro sched' hsched'
  cases hsched'
  refine Fallible.Meets.attempt_bind hseal ?_
    (fun _ _ => ⟨List.prefix_append h _, fun _ hx => by cases hx⟩)
  intro r u hr
  obtain rfl : r = .ok u := mapError_ok hr
  refine ⟨List.prefix_append h _, ?_⟩
  intro a ha
  cases ha
  exact ⟨rfl, rfl⟩

theorem sealFailure_meets {inputManifest : List EvidenceRef} {outcome : ExecutionOutcome}
    {reason claimedAt : String} (ho : Opened c h sched.spec sched.run)
    (hsched : schedulerFor c.ws sched.spec sched.run = .ok sched) (hquiet : owing h = none)
    (hclaim : Did.claimed sched c.now claimedAt claim ∈ h) (houtcome : outcome ≠ .completed) :
    Fallible.Meets (Protocol b c) (Ends h) (sealFailure b c.ws sched.spec sched.run node claim c.now
      inputManifest outcome reason) h := by
  unfold sealFailure
  have hfailed : (sealedAttempt b sched.run node claim c.now inputManifest none outcome
      (some reason)).completed = false := by
    cases outcome with
    | completed => exact absurd rfl houtcome
    | failed => rfl
    | timedOut => rfl
    | cancelled => rfl
  refine Fallible.Meets.andThen
    (sealAttempt_meets hsched (Sealing.failed claimedAt ho hquiet hclaim hfailed)) ?_
    (fun h' x hp => Ends.error hp.1)
  rintro h' a ⟨hgrow, ha⟩
  obtain ⟨rfl, rfl⟩ := ha a rfl
  refine Fallible.Meets.andThen (retry_meets (ho.append hgrow) ?_) ?_ ?_
  · intro owed howed
    rw [owing_append] at howed
    simp only [Did.sealed, Did.after] at howed
    split at howed
    · exact (Option.some.inj howed).symm
    · cases howed
  · intro h' disposition hp
    exact Ends.ok (hgrow.trans hp.1) (hp.2 disposition rfl)
  · intro h' x hp
    exact Ends.error (hgrow.trans hp.1)

/-- What the resolution of evidence leaves: the frozen manifest, or a quiet history. -/
structure Resolved (b : Build) (c : Command) (h h' : List Did) (sched : Scheduler) (claim : Claim)
    (node : NodeSpec) (r : Except RunError (Except String Manifest)) : Prop where
  grow : h <+: h'
  quiet : owing h' = none
  frozen : ∀ manifest, r = .ok (.ok manifest) → ∃ f : Freeze b c, f.history = h' ∧
    f.sched = sched ∧ f.claim = claim ∧ f.node = node ∧ f.manifest = manifest

theorem resolveEvidence_meets {before : List Did} {claimedAt : String}
    (ho : Opened c before sched.spec sched.run)
    (hsched : schedulerFor c.ws sched.spec sched.run = .ok sched) (hquiet : owing before = none)
    (hnode : sched.spec.findNode claim.nodeId = some node)
    (hh : h = before ++ [Did.claimed sched c.now claimedAt claim]) :
    Fallible.Meets (Protocol b c) (fun h' r => Resolved b c h h' sched claim node r)
      (resolveEvidence b c.ws sched.spec sched.run node claim c.now) h := by
  have howe : owing h = none := by
    rw [hh, owing_append]
    exact hquiet
  unfold resolveEvidence
  refine Fallible.Meets.ask_bind trivial ?_
  intro events
  have howe₁ : owing (h ++ [Did.eventsRead sched.run.runId events]) = none :=
    (owing_append h _).trans howe
  cases hst : RunState.replay sched.run.runId sched.spec events with
  | error e => exact ⟨List.prefix_append h _, howe₁, fun _ hx => by cases hx⟩
  | ok st =>
    refine Fallible.Meets.ask_bind trivial ?_
    intro found
    have howe₂ : owing (h ++ [Did.eventsRead sched.run.runId events] ++
        [⟨.resolve claim sched.spec sched.run st c.now, found⟩]) = none :=
      (owing_append _ _).trans howe₁
    cases found with
    | error blockers =>
      exact ⟨(List.prefix_append h _).trans (List.prefix_append _ _), howe₂,
        fun _ hx => by cases hx⟩
    | ok snapshot =>
      refine Fallible.Meets.ask_bind trivial ?_
      intro seen
      refine ⟨?_, (owing_append _ _).trans howe₂, ?_⟩
      · exact (List.prefix_append h _).trans
          ((List.prefix_append _ _).trans (List.prefix_append _ _))
      · intro manifest hmanifest
        have hm := mapError_ok (Except.ok.inj hmanifest)
        let f : Freeze b c :=
          { before := before, sched := sched, claimedAt := claimedAt, claim := claim, node := node
            events := events, st := st, snapshot := snapshot, seen := seen, manifest := manifest
            opened := ho, scheduler := hsched, quiet := hquiet, node_eq := hnode, replayed := hst
            manifest_eq := hm }
        refine ⟨f, ?_, rfl, rfl, rfl, rfl⟩
        rw [hh]
        simp [Freeze.history, f, Did.eventsRead, Did.resolved, Did.observed]

theorem executePatch_meets (f : Freeze b c)
    (hproduces : f.node.resultType.schemaId.text = "patch_result") :
    Fallible.Meets (Protocol b c) (Ends f.history)
      (executePatch b c.ws f.sched.spec f.sched.run f.node f.claim c.now f.manifest) f.history := by
  unfold executePatch
  refine Fallible.Meets.ofExcept_bind ?_ (fun _ => Ends.error List.prefix_rfl)
  intro bytes hbytes
  refine Fallible.Meets.bind ?_
  unfold artifactPath
  refine Fallible.Meets.attempt_bind trivial ?_ (fun _ _ => Ends.error (List.prefix_append _ _))
  intro made u hmade
  obtain rfl : made = .ok u := mapError_ok hmade
  refine Fallible.Meets.attempt_bind ⟨f, rfl, rfl, someOr_ok hbytes⟩ ?_
    (fun _ _ => Ends.error ((List.prefix_append _ _).trans (List.prefix_append _ _)))
  intro written u' hwritten
  obtain rfl : written = .ok u' := mapError_ok hwritten
  have hgrow : f.history <+: f.history ++ [Did.dirMade f.dir] ++ [Did.wrote f.path bytes] :=
    (List.prefix_append _ _).trans (List.prefix_append _ _)
  have hseal : Sealing b c (f.history ++ [Did.dirMade f.dir] ++ [Did.wrote f.path bytes]) f.sched
      f.claim (f.sealedOver bytes) :=
    Sealing.patch f bytes rfl rfl (List.append_assoc _ _ _) rfl hproduces
  refine Fallible.Meets.andThen (sealAttempt_meets f.scheduler hseal) ?_
    (fun h' x hp => Ends.error (hgrow.trans hp.1))
  rintro h' a ⟨hgrow', ha⟩
  obtain ⟨rfl, rfl⟩ := ha a rfl
  have hall := hgrow.trans hgrow'
  refine Proc.Meets.imp (verifyAndAdmit_meets (f.opened.append (f.before_prefix.trans hall)) ?_
    (GraphSpec.findNode_mem f.node_eq) ?_) (fun _ _ hr => hr.weaken hall)
  · rw [owing_append]
    rfl
  · refine Held.own f.sched f.claim rfl (GraphSpec.findNode_id f.node_eq).symm ?_
    exact List.mem_append_right _ (List.mem_singleton_self _)

theorem executeCheck_meets (f : Freeze b c) :
    Fallible.Meets (Protocol b c) (Ends f.history)
      (executeCheck b c.ws f.sched.spec f.sched.run f.node f.claim c.now f.manifest) f.history := by
  unfold executeCheck
  refine Fallible.Meets.ofExcept_bind ?_ (fun _ => Ends.error List.prefix_rfl)
  intro subject hsubject
  refine Fallible.Meets.ofExcept_bind ?_ (fun _ => Ends.error List.prefix_rfl)
  intro profile _
  refine Fallible.Meets.bind ?_
  unfold artifactPath
  refine Fallible.Meets.attempt_bind trivial ?_ (fun _ _ => Ends.error (List.prefix_append _ _))
  intro made u hmade
  obtain rfl : made = .ok u := mapError_ok hmade
  refine Fallible.Meets.bind ?_
  unfold runVerifier
  refine Fallible.Meets.attempt_bind trivial ?_
    (fun _ _ => Ends.error ((List.prefix_append _ _).trans (List.prefix_append _ _)))
  intro found u' hfound
  obtain rfl : found = .ok u' := mapError_ok hfound
  refine Fallible.Meets.ask_bind (Starting.check f subject profile (someOr_ok hsubject)
    (List.append_assoc _ _ _) rfl rfl) ?_
  intro child
  let request := requestFor f.node f.sched.run f.claim.nodeId f.claim.number subject
    f.manifest.references f.manifest.digest
  let h₁ := f.history ++ [Did.dirMade f.dir] ++ [Did.exeFound] ++
    [Did.ran (.software profile f.path) request child]
  have hgrow : f.history <+: h₁ := by
    simp only [h₁, List.append_assoc]
    exact List.prefix_append _ _
  have hquiet : owing h₁ = none := by
    simp only [h₁, owing_append, f.owing_history]
    rfl
  refine Fallible.meets_pure.mpr ?_
  dsimp only
  generalize hanswered : childOutcome b _ child = outcome
  show Fallible.Meets _ _ _ h₁
  cases outcome with
  | error failure =>
    have hclaimed : Did.claimed f.sched c.now f.claimedAt f.claim ∈ h₁ :=
      hgrow.subset (by simp [Freeze.history])
    refine Proc.Meets.imp (sealFailure_meets (f.opened.append (f.before_prefix.trans hgrow))
      f.scheduler hquiet hclaimed ?_) (fun _ _ hr => hr.weaken hgrow)
    cases failure <;> simp [outcomeOf]
  | ok response =>
    refine Fallible.Meets.attempt_bind trivial ?_
      (fun _ _ => Ends.error (hgrow.trans (List.prefix_append _ _)))
    intro answer bytes hread
    obtain rfl : answer = .ok bytes := mapError_ok hread
    let k : Check b c :=
      { f with subject := subject, profile := profile, child := child, response := response
               bytes := bytes, subject_eq := someOr_ok hsubject, answered := hanswered }
    have hk : h₁ ++ [Did.bytesRead f.path bytes] = k.history := by
      simp [h₁, k, Check.history, request, Check.request, Freeze.dir, Freeze.path]
    have hgrow' : f.history <+: k.history := List.prefix_append _ _
    show Fallible.Meets _ _ _ (h₁ ++ [Did.bytesRead f.path bytes])
    rw [hk]
    refine Fallible.Meets.andThen (sealAttempt_meets f.scheduler
      (Sealing.check k rfl rfl rfl rfl)) ?_ (fun h' x hp => Ends.error (hgrow'.trans hp.1))
    rintro h' a ⟨hgrow'', ha⟩
    obtain ⟨rfl, rfl⟩ := ha a rfl
    have hall := hgrow'.trans hgrow''
    have hecho := (VerifierHost.run_eq_ok.mp hanswered).2.2
    refine Proc.Meets.imp (admitResponse_meets (f.opened.append (f.before_prefix.trans hall)) ?_ ?_)
      (fun _ _ hr => hr.weaken hall)
    · rw [hecho]
      exact (GraphSpec.findNode_id f.node_eq).symm
    · intro id receipt hissue
      exact Admitting.check k id rfl rfl rfl hissue

theorem executeClaim_meets {before : List Did} {claimedAt : String}
    (ho : Opened c before sched.spec sched.run)
    (hsched : schedulerFor c.ws sched.spec sched.run = .ok sched) (hquiet : owing before = none)
    (hh : h = before ++ [Did.claimed sched c.now claimedAt claim]) :
    Fallible.Meets (Protocol b c) (Ends h)
      (executeClaim b c.ws sched.spec sched.run claim c.now) h := by
  unfold executeClaim
  refine Fallible.Meets.ofExcept_bind ?_ (fun _ => Ends.error List.prefix_rfl)
  intro node hnode
  refine Fallible.Meets.andThen
    (resolveEvidence_meets ho hsched hquiet (someOr_ok hnode) hh) ?_
    (fun h' x hp => Ends.error hp.grow)
  intro h' resolved hp
  cases resolved with
  | error reason =>
    have hbefore : before <+: h := hh ▸ List.prefix_append _ _
    have hmem : Did.claimed sched c.now claimedAt claim ∈ h' :=
      hp.grow.subset (by rw [hh]; exact List.mem_append_right _ (List.mem_singleton_self _))
    exact Proc.Meets.imp (sealFailure_meets (ho.append (hbefore.trans hp.grow)) hsched hp.quiet hmem
      (by simp)) (fun _ _ hr => hr.weaken hp.grow)
  | ok manifest =>
    obtain ⟨f, rfl, rfl, rfl, rfl, rfl⟩ := hp.frozen manifest rfl
    show Fallible.Meets _ _ (if _ then _ else if _ then _ else _) f.history
    split
    · next hproduces =>
      exact Proc.Meets.imp (executePatch_meets f hproduces) (fun _ _ hr => hr.weaken hp.grow)
    · split
      · exact Proc.Meets.imp (executeCheck_meets f) (fun _ _ hr => hr.weaken hp.grow)
      · exact Ends.error hp.grow

/-! ### Steps -/

theorem schedulerFor_ok (hsched : schedulerFor c.ws spec run = .ok sched) :
    sched.spec = spec ∧ sched.run = run := by
  unfold schedulerFor at hsched
  obtain ⟨controller, -, hsched⟩ := bind_ok hsched
  have hnew := mapError_ok hsched
  unfold Scheduler.new at hnew
  split at hnew
  · split at hnew
    · cases hnew
      exact ⟨rfl, rfl⟩
    · cases hnew
  · cases hnew

theorem firstChecking_mem {st : RunState} {node : NodeSpec} {state : NodeState}
    (hfirst : firstChecking spec st = some (node, state)) : node ∈ spec.nodes := by
  obtain ⟨n, hn, hsome⟩ := List.exists_of_findSome?_eq_some hfirst
  obtain ⟨s, -, hs⟩ := Option.map_eq_some_iff.mp hsome
  cases hs
  exact hn

theorem stepInner_meets (he : Entered c h spec run) (hquiet : owing h = none) :
    Fallible.Meets (Protocol b c) (Ends h) (stepInner b c.ws spec run c.now) h := by
  unfold stepInner
  refine Fallible.Meets.ofExcept_bind ?_ (fun _ => Ends.error List.prefix_rfl)
  intro sched hsched
  obtain ⟨rfl, rfl⟩ := schedulerFor_ok hsched
  have ho : Opened c h sched.spec sched.run := ⟨he, sched.ofRun⟩
  refine Fallible.Meets.bind ?_
  unfold readState
  refine Fallible.Meets.ask_bind trivial ?_
  intro events
  have hgrow := List.prefix_append h [Did.eventsRead sched.run.runId events]
  have hquiet₁ : owing (h ++ [Did.eventsRead sched.run.runId events]) = none :=
    (owing_append h _).trans hquiet
  refine Fallible.meets_ofExcept.mpr ?_
  cases RunState.replay sched.run.runId sched.spec events with
  | error e => exact Ends.error hgrow
  | ok st =>
    rw [show (Except.ok st : Except _ _).mapError _ = .ok st from rfl]
    dsimp only
    cases hfirst : firstChecking sched.spec st with
    | some found =>
      obtain ⟨node, state⟩ := found
      refine Fallible.Meets.bind ?_
      unfold readAttempt
      refine Fallible.Meets.ofExcept_bind ?_ (fun _ => Ends.error hgrow)
      intro number _
      refine Fallible.Meets.attempt_bind trivial ?_
        (fun _ _ => Ends.error (hgrow.trans (List.prefix_append _ _)))
      intro answer found hanswer
      have hfound := mapError_ok hanswer
      have hgrow' := hgrow.trans (List.prefix_append _
        [⟨.attempt sched.run.runId node.id number.get, answer⟩])
      refine Fallible.meets_ofExcept.mpr ?_
      cases found with
      | none => exact Ends.error hgrow'
      | some attempt =>
        subst hfound
        refine Proc.Meets.imp (verifyAndAdmit_meets (ho.append hgrow') ?_ (firstChecking_mem hfirst)
          (Held.read number.get (List.mem_append_right _ (List.mem_singleton_self _))))
          (fun _ _ hr => hr.weaken hgrow')
        exact (owing_append _ _).trans hquiet₁
    | none =>
      refine Fallible.Meets.ask_bind trivial ?_
      intro claimedAt
      let before := h ++ [Did.eventsRead sched.run.runId events] ++ [⟨.clock, claimedAt⟩]
      have hgrow' : h <+: before := hgrow.trans (List.prefix_append _ _)
      have hquiet' : owing before = none := (owing_append _ _).trans hquiet₁
      refine Fallible.Meets.attempt_bind ⟨ho.append hgrow', hquiet', rfl⟩ ?_
        (fun _ _ => Ends.error (hgrow'.trans (List.prefix_append _ _)))
      intro answer outcome hanswer
      obtain rfl : answer = .ok outcome := mapError_ok hanswer
      have hgrow'' := hgrow'.trans (List.prefix_append before
        [⟨.ledger (.claimNext sched c.now claimedAt), .ok outcome⟩])
      have hquiet'' :
          owing (before ++ [⟨.ledger (.claimNext sched c.now claimedAt), .ok outcome⟩]) =
          none := (owing_append _ _).trans hquiet'
      cases outcome with
      | claimed claim =>
        exact Proc.Meets.imp (executeClaim_meets (ho.append hgrow') hsched hquiet' rfl)
          (fun _ _ hr => hr.weaken hgrow'')
      | busy active cap => exact Ends.ok hgrow'' hquiet''
      | budgetExhausted reason => exact Ends.ok hgrow'' hquiet''
      | nothingReady blocked conflicts => exact Ends.ok hgrow'' hquiet''

/-- The loop keeps the run opened and the debt paid. -/
theorem driveLoop_meets (n : Nat) (he : Entered c h spec run) (hquiet : owing h = none)
    (done : List Action) :
    Fallible.Meets (Protocol b c) Settled (driveLoop b c.ws spec run c.now n done) h := by
  induction n generalizing h done with
  | zero => exact fun _ _ => hquiet
  | succ n ih =>
    unfold driveLoop
    refine Fallible.Meets.andThen (stepInner_meets he hquiet) ?_
      (fun _ _ hp => fun _ hx => by cases hx)
    intro h' action hp
    have howe := hp.2 action rfl
    show Fallible.Meets _ _ (if _ then _ else _) h'
    split
    · exact fun _ _ => howe
    · exact ih (he.append hp.1) howe _

theorem loadGraph_ok {ws : Workspace} (hload : loadGraph ws = .ok spec) :
    ws.graph = .ok spec ∧ ∃ g, Graph.admitGraph spec = .ok g := by
  unfold loadGraph at hload
  obtain ⟨found, hfound, hload⟩ := bind_ok hload
  obtain ⟨g, hg, hload⟩ := bind_ok hload
  cases hload
  exact ⟨mapError_ok hfound, g, mapError_ok hg⟩

theorem openRun_meets {runId : String} (hload : loadGraph c.ws = .ok spec) :
    Fallible.Meets (Protocol b c)
      (fun h' r => ∀ run, r = .ok run → Entered c h' spec run ∧ owing h' = none)
      (openRun spec runId) [] := by
  obtain ⟨hdoc, hgraph⟩ := loadGraph_ok hload
  unfold openRun
  refine Fallible.Meets.ofExcept_bind ?_ (fun _ _ hx => by cases hx)
  intro id _
  refine Fallible.Meets.attempt_bind ⟨hdoc, hgraph⟩ ?_ (fun _ _ _ hx => by cases hx)
  intro answer fresh hanswer
  obtain rfl : answer = .ok fresh := mapError_ok hanswer
  refine Fallible.Meets.attempt_bind trivial ?_ (fun _ _ _ hx => by cases hx)
  intro answer found hanswer
  have hfound := mapError_ok hanswer
  refine Fallible.meets_ofExcept.mpr ?_
  intro run hrun
  obtain rfl := someOr_ok hrun
  subst hfound
  refine ⟨{ document := hdoc, admitted := hgraph, stored := ⟨fresh, ?_⟩, read := ⟨id, ?_⟩ }, rfl⟩
  · exact List.mem_append_left _ (List.mem_singleton_self _)
  · exact List.mem_append_right _ (List.mem_singleton_self _)

end Controller

/-- Every call keeps to the protocol, whatever it is answered, and returns only when
it owes nothing. -/
theorem Command.call_meets (b : Build) (c : Command) :
    Fallible.Meets (Protocol b c) Settled (c.call b) [] := by
  unfold Command.call
  cases c.maxSteps with
  | none =>
    refine Fallible.Meets.ofExcept_bind ?_ (fun _ _ hx => by cases hx)
    intro spec hload
    refine Fallible.Meets.andThen (Controller.openRun_meets hload) ?_
      (fun _ _ _ _ hx => by cases hx)
    intro h run hentered
    obtain ⟨he, hquiet⟩ := hentered run rfl
    refine Fallible.Meets.andThen (Controller.stepInner_meets he hquiet) ?_
      (fun _ _ _ _ hx => by cases hx)
    exact fun h' action hp _ _ => hp.2 action rfl
  | some n =>
    refine Fallible.Meets.ofExcept_bind ?_ (fun _ _ hx => by cases hx)
    intro spec hload
    refine Fallible.Meets.andThen (Controller.openRun_meets hload) ?_
      (fun _ _ _ _ hx => by cases hx)
    intro h run hentered
    obtain ⟨he, hquiet⟩ := hentered run rfl
    exact Controller.driveLoop_meets n he hquiet []

end Checkspan
