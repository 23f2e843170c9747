import Checkspan.Replay
import Mathlib.Data.List.Induction

/-!
# The history of one node (`src/state/mod.rs:517-523`)

`NodeState::replay` folds a node's events from the open state. The events that
replay are numbered by attempt, and only one road leads to acceptance: dispatch, a
completed execution, an accepting receipt, all of the last attempt.
-/

namespace Checkspan

namespace NodeState

/-- `replay`: a fold that stops at the first refused event. -/
def replay (events : List NodeEvent) : Except TransitionError NodeState :=
  events.foldlM NodeState.apply NodeState.initial

theorem replay_snoc {events : List NodeEvent} {e : NodeEvent} {s' : NodeState} :
    replay (events ++ [e]) = .ok s' ↔ ∃ s, replay events = .ok s ∧ s.apply e = .ok s' := by
  unfold replay
  rw [List.foldlM_append]
  constructor
  · intro h
    obtain ⟨s, hs, h⟩ := bind_ok h
    obtain ⟨next, hnext, h⟩ := bind_ok h
    cases h
    exact ⟨s, hs, hnext⟩
  · rintro ⟨s, hs, hnext⟩
    rw [hs]
    show (s.apply e >>= fun next => Except.ok next) = .ok s'
    rw [hnext]
    rfl

/-- A prefix of events that replay replays. -/
theorem replay_append {before after : List NodeEvent} {s' : NodeState}
    (h : replay (before ++ after) = .ok s') :
    ∃ s, replay before = .ok s ∧ after.foldlM NodeState.apply s = .ok s' := by
  unfold replay at h
  rw [List.foldlM_append] at h
  exact bind_ok h

end NodeState

/-- The attempt number an event dispatches. -/
def NodeEvent.dispatchedNumber : NodeEvent → Option Nat
  | .dispatched k => some k.get
  | _ => none

namespace NodeState

/-- The three events that accept attempt `k` with receipt `r`. -/
def acceptingEvents (k : AttemptNumber) (d : Option Digest) (r : ReceiptRef) : List NodeEvent :=
  [.dispatched k, .executionFinished k .completed d, .receiptAdmitted k r .accept]

/-- What the events replayed so far say of the state. -/
structure Road (events : List NodeEvent) (s : NodeState) : Prop where
  numbered : events.filterMap NodeEvent.dispatchedNumber = List.range' 1 s.attemptsStarted
  dispatched : s.status = .running → s.checking = false → ∀ k, s.currentAttempt = some k →
    k.get = s.attemptsStarted ∧ ∃ before, events = before ++ [.dispatched k]
  finished : s.status = .running → s.checking = true → ∀ k, s.currentAttempt = some k →
    k.get = s.attemptsStarted ∧
      ∃ before d, events = before ++ [.dispatched k, .executionFinished k .completed d]
  accepted : s.status = .accepted → ∃ before k d r, events = before ++ acceptingEvents k d r ∧
    k.get = s.attemptsStarted ∧ s.receipt = some r
  verdict : ∀ k r, .receiptAdmitted k r .accept ∈ events → s.status = .accepted

theorem road_initial : Road [] NodeState.initial where
  numbered := rfl
  dispatched h := by cases h
  finished h := by cases h
  accepted h := by cases h
  verdict k r h := absurd h List.not_mem_nil

/-- An event that dispatches nothing keeps the numbers. -/
theorem numbered_quiet {events : List NodeEvent} {e : NodeEvent} (he : e.dispatchedNumber = none) :
    (events ++ [e]).filterMap NodeEvent.dispatchedNumber =
      events.filterMap NodeEvent.dispatchedNumber := by
  rw [List.filterMap_append, List.filterMap_cons_none he, List.filterMap_nil, List.append_nil]

/-- An event other than an accepting receipt brings no accepting receipt. -/
theorem Road.no_verdict {events : List NodeEvent} {s s' : NodeState} {e : NodeEvent}
    (h : Road events s) (hs : s.status ≠ .accepted) (he : ∀ k r, e ≠ .receiptAdmitted k r .accept) :
    ∀ k r, .receiptAdmitted k r .accept ∈ events ++ [e] → s'.status = .accepted := by
  intro k r hmem
  rcases List.mem_append.mp hmem with hmem | hmem
  · exact absurd (h.verdict k r hmem) hs
  · exact absurd (List.mem_singleton.mp hmem).symm (he k r)

/-- A state that is neither running nor accepted has no road of its own. -/
theorem Road.aside {events : List NodeEvent} {s s' : NodeState} {e : NodeEvent}
    (h : Road events s) (hs : s.status ≠ .accepted) (he : e.dispatchedNumber = none)
    (hverdict : ∀ k r, e ≠ .receiptAdmitted k r .accept)
    (hstarted : s'.attemptsStarted = s.attemptsStarted) (hrunning : s'.status ≠ .running)
    (haccepted : s'.status ≠ .accepted) : Road (events ++ [e]) s' where
  numbered := by rw [numbered_quiet he, h.numbered, hstarted]
  dispatched hr := absurd hr hrunning
  finished hr := absurd hr hrunning
  accepted ha := absurd ha haccepted
  verdict := h.no_verdict hs hverdict

theorem Road.step {events : List NodeEvent} {s s' : NodeState} {e : NodeEvent} (h : Road events s)
    (hstep : Step s e s') : Road (events ++ [e]) s' := by
  cases hstep with
  | dispatch k hs hk =>
    refine { numbered := ?_, dispatched := ?_, finished := ?_, accepted := ?_, verdict := ?_ }
    · rw [List.filterMap_append, h.numbered, List.range'_concat, Nat.one_mul]
      show _ ++ [k.get] = _
      rw [hk, Nat.add_comm]
    · intro _ _ j hj
      cases hj
      exact ⟨hk, events, rfl⟩
    · exact fun _ hc => by cases hc
    · exact fun ha => by cases ha
    · exact h.no_verdict (by rw [hs]; decide) (fun _ _ heq => by cases heq)
  | finish k o d hs hk hc =>
    have hna : s.status ≠ .accepted := by rw [hs]; decide
    obtain ⟨hnumber, before, hbefore⟩ := h.dispatched hs hc k hk
    cases o with
    | completed =>
      refine { numbered := ?_, dispatched := ?_, finished := ?_, accepted := ?_, verdict := ?_ }
      · rw [numbered_quiet rfl]
        exact h.numbered
      · exact fun _ hfalse => by cases hfalse
      · intro _ _ j hj
        obtain rfl := Option.some.inj (hk.symm.trans hj)
        exact ⟨hnumber, before, d, by rw [hbefore, List.append_assoc]; rfl⟩
      · exact fun ha => absurd ha hna
      · exact h.no_verdict hna (fun _ _ heq => by cases heq)
    | failed | timedOut | cancelled =>
      exact h.aside hna rfl (fun _ _ heq => by cases heq) rfl (by simp [NodeState.finish])
        (by simp [NodeState.finish])
  | decide k r v hs hk hc =>
    have hna : s.status ≠ .accepted := by rw [hs]; decide
    obtain ⟨hnumber, before, d, hbefore⟩ := h.finished hs hc k hk
    cases v with
    | accept =>
      refine { numbered := ?_, dispatched := ?_, finished := ?_, accepted := ?_, verdict := ?_ }
      · rw [numbered_quiet rfl]
        exact h.numbered
      · exact fun hr => by cases hr
      · exact fun hr => by cases hr
      · exact fun _ => ⟨before, k, d, r, by rw [hbefore, List.append_assoc]; rfl, hnumber, rfl⟩
      · exact fun _ _ _ => rfl
    | reject | undecidable =>
      exact h.aside hna rfl (fun _ _ heq => by cases heq) rfl (by simp [NodeState.decide])
        (by simp [NodeState.decide])
  | retry hs =>
    exact h.aside (by rcases hs with hs | hs <;> rw [hs] <;> decide) rfl
      (fun _ _ heq => by cases heq) rfl (by simp) (by simp)
  | gate p hs =>
    exact h.aside (by rcases hs with hs | hs <;> rw [hs] <;> decide) rfl
      (fun _ _ heq => by cases heq) rfl (by simp) (by simp)
  | packet p hs hw =>
    exact h.aside (by rw [hs]; decide) rfl (fun _ _ heq => by cases heq) rfl
      (by simp [hs]) (by simp [hs])
  | route p d hs hw =>
    exact h.aside (by rw [hs]; decide) rfl (fun _ _ heq => by cases heq) (by cases d <;> rfl)
      (by cases d <;> simp [NodeState.route]) (by cases d <;> simp [NodeState.route])
  | cancelOpen hs =>
    exact h.aside (by rcases hs with hs | hs <;> rw [hs] <;> decide) rfl
      (fun _ _ heq => by cases heq) rfl (by simp) (by simp)
  | cancelRunning hs =>
    exact h.aside (by rw [hs]; decide) rfl (fun _ _ heq => by cases heq) rfl (by simp) (by simp)
  | cancelStopped hs =>
    exact h.aside (by rcases hs with hs | hs <;> rw [hs] <;> decide) rfl
      (fun _ _ heq => by cases heq) rfl (by simp) (by simp)

/-- The invariant along a whole history. -/
theorem road_of_replay {events : List NodeEvent} {s : NodeState} (h : replay events = .ok s) :
    Road events s := by
  induction events using List.reverseRecOn generalizing s with
  | nil =>
    cases h
    exact road_initial
  | append_singleton events e ih =>
    obtain ⟨before, hbefore, hstep⟩ := replay_snoc.mp h
    exact (ih hbefore).step (apply_step hstep)

/-- No event applies to a terminal state. -/
theorem terminal_refuses {s s' : NodeState} {e : NodeEvent} (hs : s.isTerminal = true) :
    s.apply e ≠ .ok s' := by
  intro h
  have hterminal : s.status = .accepted ∨ s.status = .cancelled := by simpa [isTerminal] using hs
  unfold apply at h
  rcases hterminal with hs | hs
  · rw [hs] at h
    cases h
  · rw [hs] at h
    cases h

theorem terminal_of_replay {events rest : List NodeEvent} {s s' : NodeState} {e : NodeEvent}
    (h : replay events = .ok s) (hs : s.isTerminal = true) :
    replay (events ++ e :: rest) ≠ .ok s' := by
  intro hlong
  obtain ⟨t, ht, hrest⟩ := replay_append hlong
  obtain rfl : s = t := by simpa using h.symm.trans ht
  obtain ⟨next, hnext, -⟩ := bind_ok hrest
  exact terminal_refuses hs hnext

end NodeState

/-- Events that replay dispatch the attempts one to the last in order. Their state is
accepted exactly when they end with the dispatch, the completed execution and the
accepting receipt of that last attempt, and it then holds that receipt; an accepting
receipt is the last event, and nothing follows acceptance or cancellation. -/
theorem only_road_to_accepted {events : List NodeEvent} {s : NodeState}
    (h : NodeState.replay events = .ok s) :
    events.filterMap NodeEvent.dispatchedNumber = List.range' 1 s.attemptsStarted ∧
    (s.status = .accepted ↔ ∃ before k d r, events = before ++ NodeState.acceptingEvents k d r ∧
      k.get = s.attemptsStarted) ∧
    (∀ before k d r, events = before ++ NodeState.acceptingEvents k d r → s.receipt = some r) ∧
    (∀ before after k r, events = before ++ .receiptAdmitted k r .accept :: after → after = []) ∧
    (s.status = .accepted ∨ s.status = .cancelled → ∀ e rest s',
      NodeState.replay (events ++ e :: rest) ≠ .ok s') := by
  have hroad := NodeState.road_of_replay h
  have hlast : ∀ {before k d r}, events = before ++ NodeState.acceptingEvents k d r →
      s.status = .accepted := by
    intro before k d r heq
    refine hroad.verdict k r ?_
    rw [heq]
    exact List.mem_append_right _ (by simp [NodeState.acceptingEvents])
  refine ⟨hroad.numbered, ⟨?_, ?_⟩, ?_, ?_, ?_⟩
  · intro hacc
    obtain ⟨before, k, d, r, heq, hk, -⟩ := hroad.accepted hacc
    exact ⟨before, k, d, r, heq, hk⟩
  · rintro ⟨before, k, d, r, heq, -⟩
    exact hlast heq
  · intro before k d r heq
    obtain ⟨before', k', d', r', heq', -, hr'⟩ := hroad.accepted (hlast heq)
    rw [heq] at heq'
    obtain ⟨-, htail⟩ := List.append_inj' heq' rfl
    simp only [NodeState.acceptingEvents, List.cons.injEq, NodeEvent.receiptAdmitted.injEq] at htail
    rw [hr', htail.2.2.1.2.1]
  · intro before after k r heq
    -- The events up to the receipt already replay to acceptance.
    have hsplit : events = (before ++ [.receiptAdmitted k r .accept]) ++ after := by simp [heq]
    rw [hsplit] at h
    obtain ⟨t, ht, hrest⟩ := NodeState.replay_append h
    have hacc : t.status = .accepted := (NodeState.road_of_replay ht).verdict k r
      (List.mem_append_right _ (List.mem_singleton_self _))
    cases after with
    | nil => rfl
    | cons e rest =>
      obtain ⟨next, hnext, -⟩ := bind_ok hrest
      exact absurd hnext (NodeState.terminal_refuses (by simp [NodeState.isTerminal, hacc]))
  · intro hterminal e rest s'
    exact NodeState.terminal_of_replay h (by rcases hterminal with hs | hs <;>
      simp [NodeState.isTerminal, hs])

/-- A receipt of the one node of a small run. -/
def roadReceipt : ReceiptRef :=
  { id := ⟨"road-receipt", by decide +kernel⟩
    runId := ⟨"road-run", by decide +kernel⟩
    node := ⟨⟨"road-graph", by decide +kernel⟩, ⟨"road-node", by decide +kernel⟩, .first⟩ }

/-- The history of a node accepted at its first attempt. -/
def roadHistory : List NodeEvent := NodeState.acceptingEvents .first none roadReceipt

theorem only_road_to_accepted_first :
    ∃ s, NodeState.replay roadHistory = .ok s ∧ s.status = .accepted ∧
      roadHistory.filterMap NodeEvent.dispatchedNumber = List.range' 1 s.attemptsStarted ∧
      ∀ e rest s', NodeState.replay (roadHistory ++ e :: rest) ≠ .ok s' := by
  have hreplay : NodeState.replay roadHistory = .ok
      { status := .accepted, currentAttempt := some .first, attemptsStarted := 1
        checking := false, receipt := some roadReceipt, waitingOnGate := none } := rfl
  obtain ⟨hnumbers, -, -, -, hend⟩ := only_road_to_accepted hreplay
  exact ⟨_, hreplay, rfl, hnumbers, hend (Or.inl rfl)⟩

end Checkspan
