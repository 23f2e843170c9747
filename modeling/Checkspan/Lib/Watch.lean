import Checkspan.Lib.Transition
import Mathlib.Data.List.Induction

/-!
# Watched children

A child process whose two output pipes are drained by bounded readers while a wait loop polls it.
The writers, the readers, the deadline, the cancellation flag and the loop take their steps in
any order.
-/

namespace Watch

open Transition

universe u v

/-! ### A pipe and its bounded reader -/

/-- What was written into a pipe, how much of it the reader took, and the reader's own state:
it keeps at most a cap of the bytes and sends one warning beyond it. -/
structure Pipe (α : Type u) where
  wrote : List α := []
  closed : Bool := false
  taken : Nat := 0
  kept : List α := []
  warned : Bool := false
  sent : Bool := false
  ended : Bool := false
  failed : Bool := false

inductive PipeOp (α : Type u)
  | write (bytes : List α)
  | close
  | read (n : Nat)
  | eof
  | fail

namespace Pipe

variable {α : Type u} (cap chunk : Nat)

/-- One chunk of `n` bytes taken. -/
def take (p : Pipe α) (n : Nat) : Pipe α :=
  let bytes := (p.wrote.drop p.taken).take n
  let room := cap - p.kept.length
  { p with
    taken := p.taken + n
    kept := p.kept ++ bytes.take (min n room)
    warned := p.warned || decide (room < n)
    sent := p.sent || (decide (room < n) && !p.warned) }

/-- A read returns between one and `chunk` bytes, or nothing once every writer is gone. -/
def step (p : Pipe α) : PipeOp α → Option (Pipe α)
  | .write bytes => if p.closed then none else some { p with wrote := p.wrote ++ bytes }
  | .close => some { p with closed := true }
  | .read n =>
    if !p.ended && 0 < n && n ≤ chunk && p.taken + n ≤ p.wrote.length then some (p.take cap n)
    else none
  | .eof =>
    if !p.ended && p.closed && p.taken = p.wrote.length then some { p with ended := true } else none
  | .fail => if p.ended then none else some { p with ended := true, failed := true }

/-- The bytes handed to the reader so far. -/
def given (p : Pipe α) : List α := p.wrote.take p.taken

/-- What the reader holds follows from what it was given. -/
structure Drained (p : Pipe α) : Prop where
  within : p.taken ≤ p.wrote.length
  kept : p.kept = p.given.take cap
  warned : p.warned = true ↔ cap < p.taken
  sent : p.sent = true → p.warned = true
  whole : p.ended = true → p.failed = false → p.closed = true ∧ p.taken = p.wrote.length

variable {cap chunk}

theorem drained_empty : Drained cap ({} : Pipe α) where
  within := by simp
  kept := by simp [given]
  warned := by simp
  sent := by simp
  whole := by simp

theorem length_given {p : Pipe α} (hp : p.Drained cap) : p.given.length = p.taken := by
  simp [given, hp.within]

theorem length_kept {p : Pipe α} (hp : p.Drained cap) : p.kept.length = min cap p.taken := by
  rw [hp.kept, List.length_take, length_given hp]

/-- Taking a chunk keeps the reader's account of what it was given. -/
theorem drained_take {p : Pipe α} (hp : p.Drained cap) {n : Nat} (hn : 0 < n)
    (hw : p.taken + n ≤ p.wrote.length) (hopen : p.ended = false) :
    (p.take cap n).Drained cap := by
  have hlen := length_kept hp
  have hroom : cap - p.kept.length < n ↔ cap < p.taken + n := by omega
  refine ⟨hw, ?_, ?_, ?_, ?_⟩
  · show p.kept ++ ((p.wrote.drop p.taken).take n).take (min n (cap - p.kept.length)) =
      (p.wrote.take (p.taken + n)).take cap
    have hwithin := hp.within
    rw [hlen, hp.kept, given, List.take_add, List.take_append]
    simp only [List.take_take, List.length_take]
    congr 2
    omega
  · have hbefore := hp.warned
    simp only [take, Bool.or_eq_true, decide_eq_true_eq, hbefore, hroom]
    omega
  · intro h
    simp only [take, Bool.or_eq_true, Bool.and_eq_true] at h ⊢
    exact h.elim (fun hs => Or.inl (hp.sent hs)) (fun hs => Or.inr hs.1)
  · intro h
    simp [take, hopen] at h

theorem drained_step {p p' : Pipe α} {op : PipeOp α} (hp : p.Drained cap)
    (h : p.step cap chunk op = some p') : p'.Drained cap := by
  cases op with
  | write bytes =>
    simp only [step] at h
    split at h
    · cases h
    · next hopen =>
      cases h
      have hgiven : (p.wrote ++ bytes).take p.taken = p.wrote.take p.taken :=
        List.take_append_of_le_length hp.within
      refine ⟨?_, ?_, hp.warned, hp.sent, ?_⟩
      · have := hp.within
        simp only [List.length_append]
        omega
      · simpa only [given, hgiven] using hp.kept
      · intro hend hfail
        exact absurd (hp.whole hend hfail).1 hopen
  | close =>
    cases h
    exact ⟨hp.within, hp.kept, hp.warned, hp.sent, fun he hf => ⟨rfl, (hp.whole he hf).2⟩⟩
  | read n =>
    simp only [step] at h
    split at h
    · next hread =>
      cases h
      simp only [Bool.and_eq_true, Bool.not_eq_true', decide_eq_true_eq] at hread
      obtain ⟨⟨⟨hopen, hn⟩, -⟩, hw⟩ := hread
      exact drained_take hp hn hw hopen
    · cases h
  | eof =>
    simp only [step] at h
    split at h
    · next hend =>
      cases h
      simp only [Bool.and_eq_true, Bool.not_eq_true', decide_eq_true_eq] at hend
      exact ⟨hp.within, hp.kept, hp.warned, hp.sent, fun _ _ => ⟨hend.1.2, hend.2⟩⟩
    · cases h
  | fail =>
    simp only [step] at h
    split at h
    · cases h
    · cases h
      exact ⟨hp.within, hp.kept, hp.warned, hp.sent, fun _ hf => by simp at hf⟩

theorem step_sent {p p' : Pipe α} {op : PipeOp α} (h : p.step cap chunk op = some p')
    (hs : p.sent = true) : p'.sent = true := by
  cases op <;> simp only [step] at h <;> (try split at h) <;> cases h <;> simp [take, hs]

theorem step_warned {p p' : Pipe α} {op : PipeOp α} (h : p.step cap chunk op = some p')
    (hw : p'.warned = true) : p.warned = true ∨ p'.sent = true := by
  cases hbefore : p.warned with
  | true => exact .inl rfl
  | false =>
    cases op <;> simp only [step] at h <;> (try split at h) <;> cases h <;> simp_all [take]

theorem step_taken {p p' : Pipe α} {op : PipeOp α} (h : p.step cap chunk op = some p') :
    p.taken ≤ p'.taken := by
  cases op <;> simp only [step] at h <;> (try split at h) <;> cases h <;> simp [take]

end Pipe

/-! ### The wait loop -/

/-- What ended the loop. -/
inductive End (ε : Type v)
  | exited (status : ε)
  | waitFailed (error : String)
  | overflowed
  | cancelled
  | expired

/-- Where the loop stands: before its next look at the child, at the output's warning, at the
flag, at the clock, or past its end. -/
inductive Phase (ε : Type v)
  | reap
  | output
  | flag
  | clock
  | finished (e : End ε)

/-- The readers' caps and chunk, and what the loop looks at besides the child and the clock. -/
structure Config where
  capOut : Nat
  capErr : Nat
  chunk : Nat
  output : Bool
  cancel : Bool

structure State (α : Type u) (ε : Type v) where
  out : Pipe α := {}
  err : Pipe α := {}
  child : Option ε := none
  killed : Bool := false
  flag : Bool := false
  late : Bool := false
  seen : Bool := false
  phase : Phase ε := .reap

inductive Op (α : Type u) (ε : Type v)
  | out (op : PipeOp α)
  | err (op : PipeOp α)
  | exit (status : ε)
  | raise
  | expire
  | waitFails (error : String)
  | poll

def Op.isPoll {α : Type u} {ε : Type v} : Op α ε → Bool
  | .poll => true
  | _ => false

theorem Op.isPoll_eq_false {α : Type u} {ε : Type v} {op : Op α ε} (h : op ≠ .poll) :
    op.isPoll = false := by
  cases op <;> simp_all [isPoll]

namespace State

variable {α : Type u} {ε : Type v} (c : Config)

/-- The loop gives up: the child's tree is killed. -/
def giveUp (s : State α ε) (e : End ε) : State α ε :=
  { s with killed := true, phase := .finished e }

/-- One look at the reader's channel: a warning is received once and remembered. -/
def receive (s : State α ε) : State α ε :=
  { s with out := { s.out with sent := false }, seen := s.seen || s.out.sent }

/-- The loop's next look. -/
def poll (s : State α ε) : Option (State α ε) :=
  match s.phase with
  | .reap =>
    match s.child with
    | some status => some { s with phase := .finished (.exited status) }
    | none => some { s with phase := .output }
  | .output =>
    if c.output then
      let s' := s.receive
      some (if s'.seen then s'.giveUp .overflowed else { s' with phase := .flag })
    else some { s with phase := .flag }
  | .flag => some (if c.cancel && s.flag then s.giveUp .cancelled else { s with phase := .clock })
  | .clock => some (if s.late then s.giveUp .expired else { s with phase := .reap })
  | .finished _ => none

def waitFails (s : State α ε) (error : String) : Option (State α ε) :=
  match s.phase with
  | .reap => some (s.giveUp (.waitFailed error))
  | _ => none

/-- The environment's steps, the readers' and the loop's. -/
def step (s : State α ε) : Op α ε → Option (State α ε)
  | .out op => (s.out.step c.capOut c.chunk op).map (fun p => { s with out := p })
  | .err op => (s.err.step c.capErr c.chunk op).map (fun p => { s with err := p })
  | .exit status => if s.child.isSome then none else some { s with child := some status }
  | .raise => some { s with flag := true }
  | .expire => some { s with late := true }
  | .waitFails error => s.waitFails error
  | .poll => s.poll c

/-- What an end of the loop says about the child, the output, the flag and the clock. -/
def Caused (s : State α ε) : End ε → Prop
  | .exited status => s.child = some status ∧ s.killed = false
  | .waitFailed _ => s.killed = true
  | .overflowed => c.output = true ∧ c.capOut < s.out.taken ∧ s.killed = true
  | .cancelled => c.cancel = true ∧ s.flag = true ∧ s.killed = true
  | .expired => s.late = true ∧ s.killed = true

/-- Nothing is killed while the loop runs, and its end has its cause. -/
def Settled (s : State α ε) : Phase ε → Prop
  | .finished e => s.Caused c e
  | _ => s.killed = false

structure Sound (s : State α ε) : Prop where
  out : s.out.Drained c.capOut
  err : s.err.Drained c.capErr
  seen : s.seen = true → s.out.warned = true
  heard : s.out.warned = true → s.seen = true ∨ s.out.sent = true
  settled : s.Settled c s.phase

/-- What a step of the environment or of a reader leaves: the loop's own state, and every
cause there was. -/
structure Outside (s s' : State α ε) : Prop where
  phase : s'.phase = s.phase
  killed : s'.killed = s.killed
  seen : s'.seen = s.seen
  child : ∀ status, s.child = some status → s'.child = some status
  flag : s.flag = true → s'.flag = true
  late : s.late = true → s'.late = true
  taken : s.out.taken ≤ s'.out.taken
  sent : s.out.sent = true → s'.out.sent = true
  warned : s'.out.warned = true → s.out.warned = true ∨ s'.out.sent = true

variable {c} {s s' : State α ε}

theorem outside_out {p : Pipe α} {op : PipeOp α} {cap chunk : Nat}
    (h : s.out.step cap chunk op = some p) : Outside s { s with out := p } :=
  ⟨rfl, rfl, rfl, fun _ h => h, fun h => h, fun h => h, Pipe.step_taken h, Pipe.step_sent h,
    Pipe.step_warned h⟩

/-- A step that leaves the standard output and the loop's own state. -/
theorem outside_of {t : State α ε} (hout : t.out = s.out) (hphase : t.phase = s.phase)
    (hkilled : t.killed = s.killed) (hseen : t.seen = s.seen)
    (hchild : ∀ status, s.child = some status → t.child = some status)
    (hflag : s.flag = true → t.flag = true) (hlate : s.late = true → t.late = true) :
    Outside s t := by
  refine ⟨hphase, hkilled, hseen, hchild, hflag, hlate, ?_, ?_, ?_⟩
  · simp [hout]
  · simp [hout]
  · rw [hout]
    exact Or.inl

/-- Every step is the loop's or leaves the loop's own state. -/
theorem step_cases {op : Op α ε} (h : s.step c op = some s') :
    (op = .poll ∧ s.poll c = some s') ∨ (∃ error, op = .waitFails error ∧
      s.phase = .reap ∧ s' = s.giveUp (.waitFailed error)) ∨
    (op ≠ .poll ∧ Outside s s' ∧ (s.out.Drained c.capOut → s'.out.Drained c.capOut) ∧
      (s.err.Drained c.capErr → s'.err.Drained c.capErr)) := by
  cases op with
  | poll => exact .inl ⟨rfl, h⟩
  | waitFails error =>
    simp only [step, waitFails] at h
    split at h
    · next hphase => exact .inr (.inl ⟨error, rfl, hphase, (Option.some.inj h).symm⟩)
    · cases h
  | out op =>
    obtain ⟨p, hp, rfl⟩ := Option.map_eq_some_iff.mp h
    exact .inr (.inr ⟨by simp, outside_out hp, fun hd => Pipe.drained_step hd hp, fun hd => hd⟩)
  | err op =>
    obtain ⟨p, hp, rfl⟩ := Option.map_eq_some_iff.mp h
    refine .inr (.inr ⟨by simp, ?_, fun hd => hd, fun hd => Pipe.drained_step hd hp⟩)
    exact outside_of rfl rfl rfl rfl (fun _ h => h) (fun h => h) (fun h => h)
  | exit status =>
    simp only [step] at h
    split at h
    · cases h
    · next hchild =>
      cases h
      refine .inr (.inr ⟨by simp, ?_, fun hd => hd, fun hd => hd⟩)
      refine outside_of rfl rfl rfl rfl ?_ (fun h => h) (fun h => h)
      intro status' hs
      simp [hs] at hchild
  | raise =>
    cases h
    refine .inr (.inr ⟨by simp, ?_, fun hd => hd, fun hd => hd⟩)
    exact outside_of rfl rfl rfl rfl (fun _ h => h) (fun _ => rfl) (fun h => h)
  | expire =>
    cases h
    refine .inr (.inr ⟨by simp, ?_, fun hd => hd, fun hd => hd⟩)
    exact outside_of rfl rfl rfl rfl (fun _ h => h) (fun h => h) (fun _ => rfl)

/-! ### What holds at the loop's end -/

theorem Outside.caused (ho : Outside s s') {e : End ε} (h : s.Caused c e) : s'.Caused c e := by
  have hkilled := ho.killed
  have htaken := ho.taken
  cases e with
  | exited status => exact ⟨ho.child status h.1, hkilled.trans h.2⟩
  | waitFailed error => exact hkilled.trans h
  | overflowed => exact ⟨h.1, by have := h.2.1; omega, hkilled.trans h.2.2⟩
  | cancelled => exact ⟨h.1, ho.flag h.2.1, hkilled.trans h.2.2⟩
  | expired => exact ⟨ho.late h.1, hkilled.trans h.2⟩

theorem Outside.settled (ho : Outside s s') {p : Phase ε} (h : s.Settled c p) :
    s'.Settled c p := by
  cases p with
  | finished e => exact ho.caused h
  | reap => exact ho.killed.trans h
  | output => exact ho.killed.trans h
  | flag => exact ho.killed.trans h
  | clock => exact ho.killed.trans h

theorem Outside.sound (ho : Outside s s') (hs : s.Sound c) (hout : s'.out.Drained c.capOut)
    (herr : s'.err.Drained c.capErr) : s'.Sound c := by
  refine ⟨hout, herr, ?_, ?_, ?_⟩
  · intro h
    have hcap := hs.out.warned.mp (hs.seen (ho.seen ▸ h))
    have htaken := ho.taken
    exact hout.warned.mpr (by omega)
  · intro h
    rcases ho.warned h with hw | hsent
    · exact (hs.heard hw).imp (fun hseen => ho.seen.trans hseen) ho.sent
    · exact .inr hsent
  · rw [ho.phase]
    exact ho.settled hs.settled

theorem poll_sound (hs : s.Sound c) (h : s.poll c = some s') : s'.Sound c := by
  have hset := hs.settled
  unfold poll at h
  split at h
  · next hphase =>
    rw [hphase] at hset
    split at h
    · next status hchild =>
      cases h
      exact ⟨hs.out, hs.err, hs.seen, hs.heard, hchild, hset⟩
    · cases h
      exact ⟨hs.out, hs.err, hs.seen, hs.heard, hset⟩
  · next hphase =>
    rw [hphase] at hset
    split at h
    · next hc =>
      have hout : s.receive.out.Drained c.capOut :=
        ⟨hs.out.within, hs.out.kept, hs.out.warned, fun hf => by simp [receive] at hf,
          hs.out.whole⟩
      have hseen : s.receive.seen = true → s.receive.out.warned = true := by
        intro hr
        rcases Bool.or_eq_true .. ▸ hr with hr | hr
        · exact hs.seen hr
        · exact hs.out.sent hr
      have hheard : s.receive.out.warned = true →
          s.receive.seen = true ∨ s.receive.out.sent = true := by
        intro hw
        exact .inl ((Bool.or_eq_true ..).mpr (hs.heard hw))
      cases h
      split
      · next hr => exact ⟨hout, hs.err, hseen, hheard, hc, hs.out.warned.mp (hseen hr), rfl⟩
      · exact ⟨hout, hs.err, hseen, hheard, hset⟩
    · cases h
      exact ⟨hs.out, hs.err, hs.seen, hs.heard, hset⟩
  · next hphase =>
    rw [hphase] at hset
    cases h
    split
    · next hf =>
      rw [Bool.and_eq_true] at hf
      exact ⟨hs.out, hs.err, hs.seen, hs.heard, hf.1, hf.2, rfl⟩
    · exact ⟨hs.out, hs.err, hs.seen, hs.heard, hset⟩
  · next hphase =>
    rw [hphase] at hset
    cases h
    split
    · next hl => exact ⟨hs.out, hs.err, hs.seen, hs.heard, hl, rfl⟩
    · exact ⟨hs.out, hs.err, hs.seen, hs.heard, hset⟩
  · cases h

theorem step_sound {op : Op α ε} (hs : s.Sound c) (h : s.step c op = some s') : s'.Sound c := by
  obtain ⟨-, hpoll⟩ | ⟨error, -, -, rfl⟩ | ⟨-, ho, hout, herr⟩ := step_cases h
  · exact poll_sound hs hpoll
  · exact ⟨hs.out, hs.err, hs.seen, hs.heard, rfl⟩
  · exact ho.sound hs (hout hs.out) (herr hs.err)

/-! ### How long the loop goes on -/

/-- The loop stops when it next stands there. -/
def Stops (c : Config) (s : State α ε) : Phase ε → Prop
  | .reap => s.child.isSome = true
  | .output => c.output = true ∧ (s.seen = true ∨ s.out.sent = true)
  | .flag => c.cancel = true ∧ s.flag = true
  | .clock => s.late = true
  | .finished _ => False

theorem Outside.stops (ho : Outside s s') {p : Phase ε} (h : s.Stops c p) : s'.Stops c p := by
  cases p with
  | reap =>
    obtain ⟨status, hs⟩ := Option.isSome_iff_exists.mp h
    exact Option.isSome_iff_exists.mpr ⟨status, ho.child status hs⟩
  | output => exact ⟨h.1, h.2.imp (fun hs => ho.seen.trans hs) ho.sent⟩
  | flag => exact ⟨h.1, ho.flag h.2⟩
  | clock => exact ho.late h
  | finished _ => exact h.elim

end State

namespace Phase

variable {ε : Type v}

def index : Phase ε → Nat
  | .reap => 0
  | .output => 1
  | .flag => 2
  | .clock => 3
  | .finished _ => 4

/-- The looks left until the loop has looked at `p`. -/
def left (p : Phase ε) : Phase ε → Nat
  | .finished _ => 0
  | q => (p.index + 4 - q.index) % 4 + 1

/-- Where the loop looks next. -/
def next : Phase ε → Phase ε
  | .reap => .output
  | .output => .flag
  | .flag => .clock
  | .clock => .reap
  | .finished e => .finished e

theorem left_le (p q : Phase ε) : p.left q ≤ 4 := by
  cases q <;> simp only [left] <;> omega

theorem left_eq_zero {p q : Phase ε} (h : p.left q = 0) : ∃ e, q = .finished e := by
  cases q <;> simp [left] at h ⊢

theorem left_next {p q : Phase ε} (h : p ≠ q)
    (hq : ∀ e, q ≠ .finished e) (hp : ∀ e, p ≠ .finished e) :
    p.left q.next + 1 ≤ p.left q := by
  cases p <;> cases q <;> simp_all [left, next, index]

end Phase

namespace State

variable {α : Type u} {ε : Type v} {c : Config} {s s' : State α ε}

/-- A loop that is not over can look. -/
theorem poll_isSome (h : ∀ e, s.phase ≠ .finished e) : (s.poll c).isSome = true := by
  unfold poll
  split
  · split <;> rfl
  · split <;> rfl
  · rfl
  · rfl
  · next e he => exact absurd he (h e)

/-- A look ends the loop, or finds no reason to and moves it on. -/
theorem poll_cases (h : s.poll c = some s') : (∃ e, s'.phase = .finished e) ∨
    (¬ s.Stops c s.phase ∧ s'.phase = s.phase.next ∧ ∀ p, s.Stops c p → s'.Stops c p) := by
  unfold poll at h
  split at h
  · next hphase =>
    split at h
    · cases h
      exact .inl ⟨_, rfl⟩
    · next hchild =>
      cases h
      exact .inr ⟨by simp [hphase, Stops, hchild], by simp [hphase, Phase.next], fun p hp => by
        cases p <;> exact hp⟩
  · next hphase =>
    split at h
    · cases h
      split
      · exact .inl ⟨_, rfl⟩
      · next hseen =>
        have hnone : ¬ s.Stops c .output := fun hs =>
          hseen (Bool.or_eq_true .. ▸ hs.2)
        refine .inr ⟨hphase ▸ hnone, by simp [hphase, Phase.next], fun p hp => ?_⟩
        cases p with
        | output => exact absurd hp hnone
        | reap => exact hp
        | flag => exact hp
        | clock => exact hp
        | finished _ => exact hp
    · next hc =>
      cases h
      exact .inr ⟨by simp [hphase, Stops, hc], by simp [hphase, Phase.next], fun p hp => by
        cases p <;> exact hp⟩
  · next hphase =>
    cases h
    split
    · exact .inl ⟨_, rfl⟩
    · next hf =>
      rw [Bool.and_eq_true] at hf
      exact .inr ⟨hphase ▸ hf, by simp [hphase, Phase.next], fun p hp => by cases p <;> exact hp⟩
  · next hphase =>
    cases h
    split
    · exact .inl ⟨_, rfl⟩
    · next hl =>
      exact .inr ⟨hphase ▸ hl, by simp [hphase, Phase.next], fun p hp => by cases p <;> exact hp⟩
  · cases h

/-- Each look brings the loop one look nearer to where it stops. -/
theorem poll_nearer {p : Phase ε} (hp : s.Stops c p) (h : s.poll c = some s') :
    p.left s'.phase + 1 ≤ p.left s.phase ∧ ((∃ e, s'.phase = .finished e) ∨ s'.Stops c p) := by
  have hopen : ∀ e, s.phase ≠ .finished e := by
    intro e he
    simp [poll, he] at h
  obtain ⟨e, he⟩ | ⟨hnot, hnext, hkeep⟩ := poll_cases h
  · refine ⟨?_, .inl ⟨e, he⟩⟩
    rw [he]
    exact Nat.pos_of_ne_zero fun hz => (Phase.left_eq_zero hz).elim hopen
  · refine ⟨?_, .inr (hkeep p hp)⟩
    rw [hnext]
    exact Phase.left_next (fun heq => hnot (heq ▸ hp)) hopen (fun e he => by simp [he, Stops] at hp)

end State

variable {α : Type u} {ε : Type v}

/-- A watched child from its start on. -/
def system (α : Type u) (ε : Type v) (c : Config) : System (State α ε) (Op α ε) where
  init s := s = {}
  step s op s' := s.step c op = some s'

variable {α : Type u} {ε : Type v} {c : Config}

/-- Once there is a reason to stop, the loop takes at most four more looks, the fourth of which
ends it. -/
theorem looks_left {s t : State α ε} {ops : List (Op α ε)} (hr : (system α ε c).Run s ops t)
    {p : Phase ε} (hp : s.Stops c p) :
    p.left t.phase + ops.countP Op.isPoll ≤ p.left s.phase ∧
      ((∃ e, t.phase = .finished e) ∨ t.Stops c p) := by
  induction hr with
  | nil => exact ⟨by simp, .inr hp⟩
  | snoc hr h ih =>
    obtain ⟨hle, hend⟩ := ih
    rw [List.countP_append, List.countP_singleton]
    obtain ⟨rfl, hpoll⟩ | ⟨error, rfl, hphase, rfl⟩ | ⟨hop, ho, -, -⟩ := State.step_cases h
    · rcases hend with ⟨e, he⟩ | hstops
      · simp [State.poll, he] at hpoll
      · obtain ⟨hnear, hkeep⟩ := State.poll_nearer hstops hpoll
        exact ⟨by simp only [Op.isPoll, if_true]; omega, hkeep⟩
    · refine ⟨?_, .inl ⟨_, rfl⟩⟩
      rw [Op.isPoll_eq_false (by simp)]
      show 0 + _ ≤ _
      simp only [Bool.false_eq_true, if_false]
      omega
    · refine ⟨?_, ?_⟩
      · rw [ho.phase, Op.isPoll_eq_false hop]
        simpa using hle
      · rcases hend with ⟨e, he⟩ | hstops
        · exact .inl ⟨e, ho.phase.trans he⟩
        · exact .inr (ho.stops hstops)

theorem sound_invariant (c : Config) : (system α ε c).Invariant (State.Sound c) := by
  refine System.Invariant.step System.invariant_true ?_ ?_
  · rintro s rfl
    exact ⟨Pipe.drained_empty, Pipe.drained_empty, by simp, by simp, rfl⟩
  · intro s op s' _ hs h
    exact State.step_sound hs h

/-- The state after these steps, each possible in its turn. -/
def plays (c : Config) (s : State α ε) (ops : List (Op α ε)) : Option (State α ε) :=
  ops.foldlM (State.step c) s

theorem run_of_plays {s t : State α ε} {ops : List (Op α ε)} (h : plays c s ops = some t) :
    (system α ε c).Run s ops t := by
  induction ops using List.reverseRecOn generalizing t with
  | nil =>
    cases h
    exact .nil s
  | append_singleton ops op ih =>
    unfold plays at h
    rw [List.foldlM_append] at h
    obtain ⟨u, hu, ht⟩ := Option.bind_eq_some_iff.mp h
    refine .snoc (ih hu) ?_
    simpa [system] using ht

end Watch
