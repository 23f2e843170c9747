/-!
# Transition systems

Labelled transition systems over arbitrary types: reachable states, invariants,
the runs between two states, and forward simulation.
-/

namespace Transition

universe u v w

/-- A labelled transition system. -/
structure System (σ : Type u) (α : Type v) where
  init : σ → Prop
  step : σ → α → σ → Prop

namespace System

variable {σ : Type u} {α : Type v} (M : System σ α)

inductive Reachable : σ → Prop
  | init {s : σ} (h : M.init s) : Reachable s
  | step {s s' : σ} {a : α} (hs : Reachable s) (h : M.step s a s') : Reachable s'

/-- The runs between two states, with the labels in order. -/
inductive Run : σ → List α → σ → Prop
  | nil (s : σ) : Run s [] s
  | snoc {s t t' : σ} {as : List α} {a : α} (hr : Run s as t) (h : M.step t a t') :
      Run s (as ++ [a]) t'

/-- A property of every reachable state. -/
def Invariant (I : σ → Prop) : Prop := ∀ s, M.Reachable s → I s

variable {M} {I J : σ → Prop}

/-- The invariant rule: `I` holds initially and every step preserves it, given an
invariant `J` proved before. -/
theorem Invariant.step (hJ : M.Invariant J) (hinit : ∀ s, M.init s → I s)
    (hstep : ∀ s a s', J s → I s → M.step s a s' → I s') : M.Invariant I := by
  intro s hs
  induction hs with
  | init h => exact hinit _ h
  | step hr h ih => exact hstep _ _ _ (hJ _ hr) ih h

theorem invariant_true : M.Invariant (fun _ => True) := fun _ _ => trivial

theorem Invariant.and (hI : M.Invariant I) (hJ : M.Invariant J) :
    M.Invariant (fun s => I s ∧ J s) :=
  fun s hs => ⟨hI s hs, hJ s hs⟩

theorem Run.reachable {s t : σ} {as : List α} (hr : M.Run s as t) (hs : M.Reachable s) :
    M.Reachable t := by
  induction hr with
  | nil => exact hs
  | snoc _ h ih => exact Reachable.step ih h

/-- A reflexive and transitive relation that every step from a reachable state
respects relates the two ends of every run. -/
theorem Run.related {R : σ → σ → Prop} {s t : σ} {as : List α} (hr : M.Run s as t)
    (hs : M.Reachable s) (hrefl : ∀ x, R x x) (htrans : ∀ x y z, R x y → R y z → R x z)
    (hstep : ∀ x a y, M.Reachable x → M.step x a y → R x y) : R s t := by
  induction hr with
  | nil => exact hrefl s
  | snoc hr h ih => exact htrans _ _ _ ih (hstep _ _ _ (hr.reachable hs) h)

/-- A forward simulation of `M` by `N`: each step of `M` is a step of `N` with the
matching label, or leaves the related state as it is. -/
structure Simulation {τ : Type w} {β : Type v} (M : System σ α) (N : System τ β)
    (rel : σ → τ → Prop) (label : σ → α → Option β) : Prop where
  init : ∀ s, M.init s → ∃ t, N.init t ∧ rel s t
  step : ∀ s a s' t, M.Reachable s → N.Reachable t → rel s t → M.step s a s' →
    ∃ t', rel s' t' ∧ match label s a with
      | none => t' = t
      | some b => N.step t b t'

/-- A simulated system reaches only states related to reachable ones. -/
theorem Simulation.reachable {τ : Type w} {β : Type v} {N : System τ β} {rel : σ → τ → Prop}
    {label : σ → α → Option β} (sim : Simulation M N rel label) {s : σ} (hs : M.Reachable s) :
    ∃ t, N.Reachable t ∧ rel s t := by
  induction hs with
  | init h =>
    obtain ⟨t, ht, hrel⟩ := sim.init _ h
    exact ⟨t, Reachable.init ht, hrel⟩
  | @step s s' a hr h ih =>
    obtain ⟨t, ht, hrel⟩ := ih
    obtain ⟨t', hrel', hstep⟩ := sim.step _ _ _ _ hr ht hrel h
    cases hl : label s a with
    | none =>
      rw [hl] at hstep
      simp only at hstep
      exact ⟨t', hstep ▸ ht, hrel'⟩
    | some b =>
      rw [hl] at hstep
      exact ⟨t', Reachable.step ht hstep, hrel'⟩

end System

end Transition
