import Mathlib.Logic.Basic

/-!
# Logs of several keys

One log carries the events of many keys, and each known key has a state of its own.
Folding the log with a step that may refuse is folding each key's own events.
-/

namespace Keyed

universe u v w x

variable {K : Type u} {S : Type v} {E : Type w} {ε : Type x} [DecidableEq K]

/-- The events of one key, in log order. -/
def eventsAt (k : K) (log : List (K × E)) : List E :=
  log.filterMap (fun e => if e.1 = k then some e.2 else none)

theorem eventsAt_cons_self (k : K) (e : E) (log : List (K × E)) :
    eventsAt k ((k, e) :: log) = e :: eventsAt k log := by
  simp [eventsAt]

theorem eventsAt_cons_other {k j : K} (h : j ≠ k) (e : E) (log : List (K × E)) :
    eventsAt k ((j, e) :: log) = eventsAt k log := by
  simp [eventsAt, h]

/-- The states with one key's state replaced. -/
def update (m : K → Option S) (k : K) (s : S) : K → Option S :=
  fun j => if j = k then some s else m j

variable (step : S → E → Except ε S) (unknown : K → ε)

/-- One event of a log: the state of its key takes the step. -/
def stepAt (m : K → Option S) (e : K × E) : Except ε (K → Option S) :=
  (m e.1).elim (.error (unknown e.1)) (fun s => (step s e.2).map (update m e.1))

def fold (m : K → Option S) (log : List (K × E)) : Except ε (K → Option S) :=
  log.foldlM (stepAt step unknown) m

/-- What a fold does at one key: nothing where no state is, else the fold of the key's own
events. -/
structure FoldsTo (before after : Option S) (events : List E) : Prop where
  unknown : before = none → events = [] ∧ after = none
  known : ∀ s, before = some s → ∃ s', events.foldlM step s = .ok s' ∧ after = some s'

variable {step unknown}

theorem foldlM_cons_ok {A : Type v} {B : Type w} {f : A → B → Except ε A} {a a' : A} {b : B}
    {bs : List B} :
    (b :: bs).foldlM f a = .ok a' ↔ ∃ t, f a b = .ok t ∧ bs.foldlM f t = .ok a' := by
  rw [List.foldlM_cons]
  constructor
  · intro h
    cases hb : f a b with
    | error err =>
      rw [hb] at h
      cases h
    | ok t =>
      rw [hb] at h
      exact ⟨t, rfl, h⟩
  · rintro ⟨t, ht, hrest⟩
    rw [ht]
    exact hrest

theorem stepAt_ok {m m' : K → Option S} {k : K} {e : E} :
    stepAt step unknown m (k, e) = .ok m' ↔
      ∃ s t, m k = some s ∧ step s e = .ok t ∧ m' = update m k t := by
  unfold stepAt
  constructor
  · intro h
    cases hm : m k with
    | none =>
      rw [hm] at h
      cases h
    | some s =>
      rw [hm] at h
      cases hs : step s e with
      | error err =>
        rw [Option.elim_some, hs] at h
        cases h
      | ok t =>
        rw [Option.elim_some, hs] at h
        cases h
        exact ⟨s, t, rfl, hs, rfl⟩
  · rintro ⟨s, t, hs, ht, rfl⟩
    rw [hs, Option.elim_some, ht]
    rfl

theorem foldsTo_nil (o : Option S) : FoldsTo step o o [] where
  unknown h := ⟨rfl, h⟩
  known s h := ⟨s, rfl, h⟩

theorem FoldsTo.eq_of_nil {before after : Option S} (h : FoldsTo step before after []) :
    after = before := by
  cases before with
  | none => exact (h.unknown rfl).2
  | some s =>
    obtain ⟨s', hs', hafter⟩ := h.known s rfl
    cases hs'
    exact hafter

theorem foldsTo_cons {before after : Option S} {e : E} {events : List E} :
    FoldsTo step before after (e :: events) ↔
      ∃ s t, before = some s ∧ step s e = .ok t ∧ FoldsTo step (some t) after events := by
  constructor
  · intro h
    cases before with
    | none => cases (h.unknown rfl).1
    | some s =>
      obtain ⟨s', hs', hafter⟩ := h.known s rfl
      obtain ⟨t, ht, hrest⟩ := foldlM_cons_ok.mp hs'
      refine ⟨s, t, rfl, ht, ⟨(fun hnone => by cases hnone), ?_⟩⟩
      intro u hu
      cases hu
      exact ⟨s', hrest, hafter⟩
  · rintro ⟨s, t, rfl, ht, h⟩
    refine ⟨(fun hnone => by cases hnone), ?_⟩
    intro u hu
    cases hu
    obtain ⟨s', hs', hafter⟩ := h.known t rfl
    exact ⟨s', foldlM_cons_ok.mpr ⟨t, ht, hs'⟩, hafter⟩

/-- A log folds exactly when every key's own events do, each from its own state. -/
theorem fold_ok_iff {m m' : K → Option S} {log : List (K × E)} :
    fold step unknown m log = .ok m' ↔ ∀ k, FoldsTo step (m k) (m' k) (eventsAt k log) := by
  induction log generalizing m with
  | nil =>
    constructor
    · intro h k
      cases h
      exact foldsTo_nil _
    · intro h
      have hsame : m' = m := funext (fun k => (h k).eq_of_nil)
      rw [hsame]
      rfl
  | cons e log ih =>
    obtain ⟨j, e⟩ := e
    unfold fold at ih ⊢
    rw [foldlM_cons_ok]
    constructor
    · rintro ⟨mid, hmid, hrest⟩ k
      obtain ⟨s, t, hs, ht, rfl⟩ := stepAt_ok.mp hmid
      have hk := ih.mp hrest k
      by_cases hkj : k = j
      · subst hkj
        rw [update, if_pos rfl] at hk
        rw [eventsAt_cons_self]
        exact foldsTo_cons.mpr ⟨s, t, hs, ht, hk⟩
      · rw [update, if_neg hkj] at hk
        rw [eventsAt_cons_other (Ne.symm hkj)]
        exact hk
    · intro h
      have hj := h j
      rw [eventsAt_cons_self] at hj
      obtain ⟨s, t, hs, ht, hrest⟩ := foldsTo_cons.mp hj
      refine ⟨update m j t, stepAt_ok.mpr ⟨s, t, hs, ht, rfl⟩, ih.mpr ?_⟩
      intro k
      by_cases hkj : k = j
      · subst hkj
        rw [update, if_pos rfl]
        exact hrest
      · have hk := h k
        rw [eventsAt_cons_other (Ne.symm hkj)] at hk
        rw [update, if_neg hkj]
        exact hk

end Keyed
