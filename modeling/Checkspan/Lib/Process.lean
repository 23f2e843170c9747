import Mathlib.Data.List.Basic
import Checkspan.Lib.Transition

/-!
# Processes over a shared world

Programs that ask for effects and continue with any answer, a history logic for
what one process does, and pools of processes that share a world, act in any
order and may stop at any effect.
-/

namespace Process

open Transition

universe u v

/-- An effect and the answer it got. -/
structure Entry (E : Type u) (A : E → Type u) where
  effect : E
  answer : A effect

inductive Proc (E : Type u) (A : E → Type u) (α : Type u)
  | pure (a : α)
  | act (e : E) (k : A e → Proc E A α)

section

variable {E : Type u} {A : E → Type u} {α β ε : Type u}

namespace Proc

def bind : Proc E A α → (α → Proc E A β) → Proc E A β
  | pure a, f => f a
  | act e k, f => act e (fun a => bind (k a) f)

instance : Monad (Proc E A) where
  pure := pure
  bind := bind

def ask (e : E) : Proc E A (A e) := act e pure

/-- What a process that asks for nothing more returned. -/
def result : Proc E A α → Option α
  | pure a => some a
  | act _ _ => none

theorem result_some {p : Proc E A α} {a : α} (h : p.result = some a) : p = pure a := by
  cases p with
  | pure b => exact congrArg pure (Option.some.inj h)
  | act e k => cases h

/-! ### What one process does -/

/-- Every effect is allowed after the entries before it, and the result is right
for the whole history. -/
def Meets (J : List (Entry E A) → E → Prop) (Q : List (Entry E A) → α → Prop) :
    Proc E A α → List (Entry E A) → Prop
  | pure a, h => Q h a
  | act e k, h => J h e ∧ ∀ a, Meets J Q (k a) (h ++ [⟨e, a⟩])

variable {J : List (Entry E A) → E → Prop}

theorem Meets.imp {Q R : List (Entry E A) → α → Prop} {p : Proc E A α} {h : List (Entry E A)}
    (hp : p.Meets J Q h) (hQR : ∀ h a, Q h a → R h a) : p.Meets J R h := by
  induction p generalizing h with
  | pure a => exact hQR h a hp
  | act e k ih => exact ⟨hp.1, fun a => ih a (hp.2 a)⟩

theorem Meets.bind {Q : List (Entry E A) → β → Prop} {p : Proc E A α} {f : α → Proc E A β}
    {h : List (Entry E A)} (hp : p.Meets J (fun h a => (f a).Meets J Q h) h) :
    (p.bind f).Meets J Q h := by
  induction p generalizing h with
  | pure a => exact hp
  | act e k ih => exact ⟨hp.1, fun a => ih a (hp.2 a)⟩

end Proc

/-- A process that may fail. -/
abbrev Fallible (E : Type u) (A : E → Type u) (ε : Type u) : Type u → Type u := ExceptT ε (Proc E A)

namespace Fallible

/-- Ask for an effect. -/
def ask (e : E) : Fallible E A ε (A e) := ExceptT.lift (Proc.ask e)

/-- A computed result. -/
def ofExcept (x : Except ε α) : Fallible E A ε α := ExceptT.mk (Proc.pure x)

/-- Ask for an effect whose answer may be a failure. -/
def attempt (e : E) (view : A e → Except ε α) : Fallible E A ε α :=
  ExceptT.mk (Proc.act e (fun a => Proc.pure (view a)))

/-- The history logic for a process that may fail: the result is a value or an error. -/
def Meets (J : List (Entry E A) → E → Prop) (Q : List (Entry E A) → Except ε α → Prop)
    (p : Fallible E A ε α) (h : List (Entry E A)) : Prop :=
  Proc.Meets J Q p.run h

variable {J : List (Entry E A) → E → Prop}

theorem meets_pure {Q : List (Entry E A) → Except ε α → Prop} {a : α} {h : List (Entry E A)} :
    Meets J Q (pure a) h ↔ Q h (.ok a) := Iff.rfl

theorem meets_ofExcept {Q : List (Entry E A) → Except ε α → Prop} {x : Except ε α}
    {h : List (Entry E A)} : Meets J Q (ofExcept x) h ↔ Q h x := Iff.rfl

theorem meets_ask {Q : List (Entry E A) → Except ε (A e) → Prop} {h : List (Entry E A)} :
    Meets J Q (ask e) h ↔ J h e ∧ ∀ a, Q (h ++ [⟨e, a⟩]) (.ok a) := Iff.rfl

theorem meets_attempt {e : E} {view : A e → Except ε α} {Q : List (Entry E A) → Except ε α → Prop}
    {h : List (Entry E A)} :
    Meets J Q (attempt e view) h ↔ J h e ∧ ∀ a, Q (h ++ [⟨e, a⟩]) (view a) := Iff.rfl

/-- The sequencing rule: a failure ends the process. -/
theorem Meets.bind {Q : List (Entry E A) → Except ε β → Prop} {p : Fallible E A ε α}
    {f : α → Fallible E A ε β} {h : List (Entry E A)}
    (hp : Meets J (fun h r => match r with
      | .ok a => Meets J Q (f a) h
      | .error x => Q h (.error x)) p h) : Meets J Q (p >>= f) h := by
  refine Proc.Meets.bind (Proc.Meets.imp hp ?_)
  intro h r hr
  cases r with
  | ok a => exact hr
  | error x => exact hr

/-- The sequencing rule with the first part's own postcondition. -/
theorem Meets.andThen {Q : List (Entry E A) → Except ε β → Prop}
    {R : List (Entry E A) → Except ε α → Prop} {p : Fallible E A ε α} {f : α → Fallible E A ε β}
    {h : List (Entry E A)} (hp : Meets J R p h)
    (hok : ∀ h' a, R h' (.ok a) → Meets J Q (f a) h')
    (herr : ∀ h' x, R h' (.error x) → Q h' (.error x)) : Meets J Q (p >>= f) h := by
  refine Meets.bind (Proc.Meets.imp hp ?_)
  intro h' r hr
  cases r with
  | ok a => exact hok h' a hr
  | error x => exact herr h' x hr

theorem Meets.ofExcept_bind {Q : List (Entry E A) → Except ε β → Prop} {x : Except ε α}
    {f : α → Fallible E A ε β} {h : List (Entry E A)}
    (hok : ∀ a, x = .ok a → Meets J Q (f a) h) (herr : ∀ y, Q h (.error y)) :
    Meets J Q (ofExcept x >>= f) h := by
  refine Meets.bind (meets_ofExcept.mpr ?_)
  cases x with
  | ok a => exact hok a rfl
  | error y => exact herr y

theorem Meets.ask_bind {Q : List (Entry E A) → Except ε β → Prop} {e : E}
    {f : A e → Fallible E A ε β} {h : List (Entry E A)} (he : J h e)
    (hok : ∀ a, Meets J Q (f a) (h ++ [⟨e, a⟩])) : Meets J Q (ask e >>= f) h :=
  Meets.bind (meets_ask.mpr ⟨he, hok⟩)

theorem Meets.attempt_bind {Q : List (Entry E A) → Except ε β → Prop} {e : E}
    {view : A e → Except ε α} {f : α → Fallible E A ε β} {h : List (Entry E A)} (he : J h e)
    (hok : ∀ a v, view a = .ok v → Meets J Q (f v) (h ++ [⟨e, a⟩]))
    (herr : ∀ a y, Q (h ++ [⟨e, a⟩]) (.error y)) : Meets J Q (attempt e view >>= f) h := by
  refine Meets.bind (meets_attempt.mpr ⟨he, ?_⟩)
  intro a
  cases hv : view a with
  | ok v => exact hok a v hv
  | error y => exact herr a y

end Fallible

/-! ### A process alone -/

section

variable {σ : Type u} {P : σ → (e : E) → A e → σ → Prop}

namespace Proc

/-- A run with nothing else acting: the entries made, the world left and the result. -/
inductive Runs (P : σ → (e : E) → A e → σ → Prop) :
    Proc E A α → σ → List (Entry E A) → σ → α → Prop
  | pure {w : σ} {a : α} : Runs P (.pure a) w [] w a
  | act {w w' w'' : σ} {e : E} {k : A e → Proc E A α} {a : A e} {t : List (Entry E A)} {r : α}
      (hp : P w e a w') (hk : Runs P (k a) w' t w'' r) : Runs P (.act e k) w (⟨e, a⟩ :: t) w'' r

/-- Every run from here, after the entries `h`, ends as `Q` says. -/
def Leads (P : σ → (e : E) → A e → σ → Prop) (Q : σ → List (Entry E A) → α → Prop) :
    Proc E A α → σ → List (Entry E A) → Prop
  | pure a, w, h => Q w h a
  | act e k, w, h => ∀ a w', P w e a w' → Leads P Q (k a) w' (h ++ [⟨e, a⟩])

/-- A process has a run where every effect gets some answer. -/
theorem exists_runs (total : ∀ w e, ∃ a w', P w e a w') (p : Proc E A α) (w : σ) :
    ∃ t w' r, p.Runs P w t w' r := by
  induction p generalizing w with
  | pure a => exact ⟨[], w, a, .pure⟩
  | act e k ih =>
    obtain ⟨a, w', hp⟩ := total w e
    obtain ⟨t, w'', r, hk⟩ := ih a w'
    exact ⟨⟨e, a⟩ :: t, w'', r, .act hp hk⟩

/-- The run of a process whose effects are answered by `respond`. -/
def answered (respond : σ → (e : E) → A e × σ) : Proc E A α → σ → List (Entry E A) × σ × α
  | pure a, w => ([], w, a)
  | act e k, w =>
    (⟨e, (respond w e).1⟩ :: (answered respond (k (respond w e).1) (respond w e).2).1,
      (answered respond (k (respond w e).1) (respond w e).2).2)

theorem runs_answered {respond : σ → (e : E) → A e × σ}
    (hrespond : ∀ w e, P w e (respond w e).1 (respond w e).2) (p : Proc E A α) (w : σ) :
    p.Runs P w (p.answered respond w).1 (p.answered respond w).2.1 (p.answered respond w).2.2 := by
  induction p generalizing w with
  | pure a => exact .pure
  | act e k ih => exact .act (hrespond w e) (ih _ _)

/-- Whatever it is answered, the process asks for nothing but these effects. -/
def Only (J : E → Prop) : Proc E A α → Prop
  | pure _ => True
  | act e k => J e ∧ ∀ a, Only J (k a)

theorem Only.bind {J : E → Prop} {p : Proc E A α} {f : α → Proc E A β} (hp : p.Only J)
    (hf : ∀ a, (f a).Only J) : (p.bind f).Only J := by
  induction p with
  | pure a => exact hf a
  | act e k ih => exact ⟨hp.1, fun a => ih a (hp.2 a)⟩

variable {Q : σ → List (Entry E A) → α → Prop}

theorem Runs.leads {p : Proc E A α} {w w' : σ} {t : List (Entry E A)} {r : α}
    (hr : p.Runs P w t w' r) {h : List (Entry E A)} (hp : p.Leads P Q w h) : Q w' (h ++ t) r := by
  induction hr generalizing h with
  | pure =>
    rw [List.append_nil]
    exact hp
  | act hperform hk ih =>
    have hrest := ih (hp _ _ hperform)
    rwa [List.append_assoc] at hrest

theorem Leads.imp {R : σ → List (Entry E A) → α → Prop} {p : Proc E A α} {w : σ}
    {h : List (Entry E A)} (hp : p.Leads P Q w h) (hQR : ∀ w h a, Q w h a → R w h a) :
    p.Leads P R w h := by
  induction p generalizing w h with
  | pure a => exact hQR w h a hp
  | act e k ih => exact fun a w' hperform => ih a (hp a w' hperform)

theorem Leads.bind {R : σ → List (Entry E A) → β → Prop} {p : Proc E A α} {f : α → Proc E A β}
    {w : σ} {h : List (Entry E A)} (hp : p.Leads P (fun w h a => (f a).Leads P R w h) w h) :
    (p.bind f).Leads P R w h := by
  induction p generalizing w h with
  | pure a => exact hp
  | act e k ih => exact fun a w' hperform => ih a (hp a w' hperform)

/-- What a run has done it has done after the entries before it. -/
theorem Leads.grows {p : Proc E A α} {w : σ} {h : List (Entry E A)} (hp : p.Leads P Q w h) :
    p.Leads P (fun w' h' r => h <+: h' ∧ Q w' h' r) w h := by
  induction p generalizing w h with
  | pure a => exact ⟨List.prefix_rfl, hp⟩
  | act e k ih =>
    intro a w' hperform
    refine Leads.imp (ih a (hp a w' hperform)) ?_
    exact fun _ _ _ hr => ⟨(List.prefix_append h _).trans hr.1, hr.2⟩

/-- A process of effects that keep a property of the world keeps it. -/
theorem Only.leads {J : E → Prop} {I : σ → Prop}
    (hkeep : ∀ w e a w', J e → I w → P w e a w' → I w') {p : Proc E A α} (hp : p.Only J) {w : σ}
    (hw : I w) {h : List (Entry E A)} : p.Leads P (fun w' _ _ => I w') w h := by
  induction p generalizing w h with
  | pure a => exact hw
  | act e k ih => exact fun a w' hperform => ih a (hp.2 a) (hkeep w e a w' hp.1 hw hperform)

end Proc

namespace Fallible

/-- Every run of a process that may fail ends as `Q` says. -/
def Leads (P : σ → (e : E) → A e → σ → Prop) (Q : σ → List (Entry E A) → Except ε α → Prop)
    (p : Fallible E A ε α) (w : σ) (h : List (Entry E A)) : Prop :=
  Proc.Leads P Q p.run w h

variable {Q : σ → List (Entry E A) → Except ε β → Prop} {w : σ} {h : List (Entry E A)}

/-- The sequencing rule, with the postcondition of the first part. -/
theorem Leads.andThen {R : σ → List (Entry E A) → Except ε α → Prop} {p : Fallible E A ε α}
    {f : α → Fallible E A ε β} (hp : Leads P R p w h)
    (hok : ∀ w' h' a, R w' h' (.ok a) → Leads P Q (f a) w' h')
    (herr : ∀ w' h' x, R w' h' (.error x) → Q w' h' (.error x)) : Leads P Q (p >>= f) w h := by
  refine Proc.Leads.bind (Proc.Leads.imp hp ?_)
  intro w' h' r hr
  cases r with
  | ok a => exact hok w' h' a hr
  | error x => exact herr w' h' x hr

theorem Leads.ofExcept_bind {x : Except ε α} {f : α → Fallible E A ε β}
    (hok : ∀ a, x = .ok a → Leads P Q (f a) w h) (herr : ∀ y, x = .error y → Q w h (.error y)) :
    Leads P Q (ofExcept x >>= f) w h := by
  cases x with
  | ok a => exact hok a rfl
  | error y => exact herr y rfl

theorem Leads.ask_bind {e : E} {f : A e → Fallible E A ε β}
    (hok : ∀ a w', P w e a w' → Leads P Q (f a) w' (h ++ [⟨e, a⟩])) :
    Leads P Q (ask e >>= f) w h := hok

theorem Leads.attempt_bind {e : E} {view : A e → Except ε α} {f : α → Fallible E A ε β}
    (hok : ∀ a w' v, P w e a w' → view a = .ok v → Leads P Q (f v) w' (h ++ [⟨e, a⟩]))
    (herr : ∀ a w' y, P w e a w' → view a = .error y → Q w' (h ++ [⟨e, a⟩]) (.error y)) :
    Leads P Q (attempt e view >>= f) w h := by
  refine Leads.andThen
    (R := fun w' h' r => ∃ a, P w e a w' ∧ h' = h ++ [⟨e, a⟩] ∧ view a = r) ?_ ?_ ?_
  · exact fun a w' hperform => ⟨a, hperform, rfl, rfl⟩
  · rintro w' h' v ⟨a, hperform, rfl, hv⟩
    exact hok a w' v hperform hv
  · rintro w' h' y ⟨a, hperform, rfl, hv⟩
    exact herr a w' y hperform hv

/-- A process that may fail and asks for nothing but these effects. -/
def Only (J : E → Prop) (p : Fallible E A ε α) : Prop := Proc.Only J p.run

theorem Only.bind {J : E → Prop} {p : Fallible E A ε α} {f : α → Fallible E A ε β}
    (hp : Only J p) (hf : ∀ a, Only J (f a)) : Only J (p >>= f) := by
  refine Proc.Only.bind hp ?_
  intro r
  cases r with
  | ok a => exact hf a
  | error x => trivial

theorem only_ofExcept {J : E → Prop} (x : Except ε α) :
    Only J (ofExcept x : Fallible E A ε α) := trivial

theorem only_ask {J : E → Prop} {e : E} (he : J e) : Only J (ask e : Fallible E A ε (A e)) :=
  ⟨he, fun _ => trivial⟩

theorem only_attempt {J : E → Prop} {e : E} {view : A e → Except ε α} (he : J e) :
    Only J (attempt e view) := ⟨he, fun _ => trivial⟩

end Fallible

end

/-! ### Histories -/

/-- A property of every entry with the entries before it. -/
def Along (P : List (Entry E A) → Entry E A → Prop) (past : List (Entry E A)) : Prop :=
  ∀ h x t, past = h ++ x :: t → P h x

variable {P : List (Entry E A) → Entry E A → Prop}

theorem along_nil : Along P [] := by
  intro h x t hnil
  simp at hnil

theorem along_snoc {past : List (Entry E A)} {x : Entry E A} :
    Along P (past ++ [x]) ↔ Along P past ∧ P past x := by
  constructor
  · intro hall
    refine ⟨?_, hall past x [] rfl⟩
    intro h y t hpast
    exact hall h y (t ++ [x]) (by rw [hpast]; simp)
  · rintro ⟨hpast, hx⟩ h y t hsplit
    rcases List.eq_nil_or_concat t with rfl | ⟨t', z, rfl⟩
    · obtain ⟨rfl, hxy⟩ := List.append_inj' hsplit rfl
      cases hxy
      exact hx
    · rw [List.concat_eq_append, ← List.cons_append, ← List.append_assoc] at hsplit
      obtain ⟨rfl, -⟩ := List.append_inj' hsplit rfl
      exact hpast h y t' rfl

theorem Along.imp {R : List (Entry E A) → Entry E A → Prop} {past : List (Entry E A)}
    (hP : Along P past) (h : ∀ h x, P h x → R h x) : Along R past :=
  fun before x after hsplit => h before x (hP before x after hsplit)

end

/-! ### Pools -/

/-- A process with what it has done. -/
structure Thread (E : Type u) (A : E → Type u) (α : Type u) where
  past : List (Entry E A)
  rest : Proc E A α

structure Pool (σ : Type u) (E : Type u) (A : E → Type u) (α : Type u) where
  world : σ
  threads : List (Thread E A α)

/-- What process `i` returned. -/
def Pool.returned {σ : Type u} {E : Type u} {A : E → Type u} {α : Type u} (s : Pool σ E A α)
    (i : Nat) : Option α := s.threads[i]?.bind (·.rest.result)

theorem Pool.returned_some {σ : Type u} {E : Type u} {A : E → Type u} {α : Type u}
    {s : Pool σ E A α} {i : Nat} {a : α} (h : s.returned i = some a) :
    ∃ t, s.threads[i]? = some t ∧ t.rest = .pure a := by
  obtain ⟨t, ht, hresult⟩ := Option.bind_eq_some_iff.mp h
  exact ⟨t, ht, Proc.result_some hresult⟩

/-- Process `i` made the entry after `h`. -/
def Pool.MadeAt {σ : Type u} {E : Type u} {A : E → Type u} {α : Type u} (s : Pool σ E A α) (i : Nat)
    (h : List (Entry E A)) (x : Entry E A) : Prop :=
  ∃ t, s.threads[i]? = some t ∧ ∃ tail, t.past = h ++ x :: tail

/-- An entry before a made entry was made itself. -/
theorem Pool.MadeAt.before {σ : Type u} {E : Type u} {A : E → Type u} {α : Type u}
    {s : Pool σ E A α} {i : Nat} {h : List (Entry E A)} {x : Entry E A} (hmade : s.MadeAt i h x)
    {past tail : List (Entry E A)} {y : Entry E A} (hh : h = past ++ y :: tail) :
    s.MadeAt i past y := by
  obtain ⟨t, ht, rest, hpast⟩ := hmade
  refine ⟨t, ht, tail ++ x :: rest, ?_⟩
  rw [hpast, hh, List.append_assoc, List.cons_append]

/-- A step of a pool: a process starts, one gets an answer, or the world moves. -/
inductive Move (E : Type u) (A : E → Type u) (α ξ : Type u)
  | start (p : Proc E A α)
  | act (i : Nat) (x : Entry E A)
  | env (x : ξ)

/-- What runs in a pool: the processes that may start, what an effect does to the
world and answers, and what the world does by itself. -/
structure Machine (σ : Type u) (E : Type u) (A : E → Type u) (α ξ : Type u) where
  init : σ → Prop
  start : σ → Proc E A α → Prop
  perform : σ → (e : E) → A e → σ → Prop
  env : σ → ξ → σ → Prop

namespace Machine

variable {σ E : Type u} {A : E → Type u} {α ξ : Type u} (M : Machine σ E A α ξ)

inductive Step : Pool σ E A α → Move E A α ξ → Pool σ E A α → Prop
  | start {s : Pool σ E A α} {p : Proc E A α} (h : M.start s.world p) :
      Step s (.start p) { s with threads := s.threads ++ [⟨[], p⟩] }
  | act {s : Pool σ E A α} {i : Nat} {past : List (Entry E A)} {e : E} {k : A e → Proc E A α}
      {a : A e} {w : σ} (hi : s.threads[i]? = some ⟨past, .act e k⟩) (h : M.perform s.world e a w) :
      Step s (.act i ⟨e, a⟩) ⟨w, s.threads.set i ⟨past ++ [⟨e, a⟩], k a⟩⟩
  | env {s : Pool σ E A α} {x : ξ} {w : σ} (h : M.env s.world x w) :
      Step s (.env x) { s with world := w }

/-- Pools from an initial world and no process, in steps that are allowed. -/
def system (allowed : Pool σ E A α → Move E A α ξ → Prop) :
    System (Pool σ E A α) (Move E A α ξ) where
  init s := M.init s.world ∧ s.threads = []
  step s m s' := allowed s m ∧ M.Step s m s'

/-- Only the newest process acts: the ones before it have finished or died. -/
def Alone (s : Pool σ E A α) : Move E A α ξ → Prop
  | .act i _ => i + 1 = s.threads.length
  | _ => True

variable {M} {allowed : Pool σ E A α → Move E A α ξ → Prop}

/-- The thread of an action after it, and the others. -/
theorem mem_set {ts : List (Thread E A α)} {i : Nat} {t t' : Thread E A α}
    (ht : t ∈ ts.set i t') : t ∈ ts ∨ t = t' := (List.mem_or_eq_of_mem_set ht)

/-- Processes keep to the history logic they start in. -/
theorem threads_meet {ι : Type v} {C : ι → Prop} {J : ι → List (Entry E A) → E → Prop}
    {Q : ι → List (Entry E A) → α → Prop}
    (hstart : ∀ w p, M.start w p → ∃ c, C c ∧ p.Meets (J c) (Q c) []) :
    (M.system allowed).Invariant (fun s => ∀ t ∈ s.threads, ∃ c, C c ∧
      t.rest.Meets (J c) (Q c) t.past ∧ Along (fun h x => J c h x.effect) t.past) := by
  refine System.Invariant.step System.invariant_true ?_ ?_
  · rintro s ⟨-, hnil⟩ t ht
    rw [hnil] at ht
    exact absurd ht List.not_mem_nil
  · rintro s m s' - hs ⟨-, hstep⟩ t ht
    cases hstep with
    | start h =>
      rcases List.mem_append.mp ht with ht | ht
      · exact hs t ht
      · rw [List.mem_singleton.mp ht]
        obtain ⟨c, hc, hmeets⟩ := hstart _ _ h
        exact ⟨c, hc, hmeets, along_nil⟩
    | env h => exact hs t ht
    | act hi h =>
      rcases mem_set ht with ht | rfl
      · exact hs t ht
      · obtain ⟨c, hc, hmeets, halong⟩ := hs _ (List.mem_of_getElem? hi)
        exact ⟨c, hc, hmeets.2 _, along_snoc.mpr ⟨halong, hmeets.1⟩⟩

/-- The rule for facts about histories: a fact about an entry and the world holds
when the entry is made, and no step of the world undoes it. -/
theorem along_invariant {I : Pool σ E A α → Prop} (hI : (M.system allowed).Invariant I)
    {P : σ → List (Entry E A) → Entry E A → Prop}
    (hkeep : ∀ s m s', I s → M.Step s m s' → ∀ h x, P s.world h x → P s'.world h x)
    (hmake : ∀ s i past e k a w, I s → s.threads[i]? = some ⟨past, .act e k⟩ →
      allowed s (.act i ⟨e, a⟩) → M.perform s.world e a w →
      (∀ t ∈ s.threads, Along (P s.world) t.past) → P w past ⟨e, a⟩) :
    (M.system allowed).Invariant (fun s => ∀ t ∈ s.threads, Along (P s.world) t.past) := by
  refine System.Invariant.step hI ?_ ?_
  · rintro s ⟨-, hnil⟩ t ht
    rw [hnil] at ht
    exact absurd ht List.not_mem_nil
  · rintro s m s' hIs hs ⟨hallowed, hstep⟩ t ht
    have hold : ∀ t ∈ s.threads, Along (P s'.world) t.past :=
      fun t ht => (hs t ht).imp (hkeep s m s' hIs hstep)
    cases hstep with
    | start h =>
      rcases List.mem_append.mp ht with ht | ht
      · exact hold t ht
      · rw [List.mem_singleton.mp ht]
        exact along_nil
    | env h => exact hold t ht
    | act hi h =>
      rcases mem_set ht with ht | rfl
      · exact hold t ht
      · refine along_snoc.mpr ⟨hold _ (List.mem_of_getElem? hi), ?_⟩
        exact hmake _ _ _ _ _ _ _ hIs hi hallowed h hs

/-! ### What a pool has done -/

variable {κ : Type v}

theorem getElem?_set_of_some {ts : List (Thread E A α)} {i : Nat} {t t' : Thread E A α}
    (hi : ts[i]? = some t) : (ts.set i t')[i]? = some t' :=
  List.getElem?_set_self (List.getElem?_eq_some_iff.mp hi).1

theorem Step.madeAt {s s' : Pool σ E A α} {m : Move E A α ξ} (hstep : M.Step s m s') {i : Nat}
    {h : List (Entry E A)} {x : Entry E A} (hmade : s.MadeAt i h x) : s'.MadeAt i h x := by
  obtain ⟨t, ht, tail, hpast⟩ := hmade
  cases hstep with
  | start h =>
    refine ⟨t, ?_, tail, hpast⟩
    rw [List.getElem?_append_left (List.getElem?_eq_some_iff.mp ht).1]
    exact ht
  | env h => exact ⟨t, ht, tail, hpast⟩
  | @act j past e k a w hj h =>
    by_cases hij : j = i
    · subst hij
      obtain rfl := Option.some.inj (hj.symm.trans ht)
      refine ⟨_, getElem?_set_of_some hj, tail ++ [⟨e, a⟩], ?_⟩
      dsimp only at hpast ⊢
      rw [hpast, List.append_assoc, List.cons_append]
    · exact ⟨t, (List.getElem?_set_ne hij).trans ht, tail, hpast⟩

/-- An entry after an action was made before, or is the one just made. -/
theorem madeAt_act {s : Pool σ E A α} {i j : Nat} {past h : List (Entry E A)} {e : E}
    {k : A e → Proc E A α} {a : A e} {w : σ} {x : Entry E A}
    (hi : s.threads[i]? = some ⟨past, .act e k⟩)
    (hmade : Pool.MadeAt ⟨w, s.threads.set i ⟨past ++ [⟨e, a⟩], k a⟩⟩ j h x) :
    s.MadeAt j h x ∨ (j = i ∧ h = past ∧ x = ⟨e, a⟩) := by
  obtain ⟨t, ht, tail, hpast⟩ := hmade
  by_cases hij : i = j
  · subst hij
    rw [getElem?_set_of_some hi] at ht
    obtain rfl := Option.some.inj ht
    rcases List.eq_nil_or_concat tail with rfl | ⟨rest, y, rfl⟩
    · obtain ⟨rfl, hx⟩ := List.append_inj' hpast rfl
      exact Or.inr ⟨rfl, rfl, (List.cons.inj hx).1.symm⟩
    · rw [List.concat_eq_append, ← List.cons_append, ← List.append_assoc] at hpast
      obtain ⟨hpast, -⟩ := List.append_inj' hpast rfl
      exact Or.inl ⟨_, hi, rest, hpast⟩
  · rw [List.getElem?_set_ne hij] at ht
    exact Or.inl ⟨t, ht, tail, hpast⟩

/-- A process that has just started made nothing. -/
theorem madeAt_start {s : Pool σ E A α} {p : Proc E A α} {i : Nat} {h : List (Entry E A)}
    {x : Entry E A} (hmade : Pool.MadeAt { s with threads := s.threads ++ [⟨[], p⟩] } i h x) :
    s.MadeAt i h x := by
  obtain ⟨t, ht, tail, hpast⟩ := hmade
  by_cases hi : i < s.threads.length
  · rw [List.getElem?_append_left hi] at ht
    exact ⟨t, ht, tail, hpast⟩
  · rw [List.getElem?_append_right (by omega)] at ht
    obtain rfl := List.mem_singleton.mp (List.mem_of_getElem? ht)
    simp at hpast

/-- What the world holds was made by processes, when only they make it. -/
theorem origin_invariant {I : Pool σ E A α → Prop} (hI : (M.system allowed).Invariant I)
    {R : σ → κ → Prop} {made : κ → Entry E A → Prop} (hinit : ∀ w, M.init w → ∀ c, ¬ R w c)
    (henv : ∀ s x w, I s → M.env s.world x w → ∀ c, R w c → R s.world c)
    (hact : ∀ (s : Pool σ E A α) (i : Nat) past e (k : A e → Proc E A α) a w, I s →
      s.threads[i]? = some ⟨past, .act e k⟩ → M.perform s.world e a w →
      ∀ c, R w c → R s.world c ∨ made c ⟨e, a⟩) :
    (M.system allowed).Invariant
    (fun s => ∀ c, R s.world c → ∃ i h x, s.MadeAt i h x ∧ made c x) := by
  refine System.Invariant.step hI ?_ ?_
  · rintro s ⟨hs, -⟩ c hc
    exact absurd hc (hinit _ hs c)
  · rintro s m s' hIs hs ⟨-, hstep⟩ c hc
    have hold : R s.world c → ∃ i h x, s'.MadeAt i h x ∧ made c x := by
      intro hc
      obtain ⟨i, h, x, hmade, hx⟩ := hs c hc
      exact ⟨i, h, x, hstep.madeAt hmade, hx⟩
    cases hstep with
    | start h => exact hold hc
    | env h => exact hold (henv s _ _ hIs h c hc)
    | @act i past e k a w hi h =>
      rcases hact s i past e k a w hIs hi h c hc with hc | hx
      · exact hold hc
      · exact ⟨i, past, ⟨e, a⟩, ⟨_, getElem?_set_of_some hi, [], rfl⟩, hx⟩

/-- Entries of one key are one entry, when an entry is made under a key no other has. -/
theorem unique_invariant {I : Pool σ E A α → Prop} (hI : (M.system allowed).Invariant I)
    {key : Entry E A → Option κ}
    (hfresh : ∀ (s : Pool σ E A α) (i : Nat) past e (k : A e → Proc E A α) a w, I s →
      s.threads[i]? = some ⟨past, .act e k⟩ → M.perform s.world e a w →
      ∀ c, key ⟨e, a⟩ = some c → ∀ j h x, s.MadeAt j h x → key x ≠ some c) :
    (M.system allowed).Invariant (fun s => ∀ i j h g x y c, s.MadeAt i h x → s.MadeAt j g y →
      key x = some c → key y = some c → i = j ∧ h = g ∧ x = y) := by
  refine System.Invariant.step hI ?_ ?_
  · rintro s ⟨-, hnil⟩ i j h g x y c ⟨t, ht, -⟩
    rw [hnil] at ht
    cases ht
  · rintro s m s' hIs hs ⟨-, hstep⟩ i j h g x y c hx hy hkx hky
    cases hstep with
    | env h => exact hs i j _ g x y c hx hy hkx hky
    | start hp => exact hs i j _ g x y c (madeAt_start hx) (madeAt_start hy) hkx hky
    | @act n past e k a w hn hp =>
      rcases madeAt_act hn hx with hx' | ⟨rfl, rfl, rfl⟩
      · rcases madeAt_act hn hy with hy' | ⟨rfl, rfl, rfl⟩
        · exact hs i j h g x y c hx' hy' hkx hky
        · exact absurd hkx (hfresh s _ _ e k a w hIs hn hp c hky i h x hx')
      · rcases madeAt_act hn hy with hy' | ⟨rfl, rfl, rfl⟩
        · exact absurd hky (hfresh s _ _ e k a w hIs hn hp c hkx j g y hy')
        · exact ⟨rfl, rfl, rfl⟩

end Machine

/-! ### Plays -/

namespace Pool

variable {σ E : Type u} {A : E → Type u} {α : Type u}

/-- The pool with one process more. -/
def call (s : Pool σ E A α) (p : Proc E A α) : Pool σ E A α :=
  { s with threads := s.threads ++ [⟨[], p⟩] }

/-- Process `i` acts up to `n` times, answered by `respond`, as far as `guard` lets it. -/
def advance (respond : σ → (e : E) → A e × σ) (guard : Pool σ E A α → Nat → Entry E A → Bool)
    (i : Nat) : Nat → Pool σ E A α → Pool σ E A α
  | 0, s => s
  | n + 1, s =>
    match s.threads[i]? with
    | some ⟨past, .act e k⟩ =>
      let out := respond s.world e
      if guard s i ⟨e, out.1⟩ then advance respond guard i n
        ⟨out.2, s.threads.set i ⟨past ++ [⟨e, out.1⟩], k out.1⟩⟩
      else s
    | _ => s

end Pool

namespace Machine

variable {σ E : Type u} {A : E → Type u} {α ξ : Type u} {M : Machine σ E A α ξ}
  {allowed : Pool σ E A α → Move E A α ξ → Prop}

theorem call_reachable {s : Pool σ E A α} (hs : (M.system allowed).Reachable s) {p : Proc E A α}
    (hp : M.start s.world p) (hallowed : allowed s (.start p)) :
    (M.system allowed).Reachable (s.call p) :=
  .step (a := .start p) hs ⟨hallowed, .start hp⟩

theorem env_reachable {s : Pool σ E A α} (hs : (M.system allowed).Reachable s) {x : ξ} {w : σ}
    (hw : M.env s.world x w) (hallowed : allowed s (.env x)) :
    (M.system allowed).Reachable { s with world := w } :=
  .step (a := .env x) hs ⟨hallowed, .env hw⟩

/-- A play is a run: its answers are possible and its guard allows each of them. -/
theorem advance_reachable {respond : σ → (e : E) → A e × σ}
    {guard : Pool σ E A α → Nat → Entry E A → Bool}
    (hrespond : ∀ w e, M.perform w e (respond w e).1 (respond w e).2)
    (hguard : ∀ s i x, guard s i x = true → allowed s (.act i x)) (i n : Nat) {s : Pool σ E A α}
    (hs : (M.system allowed).Reachable s) :
    (M.system allowed).Reachable (s.advance respond guard i n) := by
  induction n generalizing s with
  | zero => exact hs
  | succ n ih =>
    unfold Pool.advance
    split
    · rename_i past e k hi
      dsimp only
      split
      · rename_i hallowed
        exact ih (.step (a := .act i ⟨e, (respond s.world e).1⟩) hs
          ⟨hguard s i _ hallowed, .act hi (hrespond s.world e)⟩)
      · exact hs
    · exact hs

/-- The last act of a play that acted. -/
theorem advance_last {respond : σ → (e : E) → A e × σ}
    {guard : Pool σ E A α → Nat → Entry E A → Bool}
    (hrespond : ∀ w e, M.perform w e (respond w e).1 (respond w e).2)
    (hguard : ∀ s i x, guard s i x = true → allowed s (.act i x)) (i n : Nat) {s : Pool σ E A α}
    (hs : (M.system allowed).Reachable s) : s.advance respond guard i n = s ∨
      ∃ s₁ x, (M.system allowed).Reachable s₁ ∧
        (M.system allowed).step s₁ (.act i x) (s.advance respond guard i n) := by
  induction n generalizing s with
  | zero => exact Or.inl rfl
  | succ n ih =>
    unfold Pool.advance
    split
    · rename_i past e k hi
      dsimp only
      split
      · rename_i hallowed
        have hstep : (M.system allowed).step s (.act i ⟨e, (respond s.world e).1⟩)
            ⟨(respond s.world e).2, s.threads.set i ⟨past ++ [⟨e, (respond s.world e).1⟩],
              k (respond s.world e).1⟩⟩ :=
          ⟨hguard s i _ hallowed, .act hi (hrespond s.world e)⟩
        rcases ih (.step hs hstep) with heq | hlast
        · rw [heq]
          exact Or.inr ⟨s, _, hs, hstep⟩
        · exact Or.inr hlast
      · exact Or.inl rfl
    · exact Or.inl rfl

end Machine

end Process
