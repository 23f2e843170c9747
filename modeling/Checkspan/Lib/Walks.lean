import Mathlib.Logic.Relation
import Mathlib.Data.Fintype.Card
import Mathlib.Data.List.Chain
import Mathlib.Data.List.Nodup
import Mathlib.Data.Set.Finite.Basic
import Mathlib.Tactic.ByContra

/-!
# Walks in a relation

Acyclic relations over arbitrary types: topologically ordered lists, cycles among
finitely many vertices, sets closed under a relation, and cycles of a union.
-/

namespace Walks

universe u

open Relation

variable {α : Type u} {r d : α → α → Prop}

/-- No vertex reaches itself in one or more steps. -/
def Acyclic (r : α → α → Prop) : Prop := ∀ a, ¬ TransGen r a a

theorem Acyclic.mono (h : Acyclic r) (hsub : ∀ a b, d a b → r a b) : Acyclic d :=
  fun a hc => h a (TransGen.mono hsub _ _ hc)

/-- A property that every edge carries forward holds of whatever a vertex with it
reaches. -/
theorem closed_reaches {P : α → Prop} (hP : ∀ a b, P a → r a b → P b) {a b : α}
    (ha : P a) (h : ReflTransGen r a b) : P b := by
  induction h with
  | refl => exact ha
  | tail _ hbc ih => exact hP _ _ ih hbc

/-! ### Walks and rings as lists -/

/-- The vertices of a walk from `a` to `b`, in order. -/
structure Walk (r : α → α → Prop) (a b : α) (l : List α) : Prop where
  first : l.head? = some a
  last : l.getLast? = some b
  chain : l.IsChain r

/-- The vertices of a cycle, in order and without repeats. -/
structure Ring (r : α → α → Prop) (l : List α) : Prop where
  ne_nil : l ≠ []
  nodup : l.Nodup
  chain : l.IsChain r
  closes : ∀ a b, l.getLast? = some a → l.head? = some b → r a b

theorem Walk.single (a : α) : Walk r a a [a] := ⟨rfl, rfl, List.IsChain.singleton a⟩

theorem Walk.snoc {a b c : α} {l : List α} (h : Walk r a b l) (hbc : r b c) :
    Walk r a c (l ++ [c]) := by
  refine ⟨?_, by rw [List.getLast?_concat], ?_⟩
  · rw [List.head?_append, h.first, Option.some_or]
  · refine List.isChain_append.mpr ⟨h.chain, List.IsChain.singleton c, ?_⟩
    intro x hx y hy
    rw [h.last] at hx
    cases hx
    cases hy
    exact hbc

theorem Walk.cons {a b c : α} {l : List α} (hab : r a b) (h : Walk r b c l) :
    Walk r a c (a :: l) := by
  cases l with
  | nil => cases h.first
  | cons x l =>
    have hx := Option.some.inj h.first
    subst hx
    exact ⟨rfl, by rw [List.getLast?_cons_cons, h.last], List.isChain_cons_cons.mpr ⟨hab, h.chain⟩⟩

/-- Every vertex of a ring has a predecessor in it. -/
theorem Ring.pred {l : List α} (h : Ring r l) {b : α} (hb : b ∈ l) : ∃ a ∈ l, r a b := by
  obtain ⟨l₁, l₂, rfl⟩ := List.append_of_mem hb
  rcases List.eq_nil_or_concat l₁ with rfl | ⟨l₃, a, rfl⟩
  · have hlast := List.getLast?_eq_some_getLast (List.cons_ne_nil b l₂)
    exact ⟨_, List.getLast_mem _, h.closes _ b hlast rfl⟩
  · refine ⟨a, by simp, ?_⟩
    have hchain := h.chain
    rw [List.concat_eq_append, List.append_assoc, List.singleton_append] at hchain
    exact (List.isChain_append_cons_cons.mp hchain).2.1

section Names

/-! Vertices that are positions, with their names. -/

variable {β : Type u} {name : β → Option α} {e : β → β → Prop} {l : List β} {m : List α}

theorem chain_names (hm : m.map some = l.map name)
    (hr : ∀ x y, e x y → ∀ a b, name x = some a → name y = some b → r a b) (h : l.IsChain e) :
    m.IsChain r := by
  let s : Option α → Option α → Prop := fun x y => ∀ a b, x = some a → y = some b → r a b
  have hs : (l.map name).IsChain s := List.isChain_map_of_isChain name hr h
  rw [← hm] at hs
  exact List.isChain_of_isChain_map some (fun a b hab => hab a b rfl rfl) hs

theorem Walk.names {x y : β} {a b : α} (h : Walk e x y l) (hm : m.map some = l.map name)
    (ha : name x = some a) (hb : name y = some b)
    (hr : ∀ x y, e x y → ∀ a b, name x = some a → name y = some b → r a b) : Walk r a b m := by
  refine ⟨?_, ?_, chain_names hm hr h.chain⟩
  · have hhead := congrArg List.head? hm
    rw [List.head?_map, List.head?_map, h.first, Option.map_some, ha] at hhead
    simpa using hhead
  · have hlast := congrArg List.getLast? hm
    rw [List.getLast?_map, List.getLast?_map, h.last, Option.map_some, hb] at hlast
    simpa using hlast

theorem Ring.names (h : Ring e l) (hm : m.map some = l.map name)
    (hr : ∀ x y, e x y → ∀ a b, name x = some a → name y = some b → r a b)
    (hinj : ∀ x ∈ l, ∀ y ∈ l, name x = name y → x = y) : Ring r m := by
  refine ⟨?_, ?_, chain_names hm hr h.chain, ?_⟩
  · rintro rfl
    exact h.ne_nil (List.map_eq_nil_iff.mp hm.symm)
  · have hnd : (m.map some).Nodup := hm ▸ List.Nodup.map_on hinj h.nodup
    exact List.Nodup.of_map some hnd
  · intro a b ha hb
    have hlast := congrArg List.getLast? hm
    have hhead := congrArg List.head? hm
    rw [List.getLast?_map, List.getLast?_map, ha, Option.map_some] at hlast
    rw [List.head?_map, List.head?_map, hb, Option.map_some] at hhead
    obtain ⟨x, hx, hxa⟩ := Option.map_eq_some_iff.mp hlast.symm
    obtain ⟨y, hy, hyb⟩ := Option.map_eq_some_iff.mp hhead.symm
    exact hr x y (h.closes x y hx hy) a b hxa hyb

end Names

/-! ### Topological orders -/

/-- Every vertex of the list has all its successors listed before it. -/
def Ordered (r : α → α → Prop) (order : List α) : Prop :=
  ∀ l₁ a l₂, order = l₁ ++ a :: l₂ → ∀ b, r a b → b ∈ l₁

theorem Ordered.nil : Ordered r [] := by
  intro l₁ a l₂ h
  simp at h

/-- A split of a list with one element more is at that element or inside the list. -/
theorem snoc_split {l l₁ l₂ : List α} {a x : α} (h : l ++ [a] = l₁ ++ x :: l₂) :
    (l₁ = l ∧ x = a) ∨ ∃ l₃, l = l₁ ++ x :: l₃ := by
  rcases List.eq_nil_or_concat l₂ with hl | ⟨l₃, y, hl⟩
  · subst hl
    obtain ⟨hpre, hlast⟩ := List.append_inj' h rfl
    cases hlast
    exact Or.inl ⟨hpre.symm, rfl⟩
  · rw [hl, List.concat_eq_append, ← List.cons_append, ← List.append_assoc] at h
    exact Or.inr ⟨l₃, (List.append_inj' h rfl).1⟩

theorem Ordered.snoc {order : List α} (h : Ordered r order) {a : α}
    (ha : ∀ b, r a b → b ∈ order) : Ordered r (order ++ [a]) := by
  intro l₁ x l₂ heq b hb
  rcases snoc_split heq with ⟨rfl, rfl⟩ | ⟨l₃, hpre⟩
  · exact ha b hb
  · exact h l₁ x l₃ hpre b hb

/-- Every vertex of the list is the least of those that are not listed before it and
have all their successors listed before it. -/
def Earliest [LE α] (V : α → Prop) (r : α → α → Prop) (order : List α) : Prop :=
  ∀ l₁ a l₂, order = l₁ ++ a :: l₂ → ∀ b, V b → b ∉ l₁ → (∀ c, r b c → c ∈ l₁) → a ≤ b

theorem Earliest.snoc [LE α] {V : α → Prop} {order : List α} (h : Earliest V r order) {a : α}
    (ha : ∀ b, V b → b ∉ order → (∀ c, r b c → c ∈ order) → a ≤ b) :
    Earliest V r (order ++ [a]) := by
  intro l₁ x l₂ heq
  rcases snoc_split heq with ⟨rfl, rfl⟩ | ⟨l₃, hpre⟩
  · exact ha
  · exact h l₁ x l₃ hpre

/-- What a listed vertex reaches is listed before it. -/
theorem Ordered.reaches {order : List α} (h : Ordered r order) {a b : α} (hab : TransGen r a b)
    {l₁ l₂ : List α} (hsplit : order = l₁ ++ a :: l₂) : b ∈ l₁ := by
  induction hab using TransGen.head_induction_on generalizing l₁ l₂ with
  | single hab => exact h _ _ _ hsplit _ hab
  | head hac _ ih =>
    obtain ⟨m₁, m₂, hm⟩ := List.append_of_mem (h _ _ _ hsplit _ hac)
    rw [hm, List.append_assoc, List.cons_append] at hsplit
    rw [hm]
    exact List.mem_append_left _ (ih hsplit)

theorem Ordered.no_cycle {order : List α} (h : Ordered r order) (hnd : order.Nodup) {a : α}
    (ha : a ∈ order) : ¬ TransGen r a a := by
  intro hc
  obtain ⟨l₁, l₂, hsplit⟩ := List.append_of_mem ha
  have hmem : a ∈ l₁ := h.reaches hc hsplit
  rw [hsplit, List.nodup_append] at hnd
  exact hnd.2.2 a hmem a (List.mem_cons_self ..) rfl

/-! ### Finitely many vertices -/

/-- Vertices each of which has a successor among them hold a cycle. -/
theorem exists_cycle {vertices : List α} (hne : vertices ≠ [])
    (hsucc : ∀ a ∈ vertices, ∃ b ∈ vertices, r a b) : ∃ a ∈ vertices, TransGen r a a := by
  by_contra hnone
  let edge : {x // x ∈ vertices} → {x // x ∈ vertices} → Prop := fun b a => TransGen r a.1 b.1
  have hfin : Finite {x // x ∈ vertices} := (List.finite_toSet vertices).to_subtype
  have htrans : IsTrans _ edge := ⟨fun _ _ _ hab hbc => TransGen.trans hbc hab⟩
  have hirrefl : Std.Irrefl edge := ⟨fun a ha => hnone ⟨a.1, a.2, ha⟩⟩
  have hwf : WellFounded edge := Finite.wellFounded_of_trans_of_irrefl edge
  obtain ⟨start, hstart⟩ := List.exists_mem_of_ne_nil vertices hne
  have hfalse : ∀ x : {x // x ∈ vertices}, False := by
    intro x
    induction x using hwf.induction with
    | _ x ih =>
      obtain ⟨b, hb, hxb⟩ := hsucc x.1 x.2
      exact ih ⟨b, hb⟩ (TransGen.single hxb)
  exact hfalse ⟨start, hstart⟩

/-- Distinct numbers below a bound are at most that many. -/
theorem length_le_of_nodup_lt {l : List Nat} {n : Nat} (hnd : l.Nodup) (hlt : ∀ i ∈ l, i < n) :
    l.length ≤ n := by
  have hsub : l ⊆ List.range n := fun i hi => List.mem_range.mpr (hlt i hi)
  have hle := (hnd.subperm hsub).length_le
  rwa [List.length_range] at hle

/-- As many distinct numbers below a bound as the bound are all of them. -/
theorem mem_of_nodup_lt_length {l : List Nat} {n : Nat} (hnd : l.Nodup) (hlt : ∀ i ∈ l, i < n)
    (hlen : n ≤ l.length) {i : Nat} (hi : i < n) : i ∈ l := by
  by_contra hni
  have hcons : (i :: l).Nodup := List.nodup_cons.mpr ⟨hni, hnd⟩
  have hall : ∀ j ∈ i :: l, j < n := by
    intro j hj
    rcases List.mem_cons.mp hj with rfl | hj
    · exact hi
    · exact hlt j hj
  have hle := length_le_of_nodup_lt hcons hall
  rw [List.length_cons] at hle
  omega

/-! ### Cycles of a union -/

/-- One step of `r`, then any number of steps of `d`. -/
def Detour (r d : α → α → Prop) (a b : α) : Prop := ∃ x, r a x ∧ ReflTransGen d x b

theorem Detour.extend {a b c : α} (h : Detour r d a b) (hbc : ReflTransGen d b c) :
    Detour r d a c := by
  obtain ⟨x, hax, hxb⟩ := h
  exact ⟨x, hax, hxb.trans hbc⟩

theorem transGen_detour_extend {a b c : α} (h : TransGen (Detour r d) a b)
    (hbc : ReflTransGen d b c) : TransGen (Detour r d) a c := by
  cases h with
  | single hab => exact TransGen.single (hab.extend hbc)
  | tail hab hb => exact TransGen.tail hab (hb.extend hbc)

theorem Detour.union {a b : α} (h : Detour r d a b) : TransGen (fun x y => d x y ∨ r x y) a b := by
  obtain ⟨x, hax, hxb⟩ := h
  have hrest : ReflTransGen (fun x y => d x y ∨ r x y) x b :=
    ReflTransGen.mono (fun _ _ => Or.inl) _ _ hxb
  exact TransGen.head' (Or.inr hax) hrest

/-- A walk of the union is one of `d`, or leaves `d` for detours at some vertex. -/
theorem union_walk {a b : α} (h : TransGen (fun x y => d x y ∨ r x y) a b) :
    TransGen d a b ∨ ∃ g, ReflTransGen d a g ∧ TransGen (Detour r d) g b := by
  induction h with
  | single hab =>
    rcases hab with hd | hr
    · exact Or.inl (TransGen.single hd)
    · exact Or.inr ⟨a, ReflTransGen.refl, TransGen.single ⟨_, hr, ReflTransGen.refl⟩⟩
  | tail _ hbc ih =>
    rcases hbc with hd | hr
    · rcases ih with hab | ⟨g, hag, hgb⟩
      · exact Or.inl (hab.tail hd)
      · exact Or.inr ⟨g, hag, transGen_detour_extend hgb (ReflTransGen.single hd)⟩
    · have hstep : TransGen (Detour r d) _ _ := TransGen.single ⟨_, hr, ReflTransGen.refl⟩
      rcases ih with hab | ⟨g, hag, hgb⟩
      · exact Or.inr ⟨_, hab.to_reflTransGen, hstep⟩
      · exact Or.inr ⟨g, hag, hgb.trans hstep⟩

/-- The union of an acyclic relation with another is acyclic when the detours are. -/
theorem acyclic_union_iff (hd : Acyclic d) :
    Acyclic (fun x y => d x y ∨ r x y) ↔ Acyclic (Detour r d) := by
  constructor
  · intro hacyc g hg
    exact hacyc g (TransGen.closed (fun _ _ h => Detour.union h) _ _ hg)
  · intro hacyc a ha
    rcases union_walk ha with hc | ⟨g, hag, hga⟩
    · exact hd a hc
    · exact hacyc g (transGen_detour_extend hga hag)

end Walks
