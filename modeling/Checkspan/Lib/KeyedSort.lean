import Mathlib.Data.List.Sort

/-!
# Stable sorting by a key

A stable sort by part of a record forgets the order of the records exactly as far as the
key tells them apart: records that tie keep the order they came in.
-/

namespace KeyedSort

variable {α κ : Type} [LinearOrder κ] (key : α → κ)

def sortOn (xs : List α) : List α := xs.insertionSort (fun a b => ¬ key b < key a)

/-- No two different members share a key. -/
def Apart (xs : List α) : Prop := ∀ a ∈ xs, ∀ b ∈ xs, key a = key b → a = b

variable {key} {xs ys : List α}

theorem sortOn_perm (xs : List α) : (sortOn key xs).Perm xs := List.perm_insertionSort _ xs

theorem sortOn_sorted (xs : List α) : (sortOn key xs).Pairwise (fun a b => ¬ key b < key a) := by
  have htotal : Std.Total (fun a b : α => ¬ key b < key a) :=
    ⟨fun a b => (le_total (key a) (key b)).imp not_lt.mpr not_lt.mpr⟩
  have htrans : IsTrans α (fun a b : α => ¬ key b < key a) :=
    ⟨fun a b c hab hbc => not_lt.mpr ((not_lt.mp hab).trans (not_lt.mp hbc))⟩
  exact List.pairwise_insertionSort _ xs

theorem sortOn_eq_of_perm (h : Apart key xs) (hp : ys.Perm xs) : sortOn key ys = sortOn key xs := by
  refine List.Perm.eq_of_pairwise ?_ (sortOn_sorted ys) (sortOn_sorted xs)
    (((sortOn_perm ys).trans hp).trans (sortOn_perm xs).symm)
  intro a b ha hb hab hba
  have ha' := hp.mem_iff.mp ((sortOn_perm ys).mem_iff.mp ha)
  have hb' := (sortOn_perm xs).mem_iff.mp hb
  exact h a ha' b hb' (le_antisymm (not_lt.mp hab) (not_lt.mp hba))

theorem sortOn_map {β : Type} {key : β → κ} (f : α → β) (xs : List α) :
    sortOn key (xs.map f) = (sortOn (key ∘ f) xs).map f := by
  unfold sortOn
  rw [List.map_insertionSort (fun a b => ¬ (key ∘ f) b < (key ∘ f) a) (fun a b => ¬ key b < key a)]
  intro a _ b _
  rfl

/-- Of two records with one key, the one inserted last stands first. -/
theorem orderedInsert_tie {a b : α} (h : key a = key b) (xs : List α) :
    ∃ before after,
      (xs.orderedInsert (fun a b => ¬ key b < key a) b).orderedInsert
          (fun a b => ¬ key b < key a) a =
        before ++ a :: b :: after ∧
      (xs.orderedInsert (fun a b => ¬ key b < key a) a).orderedInsert
          (fun a b => ¬ key b < key a) b =
        before ++ b :: a :: after := by
  have hab : ¬ key b < key a := by rw [h]; exact lt_irrefl _
  have hba : ¬ key a < key b := by rw [h]; exact lt_irrefl _
  induction xs with
  | nil => exact ⟨[], [], by simp [hab], by simp [hba]⟩
  | cons x rest ih =>
    by_cases hx : key x < key a
    · have hx' : key x < key b := h ▸ hx
      obtain ⟨before, after, hleft, hright⟩ := ih
      refine ⟨x :: before, after, ?_, ?_⟩
      · simp only [List.orderedInsert_cons, hx, hx', not_true_eq_false, if_false]
        rw [hleft, List.cons_append]
      · simp only [List.orderedInsert_cons, hx, hx', not_true_eq_false, if_false]
        rw [hright, List.cons_append]
    · have hx' : ¬ key x < key b := h ▸ hx
      refine ⟨[], x :: rest, ?_, ?_⟩
      · simp only [List.orderedInsert_cons, hx', hab, not_false_eq_true, if_true, List.nil_append]
      · simp only [List.orderedInsert_cons, hx, hba, not_false_eq_true, if_true, List.nil_append]

/-- When every order sorts to the same list, no two different records share a key. -/
theorem apart_of_sortOn (h : ∀ ys : List α, ys.Perm xs → sortOn key ys = sortOn key xs) :
    Apart key xs := by
  intro a ha b hb hkey
  by_contra hne
  obtain ⟨rest, hrest⟩ : ∃ rest, xs.Perm (a :: b :: rest) := by
    classical
    have hb' : b ∈ xs.erase a := (List.mem_erase_of_ne (fun heq => hne heq.symm)).mpr hb
    exact ⟨(xs.erase a).erase b,
      (List.perm_cons_erase ha).trans ((List.perm_cons_erase hb').cons a)⟩
  obtain ⟨before, after, hab, hba⟩ := orderedInsert_tie hkey (sortOn key rest)
  change sortOn key (a :: b :: rest) = _ at hab
  change sortOn key (b :: a :: rest) = _ at hba
  have hsame := (h _ hrest.symm).trans (h _ ((List.Perm.swap a b rest).trans hrest.symm)).symm
  rw [hab, hba, List.append_cancel_left_eq, List.cons.injEq] at hsame
  exact hne hsame.1

end KeyedSort
