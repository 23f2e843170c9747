import Mathlib.Data.List.Induction
import Mathlib.Data.List.Nodup
import Mathlib.Order.Lattice

/-!
# Separated fields and sorted maps

A list of fields that each end in a separator, two at a time, and what a map in the order of its
keys holds after entries are inserted one by one.
-/

namespace Separated

section

variable {α : Type} [DecidableEq α] (sep : α)

/-- The fields, each followed by the separator. -/
def ended (fields : List (List α)) : List α := fields.flatMap (· ++ [sep])

/-- What stands between separators, less what is empty. -/
def fields (l : List α) : List (List α) := (l.splitOn sep).filter (fun f => !f.isEmpty)

variable {sep}

theorem splitOn_ended {fs : List (List α)} (h : ∀ f ∈ fs, sep ∉ f) :
    (ended sep fs).splitOn sep = fs ++ [[]] := by
  induction fs with
  | nil => rfl
  | cons f rest ih =>
    have hsplit := List.splitOn_append_cons_self_of_not_mem (h f List.mem_cons_self)
      (ended sep rest)
    rw [ended, List.flatMap_cons, List.append_assoc, List.singleton_append]
    rw [show rest.flatMap (· ++ [sep]) = ended sep rest from rfl, hsplit,
      ih (fun g hg => h g (List.mem_cons_of_mem _ hg)), List.cons_append]

theorem fields_ended {fs : List (List α)} (h : ∀ f ∈ fs, f ≠ [] ∧ sep ∉ f) :
    fields sep (ended sep fs) = fs := by
  rw [fields, splitOn_ended (fun f hf => (h f hf).2), List.filter_append]
  have hkept : fs.filter (fun f => !f.isEmpty) = fs := by
    refine List.filter_eq_self.mpr fun f hf => ?_
    simpa using (h f hf).1
  rw [hkept]
  simp

end

/-- Two at a time, if their number is even. -/
def pairs {α : Type} : List α → Option (List (α × α))
  | [] => some []
  | [_] => none
  | a :: b :: rest => (pairs rest).map ((a, b) :: ·)

theorem pairs_flatMap {α β : Type} (f g : β → α) (xs : List β) :
    pairs (xs.flatMap (fun x => [f x, g x])) = some (xs.map (fun x => (f x, g x))) := by
  induction xs with
  | nil => rfl
  | cons x rest ih =>
    rw [List.flatMap_cons, List.cons_append, List.singleton_append, pairs, ih]
    rfl

end Separated

namespace SortedMap

variable {κ α : Type} [LinearOrder κ]

/-- An entry takes the place of the one with its key, or stands before the later keys. -/
def insert (k : κ) (a : α) : List (κ × α) → List (κ × α)
  | [] => [(k, a)]
  | (k', a') :: rest =>
    if k < k' then (k, a) :: (k', a') :: rest
    else if k = k' then (k, a) :: rest
    else (k', a') :: insert k a rest

def Sorted (m : List (κ × α)) : Prop := m.Pairwise (fun x y => x.1 < y.1)

def ofList (entries : List (κ × α)) : List (κ × α) :=
  entries.foldl (fun m x => insert x.1 x.2 m) []

variable {k : κ} {a : α} {m : List (κ × α)} {x : κ × α}

theorem mem_insert (h : Sorted m) : x ∈ insert k a m ↔ x = (k, a) ∨ (x ∈ m ∧ x.1 ≠ k) := by
  induction m with
  | nil => simp [insert]
  | cons y rest ih =>
    obtain ⟨k', a'⟩ := y
    obtain ⟨hlater, hrest⟩ := List.pairwise_cons.mp h
    have htail : ∀ z ∈ rest, k' < z.1 := hlater
    rw [insert]
    split
    · next hlt =>
      have hne : ∀ z ∈ (k', a') :: rest, z.1 ≠ k := by
        intro z hz
        rcases List.mem_cons.mp hz with rfl | hz
        · exact hlt.ne'
        · exact (hlt.trans (htail z hz)).ne'
      rw [List.mem_cons]
      exact or_congr_right (iff_self_and.mpr (hne x))
    · next hge =>
      split
      · next heq =>
        subst heq
        have hne : ∀ z ∈ rest, z.1 ≠ k := fun z hz => (htail z hz).ne'
        rw [List.mem_cons, List.mem_cons]
        constructor
        · rintro (rfl | hx)
          · exact .inl rfl
          · exact .inr ⟨.inr hx, hne x hx⟩
        · rintro (rfl | ⟨rfl | hx, hk⟩)
          · exact .inl rfl
          · exact absurd rfl hk
          · exact .inr hx
      · next hne =>
        rw [List.mem_cons, List.mem_cons, ih hrest]
        constructor
        · rintro (rfl | rfl | ⟨hx, hk⟩)
          · exact .inr ⟨.inl rfl, fun h => hne h.symm⟩
          · exact .inl rfl
          · exact .inr ⟨.inr hx, hk⟩
        · rintro (rfl | ⟨rfl | hx, hk⟩)
          · exact .inr (.inl rfl)
          · exact .inl rfl
          · exact .inr (.inr ⟨hx, hk⟩)

theorem sorted_insert (h : Sorted m) : Sorted (insert k a m) := by
  induction m with
  | nil => exact List.pairwise_singleton _ _
  | cons y rest ih =>
    obtain ⟨k', a'⟩ := y
    obtain ⟨hlater, hrest⟩ := List.pairwise_cons.mp h
    rw [insert]
    split
    · next hlt =>
      refine List.pairwise_cons.mpr ⟨?_, h⟩
      intro z hz
      rcases List.mem_cons.mp hz with rfl | hz
      · exact hlt
      · exact hlt.trans (hlater z hz)
    · next hge =>
      split
      · next heq =>
        subst heq
        exact List.pairwise_cons.mpr ⟨hlater, hrest⟩
      · next hne =>
        refine List.pairwise_cons.mpr ⟨?_, ih hrest⟩
        intro z hz
        rcases (mem_insert hrest).mp hz with rfl | ⟨hz, -⟩
        · exact lt_of_le_of_ne (not_lt.mp hge) (fun h => hne h.symm)
        · exact hlater z hz

theorem sorted_foldl (entries : List (κ × α)) (h : Sorted m) :
    Sorted (entries.foldl (fun m x => insert x.1 x.2 m) m) := by
  induction entries generalizing m with
  | nil => exact h
  | cons e rest ih => exact ih (sorted_insert h)

theorem sorted_ofList (entries : List (κ × α)) : Sorted (ofList entries) :=
  sorted_foldl entries List.Pairwise.nil

/-- What a key was inserted with last. -/
def last (entries : List (κ × α)) (k : κ) : Option α :=
  (entries.reverse.find? (fun x => x.1 = k)).map (·.2)

theorem last_snoc (entries : List (κ × α)) (e : κ × α) (k : κ) :
    last (entries ++ [e]) k = if e.1 = k then some e.2 else last entries k := by
  unfold last
  rw [List.reverse_append, List.reverse_singleton, List.singleton_append, List.find?_cons]
  by_cases h : e.1 = k
  · simp [h]
  · simp [h]

/-- The map holds every key with what it was inserted with last. -/
theorem mem_ofList (entries : List (κ × α)) (k : κ) (a : α) :
    (k, a) ∈ ofList entries ↔ last entries k = some a := by
  induction entries using List.reverseRecOn generalizing a with
  | nil => simp [ofList, last]
  | append_singleton rest e ih =>
    have hsnoc : ofList (rest ++ [e]) = insert e.1 e.2 (ofList rest) := List.foldl_append ..
    rw [hsnoc, mem_insert (sorted_ofList rest), last_snoc, ih]
    by_cases h : e.1 = k
    · subst h
      simp [Prod.ext_iff, eq_comm]
    · have hne : k ≠ e.1 := fun heq => h heq.symm
      simp [h, hne, Prod.ext_iff]

theorem last_eq_some {entries : List (κ × α)} (h : (entries.map Prod.fst).Nodup) (k : κ) (a : α) :
    last entries k = some a ↔ (k, a) ∈ entries := by
  induction entries using List.reverseRecOn with
  | nil => simp [last]
  | append_singleton rest e ih =>
    rw [List.map_append, List.nodup_append] at h
    obtain ⟨hrest, -, hapart⟩ := h
    rw [last_snoc, List.mem_append, List.mem_singleton, ← ih hrest]
    by_cases hk : e.1 = k
    · subst hk
      have hnone : ¬ last rest e.1 = some a := by
        rw [ih hrest]
        intro hmem
        have hkey : e.1 ∈ rest.map Prod.fst := List.mem_map.mpr ⟨(e.1, a), hmem, rfl⟩
        exact hapart e.1 hkey e.1 (List.mem_singleton_self _) rfl
      rw [if_pos rfl, or_iff_right hnone, Option.some_inj, Prod.ext_iff]
      simp [eq_comm]
    · have hne : (k, a) ≠ e := fun heq => hk (heq ▸ rfl)
      rw [if_neg hk, or_iff_left hne]

end SortedMap
