import Mathlib.Algebra.GroupWithZero.Nat
import Mathlib.Data.List.Dedup

/-!
# Tables

Rows of a database with declared keys, checks, references and triggers, and the statements that
change them.
-/

namespace Relational

universe u v

/-- Why a statement is refused. -/
inductive Violation where
  | trigger
  | check
  | key
  | reference
deriving DecidableEq

/-- A table of a database `δ`: its rows in the order of insertion, which two of them share a
declared key, the check of a row, the rows it refers to, and the triggers that abort. -/
structure Table (δ : Type u) (ρ : Type v) where
  rows : δ → List ρ
  put : List ρ → δ → δ
  clash : ρ → ρ → Bool
  check : ρ → Bool
  refers : δ → ρ → Bool
  beforeInsert : δ → ρ → Bool
  beforeUpdate : ρ → Bool

namespace Table

variable {δ : Type u} {ρ : Type v} (t : Table δ ρ)

/-- `INSERT` of one row. -/
def insert (row : ρ) (d : δ) : Except Violation δ :=
  if t.beforeInsert d row then .error .trigger
  else if !t.check row then .error .check
  else if (t.rows d).any (t.clash row) then .error .key
  else if !t.refers d row then .error .reference
  else .ok (t.put (t.rows d ++ [row]) d)

/-- `INSERT OR IGNORE`: whether the row was inserted. -/
def insertOrIgnore (row : ρ) (d : δ) : Except Violation (Bool × δ) :=
  match t.insert row d with
  | .ok d' => .ok (true, d')
  | .error .trigger => .error .trigger
  | .error .check => .ok (false, d)
  | .error .key => .ok (false, d)
  | .error .reference => .error .reference

/-- `UPDATE` of the selected rows: how many they are. -/
def update (selected : ρ → Bool) (set : ρ → ρ) (d : δ) : Except Violation (Nat × δ) :=
  let after := (t.rows d).map (fun r => if selected r then set r else r)
  if (t.rows d).any (fun r => selected r && t.beforeUpdate r) then .error .trigger
  else if !after.all t.check then .error .check
  else if ¬ after.Pairwise (fun a b => t.clash b a = false) then .error .key
  else if !after.all (t.refers d) then .error .reference
  else .ok ((t.rows d).countP selected, t.put after d)

/-- The rows keep what the table declares. -/
structure Keeps (d : δ) : Prop where
  keys : (t.rows d).Pairwise (fun a b => t.clash b a = false)
  checks : ∀ r ∈ t.rows d, t.check r = true
  references : ∀ r ∈ t.rows d, t.refers d r = true

variable {t} {d d' : δ} {row : ρ}

theorem insert_eq_ok : t.insert row d = .ok d' ↔
    t.beforeInsert d row = false ∧ t.check row = true ∧
      (∀ r ∈ t.rows d, t.clash row r = false) ∧ t.refers d row = true ∧
      d' = t.put (t.rows d ++ [row]) d := by
  unfold insert
  by_cases htrigger : t.beforeInsert d row = true
  · simp [htrigger]
  by_cases hcheck : t.check row = true
  · by_cases hkey : (t.rows d).any (t.clash row) = true
    · simp only [htrigger, hcheck, hkey]
      refine iff_of_false (by simp) ?_
      rintro ⟨-, -, hfree, -⟩
      obtain ⟨r, hr, hclash⟩ := List.any_eq_true.mp hkey
      rw [hfree r hr] at hclash
      cases hclash
    · have hfree : ∀ r ∈ t.rows d, t.clash row r = false := by simpa using hkey
      by_cases hrefers : t.refers d row = true
      · simp only [htrigger, hcheck, hkey, hrefers, Bool.not_true, Bool.false_eq_true, if_false,
          Except.ok.injEq, true_and]
        exact ⟨fun h => ⟨hfree, h.symm⟩, fun h => h.2.symm⟩
      · simp [htrigger, hcheck, hkey, hrefers]
  · simp [htrigger, hcheck]

/-- An insert that breaks nothing goes through. -/
theorem insert_fits (htrigger : t.beforeInsert d row = false) (hcheck : t.check row = true)
    (hkey : ∀ r ∈ t.rows d, t.clash row r = false) (hrefers : t.refers d row = true) :
    t.insert row d = .ok (t.put (t.rows d ++ [row]) d) :=
  insert_eq_ok.mpr ⟨htrigger, hcheck, hkey, hrefers, rfl⟩

/-- Anything else is a constraint violation. -/
theorem insert_refused (h : ¬ (t.beforeInsert d row = false ∧ t.check row = true ∧
      (∀ r ∈ t.rows d, t.clash row r = false) ∧ t.refers d row = true)) :
    ∃ v, t.insert row d = .error v := by
  cases hinsert : t.insert row d with
  | error v => exact ⟨v, rfl⟩
  | ok d' =>
    obtain ⟨h₁, h₂, h₃, h₄, -⟩ := insert_eq_ok.mp hinsert
    exact absurd ⟨h₁, h₂, h₃, h₄⟩ h

theorem insert_taken (htrigger : t.beforeInsert d row = false) (hcheck : t.check row = true)
    (hkey : (t.rows d).any (t.clash row) = true) : t.insert row d = .error .key := by
  simp only [insert, htrigger, hcheck, hkey]
  rfl

theorem update_eq_ok {selected : ρ → Bool} {set : ρ → ρ} {n : Nat}
    (h : t.update selected set d = .ok (n, d')) :
    (∀ r ∈ t.rows d, selected r = true → t.beforeUpdate r = false) ∧
      n = (t.rows d).countP selected ∧
      d' = t.put ((t.rows d).map (fun r => if selected r then set r else r)) d ∧
      (∀ r ∈ (t.rows d).map (fun r => if selected r then set r else r),
        t.check r = true ∧ t.refers d r = true) ∧
      ((t.rows d).map (fun r => if selected r then set r else r)).Pairwise
        (fun a b => t.clash b a = false) := by
  unfold update at h
  dsimp only at h
  split at h
  · cases h
  · rename_i htrigger
    split at h
    · cases h
    · rename_i hcheck
      split at h
      · cases h
      · rename_i hkey
        split at h
        · cases h
        · rename_i hrefers
          cases h
          refine ⟨?_, rfl, rfl, ?_, not_not.mp hkey⟩
          · intro r hr hselected
            by_contra hbefore
            exact htrigger (List.any_eq_true.mpr ⟨r, hr, by simp [hselected, hbefore]⟩)
          · intro r hr
            simp only [Bool.not_eq_true', Bool.not_eq_false, List.all_eq_true] at hcheck hrefers
            exact ⟨hcheck r hr, hrefers r hr⟩

/-- An update that touches no declared column of a table goes through. -/
theorem update_fits {selected : ρ → Bool} {set : ρ → ρ} (hkeeps : t.Keeps d)
    (hbefore : ∀ r ∈ t.rows d, selected r = true → t.beforeUpdate r = false)
    (hclash : ∀ a b, t.clash (if selected b then set b else b) (if selected a then set a else a) =
      t.clash b a)
    (hcheck : ∀ r, t.check r = true → t.check (set r) = true)
    (hrefers : ∀ r, t.refers d (set r) = t.refers d r) :
    t.update selected set d = .ok ((t.rows d).countP selected,
      t.put ((t.rows d).map (fun r => if selected r then set r else r)) d) := by
  unfold update
  dsimp only
  rw [if_neg, if_neg, if_neg, if_neg]
  · simp only [Bool.not_eq_true', Bool.not_eq_false, List.all_eq_true, List.mem_map]
    rintro _ ⟨r, hr, rfl⟩
    split
    · rw [hrefers]
      exact hkeeps.references r hr
    · exact hkeeps.references r hr
  · rw [not_not, List.pairwise_map]
    refine hkeeps.keys.imp ?_
    intro a b h
    rw [hclash, h]
  · simp only [Bool.not_eq_true', Bool.not_eq_false, List.all_eq_true, List.mem_map]
    rintro _ ⟨r, hr, rfl⟩
    split
    · exact hcheck r (hkeeps.checks r hr)
    · exact hkeeps.checks r hr
  · intro h
    obtain ⟨r, hr, hboth⟩ := List.any_eq_true.mp h
    obtain ⟨hselected, htrigger⟩ := Bool.and_eq_true_iff.mp hboth
    rw [hbefore r hr hselected] at htrigger
    cases htrigger

/-- Rows put into a table are its rows. -/
def Lawful (t : Table δ ρ) : Prop := ∀ xs d, t.rows (t.put xs d) = xs

theorem Keeps.insert (hlaw : t.Lawful) (hkeeps : t.Keeps d) (h : t.insert row d = .ok d')
    (hgrows : ∀ r, t.refers d r = true → t.refers d' r = true) : t.Keeps d' := by
  obtain ⟨-, hcheck, hkey, hrefers, rfl⟩ := insert_eq_ok.mp h
  have hrows := hlaw (t.rows d ++ [row]) d
  constructor
  · rw [hrows, List.pairwise_append]
    refine ⟨hkeeps.keys, List.pairwise_singleton _ _, ?_⟩
    intro a ha b hb
    rw [List.mem_singleton.mp hb]
    exact hkey a ha
  · intro r hr
    rw [hrows, List.mem_append, List.mem_singleton] at hr
    rcases hr with hr | rfl
    · exact hkeeps.checks r hr
    · exact hcheck
  · intro r hr
    rw [hrows, List.mem_append, List.mem_singleton] at hr
    rcases hr with hr | rfl
    · exact hgrows r (hkeeps.references r hr)
    · exact hgrows r hrefers

theorem Keeps.update (hlaw : t.Lawful) {selected : ρ → Bool} {set : ρ → ρ} {n : Nat}
    (h : t.update selected set d = .ok (n, d'))
    (hgrows : ∀ r, t.refers d r = true → t.refers d' r = true) : t.Keeps d' := by
  obtain ⟨-, -, rfl, hrows, hkeys⟩ := update_eq_ok h
  constructor
  · rw [hlaw]
    exact hkeys
  · intro r hr
    rw [hlaw] at hr
    exact (hrows r hr).1
  · intro r hr
    rw [hlaw] at hr
    exact hgrows r (hrows r hr).2

/-- A table that a statement on another leaves alone. -/
theorem Keeps.frame (hkeeps : t.Keeps d) (hrows : t.rows d' = t.rows d)
    (hgrows : ∀ r, t.refers d r = true → t.refers d' r = true) : t.Keeps d' where
  keys := hrows ▸ hkeeps.keys
  checks := hrows ▸ hkeeps.checks
  references r hr := hgrows r (hkeeps.references r (hrows ▸ hr))

end Table

/-! ### Joins -/

section

variable {α β : Type}

/-- The matches of one row, or the row alone. -/
def joinRow (on : α → β → Bool) (r : List β) (a : α) : List (α × Option β) :=
  if (r.filter (on a)).isEmpty then [(a, none)] else (r.filter (on a)).map (fun b => (a, some b))

def leftJoin (on : α → β → Bool) (l : List α) (r : List β) : List (α × Option β) :=
  l.flatMap (joinRow on r)

variable (on : α → β → Bool)

theorem fst_joinRow {r : List β} {a : α} {row : α × Option β} (h : row ∈ joinRow on r a) :
    row.1 = a := by
  unfold joinRow at h
  split at h
  · rw [List.mem_singleton.mp h]
  · obtain ⟨b, -, rfl⟩ := List.mem_map.mp h
    rfl

theorem joinRow_ne_nil (r : List β) (a : α) : joinRow on r a ≠ [] := by
  unfold joinRow
  split
  · simp
  · next h => simpa using h

theorem mem_leftJoin_left {l : List α} {r : List β} {a : α} :
    a ∈ (leftJoin on l r).map (·.1) ↔ a ∈ l := by
  rw [List.mem_map]
  constructor
  · rintro ⟨row, hrow, rfl⟩
    obtain ⟨a, ha, hin⟩ := List.mem_flatMap.mp hrow
    exact fst_joinRow on hin ▸ ha
  · intro ha
    obtain ⟨row, hrow⟩ := List.exists_mem_of_ne_nil _ (joinRow_ne_nil on r a)
    exact ⟨row, List.mem_flatMap.mpr ⟨a, ha, hrow⟩, fst_joinRow on hrow⟩

/-- A condition on the left rows can be tried before the join. -/
theorem filter_leftJoin (p : α → Bool) (l : List α) (r : List β) :
    (leftJoin on l r).filter (fun row => p row.1) = leftJoin on (l.filter p) r := by
  unfold leftJoin
  induction l with
  | nil => rfl
  | cons a rest ih =>
    rw [List.flatMap_cons, List.filter_append, ih]
    cases hp : p a with
    | true =>
      rw [List.filter_cons_of_pos hp, List.flatMap_cons]
      congr 1
      refine List.filter_eq_self.mpr fun row hrow => ?_
      rw [fst_joinRow on hrow, hp]
    | false =>
      have hnone : (joinRow on r a).filter (fun row => p row.1) = [] := by
        refine List.filter_eq_nil_iff.mpr fun row hrow => ?_
        simp [fst_joinRow on hrow, hp]
      rw [List.filter_cons_of_neg (by simp [hp]), hnone, List.nil_append]

/-- Matches can be counted from either side. -/
theorem sum_countP_comm (l : List α) (r : List β) :
    (l.map (fun a => r.countP (on a))).sum = (r.map (fun b => l.countP (fun a => on a b))).sum := by
  induction r with
  | nil => simp
  | cons b rest ih =>
    rw [List.map_cons, List.sum_cons, ← ih]
    clear ih
    induction l with
    | nil => rfl
    | cons a l ihl =>
      simp only [List.map_cons, List.sum_cons, List.countP_cons] at ihl ⊢
      omega

/-- Rows stored in another form join in that form. -/
theorem map_leftJoin {α' β' : Type} {on' : α' → β' → Bool} {f : α → α'} {g : β → β'}
    (h : ∀ a b, on' (f a) (g b) = on a b) (l : List α) (r : List β) :
    leftJoin on' (l.map f) (r.map g) = (leftJoin on l r).map (Prod.map f (Option.map g)) := by
  unfold leftJoin
  rw [List.flatMap_map, List.map_flatMap]
  congr 1
  funext a
  have hmatches : (r.map g).filter (on' (f a)) = (r.filter (on a)).map g := by
    rw [List.filter_map]
    congr 2
    funext b
    exact h a b
  unfold joinRow
  rw [hmatches, List.isEmpty_map]
  split
  · rfl
  · rw [List.map_map, List.map_map]
    rfl

theorem countP_leftJoin (l : List α) (r : List β) :
    (leftJoin on l r).countP (fun row => row.2.isSome) =
      (l.map (fun a => r.countP (on a))).sum := by
  unfold leftJoin
  induction l with
  | nil => rfl
  | cons a rest ih =>
    rw [List.flatMap_cons, List.countP_append, ih, List.map_cons, List.sum_cons]
    congr 1
    rw [List.countP_eq_length_filter (p := on a), joinRow]
    split
    · next hempty => simp [List.isEmpty_iff.mp hempty]
    · simp [List.countP_map, Function.comp_def]

variable {κ : Type} [DecidableEq κ] {f : α → κ} {g : β → κ} {l : List α} {r : List β}

/-- Left rows that no two of them share a key are counted once each, however often they match. -/
theorem distinct_leftJoin (h : (l.map f).Nodup) :
    ((leftJoin on l r).map (fun row => f row.1)).dedup.length = l.length := by
  have hmem : ∀ k, k ∈ ((leftJoin on l r).map (fun row => f row.1)).dedup ↔ k ∈ l.map f := by
    intro k
    rw [List.mem_dedup, List.mem_map, List.mem_map]
    constructor
    · rintro ⟨row, hrow, rfl⟩
      exact ⟨row.1, (mem_leftJoin_left on).mp (List.mem_map.mpr ⟨row, hrow, rfl⟩), rfl⟩
    · rintro ⟨a, ha, rfl⟩
      obtain ⟨row, hrow, rfl⟩ := List.mem_map.mp ((mem_leftJoin_left on (r := r)).mpr ha)
      exact ⟨row, hrow, rfl⟩
  have hperm := (List.perm_ext_iff_of_nodup (List.nodup_dedup _) h).mpr hmem
  rw [hperm.length_eq, List.length_map]

/-- A join on such a key counts the right rows whose key some left row has. -/
theorem countP_leftJoin_key (h : (l.map f).Nodup) (p : β → Bool)
    (hp : ∀ b ∈ r, p b ↔ g b ∈ l.map f) :
    (leftJoin (fun a b => decide (g b = f a)) l r).countP (fun row => row.2.isSome) =
      r.countP p := by
  rw [countP_leftJoin, sum_countP_comm]
  induction r with
  | nil => rfl
  | cons b rest ih =>
    rw [List.map_cons, List.sum_cons, ih (fun b hb => hp b (List.mem_cons_of_mem _ hb)),
      List.countP_cons, Nat.add_comm]
    have hcount : l.countP (fun a => decide (g b = f a)) = (l.map f).count (g b) := by
      rw [List.count, List.countP_map]
      refine List.countP_congr fun a _ => ?_
      simpa using ⟨fun h => h.symm, fun h => h.symm⟩
    have hiff := hp b List.mem_cons_self
    rw [hcount, h.count]
    simp only [hiff]

end

end Relational
