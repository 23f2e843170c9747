import Mathlib.Logic.Function.Iterate
import Mathlib.Tactic.IntervalCases

/-!
# The proleptic Gregorian calendar

Dates of the years from 0 on, the day after a date, and the number of days from one date
to another. Days are counted by adding up years and months; that the count is right is
that it grows by one from each date to the next.
-/

namespace Calendar

/-- A year has a leap day when it is divisible by four, but of the centuries only every
fourth has one. -/
def isLeap (y : Nat) : Bool := y % 4 = 0 && (y % 100 ≠ 0 || y % 400 = 0)

def yearLength (y : Nat) : Nat := if isLeap y then 366 else 365

def monthLength (y m : Nat) : Nat :=
  if m = 2 then (if isLeap y then 29 else 28)
  else if m = 4 ∨ m = 6 ∨ m = 9 ∨ m = 11 then 30
  else 31

@[ext] structure Date where
  year : Nat
  month : Nat
  day : Nat
deriving DecidableEq

namespace Date

structure Valid (x : Date) : Prop where
  month_pos : 1 ≤ x.month
  month_le : x.month ≤ 12
  day_pos : 1 ≤ x.day
  day_le : x.day ≤ monthLength x.year x.month

/-- The day after a real date. -/
def next (x : Date) : Date :=
  if x.day < monthLength x.year x.month then { x with day := x.day + 1 }
  else if x.month < 12 then { x with month := x.month + 1, day := 1 }
  else { year := x.year + 1, month := 1, day := 1 }

def origin : Date := ⟨0, 1, 1⟩

end Date

/-- `n` days lead from one date to another; the other comes first when `n` is negative. -/
def Elapsed (a b : Date) (n : Int) : Prop := Date.next^[n.toNat] a = Date.next^[(-n).toNat] b

/-! ### Counting days -/

def daysBeforeYear : Nat → Nat
  | 0 => 0
  | y + 1 => daysBeforeYear y + yearLength y

def daysBeforeMonth (y : Nat) : Nat → Nat
  | 0 => 0
  | 1 => 0
  | m + 2 => daysBeforeMonth y (m + 1) + monthLength y (m + 1)

/-- The years before `y` in days, without adding them up. -/
theorem daysBeforeYear_eq (y : Nat) :
    daysBeforeYear y + (y + 99) / 100 = 365 * y + (y + 3) / 4 + (y + 399) / 400 := by
  induction y with
  | zero => rfl
  | succ y ih =>
    have hleap : isLeap y = true ↔ y % 4 = 0 ∧ (y % 100 ≠ 0 ∨ y % 400 = 0) := by simp [isLeap]
    rw [daysBeforeYear, yearLength]
    split
    · rename_i h
      rw [hleap] at h
      omega
    · rename_i h
      rw [hleap] at h
      omega

theorem daysBeforeMonth_next (y : Nat) {m : Nat} (hm : 1 ≤ m) :
    daysBeforeMonth y (m + 1) = daysBeforeMonth y m + monthLength y m := by
  obtain ⟨k, rfl⟩ := Nat.exists_eq_add_of_le' hm
  rfl

theorem yearLength_eq (y : Nat) : yearLength y = daysBeforeMonth y 12 + monthLength y 12 := by
  unfold yearLength
  cases h : isLeap y <;> simp [daysBeforeMonth, monthLength, h]

theorem monthLength_pos (y m : Nat) : 1 ≤ monthLength y m := by
  unfold monthLength
  split
  · split <;> decide
  · split <;> decide

namespace Date

/-- The days from the first date to this one. -/
def count (x : Date) : Nat := daysBeforeYear x.year + daysBeforeMonth x.year x.month + (x.day - 1)

theorem valid_next {x : Date} (h : x.Valid) : x.next.Valid := by
  unfold next
  split
  · rename_i hday
    exact { month_pos := h.month_pos, month_le := h.month_le, day_pos := Nat.le_add_left 1 _
            day_le := hday }
  · split
    · rename_i hmonth
      exact { month_pos := Nat.le_add_left 1 _, month_le := hmonth, day_pos := le_rfl
              day_le := monthLength_pos _ _ }
    · exact { month_pos := le_rfl, month_le := by simp only; omega, day_pos := le_rfl
              day_le := monthLength_pos _ _ }

theorem count_next {x : Date} (h : x.Valid) : x.next.count = x.count + 1 := by
  have hpos := h.day_pos
  have hle := h.day_le
  unfold next
  split
  · simp only [count]
    omega
  · have hday : x.day = monthLength x.year x.month := by omega
    split
    · simp only [count, daysBeforeMonth_next x.year h.month_pos]
      omega
    · have hmonth : x.month = 12 := by
        have := h.month_le
        omega
      have hyear := yearLength_eq x.year
      rw [hmonth] at hday
      simp only [count, hmonth, daysBeforeYear, daysBeforeMonth]
      simp only [daysBeforeMonth] at hyear
      omega

theorem exists_prev {x : Date} (h : x.Valid) : x = origin ∨ ∃ w : Date, w.Valid ∧ w.next = x := by
  have hpos := h.day_pos
  have hle := h.day_le
  by_cases hday : 1 < x.day
  · refine Or.inr ⟨{ x with day := x.day - 1 }, ?_, ?_⟩
    · exact { month_pos := h.month_pos, month_le := h.month_le, day_pos := by simp only; omega
              day_le := by simp only; omega }
    · unfold next
      rw [if_pos (by simp only; omega)]
      simp only [Nat.sub_add_cancel hpos]
  · have hfirst : x.day = 1 := by omega
    by_cases hmonth : 1 < x.month
    · have hlast := monthLength_pos x.year (x.month - 1)
      refine Or.inr ⟨⟨x.year, x.month - 1, monthLength x.year (x.month - 1)⟩, ?_, ?_⟩
      · have := h.month_le
        exact { month_pos := by simp only; omega, month_le := by simp only; omega
                day_pos := hlast, day_le := le_rfl }
      · have := h.month_le
        unfold next
        rw [if_neg (by simp), if_pos (by simp only; omega)]
        exact Date.ext rfl (Nat.sub_add_cancel h.month_pos) hfirst.symm
    · have hjanuary : x.month = 1 := by
        have := h.month_pos
        omega
      by_cases hyear : x.year = 0
      · exact Or.inl (Date.ext hyear hjanuary hfirst)
      · refine Or.inr ⟨⟨x.year - 1, 12, 31⟩, ?_, ?_⟩
        · exact { month_pos := Nat.le_add_left 1 11, month_le := le_rfl
                  day_pos := Nat.le_add_left 1 30, day_le := by simp [monthLength] }
        · unfold next
          rw [if_neg (by simp [monthLength]), if_neg (by simp)]
          exact Date.ext (Nat.sub_add_cancel (Nat.pos_of_ne_zero hyear)) hjanuary.symm hfirst.symm

/-- As many days as a date is counted lead to it from the first one. -/
theorem iterate_count {x : Date} (h : x.Valid) : next^[x.count] origin = x := by
  generalize hn : x.count = n
  induction n generalizing x with
  | zero =>
    rcases exists_prev h with rfl | ⟨w, hw, rfl⟩
    · rfl
    · rw [count_next hw] at hn
      cases hn
  | succ n ih =>
    rcases exists_prev h with rfl | ⟨w, hw, rfl⟩
    · cases hn
    · rw [count_next hw] at hn
      rw [Function.iterate_succ_apply', ih hw (Nat.succ.inj hn)]

end Date

theorem Date.count_iterate {a : Date} (ha : a.Valid) (n : Nat) :
    (Date.next^[n] a).count = a.count + n := by
  induction n generalizing a with
  | zero => rfl
  | succ n ih =>
    rw [Function.iterate_succ_apply, ih (Date.valid_next ha), Date.count_next ha]
    omega

theorem elapsed_iff {a b : Date} (ha : a.Valid) (hb : b.Valid) {n : Int} :
    Elapsed a b n ↔ n = (b.count : Int) - a.count := by
  constructor
  · intro h
    have hcount := congrArg Date.count h
    rw [Date.count_iterate ha, Date.count_iterate hb] at hcount
    omega
  rintro rfl
  unfold Elapsed
  have hstart : a.count + ((b.count : Int) - a.count).toNat =
      b.count + (-((b.count : Int) - a.count)).toNat := by omega
  rw [← Date.iterate_count ha, ← Date.iterate_count hb, ← Function.iterate_add_apply,
    ← Function.iterate_add_apply, Date.iterate_count ha, Date.iterate_count hb,
    Nat.add_comm, hstart, Nat.add_comm]

end Calendar
