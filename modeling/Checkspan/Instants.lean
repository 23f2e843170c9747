import Checkspan.Lib.Calendar
import Checkspan.Contracts.Ids

/-!
# The instant a timestamp names (`src/contracts/ids.rs:275-390`)

An accepted text spells a date, a time of day, a fraction and an offset. `unix_nanos`
reads them back by their places in the text, and counts the days with a formula that
starts the year in March.
-/

namespace Checkspan

open Calendar

namespace Timestamp

/-! ### The days since the epoch -/

def epoch : Date := ⟨1970, 1, 1⟩

theorem epoch_count : epoch.count = 719528 := by
  have hyears := daysBeforeYear_eq 1970
  simp only [Date.count, epoch, daysBeforeMonth]
  omega

theorem epoch_valid : epoch.Valid where
  month_pos := by decide
  month_le := by decide
  day_pos := by decide
  day_le := by decide

/-- The days of the years before `y`, counted in eras of 400 years. -/
def yearDays (y : Int) : Int :=
  let era := (if y ≥ 0 then y else y - 399).tdiv 400
  let yoe := y - era * 400
  era * 146097 + (yoe * 365 + yoe.tdiv 4 - yoe.tdiv 100)

theorem yearDays_eq {y : Int} (hy : -1 ≤ y) : yearDays y = 365 * y + y / 4 - y / 100 + y / 400 := by
  have hera : (if y ≥ 0 then y else y - 399).tdiv 400 = y / 400 := by
    by_cases hpos : y ≥ 0
    · rw [if_pos hpos, Int.tdiv_eq_ediv_of_nonneg hpos]
    · obtain rfl : y = -1 := by omega
      rfl
  unfold yearDays
  simp only [hera]
  rw [Int.tdiv_eq_ediv_of_nonneg (by omega), Int.tdiv_eq_ediv_of_nonneg (by omega)]
  omega

theorem daysFromCivil_unfold (year month day : Int) : daysFromCivil year month day =
    yearDays (if month ≤ 2 then year - 1 else year) +
      ((153 * ((month + 9).tmod 12) + 2).tdiv 5 + day - 1) - 719468 := by
  simp only [daysFromCivil, yearDays]
  omega

/-- The days between the first of March and the first of a month after it. -/
def marchDays (m : Nat) : Int := (153 * (((m : Int) + 9).tmod 12) + 2).tdiv 5

theorem march_days (m : Nat) (hlow : 1 ≤ m) (hhigh : m ≤ 12) :
    marchDays m = if m ≤ 2 then 306 + 31 * ((m : Int) - 1) else
      (daysBeforeMonth 1 m : Int) - 59 := by
  interval_cases m <;> rfl

def leapDay (y : Nat) : Int := if isLeap y then 1 else 0

theorem yearDays_prev (y : Nat) : yearDays y = yearDays (y - 1) + 365 + leapDay y := by
  have hleap : isLeap y = true ↔ y % 4 = 0 ∧ (y % 100 ≠ 0 ∨ y % 400 = 0) := by simp [isLeap]
  rw [yearDays_eq (by omega), yearDays_eq (by omega), leapDay]
  split
  · rename_i h
    rw [hleap] at h
    omega
  · rename_i h
    rw [hleap] at h
    omega

theorem daysBeforeYear_cast (y : Nat) : (daysBeforeYear y : Int) = yearDays (y - 1) + 366 := by
  have hyears := daysBeforeYear_eq y
  rw [yearDays_eq (by omega)]
  omega

theorem daysBeforeMonth_cast (y : Nat) {m : Nat} (hlow : 3 ≤ m) (hhigh : m ≤ 12) :
    (daysBeforeMonth y m : Int) = daysBeforeMonth 1 m + leapDay y := by
  have hcommon : isLeap 1 = false := rfl
  unfold leapDay
  cases hyear : isLeap y <;> interval_cases m <;>
    simp [daysBeforeMonth, monthLength, hyear, hcommon]

theorem daysFromCivil_eq {y m : Nat} (d : Nat) (hlow : 1 ≤ m) (hhigh : m ≤ 12) (hday : 1 ≤ d) :
    daysFromCivil y m d = ((Date.mk y m d).count : Int) - epoch.count := by
  have hmarch := march_days m hlow hhigh
  have hyear := daysBeforeYear_cast y
  rw [daysFromCivil_unfold, epoch_count]
  change _ + (marchDays m + d - 1) - 719468 =
    ((daysBeforeYear y + daysBeforeMonth y m + (d - 1) : Nat) : Int) - 719528
  by_cases hm : m ≤ 2
  · rw [if_pos hm] at hmarch
    rw [if_pos (by omega), hmarch]
    have hbefore : daysBeforeMonth y m = 31 * (m - 1) := by
      interval_cases m <;> rfl
    omega
  · rw [if_neg hm] at hmarch
    rw [if_neg (by omega), hmarch, yearDays_prev y]
    have hbefore := daysBeforeMonth_cast y (by omega : 3 ≤ m) hhigh
    omega

/-! ### What a text names -/

/-- A date and a time of day, and how far east of UTC, in seconds, they are told. -/
structure Moment where
  date : Date
  hour : Nat
  minute : Nat
  second : Nat
  nanos : Nat
  offset : Int

/-- Nanoseconds from the start of 1970 in UTC, its days counted on the calendar. -/
def Moment.At (m : Moment) (n : Int) : Prop :=
  ∃ days, Elapsed epoch m.date days ∧
    n = (days * 86400 + m.hour * 3600 + m.minute * 60 + m.second - m.offset) * 1000000000 + m.nanos

/-- `len` digits, the most significant first. -/
structure Spells (ds : List UInt8) (len n : Nat) : Prop where
  length_eq : ds.length = len
  digits : ∀ d ∈ ds, isDigitByte d = true
  value : ds.foldl (fun acc d => acc * 10 + digitValue d) 0 = n

inductive Fraction : List UInt8 → Nat → Prop
  | none : Fraction [] 0
  | some {ds : List UInt8} {len n : Nat} (h : Spells ds len n) (hpos : 1 ≤ len) (hle : len ≤ 9) :
      Fraction (46 :: ds) (n * 10 ^ (9 - len))

inductive Zone : List UInt8 → Int → Prop
  | utc {z : UInt8} (hz : z = 90 ∨ z = 122) : Zone [z] 0
  | east {hh mm : List UInt8} {h m : Nat} (hhours : Spells hh 2 h) (hminutes : Spells mm 2 m) :
      Zone (43 :: (hh ++ 58 :: mm)) (h * 3600 + m * 60)
  | west {hh mm : List UInt8} {h m : Nat} (hhours : Spells hh 2 h) (hminutes : Spells mm 2 m) :
      Zone (45 :: (hh ++ 58 :: mm)) (-(h * 3600 + m * 60))

/-- `YYYY-MM-DDTHH:MM:SS[.fraction](Z|+HH:MM|-HH:MM)` -/
inductive Names : List UInt8 → Moment → Prop
  | intro {year month day hour minute second fraction zone : List UInt8} {t : UInt8}
      {y mo d h mi s n : Nat} {o : Int} (hyear : Spells year 4 y) (hmonth : Spells month 2 mo)
      (hday : Spells day 2 d) (ht : t = 84 ∨ t = 116) (hhour : Spells hour 2 h)
      (hminute : Spells minute 2 mi) (hsecond : Spells second 2 s) (hfraction : Fraction fraction n)
      (hzone : Zone zone o) :
      Names (year ++ 45 :: (month ++ 45 :: (day ++ t :: (hour ++ 58 :: (minute ++ 58 ::
        (second ++ (fraction ++ zone))))))) ⟨⟨y, mo, d⟩, h, mi, s, n, o⟩

/-! ### Every accepted text names a moment -/

theorem exists_spells {ds : List UInt8} {len : Nat} (hlen : ds.length = len)
    (h : ∀ d ∈ ds, isDigitByte d = true) : ∃ n, Spells ds len n :=
  ⟨_, { length_eq := hlen, digits := h, value := rfl }⟩

theorem drop_byte {b : List UInt8} {i : Nat} {c : UInt8} (h : byteAt b i = some c) :
    b.drop i = c :: b.drop (i + 1) := by
  obtain ⟨hi, hc⟩ := List.getElem?_eq_some_iff.mp h
  rw [List.drop_eq_getElem_cons hi, hc]

theorem drop_digits {b : List UInt8} {i lo hi : Nat} (h : twoDigits b i lo hi = true) :
    ∃ ds n, Spells ds 2 n ∧ b.drop i = ds ++ b.drop (i + 2) := by
  unfold twoDigits at h
  split at h
  · rename_i x y rest hdrop
    simp only [Bool.and_eq_true] at h
    obtain ⟨⟨hx, hy⟩, -⟩ := h
    refine ⟨[x, y], _, ⟨rfl, ?_, rfl⟩, ?_⟩
    · intro d hd
      simp only [List.mem_cons, List.not_mem_nil, or_false] at hd
      rcases hd with rfl | rfl
      · exact hx
      · exact hy
    · have hrest := congrArg (List.drop 2) hdrop
      rw [List.drop_drop] at hrest
      rw [hrest, hdrop]
      rfl
  · cases h

theorem offsetShape_zone {z : List UInt8} (h : offsetShape z = true) : ∃ o, Zone z o := by
  unfold offsetShape at h
  split at h
  · rename_i z
    simp only [Bool.or_eq_true, beq_iff_eq] at h
    exact ⟨_, .utc h⟩
  · rename_i sign rest _
    simp only [Bool.and_eq_true, Bool.or_eq_true, beq_iff_eq] at h
    obtain ⟨⟨⟨⟨hsign, hlen⟩, hhours⟩, hcolon⟩, hminutes⟩ := h
    obtain ⟨hh, hours, hhs, hrest⟩ := drop_digits hhours
    obtain ⟨mm, minutes, hms, htail⟩ := drop_digits hminutes
    rw [List.drop_of_length_le (by omega : (sign :: rest).length ≤ 4 + 2), List.append_nil] at htail
    rw [drop_byte hcolon, htail] at hrest
    have hrest : rest = hh ++ 58 :: mm := hrest
    rw [hrest]
    rcases hsign with rfl | rfl
    · exact ⟨_, .east hhs hms⟩
    · exact ⟨_, .west hhs hms⟩
  · cases h

theorem takeWhile_digits (b : List UInt8) :
    ∀ d ∈ b.takeWhile isDigitByte, isDigitByte d = true := by
  intro d hd
  exact List.all_eq_true.mp List.all_takeWhile d hd

theorem shape_names {b : List UInt8} (h : rfc3339Shape b = true) : ∃ m, Names b m := by
  unfold rfc3339Shape at h
  simp only [Bool.and_eq_true, Bool.or_eq_true, beq_iff_eq, decide_eq_true_eq] at h
  obtain ⟨⟨⟨⟨⟨⟨⟨⟨⟨⟨⟨⟨hlen, hyear⟩, hdash⟩, hmonth⟩, hdash'⟩, hday⟩, ht⟩, hhour⟩, hcolon⟩, hminute⟩,
    hcolon'⟩, hsecond⟩, htail⟩ := h
  obtain ⟨y, hys⟩ := exists_spells (List.length_take_of_le (by omega : 4 ≤ b.length))
    (List.all_eq_true.mp hyear)
  obtain ⟨month, mo, hmos, hmonth⟩ := drop_digits hmonth
  obtain ⟨day, d, hds, hday⟩ := drop_digits hday
  obtain ⟨hour, hr, hhs, hhour⟩ := drop_digits hhour
  obtain ⟨minute, mi, hmis, hminute⟩ := drop_digits hminute
  obtain ⟨second, s, hss, hsecond⟩ := drop_digits hsecond
  have hsep : ∃ t, (t = 84 ∨ t = 116) ∧ byteAt b 10 = some t := by
    rcases ht with ht | ht
    · exact ⟨_, Or.inl rfl, ht⟩
    · exact ⟨_, Or.inr rfl, ht⟩
  obtain ⟨t, ht, hbyte⟩ := hsep
  have hb : b = b.take 4 ++ 45 :: (month ++ 45 :: (day ++ t :: (hour ++ 58 :: (minute ++ 58 ::
      (second ++ b.drop 19))))) := by
    rw [← hsecond, ← drop_byte hcolon', ← hminute, ← drop_byte hcolon, ← hhour, ← drop_byte hbyte,
      ← hday, ← drop_byte hdash', ← hmonth, ← drop_byte hdash, List.take_append_drop]
  split at htail
  · rename_i hdot
    simp only [Bool.and_eq_true, decide_eq_true_eq, Bool.not_eq_true', List.isEmpty_eq_false_iff]
      at htail
    obtain ⟨⟨hne, hle⟩, hzone⟩ := htail
    obtain ⟨o, hzone⟩ := offsetShape_zone hzone
    obtain ⟨n, hds'⟩ := exists_spells rfl (takeWhile_digits (b.drop 20))
    have hsplit : b.drop 19 = (46 :: (b.drop 20).takeWhile isDigitByte) ++
        b.drop (20 + ((b.drop 20).takeWhile isDigitByte).length) := by
      have hfraction := List.prefix_iff_eq_append.mp
        (List.takeWhile_prefix isDigitByte (l := b.drop 20))
      rw [List.drop_drop] at hfraction
      rw [drop_byte hdot, List.cons_append, hfraction]
    rw [hsplit] at hb
    rw [hb]
    exact ⟨_, .intro hys hmos hds ht hhs hmis hss
      (.some hds' (List.length_pos_iff.mpr hne) hle) hzone⟩
  · obtain ⟨o, hzone⟩ := offsetShape_zone htail
    rw [hb]
    exact ⟨_, .intro hys hmos hds ht hhs hmis hss .none hzone⟩

/-! ### Reading a text by its places -/

/-- `num`, which stops when the range leaves the text or a byte is below `0`. -/
def numIndexed (b : List UInt8) (i n : Nat) : Option Int :=
  if i + n ≤ b.length ∧ ((b.drop i).take n).all (fun d => decide (48 ≤ d)) then some (num b i n)
  else none

/-- Where the zone stands. -/
def zonePlace (b : List UInt8) : Nat :=
  if byteAt b 19 == some 46 then 20 + (fractionDigits b).length else 19

def offsetSecondsIndexed (b : List UInt8) : Option Int := do
  let i := zonePlace b
  let sign ← byteAt b i
  if sign = 90 ∨ sign = 122 then some 0
  else do
    let hours ← numIndexed b (i + 1) 2
    let minutes ← numIndexed b (i + 4) 2
    let magnitude := hours * 3600 + minutes * 60
    some (if sign == 45 then -magnitude else magnitude)

/-- An `i64`, unless the arithmetic overflows. -/
def i64 (n : Int) : Option Int :=
  if -9223372036854775808 ≤ n ∧ n < 9223372036854775808 then some n else none

/-- `unix_nanos` where every index is checked to lie in the text. -/
def unixNanosIndexed (t : Timestamp) : Option Int := do
  let b := t.text.toUTF8.toList
  let year ← numIndexed b 0 4
  let month ← numIndexed b 5 2
  let day ← numIndexed b 8 2
  let hour ← numIndexed b 11 2
  let minute ← numIndexed b 14 2
  let second ← numIndexed b 17 2
  let offset ← offsetSecondsIndexed b
  let seconds ← i64 (daysFromCivil year month day * 86400 + hour * 3600 + minute * 60 + second -
    offset)
  some (seconds * 1000000000 + nanos b)

theorem digits_lt (ds : List UInt8) (h : ∀ d ∈ ds, isDigitByte d = true) (n : Nat) :
    ds.foldl (fun acc d => acc * 10 + digitValue d) n < (n + 1) * 10 ^ ds.length := by
  induction ds generalizing n with
  | nil => simp
  | cons d ds ih =>
    obtain ⟨hd, hds⟩ := List.forall_mem_cons.mp h
    have hrest := ih hds (n * 10 + digitValue d)
    have hle : digitValue d + 1 ≤ 10 := by
      simp only [isDigitByte, Bool.and_eq_true, decide_eq_true_eq, UInt8.le_iff_toNat_le] at hd
      have hnine : (57 : UInt8).toNat = 57 := rfl
      unfold digitValue
      omega
    calc (d :: ds).foldl (fun acc d => acc * 10 + digitValue d) n
        < (n * 10 + digitValue d + 1) * 10 ^ ds.length := hrest
      _ ≤ (n + 1) * 10 * 10 ^ ds.length := Nat.mul_le_mul_right _ (by omega)
      _ = (n + 1) * 10 ^ (d :: ds).length := by rw [List.length_cons, Nat.pow_succ', Nat.mul_assoc]

theorem Spells.lt {ds : List UInt8} {len n : Nat} (h : Spells ds len n) : n < 10 ^ len := by
  have hlt := digits_lt ds h.digits 0
  rwa [h.value, h.length_eq, Nat.zero_add, Nat.one_mul] at hlt

theorem digits_cast (ds : List UInt8) (n : Nat) :
    ds.foldl (fun (acc : Int) d => acc * 10 + digitValue d) n =
      (ds.foldl (fun acc d => acc * 10 + digitValue d) n : Nat) := by
  induction ds generalizing n with
  | nil => rfl
  | cons d ds ih =>
    rw [List.foldl_cons, List.foldl_cons, ← ih]
    push_cast
    rfl

theorem numIndexed_spelled (pre : List UInt8) {b ds t : List UInt8} {i len n : Nat}
    (h : Spells ds len n) (hb : b = pre ++ (ds ++ t)) (hi : pre.length = i) :
    numIndexed b i len = some (n : Int) := by
  have hrange : (b.drop i).take len = ds := by
    rw [hb, ← hi, List.drop_left, ← h.length_eq, List.take_left]
  have hlen : i + len ≤ b.length := by
    have hds := h.length_eq
    rw [hb, List.length_append, List.length_append]
    omega
  have hall : ds.all (fun d => decide (48 ≤ d)) = true := by
    rw [List.all_eq_true]
    intro d hd
    have hdigit := h.digits d hd
    simp only [isDigitByte, Bool.and_eq_true, decide_eq_true_eq] at hdigit
    exact decide_eq_true hdigit.1
  unfold numIndexed num
  rw [hrange, if_pos ⟨hlen, hall⟩, ← h.value]
  exact congrArg some (digits_cast ds 0)

theorem num_of_numIndexed {b : List UInt8} {i n : Nat} {v : Int} (h : numIndexed b i n = some v) :
    num b i n = v := by
  unfold numIndexed at h
  split at h
  · cases h
    rfl
  · cases h

theorem byteAt_append {b pre post : List UInt8} {c : UInt8} {i : Nat} (hb : b = pre ++ c :: post)
    (hi : pre.length = i) : byteAt b i = some c := by
  rw [byteAt, hb, ← hi]
  simp

theorem Zone.head {z : List UInt8} {o : Int} (h : Zone z o) :
    ∃ c rest, z = c :: rest ∧ c ≠ 46 ∧ isDigitByte c = false := by
  cases h with
  | utc hz => rcases hz with rfl | rfl <;> exact ⟨_, [], rfl, by decide, by decide⟩
  | east => exact ⟨43, _, rfl, by decide, by decide⟩
  | west => exact ⟨45, _, rfl, by decide, by decide⟩

theorem fraction_read (pre : List UInt8) {b f z : List UInt8} {n : Nat} {o : Int}
    (hf : Fraction f n)
    (hz : Zone z o) (hb : b = pre ++ (f ++ z)) (hpre : pre.length = 19) :
    nanos b = n ∧ (pre ++ f).length = zonePlace b := by
  obtain ⟨c, rest, rfl, hdot, hdigit⟩ := hz.head
  cases hf with
  | none =>
    have hbyte := byteAt_append (c := c) hb hpre
    have hne : (byteAt b 19 == some 46) = false := by
      rw [hbyte]
      simpa using hdot
    have hdigits : fractionDigits b = [] := by simp [fractionDigits, hne]
    exact ⟨by simp [nanos, hdigits], by simp [zonePlace, hne, hpre]⟩
  | @some ds len n h hpos hle =>
    have hbyte : byteAt b 19 = some 46 := byteAt_append hb hpre
    have hdrop : b.drop 20 = ds ++ c :: rest := by
      rw [hb, show 20 = pre.length + 1 by rw [hpre], ← List.drop_drop, List.drop_left]
      rfl
    have hdigits : fractionDigits b = ds := by
      rw [fractionDigits, hbyte, hdrop, List.takeWhile_append_of_pos h.digits]
      simp [hdigit]
    constructor
    · have hvalue := digits_cast ds 0
      rw [h.value] at hvalue
      rw [nanos, hdigits, h.length_eq]
      push_cast
      exact congrArg (· * 10 ^ (9 - len)) hvalue
    · rw [zonePlace, hbyte, hdigits]
      simp only [beq_self_eq_true, if_true, List.length_append, List.length_cons]
      omega

theorem zone_numbers {b pre hh mm : List UInt8} {sign : UInt8} {h m : Nat} (hhours : Spells hh 2 h)
    (hminutes : Spells mm 2 m) (hb : b = pre ++ sign :: (hh ++ 58 :: mm))
    (hpre : pre.length = zonePlace b) : numIndexed b (zonePlace b + 1) 2 = some (h : Int) ∧
      numIndexed b (zonePlace b + 4) 2 = some (m : Int) := by
  constructor
  · exact numIndexed_spelled (pre ++ [sign]) hhours (by simpa using hb) (by simp [hpre])
  · exact numIndexed_spelled (t := []) (pre ++ sign :: (hh ++ [58])) hminutes
      (by simpa using hb) (by simp [hpre, hhours.length_eq])

theorem zone_read {b pre z : List UInt8} {o : Int} (hz : Zone z o) (hb : b = pre ++ z)
    (hpre : pre.length = zonePlace b) :
    offsetSecondsIndexed b = some o ∧ -366000 ≤ o ∧ o ≤ 366000 := by
  cases hz with
  | utc hz =>
    refine ⟨?_, by decide, by decide⟩
    have hbyte := byteAt_append hb hpre
    unfold offsetSecondsIndexed
    rcases hz with rfl | rfl
    · simp [hbyte]
    · simp [hbyte]
  | east hhours hminutes =>
    obtain ⟨hhs, hms⟩ := zone_numbers hhours hminutes hb hpre
    have hlt := hhours.lt
    have hlt' := hminutes.lt
    refine ⟨?_, by omega, by omega⟩
    unfold offsetSecondsIndexed
    simp only [byteAt_append hb hpre, hhs, hms, Option.bind_eq_bind, Option.bind_some]
    rfl
  | west hhours hminutes =>
    obtain ⟨hhs, hms⟩ := zone_numbers hhours hminutes hb hpre
    have hlt := hhours.lt
    have hlt' := hminutes.lt
    refine ⟨?_, by omega, by omega⟩
    unfold offsetSecondsIndexed
    simp only [byteAt_append hb hpre, hhs, hms, Option.bind_eq_bind, Option.bind_some]
    rfl

theorem daysFromCivil_bounds {y m d : Nat} (hy : y < 10000) (hm : m < 100) (hd : d < 100) :
    -1000000 ≤ daysFromCivil y m d ∧ daysFromCivil y m d ≤ 4000000 := by
  have hmarch : 0 ≤ marchDays m ∧ marchDays m ≤ 400 := by
    unfold marchDays
    rw [Int.tmod_eq_emod_of_nonneg (by omega), Int.tdiv_eq_ediv_of_nonneg (by omega)]
    omega
  rw [daysFromCivil_unfold]
  change _ ≤ _ + (marchDays m + d - 1) - 719468 ∧ _ + (marchDays m + d - 1) - 719468 ≤ _
  split
  · rw [yearDays_eq (by omega)]
    omega
  · rw [yearDays_eq (by omega)]
    omega

/-- The formula of `unix_nanos` on the parts of a moment. -/
def Moment.formula (m : Moment) : Int :=
  (daysFromCivil m.date.year m.date.month m.date.day * 86400 + m.hour * 3600 + m.minute * 60 +
    m.second - m.offset) * 1000000000 + m.nanos

theorem names_read {t : Timestamp} {m : Moment} (h : Names t.text.toUTF8.toList m) :
    t.unixNanosIndexed = some m.formula := by
  unfold unixNanosIndexed
  generalize t.text.toUTF8.toList = b at h
  cases h with
  | @intro year month day hour minute second fraction zone c y mo d h mi s n o hyear hmonth hday ht
      hhour hminute hsecond hfraction hzone =>
    have ly := hyear.length_eq
    have lmo := hmonth.length_eq
    have ld := hday.length_eq
    have lh := hhour.length_eq
    have lmi := hminute.length_eq
    have ls := hsecond.length_eq
    generalize hb : year ++ 45 :: (month ++ 45 :: (day ++ c :: (hour ++ 58 :: (minute ++ 58 ::
      (second ++ (fraction ++ zone)))))) = b
    have hb := hb.symm
    have ry := numIndexed_spelled (i := 0) [] hyear hb rfl
    have rmo := numIndexed_spelled (i := 5) (year ++ [45]) hmonth (by simpa using hb)
      (by simp [ly])
    have rd := numIndexed_spelled (i := 8) (year ++ 45 :: (month ++ [45])) hday
      (by simpa using hb) (by simp [ly, lmo])
    have rh := numIndexed_spelled (i := 11) (year ++ 45 :: (month ++ 45 :: (day ++ [c])))
      hhour (by simpa using hb) (by simp [ly, lmo, ld])
    have rmi := numIndexed_spelled (i := 14)
      (year ++ 45 :: (month ++ 45 :: (day ++ c :: (hour ++ [58])))) hminute
      (by simpa using hb) (by simp [ly, lmo, ld, lh])
    have rs := numIndexed_spelled (i := 17)
      (year ++ 45 :: (month ++ 45 :: (day ++ c :: (hour ++ 58 :: (minute ++ [58])))))
      hsecond (by simpa using hb) (by simp [ly, lmo, ld, lh, lmi])
    obtain ⟨rn, hplace⟩ := fraction_read
      (year ++ 45 :: (month ++ 45 :: (day ++ c :: (hour ++ 58 :: (minute ++ 58 :: second)))))
      hfraction hzone (by simpa using hb) (by simp [ly, lmo, ld, lh, lmi, ls])
    obtain ⟨ro, holow, hohigh⟩ := zone_read hzone (by simpa using hb) hplace
    have hdays := daysFromCivil_bounds hyear.lt hmonth.lt hday.lt
    have hlh := hhour.lt
    have hlmi := hminute.lt
    have hls := hsecond.lt
    simp only [ry, rmo, rd, rh, rmi, rs, ro, rn, Option.bind_eq_bind, Option.bind_some]
    unfold i64
    rw [if_pos (by omega)]
    rfl

theorem offsetSeconds_eq {b : List UInt8} {sign : UInt8} (h : byteAt b (zonePlace b) = some sign) :
    offsetSeconds b = if sign = 90 ∨ sign = 122 then 0 else
      if sign == 45 then -(num b (zonePlace b + 1) 2 * 3600 + num b (zonePlace b + 4) 2 * 60)
      else num b (zonePlace b + 1) 2 * 3600 + num b (zonePlace b + 4) 2 * 60 := by
  have hplace : (if byteAt b 19 == some 46 then 20 + (fractionDigits b).length else 19) =
      zonePlace b := rfl
  unfold offsetSeconds
  simp only [hplace, h]
  split
  · rename_i hz
    cases hz
    rfl
  · rename_i hz
    cases hz
    rfl
  · rename_i hz hz' hsign
    cases hsign
    have hother : ¬ (sign = 90 ∨ sign = 122) := by
      rintro (rfl | rfl)
      · exact hz rfl
      · exact hz' rfl
    rw [if_neg hother]
  · rename_i hz
    cases hz

theorem offsetSeconds_of_indexed {b : List UInt8} {v : Int} (h : offsetSecondsIndexed b = some v) :
    offsetSeconds b = v := by
  unfold offsetSecondsIndexed at h
  obtain ⟨sign, hsign, h⟩ := Option.bind_eq_some_iff.mp h
  rw [offsetSeconds_eq hsign]
  split at h
  · rename_i hutc
    cases h
    exact if_pos hutc
  · rename_i hother
    obtain ⟨hours, hhours, h⟩ := Option.bind_eq_some_iff.mp h
    obtain ⟨minutes, hminutes, h⟩ := Option.bind_eq_some_iff.mp h
    rw [if_neg hother, num_of_numIndexed hhours, num_of_numIndexed hminutes]
    cases h
    rfl

theorem unixNanos_of_indexed {t : Timestamp} {v : Int} (h : t.unixNanosIndexed = some v) :
    t.unixNanos = v := by
  unfold unixNanosIndexed at h
  simp only [Option.bind_eq_bind, Option.bind_eq_some_iff] at h
  obtain ⟨year, hyear, month, hmonth, day, hday, hour, hhour, minute, hminute, second, hsecond,
    offset, hoffset, seconds, hseconds, hv⟩ := h
  unfold i64 at hseconds
  split at hseconds
  · cases hseconds
    cases hv
    unfold unixNanos
    simp only [num_of_numIndexed hyear, num_of_numIndexed hmonth, num_of_numIndexed hday,
      num_of_numIndexed hhour, num_of_numIndexed hminute, num_of_numIndexed hsecond,
      offsetSeconds_of_indexed hoffset]
  · cases hseconds

/-! ### The order of instants -/

/-- The moment a text spells, when its date is on the calendar and its second is no leap second. -/
structure Tells (t : Timestamp) (m : Moment) : Prop where
  names : Names t.text.toUTF8.toList m
  date : m.date.Valid
  second : m.second < 60

theorem at_iff {m : Moment} (h : m.date.Valid) (n : Int) : m.At n ↔ n = m.formula := by
  have hdays : daysFromCivil m.date.year m.date.month m.date.day =
      (m.date.count : Int) - epoch.count :=
    daysFromCivil_eq m.date.day h.month_pos h.month_le h.day_pos
  constructor
  · rintro ⟨days, hdays', rfl⟩
    rw [elapsed_iff epoch_valid h, ← hdays] at hdays'
    rw [hdays']
    rfl
  · rintro rfl
    refine ⟨(m.date.count : Int) - epoch.count, (elapsed_iff epoch_valid h).mpr rfl, ?_⟩
    rw [← hdays]
    rfl

theorem unixNanos_eq {t : Timestamp} {m : Moment} (h : Names t.text.toUTF8.toList m) :
    t.unixNanos = m.formula :=
  unixNanos_of_indexed (names_read h)

theorem instants_exact (t : Timestamp) :
    t.unixNanosIndexed = some t.unixNanos ∧ (∃ m, Names t.text.toUTF8.toList m) ∧
      ∀ m, t.Tells m → m.At t.unixNanos ∧
        ∀ (other : Timestamp) (m' : Moment) (n n' : Int), other.Tells m' → m.At n → m'.At n' →
          (t.isBefore other = true ↔ n < n') := by
  obtain ⟨m, hm⟩ := shape_names t.valid
  refine ⟨by rw [names_read hm, unixNanos_eq hm], ⟨m, hm⟩, ?_⟩
  intro m h
  refine ⟨(at_iff h.date _).mpr (unixNanos_eq h.names), ?_⟩
  intro other m' n n' h' hn hn'
  rw [at_iff h.date] at hn
  rw [at_iff h'.date] at hn'
  rw [isBefore, decide_eq_true_eq, unixNanos_eq h.names, unixNanos_eq h'.names, hn, hn']

end Timestamp

end Checkspan
