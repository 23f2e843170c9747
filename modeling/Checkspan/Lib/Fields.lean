import Mathlib.Data.List.Forall2
import Checkspan.Json

/-!
# Reading JSON values by fields

What `#[derive(Serialize, Deserialize)]` makes of a type: fields by their name, with or
without a default, other names refused, an enumeration by the text of its variant. A codec
holds a reader and a writer together with their law: the value written is read back from the
same document, its entries in any order.
-/

namespace Checkspan
namespace Json

/-! ### Entries -/

/-- The entry of a name: the first, as in a map filled from the back. -/
def entry (fields : List (String × Json)) (name : String) : Option Json := fields.lookup name

/-- What a list field with `skip_serializing_if = "Vec::is_empty"` writes. -/
def present : List Json → Option Json
  | [] => none
  | items => some (arr items)

theorem listField_eq (name : String) (items : List Json) :
    listField name items = optField name (present items) := by
  cases items <;> rfl

@[simp] theorem entry_nil (name : String) : entry [] name = none := rfl

@[simp] theorem entry_cons (f : String × Json) (fields : List (String × Json)) (name : String) :
    entry (f :: fields) name = if name == f.1 then some f.2 else entry fields name := by
  obtain ⟨k, v⟩ := f
  simp only [entry, List.lookup_cons]
  cases name == k <;> rfl

@[simp] theorem entry_append (fs gs : List (String × Json)) (name : String) :
    entry (fs ++ gs) name = (entry fs name).or (entry gs name) :=
  List.lookup_append

@[simp] theorem entry_optField (other : String) (o : Option Json) (name : String) :
    entry (optField other o) name = if name == other then o else none := by
  cases o <;> simp [optField]

theorem entry_mem {fields : List (String × Json)} {name : String} {v : Json}
    (h : entry fields name = some v) : (name, v) ∈ fields := by
  obtain ⟨before, after, hsplit, -⟩ := List.lookup_eq_some_iff.mp h
  rw [hsplit]
  simp

theorem entry_of_mem {fields : List (String × Json)} {f : String × Json} (h : f ∈ fields) :
    entry fields f.1 ≠ none := by
  intro hnone
  have := List.lookup_eq_none_iff.mp hnone f h
  simp at this

/-- Every entry has one of the names. -/
def Known (names : List String) (fields : List (String × Json)) : Prop :=
  ∀ f ∈ fields, f.1 ∈ names

@[simp] theorem known_nil (names : List String) : Known names [] := by
  simp [Known]

@[simp] theorem known_cons (names : List String) (f : String × Json)
    (fields : List (String × Json)) :
    Known names (f :: fields) ↔ f.1 ∈ names ∧ Known names fields := by
  simp [Known]

@[simp] theorem known_append (names : List String) (fs gs : List (String × Json)) :
    Known names (fs ++ gs) ↔ Known names fs ∧ Known names gs := by
  simp [Known, or_imp, forall_and]

@[simp] theorem known_optField (names : List String) (name : String) (o : Option Json) :
    Known names (optField name o) ↔ o = none ∨ name ∈ names := by
  cases o <;> simp [optField]

/-! ### Documents -/

/-- Two trees of one document: an object is the same with its entries in another order. -/
inductive Same : Json → Json → Prop where
  | null : Same null null
  | bool (b : Bool) : Same (bool b) (bool b)
  | num (n : Int) : Same (num n) (num n)
  | float (literal : String) : Same (float literal) (float literal)
  | str (s : String) : Same (str s) (str s)
  | arr {xs ys : List Json} (h : List.Forall₂ Same xs ys) : Same (arr xs) (arr ys)
  | obj {fs gs : List (String × Json)}
      (h : ∀ name, Option.Rel Same (entry fs name) (entry gs name)) : Same (obj fs) (obj gs)

mutual

theorem Same.refl : ∀ j : Json, Same j j
  | .null => .null
  | .bool b => .bool b
  | .num n => .num n
  | .float literal => .float literal
  | .str s => .str s
  | .arr items => .arr (sameItems_refl items)
  | .obj fields => .obj (sameFields_refl fields)

theorem sameItems_refl : ∀ items : List Json, List.Forall₂ Same items items
  | [] => .nil
  | item :: rest => .cons (Same.refl item) (sameItems_refl rest)

theorem sameFields_refl : ∀ (fields : List (String × Json)) (name : String),
    Option.Rel Same (entry fields name) (entry fields name)
  | [], _ => .none
  | (k, v) :: rest, name => by
    rw [entry_cons]
    split
    · exact .some (Same.refl v)
    · exact sameFields_refl rest name

end

/-- The names of an object are those of the same document. -/
theorem known_of_same {fs gs : List (String × Json)}
    (h : ∀ name, Option.Rel Same (entry fs name) (entry gs name)) {names : List String}
    (hk : Known names fs) : Known names gs := by
  intro g hg
  cases hf : entry fs g.1 with
  | none =>
    have hname := h g.1
    rw [hf] at hname
    cases hentry : entry gs g.1 with
    | none => exact absurd hentry (entry_of_mem hg)
    | some w =>
      rw [hentry] at hname
      cases hname
  | some v => exact hk (g.1, v) (entry_mem hf)

/-! ### Readers -/

abbrev Reader (α : Type) := Json → Option α

def readStr : Reader String
  | str s => some s
  | _ => none

def readBool : Reader Bool
  | bool b => some b
  | _ => none

/-- An unsigned integer type of the values below `bound`. -/
def readFin (bound : Nat) : Reader (Fin bound)
  | num n => if h : 0 ≤ n ∧ n.toNat < bound then some ⟨n.toNat, h.2⟩ else none
  | _ => none

/-- A signed integer type of 32 bits. -/
def readInt32 : Reader Int32
  | num n => if -2 ^ 31 ≤ n ∧ n < 2 ^ 31 then some (Int32.ofInt n) else none
  | _ => none

def readList {α : Type} (read : Reader α) : Reader (List α)
  | arr items => items.mapM read
  | _ => none

/-- A variant without data: its text, or an object of that one name. -/
def readVariant {α : Type} (all : List α) (text : α → String) : Reader α
  | str s => all.find? (fun a => text a = s)
  | obj [(s, null)] => all.find? (fun a => text a = s)
  | _ => none

/-- A structure with the fields `names`, in an object that holds no other name. In an array
the fields stand in their order, and those at the end may be left out. -/
def readObject {α : Type} (names : List String) (build : List (String × Json) → Option α) :
    Reader α
  | obj fields => if fields.all (fun f => names.contains f.1) then build fields else none
  | arr items => if items.length ≤ names.length then build (names.zip items) else none
  | _ => none

/-! ### Codecs -/

variable {α β T : Type}

/-- A type as JSON: what is written is read back. `null` is left to mean an absent value. -/
structure Codec (α : Type) where
  read : Reader α
  write : α → Json
  reads : ∀ a j, (write a).Same j → read j = some a
  refusesNull : read null = none

namespace Codec

/-- A type built from text, as with `#[serde(try_from = "String")]`. -/
def text (make : String → Option α) (get : α → String) (hmake : ∀ a, make (get a) = some a) :
    Codec α where
  read j := (readStr j).bind make
  write a := str (get a)
  reads a j h := by
    cases h with
    | str => exact hmake a
  refusesNull := rfl

def string : Codec String := text some id fun _ => rfl

def bool : Codec Bool where
  read := readBool
  write := .bool
  reads b j h := by
    cases h with
    | bool => rfl
  refusesNull := rfl

/-- A type built from an unsigned integer below `bound`. -/
def fin (bound : Nat) (make : Fin bound → Option α) (get : α → Fin bound)
    (hmake : ∀ a, make (get a) = some a) : Codec α where
  read j := (readFin bound j).bind make
  write a := num (get a).val
  reads a j h := by
    cases h with
    | num =>
      have hin := (get a).isLt
      simpa [readFin, hin] using hmake a
  refusesNull := rfl

def int32 : Codec Int32 where
  read := readInt32
  write n := num n.toInt
  reads n j h := by
    cases h with
    | num =>
      have hin : -2 ^ 31 ≤ n.toInt ∧ n.toInt < 2 ^ 31 := ⟨n.le_toInt, n.toInt_lt⟩
      rw [readInt32, if_pos hin, Int32.ofInt_toInt]
  refusesNull := rfl

def variant (all : List α) (text : α → String)
    (hall : ∀ a, all.find? (fun b => text b = text a) = some a) : Codec α where
  read := readVariant all text
  write a := str (text a)
  reads a j h := by
    cases h with
    | str => exact hall a
  refusesNull := rfl

variable (c : Codec α)

theorem reads_items {xs : List α} {ys : List Json}
    (h : List.Forall₂ Same (xs.map c.write) ys) : ys.mapM c.read = some xs := by
  induction xs generalizing ys with
  | nil =>
    cases h
    rfl
  | cons x xs ih =>
    cases h with
    | cons hx hxs => simp [c.reads x _ hx, ih hxs]

def list : Codec (List α) where
  read := readList c.read
  write xs := arr (xs.map c.write)
  reads xs j h := by
    cases h with
    | arr hall => exact c.reads_items hall
  refusesNull := rfl

end Codec

/-! ### Fields -/

/-- How a value stands in an object: what its entry says, and which entry says it. -/
structure Slot (α : Type) where
  read : Option Json → Option α
  write : α → Option Json
  reads : ∀ a found, Option.Rel Same (write a) found → read found = some a

namespace Codec

variable (c : Codec α)

/-- A field without a default. -/
def required : Slot α where
  read found := found.bind c.read
  write a := some (c.write a)
  reads a found h := by
    cases h with
    | some h => exact c.reads a _ h

/-- A field with `#[serde(default)]` that is always written. -/
def defaulted (absent : α) : Slot α where
  read
    | none => some absent
    | some v => c.read v
  write a := some (c.write a)
  reads a found h := by
    cases h with
    | some h => exact c.reads a _ h

/-- `#[serde(default, skip_serializing_if = "Option::is_none")]`. An entry `null` is an absent
value too. -/
def optional : Slot (Option α) where
  read
    | none => some none
    | some null => some none
    | some v => (c.read v).map some
  write a := a.map c.write
  reads a found h := by
    cases a with
    | none =>
      cases h
      rfl
    | some a =>
      cases h with
      | @some _ w h =>
        have hread := c.reads a w h
        cases w with
        | null =>
          rw [c.refusesNull] at hread
          cases hread
        | _ => simp [hread]

/-- `#[serde(default, skip_serializing_if = "Vec::is_empty")]`. -/
def listed : Slot (List α) where
  read
    | none => some []
    | some v => c.list.read v
  write xs := present (xs.map c.write)
  reads xs found h := by
    cases xs with
    | nil =>
      cases h
      rfl
    | cons x xs =>
      cases h with
      | some h => exact c.list.reads (x :: xs) _ h

end Codec

/-! ### Structures -/

/-- Some fields of a structure: their names, how they are written before the fields that
follow, and the value they build when they are read. -/
structure Shape (T α : Type) where
  names : List String
  write : T → List (String × Json) → List (String × Json)
  read : List (String × Json) → Option α
  value : T → α
  follow : ∀ t rest, write t rest = write t [] ++ rest
  known : ∀ t, Known names (write t [])
  reads : ∀ t fields,
    (∀ name ∈ names, Option.Rel Same (entry (write t []) name) (entry fields name)) →
      read fields = some (value t)

/-- A name that no field has. -/
theorem entry_of_known {names : List String} {fields : List (String × Json)}
    (h : Known names fields) {name : String} (hname : name ∉ names) : entry fields name = none := by
  cases hf : entry fields name with
  | none => rfl
  | some v => exact absurd (h _ (entry_mem hf)) hname

namespace Shape

/-- No field yet, before a constructor takes its first argument. -/
def start (make : α) : Shape T α where
  names := []
  write _ rest := rest
  read _ := some make
  value _ := make
  follow _ _ := rfl
  known _ := by simp
  reads _ _ _ := rfl

/-- One field more. -/
def field (s : Shape T (β → α)) (name : String) (slot : Slot β) (get : T → β)
    (fresh : name ∉ s.names := by decide) : Shape T α where
  names := s.names ++ [name]
  write t rest := s.write t (optField name (slot.write (get t)) ++ rest)
  read fields := (s.read fields).bind fun make => (slot.read (entry fields name)).map make
  value t := s.value t (get t)
  follow t rest := by
    rw [s.follow t (_ ++ rest), s.follow t (_ ++ []), List.append_nil, List.append_assoc]
  known t := by
    have hs : Known (s.names ++ [name]) (s.write t []) :=
      fun f hf => List.mem_append_left _ (s.known t f hf)
    rw [s.follow]
    simp [hs]
  reads t fields h := by
    rw [s.follow] at h
    have hs : s.read fields = some (s.value t) := by
      apply s.reads
      intro other hother
      have hne : (other == name) = false := by
        rw [beq_eq_false_iff_ne]
        rintro rfl
        exact fresh hother
      simpa [hne] using h other (List.mem_append_left _ hother)
    have hfield : slot.read (entry fields name) = some (get t) := by
      apply slot.reads
      simpa [entry_of_known (s.known t) fresh] using h name (by simp)
    simp [hs, hfield]

/-- The object of the fields is read back to the value they build. -/
theorem reads_object (s : Shape T α) {t : T} {j : Json} (h : (obj (s.write t [])).Same j) :
    readObject s.names s.read j = some (s.value t) := by
  cases h with
  | obj hsame =>
    rename_i fields
    have hknown := known_of_same hsame (s.known t)
    have hall : fields.all (fun f => s.names.contains f.1) = true := by
      simp only [List.all_eq_true, List.contains_iff_mem]
      exact hknown
    rw [readObject, if_pos hall]
    exact s.reads t fields fun name _ => hsame name

/-- `write` writes these fields. The empty list at the end is what `write` of a shape leaves
after a last field that may be absent. -/
def WrittenBy (s : Shape T α) (write : T → Json) : Prop :=
  ∀ t, ∃ fields, write t = obj fields ∧ fields ++ [] = s.write t []

theorem WrittenBy.eq {s : Shape T α} {write : T → Json} (h : s.WrittenBy write) (t : T) :
    write t = obj (s.write t []) := by
  obtain ⟨fields, hwrite, hfields⟩ := h t
  rw [hwrite, ← hfields, List.append_nil]

/-- The structure whose fields these are. -/
def codec (s : Shape T T) (write : T → Json)
    (hwrite : s.WrittenBy write := by exact fun _ => ⟨_, rfl, rfl⟩)
    (hvalue : ∀ t, s.value t = t := by exact fun _ => rfl) : Codec T where
  read := readObject s.names s.read
  write := write
  reads t j h := by
    rw [hwrite.eq t] at h
    rw [s.reads_object h, hvalue t]
  refusesNull := rfl

end Shape

end Json
end Checkspan
