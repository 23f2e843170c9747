import Checkspan.Digests
import Checkspan.Lib.Pointer

/-!
# Strict parsing (`src/validation/parse.rs`)

`serde_json` reads a text and calls a visitor for each value it meets; the visitor counts
containers and keeps the keys of each object. The first refusal is left in a slot that all
visitors of one parse share, and the slot wins over the error that serde carries out.
-/

namespace Checkspan

inductive ParseErrorKind where
  | syntaxError
  | depth
  | duplicateKey
deriving DecidableEq

structure ParseError where
  kind : ParseErrorKind
  path : String
  message : String
deriving DecidableEq

/-- An `f64`, and whether it is a number. -/
structure Float64 where
  literal : String
  finite : Bool

/-- The calls `serde_json` makes while it reads a value. An array or object is left by its
closing bracket or by an error; keys come as they read after unescaping. -/
inductive Visit where
  | null
  | bool (b : Bool)
  | int (n : Int)
  | float (v : Float64)
  | str (s : String)
  | seq (items : List Visit) (stop : Option String)
  | map (members : List (String × Visit)) (stop : Option String)
  | error (err : String)

/-- `serde_json`'s side of a parse. -/
structure Deserializer where
  /-- How many containers it opens inside one another. -/
  opens : Nat
  visit : String → Visit
  /-- `end`: the error when more than whitespace follows the value. -/
  trailing : String → Option String

/-- A computation of the visitors, with the slot they share. -/
abbrev Parse := ExceptT String (StateM (Option ParseError))

structure StrictValue where
  depth : Nat
  maxDepth : Nat
  path : String

namespace StrictValue

def child (self : StrictValue) (segment : String) : StrictValue :=
  { self with depth := self.depth + 1, path := pointerPush self.path segment }

def fail {α : Type} (self : StrictValue) (kind : ParseErrorKind) (message : String) : Parse α := do
  set (some (⟨kind, self.path, message⟩ : ParseError))
  throw message

def enterContainer (self : StrictValue) : Parse Unit :=
  if self.depth + 1 > self.maxDepth then
    self.fail .depth ("nesting exceeds the limit of " ++ toString self.maxDepth ++ " levels")
  else pure ()

/-- `serde_json` refuses a container before it calls the visitor. -/
def checkRecursion (opens : Nat) (self : StrictValue) : Parse Unit :=
  if opens ≤ self.depth then throw "recursion limit exceeded" else pure ()

mutual

def deserialize (opens : Nat) (self : StrictValue) : Visit → Parse Json
  | .null => pure .null
  | .bool b => pure (.bool b)
  | .int n => pure (.num n)
  | .float v =>
    if v.finite then pure (.float v.literal)
    else self.fail .syntaxError ("number " ++ v.literal ++ " cannot be represented")
  | .str s => pure (.str s)
  | .error err => throw err
  | .seq items stop => do
    self.checkRecursion opens
    self.enterContainer
    let items ← visitSeq opens self 0 stop items
    pure (.arr items)
  | .map members stop => do
    self.checkRecursion opens
    self.enterContainer
    let object ← visitMap opens self [] stop members
    pure (.obj object)

def visitSeq (opens : Nat) (self : StrictValue) (index : Nat) (stop : Option String) :
    List Visit → Parse (List Json)
  | [] =>
    match stop with
    | some err => throw err
    | none => pure []
  | item :: rest => do
    let value ← deserialize opens (self.child (toString index)) item
    let items ← visitSeq opens self (index + 1) stop rest
    pure (value :: items)

def visitMap (opens : Nat) (self : StrictValue) (object : List (String × Json))
    (stop : Option String) : List (String × Visit) → Parse (List (String × Json))
  | [] =>
    match stop with
    | some err => throw err
    | none => pure object
  | (key, value) :: rest =>
    if object.any (fun field => field.1 == key) then
      (self.child key).fail .duplicateKey
        ("key " ++ key.quote ++ " appears more than once in one object")
    else do
      let value ← deserialize opens (self.child key) value
      visitMap opens self (object ++ [(key, value)]) stop rest

end

end StrictValue

def parseStrict (serde : Deserializer) (text : String) (maxDepth : Nat) : Except ParseError Json :=
  let seed : StrictValue := { depth := 0, maxDepth := maxDepth, path := "" }
  let (result, slot) := (seed.deserialize serde.opens (serde.visit text)).run none
  match slot with
  | some structured => .error structured
  | none =>
    match result with
    | .error err => .error ⟨.syntaxError, "", err⟩
    | .ok value =>
      match serde.trailing text with
      | some err => .error ⟨.syntaxError, "", err⟩
      | none => .ok value

/-! ### Documents and their violations -/

namespace Visit

/-- A whole document: nothing stopped the reading, and its numbers are numbers. -/
inductive Complete : Visit → Prop
  | null : Complete null
  | bool (b : Bool) : Complete (bool b)
  | int (n : Int) : Complete (int n)
  | float {v : Float64} (h : v.finite = true) : Complete (float v)
  | str (s : String) : Complete (str s)
  | seq {items : List Visit} (h : ∀ item ∈ items, Complete item) : Complete (seq items none)
  | map {members : List (String × Visit)} (h : ∀ member ∈ members, Complete member.2) :
      Complete (map members none)

mutual

def value : Visit → Json
  | null => .null
  | bool b => .bool b
  | int n => .num n
  | float v => .float v.literal
  | str s => .str s
  | seq items _ => .arr (values items)
  | map members _ => .obj (fields members)
  | error _ => .null

def values : List Visit → List Json
  | [] => []
  | item :: rest => item.value :: values rest

def fields : List (String × Visit) → List (String × Json)
  | [] => []
  | (key, v) :: rest => (key, v.value) :: fields rest

end

def isMap : Visit → Bool
  | map _ _ => true
  | _ => false

def isContainer : Visit → Bool
  | seq _ _ => true
  | map _ _ => true
  | _ => false

/-- The values inside a container, each under its index or key. -/
def children : Visit → List (String × Visit)
  | seq items _ => items.mapIdx (fun i item => (toString i, item))
  | map members _ => members
  | _ => []

/-- The way to a value, by places and by the indexes and keys that stand there. -/
inductive Leads : Visit → List Nat → List String → Visit → Prop
  | here (v : Visit) : Leads v [] [] v
  | child {v c w : Visit} {i : Nat} {pos : List Nat} {label : String} {labels : List String}
      (hchild : v.children[i]? = some (label, c)) (h : Leads c pos labels w) :
      Leads v (i :: pos) (label :: labels) w

/-- No object repeats a key. -/
def Unrepeated (v : Visit) : Prop :=
  ∀ pos labels w, v.Leads pos labels w → w.isMap = true → (w.children.map Prod.fst).Nodup

/-- No value nests more than `maxDepth` containers. -/
def Within (maxDepth : Nat) (v : Visit) : Prop :=
  ∀ pos labels w, v.Leads pos labels w → w.isContainer = true → pos.length + 1 ≤ maxDepth

/-- What the parser refuses, at its place: a container that is one too many, or a key that
stands before in its object. -/
inductive Violation (maxDepth : Nat) : Nat → Visit → List Nat → ParseErrorKind → Prop
  | deep {depth : Nat} {v : Visit} (hv : v.isContainer = true) (h : depth + 1 > maxDepth) :
      Violation maxDepth depth v [] .depth
  | repeated {depth i j : Nat} {v c c' : Visit} {key : String} (hv : v.isMap = true) (hlt : j < i)
      (hi : v.children[i]? = some (key, c)) (hj : v.children[j]? = some (key, c')) :
      Violation maxDepth depth v [i] .duplicateKey
  | inside {depth i : Nat} {v c : Visit} {pos : List Nat} {label : String} {kind : ParseErrorKind}
      (hchild : v.children[i]? = some (label, c)) (h : Violation maxDepth (depth + 1) c pos kind) :
      Violation maxDepth depth v (i :: pos) kind

/-- Reading order: a container before what is in it, a key before its value. -/
def Precedes (pos : List Nat) (kind : ParseErrorKind) (pos' : List Nat) (kind' : ParseErrorKind) :
    Prop :=
  pos < pos' ∨ (pos = pos' ∧ (kind = .duplicateKey ∨ kind = kind'))

structure First (maxDepth depth : Nat) (v : Visit) (pos : List Nat) (kind : ParseErrorKind) :
    Prop where
  violation : Violation maxDepth depth v pos kind
  least : ∀ pos' kind', Violation maxDepth depth v pos' kind' → Precedes pos kind pos' kind'

end Visit

/-! ### What a visitor leaves behind -/

theorem Parse.run_bind {α β : Type} (x : Parse α) (f : α → Parse β) :
    (x >>= f).run none = ExceptT.bindCont f (x.run none).1 (x.run none).2 := rfl

theorem Parse.bind_ok {α β : Type} {x : Parse α} {f : α → Parse β} {a : α}
    (h : x.run none = (.ok a, none)) : (x >>= f).run none = (f a).run none := by
  rw [Parse.run_bind, h]
  rfl

theorem Parse.bind_error {α β : Type} {x : Parse α} {f : α → Parse β} {err : String}
    {slot : Option ParseError} (h : x.run none = (.error err, slot)) :
    (x >>= f).run none = (.error err, slot) := by
  rw [Parse.run_bind, h]
  rfl

namespace Visit

theorem violation_child {maxDepth depth n : Nat} {v c : Visit} {label : String} {pos : List Nat}
    {kind : ParseErrorKind} (hchild : v.children[n]? = some (label, c))
    (h : Violation maxDepth depth v (n :: pos) kind) :
    Violation maxDepth (depth + 1) c pos kind ∨ (pos = [] ∧ kind = .duplicateKey ∧
      v.isMap = true ∧ ∃ j c', j < n ∧ v.children[j]? = some (label, c')) := by
  cases h with
  | repeated hv hlt hi hj =>
    rw [hchild] at hi
    cases hi
    exact Or.inr ⟨rfl, rfl, hv, _, _, hlt, hj⟩
  | inside hchild' h =>
    rw [hchild] at hchild'
    cases hchild'
    exact Or.inl h

theorem violation_place {maxDepth depth i : Nat} {v : Visit} {pos : List Nat}
    {kind : ParseErrorKind} (h : Violation maxDepth depth v (i :: pos) kind) :
    i < v.children.length := by
  cases h with
  | repeated _ _ hi _ => exact (List.getElem?_eq_some_iff.mp hi).1
  | inside hchild _ => exact (List.getElem?_eq_some_iff.mp hchild).1

/-- Nothing is refused in the first `n` children. -/
def ClearTo (maxDepth depth : Nat) (v : Visit) (n : Nat) : Prop :=
  ∀ i pos kind, Violation maxDepth depth v (i :: pos) kind → n ≤ i

/-- The label of the child at `n` is new, unless the labels are indexes. -/
def NewAt (v : Visit) (label : String) (n : Nat) : Prop :=
  v.isMap = true → ∀ j c, v.children[j]? = some (label, c) → n ≤ j

section
variable {maxDepth depth n : Nat} {v c : Visit} {label : String}

theorem ClearTo.none (hroot : depth + 1 ≤ maxDepth) (h : ClearTo maxDepth depth v v.children.length)
    (pos : List Nat) (kind : ParseErrorKind) : ¬ Violation maxDepth depth v pos kind := by
  intro hviolation
  cases pos with
  | nil =>
    cases hviolation with
    | deep _ hdeep => omega
  | cons i pos =>
    have hle := h i pos kind hviolation
    have hlt := violation_place hviolation
    omega

theorem ClearTo.succ (h : ClearTo maxDepth depth v n) (hchild : v.children[n]? = some (label, c))
    (hnew : NewAt v label n) (hc : ∀ pos kind, ¬ Violation maxDepth (depth + 1) c pos kind) :
    ClearTo maxDepth depth v (n + 1) := by
  intro i pos kind hviolation
  have hle := h i pos kind hviolation
  by_cases heq : i = n
  · subst heq
    rcases violation_child hchild hviolation with hin | ⟨-, -, hv, j, c', hlt, hj⟩
    · exact absurd hin (hc pos kind)
    · have := hnew hv j c' hj
      omega
  · omega

theorem precedes_of_clear (hroot : depth + 1 ≤ maxDepth) (h : ClearTo maxDepth depth v n)
    {pos : List Nat} {kind : ParseErrorKind}
    (hn : ∀ pos' kind', Violation maxDepth depth v (n :: pos') kind' →
      Precedes (n :: pos) kind (n :: pos') kind')
    (pos' : List Nat) (kind' : ParseErrorKind)
    (hviolation : Violation maxDepth depth v pos' kind') :
    Precedes (n :: pos) kind pos' kind' := by
  cases pos' with
  | nil =>
    cases hviolation with
    | deep _ hdeep => omega
  | cons i pos' =>
    have hle := h i pos' kind' hviolation
    by_cases heq : i = n
    · subst heq
      exact hn pos' kind' hviolation
    · exact Or.inl (List.cons_lt_cons_iff.mpr (Or.inl (by omega)))

theorem First.inside (hroot : depth + 1 ≤ maxDepth) (h : ClearTo maxDepth depth v n)
    (hchild : v.children[n]? = some (label, c)) (hnew : NewAt v label n) {pos : List Nat}
    {kind : ParseErrorKind} (hfirst : First maxDepth (depth + 1) c pos kind) :
    First maxDepth depth v (n :: pos) kind where
  violation := .inside hchild hfirst.violation
  least := by
    refine precedes_of_clear hroot h ?_
    intro pos' kind' hviolation
    rcases violation_child hchild hviolation with hin | ⟨-, -, hv, j, c', hlt, hj⟩
    · rcases hfirst.least pos' kind' hin with hlt | ⟨rfl, hkind⟩
      · exact Or.inl (List.cons_lt_cons_iff.mpr (Or.inr ⟨rfl, hlt⟩))
      · exact Or.inr ⟨rfl, hkind⟩
    · have := hnew hv j c' hj
      omega

theorem First.repeated (hroot : depth + 1 ≤ maxDepth) (h : ClearTo maxDepth depth v n)
    (hv : v.isMap = true) (hchild : v.children[n]? = some (label, c)) {j : Nat} {c' : Visit}
    (hlt : j < n) (hj : v.children[j]? = some (label, c')) :
    First maxDepth depth v [n] .duplicateKey where
  violation := .repeated hv hlt hchild hj
  least := by
    refine precedes_of_clear hroot h ?_
    intro pos' kind' _
    cases pos' with
    | nil => exact Or.inr ⟨rfl, Or.inl rfl⟩
    | cons k pos' =>
      exact Or.inl (List.cons_lt_cons_iff.mpr (Or.inr ⟨rfl, List.nil_lt_cons k pos'⟩))

end

end Visit

/-- How the visitor `self` comes out of reading `v`, whose value is `a`. -/
inductive Outcome {α : Type} (self : StrictValue) (v : Visit) (a : α) :
    Except String α × Option ParseError → Prop
  | read (hv : v.Complete) (h : ∀ pos kind, ¬ v.Violation self.maxDepth self.depth pos kind) :
      Outcome self v a (.ok a, none)
  | refused {err : String} {e : ParseError} {pos : List Nat} {labels : List String} {w : Visit}
      (hfirst : v.First self.maxDepth self.depth pos e.kind) (hleads : v.Leads pos labels w)
      (hpath : e.path = Pointer.render self.path labels) : Outcome self v a (.error err, some e)
  | stopped {err : String} {slot : Option ParseError} (hv : ¬ v.Complete)
      (hslot : ∀ e, slot = some e → e.kind = .syntaxError) : Outcome self v a (.error err, slot)

namespace Outcome

theorem map {α β : Type} {self : StrictValue} {v : Visit} {a : α} {x : Parse α}
    (h : Outcome self v a (x.run none)) (g : α → β) :
    Outcome self v (g a) ((x >>= fun a => pure (g a)).run none) := by
  generalize hx : x.run none = r at h
  cases h with
  | read hv hclear =>
    rw [Parse.bind_ok hx]
    exact .read hv hclear
  | refused hfirst hleads hpath =>
    rw [Parse.bind_error hx]
    exact .refused hfirst hleads hpath
  | stopped hv hslot =>
    rw [Parse.bind_error hx]
    exact .stopped hv hslot

theorem child {α β : Type} {self : StrictValue} {v c : Visit} {label : String} {n : Nat} {a : α}
    {b : β} {x : Parse α} {f : α → Parse β} (hroot : self.depth + 1 ≤ self.maxDepth)
    (hclear : v.ClearTo self.maxDepth self.depth n) (hchild : v.children[n]? = some (label, c))
    (hnew : v.NewAt label n) (hcomplete : v.Complete → c.Complete)
    (h : Outcome (self.child label) c a (x.run none))
    (hrest : c.Complete → v.ClearTo self.maxDepth self.depth (n + 1) →
      Outcome self v b ((f a).run none)) : Outcome self v b ((x >>= f).run none) := by
  generalize hx : x.run none = r at h
  cases h with
  | read hv hno =>
    rw [Parse.bind_ok hx]
    exact hrest hv (hclear.succ hchild hnew hno)
  | refused hfirst hleads hpath =>
    rw [Parse.bind_error hx]
    exact .refused (.inside hroot hclear hchild hnew hfirst) (.child hchild hleads) hpath
  | stopped hv hslot =>
    rw [Parse.bind_error hx]
    exact .stopped (fun hcomplete' => hv (hcomplete hcomplete')) hslot

end Outcome

namespace StrictValue

theorem run_fail {α : Type} (self : StrictValue) (kind : ParseErrorKind) (message : String) :
    (self.fail kind message : Parse α).run none =
      (.error message, some ⟨kind, self.path, message⟩) := rfl

theorem run_enterContainer {self : StrictValue} (h : self.depth + 1 ≤ self.maxDepth) :
    self.enterContainer = pure () := by
  rw [enterContainer, if_neg (by omega)]

theorem run_enterContainer_deep {self : StrictValue} (h : ¬ self.depth + 1 ≤ self.maxDepth) :
    ∃ message, self.enterContainer.run none =
      (.error message, some ⟨.depth, self.path, message⟩) := by
  rw [enterContainer, if_pos (by omega)]
  exact ⟨_, run_fail self _ _⟩

theorem run_checkRecursion {opens : Nat} {self : StrictValue} (h : self.depth < opens) :
    self.checkRecursion opens = pure () := by
  rw [checkRecursion, if_neg (by omega)]

theorem container_outcome {α : Type} {opens : Nat} {self : StrictValue} {v : Visit} {a : α}
    {next : Parse α} (hopens : self.maxDepth < opens) (hdepth : self.depth ≤ self.maxDepth)
    (hv : v.isContainer = true)
    (hnext : self.depth + 1 ≤ self.maxDepth → Outcome self v a (next.run none)) :
    Outcome self v a ((do self.checkRecursion opens; self.enterContainer; next).run none) := by
  rw [run_checkRecursion (by omega)]
  by_cases hroot : self.depth + 1 ≤ self.maxDepth
  · rw [run_enterContainer hroot]
    exact hnext hroot
  · obtain ⟨message, hfail⟩ := run_enterContainer_deep hroot
    have hrun := Parse.bind_error (f := fun _ => next) hfail
    change Outcome self v a ((self.enterContainer >>= fun _ => next).run none)
    rw [hrun]
    refine .refused (w := v) ?_ (.here v) rfl
    refine { violation := .deep hv (by omega), least := ?_ }
    intro pos' kind' h
    cases pos' with
    | nil =>
      cases h with
      | deep => exact Or.inr ⟨rfl, Or.inr rfl⟩
    | cons i pos' => exact Or.inl (List.nil_lt_cons i pos')

theorem child_seq {items seen rest : List Visit} {c : Visit} (h : items = seen ++ c :: rest)
    (stop : Option String) :
    (Visit.seq items stop).children[seen.length]? = some (toString seen.length, c) := by
  rw [Visit.children, List.getElem?_mapIdx, h, List.getElem?_append_right le_rfl, Nat.sub_self]
  rfl

theorem child_map {members seen rest : List (String × Visit)} {m : String × Visit}
    (h : members = seen ++ m :: rest) (stop : Option String) :
    (Visit.map members stop).children[seen.length]? = some m := by
  rw [Visit.children, h, List.getElem?_append_right le_rfl, Nat.sub_self]
  rfl

theorem visitSeq_outcome {opens : Nat} {self : StrictValue} {items : List Visit}
    {stop : Option String} (hroot : self.depth + 1 ≤ self.maxDepth)
    (hitem : ∀ c ∈ items, ∀ label, Outcome (self.child label) c c.value
      ((deserialize opens (self.child label) c).run none))
    (rest seen : List Visit) (hsplit : items = seen ++ rest) (hseen : ∀ c ∈ seen, c.Complete)
    (hclear : (Visit.seq items stop).ClearTo self.maxDepth self.depth seen.length) :
    Outcome self (.seq items stop) (Visit.values rest)
      ((visitSeq opens self seen.length stop rest).run none) := by
  induction rest generalizing seen with
  | nil =>
    rw [List.append_nil] at hsplit
    subst hsplit
    cases stop with
    | some err =>
      refine .stopped ?_ (by rintro e ⟨⟩)
      rintro ⟨⟩
    | none =>
      refine .read (.seq hseen) (Visit.ClearTo.none hroot ?_)
      rw [Visit.children, List.length_mapIdx]
      exact hclear
  | cons c rest ih =>
    have hmem : c ∈ items := by
      rw [hsplit]
      exact List.mem_append_right _ List.mem_cons_self
    have hcomplete : (Visit.seq items stop).Complete → c.Complete := by
      rintro (_ | _ | _ | _ | _ | h | _)
      exact h c hmem
    rw [visitSeq]
    refine .child hroot hclear (child_seq hsplit stop) (by rintro ⟨⟩) hcomplete
      (hitem c hmem _) ?_
    intro hc hclear'
    refine Outcome.map ?_ (c.value :: ·)
    have hnext := ih (seen ++ [c]) (by rw [hsplit, List.append_assoc]; rfl)
      (List.forall_mem_append.mpr ⟨hseen, List.forall_mem_singleton.mpr hc⟩)
    rw [List.length_append, List.length_singleton] at hnext
    exact hnext hclear'

theorem fields_append (seen : List (String × Visit)) (key : String) (c : Visit) :
    Visit.fields (seen ++ [(key, c)]) = Visit.fields seen ++ [(key, c.value)] := by
  induction seen with
  | nil => rfl
  | cons m seen ih =>
    obtain ⟨k, d⟩ := m
    exact congrArg ((k, d.value) :: ·) ih

theorem any_fields {seen : List (String × Visit)} {key : String} :
    (Visit.fields seen).any (fun field => field.1 == key) = true ↔ ∃ c, (key, c) ∈ seen := by
  induction seen with
  | nil => simp [Visit.fields]
  | cons m seen ih =>
    obtain ⟨k, d⟩ := m
    rw [Visit.fields, List.any_cons, Bool.or_eq_true, ih, beq_iff_eq]
    constructor
    · rintro (rfl | ⟨c, hc⟩)
      · exact ⟨d, List.mem_cons_self⟩
      · exact ⟨c, List.mem_cons_of_mem _ hc⟩
    · rintro ⟨c, hc⟩
      rcases List.mem_cons.mp hc with heq | hc
      · cases heq
        exact Or.inl rfl
      · exact Or.inr ⟨c, hc⟩

theorem visitMap_outcome {opens : Nat} {self : StrictValue} {members : List (String × Visit)}
    {stop : Option String} (hroot : self.depth + 1 ≤ self.maxDepth)
    (hitem : ∀ m ∈ members, ∀ label, Outcome (self.child label) m.2 m.2.value
      ((deserialize opens (self.child label) m.2).run none))
    (rest seen : List (String × Visit)) (hsplit : members = seen ++ rest)
    (hseen : ∀ m ∈ seen, m.2.Complete)
    (hclear : (Visit.map members stop).ClearTo self.maxDepth self.depth seen.length) :
    Outcome self (.map members stop) (Visit.fields members)
      ((visitMap opens self (Visit.fields seen) stop rest).run none) := by
  induction rest generalizing seen with
  | nil =>
    rw [List.append_nil] at hsplit
    subst hsplit
    cases stop with
    | some err =>
      refine .stopped ?_ (by rintro e ⟨⟩)
      rintro ⟨⟩
    | none => exact .read (.map hseen) (Visit.ClearTo.none hroot hclear)
  | cons m rest ih =>
    obtain ⟨key, c⟩ := m
    have hmem : (key, c) ∈ members := by
      rw [hsplit]
      exact List.mem_append_right _ List.mem_cons_self
    have hchild := child_map hsplit stop
    rw [visitMap]
    split
    · rename_i hkey
      obtain ⟨c', hc'⟩ := any_fields.mp hkey
      obtain ⟨j, hj, hget⟩ := List.mem_iff_getElem.mp hc'
      have hearlier : (Visit.map members stop).children[j]? = some (key, c') := by
        rw [Visit.children, hsplit, List.getElem?_append_left hj, List.getElem?_eq_getElem hj, hget]
      rw [run_fail]
      exact .refused (.repeated hroot hclear rfl hchild hj hearlier)
        (.child hchild (.here c)) rfl
    · rename_i hkey
      have hnew : (Visit.map members stop).NewAt key seen.length := by
        intro _ j c' hj
        by_contra hlt
        rw [Visit.children, hsplit, List.getElem?_append_left (by omega)] at hj
        exact hkey (any_fields.mpr ⟨c', List.mem_of_getElem? hj⟩)
      have hcomplete : (Visit.map members stop).Complete → c.Complete := by
        rintro (_ | _ | _ | _ | _ | _ | h)
        exact h (key, c) hmem
      refine .child hroot hclear hchild hnew hcomplete (hitem (key, c) hmem _) ?_
      intro hc hclear'
      have hnext := ih (seen ++ [(key, c)]) (by rw [hsplit, List.append_assoc]; rfl)
        (List.forall_mem_append.mpr ⟨hseen, List.forall_mem_singleton.mpr hc⟩)
      rw [List.length_append, List.length_singleton, fields_append] at hnext
      exact hnext hclear'

theorem clear_start {maxDepth depth : Nat} (v : Visit) : v.ClearTo maxDepth depth 0 :=
  fun i _ _ _ => Nat.zero_le i

theorem leaf_outcome {self : StrictValue} {v : Visit} (hv : v.Complete)
    (hleaf : v.isContainer = false) :
    Outcome self v v.value ((pure v.value : Parse Json).run none) := by
  refine .read hv ?_
  intro pos kind h
  have hchildren : v.children = [] := by
    cases v <;> first | rfl | cases hleaf
  cases pos with
  | nil =>
    cases h with
    | deep hcontainer => rw [hleaf] at hcontainer; cases hcontainer
  | cons i pos =>
    have hlt := Visit.violation_place h
    rw [hchildren] at hlt
    cases hlt

theorem deserialize_outcome {opens : Nat} (v : Visit) (self : StrictValue)
    (hopens : self.maxDepth < opens) (hdepth : self.depth ≤ self.maxDepth) :
    Outcome self v v.value ((deserialize opens self v).run none) := by
  cases v with
  | null => exact leaf_outcome .null rfl
  | bool b => exact leaf_outcome (.bool b) rfl
  | int n => exact leaf_outcome (.int n) rfl
  | str s => exact leaf_outcome (.str s) rfl
  | error err => exact .stopped (by rintro ⟨⟩) (by rintro e ⟨⟩)
  | float f =>
    rw [deserialize]
    split
    · rename_i hfinite
      exact leaf_outcome (.float hfinite) rfl
    · rename_i hfinite
      rw [run_fail]
      refine .stopped ?_ (by rintro e ⟨⟩; rfl)
      rintro (_ | _ | _ | hf | _ | _ | _)
      exact hfinite hf
  | seq items stop =>
    rw [deserialize]
    refine container_outcome hopens hdepth rfl ?_
    intro hroot
    refine Outcome.map ?_ Json.arr
    refine visitSeq_outcome hroot ?_ items [] rfl (fun _ h => absurd h List.not_mem_nil)
      (clear_start _)
    intro c hc label
    exact deserialize_outcome c (self.child label) hopens hroot
  | map members stop =>
    rw [deserialize]
    refine container_outcome hopens hdepth rfl ?_
    intro hroot
    refine Outcome.map ?_ Json.obj
    refine visitMap_outcome hroot ?_ members [] rfl (fun _ h => absurd h List.not_mem_nil)
      (clear_start _)
    intro m hm label
    exact deserialize_outcome m.2 (self.child label) hopens hroot
termination_by sizeOf v
decreasing_by
  · have := List.sizeOf_lt_of_mem hc
    simp only [Visit.seq.sizeOf_spec]
    omega
  · obtain ⟨key, c⟩ := m
    have := List.sizeOf_lt_of_mem hm
    simp only [Visit.map.sizeOf_spec, Prod.mk.sizeOf_spec] at this ⊢
    omega

end StrictValue

namespace Visit

theorem exists_repeated {v : Visit} (hv : v.isMap = true) (maxDepth depth : Nat)
    (h : ¬ (v.children.map Prod.fst).Nodup) : ∃ pos kind, Violation maxDepth depth v pos kind := by
  rw [List.nodup_iff_getElem?_ne_getElem?] at h
  push Not at h
  obtain ⟨j, i, hlt, hi, heq⟩ := h
  rw [List.length_map] at hi
  have hj : j < v.children.length := by omega
  have hget := List.getElem?_eq_getElem hi
  have hget' := List.getElem?_eq_getElem hj
  rw [List.getElem?_map, List.getElem?_map, hget, hget'] at heq
  have hkey : v.children[j]? = some (v.children[i].1, v.children[j].2) := by
    rw [hget']
    exact congrArg some (Prod.ext (Option.some.inj heq) rfl)
  exact ⟨[i], .duplicateKey, .repeated hv hlt hget hkey⟩

theorem Violation.leads {maxDepth depth : Nat} {v : Visit} {pos : List Nat} {kind : ParseErrorKind}
    (h : Violation maxDepth depth v pos kind) : ∃ pos labels w, v.Leads pos labels w ∧
      ((w.isContainer = true ∧ depth + pos.length + 1 > maxDepth) ∨
        (w.isMap = true ∧ ¬ (w.children.map Prod.fst).Nodup)) := by
  induction h with
  | @deep depth v hv h => exact ⟨[], [], v, .here v, Or.inl ⟨hv, h⟩⟩
  | @repeated depth i j v c c' key hv hlt hi hj =>
    refine ⟨[], [], v, .here v, Or.inr ⟨hv, ?_⟩⟩
    rw [List.nodup_iff_getElem?_ne_getElem?]
    intro hnodup
    refine hnodup j i hlt ?_ ?_
    · rw [List.length_map]
      exact (List.getElem?_eq_some_iff.mp hi).1
    · rw [List.getElem?_map, List.getElem?_map, hi, hj]
      rfl
  | inside hchild _ ih =>
    obtain ⟨pos, labels, w, hleads, hw⟩ := ih
    refine ⟨_, _, w, .child hchild hleads, ?_⟩
    rw [List.length_cons]
    rcases hw with ⟨hw, hdeep⟩ | hw
    · exact Or.inl ⟨hw, by omega⟩
    · exact Or.inr hw

theorem Leads.violation {v w : Visit} {pos : List Nat} {labels : List String}
    (h : v.Leads pos labels w) (maxDepth depth : Nat)
    (hw : (w.isContainer = true ∧ depth + pos.length + 1 > maxDepth) ∨
      (w.isMap = true ∧ ¬ (w.children.map Prod.fst).Nodup)) :
    ∃ pos kind, Violation maxDepth depth v pos kind := by
  induction h generalizing depth with
  | here v =>
    rcases hw with ⟨hv, hdeep⟩ | ⟨hv, hkeys⟩
    · exact ⟨[], .depth, .deep hv hdeep⟩
    · exact exists_repeated hv maxDepth depth hkeys
  | child hchild _ ih =>
    rw [List.length_cons] at hw
    obtain ⟨pos, kind, h⟩ := ih (depth + 1) (hw.imp_left (fun hw => ⟨hw.1, by omega⟩))
    exact ⟨_, kind, .inside hchild h⟩

theorem not_violation_iff {maxDepth : Nat} {v : Visit} :
    (∀ pos kind, ¬ Violation maxDepth 0 v pos kind) ↔ v.Unrepeated ∧ v.Within maxDepth := by
  constructor
  · intro h
    refine ⟨?_, ?_⟩
    · intro pos labels w hleads hw
      by_contra hkeys
      obtain ⟨pos', kind, hviolation⟩ := hleads.violation maxDepth 0 (Or.inr ⟨hw, hkeys⟩)
      exact h pos' kind hviolation
    · intro pos labels w hleads hw
      by_contra hdeep
      obtain ⟨pos', kind, hviolation⟩ := hleads.violation maxDepth 0 (Or.inl ⟨hw, by omega⟩)
      exact h pos' kind hviolation
  · rintro ⟨hkeys, hdeep⟩ pos kind hviolation
    obtain ⟨pos', labels, w, hleads, ⟨hw, hlt⟩ | ⟨hw, hrepeated⟩⟩ := hviolation.leads
    · have := hdeep pos' labels w hleads hw
      omega
    · exact hrepeated (hkeys pos' labels w hleads hw)

end Visit

/-- An error that names the first violation of a document, and the way to it. -/
structure ParseError.Names (e : ParseError) (v : Visit) (maxDepth : Nat) (pos : List Nat) :
    Prop where
  first : v.First maxDepth 0 pos e.kind
  way : ∃ labels w, v.Leads pos labels w ∧ Pointer.decode e.path = some labels

theorem parse_strict_exact (serde : Deserializer) (text : String) (maxDepth : Nat)
    (hopens : maxDepth < serde.opens) :
    (∀ value, parseStrict serde text maxDepth = .ok value ↔
      (serde.visit text).Complete ∧ (serde.visit text).Unrepeated ∧
        (serde.visit text).Within maxDepth ∧ serde.trailing text = none ∧
        value = (serde.visit text).value) ∧
      ((serde.visit text).Complete → ∀ e, parseStrict serde text maxDepth = .error e →
        (∃ pos, e.Names (serde.visit text) maxDepth pos) ∨
          (e.kind = .syntaxError ∧ serde.trailing text ≠ none ∧
            ∀ pos kind, ¬ (serde.visit text).Violation maxDepth 0 pos kind)) := by
  have houtcome := StrictValue.deserialize_outcome (serde.visit text) ⟨0, maxDepth, ""⟩ hopens
    (Nat.zero_le maxDepth)
  generalize hrun : (StrictValue.deserialize serde.opens ⟨0, maxDepth, ""⟩
    (serde.visit text)).run none = r at houtcome
  unfold parseStrict
  simp only [hrun]
  cases houtcome with
  | read hv hno =>
    have hclean := Visit.not_violation_iff.mp hno
    cases htrailing : serde.trailing text with
    | none =>
      constructor
      · intro value
        constructor
        · rintro ⟨⟩
          exact ⟨hv, hclean.1, hclean.2, rfl, rfl⟩
        · rintro ⟨-, -, -, -, rfl⟩
          rfl
      · rintro - e ⟨⟩
    | some err =>
      constructor
      · intro value
        constructor
        · rintro ⟨⟩
        · rintro ⟨-, -, -, ⟨⟩, -⟩
      · rintro - e ⟨⟩
        exact Or.inr ⟨rfl, Option.some_ne_none err, hno⟩
  | @refused err e pos labels w hfirst hleads hpath =>
    constructor
    · intro value
      constructor
      · rintro ⟨⟩
      · rintro ⟨-, hkeys, hdeep, -, -⟩
        exact absurd hfirst.violation (Visit.not_violation_iff.mpr ⟨hkeys, hdeep⟩ pos e.kind)
    · rintro - e' ⟨⟩
      exact Or.inl ⟨pos, hfirst, labels, w, hleads, by rw [hpath, Pointer.decode_render]⟩
  | @stopped err slot hv hslot =>
    constructor
    · intro value
      constructor
      · cases slot with
        | none => rintro ⟨⟩
        | some e => rintro ⟨⟩
      · rintro ⟨hv', -⟩
        exact absurd hv' hv
    · intro hv'
      exact absurd hv' hv

/-- `serde_json` on a text of one array in another. -/
def nestedArrays : Deserializer where
  opens := 127
  visit text := if text = "[[]]" then .seq [.seq [] none] none else .error "expected value"
  trailing _ := none

theorem parse_strict_exact_nested : ∃ e, parseStrict nestedArrays "[[]]" 1 = .error e ∧
    ∃ pos, e.Names (.seq [.seq [] none] none) 1 pos := by
  have hcomplete : (nestedArrays.visit "[[]]").Complete := by
    refine .seq (List.forall_mem_singleton.mpr (.seq ?_))
    exact fun _ h => absurd h List.not_mem_nil
  refine ⟨_, rfl, ?_⟩
  rcases (parse_strict_exact nestedArrays "[[]]" 1 (by decide)).2 hcomplete _ rfl with hnames | h
  · exact hnames
  · exact absurd rfl h.2.1

end Checkspan
