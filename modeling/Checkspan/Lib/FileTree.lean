import Mathlib.Data.List.Induction

/-!
# File trees with links

Directories, regular files, symbolic links and anything else, the resolution of a path through
them, and what lies inside a directory once every link is resolved.
-/

namespace FileTree

universe u v

/-- One component of a path. -/
inductive Part (ν : Type u)
  | here
  | up
  | name (n : ν)

structure Path (ν : Type u) where
  absolute : Bool
  parts : List (Part ν)

/-- What a directory holds under a name. -/
inductive Node (ν : Type u) (β : Type v)
  | file (bytes : β)
  | dir (children : List (ν × Node ν β))
  | link (target : Path ν)
  | special

/-- Why a path leads nowhere. -/
inductive Fault
  | missing
  | notDirectory
  | tooManySteps
deriving DecidableEq

variable {ν : Type u} {β : Type v} [DecidableEq ν]

/-- `Path::join`. -/
def Path.join (p q : Path ν) : Path ν := if q.absolute then q else ⟨p.absolute, p.parts ++ q.parts⟩

/-- The absolute path of a location. -/
def Path.of (location : List ν) : Path ν := ⟨true, location.map .name⟩

namespace Node

/-- The node at a location below this one, no link followed. -/
def find : Node ν β → List ν → Option (Node ν β)
  | t, [] => some t
  | .dir children, n :: rest => (children.lookup n).bind (fun t => find t rest)
  | .file _, _ :: _ => none
  | .link _, _ :: _ => none
  | .special, _ :: _ => none

def IsDir (t : Node ν β) (p : List ν) : Prop := ∃ children, t.find p = some (.dir children)

/-- A location that holds something other than a link. -/
def Real (t : Node ν β) (p : List ν) : Prop :=
  ∃ node, t.find p = some node ∧ ∀ target, node ≠ .link target

theorem find_nil (t : Node ν β) : t.find [] = some t := by
  cases t <;> rfl

theorem find_append (t : Node ν β) (p q : List ν) :
    t.find (p ++ q) = (t.find p).bind (fun u => u.find q) := by
  induction p generalizing t with
  | nil => rw [List.nil_append, find_nil, Option.bind_some]
  | cons n rest ih =>
    cases t with
    | dir children =>
      show (children.lookup n).bind (fun t => t.find (rest ++ q)) =
        ((children.lookup n).bind (fun t => t.find rest)).bind (fun u => u.find q)
      rw [Option.bind_assoc]
      exact congrArg _ (funext fun u => ih u)
    | file bytes => rfl
    | link target => rfl
    | special => rfl

theorem IsDir.real {t : Node ν β} {p : List ν} (h : t.IsDir p) : t.Real p := by
  obtain ⟨children, h⟩ := h
  exact ⟨_, h, by simp⟩

/-- Only a directory has anything below it. -/
theorem isDir_of_find_append {t node : Node ν β} {p q : List ν} (hq : q ≠ [])
    (h : t.find (p ++ q) = some node) : t.IsDir p := by
  rw [find_append] at h
  obtain ⟨u, hu, h⟩ := Option.bind_eq_some_iff.mp h
  cases q with
  | nil => exact absurd rfl hq
  | cons n rest =>
    cases u with
    | dir children => exact ⟨children, hu⟩
    | file bytes => cases h
    | link target => cases h
    | special => cases h

theorem IsDir.dropLast {t : Node ν β} {p : List ν} (h : t.IsDir p) : t.IsDir p.dropLast := by
  obtain ⟨children, h⟩ := h
  induction p using List.reverseRecOn with
  | nil => exact ⟨children, h⟩
  | append_singleton p n _ =>
    rw [List.dropLast_concat]
    exact isDir_of_find_append (by simp) h

/-! ### Resolution -/

/-- The location a path leads to from `here`, every link followed, in at most `fuel` steps. -/
def walk (t : Node ν β) : Nat → List ν → List (Part ν) → Except Fault (List ν)
  | 0, _, _ => .error .tooManySteps
  | _ + 1, here, [] => .ok here
  | fuel + 1, here, .here :: rest => walk t fuel here rest
  | fuel + 1, here, .up :: rest => walk t fuel here.dropLast rest
  | fuel + 1, here, .name n :: rest =>
    match t.find (here ++ [n]) with
    | none => .error .missing
    | some (.dir _) => walk t fuel (here ++ [n]) rest
    | some (.link target) =>
      walk t fuel (if target.absolute then [] else here) (target.parts ++ rest)
    | some (.file _) => if rest.isEmpty then .ok (here ++ [n]) else .error .notDirectory
    | some .special => if rest.isEmpty then .ok (here ++ [n]) else .error .notDirectory

/-- A walk ends where something other than a link is. -/
theorem walk_real {t : Node ν β} (ht : t.IsDir []) {fuel : Nat} {here : List ν}
    {parts : List (Part ν)} {r : List ν} (hhere : t.IsDir here)
    (h : t.walk fuel here parts = .ok r) : t.Real r := by
  induction fuel generalizing here parts with
  | zero => cases h
  | succ fuel ih =>
    cases parts with
    | nil =>
      cases h
      exact hhere.real
    | cons part rest =>
      cases part with
      | here => exact ih hhere h
      | up => exact ih hhere.dropLast h
      | name n =>
        unfold walk at h
        split at h
        · cases h
        · next children hfind => exact ih ⟨children, hfind⟩ h
        · next target hfind =>
          split at h
          · exact ih ht h
          · exact ih hhere h
        · next bytes hfind =>
          split at h
          · cases h
            exact ⟨_, hfind, by simp⟩
          · cases h
        · next hfind =>
          split at h
          · cases h
            exact ⟨_, hfind, by simp⟩
          · cases h

/-- Steps to spare change nothing. -/
theorem walk_mono {t : Node ν β} {fuel more : Nat} {here : List ν} {parts : List (Part ν)}
    {r : List ν} (hle : fuel ≤ more) (h : t.walk fuel here parts = .ok r) :
    t.walk more here parts = .ok r := by
  induction fuel generalizing more here parts with
  | zero => cases h
  | succ fuel ih =>
    obtain ⟨more, rfl⟩ := Nat.exists_eq_add_of_le' (show 1 ≤ more by omega)
    have hle : fuel ≤ more := by omega
    cases parts with
    | nil => exact h
    | cons part rest =>
      cases part with
      | here => exact (ih hle h : t.walk more here rest = .ok r)
      | up => exact (ih hle h : t.walk more here.dropLast rest = .ok r)
      | name n =>
        unfold walk at h ⊢
        split at h
        · cases h
        · exact ih hle h
        · exact ih hle h
        · exact h
        · exact h

/-- A walk along `a ++ b` is one along `a` to a directory, then one along `b` from there. -/
theorem walk_append {t : Node ν β} {fuel more : Nat} {here mid r : List ν} {a b : List (Part ν)}
    (ha : t.walk fuel here a = .ok mid) (hmid : t.IsDir mid) (hb : t.walk more mid b = .ok r) :
    t.walk (fuel + more) here (a ++ b) = .ok r := by
  induction fuel generalizing here a with
  | zero => cases ha
  | succ fuel ih =>
    rw [show fuel + 1 + more = fuel + more + 1 by omega]
    cases a with
    | nil =>
      cases ha
      exact walk_mono (by omega) hb
    | cons part rest =>
      cases part with
      | here => exact ih ha
      | up => exact ih ha
      | name n =>
        rw [List.cons_append]
        unfold walk at ha ⊢
        split at ha
        · cases ha
        · exact ih ha
        · next target hfind =>
          show t.walk (fuel + more) _ (target.parts ++ (rest ++ b)) = .ok r
          rw [← List.append_assoc]
          exact ih ha
        · next bytes hfind =>
          split at ha
          · cases ha
            obtain ⟨children, hdir⟩ := hmid
            rw [hfind] at hdir
            cases hdir
          · cases ha
        · next hfind =>
          split at ha
          · cases ha
            obtain ⟨children, hdir⟩ := hmid
            rw [hfind] at hdir
            cases hdir
          · cases ha

/-- The names of a real location are walked straight to it. -/
theorem walk_names {t : Node ν β} {here p : List ν} (hhere : t.IsDir here)
    (hreal : t.Real (here ++ p)) : t.walk (p.length + 1) here (p.map .name) = .ok (here ++ p) := by
  induction p generalizing here with
  | nil => simp [walk]
  | cons n rest ih =>
    obtain ⟨node, hnode, hlink⟩ := hreal
    rw [List.map_cons, List.length_cons]
    unfold walk
    by_cases hrest : rest = []
    · subst hrest
      rw [hnode]
      cases node with
      | file bytes => rfl
      | dir children => simp [walk]
      | link target => exact absurd rfl (hlink target)
      | special => rfl
    · have hsplit : here ++ n :: rest = here ++ [n] ++ rest := by simp
      rw [hsplit] at hnode
      have hdir : t.IsDir (here ++ [n]) := isDir_of_find_append hrest hnode
      obtain ⟨children, hfind⟩ := hdir
      rw [hfind, hsplit]
      exact ih ⟨children, hfind⟩ ⟨node, hnode, hlink⟩

/-- However many steps are allowed, the names of a real location lead nowhere else. -/
theorem walk_names_eq {t : Node ν β} {fuel : Nat} {here p r : List ν} (hhere : t.IsDir here)
    (hreal : t.Real (here ++ p)) (h : t.walk fuel here (p.map .name) = .ok r) : r = here ++ p := by
  have hfull := walk_mono (Nat.le_max_left _ fuel) (walk_names hhere hreal)
  rw [walk_mono (Nat.le_max_right _ fuel) h] at hfull
  exact Except.ok.inj hfull

end Node

/-! ### A process and its tree -/

/-- A tree, the directory a process works in, and how many steps a resolution may take. -/
structure Place (ν : Type u) (β : Type v) [DecidableEq ν] where
  children : List (ν × Node ν β)
  cwd : List ν
  steps : Nat
  cwd_isDir : (Node.dir children).IsDir cwd

namespace Place

variable (w : Place ν β)

def root : Node ν β := .dir w.children

def canonicalizeIn (steps : Nat) (p : Path ν) : Except Fault (List ν) :=
  if !p.absolute && p.parts.isEmpty then .error .missing
  else w.root.walk steps (if p.absolute then [] else w.cwd) p.parts

/-- `fs::canonicalize`. -/
def canonicalize (p : Path ν) : Except Fault (List ν) := w.canonicalizeIn w.steps p

/-- What is at the end of a path, every link followed. -/
def follow (p : Path ν) : Except Fault (Node ν β) :=
  match w.canonicalize p with
  | .ok location => ((w.root.find location).map Except.ok).getD (.error .missing)
  | .error e => .error e

variable {w}

theorem root_isDir : w.root.IsDir [] := ⟨w.children, rfl⟩

theorem canonicalizeIn_mono {p : Path ν} {r : List ν} {fuel more : Nat} (hle : fuel ≤ more)
    (h : w.canonicalizeIn fuel p = .ok r) : w.canonicalizeIn more p = .ok r := by
  unfold canonicalizeIn at h ⊢
  split at h
  · cases h
  · next hempty =>
    rw [if_neg hempty]
    exact Node.walk_mono hle h

theorem canonicalize_real {p : Path ν} {r : List ν} (h : w.canonicalize p = .ok r) :
    w.root.Real r := by
  unfold canonicalize canonicalizeIn at h
  split at h
  · cases h
  · split at h
    · exact Node.walk_real root_isDir root_isDir h
    · exact Node.walk_real root_isDir w.cwd_isDir h

/-- A canonical path leads to what is at its own location. -/
theorem follow_canonical {p : Path ν} {r : List ν} {node : Node ν β}
    (hp : w.canonicalize p = .ok r) (h : w.follow (Path.of r) = .ok node) :
    w.root.find r = some node := by
  have hreal := canonicalize_real hp
  unfold follow at h
  cases hcanon : w.canonicalize (Path.of r) with
  | error e => rw [hcanon] at h; cases h
  | ok location =>
    have heq : location = r := Node.walk_names_eq root_isDir hreal hcanon
    rw [hcanon, heq] at h
    change ((w.root.find r).map Except.ok).getD (Except.error Fault.missing) = .ok node at h
    cases hfind : w.root.find r with
    | none => rw [hfind] at h; cases h
    | some found =>
      rw [hfind] at h
      cases h
      rfl

theorem follow_of_find {r : List ν} {node : Node ν β} (hfind : w.root.find r = some node)
    (hlink : ∀ target, node ≠ .link target) (hsteps : r.length + 1 ≤ w.steps) :
    w.follow (Path.of r) = .ok node := by
  have hcanon : w.canonicalize (Path.of r) = .ok r :=
    Node.walk_mono hsteps (Node.walk_names root_isDir ⟨node, hfind, hlink⟩)
  unfold follow
  rw [hcanon]
  show ((w.root.find r).map Except.ok).getD (Except.error Fault.missing) = .ok node
  rw [hfind]
  rfl

/-- A path, then names that meet no link. -/
theorem canonicalize_join {p : Path ν} {names real : List ν} {used : Nat}
    (hp : w.canonicalizeIn used p = .ok real) (hnames : names ≠ [])
    (hreal : w.root.Real (real ++ names)) (hsteps : used + (names.length + 1) ≤ w.steps) :
    w.canonicalize (p.join ⟨false, names.map .name⟩) = .ok (real ++ names) := by
  obtain ⟨node, hnode, -⟩ := id hreal
  have hdir : w.root.IsDir real := Node.isDir_of_find_append hnames hnode
  unfold canonicalizeIn at hp
  split at hp
  · cases hp
  · have hparts : (p.parts ++ names.map Part.name).isEmpty = false := by
      cases names with
      | nil => exact absurd rfl hnames
      | cons n rest => simp
    simp only [canonicalize, canonicalizeIn, Path.join, Bool.false_eq_true, if_false, hparts,
      Bool.and_false]
    exact Node.walk_mono hsteps (Node.walk_append hp hdir (Node.walk_names hdir hreal))

end Place

end FileTree
