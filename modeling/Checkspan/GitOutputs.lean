import Mathlib.Data.String.Basic
import Checkspan.Controller
import Checkspan.Lib.Separated
import Checkspan.WorkTrees

/-!
# What `git` prints (`src/adapters/code/mod.rs:341-558`)

The adapter runs `git` under pinned settings and reads its output: texts that end in white space,
and fields that each end in a NUL byte.
-/

namespace Checkspan

/-- The errors of `git`; a capture makes the others itself. -/
inductive CaptureError where
  | gitUnavailable (error : String)
  | notARepository (path : String)
  | git (command : String) (status : Option Int) (stderr : String)
  | unknownRevision (rev : String)
  | noParent (commit : CommitId)
  | unmerged (path : String)
  | malformed (what : String)

namespace CaptureError

def display : CaptureError → String
  | gitUnavailable e => "cannot start git: " ++ e
  | notARepository path => path ++ " is not inside a git repository"
  | git command (some code) stderr =>
    command ++ " exited with " ++ toString code ++ ": " ++ trimText stderr
  | git command none stderr => command ++ " was terminated: " ++ trimText stderr
  | unknownRevision rev => rev.quote ++ " does not name a commit"
  | noParent commit => "commit " ++ commit.text ++ " has no parent; name a base explicitly"
  | unmerged path => "path " ++ path.quote ++ " is unmerged"
  | malformed what => "unreadable git output: " ++ what

/-- A failed command is this error instead. -/
def orFailed (e : CaptureError) : CaptureError → CaptureError
  | git _ _ _ => e
  | other => other

/-- `open`: a command that failed outside any repository. -/
def outside (path : String) : CaptureError → CaptureError
  | git command status stderr =>
    if "not a git repository".toList <:+: stderr.toList then .notARepository path
    else .git command status stderr
  | other => other

end CaptureError

structure Invocation where
  status : Option Int
  stdout : List UInt8
  stderr : List UInt8

/-- The `git` executable, and the files of a working tree as they are opened. -/
structure Executable where
  invoke : List String → Except String Invocation
  /-- `String::from_utf8_lossy`. -/
  lossy : List UInt8 → String
  workingFile : String → String → Except String (Nat × List UInt8)

namespace GitOutput

def utf8 (s : String) : List UInt8 := s.toByteArray.data.toList

def text (what : String) (bytes : List UInt8) : Except CaptureError String :=
  someOr (String.fromUTF8? ⟨bytes.toArray⟩) (.malformed what)

@[simp] theorem text_utf8 (what s : String) : text what (utf8 s) = .ok s :=
  someOr_eq_ok.mpr (Cli.fromUTF8?_toByteArray s)

def pathText (bytes : List UInt8) : Except CaptureError String := text "a path is not UTF-8" bytes

/-- `str::trim_end`. -/
def trimEnd (s : String) : String :=
  String.ofList (s.toList.reverse.dropWhile isWhiteSpace).reverse

theorem trimEnd_newline {s : String} (h : ∀ c ∈ s.toList.getLast?, isWhiteSpace c = false) :
    trimEnd (s ++ "\n") = s := by
  have hnewline : isWhiteSpace '\n' = true := rfl
  have hrest : s.toList.reverse.dropWhile isWhiteSpace = s.toList.reverse := by
    cases hs : s.toList.reverse with
    | nil => rfl
    | cons c cs =>
      have hlast : s.toList.getLast? = some c := by
        rw [List.getLast?_eq_head?_reverse, hs]
        rfl
      rw [List.dropWhile_cons_of_neg]
      simpa using h c hlast
  rw [trimEnd, String.toList_append, List.reverse_append]
  rw [show ("\n".toList.reverse) = ['\n'] from rfl, List.singleton_append,
    List.dropWhile_cons_of_pos hnewline, hrest, List.reverse_reverse, String.ofList_toList]

/-- No character of the text is white space. -/
def Plain (s : String) : Prop := ∀ c ∈ s.toList, isWhiteSpace c = false

theorem Plain.trimEnd {s : String} (h : Plain s) : GitOutput.trimEnd (s ++ "\n") = s :=
  trimEnd_newline fun c hc => h c (List.mem_of_getLast? hc)

theorem Plain.trimText {s : String} (h : Plain s) : Checkspan.trimText (s ++ "\n") = s := by
  cases hs : s.toList with
  | nil =>
    obtain rfl := String.toList_eq_nil_iff.mp hs
    decide
  | cons c cs =>
    have hc : ¬ isWhiteSpace c = true := by
      simp [h c (hs ▸ List.mem_cons_self)]
    have hfront : (s ++ "\n").toList.dropWhile isWhiteSpace = (s ++ "\n").toList := by
      rw [String.toList_append, hs, List.cons_append, List.dropWhile_cons_of_neg hc]
    rw [Checkspan.trimText, hfront]
    exact h.trimEnd

theorem commit_plain (c : CommitId) : Plain c.text := by
  intro ch hch
  by_contra hne
  have hspace : isLowerHex ch = false := by
    rw [Bool.not_eq_false, isWhiteSpace] at hne
    simp only [isLowerHex, isAsciiDigit, Bool.or_eq_false_iff, Bool.and_eq_false_iff,
      decide_eq_false_iff_not, not_le, Char.lt_def, UInt32.lt_iff_toNat_lt]
    simp only [Bool.or_eq_true, Bool.and_eq_true, decide_eq_true_eq, beq_iff_eq, Char.toNat] at hne
    have h0 : '0'.val.toNat = 48 := rfl
    have h9 : '9'.val.toNat = 57 := rfl
    have ha : 'a'.val.toNat = 97 := rfl
    have hf : 'f'.val.toNat = 102 := rfl
    omega
  exact not_mem_commit c hspace hch

/-- The commit a command prints. -/
def commitOf (bytes : List UInt8) : Except CaptureError CommitId := do
  let line ← text "commit id" bytes
  (CommitId.new (trimText line)).mapError
    (fun _ => .malformed "rev-parse did not print a commit id")

theorem commitOf_newline (c : CommitId) : commitOf (utf8 (c.text ++ "\n")) = .ok c := by
  refine bind_eq_ok.mpr ⟨c.text ++ "\n", text_utf8 _ _, ?_⟩
  rw [(commit_plain c).trimText]
  exact mapError_eq_ok.mpr (CommitId.new_text c)

/-- `str::parse` of a `u64`. -/
def parseU64 (s : String) : Option Nat :=
  let digits := if s.toList.head? = some '+' then s.toList.tail else s.toList
  let value := digits.foldl (fun n c => n * 10 + (c.toNat - 48)) 0
  if digits.isEmpty || !digits.all Char.isDigit || 2 ^ 64 ≤ value then none else some value

/-! ### Changed paths -/

def changeOf (letter : List UInt8) (path : String) : Except CaptureError ChangeKind :=
  if letter = utf8 "A" then .ok .added
  else if letter = utf8 "M" ∨ letter = utf8 "T" then .ok .modified
  else if letter = utf8 "D" then .ok .deleted
  else if letter = utf8 "U" then .error (.unmerged path)
  else .error (.malformed "unknown name-status letter")

def readPair (pair : List UInt8 × List UInt8) : Except CaptureError (String × ChangeKind) := do
  let path ← pathText pair.2
  let change ← changeOf pair.1 path
  .ok (path, change)

/-- `name_status`, of what `diff` printed. -/
def readNameStatus (out : List UInt8) : Except CaptureError (List (String × ChangeKind)) := do
  let tokens ← someOr (Separated.pairs (Separated.fields 0 out))
    (.malformed "name-status output is not in pairs")
  let entries ← tokens.mapM readPair
  .ok (SortedMap.ofList entries)

/-- `untracked`, of what `ls-files` printed. -/
def readUntracked (out : List UInt8) : Except CaptureError (List String) :=
  (Separated.fields 0 out).mapM pathText

/-! ### What is printed -/

inductive StatusLetter where
  | added
  | modified
  | typeChanged
  | deleted
  | unmerged
deriving DecidableEq

def StatusLetter.letter : StatusLetter → String
  | added => "A"
  | modified => "M"
  | typeChanged => "T"
  | deleted => "D"
  | unmerged => "U"

def StatusLetter.kind : StatusLetter → Option ChangeKind
  | added => some .added
  | modified => some .modified
  | typeChanged => some .modified
  | deleted => some .deleted
  | unmerged => none

/-- A path of a repository is not empty and has no NUL byte. -/
def Printable (path : String) : Prop := utf8 path ≠ [] ∧ 0 ∉ utf8 path

structure StatusRecord where
  letter : StatusLetter
  path : String

/-- The entry of a record, unless its path is unmerged. -/
def StatusRecord.entry (r : StatusRecord) : Option (String × ChangeKind) :=
  r.letter.kind.map (fun kind => (r.path, kind))

def printStatus (records : List StatusRecord) : List UInt8 :=
  Separated.ended 0 (records.flatMap (fun r => [utf8 r.letter.letter, utf8 r.path]))

def printPaths (paths : List String) : List UInt8 := Separated.ended 0 (paths.map utf8)

variable {records : List StatusRecord}

theorem readPair_printed (r : StatusRecord) :
    readPair (utf8 r.letter.letter, utf8 r.path) = someOr r.entry (.unmerged r.path) := by
  have hpath : pathText (utf8 r.path) = .ok r.path := text_utf8 _ _
  unfold readPair StatusRecord.entry
  rw [hpath]
  cases r.letter <;> rfl

theorem fields_printStatus (h : ∀ r ∈ records, Printable r.path) :
    Separated.fields 0 (printStatus records) =
      records.flatMap (fun r => [utf8 r.letter.letter, utf8 r.path]) := by
  refine Separated.fields_ended fun f hf => ?_
  obtain ⟨r, hr, hf⟩ := List.mem_flatMap.mp hf
  rcases List.mem_cons.mp hf with rfl | hf
  · cases r.letter <;> decide
  · rw [List.mem_singleton.mp hf]
    exact h r hr

theorem readNameStatus_printed (h : ∀ r ∈ records, Printable r.path) :
    readNameStatus (printStatus records) =
      (records.mapM (fun r => someOr r.entry (.unmerged r.path))).map SortedMap.ofList := by
  unfold readNameStatus
  rw [fields_printStatus h, Separated.pairs_flatMap]
  have hread : (records.map (fun r => (utf8 r.letter.letter, utf8 r.path))).mapM readPair =
      records.mapM (fun r => someOr r.entry (.unmerged r.path)) := by
    rw [List.mapM_map]
    exact congrArg (fun f => records.mapM f) (funext readPair_printed)
  change ((records.map (fun r => (utf8 r.letter.letter, utf8 r.path))).mapM readPair >>=
    fun entries => .ok (SortedMap.ofList entries)) = _
  rw [hread]
  cases records.mapM (fun r => someOr r.entry (CaptureError.unmerged r.path)) <;> rfl

theorem mapM_someOr_ok {ε α β : Type} {f : α → Option β} {e : α → ε} {xs : List α} {ys : List β} :
    xs.mapM (fun x => someOr (f x) (e x)) = .ok ys ↔ xs.map f = ys.map some := by
  induction xs generalizing ys with
  | nil =>
    change Except.ok [] = Except.ok ys ↔ _
    cases ys <;> simp
  | cons x rest ih =>
    rw [List.mapM_cons, bind_eq_ok]
    constructor
    · rintro ⟨y, hy, h⟩
      obtain ⟨ys', hys, h⟩ := bind_ok h
      cases h
      rw [List.map_cons, List.map_cons, someOr_eq_ok.mp hy, ih.mp hys]
    · intro h
      cases ys with
      | nil => cases h
      | cons y ys =>
        obtain ⟨hy, hys⟩ := List.cons.inj h
        refine ⟨y, someOr_eq_ok.mpr hy, ?_⟩
        exact bind_eq_ok.mpr ⟨ys, ih.mpr hys, rfl⟩

theorem mapM_someOr_error {ε α β : Type} {f : α → Option β} {e : α → ε} {xs : List α} {err : ε}
    (h : xs.mapM (fun x => someOr (f x) (e x)) = .error err) :
    ∃ x ∈ xs, f x = none ∧ err = e x := by
  induction xs with
  | nil => cases h
  | cons x rest ih =>
    rw [List.mapM_cons] at h
    cases hx : f x with
    | none =>
      rw [hx] at h
      cases h
      exact ⟨x, List.mem_cons_self, hx, rfl⟩
    | some y =>
      rw [hx] at h
      cases hrest : rest.mapM (fun x => someOr (f x) (e x)) with
      | ok ys =>
        rw [hrest] at h
        cases h
      | error err' =>
        rw [hrest] at h
        cases h
        obtain ⟨z, hz, hnone⟩ := ih hrest
        exact ⟨z, List.mem_cons_of_mem x hz, hnone⟩

theorem readNameStatus_ok (h : ∀ r ∈ records, Printable r.path)
    {paths : List (String × ChangeKind)} :
    readNameStatus (printStatus records) = .ok paths ↔ ∃ entries : List (String × ChangeKind),
      records.map StatusRecord.entry = entries.map some ∧ paths = SortedMap.ofList entries := by
  rw [readNameStatus_printed h]
  constructor
  · intro hread
    obtain ⟨entries, hentries, rfl⟩ := map_ok hread
    exact ⟨entries, mapM_someOr_ok.mp hentries, rfl⟩
  · rintro ⟨entries, hentries, rfl⟩
    rw [mapM_someOr_ok.mpr hentries]
    rfl

theorem entry_eq_none {r : StatusRecord} : r.entry = none ↔ r.letter = .unmerged := by
  unfold StatusRecord.entry
  cases r.letter <;> simp [StatusLetter.kind]

/-- The records are read as a map of the paths to what they were printed with last, unless one
of them is unmerged. -/
theorem name_status_read (h : ∀ r ∈ records, Printable r.path) :
    ((∃ paths, readNameStatus (printStatus records) = .ok paths) ↔
      ∀ r ∈ records, r.letter ≠ .unmerged) ∧
    (∀ paths, readNameStatus (printStatus records) = .ok paths → SortedMap.Sorted paths ∧
      ∀ path kind, (path, kind) ∈ paths ↔
        SortedMap.last (records.filterMap StatusRecord.entry) path = some kind) ∧
    ∀ e, readNameStatus (printStatus records) = .error e →
      ∃ r ∈ records, r.letter = .unmerged ∧ e = .unmerged r.path := by
  have herror : ∀ e, readNameStatus (printStatus records) = .error e →
      ∃ r ∈ records, r.letter = .unmerged ∧ e = .unmerged r.path := by
    intro e hread
    rw [readNameStatus_printed h] at hread
    cases hentries : records.mapM (fun r => someOr r.entry (CaptureError.unmerged r.path)) with
    | ok entries =>
      rw [hentries] at hread
      cases hread
    | error err =>
      rw [hentries] at hread
      cases hread
      obtain ⟨r, hr, hnone, rfl⟩ := mapM_someOr_error hentries
      exact ⟨r, hr, entry_eq_none.mp hnone, rfl⟩
  refine ⟨⟨?_, ?_⟩, ?_, herror⟩
  · rintro ⟨paths, hread⟩ r hr hletter
    obtain ⟨entries, hentries, -⟩ := (readNameStatus_ok h).mp hread
    have hmem : r.entry ∈ entries.map some := hentries ▸ List.mem_map_of_mem hr
    rw [entry_eq_none.mpr hletter] at hmem
    simp at hmem
  · intro hmerged
    cases hread : readNameStatus (printStatus records) with
    | ok paths => exact ⟨paths, rfl⟩
    | error e =>
      obtain ⟨r, hr, hletter, -⟩ := herror e hread
      exact absurd hletter (hmerged r hr)
  · intro paths hread
    obtain ⟨entries, hentries, rfl⟩ := (readNameStatus_ok h).mp hread
    have hkept : records.filterMap StatusRecord.entry = entries := by
      have hid := congrArg (List.filterMap id) hentries
      rw [List.filterMap_map, List.filterMap_map, Function.id_comp, Function.id_comp,
        List.filterMap_some] at hid
      exact hid
    rw [hkept]
    exact ⟨SortedMap.sorted_ofList entries, SortedMap.mem_ofList entries⟩

/-- A path that is printed twice is read once, as it is printed last. -/
theorem name_status_read_twice :
    (∃ paths, readNameStatus (printStatus [⟨.added, "a"⟩, ⟨.modified, "b"⟩, ⟨.deleted, "a"⟩]) =
      .ok paths) ∧
    ∀ paths, readNameStatus (printStatus [⟨.added, "a"⟩, ⟨.modified, "b"⟩, ⟨.deleted, "a"⟩]) =
      .ok paths → SortedMap.Sorted paths ∧ ∀ path kind, (path, kind) ∈ paths ↔
        SortedMap.last [("a", .added), ("b", .modified), ("a", .deleted)] path = some kind := by
  have h := @name_status_read [⟨.added, "a"⟩, ⟨.modified, "b"⟩, ⟨.deleted, "a"⟩]
    (by unfold Printable; decide)
  exact ⟨h.1.mpr (by simp), h.2.1⟩

theorem readUntracked_printed {paths : List String} (h : ∀ p ∈ paths, Printable p) :
    readUntracked (printPaths paths) = .ok paths := by
  have hfields : Separated.fields 0 (printPaths paths) = paths.map utf8 := by
    refine Separated.fields_ended fun f hf => ?_
    obtain ⟨p, hp, rfl⟩ := List.mem_map.mp hf
    exact h p hp
  unfold readUntracked
  rw [hfields]
  clear h hfields
  induction paths with
  | nil => rfl
  | cons p rest ih =>
    rw [List.map_cons, List.mapM_cons, ih, pathText, text_utf8]
    rfl

end GitOutput

/-! ### Commands -/

namespace Executable

def pinnedConfig : List String :=
  ["core.quotepath=false", "diff.algorithm=myers", "diff.noprefix=false",
    "diff.mnemonicPrefix=false", "diff.suppressBlankEmpty=false", "diff.renames=false"]

def maxStderr : Nat := 2048

/-- The longest run of whole characters within a number of bytes. -/
def takeWithin : Nat → List Char → List Char
  | _, [] => []
  | n, c :: cs => if c.utf8Size ≤ n then c :: takeWithin (n - c.utf8Size) cs else []

variable (x : Executable)

def run (dir : String) (args : List String) : Except CaptureError (List UInt8) := do
  let out ← (x.invoke (["--no-optional-locks", "-C", dir] ++
    pinnedConfig.flatMap (fun setting => ["-c", setting]) ++ args)).mapError .gitUnavailable
  if out.status = some 0 then .ok out.stdout
  else .error (.git ("git " ++ joinText " " args) out.status
    (String.ofList (takeWithin maxStderr (x.lossy out.stderr).toList)))

def toplevelArgs : List String := ["rev-parse", "--show-toplevel"]

def resolveArgs (rev : String) : List String :=
  ["rev-parse", "--verify", "--end-of-options", rev ++ "^\x7bcommit\x7d"]

def statusArgs : List String := ["status", "--porcelain=v2", "-z", "--untracked-files=all"]

def nameStatusArgs (base : CommitId) (candidate : Option CommitId) : List String :=
  ["diff", "--name-status", "--no-renames", "-z", base.text] ++
    (candidate.map (·.text)).toList ++ ["--"]

def untrackedArgs : List String := ["ls-files", "-z", "--others", "--exclude-standard", "--"]

def patchArgs (base : CommitId) (candidate : Option CommitId) : List String :=
  ["diff", "--binary", "--full-index", "--no-color", "--no-ext-diff", "--no-textconv",
    "--no-renames", "-U3", "--src-prefix=a/", "--dst-prefix=b/", base.text] ++
    (candidate.map (·.text)).toList ++ ["--"]

/-- `open`. -/
def toplevel (path : String) : Except CaptureError String := do
  let out ← (x.run path toplevelArgs).mapError (CaptureError.outside path)
  let line ← GitOutput.text "top-level path" out
  .ok (GitOutput.trimEnd line)

def version (root : String) : Except CaptureError String := do
  let out ← x.run root ["--version"]
  let line ← GitOutput.text "version" out
  .ok ((stripPrefix "git version " (trimText line)).getD (trimText line))

def resolve (root rev : String) : Except CaptureError CommitId := do
  let out ← (x.run root (resolveArgs rev)).mapError (CaptureError.orFailed (.unknownRevision rev))
  GitOutput.commitOf out

def firstParent (root : String) (commit : CommitId) : Except CaptureError CommitId := do
  let out ← (x.run root ["rev-parse", "--verify", "--end-of-options", commit.text ++ "^"]).mapError
    (CaptureError.orFailed (.noParent commit))
  GitOutput.commitOf out

def isClean (root : String) : Except CaptureError Bool := do
  let out ← x.run root statusArgs
  .ok out.isEmpty

def nameStatus (root : String) (base : CommitId) (candidate : Option CommitId) :
    Except CaptureError (List (String × ChangeKind)) := do
  let out ← x.run root (nameStatusArgs base candidate)
  GitOutput.readNameStatus out

def untracked (root : String) : Except CaptureError (List String) := do
  let out ← x.run root untrackedArgs
  GitOutput.readUntracked out

/-- `blob`, the size and the content. -/
def blob (root : String) (commit : CommitId) (path : String) :
    Except CaptureError (Nat × List UInt8) := do
  let object := commit.text ++ ":" ++ path
  let out ← x.run root ["cat-file", "-s", object]
  let line ← GitOutput.text "object size" out
  let size ← someOr (GitOutput.parseU64 (trimText line))
    (.malformed "cat-file -s did not print a size")
  let bytes ← x.run root ["cat-file", "blob", object]
  .ok (size, bytes)

def rootCommits (root : String) (commit : CommitId) : Except CaptureError (List CommitId) := do
  let out ← x.run root ["rev-list", "--max-parents=0", commit.text, "--"]
  let lines ← GitOutput.text "root commits" out
  let roots ← (((lines.toList.splitOn '\n').map String.ofList).filter (fun l => !isBlank l)).mapM
    (fun l => (CommitId.new (trimText l)).mapError
      (fun _ => .malformed "rev-list did not print commit ids"))
  .ok (KeyedSort.sortOn CommitId.text roots).dedup

/-- What the adapter makes of the executable, errors as texts. -/
def git : Git where
  toplevel path := (x.toplevel path).mapError CaptureError.display
  version root := (x.version root).mapError CaptureError.display
  resolve root rev := (x.resolve root rev).mapError CaptureError.display
  firstParent root commit := (x.firstParent root commit).mapError CaptureError.display
  isClean root := (x.isClean root).mapError CaptureError.display
  nameStatus root base candidate :=
    (x.nameStatus root base candidate).mapError CaptureError.display
  untracked root := (x.untracked root).mapError CaptureError.display
  blob root commit path := (x.blob root commit path).mapError CaptureError.display
  workingFile := x.workingFile
  patch root base candidate :=
    (x.run root (patchArgs base candidate)).mapError CaptureError.display
  rootCommits root commit := (x.rootCommits root commit).mapError CaptureError.display

/-- What `git` documents of its output in a working tree, when it succeeds. -/
structure Prints (repo : Repo) (t : WorkTree) : Prop where
  toplevel : ∀ path out, x.run path toplevelArgs = .ok out →
    out = GitOutput.utf8 (repo.root ++ "\n")
  head : ∀ out, x.run repo.root (resolveArgs "HEAD") = .ok out →
    out = GitOutput.utf8 (t.head.text ++ "\n")
  status : ∀ out, x.run repo.root statusArgs = .ok out → (out = [] ↔ t.Clean repo)
  nameStatus : ∀ base out, x.run repo.root (nameStatusArgs base none) = .ok out →
    ∃ records, out = GitOutput.printStatus records ∧
      (∀ r ∈ records, GitOutput.Printable r.path) ∧
      ∀ entries : List (String × ChangeKind),
        records.map GitOutput.StatusRecord.entry = entries.map some →
          (entries.map Prod.fst).Nodup ∧
          Git.Lists entries (fun p => diffStatus (repo.tree base p) (t.tracked p))
  untracked : ∀ out, x.run repo.root untrackedArgs = .ok out →
    ∃ paths, out = GitOutput.printPaths paths ∧ (∀ p ∈ paths, GitOutput.Printable p) ∧
      paths.Nodup ∧ ∀ p, p ∈ paths ↔ t.Untracked p
  patch : ∀ base out, x.run repo.root (patchArgs base none) = .ok out →
    repo.applied base out = t.tracked
  workingFile : ∀ p size bytes, x.workingFile repo.root p = .ok (size, bytes) →
    t.content p = some bytes

variable {x} {repo : Repo} {t : WorkTree}

/-- The answers the adapter reads are the ones that `git` documents. -/
theorem Prints.exact (h : x.Prints repo t)
    (hroot : ∀ c ∈ repo.root.toList.getLast?, isWhiteSpace c = false) : x.git.Exact repo t where
  toplevel path root hread := by
    obtain ⟨out, hout, hread⟩ := bind_ok (mapError_ok hread)
    rw [h.toplevel path out (mapError_ok hout), GitOutput.text_utf8] at hread
    rw [← GitOutput.trimEnd_newline hroot]
    exact (Except.ok.inj hread).symm
  head commit hread := by
    obtain ⟨out, hout, hread⟩ := bind_ok (mapError_ok hread)
    rw [h.head out (mapError_ok hout), GitOutput.commitOf_newline] at hread
    exact (Except.ok.inj hread).symm
  isClean clean hread := by
    obtain ⟨out, hout, hread⟩ := bind_ok (mapError_ok hread)
    cases hread
    rw [List.isEmpty_iff]
    exact h.status out hout
  nameStatus base paths hread p kind := by
    obtain ⟨out, hout, hread⟩ := bind_ok (mapError_ok hread)
    obtain ⟨records, rfl, hprintable, hdoc⟩ := h.nameStatus base out hout
    obtain ⟨entries, hentries, rfl⟩ := (GitOutput.readNameStatus_ok hprintable).mp hread
    obtain ⟨hnd, hlists⟩ := hdoc entries hentries
    rw [SortedMap.mem_ofList, SortedMap.last_eq_some hnd]
    exact hlists p kind
  untracked paths hread := by
    obtain ⟨out, hout, hread⟩ := bind_ok (mapError_ok hread)
    obtain ⟨printed, rfl, hprintable, hnd, hmem⟩ := h.untracked out hout
    rw [GitOutput.readUntracked_printed hprintable] at hread
    cases hread
    exact ⟨hnd, hmem⟩
  patch base text hread := h.patch base text (mapError_ok hread)
  workingFile := h.workingFile

end Executable

/-- A capture of a working tree, over what `git` prints of it, is of the tree: a clean tree is
captured as its head, and otherwise every path is recorded with its kind and the content that
opening it reads. -/
theorem captured_tree {x : Executable} {repo : Repo} {t : WorkTree} (h : x.Prints repo t)
    (hroot : ∀ c ∈ repo.root.toList.getLast?, isWhiteSpace c = false) {rt : Runtime}
    {limits : CaptureLimits} {path : String} {rev : Option String} {now : Timestamp}
    {c : CapturedPatch} (hc : x.git.capture rt limits path ⟨.workingTree, rev⟩ now = .ok c) :
    c.result.candidate.commit = t.head ∧
    (c.result.candidate.kind = .commit ↔ t.Clean repo) ∧
    (¬ t.Clean repo →
      (∀ p kind, (∃ change ∈ c.result.changes, change.path = p ∧ change.change = kind) ↔
        t.kind repo c.result.baseCommit p = some kind) ∧
      ∀ change ∈ c.result.changes, change.change ≠ .deleted → ∃ bytes,
        t.content change.path = some bytes ∧
          change.contentDigest = some (artifactDigest rt bytes)) := by
  have hexact := h.exact hroot
  let m : Moment rt repo rev := ⟨x.git, t, limits, path, now, c, hexact, hc⟩
  obtain ⟨patch, -, hcandidate⟩ := m.saw.candidate
  refine ⟨congrArg Candidate.commit hcandidate, m.clean_iff, fun hdirty => ?_⟩
  obtain ⟨paths, hlists, hrecorded⟩ := m.dirty_changes hdirty
  constructor
  · intro p kind
    have hpaths : paths = c.result.changes.map (fun change => (change.path, change.change)) :=
      Git.recorded_paths hrecorded
    refine Iff.trans ?_ (hlists p kind)
    rw [hpaths, List.mem_map]
    simp only [Prod.mk.injEq]
  · intro change hchange hkept
    obtain ⟨entry, -, hentry⟩ := forall₂_mem_right hrecorded hchange
    unfold Git.Recorded at hentry
    split at hentry
    · rename_i hdeleted
      rw [hentry] at hkept
      exact absurd hdeleted hkept
    · obtain ⟨size, bytes, hread, rfl⟩ := hentry
      exact ⟨bytes, hexact.workingFile _ _ _ hread, rfl⟩

/-! ### One untracked file -/

section

open GitOutput (utf8 printPaths)
open Moment (scratch noteRepo noteTree noteGit noteHash noteDigest)
open Cli (noteResult)
open SoftwareVerifier (head)

def noteOutput (args : List String) : List UInt8 :=
  if args = Executable.toplevelArgs then utf8 "/work\n"
  else if args = ["--version"] then utf8 "git version 2.45.0\n"
  else if args = Executable.resolveArgs "HEAD" then utf8 (head.text ++ "\n")
  else if args = Executable.statusArgs then printPaths ["? notes.md"]
  else if args = Executable.untrackedArgs then printPaths ["notes.md"]
  else if args.head? = some "rev-list" then utf8 (head.text ++ "\n")
  else []

def noteExecutable : Executable where
  invoke args := .ok ⟨some 0, noteOutput (args.drop 15), []⟩
  lossy _ := ""
  workingFile := (noteGit scratch).workingFile

def noted : WorkTree := noteTree ⟨.regular, scratch⟩ []

theorem noteExecutable_run (dir : String) (args : List String) :
    noteExecutable.run dir args = .ok (noteOutput args) := rfl

theorem noteOutput_nameStatus (base : CommitId) :
    noteOutput (Executable.nameStatusArgs base none) = [] := by
  simp [noteOutput, Executable.nameStatusArgs, Executable.toplevelArgs, Executable.resolveArgs,
    Executable.statusArgs, Executable.untrackedArgs]

theorem noteOutput_patch (base : CommitId) :
    noteOutput (Executable.patchArgs base none) = [] := by
  simp [noteOutput, Executable.patchArgs, Executable.toplevelArgs, Executable.resolveArgs,
    Executable.statusArgs, Executable.untrackedArgs]

theorem noteExecutable_prints : noteExecutable.Prints noteRepo noted where
  toplevel _ out h := by
    rw [noteExecutable_run] at h
    exact (Except.ok.inj h).symm.trans (by decide)
  head out h := by
    rw [noteExecutable_run] at h
    exact (Except.ok.inj h).symm.trans (by decide)
  status out h := by
    rw [noteExecutable_run] at h
    have hout : out ≠ [] := (Except.ok.inj h) ▸ (by decide)
    refine iff_of_false hout fun hclean => ?_
    exact hclean.untracked "notes.md" ((Moment.noteTree_untracked _ _ _).mpr rfl)
  nameStatus base out h := by
    rw [noteExecutable_run, noteOutput_nameStatus] at h
    refine ⟨[], (Except.ok.inj h).symm, by simp, ?_⟩
    intro entries hentries
    obtain rfl := List.map_eq_nil_iff.mp hentries.symm
    refine ⟨List.nodup_nil, fun p kind => ?_⟩
    have hsame : diffStatus (noteRepo.tree base p) (noted.tracked p) = none := by
      rw [noted, Moment.noteTree_tracked]
      exact if_pos rfl
    simp [hsame]
  untracked out h := by
    rw [noteExecutable_run] at h
    refine ⟨["notes.md"], (Except.ok.inj h).symm.trans (by decide), ?_,
      List.nodup_singleton _, fun p => ?_⟩
    · unfold GitOutput.Printable
      decide
    · rw [noted, Moment.noteTree_untracked, List.mem_singleton]
  patch base out h := (Moment.noteTree_tracked _ _).symm
  workingFile := (@Moment.noteGit_exact ⟨.regular, scratch⟩ [] scratch rfl).workingFile

theorem noteRepo_root : ∀ c ∈ noteRepo.root.toList.getLast?, isWhiteSpace c = false := by
  have hlast : noteRepo.root.toList.getLast? = some 'k' := by decide
  intro c hc
  rw [hlast] at hc
  obtain rfl := Option.mem_some_iff.mp hc
  decide

theorem noteExecutable_toplevel : noteExecutable.toplevel "/work" = .ok "/work" := by
  have hout : noteOutput Executable.toplevelArgs = utf8 ("/work" ++ "\n") := by decide
  refine bind_eq_ok.mpr ⟨_, mapError_eq_ok.mpr (noteExecutable_run _ _), ?_⟩
  rw [hout]
  refine bind_eq_ok.mpr ⟨_, GitOutput.text_utf8 _ _, ?_⟩
  exact congrArg Except.ok (GitOutput.trimEnd_newline noteRepo_root)

theorem noteExecutable_version : noteExecutable.version "/work" = .ok "2.45.0" := by
  have hout : noteOutput ["--version"] = utf8 "git version 2.45.0\n" := by decide
  refine bind_eq_ok.mpr ⟨_, noteExecutable_run _ _, ?_⟩
  rw [hout]
  refine bind_eq_ok.mpr ⟨_, GitOutput.text_utf8 _ _, ?_⟩
  exact congrArg Except.ok (by decide)

theorem noteExecutable_head : noteExecutable.resolve "/work" "HEAD" = .ok head := by
  have hout : noteOutput (Executable.resolveArgs "HEAD") = utf8 (head.text ++ "\n") := by
    decide
  refine bind_eq_ok.mpr ⟨_, mapError_eq_ok.mpr (noteExecutable_run _ _), ?_⟩
  rw [hout]
  exact GitOutput.commitOf_newline head

theorem noteExecutable_isClean : noteExecutable.isClean "/work" = .ok false := by
  have hout : (noteOutput Executable.statusArgs).isEmpty = false := by decide
  refine bind_eq_ok.mpr ⟨_, noteExecutable_run _ _, ?_⟩
  rw [hout]

theorem noteExecutable_nameStatus : noteExecutable.nameStatus "/work" head none = .ok [] := by
  refine bind_eq_ok.mpr ⟨_, noteExecutable_run _ _, ?_⟩
  rw [noteOutput_nameStatus]
  rfl

theorem noteExecutable_untracked : noteExecutable.untracked "/work" = .ok ["notes.md"] := by
  have hout : noteOutput Executable.untrackedArgs = printPaths ["notes.md"] := by decide
  refine bind_eq_ok.mpr ⟨_, noteExecutable_run _ _, ?_⟩
  rw [hout]
  exact GitOutput.readUntracked_printed (by unfold GitOutput.Printable; decide)

theorem noteExecutable_rootCommits : noteExecutable.rootCommits "/work" head = .ok [head] := by
  have hout : noteOutput ["rev-list", "--max-parents=0", head.text, "--"] =
      utf8 (head.text ++ "\n") := by decide
  refine bind_eq_ok.mpr ⟨_, noteExecutable_run _ _, ?_⟩
  rw [hout]
  have hlines : (((head.text ++ "\n").toList.splitOn '\n').map String.ofList).filter
      (fun l => !isBlank l) = [head.text] := by decide
  have htrim : trimText head.text = head.text := by decide
  refine bind_eq_ok.mpr ⟨_, GitOutput.text_utf8 _ _, ?_⟩
  rw [hlines]
  refine bind_eq_ok.mpr ⟨[head], ?_, rfl⟩
  rw [List.mapM_cons, htrim, CommitId.new_text]
  rfl

theorem noteExecutable_changes : noteExecutable.git.readChanges noteHash .default "/work"
    .workingTree head CaptureLimits.default.maxTotalBytes [("notes.md", .untracked)] =
      .ok (noteResult Moment.scratchDigest 2).changes := by
  have hread : noteExecutable.git.content .default "/work" .workingTree head "notes.md"
      CaptureLimits.default.maxTotalBytes = .ok scratch := by
    have hleft : scratch.length ≤ CaptureLimits.default.maxTotalBytes := by decide
    refine bind_eq_ok.mpr ⟨(scratch.length, scratch), rfl, ?_⟩
    refine bind_eq_ok.mpr ⟨(), guardOk_eq_ok.mpr (decide_eq_true hleft), ?_⟩
    exact bind_eq_ok.mpr ⟨(), guardOk_eq_ok.mpr (decide_eq_true hleft), rfl⟩
  rw [Git.readChanges, if_neg (by decide)]
  refine bind_eq_ok.mpr ⟨scratch, hread, ?_⟩
  refine bind_eq_ok.mpr ⟨[], rfl, ?_⟩
  rw [artifactDigest, Moment.noteHash_texts.2.2]
  rfl

theorem noteExecutable_capture :
    noteExecutable.git.capture noteHash .default "/work" ⟨.workingTree, none⟩ Pilot.now =
      .ok ⟨"/work", noteResult Moment.scratchDigest 2, noteDigest Moment.scratchDigest 2⟩ := by
  have hbindings : (noteResult Moment.scratchDigest 2).checkBindings = [] :=
    Cli.noteResult_bindings Moment.scratchDigest (by decide)
  have hpatch : artifactDigest noteHash [] = Pilot.zeroDigest := Moment.noteHash_texts.1
  have hprinted : noteExecutable.run "/work" (Executable.patchArgs head none) = .ok [] :=
    (noteExecutable_run _ _).trans (congrArg Except.ok (noteOutput_patch head))
  have hcandidate : noteExecutable.git.candidateOf "/work" .workingTree =
      .ok (.workingTree, head) := by
    refine bind_eq_ok.mpr ⟨head, mapError_eq_ok (f := CaptureError.display).mpr
      noteExecutable_head, ?_⟩
    exact bind_eq_ok.mpr ⟨false, mapError_eq_ok (f := CaptureError.display).mpr
      noteExecutable_isClean, rfl⟩
  have hpaths : noteExecutable.git.changedPaths "/work" .workingTree head head =
      .ok [("notes.md", .untracked)] := by
    refine bind_eq_ok.mpr ⟨[], mapError_eq_ok (f := CaptureError.display).mpr
      noteExecutable_nameStatus, ?_⟩
    have huntracked : noteExecutable.git.untracked "/work" = .ok ["notes.md"] :=
      mapError_eq_ok (f := CaptureError.display).mpr noteExecutable_untracked
    change (noteExecutable.git.untracked "/work").map _ = _
    rw [huntracked]
    rfl
  have hsubject : digestOf noteHash "checkspan.patch_subject@1"
      (noteResult Moment.scratchDigest 2).subject = .ok (noteDigest Moment.scratchDigest 2) := by
    change envelopeDigest noteHash (noteResult Moment.scratchDigest 2).subjectEnvelope = _
    rw [envelopeDigest, envelopeBytes, Cli.checkEnvelopeNumbers_subject hbindings]
    rfl
  refine bind_eq_ok.mpr ⟨"/work", mapError_eq_ok (f := CaptureError.display).mpr
    noteExecutable_toplevel, ?_⟩
  refine bind_eq_ok.mpr ⟨"2.45.0", mapError_eq_ok (f := CaptureError.display).mpr
    noteExecutable_version, ?_⟩
  refine bind_eq_ok.mpr ⟨(.workingTree, head), hcandidate, ?_⟩
  refine bind_eq_ok.mpr ⟨head, rfl, ?_⟩
  refine bind_eq_ok.mpr ⟨[("notes.md", .untracked)], hpaths, ?_⟩
  refine bind_eq_ok.mpr ⟨(), rfl, ?_⟩
  refine bind_eq_ok.mpr ⟨_, noteExecutable_changes, ?_⟩
  refine bind_eq_ok.mpr ⟨[], mapError_eq_ok (f := CaptureError.display).mpr hprinted, ?_⟩
  refine bind_eq_ok.mpr ⟨[head], mapError_eq_ok (f := CaptureError.display).mpr
    noteExecutable_rootCommits, ?_⟩
  rw [hpatch]
  refine bind_eq_ok.mpr ⟨(), guardOk_eq_ok.mpr ?_, ?_⟩
  · exact List.isEmpty_iff.mpr hbindings
  · exact bind_eq_ok.mpr ⟨_, mapError_eq_ok.mpr hsubject, rfl⟩

/-- The added file is the one change. -/
theorem captured_tree_note :
    (noteResult Moment.scratchDigest 2).candidate.commit = noted.head ∧ ∀ p kind,
      (∃ change ∈ (noteResult Moment.scratchDigest 2).changes,
        change.path = p ∧ change.change = kind) ↔ noted.kind noteRepo head p = some kind := by
  have hdirty : ¬ noted.Clean noteRepo := fun hclean =>
    hclean.untracked "notes.md" ((Moment.noteTree_untracked _ _ _).mpr rfl)
  obtain ⟨hhead, -, hchanges⟩ :=
    captured_tree noteExecutable_prints noteRepo_root noteExecutable_capture
  exact ⟨hhead, (hchanges hdirty).1⟩

end

end Checkspan
