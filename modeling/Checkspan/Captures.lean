import Checkspan.Admission
import Checkspan.Evidence

/-!
# Captures (`src/adapters/code/mod.rs`) and code locators (`src/evidence/mod.rs:921-964`)

A capture asks `git` for the candidate and its base and reads every changed path. What is
frozen of it is a locator, from which the repository and the selection are read back.
-/

namespace Checkspan

/-! ### Splitting texts -/

def splitOnceChars (c : Char) : List Char → Option (List Char × List Char)
  | [] => none
  | d :: ds => if d = c then some ([], ds) else (splitOnceChars c ds).map (fun p => (d :: p.1, p.2))

/-- `value.split_once(c)`. -/
def splitOnce (value : String) (c : Char) : Option (String × String) :=
  (splitOnceChars c value.toList).map (fun p => (String.ofList p.1, String.ofList p.2))

/-- `value.rsplit_once(c)`. -/
def rsplitOnce (value : String) (c : Char) : Option (String × String) :=
  (splitOnceChars c value.toList.reverse).map
    (fun p => (String.ofList p.2.reverse, String.ofList p.1.reverse))

theorem splitOnceChars_append {c : Char} {a : List Char} (h : c ∉ a) (b : List Char) :
    splitOnceChars c (a ++ c :: b) = some (a, b) := by
  induction a with
  | nil => exact if_pos rfl
  | cons d a ih =>
    rw [List.mem_cons, not_or] at h
    rw [List.cons_append, splitOnceChars, if_neg (Ne.symm h.1), ih h.2]
    rfl

theorem splitOnce_append {a : String} {c : Char} (h : c ∉ a.toList) (b : String) :
    splitOnce (a ++ String.singleton c ++ b) c = some (a, b) := by
  have hsplit := splitOnceChars_append h b.toList
  unfold splitOnce
  rw [String.toList_append, String.toList_append, String.toList_singleton, List.append_assoc,
    List.singleton_append, hsplit]
  simp

theorem rsplitOnce_append (a : String) {b : String} {c : Char} (h : c ∉ b.toList) :
    rsplitOnce (a ++ String.singleton c ++ b) c = some (a, b) := by
  have hsplit := splitOnceChars_append (a := b.toList.reverse) (by simpa using h) a.toList.reverse
  unfold rsplitOnce
  rw [String.toList_append, String.toList_append, String.toList_singleton, List.append_assoc,
    List.reverse_append, List.singleton_append, List.reverse_cons, List.append_assoc,
    List.singleton_append, hsplit]
  simp

theorem splitOnceChars_eq {c : Char} {cs : List Char} {p : List Char × List Char}
    (h : splitOnceChars c cs = some p) : cs = p.1 ++ c :: p.2 := by
  induction cs generalizing p with
  | nil => cases h
  | cons d cs ih =>
    rw [splitOnceChars] at h
    split at h
    · rename_i hd
      cases h
      rw [hd]
      rfl
    · obtain ⟨q, hq, rfl⟩ := Option.map_eq_some_iff.mp h
      rw [ih hq]
      rfl

theorem splitOnce_eq {value : String} {c : Char} {p : String × String}
    (h : splitOnce value c = some p) : value = p.1 ++ String.singleton c ++ p.2 := by
  unfold splitOnce at h
  obtain ⟨q, hq, rfl⟩ := Option.map_eq_some_iff.mp h
  rw [← String.toList_inj, splitOnceChars_eq hq]
  simp

/-! ### Code locators -/

/-- `code_locator`: the locator of a candidate in a repository. -/
def codeLocatorOf (root : String) (base : CommitId) (kind : CandidateKind) (commit : CommitId) :
    String :=
  "git:" ++ root ++ "#base=" ++ base.text ++ "&candidate=" ++ kind.asStr ++ ":" ++ commit.text

/-- `code_selection`: the repository and selection a locator names. -/
def codeSelection (locator : String) : Option (String × Selection) := do
  let rest ← stripPrefix "git:" locator
  let (root, query) ← rsplitOnce rest '#'
  let (base, candidate) ← splitOnce query '&'
  let base ← stripPrefix "base=" base
  let candidate ← stripPrefix "candidate=" candidate
  let (kind, commit) ← splitOnce candidate ':'
  let commit ← (CommitId.new commit).toOption
  let _ ← (CommitId.new base).toOption
  let selector ← if kind = "commit" then some (.commit commit.text)
    else if kind = "working_tree" then some .workingTree
    else none
  some (root, { candidate := selector, base := some base })

def locatorSelection (kind : CandidateKind) (commit base : CommitId) : Selection where
  candidate := match kind with
    | .commit => .commit commit.text
    | .workingTree => .workingTree
  base := some base.text

theorem not_mem_commit {c : Char} (commit : CommitId) (hc : isLowerHex c = false) :
    c ∉ commit.text.toList := by
  intro hmem
  have hvalid := commit.valid
  unfold isCommitText at hvalid
  rw [Bool.and_eq_true, List.all_eq_true] at hvalid
  have hhex := hvalid.2 c hmem
  rw [hc] at hhex
  cases hhex

theorem codeSelection_locator (root : String) (base : CommitId) (kind : CandidateKind)
    (commit : CommitId) :
    codeSelection (codeLocatorOf root base kind commit) =
      some (root, locatorSelection kind commit base) := by
  have hkind : ∀ c, c = '#' ∨ c = '&' ∨ c = ':' → c ∉ kind.asStr.toList := by
    rintro c (rfl | rfl | rfl) <;> cases kind <;> decide
  have hquery : '#' ∉ ("base=" ++ base.text ++ "&candidate=" ++ kind.asStr ++ ":" ++
      commit.text).toList := by
    have hbase := not_mem_commit (c := '#') base rfl
    have hcommit := not_mem_commit (c := '#') commit rfl
    have hkind' := hkind '#' (Or.inl rfl)
    simp [hbase, hcommit, hkind']
  have hand : '&' ∉ ("base=" ++ base.text).toList := by
    have hbase := not_mem_commit (c := '&') base rfl
    simp [hbase]
  have htext : codeLocatorOf root base kind commit = "git:" ++
      (root ++ String.singleton '#' ++ ("base=" ++ base.text ++
        "&candidate=" ++ kind.asStr ++ ":" ++ commit.text)) := by
    rw [← String.toList_inj]
    simp [codeLocatorOf]
  have hcandidate : "base=" ++ base.text ++ "&candidate=" ++ kind.asStr ++ ":" ++ commit.text =
      "base=" ++ base.text ++ String.singleton '&' ++
        ("candidate=" ++ (kind.asStr ++ String.singleton ':' ++ commit.text)) := by
    rw [← String.toList_inj]
    simp
  unfold codeSelection
  rw [htext, Graph.stripPrefix_eq_some.mpr rfl]
  simp only [Option.bind_eq_bind, Option.bind_some, rsplitOnce_append root hquery]
  rw [hcandidate, splitOnce_append hand]
  simp only [Option.bind_some, Graph.stripPrefix_eq_some.mpr rfl,
    splitOnce_append (hkind ':' (Or.inr (Or.inr rfl))) commit.text, CommitId.new_text]
  cases kind <;> rfl

theorem locatorSelection_kind {kind kind' : CandidateKind} {commit commit' base base' : CommitId}
    (h : locatorSelection kind commit base = locatorSelection kind' commit' base') :
    kind = kind' ∧ base = base' := by
  have hbase : base.text = base'.text := Option.some.inj (congrArg Selection.base h)
  have hselector := congrArg Selection.candidate h
  constructor
  · cases kind with
    | commit => cases kind' <;> first | rfl | cases hselector
    | workingTree => cases kind' <;> first | rfl | cases hselector
  · cases base
    cases base'
    cases hbase
    rfl

/-- A working tree's selection leaves out its commit, so that is read off the texts. -/
theorem codeLocatorOf_commit {root : String} {base : CommitId} {kind : CandidateKind}
    {commit commit' : CommitId}
    (h : codeLocatorOf root base kind commit = codeLocatorOf root base kind commit') :
    commit = commit' := by
  have htext : commit.text = commit'.text := by
    rw [← String.toList_inj] at h ⊢
    simpa [codeLocatorOf] using h
  cases commit
  cases commit'
  cases htext
  rfl

/-- A locator reads back as the root, the base and the selection it was written for,
whatever the root's text, and no two candidates share one. -/
theorem code_locators_read_back (root : String) (base : CommitId) (kind : CandidateKind)
    (commit : CommitId) :
    codeSelection (codeLocatorOf root base kind commit) =
      some (root, locatorSelection kind commit base) ∧
    ∀ root' base' kind' commit',
      codeLocatorOf root base kind commit = codeLocatorOf root' base' kind' commit' →
      root = root' ∧ base = base' ∧ kind = kind' ∧ commit = commit' := by
  refine ⟨codeSelection_locator root base kind commit, ?_⟩
  intro root' base' kind' commit' heq
  have hread := codeSelection_locator root base kind commit
  rw [heq, codeSelection_locator] at hread
  obtain ⟨rfl, hselection⟩ := Prod.mk.inj (Option.some.inj hread)
  obtain ⟨rfl, rfl⟩ := locatorSelection_kind hselection
  exact ⟨rfl, rfl, rfl, codeLocatorOf_commit heq⟩

/-! ### Captures -/

structure CaptureLimits where
  maxPaths : Nat
  maxTotalBytes : Nat

def CaptureLimits.default : CaptureLimits :=
  { maxPaths := 4096, maxTotalBytes := 64 * 1024 * 1024 }

/-- What the `git` executable prints in a directory, as the adapter reads it, and the files
of a working tree. Contents come with the size that was looked up before. -/
structure Git where
  /-- `rev-parse --show-toplevel`. -/
  toplevel : String → Except String String
  version : String → Except String String
  /-- `rev-parse --verify` of a revision, as a commit. -/
  resolve : String → String → Except String CommitId
  firstParent : String → CommitId → Except String CommitId
  isClean : String → Except String Bool
  nameStatus : String → CommitId → Option CommitId → Except String (List (String × ChangeKind))
  untracked : String → Except String (List String)
  blob : String → CommitId → String → Except String (Nat × List UInt8)
  workingFile : String → String → Except String (Nat × List UInt8)
  patch : String → CommitId → Option CommitId → Except String (List UInt8)
  rootCommits : String → CommitId → Except String (List CommitId)

structure CapturedPatch where
  root : String
  result : PatchResult
  subjectDigest : Digest

/-- What resolution reads of a captured candidate. -/
def CapturedPatch.seen (c : CapturedPatch) : Captured where
  root := c.root
  baseCommit := c.result.baseCommit.text
  kind := c.result.candidate.kind
  commit := c.result.candidate.commit.text
  result := c.result.toJson
  subjectDigest := c.subjectDigest

theorem codeLocator_seen (c : CapturedPatch) : Resolver.codeLocator c.seen =
    codeLocatorOf c.root c.result.baseCommit c.result.candidate.kind c.result.candidate.commit :=
  rfl

namespace PatchResult

/-- `subject`: everything except when the record was captured and by which tool. -/
def subject (p : PatchResult) : Json :=
  .obj [("repository", p.repository.toJson), ("base_commit", p.baseCommit.toJson),
    ("candidate", p.candidate.toJson), ("changes", .arr (p.changes.map (·.toJson)))]

/-- What the subject digest is the digest of. -/
def subjectEnvelope (p : PatchResult) : Json :=
  .obj [("algorithm", .str "jcs-sha256@1"), ("kind", .str "checkspan.patch_subject@1"),
    ("body", p.subject)]

def changeErrors (previous : Option String) (c : Change) : List String :=
  (if isCleanRelativePath c.path then [] else
    ["path " ++ c.path.quote ++ " is not a clean relative path"]) ++
  (if previous.any (fun p => p ≥ c.path) then
    ["path " ++ c.path.quote ++ " is out of order or repeated"] else []) ++
  (if c.change = .deleted then
    (if c.contentDigest.isSome || c.size.isSome then
      ["deleted path " ++ c.path.quote ++ " carries content"] else [])
  else if c.contentDigest.isSome && c.size.isSome then []
  else ["path " ++ c.path.quote ++ " lacks its content digest or size"]) ++
  (if c.size.any (fun n => n.toNat > 2 ^ 53 - 1) then
    ["size of " ++ c.path.quote ++ " exceeds 2^53 - 1"] else [])

def changesErrors (previous : Option String) : List Change → List String
  | [] => []
  | c :: rest => changeErrors previous c ++ changesErrors (some c.path) rest

def ascending : List CommitId → Bool
  | a :: b :: rest => decide (a.text < b.text) && ascending (b :: rest)
  | _ => true

/-- `check_bindings`, its errors as texts. -/
def checkBindings (p : PatchResult) : List String :=
  (if p.repository.rootCommits.isEmpty then ["repository lists no root commit"] else []) ++
  (if ascending p.repository.rootCommits then [] else ["root commits are not sorted and unique"]) ++
  changesErrors none p.changes ++
  (if p.tool.name = "git" then [] else ["tool " ++ p.tool.name.quote ++ " is not git"])

end PatchResult

namespace Git

variable (rt : Runtime) (g : Git) (limits : CaptureLimits)

/-- `entry(path)`: an untracked path that differs from the base is a modified one. -/
def addUntracked (paths : List (String × ChangeKind)) (path : String) :
    List (String × ChangeKind) :=
  if (paths.lookup path).isSome then
    paths.map (fun p => if p.1 = path then (path, .modified) else p)
  else paths.takeWhile (fun p => p.1 < path) ++ (path, .untracked) ::
    paths.dropWhile (fun p => p.1 < path)

/-- The content of a changed path, within what is left to read. -/
def content (root : String) (kind : CandidateKind) (commit : CommitId) (path : String)
    (remaining : Nat) : Except String (List UInt8) := do
  let (size, bytes) ← match kind with
    | .commit => g.blob root commit path
    | .workingTree => g.workingFile root path
  let tooLarge (n : Nat) := "reading " ++ path.quote ++ " (" ++ toString n ++
    " bytes) would exceed the content limit of " ++ toString limits.maxTotalBytes ++ " bytes"
  guardOk (size ≤ remaining) (tooLarge size)
  guardOk (bytes.length ≤ remaining) (tooLarge bytes.length)
  .ok bytes

def readChanges (root : String) (kind : CandidateKind) (commit : CommitId) (remaining : Nat) :
    List (String × ChangeKind) → Except String (List Change)
  | [] => .ok []
  | (path, change) :: rest =>
    if change = .deleted then do
      let changes ← readChanges root kind commit remaining rest
      .ok (⟨path, change, none, none⟩ :: changes)
    else do
      let bytes ← g.content limits root kind commit path remaining
      let changes ← readChanges root kind commit (remaining - bytes.length) rest
      .ok (⟨path, change, some (artifactDigest rt bytes), some (UInt64.ofNat bytes.length)⟩ ::
        changes)

def compareWith (commit : CommitId) : CandidateKind → Option CommitId
  | .commit => some commit
  | .workingTree => none

def changedPaths (root : String) (kind : CandidateKind) (commit base : CommitId) :
    Except String (List (String × ChangeKind)) := do
  let tracked ← g.nameStatus root base (compareWith commit kind)
  match kind with
  | .commit => .ok tracked
  | .workingTree => (g.untracked root).map (fun paths => paths.foldl addUntracked tracked)

/-- What a capture does once it knows the candidate and its base. -/
def captureBetween (root version : String) (kind : CandidateKind) (commit base : CommitId)
    (now : Timestamp) : Except String CapturedPatch := do
  let paths ← g.changedPaths root kind commit base
  guardOk (paths.length ≤ limits.maxPaths) (toString paths.length ++
    " changed paths exceed the limit of " ++ toString limits.maxPaths)
  let changes ← g.readChanges rt limits root kind commit limits.maxTotalBytes paths
  let patch ← g.patch root base (compareWith commit kind)
  let rootCommits ← g.rootCommits root commit
  let result : PatchResult :=
    { record := .patchResult, schemaVersion := 1, repository := ⟨rootCommits⟩, baseCommit := base
      candidate := ⟨kind, commit, artifactDigest rt patch⟩, changes := changes, capturedAt := now
      tool := ⟨"git", version⟩ }
  guardOk result.checkBindings.isEmpty
    ("captured record is inconsistent:" ++ joinText "" (result.checkBindings.map (" " ++ · ++ ";")))
  let subjectDigest ← (digestOf rt "checkspan.patch_subject@1" result.subject).mapError
    CanonicalError.display
  .ok ⟨root, result, subjectDigest⟩

def candidateOf (root : String) : Selector → Except String (CandidateKind × CommitId)
  | .workingTree => do
    let head ← g.resolve root "HEAD"
    let clean ← g.isClean root
    .ok (if clean then .commit else .workingTree, head)
  | .commit rev => do
    let commit ← g.resolve root rev
    .ok (.commit, commit)

/-- The base of a selection, `HEAD` or the first parent when it names none. -/
def baseOf (root : String) (selection : Selection) (commit : CommitId) : Except String CommitId :=
  match selection.base, selection.candidate with
  | some rev, _ => g.resolve root rev
  | none, .workingTree => .ok commit
  | none, .commit _ => g.firstParent root commit

def capture (path : String) (selection : Selection) (now : Timestamp) :
    Except String CapturedPatch := do
  let root ← g.toplevel path
  let version ← g.version root
  let (kind, commit) ← g.candidateOf root selection.candidate
  let base ← g.baseOf root selection commit
  g.captureBetween rt limits root version kind commit base now

/-- What is documented of `git`: a top-level directory is its own, and a commit's name
resolves to the commit. -/
structure Lawful : Prop where
  toplevel : ∀ path root, g.toplevel path = .ok root → g.toplevel root = .ok root
  resolve : ∀ root rev commit, g.resolve root rev = .ok commit →
    g.resolve root commit.text = .ok commit
  firstParent : ∀ root commit parent, g.firstParent root commit = .ok parent →
    g.resolve root parent.text = .ok parent

variable {rt g limits}

theorem captureBetween_ok {root version : String} {kind : CandidateKind} {commit base : CommitId}
    {now : Timestamp} {c : CapturedPatch}
    (h : g.captureBetween rt limits root version kind commit base now = .ok c) :
    c.root = root ∧ c.result.candidate.kind = kind ∧ c.result.candidate.commit = commit ∧
      c.result.baseCommit = base := by
  unfold captureBetween at h
  obtain ⟨paths, -, h⟩ := bind_ok h
  obtain ⟨_, -, h⟩ := bind_ok h
  obtain ⟨changes, -, h⟩ := bind_ok h
  obtain ⟨patch, -, h⟩ := bind_ok h
  obtain ⟨rootCommits, -, h⟩ := bind_ok h
  obtain ⟨_, -, h⟩ := bind_ok h
  obtain ⟨subjectDigest, -, h⟩ := bind_ok h
  cases h
  exact ⟨rfl, rfl, rfl, rfl⟩

theorem candidateOf_again (hg : g.Lawful) {root : String} {selector : Selector}
    {kind : CandidateKind} {commit : CommitId} (base : CommitId)
    (h : g.candidateOf root selector = .ok (kind, commit)) :
    g.candidateOf root (locatorSelection kind commit base).candidate = .ok (kind, commit) := by
  cases selector with
  | workingTree =>
    obtain ⟨head, hhead, h⟩ := bind_ok h
    obtain ⟨clean, hclean, h⟩ := bind_ok h
    cases h
    cases clean with
    | true =>
      have hcommit := hg.resolve root "HEAD" commit hhead
      simp only [locatorSelection, candidateOf, if_true, hcommit]
      rfl
    | false =>
      simp only [locatorSelection, candidateOf, if_false, hhead, hclean, Bool.false_eq_true]
      rfl
  | commit rev =>
    obtain ⟨head, hhead, h⟩ := bind_ok h
    cases h
    have hcommit := hg.resolve root rev commit hhead
    simp only [locatorSelection, candidateOf, hcommit]
    rfl

theorem baseOf_again (hg : g.Lawful) {root : String} {selection : Selection}
    {kind : CandidateKind} {commit base : CommitId}
    (hcandidate : g.candidateOf root selection.candidate = .ok (kind, commit))
    (h : g.baseOf root selection commit = .ok base) :
    g.resolve root base.text = .ok base := by
  unfold baseOf at h
  split at h
  · exact hg.resolve root _ base h
  · rename_i hselector
    cases h
    rw [hselector] at hcandidate
    obtain ⟨head, hhead, hcandidate⟩ := bind_ok hcandidate
    obtain ⟨clean, -, hcandidate⟩ := bind_ok hcandidate
    cases hcandidate
    exact hg.resolve root _ _ hhead
  · exact hg.firstParent root commit base h

theorem baseOf_locator (root : String) (kind : CandidateKind) (commit base commit' : CommitId) :
    g.baseOf root (locatorSelection kind commit base) commit' = g.resolve root base.text := rfl

/-- Capturing what a locator selects finds the same candidate again. -/
theorem capture_again (hg : g.Lawful) {path : String} {selection : Selection} {now : Timestamp}
    {c : CapturedPatch} (h : g.capture rt limits path selection now = .ok c) :
    g.toplevel path = .ok c.root ∧
      g.capture rt limits c.root (locatorSelection c.result.candidate.kind
        c.result.candidate.commit c.result.baseCommit) now = .ok c := by
  obtain ⟨root, hroot, h⟩ := bind_ok h
  obtain ⟨version, hversion, h⟩ := bind_ok h
  obtain ⟨⟨kind, commit⟩, hcandidate, h⟩ := bind_ok h
  obtain ⟨base, hbase, h⟩ := bind_ok h
  obtain ⟨rfl, rfl, rfl, rfl⟩ := captureBetween_ok h
  refine ⟨hroot, ?_⟩
  have hbase' := baseOf_again hg hcandidate hbase
  have hcandidate' := candidateOf_again hg c.result.baseCommit hcandidate
  have htop := hg.toplevel path c.root hroot
  unfold capture
  simp only [htop, hversion, hcandidate', baseOf_locator, hbase', Except.bind, bind]
  exact h

end Git

end Checkspan
