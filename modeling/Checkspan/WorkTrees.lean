import Mathlib.Data.Set.Function
import Checkspan.Captures
import Checkspan.Documents

/-!
# What a subject tells about the working tree (`src/adapters/code/mod.rs:207-341`)

The subject of a working tree rests on four answers: whether the tree is clean, the paths that
differ from the base, the untracked paths, and the patch. File types are in the patch, so only
of tracked files; the content of any path is what opening it reads, through a symbolic link.
-/

namespace Checkspan

/-! ### Trees -/

inductive FileType where
  | regular
  | executable
  | symlink
deriving DecidableEq

/-- A file, the bytes of a symbolic link being its target. -/
structure Entry where
  type : FileType
  bytes : List UInt8
deriving DecidableEq

/-- A repository's commits, and what a patch of one makes of its files. -/
structure Repo where
  root : String
  tree : CommitId → String → Option Entry
  applied : CommitId → List UInt8 → String → Option Entry

/-- A working tree at one moment. -/
structure WorkTree where
  head : CommitId
  entries : String → Option Entry
  /-- The tracked paths, as they are staged. -/
  index : String → Option Entry
  /-- The paths the exclude rules match. -/
  excluded : String → Bool
  /-- What a symbolic link leads to. -/
  through : String → Option (List UInt8)

namespace WorkTree

variable (t : WorkTree) (repo : Repo)

def Ignored (p : String) : Prop := t.index p = none ∧ t.excluded p = true

def Untracked (p : String) : Prop :=
  t.index p = none ∧ t.excluded p = false ∧ t.entries p ≠ none

/-- The files of the tracked paths. -/
def tracked (p : String) : Option Entry := if t.index p = none then none else t.entries p

/-- The bytes that opening a path reads. -/
def content (p : String) : Option (List UInt8) :=
  (t.entries p).bind (fun e => if e.type = .symlink then t.through p else some e.bytes)

/-- Nothing is staged, changed or untracked. -/
structure Clean : Prop where
  staged : ∀ p, t.index p = repo.tree t.head p
  changed : ∀ p, t.index p ≠ none → t.entries p = t.index p
  untracked : ∀ p, ¬ t.Untracked p

/-- A path whose file a capture opens when the tree is not clean. -/
def Opened (base : CommitId) (p : String) : Prop :=
  t.Untracked p ∨ (t.index p ≠ none ∧ t.entries p ≠ none ∧ t.entries p ≠ repo.tree base p)

def IsLink (p : String) : Prop := (t.entries p).any (fun e => e.type = .symlink) = true

/-- The same tree, whatever its links lead to. -/
def Unchanged (t' : WorkTree) : Prop := ∃ through, t' = { t with through := through }

/-- The trees have the same files where neither ignores them. -/
def Agree (t' : WorkTree) : Prop :=
  ∀ p, ¬ t.Ignored p → ¬ t'.Ignored p → t.entries p = t'.entries p

end WorkTree

instance (t : WorkTree) (p : String) : Decidable (t.Untracked p) :=
  inferInstanceAs (Decidable (_ ∧ _ ∧ _))

/-- How a path differs from a base. -/
def diffStatus (old new : Option Entry) : Option ChangeKind :=
  if old = new then none
  else if old = none then some .added
  else if new = none then some .deleted
  else some .modified

/-- The kind an untracked path is entered with. -/
def mergedKind : Option ChangeKind → ChangeKind
  | some _ => .modified
  | none => .untracked

/-- The kind a path of a dirty tree is recorded with. -/
def WorkTree.kind (t : WorkTree) (repo : Repo) (base : CommitId) (p : String) : Option ChangeKind :=
  if t.Untracked p then some (mergedKind (diffStatus (repo.tree base p) (t.tracked p)))
  else diffStatus (repo.tree base p) (t.tracked p)

namespace Git

/-- What `git` documents of its answers about a working tree, for the paths each covers, and
what opening a file reads. -/
structure Exact (g : Git) (repo : Repo) (t : WorkTree) : Prop where
  toplevel : ∀ path root, g.toplevel path = .ok root → root = repo.root
  head : ∀ commit, g.resolve repo.root "HEAD" = .ok commit → commit = t.head
  isClean : ∀ clean, g.isClean repo.root = .ok clean → (clean = true ↔ t.Clean repo)
  nameStatus : ∀ base paths, g.nameStatus repo.root base none = .ok paths → ∀ p kind,
    (p, kind) ∈ paths ↔ diffStatus (repo.tree base p) (t.tracked p) = some kind
  untracked : ∀ paths, g.untracked repo.root = .ok paths →
    paths.Nodup ∧ ∀ p, p ∈ paths ↔ t.Untracked p
  patch : ∀ base text, g.patch repo.root base none = .ok text →
    repo.applied base text = t.tracked
  workingFile : ∀ p size bytes, g.workingFile repo.root p = .ok (size, bytes) →
    t.content p = some bytes

/-- `git` prints the same again. -/
structure Repeats (g g' : Git) (root : String) : Prop where
  resolve : g'.resolve root = g.resolve root
  isClean : g'.isClean root = g.isClean root
  nameStatus : g'.nameStatus root = g.nameStatus root
  untracked : g'.untracked root = g.untracked root
  blob : g'.blob root = g.blob root
  patch : g'.patch root = g.patch root
  rootCommits : g'.rootCommits root = g.rootCommits root

theorem Repeats.changedPaths {g g' : Git} {root : String} (h : g.Repeats g' root)
    (kind : CandidateKind) (commit base : CommitId) :
    g'.changedPaths root kind commit base = g.changedPaths root kind commit base := by
  unfold Git.changedPaths
  rw [h.nameStatus, h.untracked]

/-! ### The changed paths -/

/-- The list holds a path with a kind exactly where the function gives that kind. -/
def Lists (paths : List (String × ChangeKind)) (kinds : String → Option ChangeKind) : Prop :=
  ∀ p kind, (p, kind) ∈ paths ↔ kinds p = some kind

theorem Lists.unique {paths : List (String × ChangeKind)}
    {kinds kinds' : String → Option ChangeKind} (h : Lists paths kinds) (h' : Lists paths kinds')
    (p : String) : kinds p = kinds' p := by
  refine Option.ext fun kind => ?_
  rw [← h p kind, ← h' p kind]

theorem Lists.lookup {paths : List (String × ChangeKind)} {kinds : String → Option ChangeKind}
    (h : Lists paths kinds) (p : String) : (paths.lookup p).isSome = (kinds p).isSome := by
  cases hlook : paths.lookup p with
  | none =>
    cases hkind : kinds p with
    | none => rfl
    | some kind =>
      have hmem := (h p kind).mpr hkind
      have hne := List.lookup_eq_none_iff.mp hlook (p, kind) hmem
      simp at hne
  | some kind =>
    obtain ⟨before, after, hsplit, -⟩ := List.lookup_eq_some_iff.mp hlook
    have hmem : (p, kind) ∈ paths := hsplit ▸ List.mem_append_right _ (List.mem_cons_self ..)
    rw [(h p kind).mp hmem]

theorem Lists.addUntracked {paths : List (String × ChangeKind)}
    {kinds : String → Option ChangeKind} (h : Lists paths kinds) (q : String) :
    Lists (addUntracked paths q) (Function.update kinds q (some (mergedKind (kinds q)))) := by
  intro p kind
  have hlook := h.lookup q
  unfold Git.addUntracked
  cases hq : kinds q with
  | some old =>
    have hsome : (paths.lookup q).isSome = true := by simp [hlook, hq]
    rw [if_pos hsome, List.mem_map]
    by_cases hp : p = q
    · subst hp
      rw [Function.update_self]
      constructor
      · rintro ⟨⟨p', kind'⟩, -, hstep⟩
        split at hstep
        · cases hstep
          rfl
        · rename_i hne
          cases hstep
          exact absurd rfl hne
      · rintro ⟨⟩
        exact ⟨(p, old), (h p old).mpr hq, if_pos rfl⟩
    · rw [Function.update_of_ne hp, ← h p kind]
      constructor
      · rintro ⟨⟨p', kind'⟩, hmem, hstep⟩
        split at hstep
        · cases hstep
          exact absurd rfl hp
        · cases hstep
          exact hmem
      · intro hmem
        exact ⟨(p, kind), hmem, if_neg hp⟩
  | none =>
    have hnone : ¬ (paths.lookup q).isSome = true := by simp [hlook, hq]
    rw [if_neg hnone]
    have hmerged : (p, kind) ∈ paths.takeWhile (fun x => x.1 < q) ++ (q, .untracked) ::
        paths.dropWhile (fun x => x.1 < q) ↔ (p, kind) = (q, .untracked) ∨ (p, kind) ∈ paths := by
      conv_rhs =>
        rw [← List.takeWhile_append_dropWhile (p := fun x => decide (x.1 < q)) (l := paths)]
      simp only [List.mem_append, List.mem_cons]
      tauto
    rw [hmerged]
    by_cases hp : p = q
    · subst hp
      have hnot : (p, kind) ∉ paths := by
        intro hmem
        rw [h p kind, hq] at hmem
        cases hmem
      simp only [Prod.mk.injEq, true_and, hnot, or_false, Function.update_self, mergedKind,
        Option.some.injEq, eq_comm]
    · rw [Function.update_of_ne hp, ← h p kind]
      simp [hp]

/-- The paths of a dirty tree: the untracked ones take precedence. -/
theorem lists_merged {tracked : List (String × ChangeKind)} {kinds : String → Option ChangeKind}
    (h : Lists tracked kinds) {untracked : List String} (hnd : untracked.Nodup) :
    Lists (untracked.foldl Git.addUntracked tracked)
      (fun p => if p ∈ untracked then some (mergedKind (kinds p)) else kinds p) := by
  induction untracked generalizing tracked kinds with
  | nil => simpa using h
  | cons q rest ih =>
    obtain ⟨hq, hrest⟩ := List.nodup_cons.mp hnd
    intro p kind
    rw [List.foldl_cons, ih (h.addUntracked q) hrest p kind]
    by_cases hp : p = q
    · subst hp
      simp [hq]
    · simp [hp, Function.update_of_ne]

/-! ### What a capture records -/

section

variable {rt : Runtime} {g : Git} {limits : CaptureLimits} {root : String}

/-- Where the content of a changed path is read from. -/
def source (g : Git) (root : String) (kind : CandidateKind) (commit : CommitId) (p : String) :
    Except String (Nat × List UInt8) :=
  if kind = .commit then g.blob root commit p else g.workingFile root p

/-- A recorded change, and the changed path it is of. -/
def Recorded (rt : Runtime) (read : String → Except String (Nat × List UInt8))
    (path : String × ChangeKind) (change : Change) : Prop :=
  if path.2 = .deleted then change = ⟨path.1, path.2, none, none⟩
  else ∃ size bytes, read path.1 = .ok (size, bytes) ∧ change =
    ⟨path.1, path.2, some (artifactDigest rt bytes), some (UInt64.ofNat bytes.length)⟩

theorem content_ok {kind : CandidateKind} {commit : CommitId} {p : String} {remaining : Nat}
    {bytes : List UInt8} (h : g.content limits root kind commit p remaining = .ok bytes) :
    ∃ size, g.source root kind commit p = .ok (size, bytes) := by
  unfold Git.content at h
  cases kind with
  | commit =>
    obtain ⟨⟨size, bytes'⟩, hread, h⟩ := bind_ok h
    obtain ⟨_, -, h⟩ := bind_ok h
    obtain ⟨_, -, h⟩ := bind_ok h
    cases h
    exact ⟨size, hread⟩
  | workingTree =>
    obtain ⟨⟨size, bytes'⟩, hread, h⟩ := bind_ok h
    obtain ⟨_, -, h⟩ := bind_ok h
    obtain ⟨_, -, h⟩ := bind_ok h
    cases h
    exact ⟨size, hread⟩

theorem readChanges_ok {kind : CandidateKind} {commit : CommitId} {remaining : Nat}
    {paths : List (String × ChangeKind)} {changes : List Change}
    (h : g.readChanges rt limits root kind commit remaining paths = .ok changes) :
    List.Forall₂ (Recorded rt (g.source root kind commit)) paths changes := by
  induction paths generalizing remaining changes with
  | nil =>
    cases h
    exact .nil
  | cons path rest ih =>
    obtain ⟨p, change⟩ := path
    rw [readChanges] at h
    split at h
    · rename_i hdeleted
      obtain ⟨others, hothers, h⟩ := bind_ok h
      cases h
      refine .cons ?_ (ih hothers)
      rw [Recorded, if_pos hdeleted]
    · rename_i hkept
      obtain ⟨bytes, hbytes, h⟩ := bind_ok h
      obtain ⟨others, hothers, h⟩ := bind_ok h
      cases h
      obtain ⟨size, hread⟩ := content_ok hbytes
      refine .cons ?_ (ih hothers)
      rw [Recorded, if_neg hkept]
      exact ⟨size, bytes, hread, rfl⟩

/-- A record says which paths changed and how. -/
theorem recorded_paths {read : String → Except String (Nat × List UInt8)}
    {paths : List (String × ChangeKind)} {changes : List Change}
    (h : List.Forall₂ (Recorded rt read) paths changes) :
    paths = changes.map (fun c => (c.path, c.change)) := by
  induction h with
  | nil => rfl
  | @cons path change paths changes hhead _ ih =>
    have hpath : path = (change.path, change.change) := by
      unfold Recorded at hhead
      split at hhead
      · rw [hhead]
      · obtain ⟨_, _, -, rfl⟩ := hhead
        rfl
    rw [List.map_cons, ← hpath, ← ih]

/-- Two readings that record the same changes read contents with the same digests. -/
theorem recorded_contents {read read' : String → Except String (Nat × List UInt8)}
    {paths : List (String × ChangeKind)} {changes : List Change}
    (h : List.Forall₂ (Recorded rt read) paths changes)
    (h' : List.Forall₂ (Recorded rt read') paths changes) {p : String} {kind : ChangeKind}
    (hp : (p, kind) ∈ paths) (hkept : kind ≠ .deleted) :
    ∃ size bytes size' bytes', read p = .ok (size, bytes) ∧ read' p = .ok (size', bytes') ∧
      rt.sha256 bytes = rt.sha256 bytes' := by
  induction h with
  | nil => cases hp
  | @cons path change paths changes hhead _ ih =>
    obtain ⟨hhead', htail'⟩ := List.forall₂_cons.mp h'
    rcases List.mem_cons.mp hp with rfl | hp
    · rw [Recorded, if_neg hkept] at hhead hhead'
      obtain ⟨size, bytes, hread, rfl⟩ := hhead
      obtain ⟨size', bytes', hread', hsame⟩ := hhead'
      injection hsame with _ _ hdigest _
      exact ⟨size, bytes, size', bytes', hread, hread', Option.some.inj hdigest⟩
    · exact ih htail' hp

/-- Two readings of the same contents record the same changes. -/
theorem recorded_unique {read read' : String → Except String (Nat × List UInt8)}
    {paths : List (String × ChangeKind)} {changes changes' : List Change}
    (h : List.Forall₂ (Recorded rt read) paths changes)
    (h' : List.Forall₂ (Recorded rt read') paths changes')
    (hsame : ∀ p kind, (p, kind) ∈ paths → kind ≠ .deleted → ∀ size bytes size' bytes',
      read p = .ok (size, bytes) → read' p = .ok (size', bytes') → bytes = bytes') :
    changes = changes' := by
  induction h generalizing changes' with
  | nil =>
    cases h'
    rfl
  | @cons path change paths changes hhead _ ih =>
    cases h' with
    | @cons _ change' _ changes' hhead' htail' =>
      have hrest := ih htail' fun p kind hp => hsame p kind (List.mem_cons_of_mem _ hp)
      have hchange : change = change' := by
        unfold Recorded at hhead hhead'
        split at hhead
        · rename_i hdeleted
          rw [if_pos hdeleted] at hhead'
          rw [hhead, hhead']
        · rename_i hkept
          rw [if_neg hkept] at hhead'
          obtain ⟨size, bytes, hread, rfl⟩ := hhead
          obtain ⟨size', bytes', hread', rfl⟩ := hhead'
          rw [hsame _ _ (List.mem_cons_self ..) hkept _ _ _ _ hread hread']
      rw [hchange, hrest]

theorem subject_same {p q : PatchResult} (h : p.subjectEnvelope.Same q.subjectEnvelope) :
    p.baseCommit = q.baseCommit ∧ p.candidate = q.candidate ∧ p.changes = q.changes := by
  have hbody := same_field h "body" rfl rfl
  exact ⟨codec_injective CommitId.codec (same_field hbody "base_commit" rfl rfl),
    codec_injective Candidate.codec (same_field hbody "candidate" rfl rfl),
    codec_list_injective Change.codec (same_items (same_field hbody "changes" rfl rfl))⟩

/-- What a successful capture of a working tree saw. -/
structure Saw (rt : Runtime) (g : Git) (rev : Option String) (root : String) (kind : CandidateKind)
    (head : CommitId) (c : CapturedPatch) : Prop where
  resolves : g.resolve root "HEAD" = .ok head
  isClean : g.isClean root = .ok (kind = .commit : Bool)
  base : g.baseOf root ⟨.workingTree, rev⟩ head = .ok c.result.baseCommit
  changes : ∃ paths, g.changedPaths root kind head c.result.baseCommit = .ok paths ∧
    List.Forall₂ (Recorded rt (g.source root kind head)) paths c.result.changes
  candidate : ∃ patch, g.patch root c.result.baseCommit (compareWith head kind) = .ok patch ∧
    c.result.candidate = ⟨kind, head, artifactDigest rt patch⟩
  repository : g.rootCommits root head = .ok c.result.repository.rootCommits
  digest : envelopeDigest rt c.result.subjectEnvelope = .ok c.subjectDigest

theorem capture_saw {path : String} {rev : Option String} {now : Timestamp} {c : CapturedPatch}
    (h : g.capture rt limits path ⟨.workingTree, rev⟩ now = .ok c) :
    ∃ root kind head, g.toplevel path = .ok root ∧ Saw rt g rev root kind head c := by
  obtain ⟨root, hroot, h⟩ := bind_ok h
  obtain ⟨version, -, h⟩ := bind_ok h
  obtain ⟨⟨kind, head⟩, hcandidate, h⟩ := bind_ok h
  obtain ⟨head', hhead, hcandidate⟩ := bind_ok hcandidate
  obtain ⟨clean, hclean, hcandidate⟩ := bind_ok hcandidate
  obtain ⟨base, hbase, h⟩ := bind_ok h
  obtain ⟨paths, hpaths, h⟩ := bind_ok h
  obtain ⟨_, -, h⟩ := bind_ok h
  obtain ⟨changes, hchanges, h⟩ := bind_ok h
  obtain ⟨patch, hpatch, h⟩ := bind_ok h
  obtain ⟨rootCommits, hroots, h⟩ := bind_ok h
  obtain ⟨_, -, h⟩ := bind_ok h
  obtain ⟨subjectDigest, hdigest, h⟩ := bind_ok h
  cases h
  obtain ⟨hkind, rfl⟩ := Prod.mk.inj (Except.ok.inj hcandidate)
  refine ⟨root, kind, head', hroot, ?_⟩
  exact {
    resolves := hhead
    isClean := by
      rw [hclean, ← hkind]
      cases clean <;> rfl
    base := hbase
    changes := ⟨paths, hpaths, readChanges_ok hchanges⟩
    candidate := ⟨patch, hpatch, rfl⟩
    repository := hroots
    digest := mapError_ok hdigest }

end

end Git

/-! ### Two moments -/

/-- A working tree and its capture, at one moment. -/
structure Moment (rt : Runtime) (repo : Repo) (rev : Option String) where
  git : Git
  tree : WorkTree
  limits : CaptureLimits
  path : String
  now : Timestamp
  captured : CapturedPatch
  exact : git.Exact repo tree
  capture : git.capture rt limits path ⟨.workingTree, rev⟩ now = .ok captured

namespace Moment

variable {rt : Runtime} {repo : Repo} {rev : Option String} {a b m : Moment rt repo rev}

/-- What is hashed of the tree: what its files read as, and the patches. -/
def Within (m : Moment rt repo rev) (texts : Set (List UInt8)) : Prop :=
  (∀ p bytes, m.tree.content p = some bytes → bytes ∈ texts) ∧
    ∀ base text, m.git.patch repo.root base none = .ok text → text ∈ texts

def base (m : Moment rt repo rev) : CommitId := m.captured.result.baseCommit

def kind (m : Moment rt repo rev) : CandidateKind := m.captured.result.candidate.kind

theorem saw (m : Moment rt repo rev) :
    Git.Saw rt m.git rev repo.root m.kind m.tree.head m.captured := by
  obtain ⟨root, kind, head, hroot, hsaw⟩ := Git.capture_saw m.capture
  cases m.exact.toplevel _ _ hroot
  cases m.exact.head _ hsaw.resolves
  obtain ⟨patch, -, hcandidate⟩ := hsaw.candidate
  have hkind : m.kind = kind := congrArg Candidate.kind hcandidate
  rw [hkind]
  exact hsaw

theorem clean_iff (m : Moment rt repo rev) : m.kind = .commit ↔ m.tree.Clean repo := by
  rw [← m.exact.isClean _ m.saw.isClean, decide_eq_true_iff]

theorem dirty_kind (h : ¬ m.tree.Clean repo) : m.kind = .workingTree := by
  have hne : m.kind ≠ .commit := fun heq => h (m.clean_iff.mp heq)
  cases hkind : m.kind with
  | commit => exact absurd hkind hne
  | workingTree => rfl

/-- The changed paths of a dirty tree: a path for every kind. -/
theorem dirty_lists (h : ¬ m.tree.Clean repo) {paths : List (String × ChangeKind)}
    (hpaths : m.git.changedPaths repo.root m.kind m.tree.head m.captured.result.baseCommit =
      .ok paths) : Git.Lists paths (m.tree.kind repo m.base) := by
  rw [dirty_kind h] at hpaths
  obtain ⟨tracked, htracked, hpaths⟩ := bind_ok hpaths
  obtain ⟨untracked, huntracked, rfl⟩ := map_ok hpaths
  obtain ⟨hnd, hmem⟩ := m.exact.untracked _ huntracked
  intro p kind
  rw [Git.lists_merged (m.exact.nameStatus _ _ htracked) hnd p kind]
  simp only [hmem, WorkTree.kind, base]

/-- The changes of a dirty tree, with the contents that opening their paths reads. -/
theorem dirty_changes (h : ¬ m.tree.Clean repo) : ∃ paths,
    Git.Lists paths (m.tree.kind repo m.base) ∧
      List.Forall₂ (Git.Recorded rt (m.git.workingFile repo.root)) paths
        m.captured.result.changes := by
  obtain ⟨paths, hpaths, hrecorded⟩ := m.saw.changes
  refine ⟨paths, dirty_lists h hpaths, ?_⟩
  rw [dirty_kind h] at hrecorded
  exact hrecorded

/-- Equal digests are digests of equal subjects. -/
theorem subject_eq (hinjective : rt.InjectiveOn
      {v | v = a.captured.result.subjectEnvelope ∨ v = b.captured.result.subjectEnvelope})
    (h : a.captured.subjectDigest = b.captured.subjectDigest) :
    a.base = b.base ∧ a.captured.result.candidate = b.captured.result.candidate ∧
      a.captured.result.changes = b.captured.result.changes :=
  Git.subject_same (hinjective _ (Or.inl rfl) _ (Or.inr rfl) _ a.saw.digest (h ▸ b.saw.digest))

theorem kind_eq (h : a.captured.result.candidate = b.captured.result.candidate) :
    a.tree.Clean repo ↔ b.tree.Clean repo := by
  rw [← a.clean_iff, ← b.clean_iff, kind, kind, h]

theorem head_eq (h : a.captured.result.candidate = b.captured.result.candidate) :
    a.tree.head = b.tree.head := by
  obtain ⟨_, -, ha⟩ := a.saw.candidate
  obtain ⟨_, -, hb⟩ := b.saw.candidate
  exact congrArg Candidate.commit (ha.symm.trans (h.trans hb))

section

variable {texts : Set (List UInt8)}

/-- The patch of a dirty tree tells its tracked files. -/
theorem tracked_eq (hhash : Set.InjOn rt.sha256 texts) (ha : a.Within texts)
    (hb : b.Within texts) (hbase : a.base = b.base)
    (h : a.captured.result.candidate = b.captured.result.candidate)
    (hdirty : ¬ a.tree.Clean repo) : a.tree.tracked = b.tree.tracked := by
  obtain ⟨text, htext, hcandidate⟩ := a.saw.candidate
  obtain ⟨text', htext', hcandidate'⟩ := b.saw.candidate
  rw [dirty_kind hdirty] at htext
  rw [dirty_kind fun hclean => hdirty ((kind_eq h).mpr hclean)] at htext'
  have hdigest : rt.sha256 text = rt.sha256 text' :=
    congrArg Candidate.patchDigest (hcandidate.symm.trans (h.trans hcandidate'))
  have hsame := hhash (ha.2 _ _ htext) (hb.2 _ _ htext') hdigest
  rw [← a.exact.patch _ _ htext, ← b.exact.patch _ _ htext', hsame]
  exact congrArg (repo.applied · text') hbase

/-- The changes of a dirty tree tell the kind of each path. -/
theorem kinds_eq (h : a.captured.result.changes = b.captured.result.changes)
    (hdirty : ¬ a.tree.Clean repo) (hdirty' : ¬ b.tree.Clean repo) (p : String) :
    a.tree.kind repo a.base p = b.tree.kind repo b.base p := by
  obtain ⟨paths, hlists, hrecorded⟩ := dirty_changes hdirty
  obtain ⟨paths', hlists', hrecorded'⟩ := dirty_changes hdirty'
  rw [Git.recorded_paths hrecorded] at hlists
  rw [Git.recorded_paths hrecorded', ← h] at hlists'
  exact hlists.unique hlists' p

/-- The changes of a dirty tree tell the content of each path that is opened. -/
theorem contents_eq (hhash : Set.InjOn rt.sha256 texts) (ha : a.Within texts)
    (hb : b.Within texts) (h : a.captured.result.changes = b.captured.result.changes)
    (hdirty : ¬ a.tree.Clean repo) (hdirty' : ¬ b.tree.Clean repo) {p : String} {kind : ChangeKind}
    (hp : a.tree.kind repo a.base p = some kind) (hkept : kind ≠ .deleted) :
    a.tree.content p = b.tree.content p := by
  obtain ⟨paths, hlists, hrecorded⟩ := dirty_changes hdirty
  obtain ⟨paths', -, hrecorded'⟩ := dirty_changes hdirty'
  have hpaths : paths' = paths := by
    rw [Git.recorded_paths hrecorded, Git.recorded_paths hrecorded', h]
  rw [hpaths, ← h] at hrecorded'
  obtain ⟨size, bytes, size', bytes', hread, hread', hdigest⟩ :=
    Git.recorded_contents hrecorded hrecorded' ((hlists p kind).mpr hp) hkept
  have hcontent := a.exact.workingFile _ _ _ hread
  have hcontent' := b.exact.workingFile _ _ _ hread'
  rw [hcontent, hcontent', hhash (ha.1 _ _ hcontent) (hb.1 _ _ hcontent') hdigest]

end

end Moment

/-! ### What the trees have in common -/

namespace WorkTree

variable {t t' : WorkTree} {repo : Repo} {base : CommitId} {p : String}

/-- A clean tree has the files of its commit where it ignores none. -/
theorem Clean.entries (h : t.Clean repo) (hp : ¬ t.Ignored p) :
    t.entries p = repo.tree t.head p := by
  rw [← h.staged p]
  by_cases hindex : t.index p = none
  · have hexcluded : t.excluded p = false := by
      by_contra hne
      exact hp ⟨hindex, by simpa using hne⟩
    by_contra hne
    exact h.untracked p ⟨hindex, hexcluded, fun hnone => hne (hnone.trans hindex.symm)⟩
  · exact h.changed p hindex

/-- What is not untracked is a tracked file, or none. -/
theorem entries_tracked (hp : ¬ t.Ignored p) (h : ¬ t.Untracked p) : t.entries p = t.tracked p := by
  unfold tracked
  split
  · rename_i hindex
    by_contra hne
    refine h ⟨hindex, ?_, hne⟩
    by_contra hexcluded
    exact hp ⟨hindex, by simpa using hexcluded⟩
  · rfl

theorem tracked_untracked (h : t.Untracked p) : t.tracked p = none := if_pos h.1

theorem kind_untracked (h : t.Untracked p) : t.kind repo base p =
    some (mergedKind (diffStatus (repo.tree base p) none)) := by
  rw [WorkTree.kind, if_pos h, tracked_untracked h]

/-- A path without a tracked file has another kind when it is untracked. -/
theorem kind_ne (h : ¬ t.Untracked p) (hnone : t.tracked p = none) :
    t.kind repo base p ≠ some (mergedKind (diffStatus (repo.tree base p) none)) := by
  rw [WorkTree.kind, if_neg h, hnone]
  unfold diffStatus
  cases repo.tree base p with
  | none => simp [mergedKind]
  | some e => simp [mergedKind]

theorem not_ignored (h : t.Untracked p) : ¬ t.Ignored p := by
  intro hp
  exact Bool.false_ne_true (h.2.1.symm.trans hp.2)

theorem mergedKind_kept (status : Option ChangeKind) : mergedKind status ≠ .deleted := by
  cases status <;> simp [mergedKind]

theorem diffStatus_kept {old new : Option Entry} :
    (∃ kind, diffStatus old new = some kind ∧ kind ≠ .deleted) ↔ new ≠ none ∧ new ≠ old := by
  unfold diffStatus
  by_cases heq : old = new
  · simp [heq]
  · by_cases hnew : new = none
    · subst hnew
      simp [heq]
    · have hne : new ≠ old := Ne.symm heq
      by_cases hold : old = none
      · simp [hold, hnew, Ne.symm hnew]
      · simp [heq, hold, hnew, hne]

/-- The opened paths are those a dirty tree records with a content. -/
theorem opened_iff : t.Opened repo base p ↔
    ∃ kind, t.kind repo base p = some kind ∧ kind ≠ .deleted := by
  unfold Opened
  by_cases h : t.Untracked p
  · exact iff_of_true (Or.inl h) ⟨_, kind_untracked h, mergedKind_kept _⟩
  · rw [WorkTree.kind, if_neg h, diffStatus_kept]
    unfold tracked
    by_cases hindex : t.index p = none
    · simp [h, hindex]
    · simp [h, hindex]

/-- Two files that read the same, of one type and, if links, with one target, are the same. -/
theorem entry_eq {e e' : Entry} (htype : e.type = e'.type)
    (htarget : e.type = .symlink → e.bytes = e'.bytes) (he : t.entries p = some e)
    (he' : t'.entries p = some e') (h : t.content p = t'.content p) : e = e' := by
  obtain ⟨type, bytes⟩ := e
  obtain ⟨type', bytes'⟩ := e'
  cases htype
  by_cases hlink : type = .symlink
  · have hbytes : bytes = bytes' := htarget hlink
    rw [hbytes]
  · unfold content at h
    rw [he, he'] at h
    simp only [Option.bind_some, hlink, if_false, Option.some.injEq] at h
    rw [h]

theorem content_unchanged (h : t.Unchanged t') (hlink : ¬ t.IsLink p) :
    t.content p = t'.content p := by
  obtain ⟨through, rfl⟩ := h
  unfold content
  unfold IsLink at hlink
  cases hentry : t.entries p with
  | none => rfl
  | some e =>
    rw [hentry] at hlink
    have htype : e.type ≠ .symlink := by simpa using hlink
    simp [htype]

end WorkTree

namespace Moment

variable {rt : Runtime} {repo : Repo} {rev : Option String} {a b : Moment rt repo rev}

/-- A path untracked in one of two trees with one subject is untracked in both. -/
theorem untracked_of_eq {p : String} (htracked : a.tree.tracked = b.tree.tracked)
    (hbase : a.base = b.base) (hkinds : a.tree.kind repo a.base p = b.tree.kind repo b.base p)
    (h : a.tree.Untracked p) : b.tree.Untracked p := by
  by_contra hnot
  have hnone : b.tree.tracked p = none := by rw [← htracked, WorkTree.tracked_untracked h]
  have hkind : b.tree.kind repo b.base p =
      some (mergedKind (diffStatus (repo.tree b.base p) none)) := by
    rw [← hkinds, WorkTree.kind_untracked h, hbase]
  exact WorkTree.kind_ne hnot hnone hkind

/-- What one subject says of a path that neither tree ignores. -/
theorem agree_at {texts : Set (List UInt8)} (hhash : Set.InjOn rt.sha256 texts)
    (ha : a.Within texts) (hb : b.Within texts) (hinjective : rt.InjectiveOn
      {v | v = a.captured.result.subjectEnvelope ∨ v = b.captured.result.subjectEnvelope})
    (h : a.captured.subjectDigest = b.captured.subjectDigest) {p : String}
    (hp : ¬ a.tree.Ignored p) (hp' : ¬ b.tree.Ignored p) :
    a.tree.entries p = b.tree.entries p ∨
      (a.tree.Untracked p ∧ b.tree.Untracked p ∧ a.tree.content p = b.tree.content p) := by
  obtain ⟨hbase, hcandidate, hchanges⟩ := subject_eq hinjective h
  by_cases hclean : a.tree.Clean repo
  · have hclean' := (kind_eq hcandidate).mp hclean
    rw [hclean.entries hp, hclean'.entries hp', head_eq hcandidate]
    exact Or.inl rfl
  · have hdirty := fun hclean' => hclean ((kind_eq hcandidate).mpr hclean')
    have htracked := tracked_eq hhash ha hb hbase hcandidate hclean
    have hkinds := kinds_eq hchanges hclean hdirty p
    by_cases huntracked : a.tree.Untracked p
    · right
      refine ⟨huntracked, untracked_of_eq htracked hbase hkinds huntracked, ?_⟩
      exact contents_eq hhash ha hb hchanges hclean hdirty
        (WorkTree.kind_untracked huntracked) (WorkTree.mergedKind_kept _)
    · left
      have huntracked' : ¬ b.tree.Untracked p := fun hb' =>
        huntracked (untracked_of_eq htracked.symm hbase.symm hkinds.symm hb')
      rw [WorkTree.entries_tracked hp huntracked, htracked,
        WorkTree.entries_tracked hp' huntracked']

/-! ### An unchanged tree -/

theorem base_eq (htree : a.tree.Unchanged b.tree) (hgit : a.git.Repeats b.git repo.root) :
    a.base = b.base := by
  obtain ⟨through, htree⟩ := htree
  have ha := a.saw.base
  have hb := b.saw.base
  rw [htree] at hb
  have hsame : b.git.baseOf repo.root ⟨.workingTree, rev⟩ a.tree.head =
      a.git.baseOf repo.root ⟨.workingTree, rev⟩ a.tree.head := by
    unfold Git.baseOf
    cases rev with
    | none => rfl
    | some rev => exact congrFun hgit.resolve rev
  rw [hsame, ha] at hb
  exact Except.ok.inj hb

theorem unchanged_clean (htree : a.tree.Unchanged b.tree) :
    a.tree.Clean repo ↔ b.tree.Clean repo := by
  obtain ⟨through, htree⟩ := htree
  rw [htree]
  exact ⟨fun h => ⟨h.staged, h.changed, h.untracked⟩, fun h => ⟨h.staged, h.changed, h.untracked⟩⟩

theorem unchanged_kind (htree : a.tree.Unchanged b.tree) : a.kind = b.kind := by
  by_cases hclean : a.tree.Clean repo
  · rw [a.clean_iff.mpr hclean, b.clean_iff.mpr ((unchanged_clean htree).mp hclean)]
  · rw [dirty_kind hclean, dirty_kind fun h => hclean ((unchanged_clean htree).mpr h)]

/-- Two captures of an unchanged tree that record the same changes have one subject. -/
theorem digest_eq (htree : a.tree.Unchanged b.tree) (hgit : a.git.Repeats b.git repo.root)
    (h : a.captured.result.changes = b.captured.result.changes) :
    a.captured.subjectDigest = b.captured.subjectDigest := by
  have hbase : a.captured.result.baseCommit = b.captured.result.baseCommit := base_eq htree hgit
  have hkind := unchanged_kind htree
  have hhead : b.tree.head = a.tree.head := by
    obtain ⟨through, htree⟩ := htree
    rw [htree]
  obtain ⟨text, htext, hcandidate⟩ := a.saw.candidate
  obtain ⟨text', htext', hcandidate'⟩ := b.saw.candidate
  rw [← hbase, hhead, ← hkind, hgit.patch, htext] at htext'
  cases htext'
  have hroots := b.saw.repository
  rw [hhead, hgit.rootCommits, a.saw.repository] at hroots
  have henvelope : a.captured.result.subjectEnvelope = b.captured.result.subjectEnvelope := by
    simp only [PatchResult.subjectEnvelope, PatchResult.subject, Repository.toJson, hbase,
      hcandidate, hcandidate', h, hhead, hkind, Except.ok.inj hroots]
  have hdigest := a.saw.digest
  rw [henvelope, b.saw.digest] at hdigest
  exact (Except.ok.inj hdigest).symm

/-- A capture of an unchanged tree records the same changes when the opened links read the
same. -/
theorem changes_eq (htree : a.tree.Unchanged b.tree) (hgit : a.git.Repeats b.git repo.root)
    (hlinks : ¬ a.tree.Clean repo → ∀ p, a.tree.Opened repo a.base p → a.tree.IsLink p →
      a.tree.content p = b.tree.content p) :
    a.captured.result.changes = b.captured.result.changes := by
  obtain ⟨paths, hpaths, hrecorded⟩ := a.saw.changes
  obtain ⟨paths', hpaths', hrecorded'⟩ := b.saw.changes
  have hbase : a.captured.result.baseCommit = b.captured.result.baseCommit := base_eq htree hgit
  have hkind := unchanged_kind htree
  have hhead : b.tree.head = a.tree.head := by
    obtain ⟨through, htree⟩ := htree
    rw [htree]
  rw [← hbase, hhead, ← hkind, hgit.changedPaths, hpaths] at hpaths'
  cases hpaths'
  rw [hhead, ← hkind] at hrecorded'
  refine Git.recorded_unique hrecorded hrecorded' ?_
  intro p kind hp hkept size bytes size' bytes' hread hread'
  by_cases hclean : a.tree.Clean repo
  · rw [a.clean_iff.mpr hclean] at hread hread'
    have hblob : b.git.blob repo.root a.tree.head p = .ok (size', bytes') := hread'
    have hblob' : a.git.blob repo.root a.tree.head p = .ok (size, bytes) := hread
    rw [hgit.blob, hblob'] at hblob
    cases hblob
    rfl
  · rw [dirty_kind hclean] at hread hread'
    have hcontent := a.exact.workingFile _ _ _ hread
    have hcontent' := b.exact.workingFile _ _ _ hread'
    have hsame : a.tree.content p = b.tree.content p := by
      by_cases hlink : a.tree.IsLink p
      · refine hlinks hclean p (WorkTree.opened_iff.mpr ⟨kind, ?_, hkept⟩) hlink
        exact (dirty_lists hclean hpaths p kind).mp hp
      · exact WorkTree.content_unchanged htree hlink
    rw [hcontent, hcontent'] at hsame
    exact Option.some.inj hsame

/-- The hash tells apart what is hashed at the two moments. -/
structure Apart (a b : Moment rt repo rev) : Prop where
  texts : ∃ texts, Set.InjOn rt.sha256 texts ∧ a.Within texts ∧ b.Within texts
  subjects : rt.InjectiveOn
    {v | v = a.captured.result.subjectEnvelope ∨ v = b.captured.result.subjectEnvelope}

/-- The two trees have the same type and, for links, the same target at every path that is
untracked in both. -/
def SameTypes (a b : Moment rt repo rev) : Prop :=
  ∀ p e e', a.tree.Untracked p → b.tree.Untracked p → a.tree.entries p = some e →
    b.tree.entries p = some e' → e.type = e'.type ∧ (e.type = .symlink → e.bytes = e'.bytes)

/-- Of two trees captured with one subject, a path that neither ignores has the same file in
both, or is untracked in both and reads the same; so they agree on all of these exactly when
the untracked paths have the same types and link targets. An unchanged tree is captured again
with the same subject exactly when the links that are opened lead to the same bytes. -/
theorem equal_subjects_agree (hapart : a.Apart b) :
    (a.captured.subjectDigest = b.captured.subjectDigest →
      (∀ p, ¬ a.tree.Ignored p → ¬ b.tree.Ignored p →
        a.tree.entries p = b.tree.entries p ∨
          (a.tree.Untracked p ∧ b.tree.Untracked p ∧ a.tree.content p = b.tree.content p)) ∧
      (a.tree.Agree b.tree ↔ a.SameTypes b)) ∧
    (a.tree.Unchanged b.tree → a.git.Repeats b.git repo.root →
      ∀ base, a.git.baseOf repo.root ⟨.workingTree, rev⟩ a.tree.head = .ok base →
        (a.captured.subjectDigest = b.captured.subjectDigest ↔
          (¬ a.tree.Clean repo → ∀ p, a.tree.Opened repo base p → a.tree.IsLink p →
            a.tree.content p = b.tree.content p))) := by
  obtain ⟨⟨texts, hhash, ha, hb⟩, hinjective⟩ := hapart
  constructor
  · intro h
    have hat := fun p => agree_at (p := p) hhash ha hb hinjective h
    refine ⟨hat, ?_, ?_⟩
    · intro hagree p e e' hp hp' he he'
      have hsame := hagree p (WorkTree.not_ignored hp) (WorkTree.not_ignored hp')
      rw [he, he'] at hsame
      cases hsame
      exact ⟨rfl, fun _ => rfl⟩
    · intro htypes p hp hp'
      rcases hat p hp hp' with hsame | ⟨huntracked, huntracked', hcontent⟩
      · exact hsame
      · obtain ⟨e, he⟩ := Option.ne_none_iff_exists'.mp huntracked.2.2
        obtain ⟨e', he'⟩ := Option.ne_none_iff_exists'.mp huntracked'.2.2
        obtain ⟨htype, htarget⟩ := htypes p e e' huntracked huntracked' he he'
        rw [he, he', WorkTree.entry_eq htype htarget he he' hcontent]
  · intro htree hgit base hbase
    have heq : a.base = base := Except.ok.inj (a.saw.base.symm.trans hbase)
    subst heq
    constructor
    · intro h hdirty p hp _
      obtain ⟨-, -, hchanges⟩ := subject_eq hinjective h
      obtain ⟨kind, hkind, hkept⟩ := WorkTree.opened_iff.mp hp
      exact contents_eq hhash ha hb hchanges hdirty
        (fun hclean => hdirty ((unchanged_clean htree).mpr hclean)) hkind hkept
    · intro hlinks
      exact digest_eq htree hgit (changes_eq htree hgit hlinks)

/-! ### One untracked file -/

section

open Pilot (zeroDigest canonical)
open Cli (noteResult)
open SoftwareVerifier (head)

def readme : List UInt8 := [35, 32, 72, 105, 10]
def scratch : List UInt8 := [120, 10]

def readmeDigest : Digest :=
  ⟨"sha256:2222222222222222222222222222222222222222222222222222222222222222", by decide +kernel⟩
def scratchDigest : Digest :=
  ⟨"sha256:3333333333333333333333333333333333333333333333333333333333333333", by decide +kernel⟩

def noteBytes (v : Json) : List UInt8 := (canonical v).toUTF8.data.toList

/-- A hash that tells the two texts apart, and the subjects they are recorded in. -/
def noteHash : Runtime :=
  { text := canonical
    jcs := fun v => .ok (noteBytes v)
    sha256 := fun bytes =>
      if bytes = readme then readmeDigest
      else if bytes = scratch then scratchDigest
      else if bytes = noteBytes (noteResult scratchDigest 2).subjectEnvelope then
        Combined.otherDigest
      else zeroDigest }

/-- A repository of one commit, of a read-me file. -/
def noteRepo : Repo where
  root := "/work"
  tree _ p := if p = "README.md" then some ⟨.regular, readme⟩ else none
  applied _ _ p := if p = "README.md" then some ⟨.regular, readme⟩ else none

/-- Its working tree with a file added. -/
def noteTree (file : Entry) (leads : List UInt8) : WorkTree where
  head := head
  entries p := if p = "notes.md" then some file else noteRepo.tree head p
  index p := noteRepo.tree head p
  excluded _ := false
  through _ := some leads

def noteGit (read : List UInt8) : Git where
  toplevel _ := .ok "/work"
  version _ := .ok "2.45.0"
  resolve _ rev := if rev = "HEAD" then .ok head else .error "unknown revision"
  firstParent _ _ := .error "no parent"
  isClean _ := .ok false
  nameStatus _ _ _ := .ok []
  untracked _ := .ok ["notes.md"]
  blob _ _ _ := .error "not an object"
  workingFile _ p :=
    if p = "notes.md" then .ok (read.length, read)
    else if p = "README.md" then .ok (readme.length, readme) else .error "not found"
  patch _ _ _ := .ok []
  rootCommits _ _ := .ok [head]

theorem noteTree_untracked (file : Entry) (leads : List UInt8) (p : String) :
    (noteTree file leads).Untracked p ↔ p = "notes.md" := by
  unfold WorkTree.Untracked
  by_cases hp : p = "notes.md"
  · subst hp
    exact iff_of_true ⟨by simp [noteTree, noteRepo], rfl, by simp [noteTree]⟩ rfl
  · refine iff_of_false ?_ hp
    rintro ⟨hindex, -, hentry⟩
    exact hentry ((if_neg hp).trans hindex)

theorem noteTree_tracked (file : Entry) (leads : List UInt8) :
    (noteTree file leads).tracked = noteRepo.tree head := by
  funext p
  unfold WorkTree.tracked
  by_cases hp : p = "notes.md"
  · subst hp
    rfl
  · split
    · rename_i hindex
      exact hindex.symm
    · exact if_neg hp

theorem noteGit_exact {file : Entry} {leads read : List UInt8}
    (h : (noteTree file leads).content "notes.md" = some read) :
    (noteGit read).Exact noteRepo (noteTree file leads) where
  toplevel _ _ hroot := (Except.ok.inj hroot).symm
  head _ hhead := (Except.ok.inj hhead).symm
  isClean clean hclean := by
    cases hclean
    refine iff_of_false Bool.false_ne_true fun hclean => ?_
    exact hclean.untracked "notes.md" ((noteTree_untracked file leads _).mpr rfl)
  nameStatus base paths hpaths p kind := by
    cases hpaths
    rw [noteTree_tracked]
    have hsame : diffStatus (noteRepo.tree base p) (noteRepo.tree head p) = none := if_pos rfl
    simp [hsame]
  untracked paths hpaths := by
    cases hpaths
    refine ⟨List.nodup_singleton _, fun p => ?_⟩
    rw [noteTree_untracked, List.mem_singleton]
  patch base text htext := (noteTree_tracked file leads).symm
  workingFile p size bytes hread := by
    have hread' : (if p = "notes.md" then .ok (read.length, read)
      else if p = "README.md" then .ok (readme.length, readme) else .error "not found") =
        (.ok (size, bytes) : Except String (Nat × List UInt8)) := hread
    by_cases hp : p = "notes.md"
    · subst hp
      rw [if_pos rfl] at hread'
      cases hread'
      exact h
    · rw [if_neg hp] at hread'
      by_cases hreadme : p = "README.md"
      · subst hreadme
        rw [if_pos rfl] at hread'
        cases hread'
        rfl
      · rw [if_neg hreadme] at hread'
        cases hread'

/-- The digest of the subject with the file recorded. -/
def noteDigest (digest : Digest) (size : UInt64) : Digest :=
  noteHash.sha256 (noteBytes (noteResult digest size).subjectEnvelope)

theorem noteGit_capture {read : List UInt8} {digest : Digest} {size : UInt64}
    (hdigest : noteHash.sha256 read = digest) (hempty : noteHash.sha256 [] = zeroDigest)
    (hsize : UInt64.ofNat read.length = size) (hshort : read.length ≤ 5) :
    (noteGit read).capture noteHash .default "/work" ⟨.workingTree, none⟩ Pilot.now =
      .ok ⟨"/work", noteResult digest size, noteDigest digest size⟩ := by
  have hleft : read.length ≤ CaptureLimits.default.maxTotalBytes := hshort.trans (by decide)
  have hcontent : (noteGit read).content .default "/work" .workingTree head "notes.md"
      CaptureLimits.default.maxTotalBytes = .ok read := by
    refine bind_eq_ok.mpr ⟨(read.length, read), rfl, ?_⟩
    refine bind_eq_ok.mpr ⟨(), guardOk_eq_ok.mpr (decide_eq_true hleft), ?_⟩
    exact bind_eq_ok.mpr ⟨(), guardOk_eq_ok.mpr (decide_eq_true hleft), rfl⟩
  have hchanges : (noteGit read).readChanges noteHash .default "/work" .workingTree head
      CaptureLimits.default.maxTotalBytes [("notes.md", .untracked)] =
        .ok (noteResult digest size).changes := by
    rw [Git.readChanges, if_neg (by decide)]
    refine bind_eq_ok.mpr ⟨read, hcontent, ?_⟩
    refine bind_eq_ok.mpr ⟨[], rfl, ?_⟩
    rw [artifactDigest, hdigest, hsize]
    rfl
  have hbindings : (noteResult digest size).checkBindings = [] := by
    refine Cli.noteResult_bindings digest ?_
    rw [← hsize, UInt64.toNat_ofNat']
    omega
  have hpatch : artifactDigest noteHash [] = zeroDigest := hempty
  refine bind_eq_ok.mpr ⟨"/work", rfl, ?_⟩
  refine bind_eq_ok.mpr ⟨"2.45.0", rfl, ?_⟩
  refine bind_eq_ok.mpr ⟨(.workingTree, head), rfl, ?_⟩
  refine bind_eq_ok.mpr ⟨head, rfl, ?_⟩
  refine bind_eq_ok.mpr ⟨[("notes.md", .untracked)], rfl, ?_⟩
  refine bind_eq_ok.mpr ⟨(), rfl, ?_⟩
  refine bind_eq_ok.mpr ⟨_, hchanges, ?_⟩
  refine bind_eq_ok.mpr ⟨[], rfl, ?_⟩
  refine bind_eq_ok.mpr ⟨[head], rfl, ?_⟩
  rw [hpatch]
  refine bind_eq_ok.mpr ⟨(), guardOk_eq_ok.mpr ?_, ?_⟩
  · exact List.isEmpty_iff.mpr hbindings
  · refine bind_eq_ok.mpr ⟨noteDigest digest size, ?_, rfl⟩
    refine mapError_eq_ok.mpr ?_
    change envelopeDigest noteHash
      (noteResult digest size).subjectEnvelope = _
    rw [envelopeDigest, envelopeBytes, Cli.checkEnvelopeNumbers_subject hbindings]
    rfl

theorem noteHash_texts : noteHash.sha256 [] = zeroDigest ∧
    noteHash.sha256 readme = readmeDigest ∧ noteHash.sha256 scratch = scratchDigest := by
  decide +kernel

theorem noteHash_subjects : noteDigest readmeDigest 5 = zeroDigest ∧
    noteDigest scratchDigest 2 = Combined.otherDigest := by decide +kernel

/-- The capture of the tree with the file, which opening reads as `read`. -/
def noteMoment (file : Entry) (leads : List UInt8) (size : UInt64) {read : List UInt8}
    {digest : Digest} (h : (noteTree file leads).content "notes.md" = some read)
    (hdigest : noteHash.sha256 read = digest) (hsize : UInt64.ofNat read.length = size)
    (hshort : read.length ≤ 5) : Moment noteHash noteRepo none where
  git := noteGit read
  tree := noteTree file leads
  limits := .default
  path := "/work"
  now := Pilot.now
  captured := ⟨"/work", noteResult digest size, noteDigest digest size⟩
  exact := noteGit_exact h
  capture := noteGit_capture hdigest noteHash_texts.1 hsize hshort

theorem noteMoment_digest {file : Entry} {leads read : List UInt8} {digest : Digest} {size : UInt64}
    (h : (noteTree file leads).content "notes.md" = some read)
    (hdigest : noteHash.sha256 read = digest) (hsize : UInt64.ofNat read.length = size)
    (hshort : read.length ≤ 5) :
    (noteMoment file leads size h hdigest hsize hshort).captured.subjectDigest =
      noteDigest digest size := rfl

/-- A copy of the read-me file. -/
def copied : Moment noteHash noteRepo none :=
  noteMoment ⟨.regular, readme⟩ readme 5 rfl noteHash_texts.2.1 rfl (by decide)

/-- A link to a file outside, first to a copy of the read-me file. -/
def outside : Entry := ⟨.symlink, [47, 116, 109, 112, 47, 110]⟩

def linked : Moment noteHash noteRepo none :=
  noteMoment outside readme 5 rfl noteHash_texts.2.1 rfl (by decide)

def relinked : Moment noteHash noteRepo none :=
  noteMoment outside scratch 2 rfl noteHash_texts.2.2 rfl (by decide)

def noteTexts : Set (List UInt8) := {bytes | bytes = [] ∨ bytes = readme ∨ bytes = scratch}

theorem noteTexts_injective : Set.InjOn noteHash.sha256 noteTexts := by
  obtain ⟨hempty, hreadme, hscratch⟩ := noteHash_texts
  have hne : zeroDigest ≠ readmeDigest ∧ zeroDigest ≠ scratchDigest ∧
      readmeDigest ≠ scratchDigest := by decide +kernel
  obtain ⟨hne, hne', hne''⟩ := hne
  rintro x (rfl | rfl | rfl) y (rfl | rfl | rfl) h
  · rfl
  · exact absurd (hempty.symm.trans (h.trans hreadme)) hne
  · exact absurd (hempty.symm.trans (h.trans hscratch)) hne'
  · exact absurd (hempty.symm.trans (h.symm.trans hreadme)) hne
  · rfl
  · exact absurd (hreadme.symm.trans (h.trans hscratch)) hne''
  · exact absurd (hempty.symm.trans (h.symm.trans hscratch)) hne'
  · exact absurd (hreadme.symm.trans (h.symm.trans hscratch)) hne''
  · rfl

theorem noteTree_content {file : Entry} {leads read : List UInt8}
    (h : (noteTree file leads).content "notes.md" = some read) {p : String} {bytes : List UInt8}
    (hbytes : (noteTree file leads).content p = some bytes) : bytes = read ∨ bytes = readme := by
  by_cases hp : p = "notes.md"
  · subst hp
    exact Or.inl (Option.some.inj (hbytes.symm.trans h))
  · right
    unfold WorkTree.content at hbytes
    have hentry : (noteTree file leads).entries p = noteRepo.tree head p := if_neg hp
    rw [hentry] at hbytes
    obtain ⟨e, he, hread⟩ := Option.bind_eq_some_iff.mp hbytes
    obtain ⟨-, hfile⟩ := Option.ite_none_right_eq_some.mp he
    cases hfile
    exact (Option.some.inj hread).symm

theorem noteMoment_within {file : Entry} {leads read : List UInt8} {digest : Digest} {size : UInt64}
    (h : (noteTree file leads).content "notes.md" = some read)
    (hdigest : noteHash.sha256 read = digest) (hsize : UInt64.ofNat read.length = size)
    (hshort : read.length ≤ 5) (hread : read ∈ noteTexts) :
    (noteMoment file leads size h hdigest hsize hshort).Within noteTexts := by
  refine ⟨fun p bytes hbytes => ?_, fun base text htext => ?_⟩
  · rcases noteTree_content h hbytes with rfl | rfl
    · exact hread
    · exact Or.inr (Or.inl rfl)
  · cases htext
    exact Or.inl rfl

theorem copied_apart_linked : copied.Apart linked where
  texts := ⟨noteTexts, noteTexts_injective, noteMoment_within _ _ _ _ (Or.inr (Or.inl rfl)),
    noteMoment_within _ _ _ _ (Or.inr (Or.inl rfl))⟩
  subjects := by
    rintro x (rfl | rfl) y (rfl | rfl) _ - -
    all_goals exact Json.Same.refl _

theorem linked_relinked :
    linked.captured.subjectDigest ≠ relinked.captured.subjectDigest := by
  have hlinked : linked.captured.subjectDigest = noteDigest readmeDigest 5 :=
    noteMoment_digest _ _ _ _
  have hrelinked : relinked.captured.subjectDigest = noteDigest scratchDigest 2 :=
    noteMoment_digest _ _ _ _
  rw [hlinked, hrelinked, noteHash_subjects.1, noteHash_subjects.2]
  decide +kernel

theorem linked_apart_relinked : linked.Apart relinked where
  texts := ⟨noteTexts, noteTexts_injective, noteMoment_within _ _ _ _ (Or.inr (Or.inl rfl)),
    noteMoment_within _ _ _ _ (Or.inr (Or.inr rfl))⟩
  subjects := by
    have hlinked := linked.saw.digest
    have hrelinked := relinked.saw.digest
    rintro x (rfl | rfl) y (rfl | rfl) d hx hy
    · exact Json.Same.refl _
    · exact absurd ((Except.ok.inj (hlinked.symm.trans hx)).trans
        (Except.ok.inj (hy.symm.trans hrelinked))) linked_relinked
    · exact absurd ((Except.ok.inj (hlinked.symm.trans hy)).trans
        (Except.ok.inj (hx.symm.trans hrelinked))) linked_relinked
    · exact Json.Same.refl _

theorem linked_repeats : linked.git.Repeats relinked.git noteRepo.root :=
  ⟨rfl, rfl, rfl, rfl, rfl, rfl, rfl⟩

theorem equal_subjects_agree_note :
    (∀ p, ¬ copied.tree.Ignored p → ¬ linked.tree.Ignored p →
      copied.tree.entries p = linked.tree.entries p ∨ (copied.tree.Untracked p ∧
        linked.tree.Untracked p ∧ copied.tree.content p = linked.tree.content p)) ∧
    (linked.captured.subjectDigest = relinked.captured.subjectDigest ↔
      (¬ linked.tree.Clean noteRepo → ∀ p, linked.tree.Opened noteRepo head p →
        linked.tree.IsLink p → linked.tree.content p = relinked.tree.content p)) :=
  ⟨((equal_subjects_agree copied_apart_linked).1 rfl).1,
    (equal_subjects_agree linked_apart_relinked).2 ⟨_, rfl⟩ linked_repeats head rfl⟩

/-- The copy and the link have one subject, and the tree with the link another one when the
file outside has changed. -/
theorem subjects_read_through :
    (copied.Apart linked ∧ copied.captured.subjectDigest = linked.captured.subjectDigest ∧
      ¬ copied.tree.Agree linked.tree) ∧
    (linked.Apart relinked ∧ linked.tree.Unchanged relinked.tree ∧
      linked.git.Repeats relinked.git noteRepo.root ∧
      linked.captured.subjectDigest ≠ relinked.captured.subjectDigest) := by
  refine ⟨⟨copied_apart_linked, rfl, ?_⟩, linked_apart_relinked, ⟨_, rfl⟩, linked_repeats, ?_⟩
  · intro hagree
    have hsame := hagree "notes.md"
      (WorkTree.not_ignored ((noteTree_untracked _ _ _).mpr rfl))
      (WorkTree.not_ignored ((noteTree_untracked _ _ _).mpr rfl))
    have hfiles : (⟨.regular, readme⟩ : Entry) = outside := Option.some.inj hsame
    cases hfiles
  · exact linked_relinked

end

end Moment

end Checkspan
