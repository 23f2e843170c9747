import Checkspan.Contracts.Attempt

/-!
# Patch results (`src/contracts/patch.rs`)

The exact local candidate a software check runs against: a repository named by its root
commits, a base commit, a candidate, and the digest of every changed path.
-/

namespace Checkspan

/-- The shape test of `CommitId::new` (`patch.rs:28-43`). -/
def isCommitText (value : String) : Bool :=
  (value.toList.length == 40 || value.toList.length == 64) && value.toList.all isLowerHex

/-- A Git object name: 40 or 64 lowercase hex digits. -/
structure CommitId where
  text : String
  valid : isCommitText text = true
deriving DecidableEq

namespace CommitId

def new (value : String) : Except InvalidValue CommitId :=
  if h : isCommitText value = true then .ok ⟨value, h⟩
  else .error ⟨"commit id", value.quote ++ " is not 40 or 64 lowercase hex digits"⟩

@[simp] theorem new_text (c : CommitId) : new c.text = .ok c := by
  unfold new
  rw [dif_pos c.valid]

def toJson (c : CommitId) : Json := .str c.text

end CommitId

/-- The repository a candidate belongs to, named by its root commits. -/
structure Repository where
  rootCommits : List CommitId
deriving DecidableEq

def Repository.toJson (r : Repository) : Json :=
  .obj [("root_commits", .arr (r.rootCommits.map (·.toJson)))]

inductive CandidateKind where
  | commit
  | workingTree
deriving DecidableEq

def CandidateKind.asStr : CandidateKind → String
  | commit => "commit"
  | workingTree => "working_tree"

/-- A commit, or a working tree resting on one (`patch.rs:93-105`). -/
structure Candidate where
  kind : CandidateKind
  commit : CommitId
  patchDigest : Digest
deriving DecidableEq

def Candidate.toJson (c : Candidate) : Json :=
  .obj [("kind", .str c.kind.asStr), ("commit", c.commit.toJson),
    ("patch_digest", c.patchDigest.toJson)]

/-- How a path differs from the base. -/
inductive ChangeKind where
  | added
  | modified
  | deleted
  | untracked
deriving DecidableEq

def ChangeKind.asStr : ChangeKind → String
  | added => "added"
  | modified => "modified"
  | deleted => "deleted"
  | untracked => "untracked"

/-- One changed path and its content in the candidate (`patch.rs:133-147`). -/
structure Change where
  path : String
  change : ChangeKind
  contentDigest : Option Digest
  size : Option UInt64
deriving DecidableEq

def Change.toJson (c : Change) : Json :=
  .obj ([("path", .str c.path), ("change", .str c.change.asStr)] ++
    Json.optField "content_digest" (c.contentDigest.map (·.toJson)) ++
    Json.optField "size" (c.size.map (fun n => .num n.toNat)))

/-- The tool that read the repository. -/
structure Tool where
  name : String
  version : String
deriving DecidableEq

def Tool.toJson (t : Tool) : Json := .obj [("name", .str t.name), ("version", .str t.version)]

/-- The exact local candidate a software check runs against (`patch.rs:159-181`). -/
structure PatchResult extends RecordHeader where
  repository : Repository
  baseCommit : CommitId
  candidate : Candidate
  changes : List Change
  capturedAt : Timestamp
  tool : Tool
deriving DecidableEq

def PatchResult.toJson (p : PatchResult) : Json :=
  .obj (p.toRecordHeader.fields ++ [("repository", p.repository.toJson),
    ("base_commit", p.baseCommit.toJson), ("candidate", p.candidate.toJson),
    ("changes", .arr (p.changes.map (·.toJson))), ("captured_at", p.capturedAt.toJson),
    ("tool", p.tool.toJson)])

end Checkspan
