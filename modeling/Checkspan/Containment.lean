import Checkspan.FrozenManifests
import Checkspan.Lib.FileTree

/-!
# What a resolver reads from a disk with links (`src/evidence/mod.rs:965-1069`)

The files of directory sources on a tree of directories, files and symbolic links, which does not
change while one file is read.
-/

namespace Checkspan

open FileTree

/-- A tree of named files, the reads the system refuses, and the texts of its errors. -/
structure FileSystem where
  place : Place String (List UInt8)
  refused : List String → Option String
  osError : Fault → String

namespace FileSystem

def partOf (segment : List Char) : FileTree.Part String :=
  if segment = [] ∨ segment = ['.'] then .here
  else if segment = ['.', '.'] then .up
  else .name (String.ofList segment)

def pathOf (s : String) : Path String where
  absolute := s.front == '/'
  parts := if s.isEmpty then [] else (s.toList.splitOn '/').map partOf

variable (fs : FileSystem)

/-- `fs::read` of a canonical path. -/
def readAt (location : List String) (bytes : List UInt8) : Except String (List UInt8) :=
  match fs.refused location with
  | some e => .error e
  | none => .ok bytes

/-- The file system calls of `read_contained`. -/
def fileView (root path : String) : FileView :=
  match fs.place.canonicalize (pathOf root) with
  | .error e => .io (fs.osError e)
  | .ok canonicalRoot =>
    match fs.place.canonicalize ((pathOf root).join (pathOf path)) with
    | .error e => .io (fs.osError e)
    | .ok full =>
      if !canonicalRoot.isPrefixOf full then .escapes
      else match fs.place.follow (Path.of full) with
        | .error e => .io (fs.osError e)
        | .ok (.file bytes) => .file bytes.length (fs.readAt full bytes)
        | .ok _ => .notAFile

def display (location : List String) : String := "/" ++ joinText "/" location

def disk (git : Git) (limits : CaptureLimits) : Disk where
  git := git
  limits := limits
  file := fs.fileView
  canonicalize p := (fs.place.canonicalize (pathOf p)).toOption.map display

/-- The bytes of a regular file at a location inside the root, no link between the two. -/
def Holds (root : String) (bytes : List UInt8) : Prop :=
  ∃ real rel, fs.place.canonicalize (pathOf root) = .ok real ∧
    fs.place.root.find (real ++ rel) = some (.file bytes)

variable {fs}

theorem fileView_holds {root path : String} {listed : Nat} {bytes : List UInt8}
    (h : fs.fileView root path = .file listed (.ok bytes)) : fs.Holds root bytes := by
  unfold fileView at h
  split at h
  · cases h
  · next real hreal =>
    split at h
    · cases h
    · next full hfull =>
      split at h
      · cases h
      · next hin =>
        split at h
        · cases h
        · next found hfollow =>
          have hbelow : real <+: full := by simpa using hin
          obtain ⟨rel, rfl⟩ := hbelow
          have hbytes : found = bytes := by
            have hread := (FileView.file.inj h).2
            unfold readAt at hread
            split at hread
            · cases hread
            · exact Except.ok.inj hread
          rw [← hbytes]
          exact ⟨real, rel, hreal, Place.follow_canonical hfull hfollow⟩
        · cases h

def segments (path : String) : List String := (path.toList.splitOn '/').map String.ofList

theorem segments_ne_nil (path : String) : segments path ≠ [] := by
  unfold segments
  rw [Ne, List.map_eq_nil_iff]
  exact List.splitOn_ne_nil _ _

/-- A clean path is one of names only. -/
theorem pathOf_clean {path : String} (h : isCleanRelativePath path = true) :
    pathOf path = ⟨false, (segments path).map .name⟩ := by
  unfold isCleanRelativePath at h
  simp only [Bool.and_eq_true, Bool.not_eq_true', bne_iff_ne, List.all_eq_true, ne_eq] at h
  obtain ⟨⟨⟨⟨hempty, hfront⟩, -⟩, -⟩, hall⟩ := h
  have hparts : (path.toList.splitOn '/').map partOf = (segments path).map .name := by
    unfold segments
    rw [List.map_map]
    refine List.map_congr_left fun segment hsegment => ?_
    obtain ⟨⟨hnil, hdot⟩, hdots⟩ := hall segment hsegment
    have hnil : segment ≠ [] := by
      rintro rfl
      simp at hnil
    simp [partOf, hnil, hdot, hdots]
  have habsolute : (path.front == '/') = false := beq_eq_false_iff_ne.mpr hfront
  unfold pathOf
  rw [hempty, hparts, habsolute]
  rfl

/-- A clean path that meets no link below the root is read, unless the system refuses or a
ceiling is in the way. -/
theorem clean_file_read {root path : String} {real : List String} {used : Nat}
    {bytes found : List UInt8} {port : Ident} {maxFile remaining maxTotal : Nat}
    (hclean : isCleanRelativePath path = true)
    (hroot : fs.place.canonicalizeIn used (pathOf root) = .ok real)
    (hfile : fs.place.root.find (real ++ segments path) = some (.file bytes))
    (hsteps : used + real.length + (segments path).length + 1 ≤ fs.place.steps) :
    readContained port path (fs.fileView root path) maxFile remaining maxTotal = .ok found ↔
      found = bytes ∧ fs.refused (real ++ segments path) = none ∧ bytes.length ≤ maxFile ∧
        bytes.length ≤ remaining := by
  have hlink : ∀ target, (Node.file bytes : Node String (List UInt8)) ≠ .link target := by simp
  have hfull : fs.place.canonicalize ((pathOf root).join (pathOf path)) =
      .ok (real ++ segments path) := by
    rw [pathOf_clean hclean]
    exact Place.canonicalize_join hroot (segments_ne_nil path) ⟨_, hfile, hlink⟩ (by omega)
  have hroot' : fs.place.canonicalize (pathOf root) = .ok real :=
    Place.canonicalizeIn_mono (by omega) hroot
  have hfollow : fs.place.follow (Path.of (real ++ segments path)) = .ok (.file bytes) := by
    refine Place.follow_of_find hfile hlink ?_
    rw [List.length_append]
    omega
  have hbelow : real.isPrefixOf (real ++ segments path) = true := by simp
  have hview : fs.fileView root path =
      .file bytes.length (fs.readAt (real ++ segments path) bytes) := by
    unfold fileView
    rw [hroot', hfull]
    simp only [hbelow, hfollow]
    rfl
  rw [Resolver.readContained_eq_ok, hview]
  unfold readAt
  cases hrefused : fs.refused (real ++ segments path) with
  | some e => simp
  | none =>
    simp only [hclean, FileView.file.injEq, Except.ok.injEq, true_and]
    constructor
    · rintro ⟨size, ⟨rfl, rfl⟩, hfit, hleft, -⟩
      exact ⟨rfl, hfit, hleft⟩
    · rintro ⟨rfl, hfit, hleft⟩
      exact ⟨_, ⟨rfl, rfl⟩, hfit, hleft, hfit, hleft⟩

end FileSystem

namespace Resolver

variable (rt : Runtime) (fs : FileSystem) (r : Resolver)

/-- The bytes a reference of a port stands for are those of a regular file inside a registered
directory of the port's scope, and so is the attestation that directory is registered with. -/
def Inside (port : PortSpec) (reference : EvidenceRef) (bytes : List UInt8) : Prop :=
  ∃ name root producer attestation validUntil, name ∈ port.allowedSourceScope ∧
    r.sources.lookup name = some (.directory root producer attestation validUntil) ∧
    fs.Holds root bytes ∧ bytes.length ≤ r.limits.maxFileBytes ∧
    artifactDigest rt bytes = reference.contentDigest ∧
    ∀ a, attestation = some a → ∃ found, fs.Holds root found ∧ artifactDigest rt found = a.digest

/-- A reference that a resolution froze, or one of a manifest that verifies. -/
def Accepted (d : Disk) (node : NodeSpec) (reference : EvidenceRef) : Prop :=
  (∃ narrowing snapshot offers m, r.resolve rt (d.observe rt r offers) node narrowing snapshot
    offers = .ok m ∧ reference ∈ m.references) ∨
  ∃ manifest snapshot, r.verify rt d node manifest snapshot = [] ∧ reference ∈ manifest

variable {rt fs r} {git : Git} {limits : CaptureLimits}

theorem attested_inside {root producer path name : String} {attestation : Option Attestation}
    {validUntil : Option Timestamp} {subject version : String} {expected : Option Digest}
    {port : Ident}
    (h : checkAttestation rt ((fs.disk git limits).look rt r.now
      (.directory root producer attestation validUntil) (.file path subject version expected)) port
      name attestation = .ok ()) :
    ∀ a, attestation = some a →
      ∃ found, fs.Holds root found ∧ artifactDigest rt found = a.digest := by
  rintro a rfl
  unfold checkAttestation at h
  dsimp only at h
  split at h
  · cases h
  · next found hread =>
    obtain ⟨⟨listed, hview⟩, -, -⟩ := readContained_ok hread
    split at h
    · next hdigest => exact ⟨found, FileSystem.fileView_holds hview, hdigest⟩
    · cases h

theorem frozen_inside {node : NodeSpec} (hnd : (node.evidencePorts.map (·.name)).Nodup)
    {narrowing : Option Narrowing} {snapshot : DependencySnapshot} {offers : List Offer}
    {m : Manifest}
    (h : r.resolve rt ((fs.disk git limits).observe rt r offers) node narrowing snapshot offers =
      .ok m)
    {e : ResolvedEvidence} (he : e ∈ m.evidence) {port : PortSpec}
    (hport : port ∈ node.evidencePorts) (hname : e.reference.portName = port.name)
    (hkind : port.kind = .logs) : ∃ bytes, Inside rt fs r port e.reference bytes := by
  obtain ⟨ports, hports, hscope, -, -, hfrom⟩ := resolve_filled hnd h
  obtain ⟨p, hp, hfilled⟩ := hfrom e he
  obtain ⟨q, hq, hdrop, rfl⟩ := (hports p).mp hp
  have hsourced : e.reference.portName = q.name := by
    obtain ⟨offer, remaining, left, -, honly, hresolved⟩ := hfilled
    rcases resolvePort_ok honly hresolved with ⟨e', heq, hs, -⟩ | ⟨hnone, -⟩
    · cases heq
      exact hs.name
    · cases hnone
  obtain rfl : q = port := List.inj_on_of_nodup_map hnd hq hport (hsourced.symm.trans hname)
  have hkind' : (Narrowing.restrict (Narrowing.restrictions narrowing) q).kind = .logs := hkind
  rcases hfilled.offered (Or.inr hkind') with ⟨hnone, -⟩ | ⟨offer, e', remaining, left, heq, -,
    honly, hoffer⟩
  · cases hnone
  · cases heq
    obtain ⟨root, producer, attestation, validUntil, path, subject, version, expected, bytes,
      hin, hsource, hitem, hattested, -, hread, -, hdigest, -⟩ := resolveOffer_log hkind' hoffer
    have hseen := seenFor_of_only rt (d := fs.disk git limits) honly hsource
    rw [hitem] at hseen
    have hattested' : checkAttestation rt ((fs.disk git limits).look rt r.now
        (.directory root producer attestation validUntil) (.file path subject version expected))
        q.name offer.source attestation = .ok () := by
      unfold checkAttestation at hattested ⊢
      unfold Disk.observe at hattested
      dsimp only at hattested
      rw [hseen] at hattested
      exact hattested
    have hfile : readContained q.name path (fs.fileView root path) r.limits.maxFileBytes remaining
        r.limits.maxTotalBytes = .ok bytes := by
      unfold Disk.observe at hread
      dsimp only at hread
      rw [hseen] at hread
      exact hread
    obtain ⟨⟨listed, hview⟩, hsize, -⟩ := readContained_ok hfile
    exact ⟨bytes, offer.source, root, producer, attestation, validUntil,
      hscope q hq hdrop _ hin, hsource, FileSystem.fileView_holds hview, hsize, hdigest.symm,
      attested_inside hattested'⟩

theorem verified_inside {node : NodeSpec} {snapshot : DependencySnapshot} {reference : EvidenceRef}
    (h : r.verifyReference rt (fs.disk git limits) node snapshot reference = []) {port : PortSpec}
    (hport : node.evidencePorts.find? (fun p => p.name = reference.portName) = some port)
    (hkind : port.kind = .logs) : ∃ bytes, Inside rt fs r port reference bytes := by
  obtain ⟨p, hp, -, hverified⟩ := verifyReference_eq_nil.mp h
  rw [hport] at hp
  cases hp
  unfold verifyKind at hverified
  rw [hkind] at hverified
  obtain ⟨rest, hrest, -⟩ := bind_ok hverified
  have hlocator := Graph.stripPrefix_eq_some.mp (someOr_ok hrest)
  obtain ⟨bytes, hstands, hdigest⟩ := (verifyLog_eq_ok hlocator).mp hverified
  obtain ⟨name, path, root, producer, attestation, validUntil, -, hin, hsource, hattested, -,
    hread⟩ := hstands
  obtain ⟨⟨listed, hview⟩, hsize, -⟩ := readContained_ok hread
  exact ⟨bytes, name, root, producer, attestation, validUntil, hin, hsource,
    FileSystem.fileView_holds hview, hsize, hdigest, attested_inside hattested⟩

/-- Whatever links a source's directory holds, the log evidence that is frozen or verified is read
from regular files inside it. -/
theorem logs_read_inside {node : NodeSpec} (hnode : node.checkContract = [])
    {reference : EvidenceRef} (h : Accepted rt r (fs.disk git limits) node reference)
    {port : PortSpec} (hport : port ∈ node.evidencePorts) (hname : reference.portName = port.name)
    (hkind : port.kind = .logs) : ∃ bytes, Inside rt fs r port reference bytes := by
  have hnd := (checkContract_eq_nil.mp hnode).portNames
  rcases h with ⟨narrowing, snapshot, offers, m, hresolve, hin⟩ | ⟨manifest, snapshot, hverify, hin⟩
  · obtain ⟨e, he, rfl⟩ := List.mem_map.mp hin
    exact frozen_inside hnd hresolve he hport hname hkind
  · refine verified_inside (List.flatMap_eq_nil_iff.mp hverify reference hin) ?_ hkind
    obtain ⟨p, hp⟩ : ∃ p, node.evidencePorts.find? (fun p => p.name = reference.portName) =
        some p := Option.isSome_iff_exists.mp
      (List.find?_isSome.mpr ⟨port, hport, decide_eq_true hname.symm⟩)
    have heq : p.name = reference.portName := by simpa using List.find?_some hp
    rw [hp, List.inj_on_of_nodup_map hnd (List.mem_of_find?_eq_some hp) hport (heq.trans hname)]

section

open Combined (patchId checkType softwareVerifier otherDigest build)
open Pilot (policy)

/-- Logs under `/srv/logs`, which `/data` leads to: one file behind a link to a directory beside
it, and a link out of the directory. -/
def logsTree : Place String (List UInt8) where
  children := [
    ("data", .link ⟨false, [.name "srv"]⟩),
    ("etc", .dir [("secret", .file [7])]),
    ("srv", .dir [("logs", .dir [
      ("latest", .link ⟨false, [.here, .name "2026"]⟩),
      ("2026", .dir [("build.log", .file [1, 2, 3])]),
      ("secret", .link ⟨true, [.name "etc", .name "secret"]⟩)])])]
  cwd := ["srv"]
  steps := 64
  cwd_isDir := ⟨_, rfl⟩

def logsFiles : FileSystem where
  place := logsTree
  refused := fun _ => none
  osError := fun _ => "No such file or directory"

example : logsFiles.fileView "/data/logs" "secret" = .escapes := rfl

def logPort : PortSpec :=
  { name := ⟨"log", by decide +kernel⟩, kind := .logs, expectedType := checkType, required := true
    allowedSourceScope := ["ci"], handlingPolicyRef := policy }

def logsTask : NodeSpec := Combined.node patchId .task [] [logPort] checkType softwareVerifier

def logsResolver : Resolver :=
  { sources := [("ci", .directory "/data/logs" "ci" none none)], limits := .default
    now := Pilot.now, schema := [] }

def logReference : EvidenceRef :=
  { portName := logPort.name, locator := "file:ci/latest/build.log", subject := "build"
    version := "1", contentDigest := otherDigest
    provenance := { producer := "ci", attestationRef := none }, policyRef := policy
    validUntil := none }

theorem latest_clean : isCleanRelativePath "latest/build.log" = true := by
  rw [isCleanRelativePath, String.contains_char_eq, String.contains_char_eq]
  decide +kernel

theorem logs_read_inside_latest : ∃ bytes,
    Inside build.runtime logsFiles logsResolver logPort logReference bytes := by
  have hread : readContained logPort.name "latest/build.log"
      (logsFiles.fileView "/data/logs" "latest/build.log") logsResolver.limits.maxFileBytes
      logsResolver.limits.maxTotalBytes logsResolver.limits.maxTotalBytes = .ok [1, 2, 3] :=
    readContained_eq_ok.mpr ⟨latest_clean, 3, rfl, by decide, by decide, by decide, by decide⟩
  have hstands : Stands build.runtime (logsFiles.disk workDisk.git .default) logsResolver logPort
      "ci/latest/build.log" [1, 2, 3] :=
    ⟨"ci", "latest/build.log", "/data/logs", "ci", none, none, by decide +kernel, by decide, rfl,
      rfl, (fun _ h => by cases h), hread⟩
  have hverify : logsResolver.verify build.runtime (logsFiles.disk workDisk.git .default) logsTask
      [logReference] ⟨patchId, []⟩ = [] := by
    rw [verify, List.flatMap_cons, List.flatMap_nil, List.append_nil]
    refine verifyReference_eq_nil.mpr ⟨logPort, by decide +kernel, (fun _ h => by cases h), ?_⟩
    exact (verifyLog_eq_ok rfl).mpr ⟨_, hstands, rfl⟩
  exact logs_read_inside (by decide +kernel) (.inr ⟨_, _, hverify, List.mem_singleton_self _⟩)
    List.mem_cons_self rfl rfl

theorem clean_file_read_log : readContained logPort.name "2026/build.log"
      (logsFiles.fileView "/data/logs" "2026/build.log") 16 4 4 = .ok [1, 2, 3] ↔
    ([1, 2, 3] : List UInt8) = [1, 2, 3] ∧
      logsFiles.refused (["srv", "logs"] ++ FileSystem.segments "2026/build.log") = none ∧
      ([1, 2, 3] : List UInt8).length ≤ 16 ∧ ([1, 2, 3] : List UInt8).length ≤ 4 := by
  have hclean : isCleanRelativePath "2026/build.log" = true := by
    rw [isCleanRelativePath, String.contains_char_eq, String.contains_char_eq]
    decide +kernel
  have hroot : logsTree.canonicalizeIn 6 (FileSystem.pathOf "/data/logs") =
      .ok ["srv", "logs"] := rfl
  exact FileSystem.clean_file_read hclean hroot rfl (by decide +kernel)

end

end Resolver

end Checkspan
