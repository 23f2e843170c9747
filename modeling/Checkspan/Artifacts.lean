import Mathlib.Data.List.Induction
import Checkspan.Plays
import Checkspan.RecordIds
import Checkspan.Snapshots

/-!
# Artifact files

A claim has one artifact file, named by its run, node and attempt number. Only the call that made
the claim touches it, and not after the attempt is sealed, unless a software child is started for
the sealed attempt.
-/

namespace Checkspan

open Process Transition

/-! ### Names -/

namespace Controller

/-- What `joinPath` puts before a name. -/
def stem (dir : String) : List Char :=
  if dir = "" ∨ dir.endsWith "/" then dir.toList else dir.toList ++ ['/']

theorem joinPath_toList (dir name : String) :
    (joinPath dir name).toList = stem dir ++ name.toList := by
  unfold joinPath stem
  split
  · exact String.toList_append
  · rw [String.toList_append, String.toList_append]
    rfl

theorem endsWith_slash {dir : String} (h : dir.endsWith "/" = true) :
    ∃ x, dir.toList = x ++ ['/'] := by
  obtain ⟨x, hx⟩ := String.Slice.endsWith_string_iff.mp h
  rw [String.copy_toSlice] at hx
  exact ⟨x, hx.symm⟩

theorem stem_cases (dir : String) : stem dir = [] ∨ ∃ x, stem dir = x ++ ['/'] := by
  unfold stem
  split
  · rename_i h
    rcases h with rfl | h
    · exact Or.inl rfl
    · exact Or.inr (endsWith_slash h)
  · exact Or.inr ⟨_, rfl⟩

/-- A name without a slash is the last component of its path, in one way. -/
theorem joinPath_inj {dir dir' name name' : String} (hname : '/' ∉ name.toList)
    (hname' : '/' ∉ name'.toList) (h : joinPath dir name = joinPath dir' name') :
    stem dir = stem dir' ∧ name = name' := by
  have hlists := congrArg String.toList h
  rw [joinPath_toList, joinPath_toList] at hlists
  have hslash : ∀ x ys zs : List Char, x ++ ['/'] ++ ys = zs → '/' ∈ zs := by
    rintro x ys zs rfl
    simp
  rcases stem_cases dir with hd | ⟨x, hd⟩
  · rcases stem_cases dir' with hd' | ⟨y, hd'⟩
    · rw [hd, hd', List.nil_append, List.nil_append] at hlists
      exact ⟨hd.trans hd'.symm, String.toList_inj.mp hlists⟩
    · rw [hd, hd', List.nil_append] at hlists
      exact absurd (hslash y _ _ hlists.symm) hname
  · rcases stem_cases dir' with hd' | ⟨y, hd'⟩
    · rw [hd, hd', List.nil_append] at hlists
      exact absurd (hslash x _ _ hlists) hname'
    · rw [hd, hd', List.append_assoc, List.append_assoc] at hlists
      obtain ⟨hdirs, hnames⟩ := append_cons_right_inj hname hname' hlists
      exact ⟨by rw [hd, hd', hdirs], String.toList_inj.mp hnames⟩

/-- A directory that ends with a proper name gets a slash. -/
theorem stem_joinPath {dir name : String} (hname : '/' ∉ name.toList) (hne : name.toList ≠ []) :
    stem (joinPath dir name) = (joinPath dir name).toList ++ ['/'] := by
  unfold stem
  rw [if_neg]
  rintro (h | h)
  · have hlist := congrArg String.toList h
    rw [joinPath_toList] at hlist
    exact hne (List.append_eq_nil_iff.mp hlist).2
  · obtain ⟨x, hx⟩ := endsWith_slash h
    rw [joinPath_toList, ← List.dropLast_append_getLast hne, ← List.append_assoc] at hx
    obtain ⟨-, hlast⟩ := List.append_inj' hx rfl
    refine hname ?_
    have hmem := List.getLast_mem hne
    rw [(List.cons.inj hlast).1] at hmem
    exact hmem

theorem identifier_noSlash {k : IdKind} (i : Identifier k) : '/' ∉ i.text.toList := by
  intro hmem
  exact absurd ((checkIdentifier_eq_ok.mp i.valid).chars _ hmem) (by decide)

theorem identifier_ne_nil {k : IdKind} (i : Identifier k) : i.text.toList ≠ [] := by
  obtain ⟨first, rest, hlist, -⟩ := (checkIdentifier_eq_ok.mp i.valid).head
  rw [hlist]
  exact List.cons_ne_nil _ _

/-- The name of an artifact file in its run's directory. -/
def fileName (id : NodeId) (number : AttemptNumber) : String :=
  id.text ++ "-" ++ number.display ++ ".json"

theorem fileName_noSlash (id : NodeId) (number : AttemptNumber) :
    '/' ∉ (fileName id number).toList := by
  simp only [fileName, String.toList_append, List.mem_append, not_or]
  refine ⟨⟨⟨identifier_noSlash id, by decide⟩, ?_⟩, by decide⟩
  intro hmem
  exact absurd (display_chars number _ hmem) (by decide)

theorem fileName_injective {id id' : NodeId} {number number' : AttemptNumber}
    (h : fileName id number = fileName id' number') : id = id' ∧ number = number' := by
  have hlists := congrArg String.toList h
  simp only [fileName, String.toList_append] at hlists
  have hparts := List.append_cancel_right hlists
  refine @derivedId_injective "" _ _ _ _ (String.toList_inj.mp ?_)
  simpa [derivedId] using hparts

/-- An artifact file tells its run, node and attempt number, wherever the artifacts are. -/
theorem artifactFile_injective {ws ws' : Workspace} {run run' : RunId} {id id' : NodeId}
    {number number' : AttemptNumber}
    (h : artifactFile ws run id number = artifactFile ws' run' id' number') :
    run = run' ∧ id = id' ∧ number = number' := by
  obtain ⟨hstems, hnames⟩ :=
    joinPath_inj (fileName_noSlash id number) (fileName_noSlash id' number') h
  unfold artifactDir at hstems
  rw [stem_joinPath (identifier_noSlash run) (identifier_ne_nil run),
    stem_joinPath (identifier_noSlash run') (identifier_ne_nil run')] at hstems
  have hdirs := String.toList_inj.mp (List.append_cancel_right hstems)
  obtain ⟨-, hruns⟩ := joinPath_inj (identifier_noSlash run) (identifier_noSlash run') hdirs
  exact ⟨Identifier.ext_text hruns, fileName_injective hnames⟩

end Controller

/-! ### Contents -/

/-- The file an effect may change. -/
def Effect.target : Effect → Option String
  | .write path _ => some path
  | .child (.software _ out) _ => some out
  | _ => none

/-- What a file holds after an entry, as far as it is known, given what it held before. -/
def Did.leaves (path : String) (before : Option (Option (List UInt8))) :
    Did → Option (Option (List UInt8))
  | ⟨.write p bytes, r⟩ =>
    if p = path then
      match (r : Except String Unit) with
      | .ok () => some (some bytes)
      | .error _ => none
    else before
  | ⟨.child (.software _ out) _, r⟩ => if out = path then some (ChildEnd.seen r) else before
  | _ => before

/-- What the call left in a file, when it was the last to touch it. -/
def contentAfter (path : String) (h : List Did) : Option (Option (List UInt8)) :=
  h.foldl (Did.leaves path) none

@[simp] theorem contentAfter_snoc (path : String) (h : List Did) (x : Did) :
    contentAfter path (h ++ [x]) = x.leaves path (contentAfter path h) := by
  simp [contentAfter]

section

variable {path : String} {e : Effect} {r : e.Answer} {before : Option (Option (List UInt8))}

theorem Did.leaves_other (h : e.target ≠ some path) :
    Did.leaves path before ⟨e, r⟩ = before := by
  cases e with
  | write p bytes => exact if_neg (fun hp => h (congrArg some hp))
  | child args request =>
    cases args with
    | patch artifact => rfl
    | software profile out => exact if_neg (fun hp => h (congrArg some hp))
  | ledger | run | events | attempt | resolve | clock | observe | makeDir | read | currentExe => rfl

theorem Effect.Performs.files_other {rt : Runtime} {w w' : World} (hp : e.Performs rt w r w')
    (h : e.target ≠ some path) : w'.files path = w.files path := by
  cases e with
  | write p bytes => exact hp.2.1 path (fun heq => h (congrArg some heq.symm))
  | child args request =>
    cases args with
    | patch artifact => exact congrArg (World.files · path) hp.1
    | software profile out => exact hp.2.1 path (fun heq => h (congrArg some heq.symm))
  | ledger op =>
    obtain ⟨-, rfl⟩ := hp
    rfl
  | run | events | attempt | resolve => exact congrArg (World.files · path) hp.2
  | read => exact congrArg (World.files · path) hp.1
  | clock | observe | makeDir | currentExe => exact congrArg (World.files · path) hp

/-- What an entry is known to leave in the file it touches is in the file. -/
theorem Effect.Performs.files_target {rt : Runtime} {w w' : World} (hp : e.Performs rt w r w')
    (h : e.target = some path) {content : Option (List UInt8)}
    (hleaves : Did.leaves path before ⟨e, r⟩ = some content) : w'.files path = content := by
  cases e with
  | write p bytes =>
    obtain rfl := Option.some.inj h
    cases r with
    | error x => simp [Did.leaves] at hleaves
    | ok u =>
      simp only [Did.leaves, if_true, Option.some.injEq] at hleaves
      exact (hp.2.2 rfl).trans hleaves
  | child args request =>
    cases args with
    | patch artifact => cases h
    | software profile out =>
      obtain rfl := Option.some.inj h
      simp only [Did.leaves, if_true, Option.some.injEq] at hleaves
      exact hp.2.2.trans hleaves
  | ledger | run | events | attempt | resolve | clock | observe | makeDir | read | currentExe =>
    cases h

end

/-- A file is known after a call only when the call touched it. -/
theorem exists_target {path : String} {h : List Did} {content : Option (List UInt8)}
    (hc : contentAfter path h = some content) :
    ∃ g x t, h = g ++ x :: t ∧ x.effect.target = some path := by
  induction h using List.reverseRecOn with
  | nil => cases hc
  | append_singleton h x ih =>
    by_cases hx : x.effect.target = some path
    · exact ⟨h, x, [], rfl, hx⟩
    · rw [contentAfter_snoc, Did.leaves_other hx] at hc
      obtain ⟨g, y, t, rfl, hy⟩ := ih hc
      exact ⟨g, y, t ++ [x], by simp, hy⟩

theorem contentAfter_untouched {path : String} {h tail : List Did}
    (hquiet : ∀ g x t, tail = g ++ x :: t → x.effect.target ≠ some path) :
    contentAfter path (h ++ tail) = contentAfter path h := by
  induction tail using List.reverseRecOn with
  | nil => rw [List.append_nil]
  | append_singleton tail x ih =>
    rw [← List.append_assoc, contentAfter_snoc, Did.leaves_other (hquiet tail x [] rfl)]
    exact ih (fun g y t ht => hquiet g y (t ++ [x]) (by rw [ht]; simp))

/-! ### The condition -/

def AttemptRef.key (r : AttemptRef) : RunId × NodeId × AttemptNumber :=
  (r.runId, r.node.nodeId, r.number)

/-- No software child is started for an attempt that is sealed. -/
def Unrepeated (p : Sessions) : SessionMove → Prop
  | .act _ x => ∀ profile out request, x.effect = .child (.software profile out) request →
      ∀ a ∈ p.world.store.attempts, a.key ≠ request.attempt.key
  | _ => True

/-- What the file an entry touches is to its call: the artifact of a claim it made at most six
entries before. -/
def Touches (b : Build) (h : List Did) (x : Did) : Prop :=
  ∀ path, x.effect.target = some path → ∃ c, ∃ f : Freeze b c, f.path = path ∧
    f.history <+: h ∧ h.length ≤ f.history.length + 2

/-! ### Who touches a file -/

section

variable {b : Build} {docs : GraphSpec → Prop} {allowed : Sessions → SessionMove → Prop}
  {p : Sessions}

/-- The attempt a call verifies is a stored one, and the one it asks about. -/
theorem Verify.stored (hc : Conducted b docs p) {c : Command} (v : Verify b c) {i : Nat} {x : Did}
    (hmade : p.MadeAt i v.before x) :
    v.attempt ∈ p.world.store.attempts ∧ v.attempt.key = v.request.attempt.key := by
  obtain ⟨hrow, hrun, hnode⟩ := v.held.stored hc hmade
  refine ⟨hrow, ?_⟩
  simp only [Attempt.key, AttemptRef.key, Verify.request, Controller.requestFor,
    Controller.nodeRefIn, hrun, hnode]

theorem touches_invariant (hdist : Distinct b.runtime docs)
    (hallowed : ∀ s m, allowed s m → Unrepeated s m) : ((sessions b docs).system allowed).Invariant
      (fun p => ∀ t ∈ p.threads, Along (Touches b) t.past) := by
  refine Machine.along_invariant (P := fun _ => Touches b) (fun p hp => hp) ?_ ?_
  · exact fun _ _ _ _ _ _ _ h => h
  · intro p i past e k r w hp hi hallow hperf _ path htarget
    have hstep : ((sessions b docs).system allowed).step p (.act i ⟨e, r⟩)
        ⟨w, p.threads.set i ⟨past ++ [⟨e, r⟩], k r⟩⟩ := ⟨hallow, .act hi hperf⟩
    have hc' := conducted_invariant hdist _ (.step hp hstep)
    have hmade : Pool.MadeAt ⟨w, p.threads.set i ⟨past ++ [⟨e, r⟩], k r⟩⟩ i past ⟨e, r⟩ :=
      ⟨_, Machine.getElem?_set_of_some hi, [], rfl⟩
    obtain ⟨c, hprotocol⟩ := hc'.protocol hmade
    cases e with
    | write p bytes =>
      obtain ⟨f, history, rfl, -⟩ := hprotocol
      obtain rfl := Option.some.inj htarget
      refine ⟨c, f, rfl, history ▸ List.prefix_append _ _, ?_⟩
      rw [history, List.length_append]
      simp
    | child args request =>
      cases hprotocol with
      | check f subject profile hsubject history hargs hrequest =>
        subst hargs
        obtain rfl := Option.some.inj htarget
        refine ⟨c, f, rfl, history ▸ List.prefix_append _ _, ?_⟩
        rw [history, List.length_append]
        simp
      | verify v history hargs hrequest =>
        cases args with
        | patch artifact => cases htarget
        | software profile out =>
          subst history
          obtain ⟨hrow, hkey⟩ := v.stored hc' hmade
          have hstore : w.store = p.world.store := hperf.1
          have hfree := hallowed p _ hallow profile out request rfl v.attempt (hstore ▸ hrow)
          exact absurd (hrequest ▸ hkey) hfree
    | ledger | run | events | attempt | resolve | clock | observe | makeDir | read | currentExe =>
      cases htarget

/-- The claims of two entries with one artifact file are one claim. -/
theorem Freeze.same_file (hdist : Distinct b.runtime docs)
    (hp : ((sessions b docs).system allowed).Reachable p) {c c' : Command} {f : Freeze b c}
    {f' : Freeze b c'} {i j : Nat} {h g : List Did} {x y : Did} (hx : p.MadeAt i h x)
    (hy : p.MadeAt j g y) (hf : f.history <+: h) (hf' : f'.history <+: g)
    (hpath : f.path = f'.path) : i = j ∧ f.before = f'.before := by
  have hc := conducted_invariant hdist p hp
  have hclaimed : ∀ {c : Command} {f : Freeze b c} {i : Nat} {h : List Did} {x : Did},
      p.MadeAt i h x → f.history <+: h →
      p.MadeAt i f.before (Did.claimed f.sched c.now f.claimedAt f.claim) ∧
        f.claim.runId = f.sched.run.runId := by
    rintro c f i h x hx ⟨rest, rfl⟩
    have hbefore : p.MadeAt i f.before (Did.claimed f.sched c.now f.claimedAt f.claim) :=
      hx.before (List.append_assoc _ _ _)
    exact ⟨hbefore, (hc.holds_made hbefore
      (List.mem_append_right _ (List.mem_singleton_self _)) f.claim rfl).1⟩
  obtain ⟨hmade, hrun⟩ := hclaimed hx hf
  obtain ⟨hmade', hrun'⟩ := hclaimed hy hf'
  obtain ⟨hruns, hids, hnumbers⟩ := Controller.artifactFile_injective hpath
  have hkey : f.claim.key = f'.claim.key := by
    simp only [Claim.key, hrun, hrun', hruns, hids, hnumbers]
  obtain ⟨hij, hbefore, -⟩ := claimed_once hdist p hp i j _ _ _ _ f.claim.key hmade hmade' rfl
    (congrArg some hkey.symm)
  exact ⟨hij, hbefore⟩

theorem Freeze.history_length {c : Command} (f : Freeze b c) :
    f.history.length = f.before.length + 4 := by
  rw [Freeze.history, List.length_append]
  rfl

/-- A file holds what the call that last touched it left there. -/
def FilesKept (p : Sessions) : Prop :=
  ∀ t ∈ p.threads, ∀ path content, contentAfter path t.past = some content →
    p.world.files path = content

theorem filesKept_invariant (hdist : Distinct b.runtime docs)
    (hallowed : ∀ s m, allowed s m → Unrepeated s m) :
    ((sessions b docs).system allowed).Invariant FilesKept := by
  refine System.Invariant.step (fun (p : Sessions)
    (hp : ((sessions b docs).system allowed).Reachable p) => hp) ?_ ?_
  · rintro p ⟨-, hnil⟩ t ht
    rw [hnil] at ht
    exact absurd ht List.not_mem_nil
  · intro p m p' hp hkept hstep t ht path content hcontent
    have hp' := System.Reachable.step hp hstep
    obtain ⟨-, hmove⟩ := hstep
    cases hmove with
    | start h =>
      rcases List.mem_append.mp ht with ht | ht
      · exact hkept t ht path content hcontent
      · rw [List.mem_singleton.mp ht] at hcontent
        cases hcontent
    | env h =>
      obtain ⟨-, -, rfl⟩ := h
      exact hkept t ht path content hcontent
    | @act i past e k r w hi hperf =>
      have htouches := touches_invariant hdist hallowed _ hp'
      obtain ⟨j, hj⟩ := List.mem_iff_getElem?.mp ht
      by_cases hij : i = j
      · -- The call that acted knows its file, or did not touch it.
        subst hij
        rw [Machine.getElem?_set_of_some hi] at hj
        obtain rfl := Option.some.inj hj
        rw [contentAfter_snoc] at hcontent
        by_cases htarget : e.target = some path
        · exact hperf.files_target htarget hcontent
        · rw [Did.leaves_other htarget] at hcontent
          rw [hperf.files_other htarget]
          exact hkept _ (List.mem_of_getElem? hi) path content hcontent
      · -- Another call that touched the file has the claim, so this one did not touch it.
        have hold := (List.getElem?_set_ne hij).symm.trans hj
        have hfiles := hkept t (List.mem_of_getElem? hold) path content hcontent
        by_cases htarget : e.target = some path
        · obtain ⟨g, y, tail, hpast, hy⟩ := exists_target hcontent
          have hmade : Pool.MadeAt ⟨w, p.threads.set i ⟨past ++ [⟨e, r⟩], k r⟩⟩ i past ⟨e, r⟩ :=
            ⟨_, Machine.getElem?_set_of_some hi, [], rfl⟩
          have hmade' : Pool.MadeAt ⟨w, p.threads.set i ⟨past ++ [⟨e, r⟩], k r⟩⟩ j g y :=
            ⟨t, hj, tail, hpast⟩
          obtain ⟨c, f, hf, hprefix, -⟩ := htouches _
            (List.mem_of_getElem? (Machine.getElem?_set_of_some hi)) past ⟨e, r⟩ [] rfl path htarget
          obtain ⟨c', f', hf', hprefix', -⟩ := htouches t ht g y tail hpast path hy
          exact absurd (Freeze.same_file hdist hp' hmade hmade' hprefix hprefix'
            (hf.trans hf'.symm)).1 hij
        · rw [hperf.files_other htarget]
          exact hfiles

/-- What a call reads of a file it touched is what it left there. -/
def ReadsBackLeft (h : List Did) (x : Did) : Prop :=
  ∀ path bytes content, x = Did.bytesRead path bytes → contentAfter path h = some content →
    content = some bytes

theorem readsBackLeft_invariant (hdist : Distinct b.runtime docs)
    (hallowed : ∀ s m, allowed s m → Unrepeated s m) : ((sessions b docs).system allowed).Invariant
      (fun p => ∀ t ∈ p.threads, Along ReadsBackLeft t.past) := by
  refine Machine.along_invariant (P := fun _ => ReadsBackLeft)
    (filesKept_invariant hdist hallowed) ?_ ?_
  · exact fun _ _ _ _ _ _ _ h => h
  · intro p i past e k r w hkept hi _ hperf _ path bytes content hread hcontent
    cases hread
    have hfile := hkept _ (List.mem_of_getElem? hi) path content hcontent
    exact hfile.symm.trans (hperf.2 bytes rfl)

/-- What a check read back is what its child left. -/
theorem Check.read_back (hdist : Distinct b.runtime docs)
    (hallowed : ∀ s m, allowed s m → Unrepeated s m)
    (hp : ((sessions b docs).system allowed).Reachable p) {c : Command} (k : Check b c)
    {t : Thread Effect Effect.Answer (Except RunError (List Action))} (ht : t ∈ p.threads)
    {rest : List Did} (hpast : t.past = k.history ++ rest) :
    k.child.seen = some k.bytes ∧ contentAfter k.path k.history = some (some k.bytes) := by
  let h := k.toFreeze.history ++ [Did.dirMade k.dir] ++ [Did.exeFound] ++
    [Did.ran (.software k.profile k.path) k.request k.child]
  have hk : k.history = h ++ [Did.bytesRead k.path k.bytes] := by
    rw [Check.history]
    simp [h]
  have hleft : contentAfter k.path h = some k.child.seen := by
    rw [contentAfter_snoc]
    exact if_pos rfl
  have hread : k.child.seen = some k.bytes := by
    refine readsBackLeft_invariant hdist hallowed p hp t ht h
      (Did.bytesRead k.path k.bytes) rest ?_ _ _ _ rfl hleft
    rw [hpast, hk, List.append_assoc, List.singleton_append]
  refine ⟨hread, ?_⟩
  rw [hk, contentAfter_snoc]
  exact hleft.trans (congrArg some hread)

/-- What a call sealed over is what it left in the claim's file, and it leaves it there. -/
theorem Sealing.content (hdist : Distinct b.runtime docs)
    (hallowed : ∀ s m, allowed s m → Unrepeated s m)
    (hp : ((sessions b docs).system allowed).Reachable p) {c : Command} {i : Nat}
    {t : Thread Effect Effect.Answer (Except RunError (List Action))} (ht : p.threads[i]? = some t)
    {g rest : List Did} {sched : Scheduler} {claim : Claim} {a : Attempt}
    (hpast : t.past = g ++ Did.sealed sched claim a :: rest) (hseal : Sealing b c g sched claim a)
    (hdone : a.completed = true) : ∃ (f : Freeze b c) (bytes : List UInt8),
      a = f.sealedOver bytes ∧ contentAfter f.path g = some (some bytes) ∧
      contentAfter f.path t.past = some (some bytes) := by
  have hmem := List.mem_of_getElem? ht
  have hmade : p.MadeAt i g (Did.sealed sched claim a) := ⟨t, ht, rest, hpast⟩
  have hquiet : ∀ f : Freeze b c, f.history <+: g → f.history.length + 2 ≤ g.length →
      contentAfter f.path t.past = contentAfter f.path g := by
    intro f hprefix hlong
    rw [hpast]
    refine contentAfter_untouched ?_
    intro g' y tail hsplit htarget
    have hy : t.past = (g ++ g') ++ y :: tail := by rw [hpast, hsplit, List.append_assoc]
    obtain ⟨c', f', hfile, hprefix', hlength⟩ :=
      touches_invariant hdist hallowed p hp t hmem _ y tail hy f.path htarget
    obtain ⟨-, hbefore⟩ := Freeze.same_file hdist hp ⟨t, ht, tail, hy⟩ hmade hprefix' hprefix hfile
    rw [f'.history_length, hbefore, ← f.history_length, List.length_append] at hlength
    cases g' with
    | nil =>
      cases hsplit
      cases htarget
    | cons z zs =>
      rw [List.length_cons] at hlength
      omega
  have hboth : ∀ (f : Freeze b c) (bytes : List UInt8), f.history <+: g →
      f.history.length + 2 ≤ g.length → contentAfter f.path g = some (some bytes) →
      contentAfter f.path g = some (some bytes) ∧
        contentAfter f.path t.past = some (some bytes) :=
    fun f bytes hprefix hlong hleft => ⟨hleft, (hquiet f hprefix hlong).trans hleft⟩
  cases hseal with
  | patch f bytes hsched hclaim history ha =>
    refine ⟨f, bytes, ha, hboth f bytes (history ▸ List.prefix_append _ _)
      (by rw [history, List.length_append]; exact le_rfl) ?_⟩
    rw [history, ← List.singleton_append, ← List.append_assoc, contentAfter_snoc]
    exact if_pos rfl
  | check k hsched hclaim history ha =>
    refine ⟨k.toFreeze, k.bytes, ha, hboth k.toFreeze k.bytes (history ▸ List.prefix_append _ _)
      (by rw [history, Check.history, List.length_append]
          exact Nat.add_le_add_left (Nat.le_add_left 2 2) _) ?_⟩
    rw [history]
    exact (k.read_back hdist hallowed hp hmem (hpast.trans (by rw [history]))).2
  | failed claimedAt opened quiet hclaim ha =>
    rw [ha] at hdone
    cases hdone

/-- The file a completed attempt names, as the call that sealed it left it. -/
structure Attempt.FiledAt (rt : Runtime) (p : Sessions) (a : Attempt) (g : List Did)
    (path : String) (bytes : List UInt8) : Prop where
  named : ∃ result, a.result = some result ∧ result.artifactRef = "file:" ++ path ∧
    result.digest = artifactDigest rt bytes
  left : contentAfter path g = some (some bytes)
  kept : p.world.files path = some bytes

theorem Attempt.FiledAt.unique {rt : Runtime} {p p' : Sessions} {a : Attempt} {g : List Did}
    {path path' : String} {bytes bytes' : List UInt8} (h : a.FiledAt rt p g path bytes)
    (h' : a.FiledAt rt p' g path' bytes') : path = path' ∧ bytes = bytes' := by
  obtain ⟨result, hresult, hfile, -⟩ := h.named
  obtain ⟨result', hresult', hfile', -⟩ := h'.named
  obtain rfl := Option.some.inj (hresult.symm.trans hresult')
  obtain rfl := (String.append_right_inj _).mp (hfile.symm.trans hfile')
  exact ⟨rfl, Option.some.inj (Option.some.inj (h.left.symm.trans h'.left))⟩

theorem sealed_filed (hdist : Distinct b.runtime docs)
    (hallowed : ∀ s m, allowed s m → Unrepeated s m)
    (hp : ((sessions b docs).system allowed).Reachable p) {i : Nat} {g : List Did}
    {sched : Scheduler} {claim : Claim} {a : Attempt}
    (hmade : p.MadeAt i g (Did.sealed sched claim a)) (hdone : a.completed = true) :
    ∃ path bytes, a.FiledAt b.runtime p g path bytes := by
  obtain ⟨t, ht, rest, hpast⟩ := hmade
  obtain ⟨c, hf⟩ := (conducted_invariant hdist p hp).follows t (List.mem_of_getElem? ht)
  obtain ⟨f, bytes, rfl, hleft, hcontent⟩ :=
    Sealing.content hdist hallowed hp ht hpast (hf.past g _ rest hpast) hdone
  exact ⟨f.path, bytes, ⟨_, rfl, rfl, rfl⟩, hleft,
    filesKept_invariant hdist hallowed p hp t (List.mem_of_getElem? ht) _ _ hcontent⟩

/-- A check is sealed over what its child left, and the claim's file keeps it. -/
theorem Check.filed (hdist : Distinct b.runtime docs)
    (hallowed : ∀ s m, allowed s m → Unrepeated s m)
    (hp : ((sessions b docs).system allowed).Reachable p) {c : Command} (k : Check b c) {i : Nat}
    (hmade : p.MadeAt i k.history (Did.sealed k.sched k.claim (k.sealedOver k.bytes))) :
    k.child.seen = some k.bytes ∧
      (k.sealedOver k.bytes).FiledAt b.runtime p k.history k.path k.bytes := by
  obtain ⟨path, bytes, hfiled⟩ := sealed_filed hdist hallowed hp hmade rfl
  obtain ⟨t, ht, rest, hpast⟩ := hmade
  obtain ⟨hseen, hleft⟩ := k.read_back hdist hallowed hp (List.mem_of_getElem? ht) hpast
  obtain ⟨result, hresult, hfile, -⟩ := hfiled.named
  obtain rfl := Option.some.inj hresult
  obtain rfl := (String.append_right_inj _).mp hfile
  obtain rfl := Option.some.inj (Option.some.inj (hleft.symm.trans hfiled.left))
  exact ⟨hseen, hfiled⟩

end

namespace Combined

open Pilot (zeroDigest)

/-- No child of the check starts for an attempt that is sealed. -/
def fresh (p : Sessions) (_ : Nat) (x : Did) : Bool :=
  match x.effect with
  | .child (.software _ _) request =>
    p.world.store.attempts.all (fun a => a.key ≠ request.attempt.key)
  | _ => true

theorem fresh_unrepeated (p : Sessions) (i : Nat) (x : Did) (h : fresh p i x = true) :
    Unrepeated p (.act i x) := by
  intro profile out request hx a ha
  unfold fresh at h
  rw [hx] at h
  exact of_decide_eq_true (List.all_eq_true.mp h a ha)

end Combined

end Checkspan
