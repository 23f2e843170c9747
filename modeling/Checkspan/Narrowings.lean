import Checkspan.Manifests
import Checkspan.Retries

/-!
# Narrowings (`src/budget/mod.rs:146-259`, `:519-539`)

A retry may drop optional ports and shrink the sources of others, and what it may do
is checked against the contract alone. The narrowing it was given is written into the
log, and the next claim of the node reads it back.
-/

namespace Checkspan

open Transition

namespace Narrowing

/-! ### What a narrowing leaves -/

/-- A port as a narrowing leaves it: the port of the contract with some of its
sources, with all of them unless it is restricted. -/
structure Narrowed (n : Narrowing) (q p : PortSpec) : Prop where
  same : p = { q with allowedSourceScope := p.allowedSourceScope }
  sources : p.allowedSourceScope ≠ []
  within : ∀ x ∈ p.allowedSourceScope, x ∈ q.allowedSourceScope
  untouched : q.name ∉ n.restrictedSources.map Prod.fst →
    p.allowedSourceScope = q.allowedSourceScope

/-- What a refused narrowing does that a narrowing may not do. -/
inductive Oversteps (node : NodeSpec) (n : Narrowing) : NarrowingError → Prop
  | unknownDropped {port : Ident} (h : port ∈ n.droppedPorts)
      (unknown : ∀ q ∈ node.evidencePorts, q.name ≠ port) : Oversteps node n (.unknownPort port)
  | unknownRestricted {port : Ident} (h : port ∈ n.restrictedSources.map Prod.fst)
      (unknown : ∀ q ∈ node.evidencePorts, q.name ≠ port) : Oversteps node n (.unknownPort port)
  | requiredDropped {q : PortSpec} (hq : q ∈ node.evidencePorts) (required : q.required = true)
      (h : q.name ∈ n.droppedPorts) : Oversteps node n (.requiredPort q.name)
  | repeatedDrop {port : Ident} (h : 2 ≤ n.droppedPorts.count port) :
      Oversteps node n (.duplicatePort port)
  | repeatedRestriction {port : Ident} (h : 2 ≤ (n.restrictedSources.map Prod.fst).count port) :
      Oversteps node n (.duplicatePort port)
  | restrictedAndDropped {port : Ident} (h : port ∈ n.restrictedSources.map Prod.fst)
      (dropped : port ∈ n.droppedPorts) : Oversteps node n (.restrictedAndDropped port)
  | emptySources {port : Ident} (h : (port, []) ∈ n.restrictedSources) :
      Oversteps node n (.emptySources port)
  | widensScope {q : PortSpec} {sources : List String} {x : String}
      (hq : q ∈ node.evidencePorts) (h : (q.name, sources) ∈ n.restrictedSources)
      (hx : x ∈ sources) (outside : x ∉ q.allowedSourceScope) :
      Oversteps node n (.widensScope q.name x)

theorem mem_of_lookup {α β : Type} [DecidableEq α] {xs : List (α × β)} {a : α} {b : β}
    (h : xs.lookup a = some b) : (a, b) ∈ xs := by
  induction xs with
  | nil => cases h
  | cons x rest ih =>
    obtain ⟨key, value⟩ := x
    rw [List.lookup_cons] at h
    by_cases hkey : a = key
    · rw [beq_iff_eq.mpr hkey] at h
      cases h
      rw [hkey]
      exact List.mem_cons_self
    · rw [beq_eq_false_iff_ne.mpr hkey] at h
      exact List.mem_cons_of_mem _ (ih h)

theorem checkRestricted_sources {dropped seen : List Ident} {ports effective : List PortSpec}
    {restricted : List (Ident × List String)}
    (h : checkRestricted dropped seen ports restricted = .ok effective) :
    ∀ r ∈ restricted, r.2 ≠ [] := by
  induction restricted generalizing seen ports with
  | nil => exact fun _ hr => absurd hr List.not_mem_nil
  | cons r rest ih =>
    obtain ⟨name, sources⟩ := r
    unfold checkRestricted at h
    split at h
    · cases h
    · split at h
      · cases h
      · split at h
        · cases h
        · split at h
          · cases h
          · rename_i hsome
            split at h
            · cases h
            · intro x hx
              rcases List.mem_cons.mp hx with rfl | hx
              · simpa using hsome
              · exact ih h x hx

theorem restrict_narrowed {n : Narrowing} {q : PortSpec} (hsources : q.allowedSourceScope ≠ [])
    (hsome : ∀ r ∈ n.restrictedSources, r.2 ≠ [])
    (hwithin : ∀ x ∈ (restrict n.restrictedSources q).allowedSourceScope,
      x ∈ q.allowedSourceScope) : Narrowed n q (restrict n.restrictedSources q) where
  same := rfl
  sources := by
    unfold restrict
    cases hlook : n.restrictedSources.lookup q.name with
    | none => exact hsources
    | some sources => exact hsome _ (mem_of_lookup hlook)
  within := hwithin
  untouched := by
    intro hfree
    unfold restrict
    cases hlook : n.restrictedSources.lookup q.name with
    | none => rfl
    | some sources => exact absurd (List.mem_map_of_mem (mem_of_lookup hlook)) hfree

theorem count_two_of_mem {α : Type} [DecidableEq α] {before rest : List α} {a : α}
    (h : a ∈ before) : 2 ≤ (before ++ a :: rest).count a := by
  have hpos : 0 < before.count a := List.count_pos_iff.mpr h
  rw [List.count_append, List.count_cons_self]
  omega

theorem checkDropped_error {node : NodeSpec} {n : Narrowing} (before : List Ident)
    {rest seen : List Ident}
    (hall : n.droppedPorts = before ++ rest) (hseen : ∀ name ∈ seen, name ∈ before)
    {e : NarrowingError} (h : checkDropped node seen rest = .error e) : Oversteps node n e := by
  induction rest generalizing before seen with
  | nil => cases h
  | cons port rest ih =>
    have hport : port ∈ n.droppedPorts := by
      rw [hall]
      exact List.mem_append_right _ List.mem_cons_self
    unfold checkDropped at h
    split at h
    · rename_i hrepeated
      cases h
      refine .repeatedDrop ?_
      rw [hall]
      exact count_two_of_mem (hseen port hrepeated)
    · split at h
      · rename_i hnone
        cases h
        exact .unknownDropped hport (by simpa using hnone)
      · rename_i declared hfound
        have hname : declared.name = port := by simpa using List.find?_some hfound
        split at h
        · rename_i hrequired
          cases h
          rw [← hname] at hport ⊢
          exact .requiredDropped (List.mem_of_find?_eq_some hfound) hrequired hport
        · refine ih (before ++ [port]) (by simp [hall]) ?_ h
          intro name hname
          rcases List.mem_cons.mp hname with rfl | hname
          · simp
          · exact List.mem_append_left _ (hseen name hname)

/-- The ports a check of restrictions goes on with: those of the contract, except that
the sources of the ports already restricted may have changed. -/
structure Going (node : NodeSpec) (n : Narrowing) (seen : List Ident) (ports : List PortSpec) :
    Prop where
  declared : ∀ p ∈ ports, p.name ∉ seen → p ∈ node.evidencePorts
  kept : ∀ q ∈ node.evidencePorts, q.name ∉ n.droppedPorts → ∃ p ∈ ports, p.name = q.name

theorem mem_restrictPort {port : Ident} {sources : List String} {ports : List PortSpec}
    {p : PortSpec} (h : p ∈ restrictPort port sources ports) :
    p ∈ ports ∨ p.name = port := by
  induction ports with
  | nil => cases h
  | cons q rest ih =>
    unfold restrictPort at h
    split at h
    · rename_i hq
      rcases List.mem_cons.mp h with rfl | h
      · exact Or.inr hq
      · exact Or.inl (List.mem_cons_of_mem _ h)
    · rcases List.mem_cons.mp h with rfl | h
      · exact Or.inl List.mem_cons_self
      · exact (ih h).imp_left (List.mem_cons_of_mem _)

theorem restrictPort_names (port : Ident) (sources : List String) (ports : List PortSpec) :
    (restrictPort port sources ports).map (·.name) = ports.map (·.name) := by
  induction ports with
  | nil => rfl
  | cons q rest ih =>
    unfold restrictPort
    split
    · rfl
    · rw [List.map_cons, ih, List.map_cons]

theorem Going.restrict {node : NodeSpec} {n : Narrowing} {seen : List Ident}
    {ports : List PortSpec} (h : Going node n seen ports) (port : Ident) (sources : List String) :
    Going node n (port :: seen) (restrictPort port sources ports) where
  declared := by
    intro p hp hfresh
    rw [List.mem_cons, not_or] at hfresh
    rcases mem_restrictPort hp with hp | hname
    · exact h.declared p hp hfresh.2
    · exact absurd hname hfresh.1
  kept := by
    intro q hq hkeep
    obtain ⟨p, hp, hname⟩ := h.kept q hq hkeep
    have hmem : q.name ∈ (restrictPort port sources ports).map (·.name) := by
      rw [restrictPort_names, ← hname]
      exact List.mem_map_of_mem hp
    simpa using hmem

theorem checkRestricted_error {node : NodeSpec} {n : Narrowing}
    (before : List (Ident × List String)) {rest : List (Ident × List String)} {seen : List Ident}
    {ports : List PortSpec}
    (hall : n.restrictedSources = before ++ rest)
    (hseen : ∀ name ∈ seen, name ∈ before.map Prod.fst)
    (hgoing : Going node n seen ports) {e : NarrowingError}
    (h : checkRestricted n.droppedPorts seen ports rest = .error e) : Oversteps node n e := by
  induction rest generalizing before seen ports with
  | nil => cases h
  | cons r rest ih =>
    obtain ⟨port, sources⟩ := r
    have hmem : (port, sources) ∈ n.restrictedSources := by
      rw [hall]
      exact List.mem_append_right _ List.mem_cons_self
    have hport : port ∈ n.restrictedSources.map Prod.fst := List.mem_map_of_mem hmem
    unfold checkRestricted at h
    split at h
    · rename_i hrepeated
      cases h
      refine .repeatedRestriction ?_
      rw [hall, List.map_append, List.map_cons]
      exact count_two_of_mem (hseen port hrepeated)
    · rename_i hfresh
      split at h
      · rename_i hdropped
        cases h
        exact .restrictedAndDropped hport hdropped
      · rename_i hkeep
        split at h
        · rename_i hnone
          cases h
          refine .unknownRestricted hport ?_
          rintro q hq rfl
          obtain ⟨p, hp, hname⟩ := hgoing.kept q hq hkeep
          exact absurd hname (by simpa using List.find?_eq_none.mp hnone p hp)
        · rename_i effective hfound
          have hname : effective.name = port := by simpa using List.find?_some hfound
          split at h
          · rename_i hempty
            cases h
            rw [List.isEmpty_iff] at hempty
            rw [hempty] at hmem
            exact .emptySources hmem
          · split at h
            · rename_i x hwide
              cases h
              have hdeclared := hgoing.declared effective (List.mem_of_find?_eq_some hfound)
                (hname ▸ hfresh)
              rw [← hname] at hmem ⊢
              exact .widensScope hdeclared hmem (List.mem_of_find?_eq_some hwide)
                (by simpa using List.find?_some hwide)
            · refine ih (before ++ [(port, sources)]) (by simp [hall]) ?_
                (hgoing.restrict port sources) h
              intro name hname
              rcases List.mem_cons.mp hname with rfl | hname
              · simp
              · rw [List.map_append]
                exact List.mem_append_left _ (hseen name hname)

/-- For a contract that breaks no rule, the ports a narrowing leaves are the declared
ones it does not drop, in the contract's order and each narrowed, with every required
port among them. A refused narrowing oversteps as its error says. -/
theorem narrowing_narrows (node : NodeSpec) (hnode : node.checkContract = []) (n : Narrowing) :
    (∀ ports, n.check node = .ok ports →
      List.Forall₂ (Narrowed n) (node.evidencePorts.filter (·.name ∉ n.droppedPorts)) ports ∧
      ∀ q ∈ node.evidencePorts, q.required = true → ∃ p ∈ ports, p.name = q.name) ∧
    ∀ e, n.check node = .error e → Oversteps node n e := by
  have hrules := checkContract_eq_nil.mp hnode
  refine ⟨?_, ?_⟩
  · intro ports h
    have heffective : Resolver.effectivePorts node (some n) = .ok ports := by
      change (n.check node).mapError EvidenceError.narrowing = .ok ports
      rw [h]
      rfl
    obtain ⟨hports, hscope, hrequired⟩ := Resolver.effectivePorts_ok hrules.portNames heffective
    have hsome : ∀ r ∈ n.restrictedSources, r.2 ≠ [] := by
      unfold Narrowing.check at h
      obtain ⟨_, -, h⟩ := bind_ok h
      exact checkRestricted_sources h
    refine ⟨?_, ?_⟩
    · rw [hports, List.forall₂_map_right_iff]
      refine List.forall₂_same.mpr ?_
      intro q hq
      obtain ⟨hq, hkeep⟩ := List.mem_filter.mp hq
      exact restrict_narrowed (hrules.ports q hq).sources hsome
        (hscope q hq (by simpa [dropped] using hkeep))
    · intro q hq hreq
      refine ⟨restrict n.restrictedSources q, ?_, rfl⟩
      rw [hports]
      refine List.mem_map_of_mem (List.mem_filter.mpr ⟨hq, ?_⟩)
      exact decide_eq_true (hrequired q hq hreq)
  · intro e h
    unfold Narrowing.check at h
    cases hdropped : checkDropped node [] n.droppedPorts with
    | error e' =>
      rw [hdropped] at h
      cases h
      exact checkDropped_error [] rfl (fun _ hs => by cases hs) hdropped
    | ok u =>
      rw [hdropped] at h
      refine checkRestricted_error [] rfl (fun _ hs => by cases hs) ?_ h
      refine { declared := fun p hp _ => (List.mem_filter.mp hp).1, kept := ?_ }
      intro q hq hkeep
      exact ⟨q, List.mem_filter.mpr ⟨hq, by simpa using hkeep⟩, rfl⟩

/-- The second node with a mirror to take its candidate from, and an optional log. -/
def mirrored : PortSpec :=
  { Combined.codePort with allowedSourceScope := [repoSource, "mirror"] }

def buildLog : PortSpec :=
  { Combined.proofPort with
    name := ⟨"build_log", by decide +kernel⟩, kind := .logs, required := false
    allowedSourceScope := ["ci"] }

def mirroredCi : NodeSpec :=
  { Combined.csCi with evidencePorts := [mirrored, Combined.proofPort, buildLog] }

/-- A retry that drops the log and takes the candidate from the repository alone. -/
def repoOnly : Narrowing :=
  { repairHint := none, droppedPorts := [buildLog.name]
    restrictedSources := [(Combined.candidate, [repoSource])] }

theorem narrowing_narrows_ci : ∃ ports, repoOnly.check mirroredCi = .ok ports ∧
    ports.map (fun p => (p.name, p.allowedSourceScope)) =
      [(Combined.candidate, [repoSource]), (Combined.patchProof, ["node:cs_patch"])] ∧
    List.Forall₂ (Narrowed repoOnly)
      (mirroredCi.evidencePorts.filter (·.name ∉ repoOnly.droppedPorts)) ports ∧
    ∀ q ∈ mirroredCi.evidencePorts, q.required = true → ∃ p ∈ ports, p.name = q.name := by
  have hports : repoOnly.check mirroredCi = .ok [Combined.codePort, Combined.proofPort] := by
    decide +kernel
  have hnarrows := (narrowing_narrows mirroredCi (by decide +kernel) repoOnly).1 _ hports
  exact ⟨_, hports, rfl, hnarrows.1, hnarrows.2⟩

/-! ### What the log keeps of a narrowing -/

theorem decodeIdents_toJson (ports : List Ident) :
    decodeList (fun j => (decodeIdent j).toOption) (some (.arr (ports.map (·.toJson)))) =
      some ports := by
  induction ports with
  | nil => rfl
  | cons port rest ih =>
    simp only [decodeList, List.map_cons, List.mapM_cons, decodeIdent_toJson, Except.toOption]
      at ih ⊢
    rw [ih]
    rfl

theorem decodeStrings_str (sources : List String) :
    (sources.map Json.str).mapM decodeString = some sources := by
  induction sources with
  | nil => rfl
  | cons x rest ih =>
    rw [List.map_cons, List.mapM_cons, ih]
    rfl

theorem decodeRestrictions_toJson (restricted : List (Ident × List String)) :
    decodeList decodeRestriction (some (.arr (restricted.map (fun r =>
      .arr [r.1.toJson, .arr (r.2.map .str)])))) = some restricted := by
  induction restricted with
  | nil => rfl
  | cons r rest ih =>
    obtain ⟨port, sources⟩ := r
    have hhead : decodeRestriction (.arr [port.toJson, .arr (sources.map .str)]) =
        some (port, sources) := by
      simp only [decodeRestriction, decodeIdent_toJson, decodeStrings_str, Except.toOption]
    simp only [decodeList, List.map_cons, List.mapM_cons] at ih ⊢
    rw [hhead, ih]
    rfl

/-- A narrowing read back from the event that recorded it is the one recorded. -/
theorem ofJson_payload (n : Narrowing) : ofJson n.payload = some n := by
  have hhint : decodeHint (some (Json.ofOption (n.repairHint.map .str))) = some n.repairHint := by
    cases n.repairHint <;> rfl
  have hdropped := decodeIdents_toJson n.droppedPorts
  have hrestricted := decodeRestrictions_toJson n.restrictedSources
  have hfirst : ("dropped_ports" == "repair_hint") = false := by decide
  have hsecond : ("restricted_sources" == "repair_hint") = false := by decide
  have hthird : ("restricted_sources" == "dropped_ports") = false := by decide
  unfold payload ofJson
  simp only [List.all_cons, List.all_nil, decide_true, Bool.true_or, Bool.or_true, Bool.and_true,
    if_true, List.lookup_cons, beq_self_eq_true, hfirst, hsecond, hthird]
  rw [hhint, hdropped, hrestricted]

theorem pending_snoc (events : List StoredEvent) (e : StoredEvent) (id : NodeId) :
    pending (events ++ [e]) id = pendingStep id (pending events id) e := by
  simp [pending]

/-- An event of another kind, or of no node, changes no pending narrowing. -/
theorem pendingStep_quiet {id : NodeId} {before : Option Narrowing} {e : StoredEvent}
    (h : e.nodeId = none ∨ e.kind ≠ kinds.retryAllowed ∧ e.kind ≠ kinds.attemptDispatched) :
    pendingStep id before e = before := by
  unfold pendingStep
  split
  · rfl
  · rename_i hnode
    rcases h with hnone | ⟨hretry, hdispatch⟩
    · exact absurd (fun hsome => by rw [hnone] at hsome; cases hsome) hnode
    · rw [if_neg hretry, if_neg hdispatch]

end Narrowing

/-! ### What opens a node -/

/-- What last opened a node for an attempt: nothing since its last dispatch, a retry
with its narrowing, or a decision. -/
inductive Opening where
  | fresh
  | retried (n : Narrowing)
  | decided
deriving DecidableEq

def Opening.narrowing : Opening → Option Narrowing
  | .retried n => some n
  | _ => none

theorem Opening.narrowing_eq_some {x : Opening} {n : Narrowing} :
    x.narrowing = some n ↔ x = .retried n := by
  cases x <;> simp [Opening.narrowing]

abbrev Openings := RunId → NodeId → Opening

namespace Openings

def set (o : Openings) (run : RunId) (id : NodeId) (x : Opening) : Openings :=
  fun r i => if r = run ∧ i = id then x else o r i

@[simp] theorem set_self (o : Openings) (run : RunId) (id : NodeId) (x : Opening) :
    o.set run id x run id = x := if_pos ⟨rfl, rfl⟩

theorem set_other {o : Openings} {run r : RunId} {id i : NodeId} {x : Opening}
    (h : ¬ (r = run ∧ i = id)) : o.set run id x r i = o r i := if_neg h

def after (o : Openings) : (op : LedgerOp) → op.Result → Openings
  | .claimNext _ _ _, .ok (.claimed c) => o.set c.runId c.nodeId .fresh
  | .applyRetryPolicy _ run id n _, .ok (.retry _ _ _) => o.set run.runId id (.retried n)
  | .admitDecision run d, .ok () =>
    if d.decision.reopens then o.set run d.scope.node.nodeId .decided else o
  | .appendDecision run id _ decision _, .ok () =>
    if decision.reopens then o.set run id .decided else o
  | _, _ => o

/-- One operation on a store, with the openings told beside it. -/
def tell (rt : Runtime) (w : Store × Openings) (op : LedgerOp) : Store × Openings :=
  ((op.exec rt w.1).2, w.2.after op (op.exec rt w.1).1)

/-- The openings after the operations of a run. -/
def along (rt : Runtime) (ops : List LedgerOp) : Openings :=
  (ops.foldl (tell rt) (Store.empty, fun _ _ => .fresh)).2

end Openings

/-- The narrowing the log holds back for a node is that of its opening, and a node a
retry opened has stayed open since, or was cancelled. -/
structure Store.Opened (s : Store) (o : Openings) : Prop where
  pending : ∀ run id, Narrowing.pending (s.eventsOf run) id = (o run id).narrowing
  idle : ∀ run id n state, o run id = .retried n → s.nodeState run id = some state →
    state.status = .open ∨ state.status = .cancelled

section

variable {rt : Runtime} {s s' : Store} {o : Openings}

def NodeEvent.plain (e : NodeEvent) : Bool :=
  e.kind ≠ kinds.retryAllowed && e.kind ≠ kinds.attemptDispatched

/-- An open or cancelled node stays so but for a dispatch. -/
theorem NodeState.Step.stays {a b : NodeState} {e : NodeEvent} (h : Step a e b)
    (hplain : e.plain = true) (ha : a.status = .open ∨ a.status = .cancelled) :
    b.status = .open ∨ b.status = .cancelled := by
  cases h with
  | dispatch k hs hk => cases hplain
  | retry hs => cases hplain
  | finish k outcome d hs hk hc => simp [hs] at ha
  | decide k r v hs hk hc => simp [hs] at ha
  | gate p hs => rcases hs with hs | hs <;> simp [hs] at ha
  | packet p hs hw => simp [hs] at ha
  | route p d hs hw => simp [hs] at ha
  | cancelOpen hs => exact Or.inr rfl
  | cancelRunning hs => exact Or.inr rfl
  | cancelStopped hs => exact Or.inr rfl

theorem Store.pending_append {e : StoredEvent} (h : s'.events = s.events ++ [e]) (run : RunId)
    (id : NodeId) : Narrowing.pending (s'.eventsOf run) id = if e.runId = run
      then Narrowing.pendingStep id (Narrowing.pending (s.eventsOf run) id) e
      else Narrowing.pending (s.eventsOf run) id := by
  by_cases hrun : e.runId = run
  · subst hrun
    rw [if_pos rfl, Store.eventsOf_self h, Narrowing.pending_snoc]
  · rw [if_neg hrun, Store.eventsOf_other h hrun]

theorem LedgerStep.pending_unlabelled (h : LedgerStep rt s none s') (run : RunId) (id : NodeId) :
    Narrowing.pending (s'.eventsOf run) id = Narrowing.pending (s.eventsOf run) id := by
  have happ : ∀ {e : StoredEvent}, s'.events = s.events ++ [e] → e.nodeId = none →
      Narrowing.pending (s'.eventsOf run) id = Narrowing.pending (s.eventsOf run) id := by
    intro e happ hnode
    rw [Store.pending_append happ, Narrowing.pendingStep_quiet (Or.inl hnode), ite_self]
  cases h with
  | same => rfl
  | graph row fresh => rfl
  | run r fresh known => exact happ rfl rfl
  | revoke r payload known => exact happ rfl rfl

/-- A step without a retry or a dispatch keeps the openings as they are told. -/
theorem Store.Opened.plain (h : s.Opened o) (hs : s.Sound)
    {label : Option (RunId × NodeId × NodeEvent)} (hstep : LedgerStep rt s label s')
    (hplain : ∀ run id e, label = some (run, id, e) → e.plain = true) : s'.Opened o := by
  cases label with
  | none =>
    refine { pending := ?_, idle := ?_ }
    · intro run id
      rw [hstep.pending_unlabelled run id]
      exact h.pending run id
    · intro run id n state ho hstate
      rcases hstep.unmoved hs run id with heq | ⟨-, hfirst⟩
      · exact h.idle run id n state ho (heq ▸ hstate)
      · rw [hfirst] at hstate
        obtain rfl := Option.some.inj hstate
        exact Or.inl rfl
  | some l =>
    obtain ⟨r, i, e⟩ := l
    have he := hplain r i e rfl
    obtain ⟨record, spec, st, old₀, new₀, payload, hrec⟩ := hstep.recorded
    obtain ⟨old, new, hm⟩ := hstep.moved hs
    have hkind : e.kind ≠ kinds.retryAllowed ∧ e.kind ≠ kinds.attemptDispatched := by
      simpa [NodeEvent.plain] using he
    refine { pending := ?_, idle := ?_ }
    · intro run id
      rw [Store.pending_append hrec.events, Narrowing.pendingStep_quiet (Or.inr hkind), ite_self]
      exact h.pending run id
    · intro run id n state ho hstate
      by_cases hne : run = r ∧ id = i
      · obtain ⟨rfl, rfl⟩ := hne
        obtain rfl := Option.some.inj (hm.after.symm.trans hstate)
        exact hm.legal.stays he (h.idle run id n old ho hm.before)
      · rw [hm.others run id hne] at hstate
        exact h.idle run id n state ho hstate

/-- A step that records an event about a node may tell a new opening of that node. -/
theorem Store.Opened.retell (h : s.Opened o) (hs : s.Sound) {run : RunId} {id : NodeId}
    {e : NodeEvent} (hstep : LedgerStep rt s (some (run, id, e)) s') {x : Opening}
    (hpending : Narrowing.pending (s'.eventsOf run) id = x.narrowing)
    (hidle : ∀ n state, x = .retried n → s'.nodeState run id = some state →
      state.status = .open ∨ state.status = .cancelled) : s'.Opened (o.set run id x) := by
  obtain ⟨record, spec, st, old₀, new₀, payload, hrec⟩ := hstep.recorded
  obtain ⟨old, new, hm⟩ := hstep.moved hs
  refine { pending := ?_, idle := ?_ }
  · intro r i
    by_cases hne : r = run ∧ i = id
    · obtain ⟨rfl, rfl⟩ := hne
      rw [hpending, Openings.set_self]
    · rw [Openings.set_other hne, Store.pending_append hrec.events]
      split
      · rename_i hrun
        have hother : (s.nextEvent run (some id) e.kind payload).nodeId ≠ some i :=
          fun hid => hne ⟨hrun.symm, (Option.some.inj hid).symm⟩
        rw [Narrowing.pendingStep, if_pos hother]
        exact h.pending r i
      · exact h.pending r i
  · intro r i n state ho hstate
    by_cases hne : r = run ∧ i = id
    · obtain ⟨rfl, rfl⟩ := hne
      rw [Openings.set_self] at ho
      exact hidle n state ho hstate
    · rw [Openings.set_other hne] at ho
      rw [hm.others r i hne] at hstate
      exact h.idle r i n state ho hstate

theorem Store.Opened.dispatched (h : s.Opened o) (hs : s.Sound) {run : RunId} {id : NodeId}
    {k : AttemptNumber} (hstep : LedgerStep rt s (some (run, id, .dispatched k)) s') :
    s'.Opened (o.set run id .fresh) := by
  refine h.retell hs hstep ?_ (fun _ _ heq => by cases heq)
  obtain ⟨record, spec, st, old, new, payload, hrec⟩ := hstep.recorded
  rw [Store.pending_append hrec.events]
  simp [Store.nextEvent, Narrowing.pendingStep, NodeEvent.kind, Opening.narrowing,
    kinds.attemptDispatched, kinds.retryAllowed]

/-- A decision finds its node gated, so no retry opened it since its last dispatch. -/
theorem Store.Opened.decided (h : s.Opened o) (hs : s.Sound) {run : RunId} {id : NodeId}
    {packet : Ident} {decision : DecisionKind}
    (hstep : LedgerStep rt s (some (run, id, .decisionAdmitted packet decision)) s') :
    s'.Opened (o.set run id .decided) := by
  refine h.retell hs hstep ?_ (fun _ _ heq => by cases heq)
  obtain ⟨record, spec, st, old₀, new₀, payload, hrec⟩ := hstep.recorded
  obtain ⟨old, new, hm⟩ := hstep.moved hs
  have hkind : (NodeEvent.decisionAdmitted packet decision).kind ≠ kinds.retryAllowed ∧
      (NodeEvent.decisionAdmitted packet decision).kind ≠ kinds.attemptDispatched := by
    simp only [NodeEvent.kind]
    decide
  rw [Store.pending_append hrec.events, Narrowing.pendingStep_quiet (Or.inr hkind), ite_self,
    h.pending]
  have hgated : old.status = .gated := by
    cases hm.legal with
    | route p d hgated hw => exact hgated
  cases hopening : o run id with
  | fresh => rfl
  | decided => rfl
  | retried n =>
    rcases h.idle run id n old hopening hm.before with hs | hs <;>
      rw [hs] at hgated <;> cases hgated

/-- A permitted retry records the narrowing it was given. -/
theorem Budget.applyRetryPolicy_payload {spec : GraphSpec} {run : GraphRun} {id : NodeId}
    {n : Narrowing} {now : Timestamp} {cls : FailureClass} {started cap : Nat}
    (h : Budget.applyRetryPolicy rt s spec run id n now = .ok (.retry cls started cap, s')) :
    s'.events = s.events ++ [s.nextEvent run.runId (some id) kinds.retryAllowed n.payload] := by
  unfold Budget.applyRetryPolicy at h
  obtain ⟨node, hnode, h⟩ := bind_ok h
  obtain ⟨state, -, h⟩ := bind_ok h
  obtain ⟨decision, -, h⟩ := bind_ok h
  obtain ⟨written, hwritten, h⟩ := bind_ok h
  cases h
  unfold Budget.applyDisposition at hwritten
  obtain ⟨_, -, hwritten⟩ := bind_ok hwritten
  obtain ⟨_, -, hwritten⟩ := bind_ok hwritten
  obtain ⟨-, rfl⟩ := Store.appendEvent_ok rt (mapError_ok hwritten)
  rw [GraphSpec.findNode_id (someOr_ok hnode)]

theorem Store.Opened.retried (h : s.Opened o) (hs : s.Sound) {run : RunId} {id : NodeId}
    {n : Narrowing} (hstep : LedgerStep rt s (some (run, id, .retryAllowed)) s')
    (hevents : s'.events = s.events ++ [s.nextEvent run (some id) kinds.retryAllowed n.payload]) :
    s'.Opened (o.set run id (.retried n)) := by
  refine h.retell hs hstep ?_ ?_
  · rw [Store.pending_append hevents]
    simp [Store.nextEvent, Narrowing.pendingStep, Narrowing.ofJson_payload, Opening.narrowing]
  · intro n' state _ hstate
    obtain ⟨old, new, hm⟩ := hstep.moved hs
    obtain rfl := Option.some.inj (hm.after.symm.trans hstate)
    cases hm.legal
    exact Or.inl rfl

theorem exec_plain {op : LedgerOp} (legal : op.Legal s)
    (hretry : kinds.retryAllowed ∉ op.eventKinds)
    (hdispatch : kinds.attemptDispatched ∉ op.eventKinds)
    {run : RunId} {id : NodeId} {e : NodeEvent}
    (h : op.checked (op.exec rt s).1 = some (run, id, e)) : e.plain = true := by
  have hstep := exec_step rt s legal
  rw [h] at hstep
  obtain ⟨record, spec, st, old, new, payload, hrec⟩ := hstep.recorded
  have hkind : e.kind ∈ op.eventKinds := by
    rcases exec_logged rt s op with hsame | ⟨x, happ, hx⟩
    · exact absurd (hsame.symm.trans hrec.events) (by simp)
    · have hsame := hrec.events
      rw [happ, List.append_cancel_left_eq, List.singleton_inj] at hsame
      rw [hsame] at hx
      exact hx
  unfold NodeEvent.plain
  rw [Bool.and_eq_true, decide_eq_true_eq, decide_eq_true_eq]
  exact ⟨fun heq => hretry (heq ▸ hkind), fun heq => hdispatch (heq ▸ hkind)⟩

theorem Store.Opened.step (h : s.Opened o) (hs : s.Sound) {op : LedgerOp} (legal : op.Legal s) :
    (op.exec rt s).2.Opened (o.after op (op.exec rt s).1) := by
  have hstep := exec_step rt s legal
  cases op with
  | claimNext sched now claimedAt =>
    generalize LedgerOp.exec rt s (.claimNext sched now claimedAt) = out at hstep ⊢
    obtain ⟨r, s'⟩ := out
    cases r with
    | error e => exact h.plain hs hstep (fun _ _ _ heq => by cases heq)
    | ok outcome =>
      cases outcome with
      | claimed c => exact h.dispatched hs hstep
      | budgetExhausted | busy | nothingReady =>
        exact h.plain hs hstep (fun _ _ _ heq => by cases heq)
  | applyRetryPolicy spec run id n now =>
    cases hpolicy : Budget.applyRetryPolicy rt s spec run id n now with
    | error e =>
      simp only [LedgerOp.exec, hpolicy, Store.transaction] at hstep ⊢
      exact h
    | ok out =>
      obtain ⟨decision, s'⟩ := out
      simp only [LedgerOp.exec, hpolicy, Store.transaction] at hstep ⊢
      cases decision with
      | retry cls started cap =>
        exact h.retried hs hstep (Budget.applyRetryPolicy_payload hpolicy)
      | exhausted reason route =>
        cases route with
        | cancel =>
          refine h.plain hs hstep ?_
          rintro _ _ _ ⟨⟩
          rfl
        | gate => exact h.plain hs hstep (fun _ _ _ heq => by cases heq)
  | admitDecision run d =>
    generalize LedgerOp.exec rt s (.admitDecision run d) = out at hstep ⊢
    obtain ⟨r, s'⟩ := out
    cases r with
    | error e => exact h.plain hs hstep (fun _ _ _ heq => by cases heq)
    | ok u =>
      change s'.Opened (if d.decision.reopens then o.set run d.scope.node.nodeId .decided else o)
      split
      · exact h.decided hs hstep
      · refine h.plain hs hstep ?_
        rintro _ _ _ ⟨⟩
        rfl
  | appendDecision run id packet decision payload =>
    generalize LedgerOp.exec rt s (.appendDecision run id packet decision payload) = out at hstep ⊢
    obtain ⟨r, s'⟩ := out
    cases r with
    | error e => exact h.plain hs hstep (fun _ _ _ heq => by cases heq)
    | ok u =>
      change s'.Opened (if decision.reopens then o.set run id .decided else o)
      split
      · exact h.decided hs hstep
      · refine h.plain hs hstep ?_
        rintro _ _ _ ⟨⟩
        rfl
  | storeGraph | createRun | complete | cancel | reclaim | admitReceipt | openResolveWork
  | revokeReceipt =>
    refine h.plain hs hstep (fun _ _ _ heq => exec_plain legal ?_ ?_ heq) <;>
      simp only [LedgerOp.eventKinds] <;> decide

end

namespace Openings

theorem along_snoc (rt : Runtime) {ops : List LedgerOp} {s : Store}
    (hrun : (legalLedger rt).Run Store.empty ops s) :
    (ops.foldl (tell rt) (Store.empty, fun _ _ => .fresh)).1 = s := by
  induction hrun with
  | nil => rfl
  | snoc hrun h ih =>
    rw [List.foldl_append, List.foldl_cons, List.foldl_nil, h.2, ← ih]
    rfl

theorem along_opened (rt : Runtime) {ops : List LedgerOp} {s : Store}
    (hrun : (legalLedger rt).Run Store.empty ops s) : s.Opened (along rt ops) := by
  induction hrun with
  | nil =>
    refine { pending := fun _ _ => rfl, idle := ?_ }
    intro run id n state ho
    cases ho
  | @snoc t _ ops op hrun h ih =>
    have hsound := sound_invariant rt t (hrun.reachable (.init rfl))
    obtain ⟨legal, rfl⟩ := h
    have hnext := @Store.Opened.step rt t _ ih hsound op legal
    unfold along at hnext ⊢
    rw [List.foldl_append, List.foldl_cons, List.foldl_nil, tell, along_snoc rt hrun]
    exact hnext

end Openings

/-- In the store that any run of the ledger reaches, a claim has a narrowing exactly
when a retry with that narrowing opened its node since the node's last dispatch. -/
theorem narrowing_reaches_claim (rt : Runtime) {ops : List LedgerOp} {s s' : Store}
    (hrun : (legalLedger rt).Run Store.empty ops s) {sched : Scheduler} {now : Timestamp}
    {claimedAt : String} {claim : Claim}
    (h : sched.claimNext rt s now claimedAt = .ok (.claimed claim, s')) (n : Narrowing) :
    claim.narrowing = some n ↔ Openings.along rt ops claim.runId claim.nodeId = .retried n := by
  have hopened := Openings.along_opened rt hrun
  rcases Scheduler.claimNext_ok rt h with ⟨hnone, -⟩ |
    ⟨claim', node, st, state, next, snapshot, hout, hclaim⟩
  · exact absurd rfl (hnone claim)
  · cases hout
    rw [hclaim.claim_eq, ← Opening.narrowing_eq_some, ← hopened.pending]

theorem Store.play_run {rt : Runtime} {first : List LedgerOp} {s₀ s : Store}
    (hrun : (legalLedger rt).Run s₀ first s) {record : GraphRun} {spec : GraphSpec}
    (bound : s.Bound record spec) {ops : List LedgerOp} (hops : ∀ op ∈ ops, op.Of record spec) :
    (legalLedger rt).Run s₀ (first ++ ops) (s.play rt ops) := by
  induction ops generalizing first s with
  | nil => rwa [List.append_nil]
  | cons op rest ih =>
    have hlegal := (hops op List.mem_cons_self).legal bound
    have hnext := ih (.snoc hrun ⟨hlegal, rfl⟩) ⟨(exec_step rt s hlegal).stored bound.1, bound.2⟩
      (fun x hx => hops x (List.mem_cons_of_mem op hx))
    rwa [List.append_assoc] at hnext

namespace Pilot

def hint : Narrowing :=
  { repairHint := some "keep the tests", droppedPorts := [], restrictedSources := [] }

/-- The first attempt of the patch times out, and is retried with a hint. -/
def hintedOps : List LedgerOp :=
  [.claimNext patientScheduler now "2026-01-01T00:00:01Z",
    .complete patientScheduler (claimOf patch 1 []) timedOut,
    .applyRetryPolicy patientSpec run patchId hint now]

def hinted : Store := patientCreated.play runtime hintedOps

def claimIn : Except SchedulerError (ClaimOutcome × Store) → Option (Claim × Store)
  | .ok (.claimed claim, s) => some (claim, s)
  | _ => none

theorem claimIn_some {out : Except SchedulerError (ClaimOutcome × Store)} {c : Claim × Store}
    (h : claimIn out = some c) : out = .ok (.claimed c.1, c.2) := by
  unfold claimIn at h
  split at h
  · cases h
    rfl
  · cases h

theorem hinted_run : (legalLedger runtime).Run Store.empty
    ([.storeGraph patientSpec, .createRun run] ++ hintedOps) hinted := by
  have hstored : (legalLedger runtime).Run Store.empty ([] ++ [.storeGraph patientSpec])
      ((LedgerOp.storeGraph patientSpec).exec runtime Store.empty).2 :=
    .snoc (.nil _) ⟨trivial, rfl⟩
  have hcreated : (legalLedger runtime).Run Store.empty
      ([.storeGraph patientSpec] ++ [.createRun run]) patientCreated :=
    .snoc hstored ⟨trivial, rfl⟩
  exact Store.play_run hcreated patientCreated_bound
    (show ∀ op ∈ hintedOps, op.Of run patientSpec by decide +kernel)

end Pilot

open Pilot in
theorem narrowing_reaches_claim_hinted : ∃ claim s',
    patientScheduler.claimNext runtime hinted now "2026-01-01T00:00:03Z" =
      .ok (.claimed claim, s') ∧ claim.narrowing = some hint := by
  have hsome : (claimIn (patientScheduler.claimNext runtime hinted now
      "2026-01-01T00:00:03Z")).isSome = true := by decide +kernel
  obtain ⟨c, hc⟩ := Option.isSome_iff_exists.mp hsome
  have hopening : Openings.along runtime ([.storeGraph patientSpec, .createRun run] ++ hintedOps)
      c.1.runId c.1.nodeId = .retried hint := by
    have hkey : ∀ d ∈ claimIn (patientScheduler.claimNext runtime hinted now
        "2026-01-01T00:00:03Z"), d.1.runId = runId ∧ d.1.nodeId = patchId := by decide +kernel
    rw [(hkey c hc).1, (hkey c hc).2]
    decide +kernel
  exact ⟨c.1, c.2, claimIn_some hc,
    (narrowing_reaches_claim runtime hinted_run (claimIn_some hc) hint).mpr hopening⟩

end Checkspan
