import Checkspan.Admission
import Checkspan.Refinement

/-!
# Waiting through gates

A consumer waits for its producers and a human gate for the nodes it resolves. One
gate never closes a cycle of an admitted graph; two or more can.
-/

namespace Checkspan

namespace Graph

open Walks Relation

/-- The node `a` depends on `b`, or is a gate that resolves `b`. -/
def Waits (spec : GraphSpec) (a b : NodeId) : Prop := DependsOn spec a b ∨ Resolves spec a b

/-- The gate `a` resolves a node that is `b` or transitively depends on it. -/
def GateWaits (spec : GraphSpec) : NodeId → NodeId → Prop :=
  Detour (Resolves spec) (DependsOn spec)

/-- Two different gates that wait for each other, through any number of gates. -/
def GateRing (spec : GraphSpec) (a b : NodeId) : Prop :=
  a ≠ b ∧ TransGen (GateWaits spec) a b ∧ TransGen (GateWaits spec) b a

/-- No gate of an admissible graph waits for itself without another one. -/
theorem Admissible.not_gateWaits_self {spec : GraphSpec} (h : Admissible spec) (a : NodeId) :
    ¬ GateWaits spec a a := by
  intro ⟨t, hres, hpath⟩
  have hjoined : Joined spec a t := by
    rcases reflTransGen_iff_eq_or_transGen.mp hpath with heq | htrans
    · exact Or.inl heq
    · exact Or.inr (Or.inr htrans)
  exact h.apart a t hres hjoined

theorem Admissible.gateWaits_acyclic {spec : GraphSpec} (h : Admissible spec) :
    Acyclic (GateWaits spec) ↔ ∀ a b, ¬ GateRing spec a b := by
  constructor
  · intro hacyc a b ⟨_, hab, hba⟩
    exact hacyc a (hab.trans hba)
  · intro hring a ha
    obtain ⟨b, hab, hba⟩ := TransGen.head'_iff.mp ha
    have hne : a ≠ b := fun heq => h.not_gateWaits_self a (heq ▸ hab)
    have hback : TransGen (GateWaits spec) b a :=
      (reflTransGen_iff_eq_or_transGen.mp hba).resolve_left hne
    exact hring a b ⟨hne, TransGen.single hab, hback⟩

/-- In an admitted graph nothing waits for itself exactly when no two different gates
wait for each other. -/
theorem waits_acyclic_iff {spec : GraphSpec} {g : AdmittedGraph} (h : admitGraph spec = .ok g) :
    Acyclic (Waits spec) ↔ ∀ a b, ¬ GateRing spec a b := by
  have hadm := admitGraph_admissible h
  have hunion : Acyclic (Waits spec) ↔ Acyclic (GateWaits spec) := acyclic_union_iff hadm.acyclic
  rw [hunion, hadm.gateWaits_acyclic]

end Graph

namespace Pilot

/-! ### Two gates -/

def gateA : NodeId := ⟨"gate-a", by decide +kernel⟩
def gateB : NodeId := ⟨"gate-b", by decide +kernel⟩
def taskA : NodeId := ⟨"task-a", by decide +kernel⟩
def taskB : NodeId := ⟨"task-b", by decide +kernel⟩

def gateFor (id : NodeId) (source : String) : NodeSpec :=
  { node id .humanGate [] with
    evidencePorts := [{ name := ident, kind := .human, expectedType := resultType, required := true
                        allowedSourceScope := [source], handlingPolicyRef := policy }] }

def dependencyOn (id : NodeId) : Dependency :=
  { node := ⟨graphId, id, one⟩, outputPort := resultPort, expectedType := resultType }

/-- Each gate resolves its task; the first task depends on the second gate, the second
task on the gates in `ids`. -/
def twoGates (ids : List NodeId) : GraphSpec :=
  { spec with
    nodes := [gateFor gateA "node:task-a", node taskA .task [dependencyOn gateB],
      gateFor gateB "node:task-b", node taskB .task (ids.map dependencyOn)]
    targets := [⟨graphId, taskA, one⟩, ⟨graphId, taskB, one⟩] }

/-- The ring: each task waits for the other task's gate. -/
def ring : GraphSpec := twoGates [gateA]

theorem resolves_twoGates (ids : List NodeId) :
    Graph.Resolves (twoGates ids) gateA taskA ∧ Graph.Resolves (twoGates ids) gateB taskB :=
  ⟨⟨gateFor gateA "node:task-a", by simp [twoGates], rfl, rfl, _, List.mem_cons_self .., rfl,
      by decide +kernel⟩,
    ⟨gateFor gateB "node:task-b", by simp [twoGates], rfl, rfl, _, List.mem_cons_self .., rfl,
      by decide +kernel⟩⟩

end Pilot

namespace Graph

open Walks Relation

open Pilot in
theorem waits_acyclic_iff_twoGates :
    (∃ g, admitGraph (twoGates []) = .ok g) ∧
      (Acyclic (Waits (twoGates [])) ↔ ∀ a b, ¬ GateRing (twoGates []) a b) := by
  obtain ⟨g, hg⟩ : ∃ g, admitGraph (twoGates []) = .ok g := ⟨_, get_eq (by decide +kernel)⟩
  exact ⟨⟨g, hg⟩, waits_acyclic_iff hg⟩

open Pilot in
/-- Admission accepts the ring of two gates, in which the first gate waits for itself. -/
theorem ring_waits : (∃ g, admitGraph ring = .ok g) ∧ ¬ Acyclic (Waits ring) := by
  refine ⟨⟨_, get_eq (by decide +kernel)⟩, ?_⟩
  intro hacyc
  obtain ⟨hresA, hresB⟩ := resolves_twoGates [gateA]
  have hdepA : DependsOn ring taskA gateB :=
    ⟨node taskA .task [dependencyOn gateB], by simp [ring, twoGates], rfl, _,
      List.mem_cons_self .., rfl⟩
  have hdepB : DependsOn ring taskB gateA :=
    ⟨node taskB .task [dependencyOn gateA], by simp [ring, twoGates], rfl, _,
      List.mem_cons_self .., rfl⟩
  have hcycle : TransGen (Waits ring) gateA gateA :=
    TransGen.head (Or.inr hresA) (TransGen.head (Or.inl hdepA)
      (TransGen.head (Or.inr hresB) (TransGen.single (Or.inl hdepB))))
  exact hacyc gateA hcycle

end Graph

end Checkspan
