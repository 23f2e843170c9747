import Checkspan.Contracts.Record
import Checkspan.Sealing
import Checkspan.Packets
import Checkspan.Sessions

/-!
# Stored records read back

A row keeps the text `serde_json::to_string` made of its record, and every read parses that
text with `parse_record`. A record under its own header comes back as it was, whatever its
optional fields hold, so the typed rows of the ledger stand for the texts.
-/

namespace Checkspan

open Transition
open Json (Same)

/-! ### Rows as texts (`store/mod.rs:464-568`, `:779-834`) -/

section

variable (rt : Runtime) (parse : String → Option Json)

/-- `serde_json::from_str` finds the document that was written. -/
def ReadsBack (j : Json) : Prop := ∃ value, parse (rt.text j) = some value ∧ j.Same value

/-- The record a row's text holds. -/
def readText {α : Type} [Record α] (record : α) : Except ContractError α :=
  parseRecord parse (rt.text (Record.toJson record))

def readFound {α : Type} [Record α] : Option α → Except ContractError (Option α)
  | none => .ok none
  | some record => (readText rt parse record).map some

namespace Store

variable (s : Store)

def loadGraphText (ref : GraphRef) : Except ContractError (Option GraphSpec) :=
  readFound rt parse ((s.graphs.find? (fun g => g.spec.graphRef = ref)).map (·.spec))

def runText (id : RunId) : Except ContractError (Option GraphRun) :=
  readFound rt parse (s.runs.find? (fun r => r.runId = id))

def attemptText (run : RunId) (node : NodeId) (number : Nat) :
    Except ContractError (Option Attempt) :=
  readFound rt parse
    (s.attempts.find? (fun a => a.runId = run ∧ a.node.nodeId = node ∧ a.number.get = number))

def receiptText (run : RunId) (receiptId : String) :
    Except ContractError (Option VerifierReceipt) :=
  readFound rt parse (s.receipts.find? (fun r => r.attempt.runId = run ∧ r.id.text = receiptId))

def gatePacketsText (run : RunId) : Except ContractError (List GatePacket) :=
  (s.gatePackets.filter (fun p => p.runId = run)).mapM (readText rt parse)

end Store

end

/-! ### A text is its record -/

section

variable {rt : Runtime} {parse : String → Option Json} {α : Type} [Record α] {a : α}

theorem readText_own (ha : (Record.header a).isFor (Record.kind α) = true)
    (hj : ReadsBack rt parse (Record.toJson a)) : readText rt parse a = .ok a := by
  obtain ⟨value, hvalue, hsame⟩ := hj
  rw [readText, parseRecord, hvalue]
  exact parseRecordValue_own ha hsame

theorem readFound_own (ha : (Record.header a).isFor (Record.kind α) = true)
    (hj : ReadsBack rt parse (Record.toJson a)) : readFound rt parse (some a) = .ok (some a) := by
  rw [readFound, readText_own ha hj]
  rfl

theorem mapM_ok {ε β : Type} {f : β → Except ε β} {xs : List β} (h : ∀ x ∈ xs, f x = .ok x) :
    xs.mapM f = .ok xs := by
  induction xs with
  | nil => rfl
  | cons x xs ih =>
    rw [List.mapM_cons, h x List.mem_cons_self, ih (fun y hy => h y (List.mem_cons_of_mem x hy))]
    rfl

end

/-- A graph revision is stored once. -/
theorem graphRefs_invariant (rt : Runtime) :
    (legalLedger rt).Invariant (fun s => (s.graphs.map (·.spec.graphRef)).Nodup) := by
  refine System.Invariant.step System.invariant_true ?_ ?_
  · rintro s rfl
    exact List.nodup_nil
  · rintro s op s' - hs ⟨-, rfl⟩
    rcases @exec_graphs rt s op with heq | ⟨spec, digest, -, hnone, -, -, heq⟩
    · rw [heq]
      exact hs
    · rw [heq, List.map_append]
      have hfresh : ∀ row ∈ s.graphs, row.spec.graphRef ≠ spec.graphRef := by
        rw [Store.specOf, Option.map_eq_none_iff, List.find?_eq_none] at hnone
        intro row hrow href
        exact hnone row hrow (decide_eq_true href)
      simpa [List.nodup_append] using ⟨hs, hfresh⟩

/-- What the reads of a store give back, for the rows whose text reads back. -/
structure Store.ReadsStored (rt : Runtime) (parse : String → Option Json) (s : Store) : Prop where
  graph : ∀ row ∈ s.graphs, row.spec.isFor .graphSpec = true →
    ReadsBack rt parse row.spec.toJson →
      s.loadGraphText rt parse row.spec.graphRef = .ok (some row.spec) ∧
        graphSpecDigest rt row.spec = .ok row.digest
  run : ∀ r ∈ s.runs, r.isFor .graphRun = true → ReadsBack rt parse r.toJson →
    s.runText rt parse r.runId = .ok (some r)
  attempt : ∀ a ∈ s.attempts, a.isFor .attempt = true → ReadsBack rt parse a.toJson →
    s.attemptText rt parse a.runId a.node.nodeId a.number.get = .ok (some a)
  receipt : ∀ r ∈ s.receipts, r.isFor .verifierReceipt = true → ReadsBack rt parse r.toJson →
    s.receiptText rt parse r.attempt.runId r.id.text = .ok (some r)
  gatePackets : ∀ run, (∀ p ∈ s.gatePackets, p.runId = run →
      p.isFor .gatePacket = true ∧ ReadsBack rt parse p.toJson) →
    s.gatePacketsText rt parse run = .ok (s.gatePackets.filter (fun p => p.runId = run))

section

variable {rt : Runtime} {parse : String → Option Json} {s : Store}

theorem Store.loadGraphText_own (hs : (legalLedger rt).Reachable s) {row : GraphRow}
    (hrow : row ∈ s.graphs) (hown : row.spec.isFor .graphSpec = true)
    (hj : ReadsBack rt parse row.spec.toJson) :
    s.loadGraphText rt parse row.spec.graphRef = .ok (some row.spec) := by
  have hfind : s.graphs.find? (fun g => g.spec.graphRef = row.spec.graphRef) = some row := by
    refine find?_of_unique hrow (decide_eq_true rfl) ?_
    intro other hother hsame
    exact List.inj_on_of_nodup_map (graphRefs_invariant rt s hs) hother hrow
      (of_decide_eq_true hsame)
  rw [Store.loadGraphText, hfind]
  exact readFound_own hown hj

theorem Store.runText_own (hs : (legalLedger rt).Reachable s) {r : GraphRun} (hr : r ∈ s.runs)
    (hown : r.isFor .graphRun = true) (hj : ReadsBack rt parse r.toJson) :
    s.runText rt parse r.runId = .ok (some r) := by
  have hfind : s.runs.find? (fun other => other.runId = r.runId) = some r := by
    refine find?_of_unique hr (decide_eq_true rfl) ?_
    intro other hother hsame
    exact (sound_invariant rt s hs).run_unique hother hr (of_decide_eq_true hsame)
  rw [Store.runText, hfind]
  exact readFound_own hown hj

theorem Store.attemptText_own (hs : (legalLedger rt).Reachable s) {a : Attempt}
    (ha : a ∈ s.attempts) (hown : a.isFor .attempt = true) (hj : ReadsBack rt parse a.toJson) :
    s.attemptText rt parse a.runId a.node.nodeId a.number.get = .ok (some a) := by
  rw [Store.attemptText, (claimsOk_invariant rt s hs).find_attempt ha rfl]
  exact readFound_own hown hj

theorem Store.receiptText_own (hs : (legalLedger rt).Reachable s) {r : VerifierReceipt}
    (hr : r ∈ s.receipts) (hown : r.isFor .verifierReceipt = true)
    (hj : ReadsBack rt parse r.toJson) :
    s.receiptText rt parse r.attempt.runId r.id.text = .ok (some r) := by
  have hfind : s.receipts.find? (fun other =>
      other.attempt.runId = r.attempt.runId ∧ other.id.text = r.id.text) = some r := by
    refine find?_of_unique hr (by simp) ?_
    intro other hother hsame
    obtain ⟨hrun, hid⟩ := of_decide_eq_true hsame
    exact (receiptsInOrder_invariant rt s hs).id_unique hother hr hrun (Identifier.ext_text hid)
  rw [Store.receiptText, hfind]
  exact readFound_own hown hj

theorem Store.gatePacketsText_own {run : RunId} (h : ∀ p ∈ s.gatePackets, p.runId = run →
      p.isFor .gatePacket = true ∧ ReadsBack rt parse p.toJson) :
    s.gatePacketsText rt parse run = .ok (s.gatePackets.filter (fun p => p.runId = run)) := by
  refine mapM_ok ?_
  intro p hp
  obtain ⟨hmem, hrun⟩ := List.mem_filter.mp hp
  obtain ⟨hown, hj⟩ := h p hmem (of_decide_eq_true hrun)
  exact readText_own hown hj

end

/-- Every value of the nine record types under its own header is parsed back from the text it
was written to, the digest of a graph read back is the one stored with it, and the reads of a
reachable ledger return the rows as they were stored. -/
theorem records_read_back (rt : Runtime) (parse : String → Option Json) :
    (∀ (kind : RecordKind) (v : kind.Type), (Record.header v).isFor kind = true →
      ReadsBack rt parse (Record.toJson v) →
        parseRecord parse (rt.text (Record.toJson v)) = .ok v) ∧
      (∀ g : GraphSpec, g.isFor .graphSpec = true → ReadsBack rt parse g.toJson →
        ∃ reread : GraphSpec, parseRecord parse (rt.text g.toJson) = .ok reread ∧
          graphSpecDigest rt reread = graphSpecDigest rt g) ∧
      ∀ s, (legalLedger rt).Reachable s → s.ReadsStored rt parse := by
  refine ⟨?_, ?_, ?_⟩
  · intro kind v hown hj
    have hkind : Record.kind kind.Type = kind := by cases kind <;> rfl
    exact readText_own (hkind.symm ▸ hown) hj
  · intro g hown hj
    exact ⟨g, readText_own hown hj, rfl⟩
  · intro s hs
    exact {
      graph := fun row hrow hown hj =>
        ⟨Store.loadGraphText_own hs hrow hown hj, (graphRows_invariant rt s hs row hrow).1⟩
      run := fun r hr hown hj => Store.runText_own hs hr hown hj
      attempt := fun a ha hown hj => Store.attemptText_own hs ha hown hj
      receipt := fun r hr hown hj => Store.receiptText_own hs hr hown hj
      gatePackets := fun run h => Store.gatePacketsText_own h }

/-! ### The pilot's run as text -/

namespace Pilot

mutual

/-- The compact text of a tree whose strings have nothing to escape. -/
def render : Json → String
  | .null => "null"
  | .bool b => if b then "true" else "false"
  | .num n => toString n
  | .float literal => literal
  | .str s => "\"" ++ s ++ "\""
  | .arr items => "[" ++ joinText "," (renderItems items) ++ "]"
  | .obj fields => "\x7b" ++ joinText "," (renderFields fields) ++ "\x7d"

def renderItems : List Json → List String
  | [] => []
  | item :: rest => render item :: renderItems rest

def renderFields : List (String × Json) → List String
  | [] => []
  | (k, v) :: rest => ("\"" ++ k ++ "\":" ++ render v) :: renderFields rest

end

def rendering : Runtime := { runtime with text := render }

/-- The document of the run, its entries sorted by name. -/
def runDocument : Json :=
  .obj [("graph_ref", run.graphRef.toJson), ("record", .str "graph_run"),
    ("run_id", runId.toJson), ("schema_version", .num 1)]

def parseRun (text : String) : Option Json :=
  if text = render run.toJson then some runDocument else none

def recorded : Store :=
  ((LedgerOp.createRun run).exec rendering
    ((LedgerOp.storeGraph spec).exec rendering Store.empty).2).2

theorem recorded_reachable : (legalLedger rendering).Reachable recorded :=
  .step (a := .createRun run) (.step (a := .storeGraph spec) (.init rfl) ⟨trivial, rfl⟩)
    ⟨trivial, rfl⟩

theorem run_readsBack : ReadsBack rendering parseRun run.toJson := by
  refine ⟨runDocument, if_pos rfl, .obj ?_⟩
  intro name
  by_cases hrecord : name = "record"
  · subst hrecord
    exact .some (.refl _)
  by_cases hversion : name = "schema_version"
  · subst hversion
    exact .some (.refl _)
  by_cases hrun : name = "run_id"
  · subst hrun
    exact .some (.refl _)
  by_cases hgraph : name = "graph_ref"
  · subst hgraph
    exact .some (.refl _)
  simp [RecordHeader.fields, run, Json.listField, hrecord, hversion, hrun, hgraph]

/-- A rejection with a reason code, an empty reason, and no retry hint. -/
def explained : VerifierReceipt :=
  { rejection with reasonCode := some ident, reasonText := some "", retryHint := none }

/-- A parser that knows one document. -/
def parseOnly (document : Json) (text : String) : Option Json :=
  if text = render document then some document else none

end Pilot

open Pilot in
theorem records_read_back_run :
    parseRecord parseRun (rendering.text run.toJson) = .ok run ∧
      recorded.runText rendering parseRun runId = .ok (some run) ∧
      parseRecord (parseOnly explained.toJson) (rendering.text explained.toJson) =
        .ok explained := by
  obtain ⟨hparse, -, hstore⟩ := records_read_back rendering parseRun
  have hexplained := records_read_back rendering (parseOnly explained.toJson)
  exact ⟨hparse .graphRun run (by decide) run_readsBack,
    (hstore recorded recorded_reachable).run run (by decide +kernel) (by decide) run_readsBack,
    hexplained.1 .verifierReceipt explained (by decide) ⟨_, if_pos rfl, .refl _⟩⟩

end Checkspan
