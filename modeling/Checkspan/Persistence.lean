import Mathlib.Algebra.Ring.Int.Defs
import Checkspan.Records
import Checkspan.Statements

/-!
# The typed ledger and its file

Every row of the ledger is a row of the file, and a statement on the file answers, and leaves
the tables, as its operation on the ledger does.
-/

namespace Checkspan

open Relational

/-! ### Rows as columns -/

section

variable (rt : Runtime)

def GraphRow.columns (g : GraphRow) : GraphsRow :=
  ⟨g.spec.graphRef.graphId.text, g.spec.graphRef.revision.get, g.digest.text,
    rt.text g.spec.toJson⟩

def GraphRun.columns (r : GraphRun) : RunsRow :=
  ⟨r.runId.text, r.graphRef.graphId.text, r.graphRef.revision.get,
    r.budgetLineageRef.map (·.text), rt.text r.toJson⟩

def StoredEvent.columns (e : StoredEvent) : EventsRow :=
  ⟨e.seq, e.runId.text, e.nodeId.map (·.text), e.kind, rt.text e.payload⟩

def Attempt.columns (a : Attempt) : AttemptsRow :=
  ⟨a.runId.text, a.node.nodeId.text, a.number.get, rt.text a.toJson⟩

def VerifierReceipt.columns (r : VerifierReceipt) : ReceiptsRow :=
  ⟨r.attempt.runId.text, r.id.text, r.attempt.node.nodeId.text, r.attempt.number.get,
    r.verdict.asStr, rt.text r.toJson⟩

def GatePacket.columns (p : GatePacket) : GatePacketsRow :=
  ⟨p.runId.text, p.id.text, p.node.nodeId.text, rt.text p.toJson⟩

def GateDecision.columns (run : RunId) (g : GateDecision) : GateDecisionsRow :=
  ⟨run.text, g.gatePacketId.text, g.decision.asStr, rt.text g.toJson⟩

def ClaimRow.columns (c : ClaimRow) : ClaimsRow :=
  { runId := c.runId.text, nodeId := c.nodeId.text, number := c.number.get, owner := c.owner
    fence := c.fence
    dependencyJson := rt.text (ReceiptRef.codec.list.write c.dependencyReceipts)
    resourcesJson := rt.text (ResourceClaim.codec.list.write c.resources)
    active := if c.active then 1 else 0, release := c.release, claimedAt := c.claimedAt }

/-- Sizes go in as `i64::try_from(size).unwrap_or(i64::MAX)`. -/
def ArtifactRef.columns (run : RunId) (a : ArtifactRef) : ArtifactsRow :=
  ⟨run.text, a.digest, a.kind, a.locator, (min a.sizeBytes.toNat Database.maxI64 : Nat)⟩

/-- The file of a ledger. -/
def Store.file (s : Store) : Database where
  graphs := s.graphs.map (·.columns rt)
  runs := s.runs.map (·.columns rt)
  events := s.events.map (·.columns rt)
  attempts := s.attempts.map (·.columns rt)
  receipts := s.receipts.map (·.columns rt)
  gatePackets := s.gatePackets.map (·.columns rt)
  gateDecisions := s.gateDecisions.map (fun g => g.2.columns rt g.1)
  claims := s.claims.map (·.columns rt)
  artifacts := s.artifacts.map (fun a => a.2.columns a.1)
  sequence := s.events.length

/-- The file's error for an error of the ledger. -/
def DbError.ofStore : StoreError → DbError
  | .revisionConflict g stored offered => .revisionConflict g stored.text offered.text
  | e => .store e

/-- A result on the file. -/
def onFile {α β : Type} (f : α → β) : Except StoreError α → Except DbError β
  | .ok a => .ok (f a)
  | .error e => .error (.ofStore e)

end

theorem onFile_bind {α β γ : Type} {f : α → γ} {x : Except StoreError β}
    {k : β → Except StoreError α} {y : Except DbError β} {k' : β → Except DbError γ}
    (hx : y = onFile id x) (hk : ∀ b, x = .ok b → k' b = onFile f (k b)) :
    (y >>= k') = onFile f (x >>= k) := by
  subst hx
  cases x with
  | ok b => exact hk b rfl
  | error e => rfl

namespace Store

variable {rt : Runtime} {sq : Sqlite} {s : Store}

/-! ### Keys -/

theorem file_hasRun (run : RunId) : (s.file rt).hasRun run.text = s.hasRun run := by
  simp [Database.hasRun, hasRun, file, List.any_map, Function.comp_def, GraphRun.columns,
    Identifier.ext_text_iff]

theorem graphRef_iff {a b : GraphRef} : a = b ↔
    a.graphId.text = b.graphId.text ∧ (a.revision.get : Int) = b.revision.get := by
  cases a
  cases b
  simp [Identifier.ext_text_iff, PositiveU32.ext_get_iff]

theorem file_hasGraph (ref : GraphRef) : (s.file rt).graphs.any (fun g =>
      g.graphId = ref.graphId.text && g.revision = (ref.revision.get : Int)) =
    s.graphs.any (fun g => g.spec.graphRef = ref) := by
  simp [file, List.any_map, Function.comp_def, GraphRow.columns, graphRef_iff]

theorem file_hasAttempt (run : RunId) (node : NodeId) (number : AttemptNumber) :
    (s.file rt).hasAttempt run.text node.text number.get =
      s.attempts.any (fun a => a.runId = run ∧ a.node.nodeId = node ∧ a.number = number) := by
  simp [Database.hasAttempt, file, List.any_map, Function.comp_def, Attempt.columns,
    Identifier.ext_text_iff, PositiveU32.ext_get_iff, Bool.and_assoc]

theorem file_hasGatePacket (run : RunId) (packet : Ident) :
    (s.file rt).hasGatePacket run.text packet.text =
      s.gatePackets.any (fun p => p.runId = run ∧ p.id = packet) := by
  simp [Database.hasGatePacket, file, List.any_map, Function.comp_def, GatePacket.columns,
    Identifier.ext_text_iff]

theorem file_hasReceipt (run : RunId) (receiptId : String) :
    (s.file rt).receipts.any (fun r => r.runId = run.text && r.receiptId = receiptId) =
      s.receipts.any (fun r => r.attempt.runId = run ∧ r.id.text = receiptId) := by
  simp [file, List.any_map, Function.comp_def, VerifierReceipt.columns, Identifier.ext_text_iff]

theorem file_lenChecked (what : String) (j : Json) :
    Database.lenChecked what (rt.text j) = onFile id (jsonLenChecked rt what j) := by
  unfold Database.lenChecked jsonLenChecked
  dsimp only
  split <;> rfl

end Store

namespace Database

variable {t : Table Database α} {d : Database} {row : α} {e : StoreError}

/-- An insert is refused for a trigger, a taken key or a missing reference. -/
theorem constrained_insert {d' : Database} {aborts taken known : Bool}
    (haborts : t.beforeInsert d row = aborts) (hcheck : t.check row = true)
    (htaken : (t.rows d).any (t.clash row) = taken) (hknown : t.refers d row = known)
    (hput : t.put (t.rows d ++ [row]) d = d') : constrained e (t.insert row d) =
      if known && !aborts && !taken then .ok d' else .error (.store e) := by
  subst haborts htaken hknown hput
  split
  · rename_i hfits
    simp only [Bool.and_eq_true, Bool.not_eq_true'] at hfits
    obtain ⟨⟨hrefers, htrigger⟩, hkey⟩ := hfits
    rw [Table.insert_fits htrigger hcheck (by simpa using hkey) hrefers]
    rfl
  · rename_i hfits
    obtain ⟨v, hv⟩ := @Table.insert_refused _ _ t d row (by
      rintro ⟨htrigger, -, hkey, hrefers⟩
      refine hfits ?_
      rw [htrigger, hrefers, List.any_eq_false.mpr (by simpa using hkey)]
      rfl)
    rw [hv]
    rfl

end Database

/-! ### Writes -/

/-- A duplicate of a known thing, on either side. -/
theorem onFile_keyed {rt : Runtime} {known taken : Bool} {s' : Store} {duplicate missing : String} :
    (if known && !false && !taken then .ok (s'.file rt) else .error (.store
      (if known then .duplicate duplicate else .missingReference missing)) :
        Except DbError Database) =
      onFile (Store.file rt) (if known then (do
        guardOk (!taken) (.duplicate duplicate)
        .ok s') else .error (.missingReference missing)) := by
  cases known <;> cases taken <;> rfl

theorem onFile_guarded {rt : Runtime} {known taken : Bool} {s' : Store} {e : String} :
    (if known && !false && !taken then .ok (s'.file rt) else .error (.store (.duplicate e)) :
      Except DbError Database) = onFile (Store.file rt) (do
        guardOk (known && !taken) (.duplicate e)
        .ok s') := by
  cases known <;> cases taken <;> rfl

/-- The id of a receipt is text in every event about one, and `json_extract` finds it. -/
def Sqlite.Names (sq : Sqlite) (rt : Runtime) (payload : Json) : Prop :=
  ∃ id, payload.get "receipt_id" = some (.str id) ∧ sq.receiptId (rt.text payload) = .text id

def Sqlite.Takes (sq : Sqlite) (rt : Runtime) (kind : String) (payload : Json) : Prop :=
  kind = kinds.receiptAdmitted ∨ kind = kinds.receiptRevoked → sq.Names rt payload

namespace Store

variable {rt : Runtime} {sq : Sqlite} {s : Store}

theorem file_trigger {run : RunId} {node : Option NodeId} {kind : String} {payload : Json}
    (h : sq.Takes rt kind payload) :
    (Database.eventsTable sq).beforeInsert (s.file rt)
        ((s.nextEvent run node kind payload).columns rt) =
      !(kind != kinds.receiptAdmitted || s.receiptRowExists run payload) := by
  by_cases hkind : kind = kinds.receiptAdmitted
  · obtain ⟨id, hget, hextract⟩ := h (Or.inl hkind)
    have hrow := @file_hasReceipt rt s run id
    subst hkind
    simp only [receiptRowExists, hget, ← hrow]
    simp [Database.eventsTable, StoredEvent.columns, nextEvent, hextract, SqlValue.equals,
      kinds.receiptAdmitted, eq_comm]
  · have hkind' : kind ≠ "receipt_admitted" := hkind
    simp [Database.eventsTable, StoredEvent.columns, nextEvent, hkind, hkind']

theorem file_event {run : RunId} {node : Option NodeId} {kind : String} {payload : Json} :
    (s.nextEvent run node kind payload).columns rt = ⟨(s.file rt).sequence + 1, run.text,
      node.map (·.text), kind, rt.text payload⟩ := rfl

theorem file_events (e : StoredEvent) :
    let d := (Database.eventsTable sq).put
      ((Database.eventsTable sq).rows (s.file rt) ++ [e.columns rt]) (s.file rt)
    { d with sequence := d.sequence + 1 } = file rt { s with events := s.events ++ [e] } := by
  simp [file, Database.eventsTable]

theorem file_appendEvent (hs : (s.file rt).Sound sq) {run : RunId} {node : Option NodeId}
    {kind : String} {payload : Json} (h : sq.Takes rt kind payload) :
    (s.file rt).appendEvent sq rt run node kind payload =
      onFile (file rt) (s.appendEvent rt run node kind payload) := by
  unfold Database.appendEvent appendEvent
  refine onFile_bind (file_lenChecked _ _) ?_
  intro u _
  have hfree : ((Database.eventsTable sq).rows (s.file rt)).any
      ((Database.eventsTable sq).clash ((s.nextEvent run node kind payload).columns rt)) =
        false := by
    refine List.any_eq_false.mpr ?_
    intro e he hclash
    have hle := (hs.numbered e he).2
    have heq := of_decide_eq_true hclash
    simp only [file_event] at heq
    omega
  have hinsert := Database.constrained_insert (e := .missingReference
      ("run " ++ run.text ++ " (or the row " ++ kind ++ " requires)"))
    (@file_trigger rt sq s run node kind payload h) rfl hfree
    (@file_hasRun rt s run) rfl
  rw [file_event] at hinsert
  rw [hinsert]
  unfold eventAllowed
  cases s.hasRun run
  · rfl
  · cases kind != kinds.receiptAdmitted || s.receiptRowExists run payload
    · rfl
    · exact congrArg Except.ok (file_events (s.nextEvent run node kind payload))

theorem file_attempts (a : Attempt) :
    Database.attemptsTable.put (Database.attemptsTable.rows (s.file rt) ++ [a.columns rt])
      (s.file rt) = file rt { s with attempts := s.attempts ++ [a] } := by
  simp [file, Database.attemptsTable]

theorem file_insertAttempt (a : Attempt) :
    (s.file rt).insertAttempt rt a = onFile (file rt) (s.insertAttempt rt a) := by
  have htaken : (Database.attemptsTable.rows (s.file rt)).any
      (Database.attemptsTable.clash (a.columns rt)) = s.attemptKeyTaken a := by
    simp [Database.attemptsTable, attemptKeyTaken, file, List.any_map, Function.comp_def,
      Attempt.columns, Identifier.ext_text_iff, PositiveU32.ext_get_iff,
      Bool.and_assoc, eq_comm]
  have hrun := @file_hasRun rt s a.runId
  refine onFile_bind (file_lenChecked _ _) ?_
  intro u _
  refine (Database.constrained_insert rfl rfl htaken hrun (file_attempts a)).trans ?_
  rw [hrun]
  exact onFile_keyed

theorem file_receipts (r : VerifierReceipt) :
    Database.receiptsTable.put (Database.receiptsTable.rows (s.file rt) ++ [r.columns rt])
      (s.file rt) = file rt { s with receipts := s.receipts ++ [r] } := by
  simp [file, Database.receiptsTable]

theorem file_insertReceipt (r : VerifierReceipt) :
    (s.file rt).insertReceipt rt r = onFile (file rt) (s.insertReceipt rt r) := by
  have htaken : (Database.receiptsTable.rows (s.file rt)).any
      (Database.receiptsTable.clash (r.columns rt)) =
        s.receipts.any (fun q => q.attempt.runId = r.attempt.runId ∧ q.id = r.id) := by
    simp [Database.receiptsTable, file, List.any_map, Function.comp_def,
      VerifierReceipt.columns, Identifier.ext_text_iff, eq_comm]
  have hattempt := @file_hasAttempt rt s r.attempt.runId r.attempt.node.nodeId
    r.attempt.number
  refine onFile_bind (file_lenChecked _ _) ?_
  intro u _
  refine (Database.constrained_insert rfl rfl htaken hattempt (file_receipts r)).trans ?_
  rw [hattempt]
  exact onFile_keyed

theorem file_gatePackets (p : GatePacket) :
    Database.gatePacketsTable.put (Database.gatePacketsTable.rows (s.file rt) ++ [p.columns rt])
      (s.file rt) = file rt { s with gatePackets := s.gatePackets ++ [p] } := by
  simp [file, Database.gatePacketsTable]

theorem file_insertGatePacket (p : GatePacket) :
    (s.file rt).insertGatePacket rt p = onFile (file rt) (s.insertGatePacket rt p) := by
  have htaken : (Database.gatePacketsTable.rows (s.file rt)).any
      (Database.gatePacketsTable.clash (p.columns rt)) =
        s.gatePackets.any (fun q => q.runId = p.runId ∧ q.id = p.id) := by
    simp [Database.gatePacketsTable, file, List.any_map, Function.comp_def,
      GatePacket.columns, Identifier.ext_text_iff, eq_comm]
  have hrun := @file_hasRun rt s p.runId
  refine onFile_bind (file_lenChecked _ _) ?_
  intro u _
  refine (Database.constrained_insert rfl rfl htaken hrun (file_gatePackets p)).trans ?_
  exact onFile_guarded

theorem file_gateDecisions (run : RunId) (g : GateDecision) :
    Database.gateDecisionsTable.put
      (Database.gateDecisionsTable.rows (s.file rt) ++ [g.columns rt run]) (s.file rt) =
      file rt { s with gateDecisions := s.gateDecisions ++ [(run, g)] } := by
  simp [file, Database.gateDecisionsTable]

theorem file_insertGateDecision (run : RunId) (g : GateDecision) :
    (s.file rt).insertGateDecision rt run g = onFile (file rt) (s.insertGateDecision rt run g) := by
  have htaken : (Database.gateDecisionsTable.rows (s.file rt)).any
      (Database.gateDecisionsTable.clash (g.columns rt run)) =
        s.gateDecisions.any (fun q => q.1 = run ∧ q.2.gatePacketId = g.gatePacketId) := by
    simp [Database.gateDecisionsTable, file, List.any_map, Function.comp_def,
      GateDecision.columns, Identifier.ext_text_iff, eq_comm]
  have hpacket := @file_hasGatePacket rt s run g.gatePacketId
  refine onFile_bind (file_lenChecked _ _) ?_
  intro u _
  refine (Database.constrained_insert rfl rfl htaken hpacket (file_gateDecisions run g)).trans ?_
  rw [hpacket]
  exact onFile_keyed

/-! ### Artifacts -/

/-- A text has no more characters than bytes. -/
theorem length_le_bytes (s : String) : s.length ≤ s.utf8ByteSize := by
  induction s using String.push_induction with
  | empty => exact Nat.zero_le _
  | push s c ih =>
    have hpos := c.utf8Size_pos
    rw [String.length_push, String.utf8ByteSize_push]
    omega

theorem file_artifacts (run : RunId) (a : ArtifactRef) :
    Database.artifactsTable.put
      (Database.artifactsTable.rows (s.file rt) ++ [a.columns run]) (s.file rt) =
      file rt { s with artifacts := s.artifacts ++ [(run, a)] } := by
  simp [file, Database.artifactsTable]

/-- The only check left to SQLite is that the locator does not begin with a NUL. -/
theorem file_locator {run : RunId} {a : ArtifactRef} (h : a.locator.utf8ByteSize ≤ maxLocatorLen) :
    Database.artifactsTable.check (a.columns run) = decide (1 ≤ sqlLength a.locator) := by
  have hlength := (sqlLength_le a.locator).trans (length_le_bytes a.locator)
  have hupper : sqlLength a.locator ≤ 2048 := hlength.trans h
  simp [Database.artifactsTable, ArtifactRef.columns, hupper]

theorem file_insertArtifact (run : RunId) (a : ArtifactRef) :
    (s.file rt).insertArtifact run a = onFile (file rt) (s.insertArtifact run a) := by
  have htaken : (Database.artifactsTable.rows (s.file rt)).any
      (Database.artifactsTable.clash (a.columns run)) =
        s.artifacts.any (fun b => b.1 = run ∧ b.2.digest = a.digest) := by
    simp [Database.artifactsTable, file, List.any_map, Function.comp_def,
      ArtifactRef.columns, Identifier.ext_text_iff, eq_comm]
  have hrun := @file_hasRun rt s run
  refine onFile_bind ?_ ?_
  · unfold guardOk
    split <;> rfl
  · intro u hguard
    have hsize := guardOk_ok hguard
    rw [Bool.and_eq_true, decide_eq_true_eq, decide_eq_true_eq] at hsize
    have hcheck := @file_locator run a hsize.2
    by_cases hlocator : 1 ≤ sqlLength a.locator
    · refine (Database.constrained_insert rfl (hcheck.trans (decide_eq_true hlocator)) htaken hrun
        (file_artifacts run a)).trans ?_
      rw [decide_eq_true hlocator, Bool.and_true]
      exact onFile_guarded
    · obtain ⟨v, hv⟩ :=
        @Table.insert_refused _ _ Database.artifactsTable (s.file rt) (a.columns run)
        (fun h => hlocator (of_decide_eq_true (hcheck.symm.trans h.2.1)))
      rw [decide_eq_false hlocator, Bool.and_false, Bool.false_and]
      exact congrArg _ hv

/-! ### Claims -/

theorem file_claims (c : ClaimRow) :
    Database.claimsTable.put (Database.claimsTable.rows (s.file rt) ++ [c.columns rt])
      (s.file rt) = file rt { s with claims := s.claims ++ [c] } := by
  simp [file, Database.claimsTable]

/-- A new claim, as the row SQLite makes of it. -/
theorem file_newClaim {c : ClaimRow} (hfence : c.fence ≤ Database.maxI64)
    (hactive : c.active = true)
    (hrelease : c.release = none) : c.columns rt =
      { runId := c.runId.text, nodeId := c.nodeId.text, number := c.number.get, owner := c.owner
        fence := (min c.fence Database.maxI64 : Nat)
        dependencyJson := rt.text (ReceiptRef.codec.list.write c.dependencyReceipts)
        resourcesJson := rt.text (ResourceClaim.codec.list.write c.resources)
        active := 1, release := none, claimedAt := c.claimedAt } := by
  rw [ClaimRow.columns, min_eq_left hfence, hactive, hrelease]
  rfl

theorem file_insertClaim {c : ClaimRow} (hfence : c.fence ≤ Database.maxI64)
    (hactive : c.active = true) (hrelease : c.release = none) :
    (s.file rt).insertClaim rt c.claimedAt c = onFile (file rt) (s.insertClaim c) := by
  have htaken : (Database.claimsTable.rows (s.file rt)).any
      (Database.claimsTable.clash (c.columns rt)) = s.claims.any (fun d => d.runId = c.runId ∧
        ((d.nodeId = c.nodeId ∧ d.number = c.number) ∨ d.fence = c.fence)) := by
    simp [Database.claimsTable, file, List.any_map, Function.comp_def, ClaimRow.columns,
      Identifier.ext_text_iff, PositiveU32.ext_get_iff,
      eq_comm (a := c.runId.text), eq_comm (a := c.nodeId.text), eq_comm (a := c.number.get),
      eq_comm (a := c.fence)]
  have hrun := @file_hasRun rt s c.runId
  have hcheck : Database.claimsTable.check (c.columns rt) = true := by
    simp [Database.claimsTable, ClaimRow.columns, hactive]
  unfold Database.insertClaim
  rw [← file_newClaim hfence hactive hrelease]
  refine (Database.constrained_insert rfl hcheck htaken hrun (file_claims c)).trans ?_
  exact onFile_guarded

theorem heldUnder_columns {run : RunId} {node : NodeId} {number fence : Nat}
    (hfence : fence ≤ Database.maxI64) (c : ClaimRow) :
    Database.heldUnder run.text node.text number fence (c.columns rt) =
      ClaimRow.isHeldUnder run node number fence c := by
  have hactive : (if c.active = true then (1 : Int) else 0) = 1 ↔ c.active = true := by simp
  rw [Bool.eq_iff_iff]
  simp only [Database.heldUnder, ClaimRow.isHeldUnder, Bool.and_eq_true, decide_eq_true_eq]
  simp only [ClaimRow.columns, min_eq_left hfence, Identifier.ext_text_iff, Int.natCast_inj,
    hactive]

theorem released_columns (p : ClaimRow → Bool) (release : String) (c : ClaimRow) :
    (ClaimRow.releaseIf p release c).columns rt =
      if p c then Database.released release (c.columns rt) else c.columns rt := by
  unfold ClaimRow.releaseIf
  split <;> rfl

theorem file_releaseClaim (hs : (s.file rt).Sound sq) {run : RunId} {node : NodeId}
    {number fence : Nat} {release : String} (hfence : fence ≤ Database.maxI64) :
    (s.file rt).releaseClaim run node number fence release =
      .ok ((s.releaseClaim run node number fence release).1,
        (s.releaseClaim run node number fence release).2.file rt) := by
  have hheld := @heldUnder_columns rt run node number fence hfence
  have hupdate := @Table.update_fits _ _ Database.claimsTable _
    (Database.heldUnder run.text node.text number fence) (Database.released release)
    (hs.keeps .claims) ?_ ?_ ?_ ?_
  · unfold Database.releaseClaim
    rw [hupdate]
    have hcount : (Database.claimsTable.rows (s.file rt)).countP
        (Database.heldUnder run.text node.text number fence) =
          s.claims.countP (ClaimRow.isHeldUnder run node number fence) := by
      simp [Database.claimsTable, file, List.countP_map, Function.comp_def, hheld]
    rw [hcount]
    simp [releaseClaim, Database.claimsTable, file, released_columns, hheld, Function.comp_def]
  · intro r _ hselected
    simp only [Database.heldUnder, Bool.and_eq_true, decide_eq_true_eq] at hselected
    simp [Database.claimsTable, hselected.2]
  · intro a b
    split <;> split <;> rfl
  · intro r _
    rfl
  · intro r
    rfl

/-! ### Store operations -/

theorem onFile_done {x : Except StoreError Store} : onFile (file rt) x =
    onFile (fun out : Unit × Store => out.2.file rt) (x >>= fun s => .ok ((), s)) := by
  cases x <;> rfl

theorem file_sealAttempt (hs : (s.file rt).Sound sq) (a : Attempt) :
    (s.file rt).sealAttempt sq rt a = onFile (file rt) (s.sealAttempt rt a) := by
  unfold Database.sealAttempt sealAttempt
  rw [file_insertAttempt]
  cases h : s.insertAttempt rt a with
  | error e => rfl
  | ok s₁ =>
    have hwrote : (s.file rt).insertAttempt rt a = .ok (s₁.file rt) := by
      rw [file_insertAttempt, h]
      rfl
    have hs₁ := (@Database.insertAttempt_wrote sq _ _ _ _ hwrote).sound hs
    have htakes : sq.Takes rt kinds.attemptSealed (sealedPayload a) := by
      rintro (hkind | hkind) <;> exact absurd hkind (by decide)
    exact file_appendEvent hs₁ htakes

theorem file_graphs (g : GraphRow) :
    Database.graphsTable.put (Database.graphsTable.rows (s.file rt) ++ [g.columns rt])
      (s.file rt) = file rt { s with graphs := s.graphs ++ [g] } := by
  simp [file, Database.graphsTable]

theorem file_findGraph (ref : GraphRef) : (s.file rt).graphs.find? (fun g =>
      g.graphId = ref.graphId.text && g.revision = (ref.revision.get : Int)) =
    (s.graphs.find? (fun g => g.spec.graphRef = ref)).map (·.columns rt) := by
  have hkey : ((fun g : GraphsRow => (g.graphId = ref.graphId.text &&
      g.revision = (ref.revision.get : Int) : Bool)) ∘ (·.columns rt)) =
        fun g : GraphRow => decide (g.spec.graphRef = ref) := by
    funext g
    simp [GraphRow.columns, graphRef_iff]
  rw [file, List.find?_map, hkey]

theorem file_storeGraph (spec : GraphSpec) : (s.file rt).storeGraph rt spec =
    onFile (fun out => (out.1, out.2.file rt)) (s.storeGraph rt spec) := by
  unfold Database.storeGraph storeGraph
  cases hdigest : graphSpecDigest rt spec with
  | error e => rfl
  | ok digest =>
    refine onFile_bind (file_lenChecked _ _) ?_
    intro u _
    rw [file_findGraph]
    cases hfind : s.graphs.find? (fun g => g.spec.graphRef = spec.graphRef) with
    | some row =>
      by_cases hsame : row.digest = digest
      · have htext : row.digest.text = digest.text := congrArg Digest.text hsame
        simp [GraphRow.columns, hsame, onFile]
      · have htext : row.digest.text ≠ digest.text := fun h => hsame (Digest.ext_text h)
        simp [GraphRow.columns, hsame, htext, onFile, DbError.ofStore]
    | none =>
      have hfree : ∀ row ∈ Database.graphsTable.rows (s.file rt),
          Database.graphsTable.clash ((⟨spec, digest⟩ : GraphRow).columns rt) row = false := by
        intro row hrow
        obtain ⟨g, hg, rfl⟩ := List.mem_map.mp hrow
        have hother := List.find?_eq_none.mp hfind g hg
        simp only [decide_eq_true_eq, graphRef_iff] at hother
        simp only [Database.graphsTable, GraphRow.columns, Bool.and_eq_false_iff,
          decide_eq_false_iff_not]
        by_contra hclash
        push Not at hclash
        exact hother ⟨hclash.1.symm, hclash.2.symm⟩
      have hinsert : Database.graphsTable.insert ⟨spec.graphRef.graphId.text,
          spec.graphRef.revision.get, digest.text, rt.text spec.toJson⟩ (s.file rt) =
            .ok (file rt { s with graphs := s.graphs ++ [⟨spec, digest⟩] }) :=
        (Table.insert_fits rfl rfl hfree rfl).trans (congrArg _ (file_graphs _))
      dsimp only [Option.map_none]
      rw [hinsert]
      rfl

theorem file_runs (r : GraphRun) :
    Database.runsTable.put (Database.runsTable.rows (s.file rt) ++ [r.columns rt])
      (s.file rt) = file rt { s with runs := s.runs ++ [r] } := by
  simp [file, Database.runsTable]

theorem file_createRun (hs : (s.file rt).Sound sq) (r : GraphRun) :
    (s.file rt).createRun sq rt r =
      onFile (fun out => out.2.file rt) (s.createRun rt r) := by
  unfold Database.createRun createRun
  refine onFile_bind (file_lenChecked _ _) ?_
  intro u _
  have hgraph := @file_hasGraph rt s r.graphRef
  rw [hgraph]
  cases hknown : s.graphs.any (fun g => g.spec.graphRef = r.graphRef)
  · rfl
  · have htaken : (Database.runsTable.rows (s.file rt)).any
        (Database.runsTable.clash (r.columns rt)) = s.hasRun r.runId := by
      simp [Database.runsTable, hasRun, file, List.any_map, Function.comp_def, GraphRun.columns,
        Identifier.ext_text_iff, eq_comm]
    cases hrun : s.hasRun r.runId
    · have hfree : ∀ row ∈ Database.runsTable.rows (s.file rt),
          Database.runsTable.clash (r.columns rt) row = false := by
        simpa [hrun] using htaken
      have hinsert : Database.runsTable.insert ⟨r.runId.text, r.graphRef.graphId.text,
          r.graphRef.revision.get, r.budgetLineageRef.map (·.text), rt.text r.toJson⟩ (s.file rt) =
            .ok (file rt { s with runs := s.runs ++ [r] }) :=
        (Table.insert_fits rfl rfl hfree (hgraph.trans hknown)).trans (congrArg _ (file_runs r))
      have hs₁ : (file rt { s with runs := s.runs ++ [r] }).Sound sq :=
        hs.row (n := .runs) (by decide) hinsert
      rw [if_pos rfl, Table.insertOrIgnore, hinsert]
      have htakes : sq.Takes rt kinds.runCreated (runCreatedPayload r) := by
        rintro (hkind | hkind) <;> exact absurd hkind (by decide)
      exact (file_appendEvent hs₁ htakes).trans onFile_done
    · have hinsert : Database.runsTable.insert ⟨r.runId.text, r.graphRef.graphId.text,
          r.graphRef.revision.get, r.budgetLineageRef.map (·.text), rt.text r.toJson⟩ (s.file rt) =
            .error .key := Table.insert_taken rfl rfl (htaken.trans hrun)
      rw [if_pos rfl, Table.insertOrIgnore, hinsert]
      rfl

theorem file_revokeReceipt (hs : (s.file rt).Sound sq) {run : RunId} {receiptId reason : String}
    (h : sq.Names rt (.obj [("receipt_id", .str receiptId), ("reason", .str reason)])) :
    (s.file rt).revokeReceipt sq rt run receiptId reason =
      onFile (fun out => out.2.file rt) (s.revokeReceipt rt run receiptId reason) := by
  unfold Database.revokeReceipt revokeReceipt
  rw [file_hasReceipt]
  cases hreceipt : s.receipts.any (fun r => r.attempt.runId = run ∧ r.id.text = receiptId)
  · rfl
  · exact (file_appendEvent hs (fun _ => h)).trans onFile_done

/-! ### Transactions -/

/-- A statement on the typed ledger. -/
def perform (rt : Runtime) : Statement → Store → Except StoreError (Bool × Store)
  | .storeGraph spec, s => s.storeGraph rt spec
  | .createRun run, s => (s.createRun rt run).map (fun out => (true, out.2))
  | .appendEvent run node kind payload, s =>
    (s.appendEvent rt run node kind payload).map (true, ·)
  | .insertAttempt a, s => (s.insertAttempt rt a).map (true, ·)
  | .sealAttempt a, s => (s.sealAttempt rt a).map (true, ·)
  | .insertReceipt r, s => (s.insertReceipt rt r).map (true, ·)
  | .insertGatePacket p, s => (s.insertGatePacket rt p).map (true, ·)
  | .insertGateDecision run d, s => (s.insertGateDecision rt run d).map (true, ·)
  | .insertArtifact run a, s => (s.insertArtifact run a).map (true, ·)
  | .insertClaim _ c, s => (s.insertClaim c).map (true, ·)
  | .releaseClaim run node number fence release, s =>
    .ok (s.releaseClaim run node number fence release)
  | .revokeReceipt run receiptId reason, s =>
    (s.revokeReceipt rt run receiptId reason).map (fun out => (true, out.2))

end Store

/-- What the ledger's own statements keep to: an event about a receipt names it, a claim goes in
active under the time of its insertion, and fences fit `INTEGER`. -/
def Statement.Plain (sq : Sqlite) (rt : Runtime) : Statement → Prop
  | appendEvent _ _ kind payload => sq.Takes rt kind payload
  | insertClaim now c => c.claimedAt = now ∧ c.active = true ∧ c.release = none ∧
      c.fence ≤ Database.maxI64
  | releaseClaim _ _ _ fence _ => fence ≤ Database.maxI64
  | revokeReceipt _ receiptId reason =>
    sq.Names rt (.obj [("receipt_id", .str receiptId), ("reason", .str reason)])
  | _ => True

/-- The file and an answer. -/
def Store.filed {α : Type} (rt : Runtime) (out : α × Store) : α × Database := (out.1, out.2.file rt)

namespace Store

variable {rt : Runtime} {sq : Sqlite} {s : Store}

theorem onFile_map {α β γ δ : Type} {x : Except StoreError α} {y : Except DbError β} {f : α → γ}
    {g : β → δ} {k : α → β} {l : γ → δ} (hx : y = onFile k x) (h : ∀ a, g (k a) = l (f a)) :
    y.map g = onFile l (x.map f) := by
  subst hx
  cases x with
  | ok a => exact congrArg Except.ok (h a)
  | error e => rfl

theorem file_perform (hs : (s.file rt).Sound sq) {statement : Statement}
    (h : statement.Plain sq rt) : Database.perform sq rt statement (s.file rt) =
      onFile (filed rt) (perform rt statement s) := by
  cases statement with
  | storeGraph spec => exact file_storeGraph spec
  | createRun run => exact onFile_map (file_createRun hs run) (fun _ => rfl)
  | appendEvent run node kind payload => exact onFile_map (file_appendEvent hs h) (fun _ => rfl)
  | insertAttempt a => exact onFile_map (file_insertAttempt a) (fun _ => rfl)
  | sealAttempt a => exact onFile_map (file_sealAttempt hs a) (fun _ => rfl)
  | insertReceipt r => exact onFile_map (file_insertReceipt r) (fun _ => rfl)
  | insertGatePacket p => exact onFile_map (file_insertGatePacket p) (fun _ => rfl)
  | insertGateDecision run g => exact onFile_map (file_insertGateDecision run g) (fun _ => rfl)
  | insertArtifact run a => exact onFile_map (file_insertArtifact run a) (fun _ => rfl)
  | insertClaim now c =>
    obtain ⟨rfl, hactive, hrelease, hfence⟩ := h
    exact onFile_map (file_insertClaim hfence hactive hrelease) (fun _ => rfl)
  | releaseClaim run node number fence release => exact file_releaseClaim hs h
  | revokeReceipt run receiptId reason => exact onFile_map (file_revokeReceipt hs h) (fun _ => rfl)

theorem file_issue {batch : List Statement} (hbatch : ∀ st ∈ batch, st.Plain sq rt)
    (hs : (s.file rt).Sound sq) : issue (Database.perform sq rt) batch (s.file rt) =
      onFile (filed rt) (issue (perform rt) batch s) := by
  induction batch generalizing s with
  | nil => rfl
  | cons st rest ih =>
    obtain ⟨hst, hrest⟩ := List.forall_mem_cons.mp hbatch
    have hone := file_perform hs hst
    unfold issue
    rw [hone]
    cases h : perform rt st s with
    | error e => rfl
    | ok out =>
      rw [h] at hone
      have hs' := (Database.writes_keep (Database.perform_wrote hone) hs).1
      change (issue (Database.perform sq rt) rest (out.2.file rt) >>= _) =
        onFile _ (issue (perform rt) rest out.2 >>= _)
      rw [ih hrest hs']
      cases issue (perform rt) rest out.2 <;> rfl

theorem file_transactions {batches : List (List Statement)}
    (hbatches : ∀ batch ∈ batches, ∀ st ∈ batch, st.Plain sq rt) (hs : (s.file rt).Sound sq) :
    transactions (Database.perform sq rt) batches (s.file rt) =
      ((transactions (perform rt) batches s).1.map (onFile id),
        (transactions (perform rt) batches s).2.file rt) := by
  induction batches generalizing s with
  | nil => rfl
  | cons batch rest ih =>
    obtain ⟨hbatch, hrest⟩ := List.forall_mem_cons.mp hbatches
    have hone := file_issue hbatch hs
    unfold transactions
    rw [hone]
    cases h : issue (perform rt) batch s with
    | error e =>
      simp only [onFile, commit, ih hrest hs, List.map_cons]
    | ok out =>
      rw [h] at hone
      have hs' := (Database.writes_keep (Database.issue_wrote hone) hs).1
      simp only [onFile, filed, commit, ih hrest hs', List.map_cons, id_eq]

end Store

/-- The file answers every statement of every transaction as the typed ledger does, errors
included, and holds the rows of that ledger after each of them. -/
theorem file_refines_store (sq : Sqlite) (rt : Runtime) (batches : List (List Statement))
    (hplain : ∀ batch ∈ batches, ∀ st ∈ batch, st.Plain sq rt) :
    let d := transactions (Database.perform sq rt) batches Database.empty
    let s := transactions (Store.perform rt) batches Store.empty
    d.1 = s.1.map (onFile id) ∧ d.2 = s.2.file rt := by
  have hfile := Store.file_transactions (s := Store.empty) hplain Database.empty_sound
  exact ⟨congrArg Prod.fst hfile, congrArg Prod.snd hfile⟩

namespace Pilot

/-- No payload of these statements has a receipt id. -/
def writing : Sqlite := { parse := parseRun, serde := fun _ _ => "", receiptId := fun _ => .null }

def patchRow : ClaimRow := scheduler.newRow patch one 1 [] "2026-01-01T00:00:01Z"

def patchArtifact : ArtifactRef :=
  { digest := zeroDigest.text, kind := "patch", locator := "file:patch.json", sizeBytes := 64 }

/-- The graph, its run, the run again, a dispatch and the release of its claim, a reference to
the result, and one whose locator SQLite takes for empty. -/
def dispatches : List (List Statement) :=
  [[.storeGraph spec], [.createRun run], [.createRun run],
    [.insertClaim "2026-01-01T00:00:01Z" patchRow, .appendEvent runId (some patchId)
      kinds.attemptDispatched (Scheduler.dispatchPayload one controller 1 [])],
    [.releaseClaim runId patchId 1 1 "completed"], [.insertArtifact runId patchArtifact],
    [.insertArtifact runId { patchArtifact with digest := "other", locator := "\x00" }]]

theorem dispatches_plain : ∀ batch ∈ dispatches, ∀ st ∈ batch, st.Plain writing rendering := by
  have hfence : 1 ≤ Database.maxI64 := by decide
  have hdispatched : writing.Takes rendering kinds.attemptDispatched
      (Scheduler.dispatchPayload one controller 1 []) := by
    rintro (hkind | hkind) <;> exact absurd hkind (by decide)
  simp only [dispatches, List.forall_mem_cons]
  exact ⟨⟨trivial, by simp⟩, ⟨trivial, by simp⟩, ⟨trivial, by simp⟩,
    ⟨⟨rfl, rfl, rfl, hfence⟩, hdispatched, by simp⟩, ⟨hfence, by simp⟩, ⟨trivial, by simp⟩,
    ⟨trivial, by simp⟩, by simp⟩

end Pilot

open Pilot in
/-- Every transaction commits but the second creation of the run and the last reference. -/
theorem file_refines_store_dispatch :
    let d := transactions (Database.perform writing rendering) dispatches Database.empty
    let s := transactions (Store.perform rendering) dispatches Store.empty
    s.1.map Except.isOk = [true, true, false, true, true, true, false] ∧
      d.1 = s.1.map (onFile id) ∧ d.2 = s.2.file rendering :=
  ⟨by decide +kernel, file_refines_store writing rendering dispatches dispatches_plain⟩

end Checkspan
