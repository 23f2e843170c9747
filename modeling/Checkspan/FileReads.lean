import Checkspan.Persistence
import Checkspan.Reports

/-!
# Reading the file back

The reads of the file parse every column again. From the file of a ledger they return what the
ledger holds: the records of its rows, the refusals of those under another header, its claims in
their order, and events that replay to the same states.
-/

namespace Checkspan

open Relational

/-- A record whose text reads back, under any header with a `u32` version. -/
def RowReadable (rt : Runtime) (sq : Sqlite) {α : Type} [Record α] (a : α) : Prop :=
  (Record.header a).schemaVersion < 2 ^ 32 ∧ ReadsBack rt sq.parse (Record.toJson a)

/-- Rows that read back. -/
structure Store.Readable (rt : Runtime) (sq : Sqlite) (s : Store) : Prop where
  graphs : ∀ g ∈ s.graphs, RowReadable rt sq g.spec
  runs : ∀ r ∈ s.runs, RowReadable rt sq r
  attempts : ∀ a ∈ s.attempts, RowReadable rt sq a
  receipts : ∀ r ∈ s.receipts, RowReadable rt sq r
  gatePackets : ∀ p ∈ s.gatePackets, RowReadable rt sq p
  events : ∀ e ∈ s.events, ReadsBack rt sq.parse e.payload
  named : ∀ e ∈ s.events, sq.Takes rt e.kind e.payload
  claims : ∀ c ∈ s.claims,
    ReadsBack rt sq.parse (ReceiptRef.codec.list.write c.dependencyReceipts) ∧
      ReadsBack rt sq.parse (ResourceClaim.codec.list.write c.resources)
  fences : ∀ c ∈ s.claims, c.fence ≤ Database.maxI64

/-- An event with the same document for its payload. -/
structure StoredEvent.Same (e e' : StoredEvent) : Prop where
  seq : e'.seq = e.seq
  runId : e'.runId = e.runId
  nodeId : e'.nodeId = e.nodeId
  kind : e'.kind = e.kind
  payload : e.payload.Same e'.payload

section

variable {rt : Runtime} {sq : Sqlite}

/-! ### Records -/

theorem parseRecordValue_kind {α : Type} [Record α] {a : α}
    (hlt : (Record.header a).schemaVersion < 2 ^ 32)
    (hkind : (Record.header a).record ≠ Record.kind α) {j : Json} (hj : (Record.toJson a).Same j) :
    (parseRecordValue j : Except ContractError α) =
      .error (.wrongRecord (Record.kind α) (Record.header a).record.asStr) := by
  obtain ⟨rest, hrest⟩ := Record.headed a
  rw [hrest] at hj
  unfold parseRecordValue
  rw [readHeader_fields hlt hj]
  exact if_pos (fun h => hkind (RecordKind.asStr_inj h))

theorem parseRecordValue_version {α : Type} [Record α] {a : α}
    (hlt : (Record.header a).schemaVersion < 2 ^ 32)
    (hkind : (Record.header a).record = Record.kind α)
    (hversion : (Record.header a).schemaVersion ≠ 1) {j : Json} (hj : (Record.toJson a).Same j) :
    (parseRecordValue j : Except ContractError α) = .error (.unsupportedVersion (Record.kind α)
      (Record.header a).schemaVersion supportedVersion) := by
  obtain ⟨rest, hrest⟩ := Record.headed a
  rw [hrest] at hj
  unfold parseRecordValue
  rw [readHeader_fields hlt hj]
  exact (if_neg (not_not.mpr (congrArg RecordKind.asStr hkind))).trans (if_pos hversion)

theorem readJson_text {α : Type} [Record α] {a : α} (h : RowReadable rt sq a) :
    Database.readJson sq (rt.text (Record.toJson a)) =
      onFile id (Store.readRecord Record.header (Record.kind α) a) := by
  obtain ⟨hlt, value, hvalue, hsame⟩ := h
  unfold Database.readJson parseRecord Store.readRecord
  rw [hvalue]
  dsimp only
  by_cases hkind : (Record.header a).record = Record.kind α
  · rw [if_neg (not_not.mpr hkind)]
    by_cases hversion : (Record.header a).schemaVersion = 1
    · rw [parseRecordValue_own (RecordHeader.isFor_iff.mpr ⟨hkind, hversion⟩) hsame,
        if_neg (not_not.mpr hversion)]
      rfl
    · rw [parseRecordValue_version hlt hkind hversion hsame, if_pos hversion]
      change Except.error (DbError.store (.corrupt _)) = Except.error (DbError.store (.corrupt _))
      congr 3
      have hone : " is not supported; this build supports " ++ toString supportedVersion =
          " is not supported; this build supports 1" := by decide
      rw [← hone, ← String.append_assoc]
      rfl
  · rw [parseRecordValue_kind hlt hkind hsame, if_pos hkind]
    change Except.error (DbError.store (.corrupt _)) = Except.error (DbError.store (.corrupt _))
    congr 3

theorem readRow_text {α : Type} [Record α] {o : Option α} (h : ∀ a ∈ o, RowReadable rt sq a) :
    Database.readRow sq (o.map (fun a => rt.text (Record.toJson a))) =
      onFile id (Store.readOptional Record.header (Record.kind α) o) := by
  cases o with
  | none => rfl
  | some a =>
    rw [Option.map_some, Database.readRow, readJson_text (h a rfl), Store.readOptional]
    cases Store.readRecord Record.header (Record.kind α) a <;> rfl

theorem mapM_reads {ε α β : Type} {f : β → Except ε α} {g : α → β} {xs : List α}
    (h : ∀ x ∈ xs, f (g x) = .ok x) : (xs.map g).mapM f = .ok xs := by
  induction xs with
  | nil => rfl
  | cons x xs ih =>
    rw [List.map_cons, List.mapM_cons, h x List.mem_cons_self,
      ih (fun y hy => h y (List.mem_cons_of_mem x hy))]
    rfl

/-- A list of reads, each answered on the file as on the ledger. -/
theorem mapM_onFile {α β γ : Type} {f : β → Except DbError γ} {k : α → Except StoreError γ}
    {g : α → β} {xs : List α} (h : ∀ x ∈ xs, f (g x) = onFile id (k x)) :
    (xs.map g).mapM f = onFile id (xs.mapM k) := by
  induction xs with
  | nil => rfl
  | cons x xs ih =>
    rw [List.map_cons, List.mapM_cons, List.mapM_cons, h x List.mem_cons_self,
      ih (fun y hy => h y (List.mem_cons_of_mem x hy))]
    cases k x with
    | error e => rfl
    | ok a => cases xs.mapM k <;> rfl

namespace Store

variable {s : Store}

theorem file_receipt (hs : s.Readable rt sq) (run : RunId) (receiptId : String) :
    (s.file rt).receipt sq run.text receiptId = onFile id (s.receipt run receiptId) := by
  have hkey : ((fun r : ReceiptsRow => (r.runId = run.text && r.receiptId = receiptId : Bool)) ∘
      (·.columns rt)) = fun r : VerifierReceipt =>
        decide (r.attempt.runId = run ∧ r.id.text = receiptId) := by
    funext r
    simp [VerifierReceipt.columns, Identifier.ext_text_iff]
  unfold Database.receipt receipt
  rw [file, List.find?_map, hkey, Option.map_map]
  exact readRow_text (fun r hr => hs.receipts r (List.mem_of_find?_eq_some hr))

theorem file_attempt (hs : s.Readable rt sq) (run : RunId) (node : NodeId) (number : Nat) :
    (s.file rt).attempt sq run.text node.text number = onFile id (s.attempt run node number) := by
  have hkey : ((fun a : AttemptsRow => (a.runId = run.text && a.nodeId = node.text &&
      a.number = (number : Int) : Bool)) ∘ (·.columns rt)) = fun a : Attempt =>
        decide (a.runId = run ∧ a.node.nodeId = node ∧ a.number.get = number) := by
    funext a
    simp [Attempt.columns, Identifier.ext_text_iff, Bool.and_assoc]
  unfold Database.attempt attempt
  rw [file, List.find?_map, hkey, Option.map_map]
  exact readRow_text (fun a ha => hs.attempts a (List.mem_of_find?_eq_some ha))

theorem file_run (hs : s.Readable rt sq) (id : RunId) :
    (s.file rt).readRun sq id.text = onFile (fun r => r) (s.run id) := by
  have hkey : ((fun r : RunsRow => (r.runId = id.text : Bool)) ∘ (·.columns rt)) =
      fun r : GraphRun => decide (r.runId = id) := by
    funext r
    simp [GraphRun.columns, Identifier.ext_text_iff]
  unfold Database.readRun run
  rw [file, List.find?_map, hkey, Option.map_map]
  exact readRow_text (fun r hr => hs.runs r (List.mem_of_find?_eq_some hr))

theorem file_loadGraph (hs : s.Readable rt sq) (ref : GraphRef) :
    (s.file rt).loadGraph sq ref = onFile id (s.loadGraph ref) := by
  unfold Database.loadGraph loadGraph
  rw [file_findGraph, Option.map_map]
  have hread := @readRow_text rt sq _ _
    ((s.graphs.find? (fun g => g.spec.graphRef = ref)).map (·.spec)) ?_
  · rw [Option.map_map] at hread
    exact hread
  · intro spec hspec
    obtain ⟨g, hg, rfl⟩ := Option.map_eq_some_iff.mp hspec
    exact hs.graphs g (List.mem_of_find?_eq_some hg)

/-- `read_gate_packets`. -/
def readGatePackets (s : Store) (run : RunId) : Except StoreError (List GatePacket) :=
  (s.gatePackets.filter (fun p => p.runId = run)).mapM
    (readRecord GatePacket.toRecordHeader .gatePacket)

theorem file_readGatePackets (hs : s.Readable rt sq) (run : RunId) :
    (s.file rt).readGatePackets sq run.text = onFile id (s.readGatePackets run) := by
  have hkey : ((fun p : GatePacketsRow => (p.runId = run.text : Bool)) ∘ (·.columns rt)) =
      fun p : GatePacket => decide (p.runId = run) := by
    funext p
    simp [GatePacket.columns, Identifier.ext_text_iff]
  unfold Database.readGatePackets readGatePackets
  rw [file, List.filter_map, hkey]
  refine mapM_onFile ?_
  intro p hp
  exact readJson_text (hs.gatePackets p (List.mem_filter.mp hp).1)

/-- `read_attempts`. -/
def readAttempts (s : Store) (run : RunId) (node : NodeId) : Except StoreError (List Attempt) :=
  ((s.attemptsOf run node).insertionSort (fun a b => a.number.get ≤ b.number.get)).mapM
    (readRecord Attempt.toRecordHeader .attempt)

theorem file_readAttempts (hs : s.Readable rt sq) (run : RunId) (node : NodeId) :
    (s.file rt).readAttempts sq run.text node.text = onFile id (s.readAttempts run node) := by
  have hkey : ((fun a : AttemptsRow => (a.runId = run.text && a.nodeId = node.text : Bool)) ∘
      (·.columns rt)) = fun a : Attempt => decide (a.runId = run ∧ a.node.nodeId = node) := by
    funext a
    simp [Attempt.columns, Identifier.ext_text_iff]
  unfold Database.readAttempts readAttempts attemptsOf
  rw [file, List.filter_map, hkey,
    ← List.map_insertionSort (fun a b : Attempt => a.number.get ≤ b.number.get)]
  · refine mapM_onFile ?_
    intro a ha
    have hmem := (List.mem_filter.mp ((List.mem_insertionSort _).mp ha)).1
    exact readJson_text (hs.attempts a hmem)
  · intro a _ b _
    exact Int.ofNat_le.symm

/-! ### Events -/

theorem readEvent_columns {e : StoredEvent} (h : ReadsBack rt sq.parse e.payload) :
    ∃ e', Database.readEvent sq (e.columns rt) = .ok e' ∧ e.Same e' := by
  obtain ⟨value, hvalue, hsame⟩ := h
  refine ⟨⟨e.seq, e.runId, e.nodeId, e.kind, value⟩, ?_, rfl, rfl, rfl, rfl, hsame⟩
  have hnode : (e.nodeId.map (·.text)).mapM Database.corruptIdent = .ok e.nodeId := by
    cases e.nodeId with
    | none => rfl
    | some node =>
      simp only [Option.map_some, Option.mapM_some, Database.corruptIdent, Identifier.new_text]
      rfl
  have hrun : Database.corruptIdent (k := .runId) e.runId.text = .ok e.runId := by
    rw [Database.corruptIdent, Identifier.new_text]
  simp only [Database.readEvent, StoredEvent.columns, hvalue, hrun, hnode, Int.toNat_natCast]
  rfl

theorem readEvents_columns {es : List StoredEvent}
    (h : ∀ e ∈ es, ReadsBack rt sq.parse e.payload) :
    ∃ es', (es.map (·.columns rt)).mapM (Database.readEvent sq) = .ok es' ∧
      List.Forall₂ StoredEvent.Same es es' := by
  induction es with
  | nil => exact ⟨[], rfl, .nil⟩
  | cons e es ih =>
    obtain ⟨e', he', hsame⟩ := readEvent_columns (h e List.mem_cons_self)
    obtain ⟨es', hes', hall⟩ := ih (fun e he => h e (List.mem_cons_of_mem _ he))
    refine ⟨e' :: es', ?_, .cons hsame hall⟩
    rw [List.map_cons, List.mapM_cons, he', hes']
    rfl

theorem file_eventsOf (hs : s.Readable rt sq) (hsound : (s.file rt).Sound sq) (run : RunId) :
    ∃ es, (s.file rt).eventsOf sq run.text = .ok es ∧
      List.Forall₂ StoredEvent.Same (s.eventsOf run) es := by
  have hkey : ((fun e : EventsRow => (e.runId = run.text : Bool)) ∘ (·.columns rt)) =
      fun e : StoredEvent => decide (e.runId = run) := by
    funext e
    simp [StoredEvent.columns, Identifier.ext_text_iff]
  have hsorted : ((s.file rt).events.filter (fun e => e.runId = run.text)).Pairwise
      (fun a b => a.seq ≤ b.seq) :=
    (hsound.ordered.sublist List.filter_sublist).imp (fun h => h.le)
  unfold Database.eventsOf eventsOf
  rw [hsorted.insertionSort_eq, file, List.filter_map, hkey]
  refine readEvents_columns ?_
  intro e he
  exact hs.events e (List.mem_filter.mp he).1

theorem file_dispatchCount (run : RunId) :
    (s.file rt).dispatchCount run.text = s.dispatchCount run := by
  unfold Database.dispatchCount dispatchCount eventsOf
  rw [file, List.countP_map, List.countP_filter]
  congr 1
  refine List.countP_congr ?_
  intro e _
  simp only [Function.comp_apply, Bool.and_eq_true, decide_eq_true_eq]
  simp only [StoredEvent.columns, Identifier.ext_text_iff]
  exact and_comm

/-- The receipt an event revokes. -/
def revokedId (e : StoredEvent) : Option String :=
  if e.kind = kinds.receiptRevoked then
    match e.payload.get "receipt_id" with
    | some (.str id) => some id
    | _ => none
  else none

theorem revokedReceipts_eq (run : RunId) :
    s.revokedReceipts run = (s.eventsOf run).filterMap revokedId := rfl

theorem revoked_columns {es : List StoredEvent} (h : ∀ e ∈ es, sq.Takes rt e.kind e.payload) :
    ∃ ids, ((es.filter (fun e => e.kind = kinds.receiptRevoked)).map (·.columns rt)).mapM
        (fun e => Database.optionalText (sq.receiptId e.payloadJson)) = .ok ids ∧
      ids.filterMap id = es.filterMap revokedId := by
  induction es with
  | nil => exact ⟨[], rfl, rfl⟩
  | cons e es ih =>
    obtain ⟨ids, hids, heq⟩ := ih (fun e he => h e (List.mem_cons_of_mem _ he))
    by_cases hkind : e.kind = kinds.receiptRevoked
    · obtain ⟨id, hget, hextract⟩ := h e List.mem_cons_self (Or.inr hkind)
      have hrevoked : revokedId e = some id := by
        rw [revokedId, if_pos hkind, hget]
      refine ⟨some id :: ids, ?_, ?_⟩
      · rw [List.filter_cons, if_pos (decide_eq_true hkind), List.map_cons, List.mapM_cons, hids]
        simp only [StoredEvent.columns, hextract, Database.optionalText]
        rfl
      · rw [List.filterMap_cons, List.filterMap_cons, hrevoked, heq]
        rfl
    · refine ⟨ids, ?_, ?_⟩
      · rw [List.filter_cons, if_neg (by simpa using hkind)]
        exact hids
      · rw [List.filterMap_cons, revokedId, if_neg hkind, heq]

theorem file_revokedReceipts (hs : s.Readable rt sq) (run : RunId) :
    (s.file rt).revokedReceipts sq run.text = .ok (s.revokedReceipts run) := by
  have hkey : ((fun e : EventsRow => (e.runId = run.text && e.kind = "receipt_revoked" : Bool)) ∘
      (·.columns rt)) = fun e : StoredEvent => e.kind = kinds.receiptRevoked && e.runId = run := by
    funext e
    rw [Bool.eq_iff_iff]
    simp only [Function.comp_apply, Bool.and_eq_true, decide_eq_true_eq]
    simp only [StoredEvent.columns, Identifier.ext_text_iff]
    exact and_comm
  unfold Database.revokedReceipts
  rw [revokedReceipts_eq, eventsOf, file, List.filter_map, hkey, ← List.filter_filter]
  obtain ⟨ids, hids, heq⟩ := @revoked_columns rt sq (s.events.filter (fun e => e.runId = run))
    (fun e he => hs.named e (List.mem_filter.mp he).1)
  rw [hids, ← heq]
  rfl

/-! ### Claims -/

theorem decodeList_text {α : Type} {codec : Json.Codec α} {items : List α}
    (h : ReadsBack rt sq.parse (codec.list.write items)) :
    Database.decodeList sq codec (rt.text (codec.list.write items)) = .ok items := by
  obtain ⟨value, hvalue, hsame⟩ := h
  have hread := codec.list.reads items value hsame
  unfold Database.decodeList
  rw [hvalue]
  simp [hread]

theorem claimFromRow_columns {c : ClaimRow}
    (hdeps : ReadsBack rt sq.parse (ReceiptRef.codec.list.write c.dependencyReceipts))
    (hresources : ReadsBack rt sq.parse (ResourceClaim.codec.list.write c.resources)) :
    Database.claimFromRow sq (c.columns rt) = .ok c := by
  have hrun : Database.claimIdent (k := .runId) c.runId.text = .ok c.runId := by
    rw [Database.claimIdent, Identifier.new_text]
  have hnode : Database.claimIdent (k := .nodeId) c.nodeId.text = .ok c.nodeId := by
    rw [Database.claimIdent, Identifier.new_text]
  have hbound : (c.number.get : Int).toNat < 2 ^ 32 ∧ 0 ≤ (c.number.get : Int) := by
    have := c.number.bound
    omega
  have hpos : 0 < (c.number.get : Int).toNat := by
    have := c.number.pos
    omega
  have hnumber : Database.claimNumber c.number.get = .ok c.number := by
    rw [Database.claimNumber, dif_pos hbound, PositiveU32.new, dif_pos hpos]
    rfl
  simp only [Database.claimFromRow, ClaimRow.columns, hrun, hnode, hnumber, decodeList_text hdeps,
    decodeList_text hresources, Int.toNat_natCast]
  obtain ⟨_, _, _, _, _, _, _, active, _, _⟩ := c
  cases active <;> rfl

theorem claimBefore_columns (a b : ClaimRow) :
    Database.claimBefore (a.columns rt) (b.columns rt) = claimBefore a b := by
  have hfence : ((a.fence : Int) ≤ b.fence) ↔ a.fence ≤ b.fence := by omega
  rw [Bool.eq_iff_iff]
  simp only [Database.claimBefore, claimBefore, Bool.or_eq_true, Bool.and_eq_true,
    decide_eq_true_eq]
  simp only [ClaimRow.columns, hfence]

theorem claimsOf_columns (run : RunId) :
    ((fun c : ClaimsRow => (c.runId = run.text : Bool)) ∘ (·.columns rt)) =
      fun c : ClaimRow => decide (c.runId = run) := by
  funext c
  simp [ClaimRow.columns, Identifier.ext_text_iff]

theorem claims_columns (hs : s.Readable rt sq) {cs : List ClaimRow} (h : ∀ c ∈ cs, c ∈ s.claims) :
    (cs.map (·.columns rt)).mapM (Database.claimFromRow sq) = .ok cs := by
  refine mapM_reads ?_
  intro c hc
  obtain ⟨hdeps, hresources⟩ := hs.claims c (h c hc)
  exact claimFromRow_columns hdeps hresources

theorem file_activeClaims (hs : s.Readable rt sq) :
    (s.file rt).activeClaims sq = .ok s.activeClaims := by
  have hkey : ((fun c : ClaimsRow => (c.active = 1 : Bool)) ∘ (·.columns rt)) =
      fun c : ClaimRow => c.active := by
    funext c
    simp [ClaimRow.columns]
  unfold Database.activeClaims activeClaims
  rw [file, List.filter_map, hkey, ← List.map_insertionSort (fun a b => claimBefore a b)]
  · refine claims_columns hs ?_
    intro c hc
    exact (List.mem_filter.mp ((List.mem_insertionSort _).mp hc)).1
  · intro a _ b _
    rw [claimBefore_columns]

/-- `claims`. -/
def readClaims (s : Store) (run : RunId) : List ClaimRow :=
  (s.claims.filter (fun c => c.runId = run)).insertionSort (fun a b => a.fence ≤ b.fence)

theorem file_readClaims (hs : s.Readable rt sq) (run : RunId) :
    (s.file rt).readClaims sq run.text = .ok (s.readClaims run) := by
  unfold Database.readClaims readClaims
  rw [file, List.filter_map, claimsOf_columns,
    ← List.map_insertionSort (fun a b : ClaimRow => a.fence ≤ b.fence)]
  · refine claims_columns hs ?_
    intro c hc
    exact (List.mem_filter.mp ((List.mem_insertionSort _).mp hc)).1
  · intro a _ b _
    exact Int.ofNat_le.symm

theorem file_claim (hs : s.Readable rt sq) (run : RunId) (node : NodeId) (number : Nat) :
    (s.file rt).claim sq run.text node.text number = .ok (s.claim run node number) := by
  have hkey : ((fun c : ClaimsRow => (c.runId = run.text && c.nodeId = node.text &&
      c.number = (number : Int) : Bool)) ∘ (·.columns rt)) = fun c : ClaimRow =>
        decide (c.runId = run ∧ c.nodeId = node ∧ c.number.get = number) := by
    funext c
    simp [ClaimRow.columns, Identifier.ext_text_iff, Bool.and_assoc]
  unfold Database.claim claim
  rw [file, List.find?_map, hkey]
  cases h : s.claims.find? (fun c => c.runId = run ∧ c.nodeId = node ∧ c.number.get = number) with
  | none => rfl
  | some c =>
    have hread := hs.claims c (List.mem_of_find?_eq_some h)
    rw [Option.map_some]
    dsimp only
    rw [claimFromRow_columns hread.1 hread.2]
    rfl

theorem file_nextFence (run : RunId) : (s.file rt).nextFence run.text = s.nextFence run := by
  have hmax : ∀ (xs : List ClaimRow) (n : Nat),
      ((xs.map (ClaimsRow.fence ∘ (·.columns rt))).foldl max (n : Int)) =
        ((xs.map (·.fence)).foldl max n : Nat) := by
    intro xs
    induction xs with
    | nil => exact fun n => rfl
    | cons c xs ih =>
      intro n
      have hstep : max (n : Int) c.fence = (max n c.fence : Nat) := by omega
      simp only [List.map_cons, List.foldl_cons, Function.comp_apply, ClaimRow.columns, hstep]
      exact ih _
  unfold Database.nextFence nextFence
  rw [file, List.filter_map, claimsOf_columns, List.map_map]
  have hzero := hmax (s.claims.filter (fun c => c.runId = run)) 0
  rw [Int.natCast_zero] at hzero
  rw [hzero, Int.toNat_natCast]

end Store

end

/-! ### The summary of a run and the counts of rows (`store/mod.rs:1032-1089`, `1384-1389`) -/

namespace Database

variable (sq : Sqlite) (d : Database)

def judged (run : String) : List (AttemptsRow × Option ReceiptsRow) :=
  leftJoin (fun a r => r.runId = a.runId && r.nodeId = a.nodeId && r.number = a.number)
    (d.attempts.filter (fun a => a.runId = run)) d.receipts

def summaryOf (run node : String) : Except DbError NodeSummary := do
  let group := (d.judged run).filter (fun row => row.1.nodeId = node)
  let nodeId ← corruptIdent node
  .ok { nodeId := nodeId
        attempts := (group.map (fun row => row.1.number)).dedup.length
        receipts := group.countP (fun row => row.2.isSome)
        lastVerdict := (d.receipts.filter
          (fun r => r.runId = run && r.nodeId = node)).getLast?.map (·.verdict) }

/-- `GROUP BY node_id ORDER BY node_id`. -/
def summary (run : String) : Except DbError (List NodeSummary) :=
  let nodes := ((d.judged run).map (fun row => row.1.nodeId)).dedup
  (KeyedSort.sortOn id nodes).mapM (d.summaryOf run)

def TableName.text : TableName → String
  | graphs => "graphs"
  | runs => "runs"
  | events => "events"
  | attempts => "attempts"
  | receipts => "receipts"
  | gatePackets => "gate_packets"
  | gateDecisions => "gate_decisions"
  | claims => "claims"
  | artifacts => "artifacts"

def TableName.all : List TableName :=
  [.graphs, .runs, .events, .attempts, .receipts, .gatePackets, .gateDecisions, .claims, .artifacts]

def count (n : TableName) : Nat := ((table sq n).rows d).length

def rowCounts : List (String × Nat) := TableName.all.map (fun n => (n.text, d.count sq n))

end Database

namespace Store

variable {rt : Runtime} {sq : Sqlite} {s : Store}

def count (s : Store) : Database.TableName → Nat
  | .graphs => s.graphs.length
  | .runs => s.runs.length
  | .events => s.events.length
  | .attempts => s.attempts.length
  | .receipts => s.receipts.length
  | .gatePackets => s.gatePackets.length
  | .gateDecisions => s.gateDecisions.length
  | .claims => s.claims.length
  | .artifacts => s.artifacts.length

def rowCounts (s : Store) : List (String × Nat) :=
  Database.TableName.all.map (fun n => (n.text, s.count n))

theorem file_count (n : Database.TableName) : (s.file rt).count sq n = s.count n := by
  cases n <;> exact List.length_map _

theorem file_rowCounts : (s.file rt).rowCounts sq = s.rowCounts := by
  unfold Database.rowCounts rowCounts
  simp only [file_count]

theorem file_judged (run : RunId) : (s.file rt).judged run.text =
    (s.judged run).map (Prod.map (·.columns rt) (Option.map (·.columns rt))) := by
  have hkey : ((fun a : AttemptsRow => (a.runId = run.text : Bool)) ∘ (·.columns rt)) =
      fun a : Attempt => decide (a.runId = run) := by
    funext a
    simp [Attempt.columns, Identifier.ext_text_iff]
  unfold Database.judged judged
  rw [file, List.filter_map, hkey]
  refine map_leftJoin _ ?_ _ _
  intro a r
  rw [Bool.eq_iff_iff]
  simp only [Bool.and_eq_true, decide_eq_true_eq]
  simp [Attempt.columns, VerifierReceipt.columns, Attempt.key, VerifierReceipt.key,
    Identifier.ext_text_iff, PositiveU32.ext_get_iff, and_assoc]

theorem file_summaryOf (run : RunId) (node : NodeId) :
    (s.file rt).summaryOf run.text node.text = .ok (s.summaryOf run node) := by
  have hnode : Database.corruptIdent (k := .nodeId) node.text = .ok node := by
    rw [Database.corruptIdent, Identifier.new_text]
  have hgroup : ((s.file rt).judged run.text).filter (fun row => row.1.nodeId = node.text) =
      ((s.judged run).filter (fun row => row.1.node.nodeId = node)).map
        (Prod.map (·.columns rt) (Option.map (·.columns rt))) := by
    rw [file_judged, List.filter_map]
    congr 2
    funext row
    simp [Attempt.columns, Identifier.ext_text_iff]
  have hreceipts : (s.file rt).receipts.filter
      (fun r => r.runId = run.text && r.nodeId = node.text) =
        (s.receiptsOf run node).map (·.columns rt) := by
    rw [file, receiptsOf, List.filter_map]
    congr 2
    funext r
    simp [VerifierReceipt.columns, Identifier.ext_text_iff]
  have hnumbers : ∀ rows : List (Attempt × Option VerifierReceipt),
      ((rows.map (Prod.map (·.columns rt) (Option.map (·.columns rt)))).map
        (fun row => row.1.number)).dedup.length =
          (rows.map (fun row => row.1.number)).dedup.length := by
    intro rows
    have hinj : Function.Injective (fun k : AttemptNumber => (k.get : Int)) := by
      intro a b h
      exact PositiveU32.ext_get (Int.ofNat_inj.mp h)
    have hdedup := List.dedup_map_of_injective hinj (rows.map (fun row => row.1.number))
    rw [List.map_map] at hdedup ⊢
    exact (congrArg List.length hdedup).trans (List.length_map _)
  unfold Database.summaryOf summaryOf
  rw [hgroup, hreceipts, hnode]
  dsimp only
  rw [hnumbers, List.countP_map, List.getLast?_map, Option.map_map]
  have hsome : ((fun row : AttemptsRow × Option ReceiptsRow => row.2.isSome) ∘
      Prod.map (·.columns rt) (Option.map (·.columns rt))) =
        fun row : Attempt × Option VerifierReceipt => row.2.isSome := by
    funext row
    exact Option.isSome_map
  rw [hsome]
  rfl

theorem file_summary (run : RunId) : (s.file rt).summary run.text = .ok (s.summary run) := by
  have hnodes : (((s.file rt).judged run.text).map (fun row => row.1.nodeId)).dedup =
      (((s.judged run).map (fun row => row.1.node.nodeId)).dedup).map Identifier.text := by
    rw [file_judged, ← List.dedup_map_of_injective (fun a b h => Identifier.ext_text h),
      List.map_map, List.map_map]
    rfl
  unfold Database.summary summary
  dsimp only
  rw [hnodes, KeyedSort.sortOn_map]
  change ((KeyedSort.sortOn Identifier.text _).map Identifier.text).mapM _ = _
  generalize KeyedSort.sortOn Identifier.text _ = nodes
  induction nodes with
  | nil => rfl
  | cons node rest ih =>
    rw [List.map_cons, List.mapM_cons, file_summaryOf, ih]
    rfl

end Store

/-! ### Replay -/

namespace StoredEvent

variable {e e' : StoredEvent}

theorem rel_cases {o o' : Option Json} (h : Option.Rel Json.Same o o') :
    (o = none ∧ o' = none) ∨ ∃ v w, o = some v ∧ o' = some w ∧ v.Same w := by
  cases h with
  | none => exact Or.inl ⟨rfl, rfl⟩
  | some hsame => exact Or.inr ⟨_, _, rfl, rfl, hsame⟩

theorem get_same {j k : Json} (h : j.Same k) (name : String) :
    Option.Rel Json.Same (j.get name) (k.get name) := by
  cases h with
  | obj h => exact h name
  | _ => exact .none

theorem getNonNull_same {j k : Json} (h : j.Same k) (name : String) :
    Option.Rel Json.Same (j.getNonNull name) (k.getNonNull name) := by
  unfold Json.getNonNull
  rcases rel_cases (get_same h name) with ⟨hj, hk⟩ | ⟨v, w, hj, hk, hsame⟩
  · rw [hj, hk]
    exact .none
  · rw [hj, hk]
    cases hsame with
    | null => exact .none
    | bool b => exact .some (.bool b)
    | num n => exact .some (.num n)
    | float literal => exact .some (.float literal)
    | str s => exact .some (.str s)
    | arr h => exact .some (.arr h)
    | obj h => exact .some (.obj h)

/-- A decoder that looks at a document, not at the order of its entries. -/
def Settled {α : Type} (decode : Json → Except DecodeError α) : Prop :=
  ∀ v w, v.Same w → decode w = decode v

theorem settled_attemptNumber : Settled decodeAttemptNumber := by
  intro v w h
  cases h <;> rfl

theorem settled_ident : Settled decodeIdent := by
  intro v w h
  cases h <;> rfl

theorem settled_digest : Settled decodeDigest := by
  intro v w h
  cases h <;> rfl

theorem soleName_iff {fields : List (String × Json)} {s : String} :
    soleName fields = some s ↔ ∀ name, (fields.lookup name).isSome ↔ name = s := by
  cases fields with
  | nil => simp [soleName]
  | cons f rest =>
    obtain ⟨k, v⟩ := f
    simp only [soleName, List.lookup_isSome_iff, beq_iff_eq, List.mem_cons, exists_eq_or_imp]
    constructor
    · intro h name
      split at h
      · rename_i hall
        cases h
        constructor
        · rintro (rfl | ⟨p, hp, rfl⟩)
          · rfl
          · exact of_decide_eq_true (List.all_eq_true.mp hall p hp)
        · exact Or.inl
      · cases h
    · intro h
      have hk : k = s := (h k).mp (Or.inl rfl)
      subst hk
      refine if_pos (List.all_eq_true.mpr ?_)
      intro p hp
      exact decide_eq_true ((h p.1).mp (Or.inr ⟨p, hp, rfl⟩))

theorem soleName_same {fs gs : List (String × Json)}
    (h : ∀ name, Option.Rel Json.Same (Json.entry fs name) (Json.entry gs name)) :
    soleName gs = soleName fs := by
  have hdefined : ∀ name, (gs.lookup name).isSome ↔ (fs.lookup name).isSome := by
    intro name
    rcases rel_cases (h name) with ⟨hf, hg⟩ | ⟨v, w, hf, hg, -⟩
    · rw [Json.entry] at hf hg
      rw [hf, hg]
    · rw [Json.entry] at hf hg
      simp [hf, hg]
  refine Option.ext fun s => ?_
  simp only [soleName_iff, hdefined]

theorem settled_enum {α : Type} (all : List α) (asStr : α → String) :
    Settled (decodeEnum all asStr) := by
  intro v w h
  cases h with
  | @obj fs gs h =>
    unfold decodeEnum
    dsimp only
    rw [soleName_same h]
    cases soleName fs with
    | none => rfl
    | some s =>
      dsimp only
      rcases rel_cases (h s) with ⟨hf, hg⟩ | ⟨v, w, hf, hg, hsame⟩
      · rw [Json.entry] at hf hg
        rw [hf, hg]
      · rw [Json.entry] at hf hg
        rw [hf, hg]
        cases decodeVariant all asStr s with
        | error e => rfl
        | ok a => cases hsame <;> rfl
  | _ => rfl

theorem field_same (h : e.Same e') (name : String) {α : Type} {decode : Json → Except DecodeError α}
    (hdecode : Settled decode) : NodeEvent.field e' name decode =
    NodeEvent.field e name decode := by
  unfold NodeEvent.field
  rw [h.seq, h.kind]
  rcases rel_cases (getNonNull_same h.payload name) with ⟨hv, hw⟩ | ⟨v, w, hv, hw, hsame⟩
  · rw [hv, hw]
  · rw [hv, hw]
    dsimp only
    rw [hdecode v w hsame]

theorem optionalField_same (h : e.Same e') (name : String) {α : Type}
    {decode : Json → Except DecodeError α} (hdecode : Settled decode) :
    NodeEvent.optionalField e' name decode = NodeEvent.optionalField e name decode := by
  unfold NodeEvent.optionalField
  rw [h.seq, h.kind]
  rcases rel_cases (getNonNull_same h.payload name) with ⟨hv, hw⟩ | ⟨v, w, hv, hw, hsame⟩
  · rw [hv, hw]
  · rw [hv, hw]
    dsimp only
    rw [hdecode v w hsame]

theorem fromStored_same (h : e.Same e') (node : NodeRef) :
    NodeEvent.fromStored e' node = NodeEvent.fromStored e node := by
  have houtcome : Settled decodeOutcome := settled_enum _ _
  have hverdict : Settled decodeVerdict := settled_enum _ _
  have hdecision : Settled decodeDecision := settled_enum _ _
  unfold NodeEvent.fromStored
  rw [h.kind, h.runId, h.seq, field_same h _ settled_attemptNumber, field_same h _ settled_ident,
    field_same h _ settled_ident, optionalField_same h _ settled_digest, field_same h _ houtcome,
    field_same h _ hverdict, field_same h _ hdecision]

theorem applyStored_same (h : e.Same e') (st : RunState) : st.applyStored e' =
    st.applyStored e := by
  unfold RunState.applyStored
  rw [h.nodeId]
  simp only [fromStored_same h]

theorem replayFrom_same {es es' : List StoredEvent} (h : List.Forall₂ Same es es')
    (st : RunState) : st.replayFrom es' = st.replayFrom es := by
  induction h generalizing st with
  | nil => rfl
  | cons hsame _ ih =>
    unfold RunState.replayFrom
    rw [applyStored_same hsame]
    split
    · rfl
    · exact ih _

end StoredEvent

/-! ### Every read -/

/-- The reads of the file against those of the ledger. -/
structure Store.ReadFrom (rt : Runtime) (sq : Sqlite) (s : Store) (d : Database) : Prop where
  events : ∀ run, ∃ es, d.eventsOf sq run.text = .ok es ∧
    List.Forall₂ StoredEvent.Same (s.eventsOf run) es ∧
    ∀ spec, RunState.replay run spec es = s.replay run spec
  receipt : ∀ (run : RunId) receiptId,
    d.receipt sq run.text receiptId = onFile id (s.receipt run receiptId)
  attempt : ∀ (run : RunId) (node : NodeId) number,
    d.attempt sq run.text node.text number = onFile id (s.attempt run node number)
  run : ∀ run : RunId, d.readRun sq run.text = onFile id (s.run run)
  graph : ∀ ref, d.loadGraph sq ref = onFile id (s.loadGraph ref)
  attempts : ∀ (run : RunId) (node : NodeId),
    d.readAttempts sq run.text node.text = onFile id (s.readAttempts run node)
  gatePackets : ∀ run : RunId,
    d.readGatePackets sq run.text = onFile id (s.readGatePackets run)
  revoked : ∀ run : RunId, d.revokedReceipts sq run.text = .ok (s.revokedReceipts run)
  dispatched : ∀ run : RunId, d.dispatchCount run.text = s.dispatchCount run
  active : d.activeClaims sq = .ok s.activeClaims
  claims : ∀ run : RunId, d.readClaims sq run.text = .ok (s.readClaims run)
  claim : ∀ (run : RunId) (node : NodeId) number,
    d.claim sq run.text node.text number = .ok (s.claim run node number)
  fence : ∀ run : RunId, d.nextFence run.text = s.nextFence run
  summary : ∀ run : RunId, d.summary run.text = .ok (s.summary run)
  count : ∀ n, d.count sq n = s.count n
  rowCounts : d.rowCounts sq = s.rowCounts

theorem Store.Readable.readFrom {rt : Runtime} {sq : Sqlite} {s : Store} (hs : s.Readable rt sq)
    (hsound : (s.file rt).Sound sq) : s.ReadFrom rt sq (s.file rt) where
  events run := by
    obtain ⟨es, hread, hall⟩ := file_eventsOf hs hsound run
    exact ⟨es, hread, hall, fun spec => StoredEvent.replayFrom_same hall (RunState.new run spec)⟩
  receipt := file_receipt hs
  attempt := file_attempt hs
  run := file_run hs
  graph := file_loadGraph hs
  attempts := file_readAttempts hs
  gatePackets := file_readGatePackets hs
  revoked := file_revokedReceipts hs
  dispatched := file_dispatchCount
  active := file_activeClaims hs
  claims := file_readClaims hs
  claim := file_claim hs
  fence := file_nextFence
  summary := file_summary
  count := file_count
  rowCounts := file_rowCounts

end Checkspan
