import Mathlib.Logic.Relation
import Checkspan.Database

/-!
# Transactions on the file

The statements of the store in any order, in transactions that commit or leave the file as it
was. What the schema declares holds after any of them, and nothing that was committed changes
but a claim, which is released once.
-/

namespace Checkspan

open Relational

inductive Statement where
  | storeGraph (spec : GraphSpec)
  | createRun (run : GraphRun)
  | appendEvent (run : RunId) (node : Option NodeId) (kind : String) (payload : Json)
  | insertAttempt (attempt : Attempt)
  | sealAttempt (attempt : Attempt)
  | insertReceipt (receipt : VerifierReceipt)
  | insertGatePacket (packet : GatePacket)
  | insertGateDecision (run : RunId) (decision : GateDecision)
  | insertArtifact (run : RunId) (artifact : ArtifactRef)
  | insertClaim (now : String) (claim : ClaimRow)
  | releaseClaim (run : RunId) (node : NodeId) (number fence : Nat) (release : String)
  | revokeReceipt (run : RunId) (receiptId reason : String)

/-- The statements of one transaction, which the first error ends. -/
def issue {σ ε : Type} (perform : Statement → σ → Except ε (Bool × σ)) :
    List Statement → σ → Except ε (List Bool × σ)
  | [], s => .ok ([], s)
  | statement :: rest, s => do
    let (answer, s) ← perform statement s
    let (answers, s) ← issue perform rest s
    .ok (answer :: answers, s)

/-- `transaction` (`store/mod.rs:722-736`): what the statements did, or nothing. -/
def commit {σ ε α : Type} (s : σ) : Except ε (α × σ) → Except ε α × σ
  | .ok (a, s') => (.ok a, s')
  | .error e => (.error e, s)

/-- Transactions one after another: the answers of each. -/
def transactions {σ ε : Type} (perform : Statement → σ → Except ε (Bool × σ)) :
    List (List Statement) → σ → List (Except ε (List Bool)) × σ
  | [], s => ([], s)
  | batch :: rest, s =>
    let out := commit s (issue perform batch s)
    let later := transactions perform rest out.2
    (out.1 :: later.1, later.2)

namespace Database

/-- A statement, and whether it inserted or released where it reports that. -/
def perform (sq : Sqlite) (rt : Runtime) : Statement → Database → Except DbError (Bool × Database)
  | .storeGraph spec, d => d.storeGraph rt spec
  | .createRun run, d => (d.createRun sq rt run).map (true, ·)
  | .appendEvent run node kind payload, d =>
    (d.appendEvent sq rt run node kind payload).map (true, ·)
  | .insertAttempt a, d => (d.insertAttempt rt a).map (true, ·)
  | .sealAttempt a, d => (d.sealAttempt sq rt a).map (true, ·)
  | .insertReceipt r, d => (d.insertReceipt rt r).map (true, ·)
  | .insertGatePacket p, d => (d.insertGatePacket rt p).map (true, ·)
  | .insertGateDecision run g, d => (d.insertGateDecision rt run g).map (true, ·)
  | .insertArtifact run a, d => (d.insertArtifact run a).map (true, ·)
  | .insertClaim now c, d => (d.insertClaim rt now c).map (true, ·)
  | .releaseClaim run node number fence release, d => d.releaseClaim run node number fence release
  | .revokeReceipt run receiptId reason, d =>
    (d.revokeReceipt sq rt run receiptId reason).map (true, ·)

/-! ### What a statement writes -/

inductive TableName where
  | graphs
  | runs
  | events
  | attempts
  | receipts
  | gatePackets
  | gateDecisions
  | claims
  | artifacts
deriving DecidableEq

def TableName.Row : TableName → Type
  | graphs => GraphsRow
  | runs => RunsRow
  | events => EventsRow
  | attempts => AttemptsRow
  | receipts => ReceiptsRow
  | gatePackets => GatePacketsRow
  | gateDecisions => GateDecisionsRow
  | claims => ClaimsRow
  | artifacts => ArtifactsRow

def table (sq : Sqlite) : (n : TableName) → Table Database n.Row
  | .graphs => graphsTable
  | .runs => runsTable
  | .events => eventsTable sq
  | .attempts => attemptsTable
  | .receipts => receiptsTable
  | .gatePackets => gatePacketsTable
  | .gateDecisions => gateDecisionsTable
  | .claims => claimsTable
  | .artifacts => artifactsTable

/-- One write of SQLite: a row, an event with its number, or a release. -/
inductive Wrote (sq : Sqlite) (d : Database) : Database → Prop
  | row (n : TableName) (row : n.Row) {d' : Database} (hn : n ≠ .events)
      (h : (table sq n).insert row d = .ok d') : Wrote sq d d'
  | event (row : EventsRow) {d' : Database} (hseq : row.seq = d.sequence + 1)
      (h : (eventsTable sq).insert row d = .ok d') :
      Wrote sq d { d' with sequence := d'.sequence + 1 }
  | release (selected : ClaimsRow → Bool) (release : String) {n : Nat} {d' : Database}
      (h : claimsTable.update selected (released release) d = .ok (n, d')) : Wrote sq d d'

section

variable {sq : Sqlite} {rt : Runtime} {d d' : Database}

theorem constrained_ok {e : StoreError} {x : Except Violation Database}
    (h : constrained e x = .ok d) : x = .ok d := by
  cases x with
  | ok d' =>
    cases h
    rfl
  | error v => cases h

theorem appendEvent_wrote {run : RunId} {node : Option NodeId} {kind : String} {payload : Json}
    (h : d.appendEvent sq rt run node kind payload = .ok d') : Wrote sq d d' := by
  unfold appendEvent at h
  obtain ⟨_, -, h⟩ := bind_ok h
  obtain ⟨d₁, h₁, h⟩ := bind_ok h
  cases h
  exact .event _ rfl (constrained_ok h₁)

theorem insertAttempt_wrote {a : Attempt} (h : d.insertAttempt rt a = .ok d') : Wrote sq d d' := by
  obtain ⟨_, -, h⟩ := bind_ok h
  exact .row .attempts _ (by decide) (constrained_ok h)

theorem storeGraph_wrote {spec : GraphSpec} {b : Bool} (h : d.storeGraph rt spec = .ok (b, d')) :
    Relation.ReflTransGen (Wrote sq) d d' := by
  unfold storeGraph at h
  split at h
  · cases h
  · obtain ⟨_, -, h⟩ := bind_ok h
    split at h
    · split at h
      · cases h
        exact .refl
      · cases h
    · split at h
      · rename_i hinsert
        cases h
        exact .single (.row .graphs _ (by decide) hinsert)
      · cases h

theorem insertOrIgnore_inserted {ρ : Type} {t : Table Database ρ} {row : ρ}
    (h : t.insertOrIgnore row d = .ok (true, d')) : t.insert row d = .ok d' := by
  unfold Table.insertOrIgnore at h
  split at h
  · rename_i hinsert
    cases h
    exact hinsert
  all_goals cases h

theorem createRun_wrote {run : GraphRun} (h : d.createRun sq rt run = .ok d') :
    Relation.ReflTransGen (Wrote sq) d d' := by
  unfold createRun at h
  obtain ⟨_, -, h⟩ := bind_ok h
  split at h
  · split at h
    · cases h
    · cases h
    · rename_i hinsert
      have hrun : Wrote sq d _ := .row .runs _ (by decide) (insertOrIgnore_inserted hinsert)
      exact .tail (.single hrun) (appendEvent_wrote h)
  · cases h

theorem releaseClaim_wrote {run : RunId} {node : NodeId} {number fence : Nat} {release : String}
    {b : Bool} (h : d.releaseClaim run node number fence release = .ok (b, d')) :
    Wrote sq d d' := by
  unfold releaseClaim at h
  split at h
  · rename_i hupdate
    cases h
    exact .release _ _ hupdate
  · cases h

/-- Every statement is a sequence of writes. -/
theorem perform_wrote {statement : Statement} {b : Bool}
    (h : perform sq rt statement d = .ok (b, d')) : Relation.ReflTransGen (Wrote sq) d d' := by
  cases statement with
  | storeGraph spec => exact storeGraph_wrote h
  | createRun run =>
    obtain ⟨d₁, h₁, heq⟩ := map_ok h
    cases heq
    exact createRun_wrote h₁
  | appendEvent run node kind payload =>
    obtain ⟨d₁, h₁, heq⟩ := map_ok h
    cases heq
    exact .single (appendEvent_wrote h₁)
  | insertAttempt a =>
    obtain ⟨d₁, h₁, heq⟩ := map_ok h
    cases heq
    exact .single (insertAttempt_wrote h₁)
  | sealAttempt a =>
    obtain ⟨d₁, h₁, heq⟩ := map_ok h
    cases heq
    obtain ⟨d₂, h₂, h₃⟩ := bind_ok h₁
    exact .tail (.single (insertAttempt_wrote h₂)) (appendEvent_wrote h₃)
  | insertReceipt r =>
    obtain ⟨d₁, h₁, heq⟩ := map_ok h
    cases heq
    obtain ⟨_, -, h₂⟩ := bind_ok h₁
    exact .single (.row .receipts _ (by decide) (constrained_ok h₂))
  | insertGatePacket p =>
    obtain ⟨d₁, h₁, heq⟩ := map_ok h
    cases heq
    obtain ⟨_, -, h₂⟩ := bind_ok h₁
    exact .single (.row .gatePackets _ (by decide) (constrained_ok h₂))
  | insertGateDecision run g =>
    obtain ⟨d₁, h₁, heq⟩ := map_ok h
    cases heq
    obtain ⟨_, -, h₂⟩ := bind_ok h₁
    exact .single (.row .gateDecisions _ (by decide) (constrained_ok h₂))
  | insertArtifact run a =>
    obtain ⟨d₁, h₁, heq⟩ := map_ok h
    cases heq
    obtain ⟨_, -, h₂⟩ := bind_ok h₁
    exact .single (.row .artifacts _ (by decide) (constrained_ok h₂))
  | insertClaim now c =>
    obtain ⟨d₁, h₁, heq⟩ := map_ok h
    cases heq
    exact .single (.row .claims _ (by decide) (constrained_ok h₁))
  | releaseClaim run node number fence release => exact .single (releaseClaim_wrote h)
  | revokeReceipt run receiptId reason =>
    obtain ⟨d₁, h₁, heq⟩ := map_ok h
    cases heq
    unfold revokeReceipt at h₁
    split at h₁
    · exact .single (appendEvent_wrote h₁)
    · cases h₁

theorem issue_wrote {batch : List Statement} {answers : List Bool}
    (h : issue (perform sq rt) batch d = .ok (answers, d')) :
    Relation.ReflTransGen (Wrote sq) d d' := by
  induction batch generalizing d answers with
  | nil =>
    cases h
    exact .refl
  | cons statement rest ih =>
    obtain ⟨⟨answer, d₁⟩, h₁, h⟩ := bind_ok h
    obtain ⟨⟨rest', d₂⟩, h₂, h⟩ := bind_ok h
    cases h
    exact (perform_wrote h₁).trans (ih h₂)

theorem transactions_wrote (batches : List (List Statement)) (d : Database) :
    Relation.ReflTransGen (Wrote sq) d (transactions (perform sq rt) batches d).2 := by
  induction batches generalizing d with
  | nil => exact .refl
  | cons batch rest ih =>
    unfold transactions
    dsimp only
    cases h : issue (perform sq rt) batch d with
    | ok out => exact (issue_wrote h).trans (ih out.2)
    | error e => exact ih d

end

/-! ### What the file keeps -/

/-- A claim as it was, or released since. -/
def ClaimKept (a b : ClaimsRow) : Prop :=
  b = a ∨ (a.active ≠ 0 ∧ ∃ release, b = released release a)

/-- What one state of the file keeps of an earlier one. -/
structure Extends (sq : Sqlite) (d d' : Database) : Prop where
  rows : ∀ n, n ≠ .claims → (table sq n).rows d <+: (table sq n).rows d'
  claims : ∀ (i : Nat) a, d.claims[i]? = some a → ∃ b, d'.claims[i]? = some b ∧ ClaimKept a b
  sequence : d.sequence ≤ d'.sequence

/-- The declared keys, checks and references of every table, the order of the log, and the row
behind every admission. -/
structure Sound (sq : Sqlite) (d : Database) : Prop where
  keeps : ∀ n, (table sq n).Keeps d
  ordered : d.events.Pairwise (fun a b => a.seq < b.seq)
  numbered : ∀ e ∈ d.events, 1 ≤ e.seq ∧ e.seq ≤ d.sequence
  counted : 0 ≤ d.sequence
  admitted : ∀ e ∈ d.events, e.kind = "receipt_admitted" → ∃ r ∈ d.receipts, r.runId = e.runId ∧
    (sq.receiptId e.payloadJson).equals r.receiptId = true

section

variable {sq : Sqlite} {d d' d'' : Database}

theorem ClaimKept.trans {a b c : ClaimsRow} (hab : ClaimKept a b) (hbc : ClaimKept b c) :
    ClaimKept a c := by
  rcases hab with rfl | ⟨hactive, release, rfl⟩
  · exact hbc
  · rcases hbc with rfl | ⟨hreleased, -⟩
    · exact Or.inr ⟨hactive, release, rfl⟩
    · exact absurd rfl hreleased

theorem Extends.refl (d : Database) : Extends sq d d where
  rows _ _ := List.prefix_rfl
  claims _ a h := ⟨a, h, Or.inl rfl⟩
  sequence := le_refl _

theorem Extends.trans (h : Extends sq d d') (h' : Extends sq d' d'') : Extends sq d d'' where
  rows n hn := (h.rows n hn).trans (h'.rows n hn)
  claims i a ha := by
    obtain ⟨b, hb, hab⟩ := h.claims i a ha
    obtain ⟨c, hc, hbc⟩ := h'.claims i b hb
    exact ⟨c, hc, hab.trans hbc⟩
  sequence := h.sequence.trans h'.sequence

theorem table_lawful (n : TableName) : (table sq n).Lawful := by
  intro rows d
  cases n <;> rfl

theorem rows_put_other {m n : TableName} (h : m ≠ n) (rows : List n.Row) (d : Database) :
    (table sq m).rows ((table sq n).put rows d) = (table sq m).rows d := by
  cases m <;> cases n <;> first | rfl | exact absurd rfl h

theorem any_prefix {α : Type} {p : α → Bool} {xs ys : List α} (h : xs <+: ys)
    (hany : xs.any p = true) : ys.any p = true := by
  obtain ⟨zs, rfl⟩ := h
  rw [List.any_append, hany, Bool.true_or]

/-- A row that is referred to stays. -/
theorem Extends.refers (h : Extends sq d d') (n : TableName) (row : n.Row)
    (hrow : (table sq n).refers d row = true) : (table sq n).refers d' row = true := by
  have hgraphs := h.rows .graphs (by decide)
  have hruns := h.rows .runs (by decide)
  have hattempts := h.rows .attempts (by decide)
  have hpackets := h.rows .gatePackets (by decide)
  cases n with
  | graphs => rfl
  | runs => exact any_prefix hgraphs hrow
  | receipts => exact any_prefix hattempts hrow
  | gateDecisions => exact any_prefix hpackets hrow
  | events => exact any_prefix hruns hrow
  | attempts => exact any_prefix hruns hrow
  | gatePackets => exact any_prefix hruns hrow
  | claims => exact any_prefix hruns hrow
  | artifacts => exact any_prefix hruns hrow

theorem table_prefix {n : TableName} {row : n.Row} (h : (table sq n).insert row d = .ok d')
    (m : TableName) : (table sq m).rows d <+: (table sq m).rows d' := by
  obtain ⟨-, -, -, -, rfl⟩ := Table.insert_eq_ok.mp h
  by_cases hm : m = n
  · subst hm
    rw [table_lawful]
    exact List.prefix_append _ _
  · rw [rows_put_other hm]

theorem insert_sequence {n : TableName} {row : n.Row} (h : (table sq n).insert row d = .ok d') :
    d'.sequence = d.sequence := by
  obtain ⟨-, -, -, -, rfl⟩ := Table.insert_eq_ok.mp h
  cases n <;> rfl

theorem insert_extends {n : TableName} {row : n.Row} (h : (table sq n).insert row d = .ok d') :
    Extends sq d d' where
  rows m _ := table_prefix h m
  claims i a ha := by
    have hclaims : d.claims <+: d'.claims := table_prefix h .claims
    obtain ⟨new, hnew⟩ := hclaims
    have hi := (List.getElem?_eq_some_iff.mp ha).1
    refine ⟨a, ?_, Or.inl rfl⟩
    rw [← hnew, List.getElem?_append_left hi, ha]
  sequence := (insert_sequence h).ge

theorem release_extends {selected : ClaimsRow → Bool} {release : String} {n : Nat}
    (h : claimsTable.update selected (released release) d = .ok (n, d')) : Extends sq d d' := by
  obtain ⟨hactive, -, rfl, -⟩ := Table.update_eq_ok h
  refine ⟨?_, ?_, le_refl _⟩
  · intro m hm
    have heq := @rows_put_other sq _ .claims hm
      (d.claims.map (fun r => if selected r then released release r else r)) d
    exact (List.prefix_rfl.trans (heq ▸ List.prefix_rfl))
  · intro i a ha
    refine ⟨if selected a then released release a else a, ?_, ?_⟩
    · change (d.claims.map _)[i]? = _
      rw [List.getElem?_map, ha]
      rfl
    · have hbefore := hactive a (List.mem_of_getElem? ha)
      unfold ClaimKept
      split
      · rename_i hselected
        exact Or.inr ⟨of_decide_eq_false (hbefore hselected), release, rfl⟩
      · exact Or.inl rfl

theorem Wrote.extends (h : Wrote sq d d') : Extends sq d d' := by
  cases h with
  | row n row hn h => exact insert_extends h
  | event row hseq h =>
    obtain ⟨hrows, hclaims, hsequence⟩ := insert_extends (n := .events) h
    refine ⟨?_, hclaims, by dsimp only; omega⟩
    intro m hm
    cases m <;> exact hrows _ hm
  | release selected release h => exact release_extends h

theorem keeps_insert {n : TableName} {row : n.Row} (hs : Sound sq d)
    (h : (table sq n).insert row d = .ok d') (m : TableName) : (table sq m).Keeps d' := by
  have hgrows := (insert_extends h).refers m
  by_cases hm : m = n
  · subst hm
    exact (hs.keeps m).insert (table_lawful m) h hgrows
  · refine (hs.keeps m).frame ?_ hgrows
    obtain ⟨-, -, -, -, rfl⟩ := Table.insert_eq_ok.mp h
    exact rows_put_other hm _ _

theorem rows_insert {n m : TableName} {row : n.Row} (h : (table sq n).insert row d = .ok d')
    (hm : m ≠ n) : (table sq m).rows d' = (table sq m).rows d := by
  obtain ⟨-, -, -, -, rfl⟩ := Table.insert_eq_ok.mp h
  exact rows_put_other hm _ _

theorem Sound.row (hs : Sound sq d) {n : TableName} {row : n.Row} (hn : n ≠ .events)
    (h : (table sq n).insert row d = .ok d') : Sound sq d' := by
  have hevents : d'.events = d.events := rows_insert h hn.symm
  have hreceipts := table_prefix h .receipts
  refine ⟨keeps_insert hs h, ?_, ?_, ?_, ?_⟩
  · rw [hevents]
    exact hs.ordered
  · rw [hevents, insert_sequence h]
    exact hs.numbered
  · rw [insert_sequence h]
    exact hs.counted
  · rw [hevents]
    intro e he hkind
    obtain ⟨r, hr, hrow⟩ := hs.admitted e he hkind
    exact ⟨r, hreceipts.subset hr, hrow⟩

/-- A table holds its rows whatever the next number of an event is. -/
theorem keeps_sequence (n : TableName) (k : Int) (h : (table sq n).Keeps d) :
    (table sq n).Keeps { d with sequence := k } := by
  cases n <;> exact ⟨h.keys, h.checks, h.references⟩

theorem Sound.event (hs : Sound sq d) {row : EventsRow} (hseq : row.seq = d.sequence + 1)
    (h : (eventsTable sq).insert row d = .ok d') :
    Sound sq { d' with sequence := d'.sequence + 1 } := by
  have hkeeps := keeps_insert (n := .events) hs h
  have hsequence := insert_sequence (n := .events) h
  obtain ⟨htrigger, -, -, -, rfl⟩ := Table.insert_eq_ok.mp h
  have hcounted := hs.counted
  have hevent : ∀ e, e ∈ d.events ++ [row] ↔ e ∈ d.events ∨ e = row := by simp
  refine ⟨fun n => keeps_sequence n _ (hkeeps n), ?_, ?_, ?_, ?_⟩
  · change (d.events ++ [row]).Pairwise _
    rw [List.pairwise_append]
    refine ⟨hs.ordered, List.pairwise_singleton _ _, ?_⟩
    intro e he e' he'
    rw [List.mem_singleton.mp he', hseq]
    have hle := (hs.numbered e he).2
    omega
  · intro e he
    change 1 ≤ e.seq ∧ e.seq ≤ d.sequence + 1
    rcases (hevent e).mp he with he | rfl
    · have hle := hs.numbered e he
      omega
    · omega
  · change 0 ≤ d.sequence + 1
    omega
  · intro e he hkind
    rcases (hevent e).mp he with he | rfl
    · exact hs.admitted e he hkind
    · simpa [eventsTable, hkind] using htrigger

theorem Sound.release (hs : Sound sq d) {selected : ClaimsRow → Bool} {release : String} {n : Nat}
    (h : claimsTable.update selected (released release) d = .ok (n, d')) : Sound sq d' := by
  have hgrows := (@release_extends sq _ _ _ _ _ h).refers
  have hclaims := Table.Keeps.update (@table_lawful sq .claims) h (hgrows .claims)
  obtain ⟨-, -, rfl, -⟩ := Table.update_eq_ok h
  refine ⟨?_, hs.ordered, hs.numbered, hs.counted, hs.admitted⟩
  intro m
  by_cases hm : m = .claims
  · subst hm
    exact hclaims
  · exact (hs.keeps m).frame (rows_put_other (n := .claims) hm _ d) (hgrows m)

theorem Wrote.sound (h : Wrote sq d d') (hs : Sound sq d) : Sound sq d' := by
  cases h with
  | row n row hn h => exact hs.row hn h
  | event row hseq h => exact hs.event hseq h
  | release selected release h => exact hs.release h

theorem empty_sound : Sound sq empty where
  keeps n := by cases n <;> exact ⟨List.Pairwise.nil, by rintro r ⟨⟩, by rintro r ⟨⟩⟩
  ordered := List.Pairwise.nil
  numbered := by rintro e ⟨⟩
  counted := le_refl _
  admitted := by rintro e ⟨⟩

theorem writes_keep (h : Relation.ReflTransGen (Wrote sq) d d') (hs : Sound sq d) :
    Sound sq d' ∧ Extends sq d d' := by
  induction h with
  | refl => exact ⟨hs, .refl d⟩
  | tail _ hwrote ih => exact ⟨hwrote.sound ih.1, ih.2.trans hwrote.extends⟩

end

end Database

/-- Whatever transactions run, with whatever records and payloads, the file keeps every declared
key, check and reference, numbers its events in order and holds the receipt of each admission;
and all it held at any time before is there unchanged, but for claims released since. -/
theorem schema_kept (sq : Sqlite) (rt : Runtime) (before after : List (List Statement)) :
    let d := (transactions (Database.perform sq rt) before Database.empty).2
    d.Sound sq ∧ d.Extends sq (transactions (Database.perform sq rt) after d).2 := by
  intro d
  have hbefore := @Database.transactions_wrote sq rt before Database.empty
  have hafter := @Database.transactions_wrote sq rt after d
  have hs := (Database.writes_keep hbefore Database.empty_sound).1
  exact ⟨hs, (Database.writes_keep hafter hs).2⟩

end Checkspan
