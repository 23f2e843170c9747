import Mathlib.Data.List.Permutation
import Mathlib.Data.String.Basic
import Checkspan.Lib.KeyedSort
import Checkspan.Contracts.Codecs
import Checkspan.Plays

/-!
# What the digest of the frozen inputs depends on (`src/digests/mod.rs:180-203`)

The evidence is sorted by port name and the receipts by id before they are hashed. Two
different records with one key keep the order they were given in, and the digest with it.
-/

namespace Checkspan

open KeyedSort

/-! ### The envelope of the inputs -/

/-- What an input manifest digest hashes. -/
def inputEnvelope (evidence : List EvidenceRef) (dependencyReceipts : List ReceiptRef) : Json :=
  .obj [("algorithm", .str "jcs-sha256@1"), ("kind", .str "checkspan.input_manifest@1"),
    ("body", .obj [
      ("evidence",
        .arr ((sortOn (fun e : EvidenceRef => e.portName.text) evidence).map (·.toJson))),
      ("dependency_receipts",
        .arr ((sortOn (fun r : ReceiptRef => r.id.text) dependencyReceipts).map (·.toJson)))])]

section

variable {rt : Runtime} {evidence evidence' : List EvidenceRef}
    {receipts receipts' : List ReceiptRef}

theorem inputManifestDigest_eq (rt : Runtime) (evidence : List EvidenceRef)
    (receipts : List ReceiptRef) :
    inputManifestDigest rt evidence receipts =
      envelopeDigest rt (inputEnvelope evidence receipts) :=
  rfl

/-! ### What the envelope tells -/

theorem codec_injective {α : Type} (c : Json.Codec α) {a b : α} (h : (c.write a).Same (c.write b)) :
    a = b :=
  Option.some.inj ((c.reads a _ h).symm.trans (c.reads b _ (Json.Same.refl _)))

theorem codec_list_injective {α : Type} (c : Json.Codec α) {xs ys : List α}
    (h : List.Forall₂ Json.Same (xs.map c.write) (ys.map c.write)) : xs = ys := by
  rw [List.forall₂_map_left_iff, List.forall₂_map_right_iff] at h
  induction h with
  | nil => rfl
  | cons hhead _ ih => rw [codec_injective c hhead, ih]

theorem same_field {fs gs : List (String × Json)} (h : (Json.obj fs).Same (.obj gs)) (name : String)
    {v w : Json} (hv : Json.entry fs name = some v) (hw : Json.entry gs name = some w) :
    v.Same w := by
  cases h with
  | obj hfields =>
    have hname := hfields name
    rw [hv, hw] at hname
    cases hname with
    | some hsame => exact hsame

theorem same_items {xs ys : List Json} (h : (Json.arr xs).Same (.arr ys)) :
    List.Forall₂ Json.Same xs ys := by
  cases h with
  | arr hitems => exact hitems

theorem inputEnvelope_same
    (h : (inputEnvelope evidence receipts).Same (inputEnvelope evidence' receipts')) :
    sortOn (fun e : EvidenceRef => e.portName.text) evidence =
        sortOn (fun e : EvidenceRef => e.portName.text) evidence' ∧
      sortOn (fun r : ReceiptRef => r.id.text) receipts =
        sortOn (fun r : ReceiptRef => r.id.text) receipts' := by
  have hbody := same_field h "body" rfl rfl
  exact ⟨codec_list_injective EvidenceRef.codec (same_items (same_field hbody "evidence" rfl rfl)),
    codec_list_injective ReceiptRef.codec
      (same_items (same_field hbody "dependency_receipts" rfl rfl))⟩

/-! ### The numbers of an envelope -/

theorem walkFields_eq_ok {path : String} {fields : List (String × Json)} :
    walkFields path fields = .ok () ↔
      ∀ f ∈ fields, walkNumbers (pointerPush path f.1) f.2 = .ok () := by
  induction fields with
  | nil => simp [walkFields]
  | cons f rest ih =>
    obtain ⟨k, v⟩ := f
    rw [List.forall_mem_cons, walkFields]
    cases walkNumbers (pointerPush path k) v with
    | ok u => simp [ih]
    | error e => simp

theorem mem_optField {name : String} {o : Option Json} {f : String × Json} :
    f ∈ Json.optField name o ↔ o = some f.2 ∧ f.1 = name := by
  obtain ⟨k, v⟩ := f
  cases o with
  | none => simp [Json.optField]
  | some w =>
    simp only [Json.optField, List.mem_singleton, Prod.mk.injEq, Option.some.injEq]
    exact ⟨fun h => ⟨h.2.symm, h.1⟩, fun h => ⟨h.2, h.1.symm⟩⟩

theorem walkNumbers_positive (path : String) (n : PositiveU32) :
    walkNumbers path n.toJson = .ok () := by
  have hbound := n.bound
  have hsafe : n.get ≤ maxSafeInteger := by
    unfold maxSafeInteger
    omega
  simp [PositiveU32.toJson, walkNumbers, hsafe]

theorem walkNumbers_evidence (path : String) (e : EvidenceRef) :
    walkNumbers path e.toJson = .ok () := by
  have hprovenance : ∀ p, walkNumbers p e.provenance.toJson = .ok () := by
    intro p
    rw [EvidenceProvenance.toJson, walkNumbers, walkFields_eq_ok]
    intro f hf
    rcases List.mem_cons.mp hf with rfl | hf
    · rfl
    · obtain ⟨hvalue, -⟩ := mem_optField.mp hf
      obtain ⟨s, -, hs⟩ := Option.map_eq_some_iff.mp hvalue
      rw [← hs]
      rfl
  have hpolicy : ∀ p, walkNumbers p e.policyRef.toJson = .ok () := by
    intro p
    simp [PolicyRef.toJson, Identifier.toJson, walkNumbers, walkFields, walkNumbers_positive]
  rw [EvidenceRef.toJson, walkNumbers, walkFields_eq_ok]
  intro f hf
  rcases List.mem_append.mp hf with hf | hf
  · simp only [List.mem_cons, List.not_mem_nil, or_false] at hf
    rcases hf with rfl | rfl | rfl | rfl | rfl | rfl | rfl
    · rfl
    · rfl
    · rfl
    · rfl
    · rfl
    · exact hprovenance _
    · exact hpolicy _
  · obtain ⟨hvalue, -⟩ := mem_optField.mp hf
    obtain ⟨t, -, ht⟩ := Option.map_eq_some_iff.mp hvalue
    rw [← ht]
    rfl

theorem walkNumbers_receipt (path : String) (r : ReceiptRef) :
    walkNumbers path r.toJson = .ok () := by
  simp [ReceiptRef.toJson, NodeRef.toJson, Identifier.toJson, walkNumbers, walkFields,
    walkNumbers_positive]

theorem walkItems_map {α : Type} {f : α → Json} {xs : List α}
    (h : ∀ p, ∀ a ∈ xs, walkNumbers p (f a) = .ok ()) (path : String) (i : Nat) :
    walkItems path i (xs.map f) = .ok () := by
  induction xs generalizing i with
  | nil => rfl
  | cons x rest ih =>
    have hrest := ih (fun p a ha => h p a (List.mem_cons_of_mem _ ha))
    simp [walkItems, h, hrest]

theorem checkEnvelopeNumbers_input (evidence : List EvidenceRef) (receipts : List ReceiptRef) :
    checkEnvelopeNumbers (inputEnvelope evidence receipts) = .ok () := by
  have hevidence := fun p (e : EvidenceRef)
    (_ : e ∈ sortOn (fun e : EvidenceRef => e.portName.text) evidence) => walkNumbers_evidence p e
  have hreceipts := fun p (r : ReceiptRef)
    (_ : r ∈ sortOn (fun r : ReceiptRef => r.id.text) receipts) => walkNumbers_receipt p r
  simp [checkEnvelopeNumbers, inputEnvelope, walkNumbers, walkFields, walkItems_map hevidence,
    walkItems_map hreceipts]

/-- A canonicalizer that writes every envelope gives each a digest. -/
theorem envelopeDigest_ok
    (htotal : ∀ v, checkEnvelopeNumbers v = .ok () → ∃ bytes, rt.jcs v = .ok bytes) {v : Json}
    (hsafe : checkEnvelopeNumbers v = .ok ()) : ∃ d, envelopeDigest rt v = .ok d := by
  obtain ⟨bytes, hbytes⟩ := htotal v hsafe
  refine ⟨artifactDigest rt bytes, ?_⟩
  rw [envelopeDigest, envelopeBytes, hsafe]
  simp only [jcsBytes, hbytes]
  rfl

theorem inputManifestDigest_ok
    (htotal : ∀ v, checkEnvelopeNumbers v = .ok () → ∃ bytes, rt.jcs v = .ok bytes)
    (evidence : List EvidenceRef) (receipts : List ReceiptRef) :
    ∃ d, inputManifestDigest rt evidence receipts = .ok d := by
  rw [inputManifestDigest_eq]
  exact envelopeDigest_ok htotal (checkEnvelopeNumbers_input evidence receipts)

end

/-! ### The order of assembly -/

/-- The hash of canonical envelopes tells the documents of a set apart. -/
def Runtime.InjectiveOn (rt : Runtime) (documents : Set Json) : Prop :=
  ∀ a ∈ documents, ∀ b ∈ documents, ∀ d, envelopeDigest rt a = .ok d →
    envelopeDigest rt b = .ok d → a.Same b

/-- With a canonicalizer that writes every envelope and a hash that tells apart the
documents at hand: the digest is the same for every order of assembly exactly when no
two different pieces of evidence share a port name and no two different receipts an id,
and inputs with one digest have the same evidence and receipts up to order. -/
theorem assembly_order (rt : Runtime)
    (htotal : ∀ v, checkEnvelopeNumbers v = .ok () → ∃ bytes, rt.jcs v = .ok bytes)
    {documents : Set Json} (hinjective : rt.InjectiveOn documents)
    (evidence : List EvidenceRef) (receipts : List ReceiptRef)
    (hmem : ∀ evidence' receipts', evidence'.Perm evidence → receipts'.Perm receipts →
      inputEnvelope evidence' receipts' ∈ documents) :
    ((∀ evidence' receipts', evidence'.Perm evidence → receipts'.Perm receipts →
        inputManifestDigest rt evidence' receipts' = inputManifestDigest rt evidence receipts) ↔
      Apart (fun e : EvidenceRef => e.portName.text) evidence ∧
        Apart (fun r : ReceiptRef => r.id.text) receipts) ∧
    ∀ evidence' receipts' d, inputEnvelope evidence' receipts' ∈ documents →
      inputManifestDigest rt evidence receipts = .ok d →
      inputManifestDigest rt evidence' receipts' = .ok d →
      evidence'.Perm evidence ∧ receipts'.Perm receipts := by
  have hrefl := hmem evidence receipts (List.Perm.refl _) (List.Perm.refl _)
  have hsorted : ∀ {e r d}, inputEnvelope e r ∈ documents →
      inputManifestDigest rt evidence receipts = .ok d → inputManifestDigest rt e r = .ok d →
      sortOn (fun e : EvidenceRef => e.portName.text) e =
          sortOn (fun e : EvidenceRef => e.portName.text) evidence ∧
        sortOn (fun r : ReceiptRef => r.id.text) r =
          sortOn (fun r : ReceiptRef => r.id.text) receipts :=
    fun hdoc hd hd' => inputEnvelope_same (hinjective _ hdoc _ hrefl _ hd' hd)
  refine ⟨⟨?_, ?_⟩, ?_⟩
  · intro hsame
    obtain ⟨d, hd⟩ := inputManifestDigest_ok htotal evidence receipts
    constructor
    · refine apart_of_sortOn ?_
      intro e he
      have hdoc := hmem e receipts he (List.Perm.refl _)
      exact (hsorted hdoc hd ((hsame e receipts he (List.Perm.refl _)).trans hd)).1
    · refine apart_of_sortOn ?_
      intro r hr
      have hdoc := hmem evidence r (List.Perm.refl _) hr
      exact (hsorted hdoc hd ((hsame evidence r (List.Perm.refl _) hr).trans hd)).2
  · rintro ⟨hevidence, hreceipts⟩ e r he hr
    rw [inputManifestDigest_eq, inputManifestDigest_eq, inputEnvelope, inputEnvelope,
      sortOn_eq_of_perm hevidence he, sortOn_eq_of_perm hreceipts hr]
  · intro e r d hdoc hd hd'
    obtain ⟨he, hr⟩ := hsorted hdoc hd hd'
    exact ⟨((sortOn_perm e).symm.trans (he ▸ sortOn_perm evidence)),
      ((sortOn_perm r).symm.trans (hr ▸ sortOn_perm receipts))⟩

namespace Pilot

/-- A string that needs no escape, as text. -/
def quoted (s : String) : String := "\"" ++ s ++ "\""

mutual

/-- The canonical text of a document without escapes: no blanks, the entries of an
object by name. -/
def canonical : Json → String
  | .null => "null"
  | .bool b => toString b
  | .num n => toString n
  | .float literal => literal
  | .str s => quoted s
  | .arr items => "[" ++ joinText "," (canonicalItems items) ++ "]"
  | .obj fields => "\x7b" ++ joinText "," ((sortOn Prod.fst (canonicalFields fields)).map
      (fun f => quoted f.1 ++ ":" ++ f.2)) ++ "\x7d"

def canonicalItems : List Json → List String
  | [] => []
  | item :: rest => canonical item :: canonicalItems rest

def canonicalFields : List (String × Json) → List (String × String)
  | [] => []
  | (name, value) :: rest => (name, canonical value) :: canonicalFields rest

end

/-- The receipts of one id that two runs issued. -/
def sharedReceipt (run : RunId) : ReceiptRef := { id := ident, runId := run, node := patchRef }

def inOrder : Json := inputEnvelope [] [sharedReceipt runId, sharedReceipt laterRunId]
def inTurn : Json := inputEnvelope [] [sharedReceipt laterRunId, sharedReceipt runId]

def canonicalBytes (v : Json) : List UInt8 := (canonical v).toUTF8.toList

/-- The canonicalizer, and a hash that tells the two documents apart. -/
def hashing : Runtime :=
  { text := canonical
    jcs := fun v => .ok (canonicalBytes v)
    sha256 := fun bytes =>
      if bytes = canonicalBytes inOrder then Combined.otherDigest else zeroDigest }

theorem hashing_total (v : Json) (_ : checkEnvelopeNumbers v = .ok ()) :
    ∃ bytes, hashing.jcs v = .ok bytes := ⟨_, rfl⟩

theorem canonicalBytes_ne : canonicalBytes inTurn ≠ canonicalBytes inOrder := by decide +kernel

theorem hashing_digests : envelopeDigest hashing inOrder = .ok Combined.otherDigest ∧
    envelopeDigest hashing inTurn = .ok zeroDigest := by
  have hinput : ∀ e r, envelopeDigest hashing (inputEnvelope e r) =
      .ok (hashing.sha256 (canonicalBytes (inputEnvelope e r))) := by
    intro e r
    rw [envelopeDigest, envelopeBytes, checkEnvelopeNumbers_input]
    rfl
  exact ⟨(hinput _ _).trans (congrArg Except.ok (if_pos rfl)),
    (hinput _ _).trans (congrArg Except.ok (if_neg canonicalBytes_ne))⟩

theorem hashing_injective : hashing.InjectiveOn {v | v = inOrder ∨ v = inTurn} := by
  have hne : Combined.otherDigest ≠ zeroDigest := by decide +kernel
  rintro a (rfl | rfl) b (rfl | rfl) d ha hb
  · exact Json.Same.refl _
  · rw [hashing_digests.1] at ha
    rw [hashing_digests.2] at hb
    cases ha
    exact absurd (Except.ok.inj hb).symm hne
  · rw [hashing_digests.2] at ha
    rw [hashing_digests.1] at hb
    cases ha
    exact absurd (Except.ok.inj hb) hne
  · exact Json.Same.refl _

theorem inputs_mem {evidence : List EvidenceRef} {receipts : List ReceiptRef}
    (he : evidence.Perm []) (hr : receipts.Perm [sharedReceipt runId, sharedReceipt laterRunId]) :
    inputEnvelope evidence receipts = inOrder ∨ inputEnvelope evidence receipts = inTurn := by
  rw [he.eq_nil]
  rcases List.perm_pair.mp hr with rfl | rfl
  · exact Or.inl rfl
  · exact Or.inr rfl

end Pilot

open Pilot in
/-- The digest of the inputs with the two receipts depends on their order. -/
theorem assembly_order_tied :
    ¬ (∀ evidence receipts, evidence.Perm [] →
        receipts.Perm [sharedReceipt runId, sharedReceipt laterRunId] →
        inputManifestDigest hashing evidence receipts =
          inputManifestDigest hashing [] [sharedReceipt runId, sharedReceipt laterRunId]) := by
  rw [(assembly_order hashing hashing_total hashing_injective [] _
    (fun _ _ he hr => inputs_mem he hr)).1]
  rintro ⟨-, htied⟩
  have hsame := htied (sharedReceipt runId) (by decide) (sharedReceipt laterRunId) (by decide) rfl
  exact absurd hsame (by decide +kernel)

open Pilot in
theorem receipts_tie :
    (∀ v, checkEnvelopeNumbers v = .ok () → ∃ bytes, hashing.jcs v = .ok bytes) ∧
    hashing.InjectiveOn {v | v = inOrder ∨ v = inTurn} ∧
    [sharedReceipt laterRunId, sharedReceipt runId].Perm
    [sharedReceipt runId, sharedReceipt laterRunId] ∧
    inputManifestDigest hashing [] [sharedReceipt laterRunId, sharedReceipt runId] ≠
      inputManifestDigest hashing [] [sharedReceipt runId, sharedReceipt laterRunId] := by
  refine ⟨hashing_total, hashing_injective, List.Perm.swap _ _ _, ?_⟩
  rw [inputManifestDigest_eq, inputManifestDigest_eq]
  change envelopeDigest hashing inTurn ≠ envelopeDigest hashing inOrder
  rw [hashing_digests.1, hashing_digests.2]
  decide +kernel

end Checkspan
