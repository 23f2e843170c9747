import Mathlib.Data.List.Basic
import Checkspan.Plays

/-!
# Ids made from a node and an attempt

A receipt is named `rcpt-<node>-<number>` (`src/controller/mod.rs:534`) and a packet
`gate-<node>-<number>` (`src/gates/mod.rs:174`). The name tells its node and attempt, and
is an identifier as long as it is short enough.
-/

namespace Checkspan

/-! ### The identifier grammar -/

/-- What `check_identifier` asks of a text. -/
structure IdentifierText (text : String) : Prop where
  head : ∃ first rest, text.toList = first :: rest ∧
    (isAsciiLowercase first || isAsciiDigit first) = true
  length : text.utf8ByteSize ≤ maxIdentifierLen
  chars : ∀ c ∈ text.toList, isIdentifierChar c = true

theorem checkIdentifier_eq_ok {kind text : String} :
    checkIdentifier kind text = .ok () ↔ IdentifierText text := by
  unfold checkIdentifier
  constructor
  · intro h
    split at h
    · cases h
    · rename_i first rest hlist
      split at h
      · cases h
      · rename_i hlength
        split at h
        · cases h
        · rename_i hfirst
          split at h
          · cases h
          · rename_i hnone
            refine { head := ⟨first, rest, hlist, by
                       simpa only [Bool.not_eq_true', Bool.not_eq_false] using hfirst⟩
                     length := Nat.not_lt.mp hlength, chars := ?_ }
            intro c hc
            simpa using List.find?_eq_none.mp hnone c hc
  · rintro ⟨⟨first, rest, hlist, hfirst⟩, hlength, hchars⟩
    have hnone : text.toList.find? (fun c => !isIdentifierChar c) = none :=
      List.find?_eq_none.mpr (fun c hc => by simp [hchars c hc])
    rw [hnone, hlist]
    simp [Nat.not_lt.mpr hlength, hfirst]

theorem Identifier.new_isOk {k : IdKind} {text : String} :
    (∃ i, Identifier.new k text = .ok i) ↔ IdentifierText text := by
  rw [← @checkIdentifier_eq_ok k.name text]
  unfold Identifier.new
  constructor
  · rintro ⟨i, h⟩
    split at h
    · assumption
    · cases h
  · intro h
    split
    · exact ⟨_, rfl⟩
    · rename_i e he
      rw [h] at he
      cases he

theorem Identifier.new_text_eq {k : IdKind} {text : String} {i : Identifier k}
    (h : Identifier.new k text = .ok i) : i.text = text := by
  unfold Identifier.new at h
  split at h
  · cases h
    rfl
  · cases h

/-! ### Names of a node and a number -/

/-- `format!("<stem>-<node>-<number>")`. -/
def derivedId (stem : String) (id : NodeId) (number : AttemptNumber) : String :=
  stem ++ id.text ++ "-" ++ number.display

/-- The node id and the number leave room for the rest of the name. -/
def Fits (id : NodeId) (number : AttemptNumber) : Prop :=
  id.text.utf8ByteSize + number.display.utf8ByteSize ≤ 122

section

variable {stem : String} {id id' : NodeId} {number number' : AttemptNumber}

theorem display_chars (n : AttemptNumber) : ∀ c ∈ n.display.toList, isAsciiDigit c = true := by
  intro c hc
  rw [PositiveU32.display, Nat.toString_eq_repr, Nat.toList_repr] at hc
  have hdigit := Nat.isDigit_of_mem_toDigits (by decide) (by decide) hc
  simp only [Char.isDigit, Bool.and_eq_true, decide_eq_true_eq] at hdigit
  simp only [isAsciiDigit, Bool.and_eq_true, decide_eq_true_eq]
  exact hdigit

/-- A text ends with its last run of characters other than `x` in one way. -/
theorem append_cons_right_inj {α : Type} {as bs xs ys : List α} {x : α} (hxs : x ∉ xs)
    (hys : x ∉ ys) (h : as ++ x :: xs = bs ++ x :: ys) : as = bs ∧ xs = ys := by
  rcases List.append_eq_append_iff.mp h with ⟨mid, hbs, hmid⟩ | ⟨mid, has, hmid⟩
  · cases mid with
    | nil =>
      rw [List.nil_append, List.cons.injEq] at hmid
      exact ⟨by rw [hbs, List.append_nil], hmid.2⟩
    | cons m rest =>
      rw [List.cons_append, List.cons.injEq] at hmid
      exact absurd (hmid.2 ▸ List.mem_append_right _ List.mem_cons_self) hxs
  · cases mid with
    | nil =>
      rw [List.nil_append, List.cons.injEq] at hmid
      exact ⟨by rw [has, List.append_nil], hmid.2.symm⟩
    | cons m rest =>
      rw [List.cons_append, List.cons.injEq] at hmid
      exact absurd (hmid.2 ▸ List.mem_append_right _ List.mem_cons_self) hys

theorem display_injective (h : number.display.toList = number'.display.toList) :
    number = number' := by
  simp only [PositiveU32.display, Nat.toString_eq_repr, Nat.toList_repr] at h
  have hvalue := congrArg (fun digits => Nat.ofDigitChars 10 digits 0) h
  simp only [Nat.ofDigitChars_ten_toDigits] at hvalue
  exact PositiveU32.ext_get hvalue

theorem derivedId_injective (h : derivedId stem id number = derivedId stem id' number') :
    id = id' ∧ number = number' := by
  have hdash : ∀ n : AttemptNumber, '-' ∉ n.display.toList := by
    intro n hmem
    exact absurd (display_chars n '-' hmem) (by decide)
  have hlists := congrArg String.toList h
  simp only [derivedId, String.toList_append, List.append_assoc, List.append_cancel_left_eq,
    String.reduceToList, List.cons_append, List.nil_append] at hlists
  obtain ⟨hid, hnumber⟩ := append_cons_right_inj (hdash number) (hdash number') hlists
  exact ⟨Identifier.ext_text (String.toList_injective hid), display_injective hnumber⟩

/-- The two stems a name has. -/
def IsStem (stem : String) : Prop := stem = "rcpt-" ∨ stem = "gate-"

theorem derivedId_size (hstem : IsStem stem) : (derivedId stem id number).utf8ByteSize =
    6 + (id.text.utf8ByteSize + number.display.utf8ByteSize) := by
  have hlength : stem.utf8ByteSize = 5 := by
    rcases hstem with rfl | rfl <;> decide +kernel
  have hdash : "-".utf8ByteSize = 1 := by decide
  rw [derivedId, String.utf8ByteSize_append, String.utf8ByteSize_append, String.utf8ByteSize_append,
    hlength, hdash]
  omega

theorem derivedId_chars (hstem : IsStem stem) :
    ∀ c ∈ (derivedId stem id number).toList, isIdentifierChar c = true := by
  have hletters : stem.toList.all isIdentifierChar = true := by
    rcases hstem with rfl | rfl
    · decide
    · decide
  intro c hc
  rw [derivedId, String.toList_append, String.toList_append, String.toList_append] at hc
  simp only [List.mem_append] at hc
  rcases hc with ((hc | hc) | hc) | hc
  · exact List.all_eq_true.mp hletters c hc
  · exact (checkIdentifier_eq_ok.mp id.valid).chars c hc
  · exact List.all_eq_true.mp (by decide : "-".toList.all isIdentifierChar = true) c hc
  · simp [isIdentifierChar, display_chars number c hc]

theorem derivedId_valid (hstem : IsStem stem) :
    IdentifierText (derivedId stem id number) ↔ Fits id number := by
  constructor
  · intro h
    have hlength := h.length
    rw [derivedId_size hstem, maxIdentifierLen] at hlength
    unfold Fits
    omega
  · intro h
    refine { head := ?_, length := ?_, chars := derivedId_chars hstem }
    · rcases hstem with rfl | rfl
      · exact ⟨'r', _, by simp only [derivedId, String.toList_append]; rfl, by decide⟩
      · exact ⟨'g', _, by simp only [derivedId, String.toList_append]; rfl, by decide⟩
    · rw [derivedId_size hstem, maxIdentifierLen]
      unfold Fits at h
      omega

theorem packetId_eq_ok {i : Ident} : Gates.packetId id number = .ok i ↔
    Identifier.new .identifier (derivedId "gate-" id number) = .ok i := mapError_eq_ok

theorem new_derivedId_injective {i : Ident}
    (h : Identifier.new .identifier (derivedId stem id number) = .ok i)
    (h' : Identifier.new .identifier (derivedId stem id' number') = .ok i) :
    id = id' ∧ number = number' :=
  derivedId_injective ((Identifier.new_text_eq h).symm.trans (Identifier.new_text_eq h'))

end

/-- The receipt id and the packet id of a node's attempt are accepted exactly when the
node id and the number are at most 122 bytes together, and no other node or attempt has
the same one. -/
theorem derived_ids (id : NodeId) (number : AttemptNumber) :
    ((∃ i, Controller.receiptIdFor id number = .ok i) ∧
        (∃ i, Gates.packetId id number = .ok i) ↔ Fits id number) ∧
    ((∃ i, Controller.receiptIdFor id number = .ok i) ↔ Fits id number) ∧
    ((∃ i, Gates.packetId id number = .ok i) ↔ Fits id number) ∧
    ∀ id' number' i,
      (Controller.receiptIdFor id number = .ok i → Controller.receiptIdFor id' number' = .ok i →
        id = id' ∧ number = number') ∧
      (Gates.packetId id number = .ok i → Gates.packetId id' number' = .ok i →
        id = id' ∧ number = number') := by
  have hreceipt : (∃ i, Controller.receiptIdFor id number = .ok i) ↔ Fits id number :=
    Identifier.new_isOk.trans (derivedId_valid (Or.inl rfl))
  have hpacket : (∃ i, Gates.packetId id number = .ok i) ↔ Fits id number := by
    simp only [packetId_eq_ok]
    exact Identifier.new_isOk.trans (derivedId_valid (Or.inr rfl))
  refine ⟨?_, hreceipt, hpacket, ?_⟩
  · rw [hreceipt, hpacket, and_self]
  · intro id' number' i
    exact ⟨new_derivedId_injective,
      fun h h' => new_derivedId_injective (packetId_eq_ok.mp h) (packetId_eq_ok.mp h')⟩

namespace Pilot

/-- A node id of the longest length, and the graph of the patch under this id. -/
def longId : NodeId := ⟨String.ofList (List.replicate 128 'a'), by decide +kernel⟩

def longSpec : GraphSpec :=
  { spec with nodes := [{ patch with id := longId }], targets := [⟨graphId, longId, one⟩] }

end Pilot

open Pilot in
/-- An admitted graph whose node has no receipt id and no packet id, for any attempt. -/
theorem long_id_refused : (∃ g, Graph.admitGraph longSpec = .ok g) ∧
    (∃ node ∈ longSpec.nodes, node.id = longId) ∧
    ∀ number, (¬ ∃ i, Controller.receiptIdFor longId number = .ok i) ∧
      ¬ ∃ i, Gates.packetId longId number = .ok i := by
  have hadmitted : (Graph.admitGraph longSpec).isOk = true := by decide +kernel
  refine ⟨⟨_, get_eq hadmitted⟩, by decide +kernel, ?_⟩
  intro number
  have hsize : longId.text.utf8ByteSize = 128 := by decide +kernel
  have hlong : ¬ Fits longId number := by
    unfold Fits
    omega
  refine ⟨?_, ?_⟩
  · exact fun h => hlong ((derivedId_valid (Or.inl rfl)).mp (Identifier.new_isOk.mp h))
  · simp only [packetId_eq_ok]
    exact fun h => hlong ((derivedId_valid (Or.inr rfl)).mp (Identifier.new_isOk.mp h))

end Checkspan
