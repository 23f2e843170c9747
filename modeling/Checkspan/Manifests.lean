import Checkspan.Plays
import Checkspan.Contracts.Rules

/-!
# What a manifest holds

The loop of `Resolver::resolve` goes through the effective ports in the order of their
names and gives each one outcome: an entry with its one origin, or an omission of an
optional port. What it reads is subtracted from the total it started with.
-/

namespace Checkspan

/-! ### Narrowed ports -/

namespace Narrowing

/-- The ports a narrowing drops. -/
def dropped : Option Narrowing → List Ident
  | some n => n.droppedPorts
  | none => []

/-- The sources a narrowing restricts ports to. -/
def restrictions : Option Narrowing → List (Ident × List String)
  | some n => n.restrictedSources
  | none => []

/-- A port after the given restrictions. -/
def restrict (restricted : List (Ident × List String)) (q : PortSpec) : PortSpec :=
  { q with allowedSourceScope := (restricted.lookup q.name).getD q.allowedSourceScope }

@[simp] theorem restrict_name (restricted : List (Ident × List String)) (q : PortSpec) :
    (restrict restricted q).name = q.name := rfl

@[simp] theorem restrict_required (restricted : List (Ident × List String)) (q : PortSpec) :
    (restrict restricted q).required = q.required := rfl

theorem restrict_cons_self {name : Ident} {sources : List String}
    {rest : List (Ident × List String)} {q : PortSpec} (hq : q.name = name) :
    restrict ((name, sources) :: rest) q = { q with allowedSourceScope := sources } := by
  rw [restrict, List.lookup_cons, beq_iff_eq.mpr hq]
  rfl

theorem restrict_cons_ne {name : Ident} {sources : List String}
    {rest : List (Ident × List String)} {q : PortSpec} (hq : q.name ≠ name) :
    restrict ((name, sources) :: rest) q = restrict rest q := by
  rw [restrict, List.lookup_cons, beq_eq_false_iff_ne.mpr hq]
  rfl

theorem restrictPort_eq_map {name : Ident} {sources : List String} {ports : List PortSpec}
    (hnd : (ports.map (·.name)).Nodup) : restrictPort name sources ports =
      ports.map (fun p =>
        if p.name = name then { p with allowedSourceScope := sources } else p) := by
  induction ports with
  | nil => rfl
  | cons p rest ih =>
    obtain ⟨hout, hrest⟩ := List.nodup_cons.mp hnd
    unfold restrictPort
    rw [List.map_cons]
    by_cases hp : p.name = name
    · rw [if_pos hp, if_pos hp]
      congr 1
      refine (List.map_id' rest).symm.trans (List.map_congr_left ?_)
      intro q hq
      have hne : q.name ≠ name := by
        intro hqn
        have hmem : q.name ∈ rest.map (·.name) := List.mem_map_of_mem hq
        rw [hqn, ← hp] at hmem
        exact hout hmem
      rw [if_neg hne]
    · rw [if_neg hp, if_neg hp, ih hrest]

/-- The checked ports are the given ones after the restrictions, each of which only
drops sources. -/
theorem checkRestricted_ok {dropped seen : List Ident} {ports effective : List PortSpec}
    {restricted : List (Ident × List String)} (hnd : (ports.map (·.name)).Nodup)
    (h : checkRestricted dropped seen ports restricted = .ok effective) :
    (∀ name ∈ seen, restricted.lookup name = none) ∧ effective = ports.map (restrict restricted) ∧
      ∀ p ∈ ports, ∀ x ∈ (restrict restricted p).allowedSourceScope, x ∈ p.allowedSourceScope := by
  induction restricted generalizing seen ports with
  | nil =>
    cases h
    exact ⟨fun _ _ => rfl, (List.map_id' effective).symm, fun p _ x hx => hx⟩
  | cons r rest ih =>
    obtain ⟨name, sources⟩ := r
    unfold checkRestricted at h
    split at h
    · cases h
    · rename_i hfresh
      split at h
      · cases h
      · split at h
        · cases h
        · rename_i found hfind
          split at h
          · cases h
          · split at h
            · cases h
            · rename_i hwide
              have hmap : restrictPort name sources ports = ports.map _ := restrictPort_eq_map hnd
              have hnames : (restrictPort name sources ports).map (·.name) =
                  ports.map (·.name) := by
                rw [hmap, List.map_map]
                refine List.map_congr_left ?_
                intro p _
                by_cases hp : p.name = name <;> simp [hp]
              obtain ⟨hseen, heffective, hscope⟩ := ih (hnames ▸ hnd) h
              have hnone := hseen name List.mem_cons_self
              refine ⟨?_, ?_, ?_⟩
              · intro other hother
                have hne : other ≠ name := fun heq => hfresh (heq ▸ hother)
                rw [List.lookup_cons, beq_eq_false_iff_ne.mpr hne]
                exact hseen other (List.mem_cons_of_mem _ hother)
              · rw [heffective, hmap, List.map_map]
                refine List.map_congr_left ?_
                intro p _
                by_cases hp : p.name = name
                · rw [restrict_cons_self hp, Function.comp, if_pos hp, restrict, hp, hnone]
                  rfl
                · rw [restrict_cons_ne hp, Function.comp, if_neg hp]
              · intro p hp x hx
                by_cases hpn : p.name = name
                · rw [restrict_cons_self hpn] at hx
                  have hsame : found = p := by
                    refine List.inj_on_of_nodup_map hnd (List.mem_of_find?_eq_some hfind) hp ?_
                    rw [hpn]
                    simpa using List.find?_some hfind
                  have hin := List.find?_eq_none.mp hwide x hx
                  rw [hsame] at hin
                  simpa using hin
                · rw [restrict_cons_ne hpn] at hx
                  refine hscope p ?_ x hx
                  rw [hmap]
                  exact List.mem_map.mpr ⟨p, hp, if_neg hpn⟩

theorem checkDropped_ok {node : NodeSpec} (hnd : (node.evidencePorts.map (·.name)).Nodup)
    {seen ports : List Ident} {u : Unit} (h : checkDropped node seen ports = .ok u) {q : PortSpec}
    (hq : q ∈ node.evidencePorts) (hdrop : q.name ∈ ports) : q.required = false := by
  induction ports generalizing seen with
  | nil => cases hdrop
  | cons name rest ih =>
    unfold checkDropped at h
    split at h
    · cases h
    · split at h
      · cases h
      · rename_i declared hfind
        split at h
        · cases h
        · rename_i hoptional
          rcases List.mem_cons.mp hdrop with hname | hdrop
          · have hsame : declared = q := by
              refine List.inj_on_of_nodup_map hnd (List.mem_of_find?_eq_some hfind) hq ?_
              rw [hname]
              simpa using List.find?_some hfind
            rw [← hsame]
            simpa using hoptional
          · exact ih h hdrop

end Narrowing

namespace Resolver

open Narrowing

/-- The effective ports are the declared ones the narrowing keeps, with the sources it
leaves them. -/
theorem effectivePorts_ok {node : NodeSpec} (hnd : (node.evidencePorts.map (·.name)).Nodup)
    {narrowing : Option Narrowing} {ports : List PortSpec}
    (h : effectivePorts node narrowing = .ok ports) :
    ports = (node.evidencePorts.filter (·.name ∉ dropped narrowing)).map
        (restrict (restrictions narrowing)) ∧
      (∀ q ∈ node.evidencePorts, q.name ∉ dropped narrowing →
        ∀ x ∈ (restrict (restrictions narrowing) q).allowedSourceScope, x ∈ q.allowedSourceScope) ∧
      ∀ q ∈ node.evidencePorts, q.required = true → q.name ∉ dropped narrowing := by
  cases narrowing with
  | none =>
    cases h
    refine ⟨?_, fun q _ _ x hx => hx, fun q _ _ => List.not_mem_nil⟩
    have hall : node.evidencePorts.filter (·.name ∉ dropped none) = node.evidencePorts :=
      List.filter_eq_self.mpr (fun q _ => by simp [dropped])
    rw [hall]
    exact (List.map_id' _).symm
  | some n =>
    have hcheck := mapError_ok h
    unfold Narrowing.check at hcheck
    obtain ⟨_, hdropped, hcheck⟩ := bind_ok hcheck
    have hkept : ((node.evidencePorts.filter (·.name ∉ n.droppedPorts)).map (·.name)).Nodup :=
      hnd.sublist (List.filter_sublist.map _)
    obtain ⟨-, hports, hscope⟩ := checkRestricted_ok hkept hcheck
    refine ⟨hports, ?_, ?_⟩
    · intro q hq hkeep
      exact hscope q (List.mem_filter.mpr ⟨hq, by simpa [dropped] using hkeep⟩)
    · intro q hq hreq hdrop
      rw [checkDropped_ok hnd hdropped hq hdrop] at hreq
      cases hreq

/-! ### The ports by name -/

/-- Ports in the order of their names, each name once. -/
abbrev ByName (ports : List PortSpec) : Prop :=
  ports.Pairwise (fun p q => p.name.text < q.name.text)

theorem name_ne_of_lt {a b : Ident} (h : a.text < b.text) : a ≠ b := by
  rintro rfl
  exact String.lt_irrefl _ h

theorem mem_insertPort {port p : PortSpec} {m : List PortSpec} (h : p ∈ insertPort port m) :
    p = port ∨ p ∈ m := by
  induction m with
  | nil => exact Or.inl (List.mem_singleton.mp h)
  | cons q rest ih =>
    unfold insertPort at h
    split at h
    · exact List.mem_cons.mp h
    · split at h
      · exact (List.mem_cons.mp h).imp_right (List.mem_cons_of_mem _)
      · rcases List.mem_cons.mp h with rfl | h
        · exact Or.inr List.mem_cons_self
        · exact (ih h).imp_right (List.mem_cons_of_mem _)

theorem mem_insertPort_of_new {port p : PortSpec} {m : List PortSpec}
    (hnew : ∀ q ∈ m, q.name ≠ port.name) (h : p = port ∨ p ∈ m) : p ∈ insertPort port m := by
  induction m with
  | nil => simpa [insertPort] using h
  | cons q rest ih =>
    unfold insertPort
    rw [if_neg (fun heq : port.name = q.name => hnew q List.mem_cons_self heq.symm)]
    split
    · simpa using h
    · have hrest := ih (fun x hx => hnew x (List.mem_cons_of_mem _ hx))
      rcases h with rfl | h
      · exact List.mem_cons_of_mem _ (hrest (Or.inl rfl))
      · rcases List.mem_cons.mp h with rfl | h
        · exact List.mem_cons_self
        · exact List.mem_cons_of_mem _ (hrest (Or.inr h))

theorem insertPort_byName {port : PortSpec} {m : List PortSpec} (h : ByName m) :
    ByName (insertPort port m) := by
  induction m with
  | nil => exact List.pairwise_singleton _ _
  | cons q rest ih =>
    obtain ⟨hq, hrest⟩ := List.pairwise_cons.mp h
    unfold insertPort
    split
    · rename_i hlt
      refine List.pairwise_cons.mpr ⟨?_, h⟩
      intro p hp
      rcases List.mem_cons.mp hp with rfl | hp
      · exact hlt
      · exact String.lt_trans hlt (hq p hp)
    · rename_i hnlt
      split
      · rename_i heq
        refine List.pairwise_cons.mpr ⟨?_, hrest⟩
        intro p hp
        rw [heq]
        exact hq p hp
      · rename_i hne
        refine List.pairwise_cons.mpr ⟨?_, ih hrest⟩
        intro p hp
        rcases mem_insertPort hp with rfl | hp
        · refine Decidable.byContradiction (fun hle => hne ?_)
          exact Identifier.ext_text
            (String.le_antisymm (String.not_lt.mp hle) (String.not_lt.mp hnlt))
        · exact hq p hp

theorem portMap_spec {ports : List PortSpec} (hnd : (ports.map (·.name)).Nodup) :
    ByName (portMap ports) ∧ ∀ p, p ∈ portMap ports ↔ p ∈ ports := by
  have hfold : ∀ (ports m : List PortSpec), ByName m →
      (∀ p ∈ ports, ∀ q ∈ m, q.name ≠ p.name) → (ports.map (·.name)).Nodup →
      ByName (ports.foldl (fun m port => insertPort port m) m) ∧
      ∀ p, p ∈ ports.foldl (fun m port => insertPort port m) m ↔ p ∈ m ∨ p ∈ ports := by
    intro ports
    induction ports with
    | nil => exact fun m hm _ _ => ⟨hm, fun p => by simp⟩
    | cons x rest ih =>
      intro m hm hapart hnd
      obtain ⟨hout, hrest⟩ := List.nodup_cons.mp hnd
      have hx := hapart x List.mem_cons_self
      have happart : ∀ p ∈ rest, ∀ q ∈ insertPort x m, q.name ≠ p.name := by
        intro p hp q hq
        rcases mem_insertPort hq with rfl | hq
        · intro heq
          have hname : p.name ∈ rest.map (·.name) := List.mem_map_of_mem hp
          rw [← heq] at hname
          exact hout hname
        · exact hapart p (List.mem_cons_of_mem _ hp) q hq
      obtain ⟨hsorted, hmem⟩ := ih _ (insertPort_byName hm) happart hrest
      refine ⟨hsorted, ?_⟩
      intro p
      rw [List.foldl_cons, hmem, List.mem_cons]
      constructor
      · rintro (h | h)
        · rcases mem_insertPort h with h | h
          · exact Or.inr (Or.inl h)
          · exact Or.inl h
        · exact Or.inr (Or.inr h)
      · rintro (h | h | h)
        · exact Or.inl (mem_insertPort_of_new hx (Or.inr h))
        · exact Or.inl (mem_insertPort_of_new hx (Or.inl h))
        · exact Or.inr h
  obtain ⟨hsorted, hmem⟩ := hfold ports [] List.Pairwise.nil (fun _ _ q hq => by cases hq) hnd
  refine ⟨hsorted, ?_⟩
  intro p
  rw [portMap, hmem]
  simp

/-! ### The offers -/

theorem stepOffer_ok {node : NodeSpec} {ports : List PortSpec}
    {acc : List (Ident × Offer) × List EvidenceError} {offer : Offer}
    (h : (stepOffer node ports acc offer).2 = []) : acc.2 = [] ∧
      acc.1.lookup offer.port = none ∧
        (stepOffer node ports acc offer).1 = (offer.port, offer) :: acc.1 := by
  unfold stepOffer at h ⊢
  split at h
  · simp at h
  · rename_i hport
    rw [if_neg hport]
    dsimp only at h ⊢
    split at h
    · simp at h
    · rename_i hnew
      exact ⟨h, Option.not_isSome_iff_eq_none.mp hnew, rfl⟩

theorem foldl_stepOffer_errors {node : NodeSpec} {ports : List PortSpec} (rest : List Offer)
    (acc : List (Ident × Offer) × List EvidenceError)
    (h : (rest.foldl (stepOffer node ports) acc).2 = []) : acc.2 = [] := by
  induction rest generalizing acc with
  | nil => exact h
  | cons offer rest ih => exact (stepOffer_ok (ih _ h)).1

/-- When no offer is refused, the offer recorded for a port is its only one. -/
theorem foldl_stepOffer {node : NodeSpec} {ports : List PortSpec} {done : List Offer}
    (rest : List Offer) (acc : List (Ident × Offer) × List EvidenceError)
    (hdone : ∀ name, done.filter (fun x => x.port = name) = (acc.1.lookup name).toList)
    (h : (rest.foldl (stepOffer node ports) acc).2 = []) (name : Ident) :
    (done ++ rest).filter (fun x => x.port = name) =
      ((rest.foldl (stepOffer node ports) acc).1.lookup name).toList := by
  induction rest generalizing done acc with
  | nil => simpa using hdone name
  | cons offer rest ih =>
    obtain ⟨-, hnew, hstep⟩ := stepOffer_ok (foldl_stepOffer_errors rest _ h)
    rw [List.append_cons]
    refine ih _ ?_ h
    intro other
    rw [hstep, List.filter_append, hdone, List.lookup_cons]
    by_cases hport : offer.port = other
    · subst hport
      rw [hnew, beq_self_eq_true]
      simp
    · rw [beq_eq_false_iff_ne.mpr (Ne.symm hport)]
      simp [hport]

/-! ### The loop -/

/-- The bytes an entry holds; a proof holds none. -/
def size (e : ResolvedEvidence) : Nat := (e.bytes.map List.length).getD 0

/-- Where an entry of a port comes from. A code or logs entry comes from the one offer
for its port, from a registered source of the port's scope and of the kind the port
needs; a proofs entry is the one receipt of the snapshot the scope covers. -/
inductive Sourced (rt : Runtime) (r : Resolver) (o : Observed) (snapshot : DependencySnapshot)
    (offers : List Offer) (port : PortSpec) (e : ResolvedEvidence) : Prop
  | code (offer : Offer) (root : String) (selection : Selection) (c : Captured)
      (bytes : List UInt8) (hkind : port.kind = .code)
      (honly : offers.filter (fun x => x.port = port.name) = [offer])
      (hscope : offer.source ∈ port.allowedSourceScope)
      (hsource : r.sources.lookup offer.source = some (.repository root))
      (hitem : offer.item = .candidate selection) (hcapture : o.capture port.name = .ok c)
      (hbytes : jcsBytes rt c.result = .ok bytes)
      (he : e = ⟨codeReference rt port c bytes, some bytes⟩)
  | log (offer : Offer) (root producer path subject version : String)
      (attestation : Option Attestation) (validUntil : Option Timestamp)
      (expected : Option Digest) (listed : Nat) (bytes : List UInt8) (hkind : port.kind = .logs)
      (honly : offers.filter (fun x => x.port = port.name) = [offer])
      (hscope : offer.source ∈ port.allowedSourceScope)
      (hsource : r.sources.lookup offer.source =
        some (.directory root producer attestation validUntil))
      (hitem : offer.item = .file path subject version expected)
      (hfile : o.file port.name = .file listed (.ok bytes))
      (hsize : bytes.length ≤ r.limits.maxFileBytes)
      (hname : e.reference.portName = port.name)
      (hdigest : e.reference.contentDigest = artifactDigest rt bytes)
      (hbytes : e.bytes = some bytes)
  | proof (d : ResolvedDependency) (hkind : port.kind = .proofs)
      (honly : snapshot.resolved.filter (covers port) = [d])
      (he : e = ⟨proofReference port d, none⟩)

variable {rt : Runtime} {r : Resolver} {o : Observed} {snapshot : DependencySnapshot}
  {offers : List Offer}

theorem Sourced.name {port : PortSpec} {e : ResolvedEvidence}
    (h : Sourced rt r o snapshot offers port e) : e.reference.portName = port.name := by
  cases h with
  | code offer root selection c bytes hkind honly hscope hsource hitem hcapture hbytes he =>
    rw [he]
    rfl
  | log offer root producer path subject version attestation validUntil expected listed bytes hkind
      honly hscope hsource hitem hfile hsize hname hdigest hbytes => exact hname
  | proof d hkind honly he =>
    rw [he]
    rfl

theorem resolveProof_ok {port : PortSpec} {e : ResolvedEvidence}
    (h : resolveProof port snapshot = .ok e) :
    ∃ d, snapshot.resolved.filter (covers port) = [d] ∧ e = ⟨proofReference port d, none⟩ := by
  unfold resolveProof at h
  split at h
  · cases h
  · rename_i d heq
    cases h
    exact ⟨d, heq, rfl⟩
  · cases h

theorem resolveCode_ok {port : PortSpec} {remaining : Nat} {e : ResolvedEvidence} {left : Nat}
    (h : r.resolveCode rt o port remaining = .ok (e, left)) : r.checkCodeType rt port = .ok () ∧
      ∃ c bytes, o.capture port.name = .ok c ∧ jcsBytes rt c.result = .ok bytes ∧
        e = ⟨codeReference rt port c bytes, some bytes⟩ ∧ left + size e = remaining := by
  unfold resolveCode at h
  obtain ⟨_, htype, h⟩ := bind_ok h
  obtain ⟨c, hc, h⟩ := bind_ok h
  obtain ⟨bytes, hbytes, h⟩ := bind_ok h
  obtain ⟨_, hfits, h⟩ := bind_ok h
  cases h
  have hle : bytes.length ≤ remaining := by simpa using guardOk_ok hfits
  refine ⟨htype, c, bytes, mapError_ok hc, mapError_ok hbytes, rfl, ?_⟩
  show remaining - bytes.length + bytes.length = remaining
  omega

theorem readContained_eq_ok {port : Ident} {path : String} {view : FileView}
    {maxFile remaining maxTotal : Nat} {bytes : List UInt8} :
    readContained port path view maxFile remaining maxTotal = .ok bytes ↔
      isCleanRelativePath path = true ∧ ∃ size, view = .file size (.ok bytes) ∧ size ≤ maxFile ∧
        size ≤ remaining ∧ bytes.length ≤ maxFile ∧ bytes.length ≤ remaining := by
  unfold readContained
  cases hclean : isCleanRelativePath path with
  | false => simp
  | true =>
    cases view with
    | io e => simp
    | escapes => simp
    | notAFile => simp
    | file size read =>
      by_cases hfile : size > maxFile
      · simp [hfile]
      · by_cases hleft : size > remaining
        · simp [hfile, hleft]
        · cases read with
          | error e => simp [hfile, hleft]
          | ok found =>
            by_cases hread : found.length > maxFile ∨ found.length > remaining
            · simp [hfile, hleft, hread]
              rintro rfl
              omega
            · simp [hfile, hleft, hread]
              rintro rfl
              omega

theorem readContained_ok {port : Ident} {path : String} {view : FileView}
    {maxFile remaining maxTotal : Nat} {bytes : List UInt8}
    (h : readContained port path view maxFile remaining maxTotal = .ok bytes) :
    (∃ listed, view = .file listed (.ok bytes)) ∧ bytes.length ≤ maxFile ∧
      bytes.length ≤ remaining := by
  obtain ⟨-, listed, hview, -, -, hfile, hfits⟩ := readContained_eq_ok.mp h
  exact ⟨⟨listed, hview⟩, hfile, hfits⟩

theorem sourceFor_ok {port : PortSpec} {name : String} {source : Source}
    (h : r.sourceFor port name = .ok source) :
    name ∈ port.allowedSourceScope ∧ r.sources.lookup name = some source := by
  unfold sourceFor at h
  split at h
  · cases h
  · rename_i hscope
    exact ⟨not_not.mp hscope, someOr_ok h⟩

theorem resolveOffer_code {port : PortSpec} {offer : Offer} {remaining left : Nat}
    {e : ResolvedEvidence} (hkind : port.kind = .code)
    (h : r.resolveOffer rt o port offer remaining = (.ok e, left)) :
    ∃ root selection c bytes, offer.source ∈ port.allowedSourceScope ∧
      r.sources.lookup offer.source = some (.repository root) ∧
      offer.item = .candidate selection ∧ r.checkCodeType rt port = .ok () ∧
      o.capture port.name = .ok c ∧ jcsBytes rt c.result = .ok bytes ∧
      e = ⟨codeReference rt port c bytes, some bytes⟩ ∧ left + size e = remaining := by
  unfold resolveOffer at h
  rw [hkind] at h
  split at h
  · cases h
  · rename_i source hsource
    obtain ⟨hscope, hregistered⟩ := sourceFor_ok hsource
    cases source with
    | directory => cases h
    | repository root =>
      cases hitem : offer.item with
      | file => rw [hitem] at h; cases h
      | candidate selection =>
        rw [hitem] at h
        dsimp only at h
        split at h
        · rename_i resolved left' hcode
          cases h
          obtain ⟨htype, c, bytes, hc, hbytes, he, hleft⟩ := resolveCode_ok hcode
          exact ⟨root, selection, c, bytes, hscope, hregistered, rfl, htype, hc, hbytes, he, hleft⟩
        · cases h

theorem resolveOffer_log {port : PortSpec} {offer : Offer} {remaining left : Nat}
    {e : ResolvedEvidence} (hkind : port.kind = .logs)
    (h : r.resolveOffer rt o port offer remaining = (.ok e, left)) :
    ∃ root producer attestation validUntil path subject version expected bytes,
      offer.source ∈ port.allowedSourceScope ∧
      r.sources.lookup offer.source = some (.directory root producer attestation validUntil) ∧
      offer.item = .file path subject version expected ∧
      checkAttestation rt o port.name offer.source attestation = .ok () ∧
      (∀ t, validUntil = some t → t.isBefore r.now = false) ∧
      readContained port.name path (o.file port.name) r.limits.maxFileBytes remaining
        r.limits.maxTotalBytes = .ok bytes ∧
      e.reference.locator = "file:" ++ offer.source ++ "/" ++ path ∧
      e.reference.contentDigest = artifactDigest rt bytes ∧
      e.reference.validUntil = validUntil ∧ e.reference.portName = port.name ∧
      e.bytes = some bytes ∧ left = remaining - bytes.length := by
  unfold resolveOffer at h
  rw [hkind] at h
  split at h
  · cases h
  · rename_i source hsource
    obtain ⟨hscope, hregistered⟩ := sourceFor_ok hsource
    cases source with
    | repository => cases h
    | directory root producer attestation validUntil =>
      cases hitem : offer.item with
      | candidate => rw [hitem] at h; cases h
      | file path subject version expected =>
        rw [hitem] at h
        dsimp only at h
        unfold resolveLog at h
        split at h
        · cases h
        · rename_i hattested
          split at h
          · cases h
          · rename_i hvalid
            split at h
            · cases h
            · rename_i bytes hread
              dsimp only at h
              split at h
              · cases h
              · cases h
                refine ⟨root, producer, attestation, validUntil, path, subject, version, expected,
                  bytes, hscope, hregistered, rfl, hattested, ?_, hread, rfl, rfl, rfl, rfl,
                  rfl, rfl⟩
                rintro t rfl
                simpa using hvalid

/-- Only code and logs are resolved from offers. -/
theorem resolveOffer_kind {port : PortSpec} {offer : Offer} {remaining left : Nat}
    {e : ResolvedEvidence} (h : r.resolveOffer rt o port offer remaining = (.ok e, left)) :
    port.kind = .code ∨ port.kind = .logs := by
  unfold resolveOffer at h
  split at h
  · cases h
  · split at h
    · exact Or.inl ‹_›
    · cases h
    · exact Or.inr ‹_›
    · cases h
    · cases h

theorem resolveOffer_ok {port : PortSpec} {offer : Offer} {remaining left : Nat}
    {e : ResolvedEvidence} (honly : offers.filter (fun x => x.port = port.name) = [offer])
    (h : r.resolveOffer rt o port offer remaining = (.ok e, left)) :
    Sourced rt r o snapshot offers port e ∧ left + size e = remaining := by
  rcases resolveOffer_kind h with hkind | hkind
  · obtain ⟨root, selection, c, bytes, hscope, hsource, hitem, -, hc, hbytes, he, hleft⟩ :=
      resolveOffer_code hkind h
    exact ⟨.code offer root selection c bytes hkind honly hscope hsource hitem hc hbytes he, hleft⟩
  · obtain ⟨root, producer, attestation, validUntil, path, subject, version, expected, bytes,
      hscope, hsource, hitem, -, -, hread, -, hdigest, -, hname, hbytes, hleft⟩ :=
        resolveOffer_log hkind h
    obtain ⟨⟨listed, hfile⟩, hsize, hfits⟩ := readContained_ok hread
    refine ⟨.log offer root producer path subject version attestation validUntil expected listed
      bytes hkind honly hscope hsource hitem hfile hsize hname hdigest hbytes, ?_⟩
    have hheld : size e = bytes.length := by
      unfold size
      rw [hbytes]
      rfl
    omega

theorem map_some_ok {x : Except EvidenceError ResolvedEvidence} {e : Option ResolvedEvidence}
    (h : x.map some = .ok e) : ∃ a, x = .ok a ∧ e = some a := by
  cases x with
  | error y => cases h
  | ok a =>
    cases h
    exact ⟨a, rfl, rfl⟩

/-- The outcome of one port: an entry of its size, or an omission of an optional port. -/
theorem resolvePort_ok {offer : Option Offer} {port : PortSpec} {remaining left : Nat}
    {outcome : Option ResolvedEvidence}
    (honly : offers.filter (fun x => x.port = port.name) = offer.toList)
    (h : r.resolvePort rt o snapshot offer port remaining = (.ok outcome, left)) :
    (∃ e, outcome = some e ∧ Sourced rt r o snapshot offers port e ∧ left + size e = remaining) ∨
      (outcome = none ∧ port.required = false ∧ left = remaining) := by
  have hoffered : ∀ x, offer = some x → ((r.resolveOffer rt o port x remaining).1.map some,
      (r.resolveOffer rt o port x remaining).2) = (.ok outcome, left) →
      ∃ e, outcome = some e ∧ Sourced rt r o snapshot offers port e ∧
        left + size e = remaining := by
    intro x hx hout
    rw [hx] at honly
    obtain ⟨hvalue, hleft⟩ := Prod.mk.inj hout
    obtain ⟨e, he, rfl⟩ := map_some_ok hvalue
    obtain ⟨hsourced, hsize⟩ := resolveOffer_ok honly (Prod.ext he hleft)
    exact ⟨e, rfl, hsourced, hsize⟩
  unfold resolvePort at h
  split at h
  · rename_i hkind
    split at h
    · cases h
    · obtain ⟨hvalue, rfl⟩ := Prod.mk.inj h
      obtain ⟨e, he, rfl⟩ := map_some_ok hvalue
      obtain ⟨d, hd, rfl⟩ := resolveProof_ok he
      exact Or.inl ⟨_, rfl, Sourced.proof d hkind hd rfl, rfl⟩
  · split at h
    · rename_i hoptional
      cases h
      exact Or.inr ⟨rfl, by simpa using (Bool.and_eq_true_iff.mp hoptional).2, rfl⟩
    · cases h
  · split at h
    · rename_i hoptional
      cases h
      exact Or.inr ⟨rfl, by simpa using (Bool.and_eq_true_iff.mp hoptional).2, rfl⟩
    · cases h
  · split at h
    · split at h
      · cases h
      · rename_i hoptional
        cases h
        exact Or.inr ⟨rfl, by simpa using hoptional, rfl⟩
    · exact Or.inl (hoffered _ rfl h)
  · split at h
    · split at h
      · cases h
      · rename_i hoptional
        cases h
        exact Or.inr ⟨rfl, by simpa using hoptional, rfl⟩
    · exact Or.inl (hoffered _ rfl h)

/-- The outcomes of a list of ports: the entries and the omitted names, in its order. -/
inductive Outcomes (filled : PortSpec → ResolvedEvidence → Prop) :
    List PortSpec → List ResolvedEvidence → List Ident → Prop
  | nil : Outcomes filled [] [] []
  | entry {port : PortSpec} {e : ResolvedEvidence} {ports : List PortSpec}
      {evidence : List ResolvedEvidence} {omitted : List Ident} (hfilled : filled port e)
      (hrest : Outcomes filled ports evidence omitted) :
      Outcomes filled (port :: ports) (e :: evidence) omitted
  | skip {port : PortSpec} {ports : List PortSpec} {evidence : List ResolvedEvidence}
      {omitted : List Ident} (hoptional : port.required = false)
      (hrest : Outcomes filled ports evidence omitted) :
      Outcomes filled (port :: ports) evidence (port.name :: omitted)

theorem foldl_stepPort_errors {offered : List (Ident × Offer)} (ports : List PortSpec)
    (acc : Progress) (h : (ports.foldl (r.stepPort rt o snapshot offered) acc).errors = []) :
    acc.errors = [] := by
  induction ports generalizing acc with
  | nil => exact h
  | cons port rest ih =>
    have hstep := ih _ h
    unfold stepPort at hstep
    split at hstep
    · exact hstep
    · exact hstep
    · simp at hstep

/-- A port that adds no error has an outcome, which is what it adds. -/
theorem stepPort_ok {offered : List (Ident × Offer)} {acc : Progress} {port : PortSpec}
    (h : (r.stepPort rt o snapshot offered acc port).errors = []) : ∃ outcome left,
      r.resolvePort rt o snapshot (offered.lookup port.name) port acc.remaining =
        (.ok outcome, left) ∧
      (r.stepPort rt o snapshot offered acc port).evidence = acc.evidence ++ outcome.toList ∧
      (r.stepPort rt o snapshot offered acc port).omitted =
        acc.omitted ++ (if outcome.isSome then [] else [port.name]) ∧
      (r.stepPort rt o snapshot offered acc port).remaining = left := by
  unfold stepPort at h ⊢
  split at h
  · rename_i e left hport
    exact ⟨some e, left, hport, rfl, (List.append_nil _).symm, rfl⟩
  · rename_i left hport
    exact ⟨none, left, hport, (List.append_nil _).symm, rfl, rfl⟩
  · simp at h

/-- A loop without errors gives every port its outcome, and takes what the entries
hold from the bytes left. -/
theorem foldl_stepPort {offered : List (Ident × Offer)}
    (honly : ∀ name, offers.filter (fun x => x.port = name) = (offered.lookup name).toList)
    (ports : List PortSpec) (acc : Progress)
    (h : (ports.foldl (r.stepPort rt o snapshot offered) acc).errors = []) :
    ∃ evidence omitted, Outcomes (Sourced rt r o snapshot offers) ports evidence omitted ∧
      (ports.foldl (r.stepPort rt o snapshot offered) acc).evidence = acc.evidence ++ evidence ∧
      (ports.foldl (r.stepPort rt o snapshot offered) acc).omitted = acc.omitted ++ omitted ∧
      (ports.foldl (r.stepPort rt o snapshot offered) acc).remaining + (evidence.map size).sum =
        acc.remaining := by
  induction ports generalizing acc with
  | nil => exact ⟨[], [], .nil, (List.append_nil _).symm, (List.append_nil _).symm, rfl⟩
  | cons port rest ih =>
    rw [List.foldl_cons] at h ⊢
    obtain ⟨outcome, left, hport, hevidence_p, homitted_p, hleft_p⟩ :=
      stepPort_ok (foldl_stepPort_errors rest _ h)
    obtain ⟨evidence, omitted, hrest, hevidence, homitted, hleft⟩ := ih _ h
    rw [hevidence_p] at hevidence
    rw [homitted_p] at homitted
    rw [hleft_p] at hleft
    rw [hevidence, homitted]
    rcases resolvePort_ok (honly port.name) hport with ⟨e, rfl, hfilled, hsize⟩ |
      ⟨rfl, hoptional, hsize⟩
    · refine ⟨e :: evidence, omitted, .entry hfilled hrest, by simp, by simp, ?_⟩
      rw [List.map_cons, List.sum_cons]
      omega
    · exact ⟨evidence, port.name :: omitted, .skip hoptional hrest, by simp, by simp, by omega⟩

namespace Outcomes

variable {filled : PortSpec → ResolvedEvidence → Prop} {ports : List PortSpec}
  {evidence : List ResolvedEvidence} {omitted : List Ident}

theorem mem (h : Outcomes filled ports evidence omitted) {e : ResolvedEvidence}
    (he : e ∈ evidence) : ∃ port ∈ ports, filled port e := by
  induction h with
  | nil => cases he
  | entry hfilled hrest ih =>
    rcases List.mem_cons.mp he with rfl | he
    · exact ⟨_, List.mem_cons_self, hfilled⟩
    · obtain ⟨port, hport, hin⟩ := ih he
      exact ⟨port, List.mem_cons_of_mem _ hport, hin⟩
  | skip hoptional hrest ih =>
    obtain ⟨port, hport, hin⟩ := ih he
    exact ⟨port, List.mem_cons_of_mem _ hport, hin⟩

theorem names (h : Outcomes filled ports evidence omitted)
    (hname : ∀ port e, filled port e → e.reference.portName = port.name) :
    (evidence.map (·.reference.portName)).Sublist (ports.map (·.name)) ∧
      omitted.Sublist (ports.map (·.name)) := by
  induction h with
  | nil => exact ⟨.slnil, .slnil⟩
  | entry hfilled hrest ih =>
    refine ⟨?_, ih.2.cons _⟩
    rw [List.map_cons, List.map_cons, hname _ _ hfilled]
    exact ih.1.cons_cons _
  | skip hoptional hrest ih => exact ⟨ih.1.cons _, ih.2.cons_cons _⟩

theorem required (h : Outcomes filled ports evidence omitted)
    (hname : ∀ port e, filled port e → e.reference.portName = port.name) {port : PortSpec}
    (hport : port ∈ ports) (hreq : port.required = true) :
    ∃ e ∈ evidence, e.reference.portName = port.name := by
  induction h with
  | nil => cases hport
  | entry hfilled hrest ih =>
    rcases List.mem_cons.mp hport with rfl | hport
    · exact ⟨_, List.mem_cons_self, hname _ _ hfilled⟩
    · obtain ⟨e, he, heq⟩ := ih hport
      exact ⟨e, List.mem_cons_of_mem _ he, heq⟩
  | skip hoptional hrest ih =>
    rcases List.mem_cons.mp hport with rfl | hport
    · rw [hreq] at hoptional
      cases hoptional
    · exact ih hport

/-- With each name once, the omitted names are those of the ports without an entry. -/
theorem mem_omitted (h : Outcomes filled ports evidence omitted)
    (hname : ∀ port e, filled port e → e.reference.portName = port.name)
    (hnd : (ports.map (·.name)).Nodup) (name : Ident) : name ∈ omitted ↔
      (∃ port ∈ ports, port.name = name) ∧ ∀ e ∈ evidence, e.reference.portName ≠ name := by
  induction h with
  | nil => simp
  | @entry port e ports evidence omitted hfilled hrest ih =>
    obtain ⟨hout, hrest'⟩ := List.nodup_cons.mp hnd
    have hsub := (hrest.names hname).2
    rw [ih hrest']
    constructor
    · rintro ⟨⟨q, hq, rfl⟩, hnone⟩
      refine ⟨⟨q, List.mem_cons_of_mem _ hq, rfl⟩, ?_⟩
      intro x hx
      rcases List.mem_cons.mp hx with rfl | hx
      · rw [hname _ _ hfilled]
        intro heq
        have hmem : q.name ∈ ports.map (·.name) := List.mem_map_of_mem hq
        rw [← heq] at hmem
        exact hout hmem
      · exact hnone x hx
    · rintro ⟨⟨q, hq, rfl⟩, hnone⟩
      rcases List.mem_cons.mp hq with rfl | hq
      · exact absurd (hname _ _ hfilled) (hnone e List.mem_cons_self)
      · exact ⟨⟨q, hq, rfl⟩, fun x hx => hnone x (List.mem_cons_of_mem _ hx)⟩
  | @skip port ports evidence omitted hoptional hrest ih =>
    obtain ⟨hout, hrest'⟩ := List.nodup_cons.mp hnd
    have hsub := (hrest.names hname).1
    rw [List.mem_cons, ih hrest']
    constructor
    · rintro (rfl | ⟨⟨q, hq, rfl⟩, hnone⟩)
      · refine ⟨⟨port, List.mem_cons_self, rfl⟩, ?_⟩
        intro e he heq
        have hmem : e.reference.portName ∈ evidence.map (·.reference.portName) :=
          List.mem_map_of_mem he
        rw [heq] at hmem
        exact hout (hsub.subset hmem)
      · exact ⟨⟨q, List.mem_cons_of_mem _ hq, rfl⟩, hnone⟩
    · rintro ⟨⟨q, hq, rfl⟩, hnone⟩
      rcases List.mem_cons.mp hq with rfl | hq
      · exact Or.inl rfl
      · exact Or.inr ⟨⟨q, hq, rfl⟩, hnone⟩

end Outcomes

/-- The loop of a resolution that succeeds goes through the undropped ports as restricted,
in the order of their names, and each one has its outcome. -/
theorem resolve_outcomes {node : NodeSpec} (hnd : (node.evidencePorts.map (·.name)).Nodup)
    {narrowing : Option Narrowing} {m : Manifest}
    (h : r.resolve rt o node narrowing snapshot offers = .ok m) : ∃ ports, ByName ports ∧
      (∀ p, p ∈ ports ↔ ∃ q ∈ node.evidencePorts, q.name ∉ dropped narrowing ∧
        restrict (restrictions narrowing) q = p) ∧
      Outcomes (Sourced rt r o snapshot offers) ports m.evidence m.omitted ∧
      (m.evidence.map size).sum ≤ r.limits.maxTotalBytes := by
  unfold resolve at h
  obtain ⟨ports, hports, h⟩ := bind_ok h
  obtain ⟨_, herrors, h⟩ := bind_ok h
  obtain ⟨digest, -, h⟩ := bind_ok h
  cases h
  have hempty := List.isEmpty_iff.mp (guardOk_ok herrors)
  obtain ⟨hports, -, -⟩ := effectivePorts_ok hnd (mapError_ok hports)
  have hports_nd : (ports.map (·.name)).Nodup := by
    rw [hports, List.map_map]
    exact hnd.sublist (List.filter_sublist.map _)
  obtain ⟨hsorted, hmem⟩ := portMap_spec hports_nd
  have hport : ∀ p, p ∈ portMap ports ↔ ∃ q ∈ node.evidencePorts, q.name ∉ dropped narrowing ∧
      restrict (restrictions narrowing) q = p := by
    intro p
    rw [hmem, hports]
    simp only [List.mem_map, List.mem_filter, decide_eq_true_eq, and_assoc]
  have honly : ∀ name, offers.filter (fun x => x.port = name) =
      ((offers.foldl (stepOffer node (portMap ports)) ([], [])).1.lookup name).toList := by
    intro name
    have hrefused := foldl_stepPort_errors _ _ hempty
    have hnone : ∀ name, ([] : List Offer).filter (fun x => x.port = name) =
        (([] : List (Ident × Offer)).lookup name).toList := fun _ => rfl
    exact foldl_stepOffer offers ([], []) hnone hrefused name
  obtain ⟨evidence, omitted, hout, hevidence, homitted, hleft⟩ :=
    foldl_stepPort honly (portMap ports) _ hempty
  dsimp only at hevidence homitted hleft ⊢
  rw [List.nil_append] at hevidence homitted
  rw [hevidence, homitted]
  exact ⟨_, hsorted, hport, hout, by omega⟩

/-- The digest of a manifest is over its references and the pinned receipts. -/
theorem resolve_digest {node : NodeSpec} {narrowing : Option Narrowing} {m : Manifest}
    (h : r.resolve rt o node narrowing snapshot offers = .ok m) :
    inputManifestDigest rt m.references snapshot.receiptRefs = .ok m.digest := by
  unfold resolve at h
  obtain ⟨ports, -, h⟩ := bind_ok h
  obtain ⟨_, -, h⟩ := bind_ok h
  obtain ⟨digest, hdigest, h⟩ := bind_ok h
  cases h
  exact mapError_ok hdigest

/-- Every entry of a manifest comes from its one origin. -/
theorem resolve_sourced {node : NodeSpec} (hnd : (node.evidencePorts.map (·.name)).Nodup)
    {narrowing : Option Narrowing} {m : Manifest}
    (h : r.resolve rt o node narrowing snapshot offers = .ok m) {e : ResolvedEvidence}
    (he : e ∈ m.evidence) : ∃ q ∈ node.evidencePorts,
      Sourced rt r o snapshot offers (restrict (restrictions narrowing) q) e := by
  obtain ⟨ports, -, hport, hout, -⟩ := resolve_outcomes hnd h
  obtain ⟨port, hin, hsourced⟩ := hout.mem he
  obtain ⟨q, hq, -, rfl⟩ := (hport port).mp hin
  exact ⟨q, hq, hsourced⟩

/-- What `resolve` returns for a node that passes its contract: at most one entry for a
port, in the order of the names, each of a declared port that is not dropped and from
its one origin in the scope the narrowing leaves; an entry for every required port; the
names of all other undropped ports as omitted; and no more bytes than the total. -/
theorem resolved_evidence {node : NodeSpec} (hnode : node.checkContract = [])
    {narrowing : Option Narrowing} {m : Manifest}
    (h : r.resolve rt o node narrowing snapshot offers = .ok m) :
    m.references.Pairwise (fun a b => a.portName.text < b.portName.text) ∧
    (∀ e ∈ m.evidence, ∃ q ∈ node.evidencePorts, e.reference.portName = q.name ∧
      q.name ∉ dropped narrowing ∧
      (∀ x ∈ (restrict (restrictions narrowing) q).allowedSourceScope, x ∈ q.allowedSourceScope) ∧
      Sourced rt r o snapshot offers (restrict (restrictions narrowing) q) e) ∧
    (∀ q ∈ node.evidencePorts, q.required = true →
    ∃ e ∈ m.evidence, e.reference.portName = q.name) ∧
    (∀ name, name ∈ m.omitted ↔ (∃ q ∈ node.evidencePorts, q.name = name) ∧
      name ∉ dropped narrowing ∧ ∀ e ∈ m.evidence, e.reference.portName ≠ name) ∧
    m.omitted.Nodup ∧ (m.evidence.map size).sum ≤ r.limits.maxTotalBytes := by
  have hnd := (checkContract_eq_nil.mp hnode).portNames
  obtain ⟨ports, hsorted, hport, hout, htotal⟩ := resolve_outcomes hnd h
  have heffective : ∃ effective, effectivePorts node narrowing = .ok effective := by
    unfold resolve at h
    obtain ⟨effective, heffective, -⟩ := bind_ok h
    exact ⟨effective, mapError_ok heffective⟩
  obtain ⟨effective, heffective⟩ := heffective
  obtain ⟨-, hscope, hkept⟩ := effectivePorts_ok hnd heffective
  have hsorted_nd : (ports.map (·.name)).Nodup :=
    List.pairwise_map.mpr (hsorted.imp name_ne_of_lt)
  have hname : ∀ port e, Sourced rt r o snapshot offers port e → e.reference.portName = port.name :=
    fun _ _ hs => hs.name
  have hsub := hout.names hname
  refine ⟨?_, ?_, ?_, ?_, hsorted_nd.sublist hsub.2, htotal⟩
  · have hports_lt : (ports.map (·.name)).Pairwise (fun a b : Ident => a.text < b.text) :=
      List.pairwise_map.mpr (hsorted.imp id)
    have hlt := hports_lt.sublist hsub.1
    rw [Manifest.references]
    rw [List.pairwise_map] at hlt ⊢
    exact hlt
  · intro e he
    obtain ⟨port, hin, hsourced⟩ := hout.mem he
    obtain ⟨q, hq, hkeep, rfl⟩ := (hport port).mp hin
    exact ⟨q, hq, hsourced.name, hkeep, hscope q hq hkeep, hsourced⟩
  · intro q hq hreq
    have hin := (hport (restrict (restrictions narrowing) q)).mpr ⟨q, hq, hkept q hq hreq, rfl⟩
    obtain ⟨e, he, hport⟩ := hout.required hname hin hreq
    exact ⟨e, he, hport⟩
  · intro name
    rw [hout.mem_omitted hname hsorted_nd, ← and_assoc]
    refine and_congr_left fun _ => ?_
    constructor
    · rintro ⟨port, hin, rfl⟩
      obtain ⟨q, hq, hkeep, rfl⟩ := (hport port).mp hin
      exact ⟨⟨q, hq, rfl⟩, hkeep⟩
    · rintro ⟨⟨q, hq, rfl⟩, hkeep⟩
      exact ⟨_, (hport _).mpr ⟨q, hq, hkeep, rfl⟩, rfl⟩

open Combined in
theorem resolved_evidence_patch : ∃ m,
    (Controller.resolver build workspace Pilot.now).resolve build.runtime
      (tree Pilot.zeroDigest) csPatch none ⟨patchId, []⟩ (Controller.offersFor csPatch none) =
        .ok m ∧
    ∃ e ∈ m.evidence, e.reference.portName = candidate := by
  have hm := Pilot.get_eq (x :=
    (Controller.resolver build workspace Pilot.now).resolve build.runtime
    (tree Pilot.zeroDigest) csPatch none ⟨patchId, []⟩ (Controller.offersFor csPatch none))
    (by decide +kernel)
  obtain ⟨-, -, hrequired, -⟩ := resolved_evidence (by decide +kernel) hm
  exact ⟨_, hm, hrequired codePort List.mem_cons_self rfl⟩

end Resolver

end Checkspan
