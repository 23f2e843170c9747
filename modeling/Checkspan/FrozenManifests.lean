import Checkspan.Verification

/-!
# Verifying what was just frozen

Resolution writes source names, paths, top-level directories and receipt ids into locators;
verification reads them back. Between the two nothing changes here, so that a reference is
refused only because its locator is read back to something else.
-/

namespace Checkspan

namespace Resolver

open Narrowing

/-! ### What is read back -/

/-- The top-level directory of an offered repository is registered in the scope of the port. -/
def TopRegistered (d : Disk) (r : Resolver) (q : PortSpec) (offer : Offer) : Prop :=
  ∀ root top, r.sources.lookup offer.source = some (.repository root) →
    d.git.toplevel root = .ok top → r.registeredAt d q top = true

/-- The bytes a source name and a path, written as one text, stand for in the scope of a port:
the name ends at the first slash. -/
def Stands (rt : Runtime) (d : Disk) (r : Resolver) (q : PortSpec) (text : String)
    (bytes : List UInt8) : Prop :=
  ∃ name path root producer attestation validUntil, splitOnce text '/' = some (name, path) ∧
    name ∈ q.allowedSourceScope ∧
    r.sources.lookup name = some (.directory root producer attestation validUntil) ∧
    checkAttestation rt (d.look rt r.now (.directory root producer attestation validUntil)
      (.file path "" "" none)) q.name name attestation = .ok () ∧
    (∀ t, validUntil = some t → t.isBefore r.now = false) ∧
    readContained q.name path (d.file root path) r.limits.maxFileBytes r.limits.maxTotalBytes
      r.limits.maxTotalBytes = .ok bytes

/-- Where the name of the source of an offered file has a slash, its part before the first
slash is the name of another source under which the rest leads to a file of the same digest. -/
def SlashAgrees (rt : Runtime) (d : Disk) (r : Resolver) (q : PortSpec) (offer : Offer) : Prop :=
  ∀ path subject version expected root producer attestation validUntil listed bytes,
    offer.item = .file path subject version expected →
    r.sources.lookup offer.source = some (.directory root producer attestation validUntil) →
    d.file root path = .file listed (.ok bytes) → '/' ∈ offer.source.toList →
    ∃ bytes', Stands rt d r q (offer.source ++ "/" ++ path) bytes' ∧
      artifactDigest rt bytes' = artifactDigest rt bytes

/-- The first receipt pinned under the id of a covered one has its digest. -/
def FirstAgrees (snapshot : DependencySnapshot) (port : PortSpec) : Prop :=
  ∀ dep ∈ snapshot.resolved, covers port dep = true → ∀ first,
    pinned snapshot dep.receipt.id.text = some first → first.resultDigest = dep.resultDigest

/-- Whether the locator a declared port is filled with is read back to what was frozen. -/
def ReadBack (rt : Runtime) (d : Disk) (r : Resolver) (narrowing : Option Narrowing)
    (snapshot : DependencySnapshot) (offers : List Offer) (q : PortSpec) : Prop :=
  (q.kind = .code → ∀ offer ∈ offers, offer.port = q.name → TopRegistered d r q offer) ∧
  (q.kind = .logs → ∀ offer ∈ offers, offer.port = q.name → SlashAgrees rt d r q offer) ∧
  (q.kind = .proofs → q.name ∉ dropped narrowing →
    FirstAgrees snapshot (restrict (restrictions narrowing) q))

/-! ### The entries of a resolution -/

/-- The outcome of a port in a resolution: its one offer, if any, resolved with some part of
the total left. -/
def Filled (rt : Runtime) (r : Resolver) (o : Observed) (snapshot : DependencySnapshot)
    (offers : List Offer) (port : PortSpec) (outcome : Option ResolvedEvidence) : Prop :=
  ∃ offer remaining left, remaining ≤ r.limits.maxTotalBytes ∧
    offers.filter (fun x => x.port = port.name) = offer.toList ∧
    r.resolvePort rt o snapshot offer port remaining = (.ok outcome, left)

section
variable {rt : Runtime} {r : Resolver} {o : Observed} {snapshot : DependencySnapshot}
  {offers : List Offer}

theorem foldl_stepOffer_effective {node : NodeSpec} {ports : List PortSpec} (rest : List Offer)
    (acc : List (Ident × Offer) × List EvidenceError)
    (h : (rest.foldl (stepOffer node ports) acc).2 = []) :
    ∀ offer ∈ rest, ∃ p ∈ ports, p.name = offer.port := by
  induction rest generalizing acc with
  | nil =>
    intro offer hoffer
    cases hoffer
  | cons offer rest ih =>
    have hstep := foldl_stepOffer_errors rest _ h
    refine List.forall_mem_cons.mpr ⟨?_, ih _ h⟩
    unfold stepOffer at hstep
    split at hstep
    · simp at hstep
    · rename_i hport
      simpa using hport

theorem foldl_stepPort_filled {offered : List (Ident × Offer)}
    (honly : ∀ name, offers.filter (fun x => x.port = name) = (offered.lookup name).toList)
    (ports : List PortSpec) (acc : Progress) (hleft : acc.remaining ≤ r.limits.maxTotalBytes)
    (h : (ports.foldl (r.stepPort rt o snapshot offered) acc).errors = []) :
    (∀ e ∈ acc.evidence, e ∈ (ports.foldl (r.stepPort rt o snapshot offered) acc).evidence) ∧
      (∀ p ∈ ports, ∃ outcome, Filled rt r o snapshot offers p outcome ∧ ∀ e, outcome = some e →
        e ∈ (ports.foldl (r.stepPort rt o snapshot offered) acc).evidence) ∧
      ∀ e ∈ (ports.foldl (r.stepPort rt o snapshot offered) acc).evidence, e ∈ acc.evidence ∨
        ∃ p ∈ ports, Filled rt r o snapshot offers p (some e) := by
  induction ports generalizing acc with
  | nil =>
    refine ⟨fun e he => he, ?_, fun e he => Or.inl he⟩
    intro p hp
    cases hp
  | cons port rest ih =>
    rw [List.foldl_cons] at h ⊢
    obtain ⟨outcome, left, hport, hevidence, -, hremaining⟩ :=
      stepPort_ok (foldl_stepPort_errors rest _ h)
    have hle : left ≤ acc.remaining := by
      rcases resolvePort_ok (honly port.name) hport with ⟨e, -, -, hsize⟩ | ⟨-, -, hsize⟩
      · omega
      · omega
    obtain ⟨hkeep, hfilled, hfrom⟩ := ih _ (by rw [hremaining]; omega) h
    rw [hevidence] at hkeep hfrom
    have hfirst : Filled rt r o snapshot offers port outcome :=
      ⟨_, _, left, hleft, honly port.name, hport⟩
    refine ⟨?_, ?_, ?_⟩
    · exact fun e he => hkeep e (List.mem_append_left _ he)
    · refine List.forall_mem_cons.mpr ⟨⟨outcome, hfirst, ?_⟩, hfilled⟩
      rintro e rfl
      exact hkeep e (List.mem_append_right _ List.mem_cons_self)
    · intro e he
      rcases hfrom e he with hin | ⟨p, hp, hin⟩
      · rcases List.mem_append.mp hin with hin | hin
        · exact Or.inl hin
        · rw [Option.mem_toList] at hin
          exact Or.inr ⟨port, List.mem_cons_self, hin ▸ hfirst⟩
      · exact Or.inr ⟨p, List.mem_cons_of_mem _ hp, hin⟩

theorem resolve_filled {node : NodeSpec} (hnd : (node.evidencePorts.map (·.name)).Nodup)
    {narrowing : Option Narrowing} {m : Manifest}
    (h : r.resolve rt o node narrowing snapshot offers = .ok m) : ∃ ports : List PortSpec,
      (∀ p, p ∈ ports ↔ ∃ q ∈ node.evidencePorts, q.name ∉ dropped narrowing ∧
        restrict (restrictions narrowing) q = p) ∧
      (∀ q ∈ node.evidencePorts, q.name ∉ dropped narrowing →
        ∀ x ∈ (restrict (restrictions narrowing) q).allowedSourceScope, x ∈ q.allowedSourceScope) ∧
      (∀ offer ∈ offers, ∃ p ∈ ports, p.name = offer.port) ∧
      (∀ p ∈ ports, ∃ outcome, Filled rt r o snapshot offers p outcome ∧
        ∀ e, outcome = some e → e ∈ m.evidence) ∧
      ∀ e ∈ m.evidence, ∃ p ∈ ports, Filled rt r o snapshot offers p (some e) := by
  unfold resolve at h
  obtain ⟨ports, hports, h⟩ := bind_ok h
  obtain ⟨_, herrors, h⟩ := bind_ok h
  obtain ⟨digest, -, h⟩ := bind_ok h
  cases h
  have hempty := List.isEmpty_iff.mp (guardOk_ok herrors)
  obtain ⟨hports, hscope, -⟩ := effectivePorts_ok hnd (mapError_ok hports)
  have hports_nd : (ports.map (·.name)).Nodup := by
    rw [hports, List.map_map]
    exact hnd.sublist (List.filter_sublist.map _)
  obtain ⟨-, hmem⟩ := portMap_spec hports_nd
  have hrefused := foldl_stepPort_errors _ _ hempty
  have hnone : ∀ name, ([] : List Offer).filter (fun x => x.port = name) =
      (([] : List (Ident × Offer)).lookup name).toList := fun _ => rfl
  have honly : ∀ name, offers.filter (fun x => x.port = name) =
      ((offers.foldl (stepOffer node (portMap ports)) ([], [])).1.lookup name).toList :=
    fun name => foldl_stepOffer offers ([], []) hnone hrefused name
  obtain ⟨-, hfilled, hfrom⟩ := foldl_stepPort_filled honly (portMap ports) _ le_rfl hempty
  refine ⟨portMap ports, ?_, hscope, foldl_stepOffer_effective offers _ hrefused, hfilled, ?_⟩
  · intro p
    rw [hmem, hports]
    simp only [List.mem_map, List.mem_filter, decide_eq_true_eq, and_assoc]
  · intro e he
    rcases hfrom e he with hin | hin
    · cases hin
    · exact hin

/-! ### What a port was filled with -/

theorem seenFor_of_only (rt : Runtime) {d : Disk} {r : Resolver} {name : Ident} {offer : Offer}
    {source : Source}
    (honly : offers.filter (fun x => x.port = name) = [offer])
    (hsource : r.sources.lookup offer.source = some source) :
    d.seenFor rt r offers name = some (d.look rt r.now source offer.item) := by
  unfold Disk.seenFor
  rw [← List.head?_filter, honly, List.head?_cons, Option.bind_eq_bind, Option.bind_some, hsource]
  rfl

theorem Filled.offered {port : PortSpec} {outcome : Option ResolvedEvidence}
    (hkind : port.kind = .code ∨ port.kind = .logs)
    (h : Filled rt r o snapshot offers port outcome) :
    (outcome = none ∧ ∀ offer ∈ offers, offer.port ≠ port.name) ∨
      ∃ offer e remaining left, outcome = some e ∧ remaining ≤ r.limits.maxTotalBytes ∧
        offers.filter (fun x => x.port = port.name) = [offer] ∧
        r.resolveOffer rt o port offer remaining = (.ok e, left) := by
  obtain ⟨offer, remaining, left, hleft, honly, hport⟩ := h
  cases offer with
  | none =>
    refine Or.inl ⟨?_, ?_⟩
    · rcases resolvePort_ok honly hport with ⟨e, rfl, hsourced, -⟩ | ⟨hnone, -⟩
      · unfold resolvePort at hport
        rcases hkind with hkind | hkind
        · rw [hkind] at hport
          dsimp only at hport
          split at hport
          · cases hport
          · cases hport
        · rw [hkind] at hport
          dsimp only at hport
          split at hport
          · cases hport
          · cases hport
      · exact hnone
    · intro offer hoffer hname
      have hin : offer ∈ offers.filter (fun x => x.port = port.name) :=
        List.mem_filter.mpr ⟨hoffer, decide_eq_true hname⟩
      rw [honly] at hin
      cases hin
  | some offer =>
    have hout : ((r.resolveOffer rt o port offer remaining).1.map some,
        (r.resolveOffer rt o port offer remaining).2) = (.ok outcome, left) := by
      unfold resolvePort at hport
      rcases hkind with hkind | hkind
      · rw [hkind] at hport
        exact hport
      · rw [hkind] at hport
        exact hport
    obtain ⟨hvalue, hrest⟩ := Prod.mk.inj hout
    obtain ⟨e, he, rfl⟩ := map_some_ok hvalue
    exact Or.inr ⟨offer, e, remaining, left, rfl, hleft, honly, Prod.ext he hrest⟩

theorem Filled.proof {port : PortSpec} {outcome : Option ResolvedEvidence}
    (hkind : port.kind = .proofs) (h : Filled rt r o snapshot offers port outcome) :
    ∃ dep, snapshot.resolved.filter (covers port) = [dep] ∧
      outcome = some ⟨proofReference port dep, none⟩ := by
  obtain ⟨offer, remaining, left, -, -, hport⟩ := h
  unfold resolvePort at hport
  rw [hkind] at hport
  dsimp only at hport
  split at hport
  · cases hport
  · obtain ⟨hvalue, -⟩ := Prod.mk.inj hport
    obtain ⟨e, he, rfl⟩ := map_some_ok hvalue
    obtain ⟨dep, hdep, rfl⟩ := resolveProof_ok he
    exact ⟨dep, hdep, rfl⟩

theorem Filled.unsupported {port : PortSpec} {outcome : Option ResolvedEvidence}
    (hkind : port.kind = .rag ∨ port.kind = .human)
    (h : Filled rt r o snapshot offers port outcome) : outcome = none := by
  obtain ⟨offer, remaining, left, -, -, hport⟩ := h
  unfold resolvePort at hport
  rcases hkind with hkind | hkind
  · rw [hkind] at hport
    dsimp only at hport
    split at hport
    · cases hport
      rfl
    · cases hport
  · rw [hkind] at hport
    dsimp only at hport
    split at hport
    · cases hport
      rfl
    · cases hport

/-! ### Reading the locators back -/

theorem verifyCode_captured {d : Disk} (hg : d.git.Lawful) {q : PortSpec} {root : String}
    {selection : Selection}
    {c : CapturedPatch} (hcapture : d.git.capture rt d.limits root selection r.now = .ok c)
    (htype : r.checkCodeType rt q = .ok ()) {reference : EvidenceRef}
    (hlocator : reference.locator = codeLocator c.seen)
    (hsubject : reference.subject = codeSubject c.seen) :
    r.verifyCode rt d q reference = .ok () ↔ r.registeredAt d q c.root = true := by
  have hselection : codeSelection reference.locator = some (c.root, locatorSelection
      c.result.candidate.kind c.result.candidate.commit c.result.baseCommit) := by
    rw [hlocator, codeLocator_seen]
    exact codeSelection_locator _ _ _ _
  obtain ⟨-, hagain⟩ := Git.capture_again hg hcapture
  have hseen : d.capture rt r.now c.root (locatorSelection c.result.candidate.kind
      c.result.candidate.commit c.result.baseCommit) = .ok c.seen := by
    unfold Disk.capture
    rw [hagain]
    rfl
  constructor
  · intro h
    obtain ⟨_, -, h⟩ := bind_ok h
    obtain ⟨⟨root', selection'⟩, hlocated, h⟩ := bind_ok h
    obtain ⟨_, hregistered, -⟩ := bind_ok h
    have hroot := someOr_ok hlocated
    rw [hselection] at hroot
    cases hroot
    exact guardOk_ok hregistered
  · intro h
    refine bind_eq_ok.mpr ⟨(), mapError_eq_ok.mpr htype, ?_⟩
    refine bind_eq_ok.mpr ⟨_, someOr_eq_ok.mpr hselection, ?_⟩
    refine bind_eq_ok.mpr ⟨(), guardOk_eq_ok.mpr h, ?_⟩
    refine bind_eq_ok.mpr ⟨_, mapError_eq_ok.mpr hseen, ?_⟩
    exact guardOk_eq_ok.mpr (decide_eq_true hsubject.symm)

theorem verifyLog_eq_ok {d : Disk} {q : PortSpec} {reference : EvidenceRef} {text : String}
    (hlocator : reference.locator = "file:" ++ text) :
    r.verifyLog rt d q reference = .ok () ↔ ∃ bytes, Stands rt d r q text bytes ∧
      artifactDigest rt bytes = reference.contentDigest := by
  have hrest : stripPrefix "file:" reference.locator = some text :=
    Graph.stripPrefix_eq_some.mpr hlocator
  constructor
  · intro h
    obtain ⟨rest, hstrip, h⟩ := bind_ok h
    rw [hrest] at hstrip
    cases someOr_ok hstrip
    obtain ⟨⟨name, path⟩, hsplit, h⟩ := bind_ok h
    obtain ⟨source, hsource, h⟩ := bind_ok h
    obtain ⟨bytes, hread, hdigest⟩ := bind_ok h
    obtain ⟨hscope, hsource⟩ := sourceFor_ok (mapError_ok hsource)
    have hread := mapError_ok hread
    cases source with
    | repository root => cases hread
    | directory root producer attestation validUntil =>
      obtain ⟨u, hattested, hread⟩ := bind_ok hread
      obtain ⟨_, hvalid, hread⟩ := bind_ok hread
      refine ⟨bytes, ⟨name, path, root, producer, attestation, validUntil, someOr_ok hsplit, hscope,
        hsource, hattested, ?_, hread⟩, of_decide_eq_true (guardOk_ok hdigest)⟩
      rintro t rfl
      simpa using guardOk_ok hvalid
  · rintro ⟨bytes, ⟨name, path, root, producer, attestation, validUntil, hsplit, hscope, hsource,
      hattested, hvalid, hread⟩, hdigest⟩
    refine bind_eq_ok.mpr ⟨text, someOr_eq_ok.mpr hrest, ?_⟩
    refine bind_eq_ok.mpr ⟨(name, path), someOr_eq_ok.mpr hsplit, ?_⟩
    have hfound : r.sourceFor q name = .ok (.directory root producer attestation validUntil) := by
      unfold sourceFor
      rw [if_neg (not_not.mpr hscope)]
      exact someOr_eq_ok.mpr hsource
    refine bind_eq_ok.mpr ⟨_, mapError_eq_ok.mpr hfound, ?_⟩
    refine bind_eq_ok.mpr ⟨bytes, mapError_eq_ok.mpr ?_, guardOk_eq_ok.mpr (decide_eq_true hdigest)⟩
    refine bind_eq_ok.mpr ⟨(), hattested, ?_⟩
    refine bind_eq_ok.mpr ⟨(), guardOk_eq_ok.mpr ?_, hread⟩
    cases validUntil with
    | none => rfl
    | some t => simp [hvalid t rfl]

theorem verifyProof_pinned {q : PortSpec} {dep : ResolvedDependency}
    (hdep : dep ∈ snapshot.resolved) :
    verifyProof q (proofReference q dep) snapshot = .ok () ↔ ∀ first,
      pinned snapshot dep.receipt.id.text = some first → first.resultDigest = dep.resultDigest := by
  have hid : stripPrefix "receipt:" (proofReference q dep).locator = some dep.receipt.id.text :=
    Graph.stripPrefix_eq_some.mpr rfl
  constructor
  · intro h first hfirst
    obtain ⟨id, first', hid', hfirst', hdigest⟩ := verifyProof_ok h
    rw [hid] at hid'
    cases hid'
    rw [hfirst] at hfirst'
    cases hfirst'
    exact hdigest
  · intro h
    obtain ⟨first, hfirst⟩ : ∃ first, pinned snapshot dep.receipt.id.text = some first :=
      Option.isSome_iff_exists.mp (List.find?_isSome.mpr ⟨dep, hdep, decide_eq_true rfl⟩)
    refine bind_eq_ok.mpr ⟨_, someOr_eq_ok.mpr hid, ?_⟩
    refine bind_eq_ok.mpr ⟨_, someOr_eq_ok.mpr hfirst, ?_⟩
    exact guardOk_eq_ok.mpr (decide_eq_true (h first hfirst))

/-! ### A filled port, verified -/

variable {d : Disk} {node : NodeSpec} {q : PortSpec} {restricted : List (Ident × List String)}
  {outcome : Option ResolvedEvidence}

theorem verifyReference_declared
    (hq : node.evidencePorts.find? (fun p => p.name = q.name) = some q) {reference : EvidenceRef}
    (hname : reference.portName = q.name) : r.verifyReference rt d node snapshot reference = [] ↔
      (∀ t, reference.validUntil = some t → t.isBefore r.now = false) ∧
        r.verifyKind rt d q reference snapshot = .ok () := by
  rw [verifyReference_eq_nil, hname, hq]
  simp

theorem only_offer {name : Ident} {offer : Offer}
    (honly : offers.filter (fun x => x.port = name) = [offer]) {p : Offer → Prop} :
    (∀ x ∈ offers, x.port = name → p x) ↔ p offer := by
  have hmem : ∀ x, x ∈ offers ∧ x.port = name ↔ x = offer := by
    intro x
    have hiff : x ∈ offers.filter (fun x => x.port = name) ↔ x = offer := by
      rw [honly, List.mem_singleton]
    simpa using hiff
  constructor
  · intro h
    obtain ⟨hin, hname⟩ := (hmem offer).mpr rfl
    exact h offer hin hname
  · intro h x hx hname
    rw [(hmem x).mp ⟨hx, hname⟩]
    exact h

theorem Filled.code_verified (hg : d.git.Lawful)
    (hq : node.evidencePorts.find? (fun p => p.name = q.name) = some q) (hkind : q.kind = .code)
    (h : Filled rt r (d.observe rt r offers) snapshot offers (restrict restricted q) outcome) :
    (∀ e, outcome = some e → r.verifyReference rt d node snapshot e.reference = []) ↔
      ∀ offer ∈ offers, offer.port = q.name → TopRegistered d r q offer := by
  have hkind' : (restrict restricted q).kind = .code := hkind
  rcases h.offered (Or.inl hkind') with
    ⟨rfl, hnone⟩ | ⟨offer, e, remaining, left, rfl, -, honly, hoffer⟩
  · constructor
    · intro _ offer hoffer hname
      exact absurd hname (hnone offer hoffer)
    · intro _ e he
      cases he
  · obtain ⟨root, selection, c, bytes, -, hsource, hitem, htype, hc, -, heq, -⟩ :=
      resolveOffer_code hkind' hoffer
    have he := congrArg ResolvedEvidence.reference heq
    dsimp only at he
    have hseen := seenFor_of_only rt (d := d) honly hsource
    have hcapture : d.capture rt r.now root selection = .ok c := by
      unfold Disk.observe at hc
      dsimp only at hc
      rw [hseen, hitem] at hc
      exact hc
    obtain ⟨patch, hpatch, rfl⟩ : ∃ patch, d.git.capture rt d.limits root selection r.now =
        .ok patch ∧ patch.seen = c := by
      unfold Disk.capture at hcapture
      cases hpatch : d.git.capture rt d.limits root selection r.now with
      | error x => rw [hpatch] at hcapture; cases hcapture
      | ok patch =>
        rw [hpatch] at hcapture
        cases hcapture
        exact ⟨patch, rfl, rfl⟩
    have htop := (Git.capture_again hg hpatch).1
    have htype' : r.checkCodeType rt q = .ok () := htype
    have hcode : r.verifyCode rt d q e.reference = .ok () ↔ r.registeredAt d q patch.root = true :=
      verifyCode_captured hg hpatch htype' (by rw [he]; rfl) (by rw [he]; rfl)
    have hverified : r.verifyReference rt d node snapshot e.reference = [] ↔
        r.registeredAt d q patch.root = true := by
      rw [verifyReference_declared hq (by rw [he]; rfl), ← hcode]
      unfold verifyKind
      rw [hkind, he]
      exact and_iff_right (fun t ht => by cases ht)
    rw [restrict_name] at honly
    rw [only_offer honly]
    constructor
    · intro hall root' top hroot hrootTop
      rw [hsource] at hroot
      cases hroot
      rw [htop] at hrootTop
      cases hrootTop
      exact hverified.mp (hall e rfl)
    · intro hregistered e' he'
      cases he'
      exact hverified.mpr (hregistered root patch.root hsource htop)

theorem Filled.log_verified
    (hq : node.evidencePorts.find? (fun p => p.name = q.name) = some q) (hkind : q.kind = .logs)
    (hscope : ∀ x ∈ (restrict restricted q).allowedSourceScope, x ∈ q.allowedSourceScope)
    (h : Filled rt r (d.observe rt r offers) snapshot offers (restrict restricted q) outcome) :
    (∀ e, outcome = some e → r.verifyReference rt d node snapshot e.reference = []) ↔
      ∀ offer ∈ offers, offer.port = q.name → SlashAgrees rt d r q offer := by
  have hkind' : (restrict restricted q).kind = .logs := hkind
  rcases h.offered (Or.inr hkind') with
    ⟨rfl, hnone⟩ | ⟨offer, e, remaining, left, rfl, hleft, honly, hoffer⟩
  · constructor
    · intro _ offer hoffer hname
      exact absurd hname (hnone offer hoffer)
    · intro _ e he
      cases he
  · obtain ⟨root, producer, attestation, validUntil, path, subject, version, expected, bytes,
      hin, hsource, hitem, hattested, hvalid, hread, hlocator, hdigest, huntil, hname, -⟩ :=
      resolveOffer_log hkind' hoffer
    have hseen := seenFor_of_only rt (d := d) honly hsource
    rw [hitem] at hseen
    have hattested' : checkAttestation rt (d.look rt r.now
        (.directory root producer attestation validUntil) (.file path "" "" none)) q.name
        offer.source attestation = .ok () := by
      unfold checkAttestation at hattested ⊢
      unfold Disk.observe at hattested
      dsimp only at hattested
      rw [hseen] at hattested
      exact hattested
    have hfile : readContained q.name path (d.file root path) r.limits.maxFileBytes remaining
        r.limits.maxTotalBytes = .ok bytes := by
      unfold Disk.observe at hread
      dsimp only at hread
      rw [hseen] at hread
      exact hread
    have htext : e.reference.locator = "file:" ++ (offer.source ++ "/" ++ path) := by
      rw [hlocator]
      simp only [String.append_assoc]
    have hverified : r.verifyReference rt d node snapshot e.reference = [] ↔
        ∃ bytes', Stands rt d r q (offer.source ++ "/" ++ path) bytes' ∧
          artifactDigest rt bytes' = artifactDigest rt bytes := by
      rw [verifyReference_declared hq hname, ← hdigest, ← verifyLog_eq_ok htext]
      unfold verifyKind
      rw [hkind, huntil]
      exact and_iff_right hvalid
    obtain ⟨hclean, listed, hview, hlisted, hlistedLeft, hsize, hsizeLeft⟩ :=
      readContained_eq_ok.mp hfile
    rw [restrict_name] at honly
    rw [only_offer honly]
    constructor
    · intro hall path' subject' version' expected' root' producer' attestation' validUntil' listed'
        found hitem' hsource' hfound hslash
      rw [hitem] at hitem'
      cases hitem'
      rw [hsource] at hsource'
      cases hsource'
      rw [hview] at hfound
      cases hfound
      exact hverified.mp (hall e rfl)
    · intro hagrees e' he'
      cases he'
      refine hverified.mpr ?_
      by_cases hslash : '/' ∈ offer.source.toList
      · exact hagrees path subject version expected root producer attestation validUntil listed
          bytes
          hitem hsource hview hslash
      · refine ⟨bytes, ⟨offer.source, path, root, producer, attestation, validUntil,
          splitOnce_append hslash path, hscope _ hin, hsource, hattested', hvalid, ?_⟩, rfl⟩
        exact readContained_eq_ok.mpr ⟨hclean, listed, hview, hlisted, by omega, hsize, by omega⟩

theorem Filled.proof_verified
    (hq : node.evidencePorts.find? (fun p => p.name = q.name) = some q) (hkind : q.kind = .proofs)
    (h : Filled rt r (d.observe rt r offers) snapshot offers (restrict restricted q) outcome) :
    (∀ e, outcome = some e → r.verifyReference rt d node snapshot e.reference = []) ↔
      FirstAgrees snapshot (restrict restricted q) := by
  have hkind' : (restrict restricted q).kind = .proofs := hkind
  obtain ⟨dep, honly, rfl⟩ := h.proof hkind'
  have hmem : ∀ x, x ∈ snapshot.resolved ∧ covers (restrict restricted q) x = true ↔ x = dep := by
    intro x
    rw [← List.mem_filter, honly, List.mem_singleton]
  have hverified :
      r.verifyReference rt d node snapshot (proofReference (restrict restricted q) dep) =
      [] ↔ ∀ first, pinned snapshot dep.receipt.id.text = some first →
        first.resultDigest = dep.resultDigest := by
    rw [verifyReference_declared hq rfl, ← verifyProof_pinned ((hmem dep).mpr rfl).1]
    unfold verifyKind
    rw [hkind]
    exact and_iff_right (fun t ht => by cases ht)
  constructor
  · intro hall x hx hcovers
    rw [(hmem x).mp ⟨hx, hcovers⟩]
    exact hverified.mp (hall _ rfl)
  · intro hagrees e he
    cases he
    obtain ⟨hin, hcovers⟩ := (hmem dep).mpr rfl
    exact hverified.mpr (hagrees dep hin hcovers)

theorem Filled.verified (hg : d.git.Lawful)
    (hq : node.evidencePorts.find? (fun p => p.name = q.name) = some q)
    {narrowing : Option Narrowing} (hdrop : q.name ∉ dropped narrowing)
    (hscope : ∀ x ∈ (restrict (restrictions narrowing) q).allowedSourceScope,
      x ∈ q.allowedSourceScope)
    (h : Filled rt r (d.observe rt r offers) snapshot offers (restrict (restrictions narrowing) q)
      outcome) :
    (∀ e, outcome = some e → r.verifyReference rt d node snapshot e.reference = []) ↔
      ReadBack rt d r narrowing snapshot offers q := by
  cases hkind : q.kind with
  | code => simp [ReadBack, hkind, h.code_verified hg hq hkind]
  | logs => simp [ReadBack, hkind, h.log_verified hq hkind hscope]
  | proofs => simp [ReadBack, hkind, hdrop, h.proof_verified hq hkind]
  | rag =>
    have hkind' : (restrict (restrictions narrowing) q).kind = .rag := hkind
    simp [ReadBack, hkind, h.unsupported (Or.inl hkind')]
  | human =>
    have hkind' : (restrict (restrictions narrowing) q).kind = .human := hkind
    simp [ReadBack, hkind, h.unsupported (Or.inr hkind')]

/-- What a resolution froze verifies at the same moment on the same disk exactly when the
locator of every declared port is read back to what was frozen. -/
theorem frozen_verifies_iff (hg : d.git.Lawful) (hnode : node.checkContract = [])
    {narrowing : Option Narrowing} {m : Manifest}
    (h : r.resolve rt (d.observe rt r offers) node narrowing snapshot offers = .ok m) :
    r.verify rt d node m.references snapshot = [] ↔
      ∀ q ∈ node.evidencePorts, ReadBack rt d r narrowing snapshot offers q := by
  have hnd := (checkContract_eq_nil.mp hnode).portNames
  obtain ⟨ports, hports, hscope, hoffered, hfilled, hfrom⟩ := resolve_filled hnd h
  have hfind : ∀ q ∈ node.evidencePorts,
      node.evidencePorts.find? (fun p => p.name = q.name) = some q := by
    intro q hq
    obtain ⟨p, hp⟩ : ∃ p, node.evidencePorts.find? (fun p => p.name = q.name) = some p :=
      Option.isSome_iff_exists.mp (List.find?_isSome.mpr ⟨q, hq, decide_eq_true rfl⟩)
    have hname : p.name = q.name := by simpa using List.find?_some hp
    rw [hp, List.inj_on_of_nodup_map hnd (List.mem_of_find?_eq_some hp) hq hname]
  have hverify : r.verify rt d node m.references snapshot = [] ↔
      ∀ e ∈ m.evidence, r.verifyReference rt d node snapshot e.reference = [] := by
    unfold verify Manifest.references
    rw [List.flatMap_eq_nil_iff]
    exact List.forall_mem_map
  rw [hverify]
  constructor
  · intro hall q hq
    by_cases hdrop : q.name ∈ dropped narrowing
    · have hnone : ∀ offer ∈ offers, offer.port ≠ q.name := by
        intro offer hoffer hname
        obtain ⟨p, hp, hpname⟩ := hoffered offer hoffer
        obtain ⟨q', -, hkept, rfl⟩ := (hports p).mp hp
        rw [restrict_name, hname] at hpname
        exact hkept (hpname ▸ hdrop)
      refine ⟨?_, ?_, fun _ hkept => absurd hdrop hkept⟩
      · exact fun _ offer hoffer hname => absurd hname (hnone offer hoffer)
      · exact fun _ offer hoffer hname => absurd hname (hnone offer hoffer)
    · obtain ⟨outcome, hout, hin⟩ := hfilled _ ((hports _).mpr ⟨q, hq, hdrop, rfl⟩)
      exact (hout.verified hg (hfind q hq) hdrop (hscope q hq hdrop)).mp
        (fun e he => hall e (hin e he))
  · intro hread e he
    obtain ⟨p, hp, hout⟩ := hfrom e he
    obtain ⟨q, hq, hdrop, rfl⟩ := (hports p).mp hp
    exact (hout.verified hg (hfind q hq) hdrop (hscope q hq hdrop)).mpr (hread q hq) e rfl

end

section
open Combined (csPatch patchId candidate build)
open Pilot (get_eq)

theorem workDisk_lawful : workDisk.git.Lawful where
  toplevel := by
    intro path root h
    dsimp only [workDisk] at h ⊢
    split at h
    · cases h
      rfl
    · cases h
  resolve := by
    intro root rev commit h
    dsimp only [workDisk] at h ⊢
    split at h
    · cases h
      exact if_pos (Or.inr rfl)
    · cases h
  firstParent := by
    intro root commit parent h
    cases h

def workOffer : Offer :=
  { port := candidate, source := repoSource, item := .candidate ⟨.workingTree, none⟩ }

theorem frozen_verifies_iff_work : ∃ m, (workResolver "/work").resolve build.runtime
    (workDisk.observe build.runtime (workResolver "/work") [workOffer]) csPatch none ⟨patchId, []⟩
      [workOffer] = .ok m ∧
    ((workResolver "/work").verify build.runtime workDisk csPatch m.references ⟨patchId, []⟩ = [] ↔
      ∀ q ∈ csPatch.evidencePorts, ReadBack build.runtime workDisk (workResolver "/work") none
        ⟨patchId, []⟩ [workOffer] q) := by
  have hm := get_eq (x := (workResolver "/work").resolve build.runtime
    (workDisk.observe build.runtime (workResolver "/work") [workOffer]) csPatch none ⟨patchId, []⟩
      [workOffer]) (by decide +kernel)
  exact ⟨_, hm, frozen_verifies_iff workDisk_lawful (by decide +kernel) hm⟩

theorem frozen_below_top_refused : ∃ m, workDisk.git.Lawful ∧ csPatch.checkContract = [] ∧
    (workResolver "/work/sub").resolve build.runtime
      (workDisk.observe build.runtime (workResolver "/work/sub") [workOffer]) csPatch none
        ⟨patchId, []⟩ [workOffer] = .ok m ∧
    (workResolver "/work/sub").verify build.runtime workDisk csPatch m.references ⟨patchId, []⟩ =
      [.evidence (.unregisteredSource candidate "/work")] := by
  have hm := get_eq (x := (workResolver "/work/sub").resolve build.runtime
    (workDisk.observe build.runtime (workResolver "/work/sub") [workOffer]) csPatch none
      ⟨patchId, []⟩ [workOffer]) (by decide +kernel)
  exact ⟨_, workDisk_lawful, by decide +kernel, hm, by decide +kernel⟩

end

end Resolver

end Checkspan
