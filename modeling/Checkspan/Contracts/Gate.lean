import Checkspan.Contracts.Attempt

/-!
# Gate packets, gate decisions and node status

`src/contracts/gate.rs`, with the node status of `src/contracts/view.rs`.
-/

namespace Checkspan

/-- Node status within a run (`view.rs:18-37`). -/
inductive NodeStatus where
  | open
  | running
  | accepted
  | rejected
  | failed
  | gated
  | cancelled
deriving DecidableEq

def NodeStatus.asStr : NodeStatus → String
  | .open => "open"
  | .running => "running"
  | .accepted => "accepted"
  | .rejected => "rejected"
  | .failed => "failed"
  | .gated => "gated"
  | .cancelled => "cancelled"

/-- The typed decision an authority can make. -/
inductive DecisionKind where
  | retry
  | revise
  | cancel
  | approveAction
  | denyAction
  | recordAssessment
deriving DecidableEq

def DecisionKind.asStr : DecisionKind → String
  | retry => "retry"
  | revise => "revise"
  | cancel => "cancel"
  | approveAction => "approve_action"
  | denyAction => "deny_action"
  | recordAssessment => "record_assessment"

def DecisionKind.toJson (d : DecisionKind) : Json := .str d.asStr

/-- Why a packet exists. -/
inductive GatePurpose where
  | resolveWork
  | assessClaims
  | authorizeAction
deriving DecidableEq

def GatePurpose.asStr : GatePurpose → String
  | resolveWork => "resolve_work"
  | assessClaims => "assess_claims"
  | authorizeAction => "authorize_action"

def GatePurpose.toJson (p : GatePurpose) : Json := .str p.asStr

/-- `allowed_decisions` (`gate.rs:47-59`). -/
def GatePurpose.allowedDecisions : GatePurpose → List DecisionKind
  | resolveWork => [.retry, .revise, .cancel]
  | assessClaims => [.recordAssessment]
  | authorizeAction => [.approveAction, .denyAction]

/-- Privileged actions that only a human authority can grant. -/
inductive ActionKind where
  | send
  | merge
  | secretAccess
  | pay
  | delete
deriving DecidableEq

def ActionKind.asStr : ActionKind → String
  | send => "send"
  | merge => "merge"
  | secretAccess => "secret_access"
  | pay => "pay"
  | delete => "delete"

/-- One exact privileged action against one exact target. -/
structure ActionRequest where
  action : ActionKind
  target : String
deriving DecidableEq

def ActionRequest.toJson (a : ActionRequest) : Json :=
  .obj [("action", .str a.action.asStr), ("target", .str a.target)]

/-- What kind of sealed context a packet references. -/
inductive ContextKind where
  | attempt
  | receipt
  | artifact
  | claimMatrix
deriving DecidableEq

def ContextKind.asStr : ContextKind → String
  | attempt => "attempt"
  | receipt => "receipt"
  | artifact => "artifact"
  | claimMatrix => "claim_matrix"

/-- Sealed context the authority is asked to consider. -/
structure ContextRef where
  kind : ContextKind
  id : String
  digest : Digest
deriving DecidableEq

def ContextRef.toJson (c : ContextRef) : Json :=
  .obj [("kind", .str c.kind.asStr), ("id", .str c.id), ("digest", c.digest.toJson)]

/-- What the packet asks for. -/
structure RequestedDecision where
  options : List DecisionKind
  action : Option ActionRequest
deriving DecidableEq

def RequestedDecision.toJson (r : RequestedDecision) : Json :=
  .obj (("options", .arr (r.options.map (·.toJson))) ::
    Json.optField "action" (r.action.map (·.toJson)))

/-- A bounded decision request for a human authority (`gate.rs:188-219`). -/
structure GatePacket extends RecordHeader where
  id : Ident
  runId : RunId
  node : NodeRef
  purpose : GatePurpose
  contextRefs : List ContextRef
  subjectDigest : Digest
  requestedDecision : RequestedDecision
  authorityPolicyRef : PolicyRef
  createdAt : Timestamp
  expiresAt : Timestamp
deriving DecidableEq

/-- A rule that a structurally valid packet or decision breaks. -/
inductive GateError where
  | noOptions
  | duplicateOption (option : DecisionKind)
  | optionNotAllowedForPurpose (purpose : GatePurpose) (option : DecisionKind)
  | actionRequired
  | actionNotAllowed (purpose : GatePurpose)
  | emptyContext
  | duplicateContextRef (id : String)
  | emptyIdentity
  | assessmentRequired
  | assessmentNotAllowed (decision : DecisionKind)
  | emptyReviewedClaims
  | actionScopeRequired (decision : DecisionKind)
  | actionScopeNotAllowed (decision : DecisionKind)
deriving DecidableEq

def GateError.display : GateError → String
  | noOptions => "packet offers no decision"
  | duplicateOption d => "option " ++ d.asStr ++ " is offered more than once"
  | optionNotAllowedForPurpose p o => "a " ++ p.asStr ++ " packet cannot offer " ++ o.asStr
  | actionRequired => "an authorize_action packet must name the exact action"
  | actionNotAllowed p => "a " ++ p.asStr ++ " packet cannot name an action"
  | emptyContext => "packet references no sealed context"
  | duplicateContextRef id => "context reference " ++ id.quote ++ " appears more than once"
  | emptyIdentity => "authority identity is empty"
  | assessmentRequired => "record_assessment requires an assessment payload"
  | assessmentNotAllowed d => "a " ++ d.asStr ++ " decision cannot carry an assessment"
  | emptyReviewedClaims => "assessment reviews no claims"
  | actionScopeRequired d => "a " ++ d.asStr ++ " decision must name the exact action in scope"
  | actionScopeNotAllowed d => "a " ++ d.asStr ++ " decision cannot name an action in scope"

namespace GatePacket

def toJson (p : GatePacket) : Json :=
  .obj (p.toRecordHeader.fields ++ [("id", p.id.toJson), ("run_id", p.runId.toJson),
    ("node", p.node.toJson), ("purpose", p.purpose.toJson),
    ("context_refs", .arr (p.contextRefs.map (·.toJson))),
    ("subject_digest", p.subjectDigest.toJson),
    ("requested_decision", p.requestedDecision.toJson),
    ("authority_policy_ref", p.authorityPolicyRef.toJson), ("created_at", p.createdAt.toJson),
    ("expires_at", p.expiresAt.toJson)])

def optionErrors (purpose : GatePurpose) (seen : List DecisionKind) :
    List DecisionKind → List GateError
  | [] => []
  | o :: rest =>
    (if o ∈ seen then [.duplicateOption o]
      else if o ∉ purpose.allowedDecisions then [.optionNotAllowedForPurpose purpose o]
      else []) ++ optionErrors purpose (o :: seen) rest

/-- `check_bindings` (`gate.rs:420-456`). -/
def checkBindings (p : GatePacket) : List GateError :=
  (if p.requestedDecision.options.isEmpty then [.noOptions] else []) ++
  optionErrors p.purpose [] p.requestedDecision.options ++
  (match p.purpose, p.requestedDecision.action with
    | .authorizeAction, none => [.actionRequired]
    | .resolveWork, some _ => [.actionNotAllowed p.purpose]
    | .assessClaims, some _ => [.actionNotAllowed p.purpose]
    | _, _ => []) ++
  (if p.contextRefs.isEmpty then [.emptyContext] else []) ++
  (repeats (p.contextRefs.map (fun c => (c.kind, c.id)))).map (fun c => .duplicateContextRef c.2)

end GatePacket

/-! ### Decisions -/

inductive AssessmentOutcome where
  | adequateSupport
  | inadequateSupport
  | cannotDetermine
deriving DecidableEq

def AssessmentOutcome.asStr : AssessmentOutcome → String
  | adequateSupport => "adequate_support"
  | inadequateSupport => "inadequate_support"
  | cannotDetermine => "cannot_determine"

/-- A scoped semantic assessment (`gate.rs:251-264`). -/
structure Assessment where
  claimMatrixDigest : Digest
  reviewedClaimIds : List Ident
  outcome : AssessmentOutcome
  rationaleRef : Option String
deriving DecidableEq

def Assessment.toJson (a : Assessment) : Json :=
  .obj ([("claim_matrix_digest", a.claimMatrixDigest.toJson),
    ("reviewed_claim_ids", .arr (a.reviewedClaimIds.map (·.toJson))),
    ("outcome", .str a.outcome.asStr)] ++
    Json.optField "rationale_ref" (a.rationaleRef.map .str))

/-- Exactly what a decision covers. -/
structure DecisionScope where
  runId : RunId
  node : NodeRef
  action : Option ActionRequest
deriving DecidableEq

def DecisionScope.toJson (s : DecisionScope) : Json :=
  .obj ([("run_id", s.runId.toJson), ("node", s.node.toJson)] ++
    Json.optField "action" (s.action.map (·.toJson)))

/-- Who decided and how that is authenticated. -/
structure Authority where
  identity : String
  level : ProvenanceLevel
deriving DecidableEq

def Authority.toJson (a : Authority) : Json :=
  .obj [("identity", .str a.identity), ("level", .str a.level.asStr)]

/-- An authenticated decision bound to one gate packet (`gate.rs:287-318`). -/
structure GateDecision extends RecordHeader where
  gatePacketId : Ident
  gatePacketDigest : Digest
  authority : Authority
  decidedAt : Timestamp
  decision : DecisionKind
  assessment : Option Assessment
  scope : DecisionScope
  expiresAt : Option Timestamp
  authorizationRef : Option String
deriving DecidableEq

def GateDecision.toJson (d : GateDecision) : Json :=
  .obj (d.toRecordHeader.fields ++ [("gate_packet_id", d.gatePacketId.toJson),
    ("gate_packet_digest", d.gatePacketDigest.toJson), ("authority", d.authority.toJson),
    ("decided_at", d.decidedAt.toJson), ("decision", d.decision.toJson)] ++
    Json.optField "assessment" (d.assessment.map (·.toJson)) ++
    [("scope", d.scope.toJson)] ++
    Json.optField "expires_at" (d.expiresAt.map (·.toJson)) ++
    Json.optField "authorization_ref" (d.authorizationRef.map .str))

namespace GateDecision

def assessmentErrors (d : GateDecision) : List GateError :=
  match d.assessment with
  | none => if d.decision = .recordAssessment then [.assessmentRequired] else []
  | some a =>
    if d.decision ≠ .recordAssessment then [.assessmentNotAllowed d.decision]
    else if a.reviewedClaimIds.isEmpty then [.emptyReviewedClaims] else []

def isAction (d : GateDecision) : Bool := d.decision = .approveAction || d.decision = .denyAction

/-- `check_bindings` of a decision (`gate.rs:463-490`). -/
def checkBindings (d : GateDecision) : List GateError :=
  (if isBlank d.authority.identity then [.emptyIdentity] else []) ++ d.assessmentErrors ++
  (if d.isAction && d.scope.action.isNone then [.actionScopeRequired d.decision]
    else if !d.isAction && d.scope.action.isSome then [.actionScopeNotAllowed d.decision] else [])

end GateDecision

end Checkspan
