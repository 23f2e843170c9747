import Checkspan.Contracts.Gate

/-!
# Node views (`src/contracts/view.rs`)

The derived status record of one node within one run, and the rules it must
satisfy.
-/

namespace Checkspan

/-- Derived status of one node within one run (`view.rs:69-97`). -/
structure NodeView extends RecordHeader where
  runId : RunId
  node : NodeRef
  status : NodeStatus
  currentAttempt : Option AttemptNumber
  receipt : Option ReceiptRef
  blockedReason : Option String
  waitingOnGate : Option Ident
deriving DecidableEq

def NodeView.toJson (v : NodeView) : Json :=
  .obj (v.toRecordHeader.fields ++ [("run_id", v.runId.toJson), ("node", v.node.toJson),
    ("status", .str v.status.asStr)] ++
    Json.optField "current_attempt" (v.currentAttempt.map (·.toJson)) ++
    Json.optField "receipt" (v.receipt.map (·.toJson)) ++
    Json.optField "blocked_reason" (v.blockedReason.map .str) ++
    Json.optField "waiting_on_gate" (v.waitingOnGate.map (·.toJson)))

/-- A rule that a structurally valid view breaks. -/
inductive ViewError where
  | receiptRequired (status : NodeStatus)
  | receiptNotAllowed (status : NodeStatus)
  | receiptForOtherNode (receipt : ReceiptRef)
  | receiptForOtherRun (receipt : ReceiptRef)
  | attemptRequired (status : NodeStatus)
  | gateRequired
  | gateNotAllowed (status : NodeStatus)
  | blockedReasonNotAllowed (status : NodeStatus)
deriving DecidableEq

def ViewError.display : ViewError → String
  | receiptRequired s => "status " ++ s.asStr ++ " requires the receipt that determined it"
  | receiptNotAllowed s => "status " ++ s.asStr ++ " cannot carry a receipt"
  | receiptForOtherNode r => "receipt " ++ r.display ++ " is about another node"
  | receiptForOtherRun r => "receipt " ++ r.display ++ " was issued in another run"
  | attemptRequired s => "status " ++ s.asStr ++ " requires a current attempt"
  | gateRequired => "status gated requires waiting_on_gate"
  | gateNotAllowed s => "status " ++ s.asStr ++ " cannot wait on a gate"
  | blockedReasonNotAllowed s => "status " ++ s.asStr ++ " cannot carry a blocked_reason"

namespace NodeStatus

/-- The statuses a receipt determines. -/
def needsReceipt : NodeStatus → Bool
  | .accepted => true
  | .rejected => true
  | _ => false

/-- The statuses that describe an attempt. -/
def needsAttempt : NodeStatus → Bool
  | .running => true
  | .accepted => true
  | .rejected => true
  | .failed => true
  | .gated => true
  | _ => false

end NodeStatus

namespace NodeView

def receiptErrors (v : NodeView) : List ViewError :=
  match v.receipt, v.status.needsReceipt with
  | none, true => [.receiptRequired v.status]
  | some _, false => [.receiptNotAllowed v.status]
  | some receipt, true =>
    (if receipt.node ≠ v.node then [.receiptForOtherNode receipt] else []) ++
    (if receipt.runId ≠ v.runId then [.receiptForOtherRun receipt] else [])
  | none, false => []

def attemptErrors (v : NodeView) : List ViewError :=
  if v.status.needsAttempt && v.currentAttempt.isNone then [.attemptRequired v.status] else []

def gateErrors (v : NodeView) : List ViewError :=
  match v.waitingOnGate with
  | none => if v.status = .gated then [.gateRequired] else []
  | some _ => if v.status ≠ .gated then [.gateNotAllowed v.status] else []

def blockedErrors (v : NodeView) : List ViewError :=
  if v.status ≠ .open && v.blockedReason.isSome then [.blockedReasonNotAllowed v.status] else []

/-- `check_bindings` (`view.rs:148-189`). -/
def checkBindings (v : NodeView) : List ViewError :=
  v.receiptErrors ++ v.attemptErrors ++ v.gateErrors ++ v.blockedErrors

end NodeView

end Checkspan
