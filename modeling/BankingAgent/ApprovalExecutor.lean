import BankingAgent.Repositories

/-!
# `approval_executor.py`: what happens when a human decides

`approve` walks through the three stores: load the session, approve the grant,
approve the session, claim the grant, look at the idempotency record, reserve it,
call the tool, and record the outcome in all three. `reject` only closes the
session and the grant. There is no transaction around any of it.
-/

namespace BankingAgent

open Async

/-- The values of `ApprovalResult.decision`. -/
inductive ApprovalKind : Type where
  | approved
  | rejected
  | reconciliationRequired
  | error
  deriving DecidableEq, Repr

/-- `ApprovalResult`. -/
structure ApprovalResult : Type where
  decision : ApprovalKind
  sessionId : String
  answer : Option String
  error : Option String
  reconciliationReason : Option String

namespace ApprovalResult

/-- `ApprovalResult("error", session_id, error=…)`. -/
def ofError (sessionId error : String) : ApprovalResult :=
  ⟨.error, sessionId, none, some error, none⟩

/-- `ApprovalResult("approved", session_id, answer=…)`. -/
def ofApproved (sessionId answer : String) : ApprovalResult :=
  ⟨.approved, sessionId, some answer, none, none⟩

end ApprovalResult

namespace HITLApprovalExecutor

variable (py : PyLib)

/-- `approve`, from the moment the tool has answered: the outcome goes into the
idempotency record, the grant and the session, in this order. -/
def settle (session : HITLSession) (sessionId idemKey : String) :
    Except Exn ToolResult → Co ApprovalResult
  | .error _ => do
    let _ ← SqliteIdempotencyStore.markUnknown idemKey
    GrantRepository.markUnknown py sessionId
    let _ ← SqliteHITLStore.updateStatus py sessionId .failed (session.version + 1)
    persistEvent sessionId 4 .checkpoint [("kind", .str "MCP_EXECUTION_UNKNOWN")]
    return .ofError sessionId "MCP dispatch failed — outcome unknown"
  | .ok mcpResult => do
    if mcpResult.success then
      let _ ← SqliteIdempotencyStore.markSucceeded py idemKey mcpResult.content
      GrantRepository.markConsumed py sessionId
      let _ ← SqliteHITLStore.updateStatus py sessionId .resumed (session.version + 1)
      persistEvent sessionId 4 .checkpoint [("kind", .str "MCP_EXECUTION_SUCCEEDED")]
      return .ofApproved sessionId mcpResult.content
    else
      let _ ← SqliteIdempotencyStore.markFailed py idemKey (orElse mcpResult.error "unknown")
      GrantRepository.markFailed py sessionId
      let _ ← SqliteHITLStore.updateStatus py sessionId .failed (session.version + 1)
      persistEvent sessionId 4 .checkpoint [("kind", .str "MCP_EXECUTION_FAILED")]
      return .ofError sessionId ("MCP failed: " ++ mcpResult.error.getD "None")

/-- `approve`, from the reservation of the idempotency key to the call of the tool
with the arguments of the grant. -/
def dispatch (session : HITLSession) (sessionId idemKey : String) (claimed : GrantRecord) :
    Co ApprovalResult := do
  let _ ← SqliteIdempotencyStore.reserve py idemKey session.toolName (some session.toolArgs)
  let execArgs ← decoded (py.loads claimed.canonicalToolArgs)
  let toolCall : ToolCall := ⟨.str claimed.toolName, execArgs⟩
  persistEvent sessionId 3 .checkpoint [("kind", .str "MCP_DISPATCH_STARTED")]
  let mcpResult ← (MCPClient.callTool (.executor sessionId idemKey) toolCall).attempt
  settle py session sessionId idemKey mcpResult

/-- `approve`, once the grant is claimed: the durable idempotency check. -/
def checkAndDispatch (session : HITLSession) (sessionId : String) (claimed : GrantRecord) :
    Co ApprovalResult := do
  persistEvent sessionId 1 .checkpoint [("kind", .str "GRANT_CLAIMED")]
  let idemKey := session.idemKey
  match ← SqliteIdempotencyStore.get py idemKey with
  | none => dispatch py session sessionId idemKey claimed
  | some existing =>
    match existing.status with
    | .succeeded => return .ofApproved sessionId (orElse existing.result "done")
    | .reserved | .executing | .unknown =>
      GrantRepository.markFailed py sessionId
      let _ ← SqliteHITLStore.updateStatus py sessionId .failed (session.version + 1)
      persistEvent sessionId 2 .checkpoint [("kind", .str "REPLAY_DENIED")]
      return .ofError sessionId s!"Idempotency {existing.status.value} — fails closed"
    | .failed => dispatch py session sessionId idemKey claimed

/-- `approve`, once the actor is known: approve the grant, then the session, then
claim the grant. -/
def approveAs (session : HITLSession) (sessionId : String) (actor : TrustedActor) :
    Co ApprovalResult := do
  if ← GrantRepository.approvePending py sessionId actor.actorId 1 then
    if ← SqliteHITLStore.updateStatus py sessionId .approved session.version then
      persistEvent sessionId 0 .checkpoint
        [("kind", .str "APPROVAL_GRANTED"), ("actor", .str actor.actorId)]
      let claimed ← GrantRepository.atomicConsume py sessionId session.userId actor.actorId
        session.threadId sessionId "" session.toolCallId session.toolName session.toolArgs
        session.grantKey 1
      match claimed with
      | none => return .ofError sessionId "Grant already consumed"
      | some grant => checkAndDispatch py session sessionId grant
    else return .ofError sessionId "Session update failed"
  else return .ofError sessionId "Grant approval failed"

/-- `approve`, for a historical record without a tool call id. -/
def reconcile (session : HITLSession) (sessionId : String) : Co ApprovalResult := do
  let _ ← SqliteHITLStore.updateStatus py sessionId .reconciliationRequired session.version
  GrantRepository.markReconciliationRequired py sessionId
  persistEvent sessionId 0 .reconciliationRequired
    [("reason", .str "missing_historical_tool_call_id"), ("session_id", .str sessionId)]
  return ⟨.reconciliationRequired, sessionId, none,
    some "Historical record missing tool_call_id — manual reconciliation required",
    some "missing_historical_tool_call_id"⟩

/-- `HITLApprovalExecutor.approve`. -/
def approve (sessionId : String) (requestContext : Option Json) : Co ApprovalResult := do
  match ← SqliteHITLStore.get py sessionId with
  | none => return .ofError sessionId "Session not found"
  | some session =>
    if session.isTerminal then
      return .ofError sessionId s!"Already {session.status.value}"
    else if ← session.isExpired py then
      let _ ← SqliteHITLStore.updateStatus py sessionId .expired session.version
      return .ofError sessionId "Session expired"
    else if session.toolCallId = "" then reconcile py session sessionId
    else
      match ← perform (.resolveActor requestContext) with
      | none => return .ofError sessionId "Trusted actor identity required"
      | some actor => approveAs py session sessionId actor

/-- `HITLApprovalExecutor.reject`. -/
def reject (sessionId : String) (requestContext : Option Json) : Co ApprovalResult := do
  match ← SqliteHITLStore.get py sessionId with
  | none => return .ofError sessionId "Session not found"
  | some session =>
    if session.isTerminal then
      return .ofError sessionId s!"Already {session.status.value}"
    else
      match ← perform (.resolveActor requestContext) with
      | none => return .ofError sessionId "Trusted actor identity required"
      | some actor =>
        if ← SqliteHITLStore.updateStatus py sessionId .rejected session.version then
          GrantRepository.markRejected py sessionId
          persistEvent sessionId 0 .checkpoint
            [("kind", .str "APPROVAL_REJECTED"), ("actor", .str actor.actorId)]
          return ⟨.rejected, sessionId, some "Operation was rejected by human operator.", none,
            none⟩
        else return .ofError sessionId "Session update failed"

end HITLApprovalExecutor

end BankingAgent
