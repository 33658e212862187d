import BankingAgent.Effects

/-!
# The methods of the stores

Each method of a store as a coroutine: the look at the clock for its time stamp,
then its statements, then what it makes of the answer.
-/

namespace BankingAgent

open Async

section Primitives

/-- Await an operation. -/
abbrev perform (o : Op) : Co o.Res := Prog.await o

/-- `datetime.now(timezone.utc).isoformat()`. -/
def isoNow (py : PyLib) : Co String := do
  let t ← perform .now
  return py.isoformat t

/-- `raise`. -/
abbrev throw {α : Type} (e : Exn) : Co α := Prog.raise e

/-- A value that decodes, or `JSONDecodeError`. -/
def decoded {α : Type} : Option α → Co α
  | some a => .ret a
  | none => throw .jsonDecode

end Primitives

variable (py : PyLib)

namespace SqliteHITLStore

/-- `SqliteHITLStore.insert`. -/
def insert (session : HITLSession) : Co Unit := do
  if ← perform (.hitl (.insert (session.toRow py))) then return ()
  throw .integrity

/-- `SqliteHITLStore.get`. -/
def get (sessionId : String) : Co (Option HITLSession) := do
  match ← perform (.hitl (.select sessionId)) with
  | none => return none
  | some row =>
    let session ← decoded (row.toSession py)
    return some session

/-- `SqliteHITLStore.update_status`. -/
def updateStatus (sessionId : String) (status : HITLSessionStatus) (expectedVersion : ℕ) :
    Co Bool := do
  let now ← isoNow py
  perform (.hitl (.updateStatus sessionId status now expectedVersion))

/-- `SqliteHITLStore.expire_stale_sessions`. -/
def expireStaleSessions : Co ℕ := do
  let now ← isoNow py
  perform (.hitl (.expireStale now))

end SqliteHITLStore

namespace GrantRepository

/-- `GrantRepository.insert_pending`. -/
def insertPending (grant : GrantRecord) : Co Unit := do
  if ← perform (.grant (.insertPending grant)) then return ()
  throw .integrity

/-- `GrantRepository.atomic_consume`: the conditional `UPDATE`, then the claimed row
read back. -/
def atomicConsume (sessionId userId approvingActorId threadId runId checkpointId toolCallId
    toolName : String) (toolArgs : Json) (idempotencyKey : String) (version : ℕ) :
    Co (Option GrantRecord) := do
  let digest := py.digest toolArgs
  let now ← isoNow py
  let hit ← perform (.grant (.update (.consume sessionId
    { userId, approvingActorId, threadId, runId, checkpointId, toolCallId, toolName, digest,
      idempotencyKey, version } now)))
  if hit then perform (.grant (.selectConsuming sessionId)) else return none

/-- `GrantRepository.get_by_session`. -/
def getBySession (sessionId : String) : Co (Option GrantRecord) :=
  perform (.grant (.select sessionId))

/-- What the `mark_*` methods have in common. -/
def mark (m : GrantMark) (sessionId : String) : Co Unit := do
  let now ← isoNow py
  let _ ← perform (.grant (.update (.mark m sessionId now)))
  return ()

/-- `GrantRepository.mark_consumed`. -/
def markConsumed (sessionId : String) : Co Unit := mark py .consumed sessionId

/-- `GrantRepository.mark_failed`. -/
def markFailed (sessionId : String) : Co Unit := mark py .failed sessionId

/-- `GrantRepository.mark_rejected`. -/
def markRejected (sessionId : String) : Co Unit := mark py .rejected sessionId

/-- `GrantRepository.mark_reconciliation_required`. -/
def markReconciliationRequired (sessionId : String) : Co Unit :=
  mark py .reconciliationRequired sessionId

/-- `GrantRepository.mark_unknown`. -/
def markUnknown (sessionId : String) : Co Unit := mark py .unknown sessionId

/-- `GrantRepository.approve_pending`. -/
def approvePending (sessionId approvingActorId : String) (expectedVersion : ℕ) : Co Bool := do
  let now ← isoNow py
  perform (.grant (.update (.approvePending sessionId approvingActorId expectedVersion now)))

end GrantRepository

namespace SqliteIdempotencyStore

/-- `SqliteIdempotencyStore.get`. -/
def get (key : String) : Co (Option IdempotencyRecord) := do
  match ← perform (.idem (.select key)) with
  | none => return none
  | some row =>
    let record ← decoded (row.toRecord py)
    return some record

/-- `tool_args or {}`. -/
def argsOrEmpty : Option Json → Json
  | some args => if args.truthy then args else .obj []
  | none => .obj []

/-- `SqliteIdempotencyStore.reserve`: `INSERT OR IGNORE`, then the record that is
there now. `_row_to_record(None)` is a `TypeError`. -/
def reserve (key toolName : String) (toolArgs : Option Json) : Co IdempotencyRecord := do
  let now ← isoNow py
  let _ ← perform (.idem (.reserve key toolName (py.dumps (argsOrEmpty toolArgs)) now))
  match ← perform (.idem (.select key)) with
  | none => throw .typeError
  | some row => decoded (row.toRecord py)

/-- `SqliteIdempotencyStore.mark_executing`. -/
def markExecuting (key : String) : Co Bool := perform (.idem (.update key .executing))

/-- `SqliteIdempotencyStore.mark_succeeded`. -/
def markSucceeded (key result : String) : Co Bool := do
  let now ← isoNow py
  perform (.idem (.update key (.succeeded result now)))

/-- `SqliteIdempotencyStore.mark_failed`. -/
def markFailed (key error : String) : Co Bool := do
  let now ← isoNow py
  perform (.idem (.update key (.failed error now)))

/-- `SqliteIdempotencyStore.mark_unknown`. -/
def markUnknown (key : String) : Co Bool := perform (.idem (.update key .unknown))

end SqliteIdempotencyStore

/-- `_persist_event`: a refused insert is logged and forgotten. The write transaction it leaves
open on the connection of the event log is not modelled here; it is in the way of the other stores
where they are on the file of the log. -/
def persistEvent (runId : String) (seq : ℕ) (kind : EventKind) (payload : List (String × Json)) :
    Co Unit := do
  let _ ← perform (.event ⟨runId, seq, kind, .obj payload⟩)
  return ()

/-- `MCPClient.call_tool`. -/
def MCPClient.callTool (site : Site) (call : ToolCall) : Co ToolResult := do
  match ← perform (.callTool site call) with
  | .ok result => return result
  | .error exc => throw exc

/-- `HITLSession.is_expired`: no deadline, or the empty one, is never over. -/
def HITLSession.isExpired (s : HITLSession) : Co Bool := do
  match s.expiresAt with
  | none => return false
  | some text =>
    if text = "" then return false
    let t ← perform .now
    match py.fromisoformat text with
    | some deadline => return decide (deadline < t)
    | none => throw .valueError

end BankingAgent
