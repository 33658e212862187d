import BankingAgent.Async.Pool
import BankingAgent.Stores.Hitl
import BankingAgent.Stores.Grant
import BankingAgent.Stores.Idempotency
import BankingAgent.Stores.Events
import BankingAgent.Mcp
import BankingAgent.Auth
import BankingAgent.State

/-!
# The operations of the service

Everything the modelled code awaits, in one signature. A statement of a store,
executed and committed, is one operation; so is a call of the tool server, of the
gateway or of a model, and a look at the clock. Between two operations the code is
pure, so these are the points at which calls interleave and at which the process
can die.

`exec` says what an operation does to the database once the environment has made
its choice. The stores leave it none; the clock, the gateway, the actor resolver,
the models and the tool server are nothing but choices.
-/

namespace BankingAgent

open Async

/-- Where a tool call comes from. The program does not pass this along; it labels
the calls so that a history says which of them are calls for the same operation. -/
inductive Site : Type where
  /-- `HITLApprovalExecutor.approve`, for a session, under an idempotency key -/
  | executor (sessionId idemKey : String)
  /-- `_tool_node`, for the call `toolCallId` of message number `message`, under its
  idempotency key if it has one -/
  | node (message : ℕ) (toolCallId : String) (idemKey : Option String)
  /-- `StepExecutor.execute_step` -/
  | step (stepId : Json)
  /-- `AgentRuntime._execute_direct` -/
  | direct
  deriving DecidableEq

/-- The idempotency key a tool call is made under. -/
def Site.idemKey? : Site → Option String
  | executor _ idemKey => some idemKey
  | node _ _ idemKey => idemKey
  | step _ => none
  | direct => none

/-- The statements of the checkpointer. -/
inductive ThreadOp : Type where
  /-- the latest checkpoint of a thread -/
  | load (threadId : String)
  /-- store a checkpoint -/
  | save (checkpoint : Checkpoint)

/-- What the modelled code awaits. -/
inductive Op : Type where
  /-- `datetime.now(timezone.utc)` -/
  | now
  /-- a statement of `SqliteHITLStore` -/
  | hitl (o : HITLOp)
  /-- a statement of `GrantRepository` -/
  | grant (o : GrantOp)
  /-- a statement of `SqliteIdempotencyStore` -/
  | idem (o : IdempotencyOp)
  /-- `EventStore.insert` -/
  | event (e : AgentEvent)
  /-- a statement of the checkpointer -/
  | thread (o : ThreadOp)
  /-- `ApprovalActorResolver.resolve` -/
  | resolveActor (context : Option Json)
  /-- `MCPClient.call_tool` -/
  | callTool (site : Site) (call : ToolCall)
  /-- `AuthorizationGateway.authorize` -/
  | authorize (operation : Operation)
  /-- `interrupt(payload)`, and the answer it had when the node reached it -/
  | interrupt (payload : Json) (answer : Option Json)
  /-- `LLMProvider.invoke` -/
  | llm (messages : List Message)

/-- What a statement of the checkpointer answers. -/
abbrev ThreadOp.Res : ThreadOp → Type
  | load _ => Option Checkpoint
  | save _ => Unit

/-- What an operation answers. -/
abbrev Op.Res : Op → Type
  | now => Instant
  | hitl o => o.Res
  | grant o => o.Res
  | idem o => o.Res
  | event _ => Bool
  | thread o => o.Res
  | resolveActor _ => Option TrustedActor
  | callTool _ _ => Except Exn ToolResult
  | authorize _ => AuthorizationDecision
  | interrupt _ _ => Unit
  | llm _ => Except Exn Message

/-- A coroutine of the service. -/
abbrev Co (α : Type) : Type := Prog Op Op.Res Exn α

/-- The database. -/
structure Db : Type where
  hitl : HITLTable
  grants : GrantTable
  idem : IdempotencyTable
  events : EventTable
  threads : Sql.Table Checkpoint.threadId

/-- What the environment chooses. -/
inductive Env : Type where
  /-- nothing -/
  | silent
  | instant (t : Instant)
  | actor (a : Option TrustedActor)
  | mcp (outcome : McpOutcome)
  | decision (d : AuthorizationDecision)
  | reply (r : Except Exn Message)

/-- Store a checkpoint: the latest one of its thread. -/
def saveCheckpoint (t : Sql.Table Checkpoint.threadId) (c : Checkpoint) :
    Sql.Table Checkpoint.threadId :=
  match t.get c.threadId with
  | none => (t.insert (fun _ => false) c).2
  | some _ =>
    (t.update c.threadId
      ⟨fun _ => true, fun old => { c with threadId := old.threadId }, fun _ => rfl⟩).2

/-- What is stored after a checkpoint. -/
theorem get_saveCheckpoint {t : Sql.Table Checkpoint.threadId} {c : Checkpoint} {k : String} :
    (saveCheckpoint t c).get k = if k = c.threadId then some c else t.get k := by
  rw [saveCheckpoint]
  cases hold : t.get c.threadId with
  | none =>
    have haccepted : (t.insert (fun _ => false) c).1 = true := Sql.Table.insert_accepted
      (fun r hr hkey => Sql.Table.get_eq_none_iff.mp hold (List.mem_map.mpr ⟨r, hr, hkey⟩))
      fun _ _ => rfl
    exact (Sql.Table.get_insert_of_accepted haccepted).2 k
  | some old =>
    by_cases hk : k = c.threadId
    · rw [if_pos hk, hk]
      refine (Sql.Table.get_update_of_some hold).trans ?_
      have hthread : old.threadId = c.threadId := Sql.Table.key_of_get hold
      simp [Sql.Change.apply, hthread]
    · rw [if_neg hk]
      exact Sql.Table.get_update_of_ne hk

/-- Execute a statement of the checkpointer. -/
def ThreadOp.exec : (o : ThreadOp) → Sql.Table Checkpoint.threadId →
    o.Res × Sql.Table Checkpoint.threadId
  | load threadId, t => (t.get threadId, t)
  | save c, t => ((), saveCheckpoint t c)

/-- What an operation answers and leaves behind; `none` where the environment's
choice is not one for this operation. -/
def exec : (o : Op) → Env → Db → Option (o.Res × Db)
  | .now, .instant t, db => some (t, db)
  | .hitl o, .silent, db => some ((o.exec db.hitl).1, { db with hitl := (o.exec db.hitl).2 })
  | .grant o, .silent, db => some ((o.exec db.grants).1, { db with grants := (o.exec db.grants).2 })
  | .idem o, .silent, db => some ((o.exec db.idem).1, { db with idem := (o.exec db.idem).2 })
  | .event e, .silent, db =>
    some ((db.events.insert e).1, { db with events := (db.events.insert e).2 })
  | .thread o, .silent, db =>
    some ((o.exec db.threads).1, { db with threads := (o.exec db.threads).2 })
  | .resolveActor _, .actor a, db => some (a, db)
  | .callTool _ call, .mcp outcome, db => some (outcome.answer call, db)
  | .authorize _, .decision d, db => some (d, db)
  | .interrupt _ _, .silent, db => some ((), db)
  | .llm _, .reply r, db => some (r, db)
  | _, _, _ => none

/-! ## What an operation leaves behind -/

section Exec

variable {env : Env} {db db' : Db}

/-- A statement on the sessions answers and changes what its table says. -/
theorem exec_hitl {o : HITLOp} {r : o.Res} (h : exec (.hitl o) env db = some (r, db')) :
    r = (o.exec db.hitl).1 ∧ db' = { db with hitl := (o.exec db.hitl).2 } := by
  cases env <;> cases h
  exact ⟨rfl, rfl⟩

/-- A statement on the grants does the same. -/
theorem exec_grant {o : GrantOp} {r : o.Res} (h : exec (.grant o) env db = some (r, db')) :
    r = (o.exec db.grants).1 ∧ db' = { db with grants := (o.exec db.grants).2 } := by
  cases env <;> cases h
  exact ⟨rfl, rfl⟩

theorem exec_idem {o : IdempotencyOp} {r : o.Res} (h : exec (.idem o) env db = some (r, db')) :
    r = (o.exec db.idem).1 ∧ db' = { db with idem := (o.exec db.idem).2 } := by
  cases env <;> cases h
  exact ⟨rfl, rfl⟩

theorem exec_event {e : AgentEvent} {r : Bool} (h : exec (.event e) env db = some (r, db')) :
    db' = { db with events := (db.events.insert e).2 } := by
  cases env <;> cases h
  rfl

theorem exec_thread {o : ThreadOp} {r : o.Res} (h : exec (.thread o) env db = some (r, db')) :
    r = (o.exec db.threads).1 ∧ db' = { db with threads := (o.exec db.threads).2 } := by
  cases env <;> cases h
  exact ⟨rfl, rfl⟩

/-- A tool call leaves the database as it is; the environment answers. -/
theorem exec_callTool {site : Site} {call : ToolCall} {r : Except Exn ToolResult}
    (h : exec (.callTool site call) env db = some (r, db')) :
    db' = db ∧ ∃ outcome, env = .mcp outcome ∧ r = outcome.answer call := by
  cases env <;> cases h
  exact ⟨rfl, _, rfl, rfl⟩

/-- What an operation does to the sessions. -/
def Op.hitlAfter : Op → HITLTable → HITLTable
  | hitl o, t => (o.exec t).2
  | _, t => t

/-- What an operation does to the grants. -/
def Op.grantsAfter : Op → GrantTable → GrantTable
  | grant o, t => (o.exec t).2
  | _, t => t

/-- What an operation does to the idempotency records. -/
def Op.idemAfter : Op → IdempotencyTable → IdempotencyTable
  | idem o, t => (o.exec t).2
  | _, t => t

/-- What an operation does to the checkpoints. -/
def Op.threadsAfter : Op → Sql.Table Checkpoint.threadId → Sql.Table Checkpoint.threadId
  | thread o, t => (o.exec t).2
  | _, t => t

/-- A checkpoint that is stored after an operation was stored before, or has just been. -/
theorem Op.get_threadsAfter {o : Op} {t : Sql.Table Checkpoint.threadId} {k : String}
    {cp : Checkpoint} (h : (o.threadsAfter t).get k = some cp) :
    t.get k = some cp ∨ o = .thread (.save cp) ∧ cp.threadId = k := by
  cases o with
  | thread o =>
    cases o with
    | load threadId => exact .inl h
    | save cp' =>
      rw [threadsAfter, ThreadOp.exec, get_saveCheckpoint] at h
      split at h
      · rename_i hk
        obtain rfl := Option.some.inj h
        exact .inr ⟨rfl, hk.symm⟩
      · exact .inl h
  | _ => exact .inl h

/-- Each table is changed by its own statements only. -/
theorem exec_frame {o : Op} {r : o.Res} (h : exec o env db = some (r, db')) :
    db'.hitl = o.hitlAfter db.hitl ∧ db'.grants = o.grantsAfter db.grants ∧
      db'.idem = o.idemAfter db.idem ∧ db'.threads = o.threadsAfter db.threads := by
  cases o <;> cases env <;> cases h <;> exact ⟨rfl, rfl, rfl, rfl⟩

theorem exec_hitlAfter {o : Op} {r : o.Res} (h : exec o env db = some (r, db')) :
    db'.hitl = o.hitlAfter db.hitl := (exec_frame h).1

theorem exec_grantsAfter {o : Op} {r : o.Res} (h : exec o env db = some (r, db')) :
    db'.grants = o.grantsAfter db.grants := (exec_frame h).2.1

theorem exec_idemAfter {o : Op} {r : o.Res} (h : exec o env db = some (r, db')) :
    db'.idem = o.idemAfter db.idem := (exec_frame h).2.2.1

/-- The operations that only log, look at the clock or ask somebody. -/
def Op.Quiet : Op → Prop
  | now => True
  | event _ => True
  | resolveActor _ => True
  | authorize _ => True
  | interrupt _ _ => True
  | llm _ => True
  | _ => False

/-- A quiet operation changes at most the event log. -/
theorem exec_quiet {o : Op} {r : o.Res} (hq : o.Quiet) (h : exec o env db = some (r, db')) :
    db'.hitl = db.hitl ∧ db'.grants = db.grants ∧ db'.idem = db.idem ∧
      db'.threads = db.threads := by
  cases o <;> first | exact hq.elim | exact exec_frame h

end Exec

/-- One line of the history of the service. -/
abbrev LogEntry (Call : Type) : Type := Entry Call Env Op Op.Res

end BankingAgent
