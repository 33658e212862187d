import BankingAgent.JsonDumps
import BankingAgent.Repositories
import Mathlib.Logic.Equiv.Basic

/-!
# `api.py`: what an interrupt leaves behind

When a run stops at an interrupt, `agent_endpoint` stores the pending operation
twice: as a session, with the arguments as the model gave them, and as a grant,
with the arguments as sorted JSON and their hash. The approval compares the two.
-/

namespace BankingAgent

open Async

/-- `str(v)`: a string is itself. -/
def PyLib.str (py : PyLib) : Json → String
  | .str s => s
  | v => py.display v

/-- `str(info.get(name, default))`. -/
def infoString (py : PyLib) (info : Json) (name default : String) : String :=
  ((info.get? name).map py.str).getD default

/-- The names `agent_endpoint` gives to the parts of an interrupt. -/
structure PendingOperation : Type where
  sessionId : String
  userId : String
  threadId : String
  toolName : String
  /-- a dictionary -/
  toolArgs : Json
  toolCallId : String
  idemKey : String

/-- `agent_endpoint`, from the interrupt to its parts. -/
def PendingOperation.ofInterrupt (py : PyLib) (payloadSessionId : Option String)
    (subjectId : String) (info : Json) : PendingOperation :=
  let sessionId := orElse payloadSessionId (infoString py info "session_id" "unknown")
  let toolCallId := infoString py info "tool_call_id" ""
  { sessionId
    userId := subjectId
    threadId := infoString py info "thread_id" sessionId
    toolName := infoString py info "tool_name" "unknown"
    toolArgs := ((info.get? "tool_args").getD (.obj [])).dictOrEmpty
    toolCallId
    idemKey := infoString py info "idempotency_key" s!"{sessionId}:{toolCallId}" }

namespace PendingOperation

variable (py : PyLib)

/-- The `HITLSession` that `agent_endpoint` builds. -/
def session (p : PendingOperation) (now : String) : HITLSession :=
  { sessionId := p.sessionId, userId := p.userId, threadId := p.threadId, status := .pending,
    toolName := p.toolName, toolArgs := p.toolArgs, toolCallId := p.toolCallId,
    authorizationDecision := some "PENDING", approvalRequirement := some "required",
    idempotencyKey := some p.idemKey, version := 1, createdAt := now, updatedAt := now,
    expiresAt := none }

/-- The `GrantRecord` that `agent_endpoint` builds. -/
def grant (p : PendingOperation) (now : String) : GrantRecord :=
  { sessionId := p.sessionId, requestingUserId := p.userId, approvingActorId := "",
    threadId := p.threadId, runId := some p.sessionId, checkpointId := some "",
    toolCallId := p.toolCallId, toolName := p.toolName,
    canonicalToolArgs := py.dumpsSorted p.toolArgs, argumentDigest := py.digest p.toolArgs,
    idempotencyKey := p.idemKey, decision := "PENDING", status := .pending, createdAt := now,
    approvedAt := none, expiresAt := none, consumingAt := none, consumedAt := none,
    failedAt := none, version := 1 }

/-- `agent_endpoint`, from the interrupt to the two inserts. -/
def record (p : PendingOperation) : Co Unit := do
  let now ← isoNow py
  SqliteHITLStore.insert py (p.session now)
  GrantRepository.insertPending (p.grant py now)

/-- The database holds the session and the grant of `p` as they were recorded. -/
structure Recorded (p : PendingOperation) (db : Db) : Prop where
  session : ∃ now, db.hitl.get p.sessionId = some ((p.session now).toRow py)
  grant : ∃ now, db.grants.get p.sessionId = some (p.grant py now)

/-- If both inserts go through, the operation is recorded. -/
theorem record_recorded {p : PendingOperation} {envs : List Env} {db db' : Db}
    (h : (p.record py).solo exec envs db = some (.ok (), db')) : p.Recorded py db' := by
  obtain ⟨env, envs, t, db₁, rfl, he₁, h⟩ := Prog.solo_op h
  obtain ⟨env₂, envs, hit₂, db₂, rfl, he₂, h⟩ := Prog.solo_op h
  obtain ⟨rfl, rfl⟩ := exec_hitl he₂
  cases hins : (HITLOp.exec (.insert ((p.session (py.isoformat t)).toRow py)) db₁.hitl).1 with
  | false =>
    simp only [hins, Prog.ret_bind, Bool.false_eq_true, if_false] at h
    cases h
  | true =>
    simp only [hins, Prog.ret_bind, if_true] at h
    obtain ⟨env₃, envs, hit₃, db₃, rfl, he₃, h⟩ := Prog.solo_op h
    obtain ⟨rfl, rfl⟩ := exec_grant he₃
    cases hins' : (GrantOp.exec (.insertPending (p.grant py (py.isoformat t))) db₁.grants).1 with
    | false =>
      simp only [hins', Prog.ret_bind, Bool.false_eq_true, if_false] at h
      cases h
    | true =>
      simp only [hins', Prog.ret_bind, if_true] at h
      obtain ⟨-, rfl⟩ := Prog.solo_ret h
      refine ⟨⟨py.isoformat t, ?_⟩, ⟨py.isoformat t, ?_⟩⟩
      · exact (Sql.Table.get_insert_of_accepted hins).2 _ |>.trans (if_pos rfl)
      · exact (GrantOp.get_insertPending_of_accepted hins').2 _ |>.trans (if_pos rfl)

end PendingOperation

/-! ## A recorded operation, in the concrete -/

section Demo

/-- The arguments of a transfer. -/
def demoArgs : Json := .obj [("user_id", .str "alice"), ("draft_id", .str "DRF-1")]

/-- `json.dumps(v)`. -/
def demoDumps (v : Json) : String := String.ofList (v.dumps .default 0)

/-- `str(v)`, of a value without strings in it. -/
def demoDisplay : Json → String
  | .null => "None"
  | .bool true => "True"
  | .bool false => "False"
  | v => demoDumps v

/-- The texts of `{}` and of the arguments above, and their hashes. -/
def demoSha256 : Equiv.Perm String :=
  (Equiv.swap "{}" "44136fa355b3678a1146ad16f7e8649e94fb4fc21fe77e8310c060f61caaff8a").trans
    (Equiv.swap (demoDumps demoArgs.sortKeys)
      "df6367c94c73f01b2c4a7311530f5b869e9d97b9ab2f4f1d9befe5a7d41b8acf")

/-- Library functions for concrete runs. They write every value, read what is written of `{}` and
of the arguments above, and know the hashes of these texts and one point in time. -/
def demoPy : PyLib where
  dumps := demoDumps
  loads text := [.obj [], demoArgs, demoArgs.sortKeys].find? fun v => demoDumps v = text
  sha256 := demoSha256
  isoformat _ := "2026-01-01T00:00:00+00:00"
  fromisoformat _ := none
  floatValue repr := if repr = "1.0" then some 1 else none
  repr text := s!"'{text}'"
  display := demoDisplay
  lower := id
  strip := id
  wordChar c := c.isAlphanum || c = '_'

theorem demoPy_sha256_injective : Function.Injective demoPy.sha256 := Equiv.injective _

theorem demoPy_roundTrips_empty : demoPy.RoundTrips (.obj []) := by
  rw [PyLib.RoundTrips]
  decide +kernel

theorem demoPy_roundTrips : demoPy.RoundTrips demoArgs := by
  rw [PyLib.RoundTrips]
  decide +kernel

theorem demoPy_roundTrips_sorted : demoPy.RoundTrips demoArgs.sortKeys := by
  rw [PyLib.RoundTrips]
  decide +kernel

/-- The payload of an interrupt. -/
def demoInterrupt : Json :=
  .obj [("tool_name", .str "submit_transfer"), ("tool_args", demoArgs),
    ("tool_call_id", .str "call-1"), ("session_id", .str "s"), ("thread_id", .str "s"),
    ("idempotency_key", .str "s:call-1")]

/-- The operation it stands for. -/
def demoOperation : PendingOperation := .ofInterrupt demoPy (some "s") "alice" demoInterrupt

/-- The empty database. -/
def Db.empty : Db := ⟨.empty, .empty, .empty, [], .empty⟩

/-- The database `agent_endpoint` leaves behind. -/
def demoDb : Db :=
  { Db.empty with
    hitl := (HITLOp.exec (.insert ((demoOperation.session "t0").toRow demoPy)) .empty).2
    grants := (GrantOp.exec (.insertPending (demoOperation.grant demoPy "t0")) .empty).2 }

theorem demoDb_recorded : demoOperation.Recorded demoPy demoDb := ⟨⟨"t0", rfl⟩, ⟨"t0", rfl⟩⟩

/-- An environment in which everybody agrees: the operator is known, the gateway asks
for approval, and the tool does as told. -/
def demoEnv (outcome : McpOutcome) : Op → Env
  | .now => .instant 0
  | .resolveActor _ => .actor (some ⟨"operator", "test"⟩)
  | .callTool _ _ => .mcp outcome
  | .authorize _ => .decision ⟨.pending, "human approval required for non-read operations"⟩
  | .llm _ => .reply (.ok (.ai "done" []))
  | _ => .silent

/-- The transport answers with success. -/
def demoSuccess : McpOutcome := .adapter true (.ok ⟨true, "ok", none⟩)

/-- The transport answers with a failure. -/
def demoFailure : McpOutcome := .adapter true (.ok ⟨false, "", some "insufficient funds"⟩)

/-- A client that raises. -/
def demoRaise : McpOutcome := .client (.error (.remote "connection reset"))

end Demo

end BankingAgent
