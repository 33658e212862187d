import BankingAgent.Server
import BankingAgent.DirectRoute
import BankingAgent.Banking.ToolHandlers

/-!
# `bootstrap.py`: the application as it is put together

The server leaves everything outside it to the environment. `bootstrap_app` fixes most of that: the
gateway has a policy, the approvals a resolver, and the tools of the registry are those of the bank
that sits behind the client, in the same process. What is left to choose is the clock, the replies
of the model and the ids the bank draws.

* `Application` — the server with its policy, its resolver and its bank.
* `bootstrapApp` — the one `bootstrap_app` builds.
* `Application.reach_server` — its runs are runs of the server.
-/

namespace BankingAgent

open Async

/-! ## `auth.py` -/

/-- `AuthorizationPolicy.authorize` of `auth.py`. -/
abbrev GatewayPolicy : Type := Operation → AuthorizationDecision

/-- `OperationKind.value`. -/
def OperationKind.value : OperationKind → String
  | read => "read"
  | write => "write"
  | transfer => "transfer"
  | delete => "delete"
  | config => "config"

/-- `ReadOnlyPolicy`. -/
def readOnlyPolicy : GatewayPolicy := fun operation =>
  if operation.kind = .read then ⟨.approved, "read operations are always permitted"⟩
  else ⟨.denied, s!"{operation.kind.value} operations are not permitted in read-only mode"⟩

/-- `RequireApprovalPolicy`. -/
def requireApprovalPolicy : GatewayPolicy := fun operation =>
  if operation.kind = .read then ⟨.approved, "read operations are always permitted"⟩
  else ⟨.pending, "human approval required for non-read operations"⟩

theorem readOnlyPolicy_ne_pending (operation : Operation) :
    (readOnlyPolicy operation).decision ≠ .pending := by
  rw [readOnlyPolicy]
  split <;> simp

theorem readOnlyPolicy_denied_iff {operation : Operation} :
    (readOnlyPolicy operation).decision = .denied ↔ operation.kind ≠ .read := by
  rw [readOnlyPolicy]
  split <;> simp_all

/-! ## `actor_resolver.py` -/

/-- `ApprovalActorResolver.resolve`. -/
abbrev ActorResolver : Type := Option Json → Option TrustedActor

/-- `DevelopmentHeaderResolver.resolve`, for headers that are strings; `header` is in lower case. -/
def developmentHeaderResolver (header : String) : ActorResolver
  | none => none
  | some context =>
    match ((context.get? "headers").getD (.obj [])).get? header with
    | some (.str identity) => if identity = "" then none else some ⟨identity, "header"⟩
    | _ => none

/-! ## The registry -/

/-- `name.startswith(stem)`. -/
def startsWith (stem name : String) : Bool := stem.toList.isPrefixOf name.toList

/-- The `side_effect` of a schema: a tool reads if its name says so. -/
def bootstrapSideEffect (name : String) : Bool :=
  !(startsWith "get_" name || startsWith "list_" name || startsWith "find_" name)

/-- The `risk` of a schema. -/
def bootstrapRisk (name : String) : RiskLevel :=
  if name = "submit_transfer" then .critical
  else if name ∈ ["create_transfer_draft", "cancel_transfer", "report_suspicious_transaction"] then
    .high
  else if bootstrapSideEffect name then .medium
  else .low

/-- The definition made of a schema. -/
def bootstrapTool (schema : String × List (String × String) × List String) : ToolDefinition where
  name := schema.1
  inputSchema := objectSchema schema.2.1 schema.2.2
  sideEffect := bootstrapSideEffect schema.1
  riskLevel := bootstrapRisk schema.1

/-- `ToolRegistry(tool_defs)`. -/
def bootstrapRegistry : ToolRegistry := ⟨toolSchemas.map bootstrapTool, by decide⟩

/-- The name says whether a tool is `READ_ONLY`. -/
theorem bootstrapSideEffect_iff {definition : ToolDefinition}
    (h : definition ∈ bootstrapRegistry.tools) :
    definition.sideEffect = false ↔ toolRisk definition.name = some .readOnly := by
  have hall : ∀ schema ∈ toolSchemas, (bootstrapTool schema).sideEffect = false ↔
      toolRisk (bootstrapTool schema).name = some .readOnly := by decide
  obtain ⟨schema, hschema, rfl⟩ := List.mem_map.mp h
  exact hall schema hschema

/-! ## The bank behind the client -/

/-- `BankingMCPServer.invoke_tool`; what a handler returns is rendered by `json.dumps`. -/
def BankingMCPServer.invokeTool (py : PyLib) (lib : BankLib) (call : ToolCall)
    (input : HandlerInput) (bank : StoredBank) : MCPToolResult × StoredBank :=
  let outcome := executeTool lib (py.str call.name) call.arguments input bank
  let result : MCPToolResult := match outcome.1 with
    | .ok value => ⟨true, py.dumps value, none⟩
    | .error error => if error = "" then ⟨true, "", none⟩ else ⟨false, "", some error⟩
  (result, outcome.2)

/-- What is outside the server: its policy, its resolver and its bank. -/
structure Application : Type extends AgentRuntime where
  policy : GatewayPolicy
  resolver : ActorResolver
  lib : BankLib

/-- What the application works on: the database, and the bank in memory. -/
structure World : Type where
  db : Db
  bank : StoredBank

/-- What is left to choose. The provider raises what a provider raises. -/
inductive Choice : Type where
  /-- nothing -/
  | silent
  | instant (t : Instant)
  | input (i : HandlerInput)
  | reply (m : Message)
  /-- `RuntimeError` -/
  | refusal (message : String)
  /-- any other exception of the provider -/
  | failure (message : String)

namespace Application

variable (app : Application)

/-- What the choice is to the server. -/
def env : (o : Op) → Choice → World → Option Env
  | .now, .instant t, _ => some (.instant t)
  | .resolveActor context, .silent, _ => some (.actor (app.resolver context))
  | .authorize operation, .silent, _ => some (.decision (app.policy operation))
  | .callTool _ call, .input i, w =>
    some (.mcp (.adapter true
      (.ok (BankingMCPServer.invokeTool app.py app.lib call i w.bank).1)))
  | .llm _, .reply m, _ => some (.reply (.ok m))
  | .llm _, .refusal message, _ => some (.reply (.error (.runtime message)))
  | .llm _, .failure message, _ => some (.reply (.error (.remote message)))
  | .hitl _, .silent, _ | .grant _, .silent, _ | .idem _, .silent, _ | .event _, .silent, _
  | .thread _, .silent, _ | .interrupt _ _, .silent, _ => some .silent
  | _, _, _ => none

/-- What becomes of the bank. -/
def bankAfter : Op → Choice → StoredBank → StoredBank
  | .callTool _ call, .input i, bank =>
    (BankingMCPServer.invokeTool app.py app.lib call i bank).2
  | _, _, bank => bank

/-- What an operation answers and leaves behind. -/
def exec (o : Op) (choice : Choice) (w : World) : Option (o.Res × World) :=
  (app.env o choice w).bind fun env =>
    (BankingAgent.exec o env w.db).map fun answer =>
      (answer.1, ⟨answer.2, app.bankAfter o choice w.bank⟩)

/-- The application: any number of requests. -/
def machine : Machine Op Op.Res Exn Response Request Choice World := ⟨app.exec, app.serve⟩

end Application

/-- The application of `bootstrap_app` with a database, around the model `llm` names. -/
def bootstrapApp (py : PyLib) (lib : BankLib) (resolver : ActorResolver)
    (maxAgentSteps recursionLimit : ℕ) : Application where
  py := py
  toolRegistry := some bootstrapRegistry
  idempotencyStore := true
  maxAgentSteps := maxAgentSteps
  recursionLimit := recursionLimit
  router := some ⟨none⟩
  policy := readOnlyPolicy
  resolver := resolver
  lib := lib

/-! ## The application is a server -/

section Project

variable {app : Application}

theorem Application.of_exec {o : Op} {choice : Choice} {w w' : World} {r : o.Res}
    (h : app.exec o choice w = some (r, w')) :
    ∃ env, app.env o choice w = some env ∧ BankingAgent.exec o env w.db = some (r, w'.db) ∧
      w'.bank = app.bankAfter o choice w.bank := by
  obtain ⟨env, henv, h⟩ := Option.bind_eq_some_iff.mp h
  obtain ⟨⟨r', db'⟩, hexec, h⟩ := Option.map_eq_some_iff.mp h
  cases h
  exact ⟨env, henv, hexec, rfl⟩

/-- The application and a server in the same situation. -/
structure Application.Projects (c : app.machine.Config) (s : app.toAgentRuntime.server.Config) :
    Prop where
  shared : s.shared = c.shared.db
  threads : s.threads = c.threads
  hist : List.Forall₂
    (fun (e : Entry Request Choice Op Op.Res) (e' : LogEntry Request) =>
      e'.tid = e.tid ∧ e'.call = e.call ∧
        (⟨e'.op, e'.res⟩ : Event Op Op.Res) = ⟨e.op, e.res⟩) c.hist s.hist

/-- **The application is a server**: what it does, the server does, under some choices of the
environment. -/
theorem Application.reach_server {w : World} {c : app.machine.Config}
    (h : app.machine.Reach (.crashing fun _ => True) (Pool.init w) c) :
    ∃ s, app.toAgentRuntime.server.Reach (.crashing fun _ => True) (Pool.init w.db) s ∧
      Application.Projects c s := by
  induction h with
  | refl => exact ⟨_, .refl, rfl, rfl, .nil⟩
  | tail _ hs ih =>
    obtain ⟨s, hreach, hshared, hthreads, hhist⟩ := ih
    cases hs with
    | spawn call =>
      refine ⟨_, hreach.tail (.spawn call trivial (by rintro ⟨⟩)), hshared, ?_, hhist⟩
      simp only [Pool.spawn, hthreads]
      rfl
    | @step i call o k choice r w' here hexec ok =>
      obtain ⟨env, -, hexec', -⟩ := Application.of_exec hexec
      have here' : s.At i call (.op o k) := by
        rw [Pool.At, hthreads]
        exact here
      rw [← hshared] at hexec'
      refine ⟨_, hreach.tail (.step here' hexec' trivial), rfl, ?_, .cons ⟨rfl, rfl, rfl⟩ hhist⟩
      simp only [Pool.advance, hthreads]
    | crash =>
      refine ⟨_, hreach.tail (.crash trivial), hshared, ?_, hhist⟩
      simp only [Pool.crash, hthreads]

end Project

end BankingAgent
