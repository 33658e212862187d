import BankingAgent.Orchestration

/-!
# `agent.py`: one request to the agent

`run` logs the message, asks the router which way it goes, and takes that way: one tool
call with arguments a model extracts, a plan, an answer from a model alone, the transfer
workflow, a refusal, or the graph. `resume` continues a graph that waits for a human.

Every event is logged under a number its place in the code fixes.
-/

namespace BankingAgent

open Async

/-- `TrustedRequestContext`, as far as it is read. -/
structure TrustedContext : Type where
  subjectId : String
  tenantId : String

/-- `resume_from_state`, when it is not empty. -/
structure ResumeState : Type where
  messages : List Message
  stepCount : ℕ
  finalAnswer : Option String
  executedToolIds : List String

/-- The arguments of `run`, with the identifiers it draws. -/
structure RunArgs : Type where
  userMessage : String
  /-- `run_id or str(uuid.uuid4())` -/
  runId : String
  /-- `thread_id or run_id` -/
  threadId : String
  resumeFromState : Option ResumeState
  trustedContext : Option TrustedContext
  /-- the plan id, should there be a plan -/
  planId : String

/-- What `run` returns, without the messages. -/
structure RunResult : Type where
  /-- the value under `__interrupt__` -/
  interrupt : Option Json
  sessionId : Option String
  finalAnswer : Option String
  stepCount : ℕ
  status : Option String

/-- An answer without the graph. -/
def RunResult.answer (runId finalAnswer : String) (stepCount : ℕ) (status : Option String) :
    RunResult :=
  ⟨none, some runId, some finalAnswer, stepCount, status⟩

/-- The result of the graph, as it is. -/
def GraphResult.toRunResult (r : GraphResult) : RunResult :=
  ⟨r.interrupt, r.state.sessionId, r.state.finalAnswer, r.state.stepCount, none⟩

/-- `_IDENTITY_TOOLS`. -/
def identityTools : List String :=
  ["get_account_summary", "get_balance", "list_transactions", "create_transfer_draft",
    "submit_transfer", "cancel_transfer", "report_suspicious_transaction"]

/-- What `final_answer` is logged as. -/
def finalAnswerJson (answer : Option String) : Json := (answer.map Json.str).getD .null

namespace AgentRuntime

variable (rt : AgentRuntime)

/-! ## The routes -/

/-- The instructions of the direct route. -/
def directSystem (toolName : String) : String :=
  s!"You are a banking assistant. Extract the required parameters for the tool '{toolName}' " ++
    "from the user's request. Do NOT include user_id or tenant_id — these are handled by the " ++
    "system. Respond with ONLY a JSON object. Do not add any other text."

/-- The arguments with the identity of the trusted context, whatever the model said.
Only a dictionary takes them. -/
def injectIdentity (toolName : String) (trusted : Option TrustedContext) (args : Json) :
    Except Exn Json :=
  match trusted with
  | none => .ok args
  | some context =>
    if toolName ∈ identityTools then
      match args with
      | .obj fields =>
        .ok (.obj (Json.setField "tenant_id" (.str context.tenantId)
          (Json.setField "user_id" (.str context.subjectId) fields)))
      | _ => .error .typeError
    else .ok args

/-- `_execute_direct`, for the first suggested tool. -/
def executeDirect (args : RunArgs) (toolName : String) : Co RunResult := do
  let unauthenticated := match args.trustedContext with
    | none => true
    | some context => context.subjectId = "anonymous" || context.subjectId = ""
  if toolName ∈ identityTools ∧ unauthenticated = true then
    return .answer args.runId "Authentication is required for this operation." 1 "auth_required"
  else
    let reply ← perform (.llm [.system (directSystem toolName), .human args.userMessage])
    match reply.toOption.bind fun response =>
        rt.py.loads (extractJsonBlock rt.py (rt.py.strip response.content)) with
    | none =>
      return .answer args.runId
        ("I had trouble understanding your request. Could you rephrase it with the specific " ++
          "account or details you're asking about?") 1 "error_recovery"
    | some extracted =>
      let toolArgs ← raised (injectIdentity toolName args.trustedContext extracted)
      let result ← MCPClient.callTool .direct ⟨.str toolName, toolArgs⟩
      let finalAnswer :=
        if result.success then result.content else "Error: " ++ result.error.getD "None"
      persistEvent args.runId 2 .agentMessage [("final_answer", .str finalAnswer)]
      return .answer args.runId finalAnswer 1 none

/-- The answer at the end of a plan. -/
def planSummary (results : List StepResult) : String :=
  let lines := (results.filter StepResult.success).map fun r =>
    "- " ++ String.ofList (r.output.toList.take 200)
  s!"Task completed in {results.length} steps:\n" ++ "\n".intercalate lines

/-- `_execute_planner`. -/
def executePlanner (args : RunArgs) (route : Route) : Co RunResult := do
  match ← rt.plan args.planId args.userMessage 3 with
  | none =>
    return .answer args.runId
      "I could not create a valid plan for this request. Could you rephrase?" 0 none
  | some plan =>
    let validation ← raised (rt.validate (route.maxSteps.getD 15) plan)
    if validation.valid = false then
      return .answer args.runId
        s!"I'm unable to process this request: {validation.reason}" 0 none
    else
      persistEvent args.runId 1 .checkpoint
        [("kind", .str "PLAN_CREATED"), ("plan_id", .str plan.planId),
          ("steps", .int plan.steps.length)]
      match ← rt.executeSteps plan plan.steps [] with
      | .completed results =>
        return .answer args.runId (planSummary results) results.length none
      | .aborted step reason before =>
        return .answer args.runId s!"Step '{rt.py.str step.objective}' failed: {reason}"
          (before + 1) none

/-- The instructions of the knowledge route. -/
def ragSystem : String :=
  "You are a banking knowledge assistant. Answer the user's question to the best of your " ++
    "knowledge, but clearly state when you are uncertain. Never fabricate specific fee " ++
    "amounts, policy details, or regulatory information. Suggest the user contact their bank " ++
    "for definitive answers."

/-- `_execute_rag`; no retriever is ever attached to the runtime. -/
def executeRag (args : RunArgs) : Co RunResult := do
  let reply ← perform (.llm [.system ragSystem, .human args.userMessage])
  let response ← raised reply
  persistEvent args.runId 2 .agentMessage [("final_answer", .str response.content)]
  return .answer args.runId response.content 1 none

/-- The instructions of the transfer workflow. -/
def transferSystem : String :=
  "You are a banking transfer assistant. Help the user create a transfer by extracting: " ++
    "source_account_id, beneficiary name/id, amount, and currency. After creating a draft, " ++
    "summarize the transfer details and ask for confirmation before submitting. Use the " ++
    "tools: find_beneficiary, create_transfer_draft. Do NOT call submit_transfer — the user " ++
    "must explicitly confirm first."

/-- `_execute_transfer_workflow`: the answer it makes of the state, suspended or not. -/
def executeTransferWorkflow (args : RunArgs) : Co RunResult := do
  match ← perform (.llm [.system transferSystem, .human args.userMessage]) with
  | .error _ =>
    return .answer args.runId
      ("I was unable to process your transfer request. Please try again with the recipient " ++
        "name, amount, and currency clearly specified.") 0 "error"
  | .ok response =>
    let result ← rt.ainvoke args.threadId
      { messages := [.human args.userMessage, response], sessionId := args.runId, stepCount := 1,
        finalAnswer := none, executedToolIds := none }
    let last := (result.state.messages.getLast?.map Message.content).getD "Transfer processed."
    return .answer args.runId (orElse result.state.finalAnswer last) result.state.stepCount none

/-! ## `run` and `resume` -/

/-- The state `run` starts the graph with. -/
def initialInput (args : RunArgs) : GraphInput :=
  match args.resumeFromState with
  | some old =>
    { messages := old.messages, sessionId := args.runId, stepCount := old.stepCount,
      finalAnswer := some old.finalAnswer, executedToolIds := some old.executedToolIds }
  | none =>
    { messages := [.human args.userMessage], sessionId := args.runId, stepCount := 0,
      finalAnswer := some none, executedToolIds := some [] }

/-- `run`, from the invocation of the graph on. -/
def runThroughGraph (args : RunArgs) : Co RunResult := do
  let input := initialInput args
  match ← (rt.ainvoke args.threadId input).attempt with
  | .error exc =>
    match exc with
    | .runtime _ =>
      persistEvent args.runId (input.stepCount + 1) .checkpoint
        [("state", .obj [("step_count", .int input.stepCount), ("session_id", .str args.runId)])]
      throw exc
    | _ => throw exc
  | .ok result =>
    match result.interrupt with
    | some info =>
      persistEvent args.runId (input.stepCount + 1) .checkpoint
        [("kind", .str "HITL_INTERRUPT"), ("interrupt", info)]
      return ⟨some info, some args.runId, none, input.stepCount, none⟩
    | none =>
      persistEvent args.runId (input.stepCount + 1) .agentMessage
        [("final_answer", finalAnswerJson result.state.finalAnswer)]
      return result.toRunResult

/-- The answer to a message nobody is responsible for. -/
def rejection (args : RunArgs) : RunResult :=
  .answer args.runId
    ("I'm sorry, but I can't help with that request. I can assist with account inquiries, " ++
      "transfers, beneficiary lookups, and policy questions.") 0 "rejected"

/-- `run`, once the message is routed. -/
def runRoute (args : RunArgs) (route : Route) : Co RunResult :=
  match route.kind, args.resumeFromState with
  | .direct, none =>
    match route.suggestedTools with
    | toolName :: _ => rt.executeDirect args toolName
    | [] => rt.runThroughGraph args
  | .planner, none => rt.executePlanner args route
  | .rag, none => executeRag args
  | .reject, _ => return rejection args
  | .transferStateMachine, none => rt.executeTransferWorkflow args
  | _, some _ => rt.runThroughGraph args

/-- `AgentRuntime.run`. -/
def run (args : RunArgs) : Co RunResult := do
  if args.resumeFromState.isNone then
    persistEvent args.runId 0 .userMessage [("content", .str args.userMessage)]
  match rt.router with
  | none => rt.runThroughGraph args
  | some router =>
    let route := router.route rt.py args.userMessage
    persistEvent args.runId ((initialInput args).stepCount + 1) .checkpoint
      [("kind", .str "INTENT_CLASSIFIED"), ("intent", .str route.intent.value),
        ("route", .str route.kind.value)]
    rt.runRoute args route

/-- `AgentRuntime.resume`, with the run id it is given or draws. -/
def resume (threadId : String) (resumeValue : Json) (runId : String) : Co GraphResult := do
  let result ← rt.ainvokeResume threadId resumeValue
  persistEvent runId 0 .agentMessage
    [("final_answer", finalAnswerJson result.state.finalAnswer)]
  return result

end AgentRuntime

end BankingAgent
