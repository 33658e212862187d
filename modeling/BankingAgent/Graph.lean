import BankingAgent.Service
import BankingAgent.Routing

/-!
# `graph.py`: the agent loop

Two nodes. The agent node asks the model; the tool node goes through the tool calls
of the model's last message, one after the other, and puts each of them through the
same gate: validation, the calls executed before, authorization, the durable record,
and only then the tool server.

Around the nodes stands LangGraph. A superstep runs one node and stores a
checkpoint. `interrupt` ends the run at a call that waits for a human; a resume runs
that node again from its start, and the interrupts it has already got past return the
answers they were given.
-/

namespace BankingAgent

open Async

/-- What `AgentRuntime` is built with, apart from its clients and stores. -/
structure AgentRuntime : Type extends Deployment where
  /-- an idempotency store is configured -/
  idempotencyStore : Bool
  /-- `AgentConfig.max_agent_steps` -/
  maxAgentSteps : ℕ
  /-- LangGraph's limit on the supersteps of one invocation -/
  recursionLimit : ℕ
  router : Option Router

/-! ## One tool call -/

/-- What `_tool_node` makes of a call. -/
inductive Answer : Type where
  /-- the validation refused it -/
  | rejected (error : String)
  /-- its id is among the executed ones -/
  | alreadyExecuted
  /-- the gateway refused it -/
  | denied (reason : String)
  /-- the human refused it -/
  | declined (reason : String)
  /-- the resume value is neither an approval nor a rejection -/
  | invalidApproval
  /-- the durable record holds a result -/
  | stored (existing : IdempotencyRecord)
  /-- the durable record is unfinished -/
  | outcomeUnknown
  /-- the tool server answered -/
  | executed (result : ToolResult)

/-- The content of the `ToolMessage`. -/
def Answer.content (toolName : String) : Answer → String
  | rejected error => s!"Tool call rejected: {error}"
  | alreadyExecuted => s!"[idempotent skip] Tool '{toolName}' already executed"
  | denied reason => s!"Authorization denied: {reason}"
  | declined reason => s!"Operation rejected: {reason}"
  | invalidApproval => s!"Error: invalid approval response for '{toolName}'"
  | stored existing => "[idempotent] " ++ orElse existing.result "done"
  | outcomeUnknown => s!"Error: prior outcome unknown for '{toolName}'. Manual review required."
  | executed result =>
    if result.success then result.content else "Error: " ++ result.error.getD "None"

/-- The call counts as executed from now on. -/
def Answer.settles : Answer → Bool
  | rejected _ => false
  | alreadyExecuted => false
  | denied _ => false
  | _ => true

/-- A call the loop is done with. -/
structure Handled : Type where
  /-- the call; an approval may have replaced its arguments -/
  call : ToolRequest
  answer : Answer

/-- The `ToolMessage` for a call. -/
def Handled.message (h : Handled) : Message :=
  .tool (h.answer.content h.call.name) h.call.id h.call.name

/-- What the loop carries from call to call. -/
structure Progress : Type where
  /-- `executed_ids` -/
  executedIds : List String
  /-- the interrupts the node has got past -/
  interrupts : ℕ

/-- The progress after a call. -/
def Progress.after (p : Progress) (h : Handled) : Progress :=
  if h.answer.settles && h.call.id ≠ "" then
    { p with executedIds := h.call.id :: p.executedIds }
  else p

/-- `idem_key`, as the tool node computes it. -/
def toolNodeKey (sessionId : Option String) (toolId : String) : Option String :=
  let sid := sessionId.getD "unknown"
  if toolId = "" then none else some s!"{sid}:{toolId}"

/-- The value passed to `interrupt`. -/
def interruptPayload (sessionId : Option String) (tc : ToolRequest) : Json :=
  let sid := orElse sessionId "unknown"
  .obj [("tool_name", .str tc.name), ("tool_args", tc.args), ("tool_call_id", .str tc.id),
    ("session_id", .str sid), ("thread_id", .str sid),
    ("idempotency_key", .str s!"{sid}:{tc.id}")]

/-- `interrupt`: the answer it was given, or the end of the run. -/
def interrupt (payload : Json) (answer : Option Json) : Co Json := do
  perform (.interrupt payload answer)
  match answer with
  | some v => return v
  | none => throw (.graphInterrupt payload)

/-- What an answered interrupt means for the call: it goes on, with the arguments of
the approval if there are any, or it is answered. -/
def readApproval (py : PyLib) (tc : ToolRequest) (approval : Json) : Except Answer ToolRequest :=
  match approval.get? "decision" with
  | some (.str "approved") =>
    .ok { tc with args := (approval.get? "canonical_args").getD tc.args }
  | some (.str "rejected") =>
    .error (.declined (((approval.get? "reason").map py.str).getD "Human operator declined"))
  | _ => .error .invalidApproval

namespace AgentRuntime

variable (rt : AgentRuntime)

/-- Step 3: the kind of operation, from the registry if it knows the tool. -/
def operationKind (toolName : String) : OperationKind :=
  match rt.toolRegistry.bind fun registry => registry.get toolName with
  | some definition => kindFromMetadata definition
  | none => classifyToolKind rt.py toolName

/-- The call is not one that only reads. The graph and the executor give a call a string for
its name. -/
def mayChange (call : ToolCall) : Bool :=
  match call.name with
  | .str toolName => rt.operationKind toolName ≠ .read
  | _ => false

/-- Step 1: the error of the validation, if a registry is there to validate against. -/
def validationError (tc : ToolRequest) : Option String :=
  rt.toolRegistry.bind fun registry => validateToolCall rt.py tc.name tc.args registry

/-- The key of the durable record, if there is a store to keep it in. -/
def recordKey (sessionId : Option String) (toolId : String) : Option String :=
  if rt.idempotencyStore then toolNodeKey sessionId toolId else none

/-- Step 4: authorize the call, and wait for a human where the gateway says so. -/
def authorizeCall (sessionId : Option String) (resumes : List Json) (interrupts : ℕ)
    (tc : ToolRequest) : Co (Except Answer ToolRequest × ℕ) := do
  let decision ← perform (.authorize
    ⟨rt.operationKind tc.name, .str tc.name, s!"tool:{tc.name}", .obj [("args", tc.args)]⟩)
  match decision.decision with
  | .approved => return (.ok tc, interrupts)
  | .denied => return (.error (.denied decision.reason), interrupts)
  | .pending =>
    let approval ← interrupt (interruptPayload sessionId tc) resumes[interrupts]?
    return (readApproval rt.py tc approval, interrupts + 1)

/-- Step 5: what the durable record says. Without an answer the call is to be executed. -/
def checkRecord (kind : OperationKind) : Option String → Co (Option Answer)
  | none => return none
  | some key => do
    match ← SqliteIdempotencyStore.get rt.py key with
    | none => return none
    | some existing =>
      match existing.status with
      | .succeeded => return some (.stored existing)
      | .failed | .reserved =>
        let _ ← SqliteIdempotencyStore.markExecuting key
        return none
      | .executing | .unknown => return if kind = .read then none else some .outcomeUnknown

/-- Reserve the key, unless there is a record under it. -/
def reserveUnlessPresent (tc : ToolRequest) : Option String → Co Unit
  | none => return ()
  | some key => do
    match ← SqliteIdempotencyStore.get rt.py key with
    | some _ => return ()
    | none =>
      let _ ← SqliteIdempotencyStore.reserve rt.py key tc.name (some tc.args)
      return ()

/-- Record what the tool server answered. -/
def recordOutcome (result : ToolResult) : Option String → Co Unit
  | none => return ()
  | some key => do
    if result.success then
      let _ ← SqliteIdempotencyStore.markSucceeded rt.py key result.content
      return ()
    else
      let _ ← SqliteIdempotencyStore.markFailed rt.py key (orElse result.error "unknown error")
      return ()

/-- Call the tool server, for a call of message number `number`. -/
def executeCall (number : ℕ) (key : Option String) (tc : ToolRequest) : Co ToolResult := do
  rt.reserveUnlessPresent tc key
  let result ← MCPClient.callTool (.node number tc.id key) ⟨.str tc.name, tc.args⟩
  rt.recordOutcome result key
  return result

/-- Step 5, for a call that may go ahead. -/
def answerCall (number : ℕ) (sessionId : Option String) (tc : ToolRequest) : Co Answer := do
  let key := rt.recordKey sessionId tc.id
  match ← rt.checkRecord (rt.operationKind tc.name) key with
  | some answer => return answer
  | none =>
    let result ← rt.executeCall number key tc
    return .executed result

/-- One turn of the loop. -/
def handleCall (s : AgentState) (resumes : List Json) (p : Progress) (tc : ToolRequest) :
    Co (Handled × Progress) := do
  match rt.validationError tc with
  | some error => return (⟨tc, .rejected error⟩, p)
  | none =>
    if tc.id ≠ "" ∧ tc.id ∈ p.executedIds then return (⟨tc, .alreadyExecuted⟩, p)
    else
      let gate ← rt.authorizeCall s.sessionId resumes p.interrupts tc
      match gate with
      | (.error answer, interrupts) =>
        return (⟨tc, answer⟩, { p with interrupts }.after ⟨tc, answer⟩)
      | (.ok call, interrupts) =>
        let answer ← rt.answerCall s.messages.length s.sessionId call
        return (⟨call, answer⟩, { p with interrupts }.after ⟨call, answer⟩)

/-- The loop over the tool calls of a message. -/
def handleCalls (s : AgentState) (resumes : List Json) :
    List ToolRequest → Progress → Co (List Handled × Progress)
  | [], p => return ([], p)
  | tc :: rest, p => do
    let first ← rt.handleCall s resumes p tc
    let others ← handleCalls s resumes rest first.2
    return (first.1 :: others.1, others.2)

/-- `_tool_node`, up to the state update it returns. -/
def runTools (s : AgentState) (resumes : List Json) : Co (List Handled × Progress) :=
  rt.handleCalls s resumes s.lastCalls ⟨s.executedToolIds, 0⟩

end AgentRuntime

/-! ## The nodes -/

/-- The message with its tool calls replaced; an approval changes them in place. -/
def Message.withCalls (calls : List ToolRequest) : Message → Message
  | .ai content _ => .ai content calls
  | m => m

/-- The state after `_tool_node`. -/
def AgentState.afterTools (s : AgentState) (handled : List Handled) (p : Progress) : AgentState :=
  { s with
    messages := s.messages.dropLast ++
      (s.messages.getLast?.map (Message.withCalls (handled.map Handled.call))).toList ++
      handled.map Handled.message
    executedToolIds := p.executedIds }

/-- `_has_tool_calls`: where the graph goes after the agent node. -/
def AgentState.nextAfterAgent (s : AgentState) : Option GraphNode :=
  if s.lastCalls.isEmpty then none else some .tool

namespace AgentRuntime

variable (rt : AgentRuntime)

/-- `_tool_node`. -/
def toolNode (s : AgentState) (resumes : List Json) : Co AgentState := do
  let done ← rt.runTools s resumes
  return s.afterTools done.1 done.2

/-- `_agent_node`. -/
def agentNode (s : AgentState) : Co AgentState := do
  if rt.maxAgentSteps ≤ s.stepCount then
    throw (.runtime s!"Agent exceeded max_agent_steps ({rt.maxAgentSteps})")
  else
    match ← perform (.llm s.messages) with
    | .error exc => throw exc
    | .ok response =>
      return { s with
        messages := s.messages ++ [response]
        stepCount := s.stepCount + 1
        finalAnswer :=
          if response.toolCalls.isEmpty then some response.content else s.finalAnswer }

/-! ## The graph -/

/-- A node as LangGraph runs it: the state it leaves and the node that comes next. -/
def runNode (cp : Checkpoint) : GraphNode → Co Checkpoint
  | .agent => do
    let s ← rt.agentNode cp.state
    return { cp with state := s, next := s.nextAfterAgent, resumes := [] }
  | .tool => do
    let s ← rt.toolNode cp.state cp.resumes
    return { cp with state := s, next := some .agent, resumes := [] }

end AgentRuntime

/-- What an invocation of the graph returns: the state, and the first interrupt if the
run is suspended. -/
structure GraphResult : Type where
  state : AgentState
  interrupt : Option Json

/-- What `ainvoke` is given as input; the channels it does not name keep their value. -/
structure GraphInput : Type where
  messages : List Message
  sessionId : String
  stepCount : ℕ
  finalAnswer : Option (Option String)
  executedToolIds : Option (List String)

/-- A new input, on top of what the thread holds. The nodes that were to run next are
forgotten, and the answers of their interrupts. -/
def GraphInput.start (input : GraphInput) (threadId : String) (old : Option Checkpoint) :
    Checkpoint where
  threadId := threadId
  state :=
    { messages := (old.map (·.state.messages)).getD [] ++ input.messages
      finalAnswer := input.finalAnswer.getD ((old.bind (·.state.finalAnswer)))
      stepCount := input.stepCount
      sessionId := some input.sessionId
      executedToolIds :=
        input.executedToolIds.getD ((old.map (·.state.executedToolIds)).getD []) }
  next := some .agent
  resumes := []

namespace AgentRuntime

variable (rt : AgentRuntime)

/-- Supersteps until the graph ends, is suspended, raises or has used them up. -/
def runGraph : ℕ → Checkpoint → Co GraphResult
  | fuel, cp =>
    match cp.next with
    | none => return ⟨cp.state, none⟩
    | some node =>
      match fuel with
      | 0 => throw (.runtime s!"Recursion limit of {rt.recursionLimit} reached")
      | fuel + 1 => do
        match ← (rt.runNode cp node).attempt with
        | .ok cp' =>
          perform (.thread (.save cp'))
          runGraph fuel cp'
        | .error (.graphInterrupt payload) => return ⟨cp.state, some payload⟩
        | .error exc => throw exc

/-- `self._graph.ainvoke(input, …)`. -/
def ainvoke (threadId : String) (input : GraphInput) : Co GraphResult := do
  let old ← perform (.thread (.load threadId))
  let cp := input.start threadId old
  perform (.thread (.save cp))
  rt.runGraph rt.recursionLimit cp

/-- `self._graph.ainvoke(Command(resume=…), …)`. A thread without a checkpoint has
nothing to resume. -/
def ainvokeResume (threadId : String) (resumeValue : Json) : Co GraphResult := do
  match ← perform (.thread (.load threadId)) with
  | none => throw (.remote "nothing to resume")
  | some cp =>
    let cp := { cp with resumes := cp.resumes ++ [resumeValue] }
    perform (.thread (.save cp))
    rt.runGraph rt.recursionLimit cp

end AgentRuntime

/-- The demo deployment as a runtime with a store and without a router. -/
def demoRuntime : AgentRuntime :=
  { demo with idempotencyStore := true, maxAgentSteps := 50, recursionLimit := 25, router := none }

end BankingAgent
