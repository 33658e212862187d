import BankingAgent.Agent
import BankingAgent.Recording

/-!
# `api.py`: the two endpoints

`POST /agent` runs the agent, and if the graph waits for a human it stores what it waits
for. `POST /agent/approve` lets the executor act on the decision first and then resumes
the graph.
-/

namespace BankingAgent

open Async

/-- A request to `POST /agent`, behind the authentication. -/
structure AgentRequest : Type where
  message : String
  sessionId : Option String
  trusted : TrustedContext
  /-- the run id that is drawn if there is no session id -/
  uuid : String
  uuid_ne : uuid ≠ ""
  /-- the plan id, should there be a plan -/
  planId : String

/-- The run id of the request. -/
def AgentRequest.runId (r : AgentRequest) : String := orElse r.sessionId r.uuid

theorem AgentRequest.runId_ne (r : AgentRequest) : r.runId ≠ "" := by
  unfold AgentRequest.runId orElse
  split
  · split
    · exact r.uuid_ne
    · assumption
  · exact r.uuid_ne

/-- What the endpoint calls `run` with. -/
def AgentRequest.runArgs (r : AgentRequest) : RunArgs where
  userMessage := r.message
  runId := r.runId
  threadId := r.runId
  resumeFromState := none
  trustedContext := some r.trusted
  planId := r.planId

/-- The response to an approval or a rejection. -/
structure ApprovalResponse : Type where
  sessionId : String
  decision : ApprovalKind
  answer : Option String

/-- `final_answer or result.answer`. -/
def firstAnswer (finalAnswer answer : Option String) : Option String :=
  match finalAnswer with
  | some text => if text = "" then answer else some text
  | none => answer

/-- `_map_executor_result`: an error of the executor is the end of the request. -/
def mapExecutorResult (result : ApprovalResult) : Co Unit :=
  match result.error with
  | none => return ()
  | some error =>
    if error = "" then return ()
    else if result.decision = .reconciliationRequired then throw (.http 409 error)
    else throw (.http (if contains "Already" error then 409 else 500) error)

namespace AgentRuntime

variable (rt : AgentRuntime)

/-- `agent_endpoint`, once the runtime has returned: a suspended graph is recorded. -/
def recordInterrupt (r : AgentRequest) (result : RunResult) : Co RunResult :=
  match result.interrupt with
  | none => return result
  | some info =>
    if info.truthy && info.isDict then do
      let p := PendingOperation.ofInterrupt rt.py r.sessionId r.trusted.subjectId info
      p.record rt.py
      throw (.http 202
        s!"Action requires approval. Use POST /agent/approve with session_id={p.sessionId}")
    else return result

/-- `agent_endpoint`. -/
def agentEndpoint (r : AgentRequest) : Co RunResult := do
  if r.trusted.subjectId = "anonymous" ∨ r.trusted.subjectId = "" then
    throw (.http 401 "Authentication required — provide valid credentials")
  else
    let session := orElse r.sessionId "new"
    let decision ← perform (.authorize ⟨.read, .str "agent_request", s!"session:{session}",
      .obj [("message", .str r.message), ("subject_id", .str r.trusted.subjectId)]⟩)
    match decision.decision with
    | .denied => throw (.http 403 "Request denied by authorization policy")
    | .pending => throw (.http 401 "Request requires human approval")
    | .approved =>
      if 10000 < r.message.length then throw (.http 422 "PROMPT_TOO_LONG")
      else
        match ← (rt.run r.runArgs).attempt with
        | .ok result => rt.recordInterrupt r result
        | .error (.runtime _) => throw (.http 500 "AGENT_EXECUTION_FAILED")
        | .error _ => throw (.http 500 "INTERNAL_ERROR")

/-- The value an approved graph is resumed with: the arguments of the session. -/
def approvedValue (session : Option HITLSession) : Json :=
  .obj [("decision", .str "approved"),
    ("canonical_args", (session.map fun s => s.toolArgs.dictOrEmpty).getD (.obj [])),
    ("tool_name", .str ((session.map (·.toolName)).getD "")),
    ("tool_call_id", .str ((session.map (·.toolCallId)).getD ""))]

/-- The value a rejected graph is resumed with. -/
def rejectedValue : Json :=
  .obj [("decision", .str "rejected"),
    ("reason", .str "Human operator rejected the operation")]

/-- `approve_endpoint` for `approve`; `runId` is the run id the resume draws. -/
def approveEndpoint (sessionId runId : String) : Co ApprovalResponse := do
  let result ← HITLApprovalExecutor.approve rt.py sessionId none
  mapExecutorResult result
  let session ← SqliteHITLStore.get rt.py sessionId
  let graphResult ← rt.resume result.sessionId (approvedValue session) runId
  return ⟨result.sessionId, result.decision,
    firstAnswer graphResult.state.finalAnswer result.answer⟩

/-- `approve_endpoint` for `reject`. -/
def rejectEndpoint (sessionId runId : String) : Co ApprovalResponse := do
  let result ← HITLApprovalExecutor.reject rt.py sessionId none
  mapExecutorResult result
  let graphResult ← rt.resume sessionId rejectedValue runId
  return ⟨result.sessionId, result.decision,
    firstAnswer graphResult.state.finalAnswer result.answer⟩

end AgentRuntime

/-- A request. -/
inductive Request : Type where
  | agent (r : AgentRequest)
  | approve (sessionId runId : String)
  | reject (sessionId runId : String)

/-- What a request is answered with. -/
inductive Response : Type where
  | agent (result : RunResult)
  | decision (response : ApprovalResponse)

/-- The coroutine of a request. -/
def AgentRuntime.serve (rt : AgentRuntime) : Request → Co Response
  | .agent r => .agent <$> rt.agentEndpoint r
  | .approve sessionId runId => .decision <$> rt.approveEndpoint sessionId runId
  | .reject sessionId runId => .decision <$> rt.rejectEndpoint sessionId runId

end BankingAgent
