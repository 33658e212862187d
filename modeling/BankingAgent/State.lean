import BankingAgent.Json

/-!
# `state.py`: the state the graph carries

Messages accumulate; the other channels are overwritten. A checkpoint is the state
LangGraph stored for a thread, with the node it will run next and the answers the
interrupts of that node have got so far.
-/

namespace BankingAgent

/-- A tool call a model asks for: an item of `AIMessage.tool_calls`. -/
structure ToolRequest : Type where
  /-- `tc.get("id", "")` -/
  id : String
  /-- `tc.get("name", "unknown")` -/
  name : String
  /-- `tc.get("args", {})` -/
  args : Json

/-- A message. -/
inductive Message : Type where
  | human (content : String)
  | system (content : String)
  | ai (content : String) (toolCalls : List ToolRequest)
  | tool (content toolCallId name : String)

/-- `message.tool_calls`, empty where there is no such attribute. -/
def Message.toolCalls : Message → List ToolRequest
  | ai _ calls => calls
  | _ => []

/-- `message.content`. -/
def Message.content : Message → String
  | human c => c
  | system c => c
  | ai c _ => c
  | tool c _ _ => c

/-- `AgentState`. -/
structure AgentState : Type where
  messages : List Message
  finalAnswer : Option String
  stepCount : ℕ
  sessionId : Option String
  executedToolIds : List String

/-- The tool calls of the last message. -/
def AgentState.lastCalls (s : AgentState) : List ToolRequest :=
  match s.messages.getLast? with
  | some m => m.toolCalls
  | none => []

/-- The nodes of the graph. -/
inductive GraphNode : Type where
  | agent
  | tool
  deriving DecidableEq, Repr

/-- What LangGraph stores for a thread. -/
structure Checkpoint : Type where
  /-- the primary key -/
  threadId : String
  state : AgentState
  /-- the node that runs next, `none` once the graph has ended -/
  next : Option GraphNode
  /-- the answers given to the interrupts of that node -/
  resumes : List Json

end BankingAgent
