import BankingAgent.Json

/-!
# `mcp_client.py`, `mcp/client.py`: calling a tool

The executor, the graph and the planner all reach a tool server through the one
method `MCPClient.call_tool`. What the call does at the server is not ours to
know: it answers or it raises. `MCPClientAdapter` sits between the program and a
transport and turns an exception of the transport into an ordinary failure.
-/

namespace BankingAgent

/-- The exceptions that travel through the modelled functions. -/
inductive Exn : Type where
  /-- `JSONDecodeError` -/
  | jsonDecode
  /-- `ValueError` -/
  | valueError
  /-- `sqlite3.IntegrityError` -/
  | integrity
  /-- `TypeError` -/
  | typeError
  /-- `AttributeError` -/
  | attributeError
  /-- `KeyError` -/
  | keyError
  /-- `IndexError` -/
  | indexError
  /-- `RuntimeError` -/
  | runtime (message : String)
  /-- an exception of a client, a transport or a model provider -/
  | remote (message : String)
  /-- what LangGraph raises at an `interrupt` that has no answer yet -/
  | graphInterrupt (payload : Json)
  /-- `HTTPException` -/
  | http (statusCode : ℕ) (detail : String)
  deriving DecidableEq

/-- `str(exc)`, where it is used. -/
def Exn.message : Exn → String
  | runtime message => message
  | remote message => message
  | _ => ""

/-- `ToolCall`. Its name is a string, unless the step of a plan has something else in its place. -/
structure ToolCall : Type where
  name : Json
  arguments : Json

/-- `ToolResult`. -/
structure ToolResult : Type where
  toolName : Json
  success : Bool
  content : String
  error : Option String

/-- `MCPToolResult`: what a transport answers. -/
structure MCPToolResult : Type where
  success : Bool
  content : String
  error : Option String

/-- `a or b` on an optional string: the empty string counts as missing. -/
def orElse (a : Option String) (b : String) : String :=
  match a with
  | some s => if s = "" then b else s
  | none => b

/-- `MCPClientAdapter.call_tool`, given what the transport does when it is invoked. -/
def MCPClientAdapter.callTool (connected : Bool) (transport : Except Exn MCPToolResult)
    (call : ToolCall) : Except Exn ToolResult :=
  if connected then
    match transport with
    | .ok result => .ok ⟨call.name, result.success, result.content, result.error⟩
    | .error exc => .ok ⟨call.name, false, "", some exc.message⟩
  else .error (.runtime "MCP client not connected")

/-- What happens when `call_tool` is awaited. -/
inductive McpOutcome : Type where
  /-- the client is the adapter, and its transport answers or raises -/
  | adapter (connected : Bool) (transport : Except Exn MCPToolResult)
  /-- the client is another one, and answers or raises -/
  | client (answer : Except Exn ToolResult)

/-- What the awaiting code sees. -/
def McpOutcome.answer (call : ToolCall) : McpOutcome → Except Exn ToolResult
  | adapter connected transport => MCPClientAdapter.callTool connected transport call
  | client answer => answer

/-- Somewhere on the way an exception was raised. -/
def McpOutcome.raised : McpOutcome → Bool
  | adapter connected transport => !connected || !transport.isOk
  | client answer => !answer.isOk

end BankingAgent
