import BankingAgent.Json

/-!
# `deepseek.py`: the provider

A request goes out over a transport, again and again while its status asks for that; the body that
comes back is parsed, whatever it is, and made an `AIMessage`. The parser takes values out of the
JSON as they come, so a body of another shape ends it with whatever Python raises.

* `requestWithRetry`, `parseResponse`, `toAIMessage`, `DeepSeekProvider.invoke` — the way of a
  response.
* `buildRequestBody` — the way of a request.
-/

namespace BankingAgent

/-! ## Exceptions -/

/-- The exceptions of a request. -/
inductive PyError : Type where
  /-- `RuntimeError` -/
  | runtime (message : String)
  | attributeError
  | keyError
  | typeError
  /-- `JSONDecodeError` -/
  | jsonDecodeError
  /-- `RecursionError`, which is a `RuntimeError` -/
  | recursionError
  /-- `ValueError` -/
  | valueError
  /-- pydantic's `ValidationError` -/
  | validationError
  deriving DecidableEq, Repr

/-- The exception is a `RuntimeError`. -/
def PyError.IsRuntime : PyError → Prop
  | runtime _ => True
  | recursionError => True
  | _ => False

namespace Json

/-- `v.get(name, default)`. -/
def getOr (v : Json) (name : String) (default : Json) : Except PyError Json :=
  match v with
  | obj fields => .ok (((obj fields).get? name).getD default)
  | _ => .error .attributeError

/-- `v[name]`. -/
def item (v : Json) (name : String) : Except PyError Json :=
  match v with
  | obj fields =>
    match (obj fields).get? name with
    | some w => .ok w
    | none => .error .keyError
  | _ => .error .typeError

/-- `v or w`. -/
def or (v w : Json) : Json := if v.truthy then v else w

end Json

/-! ## LangChain's messages -/

/-- A tool call as it is handed to `AIMessage`. -/
structure DecodedCall : Type where
  name : Json
  args : Json
  id : Json

/-- An item of `AIMessage.tool_calls`. -/
structure AIToolCall : Type where
  name : String
  /-- a dictionary -/
  args : List (String × Json)
  id : Option String

/-- The name, the arguments and the id of a tool call. -/
def AIToolCall.decoded (tc : AIToolCall) : DecodedCall where
  name := .str tc.name
  args := .obj tc.args
  id := (tc.id.map Json.str).getD .null

/-- The dictionary of a tool call. -/
def AIToolCall.toDict (tc : AIToolCall) : Json :=
  .obj [("name", tc.decoded.name), ("args", tc.decoded.args), ("id", tc.decoded.id),
    ("type", .str "tool_call")]

/-- `AIMessage`. -/
structure AIMessage : Type where
  content : Json
  toolCalls : List AIToolCall

/-- What a conversation consists of. -/
inductive ChatMessage : Type where
  | human (content : Json)
  | system (content : Json)
  | ai (message : AIMessage)
  | tool (content : Json) (toolCallId : String)

/-- The library functions of the provider. -/
structure ProviderLib : Type where
  /-- `json.dumps` -/
  dumps : Json → String
  /-- `json.loads`: a value, or `JSONDecodeError`, or what a limit of the interpreter raises:
  `RecursionError` for what is nested too deeply, `ValueError` for an integer with too many digits -/
  loads : String → Except PyError Json
  /-- `AIMessage(content=…, tool_calls=…)`; `none` stands for `ValidationError` -/
  aiMessage : Json → List DecodedCall → Option AIMessage

/-- Text, or a list of texts and dictionaries: what `AIMessage` takes for its content. -/
def Json.isContent : Json → Bool
  | .str _ => true
  | .arr items => items.all fun v => v.str?.isSome || v.isDict
  | _ => false

/-- What `AIMessage` takes for a tool call. -/
structure DecodedCall.IsToolCall (call : DecodedCall) : Prop where
  name : ∃ s, call.name = .str s
  args : ∃ fields, call.args = .obj fields
  id : call.id = .null ∨ ∃ s, call.id = .str s

/-- What is documented of the library: which exceptions `json.loads` has, what `AIMessage`
accepts, and that it holds what it was given. -/
structure ProviderLib.Documented (lib : ProviderLib) : Prop where
  loads_error : ∀ text e, lib.loads text = .error e →
    e = .jsonDecodeError ∨ e = .recursionError ∨ e = .valueError
  accepts : ∀ content calls, (lib.aiMessage content calls).isSome ↔
    content.isContent = true ∧ ∀ call ∈ calls, call.IsToolCall
  holds : ∀ content calls m, lib.aiMessage content calls = some m →
    m.content = content ∧ m.toolCalls.map AIToolCall.decoded = calls

/-! ## Requests -/

/-- `ProviderConfig`, as far as the provider reads it. -/
structure ProviderConfig : Type where
  baseUrl : String
  model : String
  maxRetries : ℤ
  maxTokens : ℤ
  /-- the text of a float -/
  temperature : String

/-- `_map_role(type(m).__name__)`. -/
def ChatMessage.role : ChatMessage → String
  | human _ => "user"
  | system _ => "system"
  | ai _ => "assistant"
  | tool _ _ => "tool"

/-- `m.content`. -/
def ChatMessage.content : ChatMessage → Json
  | human content => content
  | system content => content
  | ai m => m.content
  | tool content _ => content

/-- `m.tool_calls`, where there is such an attribute. -/
def ChatMessage.toolCalls : ChatMessage → List AIToolCall
  | ai m => m.toolCalls
  | _ => []

/-- `m.tool_call_id`, where there is such an attribute. -/
def ChatMessage.toolCallId : ChatMessage → String
  | tool _ id => id
  | _ => ""

/-- The dictionary `_build_request_body` makes of a message. -/
def ChatMessage.toDict (m : ChatMessage) : List (String × Json) :=
  [("role", .str m.role), ("content", m.content)] ++
    (if m.toolCalls = [] then [] else [("tool_calls", .arr (m.toolCalls.map AIToolCall.toDict))]) ++
    if m.toolCallId = "" then [] else [("tool_call_id", .str m.toolCallId)]

/-- `_build_request_body`. -/
def buildRequestBody (config : ProviderConfig) (messages : List ChatMessage) (tools : List Json)
    (toolChoice : Option Json) : Json :=
  .obj ([("model", .str config.model), ("max_tokens", .int config.maxTokens),
      ("temperature", .float config.temperature),
      ("messages", .arr (messages.map fun m => .obj m.toDict))] ++
    (if tools = [] then [] else [("tools", .arr tools)]) ++
    match toolChoice with
    | some choice => [("tool_choice", choice)]
    | none => [])

/-- `RETRYABLE_STATUSES`. -/
def retryableStatuses : List ℕ := [408, 429, 500, 502, 503]

/-- `NON_RETRYABLE_STATUSES`. -/
def nonRetryableStatuses : List ℕ := [400, 401, 403, 409]

/-- What the transport does at each attempt: a status and a body, or an exception. -/
abbrev Transport : Type := (url body : String) → (attempt : ℕ) → Except String (ℕ × String)

/-- The loop of `_request_with_retry`, with the attempts that are left. -/
def requestAttempts (maxRetries : ℤ) (post : ℕ → Except String (ℕ × String)) :
    (left attempt : ℕ) → (lastExc : String) → Except PyError (ℕ × String)
  | 0, _, lastExc => .error (.runtime s!"Provider request failed: {lastExc}")
  | left + 1, attempt, lastExc =>
    match post attempt with
    | .ok (status, body) =>
      if status ∈ nonRetryableStatuses then .ok (status, body)
      else if status ∈ retryableStatuses ∧ attempt < maxRetries then
        requestAttempts maxRetries post left (attempt + 1) lastExc
      else .ok (status, body)
    | .error exc =>
      if attempt < maxRetries then requestAttempts maxRetries post left (attempt + 1) exc
      else .error (.runtime
        s!"Provider request failed after {maxRetries + 1} attempts: {exc}")

/-- `_request_with_retry`; the waiting between two attempts is left out. -/
def requestWithRetry (maxRetries : ℤ) (post : ℕ → Except String (ℕ × String)) :
    Except PyError (ℕ × String) :=
  requestAttempts maxRetries post (maxRetries + 1).toNat 0 "None"

/-! ## Responses -/

/-- `ProviderResponse`, without the latency; its fields hold what the body holds. -/
structure ProviderResponse : Type where
  content : Json
  toolCalls : List DecodedCall
  usageInputTokens : Json
  usageOutputTokens : Json
  requestId : Json
  model : Json

/-- `raw[:500]`. -/
def excerpt (raw : String) : String := String.ofList (raw.toList.take 500)

/-- `(data.get("choices") or [{}])[0] if "choices" in data else data`. -/
def choiceOf (data : Json) : Except PyError Json :=
  match data with
  | .obj fields =>
    match (Json.obj fields).get? "choices" with
    | none => .ok data
    | some choices =>
      if choices.truthy then
        match choices with
        | .arr (choice :: _) => .ok choice
        -- the first character of a text
        | .str s => .ok (.str (String.ofList (s.toList.take 1)))
        -- there is no key 0
        | .obj _ => .error .keyError
        | _ => .error .typeError
      else .ok (.obj [])
  -- whether "choices" is in it or not, it has no `get`
  | .arr _ => .error .attributeError
  | .str _ => .error .attributeError
  | _ => .error .typeError

/-- The message of the body. -/
def messageOf (data : Json) : Except PyError Json :=
  (choiceOf data).bind fun choice => choice.getOr "message" (.obj [])

/-- `msg.get("tool_calls", [])` of a dictionary; another message has no tool calls. -/
def rawToolCalls (msg : Json) : Json :=
  match msg with
  | .obj fields => ((Json.obj fields).get? "tool_calls").getD (.arr [])
  | _ => .arr []

/-- The content of a body with that message. -/
def contentOf (data msg : Json) : Json :=
  if msg.isDict then
    let content := ((msg.get? "content").getD (.str "")).or (.str "")
    let content :=
      if content.truthy then content
      else ((msg.get? "reasoning_content").getD (.str "")).or (.str "")
    if content.truthy then content else ((data.get? "content").getD (.str "")).or (.str "")
  else .str ""

/-- The items of `for tc in raw_tool_calls`. -/
def Json.iterate (v : Json) : Except PyError (List Json) := v.items?.elim (.error .typeError) .ok

section

variable (lib : ProviderLib) (config : ProviderConfig)

/-- One item of the list of tool calls. -/
def decodeToolCall (tc : Json) : Except PyError DecodedCall := do
  let function ← tc.getOr "function" (.obj [])
  match ← function.getOr "arguments" .null with
  | .str text =>
    let name ← (← tc.item "function").item "name"
    let args ← lib.loads text
    let id ← tc.item "id"
    return ⟨name, args, id⟩
  | _ =>
    let name ← (← tc.item "function").item "name"
    let args ← (← tc.item "function").item "arguments"
    let id ← tc.item "id"
    return ⟨name, args, id⟩

/-- The tool calls of a message. -/
def decodeToolCalls (raw : Json) : Except PyError (List DecodedCall) :=
  if raw.truthy then raw.iterate.bind fun items => items.mapM (decodeToolCall lib) else .ok []

/-- The part of `_parse_response` after the body has been loaded. -/
def readResponse (data : Json) : Except PyError ProviderResponse := do
  let msg ← messageOf data
  let toolCalls ← decodeToolCalls lib (rawToolCalls msg)
  let usage ← data.getOr "usage" (.obj [])
  return {
    content := contentOf data msg
    toolCalls
    usageInputTokens := ← usage.getOr "prompt_tokens" (.int 0)
    usageOutputTokens := ← usage.getOr "completion_tokens" (.int 0)
    requestId := ← data.getOr "id" (.str "")
    model := ← data.getOr "model" (.str config.model) }

/-- `_parse_response`. -/
def parseResponse (status : ℕ) (raw : String) : Except PyError ProviderResponse :=
  if status = 401 then
    .error (.runtime "Provider authentication failed — check your API token")
  else if status = 403 then
    .error (.runtime "Provider authorization failed — check your account permissions")
  else if status = 400 then
    .error (.runtime s!"Provider rejected request (400): {excerpt raw}")
  else if status = 429 then
    .error (.runtime "Provider rate limit exceeded — retry exhausted")
  else if 500 ≤ status then
    .error (.runtime s!"Provider server error ({status}): {excerpt raw}")
  else
    match lib.loads raw with
    | .ok data => readResponse lib config data
    | .error .jsonDecodeError =>
      .error (.runtime s!"Provider returned malformed JSON (status {status}): {excerpt raw}")
    | .error e => .error e

/-- `_to_ai_message`. -/
def toAIMessage (response : ProviderResponse) : Except PyError AIMessage :=
  let message :=
    if response.toolCalls = [] then lib.aiMessage response.content []
    else lib.aiMessage (response.content.or (.str "")) response.toolCalls
  match message with
  | some m => .ok m
  | none => .error .validationError

/-- From a status and a body to a message. -/
def respond (status : ℕ) (raw : String) : Except PyError AIMessage :=
  (parseResponse lib config status raw).bind (toAIMessage lib)

end

/-- `DeepSeekProvider`. -/
structure DeepSeekProvider : Type where
  config : ProviderConfig
  transport : Transport
  /-- `_closed` -/
  closed : Bool

/-- What the transport finally returns for a conversation. -/
def DeepSeekProvider.request (lib : ProviderLib) (p : DeepSeekProvider)
    (messages : List ChatMessage) (tools : List Json) (toolChoice : Option Json) :
    Except PyError (ℕ × String) :=
  requestWithRetry p.config.maxRetries (p.transport (p.config.baseUrl ++ "/chat/completions")
    (lib.dumps (buildRequestBody p.config messages tools toolChoice)))

/-- `invoke`. -/
def DeepSeekProvider.invoke (lib : ProviderLib) (p : DeepSeekProvider)
    (messages : List ChatMessage) (tools : List Json) (toolChoice : Option Json) :
    Except PyError AIMessage :=
  if p.closed then .error (.runtime "DeepSeekProvider is closed")
  else (p.request lib messages tools toolChoice).bind fun answer =>
    respond lib p.config answer.1 answer.2

/-! ## A library for one response -/

section Demo

/-- A tool call, if that is what was decoded. -/
def DecodedCall.toToolCall : DecodedCall → Option AIToolCall
  | ⟨.str name, .obj args, .null⟩ => some ⟨name, args, none⟩
  | ⟨.str name, .obj args, .str id⟩ => some ⟨name, args, some id⟩
  | _ => none

theorem DecodedCall.isSome_toToolCall (call : DecodedCall) :
    call.toToolCall.isSome ↔ call.IsToolCall := by
  obtain ⟨name, args, id⟩ := call
  constructor
  · intro h
    cases name with
    | str name =>
      cases args with
      | obj fields =>
        cases id with
        | null => exact ⟨⟨_, rfl⟩, ⟨_, rfl⟩, .inl rfl⟩
        | str text => exact ⟨⟨_, rfl⟩, ⟨_, rfl⟩, .inr ⟨_, rfl⟩⟩
        | _ => cases h
      | _ => cases h
    | _ => cases h
  · rintro ⟨⟨s, rfl⟩, ⟨fields, rfl⟩, rfl | ⟨text, rfl⟩⟩
    · rfl
    · rfl

theorem DecodedCall.decoded_of_toToolCall {call : DecodedCall} {tc : AIToolCall}
    (h : call.toToolCall = some tc) : tc.decoded = call := by
  have hcall := call.isSome_toToolCall.mp (Option.isSome_of_eq_some h)
  obtain ⟨name, args, id⟩ := call
  obtain ⟨⟨s, rfl⟩, ⟨fields, rfl⟩, rfl | ⟨text, rfl⟩⟩ := hcall
  · obtain rfl := Option.some_inj.mp h
    rfl
  · obtain rfl := Option.some_inj.mp h
    rfl

/-- The tool calls, if all of them are. -/
def toToolCalls : List DecodedCall → Option (List AIToolCall)
  | [] => some []
  | call :: rest => do return (← call.toToolCall) :: (← toToolCalls rest)

theorem isSome_toToolCalls (calls : List DecodedCall) :
    (toToolCalls calls).isSome ↔ ∀ call ∈ calls, call.IsToolCall := by
  induction calls with
  | nil => simp [toToolCalls]
  | cons call rest ih =>
    rw [List.forall_mem_cons, ← ih, ← call.isSome_toToolCall, toToolCalls]
    cases call.toToolCall <;> cases toToolCalls rest <;> simp

theorem decoded_of_toToolCalls {calls : List DecodedCall} {tcs : List AIToolCall}
    (h : toToolCalls calls = some tcs) : tcs.map AIToolCall.decoded = calls := by
  induction calls generalizing tcs with
  | nil =>
    obtain rfl := Option.some_inj.mp h
    rfl
  | cons call rest ih =>
    obtain ⟨tc, htc, h⟩ := Option.bind_eq_some_iff.mp h
    obtain ⟨tcs', hrest, h⟩ := Option.bind_eq_some_iff.mp h
    obtain rfl := Option.some_inj.mp h
    rw [List.map_cons, DecodedCall.decoded_of_toToolCall htc, ih hrest]

/-- Library functions good enough for one request and one response. -/
def demoLib (request response : String) (value : Json) : ProviderLib where
  dumps _ := request
  loads text := if text = response then .ok value else .error .jsonDecodeError
  aiMessage content calls :=
    if content.isContent then (toToolCalls calls).map (AIMessage.mk content) else none

theorem demoLib_documented (request response : String) (value : Json) :
    (demoLib request response value).Documented where
  loads_error text e h := by
    rw [demoLib] at h
    dsimp only at h
    split_ifs at h
    exact .inl (Except.error.inj h).symm
  accepts content calls := by
    rw [← isSome_toToolCalls]
    cases hcontent : content.isContent <;> simp [demoLib, hcontent]
  holds content calls m h := by
    rw [demoLib] at h
    dsimp only at h
    split_ifs at h
    obtain ⟨tcs, htcs, rfl⟩ := Option.map_eq_some_iff.mp h
    exact ⟨rfl, decoded_of_toToolCalls htcs⟩

/-- A configuration. -/
def demoProviderConfig : ProviderConfig :=
  ⟨"https://api.deepseek.com/v1", "deepseek-v4-pro", 3, 4096, "0.0"⟩

end Demo

end BankingAgent
