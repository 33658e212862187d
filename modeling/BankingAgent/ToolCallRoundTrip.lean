import BankingAgent.Provider
import BankingAgent.Search.Traversal

/-!
# Tool calls on their way back to the provider

What the provider asks for comes as `{id, function: {name, arguments}}`, and is kept as LangChain
keeps it, `{name, args, id, type}`. `_build_request_body` sends it back as it is kept. So the
decoder of `_parse_response` reads a message of its own again only if there is no tool call in it.

* `tool_calls_round_trip_iff` — the tool calls come back exactly if the provider asked for none.
-/

namespace BankingAgent

open Traversal

/-! ## Decoding what was sent -/

section Decode

variable (lib : ProviderLib)

/-- The dictionary of a tool call has no function. -/
theorem decodeToolCall_toDict (tc : AIToolCall) :
    decodeToolCall lib tc.toDict = .error .keyError := rfl

theorem decodeToolCalls_cons_toDict (tc : AIToolCall) (rest : List AIToolCall) :
    decodeToolCalls lib (.arr ((tc :: rest).map AIToolCall.toDict)) = .error .keyError := by
  have htruthy : (Json.arr ((tc :: rest).map AIToolCall.toDict)).truthy = true := rfl
  rw [decodeToolCalls, if_pos htruthy, List.map_cons]
  change (List.mapM (decodeToolCall lib) (tc.toDict :: rest.map AIToolCall.toDict)) = _
  rw [List.mapM_cons, decodeToolCall_toDict]
  rfl

/-- The tool calls of a message on the wire. -/
theorem rawToolCalls_toDict (m : AIMessage) :
    rawToolCalls (.obj (ChatMessage.ai m).toDict) = .arr (m.toolCalls.map AIToolCall.toDict) := by
  cases hcalls : m.toolCalls with
  | nil => simp [rawToolCalls, ChatMessage.toDict, ChatMessage.toolCalls, ChatMessage.toolCallId,
      hcalls, Json.get?]
  | cons tc rest => simp [rawToolCalls, ChatMessage.toDict, ChatMessage.toolCalls,
      ChatMessage.toolCallId, hcalls, Json.get?]

/-- The tool calls of a message, sent to the provider and decoded again, are the same names,
arguments and ids. -/
def RoundTrips (m : AIMessage) : Prop :=
  decodeToolCalls lib (rawToolCalls (.obj (ChatMessage.ai m).toDict)) =
    .ok (m.toolCalls.map AIToolCall.decoded)

theorem roundTrips_iff (m : AIMessage) : RoundTrips lib m ↔ m.toolCalls = [] := by
  rw [RoundTrips, rawToolCalls_toDict]
  cases hcalls : m.toolCalls with
  | nil => simp [decodeToolCalls, Json.truthy]
  | cons tc rest =>
    rw [decodeToolCalls_cons_toDict]
    exact ⟨nofun, nofun⟩

end Decode

/-! ## Where a message comes from -/

section Origin

variable {lib : ProviderLib} {config : ProviderConfig}

theorem iterate_ne_nil {v : Json} {items : List Json} (htruthy : v.truthy = true)
    (h : v.iterate = .ok items) : items ≠ [] := by
  cases v with
  | arr items' =>
    obtain rfl := Except.ok.inj h
    simpa [Json.truthy] using htruthy
  | obj fields =>
    obtain rfl := Except.ok.inj h
    simpa [Json.truthy] using htruthy
  | str s =>
    obtain rfl := Except.ok.inj h
    simpa [Json.truthy] using htruthy
  | _ => simp [Json.iterate, Json.items?] at h

/-- Nothing is decoded only where nothing was asked for. -/
theorem decodeToolCalls_eq_nil_iff {raw : Json} {calls : List DecodedCall}
    (h : decodeToolCalls lib raw = .ok calls) : calls = [] ↔ raw.truthy = false := by
  rw [decodeToolCalls] at h
  split at h
  · rename_i htruthy
    obtain ⟨items, hitems, hcalls⟩ := bind_eq_ok_iff.mp h
    have hlength := (mapM_eq_ok_iff.mp hcalls).length_eq.symm
    have hitems := List.length_pos_of_ne_nil (iterate_ne_nil htruthy hitems)
    rw [htruthy]
    refine ⟨fun hnil => ?_, nofun⟩
    rw [hnil] at hlength
    exact absurd hlength (by simpa using hitems.ne)
  · rename_i hfalsy
    obtain rfl := Except.ok.inj h
    simpa using hfalsy

theorem parseResponse_ok {status : ℕ} {raw : String} {response : ProviderResponse}
    (h : parseResponse lib config status raw = .ok response) :
    ∃ data, lib.loads raw = .ok data ∧ readResponse lib config data = .ok response := by
  rw [parseResponse] at h
  split_ifs at h
  cases hdata : lib.loads raw with
  | ok data =>
    rw [hdata] at h
    exact ⟨data, rfl, h⟩
  | error e =>
    rw [hdata] at h
    cases e <;> cases h

theorem Json.getOr_eq_ok {v w default : Json} {name : String} :
    v.getOr name default = .ok w ↔
      ∃ fields, v = .obj fields ∧ ((Json.obj fields).get? name).getD default = w := by
  cases v with
  | obj fields => simp [Json.getOr]
  | _ => simp [Json.getOr]

/-- What a response holds, and that the usage is a dictionary. -/
theorem readResponse_ok {data : Json} {response : ProviderResponse}
    (h : readResponse lib config data = .ok response) :
    ∃ msg usage, messageOf data = .ok msg ∧
      decodeToolCalls lib (rawToolCalls msg) = .ok response.toolCalls ∧
      response.content = contentOf data msg ∧
      data.getOr "usage" (.obj []) = .ok (.obj usage) := by
  obtain ⟨msg, hmsg, h⟩ := bind_eq_ok_iff.mp h
  obtain ⟨calls, hcalls, h⟩ := bind_eq_ok_iff.mp h
  obtain ⟨usage, husage, h⟩ := bind_eq_ok_iff.mp h
  obtain ⟨_, hprompt, h⟩ := bind_eq_ok_iff.mp h
  obtain ⟨_, -, h⟩ := bind_eq_ok_iff.mp h
  obtain ⟨_, -, h⟩ := bind_eq_ok_iff.mp h
  obtain ⟨_, -, h⟩ := bind_eq_ok_iff.mp h
  obtain ⟨fields, hfields, -⟩ := Json.getOr_eq_ok.mp hprompt
  obtain rfl := Except.ok.inj h
  exact ⟨msg, fields, hmsg, hcalls, rfl, hfields ▸ husage⟩

theorem toAIMessage_ok (hlib : lib.Documented) {response : ProviderResponse} {m : AIMessage}
    (h : toAIMessage lib response = .ok m) :
    m.toolCalls.map AIToolCall.decoded = response.toolCalls := by
  rw [toAIMessage] at h
  by_cases hcalls : response.toolCalls = []
  · rw [if_pos hcalls] at h
    cases hmessage : lib.aiMessage response.content [] with
    | none => simp [hmessage] at h
    | some m' =>
      obtain rfl : m' = m := by simpa [hmessage] using h
      rw [hcalls]
      exact (hlib.holds _ _ _ hmessage).2
  · rw [if_neg hcalls] at h
    cases hmessage : lib.aiMessage (response.content.or (.str "")) response.toolCalls with
    | none => simp [hmessage] at h
    | some m' =>
      obtain rfl : m' = m := by simpa [hmessage] using h
      exact (hlib.holds _ _ _ hmessage).2

/-- The provider's message asks for no tool. -/
def AsksForNoTool (lib : ProviderLib) (raw : String) : Prop :=
  ∃ msg, (lib.loads raw).bind messageOf = .ok msg ∧ (rawToolCalls msg).truthy = false

theorem toolCalls_eq_nil_iff (hlib : lib.Documented) {status : ℕ} {raw : String} {m : AIMessage}
    (h : respond lib config status raw = .ok m) : m.toolCalls = [] ↔ AsksForNoTool lib raw := by
  obtain ⟨response, hresponse, hmessage⟩ := bind_eq_ok_iff.mp h
  obtain ⟨data, hdata, hread⟩ := parseResponse_ok hresponse
  obtain ⟨msg, -, hmsg, hcalls, -, -⟩ := readResponse_ok hread
  have hloaded : (lib.loads raw).bind messageOf = .ok msg :=
    bind_eq_ok_iff.mpr ⟨data, hdata, hmsg⟩
  rw [← List.map_eq_nil_iff (f := AIToolCall.decoded), toAIMessage_ok hlib hmessage,
    decodeToolCalls_eq_nil_iff hcalls]
  constructor
  · exact fun hfalsy => ⟨msg, hloaded, hfalsy⟩
  · rintro ⟨msg', hmsg', hfalsy⟩
    rw [hloaded] at hmsg'
    obtain rfl := Except.ok.inj hmsg'
    exact hfalsy

end Origin

/-- **Tool calls** come back from the wire exactly if the provider's message asks for none. -/
theorem tool_calls_round_trip_iff (lib : ProviderLib) (config : ProviderConfig)
    (hlib : lib.Documented) (status : ℕ) (raw : String) (m : AIMessage)
    (h : respond lib config status raw = .ok m) : RoundTrips lib m ↔ AsksForNoTool lib raw := by
  rw [roundTrips_iff, toolCalls_eq_nil_iff hlib h]

/-! ## At an answer and at a tool call -/

/-- A response with an answer. -/
def answerBody : String :=
  braced ("\"choices\": [" ++ braced ("\"message\": " ++ braced "\"content\": \"done\"") ++ "]")

/-- What it holds. -/
def answerJson : Json :=
  .obj [("choices", .arr [.obj [("message", .obj [("content", .str "done")])]])]

/-- The library at that response. -/
def answerLib : ProviderLib := demoLib (braced "") answerBody answerJson

/-- An answer has no tool calls to lose. -/
theorem tool_calls_round_trip_answer : RoundTrips answerLib ⟨.str "done", []⟩ :=
  (tool_calls_round_trip_iff answerLib demoProviderConfig (demoLib_documented ..) 200 answerBody
    ⟨.str "done", []⟩ rfl).mpr ⟨.obj [("content", .str "done")], rfl, rfl⟩

/-- A response with a tool call. -/
def toolCallBody : String :=
  braced ("\"choices\": [" ++ braced ("\"message\": " ++ braced ("\"tool_calls\": [" ++
    braced ("\"id\": \"t1\", \"function\": " ++
      braced ("\"name\": \"get_balance\", \"arguments\": " ++ braced "")) ++ "]")) ++ "]")

/-- What it holds. -/
def toolCallJson : Json :=
  .obj [("choices", .arr [.obj [("message", .obj [("tool_calls", .arr [.obj [("id", .str "t1"),
    ("function", .obj [("name", .str "get_balance"), ("arguments", .obj [])])]])])]])]

/-- The library at that response. -/
def toolCallLib : ProviderLib := demoLib (braced "") toolCallBody toolCallJson

/-- The balance is asked for, and the call comes back as no call at all: its function is missing. -/
theorem tool_call_lost_on_the_wire :
    respond toolCallLib demoProviderConfig 200 toolCallBody =
        .ok ⟨.str "", [⟨"get_balance", [], some "t1"⟩]⟩ ∧
      ¬ RoundTrips toolCallLib ⟨.str "", [⟨"get_balance", [], some "t1"⟩]⟩ :=
  ⟨rfl, fun h => List.cons_ne_nil _ _ ((roundTrips_iff toolCallLib _).mp h)⟩

end BankingAgent
