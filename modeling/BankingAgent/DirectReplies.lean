import BankingAgent.Agent
import BankingAgent.Async.Rely

/-!
# The direct route and what the model replies

`_execute_direct` takes the JSON out of the reply inside its `try` and injects the identity outside
of it. Text that is not JSON is an answer of its own; JSON that is no object ends the run with a
`TypeError` if the tool needs the identity, and is what the tool is called with if it does not.

* `direct_survives_iff` — the route returns, and calls its tool with an object only, exactly if what
  it takes out of the reply is an object or no JSON at all.
-/

namespace BankingAgent

open Async

/-- The model replies with the text, and the client does not raise. -/
def RepliesWith (reply : String) : (o : Op) → o.Res → Prop
  | .llm _, answer => ∃ response, answer = .ok response ∧ response.content = reply
  | .callTool _ _, answer => ∃ result, answer = .ok result
  | _, _ => True

/-- The JSON value is an object. -/
def Json.IsObject (v : Json) : Prop := ∃ fields, v = .obj fields

/-- A tool is called with an object. -/
def Op.CallsWithObject : Op → Prop
  | .callTool _ call => call.arguments.IsObject
  | _ => True

/-- Whatever else it is answered, the direct route returns, and calls its tool with an object. -/
def DirectSurvives (rt : AgentRuntime) (args : RunArgs) (toolName reply : String) : Prop :=
  Relies (RepliesWith reply) Op.CallsWithObject (fun out => ∃ result, out = .ok result)
    (rt.executeDirect args toolName)

/-- What the route takes out of the reply, if it is JSON. -/
def AgentRuntime.extracted (rt : AgentRuntime) (reply : String) : Option Json :=
  rt.py.loads (extractJsonBlock rt.py (rt.py.strip reply))

section Walk

variable {rt : AgentRuntime} {args : RunArgs} {context : TrustedContext} {toolName reply : String}
  {v : Json} {fields : List (String × Json)}

/-! ## The identity -/

theorem injectIdentity_obj (toolName : String) (context : TrustedContext)
    (fields : List (String × Json)) : ∃ fields', AgentRuntime.injectIdentity toolName (some context)
    (.obj fields) = .ok (.obj fields') := by
  by_cases htool : toolName ∈ identityTools
  · exact ⟨_, by rw [AgentRuntime.injectIdentity, if_pos htool]⟩
  · exact ⟨fields, by rw [AgentRuntime.injectIdentity, if_neg htool]⟩

/-- What is no object ends the run, or goes on as it is. -/
theorem injectIdentity_of_not_object (h : ¬ v.IsObject) :
    AgentRuntime.injectIdentity toolName (some context) v =
      if toolName ∈ identityTools then .error .typeError else .ok v := by
  cases v with
  | obj fields => exact absurd ⟨fields, rfl⟩ h
  | _ => rfl

/-! ## The route -/

/-- The call of the tool, and what comes after it. -/
theorem relies_callTool {call : ToolCall} {Q : Except Exn RunResult → Prop}
    {f : ToolResult → Co RunResult}
    (hf : ∀ result, Relies (RepliesWith reply) Op.CallsWithObject Q (f result)) :
    Relies (RepliesWith reply) Op.CallsWithObject Q ((MCPClient.callTool .direct call).bind f) ↔
      call.arguments.IsObject := by
  constructor
  · exact fun h => h.1
  · rintro hobject
    refine ⟨hobject, ?_⟩
    rintro _ ⟨result, rfl⟩
    exact hf result

/-- The route behind the model: what has been taken out of the reply decides. -/
theorem relies_extracted {Q : Except Exn RunResult → Prop} {f : ToolResult → Co RunResult}
    (hf : ∀ result, Relies (RepliesWith reply) Op.CallsWithObject Q (f result))
    (hraise : ∀ exc, ¬ Q (.error exc)) :
    Relies (RepliesWith reply) Op.CallsWithObject Q
        ((raised (AgentRuntime.injectIdentity toolName (some context) v)).bind
          fun toolArgs => (MCPClient.callTool .direct ⟨.str toolName, toolArgs⟩).bind f) ↔
      v.IsObject := by
  constructor
  · intro h
    by_contra hv
    rw [injectIdentity_of_not_object hv] at h
    by_cases htool : toolName ∈ identityTools
    · rw [if_pos htool] at h
      exact hraise _ h
    · rw [if_neg htool] at h
      exact hv ((relies_callTool hf).mp h)
  · rintro ⟨fields, rfl⟩
    obtain ⟨fields', hinjected⟩ := injectIdentity_obj toolName context fields
    rw [hinjected]
    exact (relies_callTool hf).mpr ⟨fields', rfl⟩

/-- What comes after the tool answers. -/
theorem relies_finalAnswer (result : ToolResult) :
    Relies (RepliesWith reply) Op.CallsWithObject (fun out => ∃ r : RunResult, out = .ok r)
      (do
        let finalAnswer :=
          if result.success then result.content else "Error: " ++ result.error.getD "None"
        persistEvent args.runId 2 .agentMessage [("final_answer", .str finalAnswer)]
        return .answer args.runId finalAnswer 1 none) :=
  ⟨trivial, fun _ _ => ⟨_, rfl⟩⟩

/-- An authenticated user gets to the model. -/
theorem directSurvives_iff_reply (hcontext : args.trustedContext = some context)
    (hsubject : context.subjectId ≠ "anonymous" ∧ context.subjectId ≠ "") :
    DirectSurvives rt args toolName reply ↔ ∀ v, rt.extracted reply = some v → v.IsObject := by
  unfold DirectSurvives AgentRuntime.executeDirect
  extract_lets unauthenticated
  have hauth : unauthenticated = false := by
    unfold unauthenticated
    simp [hcontext, hsubject]
  rw [if_neg (by simp [hauth]), hcontext]
  constructor
  · intro h v hv
    have hreply := h.2 (.ok (.ai reply [])) ⟨_, rfl, rfl⟩
    simp only [Prog.ret_bind] at hreply
    split at hreply
    · rename_i hnone
      cases hv.symm.trans hnone
    · rename_i extracted hsome
      obtain rfl : v = extracted := Option.some.inj (hv.symm.trans hsome)
      exact (relies_extracted relies_finalAnswer (by rintro exc ⟨_, ⟨⟩⟩)).mp hreply
  · intro h
    refine ⟨trivial, ?_⟩
    rintro _ ⟨response, rfl, rfl⟩
    simp only [Prog.ret_bind]
    split
    · exact ⟨_, rfl⟩
    · rename_i extracted hsome
      exact (relies_extracted relies_finalAnswer (by rintro exc ⟨_, ⟨⟩⟩)).mpr (h extracted hsome)

end Walk

/-- **The direct route** survives a reply exactly if what it takes out of it is no JSON, or an
object. -/
theorem direct_survives_iff (rt : AgentRuntime) (args : RunArgs) (context : TrustedContext)
    (toolName reply : String) (hcontext : args.trustedContext = some context)
    (hsubject : context.subjectId ≠ "anonymous" ∧ context.subjectId ≠ "") :
    DirectSurvives rt args toolName reply ↔
      (rt.extracted reply = none ∨ ∃ v, rt.extracted reply = some v ∧ v.IsObject) := by
  rw [directSurvives_iff_reply hcontext hsubject]
  cases rt.extracted reply with
  | none => simp
  | some v => simp

/-- Alice asks for her balance. -/
def balanceArgs : RunArgs := ⟨"my balance", "r", "r", none, some ⟨"alice", "t1"⟩, "p"⟩

/-- A reply with the arguments of a transfer in it. -/
def wordyReply : String := "Sure: " ++ demoDumps demoArgs

/-- It is survived: the arguments are an object. -/
theorem wordy_reply_survived :
    demoRuntime.extracted wordyReply = some demoArgs ∧
      DirectSurvives demoRuntime balanceArgs "get_balance" wordyReply := by
  have hextracted : demoRuntime.extracted wordyReply = some demoArgs := by decide +kernel
  exact ⟨hextracted, (direct_survives_iff demoRuntime balanceArgs ⟨"alice", "t1"⟩ "get_balance"
    wordyReply rfl (by decide)).mpr (.inr ⟨demoArgs, hextracted, _, rfl⟩)⟩

/-- A deployment that reads an empty array. -/
def arrayRuntime : AgentRuntime :=
  { demoRuntime with
    py := { demoPy with loads := fun text => if text = "[]" then some (.arr []) else none } }

/-- An empty array is not: the identity cannot be injected. -/
theorem empty_array_raises : ¬ DirectSurvives arrayRuntime balanceArgs "get_balance" "[]" := by
  have hextracted : arrayRuntime.extracted "[]" = some (.arr []) := rfl
  intro h
  obtain ⟨fields, ⟨⟩⟩ := (directSurvives_iff_reply rfl (by decide)).mp h _ hextracted

end BankingAgent
