import BankingAgent.GraphProtocol
import BankingAgent.Orchestration

/-!
# Two classifiers

The tool node and the executor of plan steps both tell the gateway what kind of operation a
tool call is. Both look at the registry first. For a tool the registry does not know, the node
goes by the words in the name, and the executor says it is a read.

* `same_kind_iff` — whichever route a tool call takes it is submitted as the same kind, exactly
  if a registry is configured or the name has none of the words.
-/

namespace BankingAgent

open Async

/-- The coroutine may submit the operation to the gateway. -/
def Submits {α : Type} (c : Co α) (operation : Operation) : Prop :=
  ∃ es c', Trace c es c' ∧ ∃ d, ⟨.authorize operation, d⟩ ∈ es

/-- A tool is submitted as the same kind of operation by every plan step and by every run of
the tool node. -/
def SameKind (rt : AgentRuntime) (toolName : String) : Prop :=
  ∀ plan step s resumes o o', Submits (rt.executeStep plan step) o →
    Submits (rt.runTools s resumes) o' → o.name = .str toolName → o'.name = .str toolName →
    o.kind = o'.kind

section Kinds

variable {rt : AgentRuntime} {toolName : String}

/-- What is submitted satisfies what every submission of the coroutine does. -/
theorem of_submits {α : Type} {P : Operation → Prop} {c : Co α} {operation : Operation}
    (h : Submits c operation) (hc : c.Only fun o => ∀ operation, o = .authorize operation →
      P operation) : P operation := by
  obtain ⟨es, c', htrace, d, hmem⟩ := h
  exact Prog.Only.trace htrace hc _ hmem operation rfl

/-- An approved call submits nothing more. -/
theorem Op.OfCall.not_submits {P : Operation → Prop} {o : Op} (h : o.OfCall) :
    ∀ operation, o = .authorize operation → P operation := by
  rintro operation rfl
  exact h.elim

theorem callTool_not_submits {P : Operation → Prop} {site : Site} {call : ToolCall} :
    (MCPClient.callTool site call).Only fun o => ∀ operation, o = .authorize operation →
      P operation := callTool_only (by rintro _ ⟨⟩)

/-! ## The executor -/

/-- The executor submits a tool as what it takes it for. -/
theorem executeStep_submits (plan : ExecutionPlan) (step : PlanStep) :
    (rt.executeStep plan step).Only fun o => ∀ operation, o = .authorize operation →
      rt.stepKind operation.name = .ok operation.kind := by
  rcases rt.executeStep_cases plan step with ⟨_, h⟩ | ⟨_, h⟩ | ⟨toolName, kind, -, hkind, h⟩
  · rw [h]
    exact trivial
  · rw [h]
    exact trivial
  · rw [h]
    refine ⟨?_, fun decision => ?_⟩
    · rintro operation ⟨⟩
      exact hkind
    · simp only [Prog.ret_bind]
      split
      · exact trivial
      · exact Prog.Only.bind (fun result => by exact trivial) callTool_not_submits.attempt

/-! ## The tool node -/

/-- What the node submits, the registry knows, if there is one. -/
def AgentRuntime.NodeSubmits (rt : AgentRuntime) (operation : Operation) : Prop :=
  ∃ toolName, operation.name = .str toolName ∧ operation.kind = rt.operationKind toolName ∧
    ∀ registry, rt.toolRegistry = some registry → registry.has toolName = true

theorem has_of_valid {tc : ToolRequest} {registry : ToolRegistry}
    (h : rt.validationError tc = none) (hregistry : rt.toolRegistry = some registry) :
    registry.has tc.name = true := by
  rw [AgentRuntime.validationError, hregistry, Option.bind_some, validateToolCall] at h
  cases hget : registry.get tc.name with
  | none => simp [hget] at h
  | some definition => rw [ToolRegistry.has, hget, Option.isSome_some]

theorem answerCall_not_submits {P : Operation → Prop} {number : ℕ} {sessionId : Option String}
    {tc : ToolRequest} : (rt.answerCall number sessionId tc).Only fun o =>
      ∀ operation, o = .authorize operation → P operation :=
  answerCall_ofCall.mono Op.OfCall.not_submits

theorem handleCall_submits {s : AgentState} {resumes : List Json} {progress : Progress}
    {tc : ToolRequest} : (rt.handleCall s resumes progress tc).Only fun o =>
      ∀ operation, o = .authorize operation → rt.NodeSubmits operation := by
  rw [AgentRuntime.handleCall]
  cases hvalid : rt.validationError tc with
  | some error => exact trivial
  | none =>
    dsimp only
    split
    · exact trivial
    · refine Prog.Only.bind (fun gate => ?_) ⟨?_, fun decision => ?_⟩
      · obtain ⟨answer, interrupts⟩ := gate
        cases answer with
        | error answer => exact trivial
        | ok call => exact Prog.Only.bind (fun _ => by exact trivial) answerCall_not_submits
      · rintro operation ⟨⟩
        exact ⟨tc.name, rfl, rfl, fun registry => has_of_valid hvalid⟩
      · simp only [Prog.ret_bind]
        cases decision.decision with
        | approved => exact trivial
        | denied => exact trivial
        | pending =>
          refine Prog.Only.bind (fun _ => by exact trivial) ⟨by rintro _ ⟨⟩, fun _ => ?_⟩
          cases resumes[progress.interrupts]? <;> exact trivial

theorem handleCalls_submits {s : AgentState} {resumes : List Json} (calls : List ToolRequest) :
    ∀ {progress : Progress}, (rt.handleCalls s resumes calls progress).Only fun o =>
      ∀ operation, o = .authorize operation → rt.NodeSubmits operation := by
  induction calls with
  | nil => exact trivial
  | cons tc rest ih =>
    intro progress
    exact Prog.Only.bind (fun _ => Prog.Only.bind (fun _ => by exact trivial) ih) handleCall_submits

/-! ## The kinds -/

/-- For a tool the registry knows the two classifiers are the same. -/
theorem stepKind_eq_of_has {registry : ToolRegistry} (hregistry : rt.toolRegistry = some registry)
    (hhas : registry.has toolName = true) :
    rt.stepKind (.str toolName) = .ok (rt.operationKind toolName) := by
  obtain ⟨definition, hget⟩ := Option.isSome_iff_exists.mp hhas
  simp [AgentRuntime.stepKind, AgentRuntime.operationKind, hregistry, hget, kindFromMetadata,
    ToolRegistry.get?, Except.map]

theorem stepKind_of_none (hregistry : rt.toolRegistry = none) {name : Json} :
    rt.stepKind name = .ok .read := by
  simp [AgentRuntime.stepKind, hregistry]

theorem operationKind_of_none (hregistry : rt.toolRegistry = none) :
    rt.operationKind toolName = classifyToolKind rt.py toolName := by
  simp [AgentRuntime.operationKind, hregistry]

/-- A step with the tool. -/
def stepFor (toolName : String) : PlanStep :=
  ⟨.str "1", .str "objective", .ofStrings [toolName], .ofStrings [], .str "low", "pending", 1⟩

/-- A plan of that step. -/
def planFor (toolName : String) : ExecutionPlan :=
  ⟨"plan", "goal", .ofStrings [], [stepFor toolName], .ofStrings []⟩

/-- A state in which the model asks for the tool. -/
def stateAsking (toolName : String) : AgentState :=
  ⟨[.ai "" [⟨"call", toolName, .obj []⟩]], none, 0, some "session", []⟩

/-- Without a registry every step is submitted as a read. -/
theorem executeStep_submits_tool (hregistry : rt.toolRegistry = none) :
    Submits (rt.executeStep (planFor toolName) (stepFor toolName))
      ⟨.read, .str toolName, "step:1", .obj [("args", .obj []), ("plan_id", .str "plan")]⟩ := by
  have hkind : rt.stepKind (.str toolName) = .ok .read := stepKind_of_none hregistry
  have hstep : rt.executeStep (planFor toolName) (stepFor toolName) =
      rt.dispatchStep (planFor toolName) (stepFor toolName) (.str toolName) .read := by
    change raised (rt.stepKind (.str toolName)) >>= _ = _
    rw [hkind]
    rfl
  rw [hstep]
  exact ⟨_, _, .cons (.nil _), ⟨.denied, ""⟩, List.mem_singleton.mpr rfl⟩

/-- Without a registry every call of a tool is submitted. -/
theorem runTools_submits_tool (hregistry : rt.toolRegistry = none) :
    Submits (rt.runTools (stateAsking toolName) [])
      ⟨rt.operationKind toolName, .str toolName, s!"tool:{toolName}", .obj [("args", .obj [])]⟩ := by
  have hvalid : rt.validationError ⟨"call", toolName, .obj []⟩ = none := by
    simp [AgentRuntime.validationError, hregistry]
  have hrun : rt.runTools (stateAsking toolName) [] =
      rt.handleCalls (stateAsking toolName) [] [⟨"call", toolName, .obj []⟩] ⟨[], 0⟩ := rfl
  rw [hrun, AgentRuntime.handleCalls, AgentRuntime.handleCall, hvalid]
  exact ⟨_, _, .cons (.nil _), ⟨.denied, ""⟩, List.mem_singleton.mpr rfl⟩

theorem sameKind_of_has (h : rt.toolRegistry.isSome = true) : SameKind rt toolName := by
  obtain ⟨registry, hregistry⟩ := Option.isSome_iff_exists.mp h
  intro plan step s resumes o o' ho ho' hname hname'
  obtain ⟨name, hname'', hkind, hhas⟩ := of_submits ho' (handleCalls_submits _)
  obtain rfl := Json.str.inj (hname''.symm.trans hname')
  have hstep := of_submits ho (executeStep_submits plan step)
  rw [hname, stepKind_eq_of_has hregistry (hhas registry hregistry)] at hstep
  exact (Except.ok.inj hstep).symm.trans hkind.symm

theorem sameKind_of_read (hregistry : rt.toolRegistry = none)
    (h : classifyToolKind rt.py toolName = .read) : SameKind rt toolName := by
  intro plan step s resumes o o' ho ho' hname hname'
  obtain ⟨name, hname'', hkind, -⟩ := of_submits ho' (handleCalls_submits _)
  obtain rfl := Json.str.inj (hname''.symm.trans hname')
  have hstep := of_submits ho (executeStep_submits plan step)
  rw [stepKind_of_none hregistry] at hstep
  rw [hkind, operationKind_of_none hregistry, h]
  exact (Except.ok.inj hstep).symm

theorem read_of_sameKind (hregistry : rt.toolRegistry = none) (h : SameKind rt toolName) :
    classifyToolKind rt.py toolName = .read := by
  rw [← operationKind_of_none hregistry]
  exact (h _ _ _ _ _ _ (executeStep_submits_tool hregistry) (runTools_submits_tool hregistry)
    rfl rfl).symm

end Kinds

/-- **Two classifiers**: a tool is submitted as the same kind whichever route it takes, exactly
if there is a registry or the words in its name say that it reads. -/
theorem same_kind_iff (rt : AgentRuntime) (toolName : String) :
    SameKind rt toolName ↔
      rt.toolRegistry.isSome = true ∨ classifyToolKind rt.py toolName = .read := by
  cases hregistry : rt.toolRegistry with
  | none =>
    refine ⟨fun h => .inr (read_of_sameKind hregistry h), fun h => sameKind_of_read hregistry ?_⟩
    exact h.resolve_left (by simp)
  | some registry =>
    exact iff_of_true (sameKind_of_has (by rw [hregistry]; rfl)) (.inl rfl)

/-- Without a registry the executor submits a transfer as a read, and the tool node does not. -/
theorem transfer_submitted_as_read :
    demoRuntime.stepKind (.str "submit_transfer") = .ok .read ∧
      demoRuntime.operationKind "submit_transfer" = .transfer ∧
        ¬ SameKind demoRuntime "submit_transfer" :=
  ⟨rfl, by decide, fun h => absurd (read_of_sameKind rfl h) (by decide)⟩

end BankingAgent
