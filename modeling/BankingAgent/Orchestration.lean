import BankingAgent.Graph
import BankingAgent.PyValues
import BankingAgent.Search.CycleSearch
import Mathlib.Data.List.Dedup

/-!
# `orchestration/`: plans and their execution

The planner asks the model for a plan and has it checked; the executor runs one step
of a plan, through the authorization gateway; the verifier looks at what came out. A
plan is read from JSON, and nothing looks at the types of its fields: they are iterated,
hashed and compared as they come, and where one of that raises, the planner asks again.
-/

namespace BankingAgent

open Async Traversal

/-- `PlanStep`, as the planner makes it of the JSON; without the schema nothing reads. -/
structure PlanStep : Type where
  stepId : Json
  objective : Json
  toolCandidates : Json
  dependencies : Json
  riskLevel : Json
  status : String
  maxRetries : ℕ
  deriving DecidableEq

/-- `ExecutionPlan`, as far as the modelled functions read it. -/
structure ExecutionPlan : Type where
  planId : String
  goal : String
  requiredUserInputs : Json
  steps : List PlanStep
  completionCriteria : Json
  deriving DecidableEq

/-! ## Reading a plan -/

/-- The text before the first occurrence of `sep`, and the text after it. -/
def splitFirst (sep : List Char) : List Char → Option (List Char × List Char)
  | [] => if sep.isEmpty then some ([], []) else none
  | c :: rest =>
    if sep.isPrefixOf (c :: rest) then some ([], (c :: rest).drop sep.length)
    else (splitFirst sep rest).map fun parts => (c :: parts.1, parts.2)

/-- The fence of a code block. -/
def codeFence : List Char := List.replicate 3 (Char.ofNat 0x60)

/-- What stands between the first two fences, without the word `json`. -/
def fencedBlock (text : List Char) : Option (List Char) :=
  (splitFirst codeFence text).bind fun opened =>
    let body := if "json".toList.isPrefixOf opened.2 then opened.2.drop 4 else opened.2
    (splitFirst codeFence body).map Prod.fst

/-- From the first opening brace to the last closing one. -/
def bracedBlock (text : List Char) : Option (List Char) :=
  let fromOpen := text.dropWhile (· ≠ Char.ofNat 0x7b)
  let toClose := (fromOpen.reverse.dropWhile (· ≠ Char.ofNat 0x7d)).reverse
  if toClose.isEmpty then none else some toClose

/-- The JSON in a text: in a fence, or else in braces, or else the text itself. -/
def jsonIn (py : PyLib) (text : String) : String :=
  match fencedBlock text.toList with
  | some block => py.strip (String.ofList block)
  | none =>
    match bracedBlock text.toList with
    | some block => py.strip (String.ofList block)
    | none => py.strip text

/-- `_extract_json_block` of `agent.py`. -/
def extractJsonBlock (py : PyLib) (text : String) : String := jsonIn py text

/-- `_extract_json` of `planner.py`. -/
def extractJson (py : PyLib) (text : String) : String := jsonIn py text

/-- `d.get(name, default)`. -/
def Json.getD (d : Json) (name : String) (default : Json) : Json := (d.get? name).getD default

/-- A step of the plan, the number of which is `i`; anything but a dictionary has no `get`. -/
def PlanStep.ofJson (i : ℕ) : Json → Option PlanStep
  | .obj fields =>
    let s := Json.obj fields
    some { stepId := s.getD "step_id" (.str (toString (i + 1)))
           objective := s.getD "objective" (.str "")
           toolCandidates := s.getD "tool_candidates" (.arr [])
           dependencies := s.getD "dependencies" (.arr [])
           riskLevel := s.getD "risk_level" (.str "low")
           status := "pending"
           maxRetries := 1 }
  | _ => none

/-- The plan in the text of the model, as `_generate_plan` builds it, unless that raises. -/
def ExecutionPlan.ofText (py : PyLib) (planId goal raw : String) : Option ExecutionPlan := do
  match ← py.loads (extractJson py raw) with
  | .obj fields =>
    let data := Json.obj fields
    let items ← (data.getD "steps" (.arr [])).elements.toOption
    let steps ← items.zipIdx.mapM fun x => PlanStep.ofJson x.2 x.1
    return { planId, goal, steps,
             requiredUserInputs := data.getD "required_user_inputs" (.arr [])
             completionCriteria := data.getD "completion_criteria" (.arr []) }
  | _ => none

/-! ## The validator -/

/-- The error for a cycle. -/
def cycleError (cycle : List String) : String :=
  let cycle := " → ".intercalate cycle
  s!"Circular dependency: {cycle}"

/-- A string, for `" → ".join`. -/
def HashKey.asText : HashKey → Except Exn String
  | .text s => .ok s
  | _ => .error .typeError

/-- The identifier of a step, and its dependencies, in a set. -/
def PlanStep.node (py : PyLib) (step : PlanStep) : Except Exn (HashKey × List HashKey) := do
  let id ← py.hash step.stepId
  let deps ← step.dependencies.elements
  let deps ← deps.mapM py.hash
  return (id, deps.dedup)

/-- The set of the identifiers. -/
abbrev nodeIds (graph : List (HashKey × List HashKey)) : List HashKey := (graph.map Prod.fst).dedup

/-- The dependencies of a step; of several steps with one identifier the last counts. -/
def nextNodes (graph : List (HashKey × List HashKey)) (id : HashKey) : List HashKey :=
  ((graph.reverse.find? fun node => node.1 = id).map Prod.snd).getD []

/-- The orders in which the sets of the source are gone through, whatever is in them: that of the
identifiers, and that of the dependencies of each step. -/
abbrev SetOrders : Type := ∀ graph : List (HashKey × List HashKey),
  CycleSearch.Order (nodeIds graph) (nextNodes graph)

/-- The orders in which the plan has them. -/
def planOrders : SetOrders := fun graph => ⟨_, nextNodes graph, .refl _, fun _ => .refl _⟩

/-- `_detect_cycles`, where the interpreter has room for so many nested calls of `_dfs`. It raises
where the search does, and where something else than strings is to be joined; of several exceptions
the model does not tell which comes first. -/
def detectCycles (py : PyLib) (frames : ℕ) (o : SetOrders) (steps : List PlanStep) :
    Except Exn (List String) := do
  let graph ← steps.mapM (PlanStep.node py)
  let roots := (o graph).roots
  match CycleSearch.visitAll (o graph).next frames roots (CycleSearch.start roots) with
  | .error .depth => .error (.runtime "maximum recursion depth exceeded")
  | .error .notOnPath => .error .valueError
  | .ok found => found.cycles.mapM fun cycle => (cycle.mapM HashKey.asText).map cycleError

/-- `PlanValidator`. -/
structure PlanValidator : Type where
  toolRegistry : Option ToolRegistry
  maxSteps : ℤ
  forbidden : List String

/-- The errors of a tool; to look it up, the registry hashes it. -/
def PlanValidator.toolErrors (v : PlanValidator) (py : PyLib) (step : PlanStep) (tool : Json) :
    Except Exn (List String) :=
  if tool ∈ v.forbidden.map Json.str then
    .ok [s!"Step '{py.str step.stepId}' references forbidden tool '{py.str tool}'"]
  else match v.toolRegistry with
    | none => .ok []
    | some registry => (py.hash tool).map fun _ =>
      if (registry.get? tool).isSome then []
      else [s!"Step '{py.str step.stepId}' references unknown tool '{py.str tool}'"]

/-- The errors of the tools of a step. -/
def PlanValidator.candidateErrors (v : PlanValidator) (py : PyLib) (step : PlanStep) :
    Except Exn (List String) := do
  let tools ← step.toolCandidates.elements
  collect (v.toolErrors py step) tools

/-- The errors of the dependencies of a step. -/
def dependencyErrors (py : PyLib) (stepIds : List HashKey) (step : PlanStep) :
    Except Exn (List String) := do
  let id ← py.hash step.stepId
  let onItself ← py.holds id step.dependencies
  let deps ← step.dependencies.elements
  return (if onItself then [s!"Step '{py.str step.stepId}' depends on itself"] else []) ++
    deps.filterMap fun dep =>
      if (py.hashKey? dep).any (· ∈ stepIds) then none
      else some s!"Step '{py.str step.stepId}' depends on unknown step '{py.str dep}'"

/-- The errors of a plan. -/
def PlanValidator.findErrors (v : PlanValidator) (py : PyLib) (frames : ℕ) (o : SetOrders)
    (plan : ExecutionPlan) : Except Exn (List String) := do
  let count := plan.steps.length
  let stepIds ← plan.steps.mapM fun step => py.hash step.stepId
  let toolErrors ← collect (v.candidateErrors py) plan.steps
  let depErrors ← collect (dependencyErrors py stepIds) plan.steps
  let cycles ← detectCycles py frames o plan.steps
  return (if count = 0 then ["Plan must have at least one step"] else []) ++
    (if v.maxSteps < count then [s!"Plan has {count} steps (max {v.maxSteps})"] else []) ++
    (if stepIds.Nodup then [] else ["Plan contains duplicate step IDs"]) ++
    toolErrors ++ depErrors ++ cycles ++
    (if py.strip plan.goal = "" then ["Plan has no goal"] else [])

/-- The warnings about a plan. -/
def planWarnings (py : PyLib) (plan : ExecutionPlan) : List String :=
  (if plan.completionCriteria.truthy then []
    else ["Plan has no completion criteria — verification may be weak"]) ++
  plan.steps.filterMap fun step =>
    if step.riskLevel ∈ [.str "high", .str "critical"] ∧ plan.requiredUserInputs.truthy = false then
      some (s!"Step '{py.str step.stepId}' is high-risk but plan identifies " ++
        "no required user inputs")
    else none

/-- `PlanValidation`. -/
structure PlanValidation : Type where
  valid : Bool
  errors : List String
  warnings : List String
  reason : String

/-- `PlanValidator.validate`. -/
def PlanValidator.validate (v : PlanValidator) (py : PyLib) (frames : ℕ) (o : SetOrders)
    (plan : ExecutionPlan) : Except Exn PlanValidation := do
  let errors ← v.findErrors py frames o plan
  let reason := if errors.isEmpty then "Plan is valid" else "; ".intercalate errors
  return { valid := errors.isEmpty, errors, warnings := planWarnings py plan, reason }

/-! ## The planner -/

/-- `_PLANNER_SYSTEM`. -/
def plannerSystem : String := "\n".intercalate
  ["You are a banking task planner. Given a user's goal and available tools,",
   "produce a structured execution plan as JSON.",
   "",
   "Rules:",
   "- Each step must reference only tools that exist in the tool list.",
   "- Steps must be ordered — a step's dependencies must be earlier steps.",
   "- Identify assumptions you're making and information you need from the user.",
   "- Never propose tools the user is not authorized to use.",
   "- For high-risk steps, flag them with risk_level \"high\" or \"critical\".",
   "- Max 10 steps.",
   "",
   "Output ONLY valid JSON:",
   braced ("\n".intercalate ["",
   "  \"assumptions\": [\"...\"],",
   "  \"required_user_inputs\": [\"...\"],",
   "  \"steps\": [",
   "    " ++ braced ("\n".intercalate ["",
   "      \"step_id\": \"1\",",
   "      \"objective\": \"...\",",
   "      \"tool_candidates\": [\"tool_name\"],",
   "      \"dependencies\": [],",
   "      \"risk_level\": \"low\"",
   "    "]),
   "  ],",
   "  \"completion_criteria\": [\"...\"]",
   ""])]

/-- The prompt of `Planner.plan`; the context is empty. -/
def plannerPrompt (registry : Option ToolRegistry) (goal : String) : String :=
  let toolNames := ((registry.map fun r => r.tools.map ToolDefinition.name).getD []).mergeSort
    fun a b => decide (a ≤ b)
  let available := if toolNames.isEmpty then "unknown" else ", ".intercalate toolNames
  s!"Goal: {goal}\nAvailable tools: {available}\nContext: \n\n" ++
    "Generate a step-by-step execution plan as JSON."

namespace AgentRuntime

variable (rt : AgentRuntime)

/-- A validator of the runtime. The sets have the order of the plan here, and there is room for a
call for each step; in every other order the same plans are accepted. -/
def validate (maxSteps : ℤ) (plan : ExecutionPlan) : Except Exn PlanValidation :=
  PlanValidator.validate ⟨rt.toolRegistry, maxSteps, []⟩ rt.py plan.steps.length planOrders plan

/-- `Planner.plan`, with `attempts` attempts left: a plan its own validator accepts, or
none. An exception costs an attempt, wherever it comes from. -/
def plan (planId goal : String) : ℕ → Co (Option ExecutionPlan)
  | 0 => return none
  | attempts + 1 => do
    let messages := [.system plannerSystem, .human (plannerPrompt rt.toolRegistry goal)]
    match ← perform (.llm messages) with
    | .error _ => plan planId goal attempts
    | .ok response =>
      match ExecutionPlan.ofText rt.py planId goal response.content with
      | none => plan planId goal attempts
      | some plan' =>
        match rt.validate 15 plan' with
        | .ok { valid := true, .. } => return some plan'
        | _ => plan planId goal attempts

end AgentRuntime

/-! ## Executor and verifier -/

/-- An exception as a value becomes one again. -/
def raised {α : Type} : Except Exn α → Co α
  | .ok a => .ret a
  | .error exc => throw exc

/-- `StepResult`, without its duration. -/
structure StepResult : Type where
  stepId : Json
  success : Bool
  toolName : Json
  output : String
  error : Option String

/-- A step that failed. -/
def StepResult.failure (stepId toolName : Json) (error : String) : StepResult :=
  ⟨stepId, false, toolName, "", some error⟩

/-- The kind of operation, as `execute_step` classifies a tool; without a registry nothing is
looked up. -/
def AgentRuntime.stepKind (rt : AgentRuntime) (toolName : Json) : Except Exn OperationKind :=
  match rt.toolRegistry with
  | none => .ok .read
  | some registry => (rt.py.hash toolName).map fun _ =>
    match registry.get? toolName with
    | some definition =>
      if definition.sideEffect then
        if definition.riskLevel = .critical then .transfer else .write
      else .read
    | none => .read

/-- What becomes of the answer of the tool. -/
def PlanStep.result (step : PlanStep) (toolName : Json) : Except Exn ToolResult → StepResult
  | .error exc => .failure step.stepId toolName exc.message
  | .ok result =>
    if result.success then ⟨step.stepId, true, toolName, result.content, none⟩
    else .failure step.stepId toolName (orElse result.error "Tool execution failed")

/-- `execute_step`, from the question to the gateway on. -/
def AgentRuntime.dispatchStep (rt : AgentRuntime) (plan : ExecutionPlan) (step : PlanStep)
    (toolName : Json) (kind : OperationKind) : Co StepResult := do
  let decision ← perform (.authorize ⟨kind, toolName, s!"step:{rt.py.str step.stepId}",
    .obj [("args", .obj []), ("plan_id", .str plan.planId)]⟩)
  if decision.decision = .denied then
    return .failure step.stepId toolName s!"Authorization denied: {decision.reason}"
  else
    let answer ← (MCPClient.callTool (.step step.stepId) ⟨toolName, .obj []⟩).attempt
    return step.result toolName answer

/-- `StepExecutor.execute_step`, without arguments for the tool. -/
def AgentRuntime.executeStep (rt : AgentRuntime) (plan : ExecutionPlan) (step : PlanStep) :
    Co StepResult := do
  let shown := rt.py.str step.stepId
  if step.status ≠ "pending" then
    return .failure step.stepId (.str "")
      s!"Step '{shown}' is not pending (status: {step.status})"
  else if step.toolCandidates.truthy = false then
    return .failure step.stepId (.str "") s!"Step '{shown}' has no tool candidates"
  else
    let toolName ← raised step.toolCandidates.first
    let kind ← raised (rt.stepKind toolName)
    rt.dispatchStep plan step toolName kind

/-- **A step** fails, raises, or goes to the gateway with its first candidate. -/
theorem AgentRuntime.executeStep_cases (rt : AgentRuntime) (plan : ExecutionPlan)
    (step : PlanStep) :
    (∃ error, rt.executeStep plan step = .ret (.failure step.stepId (.str "") error)) ∨
      (∃ exc, rt.executeStep plan step = .raise exc) ∨
      ∃ toolName kind, step.toolCandidates.first = .ok toolName ∧
        rt.stepKind toolName = .ok kind ∧
        rt.executeStep plan step = rt.dispatchStep plan step toolName kind := by
  rw [executeStep]
  split_ifs with hpending htools
  · exact .inl ⟨_, rfl⟩
  · exact .inl ⟨_, rfl⟩
  · cases hfirst : step.toolCandidates.first with
    | error exc => exact .inr (.inl ⟨exc, rfl⟩)
    | ok toolName =>
      change _ ∨ (∃ exc, (raised (rt.stepKind toolName)).bind _ = .raise exc) ∨
        ∃ toolName' kind, _ ∧ _ ∧ (raised (rt.stepKind toolName)).bind _ = _
      cases hkind : rt.stepKind toolName with
      | error exc => exact .inr (.inl ⟨exc, rfl⟩)
      | ok kind => exact .inr (.inr ⟨toolName, kind, rfl, hkind, rfl⟩)

/-- `VerificationResult.action`. -/
inductive VerifyAction : Type where
  | continue
  | retry
  | askUser
  | abort
  deriving DecidableEq, Repr

/-- `VerificationResult`. -/
structure VerificationResult : Type where
  passed : Bool
  reason : String
  action : VerifyAction

/-- `_next_action_for_failure`. -/
def nextActionForFailure (step : PlanStep) : VerifyAction :=
  if 1 < step.maxRetries then .retry
  else if step.riskLevel = .str "critical" then .askUser
  else .abort

/-- `_check_criterion`. -/
def checkCriterion (py : PyLib) (criterion : String) (result : StepResult) : Bool :=
  let outputLower := py.lower result.output
  let criterionLower := py.lower criterion
  if contains "balance" criterionLower then
    contains "balance" outputLower || contains "amount" outputLower
  else if contains "status" criterionLower then contains "status" outputLower
  else if contains "draft" criterionLower then contains "draft_id" outputLower
  else py.strip result.output ≠ ""

/-- The first criterion that is not met. What is no string has no `lower`. -/
def unmetCriterion (py : PyLib) (result : StepResult) : List Json → Except Exn (Option String)
  | [] => .ok none
  | .str criterion :: rest =>
    if checkCriterion py criterion result then unmetCriterion py result rest
    else .ok (some criterion)
  | _ :: _ => .error .attributeError

/-- `StepVerifier.verify`. -/
def verify (py : PyLib) (step : PlanStep) (result : StepResult) (plan : ExecutionPlan) :
    Except Exn VerificationResult :=
  if !result.success then
    let error := result.error.getD ""
    .ok ⟨false, s!"Tool '{py.str result.toolName}' failed: {error}", nextActionForFailure step⟩
  else if py.strip result.output = "" then
    .ok ⟨true, "Step succeeded but produced empty output", .continue⟩
  else do
    let criteria ←
      if plan.completionCriteria.truthy then plan.completionCriteria.elements else .ok []
    match ← unmetCriterion py result criteria with
    | some criterion => return ⟨false, s!"Completion criterion not met: {criterion}", .retry⟩
    | none =>
      return ⟨true, s!"Step '{py.str step.stepId}' verified successfully", .continue⟩

/-- How the loop over the steps ends. -/
inductive PlanOutcome : Type where
  /-- the results of all steps -/
  | completed (results : List StepResult)
  /-- the step that was given up, and the number of results before it -/
  | aborted (step : PlanStep) (reason : String) (before : ℕ)

/-- The loop over the steps, with the results so far: a failed verification is followed
by one retry or by the end. The retry is verified too, but only an exception counts. -/
def AgentRuntime.executeSteps (rt : AgentRuntime) (plan : ExecutionPlan) :
    List PlanStep → List StepResult → Co PlanOutcome
  | [], results => return .completed results
  | step :: rest, results => do
    let result ← rt.executeStep plan step
    let verdict ← raised (verify rt.py step result plan)
    if verdict.passed then executeSteps rt plan rest (results ++ [result])
    else if verdict.action = .retry ∧ 0 < step.maxRetries then
      let again ← rt.executeStep plan step
      let _ ← raised (verify rt.py step again plan)
      executeSteps rt plan rest (results ++ [again])
    else if verdict.action = .abort ∨ verdict.action = .askUser then
      return .aborted step verdict.reason results.length
    else executeSteps rt plan rest (results ++ [result])

end BankingAgent
