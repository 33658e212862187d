import BankingAgent.AuthorizedEffects
import BankingAgent.PlanTurns

/-!
# Runs of a plan

The planner's route executes a plan that was accepted twice. The verification of a second
attempt does not stop it, and nothing compares the order of the list with the dependencies. So

* a step may be dispatched although a step it depends on stands behind it in the list, or
  has failed (`dependencies_first`),
* a step may be dispatched again although it has succeeded (`successes_at_most_once`),
* a plan may be called completed although a step has failed (`completion_verified`),

each exactly in the cases these theorems name. The plans are all those the route executes,
whatever the types of their fields.
-/

namespace BankingAgent

open Async

variable {rt : AgentRuntime} {plan : ExecutionPlan} {step : PlanStep}
  {es : List (Event Op Op.Res)}

/-! ## The plan of a request -/

theorem ofJson_fresh {i : ℕ} {json : Json} (h : PlanStep.ofJson i json = some step) :
    step.Fresh := by
  cases json with
  | obj fields =>
    cases h
    rfl
  | _ => cases h

/-- The planner makes fresh steps only. -/
theorem ofText_fresh {py : PyLib} {planId goal raw : String}
    (h : ExecutionPlan.ofText py planId goal raw = some plan) : ∀ step ∈ plan.steps, step.Fresh := by
  obtain ⟨json, -, h⟩ := Option.bind_eq_some_iff.mp h
  cases json with
  | obj fields =>
    obtain ⟨items, -, h⟩ := Option.bind_eq_some_iff.mp h
    obtain ⟨steps, hsteps, h⟩ := Option.bind_eq_some_iff.mp h
    cases h
    intro step hstep
    obtain ⟨x, -, hx⟩ := Traversal.exists_of_mem_right (Traversal.mapM_eq_some_iff.mp hsteps) hstep
    exact ofJson_fresh hx
  | _ => cases h

/-- A plan the planner returns has fresh steps. -/
theorem plan_fresh {planId goal : String} : ∀ {attempts : ℕ} {es : List (Event Op Op.Res)},
    Trace (rt.plan planId goal attempts) es (.ret (some plan)) → ∀ step ∈ plan.steps, step.Fresh := by
  intro attempts
  induction attempts with
  | zero =>
    intro es h
    obtain ⟨-, h⟩ := h.of_ret
    cases h
  | succ attempts ih =>
    intro es h
    rcases h.of_op with ⟨-, h⟩ | ⟨reply, es', -, h'⟩
    · cases h
    · cases reply with
      | error exc => exact ih h'
      | ok response =>
        simp only [Prog.ret_bind] at h'
        cases htext : ExecutionPlan.ofText rt.py planId goal response.content with
        | none =>
          rw [htext] at h'
          exact ih h'
        | some plan' =>
          rw [htext] at h'
          simp only at h'
          split at h'
          · obtain ⟨-, h⟩ := h'.of_ret
            cases h
            exact ofText_fresh htext
          · exact ih h'

/-- `_execute_planner` has got the plan, and has then done `es`. -/
def Carries (rt : AgentRuntime) (args : RunArgs) (route : Route) (plan : ExecutionPlan)
    (es : List (Event Op Op.Res)) (c : Co RunResult) : Prop :=
  ∃ planned, Trace (rt.plan args.planId args.userMessage 3) planned (.ret (some plan)) ∧
    Trace (rt.executePlanner args route) (planned ++ es) c

theorem Carries.fresh {args : RunArgs} {route : Route} {c : Co RunResult}
    (h : Carries rt args route plan es c) : ∀ step ∈ plan.steps, step.Fresh := by
  obtain ⟨planned, hplan, -⟩ := h
  exact plan_fresh hplan

/-- `_execute_planner` says that the task is completed. -/
def RunResult.Completed (result : RunResult) : Prop :=
  ∃ rest, result.finalAnswer = some ("Task completed in " ++ rest)

theorem not_completed_of_head {result : RunResult} {text : String}
    (h : result.finalAnswer = some text) (hhead : text.toList.head? ≠ some 'T') :
    ¬ result.Completed := by
  rintro ⟨rest, hrest⟩
  rw [h] at hrest
  cases hrest
  exact hhead (by simp)

/-- What `_execute_planner` makes of the outcome of the loop. -/
def RunResult.ofOutcome (py : PyLib) (runId : String) : PlanOutcome → RunResult
  | .completed results => .answer runId (AgentRuntime.planSummary results) results.length none
  | .aborted step reason before =>
    .answer runId s!"Step '{py.str step.objective}' failed: {reason}" (before + 1) none

/-- Only a loop that is through completes the task. -/
theorem completed_of_ofOutcome {py : PyLib} {runId : String} {outcome : PlanOutcome}
    (h : (RunResult.ofOutcome py runId outcome).Completed) :
    ∃ results, outcome = .completed results := by
  cases outcome with
  | completed results => exact ⟨results, rfl⟩
  | aborted step reason before =>
    exact absurd h (not_completed_of_head rfl (by simp [toString]))

/-- What the loop over an accepted plan has done, for a request that has come to `c`. -/
structure PlanLoop (rt : AgentRuntime) (plan : ExecutionPlan) (turns : List (Event Op Op.Res))
    (c : Co RunResult) : Prop where
  accepted : ∃ v : PlanValidator, v.Accepts rt.py plan
  loop : Loop rt plan plan.steps turns
  completed : ∀ result, c = .ret result → result.Completed → Turns rt plan plan.steps turns ∧
    ∃ results : List StepResult, results.length = plan.steps.length ∧
      result.finalAnswer = some (AgentRuntime.planSummary results)

/-- **What a request does with its plan**: nothing, or it notes it down and starts the loop. -/
theorem Carries.loop {args : RunArgs} {route : Route} {c : Co RunResult}
    (h : Carries rt args route plan es c) :
    (es = [] ∧ ∀ result, c = .ret result → ¬ result.Completed) ∨
      ∃ event hit turns, es = ⟨.event event, hit⟩ :: turns ∧ PlanLoop rt plan turns c := by
  obtain ⟨planned, hplan, h⟩ := h
  have hfresh := plan_fresh hplan
  replace h := hplan.after rfl h
  rcases raised_bind_trace h with ⟨rfl, hc⟩ | ⟨validation, hvalidation, h⟩
  · exact .inl ⟨rfl, fun result hresult => absurd hresult (hc result)⟩
  split at h
  · obtain ⟨rfl, rfl⟩ := h.of_ret
    refine .inl ⟨rfl, fun result hresult => ?_⟩
    cases hresult
    exact not_completed_of_head rfl (by simp [toString])
  rename_i hvalid
  have haccepted := AgentRuntime.accepts_of_validate hvalidation (Bool.not_eq_false _ ▸ hvalid)
  rcases h.of_op with ⟨rfl, rfl⟩ | ⟨hit, turns, rfl, h'⟩
  · exact .inl ⟨rfl, by rintro result ⟨⟩⟩
  refine .inr ⟨_, hit, turns, rfl, ?_⟩
  simp only [Prog.pure_eq, Prog.ret_bind] at h'
  rcases Trace.of_bind h' with ⟨c', h₁, hret, rfl⟩ | ⟨outcome, es₁, es₂, h₁, rfl, h₂⟩
  · refine ⟨⟨_, haccepted⟩, (executeSteps_trace hfresh h₁).1, fun result hresult => ?_⟩
    obtain ⟨outcome, houtcome, -⟩ := Prog.bind_eq_ret hresult
    exact absurd houtcome (hret outcome)
  · obtain ⟨hloop, hall⟩ := executeSteps_trace hfresh h₁
    have hanswer : Trace (.ret (.ofOutcome rt.py args.runId outcome)) es₂ c := by
      cases outcome <;> exact h₂
    obtain ⟨rfl, rfl⟩ := hanswer.of_ret
    rw [List.append_nil]
    refine ⟨⟨_, haccepted⟩, hloop, fun result hresult hcompleted => ?_⟩
    cases hresult
    obtain ⟨results, rfl⟩ := completed_of_ofOutcome hcompleted
    obtain ⟨hturns, hlen⟩ := hall results rfl
    exact ⟨hturns, results, by simpa using hlen, rfl⟩

/-- The planner calls no tool and asks for no authorization. -/
theorem plan_away {planId goal : String} : ∀ attempts : ℕ,
    (rt.plan planId goal attempts).Only fun o => ¬ o.AtGate := by
  intro attempts
  induction attempts with
  | zero => exact trivial
  | succ attempts ih =>
    refine ⟨id, fun reply => ?_⟩
    cases reply with
    | error exc => exact ih
    | ok response =>
      simp only [Prog.ret_bind]
      cases ExecutionPlan.ofText rt.py planId goal response.content with
      | none => exact ih
      | some plan =>
        simp only
        split
        · exact trivial
        · exact ih

/-- Whatever happens at the gate happens for a plan. -/
theorem executePlanner_trace {args : RunArgs} {route : Route} {c : Co RunResult}
    (h : Trace (rt.executePlanner args route) es c) :
    (∀ e ∈ es, ¬ e.op.AtGate) ∨
      ∃ plan planned es', es = planned ++ es' ∧ (∀ e ∈ planned, ¬ e.op.AtGate) ∧
        Carries rt args route plan es' c := by
  rcases Trace.of_bind h with ⟨c', h₁, -, rfl⟩ | ⟨made, es₁, es₂, h₁, rfl, h₂⟩
  · exact .inl (Prog.Only.trace h₁ (plan_away 3))
  · cases made with
    | none =>
      obtain ⟨rfl, -⟩ := h₂.of_ret
      rw [List.append_nil]
      exact .inl (Prog.Only.trace h₁ (plan_away 3))
    | some plan =>
      exact .inr ⟨plan, es₁, es₂, rfl, Prog.Only.trace h₁ (plan_away 3), es₁, h₁, h⟩

/-! ## Concrete plans -/

section Concrete

/-- The model's reply is a plan that both validators accept. -/
structure Planned (rt : AgentRuntime) (args : RunArgs) (route : Route) (reply : Message)
    (plan : ExecutionPlan) : Prop where
  reads : ExecutionPlan.ofText rt.py args.planId args.userMessage reply.content = some plan
  valid : (rt.validate 15 plan).map PlanValidation.valid = .ok true
  short : (rt.validate (route.maxSteps.getD 15) plan).map PlanValidation.valid = .ok true

theorem planSummary_counts (results : List StepResult) : ∃ summary,
    AgentRuntime.planSummary results =
      s!"Task completed in {results.length} steps:\n" ++ summary :=
  ⟨_, rfl⟩

theorem completed_ofOutcome {py : PyLib} {runId : String} {results : List StepResult} :
    (RunResult.ofOutcome py runId (.completed results)).Completed := by
  obtain ⟨summary, h⟩ := planSummary_counts results
  exact ⟨_, congrArg some (h.trans (by simp only [String.append_assoc]; rfl))⟩

/-- What the validator has answered, if the plan is valid. -/
theorem exists_of_valid {answer : Except Exn PlanValidation}
    (h : answer.map PlanValidation.valid = .ok true) :
    ∃ errors warnings reason, answer = .ok ⟨true, errors, warnings, reason⟩ := by
  cases answer with
  | error e => cases h
  | ok result =>
    obtain ⟨valid, errors, warnings, reason⟩ := result
    obtain rfl := Except.ok.inj h
    exact ⟨errors, warnings, reason, rfl⟩

/-- From the model's reply to the answer. -/
theorem Planned.carries {args : RunArgs} {route : Route} {reply : Message}
    (h : Planned rt args route reply plan) {outcome : PlanOutcome}
    (hsteps : Trace (rt.executeSteps plan plan.steps []) es (.ret outcome)) :
    ∃ event hit, Carries rt args route plan (⟨.event event, hit⟩ :: es)
      (.ret (.ofOutcome rt.py args.runId outcome)) := by
  have hplan : Trace (rt.plan args.planId args.userMessage 3)
      [⟨.llm [.system plannerSystem, .human (plannerPrompt rt.toolRegistry args.userMessage)],
        .ok reply⟩] (.ret (some plan)) := by
    obtain ⟨errors, warnings, reason, hvalid⟩ := exists_of_valid h.valid
    refine .cons ?_
    simp only [Prog.ret_bind, h.reads, hvalid]
    exact .nil _
  refine ⟨⟨args.runId, 1, .checkpoint, .obj [("kind", .str "PLAN_CREATED"),
    ("plan_id", .str plan.planId), ("steps", .int plan.steps.length)]⟩, true, _, hplan,
    hplan.bind rfl ?_⟩
  obtain ⟨errors, warnings, reason, hshort⟩ := exists_of_valid h.short
  simp only [hshort]
  refine .cons ?_
  simp only [Prog.pure_eq, Prog.ret_bind]
  rw [← List.append_nil es]
  refine hsteps.bind rfl ?_
  cases outcome <;> exact .nil _

/-- A computed run of the loop. -/
theorem exists_steps {choose : Op → Env} {n : ℕ} {P : List (Event Op Op.Res) → PlanOutcome → Bool}
    (h : ((runAlone exec choose n (rt.executeSteps plan plan.steps []) Db.empty).bind
      fun x => x.2.1.toOption.map fun outcome => P x.1 outcome).getD false = true) :
    ∃ es outcome, Trace (rt.executeSteps plan plan.steps []) es (.ret outcome) ∧
      P es outcome = true := by
  cases hrun : runAlone exec choose n (rt.executeSteps plan plan.steps []) Db.empty with
  | none => rw [hrun] at h; cases h
  | some x =>
    obtain ⟨es, out, db⟩ := x
    rw [hrun] at h
    cases out with
    | error exc => cases h
    | ok outcome => exact ⟨es, outcome, (runs_of_runAlone hrun).trace_ret rfl, h⟩

/-- A request of a general kind, on its way to the planner. -/
def plannerRoute : Route := routeFromIntent .complexTask

/-- A step that submits a transfer, as the model writes it. -/
def submitJson (fields : List (String × Json)) : Json :=
  .obj (("tool_candidates", Json.ofStrings ["submit_transfer"]) :: fields)

/-- Such a step, as the planner makes it. -/
def submitStep (stepId dependencies : Json) : PlanStep :=
  ⟨stepId, .str "", Json.ofStrings ["submit_transfer"], dependencies, .str "low", "pending", 1⟩

/-- A plan of one step, with a criterion. -/
def checkedJson : Json :=
  .obj [("steps", .arr [submitJson []]), ("completion_criteria", Json.ofStrings ["balance"])]

def checkedRuntime : AgentRuntime := registeredRuntime (readingPy checkedJson)

def checkedPlan : ExecutionPlan :=
  ⟨"plan", "and then", .arr [], [submitStep (.str "1") (.arr [])], Json.ofStrings ["balance"]⟩

/-- A plan of two steps, of which the first depends on the second. -/
def reversedJson : Json :=
  .obj [("steps", .arr [submitJson [("dependencies", Json.ofStrings ["2"])], submitJson []])]

def reversedRuntime : AgentRuntime := registeredRuntime (readingPy reversedJson)

def reversedPlan : ExecutionPlan :=
  ⟨"plan", "and then", .arr [], [submitStep (.str "1") (Json.ofStrings ["2"]),
    submitStep (.str "2") (.arr [])], .arr []⟩

/-- A plan of two steps, of which the second depends on the first. The steps have numbers for
identifiers, and where a list of criteria belongs there is none. -/
def chainJson : Json :=
  .obj [("steps", .arr [submitJson [("step_id", .int 1)],
      submitJson [("step_id", .int 2), ("dependencies", .arr [.int 1])]]),
    ("completion_criteria", .null)]

def chainRuntime : AgentRuntime := registeredRuntime (readingPy chainJson)

def chainPlan : ExecutionPlan :=
  ⟨"plan", "and then", .arr [],
    [submitStep (.int 1) (.arr []), submitStep (.int 2) (.arr [.int 1])], .null⟩

theorem checkedPlan_planned : Planned checkedRuntime (firstRequest "and then") plannerRoute
    (.ai (demoDumps checkedJson) []) checkedPlan :=
  ⟨by decide +kernel, by decide +kernel, by decide +kernel⟩

theorem reversedPlan_planned : Planned reversedRuntime (firstRequest "and then") plannerRoute
    (.ai (demoDumps reversedJson) []) reversedPlan :=
  ⟨by decide +kernel, by decide +kernel, by decide +kernel⟩

theorem chainPlan_planned : Planned chainRuntime (firstRequest "and then") plannerRoute
    (.ai (demoDumps chainJson) []) chainPlan :=
  ⟨by decide +kernel, by decide +kernel, by decide +kernel⟩

/-- The gateway approves of everything, and the server answers so. -/
def answeringWith (outcome : McpOutcome) : Op → Env
  | .authorize _ => .decision ⟨.approved, "policy"⟩
  | o => demoEnv outcome o

/-- All answers for the step pass, and there are some. -/
def answersPass (rt : AgentRuntime) (plan : ExecutionPlan) (step : PlanStep)
    (es : List (Event Op Op.Res)) : Bool :=
  !(answersOf step.stepId es).isEmpty &&
    (answersOf step.stepId es).all fun answer => Passes rt plan step answer

/-- The loop has come to its end. -/
def PlanOutcome.isCompleted : PlanOutcome → Bool
  | .completed _ => true
  | .aborted _ _ _ => false

/-- What passes is not tried again. -/
theorem not_retries_of_answersPass (hfresh : step.Fresh) (h : answersPass rt plan step es = true)
    {answer : ToolAnswer} (hanswer : answer ∈ answersOf step.stepId es) :
    ¬ Retries rt plan step answer := by
  have hpasses := List.all_eq_true.mp ((Bool.and_eq_true _ _).mp h).2 answer hanswer
  exact Passes.not_retries hfresh (of_decide_eq_true hpasses)

theorem redeemed_of_answersPass (hfresh : step.Fresh) (h : answersPass rt plan step es = true) :
    Redeemed rt plan step es := by
  intro earlier answer later heq hretries
  exact absurd hretries (not_retries_of_answersPass hfresh h (heq ▸ by simp))

end Concrete

/-! ## The order of the steps -/

/-- The tool of the step has been called. -/
def Dispatched (step : PlanStep) (es : List (Event Op Op.Res)) : Prop :=
  ∃ call answer, ⟨.callTool (.step step.stepId) call, answer⟩ ∈ es

/-- Whenever the tool of a step is called, the steps it depends on are verified. -/
def DependenciesFirst (rt : AgentRuntime) (plan : ExecutionPlan) (es : List (Event Op Op.Res)) :
    Prop :=
  ∀ before call answer after, ∀ step ∈ plan.steps,
    es = before ++ ⟨.callTool (.step step.stepId) call, answer⟩ :: after →
    ∀ id, step.Needs id →
      ∃ dep ∈ plan.steps, rt.py.Same dep.stepId id ∧ VerifiedIn rt plan dep before

/-- What a dispatched step depends on stands before it in the list, and no second attempt of
it has failed. -/
def DependenciesSettled (rt : AgentRuntime) (plan : ExecutionPlan)
    (es : List (Event Op Op.Res)) : Prop :=
  ∀ done step rest, plan.steps = done ++ step :: rest → Dispatched step es →
    ∀ id, step.Needs id → ∃ dep ∈ done, rt.py.Same dep.stepId id ∧ Redeemed rt plan dep es

/-- **Dependencies first**: whenever the tool of a step is called, the steps it depends on are
verified, exactly if they stand before it in the list and no second attempt of them has
failed. -/
theorem dependencies_first {args : RunArgs} {route : Route} {c : Co RunResult}
    (h : Carries rt args route plan es c) :
    DependenciesFirst rt plan es ↔ DependenciesSettled rt plan es := by
  rcases h.loop with ⟨rfl, -⟩ | ⟨event, hit, turns, rfl, ⟨⟨v, haccepts⟩, hloop, -⟩⟩
  · refine iff_of_true ?_ ?_
    · intro before call answer after step _ hes
      simp at hes
    · rintro done step rest - ⟨call, answer, hmem⟩
      cases hmem
  -- at a call of a step
  have hat (done : List PlanStep) (step : PlanStep) (rest : List PlanStep)
      (hplan : plan.steps = done ++ step :: rest) (before : List (Event Op Op.Res))
      (call : ToolCall) (answer : ToolAnswer) (after : List (Event Op Op.Res))
      (hes : ⟨.event event, hit⟩ :: turns =
        before ++ ⟨.callTool (.step step.stepId) call, answer⟩ :: after)
      (dep : PlanStep) (hdep : dep ∈ plan.steps) (id : Json) (hneeds : step.Needs id)
      (hsame : rt.py.Same dep.stepId id) : VerifiedIn rt plan dep before ↔
        dep ∈ done ∧ Redeemed rt plan dep (⟨.event event, hit⟩ :: turns) := by
    have hne : dep.stepId ≠ step.stepId := fun heq =>
      (haccepts.needs (hplan ▸ by simp) hneeds).2 (heq ▸ hsame)
    rcases before with - | ⟨e, before⟩
    · cases hes
    · obtain ⟨rfl, rfl⟩ := List.cons.inj hes
      rw [hplan] at hloop hdep
      exact hloop.dispatch (hplan ▸ haccepts.distinct)
        (fun dep hdep => h.fresh dep (hplan ▸ List.mem_append_left _ hdep)) rfl hdep hne
  constructor
  · rintro hfirst done step rest hplan ⟨call, answer, hmem⟩ id hid
    obtain ⟨before, after, hes⟩ := List.append_of_mem hmem
    obtain ⟨dep, hdep, hsame, hv⟩ := hfirst before call answer after step (hplan ▸ by simp) hes id hid
    obtain ⟨hdone, hred⟩ :=
      (hat done step rest hplan before call answer after hes dep hdep id hid hsame).mp hv
    exact ⟨dep, hdone, hsame, hred⟩
  · intro hsettled before call answer after step hstep hes id hid
    obtain ⟨done, rest, hplan⟩ := List.append_of_mem hstep
    obtain ⟨dep, hdone, hsame, hred⟩ :=
      hsettled done step rest hplan ⟨call, answer, hes ▸ by simp⟩ id hid
    have hdep : dep ∈ plan.steps := hplan ▸ List.mem_append_left _ hdone
    exact ⟨dep, hdep, hsame,
      (hat done step rest hplan before call answer after hes dep hdep id hid hsame).mpr
        ⟨hdone, hred⟩⟩

/-- The first step is dispatched, and the second, which it depends on, is never tried. -/
theorem reversed_plan_dispatches :
    ∃ es c, Carries reversedRuntime (firstRequest "and then") plannerRoute reversedPlan es c ∧
      ¬ DependenciesFirst reversedRuntime reversedPlan es := by
  have hrun : ((runAlone exec (answeringWith demoFailure) 10
      (reversedRuntime.executeSteps reversedPlan reversedPlan.steps []) Db.empty).bind
      fun x => x.2.1.toOption.map fun _ =>
        !(answersOf (.str "1") x.1).isEmpty && (answersOf (.str "2") x.1).isEmpty).getD false =
      true := by
    decide +kernel
  obtain ⟨es, outcome, htrace, hes⟩ := exists_steps
    (P := fun es _ => !(answersOf (.str "1") es).isEmpty && (answersOf (.str "2") es).isEmpty) hrun
  obtain ⟨event, hit, hcarries⟩ := reversedPlan_planned.carries htrace
  refine ⟨_, _, hcarries, fun hfirst => ?_⟩
  obtain ⟨hone, htwo⟩ := (Bool.and_eq_true _ _).mp hes
  obtain ⟨answer, hanswer⟩ := List.exists_mem_of_ne_nil _
    (fun h => by simp [h] at hone : answersOf (.str "1") es ≠ [])
  obtain ⟨call, hmem⟩ := mem_answersOf.mp hanswer
  obtain ⟨before, after, rfl⟩ := List.append_of_mem hmem
  obtain ⟨dep, hdep, hsame, hv⟩ := hfirst (⟨.event event, hit⟩ :: before) call answer after
    (submitStep (.str "1") (Json.ofStrings ["2"])) List.mem_cons_self rfl (.str "2")
    ⟨_, rfl, List.mem_cons_self⟩
  -- it is the second step that is meant
  have hid : dep.stepId = .str "2" := by
    rcases List.mem_pair.mp hdep with rfl | rfl
    · obtain ⟨k, hk, hk'⟩ := hsame
      exact absurd (hk.trans hk'.symm) (by decide)
    · rfl
  obtain ⟨answer', hanswer', -⟩ := hv.answered
  have hnone : answersOf dep.stepId (⟨.event event, hit⟩ :: before) = [] := by
    rw [answersOf_append, List.isEmpty_iff, List.append_eq_nil_iff] at htwo
    rw [hid]
    exact htwo.1
  rw [hnone] at hanswer'
  cases hanswer'

/-- In the right order both are dispatched, and the second finds the first verified. -/
theorem chained_plan_dispatches :
    ∃ es c, Carries chainRuntime (firstRequest "and then") plannerRoute chainPlan es c ∧
      answersOf (.int 2) es ≠ [] ∧ DependenciesFirst chainRuntime chainPlan es := by
  have hrun : ((runAlone exec (answeringWith demoSuccess) 10
      (chainRuntime.executeSteps chainPlan chainPlan.steps []) Db.empty).bind
      fun x => x.2.1.toOption.map fun _ => chainPlan.steps.all fun step =>
        answersPass chainRuntime chainPlan step x.1).getD false = true := by
    decide +kernel
  obtain ⟨es, outcome, htrace, hes⟩ := exists_steps
    (P := fun es _ => chainPlan.steps.all fun step => answersPass chainRuntime chainPlan step es)
    hrun
  obtain ⟨event, hit, hcarries⟩ := chainPlan_planned.carries htrace
  have hpass : ∀ step ∈ chainPlan.steps, answersPass chainRuntime chainPlan step es = true :=
    List.all_eq_true.mp hes
  have hone := hpass _ List.mem_cons_self
  have htwo := hpass _ (List.mem_cons_of_mem _ List.mem_cons_self)
  refine ⟨_, _, hcarries, fun hnone => ?_, (dependencies_first hcarries).mpr ?_⟩
  · have hsome : (!(answersOf (.int 2) es).isEmpty) = true := ((Bool.and_eq_true _ _).mp htwo).1
    have hnone : answersOf (.int 2) es = [] := hnone
    rw [hnone] at hsome
    cases hsome
  · intro done step rest hplan _ id hid
    obtain ⟨deps, hdeps, hmem⟩ := hid
    -- only the second step depends on one, and the first stands before it
    rcases done with - | ⟨first, _ | ⟨second, done⟩⟩
    · obtain ⟨rfl, -⟩ := List.cons.inj hplan
      cases hdeps
      cases hmem
    · obtain ⟨rfl, hrest⟩ := List.cons.inj hplan
      obtain ⟨rfl, -⟩ := List.cons.inj hrest
      cases hdeps
      obtain rfl := List.mem_singleton.mp hmem
      exact ⟨_, List.mem_singleton_self _, ⟨_, rfl, rfl⟩, redeemed_of_answersPass rfl hone⟩
    · have hlen := congrArg List.length hplan
      simp only [chainPlan, List.cons_append, List.length_cons, List.length_append,
        List.length_nil] at hlen
      omega

/-! ## Repetition and completion -/

/-- The tool the step calls has a side effect. -/
def PlanStep.Effectful (rt : AgentRuntime) (step : PlanStep) : Prop :=
  ∃ toolName, step.toolCandidates.first = .ok toolName ∧ rt.sideEffect toolName = true

/-- The call of an effectful step has been carried out once at most. -/
def EffectsOnce (rt : AgentRuntime) (plan : ExecutionPlan) (es : List (Event Op Op.Res)) : Prop :=
  ∀ step ∈ plan.steps, step.Effectful rt → (answersOf step.stepId es).countP succeeded ≤ 1

/-- Where the answer of an effectful step asks for another attempt, that one is not carried
out. -/
def RetriesFail (rt : AgentRuntime) (plan : ExecutionPlan) (es : List (Event Op Op.Res)) : Prop :=
  ∀ step ∈ plan.steps, step.Effectful rt → ∀ earlier answer later,
    answersOf step.stepId es = earlier ++ answer :: later → Retries rt plan step answer →
    ∀ again ∈ later, succeeded again = false

/-- A step has at most two answers, and two only where the first asks for another attempt. -/
theorem Carries.answers {args : RunArgs} {route : Route} {c : Co RunResult}
    (h : Carries rt args route plan es c) (hstep : step ∈ plan.steps) :
    answersOf step.stepId es = [] ∨ (∃ a, answersOf step.stepId es = [a]) ∨
      ∃ a b, answersOf step.stepId es = [a, b] ∧ Retries rt plan step a := by
  rcases h.loop with ⟨rfl, -⟩ | ⟨event, hit, turns, rfl, ⟨⟨v, haccepts⟩, hloop, -⟩⟩
  · exact .inl rfl
  · exact hloop.answers haccepts.distinct hstep

/-- **Once at most**: no call of an effectful step is carried out twice, exactly if no second
attempt of one that was carried out is carried out as well. -/
theorem successes_at_most_once {args : RunArgs} {route : Route} {c : Co RunResult}
    (h : Carries rt args route plan es c) : EffectsOnce rt plan es ↔ RetriesFail rt plan es := by
  refine forall₃_congr fun step hstep _ => ?_
  -- the second of two answers
  have second : ∀ {a b : ToolAnswer} {earlier later : List ToolAnswer} {answer again : ToolAnswer},
      [a, b] = earlier ++ answer :: later → again ∈ later → again = b := by
    intro a b earlier later answer again heq hagain
    rcases earlier with - | ⟨x, earlier⟩
    · cases heq
      exact List.mem_singleton.mp hagain
    · have hlen := congrArg List.length heq
      simp only [List.length_cons, List.length_nil, List.length_append] at hlen
      have := List.length_pos_of_mem hagain
      omega
  rcases h.answers hstep with hnil | ⟨a, ha⟩ | ⟨a, b, hab, hretries⟩
  · rw [hnil]
    exact iff_of_true (Nat.zero_le 1) fun earlier answer later heq => by simp at heq
  · rw [ha]
    refine iff_of_true (List.countP_le_length.trans le_rfl) ?_
    intro earlier answer later heq _ again hagain
    have hlen := congrArg List.length heq
    simp only [List.length_cons, List.length_nil, List.length_append] at hlen
    have := List.length_pos_of_mem hagain
    omega
  · have hs := hretries.succeeded (h.fresh step hstep)
    rw [hab]
    constructor
    · intro hcount earlier answer later heq _ again hagain
      rw [second heq hagain]
      cases hb : succeeded b with
      | false => rfl
      | true => simp [hs, hb] at hcount
    · intro h
      simp [hs, h [] a [b] rfl hretries b (List.mem_singleton_self b)]

/-- The server carries the transfer out, its answer misses the criterion, and it carries the
transfer out again. -/
theorem transfer_repeated :
    ∃ es result, Carries checkedRuntime (firstRequest "and then") plannerRoute checkedPlan es
      (.ret result) ∧ ¬ EffectsOnce checkedRuntime checkedPlan es := by
  have hrun : ((runAlone exec (answeringWith demoSuccess) 10
      (checkedRuntime.executeSteps checkedPlan checkedPlan.steps []) Db.empty).bind
      fun x => x.2.1.toOption.map fun _ =>
        (answersOf (.str "1") x.1).countP succeeded == 2).getD false = true := by decide +kernel
  obtain ⟨es, outcome, htrace, hes⟩ := exists_steps
    (P := fun es _ => (answersOf (.str "1") es).countP succeeded == 2) hrun
  obtain ⟨event, hit, hcarries⟩ := checkedPlan_planned.carries htrace
  refine ⟨_, _, hcarries, fun honce => ?_⟩
  have hle : (answersOf (.str "1") es).countP succeeded ≤ 1 :=
    honce (submitStep (.str "1") (.arr [])) List.mem_cons_self ⟨.str "submit_transfer", rfl, rfl⟩
  rw [eq_of_beq hes] at hle
  omega

/-- A server that shows the balance. -/
def showsBalance : McpOutcome := .adapter true (.ok ⟨true, "balance: 5", none⟩)

/-- A run in which the criterion is met. -/
theorem exists_checked : ∃ es result,
    Carries checkedRuntime (firstRequest "and then") plannerRoute checkedPlan es (.ret result) ∧
      result.Completed ∧ ∀ step ∈ checkedPlan.steps, step.Fresh ∧
        answersPass checkedRuntime checkedPlan step es = true := by
  have hrun : ((runAlone exec (answeringWith showsBalance) 10
      (checkedRuntime.executeSteps checkedPlan checkedPlan.steps []) Db.empty).bind
      fun x => x.2.1.toOption.map fun outcome => outcome.isCompleted &&
        checkedPlan.steps.all fun step => answersPass checkedRuntime checkedPlan step x.1).getD
      false = true := by decide +kernel
  obtain ⟨es, outcome, htrace, hes⟩ := exists_steps (P := fun es outcome => outcome.isCompleted &&
    checkedPlan.steps.all fun step => answersPass checkedRuntime checkedPlan step es) hrun
  obtain ⟨event, hit, hcarries⟩ := checkedPlan_planned.carries htrace
  obtain ⟨hcompleted, hpass⟩ := (Bool.and_eq_true _ _).mp hes
  cases outcome with
  | completed results =>
    exact ⟨_, _, hcarries, completed_ofOutcome, fun step hstep =>
      ⟨hcarries.fresh step hstep, List.all_eq_true.mp hpass step hstep⟩⟩
  | aborted => cases hcompleted

/-- Where the criterion is met, there is no second attempt. -/
theorem transfer_checked :
    ∃ es result, Carries checkedRuntime (firstRequest "and then") plannerRoute checkedPlan es
      (.ret result) ∧ EffectsOnce checkedRuntime checkedPlan es := by
  obtain ⟨es, result, hcarries, -, hpass⟩ := exists_checked
  refine ⟨es, result, hcarries, (successes_at_most_once hcarries).mpr ?_⟩
  intro step hstep _ earlier answer later heq hretries
  obtain ⟨hfresh, hpass⟩ := hpass step hstep
  exact absurd hretries (not_retries_of_answersPass hfresh hpass (heq ▸ by simp))

/-- **No false completion**: a plan that is called completed has the number of steps it is
said to have, and all of them are verified exactly if no second attempt has failed. -/
theorem completion_verified {args : RunArgs} {route : Route} {result : RunResult}
    (h : Carries rt args route plan es (.ret result)) (hdone : result.Completed) :
    (∃ summary, result.finalAnswer =
        some (s!"Task completed in {plan.steps.length} steps:\n" ++ summary)) ∧
      ((∀ step ∈ plan.steps, VerifiedIn rt plan step es) ↔
        ∀ step ∈ plan.steps, Redeemed rt plan step es) := by
  rcases h.loop with ⟨-, hnot⟩ | ⟨event, hit, turns, rfl, ⟨⟨v, haccepts⟩, -, hall⟩⟩
  · exact absurd hdone (hnot result rfl)
  · obtain ⟨hturns, results, hlen, hanswer⟩ := hall result rfl hdone
    obtain ⟨summary, hsummary⟩ := planSummary_counts results
    refine ⟨⟨summary, by rw [hanswer, hsummary, hlen]⟩, ?_⟩
    exact forall₂_congr fun step hstep =>
      hturns.verifiedIn_iff haccepts.distinct (h.fresh step hstep) hstep

/-- The criterion is missed twice, and the task is completed. -/
theorem completed_unverified :
    ∃ es result, Carries checkedRuntime (firstRequest "and then") plannerRoute checkedPlan es
      (.ret result) ∧ result.Completed ∧
        ¬ ∀ step ∈ checkedPlan.steps, VerifiedIn checkedRuntime checkedPlan step es := by
  have hrun : ((runAlone exec (answeringWith demoSuccess) 10
      (checkedRuntime.executeSteps checkedPlan checkedPlan.steps []) Db.empty).bind
      fun x => x.2.1.toOption.map fun outcome => outcome.isCompleted &&
        checkedPlan.steps.all fun step => (answersOf step.stepId x.1).all fun answer =>
          decide ¬ Passes checkedRuntime checkedPlan step answer).getD false = true := by
    decide +kernel
  obtain ⟨es, outcome, htrace, hes⟩ := exists_steps (P := fun es outcome => outcome.isCompleted &&
    checkedPlan.steps.all fun step => (answersOf step.stepId es).all fun answer =>
      decide ¬ Passes checkedRuntime checkedPlan step answer) hrun
  obtain ⟨event, hit, hcarries⟩ := checkedPlan_planned.carries htrace
  obtain ⟨hcompleted, hfail⟩ := (Bool.and_eq_true _ _).mp hes
  cases outcome with
  | completed results =>
    refine ⟨_, _, hcarries, completed_ofOutcome, fun hall => ?_⟩
    have hstep : submitStep (.str "1") (.arr []) ∈ checkedPlan.steps := List.mem_cons_self
    obtain ⟨answer, hanswer, hp⟩ := (hall _ hstep).answered
    exact of_decide_eq_true
      (List.all_eq_true.mp (List.all_eq_true.mp hfail _ hstep) answer hanswer) hp
  | aborted => cases hcompleted

/-- Where it is met, the step is verified. -/
theorem completed_checked :
    ∃ es result, Carries checkedRuntime (firstRequest "and then") plannerRoute checkedPlan es
      (.ret result) ∧ result.Completed ∧
        ∀ step ∈ checkedPlan.steps, VerifiedIn checkedRuntime checkedPlan step es := by
  obtain ⟨es, result, hcarries, hdone, hpass⟩ := exists_checked
  exact ⟨es, result, hcarries, hdone, (completion_verified hcarries hdone).2.mpr
    fun step hstep => redeemed_of_answersPass (hpass step hstep).1 (hpass step hstep).2⟩

end BankingAgent
