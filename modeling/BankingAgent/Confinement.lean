import BankingAgent.Bootstrap
import BankingAgent.OperationKinds
import BankingAgent.PlanAcceptance

/-!
# What a deployment confines its runs to

The gateway, the registry and the clients of a deployment decide together which tools a run can get
at, and whether it can come to wait for a human. A `Confinement` says what the answers are relied on
for and what follows at the three places where a tool is called. The text of `run` is walked once,
for every confinement.
-/

namespace BankingAgent

open Async

/-- What the runs of a runtime are confined to, and why. -/
structure Confinement (rt : AgentRuntime) where
  /-- what the answers are relied on for -/
  assumes : (o : Op) → o.Res → Prop
  /-- the tools that may be called -/
  tools : Json → Prop
  /-- a run may come to wait for a human -/
  waits : Prop
  /-- the tool node, at a call the gateway does not deny -/
  node : ∀ {tc operation d}, rt.validationError tc = none →
    operation.kind = rt.operationKind tc.name → assumes (.authorize operation) d →
    d.decision ≠ .denied → tools (.str tc.name) ∧ (d.decision = .pending → waits)
  /-- the planner, at a step the gateway does not deny -/
  step : ∀ {toolName operation d},
    (∀ registry, rt.toolRegistry = some registry → (registry.get? toolName).isSome = true) →
    rt.stepKind toolName = .ok operation.kind → assumes (.authorize operation) d →
    d.decision ≠ .denied → tools toolName
  /-- the direct route, which asks nobody -/
  direct : ∀ {intent toolName rest}, routeKind intent = .direct →
    suggestTools intent = toolName :: rest → tools (.str toolName)
  /-- a client or a model that raises what only an interrupt should -/
  client : ∀ {site call payload}, assumes (.callTool site call) (.error (.graphInterrupt payload)) →
    waits
  model : ∀ {messages payload}, assumes (.llm messages) (.error (.graphInterrupt payload)) → waits

namespace Confinement

variable {rt : AgentRuntime} (D : Confinement rt)

/-- What a run does. -/
def Guarantees : Op → Prop
  | .hitl _ | .grant _ | .resolveActor _ => False
  | .interrupt _ _ => D.waits
  | .callTool site call =>
    D.tools call.name ∧ ∀ sessionId idemKey, site ≠ .executor sessionId idemKey
  | _ => True

/-- What a request to the agent does: a run, and the record of what waits. -/
def Records : Op → Prop
  | .hitl (.insert row) => D.waits ∧ row.status = .pending
  | .grant (.insertPending _) => D.waits
  | o => D.Guarantees o

/-- How it ends: well, or not with an interrupt. -/
def Ends {α : Type} (P : α → Prop) : Except Exn α → Prop
  | .ok a => P a
  | .error (.graphInterrupt _) => D.waits
  | .error _ => True

/-- A coroutine that is confined, and returns what `P` says. -/
abbrev Keeps {α : Type} (P : α → Prop) (c : Co α) : Prop :=
  Relies D.assumes D.Guarantees (D.Ends P) c

/-- A coroutine that is confined, and whose result, if there is one, is as `P` says. -/
abbrev Yields {α : Type} (P : α → Prop) (c : Co α) : Prop :=
  Relies D.assumes D.Guarantees (fun out => ∀ a, out = .ok a → P a) c

variable {D} {α β : Type} {P : α → Prop} {R : β → Prop}

/-- Sequencing, with what the first part ends with. -/
theorem Keeps.bind {c : Co α} {f : α → Co β} (hc : D.Keeps P c) (hf : ∀ a, P a → D.Keeps R (f a)) :
    D.Keeps R (c >>= f) := by
  refine Relies.bind hf (fun exc h => ?_) hc
  cases exc <;> exact h

/-- What is caught is known to end as it would have. -/
theorem Keeps.attempt {c : Co α} (hc : D.Keeps P c) : D.Keeps (D.Ends P) c.attempt :=
  Relies.attempt hc

/-- Where an exception does not matter, the result is what counts. -/
theorem Keeps.yields {c : Co α} (hc : D.Keeps P c) : D.Yields P c := by
  refine Relies.mono id (fun {out} h => ?_) hc
  rintro a rfl
  exact h

theorem Yields.ret {a : α} (h : P a) : D.Yields P (.ret a) := by
  rintro _ ⟨⟩
  exact h

theorem Yields.raise {exc : Exn} : D.Yields P (.raise exc) := by
  rintro _ ⟨⟩

/-- Sequencing, with the result of the first part. -/
theorem Yields.bind {c : Co α} {f : α → Co β} (hc : D.Yields P c)
    (hf : ∀ a, P a → D.Yields R (f a)) : D.Yields R (c >>= f) :=
  Relies.bind (fun a h => hf a (h a rfl)) (fun exc _ => by rintro _ ⟨⟩) hc

theorem Yields.mono {P' : α → Prop} {c : Co α} (hP : ∀ a, P a → P' a) (hc : D.Yields P c) :
    D.Yields P' c :=
  Relies.mono id (fun h a ha => hP a (h a ha)) hc

theorem raised_yields {x : Except Exn α} : D.Yields (fun a => x = .ok a) (raised x) := by
  cases x with
  | ok a => exact .ret rfl
  | error exc => exact .raise

theorem persistEvent_keeps {runId : String} {seq : ℕ} {kind : EventKind}
    {payload : List (String × Json)} :
    D.Keeps (fun _ => True) (persistEvent runId seq kind payload) := ⟨trivial, fun _ _ => trivial⟩

/-! ## The records -/

theorem idemGet_keeps {key : String} :
    D.Keeps (fun _ => True) (SqliteIdempotencyStore.get rt.py key) := by
  refine ⟨trivial, fun row _ => ?_⟩
  cases row with
  | none => exact trivial
  | some row =>
    simp only [Prog.ret_bind]
    cases row.toRecord rt.py <;> exact trivial

theorem checkRecord_keeps {kind : OperationKind} (key : Option String) :
    D.Keeps (fun _ => True) (rt.checkRecord kind key) := by
  cases key with
  | none => exact trivial
  | some key =>
    refine idemGet_keeps.bind fun record _ => ?_
    cases record with
    | none => exact trivial
    | some existing =>
      simp only
      split
      · exact trivial
      · exact ⟨trivial, fun _ _ => trivial⟩
      · exact ⟨trivial, fun _ _ => trivial⟩
      · exact trivial
      · exact trivial

theorem reserveUnlessPresent_keeps {tc : ToolRequest} (key : Option String) :
    D.Keeps (fun _ => True) (rt.reserveUnlessPresent tc key) := by
  cases key with
  | none => exact trivial
  | some key =>
    refine idemGet_keeps.bind fun record _ => ?_
    cases record with
    | some existing => exact trivial
    | none =>
      refine Keeps.bind (P := fun _ => True) ?_ fun _ _ => trivial
      refine ⟨trivial, fun _ _ => ⟨trivial, fun _ _ => ⟨trivial, fun row _ => ?_⟩⟩⟩
      cases row with
      | none => exact trivial
      | some row =>
        simp only [Prog.ret_bind]
        cases row.toRecord rt.py <;> exact trivial

theorem recordOutcome_keeps {result : ToolResult} (key : Option String) :
    D.Keeps (fun _ => True) (rt.recordOutcome result key) := by
  cases key with
  | none => exact trivial
  | some key =>
    rw [AgentRuntime.recordOutcome]
    split <;> exact ⟨trivial, fun _ _ => ⟨trivial, fun _ _ => trivial⟩⟩

/-! ## The tool node -/

/-- A call of a tool that may be called, at any place but the executor's. -/
theorem callTool_keeps {site : Site} {call : ToolCall} (htool : D.tools call.name)
    (hsite : ∀ sessionId idemKey, site ≠ .executor sessionId idemKey) :
    D.Keeps (fun _ => True) (MCPClient.callTool site call) := by
  refine ⟨⟨htool, hsite⟩, fun answer hanswer => ?_⟩
  cases answer with
  | ok result => exact trivial
  | error exc =>
    cases exc with
    | graphInterrupt payload => exact D.client hanswer
    | _ => exact trivial

theorem answerCall_keeps {number : ℕ} {sessionId : Option String} {tc : ToolRequest}
    (htool : D.tools (.str tc.name)) : D.Keeps (fun _ => True) (rt.answerCall number sessionId tc) := by
  refine (checkRecord_keeps _).bind fun known _ => ?_
  cases known with
  | some answer => exact trivial
  | none =>
    refine Keeps.bind (P := fun _ => True) ?_ fun _ _ => trivial
    refine (reserveUnlessPresent_keeps _).bind fun _ _ => ?_
    refine (callTool_keeps htool (by rintro _ _ ⟨⟩)).bind fun result _ => ?_
    exact (recordOutcome_keeps _).bind fun _ _ => trivial

/-- The gateway lets a call through if it is one that may be made. -/
theorem authorizeCall_keeps {sessionId : Option String} {resumes : List Json} {n : ℕ}
    {tc : ToolRequest} (hvalid : rt.validationError tc = none) :
    D.Keeps (fun gate => ∀ call, gate.1 = .ok call → D.tools (.str call.name))
      (rt.authorizeCall sessionId resumes n tc) := by
  refine ⟨trivial, fun d hd => ?_⟩
  simp only [Prog.ret_bind]
  have hnode := D.node hvalid rfl hd
  cases hdecision : d.decision with
  | denied => rintro call ⟨⟩
  | approved =>
    rintro call ⟨⟩
    exact (hnode (by simp [hdecision])).1
  | pending =>
    have hpending := hnode (by simp [hdecision])
    refine ⟨hpending.2 hdecision, fun _ _ => ?_⟩
    cases resumes[n]? with
    | none => exact hpending.2 hdecision
    | some approval =>
      intro call hcall
      have hname : call.name = tc.name :=
        Json.str.inj (congrArg ToolCall.name (readApproval_ok hcall).2)
      rw [hname]
      exact hpending.1

/-- One call of the model is validated, then put to the gateway, then answered. -/
theorem handleCall_keeps {s : AgentState} {resumes : List Json} {progress : Progress}
    {tc : ToolRequest} : D.Keeps (fun _ => True) (rt.handleCall s resumes progress tc) := by
  rw [AgentRuntime.handleCall]
  cases hvalid : rt.validationError tc with
  | some error => exact trivial
  | none =>
    simp only
    split
    · exact trivial
    · refine (authorizeCall_keeps hvalid).bind fun gate hgate => ?_
      obtain ⟨answer, interrupts⟩ := gate
      cases answer with
      | error answer => exact trivial
      | ok call => exact (answerCall_keeps (hgate call rfl)).bind fun _ _ => trivial

theorem handleCalls_keeps {s : AgentState} {resumes : List Json} (calls : List ToolRequest) :
    ∀ {progress : Progress}, D.Keeps (fun _ => True) (rt.handleCalls s resumes calls progress) := by
  induction calls with
  | nil => exact trivial
  | cons tc rest ih =>
    intro progress
    exact handleCall_keeps.bind fun first _ => ih.bind fun _ _ => trivial

/-! ## The graph -/

theorem runNode_keeps {cp : Checkpoint} (node : GraphNode) :
    D.Keeps (fun _ => True) (rt.runNode cp node) := by
  cases node with
  | tool =>
    refine Keeps.bind (P := fun _ => True) ?_ fun _ _ => trivial
    exact (handleCalls_keeps _).bind fun _ _ => trivial
  | agent =>
    refine Keeps.bind (P := fun _ => True) ?_ fun _ _ => trivial
    rw [AgentRuntime.agentNode]
    split
    · exact trivial
    · refine ⟨trivial, fun reply hreply => ?_⟩
      cases reply with
      | ok response => exact trivial
      | error exc =>
        cases exc with
        | graphInterrupt payload => exact D.model hreply
        | _ => exact trivial

/-- An invocation of the graph is suspended only if a run may wait. -/
theorem runGraph_keeps (fuel : ℕ) : ∀ {cp : Checkpoint},
    D.Keeps (fun r => r.interrupt.isSome = true → D.waits) (rt.runGraph fuel cp) := by
  induction fuel with
  | zero =>
    intro cp
    rw [AgentRuntime.runGraph]
    cases cp.next with
    | none => rintro ⟨⟩
    | some node => exact trivial
  | succ fuel ih =>
    intro cp
    rw [AgentRuntime.runGraph]
    cases cp.next with
    | none => rintro ⟨⟩
    | some node =>
      refine (runNode_keeps node).attempt.bind fun out hout => ?_
      cases out with
      | ok cp' => exact ⟨trivial, fun _ _ => ih⟩
      | error exc =>
        cases exc with
        | graphInterrupt payload => exact fun _ => hout
        | _ => exact trivial

/-- An invocation loads the thread and saves the input before the graph runs. -/
theorem ainvoke_keeps {threadId : String} {input : GraphInput} :
    D.Keeps (fun r => r.interrupt.isSome = true → D.waits) (rt.ainvoke threadId input) :=
  ⟨trivial, fun _ _ => ⟨trivial, fun _ _ => runGraph_keeps _⟩⟩

/-! ## `run` -/

section Run

variable {args : RunArgs}

/-- The direct route, with a tool that may be called. -/
theorem executeDirect_yields {toolName : String} (htool : D.tools (.str toolName)) :
    D.Yields (fun r => r.interrupt = none) (rt.executeDirect args toolName) := by
  unfold AgentRuntime.executeDirect
  extract_lets unauthenticated
  split
  · exact Yields.ret rfl
  · refine ⟨trivial, fun reply _ => ?_⟩
    simp only [Prog.ret_bind]
    split
    · exact Yields.ret rfl
    · refine raised_yields.bind fun toolArgs _ => ?_
      refine (callTool_keeps htool (by rintro _ _ ⟨⟩)).yields.bind fun result _ => ?_
      exact persistEvent_keeps.yields.bind fun _ _ => Yields.ret rfl

/-- The first candidate of the step is a tool of the registry, if there is one. -/
def Registered (rt : AgentRuntime) (step : PlanStep) : Prop :=
  ∀ toolName, step.toolCandidates.first = .ok toolName →
    ∀ registry, rt.toolRegistry = some registry → (registry.get? toolName).isSome = true

/-- A step of a plan goes through the gateway with its first candidate. -/
theorem executeStep_yields {plan : ExecutionPlan} {step : PlanStep} (hstep : Registered rt step) :
    D.Yields (fun _ => True) (rt.executeStep plan step) := by
  rcases rt.executeStep_cases plan step with
    ⟨error, h⟩ | ⟨exc, h⟩ | ⟨toolName, kind, hfirst, hkind, h⟩
  · rw [h]
    exact Yields.ret trivial
  · rw [h]
    exact Yields.raise
  · rw [h]
    refine ⟨trivial, fun d hd => ?_⟩
    simp only [Prog.ret_bind]
    split_ifs with hdenied
    · exact Yields.ret trivial
    · have htool : D.tools toolName := D.step (hstep toolName hfirst) hkind hd hdenied
      exact (callTool_keeps htool (by rintro _ _ ⟨⟩)).attempt.yields.bind fun _ _ => Yields.ret trivial

/-- Up to three questions to the model. -/
theorem plan_yields {planId goal : String} (attempts : ℕ) :
    D.Yields (fun _ => True) (rt.plan planId goal attempts) := by
  induction attempts with
  | zero => exact Yields.ret trivial
  | succ attempts ih =>
    refine ⟨trivial, fun reply _ => ?_⟩
    cases reply with
    | error exc => exact ih
    | ok response =>
      simp only [Prog.ret_bind]
      split
      · exact ih
      · split
        · exact Yields.ret trivial
        · exact ih

/-- The steps of a plan, each executed at most twice. -/
theorem executeSteps_yields {plan : ExecutionPlan} (steps : List PlanStep)
    (hsteps : ∀ step ∈ steps, Registered rt step) :
    ∀ {results : List StepResult},
      D.Yields (fun _ => True) (rt.executeSteps plan steps results) := by
  induction steps with
  | nil => exact Yields.ret trivial
  | cons step rest ih =>
    intro results
    have hstep := hsteps step List.mem_cons_self
    have hrest {results : List StepResult} :
        D.Yields (fun _ => True) (rt.executeSteps plan rest results) :=
      ih fun step hmem => hsteps step (List.mem_cons_of_mem _ hmem)
    refine (executeStep_yields hstep).bind fun result _ => raised_yields.bind fun verdict _ => ?_
    split_ifs
    · exact hrest
    · refine (executeStep_yields hstep).bind fun again _ => ?_
      exact raised_yields.bind fun _ _ => hrest
    · exact Yields.ret trivial
    · exact hrest

/-- A plan that is accepted names tools of the registry only. -/
theorem registered_of_accepts {maxSteps : ℤ} {plan : ExecutionPlan} {step : PlanStep}
    (h : PlanValidator.Accepts ⟨rt.toolRegistry, maxSteps, []⟩ rt.py plan) (hstep : step ∈ plan.steps) :
    Registered rt step := by
  intro toolName hfirst registry hregistry
  obtain ⟨tools, htools, hall⟩ := h.tools step hstep
  obtain ⟨tools', htools', hmem⟩ := Json.exists_elements_of_first hfirst
  obtain rfl := Except.ok.inj (htools.symm.trans htools')
  exact (hall toolName hmem).2 registry hregistry

/-- The planner's route, which executes nothing its validator finds fault with. -/
theorem executePlanner_yields {route : Route} :
    D.Yields (fun r => r.interrupt = none) (rt.executePlanner args route) := by
  refine (plan_yields 3).bind fun plan _ => ?_
  cases plan with
  | none => exact Yields.ret rfl
  | some plan =>
    refine raised_yields.bind fun validation hvalidation => ?_
    split_ifs with hvalid
    · exact Yields.ret rfl
    · have haccepts := AgentRuntime.accepts_of_validate hvalidation (Bool.not_eq_false _ ▸ hvalid)
      refine persistEvent_keeps.yields.bind fun _ _ => ?_
      refine (executeSteps_yields plan.steps fun step => registered_of_accepts haccepts).bind
        fun outcome _ => ?_
      cases outcome <;> exact Yields.ret rfl

theorem executeRag_yields :
    D.Yields (fun r => r.interrupt = none) (AgentRuntime.executeRag args) := by
  refine ⟨trivial, fun reply _ => ?_⟩
  exact raised_yields.bind fun response _ => persistEvent_keeps.yields.bind fun _ _ => Yields.ret rfl

theorem executeTransferWorkflow_yields :
    D.Yields (fun r => r.interrupt = none) (rt.executeTransferWorkflow args) := by
  refine ⟨trivial, fun reply _ => ?_⟩
  cases reply with
  | error exc => exact Yields.ret rfl
  | ok response => exact ainvoke_keeps.yields.bind fun _ _ => Yields.ret rfl

theorem runThroughGraph_yields :
    D.Yields (fun r => r.interrupt.isSome = true → D.waits) (rt.runThroughGraph args) := by
  refine ainvoke_keeps.attempt.yields.bind fun out hout => ?_
  cases out with
  | error exc =>
    cases exc with
    | runtime message => exact persistEvent_keeps.yields.bind fun _ _ => Yields.raise
    | _ => exact Yields.raise
  | ok result =>
    simp only
    cases hinfo : result.interrupt with
    | some info =>
      exact persistEvent_keeps.yields.bind fun _ _ => Yields.ret fun _ => hout (by rw [hinfo]; rfl)
    | none =>
      refine persistEvent_keeps.yields.bind fun _ _ => Yields.ret fun hsome => ?_
      rw [GraphResult.toRunResult, hinfo] at hsome
      cases hsome

/-- A request that is routed, and resumes nothing, is never suspended: the transfer workflow makes
an answer of an interrupt, and the direct way never leads to the graph. -/
theorem runRoute_settles {intent : Intent} (hnone : args.resumeFromState = none) :
    D.Yields (fun r => r.interrupt = none) (rt.runRoute args (routeFromIntent intent)) := by
  rw [AgentRuntime.runRoute]
  split
  · rename_i hdirect _
    obtain ⟨toolName, rest, htools, -⟩ := suggestTools_readOnly hdirect
    rw [show (routeFromIntent intent).suggestedTools = toolName :: rest from htools]
    exact executeDirect_yields (D.direct hdirect htools)
  · exact executePlanner_yields
  · exact executeRag_yields
  · exact Yields.ret rfl
  · exact executeTransferWorkflow_yields
  · rename_i hsome _
    rw [hnone] at hsome
    cases hsome

/-- Any other request is suspended only where the graph is. -/
theorem runRoute_yields {intent : Intent} :
    D.Yields (fun r => r.interrupt.isSome = true → D.waits)
      (rt.runRoute args (routeFromIntent intent)) := by
  cases hresume : args.resumeFromState with
  | none => exact (runRoute_settles hresume).mono fun r hr hsome => by rw [hr] at hsome; cases hsome
  | some old =>
    rw [AgentRuntime.runRoute, hresume]
    split
    · rename_i hnone
      cases hnone
    · rename_i hnone
      cases hnone
    · rename_i hnone
      cases hnone
    · exact Yields.ret (by rintro ⟨⟩)
    · rename_i hnone
      cases hnone
    · exact runThroughGraph_yields

/-- **A run** is confined. -/
theorem run_yields : D.Yields (fun r => r.interrupt.isSome = true → D.waits) (rt.run args) := by
  rw [AgentRuntime.run]
  cases rt.router with
  | none =>
    cases args.resumeFromState.isNone with
    | true => exact persistEvent_keeps.yields.bind fun _ _ => runThroughGraph_yields
    | false => exact runThroughGraph_yields
  | some router =>
    cases args.resumeFromState.isNone with
    | true =>
      refine persistEvent_keeps.yields.bind fun _ _ => ?_
      exact persistEvent_keeps.yields.bind fun _ _ => runRoute_yields
    | false => exact persistEvent_keeps.yields.bind fun _ _ => runRoute_yields

/-- With a router, a first run is confined and never suspended. -/
theorem run_settles {router : Router} (hrouter : rt.router = some router)
    (hnone : args.resumeFromState = none) :
    D.Yields (fun r => r.interrupt = none) (rt.run args) := by
  rw [AgentRuntime.run, hrouter, hnone]
  refine persistEvent_keeps.yields.bind fun _ _ => ?_
  exact persistEvent_keeps.yields.bind fun _ _ => runRoute_settles hnone

end Run

/-! ## The endpoint -/

/-- A run writes no record. -/
theorem Guarantees.records {o : Op} (h : D.Guarantees o) : D.Records o := by
  cases o with
  | hitl o => exact h.elim
  | grant o => exact h.elim
  | _ => exact h

/-- What waits is recorded as pending. -/
theorem record_keeps {p : PendingOperation} (hwaits : D.waits) :
    Relies D.assumes D.Records (fun _ => True) (p.record rt.py) := by
  refine ⟨trivial, fun t _ => ⟨⟨hwaits, rfl⟩, fun hit _ => ?_⟩⟩
  cases hit with
  | false => exact trivial
  | true =>
    refine ⟨hwaits, fun hit _ => ?_⟩
    cases hit <;> exact trivial

/-- How a request ends: with an interrupt, or with the demand to approve it, only if a run may
wait. -/
def Answers (D : Confinement rt) : Except Exn RunResult → Prop
  | .ok result => result.interrupt.isSome = true → D.waits
  | .error (.http status _) => status = 202 → D.waits
  | .error _ => True

/-- Where a run may wait, every answer will do. -/
theorem answers_of_waits (h : D.waits) (out : Except Exn RunResult) : D.Answers out := by
  cases out with
  | ok result => exact fun _ => h
  | error exc =>
    cases exc with
    | http status detail => exact fun _ => h
    | _ => exact trivial

/-- A request up to the answer of its run, for any account of what comes after. -/
theorem agentEndpoint_relies {r : AgentRequest} {P : RunResult → Prop} {G : Op → Prop}
    {Q : Except Exn RunResult → Prop} (hG : ∀ {o}, D.Guarantees o → G o)
    (hrun : D.Yields P (rt.run r.runArgs))
    (herror : ∀ status detail, status ≠ 202 → Q (.error (.http status detail)))
    (hrecord : ∀ result, P result → Relies D.assumes G Q (rt.recordInterrupt r result)) :
    Relies D.assumes G Q (rt.agentEndpoint r) := by
  rw [AgentRuntime.agentEndpoint]
  extract_lets session
  split
  · exact herror _ _ (by decide)
  · refine ⟨hG trivial, fun d _ => ?_⟩
    simp only [Prog.ret_bind]
    cases d.decision with
    | denied => exact herror _ _ (by decide)
    | pending => exact herror _ _ (by decide)
    | approved =>
      simp only
      split
      · exact herror _ _ (by decide)
      · -- `attempt` raises nothing
        refine Relies.bind (Q := fun out => ∃ x, out = .ok x ∧ ∀ result, x = .ok result → P result)
          (fun x hx => ?_) (by rintro _ ⟨_, ⟨⟩, _⟩)
          (Relies.attempt (Relies.weaken hG (Relies.mono id (fun h => ⟨_, rfl, h⟩) hrun)))
        obtain ⟨_, ⟨⟩, hx⟩ := hx
        cases x with
        | error exc => cases exc <;> exact herror _ _ (by decide)
        | ok result => exact hrecord result (hx result rfl)

/-- **A request** is confined. -/
theorem agentEndpoint_keeps {r : AgentRequest} :
    Relies D.assumes D.Records D.Answers (rt.agentEndpoint r) := by
  refine agentEndpoint_relies Guarantees.records run_yields
    (fun status detail hstatus h => absurd h hstatus) fun result hwaits => ?_
  rw [AgentRuntime.recordInterrupt]
  cases hinfo : result.interrupt with
  | none =>
    intro hsome
    rw [hinfo] at hsome
    cases hsome
  | some info =>
    have hwaits : D.waits := hwaits (by rw [hinfo]; rfl)
    simp only
    split
    · exact Relies.bind (fun _ _ => by exact answers_of_waits hwaits _)
        (fun _ _ => answers_of_waits hwaits _) (record_keeps hwaits)
    · exact answers_of_waits hwaits _

end Confinement

end BankingAgent
