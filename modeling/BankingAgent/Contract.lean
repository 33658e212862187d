import BankingAgent.Api
import BankingAgent.Async.Rely
import BankingAgent.GraphProtocol

/-!
# What a run says to the model, and what it keeps

A run hands message lists to the model, stores checkpoints and keeps records of its tool
calls. A `Contract` says which of these are in order, given which answers, and that a node
of the graph makes checkpoints in order of checkpoints in order. The walk over the text of
the graph, of `run` and of `resume` is then done once for all contracts.

Besides, a run leaves the decisions to others: it records what waits for a human, without a
deadline, and touches neither sessions nor grants otherwise.
-/

namespace BankingAgent

open Async

/-- What a run of the agent, its endpoint included, does with the stores and the tools. -/
def Op.ByAgent : Op → Prop
  | hitl (.insert row) => row.expiresAt = none
  | hitl (.select _) => True
  | hitl _ => False
  | grant (.insertPending g) => g.expiresAt = none
  | grant _ => False
  | resolveActor _ => False
  | callTool site _ => ∀ sessionId idemKey, site ≠ .executor sessionId idemKey
  | _ => True

/-- The loop is done with the call. -/
structure Handled.Answers (resumes : List Json) (tc : ToolRequest) (h : Handled) : Prop where
  id : h.call.id = tc.id
  /-- only an approval replaces the arguments -/
  call : resumes = [] → h.call = tc

/-- The state after `_agent_node`. -/
def AgentState.afterAgent (s : AgentState) (response : Message) : AgentState :=
  { s with
    messages := s.messages ++ [response]
    stepCount := s.stepCount + 1
    finalAnswer := if response.toolCalls.isEmpty then some response.content else s.finalAnswer }

/-- What is in order, and that the graph keeps it so. -/
structure Contract (rt : AgentRuntime) where
  /-- what the answers are relied on for -/
  assumes : (o : Op) → o.Res → Prop
  /-- a message list for the model -/
  lists : List Message → Prop
  /-- a checkpoint to be stored, or to go on from -/
  checkpoints : Checkpoint → Prop
  /-- an answer to a call -/
  answers : Answer → Prop
  /-- a statement of the idempotency store -/
  records : IdempotencyOp → Prop
  select : ∀ key, records (.select key)
  reserve : ∀ key toolName args now, records (.reserve key toolName args now)
  executing : ∀ key, records (.update key .executing)
  stored : ∀ {key row existing}, assumes (.idem (.select key)) (some row) →
    row.toRecord rt.py = some existing → answers (.stored existing)
  executed : ∀ {site call result}, assumes (.callTool site call) (.ok result) →
    answers (.executed result) ∧ ∀ key now, records (.update key (.succeeded result.content now)) ∧
      records (.update key (.failed (orElse result.error "unknown error") now))
  /-- the other answers are texts of the program -/
  other : ∀ {answer}, (∀ existing, answer ≠ .stored existing) →
    (∀ result, answer ≠ .executed result) → answers answer
  asks : ∀ {cp}, checkpoints cp → cp.next = some .agent → lists cp.state.messages
  replies : ∀ {cp response}, checkpoints cp → cp.next = some .agent →
    assumes (.llm cp.state.messages) (.ok response) →
    checkpoints { cp with
      state := cp.state.afterAgent response
      next := (cp.state.afterAgent response).nextAfterAgent
      resumes := [] }
  handles : ∀ {cp handled progress}, checkpoints cp → cp.next = some .tool →
    List.Forall₂ (Handled.Answers cp.resumes) cp.state.lastCalls handled →
    (∀ h ∈ handled, answers h.answer) →
    checkpoints { cp with
      state := cp.state.afterTools handled progress
      next := some .agent
      resumes := [] }

namespace Contract

variable {rt : AgentRuntime} (K : Contract rt)

/-- What a run guarantees. -/
def Guarantees (o : Op) : Prop :=
  o.ByAgent ∧
    match o with
    | .llm messages => K.lists messages
    | .thread (.save cp) => K.checkpoints cp
    | .idem o => K.records o
    | _ => True

/-- A coroutine that keeps to the contract and ends as `Q` says. -/
abbrev Keeps {α : Type} (Q : Except Exn α → Prop) (c : Co α) : Prop :=
  Relies K.assumes K.Guarantees Q c

/-- A coroutine that keeps to the contract. -/
abbrev Kept {α : Type} (c : Co α) : Prop := K.Keeps (fun _ => True) c

variable {K} {α β : Type} {s : AgentState} {tc : ToolRequest} {args : RunArgs} {sid : String}

/-- One after the other. -/
theorem Kept.bind {c : Co α} {f : α → Co β} (hc : K.Kept c) (hf : ∀ a, K.Kept (f a)) :
    K.Kept (c >>= f) := hc.seq hf

/-- A `try` whose exceptions are not looked at. -/
theorem Kept.attempt {c : Co α} (hc : K.Kept c) : K.Kept c.attempt :=
  Relies.attempt (Relies.mono id (fun _ => trivial) hc)

/-- What has become a value is raised again. -/
theorem raised_kept {x : Except Exn α} : K.Kept (raised x) := by
  cases x <;> exact trivial

theorem persistEvent_kept {runId : String} {seq : ℕ} {kind : EventKind}
    {payload : List (String × Json)} : K.Kept (persistEvent runId seq kind payload) :=
  ⟨⟨trivial, trivial⟩, fun _ _ => trivial⟩

/-! ## The graph -/

/-- What is answered from a record is in order because the record is. -/
theorem checkRecord_keeps {kind : OperationKind} (key : Option String) :
    K.Keeps (fun out => ∀ known, out = .ok known → ∀ answer, known = some answer → K.answers answer)
      (rt.checkRecord kind key) := by
  cases key with
  | none => rintro known ⟨⟩ answer ⟨⟩
  | some key =>
    refine ⟨⟨trivial, K.select key⟩, fun row hrow => ?_⟩
    cases row with
    | none => rintro known ⟨⟩ answer ⟨⟩
    | some row =>
      simp only [Prog.ret_bind]
      cases hrecord : row.toRecord rt.py with
      | none => rintro known ⟨⟩
      | some existing =>
        simp only [decoded, Prog.ret_bind, Prog.bind_eq, Prog.pure_eq]
        cases existing.status with
        | succeeded =>
          rintro known ⟨⟩ answer ⟨⟩
          exact K.stored hrow hrecord
        | failed => exact ⟨⟨trivial, K.executing key⟩, fun _ _ => by rintro known ⟨⟩ answer ⟨⟩⟩
        | reserved => exact ⟨⟨trivial, K.executing key⟩, fun _ _ => by rintro known ⟨⟩ answer ⟨⟩⟩
        | _ =>
          simp only
          split
          · rintro known ⟨⟩ answer ⟨⟩
          · rintro known ⟨⟩ answer ⟨⟩
            exact K.other (by rintro _ ⟨⟩) (by rintro _ ⟨⟩)

/-- A reservation carries no outcome. -/
theorem reserveUnlessPresent_kept (key : Option String) :
    K.Kept (rt.reserveUnlessPresent tc key) := by
  cases key with
  | none => exact trivial
  | some key =>
    refine ⟨⟨trivial, K.select key⟩, fun row _ => ?_⟩
    cases row with
    | some row =>
      simp only [Prog.ret_bind]
      cases row.toRecord rt.py <;> exact trivial
    | none =>
      refine ⟨⟨trivial, trivial⟩, fun t _ => ⟨⟨trivial, K.reserve key _ _ _⟩, fun hit _ =>
        ⟨⟨trivial, K.select key⟩, fun row _ => ?_⟩⟩⟩
      cases row with
      | none => exact trivial
      | some row =>
        simp only [Prog.ret_bind]
        cases row.toRecord rt.py <;> exact trivial

/-- The outcome of a call is recorded as the contract has it for the answer of the server. -/
theorem recordOutcome_kept {result : ToolResult} (key : Option String)
    (h : ∀ key now, K.records (.update key (.succeeded result.content now)) ∧
      K.records (.update key (.failed (orElse result.error "unknown error") now))) :
    K.Kept (rt.recordOutcome result key) := by
  cases key with
  | none => exact trivial
  | some key =>
    simp only [AgentRuntime.recordOutcome]
    cases result.success with
    | true => exact ⟨⟨trivial, trivial⟩, fun t _ => ⟨⟨trivial, (h key _).1⟩, fun _ _ => trivial⟩⟩
    | false => exact ⟨⟨trivial, trivial⟩, fun t _ => ⟨⟨trivial, (h key _).2⟩, fun _ _ => trivial⟩⟩

/-- What the tool server answers may be passed on and recorded. -/
theorem callTool_keeps {site : Site} {call : ToolCall}
    (hsite : ∀ sessionId idemKey, site ≠ .executor sessionId idemKey) :
    K.Keeps (fun out => ∀ result, out = .ok result → K.answers (.executed result) ∧
        ∀ key now, K.records (.update key (.succeeded result.content now)) ∧
          K.records (.update key (.failed (orElse result.error "unknown error") now)))
      (MCPClient.callTool site call) := by
  refine ⟨⟨hsite, trivial⟩, fun answer hanswer => ?_⟩
  cases answer with
  | error exc => rintro result ⟨⟩
  | ok result =>
    rintro _ ⟨⟩
    exact K.executed hanswer

theorem callTool_kept {site : Site} {call : ToolCall}
    (hsite : ∀ sessionId idemKey, site ≠ .executor sessionId idemKey) :
    K.Kept (MCPClient.callTool site call) :=
  Relies.mono id (fun _ => trivial) (callTool_keeps hsite)

/-- A call that is made is answered by what the server said. -/
theorem executeCall_keeps {number : ℕ} (key : Option String) :
    K.Keeps (fun out => ∀ result, out = .ok result → K.answers (.executed result))
      (rt.executeCall number key tc) := by
  refine Relies.bind (fun _ _ => ?_) (by rintro _ _ _ ⟨⟩) (reserveUnlessPresent_kept key)
  refine Relies.andThen (callTool_keeps (by rintro _ _ ⟨⟩)) fun result hresult => ?_
  obtain ⟨hexecuted, hrecords⟩ := hresult
  refine Relies.bind (fun _ _ => ?_) (by rintro _ _ _ ⟨⟩) (recordOutcome_kept key hrecords)
  rintro _ ⟨⟩
  exact hexecuted

/-- A call is answered from its record, by the server, or by a text of the program. -/
theorem answerCall_keeps {number : ℕ} {sessionId : Option String} :
    K.Keeps (fun out => ∀ answer, out = .ok answer → K.answers answer)
      (rt.answerCall number sessionId tc) := by
  refine Relies.andThen (checkRecord_keeps _) fun known hknown => ?_
  cases known with
  | some answer =>
    rintro _ ⟨⟩
    exact hknown answer rfl
  | none =>
    refine Relies.andThen (executeCall_keeps _) fun result hresult => ?_
    rintro _ ⟨⟩
    exact hresult

variable (K) in
/-- A call that may go ahead has kept its id; one that may not is answered. -/
def GateKeeps (resumes : List Json) (tc : ToolRequest) : Except Answer ToolRequest → Prop
  | .error answer => K.answers answer
  | .ok call => call.id = tc.id ∧ (resumes = [] → call = tc)

/-- The gate lets the call through as it came, unless an approval has changed it. -/
theorem authorizeCall_keeps {resumes : List Json} {n : ℕ} {sid : Option String} :
    K.Keeps (fun out => ∀ gate, out = .ok gate → K.GateKeeps resumes tc gate.1)
      (rt.authorizeCall sid resumes n tc) := by
  refine ⟨⟨trivial, trivial⟩, fun d _ => ?_⟩
  simp only [Prog.ret_bind]
  cases d.decision with
  | approved =>
    rintro gate ⟨⟩
    exact ⟨rfl, fun _ => rfl⟩
  | denied =>
    rintro gate ⟨⟩
    exact K.other (by rintro _ ⟨⟩) (by rintro _ ⟨⟩)
  | pending =>
    simp only [interrupt]
    cases hresume : resumes[n]? with
    | none => exact ⟨⟨trivial, trivial⟩, fun _ _ => by rintro gate ⟨⟩⟩
    | some approval =>
      refine ⟨⟨trivial, trivial⟩, fun _ _ => ?_⟩
      rintro gate ⟨⟩
      have hne : resumes ≠ [] := by
        rintro rfl
        cases hresume
      simp only [readApproval]
      split
      · exact ⟨rfl, fun h => absurd h hne⟩
      · exact K.other (by rintro _ ⟨⟩) (by rintro _ ⟨⟩)
      · exact K.other (by rintro _ ⟨⟩) (by rintro _ ⟨⟩)

/-- One call of the tool node has an answer that is in order. -/
theorem handleCall_keeps {resumes : List Json} {progress : Progress} :
    K.Keeps (fun out => ∀ done, out = .ok done →
        done.1.Answers resumes tc ∧ K.answers done.1.answer)
      (rt.handleCall s resumes progress tc) := by
  have hself {answer : Answer} (h : K.answers answer) :
      (⟨tc, answer⟩ : Handled).Answers resumes tc ∧ K.answers answer := ⟨⟨rfl, fun _ => rfl⟩, h⟩
  rw [AgentRuntime.handleCall]
  cases rt.validationError tc with
  | some error =>
    rintro done ⟨⟩
    exact hself (K.other (by rintro _ ⟨⟩) (by rintro _ ⟨⟩))
  | none =>
    simp only
    split
    · rintro done ⟨⟩
      exact hself (K.other (by rintro _ ⟨⟩) (by rintro _ ⟨⟩))
    · refine Relies.andThen authorizeCall_keeps ?_
      rintro ⟨answer | call, interrupts⟩ hgate
      · rintro done ⟨⟩
        exact hself hgate
      · refine Relies.andThen answerCall_keeps fun answer hanswer => ?_
        rintro done ⟨⟩
        exact ⟨⟨hgate.1, hgate.2⟩, hanswer⟩

/-- So have all of them, in their order. -/
theorem handleCalls_keeps {resumes : List Json} (calls : List ToolRequest) :
    ∀ {progress : Progress}, K.Keeps (fun out => ∀ done, out = .ok done →
        List.Forall₂ (Handled.Answers resumes) calls done.1 ∧ ∀ h ∈ done.1, K.answers h.answer)
      (rt.handleCalls s resumes calls progress) := by
  induction calls with
  | nil =>
    rintro progress done ⟨⟩
    exact ⟨.nil, fun h hh => absurd hh List.not_mem_nil⟩
  | cons call rest ih =>
    intro progress
    refine Relies.andThen handleCall_keeps fun first hfirst => ?_
    refine Relies.andThen ih fun others hothers => ?_
    rintro done ⟨⟩
    exact ⟨.cons hfirst.1 hothers.1, List.forall_mem_cons.mpr ⟨hfirst.2, hothers.2⟩⟩

/-- A node makes checkpoints in order of checkpoints in order. -/
theorem runNode_keeps {cp : Checkpoint} {node : GraphNode} (hcp : K.checkpoints cp)
    (hnode : cp.next = some node) :
    K.Keeps (fun out => ∀ cp', out = .ok cp' → K.checkpoints cp') (rt.runNode cp node) := by
  cases node with
  | agent =>
    unfold AgentRuntime.runNode AgentRuntime.agentNode
    simp only
    split
    · rintro cp' ⟨⟩
    · refine ⟨⟨trivial, K.asks hcp hnode⟩, fun reply hreply => ?_⟩
      cases reply with
      | error exc => rintro cp' ⟨⟩
      | ok response =>
        rintro _ ⟨⟩
        exact K.replies hcp hnode hreply
  | tool =>
    refine Relies.andThen (P := fun s' => K.checkpoints
      { cp with state := s', next := some .agent, resumes := [] }) ?_ fun s' hs' => ?_
    · refine Relies.andThen (handleCalls_keeps _) fun done hdone => ?_
      rintro _ ⟨⟩
      exact K.handles hcp hnode hdone.1 hdone.2
    · rintro _ ⟨⟩
      exact hs'

/-- The graph keeps to the contract from a checkpoint in order on. -/
theorem runGraph_kept (fuel : ℕ) : ∀ {cp : Checkpoint}, K.checkpoints cp →
    K.Kept (rt.runGraph fuel cp) := by
  induction fuel with
  | zero =>
    intro cp _
    rw [AgentRuntime.runGraph]
    cases cp.next <;> exact trivial
  | succ fuel ih =>
    intro cp hcp
    rw [AgentRuntime.runGraph]
    cases hnode : cp.next with
    | none => exact trivial
    | some node =>
      refine Relies.bind ?_ (fun _ _ => trivial)
        (Relies.attempt (Q := fun out => ∃ out', out = .ok out' ∧
          ∀ cp', out' = .ok cp' → K.checkpoints cp')
          (Relies.mono id (fun h => ⟨_, rfl, h⟩) (runNode_keeps hcp hnode)))
      rintro out ⟨_, ⟨⟩, hout⟩
      cases out with
      | ok cp' => exact ⟨⟨trivial, hout cp' rfl⟩, fun _ _ => ih (hout cp' rfl)⟩
      | error exc => cases exc <;> exact trivial

theorem ainvoke_kept {threadId : String} {input : GraphInput}
    (hstart : ∀ old, K.assumes (.thread (.load threadId)) old →
      K.checkpoints (input.start threadId old)) : K.Kept (rt.ainvoke threadId input) :=
  ⟨⟨trivial, trivial⟩, fun old hold =>
    ⟨⟨trivial, hstart old hold⟩, fun _ _ => runGraph_kept _ (hstart old hold)⟩⟩

/-- **A resumed graph** keeps to the contract if the checkpoint it goes on from does. -/
theorem ainvokeResume_kept {threadId : String} {value : Json}
    (hload : ∀ cp, K.assumes (.thread (.load threadId)) (some cp) →
      K.checkpoints { cp with resumes := cp.resumes ++ [value] }) :
    K.Kept (rt.ainvokeResume threadId value) := by
  refine ⟨⟨trivial, trivial⟩, fun old hold => ?_⟩
  cases old with
  | none => exact trivial
  | some cp => exact ⟨⟨trivial, hload cp hold⟩, fun _ _ => runGraph_kept _ (hload cp hold)⟩

/-- A resumed run does, if the checkpoint of its thread is in order with the answer. -/
theorem resume_kept {threadId runId : String} {value : Json}
    (hload : ∀ cp, K.assumes (.thread (.load threadId)) (some cp) →
      K.checkpoints { cp with resumes := cp.resumes ++ [value] }) :
    K.Kept (rt.resume threadId value runId) :=
  (ainvokeResume_kept hload).bind fun _ => persistEvent_kept.bind fun _ => trivial

/-! ## `run` -/

variable (K) in
/-- What `run` needs of a contract for its arguments. -/
structure Opens (args : RunArgs) : Prop where
  direct : ∀ toolName,
    K.lists [.system (AgentRuntime.directSystem toolName), .human args.userMessage]
  planner : K.lists
    [.system plannerSystem, .human (plannerPrompt rt.toolRegistry args.userMessage)]
  rag : K.lists [.system AgentRuntime.ragSystem, .human args.userMessage]
  transfer : K.lists [.system AgentRuntime.transferSystem, .human args.userMessage]
  graph : ∀ old, K.assumes (.thread (.load args.threadId)) old →
    K.checkpoints ((AgentRuntime.initialInput args).start args.threadId old)
  /-- the graph behind the transfer workflow starts with the reply to its own question -/
  workflow : ∀ response old, args.resumeFromState = none → K.assumes
      (.llm [.system AgentRuntime.transferSystem, .human args.userMessage]) (.ok response) →
    K.assumes (.thread (.load args.threadId)) old →
    K.checkpoints (GraphInput.start
      { messages := [.human args.userMessage, response], sessionId := args.runId, stepCount := 1,
        finalAnswer := none, executedToolIds := none } args.threadId old)

theorem executeDirect_kept {toolName : String} (h : K.Opens args) :
    K.Kept (rt.executeDirect args toolName) := by
  unfold AgentRuntime.executeDirect
  extract_lets unauthenticated
  split
  · exact trivial
  · refine ⟨⟨trivial, h.direct toolName⟩, fun reply _ => ?_⟩
    simp only [Prog.ret_bind]
    split
    · exact trivial
    · rename_i extracted _
      cases AgentRuntime.injectIdentity toolName args.trustedContext extracted with
      | error exc => exact trivial
      | ok toolArgs =>
        exact (callTool_kept (by rintro _ _ ⟨⟩)).bind fun result =>
          persistEvent_kept.bind fun _ => trivial

/-- A step of a plan neither asks the model nor stores a checkpoint. -/
theorem executeStep_kept {plan : ExecutionPlan} {step : PlanStep} :
    K.Kept (rt.executeStep plan step) := by
  rcases rt.executeStep_cases plan step with ⟨_, h⟩ | ⟨_, h⟩ | ⟨toolName, kind, -, -, h⟩
  · rw [h]
    exact trivial
  · rw [h]
    exact trivial
  · rw [h]
    refine ⟨⟨trivial, trivial⟩, fun d _ => ?_⟩
    simp only [Prog.ret_bind]
    split
    · exact trivial
    · exact (callTool_kept (by rintro _ _ ⟨⟩)).attempt.bind fun answer => trivial

/-- The planner asks with the message of the user, as often as it may. -/
theorem plan_kept (h : K.Opens args) (attempts : ℕ) :
    K.Kept (rt.plan args.planId args.userMessage attempts) := by
  induction attempts with
  | zero => exact trivial
  | succ attempts ih =>
    refine ⟨⟨trivial, h.planner⟩, fun reply _ => ?_⟩
    cases reply with
    | error exc => exact ih
    | ok response =>
      simp only [Prog.ret_bind]
      split
      · exact ih
      · split
        · exact trivial
        · exact ih

theorem executeSteps_kept {plan : ExecutionPlan} (steps : List PlanStep) :
    ∀ {results : List StepResult}, K.Kept (rt.executeSteps plan steps results) := by
  induction steps with
  | nil => exact trivial
  | cons step rest ih =>
    intro results
    refine executeStep_kept.bind fun result => raised_kept.bind fun verdict => ?_
    split
    · exact ih
    · split
      · exact executeStep_kept.bind fun again => raised_kept.bind fun _ => ih
      · split
        · exact trivial
        · exact ih

/-- A planned run asks the model for its plan, and for nothing after it. -/
theorem executePlanner_kept {route : Route} (h : K.Opens args) :
    K.Kept (rt.executePlanner args route) := by
  refine (plan_kept h 3).bind fun plan => ?_
  cases plan with
  | none => exact trivial
  | some plan =>
    refine raised_kept.bind fun errors => ?_
    split
    · exact trivial
    · refine persistEvent_kept.bind fun _ => (executeSteps_kept plan.steps).bind fun outcome => ?_
      cases outcome <;> exact trivial

theorem executeRag_kept (h : K.Opens args) : K.Kept (AgentRuntime.executeRag args) := by
  refine ⟨⟨trivial, h.rag⟩, fun reply _ => ?_⟩
  cases reply with
  | error exc => exact trivial
  | ok response => exact persistEvent_kept.bind fun _ => trivial

theorem executeTransferWorkflow_kept (h : K.Opens args) (hnone : args.resumeFromState = none) :
    K.Kept (rt.executeTransferWorkflow args) := by
  refine ⟨⟨trivial, h.transfer⟩, fun reply hreply => ?_⟩
  cases reply with
  | error exc => exact trivial
  | ok response =>
    exact (ainvoke_kept fun old => h.workflow response old hnone hreply).bind fun _ => trivial

theorem runThroughGraph_kept (h : K.Opens args) : K.Kept (rt.runThroughGraph args) := by
  refine (ainvoke_kept h.graph).attempt.bind fun out => ?_
  cases out with
  | error exc =>
    cases exc with
    | runtime message => exact persistEvent_kept.bind fun _ => trivial
    | _ => exact trivial
  | ok result =>
    simp only
    cases result.interrupt with
    | some info => exact persistEvent_kept.bind fun _ => trivial
    | none => exact persistEvent_kept.bind fun _ => trivial

theorem runRoute_kept {route : Route} (h : K.Opens args) : K.Kept (rt.runRoute args route) := by
  rw [AgentRuntime.runRoute]
  split
  · split
    · exact executeDirect_kept h
    · exact runThroughGraph_kept h
  · exact executePlanner_kept h
  · exact executeRag_kept h
  · exact trivial
  · exact executeTransferWorkflow_kept h (by assumption)
  · exact runThroughGraph_kept h

/-- **A run** keeps to every contract that is open for its arguments. -/
theorem run_kept (h : K.Opens args) : K.Kept (rt.run args) := by
  rw [AgentRuntime.run]
  cases rt.router with
  | none =>
    cases args.resumeFromState.isNone with
    | true => exact persistEvent_kept.bind fun _ => runThroughGraph_kept h
    | false => exact runThroughGraph_kept h
  | some router =>
    cases args.resumeFromState.isNone with
    | true =>
      exact persistEvent_kept.bind fun _ => persistEvent_kept.bind fun _ => runRoute_kept h
    | false => exact persistEvent_kept.bind fun _ => runRoute_kept h

/-- **A request** does what its run does, and records what waits for a human. -/
theorem agentEndpoint_kept {r : AgentRequest}
    (h : ∀ op d, K.assumes (.authorize op) d → K.Opens r.runArgs) :
    K.Kept (rt.agentEndpoint r) := by
  rw [AgentRuntime.agentEndpoint]
  extract_lets session
  split
  · exact trivial
  · refine ⟨⟨trivial, trivial⟩, fun d hd => ?_⟩
    simp only [Prog.ret_bind]
    cases d.decision with
    | denied => exact trivial
    | pending => exact trivial
    | approved =>
      simp only
      split
      · exact trivial
      · refine (run_kept (h _ d hd)).attempt.bind fun out => ?_
        cases out with
        | error exc => cases exc <;> exact trivial
        | ok result =>
          simp only [AgentRuntime.recordInterrupt]
          cases result.interrupt with
          | none => exact trivial
          | some info =>
            simp only
            split
            · refine Kept.bind ⟨⟨trivial, trivial⟩, fun t _ => ⟨⟨rfl, trivial⟩, fun hit _ => ?_⟩⟩
                fun _ => trivial
              cases hit with
              | false => exact trivial
              | true =>
                refine ⟨⟨rfl, trivial⟩, fun hit _ => ?_⟩
                cases hit <;> exact trivial
            · exact trivial

end Contract

end BankingAgent
