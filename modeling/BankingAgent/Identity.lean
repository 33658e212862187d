import BankingAgent.AuthorizedEffects
import BankingAgent.Async.Rely

/-!
# Whose account a tool call is about

The tools of `_IDENTITY_TOOLS` act for the user named in their arguments. The direct route
writes the subject of the trusted context there. The graph passes on the arguments of the
model, or those of an approval, and a plan calls its tools without arguments.
-/

namespace BankingAgent

open Async

/-- The arguments name the user. -/
def NamesUser (subject : String) (args : Json) : Prop :=
  args.get? "user_id" = some (.str subject)

/-- A call the model asks for, if its tool acts for a user, names that user. -/
def ToolRequest.Honest (subject : String) (tc : ToolRequest) : Prop :=
  tc.name ∈ identityTools → NamesUser subject tc.args

/-- The call is one of a tool that acts for a user. -/
def ToolCall.ActsForUser (call : ToolCall) : Prop :=
  ∃ toolName ∈ identityTools, call.name = .str toolName

@[simp] theorem actsForUser_str {toolName : String} {args : Json} :
    ToolCall.ActsForUser ⟨.str toolName, args⟩ ↔ toolName ∈ identityTools := by
  simp [ToolCall.ActsForUser]

/-- A tool that acts for a user is only called with the user's name. -/
def Op.Attributed (subject : String) : Op → Prop
  | callTool _ call => call.ActsForUser → NamesUser subject call.arguments
  | _ => True

/-- A thread that stands before the tool node is there for honest calls. -/
def Checkpoint.Honest (subject : String) (cp : Checkpoint) : Prop :=
  cp.next = some .tool → ∀ tc ∈ cp.state.lastCalls, tc.Honest subject

/-- An approval that replaces the arguments of a call leaves the user's name there. -/
def ApprovalHonest (subject : String) (payload approval : Json) : Prop :=
  Approves approval → ∀ args name, approval.get? "canonical_args" = some args →
    payload.get? "tool_name" = some (.str name) → name ∈ identityTools → NamesUser subject args

/-- What the graph has to rely on: the calls in the model's replies and the approvals. -/
def GraphHonest (subject : String) : (o : Op) → o.Res → Prop
  | .llm _, .ok reply => ∀ tc ∈ reply.toolCalls, tc.Honest subject
  | .interrupt payload (some approval), _ => ApprovalHonest subject payload approval
  | _, _ => True

/-- What a resumed graph has to rely on: the thread as well. -/
def ResumeHonest (subject : String) (o : Op) (r : o.Res) : Prop :=
  GraphHonest subject o r ∧
    match o, r with
    | .thread (.load _), some cp => cp.Honest subject
    | _, _ => True

/-- The first candidate of the step is a tool that acts for a user. -/
def PlanStep.ActsForUser (step : PlanStep) : Prop :=
  ∃ toolName ∈ identityTools, step.toolCandidates.first = .ok (.str toolName)

/-- What the planner has to rely on: no step begins with a tool that acts for a user. -/
def PlanHonest (py : PyLib) (args : RunArgs) : (o : Op) → o.Res → Prop
  | .llm _, .ok reply => ∀ plan, ExecutionPlan.ofText py args.planId args.userMessage
      reply.content = some plan →
    ∀ step ∈ plan.steps, ¬ step.ActsForUser
  | _, _ => True

/-! ## The arguments of the direct route -/

/-- What is injected is there. -/
theorem namesUser_injectIdentity {toolName : String} {context : TrustedContext}
    {args args' : Json} (htool : toolName ∈ identityTools)
    (h : AgentRuntime.injectIdentity toolName (some context) args = .ok args') :
    NamesUser context.subjectId args' := by
  simp only [AgentRuntime.injectIdentity, if_pos htool] at h
  cases args with
  | obj fields =>
    cases h
    rw [NamesUser, Json.get?_obj_setField_of_ne (by decide), Json.get?_obj_setField_self]
  | _ => cases h

/-! ## The graph -/

section Walk

variable {rt : AgentRuntime} {subject : String} {A : (o : Op) → o.Res → Prop} {α β : Type}
  {s : AgentState} {tc : ToolRequest} {args : RunArgs}

/-- The coroutine calls tools as it should, relying on `A`. -/
abbrev Attributes (subject : String) (A : (o : Op) → o.Res → Prop) (c : Co α) : Prop :=
  Relies A (Op.Attributed subject) (fun _ => True) c

/-- One after the other. -/
theorem Attributes.bind {c : Co α} {f : α → Co β} (hc : Attributes subject A c)
    (hf : ∀ a, Attributes subject A (f a)) : Attributes subject A (c >>= f) := hc.seq hf

/-- What calls no tool acts for nobody. -/
theorem attributes_of_away {c : Co α} (h : c.Only fun o => ¬ o.AtGate) :
    Attributes subject A c :=
  relies_of_only (fun {o} ho => by cases o <;> first | exact trivial | exact absurd trivial ho)
    (fun _ => trivial) h

theorem raised_attributes {x : Except Exn α} : Attributes subject A (raised x) := by
  cases x <;> exact trivial

theorem persistEvent_attributes {runId : String} {seq : ℕ} {kind : EventKind}
    {payload : List (String × Json)} :
    Attributes subject A (persistEvent runId seq kind payload) :=
  attributes_of_away ⟨id, fun _ => trivial⟩

theorem callTool_attributes {site : Site} {call : ToolCall}
    (h : call.ActsForUser → NamesUser subject call.arguments) :
    Attributes subject A (MCPClient.callTool site call) := by
  refine ⟨h, fun answer _ => ?_⟩
  cases answer <;> exact trivial

/-- An honest call is made as it is. -/
theorem answerCall_attributes {number : ℕ} {sessionId : Option String}
    (htc : tc.Honest subject) : Attributes subject A (rt.answerCall number sessionId tc) := by
  refine relies_of_only (fun {o} ho => ?_) (fun _ => trivial) answerCall_ofAnswer
  cases o with
  | callTool site call =>
    obtain ⟨rfl, rfl⟩ := ho
    exact fun hacts => htc (actsForUser_str.mp hacts)
  | _ => exact trivial

/-- What an approval makes of an honest call is honest. -/
theorem honest_approved {approval payload : Json} {call : ToolRequest} {py : PyLib}
    (happ : ApprovalHonest subject payload approval)
    (hname : payload.get? "tool_name" = some (.str tc.name)) (htc : tc.Honest subject)
    (h : readApproval py tc approval = .ok call) : call.Honest subject := by
  rw [readApproval] at h
  split at h <;> cases h
  rename_i hdecision
  intro htool
  cases hargs : approval.get? "canonical_args" with
  | none => exact htc htool
  | some args => exact happ hdecision args tc.name hargs hname htool

/-- The gate passes a call on for the user it came from. -/
theorem authorizeCall_attributes {resumes : List Json} {n : ℕ} {sid : Option String}
    (hA : ∀ {o r}, A o r → GraphHonest subject o r) (htc : tc.Honest subject) :
    Relies A (Op.Attributed subject)
      (fun out => ∀ call interrupts, out = .ok (.ok call, interrupts) → call.Honest subject)
      (rt.authorizeCall sid resumes n tc) := by
  refine ⟨trivial, fun d _ => ?_⟩
  simp only [Prog.ret_bind]
  cases d.decision with
  | approved =>
    rintro call interrupts ⟨⟩
    exact htc
  | denied => rintro call interrupts ⟨⟩
  | pending =>
    simp only [interrupt]
    cases resumes[n]? with
    | none => exact ⟨trivial, fun _ _ => by rintro call interrupts ⟨⟩⟩
    | some approval =>
      refine ⟨trivial, fun r hr => ?_⟩
      rintro call interrupts h
      obtain ⟨hread, -⟩ := Prod.ext_iff.mp (Except.ok.inj h)
      exact honest_approved (hA hr) rfl htc hread

/-- One call of the tool node acts for the user whose call it is. -/
theorem handleCall_attributes {resumes : List Json} {progress : Progress}
    (hA : ∀ {o r}, A o r → GraphHonest subject o r) (htc : tc.Honest subject) :
    Attributes subject A (rt.handleCall s resumes progress tc) := by
  rw [AgentRuntime.handleCall]
  cases rt.validationError tc with
  | some error => exact trivial
  | none =>
    simp only
    split
    · exact trivial
    · refine Relies.bind ?_ (fun _ _ => trivial) (authorizeCall_attributes hA htc)
      rintro ⟨answer | call, interrupts⟩ hgate
      · exact trivial
      · exact (answerCall_attributes (hgate call interrupts rfl)).bind fun _ => trivial

theorem handleCalls_attributes {resumes : List Json}
    (hA : ∀ {o r}, A o r → GraphHonest subject o r) (calls : List ToolRequest) :
    ∀ {progress : Progress}, (∀ tc ∈ calls, tc.Honest subject) →
      Attributes subject A (rt.handleCalls s resumes calls progress) := by
  induction calls with
  | nil => exact fun _ => trivial
  | cons tc rest ih =>
    intro progress hcalls
    refine (handleCall_attributes hA (hcalls tc List.mem_cons_self)).bind fun first => ?_
    exact (ih fun tc htc => hcalls tc (List.mem_cons_of_mem _ htc)).bind fun _ => trivial

/-- A node leaves honest calls for the tool node. -/
theorem runNode_attributes {cp : Checkpoint} (hA : ∀ {o r}, A o r → GraphHonest subject o r)
    {node : GraphNode} (hnode : cp.next = some node) (hcp : cp.Honest subject) :
    Relies A (Op.Attributed subject) (fun out => ∀ cp', out = .ok cp' → cp'.Honest subject)
      (rt.runNode cp node) := by
  cases node with
  | agent =>
    unfold AgentRuntime.runNode AgentRuntime.agentNode
    simp only
    split
    · rintro _ ⟨⟩
    · refine ⟨trivial, fun reply hreply => ?_⟩
      cases reply with
      | error exc => rintro _ ⟨⟩
      | ok response =>
        rintro _ ⟨⟩ - tc htc
        refine hA hreply tc ?_
        simpa [AgentState.lastCalls] using htc
  | tool =>
    refine Relies.bind (Q := fun _ => True) (fun state _ => ?_) (fun _ _ => by rintro _ ⟨⟩) ?_
    · rintro _ ⟨⟩ ⟨⟩
    · exact (handleCalls_attributes hA _ (hcp hnode)).bind fun _ => trivial

/-- The graph acts for the user of its checkpoint. -/
theorem runGraph_attributes (hA : ∀ {o r}, A o r → GraphHonest subject o r) (fuel : ℕ) :
    ∀ {cp : Checkpoint}, cp.Honest subject → Attributes subject A (rt.runGraph fuel cp) := by
  induction fuel with
  | zero =>
    intro cp _
    rw [AgentRuntime.runGraph]
    cases cp.next <;> exact trivial
  | succ fuel ih =>
    intro cp hcp
    rw [AgentRuntime.runGraph]
    cases hnext : cp.next with
    | none => exact trivial
    | some node =>
      refine Relies.bind ?_ (fun _ _ => trivial)
        (Relies.attempt (Q := fun out => ∃ out', out = .ok out' ∧
          ∀ cp', out' = .ok cp' → cp'.Honest subject)
          (Relies.mono id (fun h => ⟨_, rfl, h⟩) (runNode_attributes hA hnext hcp)))
      rintro out ⟨_, ⟨⟩, hout⟩
      cases out with
      | ok cp' => exact ⟨trivial, fun _ _ => ih (hout cp' rfl)⟩
      | error exc => cases exc <;> exact trivial

/-- A new input starts with the agent. -/
theorem ainvoke_attributes {threadId : String} {input : GraphInput}
    (hA : ∀ {o r}, A o r → GraphHonest subject o r) :
    Attributes subject A (rt.ainvoke threadId input) :=
  ⟨trivial, fun _ _ => ⟨trivial, fun _ _ => runGraph_attributes hA _ (by rintro ⟨⟩)⟩⟩

theorem resume_attributes {threadId runId : String} {value : Json} :
    Attributes subject (ResumeHonest subject) (rt.resume threadId value runId) := by
  refine Attributes.bind ⟨trivial, fun old hold => ?_⟩ fun _ =>
    persistEvent_attributes.bind fun _ => trivial
  cases old with
  | none => exact trivial
  | some cp => exact ⟨trivial, fun _ _ => runGraph_attributes And.left _ hold.2⟩

theorem runThroughGraph_attributes (hA : ∀ {o r}, A o r → GraphHonest subject o r) :
    Attributes subject A (rt.runThroughGraph args) := by
  refine Attributes.bind (Relies.attempt (Relies.mono id (fun _ => trivial)
    (ainvoke_attributes hA))) fun out => ?_
  cases out with
  | error exc =>
    cases exc with
    | runtime message => exact persistEvent_attributes.bind fun _ => trivial
    | _ => exact trivial
  | ok result =>
    simp only
    cases result.interrupt with
    | some info => exact persistEvent_attributes.bind fun _ => trivial
    | none => exact persistEvent_attributes.bind fun _ => trivial

/-! ## The other routes -/

/-- The direct route writes the user's name itself. -/
theorem executeDirect_attributes {context : TrustedContext} {toolName : String}
    (hcontext : args.trustedContext = some context) :
    Attributes context.subjectId A (rt.executeDirect args toolName) := by
  unfold AgentRuntime.executeDirect
  extract_lets unauthenticated
  split
  · exact trivial
  · refine ⟨trivial, fun reply _ => ?_⟩
    simp only [Prog.ret_bind]
    split
    · exact trivial
    · rename_i extracted _
      cases hinject : AgentRuntime.injectIdentity toolName args.trustedContext extracted with
      | error exc => exact trivial
      | ok toolArgs =>
        rw [hcontext] at hinject
        refine (callTool_attributes fun hacts =>
          namesUser_injectIdentity (actsForUser_str.mp hacts) hinject).bind
          fun result => ?_
        exact persistEvent_attributes.bind fun _ => trivial

/-- A step whose tools act for nobody. -/
theorem executeStep_attributes {plan : ExecutionPlan} {step : PlanStep}
    (hstep : ¬ step.ActsForUser) : Attributes subject A (rt.executeStep plan step) := by
  rcases rt.executeStep_cases plan step with ⟨_, h⟩ | ⟨_, h⟩ | ⟨toolName, kind, hfirst, -, h⟩
  · rw [h]
    exact trivial
  · rw [h]
    exact trivial
  · rw [h]
    refine ⟨trivial, fun d _ => ?_⟩
    simp only [Prog.ret_bind]
    split
    · exact trivial
    · refine Attributes.bind (Relies.attempt (Relies.mono id (fun _ => trivial)
        (callTool_attributes ?_))) fun answer => trivial
      rintro ⟨name, hname, rfl⟩
      exact absurd ⟨name, hname, hfirst⟩ hstep

/-- The plan the planner returns is one the model has written. -/
theorem plan_attributes (attempts : ℕ) :
    Relies (PlanHonest rt.py args) (Op.Attributed subject)
      (fun out => ∀ plan, out = .ok (some plan) → ∀ step ∈ plan.steps, ¬ step.ActsForUser)
      (rt.plan args.planId args.userMessage attempts) := by
  induction attempts with
  | zero => rintro plan ⟨⟩
  | succ attempts ih =>
    refine ⟨trivial, fun reply hreply => ?_⟩
    cases reply with
    | error exc => exact ih
    | ok response =>
      simp only [Prog.ret_bind]
      cases htext : ExecutionPlan.ofText rt.py args.planId args.userMessage response.content with
      | none => exact ih
      | some plan' =>
        simp only
        split
        · rintro plan ⟨⟩
          exact hreply plan' htext
        · exact ih

theorem executeSteps_attributes {plan : ExecutionPlan} (steps : List PlanStep) :
    ∀ {results : List StepResult},
      (∀ step ∈ steps, ¬ step.ActsForUser) → Attributes subject A (rt.executeSteps plan steps results) := by
  induction steps with
  | nil => exact fun _ => trivial
  | cons step rest ih =>
    intro results hsteps
    have hrest := fun step hstep => hsteps step (List.mem_cons_of_mem _ hstep)
    have hfirst : Attributes subject A (rt.executeStep plan step) :=
      executeStep_attributes (hsteps step List.mem_cons_self)
    refine hfirst.bind fun result => raised_attributes.bind fun verdict => ?_
    split
    · exact ih hrest
    · split
      · exact hfirst.bind fun again => raised_attributes.bind fun _ => ih hrest
      · split
        · exact trivial
        · exact ih hrest

/-- A plan none of whose steps acts for a user. -/
theorem executePlanner_attributes {route : Route} :
    Attributes subject (PlanHonest rt.py args) (rt.executePlanner args route) := by
  refine Relies.bind (fun plan hplan => ?_) (fun _ _ => trivial) (plan_attributes 3)
  cases plan with
  | none => exact trivial
  | some plan =>
    refine raised_attributes.bind fun errors => ?_
    split
    · exact trivial
    · refine persistEvent_attributes.bind fun _ =>
        (executeSteps_attributes plan.steps (hplan plan rfl)).bind fun outcome => ?_
      cases outcome <;> exact trivial

theorem executeRag_attributes : Attributes subject A (AgentRuntime.executeRag args) := by
  refine ⟨trivial, fun reply _ => ?_⟩
  cases reply with
  | error exc => exact trivial
  | ok response => exact persistEvent_attributes.bind fun _ => trivial

theorem executeTransferWorkflow_attributes (hA : ∀ {o r}, A o r → GraphHonest subject o r) :
    Attributes subject A (rt.executeTransferWorkflow args) := by
  refine ⟨trivial, fun reply _ => ?_⟩
  cases reply with
  | error exc => exact trivial
  | ok response => exact (ainvoke_attributes hA).bind fun _ => trivial

end Walk

/-! ## The runs -/

/-- The run goes through the graph. -/
def AgentRuntime.UsesGraph (rt : AgentRuntime) (args : RunArgs) : Prop :=
  args.resumeFromState.isSome ∨ rt.routeOf args = none ∨
    ∃ route, rt.routeOf args = some route ∧
      (route.kind = .transferStateMachine ∨ route.kind = .direct ∧ route.suggestedTools = [])

/-- What a run has to rely on: the graph if it goes through the graph, the plan if it
executes one. -/
def RunHonest (rt : AgentRuntime) (args : RunArgs) (subject : String) (o : Op) (r : o.Res) :
    Prop :=
  (rt.UsesGraph args → GraphHonest subject o r) ∧ (rt.Plans args → PlanHonest rt.py args o r)

section Runs

variable {rt : AgentRuntime} {args : RunArgs} {context : TrustedContext}

theorem runRoute_attributes {route : Route} (hcontext : args.trustedContext = some context)
    (hroute : rt.routeOf args = some route) :
    Attributes context.subjectId (RunHonest rt args context.subjectId)
      (rt.runRoute args route) := by
  have graph (h : rt.UsesGraph args) {o : Op} {r : o.Res}
      (hr : RunHonest rt args context.subjectId o r) : GraphHonest context.subjectId o r := hr.1 h
  rw [AgentRuntime.runRoute]
  cases hresume : args.resumeFromState with
  | some old =>
    have hgraph : rt.UsesGraph args := .inl (by rw [hresume]; rfl)
    cases route.kind with
    | reject => exact trivial
    | _ => exact runThroughGraph_attributes (graph hgraph)
  | none =>
    cases hkind : route.kind with
    | direct =>
      cases htools : route.suggestedTools with
      | nil =>
        exact runThroughGraph_attributes
          (graph (.inr (.inr ⟨route, hroute, .inr ⟨hkind, htools⟩⟩)))
      | cons toolName rest => exact executeDirect_attributes hcontext
    | planner =>
      exact Relies.mono (fun hr => hr.2 ⟨hresume, route, hroute, hkind⟩) id
        executePlanner_attributes
    | rag => exact executeRag_attributes
    | reject => exact trivial
    | transferStateMachine =>
      exact executeTransferWorkflow_attributes
        (graph (.inr (.inr ⟨route, hroute, .inl hkind⟩)))

/-- **A run** acts for the user it was started for, as long as what it relies on does. -/
theorem run_attributes (hcontext : args.trustedContext = some context) :
    Attributes context.subjectId (RunHonest rt args context.subjectId) (rt.run args) := by
  rw [AgentRuntime.run]
  cases hrouter : rt.router with
  | none =>
    have hnone : rt.routeOf args = none := by
      rw [AgentRuntime.routeOf, hrouter]
      rfl
    have graph : Attributes context.subjectId (RunHonest rt args context.subjectId)
        (rt.runThroughGraph args) :=
      runThroughGraph_attributes fun hr => hr.1 (.inr (.inl hnone))
    cases args.resumeFromState.isNone with
    | true => exact persistEvent_attributes.bind fun _ => graph
    | false => exact graph
  | some router =>
    have hroute : rt.routeOf args = some (router.route rt.py args.userMessage) := by
      rw [AgentRuntime.routeOf, hrouter]
      rfl
    have routed := runRoute_attributes hcontext hroute
    cases args.resumeFromState.isNone with
    | true =>
      exact persistEvent_attributes.bind fun _ => persistEvent_attributes.bind fun _ => routed
    | false => exact persistEvent_attributes.bind fun _ => routed

end Runs

/-- Every call of a tool that acts for a user names the user. -/
def IdentityKept (subject : String) (es : List (Event Op Op.Res)) : Prop :=
  ∀ site call answer, ⟨.callTool site call, answer⟩ ∈ es → call.ActsForUser →
    NamesUser subject call.arguments

/-- **Identity**: it is the trusted one wherever the model, the approvals and the thread do
not name another. -/
theorem identity_kept (rt : AgentRuntime) :
    (∀ args context es c, Trace (rt.run args) es c → args.trustedContext = some context →
      (∀ e ∈ es, RunHonest rt args context.subjectId e.op e.res) →
      IdentityKept context.subjectId es) ∧
    ∀ threadId value runId subject es c, Trace (rt.resume threadId value runId) es c →
      (∀ e ∈ es, ResumeHonest subject e.op e.res) → IdentityKept subject es := by
  refine ⟨fun args context es c ht hcontext hes site call answer he => ?_,
    fun threadId value runId subject es c ht hes site call answer he => ?_⟩
  · exact (run_attributes hcontext).trace ht hes _ he
  · exact resume_attributes.trace ht hes _ he

/-! ## Two runs -/

/-- Somebody's balance was asked for. -/
def asksForBalance (es : List (Event Op Op.Res)) : Bool :=
  es.any fun e =>
    match e.op with
    | .callTool _ call => call.name = .str "get_balance"
    | _ => false

/-- The balance of `bob` was asked for. -/
def asksForBob (es : List (Event Op Op.Res)) : Bool :=
  es.any fun e =>
    match e.op with
    | .callTool _ ⟨name, .obj [(field, .str user)]⟩ =>
      name = .str "get_balance" && field = "user_id" && user = "bob"
    | _ => false

/-- The arguments the model writes, of a request for the balance of `bob`. -/
def bobArgs : Json := .obj [("user_id", .str "bob")]

/-- A runtime without a router that can read them. -/
def bobRuntime : AgentRuntime := { demoRuntime with py := readingPy bobArgs }

/-- `alice` is logged in, the model names `bob`, and the graph passes that on. -/
theorem graph_names_other_user :
    ∃ es c, Trace (bobRuntime.run (firstRequest "balance")) es c ∧ ¬ IdentityKept "alice" es := by
  have hrun : ((runAlone exec (answering (.ai "" [⟨"call-1", "get_balance", bobArgs⟩]) .approved) 60
    (bobRuntime.run (firstRequest "balance")) Db.empty).map
    fun x => asksForBob x.1).getD false = true := by decide +kernel
  obtain ⟨es, c, ht, hes⟩ := exists_trace (P := asksForBob) hrun
  refine ⟨es, c, ht, fun hkept => ?_⟩
  obtain ⟨⟨o, r⟩, he, hm⟩ := List.any_eq_true.mp hes
  simp only at hm
  split at hm
  · rename_i site name field user
    simp only [Bool.and_eq_true, decide_eq_true_eq] at hm
    obtain ⟨⟨rfl, rfl⟩, rfl⟩ := hm
    have hnames := hkept site _ r he (actsForUser_str.mpr (by decide))
    simp [NamesUser, Json.get?] at hnames
  · cases hm

/-- On the direct route the server names `alice`, and the model nobody. -/
theorem direct_route_names_user :
    ∃ es c, Trace ((registeredRuntime demoPy).run (firstRequest "balance")) es c ∧
      asksForBalance es = true ∧ IdentityKept "alice" es := by
  have hrun : ((runAlone exec (answering (.ai (braced "") []) .approved) 60
    ((registeredRuntime demoPy).run (firstRequest "balance")) Db.empty).map
    fun x => asksForBalance x.1).getD false = true := by decide +kernel
  obtain ⟨es, c, ht, hes⟩ := exists_trace (P := asksForBalance) hrun
  have hroute : ((registeredRuntime demoPy).routeOf (firstRequest "balance")).map
      (fun route => (route.kind, route.suggestedTools)) =
      some (.direct, ["get_balance", "get_account_summary"]) := rfl
  obtain ⟨route, hroute, hkind⟩ := Option.map_eq_some_iff.mp hroute
  obtain ⟨hdirect, htools⟩ := Prod.ext_iff.mp hkind
  refine ⟨es, c, ht, hes,
    (identity_kept _).1 _ ⟨"alice", "default"⟩ es c ht rfl fun e _ => ⟨?_, ?_⟩⟩
  · rintro (h | h | ⟨route', h, hkind'⟩)
    · cases h
    · rw [h] at hroute
      cases hroute
    · obtain rfl := Option.some.inj (h.symm.trans hroute)
      rcases hkind' with h | ⟨-, h⟩
      · cases hdirect.symm.trans h
      · cases htools.symm.trans h
  · rintro ⟨-, route', h, hkind'⟩
    obtain rfl := Option.some.inj (h.symm.trans hroute)
    cases hdirect.symm.trans hkind'

end BankingAgent
