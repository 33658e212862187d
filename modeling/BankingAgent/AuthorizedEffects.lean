import BankingAgent.GraphProtocol
import BankingAgent.NodeProtocol
import BankingAgent.Async.Sequential

/-!
# No side effect without authorization

The graph and the planner ask the gateway before they call a tool. What they know of its
answer is a position: nothing, that the gateway wants a human to look at the call, or that
the call may go ahead. A call of a tool with a side effect takes the last of them away, so
that each authorization pays for one call.

The direct route asks nobody, and the planner goes ahead where the gateway wants a human.
-/

namespace BankingAgent

open Async

/-- `ToolDefinition.side_effect` of a tool; what the registry does not know has none. -/
def AgentRuntime.sideEffect (rt : AgentRuntime) (toolName : Json) : Bool :=
  match rt.toolRegistry.bind fun registry => registry.get? toolName with
  | some definition => definition.sideEffect
  | none => false

/-- `details["args"]` of an operation that stands for a tool call. -/
def Operation.args (op : Operation) : Json := (op.details.get? "args").getD .null

/-- The operation stands for the call. -/
def Operation.For (op : Operation) (call : ToolCall) : Prop :=
  op.name = call.name ∧ op.args = call.arguments

/-- `decision == "approved"`, of the value a run is resumed with. -/
def Approves (approval : Json) : Prop := approval.get? "decision" = some (.str "approved")

/-- The payload of an interrupt shows the call. -/
def Shows (payload : Json) (call : ToolCall) : Prop :=
  payload.get? "tool_name" = some call.name ∧
    payload.get? "tool_args" = some call.arguments

/-- The call as the approval leaves it. -/
def ToolCall.approved (call : ToolCall) (approval : Json) : ToolCall :=
  { call with arguments := (approval.get? "canonical_args").getD call.arguments }

/-- Calls of tools and questions to the gateway. -/
def Op.AtGate : Op → Prop
  | callTool _ _ => True
  | authorize _ => True
  | _ => False

/-- At the gate nothing has happened since. -/
def Undisturbed (es : List (Event Op Op.Res)) : Prop := ∀ e ∈ es, ¬ e.op.AtGate

/-- The last thing that happened at the gate is that the gateway gave the decision on the
call. -/
def Decided (before : List (Event Op Op.Res)) (call : ToolCall) (decision : ApprovalDecision)
    (since : List (Event Op Op.Res)) : Prop :=
  ∃ earlier op d, before = earlier ++ ⟨.authorize op, d⟩ :: since ∧ op.For call ∧
    d.decision = decision ∧ Undisturbed since

/-- The gateway has approved the call, or it has wanted a human to look at it and the
interrupt for it has returned an approval. -/
def Authorized (before : List (Event Op Op.Res)) (call : ToolCall) : Prop :=
  (∃ since, Decided before call .approved since) ∨
    ∃ since asked payload approval, Decided before asked .pending since ∧
      ⟨.interrupt payload (some approval), ()⟩ ∈ since ∧ Shows payload asked ∧
      Approves approval ∧ call = asked.approved approval

/-- Every call of a tool with a side effect was authorized before, for itself. -/
def EffectsAuthorized (rt : AgentRuntime) (es : List (Event Op Op.Res)) : Prop :=
  ∀ before site call answer after, es = before ++ ⟨.callTool site call, answer⟩ :: after →
    rt.sideEffect call.name = true → Authorized before call

/-! ## The protocol of the gate -/

/-- What is known of the call at hand. -/
inductive GatePos : Type where
  | closed
  /-- the gateway wants a human to look at it -/
  | asked (call : ToolCall)
  | granted (call : ToolCall)
  /-- a step of a plan goes ahead although the gateway wants a human to look at it -/
  | bypassed

/-- Where an answer of the gateway leads. -/
def GatePos.decided (op : Operation) (d : AuthorizationDecision) : GatePos :=
  match d.decision with
  | .approved => .granted ⟨op.name, op.args⟩
  | .denied => .closed
  | .pending => .asked ⟨op.name, op.args⟩

/-- The gateway wants a human to look at a tool with a side effect. -/
def AgentRuntime.Hesitates (rt : AgentRuntime) (op : Operation) (d : AuthorizationDecision) :
    Prop :=
  rt.sideEffect op.name = true ∧ d.decision = .pending

/-- What may happen at the gate. Only a plan may bypass it. -/
inductive GateMove (rt : AgentRuntime) (planned : Prop) :
    GatePos → (o : Op) → o.Res → GatePos → Prop
  | idle {p : GatePos} {o : Op} (r : o.Res) (away : ¬ o.AtGate) : GateMove rt planned p o r p
  | authorize {p : GatePos} (op : Operation) (d : AuthorizationDecision) :
      GateMove rt planned p (.authorize op) d (.decided op d)
  | approve {call : ToolCall} (payload approval : Json) (shown : Shows payload call)
      (approves : Approves approval) :
      GateMove rt planned (.asked call) (.interrupt payload (some approval)) ()
        (.granted (call.approved approval))
  | effect {call : ToolCall} (site : Site) (answer : Except Exn ToolResult) :
      GateMove rt planned (.granted call) (.callTool site call) answer .closed
  | free {p : GatePos} {call : ToolCall} (site : Site) (answer : Except Exn ToolResult)
      (pure : rt.sideEffect call.name = false) :
      GateMove rt planned p (.callTool site call) answer .closed
  | bypass {p : GatePos} (op : Operation) (d : AuthorizationDecision) (plan : planned)
      (hesitates : rt.Hesitates op d) : GateMove rt planned p (.authorize op) d .bypassed
  | astray {o : Op} (r : o.Res) : GateMove rt planned .bypassed o r .bypassed

/-! ## What the positions say about the past -/

section Past

variable {rt : AgentRuntime} {planned : Prop} {before es : List (Event Op Op.Res)}
  {call : ToolCall}

/-- A decision stands until something happens at the gate. -/
theorem Decided.snoc {decision : ApprovalDecision} {since : List (Event Op Op.Res)}
    {e : Event Op Op.Res} (h : Decided before call decision since) (he : ¬ e.op.AtGate) :
    Decided (before ++ [e]) call decision (since ++ [e]) := by
  obtain ⟨earlier, op, d, rfl, hfor, hd, hund⟩ := h
  refine ⟨earlier, op, d, by simp, hfor, hd, fun x hx => ?_⟩
  rcases List.mem_append.mp hx with hx | hx
  · exact hund x hx
  · rw [List.mem_singleton.mp hx]
    exact he

/-- So does an authorization. -/
theorem Authorized.snoc {e : Event Op Op.Res} (h : Authorized before call)
    (he : ¬ e.op.AtGate) : Authorized (before ++ [e]) call := by
  rcases h with ⟨since, h⟩ | ⟨since, asked, payload, approval, h, hmem, hshows, happ, rfl⟩
  · exact .inl ⟨_, h.snoc he⟩
  · exact .inr
      ⟨_, asked, payload, approval, h.snoc he, List.mem_append_left _ hmem, hshows, happ, rfl⟩

/-- What a position knows. -/
def GatePos.Justified (before : List (Event Op Op.Res)) : GatePos → Prop
  | closed => True
  | asked call => ∃ since, Decided before call .pending since
  | granted call => Authorized before call
  | bypassed => False

/-- One step at the gate. -/
theorem GateMove.justified {p q : GatePos} {o : Op} {r : o.Res}
    (hes : planned → ∀ op d, (⟨o, r⟩ : Event Op Op.Res) = ⟨.authorize op, d⟩ → ¬ rt.Hesitates op d)
    (h : GateMove rt planned p o r q) (hp : p.Justified before) :
    q.Justified (before ++ [⟨o, r⟩]) := by
  have decided (op : Operation) (d : AuthorizationDecision) :
      Decided (before ++ [⟨.authorize op, d⟩]) ⟨op.name, op.args⟩ d.decision [] :=
    ⟨before, op, d, rfl, ⟨rfl, rfl⟩, rfl, by rintro _ ⟨⟩⟩
  cases h with
  | idle r away =>
    cases p with
    | closed => exact trivial
    | asked call =>
      obtain ⟨since, h⟩ := hp
      exact ⟨_, h.snoc away⟩
    | granted call => exact Authorized.snoc hp away
    | bypassed => exact hp
  | authorize op d =>
    have h := decided op d
    rw [GatePos.decided]
    cases hd : d.decision with
    | approved => exact .inl ⟨_, hd ▸ h⟩
    | denied => exact trivial
    | pending => exact ⟨_, hd ▸ h⟩
  | approve payload approval shown approves =>
    obtain ⟨since, h⟩ := hp
    exact .inr ⟨_, _, payload, approval, h.snoc id, by simp, shown, approves, rfl⟩
  | effect site answer => exact trivial
  | free site answer pure => exact trivial
  | bypass op d plan hesitates => exact absurd hesitates (hes plan op d rfl)
  | astray r => exact hp

/-- **Along a path**: what has a side effect was authorized. -/
theorem path_authorized {p q : GatePos} (h : Path (GateMove rt planned) p es q) :
    ∀ before : List (Event Op Op.Res), p.Justified before →
      (planned → ∀ op d, ⟨.authorize op, d⟩ ∈ es → ¬ rt.Hesitates op d) →
      ∀ {earlier later : List (Event Op Op.Res)} {site : Site} {call : ToolCall}
        {answer : Except Exn ToolResult},
        es = earlier ++ ⟨.callTool site call, answer⟩ :: later → rt.sideEffect call.name = true →
        Authorized (before ++ earlier) call := by
  induction h with
  | nil p =>
    intro before _ _ earlier later site call answer h
    exact absurd h (by simp)
  | @cons p q p' o r es hmove _ ih =>
    intro before hp hes earlier later site call answer h heffect
    cases earlier with
    | nil =>
      rw [List.nil_append, List.cons.injEq] at h
      obtain ⟨h, -⟩ := h
      cases h
      rw [List.append_nil]
      cases hmove with
      | idle r away => exact absurd trivial away
      | effect site answer => exact hp
      | free site answer pure => exact absurd heffect (by simp [pure])
      | astray r => exact hp.elim
    | cons e earlier =>
      obtain ⟨rfl, rfl⟩ := List.cons.inj h
      have hq := hmove.justified (fun plan op d he => hes plan op d (he ▸ List.mem_cons_self)) hp
      have := ih _ hq (fun plan op d hmem => hes plan op d (List.mem_cons_of_mem _ hmem)) rfl heffect
      rwa [List.append_assoc] at this

end Past

/-! ## The walk -/

/-- Whatever is known at the start, the coroutine keeps to the protocol of the gate. -/
def KeepsGate {α : Type} (rt : AgentRuntime) (planned : Prop) (c : Co α) : Prop :=
  ∀ p, Follows (GateMove rt planned) (fun _ _ => True) c p

section Walk

variable {rt : AgentRuntime} {planned : Prop} {α β : Type} {s : AgentState} {tc : ToolRequest}
  {key : Option String}

theorem keepsGate_ret {a : α} : KeepsGate rt planned (.ret a) := fun _ => trivial

theorem keepsGate_raised {x : Except Exn α} : KeepsGate rt planned (raised x) := by
  cases x <;> exact fun _ => trivial

theorem keepsGate_raise {e : Exn} : KeepsGate rt planned (.raise e : Co α) := fun _ => trivial

/-- One after the other. -/
theorem KeepsGate.bind {c : Co α} {f : α → Co β} (hc : KeepsGate rt planned c)
    (hf : ∀ a, KeepsGate rt planned (f a)) : KeepsGate rt planned (c >>= f) :=
  fun p => Follows.bind (fun _ => hf _ _) (fun _ => trivial) (hc p)

theorem KeepsGate.attempt {c : Co α} (hc : KeepsGate rt planned c) :
    KeepsGate rt planned c.attempt := fun p => Follows.attempt (hc p)

theorem KeepsGate.perform {o : Op} {k : o.Res → Co α} (ho : ¬ o.AtGate)
    (hk : ∀ r, KeepsGate rt planned (k r)) : KeepsGate rt planned (perform o >>= k) :=
  fun p r => ⟨p, .idle r ho, hk r p⟩

/-- What stays away from the gate keeps to its protocol. -/
theorem keepsGate_of_only {c : Co α} (h : c.Only fun o => ¬ o.AtGate) :
    KeepsGate rt planned c :=
  fun _ => follows_of_only (fun ho r => .idle r ho) (fun _ => trivial) h

theorem persistEvent_keepsGate {runId : String} {seq : ℕ} {kind : EventKind}
    {payload : List (String × Json)} :
    KeepsGate rt planned (persistEvent runId seq kind payload) :=
  keepsGate_of_only ⟨id, fun _ => trivial⟩

/-! ### The tool node -/

theorem Op.OnRecords.away {o : Op} (h : o.OnRecords) : ¬ o.AtGate := by
  cases o <;> first | exact id | exact h.elim

/-- A call that was granted is answered from the store or takes place. -/
theorem answerCall_follows_gate {number : ℕ} {sessionId : Option String} :
    Follows (GateMove rt planned) (fun _ _ => True) (rt.answerCall number sessionId tc)
      (.granted ⟨.str tc.name, tc.args⟩) := by
  -- the store is looked at and written to with the grant in hand
  have holds {γ : Type} {c : Co γ} (h : c.Only Op.OnRecords) :
      Follows (GateMove rt planned) (fun p _ => p = .granted ⟨.str tc.name, tc.args⟩) c
        (.granted ⟨.str tc.name, tc.args⟩) :=
    follows_of_only (fun ho r => .idle r ho.away) (fun _ => rfl) h
  refine Follows.bind ?_ (fun _ => trivial) (holds (checkRecord_onRecords _))
  rintro _ answer rfl
  cases answer with
  | some answer => exact trivial
  | none =>
    refine Follows.bind (Q := fun _ _ => True) ?_ (fun _ => trivial) ?_
    · exact fun _ => trivial
    · refine Follows.bind ?_ (fun _ => trivial) (holds (reserveUnlessPresent_onRecords _))
      rintro _ _ rfl
      refine Walk.callTool (fun result => ⟨_, .effect _ _, ?_⟩) fun exc =>
        ⟨_, .effect _ _, trivial⟩
      exact (keepsGate_of_only ((recordOutcome_onRecords _).mono Op.OnRecords.away)).bind
        (fun _ => keepsGate_ret) _

/-- Only an approval lets the call through, with the arguments it carries. -/
theorem readApproval_ok {py : PyLib} {approval : Json} {call : ToolRequest}
    (h : readApproval py tc approval = .ok call) :
    Approves approval ∧
      (⟨.str call.name, call.args⟩ : ToolCall) = ToolCall.approved ⟨.str tc.name, tc.args⟩ approval := by
  rw [readApproval] at h
  split at h <;> cases h
  exact ⟨‹_›, rfl⟩

/-- The gate lets a call through only once it is granted. -/
theorem authorizeCall_follows_gate {resumes : List Json} {n : ℕ} {sid : Option String}
    (p : GatePos) :
    Follows (GateMove rt planned)
      (fun q out => ∀ call interrupts, out = .ok (.ok call, interrupts) →
        q = .granted ⟨.str call.name, call.args⟩)
      (rt.authorizeCall sid resumes n tc) p := by
  refine fun d => ⟨_, .authorize _ d, ?_⟩
  simp only [Prog.ret_bind, GatePos.decided]
  cases d.decision with
  | approved =>
    rintro call interrupts ⟨⟩
    rfl
  | denied => rintro call interrupts ⟨⟩
  | pending =>
    simp only [interrupt]
    cases resumes[n]? with
    | none => exact fun _ => ⟨_, .idle _ id, by rintro call interrupts ⟨⟩⟩
    | some approval =>
      cases hread : readApproval rt.py tc approval with
      | error answer =>
        exact fun _ => ⟨_, .idle _ id, by
          rintro call interrupts h
          simp [hread] at h⟩
      | ok call =>
        obtain ⟨happ, hcall⟩ := readApproval_ok hread
        refine fun _ => ⟨_, .approve _ approval ⟨rfl, rfl⟩ happ, ?_⟩
        rintro _ _ h
        simp only [hread] at h
        cases h
        exact congrArg GatePos.granted hcall.symm

/-- One call of the tool node is made only when it is granted. -/
theorem handleCall_keepsGate {resumes : List Json} {progress : Progress} :
    KeepsGate rt planned (rt.handleCall s resumes progress tc) := by
  rw [AgentRuntime.handleCall]
  cases rt.validationError tc with
  | some error => exact keepsGate_ret
  | none =>
    simp only
    split
    · exact keepsGate_ret
    · refine fun p => Follows.bind ?_ (fun _ => trivial) (authorizeCall_follows_gate p)
      intro q gate hgate
      obtain ⟨answer | call, interrupts⟩ := gate
      · exact trivial
      · obtain rfl := hgate call interrupts rfl
        refine Follows.bind (Q := fun _ _ => True) ?_ (fun _ => trivial) answerCall_follows_gate
        exact fun _ => trivial

/-- A grant is for one call: the next one comes to the gate again. -/
theorem handleCalls_keepsGate {resumes : List Json} (calls : List ToolRequest) :
    ∀ {progress : Progress}, KeepsGate rt planned (rt.handleCalls s resumes calls progress) := by
  induction calls with
  | nil => exact keepsGate_ret
  | cons tc rest ih =>
    exact handleCall_keepsGate.bind fun _ => ih.bind fun _ => keepsGate_ret

/-! ### The graph -/

theorem runNode_keepsGate {cp : Checkpoint} (node : GraphNode) :
    KeepsGate rt planned (rt.runNode cp node) := by
  cases node with
  | agent =>
    refine KeepsGate.bind ?_ fun _ => keepsGate_ret
    rw [AgentRuntime.agentNode]
    split
    · exact keepsGate_raise
    · refine KeepsGate.perform id fun reply => ?_
      cases reply with
      | error exc => exact keepsGate_raise
      | ok response => exact keepsGate_ret
  | tool =>
    exact ((handleCalls_keepsGate _).bind fun _ => keepsGate_ret).bind fun _ => keepsGate_ret

/-- The graph keeps to the gate, from any checkpoint. -/
theorem runGraph_keepsGate (fuel : ℕ) :
    ∀ {cp : Checkpoint}, KeepsGate rt planned (rt.runGraph fuel cp) := by
  induction fuel with
  | zero =>
    intro cp
    rw [AgentRuntime.runGraph]
    cases cp.next with
    | none => exact keepsGate_ret
    | some node => exact keepsGate_raise
  | succ fuel ih =>
    intro cp
    rw [AgentRuntime.runGraph]
    cases cp.next with
    | none => exact keepsGate_ret
    | some node =>
      refine (runNode_keepsGate node).attempt.bind fun out => ?_
      cases out with
      | ok cp' => exact KeepsGate.perform id fun _ => ih
      | error exc =>
        cases exc with
        | graphInterrupt payload => exact keepsGate_ret
        | _ => exact keepsGate_raise

theorem ainvoke_keepsGate {threadId : String} {input : GraphInput} :
    KeepsGate rt planned (rt.ainvoke threadId input) :=
  KeepsGate.perform id fun _ => KeepsGate.perform id fun _ => runGraph_keepsGate _

/-- So does a resumed run, whatever the value it is resumed with. -/
theorem resume_keepsGate {threadId runId : String} {value : Json} :
    KeepsGate rt planned (rt.resume threadId value runId) := by
  refine KeepsGate.bind (KeepsGate.perform id fun old => ?_) fun _ =>
    persistEvent_keepsGate.bind fun _ => keepsGate_ret
  cases old with
  | none => exact keepsGate_raise
  | some cp => exact KeepsGate.perform id fun _ => runGraph_keepsGate _

theorem runThroughGraph_keepsGate {args : RunArgs} :
    KeepsGate rt planned (rt.runThroughGraph args) := by
  refine ainvoke_keepsGate.attempt.bind fun out => ?_
  cases out with
  | error exc =>
    cases exc with
    | runtime message => exact persistEvent_keepsGate.bind fun _ => keepsGate_raise
    | _ => exact keepsGate_raise
  | ok result =>
    simp only
    cases result.interrupt with
    | some info => exact persistEvent_keepsGate.bind fun _ => keepsGate_ret
    | none => exact persistEvent_keepsGate.bind fun _ => keepsGate_ret

/-! ### The other routes -/

/-- No context, or one that names nobody. -/
def RunArgs.Unauthenticated (args : RunArgs) : Prop :=
  ∀ context ∈ args.trustedContext, context.subjectId = "anonymous" ∨ context.subjectId = ""

/-- Only a tool that is called needs authorization, and only if it has a side effect. -/
theorem executeDirect_keepsGate {args : RunArgs} {toolName : String}
    (hcalled : ¬ (toolName ∈ identityTools ∧ args.Unauthenticated) →
      rt.sideEffect (.str toolName) = false) :
    KeepsGate rt planned (rt.executeDirect args toolName) := by
  unfold AgentRuntime.executeDirect
  extract_lets unauthenticated
  have hiff : unauthenticated = true ↔ args.Unauthenticated := by
    unfold unauthenticated RunArgs.Unauthenticated
    cases args.trustedContext <;> simp
  split
  · exact keepsGate_ret
  · rename_i hauth
    have hpure := hcalled fun h => hauth ⟨h.1, hiff.mpr h.2⟩
    refine KeepsGate.perform id fun reply => ?_
    split
    · exact keepsGate_ret
    · rename_i extracted _
      cases AgentRuntime.injectIdentity toolName args.trustedContext extracted with
      | error exc => exact keepsGate_raise
      | ok toolArgs =>
        refine fun p => Walk.callTool (fun result => ⟨_, .free _ _ hpure, ?_⟩) fun exc =>
          ⟨_, .free _ _ hpure, trivial⟩
        exact persistEvent_keepsGate.bind (fun _ => keepsGate_ret) _

theorem attemptCallTool_keepsGate {site : Site} {call : ToolCall}
    {k : Except Exn ToolResult → Co α} {p q : GatePos}
    (hp : ∀ answer, GateMove rt planned p (.callTool site call) answer q)
    (hk : ∀ answer, KeepsGate rt planned (k answer)) :
    Follows (GateMove rt planned) (fun _ _ => True)
      ((MCPClient.callTool site call).attempt >>= k) p :=
  Walk.attemptCallTool fun answer => ⟨q, hp answer, hk answer q⟩

/-- A step that is not denied goes ahead: granted, without a side effect, or past the gate. -/
theorem step_admitted {p : GatePos} {site : Site} {op : Operation} {d : AuthorizationDecision}
    (hd : d.decision ≠ .denied) :
    ∃ q q', GateMove rt True p (.authorize op) d q ∧
      ∀ answer, GateMove rt True q (.callTool site ⟨op.name, op.args⟩) answer q' := by
  cases hdec : d.decision with
  | denied => exact absurd hdec hd
  | approved =>
    refine ⟨_, .closed, .authorize op d, fun answer => ?_⟩
    simp only [GatePos.decided, hdec]
    exact .effect site answer
  | pending =>
    cases heffect : rt.sideEffect op.name with
    | true => exact ⟨_, _, .bypass op d trivial ⟨heffect, hdec⟩, fun answer => .astray answer⟩
    | false => exact ⟨_, _, .authorize op d, fun answer => .free site answer heffect⟩

/-- A step of a plan asks at the gate before it calls its tool. -/
theorem executeStep_keepsGate {plan : ExecutionPlan} {step : PlanStep} :
    KeepsGate rt True (rt.executeStep plan step) := by
  rcases rt.executeStep_cases plan step with ⟨_, h⟩ | ⟨_, h⟩ | ⟨toolName, kind, -, -, h⟩
  · rw [h]
    exact keepsGate_ret
  · rw [h]
    exact keepsGate_raise
  · rw [h]
    intro p d
    simp only [Prog.ret_bind]
    by_cases hd : d.decision = .denied
    · refine ⟨_, .authorize _ d, ?_⟩
      rw [if_pos hd]
      exact trivial
    · obtain ⟨q, q', hask, hcall⟩ := step_admitted hd
      refine ⟨q, hask, ?_⟩
      rw [if_neg hd]
      exact attemptCallTool_keepsGate hcall fun answer => keepsGate_ret

/-- To make a plan is to ask the model, not the gateway. -/
theorem plan_keepsGate {planId goal : String} (attempts : ℕ) :
    KeepsGate rt planned (rt.plan planId goal attempts) := by
  induction attempts with
  | zero => exact keepsGate_ret
  | succ attempts ih =>
    refine KeepsGate.perform id fun reply => ?_
    cases reply with
    | error exc => exact ih
    | ok response =>
      simp only
      cases ExecutionPlan.ofText rt.py planId goal response.content with
      | none => exact ih
      | some plan' =>
        simp only
        split
        · exact keepsGate_ret
        · exact ih

theorem executeSteps_keepsGate {plan : ExecutionPlan} (steps : List PlanStep) :
    ∀ {results : List StepResult}, KeepsGate rt True (rt.executeSteps plan steps results) := by
  induction steps with
  | nil => exact keepsGate_ret
  | cons step rest ih =>
    refine executeStep_keepsGate.bind fun result => keepsGate_raised.bind fun verdict => ?_
    split
    · exact ih
    · split
      · exact executeStep_keepsGate.bind fun again => keepsGate_raised.bind fun _ => ih
      · split
        · exact keepsGate_ret
        · exact ih

/-- A planned run may pass the gate that hesitates. -/
theorem executePlanner_keepsGate {args : RunArgs} {route : Route} :
    KeepsGate rt True (rt.executePlanner args route) := by
  refine (plan_keepsGate 3).bind fun plan => ?_
  cases plan with
  | none => exact keepsGate_ret
  | some plan =>
    refine keepsGate_raised.bind fun errors => ?_
    split
    · exact keepsGate_ret
    · refine persistEvent_keepsGate.bind fun _ => (executeSteps_keepsGate _).bind fun outcome => ?_
      cases outcome <;> exact keepsGate_ret

theorem executeRag_keepsGate {args : RunArgs} :
    KeepsGate rt planned (AgentRuntime.executeRag args) := by
  refine KeepsGate.perform id fun reply => ?_
  cases reply with
  | error exc => exact keepsGate_raise
  | ok response => exact persistEvent_keepsGate.bind fun _ => keepsGate_ret

theorem executeTransferWorkflow_keepsGate {args : RunArgs} :
    KeepsGate rt planned (rt.executeTransferWorkflow args) := by
  refine KeepsGate.perform id fun reply => ?_
  cases reply with
  | error exc => exact keepsGate_ret
  | ok response => exact ainvoke_keepsGate.bind fun _ => keepsGate_ret

end Walk

/-! ## The runs -/

/-- The route of a run, if a router is there to choose one. -/
def AgentRuntime.routeOf (rt : AgentRuntime) (args : RunArgs) : Option Route :=
  rt.router.map fun router => router.route rt.py args.userMessage

/-- The run executes a plan. -/
def AgentRuntime.Plans (rt : AgentRuntime) (args : RunArgs) : Prop :=
  args.resumeFromState = none ∧ ∃ route, rt.routeOf args = some route ∧ route.kind = .planner

/-- The run calls the tool directly. -/
def AgentRuntime.CallsDirectly (rt : AgentRuntime) (args : RunArgs) (toolName : String) : Prop :=
  args.resumeFromState = none ∧ (∃ route, rt.routeOf args = some route ∧ route.kind = .direct ∧
    route.suggestedTools.head? = some toolName) ∧
    ¬ (toolName ∈ identityTools ∧ args.Unauthenticated)

/-- Behind a router: the plan may pass the gate, and a direct call does not come to it. -/
theorem runRoute_keepsGate {rt : AgentRuntime} {args : RunArgs} {route : Route}
    (hroute : rt.routeOf args = some route)
    (hdirect : ∀ toolName, rt.CallsDirectly args toolName → rt.sideEffect (.str toolName) = false) :
    KeepsGate rt (rt.Plans args) (rt.runRoute args route) := by
  rw [AgentRuntime.runRoute]
  cases hresume : args.resumeFromState with
  | some old =>
    cases route.kind with
    | reject => exact keepsGate_ret
    | _ => exact runThroughGraph_keepsGate
  | none =>
    cases hkind : route.kind with
    | direct =>
      cases htools : route.suggestedTools with
      | nil => exact runThroughGraph_keepsGate
      | cons toolName rest =>
        exact executeDirect_keepsGate
          fun hauth => hdirect toolName
            ⟨hresume, ⟨route, hroute, hkind, by rw [htools]; rfl⟩, hauth⟩
    | planner =>
      have hplans : rt.Plans args ↔ True := iff_true_intro ⟨hresume, route, hroute, hkind⟩
      rw [propext hplans]
      exact executePlanner_keepsGate
    | rag => exact executeRag_keepsGate
    | reject => exact keepsGate_ret
    | transferStateMachine => exact executeTransferWorkflow_keepsGate

/-- **A run** keeps to the gate, on whatever route. -/
theorem run_keepsGate {rt : AgentRuntime} {args : RunArgs}
    (hdirect : ∀ toolName, rt.CallsDirectly args toolName → rt.sideEffect (.str toolName) = false) :
    KeepsGate rt (rt.Plans args) (rt.run args) := by
  rw [AgentRuntime.run]
  cases hrouter : rt.router with
  | none =>
    cases args.resumeFromState.isNone with
    | true => exact persistEvent_keepsGate.bind fun _ => runThroughGraph_keepsGate
    | false => exact runThroughGraph_keepsGate
  | some router =>
    have hroute : rt.routeOf args = some (router.route rt.py args.userMessage) := by
      rw [AgentRuntime.routeOf, hrouter]
      rfl
    have routed := runRoute_keepsGate hroute hdirect
    cases args.resumeFromState.isNone with
    | true => exact persistEvent_keepsGate.bind fun _ => persistEvent_keepsGate.bind fun _ => routed
    | false => exact persistEvent_keepsGate.bind fun _ => routed

/-- **Authorization before side effects**: unless a tool with a side effect is called
directly, or the gateway wants a human to look at such a step of a plan. -/
theorem side_effects_authorized (rt : AgentRuntime) :
    (∀ args es c, Trace (rt.run args) es c →
      (∀ toolName, rt.CallsDirectly args toolName → rt.sideEffect (.str toolName) = false) →
      (rt.Plans args → ∀ op d, ⟨.authorize op, d⟩ ∈ es → ¬ rt.Hesitates op d) →
      EffectsAuthorized rt es) ∧
    ∀ threadId value runId es c, Trace (rt.resume threadId value runId) es c →
      EffectsAuthorized rt es := by
  refine ⟨fun args es c ht hdirect hplan before site call answer after hes heffect => ?_,
    fun threadId value runId es c ht before site call answer after hes heffect => ?_⟩
  · obtain ⟨p, hpath, -⟩ := (run_keepsGate hdirect .closed).path ht
    exact path_authorized hpath [] trivial hplan hes heffect
  · have hkeeps : KeepsGate rt False (rt.resume threadId value runId) := resume_keepsGate
    obtain ⟨p, hpath, -⟩ := (hkeeps .closed).path ht
    exact path_authorized hpath [] trivial (fun h => h.elim) hes heffect

/-! ## Two runs -/

/-- The demo runtime with a registry that knows one tool, and with a router. -/
def registeredRuntime (py : PyLib) : AgentRuntime :=
  { demoRuntime with
    py
    toolRegistry := some ⟨[⟨"submit_transfer", .obj [], true, .critical⟩], List.nodup_singleton _⟩
    router := some ⟨none⟩ }

/-- A first request. -/
def firstRequest (message : String) : RunArgs :=
  ⟨message, "run", "run", none, some ⟨"alice", "default"⟩, "plan"⟩

/-- A library that can read what it writes of the value. -/
def readingPy (json : Json) : PyLib :=
  { demoPy with loads text := if text = demoDumps json then some json else demoPy.loads text }

/-- The model's plan. -/
def transferPlan : Json :=
  .obj [("steps", .arr [.obj [("step_id", .str "1"),
    ("tool_candidates", Json.ofStrings ["submit_transfer"])]])]

/-- The model answers with the message until a tool has answered, the gateway with the
decision, the server with success. -/
def answering (reply : Message) (decision : ApprovalDecision) : Op → Env
  | .llm messages =>
    match messages.getLast? with
    | some (.tool _ _ _) => .reply (.ok (.ai "done" []))
    | _ => .reply (.ok reply)
  | .authorize _ => .decision ⟨decision, "policy"⟩
  | o => demoEnv demoSuccess o

/-- A transfer was submitted. -/
def submits (es : List (Event Op Op.Res)) : Bool :=
  es.any fun e =>
    match e.op with
    | .callTool _ call => call.name = .str "submit_transfer"
    | _ => false

/-- Nobody approved of anything. -/
def unapproved (es : List (Event Op Op.Res)) : Bool :=
  es.all fun e =>
    match e with
    | ⟨.authorize _, d⟩ => d.decision ≠ .approved
    | ⟨.interrupt _ _, _⟩ => false
    | _ => true

/-- A computed run. -/
theorem exists_trace {α : Type} {c : Co α} {choose : Op → Env} {n : ℕ} {db : Db}
    {P : List (Event Op Op.Res) → Bool}
    (h : ((runAlone exec choose n c db).map fun x => P x.1).getD false = true) :
    ∃ es c', Trace c es c' ∧ P es = true := by
  cases hrun : runAlone exec choose n c db with
  | none => rw [hrun] at h; cases h
  | some y =>
    rw [hrun] at h
    obtain ⟨c', ht⟩ := (runs_of_runAlone hrun).trace
    exact ⟨_, c', ht, h⟩

theorem not_authorized_of_unapproved {es : List (Event Op Op.Res)} {call : ToolCall}
    (h : unapproved es = true) : ¬ Authorized es call := by
  rintro (⟨since, earlier, op, d, rfl, -, hd, -⟩ | ⟨since, asked, payload, approval, hd, hmem, -⟩)
  · have := List.all_eq_true.mp h ⟨.authorize op, d⟩ (by simp)
    simp [hd] at this
  · obtain ⟨earlier, op, d, rfl, -⟩ := hd
    have := List.all_eq_true.mp h ⟨.interrupt payload (some approval), ()⟩
      (List.mem_append_right _ (List.mem_cons_of_mem _ hmem))
    cases this

/-- The gateway wants a human to look at the transfer, and the plan goes ahead. -/
theorem plan_bypasses_gate :
    ∃ es c, Trace ((registeredRuntime (readingPy transferPlan)).run (firstRequest "and then")) es c ∧
      ¬ EffectsAuthorized (registeredRuntime (readingPy transferPlan)) es := by
  have hrun : ((runAlone exec (answering (.ai (demoDumps transferPlan) []) .pending) 40
    ((registeredRuntime (readingPy transferPlan)).run (firstRequest "and then")) Db.empty).map
    fun x => submits x.1 && unapproved x.1).getD false = true := by decide +kernel
  obtain ⟨es, c, ht, hes⟩ := exists_trace (P := fun es => submits es && unapproved es) hrun
  obtain ⟨hsubmits, hnone⟩ := (Bool.and_eq_true _ _).mp hes
  refine ⟨es, c, ht, fun hauth => ?_⟩
  obtain ⟨⟨o, r⟩, he, hm⟩ := List.any_eq_true.mp hsubmits
  obtain ⟨before, after, rfl⟩ := List.append_of_mem he
  cases o with
  | callTool site call =>
    have heffect : (registeredRuntime (readingPy transferPlan)).sideEffect call.name = true := by
      simp only [decide_eq_true_eq] at hm
      rw [hm]
      rfl
    refine not_authorized_of_unapproved ?_ (hauth before site call r after rfl heffect)
    rw [unapproved, List.all_append, Bool.and_eq_true] at hnone
    exact hnone.1
  | _ => cases hm

/-- The transfer workflow asks first: with the gateway's approval the transfer is submitted. -/
theorem transfer_workflow_authorized :
    ∃ es c, Trace ((registeredRuntime demoPy).run (firstRequest "create transfer")) es c ∧
      submits es = true ∧ EffectsAuthorized (registeredRuntime demoPy) es := by
  have hrun : ((runAlone exec
    (answering (.ai "" [⟨"call-1", "submit_transfer", .obj []⟩]) .approved) 60
    ((registeredRuntime demoPy).run (firstRequest "create transfer")) Db.empty).map
    fun x => submits x.1).getD false = true := by decide +kernel
  obtain ⟨es, c, ht, hes⟩ := exists_trace (P := submits) hrun
  have hkind : ((registeredRuntime demoPy).routeOf (firstRequest "create transfer")).map Route.kind =
      some .transferStateMachine := rfl
  refine ⟨es, c, ht, hes, (side_effects_authorized _).1 _ es c ht ?_ ?_⟩
  · rintro toolName ⟨-, ⟨route, hroute, hdirect, -⟩, -⟩
    rw [hroute, Option.map_some, hdirect] at hkind
    cases hkind
  · rintro ⟨-, route, hroute, hplanner⟩
    rw [hroute, Option.map_some, hplanner] at hkind
    cases hkind

end BankingAgent
