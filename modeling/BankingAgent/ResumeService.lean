import BankingAgent.Agent
import BankingAgent.ApprovalExecutor
import BankingAgent.Async.Sequential

/-!
# `resume_service.py`: the answer after an approval

After the executor has run the approved tool, the service starts a graph of its own, so that
the model can look at the result and answer. The graph has no checkpointer, no registry and no
store, stops after five steps, and its gateway approves of everything. Only the id of the
approved call stands between the model and the tool server, and only for calls with this id.

* `resume_reads_only` — no call but reads is dispatched as long as the model asks for no other
  call under a new id.
-/

namespace BankingAgent

open Async

namespace GraphResumeService

/-- The state the graph starts with, for an approval or a rejection. -/
def resumeState (approval : ApprovalResult) (session : HITLSession) : AgentState :=
  let content :=
    if approval.decision = .approved then
      "Tool '" ++ session.toolName ++ "' executed successfully.\n" ++
        "Result: " ++ orElse approval.answer "done"
    else
      "Tool '" ++ session.toolName ++ "' was rejected by human operator.\n" ++
        "Reason: " ++ orElse approval.answer "Operation rejected"
  { messages := [.tool content session.toolCallId session.toolName]
    finalAnswer := none
    stepCount := 0
    sessionId := some approval.sessionId
    executedToolIds := if session.toolCallId = "" then [] else [session.toolCallId] }

/-- `build_resume_state`. -/
def buildResumeState (py : PyLib) (approval : ApprovalResult) : Co (Option AgentState) := do
  if approval.decision = .approved ∨ approval.decision = .rejected then
    match ← SqliteHITLStore.get py approval.sessionId with
    | none => return none
    | some session => return some (resumeState approval session)
  else return none

/-- The graph of the service; `recursionLimit` is LangGraph's. -/
def graph (py : PyLib) (recursionLimit : ℕ) : AgentRuntime where
  py := py
  toolRegistry := none
  idempotencyStore := false
  maxAgentSteps := 5
  recursionLimit := recursionLimit
  router := none

/-- `AutoApprovePolicy`, and a graph without a checkpointer. -/
def autoApprove : (o : Op) → Option o.Res
  | .authorize _ => some ⟨.approved, "auto-approved (development mode)"⟩
  | .thread (.save _) => some ()
  | _ => none

/-- The last message of the model that says something. -/
def lastContent (messages : List Message) : Option String :=
  messages.reverse.findSome? fun
    | .ai content _ => if content = "" then none else some content
    | _ => none

/-- What the service makes of the state of the graph. -/
def answerOf (state : AgentState) : Option String :=
  match state.finalAnswer with
  | some answer => if answer = "" then lastContent state.messages else some answer
  | none => lastContent state.messages

/-- The run of the graph. -/
def run (py : PyLib) (recursionLimit : ℕ) (threadId : String) (state : AgentState) :
    Co GraphResult :=
  ((graph py recursionLimit).runGraph recursionLimit ⟨threadId, state, some .agent, []⟩).handle
    autoApprove

/-- `resume_and_respond`: every exception ends in no answer. -/
def resumeAndRespond (py : PyLib) (recursionLimit : ℕ) (threadId : String)
    (state : AgentState) : Co (Option String) := do
  match ← (run py recursionLimit threadId state).attempt with
  | .error _ => return none
  | .ok result => return answerOf result.state

end GraphResumeService

/-! ## What counts as harmless -/

/-- The ids of executed calls, after a call with the id has been executed. -/
def withId (ids : List String) (id : String) : List String := if id = "" then ids else id :: ids

/-- The calls the tool node goes through one after the other: each of them is a read, or has
been executed already. -/
def Harmless (py : PyLib) : List String → List ToolRequest → Prop
  | _, [] => True
  | ids, call :: rest =>
    if call.id ≠ "" ∧ call.id ∈ ids then Harmless py ids rest
    else classifyToolKind py call.name = .read ∧ Harmless py (withId ids call.id) rest

instance Harmless.decide (py : PyLib) :
    ∀ (ids : List String) (calls : List ToolRequest), Decidable (Harmless py ids calls)
  | _, [] => instDecidableTrue
  | ids, call :: rest =>
    have := Harmless.decide py ids rest
    have := Harmless.decide py (withId ids call.id) rest
    if h : call.id ≠ "" ∧ call.id ∈ ids then
      decidable_of_iff (Harmless py ids rest) (by rw [Harmless, if_pos h])
    else
      decidable_of_iff
        (classifyToolKind py call.name = .read ∧ Harmless py (withId ids call.id) rest)
        (by rw [Harmless, if_neg h])

/-- The calls a reply of the model asks for. -/
def askedCalls : Event Op Op.Res → List ToolRequest
  | ⟨.llm _, .ok reply⟩ => reply.toolCalls
  | _ => []

/-- The ids of executed calls after an event. -/
def executedAfter (ids : List String) : Event Op Op.Res → List String
  | ⟨.callTool (.node _ id _) _, _⟩ => withId ids id
  | _ => ids

/-- Every reply of the model asks for harmless calls only, given what has been executed when it
comes. -/
def HarmlessReplies (py : PyLib) : List String → List (Event Op Op.Res) → Prop
  | _, [] => True
  | ids, e :: es => Harmless py ids (askedCalls e) ∧ HarmlessReplies py (executedAfter ids e) es

instance HarmlessReplies.decide (py : PyLib) :
    ∀ (ids : List String) (es : List (Event Op Op.Res)), Decidable (HarmlessReplies py ids es)
  | _, [] => instDecidableTrue
  | ids, e :: es =>
    have := HarmlessReplies.decide py (executedAfter ids e) es
    inferInstanceAs (Decidable (_ ∧ _))

/-- The call is one of a tool that is classified as a read. -/
def ToolCall.IsRead (py : PyLib) (call : ToolCall) : Prop :=
  ∃ toolName, call.name = .str toolName ∧ classifyToolKind py toolName = .read

/-- Only reads are dispatched. -/
def ReadsOnly (py : PyLib) (es : List (Event Op Op.Res)) : Prop :=
  ∀ site call answer, ⟨.callTool site call, answer⟩ ∈ es → call.IsRead py

/-! ## The protocol -/

/-- What the resumed graph may do: the position is what has been executed, until the model
asks for something else. -/
inductive ResumeMove (py : PyLib) : Option (List String) → (o : Op) → o.Res →
    Option (List String) → Prop
  | authorize {p : Option (List String)} (op : Operation) (d : AuthorizationDecision)
      (approved : d.decision = .approved) : ResumeMove py p (.authorize op) d p
  | save {p : Option (List String)} (cp : Checkpoint) :
      ResumeMove py p (.thread (.save cp)) () p
  | reply {ids : List String} (messages : List Message) (reply : Message)
      (harmless : Harmless py ids reply.toolCalls) :
      ResumeMove py (some ids) (.llm messages) (.ok reply) (some ids)
  | failure {ids : List String} (messages : List Message) (exc : Exn) :
      ResumeMove py (some ids) (.llm messages) (.error exc) (some ids)
  | read {ids : List String} (number : ℕ) (id : String) (key : Option String) (call : ToolCall)
      (answer : Except Exn ToolResult) (read : call.IsRead py) :
      ResumeMove py (some ids) (.callTool (.node number id key) call) answer
        (some (withId ids id))
  /-- the model asks for something else -/
  | harm {ids : List String} (messages : List Message) (reply : Message)
      (harm : ¬ Harmless py ids reply.toolCalls) :
      ResumeMove py (some ids) (.llm messages) (.ok reply) none
  /-- what the gateway never does -/
  | refuse {p : Option (List String)} (op : Operation) (d : AuthorizationDecision)
      (refused : d.decision ≠ .approved) : ResumeMove py p (.authorize op) d none
  | astray {o : Op} (r : o.Res) (unanswered : GraphResumeService.autoApprove o = none) :
      ResumeMove py none o r none

namespace GraphResumeService

section Walk

variable {py : PyLib} {n : ℕ} {s : AgentState}

/-- Once the model has asked for something else, nothing is said any more. -/
theorem astray_follows {α : Type} {Q : Option (List String) → Except Exn α → Prop}
    (hQ : ∀ out, Q none out) : ∀ c : Co α, Follows (ResumeMove py) Q c none := by
  intro c
  induction c with
  | ret a => exact hQ _
  | raise e => exact hQ _
  | op o k ih =>
    intro r
    cases ho : autoApprove o with
    | none => exact ⟨none, .astray r ho, ih r⟩
    | some r' =>
      cases o with
      | authorize op =>
        by_cases hr : r.decision = .approved
        · exact ⟨none, .authorize op r hr, ih r⟩
        · exact ⟨none, .refuse op r hr, ih r⟩
      | thread o =>
        cases o with
        | save cp => exact ⟨none, .save cp, ih r⟩
        | load threadId => cases ho
      | _ => cases ho

/-- A part of the run ends astray, or as `Q` says where it returns. -/
def Keeps {α : Type} (Q : List String → α → Prop) (p : Option (List String)) (out : Except Exn α) :
    Prop :=
  p = none ∨ ∀ a, out = .ok a → ∃ ids, p = some ids ∧ Q ids a

/-- Sequencing, as long as the run is not astray. -/
theorem keeps_bind {α β : Type} {Q : List String → α → Prop} {R : List String → β → Prop}
    {c : Co α} {f : α → Co β} {p : Option (List String)}
    (hc : Follows (ResumeMove py) (Keeps Q) c p)
    (hf : ∀ ids a, Q ids a → Follows (ResumeMove py) (Keeps R) (f a) (some ids)) :
    Follows (ResumeMove py) (Keeps R) (c >>= f) p := by
  refine Follows.bind ?_ ?_ hc
  · rintro p a (rfl | h)
    · exact astray_follows (fun _ => .inl rfl) _
    · obtain ⟨ids, rfl, hQ⟩ := h a rfl
      exact hf ids a hQ
  · rintro p e (rfl | h)
    · exact .inl rfl
    · exact .inr (by rintro a ⟨⟩)

/-- One harmless call: it is skipped, or a read is dispatched. -/
theorem handleCall_keeps {resumes : List Json} {progress : Progress} {call : ToolRequest}
    {rest : List ToolRequest} (h : Harmless py progress.executedIds (call :: rest)) :
    Follows (ResumeMove py)
      (Keeps fun ids done => done.2.executedIds = ids ∧ Harmless py ids rest)
      ((graph py n).handleCall s resumes progress call) (some progress.executedIds) := by
  rw [Harmless] at h
  change Follows _ _ (if call.id ≠ "" ∧ call.id ∈ progress.executedIds then _ else _) _
  by_cases hmem : call.id ≠ "" ∧ call.id ∈ progress.executedIds
  · rw [if_pos hmem] at h ⊢
    refine .inr ?_
    rintro _ ⟨⟩
    exact ⟨_, rfl, rfl, h⟩
  · rw [if_neg hmem] at h ⊢
    obtain ⟨hread, hrest⟩ := h
    refine keeps_bind (Q := fun ids gate => gate.1 = .ok call ∧ ids = progress.executedIds) ?_ ?_
    · refine fun decision => ?_
      by_cases happroved : decision.decision = .approved
      · refine ⟨_, .authorize _ decision happroved, ?_⟩
        simp only [Prog.ret_bind, happroved]
        refine .inr ?_
        rintro _ ⟨⟩
        exact ⟨_, rfl, rfl, rfl⟩
      · exact ⟨none, .refuse _ decision happroved, astray_follows (fun _ => .inl rfl) _⟩
    · rintro ids ⟨gate, interrupts⟩ ⟨rfl, rfl⟩
      refine fun answer =>
        ⟨_, .read _ call.id none ⟨.str call.name, call.args⟩ answer ⟨_, rfl, hread⟩, ?_⟩
      cases answer with
      | error e => exact .inr (by rintro _ ⟨⟩)
      | ok result =>
        refine .inr ?_
        rintro _ ⟨⟩
        refine ⟨_, rfl, ?_, hrest⟩
        by_cases hid : call.id = "" <;>
          simp [Progress.after, Answer.settles, withId, hid]

theorem handleCalls_keeps {resumes : List Json} (calls : List ToolRequest) :
    ∀ {progress : Progress}, Harmless py progress.executedIds calls →
      Follows (ResumeMove py) (Keeps fun ids done => done.2.executedIds = ids)
        ((graph py n).handleCalls s resumes calls progress) (some progress.executedIds) := by
  induction calls with
  | nil =>
    intro progress _
    refine .inr ?_
    rintro _ ⟨⟩
    exact ⟨_, rfl, rfl⟩
  | cons call rest ih =>
    intro progress h
    refine keeps_bind (handleCall_keeps h) ?_
    rintro ids first ⟨rfl, hrest⟩
    refine keeps_bind (ih hrest) ?_
    rintro ids others rfl
    refine .inr ?_
    rintro _ ⟨⟩
    exact ⟨_, rfl, rfl⟩

/-- The model's calls are harmless where the tool node is next. -/
def Ready (py : PyLib) (ids : List String) (cp : Checkpoint) : Prop :=
  cp.state.executedToolIds = ids ∧
    (cp.next = some .tool → Harmless py ids cp.state.lastCalls)

theorem runNode_keeps {cp : Checkpoint} {ids : List String} {node : GraphNode}
    (h : Ready py ids cp) (hnode : cp.next = some node) :
    Follows (ResumeMove py) (Keeps (Ready py)) ((graph py n).runNode cp node) (some ids) := by
  obtain ⟨rfl, hcalls⟩ := h
  cases node with
  | agent =>
    unfold AgentRuntime.runNode AgentRuntime.agentNode
    simp only
    split
    · exact .inr (by rintro _ ⟨⟩)
    · intro reply
      cases reply with
      | error e => exact ⟨_, .failure _ e, .inr (by rintro _ ⟨⟩)⟩
      | ok response =>
        by_cases hharm : Harmless py cp.state.executedToolIds response.toolCalls
        · refine ⟨_, .reply _ response hharm, .inr ?_⟩
          rintro _ ⟨⟩
          exact ⟨_, rfl, rfl, fun _ => by simpa [AgentState.lastCalls] using hharm⟩
        · exact ⟨none, .harm _ response hharm, .inl rfl⟩
  | tool =>
    refine keeps_bind (Q := fun ids s => s.executedToolIds = ids) ?_ ?_
    · refine keeps_bind (handleCalls_keeps _ (hcalls hnode)) ?_
      rintro ids done rfl
      refine .inr ?_
      rintro _ ⟨⟩
      exact ⟨_, rfl, rfl⟩
    · rintro ids s rfl
      refine .inr ?_
      rintro _ ⟨⟩
      exact ⟨_, rfl, rfl, fun hnext => nomatch hnext⟩

/-- The graph: each superstep finds the calls of the one before it harmless. -/
theorem runGraph_follows (fuel : ℕ) : ∀ {cp : Checkpoint} {ids : List String}, Ready py ids cp →
    Follows (ResumeMove py) (fun _ _ => True) ((graph py n).runGraph fuel cp) (some ids) := by
  induction fuel with
  | zero =>
    intro cp ids _
    rw [AgentRuntime.runGraph]
    cases cp.next <;> exact trivial
  | succ fuel ih =>
    intro cp ids hready
    rw [AgentRuntime.runGraph]
    cases hnode : cp.next with
    | none => exact trivial
    | some node =>
      refine Follows.bind ?_ ?_ (Follows.attempt (Q := fun p out => ∃ out', out = .ok out' ∧
        Keeps (Ready py) p out')
        (Follows.mono id (fun h => ⟨_, rfl, h⟩) (runNode_keeps hready hnode)))
      · rintro p out ⟨_, ⟨⟩, rfl | h⟩
        · exact astray_follows (fun _ => trivial) _
        · cases out with
          | ok cp' =>
            obtain ⟨ids', rfl, hready'⟩ := h cp' rfl
            exact fun _ => ⟨_, .save cp', ih hready'⟩
          | error exc => cases exc <;> exact trivial
      · exact fun _ => trivial

theorem resumeAndRespond_follows {threadId : String} {state : AgentState} :
    Follows (ResumeMove py) (fun _ _ => True) (resumeAndRespond py n threadId state)
      (some state.executedToolIds) := by
  have hrun : Follows (ResumeMove py) (fun _ _ => True) (run py n threadId state)
      (some state.executedToolIds) := by
    refine Follows.handle ?_ (runGraph_follows n ⟨rfl, fun hnext => nomatch hnext⟩)
    rintro p o r q hauto hmove
    -- the gateway has approved, and saving a checkpoint does not move
    cases hmove with
    | authorize op d approved => rfl
    | save cp => rfl
    | refuse op d refused =>
      cases hauto
      exact absurd rfl refused
    | astray r unanswered =>
      cases hauto.symm.trans unanswered
    | _ => cases hauto
  refine Follows.bind (Q := fun _ _ => True) ?_ (fun _ => trivial)
    (Follows.attempt (Follows.mono id (fun _ => trivial) hrun))
  intro p out _
  cases out <;> exact trivial

/-- The gateway and the checkpointer of the service are its own. -/
theorem resumeAndRespond_only {threadId : String} {state : AgentState} :
    (resumeAndRespond py n threadId state).Only fun o => autoApprove o = none := by
  refine Prog.Only.bind (fun out => ?_) (Prog.Only.attempt Prog.handle_only)
  cases out <;> exact trivial

end Walk

/-! ## The law -/

/-- Along a path with harmless replies the run does not go astray, and reads only. -/
theorem path_readsOnly {py : PyLib} {es : List (Event Op Op.Res)} {p p' : Option (List String)}
    (h : Path (ResumeMove py) p es p') : ∀ {ids : List String}, p = some ids →
      (∀ e ∈ es, autoApprove e.op = none) → HarmlessReplies py ids es → ReadsOnly py es := by
  induction h with
  | nil p => exact fun _ _ _ _ _ _ he => absurd he List.not_mem_nil
  | cons hmove _ ih =>
    rintro ids rfl hauto hreplies site call answer hmem
    have hrest := fun e he => hauto e (List.mem_cons_of_mem _ he)
    have hfirst := hauto _ List.mem_cons_self
    cases hmove with
    | authorize op d approved => cases hfirst
    | save cp => cases hfirst
    | refuse op d refused => cases hfirst
    | reply messages reply harmless =>
      rcases List.mem_cons.mp hmem with heq | hmem
      · cases heq
      · exact ih rfl hrest hreplies.2 _ _ _ hmem
    | failure messages exc =>
      rcases List.mem_cons.mp hmem with heq | hmem
      · cases heq
      · exact ih rfl hrest hreplies.2 _ _ _ hmem
    | read number id key call' answer' read =>
      rcases List.mem_cons.mp hmem with heq | hmem
      · cases heq
        exact read
      · exact ih rfl hrest hreplies.2 _ _ _ hmem
    | harm messages reply harm => exact absurd hreplies.1 harm

end GraphResumeService

/-- **After an approval only reads are dispatched**, in every run in which every call the
model asks for is a read or has the id of a call that has been executed, be it the approved
one or one of the reads. -/
theorem resume_reads_only {py : PyLib} {n : ℕ} {threadId : String} (approval : ApprovalResult)
    (session : HITLSession) {es : List (Event Op Op.Res)} {c : Co (Option String)}
    (ht : Trace (GraphResumeService.resumeAndRespond py n threadId
      (GraphResumeService.resumeState approval session)) es c)
    (hreplies : HarmlessReplies py (withId [] session.toolCallId) es) : ReadsOnly py es := by
  obtain ⟨p', hpath, -⟩ := Follows.path ht GraphResumeService.resumeAndRespond_follows
  exact GraphResumeService.path_readsOnly hpath rfl
    (GraphResumeService.resumeAndRespond_only.trace ht) hreplies

/-- What `build_resume_state` returns is such a state, of the stored session. -/
theorem buildResumeState_returns {py : PyLib} {approval : ApprovalResult} {state : AgentState}
    {es : List (Event Op Op.Res)}
    (ht : Trace (GraphResumeService.buildResumeState py approval) es (.ret (some state))) :
    ∃ session, state = GraphResumeService.resumeState approval session := by
  have hfollows : Follows (fun _ _ _ _ => True)
      (fun (_ : Unit) out => ∀ state, out = .ok (some state) →
        ∃ session, state = GraphResumeService.resumeState approval session)
      (GraphResumeService.buildResumeState py approval) () := by
    rw [GraphResumeService.buildResumeState]
    split_ifs with hdecided
    · intro answer
      refine ⟨(), trivial, ?_⟩
      cases answer with
      | none => exact fun _ h => nomatch Except.ok.inj h
      | some row =>
        simp only [Prog.ret_bind]
        cases row.toSession py with
        | none => exact fun _ h => nomatch h
        | some session => exact fun _ h => ⟨session, (Option.some.inj (Except.ok.inj h)).symm⟩
    · exact fun _ h => nomatch Except.ok.inj h
  obtain ⟨_, -, hreturns⟩ := Follows.path ht hfollows
  exact hreturns state rfl

/-! ## Two models -/

/-- The demo operation has been approved and executed. -/
def approvedDemo : ApprovalResult := ⟨.approved, "s", some "ok", none, none⟩

/-- The state the graph starts with then. -/
def approvedState : AgentState :=
  GraphResumeService.resumeState approvedDemo (demoOperation.session "t0")

/-- A model that asks for some calls when it is told of the execution, and then says so. -/
def followUp (calls : List ToolRequest) : Op → Env
  | .llm messages => .reply (.ok (.ai "done" (if messages.length = 1 then calls else [])))
  | o => demoEnv demoSuccess o

/-- A dispatched tool. -/
def dispatchedTool? : Event Op Op.Res → Option String
  | ⟨.callTool _ ⟨.str toolName, _⟩, _⟩ => some toolName
  | _ => none

theorem exists_dispatch {es : List (Event Op Op.Res)} {name : String}
    (h : name ∈ es.filterMap dispatchedTool?) :
    ∃ site call answer, ⟨.callTool site call, answer⟩ ∈ es ∧ call.name = .str name := by
  obtain ⟨e, hmem, hname⟩ := List.mem_filterMap.mp h
  unfold dispatchedTool? at hname
  split at hname
  · exact ⟨_, _, _, hmem, congrArg _ (Option.some.inj hname)⟩
  · cases hname

/-- A computed answer after the approval of the demo operation. -/
theorem exists_answer (calls : List ToolRequest) (P : List (Event Op Op.Res) → Bool)
    (h : ((runAlone exec (followUp calls) 20
      (GraphResumeService.resumeAndRespond demoPy 25 "s" approvedState) demoDb).map
        fun x => P x.1).getD false = true) :
    ∃ es c, Trace (GraphResumeService.resumeAndRespond demoPy 25 "s" approvedState) es c ∧
      P es = true := by
  cases hrun : runAlone exec (followUp calls) 20
      (GraphResumeService.resumeAndRespond demoPy 25 "s" approvedState) demoDb with
  | none => rw [hrun] at h; cases h
  | some x =>
    rw [hrun] at h
    obtain ⟨c, ht⟩ := (runs_of_runAlone hrun).trace
    exact ⟨x.1, c, ht, h⟩

/-- The model asks for the approved call once more, and for a balance. -/
theorem resume_rechecks_balance :
    ∃ es c, Trace (GraphResumeService.resumeAndRespond demoPy 25 "s" approvedState) es c ∧
      es.filterMap dispatchedTool? = ["get_balance"] ∧ ReadsOnly demoPy es := by
  obtain ⟨es, c, ht, h⟩ := exists_answer
    [⟨demoOperation.toolCallId, demoOperation.toolName, .null⟩, ⟨"call-2", "get_balance", .null⟩]
    (fun es => decide (HarmlessReplies demoPy (withId [] demoOperation.toolCallId) es) &&
      decide (es.filterMap dispatchedTool? = ["get_balance"])) (by decide +kernel)
  obtain ⟨hreplies, hdispatched⟩ := (Bool.and_eq_true _ _).mp h
  exact ⟨es, c, ht, of_decide_eq_true hdispatched,
    resume_reads_only approvedDemo (demoOperation.session "t0") ht
      (of_decide_eq_true hreplies)⟩

/-- The model asks for the transfer under another id, and gets it. -/
theorem resume_transfers_again :
    ∃ es c, Trace (GraphResumeService.resumeAndRespond demoPy 25 "s" approvedState) es c ∧
      ¬ ReadsOnly demoPy es := by
  obtain ⟨es, c, ht, h⟩ := exists_answer [⟨"call-2", "submit_transfer", .null⟩]
    (fun es => decide ("submit_transfer" ∈ es.filterMap dispatchedTool?)) (by decide +kernel)
  obtain ⟨site, call, answer, hmem, hname⟩ := exists_dispatch (of_decide_eq_true h)
  refine ⟨es, c, ht, fun hreads => ?_⟩
  obtain ⟨toolName, htool, hkind⟩ := hreads site call answer hmem
  obtain rfl := Json.str.inj (hname.symm.trans htool)
  exact absurd hkind (by decide +kernel)

end BankingAgent
