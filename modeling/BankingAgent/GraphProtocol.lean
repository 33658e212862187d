import BankingAgent.Agent
import BankingAgent.Async.Protocol

/-!
# What a run of the graph may do

The graph never touches the sessions, the grants or the event log, and it ends at the
first interrupt that has no answer: nothing happens between that interrupt and the
return of the graph, and what the graph returns is the value of the interrupt.
-/

namespace BankingAgent

open Async

/-- Operations of the graph that do not suspend it. -/
def Op.InGraph : Op → Prop
  | now => True
  | idem _ => True
  | thread _ => True
  | callTool _ _ => True
  | authorize _ => True
  | interrupt _ answer => answer.isSome
  | llm _ => True
  | _ => False

/-- Looks at the records and changes of them. -/
def Op.OnRecords : Op → Prop
  | now => True
  | idem _ => True
  | _ => False

/-- Looks at the record of a key and changes of it, if there is a key. -/
def Op.OnRecord (key : Option String) : Op → Prop
  | now => True
  | idem o => key = some o.key
  | _ => False

/-- One record is one of the records. -/
theorem Op.OnRecord.onRecords {key : Option String} {o : Op} (h : o.OnRecord key) :
    o.OnRecords := by
  cases o <;> first | exact trivial | exact h.elim

/-- What an approved call may do: its record, and the tool call itself. -/
def Op.OfAnswer (number : ℕ) (key : Option String) (tc : ToolRequest) : Op → Prop
  | now => True
  | idem o => key = some o.key
  | callTool site call => site = .node number tc.id key ∧ call = ⟨.str tc.name, tc.args⟩
  | _ => False

/-- The record of a call belongs to its answer. -/
theorem Op.OnRecord.ofAnswer {number : ℕ} {key : Option String} {tc : ToolRequest} {o : Op}
    (h : o.OnRecord key) : o.OfAnswer number key tc := by
  cases o <;> first | exact h | exact h.elim

/-- The records and the tool server. -/
def Op.OfCall : Op → Prop
  | now => True
  | idem _ => True
  | callTool _ _ => True
  | _ => False

theorem Op.OfAnswer.ofCall {number : ℕ} {key : Option String} {tc : ToolRequest} {o : Op}
    (h : o.OfAnswer number key tc) : o.OfCall := by
  cases o <;> first | exact trivial | exact h.elim

theorem Op.OfCall.inGraph {o : Op} (h : o.OfCall) : o.InGraph := by
  cases o <;> first | exact trivial | exact h.elim

/-- The graph may look at its records. -/
theorem Op.OnRecords.inGraph {o : Op} (h : o.OnRecords) : o.InGraph := by
  cases o <;> first | exact trivial | exact h.elim

/-! ## The parts that cannot suspend -/

section Only

variable {rt : AgentRuntime} {py : PyLib} {s : AgentState} {tc : ToolRequest} {key : String}

theorem idemGet_onRecord : (SqliteIdempotencyStore.get py key).Only (Op.OnRecord (some key)) := by
  refine ⟨rfl, fun row => ?_⟩
  cases row with
  | none => exact trivial
  | some row =>
    simp only [Prog.ret_bind]
    cases row.toRecord py <;> exact trivial

theorem reserve_onRecord {toolName : String} {args : Option Json} :
    (SqliteIdempotencyStore.reserve py key toolName args).Only (Op.OnRecord (some key)) := by
  refine ⟨trivial, fun t => ⟨rfl, fun hit => ⟨rfl, fun row => ?_⟩⟩⟩
  cases row with
  | none => exact trivial
  | some row =>
    simp only [Prog.ret_bind]
    cases row.toRecord py <;> exact trivial

/-- The check before a call asks for the record of the call and for no other. -/
theorem checkRecord_onRecord {kind : OperationKind} (key : Option String) :
    (rt.checkRecord kind key).Only (Op.OnRecord key) := by
  cases key with
  | none => exact trivial
  | some key =>
    refine Prog.Only.bind (fun existing => ?_) idemGet_onRecord
    cases existing with
    | none => exact trivial
    | some existing =>
      simp only
      cases existing.status with
      | succeeded => exact trivial
      | failed => exact ⟨rfl, fun _ => trivial⟩
      | reserved => exact ⟨rfl, fun _ => trivial⟩
      | executing => exact trivial
      | unknown => exact trivial

/-- A call is reserved under its own key. -/
theorem reserveUnlessPresent_onRecord (key : Option String) :
    (rt.reserveUnlessPresent tc key).Only (Op.OnRecord key) := by
  cases key with
  | none => exact trivial
  | some key =>
    refine Prog.Only.bind (fun existing => ?_) idemGet_onRecord
    cases existing with
    | some existing => exact trivial
    | none => exact Prog.Only.bind (fun _ => by exact trivial) reserve_onRecord

/-- The outcome is recorded under the key of the call. -/
theorem recordOutcome_onRecord {result : ToolResult} (key : Option String) :
    (rt.recordOutcome result key).Only (Op.OnRecord key) := by
  cases key with
  | none => exact trivial
  | some key =>
    simp only [AgentRuntime.recordOutcome]
    cases result.success <;> exact ⟨trivial, fun _ => ⟨rfl, fun _ => trivial⟩⟩

theorem checkRecord_onRecords {kind : OperationKind} (key : Option String) :
    (rt.checkRecord kind key).Only Op.OnRecords :=
  (checkRecord_onRecord key).mono Op.OnRecord.onRecords

theorem reserveUnlessPresent_onRecords (key : Option String) :
    (rt.reserveUnlessPresent tc key).Only Op.OnRecords :=
  (reserveUnlessPresent_onRecord key).mono Op.OnRecord.onRecords

theorem recordOutcome_onRecords {result : ToolResult} (key : Option String) :
    (rt.recordOutcome result key).Only Op.OnRecords :=
  (recordOutcome_onRecord key).mono Op.OnRecord.onRecords

/-- A tool call is one operation. -/
theorem callTool_only {P : Op → Prop} {site : Site} {call : ToolCall}
    (h : P (.callTool site call)) : (MCPClient.callTool site call).Only P := by
  refine ⟨h, fun answer => ?_⟩
  cases answer <;> exact trivial

theorem callTool_inGraph {site : Site} {call : ToolCall} :
    (MCPClient.callTool site call).Only Op.InGraph := callTool_only trivial

/-- An approved call is answered from its record, or it is made and recorded. -/
theorem answerCall_ofAnswer {number : ℕ} {sessionId : Option String} :
    (rt.answerCall number sessionId tc).Only
      (Op.OfAnswer number (rt.recordKey sessionId tc.id) tc) := by
  refine Prog.Only.bind (fun answer => ?_) ((checkRecord_onRecord _).mono Op.OnRecord.ofAnswer)
  cases answer with
  | some answer => exact trivial
  | none =>
    refine Prog.Only.bind (fun _ => by exact trivial) ?_
    refine Prog.Only.bind (fun _ => Prog.Only.bind (fun result => ?_) (callTool_only ⟨rfl, rfl⟩))
      ((reserveUnlessPresent_onRecord _).mono Op.OnRecord.ofAnswer)
    exact Prog.Only.bind (fun _ => by exact trivial)
      ((recordOutcome_onRecord _).mono Op.OnRecord.ofAnswer)

theorem answerCall_ofCall {number : ℕ} {sessionId : Option String} :
    (rt.answerCall number sessionId tc).Only Op.OfCall :=
  answerCall_ofAnswer.mono Op.OfAnswer.ofCall

end Only

/-! ## The protocol -/

/-- Where the graph stands. -/
inductive GraphPos : Type where
  | running
  /-- at an interrupt without an answer, for the call -/
  | suspended (tc : ToolRequest)

/-- What a graph may do whose state belongs to the session. -/
inductive GraphMove (sessionId : Option String) :
    GraphPos → (o : Op) → o.Res → GraphPos → Prop
  | go {o : Op} (r : o.Res) (inGraph : o.InGraph) : GraphMove sessionId .running o r .running
  | suspend (tc : ToolRequest) :
      GraphMove sessionId .running (.interrupt (interruptPayload sessionId tc) none) ()
        (.suspended tc)

/-- Inside a node, suspension is an exception. -/
def GraphPos.Raised {α : Type} (sessionId : Option String) : GraphPos → Except Exn α → Prop
  | running, _ => True
  | suspended tc, out => out = .error (.graphInterrupt (interruptPayload sessionId tc))

/-- Outside, it is a result. -/
def GraphPos.Returned (sessionId : Option String) : GraphPos → Except Exn GraphResult → Prop
  | running, _ => True
  | suspended tc, out => ∃ s, out = .ok ⟨s, some (interruptPayload sessionId tc)⟩

section Walk

variable {rt : AgentRuntime} {sid : Option String} {s : AgentState} {resumes : List Json}

/-- Sequencing in a node: what has not raised has not suspended. -/
theorem raised_bind {α β : Type} {c : Co α} {f : α → Co β}
    (hc : Follows (GraphMove sid) (GraphPos.Raised sid) c .running)
    (hf : ∀ a, Follows (GraphMove sid) (GraphPos.Raised sid) (f a) .running) :
    Follows (GraphMove sid) (GraphPos.Raised sid) (c >>= f) .running := by
  refine Follows.bind ?_ ?_ hc
  · intro p a h
    cases p with
    | running => exact hf a
    | suspended tc => cases h
  · intro p e h
    cases p with
    | running => exact trivial
    | suspended tc => exact congrArg Except.error (Except.error.inj h)

theorem raised_of_only {α : Type} {c : Co α} (h : c.Only Op.InGraph) :
    Follows (GraphMove sid) (GraphPos.Raised sid) c .running :=
  follows_of_only (fun ho r => .go r ho) (fun _ => trivial) h

/-- The gate suspends by the interrupt it raises, and does nothing afterwards. -/
theorem authorizeCall_raised {n : ℕ} {tc : ToolRequest} :
    Follows (GraphMove sid) (GraphPos.Raised sid) (rt.authorizeCall sid resumes n tc) .running := by
  refine fun decision => ⟨_, .go _ trivial, ?_⟩
  simp only [Prog.ret_bind]
  cases decision.decision with
  | approved => exact trivial
  | denied => exact trivial
  | pending =>
    unfold interrupt
    cases resumes[n]? with
    | none => exact fun _ => ⟨_, .suspend tc, rfl⟩
    | some answer => exact fun _ => ⟨_, .go _ rfl, trivial⟩

/-- One call of the tool node suspends only at the gate. -/
theorem handleCall_raised {progress : Progress} {tc : ToolRequest} (hs : s.sessionId = sid) :
    Follows (GraphMove sid) (GraphPos.Raised sid) (rt.handleCall s resumes progress tc) .running := by
  rw [AgentRuntime.handleCall]
  cases rt.validationError tc with
  | some error => exact trivial
  | none =>
    simp only
    split
    · exact trivial
    · refine raised_bind (hs ▸ authorizeCall_raised) fun gate => ?_
      obtain ⟨answer | call, interrupts⟩ := gate
      · exact trivial
      · exact raised_bind (raised_of_only (answerCall_ofCall.mono Op.OfCall.inGraph))
          fun _ => trivial

/-- The calls before the one that suspends have been answered, those after it have not begun. -/
theorem handleCalls_raised (hs : s.sessionId = sid) (calls : List ToolRequest) :
    ∀ {progress : Progress},
      Follows (GraphMove sid) (GraphPos.Raised sid) (rt.handleCalls s resumes calls progress)
        .running := by
  induction calls with
  | nil => exact trivial
  | cons tc rest ih =>
    exact raised_bind (handleCall_raised hs) fun _ => raised_bind ih fun _ => trivial

/-- A node leaves the session of the state alone. -/
def Checkpoint.Of (sid : Option String) (cp : Checkpoint) : Prop := cp.state.sessionId = sid

/-- A node raises its interrupt, or leaves a checkpoint of the same session. -/
theorem runNode_raised {cp : Checkpoint} (hs : cp.Of sid) (node : GraphNode) :
    Follows (GraphMove sid)
      (fun p out => p.Raised sid out ∧ ∀ cp', out = .ok cp' → cp'.Of sid)
      (rt.runNode cp node) .running := by
  cases node with
  | agent =>
    unfold AgentRuntime.runNode AgentRuntime.agentNode
    simp only
    split
    · exact ⟨trivial, fun _ h => nomatch h⟩
    · refine fun reply => ⟨_, .go _ trivial, ?_⟩
      cases reply with
      | error e => exact ⟨trivial, fun _ h => nomatch h⟩
      | ok response => exact ⟨trivial, by rintro _ ⟨⟩; exact hs⟩
  | tool =>
    have htools : Follows (GraphMove sid) (GraphPos.Raised sid) (rt.runTools cp.state cp.resumes)
        .running := handleCalls_raised hs _
    refine Follows.bind ?_ ?_ (Follows.bind (Q := GraphPos.Raised sid) (R := fun p out =>
      p.Raised sid out ∧ ∀ s, out = .ok s → s.sessionId = sid) ?_ ?_ htools)
    · rintro p s ⟨hp, hs'⟩
      cases p with
      | running => exact ⟨trivial, by rintro _ ⟨⟩; exact hs' s rfl⟩
      | suspended tc => cases hp
    · rintro p e ⟨hp, -⟩
      refine ⟨?_, fun _ h => nomatch h⟩
      cases p with
      | running => exact trivial
      | suspended tc => exact congrArg Except.error (Except.error.inj hp)
    · intro p done hp
      cases p with
      | running => exact ⟨trivial, by rintro _ ⟨⟩; exact hs⟩
      | suspended tc => cases hp
    · intro p e hp
      refine ⟨?_, fun _ h => nomatch h⟩
      cases p with
      | running => exact trivial
      | suspended tc => exact congrArg Except.error (Except.error.inj hp)

/-- **The graph**: once suspended it returns, and it returns the value of the interrupt. -/
theorem runGraph_returned (fuel : ℕ) : ∀ {cp : Checkpoint}, cp.Of sid →
    Follows (GraphMove sid) (GraphPos.Returned sid) (rt.runGraph fuel cp) .running := by
  induction fuel with
  | zero =>
    intro cp _
    rw [AgentRuntime.runGraph]
    cases cp.next <;> exact trivial
  | succ fuel ih =>
    intro cp hs
    rw [AgentRuntime.runGraph]
    cases cp.next with
    | none => exact trivial
    | some node =>
      refine Follows.bind ?_ ?_ (Follows.attempt (Q := fun p out => ∃ out', out = .ok out' ∧
        p.Raised sid out' ∧ ∀ cp', out' = .ok cp' → cp'.Of sid)
        (Follows.mono id (fun h => ⟨_, rfl, h⟩) (runNode_raised hs node)))
      · rintro p out ⟨_, ⟨⟩, hp, hcp⟩
        cases p with
        | suspended tc =>
          obtain rfl := hp
          exact ⟨_, rfl⟩
        | running =>
          cases out with
          | ok cp' => exact fun _ => ⟨_, .go _ trivial, ih (hcp cp' rfl)⟩
          | error exc => cases exc <;> exact trivial
      · rintro p e ⟨out, h, -⟩
        cases h

end Walk

end BankingAgent
