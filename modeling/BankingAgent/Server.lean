import BankingAgent.ApprovalProtocol
import BankingAgent.Contract

/-!
# The server

Requests to the agent and decisions about what waits for approval, at the same time, against
the one database. A request to the agent records what waits; a decision is what the executor
makes of it, and goes on with the graph afterwards. Between the two there is nothing but the
stores.
-/

namespace BankingAgent

open Async

/-- The server: any number of requests. -/
def AgentRuntime.server (rt : AgentRuntime) : Machine Op Op.Res Exn Response Request Env Db :=
  ⟨exec, rt.serve⟩

/-- The call of the executor a request makes. -/
def Request.decision? : Request → Option Call
  | agent _ => none
  | approve sessionId _ => some (.approve sessionId none)
  | reject sessionId _ => some (.reject sessionId none)

/-- What a request may do: what the agent does, and what its decision does. -/
inductive ServerMove (py : PyLib) (req : Request) : Pos → (o : Op) → o.Res → Pos → Prop
  | agent {p : Pos} {o : Op} (r : o.Res) (byAgent : o.ByAgent) : ServerMove py req p o r p
  | decide {call : Call} {p q : Pos} {o : Op} {r : o.Res} (dec : req.decision? = some call)
      (move : Move py call p o r q) : ServerMove py req p o r q

section Walk

variable {rt : AgentRuntime}

/-- Whatever a run says or keeps, it does only what the agent does. -/
def anything (rt : AgentRuntime) : Contract rt where
  assumes _ _ := True
  lists _ := True
  checkpoints _ := True
  answers _ := True
  records _ := True
  select _ := trivial
  reserve _ _ _ _ := trivial
  executing _ := trivial
  stored _ _ := trivial
  executed _ := ⟨trivial, fun _ _ => ⟨trivial, trivial⟩⟩
  other _ _ := trivial
  asks _ _ := trivial
  replies _ _ _ := trivial
  handles _ _ _ _ := trivial

theorem agentEndpoint_byAgent (r : AgentRequest) : (rt.agentEndpoint r).Only Op.ByAgent := by
  have h : (anything rt).Kept (rt.agentEndpoint r) :=
    Contract.agentEndpoint_kept fun _ _ _ =>
      ⟨fun _ => trivial, trivial, trivial, trivial, fun _ _ => trivial, fun _ _ _ _ _ => trivial⟩
  exact h.only.mono And.left

theorem resume_byAgent {threadId runId : String} {value : Json} :
    (rt.resume threadId value runId).Only Op.ByAgent := by
  have h : (anything rt).Kept (rt.resume threadId value runId) :=
    Contract.resume_kept fun _ _ => trivial
  exact h.only.mono And.left

theorem hitlGet_byAgent {sid : String} : (SqliteHITLStore.get rt.py sid).Only Op.ByAgent := by
  refine ⟨trivial, fun row => ?_⟩
  cases row with
  | none => exact trivial
  | some row =>
    simp only [Prog.ret_bind]
    cases row.toSession rt.py <;> exact trivial

/-- After a decision of the executor: its errors are answered, and the graph goes on. -/
theorem follows_after {α β : Type} {req : Request} {call : Call} {P : Pos → Except Exn α → Prop}
    {c : Co α} {f : α → Co β} (dec : req.decision? = some call)
    (hc : Follows (Move rt.py call) P c .start) (hf : ∀ a, (f a).Only Op.ByAgent) :
    Follows (ServerMove rt.py req) (fun _ _ => True) (c >>= f) .start := by
  refine Follows.bind (Q := fun _ _ => True) (fun _ => ?_) (fun _ => trivial)
    (Follows.mono (fun move => .decide dec move) (fun _ => trivial) hc)
  exact follows_of_only (fun ho r => .agent r ho) (fun _ => trivial) (hf _)

theorem mapExecutorResult_byAgent {result : ApprovalResult} :
    (mapExecutorResult result).Only Op.ByAgent := by
  rw [mapExecutorResult]
  split
  · exact trivial
  · split
    · exact trivial
    · split <;> exact trivial

/-- **Every request** does what its decision does, and what the agent does. -/
theorem serve_follows (rt : AgentRuntime) (req : Request) :
    Follows (ServerMove rt.py req) (fun _ _ => True) (rt.serve req) .start := by
  cases req with
  | agent r =>
    refine follows_of_only (fun ho r => .agent r ho) (fun _ => trivial) ?_
    exact Prog.Only.bind (fun _ => by exact trivial) (agentEndpoint_byAgent r)
  | approve sessionId runId =>
    refine Follows.map (Follows.mono id (fun _ => trivial) (follows_after rfl approve_follows ?_))
    intro result
    refine Prog.Only.bind (fun _ => ?_) mapExecutorResult_byAgent
    refine Prog.Only.bind (fun session => ?_) hitlGet_byAgent
    exact Prog.Only.bind (fun _ => by exact trivial) resume_byAgent
  | reject sessionId runId =>
    refine Follows.map (Follows.mono id (fun _ => trivial) (follows_after rfl reject_follows ?_))
    intro result
    refine Prog.Only.bind (fun _ => ?_) mapExecutorResult_byAgent
    exact Prog.Only.bind (fun _ => by exact trivial) resume_byAgent

end Walk

end BankingAgent
