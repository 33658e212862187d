import BankingAgent.Async.Sequential
import BankingAgent.Contract

/-!
# The step counter bounds the questions to the model

`_agent_node` refuses to ask once the step counter has reached the limit, and adds one to
it where it asks; the tool node leaves it alone. A run of the graph may be suspended any
number of times, and a resume runs the tool node again from its start: it goes on with the
counter of the checkpoint, so the questions of a run and of all its resumes come out of
one budget.

* `AgentRuntime.GraphRun` — a run with its resumes, each from the checkpoint stored last.
* `StepMove` — the protocol: what a run that has spent `level` steps may do.
* `llmCalls_le` — the bound, and where it is reached a run raises.
-/

namespace BankingAgent

open Async

/-! ## A run with its resumes -/

/-- The checkpoint an operation stores. -/
def Op.saved? : Op → Option Checkpoint
  | thread (.save cp) => some cp
  | _ => none

/-- The model is asked. -/
def Op.asks : Op → Bool
  | llm _ => true
  | _ => false

/-- Whatever is asked, there is an answer to be had. -/
theorem Op.res_nonempty (o : Op) : Nonempty o.Res := by
  cases o with
  | now => exact ⟨(0 : ℕ)⟩
  | hitl o => cases o <;> exact ⟨default⟩
  | grant o => cases o <;> exact ⟨default⟩
  | idem o => cases o <;> exact ⟨default⟩
  | event e => exact ⟨true⟩
  | thread o => cases o <;> exact ⟨default⟩
  | resolveActor context => exact ⟨none⟩
  | callTool site call => exact ⟨.error .typeError⟩
  | authorize operation => exact ⟨⟨.pending, ""⟩⟩
  | interrupt payload answer => exact ⟨()⟩
  | llm messages => exact ⟨.error .typeError⟩

/-- The checkpoint that is stored last in a thread that held `cp`. -/
def savedAfter (cp : Option Checkpoint) (es : List (Event Op Op.Res)) : Option Checkpoint :=
  es.foldl (fun cp e => e.op.saved?.or cp) cp

/-- How often the model is asked. -/
def llmCalls (es : List (Event Op Op.Res)) : ℕ := es.countP fun e => e.op.asks

/-- `rt.GraphRun threadId input es q`: an invocation of the graph, and resumes of it where
it was suspended at an interrupt, have performed `es` and are at `q`. A resume continues
from the checkpoint the thread holds. -/
inductive AgentRuntime.GraphRun (rt : AgentRuntime) (threadId : String) (input : GraphInput) :
    List (Event Op Op.Res) → Co GraphResult → Prop
  | invoke {es : List (Event Op Op.Res)} {q : Co GraphResult}
      (trace : Trace (rt.ainvoke threadId input) es q) : rt.GraphRun threadId input es q
  | resume {es es' : List (Event Op Op.Res)} {q : Co GraphResult} {payload value : Json}
      {result : GraphResult} (suspended : rt.GraphRun threadId input es (.ret result))
      (last : es.getLast? = some ⟨.interrupt payload none, ()⟩)
      (trace : Trace (rt.ainvokeResume threadId value)
        (⟨.thread (.load threadId), savedAfter none es⟩ :: es') q) :
      rt.GraphRun threadId input (es ++ ⟨.thread (.load threadId), savedAfter none es⟩ :: es') q

/-- The agent node is next, and it has no step left. -/
def AgentRuntime.Spent (rt : AgentRuntime) (cp : Checkpoint) : Prop :=
  cp.next = some .agent ∧ rt.maxAgentSteps ≤ cp.state.stepCount

/-! ## The protocol -/

/-- Where a run stands. -/
structure StepPos : Type where
  /-- the step counter, with the question under way -/
  level : ℕ
  /-- the model has been asked since the last checkpoint -/
  asked : Bool
  /-- the checkpoint the thread holds -/
  saved : Option Checkpoint

/-- The thread holds a checkpoint without steps left. -/
def StepPos.Spent (rt : AgentRuntime) (p : StepPos) : Prop := ∃ cp ∈ p.saved, rt.Spent cp

/-- What a run may do, and where it leads: nothing without steps left. -/
inductive StepMove (rt : AgentRuntime) : StepPos → (o : Op) → o.Res → StepPos → Prop
  | ask {level : ℕ} {saved : Option Checkpoint} (messages : List Message)
      (reply : Except Exn Message) (left : level < rt.maxAgentSteps)
      (unspent : ¬ StepPos.Spent rt ⟨level, false, saved⟩) :
      StepMove rt ⟨level, false, saved⟩ (.llm messages) reply ⟨level + 1, true, saved⟩
  | save {p : StepPos} (cp : Checkpoint) (count : cp.state.stepCount = p.level)
      (unspent : ¬ p.Spent rt) :
      StepMove rt p (.thread (.save cp)) () ⟨p.level, false, some cp⟩
  | other {p : StepPos} {o : Op} (r : o.Res) (asks : o.asks = false) (saved : o.saved? = none)
      (idle : p.asked = false) (unspent : ¬ p.Spent rt) : StepMove rt p o r p

/-- How a run ends: with an error where there are no steps left, and never with a counter
beyond the steps it has spent. -/
def StepPos.Ends (rt : AgentRuntime) (p : StepPos) (out : Except Exn GraphResult) : Prop :=
  (p.Spent rt → ∃ text, out = .error (.runtime text)) ∧
    ∀ result, out = .ok result → result.state.stepCount ≤ p.level

/-! ## The walk -/

section Walk

variable {rt : AgentRuntime} {s : AgentState} {p : StepPos} {cp : Checkpoint}

/-- What the tool node may do. -/
def Op.InTools : Op → Prop
  | now => True
  | idem _ => True
  | callTool _ _ => True
  | authorize _ => True
  | interrupt _ _ => True
  | _ => False

theorem Op.OfCall.inTools {o : Op} (h : o.OfCall) : o.InTools := by
  cases o <;> first | exact trivial | exact h.elim

theorem Op.InTools.asks_eq {o : Op} (h : o.InTools) : o.asks = false := by
  cases o <;> first | rfl | exact h.elim

theorem Op.InTools.saved?_eq {o : Op} (h : o.InTools) : o.saved? = none := by
  cases o <;> first | rfl | exact h.elim

theorem authorizeCall_inTools {sessionId : Option String} {resumes : List Json} {n : ℕ}
    {tc : ToolRequest} : (rt.authorizeCall sessionId resumes n tc).Only Op.InTools := by
  refine ⟨trivial, fun decision => ?_⟩
  simp only [Prog.ret_bind]
  cases decision.decision with
  | approved => exact trivial
  | denied => exact trivial
  | pending =>
    refine ⟨trivial, fun _ => ?_⟩
    cases resumes[n]? <;> exact trivial

theorem handleCall_inTools {resumes : List Json} {progress : Progress} {tc : ToolRequest} :
    (rt.handleCall s resumes progress tc).Only Op.InTools := by
  rw [AgentRuntime.handleCall]
  cases rt.validationError tc with
  | some error => exact trivial
  | none =>
    simp only
    split
    · exact trivial
    · refine Prog.Only.bind (fun gate => ?_) authorizeCall_inTools
      obtain ⟨answer | call, interrupts⟩ := gate
      · exact trivial
      · exact Prog.Only.bind (fun _ => by exact trivial) (answerCall_ofCall.mono Op.OfCall.inTools)

/-- The tool node neither asks the model nor stores a checkpoint. -/
theorem handleCalls_inTools {resumes : List Json} (calls : List ToolRequest) :
    ∀ {progress : Progress}, (rt.handleCalls s resumes calls progress).Only Op.InTools := by
  induction calls with
  | nil => exact trivial
  | cons tc rest ih =>
    intro progress
    exact Prog.Only.bind (fun _ => Prog.Only.bind (fun _ => by exact trivial) ih) handleCall_inTools

/-- The tool node leaves the counter alone. -/
theorem toolNode_counts {resumes : List Json} (idle : p.asked = false) (unspent : ¬ p.Spent rt) :
    Follows (StepMove rt) (fun q out => q = p ∧ ∀ s', out = .ok s' → s'.stepCount = s.stepCount)
      (rt.toolNode s resumes) p := by
  have htools : Follows (StepMove rt) (fun q _ => q = p) (rt.runTools s resumes) p :=
    follows_of_only (fun ho r => .other r ho.asks_eq ho.saved?_eq idle unspent) (fun _ => rfl)
      (handleCalls_inTools _)
  refine Follows.bind ?_ ?_ htools
  · rintro q done rfl
    exact ⟨rfl, by rintro _ ⟨⟩; rfl⟩
  · rintro q exc rfl
    exact ⟨rfl, by rintro _ ⟨⟩⟩

/-- Before a node other than the agent's there are steps left. -/
theorem not_spent_of_next (hnext : cp.next ≠ some .agent) :
    ¬ StepPos.Spent rt ⟨cp.state.stepCount, false, some cp⟩ := by
  rintro ⟨_, ⟨⟩, hagent, -⟩
  exact hnext hagent

/-- The graph goes on from any checkpoint. -/
def GoesOn (rt : AgentRuntime) (fuel : ℕ) : Prop :=
  ∀ {cp : Checkpoint}, Follows (StepMove rt) (StepPos.Ends rt) (rt.runGraph fuel cp)
    ⟨cp.state.stepCount, false, some cp⟩

/-- At the end of the graph. -/
theorem runGraph_ended {fuel : ℕ} (hnext : cp.next = none) :
    Follows (StepMove rt) (StepPos.Ends rt) (rt.runGraph fuel cp)
      ⟨cp.state.stepCount, false, some cp⟩ := by
  rw [AgentRuntime.runGraph, hnext]
  exact ⟨fun h => absurd h (not_spent_of_next (by simp [hnext])), by rintro _ ⟨⟩; exact le_rfl⟩

/-- The agent's turn: it refuses to ask, or the question takes one step. -/
theorem runGraph_agent {fuel : ℕ} (ih : GoesOn rt fuel) (hnext : cp.next = some .agent) :
    Follows (StepMove rt) (StepPos.Ends rt) (rt.runGraph (fuel + 1) cp)
      ⟨cp.state.stepCount, false, some cp⟩ := by
  rw [AgentRuntime.runGraph, hnext]
  by_cases hspent : rt.maxAgentSteps ≤ cp.state.stepCount
  · -- the node refuses to ask
    simp only [AgentRuntime.runNode, AgentRuntime.agentNode, if_pos hspent]
    exact ⟨fun _ => ⟨_, rfl⟩, by rintro _ ⟨⟩⟩
  · have hunspent (p : StepPos) (hp : p.saved = some cp) : ¬ p.Spent rt := by
      rintro ⟨_, hcp, -, hmax⟩
      obtain rfl := Option.some.inj (hp.symm.trans hcp)
      exact hspent hmax
    simp only [AgentRuntime.runNode, AgentRuntime.agentNode, if_neg hspent]
    refine fun reply => ⟨_, .ask _ _ (Nat.lt_of_not_le hspent) (hunspent _ rfl), ?_⟩
    cases reply with
    | error exc =>
      cases exc with
      | graphInterrupt payload =>
        exact ⟨fun h => absurd h (hunspent _ rfl), by rintro _ ⟨⟩; exact Nat.le_succ _⟩
      | _ => exact ⟨fun h => absurd h (hunspent _ rfl), by rintro _ ⟨⟩⟩
    | ok response => exact fun _ => ⟨_, .save _ rfl (hunspent _ rfl), ih⟩

/-- The tool node's turn: the counter stays, also in the checkpoint it leaves. -/
theorem runNode_tool_counts (hnext : cp.next = some .tool) :
    Follows (StepMove rt)
      (fun q out => q = ⟨cp.state.stepCount, false, some cp⟩ ∧
        ∀ cp', out = .ok cp' → cp'.state.stepCount = cp.state.stepCount)
      (rt.runNode cp .tool) ⟨cp.state.stepCount, false, some cp⟩ := by
  refine Follows.bind ?_ ?_ (toolNode_counts rfl (not_spent_of_next (by simp [hnext])))
  · rintro q s ⟨rfl, hs⟩
    exact ⟨rfl, by rintro _ ⟨⟩; exact hs s rfl⟩
  · rintro q exc ⟨rfl, -⟩
    exact ⟨rfl, by rintro _ ⟨⟩⟩

/-- After it, the graph goes on from the checkpoint it left, or ends with its exception. -/
theorem runGraph_tool {fuel : ℕ} (ih : GoesOn rt fuel) (hnext : cp.next = some .tool) :
    Follows (StepMove rt) (StepPos.Ends rt) (rt.runGraph (fuel + 1) cp)
      ⟨cp.state.stepCount, false, some cp⟩ := by
  have hunspent : ¬ StepPos.Spent rt ⟨cp.state.stepCount, false, some cp⟩ :=
    not_spent_of_next (by simp [hnext])
  rw [AgentRuntime.runGraph, hnext]
  refine Follows.bind ?_ ?_ (Follows.attempt (Q := fun q out => ∃ out', out = .ok out' ∧
    q = ⟨cp.state.stepCount, false, some cp⟩ ∧
      ∀ cp', out' = .ok cp' → cp'.state.stepCount = cp.state.stepCount)
    (Follows.mono id (fun h => ⟨_, rfl, h⟩) (runNode_tool_counts hnext)))
  · rintro _ out ⟨_, ⟨⟩, rfl, hcount⟩
    cases out with
    | ok cp' =>
      have hlevel := hcount cp' rfl
      refine fun _ => ⟨_, .save cp' hlevel hunspent, ?_⟩
      rw [← hlevel]
      exact ih
    | error exc =>
      cases exc with
      | graphInterrupt payload =>
        exact ⟨fun h => absurd h hunspent, by rintro _ ⟨⟩; exact le_rfl⟩
      | _ => exact ⟨fun h => absurd h hunspent, by rintro _ ⟨⟩⟩
  · rintro q exc ⟨out, h, -⟩
    cases h

/-- **The graph**: from a checkpoint that is stored, each question takes one step. -/
theorem runGraph_counts (fuel : ℕ) : GoesOn rt fuel := by
  induction fuel with
  | zero =>
    intro cp
    cases hnext : cp.next with
    | none => exact runGraph_ended hnext
    | some node =>
      rw [AgentRuntime.runGraph, hnext]
      exact ⟨fun _ => ⟨_, rfl⟩, by rintro _ ⟨⟩⟩
  | succ fuel ih =>
    intro cp
    cases hnext : cp.next with
    | none => exact runGraph_ended hnext
    | some node =>
      cases node with
      | agent => exact runGraph_agent ih hnext
      | tool => exact runGraph_tool ih hnext

/-- An invocation, in a thread that holds nothing yet as far as the run is concerned. -/
theorem ainvoke_counts (threadId : String) (input : GraphInput) :
    Follows (StepMove rt) (StepPos.Ends rt) (rt.ainvoke threadId input)
      ⟨input.stepCount, false, none⟩ := by
  have hunspent : ¬ StepPos.Spent rt ⟨input.stepCount, false, none⟩ := by
    rintro ⟨_, ⟨⟩, -⟩
  exact fun old => ⟨_, .other _ rfl rfl rfl hunspent, fun _ =>
    ⟨_, .save (input.start threadId old) rfl hunspent, runGraph_counts _⟩⟩

end Walk

/-! ## What a path spends -/

section Path

variable {rt : AgentRuntime} {p q : StepPos} {es : List (Event Op Op.Res)}

/-- What one move does to the position. -/
theorem StepMove.effect {o : Op} {r : o.Res} (move : StepMove rt p o r q) :
    q.level = p.level + o.asks.toNat ∧ q.saved = o.saved?.or p.saved ∧
      (o.asks = true → p.level < rt.maxAgentSteps) ∧
      ((∀ cp ∈ p.saved, cp.state.stepCount + p.asked.toNat = p.level) →
        ∀ cp ∈ q.saved, cp.state.stepCount + q.asked.toNat = q.level) := by
  cases move with
  | ask messages reply left unspent =>
    refine ⟨rfl, rfl, fun _ => left, fun h cp hcp => ?_⟩
    have hlevel := h cp hcp
    simpa using hlevel
  | save cp count unspent =>
    refine ⟨rfl, rfl, fun h => by simp [Op.asks] at h, fun _ cp' hcp => ?_⟩
    obtain rfl := Option.some.inj hcp
    simpa using count
  | other r asks saved idle unspent =>
    refine ⟨by simp [asks], by simp [saved], fun h => by simp [asks] at h, fun h => h⟩

/-- A path adds the questions to the level, and it knows what is stored. -/
theorem path_effect (path : Path (StepMove rt) p es q) :
    q.level = p.level + llmCalls es ∧ q.saved = savedAfter p.saved es ∧
      q.level ≤ max p.level rt.maxAgentSteps ∧
      ((∀ cp ∈ p.saved, cp.state.stepCount + p.asked.toNat = p.level) →
        ∀ cp ∈ q.saved, cp.state.stepCount + q.asked.toNat = q.level) := by
  induction path with
  | nil p => exact ⟨rfl, rfl, le_max_left _ _, id⟩
  | @cons p m q o r es move _ ih =>
    obtain ⟨hlevel, hsaved, hleft, hcount⟩ := move.effect
    obtain ⟨ihlevel, ihsaved, ihmax, ihcount⟩ := ih
    refine ⟨?_, ?_, ?_, fun h => ihcount (hcount h)⟩
    · rw [ihlevel, hlevel]
      cases hasks : o.asks <;> simp [llmCalls, hasks, Nat.add_assoc, Nat.add_comm]
    · rw [ihsaved, hsaved]
      rfl
    · cases hasks : o.asks with
      | false =>
        have hsame : m.level = p.level := by simpa [hasks] using hlevel
        rwa [hsame] at ihmax
      | true =>
        have hlt := hleft hasks
        have hnext : m.level = p.level + 1 := by simpa [hasks] using hlevel
        omega

/-- After an interrupt the model has not been asked. -/
theorem idle_of_interrupt (path : Path (StepMove rt) p es q) {payload : Json}
    {answer : Option Json} (last : es.getLast? = some ⟨.interrupt payload answer, ()⟩) :
    q.asked = false := by
  induction path with
  | nil p => cases last
  | @cons p m q o r es move path ih =>
    cases path with
    | cons move' path' =>
      exact ih (by rwa [List.getLast?_cons_cons] at last)
    | nil =>
      obtain ⟨rfl, -⟩ := Event.mk.inj (Option.some.inj last)
      cases move with
      | other r asks saved idle unspent => exact idle

end Path

/-! ## The bound -/

section Bound

variable {rt : AgentRuntime} {threadId : String} {input : GraphInput}
  {es : List (Event Op Op.Res)} {q : Co GraphResult}

/-- A suspended run has a step left, and its resume goes on from the same counter. -/
theorem resume_counts {p : StepPos} {cp : Option Checkpoint} {value : Json}
    {es' : List (Event Op Op.Res)} (hsaved : p.saved = cp) (idle : p.asked = false)
    (unspent : ¬ p.Spent rt) (count : ∀ cp ∈ p.saved, cp.state.stepCount = p.level)
    (trace : Trace (rt.ainvokeResume threadId value) (⟨.thread (.load threadId), cp⟩ :: es') q) :
    ∃ p', Path (StepMove rt) p (⟨.thread (.load threadId), cp⟩ :: es') p' ∧
      Follows (StepMove rt) (StepPos.Ends rt) q p' := by
  have hload : StepMove rt p (.thread (.load threadId)) cp p :=
    .other (o := .thread (.load threadId)) cp rfl rfl idle unspent
  cases trace with
  | cons trace =>
    cases cp with
    | none =>
      have hrest : Follows (StepMove rt) (StepPos.Ends rt)
          (.raise (.remote "nothing to resume") : Co GraphResult) p :=
        ⟨fun h => absurd h unspent, by rintro _ ⟨⟩⟩
      obtain ⟨p', path, follows⟩ := hrest.path trace
      exact ⟨p', .cons hload path, follows⟩
    | some cp =>
      have hlevel : cp.state.stepCount = p.level := count cp hsaved
      have hgraph : Follows (StepMove rt) (StepPos.Ends rt)
          (rt.runGraph rt.recursionLimit { cp with resumes := cp.resumes ++ [value] })
          ⟨p.level, false, some { cp with resumes := cp.resumes ++ [value] }⟩ := by
        rw [← hlevel]
        exact runGraph_counts _
      have hrest : Follows (StepMove rt) (StepPos.Ends rt)
          (.op (.thread (.save { cp with resumes := cp.resumes ++ [value] })) fun _ =>
            rt.runGraph rt.recursionLimit { cp with resumes := cp.resumes ++ [value] }) p :=
        fun _ => ⟨_, .save _ hlevel unspent, hgraph⟩
      obtain ⟨p', path, follows⟩ := hrest.path trace
      exact ⟨p', .cons hload path, follows⟩

/-- **Runs**: a run with all its resumes is one path from the counter it starts with. -/
theorem AgentRuntime.GraphRun.position (run : rt.GraphRun threadId input es q) :
    ∃ p, Path (StepMove rt) ⟨input.stepCount, false, none⟩ es p ∧
      Follows (StepMove rt) (StepPos.Ends rt) q p := by
  induction run with
  | invoke trace => exact (ainvoke_counts threadId input).path trace
  | resume suspended last trace ih =>
    obtain ⟨p, path, hends, -⟩ := ih
    obtain ⟨-, hsaved, -, hcount⟩ := path_effect path
    have idle : p.asked = false := idle_of_interrupt path last
    have unspent : ¬ p.Spent rt := by
      intro h
      obtain ⟨text, herror⟩ := hends h
      cases herror
    have count : ∀ cp ∈ p.saved, cp.state.stepCount = p.level := by
      intro cp hcp
      have := hcount (by rintro _ ⟨⟩) cp hcp
      simpa [idle] using this
    obtain ⟨p', path', follows⟩ := resume_counts hsaved idle unspent count trace
    exact ⟨p', path.append path', follows⟩

/-- Without steps left there is nothing but the error. -/
theorem raises_of_spent {p : StepPos} (spent : p.Spent rt)
    (follows : Follows (StepMove rt) (StepPos.Ends rt) q p) :
    ∃ text, q = .raise (.runtime text) := by
  cases q with
  | ret result =>
    obtain ⟨text, h⟩ := follows.1 spent
    cases h
  | raise exc =>
    obtain ⟨text, h⟩ := follows.1 spent
    exact ⟨text, congrArg Prog.raise (Except.error.inj h)⟩
  | op o k =>
    obtain ⟨r⟩ := o.res_nonempty
    obtain ⟨_, move, -⟩ := follows r
    cases move with
    | ask messages reply left unspent => exact absurd spent unspent
    | save cp count unspent => exact absurd spent unspent
    | other r asks saved idle unspent => exact absurd spent unspent

/-- A run of the graph, with all its resumes, asks the model at most as often as there are
steps left when it starts; where it would ask once more it raises; and the counter it
returns is within the limit, or the one it was given. -/
theorem llmCalls_le (run : rt.GraphRun threadId input es q) :
    llmCalls es ≤ rt.maxAgentSteps - input.stepCount ∧
      (∀ cp, savedAfter none es = some cp → rt.Spent cp → ∃ text, q = .raise (.runtime text)) ∧
      ∀ result, q = .ret result → result.state.stepCount ≤ max input.stepCount rt.maxAgentSteps := by
  obtain ⟨p, path, follows⟩ := run.position
  obtain ⟨hlevel, hsaved, hmax, -⟩ := path_effect path
  refine ⟨?_, fun cp hcp spent => raises_of_spent ⟨cp, hsaved.trans hcp, spent⟩ follows, ?_⟩
  · simp only at hlevel hmax
    omega
  · rintro result rfl
    exact (follows.2 result rfl).trans hmax

end Bound

/-! ## The checkpoints of a thread

Run alone, the graph finds the checkpoint it has stored: what a resume continues from is what
the database holds for the thread. -/

section Threads

variable {rt : AgentRuntime} {threadId : String} {input : GraphInput} {db db' : Db}
  {es es' : List (Event Op Op.Res)} {result result' : GraphResult} {α : Type}

/-- What is loaded belongs to the thread. -/
def LoadsOwn : (o : Op) → o.Res → Prop
  | .thread (.load threadId), some cp => cp.threadId = threadId
  | _, _ => True

/-- A run of the graph stores checkpoints of its own thread only. -/
def threadContract (rt : AgentRuntime) (threadId : String) : Contract rt where
  assumes := LoadsOwn
  lists _ := True
  checkpoints cp := cp.threadId = threadId
  answers _ := True
  records _ := True
  select _ := trivial
  reserve _ _ _ _ := trivial
  executing _ := trivial
  stored _ _ := trivial
  executed _ := ⟨trivial, fun _ _ => ⟨trivial, trivial⟩⟩
  other _ _ := trivial
  asks _ _ := trivial
  replies hcp _ _ := hcp
  handles hcp _ _ _ := hcp

theorem loadsOwn_of_exec {o : Op} {env : Env} {r : o.Res} (h : exec o env db = some (r, db')) :
    LoadsOwn o r := by
  cases o with
  | thread o =>
    obtain ⟨rfl, -⟩ := exec_thread h
    cases o with
    | load threadId =>
      cases hload : db.threads.get threadId with
      | none => simp [LoadsOwn, ThreadOp.exec, hload]
      | some cp => simpa [LoadsOwn, ThreadOp.exec, hload] using Sql.Table.key_of_get hload
    | save cp => exact trivial
  | _ => exact trivial

/-- What is stored for the thread after a run is what the run has stored last. -/
theorem get_threads_of_runs {c : Co α} {out : Except Exn α} (run : Runs exec c db es out db') :
    (threadContract rt threadId).Kept c →
      db'.threads.get threadId = savedAfter (db.threads.get threadId) es := by
  induction run with
  | ret a db => exact fun _ => rfl
  | raise e db => exact fun _ => rfl
  | @op o k env r db db₁ db' es out he _ ih =>
    intro hc
    have hstored : db₁.threads.get threadId = o.saved?.or (db.threads.get threadId) := by
      rw [(exec_frame he).2.2.2]
      cases o with
      | thread o =>
        cases o with
        | load _ => rfl
        | save cp =>
          have hcp : cp.threadId = threadId := hc.1.2
          simp [Op.threadsAfter, ThreadOp.exec, get_saveCheckpoint, Op.saved?, hcp]
      | _ => rfl
    rw [ih (hc.2 r (loadsOwn_of_exec he)), hstored]
    rfl

theorem savedAfter_append (cp : Option Checkpoint) :
    savedAfter cp (es ++ es') = savedAfter (savedAfter cp es) es' := List.foldl_append

/-- An invocation that ends is a run in this sense. -/
theorem AgentRuntime.GraphRun.of_runs
    (run : Runs exec (rt.ainvoke threadId input) db es (.ok result) db') :
    rt.GraphRun threadId input es (.ret result) ∧
      db'.threads.get threadId = savedAfter none es := by
  refine ⟨.invoke (run.trace_ret rfl), ?_⟩
  have hkept : (threadContract rt threadId).Kept (rt.ainvoke threadId input) :=
    Contract.ainvoke_kept fun _ _ => rfl
  rw [get_threads_of_runs run hkept]
  -- the first thing that is stored hides what the thread held before
  obtain ⟨_, _, _, _, _, rfl, run₁⟩ := Runs.of_op run
  obtain ⟨_, _, _, _, _, rfl, -⟩ := Runs.of_op run₁
  rfl

/-- So is a resume of it, from the database the run has left. -/
theorem AgentRuntime.GraphRun.resume_of_runs {payload value : Json}
    (suspended : rt.GraphRun threadId input es (.ret result))
    (last : es.getLast? = some ⟨.interrupt payload none, ()⟩)
    (stored : db.threads.get threadId = savedAfter none es)
    (run : Runs exec (rt.ainvokeResume threadId value) db es' (.ok result') db') :
    rt.GraphRun threadId input (es ++ es') (.ret result') ∧
      db'.threads.get threadId = savedAfter none (es ++ es') := by
  have hkept : (threadContract rt threadId).Kept (rt.ainvokeResume threadId value) :=
    Contract.ainvokeResume_kept fun cp hcp => hcp
  refine ⟨?_, by rw [get_threads_of_runs run hkept, stored, savedAfter_append]⟩
  have htrace := run.trace_ret rfl
  obtain ⟨_, _, _, es₁, he, rfl, -⟩ := Runs.of_op run
  obtain ⟨rfl, -⟩ := exec_thread he
  have hload : (ThreadOp.exec (.load threadId) db.threads).1 = savedAfter none es := stored
  rw [hload] at htrace ⊢
  exact .resume suspended last htrace

end Threads

/-! ## A run with an approval -/

section Demo

/-- The operation is an interrupt without an answer. -/
def Op.suspends : Op → Bool
  | interrupt _ none => true
  | _ => false

theorem getLast_of_suspends {es : List (Event Op Op.Res)}
    (h : (es.getLast?.map fun e => e.op.suspends) = some true) :
    ∃ payload, es.getLast? = some ⟨.interrupt payload none, ()⟩ := by
  obtain ⟨⟨o, r⟩, hlast, hsuspends⟩ := Option.map_eq_some_iff.mp h
  cases o with
  | interrupt payload answer =>
    cases answer with
    | none => exact ⟨payload, hlast⟩
    | some v => cases hsuspends
  | _ => cases hsuspends

/-- The model asks for a transfer first, and the gateway for a human. -/
def transferModel : Op → Env
  | .llm [_] => .reply (.ok (.ai "" [⟨"call-1", "submit_transfer", .obj []⟩]))
  | o => demoEnv demoSuccess o

/-- A request with two steps left. -/
def twoStepsLeft : GraphInput := ⟨[.human "Pay"], "t", 48, none, none⟩

/-- The run is suspended for the approval and resumed with it; it takes both of its steps. -/
theorem llmCalls_resumed :
    ∃ (es : List (Event Op Op.Res)) (result : GraphResult),
      demoRuntime.GraphRun "t" twoStepsLeft es (.ret result) ∧
        (∃ e ∈ es, e.op.suspends = true) ∧ llmCalls es = 2 ∧ llmCalls es ≤ 50 - 48 ∧
          result.state.stepCount ≤ max 48 50 := by
  have hcomputed : ((runAlone exec transferModel 20 (demoRuntime.ainvoke "t" twoStepsLeft)
      Db.empty).bind fun x => (runAlone exec transferModel 20
        (demoRuntime.ainvokeResume "t" (.obj [("decision", .str "approved")])) x.2.2).map fun y =>
          x.2.1.toOption.isSome && y.2.1.toOption.isSome &&
            x.1.getLast?.map (fun e => e.op.suspends) == some true &&
              llmCalls (x.1 ++ y.1) == 2) = some true := by
    decide +kernel
  obtain ⟨⟨es, out, db⟩, hrun, hrest⟩ := Option.bind_eq_some_iff.mp hcomputed
  obtain ⟨⟨es', out', db'⟩, hrun', hall⟩ := Option.map_eq_some_iff.mp hrest
  simp only [Bool.and_eq_true, beq_iff_eq] at hall
  obtain ⟨⟨⟨hout, hout'⟩, hlast⟩, hcalls⟩ := hall
  cases out with
  | error exc => cases hout
  | ok result =>
    cases out' with
    | error exc => cases hout'
    | ok result' =>
      obtain ⟨payload, hlast'⟩ := getLast_of_suspends hlast
      obtain ⟨hinvoked, hstored⟩ := AgentRuntime.GraphRun.of_runs (runs_of_runAlone hrun)
      have hresumed := (hinvoked.resume_of_runs hlast' hstored (runs_of_runAlone hrun')).1
      have hinterrupt : ∃ e ∈ es ++ es', e.op.suspends = true :=
        ⟨_, List.mem_append_left _ (List.mem_of_getLast? hlast'), rfl⟩
      have hbound := llmCalls_le hresumed
      exact ⟨es ++ es', result', hresumed, hinterrupt, hcalls, hbound.1, hbound.2.2 _ rfl⟩

end Demo
end BankingAgent
