import BankingAgent.AuthorizedEffects
import BankingAgent.Contract
import BankingAgent.ResumeService

/-!
# Calls and answers in a conversation

A provider wants every tool call of a message answered by one `ToolMessage` before the model
speaks again, and no `ToolMessage` without a call. The nodes of the graph keep the messages so:
whoever is answered, skipped, denied or rejected, there is one answer for each call. It is
what the graph is started with that need not be in order: the reply to the transfer workflow's
question, which `agent` is asked about before `tool` has seen it; a thread that waits for the
tool node; and the lone answer of `resume_service.py`.
-/

namespace BankingAgent

open Async

/-! ## Paired messages -/

/-- A message of the model. -/
def Message.isAi : Message → Bool
  | .ai _ _ => true
  | _ => false

/-- The answer to the call with the id. -/
def Message.answers (id : String) : Message → Bool
  | .tool _ toolCallId _ => toolCallId = id
  | _ => false

/-- The message is in order between the others: each call has one answer before the model speaks
again, and an answer follows its call. -/
def Message.PairedIn (before after : List Message) : Message → Prop
  | .ai _ calls =>
    ∀ tc ∈ calls, (after.takeWhile fun m => !m.isAi).countP (Message.answers tc.id) = 1
  | .tool _ id _ => ∃ m ∈ before, ∃ tc ∈ m.toolCalls, tc.id = id
  | _ => True

instance Message.PairedIn.decide (before after : List Message) :
    ∀ m : Message, Decidable (m.PairedIn before after)
  | .ai _ calls => inferInstanceAs (Decidable (∀ tc ∈ calls, _ = 1))
  | .tool _ id _ => inferInstanceAs (Decidable (∃ m ∈ before, ∃ tc ∈ m.toolCalls, tc.id = id))
  | .human _ => instDecidableTrue
  | .system _ => instDecidableTrue

/-- Every message is in order where it stands. -/
def Paired (messages : List Message) : Prop :=
  ∀ before m after, messages = before ++ m :: after → m.PairedIn before after

instance (messages : List Message) : Decidable (Paired messages) :=
  decidable_of_iff
    (∀ i : Fin messages.length, messages[i].PairedIn (messages.take i) (messages.drop (i + 1)))
    ⟨by
      rintro h before m after rfl
      simpa using h ⟨before.length, by simp⟩,
    fun h i => h _ _ _ (by simp)⟩

section Paired

variable {before before' after ms ms' : List Message} {m : Message} {id : String}

/-- A message before which more is said stays in order. -/
theorem Message.PairedIn.mono (h : m.PairedIn before after) (hsub : before ⊆ before') :
    m.PairedIn before' after := by
  cases m with
  | tool content id name =>
    obtain ⟨m, hm, tc, htc⟩ := h
    exact ⟨m, hsub hm, tc, htc⟩
  | ai content calls => exact h
  | _ => exact trivial

/-- Up to the first message of the model nothing is answered. -/
theorem Paired.countP_leading (h : Paired ms) (id : String) :
    (ms.takeWhile fun m => !m.isAi).countP (Message.answers id) = 0 := by
  refine List.countP_eq_zero.mpr fun m hm hanswers => ?_
  obtain ⟨before, after, hsplit⟩ := List.append_of_mem hm
  have hquiet : ∀ m' ∈ before, m'.isAi = false := by
    intro m' hm'
    have hall := List.all_eq_true.mp (List.all_takeWhile (p := fun m => !m.isAi) (l := ms)) m'
      (by rw [hsplit]; exact List.mem_append_left _ hm')
    simpa using hall
  have hms : ms = before ++ m :: (after ++ ms.dropWhile fun m => !m.isAi) := by
    rw [← List.cons_append, ← List.append_assoc, ← hsplit, List.takeWhile_append_dropWhile]
  cases m with
  | tool content toolCallId name =>
    obtain ⟨m', hm', tc, htc, -⟩ := h _ _ _ hms
    cases m' with
    | ai content calls => cases hquiet _ hm'
    | _ => cases htc
  | _ => cases hanswers

/-- Paired messages may be followed by others. -/
theorem Message.PairedIn.append (h : m.PairedIn before after) (hms : Paired ms) :
    m.PairedIn before (after ++ ms) := by
  cases m with
  | ai content calls =>
    intro tc htc
    rw [List.takeWhile_append]
    split
    · rename_i hall
      rw [List.countP_append, hms.countP_leading, Nat.add_zero]
      have := h tc htc
      rwa [(List.takeWhile_prefix _).eq_of_length hall] at this
    · exact h tc htc
  | tool content id name => exact h
  | _ => exact trivial

/-- **One conversation after the other** is a conversation. -/
theorem Paired.append (h : Paired ms) (h' : Paired ms') : Paired (ms ++ ms') := by
  intro before m after heq
  rcases List.append_eq_append_iff.mp heq with ⟨middle, rfl, hsplit⟩ | ⟨middle, rfl, hsplit⟩
  · exact (h' _ _ _ hsplit).mono (List.subset_append_right _ _)
  · rcases List.cons_eq_append_iff.mp hsplit with ⟨rfl, rfl⟩ | ⟨middle, rfl, rfl⟩
    · exact (h' [] m after rfl).mono (List.nil_subset _)
    · exact (h before m middle rfl).append h'

/-- Messages that ask for nothing and answer nothing. -/
theorem paired_of_forall (h : ∀ m ∈ ms, ∀ before after, m.PairedIn before after) : Paired ms := by
  rintro before m after rfl
  exact h m (by simp) before after

theorem paired_nil : Paired [] := paired_of_forall fun _ hm => absurd hm List.not_mem_nil

theorem paired_human (text : String) : Paired [.human text] :=
  paired_of_forall (List.forall_mem_singleton.mpr fun _ _ => trivial)

theorem paired_instructions (system text : String) : Paired [.system system, .human text] :=
  paired_of_forall (List.forall_mem_cons.mpr
    ⟨fun _ _ => trivial, List.forall_mem_singleton.mpr fun _ _ => trivial⟩)

theorem paired_said {calls : List ToolRequest} (content : String) (h : calls = []) :
    Paired [.ai content calls] := by
  subst h
  exact paired_of_forall (List.forall_mem_singleton.mpr
    fun _ _ tc htc => absurd htc List.not_mem_nil)

/-- What the tool node makes of a message with calls. -/
theorem paired_handled {handled : List Handled} (content : String)
    (hids : (handled.map fun h => h.call.id).Nodup) :
    Paired (.ai content (handled.map Handled.call) :: handled.map Handled.message) := by
  intro before m after heq
  rcases List.cons_eq_append_iff.mp heq with ⟨rfl, hm⟩ | ⟨before, rfl, hm⟩
  · -- the message with the calls: all the others are answers
    obtain ⟨rfl, rfl⟩ := List.cons_eq_cons.mp hm
    intro tc htc
    obtain ⟨h, hh, rfl⟩ := List.mem_map.mp htc
    rw [← List.append_nil (handled.map Handled.message), List.takeWhile_append_of_pos (by simp
      [Handled.message, Message.isAi]), List.takeWhile_nil, List.append_nil, List.countP_map]
    have hone := List.count_eq_one_of_mem hids (List.mem_map_of_mem hh)
    rwa [List.count, List.countP_map] at hone
  · -- an answer: its call is in the message
    obtain ⟨h, hh, rfl⟩ := List.mem_map.mp (show m ∈ handled.map Handled.message by simp [hm])
    exact ⟨_, List.mem_cons_self, h.call, List.mem_map_of_mem hh, rfl⟩

/-- A call that is not answered before the customer goes on is never answered. -/
theorem not_paired_of_unanswered {content : String} {calls : List ToolRequest} (hne : calls ≠ [])
    (h : ∀ m ∈ after, ∀ id, m.answers id = false) :
    ¬ Paired (ms ++ .ai content calls :: after) := by
  intro hpaired
  obtain ⟨call, hcall⟩ := List.exists_mem_of_ne_nil _ hne
  have hone := hpaired _ _ _ rfl call hcall
  rw [List.countP_eq_zero.mpr fun m hm => by simp [h m (List.takeWhile_subset _ hm)]] at hone
  cases hone

/-- The messages after a decision are never paired. -/
theorem resumeState_not_paired (approval : ApprovalResult) (session : HITLSession) :
    ¬ Paired (GraphResumeService.resumeState approval session).messages := by
  intro h
  obtain ⟨m, hm, -⟩ := h [] _ [] rfl
  exact absurd hm List.not_mem_nil

end Paired

/-! ## The calls -/

/-- A call that leads a conversation. -/
inductive Dialogue : Type where
  | run (args : RunArgs)
  | resume (threadId : String) (resumeValue : Json) (runId : String)
  | respond (threadId : String) (resumeState : AgentState)

/-- The text of a call. -/
def AgentRuntime.converse (rt : AgentRuntime) : Dialogue → Co Unit
  | .run args => do
    let _ ← rt.run args
    return ()
  | .resume threadId resumeValue runId => do
    let _ ← rt.resume threadId resumeValue runId
    return ()
  | .respond threadId resumeState => do
    let _ ← GraphResumeService.resumeAndRespond rt.py rt.recursionLimit threadId resumeState
    return ()

/-- The calls, any number of them at the same time. -/
def AgentRuntime.dialogues (rt : AgentRuntime) :
    Machine Op Op.Res Exn Unit Dialogue Env Db := ⟨exec, rt.converse⟩

/-- What a model may say: it gives its calls different ids. -/
def isReply : (o : Op) → o.Res → Bool
  | .llm _, .ok (.ai _ calls) => decide (calls.map ToolRequest.id).Nodup
  | .llm _, .ok _ => false
  | _, _ => true

/-- Any calls at any time, with models that give their calls different ids. -/
def distinctIds : Discipline Db Dialogue (LogEntry Dialogue) where
  start _ := True
  crash := True
  sequential := False
  ok _ _ e := isReply e.op e.res = true

section Decidable

instance : DecidablePred distinctIds.start := fun _ => instDecidableTrue

instance : Decidable distinctIds.crash := instDecidableTrue

instance : Decidable distinctIds.sequential := instDecidableFalse

instance (db : Db) (h : List (LogEntry Dialogue)) (e : LogEntry Dialogue) :
    Decidable (distinctIds.ok db h e) :=
  inferInstanceAs (Decidable (isReply e.op e.res = true))

end Decidable

/-- Every message list a model is asked about is paired. -/
def ConversationsPaired {rt : AgentRuntime} (c : rt.dialogues.Config) : Prop :=
  ∀ e ∈ c.hist, ∀ messages, e.op = .llm messages → Paired messages

/-- The question of the transfer workflow. -/
def isTransferQuestion : List Message → Bool
  | [.system text, .human _] => text = AgentRuntime.transferSystem
  | _ => false

/-- What a call finds and is told does not lead the graph astray: a run does not start on a
thread that waits for the tool node, nor with messages that do not go on from there; the
question of the transfer workflow is answered without a call; and the service starts with
paired messages. -/
def Dialogue.inOrder : Dialogue → (o : Op) → o.Res → Bool
  | .run args, .thread (.load _), old =>
    match args.resumeFromState with
    | none => old.bind Checkpoint.next ≠ some .tool
    | some given => Paired ((old.map (·.state.messages)).getD [] ++ given.messages)
  | .run _, .llm messages, .ok reply => !isTransferQuestion messages || reply.toolCalls.isEmpty
  | .respond _ resumeState, _, _ => Paired resumeState.messages
  | _, _, _ => true

/-! ## The contract -/

/-- A checkpoint is in order: where the tool node is next, the last message has the calls. -/
structure Checkpoint.WellFormed (cp : Checkpoint) : Prop where
  paired : cp.next ≠ some .tool → Paired cp.state.messages
  asked : cp.next = some .tool → ∃ earlier content calls,
    cp.state.messages = earlier ++ [.ai content calls] ∧ Paired earlier ∧ calls ≠ [] ∧
      (calls.map ToolRequest.id).Nodup

/-- The checkpoint that is read is in order. -/
def ReadsWellFormed : (o : Op) → o.Res → Prop
  | .thread (.load _), some cp => cp.WellFormed
  | _, _ => True

/-- The reply of the model is paired, or the tool node has to look at it. -/
theorem Checkpoint.WellFormed.replied {cp : Checkpoint} {response : Message}
    (h : cp.WellFormed) (hnext : cp.next = some .agent)
    (hreply : isReply (.llm cp.state.messages) (.ok response) = true) :
    Checkpoint.WellFormed { cp with
      state := cp.state.afterAgent response
      next := (cp.state.afterAgent response).nextAfterAgent
      resumes := [] } := by
  have hpaired : Paired cp.state.messages := h.paired (by rw [hnext]; decide)
  cases response with
  | ai content calls =>
    have hcalls : (cp.state.afterAgent (.ai content calls)).lastCalls = calls := by
      simp [AgentState.lastCalls, AgentState.afterAgent, Message.toolCalls]
    refine ⟨fun hnode => ?_, fun hnode =>
      ⟨_, content, calls, rfl, hpaired, ?_, of_decide_eq_true hreply⟩⟩
    · cases calls with
      | nil => exact hpaired.append (paired_said content rfl)
      | cons call calls =>
        refine absurd ?_ hnode
        simp only [AgentState.nextAfterAgent, hcalls]
        rfl
    · rintro rfl
      simp only [AgentState.nextAfterAgent, hcalls] at hnode
      cases hnode
  | _ => cases hreply

/-- Whatever becomes of the calls, they keep their ids. -/
theorem map_id_of_answers {resumes : List Json} {calls : List ToolRequest} {handled : List Handled}
    (h : List.Forall₂ (Handled.Answers resumes) calls handled) :
    handled.map (fun h => h.call.id) = calls.map ToolRequest.id := by
  induction h with
  | nil => rfl
  | cons hcall _ ih => rw [List.map_cons, List.map_cons, hcall.id, ih]

/-- The tool node answers every call. -/
theorem Checkpoint.WellFormed.handled {cp : Checkpoint} {handled : List Handled}
    {progress : Progress} (h : cp.WellFormed) (hnext : cp.next = some .tool)
    (hcalls : List.Forall₂ (Handled.Answers cp.resumes) cp.state.lastCalls handled) :
    Checkpoint.WellFormed { cp with
      state := cp.state.afterTools handled progress
      next := some .agent
      resumes := [] } := by
  obtain ⟨earlier, content, calls, hms, hearlier, -, hids⟩ := h.asked hnext
  have hlast : cp.state.lastCalls = calls := by
    simp [AgentState.lastCalls, hms, Message.toolCalls]
  rw [hlast] at hcalls
  have hafter : (cp.state.afterTools handled progress).messages =
      earlier ++ .ai content (handled.map Handled.call) :: handled.map Handled.message := by
    simp [AgentState.afterTools, hms, Message.withCalls]
  refine ⟨fun _ => ?_, fun hnode => by cases hnode⟩
  rw [show (cp.state.afterTools handled progress).messages = _ from hafter]
  refine hearlier.append (paired_handled content ?_)
  rwa [map_id_of_answers hcalls]

/-- What a call relies on. -/
def pairing (rt : AgentRuntime) (call : Dialogue) : Contract rt where
  assumes o r := (isReply o r = true ∧ call.inOrder o r = true) ∧ ReadsWellFormed o r
  lists := Paired
  checkpoints := Checkpoint.WellFormed
  answers _ := True
  records _ := True
  select _ := trivial
  reserve _ _ _ _ := trivial
  executing _ := trivial
  stored _ _ := trivial
  executed _ := ⟨trivial, fun _ _ => ⟨trivial, trivial⟩⟩
  other _ _ := trivial
  asks hcp hnext := hcp.paired (by rw [hnext]; decide)
  replies hcp hnext hreply := hcp.replied hnext hreply.1.1
  handles hcp hnext hcalls _ := hcp.handled hnext hcalls

variable {rt : AgentRuntime} {call : Dialogue}

/-- A thread that does not wait for the tool node may be gone on with. -/
theorem paired_loaded {old : Option Checkpoint} {threadId : String}
    (hread : ReadsWellFormed (.thread (.load threadId)) old)
    (hnext : old.bind Checkpoint.next ≠ some .tool) :
    Paired ((old.map (·.state.messages)).getD []) := by
  cases old with
  | none => exact paired_nil
  | some cp => exact hread.paired hnext

/-- **A message on a thread** is paired exactly if the thread does not wait for the tool node. -/
theorem paired_started_iff {old : Option Checkpoint} {threadId : String}
    (hread : ReadsWellFormed (.thread (.load threadId)) old) (text : String) :
    Paired ((old.map (·.state.messages)).getD [] ++ [.human text]) ↔
      old.bind Checkpoint.next ≠ some .tool := by
  refine ⟨fun hpaired hnext => ?_, fun hnext => (paired_loaded hread hnext).append
    (paired_human text)⟩
  obtain ⟨cp, rfl, hnode⟩ := Option.bind_eq_some_iff.mp hnext
  obtain ⟨earlier, content, calls, hms, -, hne, -⟩ := Checkpoint.WellFormed.asked hread hnode
  simp only [Option.map_some, Option.getD_some, hms, List.append_assoc] at hpaired
  exact not_paired_of_unanswered hne (List.forall_mem_singleton.mpr fun _ => rfl) hpaired

/-- **What the transfer workflow starts the graph with** is paired exactly if, besides, the
model has asked for nothing. -/
theorem paired_workflow_iff {old : Option Checkpoint} {threadId : String}
    (hread : ReadsWellFormed (.thread (.load threadId)) old) (text content : String)
    (calls : List ToolRequest) :
    Paired ((old.map (·.state.messages)).getD [] ++ [.human text, .ai content calls]) ↔
      old.bind Checkpoint.next ≠ some .tool ∧ calls = [] := by
  constructor
  · intro hpaired
    refine ⟨fun hnext => ?_, ?_⟩
    · obtain ⟨cp, rfl, hnode⟩ := Option.bind_eq_some_iff.mp hnext
      obtain ⟨earlier, before, asked, hms, -, hne, -⟩ := Checkpoint.WellFormed.asked hread hnode
      simp only [Option.map_some, Option.getD_some, hms, List.append_assoc] at hpaired
      exact not_paired_of_unanswered hne (List.forall_mem_cons.mpr
        ⟨fun _ => rfl, List.forall_mem_singleton.mpr fun _ => rfl⟩) hpaired
    · by_contra hne
      rw [List.append_cons] at hpaired
      exact not_paired_of_unanswered hne (fun m hm => absurd hm List.not_mem_nil) hpaired
  · rintro ⟨hnext, hnil⟩
    exact (paired_loaded hread hnext).append ((paired_human text).append (paired_said content hnil))

theorem pairing_opens (args : RunArgs) : (pairing rt (.run args)).Opens args where
  direct _ := paired_instructions _ _
  planner := paired_instructions _ _
  rag := paired_instructions _ _
  transfer := paired_instructions _ _
  graph old hold := by
    obtain ⟨⟨-, horder⟩, hread⟩ := hold
    refine ⟨fun _ => ?_, fun hnode => by cases hnode⟩
    cases hgiven : args.resumeFromState with
    | none =>
      have hnext : old.bind Checkpoint.next ≠ some .tool := by
        simpa [Dialogue.inOrder, hgiven] using horder
      have hstart : (AgentRuntime.initialInput args).messages = [.human args.userMessage] := by
        simp [AgentRuntime.initialInput, hgiven]
      change Paired (_ ++ _)
      rw [hstart]
      exact (paired_started_iff hread _).mpr hnext
    | some given =>
      have hstart : (AgentRuntime.initialInput args).messages = given.messages := by
        simp [AgentRuntime.initialInput, hgiven]
      change Paired (_ ++ _)
      rw [hstart]
      simpa [Dialogue.inOrder, hgiven] using horder
  workflow response old hnone hreply hold := by
    obtain ⟨⟨-, horder⟩, hread⟩ := hold
    obtain ⟨⟨hsaid, hcalls⟩, -⟩ := hreply
    have hnext : old.bind Checkpoint.next ≠ some .tool := by
      simpa [Dialogue.inOrder, hnone] using horder
    refine ⟨fun _ => ?_, fun hnode => by cases hnode⟩
    cases response with
    | ai content calls =>
      have hnil : calls = [] := by
        simpa [Dialogue.inOrder, isTransferQuestion, Message.toolCalls] using hcalls
      exact (paired_workflow_iff hread _ content calls).mpr ⟨hnext, hnil⟩
    | _ => cases hsaid

/-- Where the service starts, if with paired messages. -/
def Dialogue.StartsPaired : Dialogue → Prop
  | .respond _ resumeState => Paired resumeState.messages
  | _ => True

theorem Dialogue.startsPaired_of_inOrder {o : Op} {r : o.Res}
    (h : call.inOrder o r = true) : call.StartsPaired := by
  cases call with
  | respond threadId resumeState => exact of_decide_eq_true (p := Paired resumeState.messages) h
  | _ => exact trivial

/-- The graph of the service, its gateway and its lost checkpoints included. -/
theorem resumeAndRespond_kept {threadId : String} {resumeState : AgentState}
    (hstart : Paired resumeState.messages) :
    (pairing rt (.respond threadId resumeState)).Kept
      (GraphResumeService.resumeAndRespond rt.py rt.recursionLimit threadId resumeState) := by
  have hcp : Checkpoint.WellFormed ⟨threadId, resumeState, some .agent, []⟩ :=
    ⟨fun _ => hstart, fun hnode => by cases hnode⟩
  have hgraph : (pairing (GraphResumeService.graph rt.py rt.recursionLimit)
      (.respond threadId resumeState)).Kept
        (GraphResumeService.run rt.py rt.recursionLimit threadId resumeState) := by
    refine Relies.handle ?_ (Contract.runGraph_kept _ hcp)
    intro o r hauto
    have horder : Dialogue.inOrder (.respond threadId resumeState) o r = true :=
      decide_eq_true hstart
    cases o with
    | authorize op => exact ⟨⟨rfl, horder⟩, trivial⟩
    | thread o =>
      cases o with
      | save cp => exact ⟨⟨rfl, horder⟩, trivial⟩
      | load threadId => cases hauto
    | _ => cases hauto
  refine Contract.Kept.bind (Contract.Kept.attempt hgraph) fun out => ?_
  cases out <;> exact trivial

theorem converse_relies (call : Dialogue) :
    Relies (pairing rt call).assumes (fun o => call.StartsPaired → (pairing rt call).Guarantees o)
      (fun _ => True) (rt.converse call) := by
  cases call with
  | run args =>
    exact Relies.weaken (fun h _ => h)
      ((Contract.run_kept (pairing_opens args)).bind fun _ => trivial)
  | resume threadId resumeValue runId =>
    refine Relies.weaken (fun h _ => h) ((Contract.resume_kept fun cp hload => ?_).bind
      fun _ => trivial)
    have hcp : cp.WellFormed := hload.2
    exact ⟨hcp.paired, hcp.asked⟩
  | respond threadId resumeState =>
    by_cases hstart : Paired resumeState.messages
    · exact Relies.weaken (fun h _ => h) ((resumeAndRespond_kept hstart).bind fun _ => trivial)
    · refine Relies.seq ?_ fun _ => trivial
      exact relies_of_only (fun _ h => absurd h hstart) (fun _ => trivial)
        GraphResumeService.resumeAndRespond_only

/-! ## The law -/

/-- Every stored checkpoint is in order. -/
def StoredWellFormed (db : Db) : Prop :=
  ∀ threadId cp, db.threads.get threadId = some cp → cp.WellFormed

section Exec

variable {db db' : Db} {o : Op} {env : Env} {r : o.Res}

theorem StoredWellFormed.reads (hdb : StoredWellFormed db) (he : exec o env db = some (r, db')) :
    ReadsWellFormed o r := by
  cases o with
  | thread o =>
    cases o with
    | load threadId =>
      obtain ⟨hr, -⟩ := exec_thread he
      cases r with
      | none => exact trivial
      | some cp => exact hdb threadId cp hr.symm
    | save cp => exact trivial
  | _ => exact trivial

theorem StoredWellFormed.exec (hdb : StoredWellFormed db) (hkeeps : (pairing rt call).Guarantees o)
    (he : exec o env db = some (r, db')) : StoredWellFormed db' := by
  obtain ⟨-, -, -, hthreads⟩ := exec_frame he
  intro threadId cp hget
  rw [hthreads] at hget
  rcases Op.get_threadsAfter hget with hget | ⟨rfl, -⟩
  · exact hdb threadId cp hget
  · exact hkeeps.2

end Exec

/-- **Conversations are paired** in every run of any calls, at the same time and with crashes
anywhere, whatever the models, the tools and the policy answer, in which the graph is started
in order. -/
theorem conversations_paired {db : Db} {c : rt.dialogues.Config}
    (hthreads : ∀ threadId, db.threads.get threadId = none)
    (run : rt.dialogues.Reach distinctIds (Pool.init db) c)
    (horder : ∀ e ∈ c.hist, e.call.inOrder e.op e.res = true) : ConversationsPaired c := by
  have hstored : StoredWellFormed db := by
    intro threadId cp hget
    rw [hthreads] at hget
    cases hget
  have hwithin := run.within (H := c.hist) fun _ h => h
  obtain ⟨-, hhist, -⟩ := Machine.Reach.relies (J := StoredWellFormed)
    (fun call _ => converse_relies call) hstored (by
      intro db db' h i call o env r hdb hkeeps he hok
      have hcall := horder _ hok.2
      exact ⟨⟨⟨hok.1, hcall⟩, hdb.reads he⟩,
        hdb.exec (hkeeps (Dialogue.startsPaired_of_inOrder hcall)) he⟩) hwithin
  rintro ⟨i, call, o, env, r⟩ hmem messages rfl
  exact (hhist _ hmem (Dialogue.startsPaired_of_inOrder (horder _ hmem))).2

/-! ## Two conversations -/

/-- The lists the models are asked about, the last one first. -/
def askedAbout (h : List (LogEntry Dialogue)) : List (List Message) :=
  h.filterMap fun e =>
    match e.op with
    | .llm messages => some messages
    | _ => none

theorem mem_askedAbout {h : List (LogEntry Dialogue)} {messages : List Message}
    (hm : messages ∈ askedAbout h) : ∃ e ∈ h, e.op = .llm messages := by
  obtain ⟨⟨i, call, o, env, r⟩, he, hop⟩ := List.mem_filterMap.mp hm
  cases o with
  | llm messages' => exact ⟨_, he, congrArg Op.llm (Option.some.inj hop)⟩
  | _ => cases hop

/-- The model wants to submit a transfer, and the gateway a human to look at it. -/
def submitting : Op → Env := answering (.ai "" [⟨"call-1", "submit_transfer", .obj []⟩]) .pending

/-- A run waits for a human, who approves. -/
def suspendedAndResumed : List (Machine.Act Dialogue Op Env) :=
  [.spawn (.run (firstRequest "hello")), .steps 0 60 submitting,
    .spawn (.resume "run" (.obj [("decision", .str "approved")]) "run"), .steps 1 60 submitting]

/-- After the approval the model sees its call with the answer. -/
theorem conversations_paired_after_approval :
    ∃ c : demoRuntime.dialogues.Config,
      demoRuntime.dialogues.Reach distinctIds (Pool.init Db.empty) c ∧
        (askedAbout c.hist).map List.length = [3, 1] ∧ ConversationsPaired c := by
  have hrun : ((demoRuntime.dialogues.run? distinctIds suspendedAndResumed
    (Pool.init Db.empty)).map fun c => decide ((askedAbout c.hist).map List.length = [3, 1]) &&
      c.hist.all fun e => e.call.inOrder e.op e.res).getD false = true := by decide +kernel
  obtain ⟨c, run, hc⟩ := Machine.exists_reach_of_run? (P := fun c =>
    decide ((askedAbout c.hist).map List.length = [3, 1]) &&
      c.hist.all fun e => e.call.inOrder e.op e.res) hrun
  obtain ⟨hasked, horder⟩ := (Bool.and_eq_true _ _).mp hc
  exact ⟨c, run, of_decide_eq_true hasked,
    conversations_paired (fun _ => rfl) run (List.all_eq_true.mp horder)⟩

/-- The transfer workflow passes on a call nobody has answered. -/
theorem transfer_call_unanswered :
    ∃ c : (registeredRuntime demoPy).dialogues.Config,
      (registeredRuntime demoPy).dialogues.Reach distinctIds (Pool.init Db.empty) c ∧
        ¬ ConversationsPaired c := by
  have hrun : (((registeredRuntime demoPy).dialogues.run? distinctIds
    [.spawn (.run (firstRequest "create transfer")), .steps 0 20 submitting]
    (Pool.init Db.empty)).map fun c =>
      (askedAbout c.hist).any fun messages => !decide (Paired messages)).getD false = true := by
    decide +kernel
  obtain ⟨c, run, hc⟩ := Machine.exists_reach_of_run? (P := fun c =>
    (askedAbout c.hist).any fun messages => !decide (Paired messages)) hrun
  obtain ⟨messages, hm, hunpaired⟩ := List.any_eq_true.mp hc
  obtain ⟨e, he, hop⟩ := mem_askedAbout hm
  refine ⟨c, run, fun hpaired => ?_⟩
  rw [decide_eq_true (hpaired e he messages hop)] at hunpaired
  cases hunpaired

end BankingAgent
