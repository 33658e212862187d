import BankingAgent.Contract

/-!
# Whose words a model reads

`POST /agent` takes the session id of the client for the run id and for the thread, and the
checkpoint of the thread for the beginning of the conversation, whoever left it there. The
same id is in the keys of the idempotency records. What a model is told in a run for a user
comes from that user's runs as long as no other user names the same session, and no two of
them meet under one key.
-/

namespace BankingAgent

open Async

/-- The requests to the agent, any number of them at the same time. -/
def AgentRuntime.agents (rt : AgentRuntime) :
    Machine Op Op.Res Exn RunResult AgentRequest Env Db := ⟨exec, rt.agentEndpoint⟩

/-- The subject a request is served for. -/
abbrev AgentRequest.subject (r : AgentRequest) : String := r.trusted.subjectId

variable {rt : AgentRuntime} {H : List (LogEntry AgentRequest)} {subject : String}

/-- A run for the subject has called a tool with this result. -/
def ToolAnswered (H : List (LogEntry AgentRequest)) (subject : String) (result : ToolResult) :
    Prop :=
  ∃ i r site call env, ⟨i, r, .callTool site call, env, .ok result⟩ ∈ H ∧ r.subject = subject

/-- What a record keeps of a result was a result of the subject. -/
def RecordedFor (H : List (LogEntry AgentRequest)) (subject : String) (kept : Option String) :
    Prop :=
  ∀ text, kept = some text → ∃ result, ToolAnswered H subject result ∧ text = result.content

/-- The answer to a call shows no result but the subject's own. -/
def AnsweredFor (H : List (LogEntry AgentRequest)) (subject : String) : Answer → Prop
  | .executed result => ToolAnswered H subject result
  | .stored existing => RecordedFor H subject existing.result
  | _ => True

/-- Where the messages of a subject come from. -/
inductive Obtained (rt : AgentRuntime) (H : List (LogEntry AgentRequest)) (subject : String) :
    Message → Prop
  /-- the program has written it -/
  | system (text : String) : Obtained rt H subject (.system text)
  /-- the subject has sent it -/
  | sent {e : LogEntry AgentRequest} (mem : e ∈ H) (own : e.call.subject = subject) :
      Obtained rt H subject (.human e.call.message)
  /-- the planner has put into its own words what the subject has sent -/
  | goal {e : LogEntry AgentRequest} (mem : e ∈ H) (own : e.call.subject = subject) :
      Obtained rt H subject (.human (plannerPrompt rt.toolRegistry e.call.message))
  /-- a model has answered it in a run for the subject -/
  | replied {i : ℕ} {r : AgentRequest} {messages : List Message} {env : Env} {m : Message}
      (mem : ⟨i, r, .llm messages, env, .ok m⟩ ∈ H) (own : r.subject = subject) :
      Obtained rt H subject m
  /-- the answer to a tool call -/
  | handled {answer : Answer} (given : AnsweredFor H subject answer) (name id : String) :
      Obtained rt H subject (.tool (answer.content name) id name)

/-- All that models are told in runs for a user was obtained for that user. -/
def ConversationsIsolated (c : rt.agents.Config) : Prop :=
  ∀ e ∈ c.hist, ∀ messages, e.op = .llm messages →
    ∀ m ∈ messages, Obtained rt c.hist e.call.subject m

/-- The key of the idempotency record the operation is about. -/
def Op.recordKey? : Op → Option String
  | idem o => some o.key
  | _ => none

/-- Different users name different sessions, and never meet under one key. -/
structure SubjectsApart (H : List (LogEntry AgentRequest)) : Prop where
  sessions : ∀ e ∈ H, ∀ e' ∈ H, e.call.runId = e'.call.runId → e.call.subject = e'.call.subject
  keys : ∀ e ∈ H, ∀ e' ∈ H, e.op.recordKey?.isSome → e.op.recordKey? = e'.op.recordKey? →
    e.call.subject = e'.call.subject

instance (H : List (LogEntry AgentRequest)) : Decidable (SubjectsApart H) :=
  decidable_of_iff
    ((∀ e ∈ H, ∀ e' ∈ H, e.call.runId = e'.call.runId → e.call.subject = e'.call.subject) ∧
      ∀ e ∈ H, ∀ e' ∈ H, e.op.recordKey?.isSome → e.op.recordKey? = e'.op.recordKey? →
        e.call.subject = e'.call.subject)
    ⟨fun h => ⟨h.1, h.2⟩, fun h => ⟨h.sessions, h.keys⟩⟩

/-! ## The contract -/

/-- What an answer says to the request. -/
def AnswersFor (rt : AgentRuntime) (H : List (LogEntry AgentRequest)) (r : AgentRequest) :
    (o : Op) → o.Res → Prop
  | .llm _, .ok m => Obtained rt H r.subject m
  | .callTool _ _, .ok result => ToolAnswered H r.subject result
  | .idem (.select _), some row => RecordedFor H r.subject row.result
  | .thread (.load threadId), some cp =>
    threadId = r.runId → ∀ m ∈ cp.state.messages, Obtained rt H r.subject m
  | _, _ => True

/-- The checkpoint is one of the request's thread, with messages of its subject. -/
structure Checkpoint.KeptFor (rt : AgentRuntime) (H : List (LogEntry AgentRequest))
    (r : AgentRequest) (cp : Checkpoint) : Prop where
  thread : cp.threadId = r.runId
  resumes : cp.resumes = []
  messages : ∀ m ∈ cp.state.messages, Obtained rt H r.subject m

/-- The statement records results of the subject. -/
def RecordsFor (H : List (LogEntry AgentRequest)) (r : AgentRequest) : IdempotencyOp → Prop
  | .update _ (.succeeded text _) => RecordedFor H r.subject (some text)
  | _ => True

/-- Nothing of a message changes if its calls do not. -/
theorem Message.withCalls_toolCalls (m : Message) : m.withCalls m.toolCalls = m := by
  cases m <;> rfl

/-- Handled without approvals, the calls stay as they are. -/
theorem AgentState.messages_afterTools {s : AgentState} {handled : List Handled} {p : Progress}
    (h : handled.map Handled.call = s.lastCalls) :
    (s.afterTools handled p).messages = s.messages ++ handled.map Handled.message := by
  simp only [AgentState.afterTools, h]
  rcases List.eq_nil_or_concat s.messages with hnil | ⟨init, last, hlast⟩
  · simp [hnil]
  · have hcalls : s.lastCalls = last.toolCalls := by simp [AgentState.lastCalls, hlast]
    simp [hlast, hcalls, Message.withCalls_toolCalls]

theorem map_call_of_answers {calls : List ToolRequest} {handled : List Handled}
    (h : List.Forall₂ (Handled.Answers []) calls handled) : handled.map Handled.call = calls := by
  induction h with
  | nil => rfl
  | cons hcall _ ih => rw [List.map_cons, hcall.call rfl, ih]

/-- The contract of a request: what it says and keeps is its subject's. -/
def subjectContract (rt : AgentRuntime) (H : List (LogEntry AgentRequest)) (r : AgentRequest) :
    Contract rt where
  assumes o res := (∃ e ∈ H, e.call = r) ∧ AnswersFor rt H r o res
  lists messages := ∀ m ∈ messages, Obtained rt H r.subject m
  checkpoints := Checkpoint.KeptFor rt H r
  answers := AnsweredFor H r.subject
  records := RecordsFor H r
  select _ := trivial
  reserve _ _ _ _ := trivial
  executing _ := trivial
  stored hrow hrecord := by
    rw [AnsweredFor, IdempotencyRow.result_toRecord hrecord]
    exact hrow.2
  executed {site call result} hanswer := by
    have hresult : ToolAnswered H r.subject result := hanswer.2
    refine ⟨hresult, fun key now => ⟨?_, trivial⟩⟩
    rintro text ⟨⟩
    exact ⟨result, hresult, rfl⟩
  other {answer} hstored hexecuted := by
    cases answer with
    | stored existing => exact absurd rfl (hstored existing)
    | executed result => exact absurd rfl (hexecuted result)
    | _ => exact trivial
  asks hcp _ := hcp.messages
  replies hcp _ hreply := by
    refine ⟨hcp.thread, rfl, fun m hm => ?_⟩
    rcases List.mem_append.mp hm with hm | hm
    · exact hcp.messages m hm
    · rw [List.mem_singleton.mp hm]
      exact hreply.2
  handles {cp handled progress} hcp _ hcalls hanswers := by
    refine ⟨hcp.thread, rfl, fun m hm => ?_⟩
    rw [hcp.resumes] at hcalls
    rw [AgentState.messages_afterTools (map_call_of_answers hcalls)] at hm
    rcases List.mem_append.mp hm with hm | hm
    · exact hcp.messages m hm
    · obtain ⟨h, hh, rfl⟩ := List.mem_map.mp hm
      exact .handled (hanswers h hh) h.call.name h.call.id

theorem subjectContract_opens {r : AgentRequest} {e : LogEntry AgentRequest} (mem : e ∈ H)
    (hcall : e.call = r) : (subjectContract rt H r).Opens r.runArgs := by
  have hsent : Obtained rt H r.subject (.human r.message) := by
    rw [← hcall]
    exact .sent mem rfl
  have hgoal : Obtained rt H r.subject (.human (plannerPrompt rt.toolRegistry r.message)) := by
    rw [← hcall]
    exact .goal mem rfl
  have hloaded {old : Option Checkpoint}
      (hold : (subjectContract rt H r).assumes (.thread (.load r.runId)) old) :
      ∀ m ∈ (old.map (·.state.messages)).getD [], Obtained rt H r.subject m := by
    cases old with
    | none => exact fun m hm => absurd hm List.not_mem_nil
    | some cp => exact hold.2 rfl
  refine ⟨fun toolName => ?_, ?_, ?_, ?_, fun old hold => ⟨rfl, rfl, ?_⟩,
    fun response old _ hreply hold => ⟨rfl, rfl, ?_⟩⟩
  · exact List.forall_mem_cons.mpr ⟨.system _, List.forall_mem_singleton.mpr hsent⟩
  · exact List.forall_mem_cons.mpr ⟨.system _, List.forall_mem_singleton.mpr hgoal⟩
  · exact List.forall_mem_cons.mpr ⟨.system _, List.forall_mem_singleton.mpr hsent⟩
  · exact List.forall_mem_cons.mpr ⟨.system _, List.forall_mem_singleton.mpr hsent⟩
  · exact List.forall_mem_append.mpr ⟨hloaded hold, List.forall_mem_singleton.mpr hsent⟩
  · exact List.forall_mem_append.mpr ⟨hloaded hold,
      List.forall_mem_cons.mpr ⟨hsent, List.forall_mem_singleton.mpr hreply.2⟩⟩

/-! ## What is stored -/

/-- Every checkpoint and every record was left by somebody, with what was his own. -/
structure StoredApart (rt : AgentRuntime) (H : List (LogEntry AgentRequest)) (db : Db) : Prop where
  threads : ∀ {threadId cp}, db.threads.get threadId = some cp → ∃ e ∈ H,
    e.call.runId = threadId ∧ ∀ m ∈ cp.state.messages, Obtained rt H e.call.subject m
  records : ∀ {key row}, db.idem.get key = some row → ∃ e ∈ H,
    e.op.recordKey? = some key ∧ RecordedFor H e.call.subject row.result

section Exec

variable {db db' : Db} {i : ℕ} {r : AgentRequest} {o : Op} {env : Env} {res : o.Res}

/-- What is read was the subject's own. -/
theorem StoredApart.answers (hdb : StoredApart rt H db) (hapart : SubjectsApart H)
    (he : exec o env db = some (res, db')) (mem : ⟨i, r, o, env, res⟩ ∈ H) :
    AnswersFor rt H r o res := by
  cases o with
  | llm messages =>
    cases res with
    | error exc => exact trivial
    | ok m => exact .replied mem rfl
  | callTool site call =>
    cases res with
    | error exc => exact trivial
    | ok result => exact ⟨i, r, site, call, env, mem, rfl⟩
  | idem o =>
    cases o with
    | select key =>
      obtain ⟨hres, -⟩ := exec_idem he
      cases res with
      | none => exact trivial
      | some row =>
        obtain ⟨e, hmem, hkey, hrecorded⟩ := hdb.records hres.symm
        have hsubject := hapart.keys _ mem e hmem rfl hkey.symm
        intro text htext
        rw [show r.subject = e.call.subject from hsubject]
        exact hrecorded text htext
    | _ => exact trivial
  | thread o =>
    cases o with
    | load threadId =>
      obtain ⟨hres, -⟩ := exec_thread he
      cases res with
      | none => exact trivial
      | some cp =>
        rintro rfl m hm
        obtain ⟨e, hmem, hrun, hmessages⟩ := hdb.threads hres.symm
        rw [show r.subject = e.call.subject from hapart.sessions _ mem e hmem hrun.symm]
        exact hmessages m hm
    | save cp => exact trivial
  | _ => exact trivial

/-- What is stored then is the subject's own as well. -/
theorem StoredApart.exec (hdb : StoredApart rt H db) (hapart : SubjectsApart H)
    (hkeeps : (subjectContract rt H r).Guarantees o) (he : exec o env db = some (res, db'))
    (mem : ⟨i, r, o, env, res⟩ ∈ H) : StoredApart rt H db' := by
  obtain ⟨-, -, hidem, hthreads⟩ := exec_frame he
  constructor
  · intro threadId cp hget
    rw [hthreads] at hget
    rcases Op.get_threadsAfter hget with hget | ⟨rfl, rfl⟩
    · exact hdb.threads hget
    · have hkept : cp.KeptFor rt H r := hkeeps.2
      exact ⟨_, mem, hkept.thread.symm, hkept.messages⟩
  · intro key row hget
    rw [hidem] at hget
    cases o with
    | idem o =>
      rcases IdempotencyOp.result_exec hget with hget | ⟨hkey, hresult⟩
      · exact hdb.records hget
      · refine ⟨_, mem, congrArg some hkey, ?_⟩
        rcases hresult with hnone | ⟨row', hrow', hsame⟩ | ⟨text, now, rfl, htext⟩
        · rw [hnone]
          rintro text ⟨⟩
        · obtain ⟨e, hmem, hkey', hrecorded⟩ := hdb.records hrow'
          have hsubject := hapart.keys _ mem e hmem rfl ((congrArg some hkey).trans hkey'.symm)
          rw [hsame]
          intro text htext
          rw [show (⟨i, r, .idem o, env, res⟩ : LogEntry AgentRequest).call.subject =
            e.call.subject from hsubject]
          exact hrecorded text htext
        · rw [htext]
          exact hkeeps.2
    | _ => exact hdb.records hget

end Exec

/-- **Conversations are isolated** in every run of any requests by any users, at the same time
and with crashes anywhere, in which users keep to sessions and keys of their own: nothing but
what was obtained for a user is said to a model in a run for that user. -/
theorem conversations_isolated {db : Db} {c : rt.agents.Config}
    (hthreads : ∀ threadId, db.threads.get threadId = none)
    (hrecords : ∀ key, db.idem.get key = none)
    (run : rt.agents.Reach (.crashing fun _ => True) (Pool.init db) c)
    (hapart : SubjectsApart c.hist) : ConversationsIsolated c := by
  have hcode (r : AgentRequest) (_ : True) :
      Relies (subjectContract rt c.hist r).assumes (subjectContract rt c.hist r).Guarantees
        (fun _ => True) (rt.agentEndpoint r) := by
    refine Contract.agentEndpoint_kept fun _ _ hd => ?_
    obtain ⟨⟨e, hmem, hcall⟩, -⟩ := hd
    exact subjectContract_opens hmem hcall
  have hstored : StoredApart rt c.hist db := by
    constructor
    · intro threadId cp hget
      rw [hthreads] at hget
      cases hget
    · intro key row hget
      rw [hrecords] at hget
      cases hget
  have hwithin := run.within (H := c.hist) fun _ h => h
  obtain ⟨-, hhist, -⟩ := Machine.Reach.relies (J := StoredApart rt c.hist) hcode hstored (by
    intro db db' h i r o env res hdb hkeeps he hok
    exact ⟨⟨⟨_, hok.2, rfl⟩, hdb.answers hapart he hok.2⟩, hdb.exec hapart hkeeps he hok.2⟩) hwithin
  rintro ⟨i, r, o, env, res⟩ hmem messages rfl
  exact (hhist _ hmem).2

/-! ## Two customers -/

/-- A customer says something in a session. -/
def utterance (subject message session : String) : AgentRequest where
  message := message
  sessionId := some session
  trusted := ⟨subject, "default"⟩
  uuid := "uuid4"
  uuid_ne := by decide
  planId := "plan"

/-- Everything is allowed, and the model answers. -/
def friendly : Op → Env
  | .authorize _ => .decision ⟨.approved, "read"⟩
  | o => demoEnv demoSuccess o

/-- Alice says something in one session, and then Bob in another, or in the same. -/
def twoCustomers (session : String) : List (Machine.Act AgentRequest Op Env) :=
  [.spawn (utterance "alice" "my PIN is 1234" "s"), .steps 0 40 friendly,
    .spawn (utterance "bob" "hello" session), .steps 1 40 friendly]

/-- The messages models are told in runs for the subject. -/
def toldFor (subject : String) (h : List (LogEntry AgentRequest)) : List Message :=
  h.flatMap fun e =>
    match e.op with
    | .llm messages => if e.call.subject = subject then messages else []
    | _ => []

/-- Alice's words are among them, in a list of messages. -/
def quotesAlice (messages : List Message) : Bool :=
  messages.any fun m =>
    match m with
    | .human text => text = "my PIN is 1234"
    | _ => false

/-- Neither Bob nor a model in a run for him has said what Alice has. -/
def bobIsDiscreet (rt : AgentRuntime) (h : List (LogEntry AgentRequest)) : Bool :=
  h.all fun e => e.call.subject ≠ "bob" || (!quotesAlice [.human e.call.message,
      .human (plannerPrompt rt.toolRegistry e.call.message)] &&
    match e with
    | ⟨_, _, .llm _, _, .ok reply⟩ => !quotesAlice [reply]
    | _ => true)

theorem exists_toldFor {subject : String} {h : List (LogEntry AgentRequest)}
    (hquotes : quotesAlice (toldFor subject h) = true) :
    ∃ e ∈ h, e.call.subject = subject ∧ ∃ messages, e.op = .llm messages ∧
      .human "my PIN is 1234" ∈ messages := by
  obtain ⟨m, hm, hquote⟩ := List.any_eq_true.mp hquotes
  obtain ⟨⟨i, r, o, env, res⟩, he, hm⟩ := List.mem_flatMap.mp hm
  cases m with
  | human text =>
    obtain rfl := of_decide_eq_true hquote
    cases o with
    | llm messages =>
      simp only at hm
      split at hm
      · exact ⟨_, he, by assumption, messages, rfl, hm⟩
      · exact absurd hm List.not_mem_nil
    | _ => exact absurd hm List.not_mem_nil
  | _ => cases hquote

/-- What Alice has said was not obtained for Bob. -/
theorem not_obtained_of_discreet {h : List (LogEntry AgentRequest)}
    (hdiscreet : bobIsDiscreet rt h = true) :
    ¬ Obtained rt h "bob" (.human "my PIN is 1234") := by
  have hall := List.all_eq_true.mp hdiscreet
  intro hobtained
  generalize hm : Message.human "my PIN is 1234" = m at hobtained
  cases hobtained with
  | system text => cases hm
  | sent mem own =>
    have hno := hall _ mem
    simp [own, ← Message.human.inj hm, quotesAlice] at hno
  | goal mem own =>
    have hno := hall _ mem
    simp [own, ← Message.human.inj hm, quotesAlice] at hno
  | replied mem own =>
    have hno := hall _ mem
    subst hm
    simp [own, quotesAlice] at hno
  | handled given name id => cases hm

/-- With a session of his own Bob's model is told nothing of Alice. -/
theorem conversations_isolated_in_two_sessions :
    ∃ c : demoRuntime.agents.Config,
      demoRuntime.agents.Reach (.crashing fun _ => True) (Pool.init Db.empty) c ∧
        ((toldFor "alice" c.hist).length = 1 ∧ (toldFor "bob" c.hist).length = 1) ∧
          ConversationsIsolated c := by
  have hrun : ((demoRuntime.agents.run? (.crashing fun _ => True) (twoCustomers "t")
    (Pool.init Db.empty)).map fun c => decide ((toldFor "alice" c.hist).length = 1 ∧
      (toldFor "bob" c.hist).length = 1) && decide (SubjectsApart c.hist)).getD false = true := by
    decide +kernel
  obtain ⟨c, run, hc⟩ := Machine.exists_reach_of_run? (P := fun c =>
    decide ((toldFor "alice" c.hist).length = 1 ∧ (toldFor "bob" c.hist).length = 1) &&
      decide (SubjectsApart c.hist)) hrun
  obtain ⟨htold, hapart⟩ := (Bool.and_eq_true _ _).mp hc
  exact ⟨c, run, of_decide_eq_true htold,
    conversations_isolated (fun _ => rfl) (fun _ => rfl) run (of_decide_eq_true hapart)⟩

/-- In Alice's session Bob's model is told what Alice has said. -/
theorem bob_continues_alices_session :
    ∃ c : demoRuntime.agents.Config,
      demoRuntime.agents.Reach (.crashing fun _ => True) (Pool.init Db.empty) c ∧
        ¬ ConversationsIsolated c := by
  have hrun : ((demoRuntime.agents.run? (.crashing fun _ => True) (twoCustomers "s")
    (Pool.init Db.empty)).map fun c => quotesAlice (toldFor "bob" c.hist) &&
      bobIsDiscreet demoRuntime c.hist).getD false = true := by decide +kernel
  obtain ⟨c, run, hc⟩ := Machine.exists_reach_of_run? (P := fun c =>
    quotesAlice (toldFor "bob" c.hist) && bobIsDiscreet demoRuntime c.hist) hrun
  obtain ⟨hquotes, hdiscreet⟩ := (Bool.and_eq_true _ _).mp hc
  refine ⟨c, run, fun hisolated => ?_⟩
  obtain ⟨e, he, hbob, messages, hop, hm⟩ := exists_toldFor hquotes
  have hobtained := hisolated e he messages hop _ hm
  rw [hbob] at hobtained
  exact not_obtained_of_discreet hdiscreet hobtained

end BankingAgent
