import BankingAgent.NodeProtocol
import BankingAgent.Async.Outline

/-!
# Whose result the store returns

The tool node keeps a result under the text `session:call`, and answers a later call
with the same text from there. It compares neither the tool nor the arguments, and
the text does not determine its two parts. So a call gets its own result back if no
other call of the run has the same text (`stored_answers_belong`), and otherwise it may
get the result of another tool, of another session (`stored_answer_crosses_sessions`).
-/

namespace BankingAgent

open Async

/-- A call, as far as its result depends on it. -/
structure Origin : Type where
  sessionId : Option String
  toolCallId : String
  toolName : String
  args : Json

/-- The origin of a call in the state `s`. -/
def ToolRequest.origin (tc : ToolRequest) (s : AgentState) : Origin :=
  ⟨s.sessionId, tc.id, tc.name, tc.args⟩

/-- The entry is a call of the tool under the key, made for `o` and answered. -/
def ExecutedFor (o : Origin) (key : String) (i : ℕ) (result : ToolResult)
    (e : LogEntry Work) : Prop :=
  ∃ (s : AgentState) (resumes : List Json) (env : Env), s.sessionId = o.sessionId ∧
    e = ⟨i, .toolNode s resumes,
      .callTool (.node s.messages.length o.toolCallId (some key)) ⟨.str o.toolName, o.args⟩, env,
      .ok result⟩

/-- The entry is a `mark_succeeded` that changed the record. -/
def RecordsResult (key content : String) (i : ℕ) (e : LogEntry Work) : Prop :=
  ∃ (w : Work) (now : String) (env : Env),
    e = ⟨i, w, .idem (.update key (.succeeded content now)), env, true⟩

/-- The result recorded under the key is the one of a call that `o` made. -/
def ProducedBy (h : List (LogEntry Work)) (key content : String) (o : Origin) : Prop :=
  ∃ (i : ℕ) (result : ToolResult), result.content = content ∧
    (∃ e ∈ h, ExecutedFor o key i result e) ∧ ∃ e ∈ h, RecordsResult key content i e

variable {rt : AgentRuntime}

/-- The node has answered the call from the store. -/
def AnsweredFromStore (c : rt.workers.Config) (s : AgentState) (tc : ToolRequest)
    (existing : IdempotencyRecord) : Prop :=
  ∃ (i : ℕ) (resumes : List Json) (handled : List Handled),
    c.At i (.toolNode s resumes) (.ret (.handled handled)) ∧ ⟨tc, .stored existing⟩ ∈ handled

/-- The run has made the call under the key: the tool was called for it, or it was
answered from the store. -/
inductive Made (c : rt.workers.Config) (key : String) : Origin → Prop
  | executed {o : Origin} {i : ℕ} {result : ToolResult} {e : LogEntry Work} (he : e ∈ c.hist)
      (h : ExecutedFor o key i result e) : Made c key o
  | stored {s : AgentState} {tc : ToolRequest} {existing : IdempotencyRecord}
      (h : AnsweredFromStore c s tc existing) (hkey : rt.recordKey s.sessionId tc.id = some key) :
      Made c key (tc.origin s)

/-- Calls under one key are the same call. -/
def KeysApart (c : rt.workers.Config) : Prop :=
  ∀ key o o', Made c key o → Made c key o' → o = o'

/-- Every call answered from the store got back what it had produced itself. -/
def StoredAnswersBelong (c : rt.workers.Config) : Prop :=
  ∀ s tc existing, AnsweredFromStore c s tc existing →
    ∃ key content, rt.recordKey s.sessionId tc.id = some key ∧ existing.result = some content ∧
      ProducedBy c.hist key content (tc.origin s)

/-- The runs of the tool node. -/
def Work.IsToolNode : Work → Prop
  | toolNode _ _ => True
  | decision _ => False

instance : DecidablePred Work.IsToolNode
  | .toolNode _ _ => instDecidableTrue
  | .decision _ => instDecidableFalse

/-! ## Every recorded result was produced -/

section Provenance

variable {h : List (LogEntry Work)} {key content : String} {o : Origin} {db db' : Db}

theorem ProducedBy.mono (e : LogEntry Work) (hp : ProducedBy h key content o) :
    ProducedBy (e :: h) key content o := by
  obtain ⟨i, result, hc, ⟨e₁, he₁, h₁⟩, e₂, he₂, h₂⟩ := hp
  exact ⟨i, result, hc, ⟨e₁, List.mem_cons_of_mem _ he₁, h₁⟩, e₂, List.mem_cons_of_mem _ he₂, h₂⟩

/-- What has succeeded has a result that a call produced. -/
def Provenance (db : Db) (h : List (LogEntry Work)) : Prop :=
  ∀ key row, db.idem.get key = some row → row.status = .succeeded →
    ∃ content o, row.result = some content ∧ ProducedBy h key content o

theorem Provenance.of_kept (hp : Provenance db h) (e : LogEntry Work)
    (kept : ∀ key row, db'.idem.get key = some row → row.status = .succeeded →
      db.idem.get key = some row) : Provenance db' (e :: h) := by
  intro key row hrow hst
  obtain ⟨content, o, hres, hpro⟩ := hp key row (kept key row hrow hst) hst
  exact ⟨content, o, hres, hpro.mono e⟩

/-- A statement other than `mark_succeeded` records no result. -/
theorem Provenance.of_other (hp : Provenance db h) (e : LogEntry Work) {o : IdempotencyOp}
    {env : Env} {r : o.Res} (he : exec (.idem o) env db = some (r, db'))
    (other : ∀ key result now, o ≠ .update key (.succeeded result now)) :
    Provenance db' (e :: h) := by
  obtain ⟨-, rfl⟩ := exec_idem he
  refine hp.of_kept e fun key row hrow hst => ?_
  rcases IdempotencyOp.get_succeeded hrow hst with hold | ⟨result, now, ho, -⟩
  · exact hold
  · exact absurd ho (other key result now)

/-- Where the records stay as they are, so does their provenance. -/
theorem Provenance.of_eq (hp : Provenance db h) (e : LogEntry Work) (heq : db'.idem = db.idem) :
    Provenance db' (e :: h) :=
  hp.of_kept e fun _ _ hrow _ => heq ▸ hrow

/-- The calls answered so far got what some call under their key had produced. -/
def Backed (rt : AgentRuntime) (s : AgentState) (h : List (LogEntry Work)) (A : StoredAnswers) :
    Prop :=
  ∀ x ∈ A, ∃ key content o, rt.recordKey s.sessionId x.1.id = some key ∧
    x.2.result = some content ∧ ProducedBy h key content o

theorem Backed.mono {s : AgentState} {A : StoredAnswers} (hb : Backed rt s h A)
    (e : LogEntry Work) : Backed rt s (e :: h) A := by
  intro x hx
  obtain ⟨key, content, o, hkey, hres, hp⟩ := hb x hx
  exact ⟨key, content, o, hkey, hres, hp.mono e⟩

/-- What a run of the node knows. -/
def NodePos.Knows (rt : AgentRuntime) (s : AgentState) (h : List (LogEntry Work)) (i : ℕ) :
    NodePos → Prop
  | ready A => Backed rt s h A
  | cleared A _ _ _ => Backed rt s h A
  | answered A key tc result =>
    Backed rt s h A ∧ ∃ e ∈ h, ExecutedFor (tc.origin s) key i result e

/-- History only adds to what it knows. -/
theorem NodePos.Knows.mono {s : AgentState} {i : ℕ} {p : NodePos} (hk : p.Knows rt s h i)
    (e : LogEntry Work) : p.Knows rt s (e :: h) i := by
  cases p with
  | ready A => exact Backed.mono hk e
  | cleared A key tc stage => exact Backed.mono hk e
  | answered A key tc result =>
    obtain ⟨hb, e', he', hx⟩ := hk
    exact ⟨hb.mono e, e', List.mem_cons_of_mem _ he', hx⟩

/-- One move of a run of the node. -/
theorem NodeMove.keeps_provenance {s : AgentState} {resumes : List Json} {i : ℕ} {p q : NodePos}
    {o : Op} {r : o.Res} {env : Env} (move : NodeMove rt s p o r q)
    (he : exec o env db = some (r, db')) (hp : Provenance db h) (hk : p.Knows rt s h i) :
    Provenance db' (⟨i, .toolNode s resumes, o, env, r⟩ :: h) ∧
      q.Knows rt s (⟨i, .toolNode s resumes, o, env, r⟩ :: h) i := by
  cases move with
  | idle _ quiet => exact ⟨hp.of_eq _ (exec_quiet quiet he).2.2.1, hk.mono _⟩
  | @lookupSucceeded A key tc row existing hkey hrow hst =>
    refine ⟨hp.of_other _ he (by rintro _ _ _ ⟨⟩), fun x hx => ?_⟩
    rcases List.mem_append.mp hx with hx | hx
    · exact Backed.mono hk _ x hx
    · obtain rfl := List.mem_singleton.mp hx
      obtain ⟨hget, -⟩ := exec_idem he
      obtain ⟨content, o, hres, hpro⟩ := hp key row hget.symm hst
      exact ⟨key, content, o, hkey, (IdempotencyRow.result_toRecord hrow).trans hres,
        hpro.mono _⟩
  | execute result hkey =>
    refine ⟨hp.of_eq _ (congrArg Db.idem (exec_callTool he).1), Backed.mono hk _, ?_⟩
    exact ⟨_, List.mem_cons_self .., s, resumes, env, rfl, rfl⟩
  | executeRaised exc =>
    exact ⟨hp.of_eq _ (congrArg Db.idem (exec_callTool he).1), Backed.mono hk _⟩
  | executeUnrecorded answer =>
    exact ⟨hp.of_eq _ (congrArg Db.idem (exec_callTool he).1), Backed.mono hk _⟩
  | @succeed A key tc result now hit hs =>
    obtain ⟨hb, e, hmem, hx⟩ := hk
    obtain ⟨hhit, rfl⟩ := exec_idem he
    refine ⟨fun k row hrow hst => ?_, hb.mono _⟩
    rcases IdempotencyOp.get_succeeded hrow hst with hold | ⟨content, now', ho, htrue, hres⟩
    · obtain ⟨content, o, hres, hpro⟩ := hp k row hold hst
      exact ⟨content, o, hres, hpro.mono _⟩
    · -- the record of this call: its result is the answer the call got
      cases ho
      refine ⟨_, tc.origin s, hres, i, result, rfl, ⟨e, List.mem_cons_of_mem _ hmem, hx⟩, ?_⟩
      exact ⟨_, List.mem_cons_self .., .toolNode s resumes, now, env, by rw [hhit, htrue]⟩
  | fail error now hit =>
    exact ⟨hp.of_other _ he (by rintro _ _ _ ⟨⟩), Backed.mono hk.1 _⟩
  | _ => exact ⟨hp.of_other _ he (by rintro _ _ _ ⟨⟩), Backed.mono hk _⟩

/-- What a piece of work knows; only the tool node runs. -/
def WorkPos.Knows (rt : AgentRuntime) (h : List (LogEntry Work)) (i : ℕ) : Work → WorkPos → Prop
  | .toolNode s _, .node p => p.Knows rt s h i
  | _, _ => False

theorem WorkPos.Knows.mono {i : ℕ} {w : Work} {p : WorkPos} (hk : p.Knows rt h i w)
    (e : LogEntry Work) : p.Knows rt (e :: h) i w := by
  cases w with
  | decision call => exact hk.elim
  | toolNode s resumes =>
    cases p with
    | decision p => exact hk.elim
    | node p => exact NodePos.Knows.mono hk e

/-- **Provenance**, as an outline of all runs of the tool node. -/
def provenanceOutline (rt : AgentRuntime) :
    rt.workers.Outline (.crashing Work.IsToolNode) (WorkMove rt) Work.entry where
  inv := Provenance
  asserts _ h i w p := p.Knows rt h i w
  owns _ _ := False
  entry {_ _ _ w} _ start _ := by
    cases w with
    | toolNode s resumes => exact ⟨fun x hx => absurd hx List.not_mem_nil, id⟩
    | decision call => exact start.elim
  step hinv hk move he _ := by
    cases move with
    | node move => exact move.keeps_provenance he hinv hk
    | decision move => exact hk.elim
  free _ _ hk' _ _ _ _ _ := hk'.mono _
  excl _ _ _ _ _ h _ := h.elim

/-- A run of the node obeys its protocol. -/
theorem toolNode_follows (rt : AgentRuntime) (w : Work) (start : w.IsToolNode) :
    Follows (WorkMove rt w) (WorkPos.Ends rt.py w) (rt.workCode w) w.entry :=
  work_follows rt w (by rintro call rfl; exact start.elim)

/-- A call answered from the store got what some call under its key had produced. -/
theorem AnsweredFromStore.produced {db : Db} (hdb : ∀ key, db.idem.status? key ≠ some .succeeded)
    {c : rt.workers.Config}
    (run : rt.workers.Reach (.crashing Work.IsToolNode) (Pool.init db) c) {s : AgentState}
    {tc : ToolRequest} {existing : IdempotencyRecord} (h : AnsweredFromStore c s tc existing) :
    ∃ key content o, rt.recordKey s.sessionId tc.id = some key ∧
      existing.result = some content ∧ ProducedBy c.hist key content o := by
  obtain ⟨i, resumes, handled, hat, hmem⟩ := h
  have hinit : (provenanceOutline rt).inv db [] := fun key row hrow hst => by
    refine absurd ?_ (hdb key)
    rw [IdempotencyTable.status?, hrow, Option.map_some, hst]
  obtain ⟨p, hf, hk⟩ := (provenanceOutline rt).sound_at (toolNode_follows rt) hinit run hat
  cases p with
  | decision p => exact hf.elim
  | node p =>
    obtain ⟨res, hres, hends⟩ := hf
    cases res with
    | error e => cases hres
    | ok calls =>
      cases hres
      obtain rfl := hends
      exact hk (tc, existing) (List.mem_filterMap.mpr ⟨_, hmem, rfl⟩)

end Provenance

/-- **Cached results go to the call that produced them**, in every run of the tool node
in which calls under one key are the same call: for any number of runs on any states
with any answers to their interrupts, every interleaving, crashes anywhere, and every
policy and tool server, over a store in which nothing had succeeded before. -/
theorem stored_answers_belong (rt : AgentRuntime) {db : Db}
    (hdb : ∀ key, db.idem.status? key ≠ some .succeeded) {c : rt.workers.Config}
    (run : rt.workers.Reach (.crashing Work.IsToolNode) (Pool.init db) c) (apart : KeysApart c) :
    StoredAnswersBelong c := by
  intro s tc existing h
  obtain ⟨key, content, o, hkey, hres, hp⟩ := h.produced hdb run
  have hmade : Made c key o := by
    obtain ⟨i, result, -, ⟨e, he, hx⟩, -⟩ := hp
    exact .executed he hx
  obtain rfl := apart key o (tc.origin s) hmade (.stored h hkey)
  exact ⟨key, content, hkey, hres, hp⟩

/-! ## Two sessions, one key -/

/-- The state in which the model of a session asks for one call without arguments. -/
def askingState (sessionId toolCallId toolName : String) : AgentState :=
  ⟨[.ai "" [⟨toolCallId, toolName, .obj []⟩]], none, 1, some sessionId, []⟩

/-- An environment that approves of everything. -/
def approvingEnv (outcome : McpOutcome) : Op → Env
  | .authorize _ => .decision ⟨.approved, "read"⟩
  | o => demoEnv outcome o

/-- The node runs twice for the call `b:c` of the session `a`: after the first run the
record is still reserved, after the second it holds the result. Then it runs for another
call. -/
def laterCall (sessionId toolCallId toolName : String) : List (Machine.Act Work Op Env) :=
  let go := approvingEnv demoSuccess
  let balance := Work.toolNode (askingState "a" "b:c" "get_balance") []
  [.spawn balance, .steps 0 20 go, .spawn balance, .steps 1 20 go,
    .spawn (.toolNode (askingState sessionId toolCallId toolName) []), .steps 2 20 go]

/-- The third thread has answered a call of the session from the store. -/
def answersThird (sessionId toolCallId toolName : String) (c : demoRuntime.workers.Config) : Bool :=
  match Machine.result? c 2 with
  | some (.toolNode s _, .ok (.handled [⟨⟨id, name, .obj []⟩, .stored _⟩])) =>
    s.sessionId = some sessionId && id = toolCallId && name = toolName
  | _ => false

/-- Every tool call was made for the session. -/
def callsOnlyFor (sessionId : String) (h : List (LogEntry Work)) : Bool :=
  h.all fun e =>
    match e with
    | ⟨_, .toolNode s _, .callTool _ _, _, _⟩ => s.sessionId = some sessionId
    | _ => true

theorem answered_of_answersThird {sessionId toolCallId toolName : String}
    {c : demoRuntime.workers.Config} (h : answersThird sessionId toolCallId toolName c = true) :
    ∃ (s : AgentState) (existing : IdempotencyRecord), s.sessionId = some sessionId ∧
      AnsweredFromStore c s ⟨toolCallId, toolName, .obj []⟩ existing := by
  rw [answersThird] at h
  split at h
  · rename_i s resumes id name existing hres
    simp only [Bool.and_eq_true, decide_eq_true_eq] at h
    obtain ⟨⟨hs, rfl⟩, rfl⟩ := h
    exact ⟨s, existing, hs, 2, resumes, _, Machine.at_of_result? hres, List.mem_singleton.mpr rfl⟩
  · cases h

/-- The session `a:b` asks for its call `c`, a transfer status, and gets the balance of
the session `a`. -/
theorem stored_answer_crosses_sessions :
    ∃ c : demoRuntime.workers.Config,
      demoRuntime.workers.Reach (.crashing Work.IsToolNode) (Pool.init Db.empty) c ∧
        ¬ StoredAnswersBelong c := by
  have hrun : ((demoRuntime.workers.run? (.crashing Work.IsToolNode)
    (laterCall "a:b" "c" "get_transfer_status") (Pool.init Db.empty)).map fun c =>
      answersThird "a:b" "c" "get_transfer_status" c && callsOnlyFor "a" c.hist).getD false =
        true := rfl
  obtain ⟨c, run, hc⟩ := Machine.exists_reach_of_run? hrun
  obtain ⟨hans, honly⟩ := (Bool.and_eq_true _ _).mp hc
  obtain ⟨s, existing, hs, hstored⟩ := answered_of_answersThird hans
  refine ⟨c, run, fun hbelong => ?_⟩
  obtain ⟨key, content, -, -, i, result, -, ⟨e, he, s', resumes, env, hs', rfl⟩, -⟩ :=
    hbelong s _ existing hstored
  have ha := of_decide_eq_true (List.all_eq_true.mp honly _ he)
  rw [hs'.trans hs] at ha
  exact absurd ha (by decide)

/-- The call is `b:c`, without arguments, in the session `a`. -/
def isBalanceCall (s : AgentState) (id name : String) (args : Json) : Bool :=
  s.sessionId = some "a" && id = "b:c" && name = "get_balance" &&
    match args with
    | .obj [] => true
    | _ => false

theorem origin_of_isBalanceCall {o : Origin} {s : AgentState} (hs : s.sessionId = o.sessionId)
    (h : isBalanceCall s o.toolCallId o.toolName o.args = true) :
    o = ⟨some "a", "b:c", "get_balance", .obj []⟩ := by
  obtain ⟨sid, id, name, args⟩ := o
  simp only [isBalanceCall, Bool.and_eq_true, decide_eq_true_eq] at h
  obtain ⟨⟨⟨ha, rfl⟩, rfl⟩, hargs⟩ := h
  split at hargs
  · obtain rfl : some "a" = sid := ha.symm.trans hs
    rfl
  · cases hargs

/-- All that was executed or handled is that call. -/
def onlyBalanceCalls (c : demoRuntime.workers.Config) : Bool :=
  (c.hist.all fun e =>
    match e with
    | ⟨_, .toolNode s _, .callTool (.node _ id _) ⟨.str name, args⟩, _, _⟩ =>
      isBalanceCall s id name args
    | _ => true) &&
  c.threads.all fun t =>
    match t with
    | ⟨.toolNode s _, some (.ret (.handled handled))⟩ =>
      handled.all fun x => isBalanceCall s x.call.id x.call.name x.call.args
    | _ => true

theorem keysApart_of_onlyBalanceCalls {c : demoRuntime.workers.Config}
    (h : onlyBalanceCalls c = true) : KeysApart c := by
  obtain ⟨hhist, hthreads⟩ := (Bool.and_eq_true _ _).mp h
  have hone : ∀ key o, Made c key o → o = ⟨some "a", "b:c", "get_balance", .obj []⟩ := by
    intro key o hmade
    cases hmade with
    | executed he hx =>
      obtain ⟨s, resumes, env, hs, rfl⟩ := hx
      exact origin_of_isBalanceCall hs (List.all_eq_true.mp hhist _ he)
    | @stored s tc existing hx hkey =>
      obtain ⟨i, resumes, handled, hat, hmem⟩ := hx
      have hthread := List.all_eq_true.mp hthreads _ (List.mem_of_getElem? hat)
      exact origin_of_isBalanceCall rfl (List.all_eq_true.mp hthread _ hmem)
  intro key o o' ho ho'
  rw [hone key o ho, hone key o' ho']

/-- The same call once more gets its own result back. -/
theorem stored_answer_belongs_to_repeated_call :
    ∃ c : demoRuntime.workers.Config, (∃ s tc existing, AnsweredFromStore c s tc existing) ∧
      StoredAnswersBelong c := by
  have hrun : ((demoRuntime.workers.run? (.crashing Work.IsToolNode)
    (laterCall "a" "b:c" "get_balance") (Pool.init Db.empty)).map fun c =>
      answersThird "a" "b:c" "get_balance" c && onlyBalanceCalls c).getD false = true := rfl
  obtain ⟨c, run, hc⟩ := Machine.exists_reach_of_run? hrun
  obtain ⟨hans, honly⟩ := (Bool.and_eq_true _ _).mp hc
  obtain ⟨s, existing, -, hstored⟩ := answered_of_answersThird hans
  have hempty : ∀ key, Db.empty.idem.status? key ≠ some .succeeded := by
    simp [Db.empty, IdempotencyTable.status?]
  exact ⟨c, ⟨s, _, existing, hstored⟩,
    stored_answers_belong demoRuntime hempty run (keysApart_of_onlyBalanceCalls honly)⟩

end BankingAgent
