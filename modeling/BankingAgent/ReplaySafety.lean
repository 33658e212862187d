import BankingAgent.GraphProtocol
import BankingAgent.NodeProtocol
import BankingAgent.Async.Rely
import BankingAgent.Async.Sequential
import BankingAgent.StoredAnswers

/-!
# Running the tool node again

After an interrupt or a crash the tool node runs again from its start, on the state it
had. What keeps it from calling a tool a second time is the record of the call. But a
record the node has just reserved is not executing, so that `mark_succeeded` passes it by,
and a record that has failed stays failed: a later run takes both of them for calls that
may be tried again.
-/

namespace BankingAgent

open Async

variable {rt : AgentRuntime} {s : AgentState} {h : List (LogEntry Work)} {db db' : Db}

/-- A call with the id was answered with success. -/
def Succeeds (toolCallId : String) (e : LogEntry Work) : Bool :=
  match e with
  | ⟨_, _, .callTool (.node _ id _) _, _, .ok result⟩ => id = toolCallId && result.success
  | _ => false

/-- Some call with the id was answered with success. -/
def HasSucceeded (h : List (LogEntry Work)) (toolCallId : String) : Prop :=
  ∃ e ∈ h, Succeeds toolCallId e = true

/-- The calls of the state that may change something. -/
def AgentRuntime.Effectful (rt : AgentRuntime) (s : AgentState) (tc : ToolRequest) : Prop :=
  tc ∈ s.lastCalls ∧ rt.operationKind tc.name ≠ .read

/-- The entry takes a call for one that may be tried again although it has succeeded. -/
def TriesAgain (rt : AgentRuntime) (s : AgentState) (h : List (LogEntry Work))
    (e : LogEntry Work) : Prop :=
  ∃ tc key, rt.Effectful s tc ∧ rt.recordKey s.sessionId tc.id = some key ∧
    HasSucceeded h tc.id ∧
    match e with
    | ⟨_, _, .idem (.select k), _, some row⟩ =>
      k = key ∧ (row.status = .reserved ∨ row.status = .failed)
    | _ => False

/-- Runs of the node on the state, one after the other, with crashes anywhere. -/
def rerunning (s : AgentState) : Discipline Db Work (LogEntry Work) where
  start w := ∃ resumes, w = .toolNode s resumes
  crash := True
  sequential := True
  ok _ _ _ := True

/-- Those that never try a call again that has succeeded. -/
def respectingSuccess (rt : AgentRuntime) (s : AgentState) : Discipline Db Work (LogEntry Work) :=
  { rerunning s with ok _ h e := ¬ TriesAgain rt s h e }

/-! ## The calls are those of the state -/

/-- The tool is called for a call of the state. -/
def Op.OfCalls (s : AgentState) : Op → Prop
  | callTool (.node _ id _) call => ∃ tc ∈ s.lastCalls, tc.id = id ∧ call.name = .str tc.name
  | callTool _ _ => False
  | _ => True

section Calls

variable {A : (o : Op) → o.Res → Prop} {tc : ToolRequest}

/-- The call is one of the state, but for its arguments. -/
def ToolRequest.Of (s : AgentState) (tc : ToolRequest) : Prop :=
  ∃ tc₀ ∈ s.lastCalls, tc₀.id = tc.id ∧ tc₀.name = tc.name

/-- What is called for it is a call of the state. -/
theorem ToolRequest.of_ofCalls {number : ℕ} {key : Option String} {args : Json}
    (h : (Op.callTool (.node number tc.id key) ⟨.str tc.name, args⟩).OfCalls s) : tc.Of s := by
  obtain ⟨tc₀, hmem, hid, hname⟩ := h
  exact ⟨tc₀, hmem, hid, (Json.str.inj hname).symm⟩

theorem answerCall_ofCalls {number : ℕ} {sessionId : Option String} (htc : tc.Of s) :
    Relies A (Op.OfCalls s) (fun _ => True) (rt.answerCall number sessionId tc) := by
  refine relies_of_only (fun {o} ho => ?_) (fun _ => trivial) answerCall_ofAnswer
  cases o with
  | callTool site call =>
    obtain ⟨rfl, rfl⟩ := ho
    obtain ⟨tc₀, hmem, hid, hname⟩ := htc
    exact ⟨tc₀, hmem, hid, congrArg Json.str hname.symm⟩
  | _ => exact trivial

theorem readApproval_of {py : PyLib} {approval : Json} {call : ToolRequest} (htc : tc.Of s)
    (h : readApproval py tc approval = .ok call) : call.Of s := by
  rw [readApproval] at h
  split at h <;> cases h
  exact htc

theorem authorizeCall_ofCalls {resumes : List Json} {n : ℕ} {sid : Option String}
    (htc : tc.Of s) :
    Relies A (Op.OfCalls s)
      (fun out => ∀ call interrupts, out = .ok (.ok call, interrupts) → call.Of s)
      (rt.authorizeCall sid resumes n tc) := by
  refine ⟨trivial, fun d _ => ?_⟩
  simp only [Prog.ret_bind]
  cases d.decision with
  | approved =>
    rintro call interrupts ⟨⟩
    exact htc
  | denied => rintro call interrupts ⟨⟩
  | pending =>
    simp only [interrupt]
    cases resumes[n]? with
    | none => exact ⟨trivial, fun _ _ => by rintro call interrupts ⟨⟩⟩
    | some approval =>
      refine ⟨trivial, fun _ _ => ?_⟩
      rintro call interrupts h
      obtain ⟨hread, -⟩ := Prod.ext_iff.mp (Except.ok.inj h)
      exact readApproval_of htc hread

theorem handleCalls_ofCalls {resumes : List Json} (calls : List ToolRequest) :
    ∀ {progress : Progress}, (∀ tc ∈ calls, tc.Of s) →
      Relies A (Op.OfCalls s) (fun _ => True) (rt.handleCalls s resumes calls progress) := by
  induction calls with
  | nil => exact fun _ => trivial
  | cons tc rest ih =>
    intro progress hcalls
    refine Relies.seq ?_ fun first =>
      (ih fun tc htc => hcalls tc (List.mem_cons_of_mem _ htc)).seq fun _ => trivial
    rw [AgentRuntime.handleCall]
    cases rt.validationError tc with
    | some error => exact trivial
    | none =>
      simp only
      split
      · exact trivial
      · refine Relies.bind ?_ (fun _ _ => trivial)
          (authorizeCall_ofCalls (hcalls tc List.mem_cons_self))
        rintro ⟨answer | call, interrupts⟩ hgate
        · exact trivial
        · exact (answerCall_ofCalls (hgate call interrupts rfl)).seq fun _ => trivial

end Calls

/-! ## One run after the other -/

/-- What holds between two calls: a call that has succeeded has succeeded once, and left a
record. -/
structure SucceededOnce (rt : AgentRuntime) (s : AgentState) (db : Db)
    (h : List (LogEntry Work)) : Prop where
  once : ∀ tc, rt.Effectful s tc → h.countP (Succeeds tc.id) ≤ 1
  kept : ∀ tc key, rt.Effectful s tc → rt.recordKey s.sessionId tc.id = some key →
    HasSucceeded h tc.id → (db.idem.get key).isSome

/-- What a run of the node knows of the call it is about to make: it has not succeeded yet,
and when it is made there is a record. -/
def NodePos.Untried (rt : AgentRuntime) (s : AgentState) (db : Db) (h : List (LogEntry Work)) :
    NodePos → Prop
  | cleared _ key tc stage =>
    (∀ tc₀, rt.Effectful s tc₀ → tc₀.name = tc.name →
      rt.recordKey s.sessionId tc₀.id = some key → ¬ HasSucceeded h tc₀.id) ∧
    (stage = .present → (db.idem.get key).isSome)
  | _ => True

theorem exec_keepsRecords {o : Op} {env : Env} {r : o.Res} (he : exec o env db = some (r, db'))
    {key : String} (hkey : (db.idem.get key).isSome) : (db'.idem.get key).isSome := by
  rw [exec_idemAfter he]
  cases o with
  | idem o => exact IdempotencyOp.isSome_exec hkey
  | _ => exact hkey

theorem hasSucceeded_cons {e : LogEntry Work} {id : String} :
    HasSucceeded (e :: h) id ↔ Succeeds id e = true ∨ HasSucceeded h id := by
  simp [HasSucceeded]

/-- Whatever is no successful call leaves what is known. -/
theorem SucceededOnce.other (hi : SucceededOnce rt s db h) {e : LogEntry Work}
    (hother : ∀ id, Succeeds id e = false)
    (hmono : ∀ key, (db.idem.get key).isSome → (db'.idem.get key).isSome) :
    SucceededOnce rt s db' (e :: h) where
  once tc htc := by
    rw [List.countP_cons_of_neg (by simp [hother])]
    exact hi.once tc htc
  kept tc key htc hkey hs := by
    rcases hasSucceeded_cons.mp hs with hs | hs
    · exact absurd hs (by simp [hother])
    · exact hmono key (hi.kept tc key htc hkey hs)

theorem not_hasSucceeded_cons {e : LogEntry Work} {id : String} (hother : Succeeds id e = false)
    (hnot : ¬ HasSucceeded h id) : ¬ HasSucceeded (e :: h) id := by
  rw [hasSucceeded_cons, hother]
  simpa using hnot

/-- A call of the state that has not succeeded yet may succeed, once there is a record. -/
theorem SucceededOnce.executed (hi : SucceededOnce rt s db h)
    (hnodup : (s.lastCalls.map ToolRequest.id).Nodup) {tc : ToolRequest} (htc : tc ∈ s.lastCalls)
    {key : String} (hkey : rt.recordKey s.sessionId tc.id = some key)
    (huntried : rt.Effectful s tc → ¬ HasSucceeded h tc.id)
    (hpresent : (db.idem.get key).isSome) {e : LogEntry Work}
    (hother : ∀ id, Succeeds id e = true → tc.id = id) : SucceededOnce rt s db (e :: h) where
  once tc₀ htc₀ := by
    cases hs : Succeeds tc₀.id e with
    | false =>
      rw [List.countP_cons_of_neg (by simp [hs])]
      exact hi.once tc₀ htc₀
    | true =>
      obtain rfl := List.inj_on_of_nodup_map hnodup htc htc₀.1 (hother _ hs)
      have hnone : h.countP (Succeeds tc.id) = 0 :=
        List.countP_eq_zero.mpr fun e he hs => huntried htc₀ ⟨e, he, hs⟩
      rw [List.countP_cons_of_pos hs, hnone]
  kept tc₀ key₀ htc₀ hkey₀ hs := by
    rcases hasSucceeded_cons.mp hs with hs | hs
    · rw [← hother _ hs, hkey] at hkey₀
      obtain rfl := Option.some.inj hkey₀
      exact hpresent
    · exact hi.kept tc₀ key₀ htc₀ hkey₀ hs

theorem succeeds_node {id id' : String} {i n : ℕ} {w : Work} {k : Option String} {call : ToolCall}
    {env : Env} {answer : Except Exn ToolResult}
    (hs : Succeeds id ⟨i, w, .callTool (.node n id' k) call, env, answer⟩ = true) : id' = id := by
  cases answer with
  | error exc => cases hs
  | ok result =>
    simp only [Succeeds, Bool.and_eq_true, decide_eq_true_eq] at hs
    exact hs.1

/-- After a move that calls no tool: what is known of the call stays known. -/
theorem SucceededOnce.cleared (hi : SucceededOnce rt s db h) {e : LogEntry Work}
    (hother : ∀ id, Succeeds id e = false)
    (hmono : ∀ key, (db.idem.get key).isSome → (db'.idem.get key).isSome) {A : StoredAnswers}
    {key : String} {tc : ToolRequest} {stage : Stage}
    (huntried : ∀ tc₀, rt.Effectful s tc₀ → tc₀.name = tc.name →
      rt.recordKey s.sessionId tc₀.id = some key → ¬ HasSucceeded h tc₀.id)
    (hpresent : stage = .present → (db'.idem.get key).isSome) :
    SucceededOnce rt s db' (e :: h) ∧
      (NodePos.cleared A key tc stage).Untried rt s db' (e :: h) :=
  ⟨hi.other hother hmono, fun tc₀ htc₀ hname hkey =>
    not_hasSucceeded_cons (hother _) (huntried tc₀ htc₀ hname hkey), hpresent⟩

/-- One move of a run of the node. -/
theorem NodeMove.succeeds_once {i : ℕ} {w : Work} {p q : NodePos} {o : Op} {r : o.Res} {env : Env}
    (hstore : rt.idempotencyStore = true) (hids : ∀ tc ∈ s.lastCalls, tc.id ≠ "")
    (hnodup : (s.lastCalls.map ToolRequest.id).Nodup) (move : NodeMove rt s p o r q)
    (hcalls : o.OfCalls s) (he : exec o env db = some (r, db'))
    (hok : ¬ TriesAgain rt s h ⟨i, w, o, env, r⟩) (hi : SucceededOnce rt s db h)
    (hp : p.Untried rt s db h) :
    SucceededOnce rt s db' (⟨i, w, o, env, r⟩ :: h) ∧
      q.Untried rt s db' (⟨i, w, o, env, r⟩ :: h) := by
  have hmono : ∀ key, (db.idem.get key).isSome → (db'.idem.get key).isSome :=
    fun _ => exec_keepsRecords he
  -- the moves that call no tool, by where they lead
  have toReady (hother : ∀ id, Succeeds id ⟨i, w, o, env, r⟩ = false) {A : StoredAnswers} :
      SucceededOnce rt s db' (⟨i, w, o, env, r⟩ :: h) ∧
        (NodePos.ready A).Untried rt s db' (⟨i, w, o, env, r⟩ :: h) :=
    ⟨hi.other hother hmono, trivial⟩
  cases move with
  | idle r quiet =>
    have hother : ∀ id, Succeeds id ⟨i, w, o, env, r⟩ = false := by
      cases o <;> first | exact fun _ => rfl | exact quiet.elim
    cases p with
    | cleared A key tc stage => exact hi.cleared hother hmono hp.1 fun hst => hmono _ (hp.2 hst)
    | _ => exact ⟨hi.other hother hmono, trivial⟩
  | lookupBroken row hkey hrow => exact toReady fun _ => rfl
  | lookupSucceeded hkey hrow hst => exact toReady fun _ => rfl
  | lookupUnfinished hkey hst hkind => exact toReady fun _ => rfl
  | lookupNone hkey =>
    refine hi.cleared (fun _ => rfl) hmono (fun tc₀ htc₀ _ hkey₀ hs => ?_) fun hst => nomatch hst
    obtain ⟨hget, -⟩ := exec_idem he
    have hsome := hi.kept tc₀ _ htc₀ hkey₀ hs
    rw [show db.idem.get _ = none from hget.symm] at hsome
    cases hsome
  | lookupRetry hkey hst =>
    refine hi.cleared (fun _ => rfl) hmono (fun tc₀ htc₀ _ hkey₀ hs => ?_) fun hst => nomatch hst
    exact hok ⟨tc₀, _, htc₀, hkey₀, hs, rfl, hst.symm⟩
  | lookupRead hkey hst hkind =>
    refine hi.cleared (fun _ => rfl) hmono (fun tc₀ htc₀ hname _ _ => ?_) fun hst => nomatch hst
    exact htc₀.2 (hname ▸ hkind)
  | markExecuting hit => exact hi.cleared (fun _ => rfl) hmono hp.1 fun hst => nomatch hst
  | recheckSome row =>
    refine hi.cleared (fun _ => rfl) hmono hp.1 fun _ => hmono _ ?_
    obtain ⟨hget, -⟩ := exec_idem he
    rw [show db.idem.get _ = some row from hget.symm]
    rfl
  | recheckNone => exact hi.cleared (fun _ => rfl) hmono hp.1 fun hst => nomatch hst
  | reserve text now hit =>
    refine hi.cleared (fun _ => rfl) hmono hp.1 fun _ => ?_
    rw [exec_idemAfter he]
    exact IdempotencyOp.isSome_reserve
  | reread row => exact hi.cleared (fun _ => rfl) hmono hp.1 fun hst => hmono _ (hp.2 hst)
  | @execute A key tc result hkey =>
    obtain ⟨rfl, -⟩ := exec_callTool he
    obtain ⟨tc₁, htc₁, hid₁, hname₁⟩ := ToolRequest.of_ofCalls hcalls
    exact ⟨hi.executed hnodup htc₁ (hid₁ ▸ hkey) (fun htc => hp.1 tc₁ htc hname₁ (hid₁ ▸ hkey))
      (hp.2 rfl) (fun id hs => hid₁.trans (succeeds_node hs)), trivial⟩
  | executeRaised exc hkey => exact toReady fun _ => rfl
  | executeUnrecorded answer hkey =>
    obtain ⟨tc₁, htc₁, hid₁, -⟩ := hcalls
    rw [AgentRuntime.recordKey, if_pos hstore, toolNodeKey, if_neg (hid₁ ▸ hids tc₁ htc₁)] at hkey
    cases hkey
  | succeed now hit hs => exact toReady fun _ => rfl
  | fail error now hit hs => exact toReady fun _ => rfl

/-- What a piece of work does, and that the tools it calls are for calls of the state. -/
def RerunMove (rt : AgentRuntime) (s : AgentState) (w : Work) (p : WorkPos) (o : Op) (r : o.Res)
    (q : WorkPos) : Prop :=
  WorkMove rt w p o r q ∧ o.OfCalls s

theorem rerun_follows (rt : AgentRuntime) (s : AgentState) (w : Work)
    (start : (respectingSuccess rt s).start w) :
    Follows (RerunMove rt s w) (WorkPos.Ends rt.py w) (rt.workCode w) w.entry := by
  obtain ⟨resumes, rfl⟩ := start
  refine Relies.follows (Q := fun _ => True) ?_ (work_follows rt _ (by rintro call ⟨⟩))
  exact Relies.seq (handleCalls_ofCalls s.lastCalls fun tc htc => ⟨tc, htc, rfl, rfl⟩)
    fun _ => trivial

/-- **Runs one after the other**. -/
def replaySolo (rt : AgentRuntime) (s : AgentState) (hstore : rt.idempotencyStore = true)
    (hids : ∀ tc ∈ s.lastCalls, tc.id ≠ "") (hnodup : (s.lastCalls.map ToolRequest.id).Nodup) :
    rt.workers.Solo (respectingSuccess rt s) (RerunMove rt s) Work.entry where
  inv := SucceededOnce rt s
  asserts db h w p :=
    match w, p with
    | .toolNode s' _, .node p => s' = s ∧ p.Untried rt s db h
    | _, _ => False
  entry _ start := by
    obtain ⟨resumes, rfl⟩ := start
    exact ⟨rfl, trivial⟩
  step {_ _ _ _ w _ _ _ _ _} hi hp both he hok := by
    obtain ⟨move, hcalls⟩ := both
    cases move with
    | decision move => exact hp.elim
    | node move =>
      obtain ⟨rfl, hp⟩ := hp
      obtain ⟨hi', hq⟩ := move.succeeds_once hstore hids hnodup hcalls he hok hi hp
      exact ⟨hi', rfl, hq⟩

/-- **Replay safety**: over any number of runs of the node on one state, one after the
other, with any answers to their interrupts and crashes anywhere, no call that may change
something succeeds twice, if no run tries a call again that has succeeded. -/
theorem tool_node_replays_safely (rt : AgentRuntime) (hstore : rt.idempotencyStore = true)
    {s : AgentState} (hids : ∀ tc ∈ s.lastCalls, tc.id ≠ "")
    (hnodup : (s.lastCalls.map ToolRequest.id).Nodup) {db : Db} {c : rt.workers.Config}
    (run : rt.workers.Reach (respectingSuccess rt s) (Pool.init db) c) :
    ∀ tc ∈ s.lastCalls, rt.operationKind tc.name ≠ .read →
      c.hist.countP (Succeeds tc.id) ≤ 1 := by
  have hinit : SucceededOnce rt s db [] :=
    ⟨fun _ _ => Nat.zero_le _, fun _ _ _ _ h => by obtain ⟨_, h, -⟩ := h; cases h⟩
  have hc := (replaySolo rt s hstore hids hnodup).sound trivial (rerun_follows rt s) hinit run
  exact fun tc htc hkind => hc.once tc ⟨htc, hkind⟩

/-! ## A transfer, once and twice -/

/-- The state in which the model asks for a transfer. -/
def transferState : AgentState := askingState "a" "call-1" "submit_transfer"

/-- A run of the node on it. -/
def runsTransfer : Work → Bool
  | .toolNode ⟨[.ai content [⟨id, name, .obj []⟩]], none, 1, some session, []⟩ _ =>
    content = "" && id = "call-1" && name = "submit_transfer" && session = "a"
  | _ => false

theorem start_of_runsTransfer {w : Work} (h : runsTransfer w = true) :
    (rerunning transferState).start w := by
  unfold runsTransfer at h
  split at h
  · simp only [Bool.and_eq_true, decide_eq_true_eq] at h
    obtain ⟨⟨⟨rfl, rfl⟩, rfl⟩, rfl⟩ := h
    exact ⟨_, rfl⟩
  · cases h

/-- No record is looked up as one to be tried again after the transfer has succeeded. -/
def looksAhead (h : List (LogEntry Work)) (e : LogEntry Work) : Bool :=
  match e with
  | ⟨_, _, .idem (.select _), _, some row⟩ =>
    (row.status ≠ .reserved && row.status ≠ .failed) || h.all fun e => !Succeeds "call-1" e
  | _ => true

theorem not_triesAgain_of_looksAhead {h : List (LogEntry Work)} {e : LogEntry Work}
    (hl : looksAhead h e = true) : ¬ TriesAgain demoRuntime transferState h e := by
  rintro ⟨tc, key, ⟨htc, -⟩, -, ⟨e', he', hs⟩, he⟩
  obtain rfl := List.mem_singleton.mp htc
  split at he
  · simp only [looksAhead, Bool.or_eq_true, Bool.and_eq_true, decide_eq_true_eq,
      List.all_eq_true] at hl
    rcases hl with ⟨hres, hfail⟩ | hnone
    · exact he.2.elim hres hfail
    · have hnot := hnone e' he'
      rw [hs] at hnot
      cases hnot
  · exact he.elim

/-- The disciplines of this state, decidable. -/
def transferRuns (ok : List (LogEntry Work) → LogEntry Work → Bool) :
    Discipline Db Work (LogEntry Work) where
  start w := runsTransfer w = true
  crash := True
  sequential := True
  ok _ h e := ok h e = true

section Decidable

variable (ok : List (LogEntry Work) → LogEntry Work → Bool)

instance : DecidablePred (transferRuns ok).start := fun w =>
  inferInstanceAs (Decidable (runsTransfer w = true))

instance : Decidable (transferRuns ok).crash := instDecidableTrue

instance : Decidable (transferRuns ok).sequential := instDecidableTrue

instance (db : Db) (h : List (LogEntry Work)) (e : LogEntry Work) :
    Decidable ((transferRuns ok).ok db h e) := inferInstanceAs (Decidable (ok h e = true))

end Decidable

/-- The node runs twice, and twice the transfer is submitted. -/
theorem replayed_transfer_succeeds_twice :
    ∃ c : demoRuntime.workers.Config,
      demoRuntime.workers.Reach (rerunning transferState) (Pool.init Db.empty) c ∧
        ¬ ∀ tc ∈ transferState.lastCalls, demoRuntime.operationKind tc.name ≠ .read →
          c.hist.countP (Succeeds tc.id) ≤ 1 := by
  have hrun : ((demoRuntime.workers.run? (transferRuns fun _ _ => true)
    [.spawn (.toolNode transferState []), .steps 0 20 (approvingEnv demoSuccess),
      .spawn (.toolNode transferState []), .steps 1 20 (approvingEnv demoSuccess)]
    (Pool.init Db.empty)).map fun c => decide (c.hist.countP (Succeeds "call-1") = 2)).getD
      false =
      true := rfl
  obtain ⟨c, run, hc⟩ := Machine.exists_reach_of_run? hrun
  refine ⟨c, run.weaken (fun _ => start_of_runsTransfer) (fun _ => trivial) (fun _ => trivial)
    fun _ _ _ _ => trivial, fun hall => ?_⟩
  have hle := hall ⟨"call-1", "submit_transfer", .obj []⟩ List.mem_cons_self (by decide)
  rw [of_decide_eq_true hc] at hle
  exact absurd hle (by decide)

/-- A run waits for a human, and the next one submits the transfer, once. -/
theorem approved_transfer_succeeds_once :
    ∃ c : demoRuntime.workers.Config, c.hist.countP (Succeeds "call-1") = 1 ∧
      ∀ tc ∈ transferState.lastCalls, demoRuntime.operationKind tc.name ≠ .read →
        c.hist.countP (Succeeds tc.id) ≤ 1 := by
  have hrun : ((demoRuntime.workers.run? (transferRuns looksAhead)
    [.spawn (.toolNode transferState []), .steps 0 20 (demoEnv demoSuccess),
      .spawn (.toolNode transferState [.obj [("decision", .str "approved")]]),
      .steps 1 20 (demoEnv demoSuccess)]
    (Pool.init Db.empty)).map fun c => decide (c.hist.countP (Succeeds "call-1") = 1)).getD
      false =
      true := rfl
  obtain ⟨c, run, hc⟩ := Machine.exists_reach_of_run? hrun
  refine ⟨c, of_decide_eq_true hc, tool_node_replays_safely demoRuntime rfl ?_ ?_
    (run.weaken (fun _ => start_of_runsTransfer) (fun _ => trivial) (fun _ => trivial)
      fun _ _ _ => not_triesAgain_of_looksAhead)⟩
  · intro tc htc
    obtain rfl := List.mem_singleton.mp htc
    decide
  · exact List.nodup_singleton _

end BankingAgent
