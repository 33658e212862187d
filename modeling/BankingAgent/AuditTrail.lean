import BankingAgent.Api
import BankingAgent.Async.Outline
import BankingAgent.GraphProtocol

/-!
# The numbers of the events

An event is stored under its run id and a number, and the number is a constant of the
place in the code that logs it. Within one call the numbers go up, except on the planner
route and where a restored state meets a router; there two places share a number. Two
calls for one run id count from the same start. `no_event_lost` is what remains: nothing
is lost in a run in which the calls that log anything have run ids of their own and go
neither way.
-/

namespace BankingAgent

open Async

/-- The calls that log events. -/
inductive AuditedCall : Type where
  /-- `AgentRuntime.run` -/
  | run (args : RunArgs)
  /-- `HITLApprovalExecutor.approve` -/
  | approve (sessionId : String) (context : Option Json)
  /-- `HITLApprovalExecutor.reject` -/
  | reject (sessionId : String) (context : Option Json)
  /-- `AgentRuntime.resume`, with the run id it is given or draws -/
  | resume (threadId : String) (resumeValue : Json) (runId : String)

/-- What they return. -/
inductive AuditedReply : Type where
  | run (result : RunResult)
  | approval (result : ApprovalResult)
  | resume (result : GraphResult)

/-- The run id a call logs under. -/
def AuditedCall.runId : AuditedCall → String
  | run args => args.runId
  | approve sessionId _ => sessionId
  | reject sessionId _ => sessionId
  | resume _ _ runId => runId

/-- The coroutine of a call. -/
def AgentRuntime.auditedCode (rt : AgentRuntime) : AuditedCall → Co AuditedReply
  | .run args => .run <$> rt.run args
  | .approve sid context => .approval <$> HITLApprovalExecutor.approve rt.py sid context
  | .reject sid context => .approval <$> HITLApprovalExecutor.reject rt.py sid context
  | .resume threadId value runId => .resume <$> rt.resume threadId value runId

/-- The machine of these calls. -/
def AgentRuntime.audited (rt : AgentRuntime) :
    Machine Op Op.Res Exn AuditedReply AuditedCall Env Db := ⟨exec, rt.auditedCode⟩

/-- The event an entry hands in. -/
def loggedEvent {Call : Type} (e : LogEntry Call) : Option AgentEvent :=
  match e.op with
  | .event ev => some ev
  | _ => none

/-- The events handed in so far, newest first. -/
def handedIn {Call : Type} (h : List (LogEntry Call)) : List AgentEvent := h.filterMap loggedEvent

/-- The pair that is unique in the table. -/
def AgentEvent.key (ev : AgentEvent) : String × ℕ := (ev.runId, ev.seq)

/-- The pairs handed in are pairwise distinct, and all the events are in the table. -/
def NoEventLost {rt : AgentRuntime} (c : rt.audited.Config) : Prop :=
  ((handedIn c.hist).map AgentEvent.key).Nodup ∧ ∀ ev ∈ handedIn c.hist, ev ∈ c.shared.events

/-- No two calls that log anything log under the same run id. -/
def RunIdsApart {rt : AgentRuntime} (c : rt.audited.Config) : Prop :=
  ∀ e ∈ c.hist, ∀ e' ∈ c.hist, (loggedEvent e).isSome → (loggedEvent e').isSome →
    e.call.runId = e'.call.runId → e.tid = e'.tid

instance {rt : AgentRuntime} (c : rt.audited.Config) : Decidable (RunIdsApart c) :=
  inferInstanceAs (Decidable (∀ e ∈ c.hist, ∀ e' ∈ c.hist, _))

/-- Where `run` logs its numbers in order: without a router, and with one if the message
is turned down or if it is neither planned nor the continuation of a restored state. -/
def AgentRuntime.ordered (rt : AgentRuntime) : AuditedCall → Bool
  | .run args =>
    match rt.router with
    | none => true
    | some router =>
      let kind := (router.route rt.py args.userMessage).kind
      kind = .reject || kind ≠ .planner && args.resumeFromState.isNone
  | _ => true

/-! ## Counting -/

/-- What a call may log from `n` on: its own run id, and a number that is not below `n`. -/
inductive SeqMove (runId : String) : ℕ → (o : Op) → o.Res → ℕ → Prop
  | log {n : ℕ} {ev : AgentEvent} (r : Bool) (hrun : ev.runId = runId) (hn : n ≤ ev.seq) :
      SeqMove runId n (.event ev) r (ev.seq + 1)
  | other {n : ℕ} {o : Op} (r : o.Res) (ho : ∀ ev, o ≠ .event ev) : SeqMove runId n o r n

/-- Operations that log nothing. -/
def Op.Unlogged : Op → Prop
  | event _ => False
  | _ => True

theorem Op.Unlogged.ne_event {o : Op} (h : o.Unlogged) (ev : AgentEvent) : o ≠ .event ev := by
  rintro rfl
  exact h

/-- The graph logs nothing. -/
theorem Op.InGraph.unlogged {o : Op} (h : o.InGraph) : o.Unlogged := by
  cases o <;> first | exact trivial | exact h.elim

/-- The coroutine, started with all numbers from `n` on unused, logs under the run id and
uses no number twice. -/
def Numbers {α : Type} (runId : String) (n : ℕ) (c : Co α) : Prop :=
  ∀ k ≤ n, Follows (SeqMove runId) (fun _ _ => True) c k

/-- A branching, each of whose branches does. -/
theorem numbers_ite {α : Type} {runId : String} {n : ℕ} {p : Prop} [Decidable p] {c c' : Co α}
    (h : Numbers runId n c) (h' : Numbers runId n c') :
    Numbers runId n (if p then c else c') := by
  split <;> assumption

/-- The coroutine logs nothing. -/
def Silent {α : Type} (runId : String) (c : Co α) : Prop :=
  ∀ k, Follows (SeqMove runId) (fun p _ => p = k) c k

section Counting

variable {α β : Type} {runId : String} {n : ℕ}

theorem numbers_ret {a : α} : Numbers runId n (.ret a : Co α) := fun _ _ => trivial

theorem numbers_raise {e : Exn} : Numbers runId n (.raise e : Co α) := fun _ _ => trivial

/-- What logs nothing is silent about every run. -/
theorem silent_of_only {c : Co α} (h : c.Only Op.Unlogged) : Silent runId c :=
  fun _ => follows_of_only (fun ho r => .other r ho.ne_event) (fun _ => rfl) h

theorem Silent.attempt {c : Co α} (h : Silent runId c) : Silent runId c.attempt :=
  fun k => Follows.attempt (Follows.mono id id (h k))

/-- What comes before logs nothing. -/
theorem Numbers.afterSilent {c : Co α} {f : α → Co β} (hc : Silent runId c)
    (hf : ∀ a, Numbers runId n (f a)) : Numbers runId n (c >>= f) := by
  intro k hk
  refine Follows.bind (Q := fun p _ => p = k) ?_ (fun _ => trivial) (hc k)
  rintro p a rfl
  exact hf a p hk

/-- What logs nothing may come first. -/
theorem Numbers.after {c : Co α} {f : α → Co β} (hc : c.Only Op.Unlogged)
    (hf : ∀ a, Numbers runId n (f a)) : Numbers runId n (c >>= f) :=
  .afterSilent (silent_of_only hc) hf

/-- An event, and what comes after it. -/
theorem Numbers.log {seq : ℕ} {kind : EventKind} {payload : List (String × Json)}
    {k : Unit → Co α} (hseq : n ≤ seq) (hk : Numbers runId (seq + 1) (k ())) :
    Numbers runId n (persistEvent runId seq kind payload >>= k) :=
  fun _ hm r => ⟨_, .log r rfl (hm.trans hseq), hk _ le_rfl⟩

theorem Numbers.map {f : α → β} {c : Co α} (h : Numbers runId n c) :
    Numbers runId n (f <$> c) := fun k hk => Follows.map (h k hk)

/-- With more numbers unused, nothing else happens. -/
theorem Numbers.mono {m : ℕ} {c : Co α} (h : Numbers runId n c) (hm : m ≤ n) :
    Numbers runId m c := fun k hk => h k (hk.trans hm)

end Counting

/-! ## The calls, one after the other -/

section Calls

variable {py : PyLib} {sid : String} {n : ℕ}

theorem hitlGet_unlogged : (SqliteHITLStore.get py sid).Only Op.Unlogged := by
  refine ⟨trivial, fun row => ?_⟩
  cases row with
  | none => exact trivial
  | some row =>
    simp only [Prog.ret_bind]
    cases row.toSession py <;> exact trivial

theorem updateStatus_unlogged {status : HITLSessionStatus} {v : ℕ} :
    (SqliteHITLStore.updateStatus py sid status v).Only Op.Unlogged :=
  ⟨trivial, fun _ => ⟨trivial, fun _ => trivial⟩⟩

theorem mark_unlogged {m : GrantMark} : (GrantRepository.mark py m sid).Only Op.Unlogged :=
  ⟨trivial, fun _ => ⟨trivial, fun _ => trivial⟩⟩

theorem approvePending_unlogged {actorId : String} {v : ℕ} :
    (GrantRepository.approvePending py sid actorId v).Only Op.Unlogged :=
  ⟨trivial, fun _ => ⟨trivial, fun _ => trivial⟩⟩

theorem atomicConsume_unlogged {userId actorId threadId runId checkpointId toolCallId toolName
    key : String} {args : Json} {v : ℕ} :
    (GrantRepository.atomicConsume py sid userId actorId threadId runId checkpointId toolCallId
      toolName args key v).Only Op.Unlogged := by
  refine ⟨trivial, fun _ => ⟨trivial, fun hit => ?_⟩⟩
  cases hit with
  | true => exact ⟨trivial, fun _ => trivial⟩
  | false => exact trivial

theorem isExpired_unlogged {s : HITLSession} : (s.isExpired py).Only Op.Unlogged := by
  rw [HITLSession.isExpired]
  cases s.expiresAt with
  | none => exact trivial
  | some text =>
    simp only
    split
    · exact trivial
    · refine ⟨trivial, fun t => ?_⟩
      simp only [Prog.ret_bind]
      cases py.fromisoformat text <;> exact trivial

/-- The outcome of a dispatch is the event after the dispatch. -/
theorem settle_numbers {s : HITLSession} {key : String} (answer : Except Exn ToolResult) :
    Numbers sid 4 (HITLApprovalExecutor.settle py s sid key answer) := by
  cases answer with
  | error e =>
    refine .after ⟨trivial, fun _ => trivial⟩ fun _ => .after mark_unlogged fun _ => ?_
    exact .after updateStatus_unlogged fun _ => .log le_rfl numbers_ret
  | ok r =>
    obtain ⟨name, success, content, error⟩ := r
    cases success with
    | true =>
      refine .after ⟨trivial, fun _ => ⟨trivial, fun _ => trivial⟩⟩ fun _ => ?_
      refine .after mark_unlogged fun _ => .after updateStatus_unlogged fun _ => ?_
      exact .log le_rfl numbers_ret
    | false =>
      refine .after ⟨trivial, fun _ => ⟨trivial, fun _ => trivial⟩⟩ fun _ => ?_
      refine .after mark_unlogged fun _ => .after updateStatus_unlogged fun _ => ?_
      exact .log le_rfl numbers_ret

/-- A dispatch is logged after the claim, and before its outcome. -/
theorem dispatch_numbers {s : HITLSession} {key : String} {g : GrantRecord} :
    Numbers sid 3 (HITLApprovalExecutor.dispatch py s sid key g) := by
  refine .after (reserve_onRecord.mono fun h => h.onRecords.inGraph.unlogged) fun _ => ?_
  refine .after ?_ fun args => .log le_rfl ?_
  · cases py.loads g.canonicalToolArgs <;> exact trivial
  · refine .after ?_ fun answer => settle_numbers answer
    exact (callTool_inGraph.mono Op.InGraph.unlogged).attempt

theorem checkAndDispatch_numbers {s : HITLSession} {g : GrantRecord} :
    Numbers sid 1 (HITLApprovalExecutor.checkAndDispatch py s sid g) := by
  refine .log le_rfl (.after (idemGet_onRecord.mono fun h => h.onRecords.inGraph.unlogged)
    fun existing => ?_)
  cases existing with
  | none => exact dispatch_numbers.mono (by decide)
  | some existing =>
    have denied : ∀ error, Numbers sid 2 (do
        GrantRepository.markFailed py sid
        let _ ← SqliteHITLStore.updateStatus py sid .failed (s.version + 1)
        persistEvent sid 2 .checkpoint [("kind", .str "REPLAY_DENIED")]
        return ApprovalResult.ofError sid error) := fun error =>
      .after mark_unlogged fun _ => .after updateStatus_unlogged fun _ => .log le_rfl numbers_ret
    simp only
    cases existing.status with
    | succeeded => exact numbers_ret
    | failed => exact dispatch_numbers.mono (by decide)
    | reserved => exact denied _
    | executing => exact denied _
    | unknown => exact denied _

/-- The events of `approve` are numbered in the order of its stages. -/
theorem approve_numbers {context : Option Json} :
    Numbers sid 0 (HITLApprovalExecutor.approve py sid context) := by
  refine .after hitlGet_unlogged fun session => ?_
  cases session with
  | none => exact numbers_ret
  | some s =>
    simp only
    split
    · exact numbers_ret
    · refine .after isExpired_unlogged fun expired => ?_
      cases expired with
      | true => exact .after updateStatus_unlogged fun _ => numbers_ret
      | false =>
        simp only [Bool.false_eq_true, if_false]
        split
        · refine .after updateStatus_unlogged fun _ => .after mark_unlogged fun _ => ?_
          exact .log le_rfl numbers_ret
        · refine .after ⟨trivial, fun _ => trivial⟩ fun actor => ?_
          cases actor with
          | none => exact numbers_ret
          | some actor =>
            refine .after approvePending_unlogged fun granted => ?_
            cases granted with
            | false => exact numbers_ret
            | true =>
              refine .after updateStatus_unlogged fun approved => ?_
              cases approved with
              | false => exact numbers_ret
              | true =>
                refine .log le_rfl (.after atomicConsume_unlogged fun claimed => ?_)
                cases claimed with
                | none => exact numbers_ret
                | some grant => exact checkAndDispatch_numbers

/-- `reject` logs one event. -/
theorem reject_numbers {context : Option Json} :
    Numbers sid 0 (HITLApprovalExecutor.reject py sid context) := by
  refine .after hitlGet_unlogged fun session => ?_
  cases session with
  | none => exact numbers_ret
  | some s =>
    simp only
    split
    · exact numbers_ret
    · refine .after ⟨trivial, fun _ => trivial⟩ fun actor => ?_
      cases actor with
      | none => exact numbers_ret
      | some actor =>
        refine .after updateStatus_unlogged fun rejected => ?_
        cases rejected with
        | false => exact numbers_ret
        | true => exact .after mark_unlogged fun _ => .log le_rfl numbers_ret

end Calls

section Runs

variable {rt : AgentRuntime} {args : RunArgs}

theorem runGraph_silent {runId : String} {fuel : ℕ} {cp : Checkpoint} :
    Silent runId (rt.runGraph fuel cp) := by
  intro k
  refine follows_embed (fun _ => k) ?_ (fun _ => rfl) (runGraph_returned fuel (rfl : cp.Of _))
  intro p o r q move
  cases move with
  | go r h => exact .other r h.unlogged.ne_event
  | suspend tc => exact .other _ (by rintro _ ⟨⟩)

theorem ainvoke_silent {runId threadId : String} {input : GraphInput} :
    Silent runId (rt.ainvoke threadId input) := fun _ _ =>
  ⟨_, .other _ (by rintro _ ⟨⟩), fun _ => ⟨_, .other _ (by rintro _ ⟨⟩), runGraph_silent _⟩⟩

theorem ainvokeResume_silent {runId threadId : String} {value : Json} :
    Silent runId (rt.ainvokeResume threadId value) := by
  intro k cp
  refine ⟨_, .other _ (by rintro _ ⟨⟩), ?_⟩
  cases cp with
  | none => exact rfl
  | some cp => exact fun _ => ⟨_, .other _ (by rintro _ ⟨⟩), runGraph_silent _⟩

/-- A run through the graph logs after its start. -/
theorem runThroughGraph_numbers :
    Numbers args.runId ((AgentRuntime.initialInput args).stepCount + 1)
      (rt.runThroughGraph args) := by
  refine .afterSilent ainvoke_silent.attempt fun result => ?_
  cases result with
  | error exc => cases exc <;> first | exact .log le_rfl numbers_raise | exact numbers_raise
  | ok result =>
    simp only
    cases result.interrupt with
    | some info => exact .log le_rfl numbers_ret
    | none => exact .log le_rfl numbers_ret

theorem executeDirect_numbers {toolName : String} :
    Numbers args.runId 2 (rt.executeDirect args toolName) := by
  refine numbers_ite numbers_ret (.after ⟨trivial, fun _ => trivial⟩ fun reply => ?_)
  split
  · exact numbers_ret
  · rename_i extracted _
    refine .after ?_ fun toolArgs => .after ?_ fun result => .log le_rfl numbers_ret
    · cases AgentRuntime.injectIdentity toolName args.trustedContext extracted <;> exact trivial
    · exact callTool_inGraph.mono Op.InGraph.unlogged

theorem executeRag_numbers : Numbers args.runId 2 (AgentRuntime.executeRag args) := by
  refine .after ⟨trivial, fun _ => trivial⟩ fun reply => ?_
  refine .after ?_ fun response => .log le_rfl numbers_ret
  cases reply <;> exact trivial

theorem executeTransferWorkflow_numbers {runId : String} {n : ℕ} :
    Numbers runId n (rt.executeTransferWorkflow args) := by
  refine .after ⟨trivial, fun _ => trivial⟩ fun reply => ?_
  cases reply with
  | error exc => exact numbers_ret
  | ok response => exact .afterSilent ainvoke_silent fun _ => numbers_ret

/-- Every route but the planner starts above the number of the intent. -/
theorem runRoute_numbers {route : Route} (hkind : route.kind = .reject ∨
    route.kind ≠ .planner ∧ args.resumeFromState = none)
    (htools : route.kind = .direct → route.suggestedTools ≠ []) :
    Numbers args.runId 2 (rt.runRoute args route) := by
  obtain ⟨kind, intent, maxSteps, tools⟩ := route
  rw [AgentRuntime.runRoute]
  rcases hkind with hkind | ⟨hkind, hnone⟩
  · obtain rfl := hkind
    exact numbers_ret
  · simp only [hnone]
    cases kind with
    | direct =>
      cases tools with
      | nil => exact absurd rfl (htools rfl)
      | cons toolName rest => exact executeDirect_numbers
    | rag => exact executeRag_numbers
    | planner => exact absurd rfl hkind
    | transferStateMachine => exact executeTransferWorkflow_numbers
    | reject => exact numbers_ret

/-- The router suggests a tool wherever it takes the direct route. -/
theorem route_suggests {router : Router} {message : String} {py : PyLib}
    (h : (router.route py message).kind = .direct) :
    (router.route py message).suggestedTools ≠ [] := by
  simp only [Router.route, routeFromIntent] at h ⊢
  generalize classify py router message = intent at h ⊢
  cases intent <;> first | (cases h; done) | simp [suggestTools]

theorem run_numbers (h : rt.ordered (.run args) = true) : Numbers args.runId 0 (rt.run args) := by
  -- after the message, if there is one to log, the intent is next
  have intent : Numbers args.runId ((AgentRuntime.initialInput args).stepCount + 1)
      (match rt.router with
        | none => rt.runThroughGraph args
        | some router =>
          let route := router.route rt.py args.userMessage
          persistEvent args.runId ((AgentRuntime.initialInput args).stepCount + 1) .checkpoint
              [("kind", .str "INTENT_CLASSIFIED"), ("intent", .str route.intent.value),
                ("route", .str route.kind.value)] >>= fun _ =>
            rt.runRoute args route) := by
    rw [AgentRuntime.ordered] at h
    cases hrouter : rt.router with
    | none => exact runThroughGraph_numbers
    | some router =>
      simp only [hrouter, Bool.or_eq_true, Bool.and_eq_true, decide_eq_true_eq,
        Option.isNone_iff_eq_none] at h
      have hkind : (router.route rt.py args.userMessage).kind = .reject ∨
          (router.route rt.py args.userMessage).kind ≠ .planner ∧ args.resumeFromState = none := by
        simpa using h
      refine .log le_rfl ?_
      rcases hkind with hkind | ⟨hkind, hnone⟩
      · rw [AgentRuntime.runRoute]
        rw [hkind]
        exact numbers_ret
      · have hfirst : (AgentRuntime.initialInput args).stepCount = 0 := by
          simp [AgentRuntime.initialInput, hnone]
        rw [hfirst]
        exact runRoute_numbers (.inr ⟨hkind, hnone⟩) route_suggests
  rw [AgentRuntime.run]
  cases hstate : args.resumeFromState with
  | some old => exact intent.mono (Nat.zero_le _)
  | none => exact .log le_rfl (intent.mono (Nat.le_add_left 1 _))

/-- **Every call counts upwards.** -/
theorem audited_numbers (rt : AgentRuntime) (call : AuditedCall) (h : rt.ordered call = true) :
    Numbers call.runId 0 (rt.auditedCode call) := by
  cases call with
  | run args => exact (run_numbers h).map
  | approve sid context => exact approve_numbers.map
  | reject sid context => exact reject_numbers.map
  | resume threadId value runId =>
    exact .map (.afterSilent ainvokeResume_silent fun _ => .log le_rfl numbers_ret)

end Runs

/-! ## No number twice -/

section Outline

variable {rt : AgentRuntime} {h : List (LogEntry AuditedCall)} {s s' : Db}

/-- What is known of the history: an event is logged under the run id of its call, no
thread uses a number twice, and the table holds what was handed in, unless a pair was
handed in twice. -/
structure Numbered (s : Db) (h : List (LogEntry AuditedCall)) : Prop where
  runId : ∀ e ∈ h, ∀ ev, loggedEvent e = some ev → ev.runId = e.call.runId
  distinct : h.Pairwise fun e e' => e.tid = e'.tid → ∀ ev ev', loggedEvent e = some ev →
    loggedEvent e' = some ev' → ev.seq ≠ ev'.seq
  stored : ((handedIn h).map AgentEvent.key).Nodup → ∀ ev ∈ handedIn h, ev ∈ s.events
  handed : ∀ ev ∈ s.events, ev ∈ handedIn h

/-- What a thread at `n` has logged so far. -/
def LoggedBelow (h : List (LogEntry AuditedCall)) (i n : ℕ) : Prop :=
  ∀ e ∈ h, e.tid = i → ∀ ev, loggedEvent e = some ev → ev.seq < n

/-- An insert that finds the pair unused adds the event. -/
theorem mem_events_insert {t : EventTable} {ev : AgentEvent}
    (hnew : ∀ old ∈ t, old.key ≠ ev.key) :
    t.insert ev = (true, t ++ [ev]) := by
  rw [EventTable.insert]
  rw [if_neg]
  simp only [List.any_eq_true, Bool.and_eq_true, decide_eq_true_eq, not_exists, not_and]
  intro old hold hrun hseq
  exact hnew old hold (by rw [AgentEvent.key, AgentEvent.key, hrun, hseq])

/-- An insert adds the event or nothing. -/
theorem events_insert_cases (t : EventTable) (ev : AgentEvent) :
    (t.insert ev).2 = t ∨ (t.insert ev).2 = t ++ [ev] := by
  rw [EventTable.insert]
  split <;> simp

/-- An operation that logs nothing. -/
theorem Numbered.other (hn : Numbered s h) {e : LogEntry AuditedCall} (he : loggedEvent e = none)
    (hs : s'.events = s.events) : Numbered s' (e :: h) := by
  have hhand : handedIn (e :: h) = handedIn h := by rw [handedIn, List.filterMap_cons, he]; rfl
  refine ⟨?_, ?_, ?_, ?_⟩
  · intro e' he' ev hev
    rcases List.mem_cons.mp he' with rfl | he'
    · rw [he] at hev
      cases hev
    · exact hn.runId e' he' ev hev
  · refine List.pairwise_cons.mpr ⟨fun e' _ _ ev ev' hev _ => ?_, hn.distinct⟩
    rw [he] at hev
    cases hev
  · rw [hhand, hs]
    exact hn.stored
  · rw [hhand, hs]
    exact hn.handed

/-- An event of a thread that has not used its number before. -/
theorem Numbered.log (hn : Numbered s h) {i n : ℕ} {call : AuditedCall} {ev : AgentEvent}
    {env : Env} {r : Bool} (hbelow : LoggedBelow h i n) (hrun : ev.runId = call.runId)
    (hseq : n ≤ ev.seq) (hs : s'.events = (s.events.insert ev).2) :
    Numbered s' (⟨i, call, .event ev, env, r⟩ :: h) := by
  have hhand : handedIn (⟨i, call, .event ev, env, r⟩ :: h) = ev :: handedIn h := rfl
  refine ⟨?_, ?_, ?_, ?_⟩
  · intro e' he' ev' hev'
    rcases List.mem_cons.mp he' with rfl | he'
    · obtain rfl := Option.some.inj hev'
      exact hrun
    · exact hn.runId e' he' ev' hev'
  · refine List.pairwise_cons.mpr ⟨fun e' he' htid ev₁ ev' hev hev' => ?_, hn.distinct⟩
    obtain rfl := Option.some.inj hev
    have hlt := hbelow e' he' htid.symm ev' hev'
    omega
  · rw [hhand, List.map_cons, List.nodup_cons, hs]
    rintro ⟨hnew, hnodup⟩
    -- the pair is new to the table, because it is new to the history
    have hfresh : ∀ old ∈ s.events, old.key ≠ ev.key := fun old hold heq =>
      hnew (List.mem_map.mpr ⟨old, hn.handed old hold, heq⟩)
    rw [mem_events_insert hfresh]
    intro ev' hev'
    rcases List.mem_cons.mp hev' with rfl | hev'
    · exact List.mem_append_right _ (List.mem_singleton.mpr rfl)
    · exact List.mem_append_left _ (hn.stored hnodup ev' hev')
  · rw [hhand, hs]
    intro old hold
    rcases events_insert_cases s.events ev with heq | heq <;> rw [heq] at hold
    · exact List.mem_cons_of_mem _ (hn.handed old hold)
    · rcases List.mem_append.mp hold with hold | hold
      · exact List.mem_cons_of_mem _ (hn.handed old hold)
      · obtain rfl := List.mem_singleton.mp hold
        exact List.mem_cons_self ..

/-- What another operation leaves of the event log. -/
theorem exec_events_of_ne {o : Op} {r : o.Res} {env : Env} (ho : ∀ ev, o ≠ .event ev)
    (he : exec o env s = some (r, s')) : s'.events = s.events := by
  cases o <;> cases env <;> cases he <;> first | rfl | exact absurd rfl (ho _)

/-- The numbers, as an outline. -/
def numberOutline (rt : AgentRuntime) :
    rt.audited.Outline (.crashing fun call => rt.ordered call = true)
      (fun call => SeqMove call.runId) (fun _ => 0) where
  inv := Numbered
  asserts _ h i _ n := LoggedBelow h i n
  owns _ _ := False
  entry _ _ hnew := ⟨fun e he htid => absurd htid (hnew e he), id⟩
  step {_ _ h i call n _ o r env} hn hbelow move he _ := by
    cases move with
    | @log ev r hrun hseq =>
      refine ⟨hn.log hbelow hrun hseq (by rw [exec_event he]), fun e' he' htid ev' hev' => ?_⟩
      rcases List.mem_cons.mp he' with rfl | he'
      · obtain rfl := Option.some.inj hev'
        exact Nat.lt_succ_self _
      · have hlt := hbelow e' he' htid ev' hev'
        omega
    | other _ ho =>
      have hnone : loggedEvent (⟨i, call, o, env, r⟩ : LogEntry AuditedCall) = none := by
        cases o <;> first | rfl | exact absurd rfl (ho _)
      refine ⟨hn.other hnone (exec_events_of_ne ho he), fun e' he' htid ev' hev' => ?_⟩
      rcases List.mem_cons.mp he' with rfl | he'
      · rw [hnone] at hev'
        cases hev'
      · exact hbelow e' he' htid ev' hev'
  free {_ _ _ _ _ _ _ _ _ _ _ _ _} _ _ hb _ _ _ hne _ e' he' htid ev' hev' := by
    rcases List.mem_cons.mp he' with rfl | he'
    · exact absurd htid hne
    · exact hb e' he' htid ev' hev'
  excl _ _ _ _ _ h _ := h.elim

end Outline

/-- **No event is lost** in a run whose calls log under run ids of their own, and their
numbers in order: for any number of runs, approvals, rejections and resumes, every
interleaving, crashes anywhere, every router, model, policy and tool server, from an
empty event log. -/
theorem no_event_lost (rt : AgentRuntime) {db : Db} (hdb : db.events = [])
    {c : rt.audited.Config}
    (run : rt.audited.Reach (.crashing fun call => rt.ordered call = true) (Pool.init db) c)
    (apart : RunIdsApart c) : NoEventLost c := by
  have hinit : (numberOutline rt).inv db [] :=
    ⟨fun e he => absurd he List.not_mem_nil, .nil, fun _ ev hev => absurd hev List.not_mem_nil,
      fun ev hev => absurd (hdb ▸ hev) List.not_mem_nil⟩
  have hcode : ∀ call, rt.ordered call = true → Follows (SeqMove call.runId)
      (fun _ (_ : Except Exn AuditedReply) => True) (rt.auditedCode call) 0 :=
    fun call h => audited_numbers rt call h 0 le_rfl
  have hn : Numbered c.shared c.hist := (numberOutline rt).sound_inv hcode hinit run
  have hpair : c.hist.Pairwise fun e e' => ∀ ev, loggedEvent e = some ev →
      ∀ ev', loggedEvent e' = some ev' → ev.key ≠ ev'.key := by
    refine hn.distinct.imp_of_mem fun {e e'} he he' hdist ev hev ev' hev' hkey => ?_
    obtain ⟨hrun, hseq⟩ := Prod.mk.inj hkey
    have hid : e.call.runId = e'.call.runId := by
      rw [← hn.runId e he ev hev, ← hn.runId e' he' ev' hev', hrun]
    have htid := apart e he e' he' (by rw [hev]; rfl) (by rw [hev']; rfl) hid
    exact hdist htid ev ev' hev hev' hseq
  have hnodup : ((handedIn c.hist).map AgentEvent.key).Nodup :=
    List.pairwise_map.mpr (List.pairwise_filterMap.mpr hpair)
  exact ⟨hnodup, hn.stored hnodup⟩

/-! ## Two turns in one session -/

/-- A turn of a session, with nothing restored. -/
def turn (sessionId : String) : AuditedCall :=
  .run ⟨"hello", sessionId, sessionId, none, none, "plan"⟩

/-- Two turns, one after the other. -/
def twoTurns (first second : String) : List (Machine.Act AuditedCall Op Env) :=
  let go := demoEnv demoSuccess
  [.spawn (turn first), .steps 0 20 go, .spawn (turn second), .steps 1 20 go]

/-- The second message of a session is logged under the number of the first. -/
theorem second_turn_lost :
    ∃ c : demoRuntime.audited.Config,
      demoRuntime.audited.Reach (.free fun _ => True) (Pool.init Db.empty) c ∧
        ¬ NoEventLost c := by
  have hrun : ((demoRuntime.audited.run? (.free fun _ => True) (twoTurns "s" "s")
    (Pool.init Db.empty)).map fun c =>
      !decide ((handedIn c.hist).map AgentEvent.key).Nodup).getD false = true := rfl
  obtain ⟨c, run, hc⟩ := Machine.exists_reach_of_run? hrun
  refine ⟨c, run, fun hkept => ?_⟩
  rw [decide_eq_true hkept.1] at hc
  cases hc

/-- In two sessions everything is kept. -/
theorem no_event_lost_in_two_sessions :
    ∃ c : demoRuntime.audited.Config, (handedIn c.hist).length = 4 ∧ NoEventLost c := by
  have hrun : ((demoRuntime.audited.run? (.crashing fun call => demoRuntime.ordered call = true)
    (twoTurns "s" "t") (Pool.init Db.empty)).map fun c =>
      decide ((handedIn c.hist).length = 4) && decide (RunIdsApart c)).getD false = true := rfl
  obtain ⟨c, run, hc⟩ := Machine.exists_reach_of_run? hrun
  obtain ⟨hlen, hapart⟩ := (Bool.and_eq_true _ _).mp hc
  exact ⟨c, of_decide_eq_true hlen,
    no_event_lost demoRuntime rfl run (of_decide_eq_true hapart)⟩

end BankingAgent
