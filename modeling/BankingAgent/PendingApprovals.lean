import BankingAgent.Api
import BankingAgent.Async.Sequential
import BankingAgent.GraphProtocol

/-!
# What waits for a human

A graph that suspends has to leave a pending session and a pending grant behind, or
nobody can ever approve the call it waits for. The endpoint `POST /agent` stores both
when `run` hands it the interrupt. `run` does so after its own invocation of the graph
only: the transfer workflow and `resume` make an ordinary answer of a suspended graph.
And a session is stored once, so the second interrupt of a session finds its place taken.
-/

namespace BankingAgent

open Async

/-- A request, served alone. -/
structure Exchange (rt : AgentRuntime) : Type where
  request : Request
  before : Db
  events : List (Event Op Op.Res)
  outcome : Except Exn Response
  after : Db
  runs : Runs exec (rt.serve request) before events outcome after

/-- Requests served one after the other. -/
structure Conversation (rt : AgentRuntime) : Type where
  exchanges : List (Exchange rt)
  linked : exchanges.IsChain fun x y => x.after = y.before

/-- The graph suspends with this value. -/
def Suspends (es : List (Event Op Op.Res)) (payload : Json) : Prop :=
  (⟨.interrupt payload none, ()⟩ : Event Op Op.Res) ∈ es

/-- What is pending is the call. -/
structure PendingOperation.For (p : PendingOperation) (sessionId : Option String)
    (tc : ToolRequest) : Prop where
  toolCallId : p.toolCallId = tc.id
  toolName : p.toolName = tc.name
  toolArgs : p.toolArgs = tc.args
  idemKey : ∃ sid, sid = orElse sessionId "unknown" ∧ p.idemKey = s!"{sid}:{tc.id}"

/-- Every call the graph suspends for is pending when the request ends. The arguments of
a tool call are a dictionary. -/
def Exchange.KeepsPending {rt : AgentRuntime} (x : Exchange rt) : Prop :=
  ∀ sessionId tc, tc.args.isDict = true → Suspends x.events (interruptPayload sessionId tc) →
    ∃ p : PendingOperation, p.For sessionId tc ∧ p.Recorded rt.py x.after

/-- Nothing is stored for the session, nor under a key of it. -/
structure Db.Unused (db : Db) (sid : String) : Prop where
  session : ∀ row ∈ db.hitl.rows, row.sessionId ≠ sid ∧
    ∀ id : String, row.idempotencyKey ≠ some s!"{sid}:{id}"
  grant : ∀ g ∈ db.grants.rows, g.sessionId ≠ sid ∧
    ∀ id : String, g.idempotencyKey ≠ s!"{sid}:{id}"

/-- A suspension is expected only in a request to the agent that goes straight to the
graph, for a session without anything stored. -/
def Exchange.Expected {rt : AgentRuntime} (x : Exchange rt) : Prop :=
  ∀ payload, Suspends x.events payload →
    ∃ r, x.request = .agent r ∧ rt.router = none ∧ x.before.Unused r.runId

/-! ## The protocol of the endpoint -/

/-- Where a request to the agent stands. -/
inductive EndpointPos : Type where
  | running
  /-- the graph waits for the call -/
  | suspended (tc : ToolRequest)
  /-- the session is stored -/
  | inserted (tc : ToolRequest)
  | recorded (tc : ToolRequest)
  /-- an insert was refused -/
  | refused (tc : ToolRequest)
  /-- something is stored that no interrupt asked for -/
  | stray

/-- The operations of a request that concern no pending operation. -/
def Op.Ordinary : Op → Prop
  | event _ => True
  | o => o.InGraph

/-- The operation the endpoint stores for a call. -/
def AgentRequest.pending (r : AgentRequest) (py : PyLib) (tc : ToolRequest) : PendingOperation :=
  .ofInterrupt py r.sessionId r.trusted.subjectId (interruptPayload (some r.runId) tc)

/-- What a request to the agent may do. -/
inductive EndpointMove (py : PyLib) (r : AgentRequest) :
    EndpointPos → (o : Op) → o.Res → EndpointPos → Prop
  | go {o : Op} (x : o.Res) (ordinary : o.Ordinary) : EndpointMove py r .running o x .running
  | suspend (tc : ToolRequest) :
      EndpointMove py r .running (.interrupt (interruptPayload (some r.runId) tc) none) ()
        (.suspended tc)
  | logged {tc : ToolRequest} {ev : AgentEvent} (x : Bool) :
      EndpointMove py r (.suspended tc) (.event ev) x (.suspended tc)
  | clock {tc : ToolRequest} (t : Instant) :
      EndpointMove py r (.suspended tc) .now t (.suspended tc)
  | insertSession {tc : ToolRequest} (now : String) :
      EndpointMove py r (.suspended tc)
        (.hitl (.insert (((r.pending py tc).session now).toRow py))) true (.inserted tc)
  | insertSessionRefused {tc : ToolRequest} (now : String) :
      EndpointMove py r (.suspended tc)
        (.hitl (.insert (((r.pending py tc).session now).toRow py))) false (.refused tc)
  | insertGrant {tc : ToolRequest} (now : String) :
      EndpointMove py r (.inserted tc)
        (.grant (.insertPending ((r.pending py tc).grant py now))) true (.recorded tc)
  | insertGrantRefused {tc : ToolRequest} (now : String) :
      EndpointMove py r (.inserted tc)
        (.grant (.insertPending ((r.pending py tc).grant py now))) false (.refused tc)
  | stray {o : Op} (x : o.Res) (calm : ∀ payload answer, o ≠ .interrupt payload answer) :
      EndpointMove py r .running o x .stray
  | astray {o : Op} (x : o.Res) (calm : ∀ payload answer, o ≠ .interrupt payload answer) :
      EndpointMove py r .stray o x .stray

/-- Where `run` may end: suspended, it hands on the value of the interrupt. -/
def EndpointPos.RunEnds (r : AgentRequest) : EndpointPos → Except Exn RunResult → Prop
  | running, _ => True
  | suspended tc, out =>
    ∃ result, out = .ok result ∧ result.interrupt = some (interruptPayload (some r.runId) tc)
  | _, _ => False

/-- Where the request may end. -/
def EndpointPos.Ends : EndpointPos → Prop
  | suspended _ => False
  | inserted _ => False
  | _ => True

section Walk

variable {rt : AgentRuntime} {r : AgentRequest}

theorem Op.InGraph.ordinary {o : Op} (h : o.InGraph) : o.Ordinary := by
  cases o <;> first | exact h | exact trivial

theorem recordInterrupt_follows {tc : ToolRequest} {result : RunResult}
    (hres : result.interrupt = some (interruptPayload (some r.runId) tc)) :
    Follows (EndpointMove rt.py r) (fun p _ => p.Ends) (rt.recordInterrupt r result)
      (.suspended tc) := by
  rw [AgentRuntime.recordInterrupt]
  rw [hres]
  refine fun t => ⟨_, .clock t, fun hit => ?_⟩
  cases hit with
  | false => exact ⟨_, .insertSessionRefused _, trivial⟩
  | true =>
    refine ⟨_, .insertSession _, fun hit => ?_⟩
    cases hit with
    | false => exact ⟨_, .insertGrantRefused _, trivial⟩
    | true => exact ⟨_, .insertGrant _, trivial⟩

theorem recordInterrupt_strays {result : RunResult} :
    Follows (EndpointMove rt.py r) (fun p _ => p.Ends) (rt.recordInterrupt r result)
      .running := by
  rw [AgentRuntime.recordInterrupt]
  cases result.interrupt with
  | none => exact trivial
  | some info =>
    simp only
    split
    · refine fun t => ⟨_, .go _ trivial, fun hit => ?_⟩
      refine ⟨_, .stray _ (by rintro _ _ ⟨⟩), ?_⟩
      cases hit with
      | false => exact trivial
      | true =>
        refine fun hit => ⟨_, .astray _ (by rintro _ _ ⟨⟩), ?_⟩
        cases hit <;> exact trivial
    · exact trivial

/-- Where the graph stands, as a place of the request. -/
def GraphPos.inRequest : GraphPos → EndpointPos
  | running => .running
  | suspended tc => .suspended tc

/-- Where an invocation of the graph may end: suspended, it returns the value of the
interrupt. -/
def EndpointPos.GraphEnds (r : AgentRequest) : EndpointPos → Except Exn GraphResult → Prop
  | running, _ => True
  | suspended tc, out => ∃ s, out = .ok ⟨s, some (interruptPayload (some r.runId) tc)⟩
  | _, _ => False

/-- The graph inside a request. -/
theorem ainvoke_follows {input : GraphInput} (hsid : input.sessionId = r.runId)
    (threadId : String) :
    Follows (EndpointMove rt.py r) (EndpointPos.GraphEnds r) (rt.ainvoke threadId input)
      .running := by
  have graph {cp : Checkpoint} (hcp : cp.Of (some r.runId)) :
      Follows (EndpointMove rt.py r) (EndpointPos.GraphEnds r)
        (rt.runGraph rt.recursionLimit cp) .running := by
    refine follows_embed GraphPos.inRequest ?_ ?_ (runGraph_returned rt.recursionLimit hcp)
    · intro p o x q move
      cases move with
      | go x h => exact .go x h.ordinary
      | suspend tc => exact .suspend tc
    · intro p out h
      cases p with
      | running => exact trivial
      | suspended tc => exact h
  exact fun _ => ⟨_, .go _ trivial, fun _ => ⟨_, .go _ trivial, graph (congrArg some hsid)⟩⟩

/-- `run` without a router. -/
theorem run_follows (hrouter : rt.router = none) :
    Follows (EndpointMove rt.py r) (EndpointPos.RunEnds r) (rt.run r.runArgs) .running := by
  have graph : Follows (EndpointMove rt.py r) (EndpointPos.RunEnds r)
      (rt.runThroughGraph r.runArgs) .running := by
    refine Follows.bind (Q := fun p out => ∃ out', out = .ok out' ∧ p.GraphEnds r out') ?_ ?_
      (Follows.attempt (Follows.mono id (fun h => ⟨_, rfl, h⟩) (ainvoke_follows rfl _)))
    · rintro p out ⟨_, ⟨⟩, h⟩
      cases p with
      | running =>
        cases out with
        | error exc =>
          cases exc <;> first | exact trivial | exact fun _ => ⟨_, .go _ trivial, trivial⟩
        | ok result =>
          simp only
          cases result.interrupt <;> exact fun _ => ⟨_, .go _ trivial, trivial⟩
      | suspended tc =>
        obtain ⟨s, rfl⟩ := h
        exact fun _ => ⟨_, .logged _, _, rfl, rfl⟩
      | inserted tc => exact h.elim
      | recorded tc => exact h.elim
      | refused tc => exact h.elim
      | stray => exact h.elim
    · rintro p e ⟨out', h, -⟩
      cases h
  rw [AgentRuntime.run]
  rw [hrouter]
  exact fun _ => ⟨_, .go _ trivial, graph⟩

/-- **The endpoint**: it does not end at a suspension. -/
theorem agentEndpoint_follows (hrouter : rt.router = none) :
    Follows (EndpointMove rt.py r) (fun p _ => p.Ends) (rt.agentEndpoint r) .running := by
  rw [AgentRuntime.agentEndpoint]
  split
  · exact trivial
  · refine fun decision => ⟨_, .go _ trivial, ?_⟩
    simp only [Prog.ret_bind]
    cases decision.decision with
    | denied => exact trivial
    | pending => exact trivial
    | approved =>
      simp only
      split
      · exact trivial
      · refine Follows.bind (Q := fun p out => ∃ out', out = .ok out' ∧ p.RunEnds r out') ?_ ?_
          (Follows.attempt (Follows.mono id (fun h => ⟨_, rfl, h⟩) (run_follows hrouter)))
        · rintro p out ⟨_, ⟨⟩, h⟩
          cases p with
          | running =>
            cases out with
            | error exc => cases exc <;> exact trivial
            | ok result => exact recordInterrupt_strays
          | suspended tc =>
            obtain ⟨result, rfl, hres⟩ := h
            exact recordInterrupt_follows hres
          | inserted tc => exact h.elim
          | recorded tc => exact h.elim
          | refused tc => exact h.elim
          | stray => exact h.elim
        · rintro p e ⟨out', h, -⟩
          cases h

end Walk

/-! ## What the endpoint leaves behind -/

/-- The call a request has suspended for. -/
def EndpointPos.call? : EndpointPos → Option ToolRequest
  | suspended tc => some tc
  | inserted tc => some tc
  | recorded tc => some tc
  | refused tc => some tc
  | _ => none

section Recorded

variable {py : PyLib} {r : AgentRequest} {p q : EndpointPos} {o : Op} {x : o.Res}
  {es : List (Event Op Op.Res)} {tc : ToolRequest} {db db₀ db' : Db} {env : Env}

theorem EndpointMove.call_kept (move : EndpointMove py r p o x q) (h : p.call? = some tc) :
    q.call? = some tc := by
  cases move <;> first | exact h | cases h

theorem call_kept_on_path (path : Path (EndpointMove py r) p es q) (h : p.call? = some tc) :
    q.call? = some tc := by
  induction path with
  | nil p => exact h
  | cons move _ ih => exact ih (move.call_kept h)

/-- Every suspension is remembered to the end. -/
theorem call_of_suspends (path : Path (EndpointMove py r) p es q) {payload : Json}
    (h : Suspends es payload) :
    ∃ tc, payload = interruptPayload (some r.runId) tc ∧ q.call? = some tc := by
  induction path with
  | nil p => exact absurd h List.not_mem_nil
  | @cons p q p' o x es move path ih =>
    rcases List.mem_cons.mp h with h | h
    · cases h
      cases move with
      | go _ ordinary => cases ordinary
      | suspend tc => exact ⟨tc, rfl, call_kept_on_path path rfl⟩
      | stray _ calm => exact absurd rfl (calm _ _)
      | astray _ calm => exact absurd rfl (calm _ _)
    · exact ih h

/-- The names the endpoint gives to the parts of its own interrupt. -/
theorem pending_fields (r : AgentRequest) (py : PyLib) (tc : ToolRequest) :
    (r.pending py tc).sessionId = r.runId ∧ (r.pending py tc).toolName = tc.name ∧
      (r.pending py tc).toolCallId = tc.id ∧ (r.pending py tc).toolArgs = tc.args.dictOrEmpty ∧
      (r.pending py tc).idemKey = s!"{r.runId}:{tc.id}" := by
  have hsid : orElse (some r.runId) "unknown" = r.runId := if_neg r.runId_ne
  have hown : orElse r.sessionId r.runId = r.runId := by
    unfold AgentRequest.runId orElse
    cases r.sessionId with
    | none => rfl
    | some s => by_cases hs : s = "" <;> simp [hs]
  simp [AgentRequest.pending, PendingOperation.ofInterrupt, interruptPayload, infoString, Json.get?,
    PyLib.str, hsid, hown]

/-- What is stored, at each place of the request. -/
def EndpointPos.Stored (py : PyLib) (r : AgentRequest) (db₀ db : Db) : EndpointPos → Prop
  | running => db.hitl = db₀.hitl ∧ db.grants = db₀.grants
  | suspended _ => db.hitl = db₀.hitl ∧ db.grants = db₀.grants
  | inserted tc =>
    (∃ now, db.hitl.get r.runId = some (((r.pending py tc).session now).toRow py)) ∧
      db.grants = db₀.grants
  | recorded tc => (r.pending py tc).Recorded py db
  | refused _ => False
  | stray => True

/-- An ordinary operation leaves sessions and grants alone. -/
theorem exec_ordinary (ho : o.Ordinary) (he : exec o env db = some (x, db')) :
    db'.hitl = db.hitl ∧ db'.grants = db.grants := by
  obtain ⟨hhitl, hgrants, -⟩ := exec_frame he
  rw [hhitl, hgrants]
  cases o <;> first | exact ⟨rfl, rfl⟩ | exact ho.elim

/-- A move stores what it says, in a database without anything of the session. -/
theorem EndpointMove.stores (unused : db₀.Unused r.runId) (hs : p.Stored py r db₀ db)
    (move : EndpointMove py r p o x q) (he : exec o env db = some (x, db')) :
    q.Stored py r db₀ db' := by
  cases move with
  | go _ ordinary =>
    obtain ⟨hhitl, hgrants⟩ := exec_ordinary ordinary he
    exact ⟨hhitl.trans hs.1, hgrants.trans hs.2⟩
  | suspend tc =>
    cases env <;> cases he
    exact hs
  | logged =>
    cases env <;> cases he
    exact hs
  | clock =>
    cases env <;> cases he
    exact hs
  | @insertSession tc now =>
    obtain ⟨hhit, rfl⟩ := exec_hitl he
    obtain ⟨hsid, -⟩ := pending_fields r py tc
    refine ⟨⟨now, ?_⟩, hs.2⟩
    have hget := (Sql.Table.get_insert_of_accepted hhit.symm).2 r.runId
    exact hget.trans (if_pos hsid.symm)
  | @insertSessionRefused tc now =>
    -- the place is free, so the insert is not refused
    obtain ⟨hhit, -⟩ := exec_hitl he
    obtain ⟨hsid, -, -, -, hkey⟩ := pending_fields r py tc
    have haccept : (HITLOp.exec (.insert (((r.pending py tc).session now).toRow py)) db.hitl).1 =
        true := by
      refine Sql.Table.insert_accepted (fun row hrow => ?_) fun row hrow => ?_
      · rw [hs.1] at hrow
        exact fun h => (unused.session row hrow).1 (h.trans hsid)
      · rw [hs.1] at hrow
        have hne := (unused.session row hrow).2 tc.id
        simpa [HITLRow.clash, HITLSession.toRow, PendingOperation.session, hkey] using hne.symm
    exact absurd (hhit.trans haccept) Bool.false_ne_true
  | @insertGrant tc now =>
    obtain ⟨hhit, rfl⟩ := exec_grant he
    obtain ⟨hsid, -⟩ := pending_fields r py tc
    refine ⟨?_, now, ?_⟩
    · rw [hsid]
      exact hs.1
    · have hget := (GrantOp.get_insertPending_of_accepted hhit.symm).2 (r.pending py tc).sessionId
      exact hget.trans (if_pos rfl)
  | @insertGrantRefused tc now =>
    obtain ⟨hhit, -⟩ := exec_grant he
    obtain ⟨hsid, -, -, -, hkey⟩ := pending_fields r py tc
    have haccept : (GrantOp.exec (.insertPending ((r.pending py tc).grant py now)) db.grants).1 =
        true := by
      have hcheck : ((r.pending py tc).grant py now).decisionCheck = true := rfl
      rw [GrantOp.exec, if_pos hcheck]
      refine Sql.Table.insert_accepted (fun g hg => ?_) fun g hg => ?_
      · rw [hs.2] at hg
        exact fun h => (unused.grant g hg).1 (h.trans hsid)
      · rw [hs.2] at hg
        have hne := (unused.grant g hg).2 tc.id
        simpa [GrantRecord.clash, PendingOperation.grant, hkey] using hne.symm
    exact absurd (hhit.trans haccept) Bool.false_ne_true
  | stray => exact trivial
  | astray => exact trivial

end Recorded

/-- **No pending approval is lost** in a conversation that suspends only where it is
expected to: each call the graph suspends for is pending, as a session and as a grant,
when its request ends. -/
theorem pending_approvals_kept {rt : AgentRuntime} (conv : Conversation rt)
    (expected : ∀ x ∈ conv.exchanges, x.Expected) : ∀ x ∈ conv.exchanges, x.KeepsPending := by
  intro x hx sessionId tc hdict hsusp
  obtain ⟨r, hr, hrouter, unused⟩ := expected x hx _ hsusp
  have hcode : Follows (EndpointMove rt.py r) (fun p _ => p.Ends) (rt.serve x.request)
      .running := by
    rw [hr]
    exact Follows.map (agentEndpoint_follows hrouter)
  have hstart : EndpointPos.running.Stored rt.py r x.before x.before := ⟨rfl, rfl⟩
  obtain ⟨q, path, hends, hstored⟩ := Runs.carries (T := EndpointMove rt.py r)
    (J := fun p db => p.Stored rt.py r x.before db)
    (fun hs move he => move.stores unused hs he) x.runs hcode hstart
  obtain ⟨tc', hpay, hcall⟩ := call_of_suspends path hsusp
  -- the value of the interrupt determines the call
  have hsid : orElse (some r.runId) "unknown" = r.runId := if_neg r.runId_ne
  obtain ⟨hname, hargs, hid, hsession⟩ : tc.name = tc'.name ∧ tc.args = tc'.args ∧
      tc.id = tc'.id ∧ orElse sessionId "unknown" = r.runId := by
    simp only [interruptPayload, Json.obj.injEq, List.cons.injEq, Prod.mk.injEq, Json.str.injEq,
      true_and, and_true, hsid] at hpay
    exact ⟨hpay.1, hpay.2.1, hpay.2.2.1, hpay.2.2.2.1⟩
  obtain ⟨-, hpname, hpid, hpargs, hpkey⟩ := pending_fields r rt.py tc'
  cases q with
  | recorded tc₁ =>
    obtain rfl := Option.some.inj hcall
    refine ⟨r.pending rt.py tc₁, ⟨hpid.trans hid.symm, hpname.trans hname.symm, ?_, _, rfl, ?_⟩,
      hstored⟩
    · rw [hpargs, hargs]
      rw [hargs] at hdict
      cases harg : tc₁.args <;> rw [harg] at hdict <;> first | rfl | cases hdict
    · rw [hpkey, hsession, hid]
  | refused tc₁ => exact hstored.elim
  | suspended tc₁ => exact hends.elim
  | inserted tc₁ => exact hends.elim
  | running => cases hcall
  | stray => cases hcall

/-! ## A transfer that waits -/

/-- The demo runtime with a router. -/
def routedRuntime : AgentRuntime := { demoRuntime with router := some ⟨none⟩ }

/-- A customer asks for a transfer. -/
def transferRequest : AgentRequest where
  message := "create transfer"
  sessionId := some "s"
  trusted := ⟨"alice", "default"⟩
  uuid := "uuid"
  uuid_ne := by decide
  planId := "plan"

/-- The call the model answers with. -/
def transferCall : ToolRequest := ⟨"call-1", "submit_transfer", .obj []⟩

/-- The request passes the gateway, the model asks for the transfer, and the gateway wants
a human to look at it. -/
def waitingEnv : Op → Env
  | .authorize op =>
    .decision (if op.name = .str "agent_request" then ⟨.approved, "read"⟩ else ⟨.pending, "transfer"⟩)
  | .llm _ => .reply (.ok (.ai "" [transferCall]))
  | o => demoEnv demoSuccess o

/-- The graph has suspended for the transfer. -/
def waitsForTransfer (es : List (Event Op Op.Res)) : Bool :=
  es.any fun e =>
    match e with
    | ⟨.interrupt (.obj [(k₁, .str name), (k₂, .obj []), (k₃, .str id), (k₄, .str session),
        (k₅, .str thread), (k₆, .str key)]) none, _⟩ =>
      [k₁, k₂, k₃, k₄, k₅, k₆] = ["tool_name", "tool_args", "tool_call_id", "session_id",
        "thread_id", "idempotency_key"] &&
      [name, id, session, thread, key] = ["submit_transfer", "call-1", "s", "s", "s:call-1"]
    | _ => false

theorem suspends_of_waitsForTransfer {es : List (Event Op Op.Res)}
    (h : waitsForTransfer es = true) :
    Suspends es (interruptPayload (some "s") transferCall) := by
  obtain ⟨e, he, hm⟩ := List.any_eq_true.mp h
  split at hm
  · simp only [Bool.and_eq_true, decide_eq_true_eq, List.cons.injEq, and_true] at hm
    obtain ⟨⟨rfl, rfl, rfl, rfl, rfl, rfl⟩, rfl, rfl, rfl, rfl, rfl⟩ := hm
    exact he
  · cases hm

/-- A computed exchange. -/
theorem exists_exchange {rt : AgentRuntime} {request : Request} {db : Db} {choose : Op → Env}
    {n : ℕ} {P : List (Event Op Op.Res) → Db → Bool}
    (h : ((runAlone exec choose n (rt.serve request) db).map fun x => P x.1 x.2.2).getD false =
      true) :
    ∃ x : Exchange rt, x.request = request ∧ x.before = db ∧ P x.events x.after = true := by
  cases hrun : runAlone exec choose n (rt.serve request) db with
  | none => rw [hrun] at h; cases h
  | some y =>
    rw [hrun] at h
    exact ⟨⟨request, db, y.1, y.2.1, y.2.2, runs_of_runAlone hrun⟩, rfl, rfl, h⟩

/-- Through the transfer workflow the customer gets an answer, and nothing waits for
approval. -/
theorem transfer_workflow_drops_interrupt :
    ∃ conv : Conversation routedRuntime, ¬ ∀ x ∈ conv.exchanges, x.KeepsPending := by
  have hrun : ((runAlone exec waitingEnv 40 (routedRuntime.serve (.agent transferRequest))
    Db.empty).map fun x => waitsForTransfer x.1 && x.2.2.hitl.rows.isEmpty).getD false = true := rfl
  obtain ⟨x, -, -, hx⟩ := exists_exchange (P := fun es db => waitsForTransfer es &&
    db.hitl.rows.isEmpty) hrun
  obtain ⟨hwaits, hnone⟩ := (Bool.and_eq_true _ _).mp hx
  refine ⟨⟨[x], .singleton _⟩, fun hkeeps => ?_⟩
  obtain ⟨p, -, ⟨now, hget⟩, -⟩ := hkeeps x (List.mem_singleton.mpr rfl) (some "s") transferCall rfl
    (suspends_of_waitsForTransfer hwaits)
  rw [Sql.Table.get, List.isEmpty_iff.mp hnone] at hget
  cases hget

/-- Without a router the same request leaves the transfer pending. -/
theorem transfer_waits_for_approval :
    ∃ conv : Conversation demoRuntime,
      (∃ x ∈ conv.exchanges, waitsForTransfer x.events = true) ∧
        ∀ x ∈ conv.exchanges, x.KeepsPending := by
  have hrun : ((runAlone exec waitingEnv 40 (demoRuntime.serve (.agent transferRequest))
    Db.empty).map fun x => waitsForTransfer x.1).getD false = true := rfl
  obtain ⟨x, hreq, hbefore, hx⟩ := exists_exchange (P := fun es _ => waitsForTransfer es) hrun
  let conv : Conversation demoRuntime := ⟨[x], .singleton _⟩
  refine ⟨conv, ⟨x, List.mem_singleton.mpr rfl, hx⟩, pending_approvals_kept conv ?_⟩
  intro y hy payload _
  obtain rfl := List.mem_singleton.mp hy
  refine ⟨transferRequest, hreq, rfl, ?_⟩
  rw [hbefore]
  exact ⟨fun _ h => absurd h List.not_mem_nil, fun _ h => absurd h List.not_mem_nil⟩

end BankingAgent
