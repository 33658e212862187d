import BankingAgent.ReadOnlyDeployment
import BankingAgent.MakerChecker

/-!
# Where nobody can approve

`approve_endpoint` passes no context on to the executor, and `DevelopmentHeaderResolver`, which is
what `bootstrap_app` falls back on, resolves nobody without one. Such a deployment fails closed:
what was recorded stays undecided, and no decision ever gets to a tool, to the graph or to a grant.
And where a router is configured, as `bootstrap_app` does it, nothing is recorded in the first
place.

* `approvals_closed` — under any policy, from any database, with agent requests coming in as they
  like: no approval and no rejection is ever answered with success.
* `routed_never_recorded` — behind a router no request ever leaves a session behind.
-/

namespace BankingAgent

open Async

/-! ## What a decision does before it asks who decides -/

/-- The actor of a decision cannot be resolved. -/
def NobodyResolved : (o : Op) → o.Res → Prop
  | .resolveActor none, actor => actor = none
  | _, _ => True

/-- An overdue session is closed, and a historical one handed over; nothing else is written. -/
def Op.BeforeActor : Op → Prop
  | hitl (.select _) => True
  | hitl (.updateStatus _ status _ _) => status = .expired ∨ status = .reconciliationRequired
  | grant (.update (.mark .reconciliationRequired _ _)) => True
  | resolveActor context => context = none
  | now => True
  | event _ => True
  | _ => False

/-- The executor has nothing but an error to report. -/
def ApprovalResult.Refuses (result : ApprovalResult) : Prop :=
  ∃ error, result.error = some error ∧ error ≠ ""

/-- A decision that ends in an exception or a refusal. -/
abbrev TurnsAway {α : Type} (P : α → Prop) (c : Co α) : Prop :=
  Relies NobodyResolved Op.BeforeActor (fun out => ∀ a, out = .ok a → P a) c

section Decide

variable {py : PyLib} {sessionId : String}

theorem refuses_ofError {error : String} (h : error ≠ "") :
    (ApprovalResult.ofError sessionId error).Refuses := ⟨error, rfl, h⟩

theorem already_ne_empty (status : HITLSessionStatus) : s!"Already {status.value}" ≠ "" := by
  cases status <;> decide

theorem turnsAway_ret {α : Type} {P : α → Prop} {a : α} (h : P a) : TurnsAway P (.ret a) := by
  rintro _ ⟨⟩
  exact h

/-- Reading the session leaves the decision open. -/
theorem turnsAway_get {α : Type} {P : α → Prop} {f : Option HITLSession → Co α}
    (hf : ∀ session, TurnsAway P (f session)) :
    TurnsAway P (SqliteHITLStore.get py sessionId >>= f) := by
  refine ⟨trivial, fun row _ => ?_⟩
  cases row with
  | none => exact hf none
  | some row =>
    simp only [Prog.ret_bind]
    cases row.toSession py with
    | none => rintro _ ⟨⟩
    | some session => exact hf (some session)

/-- Of the writes, only the two that come before the actor is known. -/
theorem turnsAway_updateStatus {α : Type} {P : α → Prop} {f : Bool → Co α}
    {status : HITLSessionStatus} {version : ℕ}
    (hstatus : status = .expired ∨ status = .reconciliationRequired)
    (hf : ∀ hit, TurnsAway P (f hit)) :
    TurnsAway P (SqliteHITLStore.updateStatus py sessionId status version >>= f) :=
  ⟨trivial, fun _ _ => ⟨hstatus, fun hit _ => hf hit⟩⟩

theorem turnsAway_isExpired {α : Type} {P : α → Prop} {f : Bool → Co α} {session : HITLSession}
    (hf : ∀ expired, TurnsAway P (f expired)) : TurnsAway P (session.isExpired py >>= f) := by
  unfold HITLSession.isExpired
  cases session.expiresAt with
  | none => exact hf false
  | some text =>
    simp only
    split
    · exact hf false
    · refine ⟨trivial, fun t _ => ?_⟩
      simp only [Prog.ret_bind]
      cases py.fromisoformat text with
      | none => rintro _ ⟨⟩
      | some deadline => exact hf _

theorem reconcile_turnsAway {session : HITLSession} : TurnsAway ApprovalResult.Refuses
    (HITLApprovalExecutor.reconcile py session sessionId) := by
  refine turnsAway_updateStatus (.inr rfl) fun _ => ?_
  refine ⟨trivial, fun _ _ => ⟨trivial, fun _ _ => ⟨trivial, fun _ _ => ?_⟩⟩⟩
  exact turnsAway_ret ⟨_, rfl, by decide⟩

/-- `approve` turns everybody away when nobody is known. -/
theorem approve_turnsAway : TurnsAway ApprovalResult.Refuses
    (HITLApprovalExecutor.approve py sessionId none) := by
  refine turnsAway_get fun session => ?_
  cases session with
  | none => exact turnsAway_ret (refuses_ofError (by decide))
  | some session =>
    simp only
    split
    · exact turnsAway_ret (refuses_ofError (already_ne_empty _))
    · refine turnsAway_isExpired fun expired => ?_
      cases expired with
      | true =>
        exact turnsAway_updateStatus (.inl rfl) fun _ => turnsAway_ret (refuses_ofError (by decide))
      | false =>
        simp only [Bool.false_eq_true, if_false]
        split
        · exact reconcile_turnsAway
        · refine ⟨rfl, fun actor hactor => ?_⟩
          obtain rfl := hactor
          exact turnsAway_ret (refuses_ofError (by decide))

/-- So does `reject`. -/
theorem reject_turnsAway : TurnsAway ApprovalResult.Refuses
    (HITLApprovalExecutor.reject py sessionId none) := by
  refine turnsAway_get fun session => ?_
  cases session with
  | none => exact turnsAway_ret (refuses_ofError (by decide))
  | some session =>
    simp only
    split
    · exact turnsAway_ret (refuses_ofError (already_ne_empty _))
    · refine ⟨rfl, fun actor hactor => ?_⟩
      obtain rfl := hactor
      exact turnsAway_ret (refuses_ofError (by decide))

/-- A refusal of the executor is the end of the request. -/
theorem mapExecutorResult_of_refuses {result : ApprovalResult} (h : result.Refuses) :
    ∃ exc, mapExecutorResult result = throw exc := by
  obtain ⟨error, herror, hne⟩ := h
  rw [mapExecutorResult, herror]
  simp only [hne, if_false]
  split <;> exact ⟨_, rfl⟩

theorem turnsAway_after {α : Type} {P : α → Prop} {c : Co ApprovalResult}
    {f : ApprovalResult → Co α} (hc : TurnsAway ApprovalResult.Refuses c) :
    TurnsAway P (c >>= fun result => mapExecutorResult result >>= fun _ => f result) := by
  refine Relies.bind (fun result h => ?_) (by rintro _ _ _ ⟨⟩) hc
  obtain ⟨exc, hexc⟩ := mapExecutorResult_of_refuses (h result rfl)
  rw [hexc]
  rintro _ ⟨⟩

end Decide

/-! ## The requests -/

/-- Nothing is relied on, and any tool may be called. -/
def unconfined (rt : AgentRuntime) : Confinement rt where
  assumes _ _ := True
  tools _ := True
  waits := True
  node _ _ _ _ := ⟨trivial, fun _ => trivial⟩
  step _ _ _ _ := trivial
  direct _ _ := trivial
  client _ := trivial
  model _ := trivial

/-- What a request does where nobody can approve. -/
def Request.MayDo (rt : AgentRuntime) : Request → Op → Prop
  | .agent _ => (unconfined rt).Records
  | _ => Op.BeforeActor

/-- Only a request to the agent is answered with success. -/
def Request.MayAnswer : Request → Except Exn Response → Prop
  | .agent _, _ => True
  | _, out => ∀ response, out ≠ .ok response

theorem serve_closed (rt : AgentRuntime) (req : Request) :
    Relies NobodyResolved (req.MayDo rt) req.MayAnswer (rt.serve req) := by
  have never {c : Co ApprovalResponse} (h : TurnsAway (fun _ => False) c) :
      TurnsAway (fun _ => False) (Response.decision <$> c) :=
    Relies.bind (fun response h => (h response rfl).elim) (by rintro _ _ _ ⟨⟩) h
  cases req with
  | agent r =>
    refine Relies.bind (Q := fun _ => True) (fun _ _ => by exact trivial) (fun _ _ => trivial) ?_
    exact Relies.mono (fun _ => trivial) (fun _ => trivial)
      (Confinement.agentEndpoint_keeps (D := unconfined rt) (r := r))
  | approve sessionId runId => exact never (turnsAway_after approve_turnsAway)
  | reject sessionId runId => exact never (turnsAway_after reject_turnsAway)

/-! ## What is stored -/

/-- Where a session comes from. -/
theorem HITLOp.get_exec_cases {o : HITLOp} {t : HITLTable} {sid : String} {row' : HITLRow}
    (h : (o.exec t).2.get sid = some row') :
    t.get sid = some row' ∨ o = .insert row' ∨
      ∃ row, t.get sid = some row ∧ ((∃ status now, o = .updateStatus sid status now row.version ∧
          row' = { row with status := status, updatedAt := now, version := row.version + 1 }) ∨
        ∃ now, o = .expireStale now ∧ row.status = .pending ∧
          row' = { row with status := .expired, updatedAt := now }) := by
  cases o with
  | select sessionId => exact .inl h
  | insert new =>
    cases hit : (t.insert (HITLRow.clash new) new).1 with
    | false =>
      rw [HITLOp.exec, Sql.Table.get_insert_of_refused hit] at h
      exact .inl h
    | true =>
      rw [HITLOp.exec, (Sql.Table.get_insert_of_accepted hit).2] at h
      split at h
      · obtain rfl := Option.some.inj h
        exact .inr (.inl rfl)
      · exact .inl h
  | updateStatus sid' status now v =>
    by_cases hsid : sid = sid'
    · subst hsid
      cases hit : ((HITLOp.updateStatus sid status now v).exec t).1 with
      | false => exact .inl ((Sql.Table.get_update_of_miss hit).symm.trans h)
      | true =>
        obtain ⟨row, hrow, rfl, hget⟩ := HITLOp.get_updateStatus_of_hit hit
        obtain rfl := Option.some.inj (hget.symm.trans h)
        exact .inr (.inr ⟨row, hrow, .inl ⟨status, now, rfl, rfl⟩⟩)
    · exact .inl ((Sql.Table.get_update_of_ne hsid).symm.trans h)
  | expireStale now =>
    cases hrow : t.get sid with
    | none =>
      rw [HITLOp.exec, Sql.Table.get_updateAll, hrow] at h
      cases h
    | some row =>
      rcases HITLOp.get_expireStale now hrow with hget | ⟨hpending, -, hget⟩
      · exact .inl (hget.symm.trans h)
      · obtain rfl := Option.some.inj (hget.symm.trans h)
        exact .inr (.inr ⟨row, rfl, .inr ⟨now, rfl, hpending, rfl⟩⟩)

/-- Somebody has decided on the session. -/
def HITLSessionStatus.Decided : HITLSessionStatus → Prop
  | approved | rejected | resumed | failed => True
  | pending | expired | reconciliationRequired => False

/-- Somebody has decided on the grant. -/
def GrantStatus.Decided : GrantStatus → Prop
  | pending | reconciliationRequired => False
  | _ => True

/-- Whatever is decided was so before. -/
structure NothingDecided (before after : Db) : Prop where
  sessions : ∀ sid row, after.hitl.get sid = some row → row.status.Decided →
    before.hitl.get sid = some row
  grants : ∀ sid g, after.grants.get sid = some g → g.status.Decided →
    before.grants.get sid = some g

/-- A statement on the sessions decides on none. -/
theorem hitlAfter_undecided {rt : AgentRuntime} {req : Request} {o : Op} {t : HITLTable}
    {sid : String} {row : HITLRow} (hG : req.MayDo rt o)
    (h : (o.hitlAfter t).get sid = some row) (hdecided : row.status.Decided) :
    t.get sid = some row := by
  cases o with
  | hitl o =>
    rcases HITLOp.get_exec_cases h with hrow | rfl |
      ⟨row, -, ⟨status, now, rfl, rfl⟩ | ⟨now, -, -, rfl⟩⟩
    · exact hrow
    · -- a session is recorded as pending, and by a request to the agent
      cases req with
      | agent r => rw [show row.status = .pending from hG.2] at hdecided; exact hdecided.elim
      | _ => exact hG.elim
    · cases req with
      | agent r => exact hG.elim
      | _ => rcases hG with rfl | rfl <;> exact hdecided.elim
    · exact hdecided.elim
  | _ => exact h

/-- A statement on the grants decides on none. -/
theorem grantsAfter_undecided {rt : AgentRuntime} {req : Request} {o : Op} {t : GrantTable}
    {sid : String} {g : GrantRecord} (hG : req.MayDo rt o)
    (h : (o.grantsAfter t).get sid = some g) (hdecided : g.status.Decided) :
    t.get sid = some g := by
  cases o with
  | grant o =>
    rcases GrantOp.get_exec_cases h with hg | ⟨new, rfl⟩ | ⟨u, g₀, rfl, -, -, -, rfl⟩
    · exact hg
    · exact hdecided.elim
    · cases req with
      | agent r => exact hG.elim
      | _ =>
        cases u with
        | mark m sid now => cases m <;> first | exact hG.elim | exact hdecided.elim
        | _ => exact hG.elim
  | _ => exact h

theorem NothingDecided.exec {rt : AgentRuntime} {app : Application} {req : Request}
    {before : Db} {w w' : World} {o : Op} {choice : Choice} {r : o.Res}
    (hw : NothingDecided before w.db) (hG : req.MayDo rt o)
    (h : app.exec o choice w = some (r, w')) : NothingDecided before w'.db := by
  obtain ⟨env, -, hexec, -⟩ := Application.of_exec h
  obtain ⟨hhitl, hgrants, -⟩ := exec_frame hexec
  refine ⟨fun sid row hrow hdecided => ?_, fun sid g hg hdecided => ?_⟩
  · rw [hhitl] at hrow
    exact hw.sessions sid row (hitlAfter_undecided hG hrow hdecided) hdecided
  · rw [hgrants] at hg
    exact hw.grants sid g (grantsAfter_undecided hG hg hdecided) hdecided

/-- The resolver is asked without a context, and resolves nobody. -/
theorem nobody_of_exec {app : Application} (hresolver : app.resolver none = none) {w w' : World}
    {o : Op} {choice : Choice} {r : o.Res} (h : app.exec o choice w = some (r, w')) :
    NobodyResolved o r := by
  obtain ⟨env, henv, hexec, -⟩ := Application.of_exec h
  generalize w'.db = db' at hexec
  cases o with
  | resolveActor context =>
    cases context with
    | some context => exact trivial
    | none =>
      cases choice <;> cases henv
      cases hexec
      exact hresolver
  | _ => exact trivial

/-! ## The closed deployment -/

/-- What only a request to the agent does: call a tool, ask a model, or go on with a graph. -/
def Op.Acts : Op → Prop
  | callTool _ _ => True
  | llm _ => True
  | thread _ => True
  | _ => False

/-- **Where nobody can approve, nothing is approved**: no session and no grant is ever decided on,
every tool call, model call and checkpoint is one of a request to the agent, no call is the
executor's, and no approval or rejection is answered with success. -/
theorem approvals_closed (app : Application) (hresolver : app.resolver none = none) {w : World}
    {c : app.machine.Config} (h : app.machine.Reach (.crashing fun _ => True) (Pool.init w) c) :
    NothingDecided w.db c.shared.db ∧
      (∀ e ∈ c.hist, e.op.Acts → ∃ r, e.call = .agent r) ∧
      (∀ e ∈ c.hist, ∀ sessionId idemKey call,
        e.op ≠ .callTool (.executor sessionId idemKey) call) ∧
      ∀ i req response, c.At i req (.ret response) → ∃ r, req = .agent r := by
  obtain ⟨hshared, hhist, hthreads⟩ := Machine.Reach.relies
    (J := fun w' => NothingDecided w.db w'.db) (fun req _ => serve_closed app.toAgentRuntime req)
    ⟨fun _ _ h _ => h, fun _ _ h _ => h⟩
    (fun hw hG hexec _ => ⟨nobody_of_exec hresolver hexec, hw.exec hG hexec⟩) h
  refine ⟨hshared, fun e he hacts => ?_, fun e he sessionId idemKey call hop => ?_,
    fun i req response hat => ?_⟩
  · have hG := hhist e he
    cases hreq : e.call with
    | agent r => exact ⟨r, rfl⟩
    | _ =>
      rw [hreq] at hG
      cases hop : e.op <;> rw [hop] at hG hacts <;> first | exact hG.elim | exact hacts.elim
  · have hG := hhist e he
    rw [hop] at hG
    cases hreq : e.call with
    | agent r => rw [hreq] at hG; exact hG.2 sessionId idemKey rfl
    | _ => rw [hreq] at hG; exact hG.elim
  · have hp := hthreads hat
    cases req with
    | agent r => exact ⟨r, rfl⟩
    | _ => exact absurd rfl (hp response)

/-- The bootstrapped application, but with a policy that asks for approvals. -/
def escalatingApp : Application :=
  { bootstrapApp demoPy bootstrapLib (developmentHeaderResolver "x-approver-identity") 50 25 with
    policy := requireApprovalPolicy }

/-- The session is still pending, and the approval was refused. -/
def refusedInTime {M : Machine Op Op.Res Exn Response Request Choice World} (c : M.Config) : Bool :=
  (match c.shared.db.hitl.get "s" with
  | some row => row.status = .pending
  | none => false) &&
  match M.result? c 0 with
  | some (_, .error (.http status _)) => status = 500
  | _ => false

/-- A recorded operation is approved, to no effect. -/
theorem approval_without_effect :
    ∃ c : escalatingApp.machine.Config, escalatingApp.machine.Reach (.crashing fun _ => True)
        (Pool.init ⟨demoDb, bootstrapWorld.bank⟩) c ∧ refusedInTime c = true ∧
      NothingDecided demoDb c.shared.db := by
  have hrun : ((escalatingApp.machine.run? (.crashing fun _ => True)
      [.spawn (.approve "s" "resumed"), .steps 0 5 bootstrapChoice]
      (Pool.init ⟨demoDb, bootstrapWorld.bank⟩)).map refusedInTime).getD false = true := by
    decide +kernel
  obtain ⟨c, hreach, hc⟩ := Machine.exists_reach_of_run? hrun
  exact ⟨c, hreach, hc, (approvals_closed escalatingApp rfl hreach).1⟩

/-! ## Nothing is recorded behind a router -/

/-- Sessions are looked at only, the grants are left alone, and the executor calls nothing. -/
def Op.SparesRecords : Op → Prop
  | hitl (.select _) => True
  | hitl _ | grant _ | resolveActor _ => False
  | callTool site _ => ∀ sessionId idemKey, site ≠ .executor sessionId idemKey
  | _ => True

/-- No session is found. -/
def NoSession : (o : Op) → o.Res → Prop
  | .hitl (.select _), row => row = none
  | _, _ => True

theorem sparesRecords_of_guarantees {rt : AgentRuntime} {o : Op}
    (h : (unconfined rt).Guarantees o) : o.SparesRecords := by
  cases o with
  | hitl o => exact h.elim
  | callTool site call => exact h.2
  | _ => exact h

theorem serve_routed {rt : AgentRuntime} {router : Router} (hrouter : rt.router = some router)
    (req : Request) : Relies NoSession Op.SparesRecords (NothingWaits req) (rt.serve req) := by
  cases req with
  | agent r =>
    refine Relies.bind (Q := fun out => NothingWaits (.agent r) (out.map Response.agent))
      (fun result h => by exact h) (fun exc h => h) (Relies.mono (fun _ => trivial) id ?_)
    refine Confinement.agentEndpoint_relies (D := unconfined rt) sparesRecords_of_guarantees
      (Confinement.run_settles hrouter rfl) (fun status detail h => h) fun result hnone => ?_
    rw [AgentRuntime.recordInterrupt, hnone]
    exact hnone
  | approve sessionId runId =>
    refine ⟨trivial, fun row hrow => ?_⟩
    obtain rfl := hrow
    exact rfl
  | reject sessionId runId =>
    refine ⟨trivial, fun row hrow => ?_⟩
    obtain rfl := hrow
    exact rfl

theorem exec_sparesRecords {db db' : Db} {o : Op} {env : Env} {r : o.Res}
    (hempty : db.hitl = .empty) (hG : o.SparesRecords) (h : exec o env db = some (r, db')) :
    NoSession o r ∧ db'.hitl = .empty ∧ db'.grants = db.grants := by
  obtain ⟨hhitl, hgrants, -⟩ := exec_frame h
  cases o with
  | hitl o =>
    cases o with
    | select sessionId =>
      obtain ⟨rfl, -⟩ := exec_hitl h
      refine ⟨?_, hhitl.trans hempty, hgrants⟩
      rw [NoSession, HITLOp.exec_select, hempty]
      rfl
    | _ => exact hG.elim
  | grant o => exact hG.elim
  | _ => exact ⟨trivial, hhitl.trans hempty, hgrants⟩

/-- **Behind a router nothing waits for a human**: whatever the gateway decides, a request to the
agent records no session and no grant, and is never answered with the demand to approve it; every
approval and every rejection finds no session. -/
theorem routed_never_recorded (rt : AgentRuntime) {router : Router}
    (hrouter : rt.router = some router) {db : Db} (hempty : db.hitl = .empty)
    {c : rt.server.Config} (h : rt.server.Reach (.crashing fun _ => True) (Pool.init db) c) :
    c.shared.hitl = .empty ∧ c.shared.grants = db.grants ∧
      (∀ e ∈ c.hist, ∀ sessionId idemKey call,
        e.op ≠ .callTool (.executor sessionId idemKey) call) ∧
      ∀ i req p out, c.At i req p → p.outcome? = some out → NothingWaits req out := by
  obtain ⟨⟨hsessions, hgrants⟩, hhist, hthreads⟩ := Machine.Reach.relies
    (J := fun db' => db'.hitl = .empty ∧ db'.grants = db.grants)
    (fun req _ => serve_routed hrouter req) ⟨hempty, rfl⟩
    (fun hJ hG hexec _ => by
      obtain ⟨hA, hhitl, hgrants⟩ := exec_sparesRecords hJ.1 hG hexec
      exact ⟨hA, hhitl, hgrants.trans hJ.2⟩) h
  refine ⟨hsessions, hgrants, fun e he sessionId idemKey call hop => ?_,
    fun i req p out hat hout => ?_⟩
  · have hG := hhist e he
    rw [hop] at hG
    exact hG sessionId idemKey rfl
  · have hp := hthreads hat
    cases p with
    | ret a => cases hout; exact hp
    | raise e => cases hout; exact hp
    | op o k => cases hout

/-- A request for a transfer. -/
def routedTransfer : AgentRequest := { balanceRequest with message := "create transfer" }

/-- The model wants to submit a transfer, and the policy wants a human to look at it. -/
def escalating : Op → Env
  | .authorize operation => .decision (requireApprovalPolicy operation)
  | o => answering (.ai "" [⟨"call-1", "submit_transfer", .obj []⟩]) .pending o

/-- The graph waits for a human, and the human is told that there is no session. -/
def waitsInVain {M : Machine Op Op.Res Exn Response Request Env Db} (c : M.Config) : Bool :=
  (c.hist.any fun e => match e.op with
    | .interrupt _ none => true
    | _ => false) &&
  match M.result? c 1 with
  | some (_, .error (.http status _)) => status = 500
  | _ => false

/-- The graph behind the transfer workflow suspends, and nobody can go on with it. -/
theorem suspended_out_of_reach :
    ∃ c : (registeredRuntime demoPy).server.Config,
      (registeredRuntime demoPy).server.Reach (.crashing fun _ => True) (Pool.init Db.empty) c ∧
      waitsInVain c = true ∧ c.shared.hitl = .empty := by
  have hrun : (((registeredRuntime demoPy).server.run? (.crashing fun _ => True)
      [.spawn (.agent routedTransfer), .steps 0 40 escalating,
        .spawn (.approve "run" "resumed"), .steps 1 5 (demoEnv demoSuccess)]
      (Pool.init Db.empty)).map waitsInVain).getD false = true := by decide +kernel
  obtain ⟨c, hreach, hc⟩ := Machine.exists_reach_of_run? hrun
  exact ⟨c, hreach, hc, (routed_never_recorded (registeredRuntime demoPy) rfl rfl hreach).1⟩

end BankingAgent
