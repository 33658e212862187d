import BankingAgent.Async.Outline
import BankingAgent.Async.Sequential
import BankingAgent.PendingApprovals
import BankingAgent.Server

/-!
# Deadlines of approvals

`SqliteHITLStore` is given the minutes an approval may wait, `is_expired` and the sweep test
the deadline of a session, and `atomic_consume` tests that of a grant. But the endpoint
stores both without a deadline, so that all these tests pass at any time: what can be
dispatched at all can be dispatched too late.
-/

namespace BankingAgent

open Async

/-- Minutes, in the unit of the clock. -/
def minutesOf (n : ℕ) : Instant := n * 60000000

/-- The executor claims the grant of the session when the clock is past the limit, and calls
the tool. -/
def LateDispatch (py : PyLib) (sid : String) (limit : Instant) (es : List (Event Op Op.Res)) :
    Prop :=
  ∃ before t params after key call answer,
    es = before ++ ⟨.now, t⟩ ::
      ⟨.grant (.update (.consume sid params (py.isoformat t))), true⟩ :: after ∧
    ⟨.callTool (.executor sid key) call, answer⟩ ∈ after ∧ limit < t

/-- No request dispatches the operation of the session past the limit. -/
def NeverLate {rt : AgentRuntime} (sid : String) (limit : Instant) (c : rt.server.Config) :
    Prop :=
  ∀ i, ¬ LateDispatch rt.py sid limit (threadEvents i c.hist)

/-- The operation, recorded at the time, is not dispatched when the minutes are over, whatever
is stored besides and whatever the requests do. -/
def Expires (rt : AgentRuntime) (p : PendingOperation) (t₀ : Instant) (expiryMinutes : ℕ) :
    Prop :=
  ∀ db db₁ es (c : rt.server.Config),
    Runs exec (p.record rt.py) db (⟨.now, t₀⟩ :: es) (.ok ()) db₁ →
      rt.server.Reach (.crashing fun _ => True) (Pool.init db₁) c →
        NeverLate p.sessionId (t₀ + minutesOf expiryMinutes) c

/-! ## What can be dispatched can be dispatched late -/

section Statements

variable {α : Type} {Q : List (Event Op Op.Res) → Prop} {db : Db}

theorem begins_hitl {o : HITLOp} {k : o.Res → Co α} {r : o.Res} (hr : (o.exec db.hitl).1 = r)
    (h : Begins exec (fun es => Q (⟨.hitl o, r⟩ :: es)) (k r)
      { db with hitl := (o.exec db.hitl).2 }) : Begins exec Q (.op (.hitl o) k) db :=
  .op Env.silent (congrArg some (Prod.ext hr rfl)) h

theorem begins_grant {o : GrantOp} {k : o.Res → Co α} {r : o.Res} (hr : (o.exec db.grants).1 = r)
    (h : Begins exec (fun es => Q (⟨.grant o, r⟩ :: es)) (k r)
      { db with grants := (o.exec db.grants).2 }) : Begins exec Q (.op (.grant o) k) db :=
  .op Env.silent (congrArg some (Prod.ext hr rfl)) h

theorem begins_idem {o : IdempotencyOp} {k : o.Res → Co α} {r : o.Res}
    (hr : (o.exec db.idem).1 = r)
    (h : Begins exec (fun es => Q (⟨.idem o, r⟩ :: es)) (k r)
      { db with idem := (o.exec db.idem).2 }) : Begins exec Q (.op (.idem o) k) db :=
  .op Env.silent (congrArg some (Prod.ext hr rfl)) h

theorem begins_now {k : Instant → Co α} (t : Instant)
    (h : Begins exec (fun es => Q (⟨.now, t⟩ :: es)) (k t) db) : Begins exec Q (.op .now k) db :=
  .op (Env.instant t) rfl h

theorem begins_event {e : AgentEvent} {k : Bool → Co α}
    (h : ∀ r events, Begins exec (fun es => Q (⟨.event e, r⟩ :: es)) (k r)
      { db with events := events }) : Begins exec Q (.op (.event e) k) db :=
  .op Env.silent rfl (h _ _)

end Statements

section Late

variable {py : PyLib} {p : PendingOperation} {db : Db} {now₁ now₂ : String}
  {fields : List (String × Json)}

/-- The session as it is stored can be read back. -/
theorem PendingOperation.toSession_session (hargs : p.toolArgs = .obj fields)
    (htrip : py.RoundTrips (.obj fields)) :
    ((p.session now₁).toRow py).toSession py = some (p.session now₁) := by
  simp only [HITLRow.toSession, HITLSession.toRow, PendingOperation.session, hargs]
  rw [htrip]
  rfl

/-- The reservation of a free key, read back. -/
theorem reserved_record {t : IdempotencyTable} {key : String} (toolName now : String)
    (htrip : py.RoundTrips (.obj fields)) (hfree : t.get key = none) :
    let reserved := (IdempotencyOp.reserve key toolName
      (py.dumps (SqliteIdempotencyStore.argsOrEmpty (some (.obj fields)))) now).exec t
    reserved.1 = true ∧ ∃ row record, reserved.2.get key = some row ∧
      row.toRecord py = some record := by
  have hargs : SqliteIdempotencyStore.argsOrEmpty (some (.obj fields)) = .obj fields := by
    cases fields <;> rfl
  rw [hargs]
  intro reserved
  have haccepted : reserved.1 = true := Sql.Table.insert_accepted
    (fun row hrow hkey => Sql.Table.get_eq_none_iff.mp hfree
      (List.mem_map.mpr ⟨row, hrow, hkey⟩)) fun _ _ => rfl
  have hget := ((Sql.Table.get_insert_of_accepted haccepted).2 key).trans (if_pos rfl)
  have hrecord : ∃ record, (IdempotencyRow.reserved key toolName (py.dumps (.obj fields)) now).toRecord
      py = some record := by
    unfold IdempotencyRow.toRecord IdempotencyRow.reserved
    by_cases htext : py.dumps (.obj fields) = ""
    · simp [htext]
    · rw [PyLib.RoundTrips] at htrip
      simp [htext, htrip]
  obtain ⟨record, hrecord⟩ := hrecord
  exact ⟨haccepted, _, record, hget, hrecord⟩

/-- The grant of the operation, approved, passes the comparison of `atomic_consume` at any
time. -/
theorem PendingOperation.consume_guard (actorId now : String) :
    (GrantRecord.consume ((p.session now₁).consumeParams py p.sessionId actorId) now).guard
      ((GrantRecord.approvePending actorId 1 now).set (p.grant py now₂)) = true := by
  simp [GrantRecord.consume, HITLSession.consumeParams, PendingOperation.session,
    PendingOperation.grant, GrantRecord.approvePending, matchesOrOpen, HITLRecord.grantKey]

/-- A claimed grant under whose key nothing is known is dispatched. -/
theorem checkAndDispatch_begins {Q : List (Event Op Op.Res) → Prop} {s : HITLSession} {sid : String}
    {claimed : GrantRecord} (args : Json) (hargs : s.toolArgs = .obj fields)
    (htrip : py.RoundTrips (.obj fields)) (hloads : py.loads claimed.canonicalToolArgs = some args)
    (hfree : db.idem.get s.idemKey = none)
    (hQ : ∀ es call answer, Q (es ++ [⟨.callTool (.executor sid s.idemKey) call, answer⟩])) :
    Begins exec Q (HITLApprovalExecutor.checkAndDispatch py s sid claimed) db := by
  refine begins_event fun _ _ => begins_idem (r := none) hfree ?_
  obtain ⟨hreserved, row, record, hrow, hrecord⟩ :=
    reserved_record s.toolName (py.isoformat 0) htrip hfree
  rw [← hargs] at hreserved hrow
  refine begins_now 0 (begins_idem hreserved (begins_idem (r := some row) hrow ?_))
  simp only [Prog.ret_bind, hrecord]
  change Begins exec _ ((decoded (py.loads claimed.canonicalToolArgs)).bind _) _
  rw [hloads]
  refine begins_event fun _ _ => ?_
  refine .op (Env.mcp (.client (.ok ⟨.str "", true, "", none⟩))) rfl (.done ?_)
  exact hQ [_, _, _, _, _, _] _ _

/-- **Late**: whatever the clock says, `approve` dispatches an operation that waits. -/
theorem approve_dispatches_late (hargs : p.toolArgs = .obj fields)
    (htrip : py.RoundTrips (.obj fields)) (hsorted : py.RoundTrips (Json.obj fields).sortKeys)
    (hid : p.toolCallId ≠ "")
    (hrow : db.hitl.get p.sessionId = some ((p.session now₁).toRow py))
    (hgrant : db.grants.get p.sessionId = some (p.grant py now₂))
    (hfree : db.idem.get (p.session now₁).idemKey = none) {limit t : Instant} (hlate : limit < t) :
    Begins exec (LateDispatch py p.sessionId limit)
      (HITLApprovalExecutor.approve py p.sessionId none) db := by
  -- the session is read
  refine begins_hitl (r := some ((p.session now₁).toRow py)) hrow ?_
  simp only [Prog.ret_bind, PendingOperation.toSession_session hargs htrip]
  change Begins exec _ (if p.toolCallId = "" then _ else _) db
  rw [if_neg hid]
  refine .op (Env.actor (some ⟨"operator", "test"⟩)) rfl (begins_now t ?_)
  -- the operator approves the grant and the session
  have happroved : ((GrantOp.update (.approvePending p.sessionId "operator" 1
      (py.isoformat t))).exec db.grants).1 = true :=
    GrantRecord.approvePending_hit_iff.mpr ⟨_, hgrant, rfl, rfl⟩
  obtain ⟨g, hg, -, hgrant₁, -⟩ := GrantUpdate.get_of_hit happroved
  obtain rfl := Option.some.inj (hgrant.symm.trans hg)
  refine begins_grant happroved (begins_now t (begins_hitl (r := true) ?_ ?_))
  · exact HITLOp.updateStatus_hit_iff.mpr ⟨_, hrow, rfl⟩
  refine begins_event fun _ _ => begins_now t ?_
  -- and claims the grant, which has no deadline
  have hclaimed : ((GrantOp.update (.consume p.sessionId
      ((p.session now₁).consumeParams py p.sessionId "operator") (py.isoformat t))).exec
        ((GrantOp.update (.approvePending p.sessionId "operator" 1 (py.isoformat t))).exec
          db.grants).2).1 = true :=
    Sql.Table.update_hit_iff.mpr ⟨_, hgrant₁, PendingOperation.consume_guard _ _⟩
  obtain ⟨g, hg₁, -, hgrant₂, -⟩ := GrantUpdate.get_of_hit hclaimed
  obtain rfl := Option.some.inj (hgrant₁.symm.trans hg₁)
  have hread : ((GrantOp.selectConsuming p.sessionId).exec
      ((GrantOp.update (.consume p.sessionId
        ((p.session now₁).consumeParams py p.sessionId "operator") (py.isoformat t))).exec
          ((GrantOp.update (.approvePending p.sessionId "operator" 1 (py.isoformat t))).exec
            db.grants).2).2).1 = some _ :=
    Option.filter_eq_some_iff.mpr ⟨hgrant₂, rfl⟩
  refine begins_grant hclaimed (begins_grant hread ?_)
  refine checkAndDispatch_begins ((Json.obj fields).sortKeys) hargs htrip ?_ hfree ?_
  · change py.loads (py.dumpsSorted p.toolArgs) = _
    rw [hargs]
    exact hsorted
  · intro es call answer
    exact ⟨[_, _, _, _, _, _, _], t, _, _, _, _, _, rfl,
      List.mem_cons_of_mem _ (List.mem_append_right _ (List.mem_singleton_self _)), hlate⟩

/-- Into an empty database every operation can be recorded, at any time. -/
theorem record_runs (py : PyLib) (p : PendingOperation) (t₀ : Instant) : ∃ es db₁,
    Runs exec (p.record py) Db.empty (⟨.now, t₀⟩ :: es) (.ok ()) db₁ ∧
      db₁.hitl.get p.sessionId = some ((p.session (py.isoformat t₀)).toRow py) ∧
      db₁.grants.get p.sessionId = some (p.grant py (py.isoformat t₀)) ∧
      ∀ key, db₁.idem.get key = none := by
  have hsession : ((HITLOp.insert ((p.session (py.isoformat t₀)).toRow py)).exec
      Db.empty.hitl).1 = true :=
    Sql.Table.insert_accepted (fun _ h => absurd h List.not_mem_nil)
      fun _ h => absurd h List.not_mem_nil
  have hgrant : ((GrantOp.insertPending (p.grant py (py.isoformat t₀))).exec
      Db.empty.grants).1 = true := by
    rw [GrantOp.exec, if_pos (by rfl)]
    exact Sql.Table.insert_accepted (fun _ h => absurd h List.not_mem_nil)
      fun _ h => absurd h List.not_mem_nil
  refine ⟨[⟨.hitl (.insert ((p.session (py.isoformat t₀)).toRow py)), true⟩,
    ⟨.grant (.insertPending (p.grant py (py.isoformat t₀))), true⟩],
    { Db.empty with
      hitl := ((HITLOp.insert ((p.session (py.isoformat t₀)).toRow py)).exec .empty).2
      grants := ((GrantOp.insertPending (p.grant py (py.isoformat t₀))).exec .empty).2 },
    ?_, ?_, ?_, ?_⟩
  · refine .op (show exec .now (.instant t₀) _ = _ from rfl) ?_
    refine .op (show exec _ .silent _ = _ from congrArg some (Prod.ext hsession rfl)) ?_
    refine .op (show exec _ .silent _ = _ from congrArg some (Prod.ext hgrant rfl)) ?_
    exact .ret _ _
  · exact ((Sql.Table.get_insert_of_accepted hsession).2 _).trans (if_pos rfl)
  · exact ((GrantOp.get_insertPending_of_accepted hgrant).2 _).trans (if_pos rfl)
  · exact fun _ => rfl

/-- The approval of the operation alone is a run of the server. -/
theorem exists_late_run (rt : AgentRuntime) (hargs : p.toolArgs = .obj fields)
    (htrip : rt.py.RoundTrips (.obj fields)) (hsorted : rt.py.RoundTrips (Json.obj fields).sortKeys)
    (hid : p.toolCallId ≠ "")
    (hrow : db.hitl.get p.sessionId = some ((p.session now₁).toRow rt.py))
    (hgrant : db.grants.get p.sessionId = some (p.grant rt.py now₂))
    (hfree : ∀ key, db.idem.get key = none) (limit : Instant) :
    ∃ c : rt.server.Config, rt.server.Reach (.crashing fun _ => True) (Pool.init db) c ∧
      ¬ NeverLate p.sessionId limit c := by
  have hbegins : Begins exec (LateDispatch rt.py p.sessionId limit)
      (rt.serve (.approve p.sessionId "run")) db :=
    ((approve_dispatches_late hargs htrip hsorted hid hrow hgrant (hfree _)
      (Nat.lt_succ_self limit)).seq _).seq _
  obtain ⟨c, es, hreach, hes, hlate⟩ := hbegins.reach (M := rt.server)
    (D := .crashing fun _ => True) (c := (Pool.init db).spawn (.approve p.sessionId "run") _)
    (fun _ _ _ => trivial) (Pool.at_spawn.mpr (.inr ⟨rfl, rfl, rfl⟩)) rfl
  refine ⟨c, .head (.spawn _ trivial (fun h => h.elim)) hreach,
    fun hnever => hnever (Pool.init db : rt.server.Config).threads.length ?_⟩
  rw [hes]
  exact hlate

end Late

/-! ## What cannot be dispatched -/

/-- The positions between the approval of the grant and the call of the tool. -/
def Pos.UnderApproval : Pos → Prop
  | granted _ _ => True
  | approved _ _ => True
  | consuming _ => True
  | claimed _ _ => True
  | looked _ _ _ => True
  | reserving _ _ _ => True
  | reserved _ _ _ => True
  | _ => False

/-- What an approval knows of a session without a tool call id. -/
def Pos.KnowsHistorical (sid : String) (req : Request) (p : Pos) : Prop :=
  ∀ ctx, req.decision? = some (.approve sid ctx) →
    ¬ p.UnderApproval ∧ ∀ s, p = .loaded s → s.toolCallId = ""

/-- The stored session has no tool call id. -/
def StoredHistorical (sid : String) (db : Db) : Prop :=
  ∃ row, db.hitl.get sid = some row ∧ row.toolCallId = ""

theorem StoredHistorical.exec {sid : String} {o : Op} {env : Env} {r : o.Res} {db db' : Db}
    (h : StoredHistorical sid db) (he : exec o env db = some (r, db')) :
    StoredHistorical sid db' := by
  obtain ⟨row, hrow, hid⟩ := h
  rw [StoredHistorical, exec_hitlAfter he]
  cases o with
  | hitl o =>
    obtain ⟨row', hrow', hsame⟩ := HITLOp.sameOperation (o := o) hrow (.refl row)
    exact ⟨row', hrow', hsame.call.symm.trans hid⟩
  | _ => exact ⟨row, hrow, hid⟩

/-- Such a session is handed over, not approved. -/
theorem ServerMove.knowsHistorical {py : PyLib} {sid : String} {req : Request} {p q : Pos} {o : Op}
    {r : o.Res} {env : Env} {db db' : Db} (move : ServerMove py req p o r q)
    (he : exec o env db = some (r, db')) (hdb : StoredHistorical sid db)
    (hp : p.KnowsHistorical sid req) :
    q.KnowsHistorical sid req ∧ ∀ key call, o ≠ .callTool (.executor sid key) call := by
  cases move with
  | agent r byAgent => exact ⟨hp, by rintro key call rfl; exact byAgent sid key rfl⟩
  | decide dec move =>
    cases move with
    | idle r quiet => exact ⟨hp, by rintro key call rfl; exact quiet.elim⟩
    | load dec' row_eq live =>
      refine ⟨fun ctx hdec => ⟨id, ?_⟩, nofun⟩
      rintro s ⟨⟩
      rw [dec] at hdec
      cases hdec
      obtain ⟨row, hrow, hid⟩ := hdb
      obtain ⟨hr, -⟩ := exec_hitl he
      obtain rfl : sid = _ := dec'
      obtain rfl := Option.some.inj (hrow.symm.trans hr.symm)
      obtain ⟨args, -, rfl⟩ := Option.map_eq_some_iff.mp row_eq
      exact hid
    | grant actorId now known =>
      refine ⟨fun ctx hdec => ?_, nofun⟩
      rw [dec] at hdec
      cases hdec
      exact absurd ((hp _ dec).2 _ rfl) known
    | dispatch answer hargs =>
      refine ⟨fun ctx hdec => ⟨id, by rintro s ⟨⟩⟩, ?_⟩
      rintro key call ⟨⟩
      exact (hp _ dec).1 trivial
    | approve => exact ⟨fun ctx hdec => absurd trivial (hp _ hdec).1, nofun⟩
    | consume => exact ⟨fun ctx hdec => absurd trivial (hp _ hdec).1, nofun⟩
    | claim => exact ⟨fun ctx hdec => absurd trivial (hp _ hdec).1, nofun⟩
    | lookupNone => exact ⟨fun ctx hdec => absurd trivial (hp _ hdec).1, nofun⟩
    | lookupFailed => exact ⟨fun ctx hdec => absurd trivial (hp _ hdec).1, nofun⟩
    | reserve => exact ⟨fun ctx hdec => absurd trivial (hp _ hdec).1, nofun⟩
    | reread => exact ⟨fun ctx hdec => absurd trivial (hp _ hdec).1, nofun⟩
    | _ => exact ⟨fun ctx hdec => ⟨id, by rintro s ⟨⟩⟩, by rintro key call ⟨⟩⟩

/-- No tool is called for the session. -/
def historicalOutline (rt : AgentRuntime) (sid : String) :
    rt.server.Outline (.crashing fun _ => True) (ServerMove rt.py) (fun _ => .start) where
  inv db h := StoredHistorical sid db ∧
    ∀ e ∈ h, ∀ key call, e.op ≠ .callTool (.executor sid key) call
  asserts _ _ _ req p := p.KnowsHistorical sid req
  owns _ _ := False
  entry _ _ _ := ⟨fun _ _ => ⟨id, by rintro s ⟨⟩⟩, id⟩
  step hinv hp move he _ := by
    obtain ⟨hdb, hhist⟩ := hinv
    obtain ⟨hq, hnew⟩ := move.knowsHistorical he hdb hp
    exact ⟨⟨hdb.exec he, List.forall_mem_cons.mpr ⟨hnew, hhist⟩⟩, hq⟩
  free _ _ hp _ _ _ _ _ := hp
  excl _ _ _ _ _ ho _ := ho.elim

/-- An operation without a tool call id is never dispatched, late or not. -/
theorem historical_never_late {rt : AgentRuntime} {sid : String} {db : Db} {c : rt.server.Config}
    (hdb : StoredHistorical sid db) (limit : Instant)
    (run : rt.server.Reach (.crashing fun _ => True) (Pool.init db) c) : NeverLate sid limit c := by
  obtain ⟨-, hhist⟩ := (historicalOutline rt sid).sound_inv (fun req _ => serve_follows rt req)
    ⟨hdb, fun _ he => absurd he List.not_mem_nil⟩ run
  rintro i ⟨before, t, params, after, key, call, answer, hes, hcall, -⟩
  have hmem : (⟨.callTool (.executor sid key) call, answer⟩ : Event Op Op.Res) ∈
      threadEvents i c.hist := by
    rw [hes]
    exact List.mem_append_right _ (List.mem_cons_of_mem _ (List.mem_cons_of_mem _ hcall))
  obtain ⟨e, he, heq⟩ := List.mem_map.mp (List.mem_reverse.mp hmem)
  exact hhist e (List.mem_filter.mp he).1 key call (congrArg Event.op heq)

/-- **Approvals do not expire**: an operation the endpoint records is kept from being dispatched
late exactly if it is kept from being dispatched at all, having no tool call id. -/
theorem expires_iff {rt : AgentRuntime} {p : PendingOperation} {fields : List (String × Json)}
    (hargs : p.toolArgs = .obj fields) (htrip : rt.py.RoundTrips (.obj fields))
    (hsorted : rt.py.RoundTrips (Json.obj fields).sortKeys) (t₀ : Instant) (expiryMinutes : ℕ) :
    Expires rt p t₀ expiryMinutes ↔ p.toolCallId = "" := by
  constructor
  · intro hexpires
    by_contra hid
    obtain ⟨es, db₁, hruns, hrow, hgrant, hfree⟩ := record_runs rt.py p t₀
    obtain ⟨c, hreach, hlate⟩ := exists_late_run rt hargs htrip hsorted hid hrow hgrant hfree
      (t₀ + minutesOf expiryMinutes)
    exact hlate (hexpires _ _ _ c hruns hreach)
  · intro hid db db₁ es c hruns hreach
    obtain ⟨envs, hsolo⟩ := hruns.solo
    obtain ⟨now, hrow⟩ := (PendingOperation.record_recorded rt.py hsolo).session
    exact historical_never_late ⟨_, hrow, hid⟩ _ hreach

/-- A recorded transfer may be dispatched when its half hour is over. -/
theorem demo_transfer_never_expires : ¬ Expires demoRuntime demoOperation 0 30 := fun h =>
  absurd ((expires_iff rfl demoPy_roundTrips demoPy_roundTrips_sorted 0 30).mp h) (by decide)

/-- It is recorded, and approved after more than half an hour. -/
theorem demo_transfer_dispatched_late :
    ∃ es db₁, ∃ c : demoRuntime.server.Config,
      Runs exec (demoOperation.record demoPy) Db.empty (⟨.now, 0⟩ :: es) (.ok ()) db₁ ∧
        demoRuntime.server.Reach (.crashing fun _ => True) (Pool.init db₁) c ∧
          ¬ NeverLate "s" (minutesOf 30) c := by
  obtain ⟨es, db₁, hruns, hrow, hgrant, hfree⟩ := record_runs demoPy demoOperation 0
  obtain ⟨c, hreach, hlate⟩ := exists_late_run demoRuntime rfl demoPy_roundTrips
    demoPy_roundTrips_sorted (by decide) hrow hgrant hfree (minutesOf 30)
  exact ⟨es, db₁, c, hruns, hreach, hlate⟩

end BankingAgent
