import BankingAgent.Async.Sequential
import BankingAgent.Recording
import BankingAgent.ApprovalExecutor

/-!
# Callers nobody vouches for

`approve` resolves the actor after it has looked at the deadline of the session and at its
tool call id, and both looks may write: an expired session is marked as such, and a session
without a tool call id is handed over to reconciliation, whoever asks. `reject` resolves the
actor before it writes anything.
-/

namespace BankingAgent

open Async

variable {py : PyLib} {db db' : Db} {sessionId : String} {context : Option Json}
  {es : List (Event Op Op.Res)} {out : Except Exn ApprovalResult}

/-- The resolver vouches for nobody. -/
def Untrusted (es : List (Event Op Op.Res)) : Prop :=
  ∀ context actor, ⟨.resolveActor context, some actor⟩ ∉ es

/-- Nothing is changed, and no tool is called. -/
def NothingHappens (db db' : Db) (es : List (Event Op Op.Res)) : Prop :=
  db' = db ∧ ∀ site call answer, ⟨.callTool site call, answer⟩ ∉ es

/-- The first look at the clock. -/
def firstReading : List (Event Op Op.Res) → Option Instant
  | [] => none
  | ⟨.now, t⟩ :: _ => some t
  | _ :: es => firstReading es

/-- `is_expired` at the time; `none` if the deadline is unreadable. -/
def HITLSession.expiredAt (py : PyLib) (session : HITLSession) (t : Instant) : Option Bool :=
  match session.expiresAt with
  | none => some false
  | some text =>
    if text = "" then some false
    else (py.fromisoformat text).map fun deadline => decide (deadline < t)

/-- `approve` writes before it asks who is there: the session is undecided, and it has
expired, or has no tool call id. -/
def WritesFirst (py : PyLib) (sessionId : String) (db : Db) (es : List (Event Op Op.Res)) :
    Prop :=
  ∃ row session t, db.hitl.get sessionId = some row ∧ row.toSession py = some session ∧
    session.isTerminal = false ∧ firstReading es = some t ∧
    (session.expiredAt py t = some true ∨
      session.expiredAt py t = some false ∧ session.toolCallId = "")

/-! ## What is written first -/

/-- A status update of the version that is there changes the session. -/
theorem updateStatus_changes (status : HITLSessionStatus) (now : String) {row : HITLRow}
    {t : HITLTable} (h : t.get sessionId = some row) :
    (((HITLOp.updateStatus sessionId status now row.version).exec t).2.get sessionId).map
      HITLRecord.version = some (row.version + 1) := by
  have hit : ((HITLOp.updateStatus sessionId status now row.version).exec t).1 = true :=
    HITLOp.updateStatus_hit_iff.mpr ⟨row, h, rfl⟩
  obtain ⟨_, -, -, hget⟩ := HITLOp.get_updateStatus_of_hit hit
  rw [hget]
  rfl

/-- `update_status` and what comes after it. -/
theorem runs_updateStatus {α : Type} {f : Bool → Co α} {status : HITLSessionStatus} {v : ℕ}
    {out : Except Exn α}
    (h : Runs exec ((SqliteHITLStore.updateStatus py sessionId status v).bind f) db es out db') :
    ∃ t es' hit, es = ⟨.now, t⟩ :: es' ∧
      Runs exec (f hit)
        { db with hitl := ((HITLOp.updateStatus sessionId status (py.isoformat t) v).exec db.hitl).2 }
        es'.tail out db' := by
  obtain ⟨env, t, db₁, es₁, he₁, rfl, h₁⟩ := h.of_op
  obtain ⟨env₂, hit, db₂, es₂, he₂, rfl, h₂⟩ := Runs.of_op h₁
  obtain rfl : db₁ = db := by cases env <;> cases he₁; rfl
  obtain ⟨rfl, rfl⟩ := exec_hitl he₂
  exact ⟨t, _, _, rfl, h₂⟩

/-- `is_expired` and what comes after it: an error, or an answer for the time of the first
look at the clock. -/
theorem runs_isExpired {α : Type} {f : Bool → Co α} {session : HITLSession} {out : Except Exn α}
    (h : Runs exec ((session.isExpired py).bind f) db es out db') :
    (∃ t, es = [⟨.now, t⟩] ∧ session.expiredAt py t = none ∧ db' = db) ∨
      (∃ t es' expired, es = ⟨.now, t⟩ :: es' ∧ session.expiredAt py t = some expired ∧
        Runs exec (f expired) db es' out db') ∨
      (∀ t, session.expiredAt py t = some false) ∧ Runs exec (f false) db es out db' := by
  cases hdeadline : session.expiresAt with
  | none =>
    simp only [HITLSession.isExpired, hdeadline] at h
    exact .inr (.inr ⟨fun t => by simp [HITLSession.expiredAt, hdeadline], h⟩)
  | some text =>
    by_cases htext : text = ""
    · simp only [HITLSession.isExpired, hdeadline, htext, if_true] at h
      exact .inr (.inr ⟨fun t => by simp [HITLSession.expiredAt, hdeadline, htext], h⟩)
    · simp only [HITLSession.isExpired, hdeadline, htext, if_false] at h
      obtain ⟨env, t, db₁, es₁, he, rfl, h₁⟩ := h.of_op
      obtain rfl : db₁ = db := by cases env <;> cases he; rfl
      cases hparse : py.fromisoformat text with
      | none =>
        simp only [Prog.ret_bind, hparse] at h₁
        obtain ⟨rfl, -, rfl⟩ := Runs.of_raise h₁
        exact .inl ⟨t, rfl, by simp [HITLSession.expiredAt, hdeadline, htext, hparse], rfl⟩
      | some deadline =>
        simp only [Prog.ret_bind, hparse] at h₁
        exact .inr (.inl ⟨t, es₁, _, rfl,
          by simp [HITLSession.expiredAt, hdeadline, htext, hparse], h₁⟩)

/-- Reading a session, and what comes after it. -/
theorem runs_get {α : Type} {f : Option HITLSession → Co α} {out : Except Exn α}
    (h : Runs exec ((SqliteHITLStore.get py sessionId).bind f) db es out db') :
    ∃ es', es = ⟨.hitl (.select sessionId), db.hitl.get sessionId⟩ :: es' ∧
      (db.hitl.get sessionId = none ∧ Runs exec (f none) db es' out db' ∨
        ∃ row, db.hitl.get sessionId = some row ∧
          (row.toSession py = none ∧ es' = [] ∧ db' = db ∨
            ∃ session, row.toSession py = some session ∧
              Runs exec (f (some session)) db es' out db')) := by
  obtain ⟨env, r, db₁, es₁, he, rfl, h₁⟩ := h.of_op
  obtain ⟨rfl, rfl⟩ := exec_hitl he
  refine ⟨es₁, rfl, ?_⟩
  rw [HITLOp.exec_select] at h₁
  cases hrow : db.hitl.get sessionId with
  | none =>
    simp only [hrow] at h₁
    exact .inl ⟨rfl, h₁⟩
  | some row =>
    simp only [hrow, Prog.ret_bind] at h₁
    refine .inr ⟨row, rfl, ?_⟩
    cases hsession : row.toSession py with
    | none =>
      simp only [hsession] at h₁
      obtain ⟨rfl, -, rfl⟩ := Runs.of_raise h₁
      exact .inl ⟨rfl, rfl, rfl⟩
    | some session =>
      simp only [hsession] at h₁
      exact .inr ⟨session, rfl, h₁⟩

/-- The session is looked at, but not written to. -/
def Op.SparesSessions : Op → Prop
  | hitl _ => False
  | _ => True

theorem exec_sparesSessions {o : Op} {env : Env} {r : o.Res} (ho : o.SparesSessions)
    (h : exec o env db = some (r, db')) : db'.hitl = db.hitl := by
  have := exec_hitlAfter h
  cases o <;> first | exact ho.elim | exact this

/-- After a status update of the version that is there the database is another one. -/
theorem changed_of_updateStatus {status : HITLSessionStatus} {now : String} {row : HITLRow}
    (hrow : db.hitl.get sessionId = some row)
    (h : db'.hitl = ((HITLOp.updateStatus sessionId status now row.version).exec db.hitl).2) :
    db' ≠ db := by
  rintro rfl
  have hversion := updateStatus_changes status now hrow
  rw [← h, hrow, Option.map_some, Option.some.injEq] at hversion
  omega

/-- A session without a tool call id is handed over. -/
theorem reconcile_changes {session : HITLSession} {row : HITLRow}
    (hrow : db.hitl.get sessionId = some row) (hversion : session.version = row.version)
    (h : Runs exec (HITLApprovalExecutor.reconcile py session sessionId) db es out db') :
    (∃ t es', es = ⟨.now, t⟩ :: es') ∧ db' ≠ db := by
  obtain ⟨t, es', hit, rfl, h₁⟩ := runs_updateStatus h
  have hhitl : db'.hitl = ((HITLOp.updateStatus sessionId .reconciliationRequired (py.isoformat t)
      row.version).exec db.hitl).2 := by
    rw [← hversion]
    exact h₁.keeps Db.hitl (fun ho he => exec_sparesSessions ho he)
      ⟨trivial, fun _ => ⟨trivial, fun _ => ⟨trivial, fun _ => trivial⟩⟩⟩
  exact ⟨⟨t, es', rfl⟩, changed_of_updateStatus hrow hhitl⟩

/-- A session is read back with the version of its row. -/
theorem version_of_toSession {row : HITLRow} {session : HITLSession}
    (h : row.toSession py = some session) : session.version = row.version := by
  obtain ⟨args, -, rfl⟩ := Option.map_eq_some_iff.mp h
  rfl

/-! ## The two decisions -/

/-- Where the resolver vouches for nobody, the decision ends. -/
theorem runs_unresolved {k : Option TrustedActor → Co ApprovalResult} {result : ApprovalResult}
    (h : Runs exec (perform (.resolveActor context) >>= k) db es out db')
    (hk : k none = .ret result) (huntrusted : Untrusted es) :
    es = [⟨.resolveActor context, none⟩] ∧ db' = db := by
  obtain ⟨env, actor?, db₁, es₁, he, rfl, h₁⟩ := h.of_op
  obtain rfl : db₁ = db := by cases env <;> cases he; rfl
  cases actor? with
  | none =>
    rw [Prog.ret_bind, hk] at h₁
    obtain ⟨rfl, -, rfl⟩ := Runs.of_ret h₁
    exact ⟨rfl, rfl⟩
  | some actor => exact absurd List.mem_cons_self (huntrusted context actor)

/-- An undecided session in time: it is handed over, or nothing happens. -/
theorem runs_undecided {session : HITLSession} {row : HITLRow}
    {k : Option TrustedActor → Co ApprovalResult} {result : ApprovalResult}
    (hrow : db.hitl.get sessionId = some row) (hversion : session.version = row.version)
    (h : Runs exec (if session.toolCallId = "" then
        HITLApprovalExecutor.reconcile py session sessionId
      else perform (.resolveActor context) >>= k) db es out db') (hk : k none = .ret result)
    (huntrusted : Untrusted es) :
    (session.toolCallId = "" ∧ (∃ t es', es = ⟨.now, t⟩ :: es') ∧ db' ≠ db) ∨
      (session.toolCallId ≠ "" ∧ es = [⟨.resolveActor context, none⟩] ∧ db' = db) := by
  by_cases hid : session.toolCallId = ""
  · rw [if_pos hid] at h
    exact .inl ⟨hid, reconcile_changes hrow hversion h⟩
  · rw [if_neg hid] at h
    exact .inr ⟨hid, runs_unresolved h hk huntrusted⟩

/-- What is written first is written to a session that is there. -/
theorem WritesFirst.session (h : WritesFirst py sessionId db es) :
    ∃ row session, db.hitl.get sessionId = some row ∧ row.toSession py = some session := by
  obtain ⟨row, session, t, hrow, hsession, -⟩ := h
  exact ⟨row, session, hrow, hsession⟩

/-- What `WritesFirst` says of the session that is there. -/
theorem writesFirst_iff {row : HITLRow} {session : HITLSession}
    (hrow : db.hitl.get sessionId = some row) (hsession : row.toSession py = some session)
    {es : List (Event Op Op.Res)} :
    WritesFirst py sessionId db es ↔
      session.isTerminal = false ∧ ∃ t, firstReading es = some t ∧
        (session.expiredAt py t = some true ∨
          session.expiredAt py t = some false ∧ session.toolCallId = "") := by
  constructor
  · rintro ⟨row', session', t, hrow', hsession', hopen, ht, hcase⟩
    obtain rfl := Option.some.inj (hrow.symm.trans hrow')
    obtain rfl := Option.some.inj (hsession.symm.trans hsession')
    exact ⟨hopen, t, ht, hcase⟩
  · rintro ⟨hopen, t, ht, hcase⟩
    exact ⟨row, session, t, hrow, hsession, hopen, ht, hcase⟩

/-- `approve` does nothing or writes first. -/
theorem approve_untrusted
    (h : Runs exec (HITLApprovalExecutor.approve py sessionId context) db es out db')
    (huntrusted : Untrusted es) :
    NothingHappens db db' es ∧ ¬ WritesFirst py sessionId db es ∨
      db' ≠ db ∧ WritesFirst py sessionId db es := by
  obtain ⟨es₁, rfl, ⟨hrow, h₁⟩ | ⟨row, hrow, ⟨hsession, rfl, rfl⟩ | ⟨session, hsession, h₁⟩⟩⟩ :=
    runs_get h
  · obtain ⟨rfl, -, rfl⟩ := Runs.of_ret h₁
    refine .inl ⟨⟨rfl, by simp⟩, fun hw => ?_⟩
    obtain ⟨row, session, hrow', -⟩ := hw.session
    simp [hrow] at hrow'
  · refine .inl ⟨⟨rfl, by simp⟩, fun hw => ?_⟩
    obtain ⟨row', session, hrow', hsession'⟩ := hw.session
    rw [← Option.some.inj (hrow.symm.trans hrow'), hsession] at hsession'
    cases hsession'
  have hwrites := @writesFirst_iff py db sessionId row session hrow hsession
  have hversion := version_of_toSession hsession
  cases hterminal : session.isTerminal with
  | true =>
    simp only [hterminal, if_true] at h₁
    obtain ⟨rfl, -, rfl⟩ := Runs.of_ret h₁
    refine .inl ⟨⟨rfl, by simp⟩, fun hw => ?_⟩
    have hopen := (hwrites.mp hw).1
    simp [hterminal] at hopen
  | false =>
    simp only [hterminal, Bool.false_eq_true, if_false] at h₁
    rcases runs_isExpired h₁ with
      ⟨t, rfl, hnone, rfl⟩ | ⟨t, es', expired, rfl, hexpired, h₂⟩ | ⟨hnever, h₂⟩
    · -- the deadline is unreadable
      refine .inl ⟨⟨rfl, by simp⟩, fun hw => ?_⟩
      obtain ⟨-, t', ht', hcase⟩ := hwrites.mp hw
      cases ht'
      simp [hnone] at hcase
    · cases expired with
      | true =>
        obtain ⟨t', es'', hit, rfl, h₃⟩ := runs_updateStatus h₂
        obtain ⟨-, -, rfl⟩ := Runs.of_ret h₃
        refine .inr ⟨changed_of_updateStatus hrow (by rw [← hversion]), ?_⟩
        exact hwrites.mpr ⟨hterminal, t, rfl, .inl hexpired⟩
      | false =>
        rcases runs_undecided hrow hversion h₂ rfl fun context actor hmem =>
            huntrusted context actor (List.mem_cons_of_mem _ (List.mem_cons_of_mem _ hmem)) with
          ⟨hid, -, hne⟩ | ⟨hid, rfl, rfl⟩
        · exact .inr ⟨hne, hwrites.mpr ⟨hterminal, t, rfl, .inr ⟨hexpired, hid⟩⟩⟩
        · refine .inl ⟨⟨rfl, by simp⟩, fun hw => ?_⟩
          obtain ⟨-, t', ht', hcase⟩ := hwrites.mp hw
          cases ht'
          simp [hexpired, hid] at hcase
    · rcases runs_undecided hrow hversion h₂ rfl fun context actor hmem =>
          huntrusted context actor (List.mem_cons_of_mem _ hmem) with
        ⟨hid, ⟨t, es', rfl⟩, hne⟩ | ⟨hid, rfl, rfl⟩
      · exact .inr ⟨hne, hwrites.mpr ⟨hterminal, t, rfl, .inr ⟨hnever t, hid⟩⟩⟩
      · refine .inl ⟨⟨rfl, by simp⟩, fun hw => ?_⟩
        obtain ⟨-, t', ht', -⟩ := hwrites.mp hw
        cases ht'

/-- **An untrusted caller** changes nothing with `approve` exactly if that does not write before
it asks who is there, and never with `reject`. -/
theorem untrusted_changes_nothing (huntrusted : Untrusted es) :
    (Runs exec (HITLApprovalExecutor.approve py sessionId context) db es out db' →
      (NothingHappens db db' es ↔ ¬ WritesFirst py sessionId db es)) ∧
    (Runs exec (HITLApprovalExecutor.reject py sessionId context) db es out db' →
      NothingHappens db db' es) := by
  constructor
  · intro h
    rcases approve_untrusted h huntrusted with ⟨hn, hw⟩ | ⟨hne, hw⟩
    · exact iff_of_true hn hw
    · exact iff_of_false (fun hn => hne hn.1) (fun h => h hw)
  · intro h
    obtain ⟨es₁, rfl, ⟨-, h₁⟩ | ⟨row, -, ⟨-, rfl, rfl⟩ | ⟨session, -, h₁⟩⟩⟩ := runs_get h
    · obtain ⟨rfl, -, rfl⟩ := Runs.of_ret h₁
      exact ⟨rfl, by simp⟩
    · exact ⟨rfl, by simp⟩
    · cases hterminal : session.isTerminal with
      | true =>
        simp only [hterminal, if_true] at h₁
        obtain ⟨rfl, -, rfl⟩ := Runs.of_ret h₁
        exact ⟨rfl, by simp⟩
      | false =>
        simp only [hterminal, Bool.false_eq_true, if_false] at h₁
        obtain ⟨rfl, rfl⟩ := runs_unresolved h₁ rfl fun context actor hmem =>
          huntrusted context actor (List.mem_cons_of_mem _ hmem)
        exact ⟨rfl, by simp⟩

/-- Nobody is known. -/
def unknownCaller : Op → Env
  | .resolveActor _ => .actor none
  | o => demoEnv demoSuccess o

/-- The resolver has vouched for nobody. -/
def untrusted (es : List (Event Op Op.Res)) : Bool :=
  es.all fun
    | ⟨.resolveActor _, actor⟩ => actor.isNone
    | _ => true

theorem untrusted_of_computed (h : untrusted es = true) : Untrusted es := by
  intro context actor hmem
  have := List.all_eq_true.mp h _ hmem
  cases this

/-- The status of the session the demo operation is about. -/
def Db.demoStatus (db : Db) : Option HITLSessionStatus :=
  (db.hitl.get "s").map HITLRecord.status

/-- A historical session: it has no tool call id. -/
def historicalDb : Db :=
  { Db.empty with
    hitl := (HITLOp.exec (.insert
      (({ demoOperation with toolCallId := "" }.session "t0").toRow demoPy)) .empty).2 }

/-- A computed decision of an unknown caller. -/
theorem exists_unknown (db : Db) (status : HITLSessionStatus)
    (h : ((runAlone exec unknownCaller 20 (HITLApprovalExecutor.approve demoPy "s" none) db).map
      fun x => untrusted x.1 && (x.2.2.demoStatus == some status)).getD false = true) :
    ∃ es out db', Runs exec (HITLApprovalExecutor.approve demoPy "s" none) db es out db' ∧
      Untrusted es ∧ db'.demoStatus = some status := by
  cases hrun : runAlone exec unknownCaller 20 (HITLApprovalExecutor.approve demoPy "s" none) db with
  | none => rw [hrun] at h; cases h
  | some x =>
    rw [hrun] at h
    obtain ⟨huntrusted, hstatus⟩ := (Bool.and_eq_true _ _).mp h
    exact ⟨x.1, x.2.1, x.2.2, runs_of_runAlone hrun, untrusted_of_computed huntrusted,
      eq_of_beq hstatus⟩

/-- An unknown caller hands a historical session over to reconciliation. -/
theorem unknown_caller_reconciles :
    ∃ es out db', Runs exec (HITLApprovalExecutor.approve demoPy "s" none) historicalDb es out db' ∧
      Untrusted es ∧ ¬ NothingHappens historicalDb db' es := by
  obtain ⟨es, out, db', hruns, huntrusted, hstatus⟩ :=
    exists_unknown historicalDb .reconciliationRequired rfl
  refine ⟨es, out, db', hruns, huntrusted, ?_⟩
  rintro ⟨rfl, -⟩
  cases hstatus

/-- With a session that waits for a decision an unknown caller can do nothing. -/
theorem unknown_caller_refused :
    ∃ es out db', Runs exec (HITLApprovalExecutor.approve demoPy "s" none) demoDb es out db' ∧
      NothingHappens demoDb db' es := by
  obtain ⟨es, out, db', hruns, huntrusted, -⟩ :=
    exists_unknown demoDb .pending rfl
  refine ⟨es, out, db', hruns, ((untrusted_changes_nothing huntrusted).1 hruns).mpr ?_⟩
  rintro ⟨row, session, t, hrow, hsession, -, -, hcase⟩
  cases hrow
  cases hsession
  rcases hcase with hcase | ⟨-, hcase⟩
  · cases hcase
  · exact absurd hcase (by decide)

end BankingAgent
