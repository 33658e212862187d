import BankingAgent.Sql.Table
import BankingAgent.Json

/-!
# `hitl_store.py`: the sessions waiting for a human

One row per interrupted operation. A session is read as a whole and written by one
statement at a time: `UPDATE … WHERE session_id=? AND version=?`, which bumps the
version, and the expiry sweep, which does not.

The row and the session the program holds differ in one column: `tool_args` is
text in the database and a dictionary in the program.
-/

namespace BankingAgent

open Sql

/-- `HITLSessionStatus`. -/
inductive HITLSessionStatus : Type where
  | pending
  | approved
  | rejected
  | expired
  | resumed
  | failed
  | reconciliationRequired
  deriving DecidableEq, Repr

/-- `HITLSessionStatus.value`. -/
def HITLSessionStatus.value : HITLSessionStatus → String
  | pending => "PENDING"
  | approved => "APPROVED"
  | rejected => "REJECTED"
  | expired => "EXPIRED"
  | resumed => "RESUMED"
  | failed => "FAILED"
  | reconciliationRequired => "RECONCILIATION_REQUIRED"

/-- A session whose `tool_args` are held as `Args`. -/
structure HITLRecord (Args : Type) : Type where
  /-- the primary key -/
  sessionId : String
  userId : String
  threadId : String
  status : HITLSessionStatus
  toolName : String
  toolArgs : Args
  authorizationDecision : Option String
  approvalRequirement : Option String
  /-- `UNIQUE` where present -/
  idempotencyKey : Option String
  /-- the optimistic lock -/
  version : ℕ
  createdAt : String
  updatedAt : String
  expiresAt : Option String
  /-- empty in rows older than the column -/
  toolCallId : String

/-- `HITLSession`, as the program holds it. -/
abbrev HITLSession : Type := HITLRecord Json

/-- A row of `hitl_sessions`. -/
abbrev HITLRow : Type := HITLRecord String

/-- `HITLSession.is_terminal`. -/
def HITLSession.isTerminal (s : HITLSession) : Bool :=
  match s.status with
  | .approved | .rejected | .expired | .failed | .reconciliationRequired => true
  | .pending | .resumed => false

/-- `session.idempotency_key or session_id`: the key the executor works under. -/
def HITLRecord.idemKey {Args : Type} (s : HITLRecord Args) : String :=
  match s.idempotencyKey with
  | some key => if key = "" then s.sessionId else key
  | none => s.sessionId

/-- `session.idempotency_key or ""`: the key the grant is matched against. -/
def HITLRecord.grantKey {Args : Type} (s : HITLRecord Args) : String :=
  s.idempotencyKey.getD ""

/-- A session as the tuple `SqliteHITLStore.insert` binds. -/
def HITLSession.toRow (py : PyLib) (s : HITLSession) : HITLRow :=
  { s with toolArgs := py.dumps s.toolArgs }

/-- `_row_to_hitl_session`; `none` if the text of the arguments is not JSON. -/
def HITLRow.toSession (py : PyLib) (row : HITLRow) : Option HITLSession :=
  (py.loads row.toolArgs).map fun args => { row with toolArgs := args }

/-- The primary key of a row. -/
abbrev HITLRow.key (row : HITLRow) : String := row.sessionId

/-- The table `hitl_sessions`. -/
abbrev HITLTable : Type := Table HITLRow.key

/-- The `SET` and `WHERE` of `update_status`. -/
def HITLRow.updateStatus (status : HITLSessionStatus) (now : String) (expectedVersion : ℕ) :
    Change HITLRow.key where
  guard row := row.version = expectedVersion
  set row := { row with status := status, updatedAt := now, version := row.version + 1 }
  keeps _ := rfl

/-- The `SET` and `WHERE` of `expire_stale_sessions`. -/
def HITLRow.expireStale (now : String) : Change HITLRow.key where
  guard row := row.status = .pending && match row.expiresAt with
    | some t => t < now
    | none => false
  set row := { row with status := .expired, updatedAt := now }
  keeps _ := rfl

/-- The statements `SqliteHITLStore` executes. -/
inductive HITLOp : Type where
  /-- `INSERT INTO hitl_sessions` -/
  | insert (row : HITLRow)
  /-- `SELECT * … WHERE session_id=?` -/
  | select (sessionId : String)
  /-- `UPDATE … WHERE session_id=? AND version=?` -/
  | updateStatus (sessionId : String) (status : HITLSessionStatus) (now : String)
      (expectedVersion : ℕ)
  /-- `UPDATE … WHERE status='PENDING' AND expires_at < ?` -/
  | expireStale (now : String)

/-- What a statement answers: for the writes, whether (or how many) rows changed. -/
abbrev HITLOp.Res : HITLOp → Type
  | insert _ => Bool
  | select _ => Option HITLRow
  | updateStatus _ _ _ _ => Bool
  | expireStale _ => ℕ

/-- The `UNIQUE` column besides the key: two stored keys clash, two `NULL`s do not. -/
def HITLRow.clash (row other : HITLRow) : Bool :=
  row.idempotencyKey.isSome && row.idempotencyKey = other.idempotencyKey

/-- Execute and commit one statement. -/
def HITLOp.exec : (o : HITLOp) → HITLTable → o.Res × HITLTable
  | insert row, t => t.insert (HITLRow.clash row) row
  | select sessionId, t => (t.get sessionId, t)
  | updateStatus sessionId status now v, t =>
    t.update sessionId (HITLRow.updateStatus status now v)
  | expireStale now, t => t.updateAll (HITLRow.expireStale now)

/-! ## What a statement can do to a session -/

@[simp] theorem HITLOp.exec_select (sessionId : String) (t : HITLTable) :
    (HITLOp.select sessionId).exec t = (t.get sessionId, t) := rfl

/-- `update_status` succeeds exactly on a row of the expected version. -/
theorem HITLOp.updateStatus_hit_iff {sid : String} {status : HITLSessionStatus} {now : String}
    {v : ℕ} {t : HITLTable} :
    ((HITLOp.updateStatus sid status now v).exec t).1 = true ↔
      ∃ row, t.get sid = some row ∧ row.version = v := by
  refine Table.update_hit_iff.trans (exists_congr fun row => and_congr_right fun _ => ?_)
  exact decide_eq_true_iff

/-- A successful `update_status` sets the status and bumps the version. -/
theorem HITLOp.get_updateStatus_of_hit {sid : String} {status : HITLSessionStatus} {now : String}
    {v : ℕ} {t : HITLTable} (h : ((HITLOp.updateStatus sid status now v).exec t).1 = true) :
    ∃ row, t.get sid = some row ∧ row.version = v ∧
      ((HITLOp.updateStatus sid status now v).exec t).2.get sid =
        some { row with status := status, updatedAt := now, version := v + 1 } := by
  obtain ⟨row, hrow, hguard, hget⟩ := Table.get_update_of_hit h
  obtain rfl : row.version = v := by simpa [HITLRow.updateStatus] using hguard
  exact ⟨row, hrow, rfl, hget⟩

/-- The sweep turns a pending session with a deadline into an expired one of the
same version, and leaves every other session alone. -/
theorem HITLOp.get_expireStale {sid : String} (now : String) {t : HITLTable} {row : HITLRow}
    (h : t.get sid = some row) :
    ((HITLOp.expireStale now).exec t).2.get sid = some row ∨
      row.status = .pending ∧ row.expiresAt.isSome ∧
        ((HITLOp.expireStale now).exec t).2.get sid =
          some { row with status := .expired, updatedAt := now } := by
  have hget : ((HITLOp.expireStale now).exec t).2.get sid =
      some ((HITLRow.expireStale now).apply row) := by
    rw [HITLOp.exec, Table.get_updateAll, h, Option.map_some]
  rw [hget]
  by_cases hg : (HITLRow.expireStale now).guard row = true
  · right
    rw [Change.apply, if_pos hg]
    obtain ⟨hp, he⟩ := (Bool.and_eq_true _ _).mp hg
    refine ⟨of_decide_eq_true hp, ?_, rfl⟩
    cases hexp : row.expiresAt with
    | none => rw [hexp] at he; cases he
    | some _ => rfl
  · left
    rw [Change.apply, if_neg hg]

/-- The operation a session is about: the columns no statement assigns. -/
structure HITLRecord.SameOperation {Args : Type} (s s' : HITLRecord Args) : Prop where
  user : s.userId = s'.userId
  thread : s.threadId = s'.threadId
  call : s.toolCallId = s'.toolCallId
  tool : s.toolName = s'.toolName
  args : s.toolArgs = s'.toolArgs
  key : s.idempotencyKey = s'.idempotencyKey
  deadline : s.expiresAt = s'.expiresAt

theorem HITLRecord.SameOperation.refl {Args : Type} (s : HITLRecord Args) : s.SameOperation s :=
  ⟨rfl, rfl, rfl, rfl, rfl, rfl, rfl⟩

/-- Rows for the same operation are read back as sessions for the same operation. -/
theorem HITLRow.toSession_sameOperation {py : PyLib} {row row' : HITLRow} {s s' : HITLSession}
    (h : HITLRecord.SameOperation row row') (hs : row.toSession py = some s)
    (hs' : row'.toSession py = some s') : s.SameOperation s' := by
  obtain ⟨args, hargs, rfl⟩ := Option.map_eq_some_iff.mp hs
  obtain ⟨args', hargs', rfl⟩ := Option.map_eq_some_iff.mp hs'
  rw [h.args, hargs'] at hargs
  exact ⟨h.user, h.thread, h.call, h.tool, (Option.some.inj hargs).symm, h.key,
    h.deadline⟩

/-- No statement changes the operation of a session, and none removes it. -/
theorem HITLOp.sameOperation {sid : String} {o : HITLOp} {t : HITLTable} {row row₀ : HITLRow}
    (hrow : t.get sid = some row) (h : HITLRecord.SameOperation row₀ row) :
    ∃ row', (o.exec t).2.get sid = some row' ∧ HITLRecord.SameOperation row₀ row' := by
  cases o with
  | select => exact ⟨row, hrow, h⟩
  | insert new => exact ⟨row, Table.get_insert_of_some hrow, h⟩
  | updateStatus sid' status now v =>
    refine ⟨_, Table.get_update_of_some hrow, ?_⟩
    split
    · rw [Change.apply]
      split
      · exact ⟨h.user, h.thread, h.call, h.tool, h.args, h.key, h.deadline⟩
      · exact h
    · exact h
  | expireStale now =>
    rcases HITLOp.get_expireStale now hrow with hget | ⟨-, -, hget⟩
    · exact ⟨row, hget, h⟩
    · exact ⟨_, hget, h.user, h.thread, h.call, h.tool, h.args, h.key, h.deadline⟩

end BankingAgent
