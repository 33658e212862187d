import BankingAgent.Sql.Table
import BankingAgent.Json

/-!
# `grant_repo.py`: the approved-operation grants

One row per interrupted operation, next to its session. A grant is single use:
its status moves along

    PENDING → APPROVED → CONSUMING → CONSUMED | FAILED | UNKNOWN

with `PENDING | APPROVED → REJECTED` and `PENDING → RECONCILIATION_REQUIRED` as the
other ways out. Every move is one conditional `UPDATE`; none of them touches the
columns that say which operation was approved.
-/

namespace BankingAgent

open Sql

/-- The values the `CHECK` constraint on `status` admits. -/
inductive GrantStatus : Type where
  | pending
  | approved
  | consuming
  | consumed
  | rejected
  | expired
  | failed
  | unknown
  | reconciliationRequired
  deriving DecidableEq, Repr

/-- `GrantRecord`, also the row of `approved_operation_grants`. -/
structure GrantRecord : Type where
  /-- the primary key -/
  sessionId : String
  requestingUserId : String
  approvingActorId : String
  threadId : String
  runId : Option String
  checkpointId : Option String
  toolCallId : String
  toolName : String
  /-- the arguments as sorted JSON text -/
  canonicalToolArgs : String
  /-- the hash of that text -/
  argumentDigest : String
  /-- `UNIQUE` -/
  idempotencyKey : String
  decision : String
  status : GrantStatus
  createdAt : String
  approvedAt : Option String
  expiresAt : Option String
  consumingAt : Option String
  consumedAt : Option String
  failedAt : Option String
  version : ℕ

/-- The table `approved_operation_grants`. -/
abbrev GrantTable : Type := Table GrantRecord.sessionId

/-- What the `UPDATE` of `atomic_consume` compares the grant with. -/
structure ConsumeParams : Type where
  userId : String
  approvingActorId : String
  threadId : String
  runId : String
  checkpointId : String
  toolCallId : String
  toolName : String
  digest : String
  idempotencyKey : String
  version : ℕ

/-- `column=? OR column IS NULL OR ?=''`. -/
def matchesOrOpen (column : Option String) (value : String) : Bool :=
  column = some value || column = none || value = ""

/-- The `SET` and `WHERE` of `atomic_consume`. -/
def GrantRecord.consume (p : ConsumeParams) (now : String) : Change GrantRecord.sessionId where
  guard g :=
    g.status = .approved && g.version = p.version &&
    g.requestingUserId = p.userId && g.threadId = p.threadId &&
    (g.approvingActorId = p.approvingActorId || g.approvingActorId = "" ||
      p.approvingActorId = "") &&
    matchesOrOpen g.runId p.runId && matchesOrOpen g.checkpointId p.checkpointId &&
    g.toolCallId = p.toolCallId && g.toolName = p.toolName && g.argumentDigest = p.digest &&
    g.idempotencyKey = p.idempotencyKey &&
    match g.expiresAt with
    | none => true
    | some t => now < t
  set g := { g with status := .consuming, consumingAt := some now }
  keeps _ := rfl

/-- The `SET` and `WHERE` of `approve_pending`. -/
def GrantRecord.approvePending (actorId : String) (expectedVersion : ℕ) (now : String) :
    Change GrantRecord.sessionId where
  guard g := g.status = .pending && g.version = expectedVersion
  set g := { g with status := .approved, approvingActorId := actorId, approvedAt := some now }
  keeps _ := rfl

/-- The five `mark_*` methods of `GrantRepository`. -/
inductive GrantMark : Type where
  | consumed
  | failed
  | rejected
  | reconciliationRequired
  | unknown
  deriving DecidableEq, Repr

/-- The status a mark writes. -/
def GrantMark.target : GrantMark → GrantStatus
  | consumed => .consumed
  | failed => .failed
  | rejected => .rejected
  | reconciliationRequired => .reconciliationRequired
  | unknown => .unknown

/-- The statuses a mark applies to. -/
def GrantMark.appliesTo : GrantMark → GrantStatus → Bool
  | consumed, s => s = .consuming
  | failed, s => s = .consuming
  | rejected, s => s = .pending || s = .approved
  | reconciliationRequired, s => s = .pending
  | unknown, s => s = .consuming

/-- The `SET` and `WHERE` of a mark: `mark_consumed` stamps `consumed_at`, the
others stamp `failed_at`. -/
def GrantMark.change (m : GrantMark) (now : String) : Change GrantRecord.sessionId where
  guard g := m.appliesTo g.status
  set g :=
    match m with
    | .consumed => { g with status := m.target, consumedAt := some now }
    | _ => { g with status := m.target, failedAt := some now }
  keeps g := by cases m <;> rfl

/-- The conditional `UPDATE`s of `GrantRepository`. -/
inductive GrantUpdate : Type where
  /-- the `UPDATE` of `atomic_consume` -/
  | consume (sessionId : String) (params : ConsumeParams) (now : String)
  /-- the `UPDATE` of `approve_pending` -/
  | approvePending (sessionId actorId : String) (expectedVersion : ℕ) (now : String)
  /-- the `UPDATE` of a `mark_*` method -/
  | mark (m : GrantMark) (sessionId now : String)

/-- The `session_id` of the `WHERE` clause. -/
def GrantUpdate.sessionId : GrantUpdate → String
  | consume sid _ _ => sid
  | approvePending sid _ _ _ => sid
  | mark _ sid _ => sid

/-- The rest of the statement. -/
def GrantUpdate.change : GrantUpdate → Change GrantRecord.sessionId
  | consume _ p now => GrantRecord.consume p now
  | approvePending _ actorId v now => GrantRecord.approvePending actorId v now
  | mark m _ now => m.change now

/-- The statements `GrantRepository` executes. -/
inductive GrantOp : Type where
  /-- `INSERT INTO approved_operation_grants` -/
  | insertPending (grant : GrantRecord)
  /-- `SELECT * … WHERE session_id=? AND status='CONSUMING'` -/
  | selectConsuming (sessionId : String)
  /-- `SELECT * … WHERE session_id=?` -/
  | select (sessionId : String)
  /-- `UPDATE approved_operation_grants` -/
  | update (u : GrantUpdate)

/-- What a statement answers: for the writes, whether a row changed. -/
abbrev GrantOp.Res : GrantOp → Type
  | insertPending _ => Bool
  | selectConsuming _ => Option GrantRecord
  | select _ => Option GrantRecord
  | update _ => Bool

/-- `insert_pending` writes `'PENDING'` and version 1 whatever the record says, and
leaves the stamps `NULL`. -/
def GrantRecord.pendingRow (g : GrantRecord) : GrantRecord :=
  { g with
    status := .pending, version := 1, approvedAt := none, consumingAt := none,
    consumedAt := none, failedAt := none }

/-- The `UNIQUE` column besides the key. -/
def GrantRecord.clash (g other : GrantRecord) : Bool := g.idempotencyKey = other.idempotencyKey

/-- The `CHECK` constraint on `decision`. -/
def GrantRecord.decisionCheck (g : GrantRecord) : Bool :=
  ["PENDING", "approved", "rejected"].contains g.decision

/-- Execute and commit one statement. -/
def GrantOp.exec : (o : GrantOp) → GrantTable → o.Res × GrantTable
  | insertPending g, t =>
    if g.decisionCheck then t.insert g.clash g.pendingRow else (false, t)
  | selectConsuming sid, t => ((t.get sid).filter fun g => g.status = .consuming, t)
  | select sid, t => (t.get sid, t)
  | update u, t => t.update u.sessionId u.change

/-! ## What a statement can do to a grant -/

/-- An insert leaves the stored grants alone. -/
theorem GrantOp.get_insertPending_of_some {sid : String} {t : GrantTable} {g new : GrantRecord}
    (h : t.get sid = some g) : ((GrantOp.insertPending new).exec t).2.get sid = some g := by
  rw [GrantOp.exec]
  split
  · exact Table.get_insert_of_some h
  · exact h

/-- An insert that succeeds found the session without a grant and adds the row. -/
theorem GrantOp.get_insertPending_of_accepted {t : GrantTable} {new : GrantRecord}
    (h : ((GrantOp.insertPending new).exec t).1 = true) :
    t.get new.sessionId = none ∧ ∀ sid, ((GrantOp.insertPending new).exec t).2.get sid =
      if sid = new.sessionId then some new.pendingRow else t.get sid := by
  rw [GrantOp.exec] at h ⊢
  split at h
  · rename_i hcheck
    rw [if_pos hcheck]
    exact Table.get_insert_of_accepted h
  · cases h

/-- The operation a grant was given for: the columns no `UPDATE` assigns. -/
structure GrantRecord.SameOperation (g g' : GrantRecord) : Prop where
  user : g.requestingUserId = g'.requestingUserId
  thread : g.threadId = g'.threadId
  call : g.toolCallId = g'.toolCallId
  tool : g.toolName = g'.toolName
  args : g.canonicalToolArgs = g'.canonicalToolArgs
  digest : g.argumentDigest = g'.argumentDigest
  key : g.idempotencyKey = g'.idempotencyKey
  run : g.runId = g'.runId
  checkpoint : g.checkpointId = g'.checkpointId
  deadline : g.expiresAt = g'.expiresAt
  version : g.version = g'.version

theorem GrantRecord.SameOperation.refl (g : GrantRecord) : g.SameOperation g :=
  ⟨rfl, rfl, rfl, rfl, rfl, rfl, rfl, rfl, rfl, rfl, rfl⟩

theorem GrantRecord.SameOperation.trans {g g' g'' : GrantRecord} (h : g.SameOperation g')
    (h' : g'.SameOperation g'') : g.SameOperation g'' :=
  ⟨h.user.trans h'.user, h.thread.trans h'.thread, h.call.trans h'.call, h.tool.trans h'.tool,
    h.args.trans h'.args, h.digest.trans h'.digest, h.key.trans h'.key, h.run.trans h'.run,
    h.checkpoint.trans h'.checkpoint, h.deadline.trans h'.deadline, h.version.trans h'.version⟩

/-- The statuses an `UPDATE` moves a grant from and to. -/
inductive GrantMove : GrantUpdate → GrantStatus → GrantStatus → Prop
  | consume (sid : String) (p : ConsumeParams) (now : String) :
      GrantMove (.consume sid p now) .approved .consuming
  | approvePending (sid actorId : String) (v : ℕ) (now : String) :
      GrantMove (.approvePending sid actorId v now) .pending .approved
  | mark {m : GrantMark} {s : GrantStatus} (sid now : String) (h : m.appliesTo s = true) :
      GrantMove (.mark m sid now) s m.target

/-- Nothing leads on from where a mark leads. -/
theorem GrantMark.target_final (m : GrantMark) (u : GrantUpdate) (st : GrantStatus) :
    ¬ GrantMove u m.target st := by
  intro hm
  generalize hs : m.target = s at hm
  cases hm with
  | @mark m' _ _ _ h => cases m <;> cases m' <;> subst hs <;> cases h
  | _ => cases m <;> cases hs

theorem GrantUpdate.move {u : GrantUpdate} {g : GrantRecord} (h : u.change.guard g = true) :
    GrantMove u g.status (u.change.set g).status := by
  cases u with
  | consume sid p now =>
    have hs : g.status = .approved := by
      simp only [GrantUpdate.change, GrantRecord.consume, Bool.and_eq_true, decide_eq_true_eq,
        and_assoc] at h
      exact h.1
    rw [hs]
    exact .consume sid p now
  | approvePending sid actorId v now =>
    have hs : g.status = .pending := of_decide_eq_true ((Bool.and_eq_true _ _).mp h).1
    rw [hs]
    exact .approvePending sid actorId v now
  | mark m sid now =>
    have ht : (m.change now |>.set g).status = m.target := by cases m <;> rfl
    rw [GrantUpdate.change, ht]
    exact .mark sid now h

theorem GrantUpdate.sameOperation (u : GrantUpdate) (g : GrantRecord) :
    g.SameOperation (u.change.set g) := by
  cases u with
  | consume => exact ⟨rfl, rfl, rfl, rfl, rfl, rfl, rfl, rfl, rfl, rfl, rfl⟩
  | approvePending => exact ⟨rfl, rfl, rfl, rfl, rfl, rfl, rfl, rfl, rfl, rfl, rfl⟩
  | mark m => cases m <;> exact ⟨rfl, rfl, rfl, rfl, rfl, rfl, rfl, rfl, rfl, rfl, rfl⟩

/-- An `UPDATE` that touches a row moves one grant, as the table above says, and
keeps the operation it was given for. -/
theorem GrantUpdate.get_of_hit {u : GrantUpdate} {t : GrantTable}
    (h : (t.update u.sessionId u.change).1 = true) :
    ∃ g, t.get u.sessionId = some g ∧ u.change.guard g = true ∧
      (t.update u.sessionId u.change).2.get u.sessionId = some (u.change.set g) ∧
      GrantMove u g.status (u.change.set g).status := by
  obtain ⟨g, hg, hguard, hget⟩ := Table.get_update_of_hit h
  exact ⟨g, hg, hguard, hget, u.move hguard⟩

/-- No statement changes the operation of a grant, and none removes it. -/
theorem GrantOp.sameOperation {sid : String} {o : GrantOp} {t : GrantTable} {g g₀ : GrantRecord}
    (hg : t.get sid = some g) (h : g₀.SameOperation g) :
    ∃ g', (o.exec t).2.get sid = some g' ∧ g₀.SameOperation g' := by
  cases o with
  | selectConsuming => exact ⟨g, hg, h⟩
  | select => exact ⟨g, hg, h⟩
  | insertPending new => exact ⟨g, GrantOp.get_insertPending_of_some hg, h⟩
  | update u =>
    refine ⟨_, Table.get_update_of_some hg, ?_⟩
    split
    · rw [Change.apply]
      split
      · exact h.trans (u.sameOperation g)
      · exact h
    · exact h

/-- The status of the grant of a session. -/
def GrantTable.status? (t : GrantTable) (sid : String) : Option GrantStatus :=
  (t.get sid).map (·.status)

/-- A statement leaves a grant alone, or is an update that applies to it. -/
theorem GrantOp.get_exec {sid : String} {o : GrantOp} {t : GrantTable} {g : GrantRecord}
    (h : t.get sid = some g) :
    (o.exec t).2.get sid = some g ∨
      ∃ u, o = .update u ∧ u.sessionId = sid ∧ u.change.guard g = true ∧
        (o.exec t).2.get sid = some (u.change.set g) := by
  cases o with
  | selectConsuming => exact .inl h
  | select => exact .inl h
  | insertPending new => exact .inl (GrantOp.get_insertPending_of_some h)
  | update u =>
    rw [GrantOp.exec, Table.get_update_of_some h]
    by_cases hsid : sid = u.sessionId
    · rw [if_pos hsid, Change.apply]
      by_cases hguard : u.change.guard g = true
      · rw [if_pos hguard]
        exact .inr ⟨u, rfl, hsid.symm, hguard, rfl⟩
      · rw [if_neg hguard]
        exact .inl rfl
    · rw [if_neg hsid]
      exact .inl rfl

/-- A statement leaves the status of a grant alone, or moves it as the table above says. -/
theorem GrantOp.status?_exec {sid : String} {o : GrantOp} {t : GrantTable} {st : GrantStatus}
    (h : t.status? sid = some st) :
    GrantTable.status? (o.exec t).2 sid = some st ∨
      ∃ u st', o = .update u ∧ u.sessionId = sid ∧ GrantMove u st st' ∧
        GrantTable.status? (o.exec t).2 sid = some st' := by
  obtain ⟨g, hg, rfl⟩ := Option.map_eq_some_iff.mp h
  rcases GrantOp.get_exec (o := o) hg with hget | ⟨u, ho, hsid, hguard, hget⟩
  · left
    rw [GrantTable.status?, hget]
    rfl
  · right
    refine ⟨u, _, ho, hsid, u.move hguard, ?_⟩
    rw [GrantTable.status?, hget]
    rfl

/-- A mark touches the grant exactly if it applies to the grant's status. -/
theorem GrantMark.hit_iff {m : GrantMark} {sid now : String} {t : GrantTable} :
    (t.update sid (m.change now)).1 = true ↔
      ∃ g, t.get sid = some g ∧ m.appliesTo g.status = true :=
  Table.update_hit_iff

/-- A mark on a grant it applies to. -/
theorem GrantMark.status?_mark {m : GrantMark} {sid now : String} {t : GrantTable}
    {st : GrantStatus} (h : t.status? sid = some st) (hm : m.appliesTo st = true) :
    GrantTable.status? ((GrantOp.update (.mark m sid now)).exec t).2 sid = some m.target := by
  obtain ⟨g, hg, rfl⟩ := Option.map_eq_some_iff.mp h
  obtain ⟨g', hg', -, hget⟩ := Table.get_update_of_hit (GrantMark.hit_iff.mpr ⟨g, hg, hm⟩)
  rw [GrantTable.status?, GrantOp.exec, GrantUpdate.sessionId, GrantUpdate.change, hget,
    Option.map_some]
  cases m <;> rfl

/-- `approve_pending` touches the grant exactly if it is pending at that version. -/
theorem GrantRecord.approvePending_hit_iff {sid actorId now : String} {v : ℕ} {t : GrantTable} :
    (t.update sid (GrantRecord.approvePending actorId v now)).1 = true ↔
      ∃ g, t.get sid = some g ∧ g.status = .pending ∧ g.version = v := by
  refine Table.update_hit_iff.trans (exists_congr fun g => and_congr_right fun _ => ?_)
  simp [GrantRecord.approvePending]

/-- What `atomic_consume` has compared when it claims a grant. -/
theorem GrantRecord.consume_guard {p : ConsumeParams} {now : String} {g : GrantRecord}
    (h : (GrantRecord.consume p now).guard g = true) :
    g.requestingUserId = p.userId ∧ g.threadId = p.threadId ∧ g.toolCallId = p.toolCallId ∧
      g.toolName = p.toolName ∧ g.argumentDigest = p.digest ∧
      g.idempotencyKey = p.idempotencyKey := by
  simp only [GrantRecord.consume, Bool.and_eq_true, decide_eq_true_eq] at h
  obtain ⟨⟨⟨⟨⟨⟨⟨⟨⟨⟨⟨_, _⟩, hu⟩, ht⟩, _⟩, _⟩, _⟩, hc⟩, hn⟩, hd⟩, hk⟩, _⟩ := h
  exact ⟨hu, ht, hc, hn, hd, hk⟩

end BankingAgent
