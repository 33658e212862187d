import BankingAgent.Recording

/-!
# The version of a session

`SqliteHITLStore` as a service of its own. `update_status` compares versions and bumps
the version, so an update that succeeds is the only one to succeed at its version. But
the sweep changes the status and leaves the version alone: a caller that read `PENDING`
before the sweep still finds its version afterwards.

Between two moments at which a session has the same version, the sweep is all that can
have happened to it. So the lock holds in every run in which no update overrides a
sweep that its caller could not see.
-/

namespace BankingAgent

open Async

/-! ## What can happen to a row -/

/-- What may have happened to a session between two moments: the version has grown, or
at most the sweep has passed. -/
structure HITLRow.Later (row row' : HITLRow) : Prop where
  version : row.version ≤ row'.version
  same : row'.version = row.version →
    row' = row ∨ row.status = .pending ∧ row'.status = .expired

theorem HITLRow.Later.refl (row : HITLRow) : row.Later row := ⟨Nat.le_refl _, fun _ => .inl rfl⟩

theorem HITLRow.Later.trans {row row' row'' : HITLRow} (h : row.Later row')
    (h' : row'.Later row'') : row.Later row'' := by
  refine ⟨Nat.le_trans h.version h'.version, fun heq => ?_⟩
  have hv' : row''.version = row'.version :=
    Nat.le_antisymm (heq ▸ h.version) h'.version
  have hv : row'.version = row.version := hv'.symm.trans heq
  rcases h.same hv with rfl | ⟨hp, he⟩
  · exact h'.same hv'
  · rcases h'.same hv' with rfl | ⟨hp', -⟩
    · exact .inr ⟨hp, he⟩
    · -- a session is swept once: it is no longer pending afterwards
      rw [he] at hp'
      cases hp'

/-- **One statement**: no session is removed, and each is what it was, or later. -/
theorem HITLOp.later {sid : String} (o : HITLOp) {t : HITLTable} {row : HITLRow}
    (h : t.get sid = some row) : ∃ row', (o.exec t).2.get sid = some row' ∧ row.Later row' := by
  cases o with
  | select => exact ⟨row, h, .refl row⟩
  | insert new => exact ⟨row, Sql.Table.get_insert_of_some h, .refl row⟩
  | expireStale now =>
    rcases HITLOp.get_expireStale now h with hget | ⟨hp, -, hget⟩
    · exact ⟨row, hget, .refl row⟩
    · exact ⟨_, hget, Nat.le_refl _, fun _ => .inr ⟨hp, rfl⟩⟩
  | updateStatus sid' status now v =>
    refine ⟨_, Sql.Table.get_update_of_some h, ?_⟩
    split
    · rw [Sql.Change.apply]
      split
      · exact ⟨Nat.le_succ _, fun heq => absurd heq (Nat.succ_ne_self _)⟩
      · exact .refl row
    · exact .refl row

/-! ## The store as a service -/

/-- A call of a method of `SqliteHITLStore`. -/
inductive HITLCall : Type where
  | insert (session : HITLSession)
  | get (sessionId : String)
  | updateStatus (sessionId : String) (status : HITLSessionStatus) (expectedVersion : ℕ)
  | expireStaleSessions

/-- What such a call returns. -/
inductive HITLReply : Type where
  | done
  | found (session : Option HITLSession)
  | updated (success : Bool)
  | swept (count : ℕ)

/-- The coroutine a call runs. -/
def hitlCode (py : PyLib) : HITLCall → Co HITLReply
  | .insert session => (fun _ => .done) <$> SqliteHITLStore.insert py session
  | .get sid => .found <$> SqliteHITLStore.get py sid
  | .updateStatus sid status v => .updated <$> SqliteHITLStore.updateStatus py sid status v
  | .expireStaleSessions => .swept <$> SqliteHITLStore.expireStaleSessions py

/-- The store: every call against the one database. -/
def hitlStore (py : PyLib) : Machine Op Op.Res Exn HITLReply HITLCall Env Db := ⟨exec, hitlCode py⟩

/-- The entry is a read of the session, and the row it returned. -/
def readRow? (sid : String) (e : LogEntry HITLCall) : Option HITLRow :=
  match e with
  | ⟨_, _, .hitl (.select sid'), _, row⟩ => if sid' = sid then row else none
  | _ => none

/-- The entry is an `update_status` that succeeded: the status it wrote and the version
it expected. -/
def won? (sid : String) (e : LogEntry HITLCall) : Option (HITLSessionStatus × ℕ) :=
  match e with
  | ⟨_, _, .hitl (.updateStatus sid' status _ v), _, hit⟩ =>
    if sid' = sid ∧ hit = true then some (status, v) else none
  | _ => none

/-- The number of updates that have succeeded at a version. -/
def wins (sid : String) (v : ℕ) (h : List (LogEntry HITLCall)) : ℕ :=
  h.countP fun e => ((won? sid e).map Prod.snd) = some v

/-- Somebody has read the session at this version before it expired. -/
def readUnexpired (sid : String) (v : ℕ) (h : List (LogEntry HITLCall)) : Bool :=
  h.any fun e =>
    match readRow? sid e with
    | some row => row.version = v && row.status ≠ .expired
    | none => false

/-- The step updates a session that has expired at the expected version, although it
was read at that version before. -/
def overridesSweep (db : Db) (h : List (LogEntry HITLCall)) (e : LogEntry HITLCall) : Bool :=
  match e.op with
  | .hitl (.updateStatus sid _ _ v) =>
    match db.hitl.get sid with
    | some row => row.version = v && row.status = .expired && readUnexpired sid v h
    | none => false
  | _ => false

/-- Every run of the store. -/
def anyHitlRun : Discipline Db HITLCall (LogEntry HITLCall) := .crashing fun _ => True

/-- Every run of the store in which no update overrides a sweep. -/
def respectingSweeps : Discipline Db HITLCall (LogEntry HITLCall) :=
  { anyHitlRun with ok := fun db h e => overridesSweep db h e = false }

instance : DecidablePred anyHitlRun.start := fun _ => instDecidableTrue
instance : Decidable anyHitlRun.crash := instDecidableTrue
instance : Decidable anyHitlRun.sequential := instDecidableFalse
instance (db : Db) (h : List (LogEntry HITLCall)) (e : LogEntry HITLCall) :
    Decidable (anyHitlRun.ok db h e) := instDecidableTrue

instance : DecidablePred respectingSweeps.start := fun _ => instDecidableTrue
instance : Decidable respectingSweeps.crash := instDecidableTrue
instance : Decidable respectingSweeps.sequential := instDecidableFalse
instance (db : Db) (h : List (LogEntry HITLCall)) (e : LogEntry HITLCall) :
    Decidable (respectingSweeps.ok db h e) := inferInstanceAs (Decidable (overridesSweep db h e = false))

section Runs

variable {py : PyLib} {D : Discipline Db HITLCall (LogEntry HITLCall)} {sid : String}
  {c c' : (hitlStore py).Config}

/-- What one step of the store does to a session. -/
theorem HITLRow.later_of_step (h : (hitlStore py).Step D c c') {row : HITLRow}
    (hrow : c.shared.hitl.get sid = some row) :
    ∃ row', c'.shared.hitl.get sid = some row' ∧ row.Later row' := by
  cases h with
  | spawn => exact ⟨row, hrow, .refl row⟩
  | crash => exact ⟨row, hrow, .refl row⟩
  | @step i call o k env r db here hexec ok =>
    rw [Pool.advance_shared, exec_hitlAfter hexec]
    cases o with
    | hitl o => exact o.later hrow
    | _ => exact ⟨row, hrow, .refl row⟩

/-- What a run does to a session. -/
theorem HITLRow.later_of_reach (h : (hitlStore py).Reach D c c') {row : HITLRow}
    (hrow : c.shared.hitl.get sid = some row) :
    ∃ row', c'.shared.hitl.get sid = some row' ∧ row.Later row' := by
  induction h with
  | refl => exact ⟨row, hrow, .refl row⟩
  | tail _ hs ih =>
    obtain ⟨row₁, hrow₁, h₁⟩ := ih
    obtain ⟨row₂, hrow₂, h₂⟩ := HITLRow.later_of_step hs hrow₁
    exact ⟨row₂, hrow₂, h₁.trans h₂⟩

/-- History is only added to. -/
theorem hist_suffix_of_reach (h : (hitlStore py).Reach D c c') : c.hist <:+ c'.hist := by
  induction h with
  | refl => exact List.suffix_refl _
  | tail _ hs ih =>
    cases hs with
    | spawn => exact ih
    | crash => exact ih
    | step => exact ih.trans (List.suffix_cons _ _)

/-- A step that reads the session reads what is stored. -/
theorem row_of_read (h : (hitlStore py).Step D c c') {e : LogEntry HITLCall} {row : HITLRow}
    (he : c'.hist = e :: c.hist) (hread : readRow? sid e = some row) :
    c'.shared.hitl.get sid = some row := by
  cases h with
  | spawn => exact absurd he.symm (List.cons_ne_self _ _)
  | crash => exact absurd he.symm (List.cons_ne_self _ _)
  | @step i call o k env r db here hexec ok =>
    obtain rfl := (List.cons.inj he).1
    unfold readRow? at hread
    split at hread
    · rename_i hentry
      cases hentry
      obtain ⟨rfl, hrow⟩ := Option.ite_none_right_eq_some.mp hread
      obtain ⟨hr, rfl⟩ := exec_hitl hexec
      exact hr.symm.trans hrow
    · cases hread

/-- A step that updates the session finds it at the expected version and leaves it at
the next. The discipline has allowed it. -/
theorem row_of_won (h : (hitlStore py).Step D c c') {e : LogEntry HITLCall}
    {status : HITLSessionStatus} {v : ℕ} (he : c'.hist = e :: c.hist)
    (hwon : won? sid e = some (status, v)) :
    ∃ row row', c.shared.hitl.get sid = some row ∧ row.version = v ∧
      c'.shared.hitl.get sid = some row' ∧ row'.version = v + 1 ∧
      D.ok c.shared c.hist e ∧ ∃ now, e.op = .hitl (.updateStatus sid status now v) := by
  cases h with
  | spawn => exact absurd he.symm (List.cons_ne_self _ _)
  | crash => exact absurd he.symm (List.cons_ne_self _ _)
  | @step i call o k env r db here hexec ok =>
    obtain rfl := (List.cons.inj he).1
    unfold won? at hwon
    split at hwon
    · rename_i hentry
      cases hentry
      obtain ⟨⟨rfl, rfl⟩, hw⟩ := Option.ite_none_right_eq_some.mp hwon
      cases hw
      obtain ⟨hr, rfl⟩ := exec_hitl hexec
      obtain ⟨row, hrow, hv, hget⟩ := HITLOp.get_updateStatus_of_hit hr.symm
      exact ⟨row, _, hrow, hv, hget, rfl, ok, _, rfl⟩
    · cases hwon

/-- **One winner per version**, in every run. -/
theorem wins_le_one {db : Db} (run : (hitlStore py).Reach D (Pool.init db) c) (v : ℕ) :
    wins sid v c.hist ≤ 1 ∧ (wins sid v c.hist ≠ 0 →
      ∃ row, c.shared.hitl.get sid = some row ∧ v < row.version) := by
  induction run with
  | refl => exact ⟨Nat.zero_le 1, fun h => absurd rfl h⟩
  | @tail c c' _ hs ih =>
    have later (h : wins sid v c.hist ≠ 0) :
        ∃ row, c'.shared.hitl.get sid = some row ∧ v < row.version := by
      obtain ⟨row, hrow, hlt⟩ := ih.2 h
      obtain ⟨row', hrow', hl⟩ := HITLRow.later_of_step hs hrow
      exact ⟨row', hrow', Nat.lt_of_lt_of_le hlt hl.version⟩
    cases id hs with
    | spawn => exact ih
    | crash => exact ih
    | @step i call o k env r db here hexec ok =>
      by_cases hw : ((won? sid ⟨i, call, o, env, r⟩).map Prod.snd) = some v
      · -- this update wins: nobody has won at this version before, or it would be over
        obtain ⟨⟨status, v'⟩, hwon, hv'⟩ := Option.map_eq_some_iff.mp hw
        obtain rfl : v' = v := hv'
        obtain ⟨row, row', hrow, hv, hrow', hv', -⟩ := row_of_won hs rfl hwon
        have hzero : wins sid v' c.hist = 0 := by
          by_contra hne
          obtain ⟨row₁, hrow₁, hlt⟩ := ih.2 hne
          obtain rfl := Option.some.inj (hrow.symm.trans hrow₁)
          rw [hv] at hlt
          exact Nat.lt_irrefl _ hlt
        refine ⟨?_, fun _ => ⟨row', hrow', by rw [hv']; exact Nat.lt_succ_self v'⟩⟩
        rw [wins, Pool.advance_hist, List.countP_cons_of_pos (by simpa using hw)]
        exact Nat.succ_le_succ (Nat.le_of_eq hzero)
      · rw [wins, Pool.advance_hist, List.countP_cons_of_neg (by simpa using hw)]
        exact ⟨ih.1, later⟩

end Runs

/-! ## The lock -/

/-- The lock on a session, in the runs of `D`: an update that succeeds at the version
that was read finds the row as it was read, at the time and at every moment between;
no version is won twice; and a session that was read `PENDING` and is found `EXPIRED`
at that version is not approved at it afterwards. -/
def Locks (py : PyLib) (D : Discipline Db HITLCall (LogEntry HITLCall)) (db : Db)
    (sid : String) : Prop :=
  (∀ (c₀ c₁ c c₂ c₃ : (hitlStore py).Config) (e₁ e₃ : LogEntry HITLCall) (row : HITLRow)
      (status : HITLSessionStatus),
    (hitlStore py).Reach D (Pool.init db) c₀ →
    (hitlStore py).Step D c₀ c₁ → c₁.hist = e₁ :: c₀.hist → readRow? sid e₁ = some row →
    (hitlStore py).Reach D c₁ c → (hitlStore py).Reach D c c₂ →
    (hitlStore py).Step D c₂ c₃ → c₃.hist = e₃ :: c₂.hist →
    won? sid e₃ = some (status, row.version) →
    c.shared.hitl.get sid = some row ∧ ¬ (row.status = .pending ∧ status = .approved ∧
      ∃ row', c.shared.hitl.get sid = some row' ∧ row'.status = .expired)) ∧
  ∀ c, (hitlStore py).Reach D (Pool.init db) c → ∀ v, wins sid v c.hist ≤ 1

/-- **The version is a lock** on every session, from every database and in every
interleaving of the methods of the store, as long as no update overrides a sweep. -/
theorem update_status_locks (py : PyLib) (db : Db) (sid : String) :
    Locks py respectingSweeps db sid := by
  refine ⟨?_, fun c run v => (wins_le_one run v).1⟩
  intro c₀ c₁ c c₂ c₃ e₁ e₃ row status _ hread he₁ hrow hto hfrom hwrite he₃ hwon
  have hrow₁ := row_of_read hread he₁ hrow
  obtain ⟨row', hrow', hlater⟩ := HITLRow.later_of_reach hto hrow₁
  obtain ⟨row₂, hrow₂, hlater₂⟩ := HITLRow.later_of_reach hfrom hrow'
  obtain ⟨row₂', -, hrow₂', hv₂, -, -, hok, now, hop⟩ := row_of_won hwrite he₃ hwon
  obtain rfl := Option.some.inj (hrow₂.symm.trans hrow₂')
  have hv' : row'.version = row.version :=
    Nat.le_antisymm (hv₂ ▸ hlater₂.version) hlater.version
  have hsame : row' = row := by
    refine (hlater.same hv').resolve_right ?_
    rintro ⟨hpend, hexp⟩
    -- swept: the row is still `EXPIRED` when the update expects the version that was read
    have hexp₂ : row₂.status = .expired := by
      rcases hlater₂.same (hv₂.trans hv'.symm) with rfl | ⟨-, h⟩
      · exact hexp
      · exact h
    have hmem : e₁ ∈ c₂.hist := by
      refine (hist_suffix_of_reach (hto.trans hfrom)).subset ?_
      rw [he₁]
      exact List.mem_cons_self ..
    have hseen : readUnexpired sid row.version c₂.hist = true :=
      List.any_eq_true.mpr ⟨e₁, hmem, by simp [hrow, hpend]⟩
    have hno : overridesSweep c₂.shared c₂.hist e₃ = false := hok
    simp [overridesSweep, hop, hrow₂, hv₂, hexp₂, hseen] at hno
  subst hsame
  refine ⟨hrow', ?_⟩
  rintro ⟨hpend, -, row₁, hrow₁, hexp⟩
  obtain rfl := Option.some.inj (hrow'.symm.trans hrow₁)
  rw [hpend] at hexp
  cases hexp

/-- A pending session whose deadline has passed. -/
def overdueSession : HITLSession :=
  { demoOperation.session "t0" with expiresAt := some "2025-12-31" }

/-- The database with that session. -/
def overdueDb : Db :=
  { Db.empty with hitl := (HITLOp.exec (.insert (overdueSession.toRow demoPy)) .empty).2 }

/-- Read the session, sweep, and approve it at the version that was read. -/
def approveAfterSweep : List (Machine.Act HITLCall Op Env) :=
  let go := demoEnv demoSuccess
  [.spawn (.get "s"), .steps 0 1 go, .spawn .expireStaleSessions, .steps 1 2 go,
    .spawn (.updateStatus "s" .approved 1), .steps 2 1 go, .steps 2 1 go]

/-- The store after so many lines of that schedule. -/
def afterLines (n : ℕ) : (hitlStore demoPy).Config :=
  ((hitlStore demoPy).run? anyHitlRun (approveAfterSweep.take n) (Pool.init overdueDb)).getD
    (Pool.init overdueDb)

/-- The swept session is approved at the version that was read before the sweep. -/
theorem sweep_overridden : ¬ Locks demoPy anyHitlRun overdueDb "s" := by
  intro hlocks
  have start : (hitlStore demoPy).Reach anyHitlRun (Pool.init overdueDb) (afterLines 1) :=
    Machine.reach_of_run? (approveAfterSweep.take 1) rfl
  have read : (hitlStore demoPy).Step anyHitlRun (afterLines 1) (afterLines 2) :=
    Machine.step_of_steps? 0 (demoEnv demoSuccess) rfl (List.cons_ne_self _ _)
  have sweep : (hitlStore demoPy).Reach anyHitlRun (afterLines 2) (afterLines 4) :=
    Machine.reach_of_run? ((approveAfterSweep.take 4).drop 2) rfl
  have idle : (hitlStore demoPy).Reach anyHitlRun (afterLines 4) (afterLines 6) :=
    Machine.reach_of_run? ((approveAfterSweep.take 6).drop 4) rfl
  have update : (hitlStore demoPy).Step anyHitlRun (afterLines 6) (afterLines 7) :=
    Machine.step_of_steps? 2 (demoEnv demoSuccess) rfl (List.cons_ne_self _ _)
  have hrow := (hlocks.1 _ _ _ _ _ ⟨0, .get "s", .hitl (.select "s"), .silent, _⟩
    ⟨2, .updateStatus "s" .approved 1, .hitl (.updateStatus "s" .approved _ 1), .silent, true⟩
    (overdueSession.toRow demoPy) .approved start read rfl rfl sweep idle update rfl rfl).1
  cases congrArg (Option.map (·.status)) hrow

end BankingAgent
