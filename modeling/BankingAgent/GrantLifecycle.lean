import BankingAgent.Recording
import BankingAgent.Rules
import BankingAgent.Async.OneShot

/-!
# The life of a grant

`GrantRepository` as a service of its own: any number of its methods, called with any
arguments, at the same time. Whatever they do, a grant moves along

    PENDING → APPROVED → CONSUMING → CONSUMED | FAILED | UNKNOWN
    PENDING | APPROVED → REJECTED          PENDING → RECONCILIATION_REQUIRED

and the columns that say what was approved stay as they were inserted. Since nothing
leads back to `APPROVED`, a grant is a one-shot token: `atomic_consume` hands it out
once.
-/

namespace BankingAgent

open Async

/-! ## Edges -/

/-- The edges of the life of a grant. -/
inductive GrantEdge : GrantStatus → GrantStatus → Prop
  | approve : GrantEdge .pending .approved
  | claim : GrantEdge .approved .consuming
  | consume : GrantEdge .consuming .consumed
  | fail : GrantEdge .consuming .failed
  | lose : GrantEdge .consuming .unknown
  | reject : GrantEdge .pending .rejected
  | revoke : GrantEdge .approved .rejected
  | reconcile : GrantEdge .pending .reconciliationRequired

/-- The statuses a grant ends in. -/
def GrantStatus.Terminal (s : GrantStatus) : Prop :=
  s = .consumed ∨ s = .failed ∨ s = .unknown ∨ s = .rejected ∨ s = .reconciliationRequired

theorem GrantStatus.Terminal.no_edge {s s' : GrantStatus} (h : s.Terminal) : ¬ GrantEdge s s' := by
  rcases h with rfl | rfl | rfl | rfl | rfl <;> rintro ⟨⟩

/-- Nothing is reached from a terminal status. -/
theorem GrantStatus.Terminal.stays {s s' : GrantStatus} (h : s.Terminal)
    (hs : Relation.ReflTransGen GrantEdge s s') : s' = s := by
  rcases Relation.ReflTransGen.cases_head hs with rfl | ⟨_, hedge, _⟩
  · rfl
  · exact absurd hedge h.no_edge

/-- Every update follows an edge. -/
theorem GrantMove.edge {u : GrantUpdate} {s s' : GrantStatus} (h : GrantMove u s s') :
    GrantEdge s s' := by
  cases h with
  | consume => exact .claim
  | approvePending => exact .approve
  | @mark m _ _ _ ha =>
    cases m <;> cases s <;> first
      | exact .consume
      | exact .fail
      | exact .lose
      | exact .reject
      | exact .revoke
      | exact .reconcile
      | cases ha

/-- What one statement may do to a grant. -/
structure GrantRecord.Evolves (g g' : GrantRecord) : Prop where
  /-- the operation is the same -/
  same : g.SameOperation g'
  /-- the status stays or follows an edge -/
  status : g'.status = g.status ∨ GrantEdge g.status g'.status
  /-- the approving actor changes by the approval only -/
  actor : g'.approvingActorId = g.approvingActorId ∨ g.status = .pending ∧ g'.status = .approved

theorem GrantRecord.Evolves.refl (g : GrantRecord) : g.Evolves g := ⟨.refl g, .inl rfl, .inl rfl⟩

theorem GrantUpdate.evolves {u : GrantUpdate} {g : GrantRecord} (h : u.change.guard g = true) :
    g.Evolves (u.change.set g) := by
  refine ⟨u.sameOperation g, .inr (u.move h).edge, ?_⟩
  cases u with
  | consume => exact .inl rfl
  | approvePending => exact .inr ⟨of_decide_eq_true ((Bool.and_eq_true _ _).mp h).1, rfl⟩
  | mark m => cases m <;> exact .inl rfl

/-- **One statement**: no grant is removed, and each evolves. -/
theorem GrantOp.evolves {sid : String} (o : GrantOp) {t : GrantTable} {g : GrantRecord}
    (h : t.get sid = some g) : ∃ g', (o.exec t).2.get sid = some g' ∧ g.Evolves g' := by
  rcases GrantOp.get_exec (o := o) h with hget | ⟨u, -, -, hguard, hget⟩
  · exact ⟨g, hget, .refl g⟩
  · exact ⟨_, hget, u.evolves hguard⟩

/-- One step of any machine over the database. -/
theorem GrantRecord.evolves_of_step {Call α : Type} {M : Machine Op Op.Res Exn α Call Env Db}
    {D : Discipline Db Call (LogEntry Call)} (hM : M.exec = exec) {c c' : M.Config}
    (h : M.Step D c c') {sid : String} {g : GrantRecord} (hg : c.shared.grants.get sid = some g) :
    ∃ g', c'.shared.grants.get sid = some g' ∧ g.Evolves g' := by
  cases h with
  | spawn => exact ⟨g, hg, .refl g⟩
  | crash => exact ⟨g, hg, .refl g⟩
  | @step i call o k env r db here hexec ok =>
    rw [hM] at hexec
    rw [Pool.advance_shared, exec_grantsAfter hexec]
    cases o with
    | grant o => exact o.evolves hg
    | _ => exact ⟨g, hg, .refl g⟩

/-- A whole run: the operation stays, and the status moves along edges. -/
theorem GrantRecord.evolves_of_reach {Call α : Type} {M : Machine Op Op.Res Exn α Call Env Db}
    {D : Discipline Db Call (LogEntry Call)} (hM : M.exec = exec) {c c' : M.Config}
    (h : M.Reach D c c') {sid : String} {g : GrantRecord} (hg : c.shared.grants.get sid = some g) :
    ∃ g', c'.shared.grants.get sid = some g' ∧ g.SameOperation g' ∧
      Relation.ReflTransGen GrantEdge g.status g'.status := by
  induction h with
  | refl => exact ⟨g, hg, .refl g, .refl⟩
  | tail _ hs ih =>
    obtain ⟨g₁, hg₁, hsame, hedges⟩ := ih
    obtain ⟨g₂, hg₂, hev⟩ := GrantRecord.evolves_of_step hM hs hg₁
    refine ⟨g₂, hg₂, hsame.trans hev.same, ?_⟩
    rcases hev.status with hst | hedge
    · rw [hst]
      exact hedges
    · exact hedges.tail hedge

/-! ## The grant as a token -/

/-- The grant can no longer be claimed. -/
def GrantStatus.Spent (s : GrantStatus) : Prop := s ≠ .pending ∧ s ≠ .approved

/-- No statement revives a spent grant. -/
theorem GrantMove.spent {u : GrantUpdate} {s s' : GrantStatus} (h : GrantMove u s s')
    (hs : s.Spent) : s'.Spent := by
  cases h with
  | consume => exact absurd rfl hs.2
  | approvePending => exact absurd rfl hs.1
  | @mark m _ _ _ _ => cases m <;> exact ⟨nofun, nofun⟩

/-- The grant of the session is spent. -/
def GrantSpent (sid : String) (db : Db) : Prop :=
  ∃ g, db.grants.get sid = some g ∧ g.status.Spent

/-- Nothing revives the grant of a session. -/
theorem GrantOp.spent {sid : String} {o : GrantOp} {t : GrantTable} {g : GrantRecord}
    (hg : t.get sid = some g) (hs : g.status.Spent) :
    ∃ g', (o.exec t).2.get sid = some g' ∧ g'.status.Spent := by
  cases o with
  | selectConsuming => exact ⟨g, hg, hs⟩
  | select => exact ⟨g, hg, hs⟩
  | insertPending g' => exact ⟨g, GrantOp.get_insertPending_of_some hg, hs⟩
  | update u =>
    refine ⟨_, Sql.Table.get_update_of_some hg, ?_⟩
    split
    · rw [Sql.Change.apply]
      split
      · rename_i hguard
        exact (u.move hguard).spent hs
      · exact hs
    · exact hs

theorem GrantSpent.exec {sid : String} {o : Op} {env : Env} {r : o.Res} {db db' : Db}
    (h : GrantSpent sid db) (he : exec o env db = some (r, db')) : GrantSpent sid db' := by
  obtain ⟨g, hg, hs⟩ := h
  rw [GrantSpent, exec_grantsAfter he]
  cases o with
  | grant o => exact GrantOp.spent hg hs
  | _ => exact ⟨g, hg, hs⟩

/-- The claim takes the grant: it was `APPROVED` and is `CONSUMING`. -/
theorem GrantUpdate.spends_of_consume {sid now : String} {p : ConsumeParams} {env : Env}
    {db db' : Db}
    (he : exec (.grant (.update (.consume sid p now))) env db = some (true, db')) :
    ¬ GrantSpent sid db ∧ GrantSpent sid db' := by
  obtain ⟨hr, rfl⟩ := exec_grant he
  obtain ⟨g, hg, -, hget, hmove⟩ := GrantUpdate.get_of_hit hr.symm
  cases hmove' : g.status with
  | approved =>
    refine ⟨?_, _, hget, nofun, nofun⟩
    rintro ⟨g', hg', hs⟩
    obtain rfl := Option.some.inj (hg.symm.trans hg')
    exact hs.2 hmove'
  | _ => rw [hmove'] at hmove; cases hmove

/-! ## The repository as a service -/

/-- The arguments of `atomic_consume`. -/
structure ConsumeCall : Type where
  sessionId : String
  userId : String
  approvingActorId : String
  threadId : String
  runId : String
  checkpointId : String
  toolCallId : String
  toolName : String
  toolArgs : Json
  idempotencyKey : String
  version : ℕ

/-- A call of a method of `GrantRepository`. -/
inductive GrantCall : Type where
  | insertPending (grant : GrantRecord)
  | approvePending (sessionId approvingActorId : String) (expectedVersion : ℕ)
  | atomicConsume (args : ConsumeCall)
  | mark (m : GrantMark) (sessionId : String)
  | getBySession (sessionId : String)

/-- What such a call returns. -/
inductive GrantReply : Type where
  | done
  | approved (hit : Bool)
  | claimed (grant : Option GrantRecord)
  | found (grant : Option GrantRecord)

/-- The coroutine a call runs. -/
def grantCode (py : PyLib) : GrantCall → Co GrantReply
  | .insertPending grant => (fun _ => .done) <$> GrantRepository.insertPending grant
  | .approvePending sid actorId v => .approved <$> GrantRepository.approvePending py sid actorId v
  | .atomicConsume a =>
    .claimed <$> GrantRepository.atomicConsume py a.sessionId a.userId a.approvingActorId
      a.threadId a.runId a.checkpointId a.toolCallId a.toolName a.toolArgs a.idempotencyKey
      a.version
  | .mark m sid => (fun _ => .done) <$> GrantRepository.mark py m sid
  | .getBySession sid => .found <$> GrantRepository.getBySession sid

/-- The repository: every call against the one database. -/
def grantRepository (py : PyLib) : Machine Op Op.Res Exn GrantReply GrantCall Env Db :=
  ⟨exec, grantCode py⟩

/-- The entry gives the grant of the session to a call of `atomic_consume`. -/
def IsClaim (sid : String) (e : LogEntry GrantCall) : Bool :=
  match e with
  | ⟨_, .atomicConsume a, .grant (.selectConsuming _), _, claimed⟩ =>
    a.sessionId = sid && claimed.isSome
  | _ => false

/-- How often `atomic_consume` was given the grant of the session. -/
def claims (sid : String) (h : List (LogEntry GrantCall)) : ℕ := h.countP (IsClaim sid)

/-- The statement reads a claimed grant back. -/
def GrantOp.readsBack : GrantOp → Bool
  | selectConsuming _ => true
  | _ => false

/-- How far a call is. -/
inductive GrantPos : Type where
  | start
  /-- this call moved the grant to `CONSUMING` and reads it back next -/
  | claiming
  /-- this call has read it back -/
  | claimed (grant : GrantRecord)
  | finished

/-- The moves of the calls. -/
inductive GrantCallMove : GrantCall → GrantPos → (o : Op) → o.Res → GrantPos → Prop
  | idle {c : GrantCall} {p : GrantPos} {o : Op} (r : o.Res) (quiet : o.Quiet) :
      GrantCallMove c p o r p
  | statement {c : GrantCall} {o : GrantOp} (r : o.Res) (other : o.readsBack = false) :
      GrantCallMove c .start (.grant o) r .finished
  | claim {a : ConsumeCall} (p : ConsumeParams) (now : String) :
      GrantCallMove (.atomicConsume a) .start (.grant (.update (.consume a.sessionId p now))) true
        .claiming
  | readBack {a : ConsumeCall} (g : GrantRecord) :
      GrantCallMove (.atomicConsume a) .claiming (.grant (.selectConsuming a.sessionId)) (some g)
        (.claimed g)
  | lost {a : ConsumeCall} :
      GrantCallMove (.atomicConsume a) .claiming (.grant (.selectConsuming a.sessionId)) none .finished

/-- The grant `atomic_consume` returns. -/
def GrantReply.grant? : GrantReply → Option GrantRecord
  | claimed grant => grant
  | _ => none

/-- How a call ends: it returns a grant only if it has read one back. -/
def GrantPos.Ends : GrantPos → Except Exn GrantReply → Prop
  | claimed g, out => out = .ok (.claimed (some g))
  | finished, out => (out.map GrantReply.grant?).toOption.join = none
  | _, _ => False

theorem grantCode_follows (py : PyLib) (c : GrantCall) :
    Follows (GrantCallMove c) GrantPos.Ends (grantCode py c) .start := by
  have idle : Idles (GrantCallMove c) := fun _ _ r quiet => .idle r quiet
  cases c with
  | insertPending grant =>
    refine Follows.map fun hit => ⟨.finished, .statement _ rfl, ?_⟩
    cases hit with
    | false => rfl
    | true => rfl
  | approvePending sid actorId v =>
    refine Follows.map fun t => ⟨.start, idle _ .now t trivial, fun hit => ?_⟩
    exact ⟨.finished, .statement _ rfl, rfl⟩
  | atomicConsume a =>
    refine Follows.map fun t => ⟨.start, idle _ .now t trivial, fun hit => ?_⟩
    cases hit with
    | false => exact ⟨.finished, .statement _ rfl, rfl⟩
    | true =>
      refine ⟨.claiming, .claim _ _, fun found => ?_⟩
      cases found with
      | none => exact ⟨.finished, .lost, rfl⟩
      | some g => exact ⟨.claimed g, .readBack g, rfl⟩
  | mark m sid =>
    refine Follows.map fun t => ⟨.start, idle _ .now t trivial, fun hit => ?_⟩
    exact ⟨.finished, .statement _ rfl, rfl⟩
  | getBySession sid => exact Follows.map fun found => ⟨.finished, .statement _ rfl, rfl⟩

/-- The grant of a session, as a token: whoever moves it to `CONSUMING` reads it back
once. -/
def claimToken (py : PyLib) (sid : String) :
    (grantRepository py).OneShot GrantCallMove (fun _ => .start) where
  spent := GrantSpent sid
  holds call p := (∃ a, call = .atomicConsume a ∧ a.sessionId = sid) ∧ p = .claiming
  uses := IsClaim sid
  start_free _ h := by cases h.2
  spent_mono _ he hs := hs.exec he
  holds_of move he h := by
    obtain ⟨⟨a, rfl, rfl⟩, rfl⟩ := h
    cases move with
    | idle => exact .inl ⟨⟨a, rfl, rfl⟩, rfl⟩
    | claim p now => exact .inr (GrantUpdate.spends_of_consume he)
  uses_of move hu := by
    unfold IsClaim at hu
    split at hu
    · rename_i hentry
      cases hentry
      obtain ⟨hsid, hsome⟩ := (Bool.and_eq_true _ _).mp hu
      cases move with
      | idle r quiet => exact quiet.elim
      | statement r other => cases other
      | readBack g => exact ⟨⟨⟨_, rfl, of_decide_eq_true hsid⟩, rfl⟩, fun h => nomatch h.2⟩
      | lost => cases hsome
    · cases hu

/-- Whoever has read a grant back is on record. -/
def claimLayer (py : PyLib) (sid : String) (D : Discipline Db GrantCall (LogEntry GrantCall)) :
    ((claimToken py sid).outline D).Layer where
  inv _ _ := True
  asserts _ h i call p := ∀ a g, call = .atomicConsume a → a.sessionId = sid → p = .claimed g →
    ∃ e ∈ h, e.tid = i ∧ IsClaim sid e = true
  entry _ _ _ _ _ _ _ _ := nofun
  step := by
    intro db db' h i call p q o r env _ _ _ hp move _ _ _ _
    refine ⟨trivial, ?_⟩
    rintro a g rfl hsid rfl
    cases move with
    | idle =>
      obtain ⟨e, he, htid, hc⟩ := hp a g rfl hsid rfl
      exact ⟨e, List.mem_cons_of_mem _ he, htid, hc⟩
    | readBack => exact ⟨_, List.mem_cons_self .., rfl, by simp [IsClaim, hsid]⟩
  free := by
    intro db db' h i call p q o r env j call' p' _ _ _ _ _ hp' _ _ _ _ _ a g ha hsid hg
    obtain ⟨e, he, htid, hc⟩ := hp' a g ha hsid hg
    exact ⟨e, List.mem_cons_of_mem _ he, htid, hc⟩

/-- A call has returned the grant of the session. -/
def ReturnedGrant (py : PyLib) (sid : String) (c : (grantRepository py).Config) (i : ℕ) : Prop :=
  ∃ a g, c.At i (.atomicConsume a) (.ret (.claimed (some g))) ∧ a.sessionId = sid

/-- **The grant lifecycle.** In every run of the repository, with any calls, any
interleaving and crashes anywhere, from every table of grants:

* every step keeps every grant, its operation, and its status up to an edge, and changes
  the approving actor only on the edge from `PENDING` to `APPROVED`;
* over any stretch of a run, the operation stays and a terminal status is not left;
* `atomic_consume` is given the grant of a session at most once, and every call that has
  returned it was given it. -/
theorem grant_lifecycle (py : PyLib) {db : Db} {c : (grantRepository py).Config}
    (run : (grantRepository py).Reach (.crashing fun _ => True) (Pool.init db) c) :
    (∀ c' sid g, (grantRepository py).Step (.crashing fun _ => True) c c' →
      c.shared.grants.get sid = some g →
        ∃ g', c'.shared.grants.get sid = some g' ∧ g.Evolves g') ∧
    (∀ c' sid g, (grantRepository py).Reach (.crashing fun _ => True) c c' →
      c.shared.grants.get sid = some g →
        ∃ g', c'.shared.grants.get sid = some g' ∧ g.SameOperation g' ∧
          Relation.ReflTransGen GrantEdge g.status g'.status ∧
          (g.status.Terminal → g'.status = g.status)) ∧
    (∀ sid, claims sid c.hist ≤ 1 ∧
      ∀ i, ReturnedGrant py sid c i → ∃ e ∈ c.hist, e.tid = i ∧ IsClaim sid e = true) := by
  refine ⟨fun c' sid g hs hg => GrantRecord.evolves_of_step rfl hs hg, ?_, fun sid => ⟨?_, ?_⟩⟩
  · intro c' sid g hreach hg
    obtain ⟨g', hg', hsame, hedges⟩ := GrantRecord.evolves_of_reach rfl hreach hg
    exact ⟨g', hg', hsame, hedges, fun hterm => hterm.stays hedges⟩
  · exact (claimToken py sid).count_le_one (fun call _ => grantCode_follows py call) run
  · rintro i ⟨a, g, hat, hsid⟩
    have hinit : (((claimToken py sid).outline (.crashing fun _ => True)).extend
        (claimLayer py sid _)).inv db [] :=
      ⟨⟨fun hn => absurd rfl hn, Nat.zero_le 1⟩, trivial⟩
    obtain ⟨p, hf, -, hp⟩ := Machine.Outline.sound_at _
      (fun call _ => grantCode_follows py call) hinit run hat
    cases p with
    | claimed g' => exact hp a g' rfl hsid rfl
    | finished => cases hf
    | start => exact hf.elim
    | claiming => exact hf.elim

/-- Approved, claimed by one of two racing calls, rejected too late, and consumed. -/
def grantLife : List (Machine.Act GrantCall Op Env) :=
  let a : ConsumeCall :=
    { sessionId := "s", userId := "alice", approvingActorId := "operator", threadId := "s",
      runId := "s", checkpointId := "", toolCallId := "call-1", toolName := "submit_transfer",
      toolArgs := demoArgs, idempotencyKey := "s:call-1", version := 1 }
  let go := demoEnv demoSuccess
  [.spawn (.approvePending "s" "operator" 1), .steps 0 9 go, .spawn (.atomicConsume a),
    .spawn (.atomicConsume a), .steps 1 1 go, .steps 2 9 go, .steps 1 9 go,
    .spawn (.mark .rejected "s"), .steps 3 9 go, .spawn (.mark .consumed "s"), .steps 4 9 go]

/-- The grant of a recorded operation lives its whole life: it ends `CONSUMED`, and was
claimed once. -/
theorem grant_lifecycle_to_consumed :
    ∃ c : (grantRepository demoPy).Config, c.shared.grants.status? "s" = some .consumed ∧
      claims "s" c.hist = 1 ∧ claims "s" c.hist ≤ 1 := by
  have hrun : (((grantRepository demoPy).run? (.crashing fun _ => True) grantLife
    (Pool.init demoDb)).map fun c => decide (c.shared.grants.status? "s" = some .consumed) &&
      decide (claims "s" c.hist = 1)).getD false = true := by decide +kernel
  obtain ⟨c, run, hc⟩ := Machine.exists_reach_of_run? hrun
  obtain ⟨hst, hn⟩ := (Bool.and_eq_true _ _).mp hc
  exact ⟨c, of_decide_eq_true hst, of_decide_eq_true hn, ((grant_lifecycle demoPy run).2.2 "s").1⟩

end BankingAgent
