import BankingAgent.GrantLifecycle
import BankingAgent.SessionVersion
import BankingAgent.Sql.SharedConnection

/-!
# The stores on their connections

The grants, the idempotency records and the sessions are modelled elsewhere as tables on which a
statement and its commit are one step. Here they are two, and each may fail: a change that nobody
has committed is seen by every coroutine of the process and lost with it, and a coroutine whose
commit has failed raises although the others see its change, and may store it. What the callers
rely on holds all the same.

* `GrantConnection.claimed_once` — `atomic_consume` returns the grant of a session at most once;
  from then on what is stored is that grant, and spent.
* `GrantConnection.approval_kept` — one call of `approve_pending` succeeds for a session, and the
  grant bears its actor from then on.
* `GrantConnection.stored_moves_on` — what is stored of a grant follows the edges of its life, to
  whatever is stored or seen later.
* `IdempotencyConnection.started_once` — `mark_executing` returns `True` at most once for a key.
* `IdempotencyConnection.result_kept` — the result of a successful `mark_succeeded` is that of
  every record read of the key from then on.
* `HITLConnection.stored_sessions_later` — what is stored of a session is what it was, or later.
* `HITLConnection.version_won_once` — of the calls of `update_status` at one version of a session,
  one succeeds at most.
-/

namespace BankingAgent

open Async Sql

/-- A statement, and its commit. -/
def committed {S : Type} {A : S → Type} (s : S) : ConnProg S A Exn (A s) := do
  let a ← execute s
  commit
  return a

/-- A call, and what it reads from the clock. -/
abbrev Dated (C : Type) : Type := C × String

section Saves

variable {S : Type} {A : S → Type} {own : (s : S) → A s → Prop}

theorem saves_committed {s : S} {good : A s → Prop} (h : ∀ a, good a → own s a) :
    Saves own good (committed s) := by
  refine savesFrom_own (fun a _ => ?_) fun a hown => ?_
  · exact savesFrom_commit_bind savesFrom_ret
  · exact savesFrom_commit_idle (savesFrom_ret_of_not fun hgood => hown (h a hgood))

end Saves

/-! ## The grants -/

/-- What `atomic_consume` compares the grant with. -/
def ConsumeCall.params (py : PyLib) (a : ConsumeCall) : ConsumeParams :=
  { userId := a.userId, approvingActorId := a.approvingActorId, threadId := a.threadId,
    runId := a.runId, checkpointId := a.checkpointId, toolCallId := a.toolCallId,
    toolName := a.toolName, digest := py.digest a.toolArgs, idempotencyKey := a.idempotencyKey,
    version := a.version }

/-- The grant is one for this operation. -/
structure GrantRecord.IsFor (p : ConsumeParams) (g : GrantRecord) : Prop where
  user : g.requestingUserId = p.userId
  thread : g.threadId = p.threadId
  call : g.toolCallId = p.toolCallId
  tool : g.toolName = p.toolName
  digest : g.argumentDigest = p.digest
  key : g.idempotencyKey = p.idempotencyKey

theorem GrantRecord.isFor_of_guard {p : ConsumeParams} {now : String} {g : GrantRecord}
    (h : (GrantRecord.consume p now).guard g = true) : g.IsFor p := by
  obtain ⟨hu, ht, hc, hn, hd, hk⟩ := GrantRecord.consume_guard h
  exact ⟨hu, ht, hc, hn, hd, hk⟩

theorem GrantRecord.IsFor.congr {p : ConsumeParams} {g g' : GrantRecord} (h : g.IsFor p)
    (hsame : g.SameOperation g') : g'.IsFor p where
  user := hsame.user.symm.trans h.user
  thread := hsame.thread.symm.trans h.thread
  call := hsame.call.symm.trans h.call
  tool := hsame.tool.symm.trans h.tool
  digest := hsame.digest.symm.trans h.digest
  key := hsame.key.symm.trans h.key

/-- Nothing becomes `PENDING`. -/
theorem GrantStatus.ne_pending_of_edges {s s' : GrantStatus}
    (h : Relation.ReflTransGen GrantEdge s s') (hs : s ≠ .pending) : s' ≠ .pending := by
  induction h with
  | refl => exact hs
  | tail _ hedge _ => cases hedge <;> nofun

/-- What statements may do to a grant. -/
structure GrantRecord.MovesOn (g g' : GrantRecord) : Prop where
  /-- the operation is the same -/
  same : g.SameOperation g'
  edges : Relation.ReflTransGen GrantEdge g.status g'.status
  /-- whoever has approved it -/
  actor : g.status ≠ .pending → g'.approvingActorId = g.approvingActorId

theorem GrantRecord.MovesOn.refl (g : GrantRecord) : g.MovesOn g := ⟨.refl g, .refl, fun _ => rfl⟩

theorem GrantRecord.MovesOn.trans {g g' g'' : GrantRecord} (h : g.MovesOn g')
    (h' : g'.MovesOn g'') : g.MovesOn g'' where
  same := h.same.trans h'.same
  edges := h.edges.trans h'.edges
  actor hs := (h'.actor (GrantStatus.ne_pending_of_edges h.edges hs)).trans (h.actor hs)

theorem GrantRecord.Evolves.movesOn {g g' : GrantRecord} (h : g.Evolves g') : g.MovesOn g' where
  same := h.same
  edges := by
    rcases h.status with hst | hedge
    · rw [hst]
    · exact .single hedge
  actor hs := h.actor.resolve_right fun hpending => hs hpending.1

namespace GrantConnection

/-- Coroutines of the repository. -/
abbrev GrantProg (α : Type) : Type := ConnProg GrantOp GrantOp.Res Exn α

/-- The statements, on the table. -/
def language : Language GrantOp GrantOp.Res Unit GrantTable := ⟨fun s _ t => some (s.exec t)⟩

variable (py : PyLib)

/-- `insert_pending`. -/
def insertPending (grant : GrantRecord) : GrantProg Unit := do
  let accepted ← execute (GrantOp.insertPending grant)
  if accepted then commit else .raise .integrity

/-- `atomic_consume`: the grant is read back after the commit. -/
def atomicConsume (a : ConsumeCall) (now : String) : GrantProg (Option GrantRecord) := do
  let hit ← execute (GrantOp.update (.consume a.sessionId (a.params py) now))
  commit
  if hit then execute (GrantOp.selectConsuming a.sessionId) else return none

/-- What the `mark_*` methods have in common. -/
def mark (m : GrantMark) (sessionId now : String) : GrantProg Unit := do
  let _ ← committed (GrantOp.update (.mark m sessionId now))
  return ()

/-- `approve_pending`. -/
def approvePending (sessionId approvingActorId : String) (expectedVersion : ℕ) (now : String) :
    GrantProg Bool :=
  committed (GrantOp.update (.approvePending sessionId approvingActorId expectedVersion now))

/-- `get_by_session`. -/
def getBySession (sessionId : String) : GrantProg (Option GrantRecord) :=
  execute (GrantOp.select sessionId)

/-- What a call runs. -/
def code : Dated GrantCall → GrantProg GrantReply
  | (.insertPending grant, _) => (fun _ => .done) <$> insertPending grant
  | (.approvePending sid actorId v, now) => .approved <$> approvePending sid actorId v now
  | (.atomicConsume a, now) => .claimed <$> atomicConsume py a now
  | (.mark m sid, now) => (fun _ => .done) <$> mark m sid now
  | (.getBySession sid, _) => .found <$> getBySession sid

/-- The runs of the repository. -/
abbrev Runs : (language.machine (code py)).Config → (language.machine (code py)).Config → Prop :=
  language.Runs (code py)

variable {py} {c c' : (language.machine (code py)).Config} {conn : Shared GrantTable}
  {t t' : GrantTable} {s : GrantOp} {r : s.Res} {sid actorId now now' : String} {p : ConsumeParams}
  {i j : ℕ}

theorem insertPending_refused {g : GrantRecord} {t t' : GrantTable}
    (h : (GrantOp.insertPending g).exec t = (false, t')) : t' = t := by
  rw [GrantOp.exec] at h
  split at h
  · rw [← Table.get_insert_of_refused (congrArg Prod.fst h), h]
  · exact (Prod.mk.inj h).2.symm

/-- **Alone**, a call returns what it returns where a statement and its commit are one step, and
leaves the same table. -/
theorem alone_agrees (py : PyLib) (db : Db) (call : GrantCall) (instant : Instant) : ∃ out t,
    (code py (call, py.isoformat instant)).solo (language.machine (code py)).exec
        [.ok (), .ok (), .ok ()] ⟨db.grants, db.grants⟩ = some (out, ⟨t, t⟩) ∧
      ∃ envs, (∀ env ∈ envs, env = .instant instant ∨ env = .silent) ∧
        (grantCode py call).solo exec envs db = some (out, { db with grants := t }) := by
  cases call with
  | getBySession sid => exact ⟨_, _, rfl, [.silent], by simp, rfl⟩
  | approvePending sid actorId v => exact ⟨_, _, rfl, [.instant instant, .silent], by simp, rfl⟩
  | mark m sid => exact ⟨_, _, rfl, [.instant instant, .silent], by simp, rfl⟩
  | insertPending g =>
    cases hexec : (GrantOp.insertPending g).exec db.grants with
    | mk accepted t =>
    have hconn : (language.machine (code py)).exec (.execute (.insertPending g)) (.ok ())
        ⟨db.grants, db.grants⟩ = some (.ok accepted, ⟨db.grants, t⟩) :=
      machine_execute (congrArg some hexec)
    have hdb : exec (.grant (.insertPending g)) .silent db =
        some (accepted, { db with grants := t }) := by rw [exec, hexec]
    cases accepted with
    | true => exact ⟨_, t, Prog.solo_step hconn, [.silent], by simp, Prog.solo_step hdb⟩
    | false =>
      obtain rfl := insertPending_refused hexec
      exact ⟨_, _, Prog.solo_step hconn, [.silent], by simp, Prog.solo_step hdb⟩
  | atomicConsume a =>
    let claim := GrantOp.update (.consume a.sessionId (a.params py) (py.isoformat instant))
    cases hexec : claim.exec db.grants with
    | mk hit t =>
    have hconn : (language.machine (code py)).exec (.execute claim) (.ok ())
        ⟨db.grants, db.grants⟩ = some (.ok hit, ⟨db.grants, t⟩) :=
      machine_execute (congrArg some hexec)
    have hdb : exec (.grant claim) .silent db = some (hit, { db with grants := t }) := by
      rw [exec, hexec]
    refine ⟨.ok (.claimed (if hit then ((GrantOp.selectConsuming a.sessionId).exec t).1 else none)),
      t, (Prog.solo_step hconn).trans ?_, [.instant instant, .silent, .silent], by simp,
      (Prog.solo_step rfl).trans ((Prog.solo_step hdb).trans ?_)⟩
    · cases hit <;> rfl
    · cases hit <;> rfl

/-- **One statement**: no grant is removed, and each moves on. -/
theorem movesOn_of_exec (h : language.exec s () t = some (r, t')) {g : GrantRecord}
    (hg : t.get sid = some g) : ∃ g', t'.get sid = some g' ∧ g.MovesOn g' := by
  obtain ⟨-, rfl⟩ := Prod.mk.inj (Option.some.inj h)
  obtain ⟨g', hg', hev⟩ := s.evolves hg
  exact ⟨g', hg', hev.movesOn⟩

section Demo

/-- The repository over a small library. -/
abbrev demoMachine := language.machine (code demoPy)

/-- The claim of the operation. -/
def demoConsume : ConsumeCall :=
  { sessionId := "s", userId := "alice", approvingActorId := "operator", threadId := "s",
    runId := "s", checkpointId := "", toolCallId := "call-1", toolName := "submit_transfer",
    toolArgs := demoArgs, idempotencyKey := "s:call-1", version := 1 }

/-- The grant is approved, and claimed by two calls: the second one commits the statement of the
first. -/
def twoClaims : List (Machine.Act (Dated GrantCall) (ConnOp GrantOp) (Except Exn Unit)) :=
  let ok : ConnOp GrantOp → Except Exn Unit := fun _ => .ok ()
  [.spawn (.approvePending "s" "operator" 1, demoPy.isoformat 0), .steps 0 2 ok,
    .spawn (.atomicConsume demoConsume, demoPy.isoformat 0),
    .spawn (.atomicConsume demoConsume, demoPy.isoformat 0), .steps 1 1 ok, .steps 2 2 ok,
    .steps 1 2 ok]

/-- The first two calls have succeeded, and the grant is stored as claimed. -/
def claimed (c : demoMachine.Config) : Bool :=
  match demoMachine.result? c 0, demoMachine.result? c 1 with
  | some ((.approvePending "s" _ _, _), .ok (.approved true)),
    some ((.atomicConsume _, _), .ok (.claimed (some _))) =>
    (c.shared.stored.get "s").any (·.status = .consuming)
  | _, _ => false

theorem exists_claimed : ∃ (c : demoMachine.Config) (actorId now now' : String) (v : ℕ)
    (a : ConsumeCall) (g g' : GrantRecord),
    Runs demoPy (Pool.init ⟨demoDb.grants, demoDb.grants⟩) c ∧
      c.At 0 (.approvePending "s" actorId v, now) (.ret (.approved true)) ∧
      c.At 1 (.atomicConsume a, now') (.ret (.claimed (some g))) ∧
      c.shared.stored.get "s" = some g' ∧ g'.status = .consuming := by
  have hrun : ((demoMachine.run? (.free fun _ => True) twoClaims
      (Pool.init ⟨demoDb.grants, demoDb.grants⟩)).map claimed).getD false = true := by
    decide +kernel
  obtain ⟨c, hreach, hc⟩ := Machine.exists_reach_of_run? hrun
  unfold claimed at hc
  split at hc
  · rename_i hret hret'
    obtain ⟨g', hg', hstatus⟩ := (Option.any_eq_true _ _).mp hc
    exact ⟨c, _, _, _, _, _, _, g', hreach.restarts, Machine.at_of_result? hret,
      Machine.at_of_result? hret', hg', of_decide_eq_true hstatus⟩
  · cases hc

end Demo

/-- **Stored grants move on**: what is stored of a grant is left behind along the edges of its
life only, with its operation and the actor who approved it. -/
theorem stored_moves_on (h : Runs py (Pool.init ⟨t, t⟩) c) (h' : Runs py c c') {g : GrantRecord}
    (hg : c.shared.stored.get sid = some g) {t' : GrantTable}
    (ht' : t' = c'.shared.stored ∨ t' = c'.shared.working) :
    ∃ g', t'.get sid = some g' ∧ g.MovesOn g' := by
  let R (t t' : GrantTable) : Prop :=
    ∀ g, t.get sid = some g → ∃ g', t'.get sid = some g' ∧ g.MovesOn g'
  have htrans : ∀ {t₁ t₂ t₃}, R t₁ t₂ → R t₂ t₃ → R t₁ t₃ := by
    intro t₁ t₂ t₃ h₁ h₂ g hg
    obtain ⟨g', hg', hmoves⟩ := h₁ g hg
    obtain ⟨g'', hg'', hmoves'⟩ := h₂ g' hg'
    exact ⟨g'', hg'', hmoves.trans hmoves'⟩
  obtain ⟨hstored, hworking⟩ := stored_evolves (R := R) (fun t g hg => ⟨g, hg, .refl g⟩) htrans
    (fun hexec g hg => movesOn_of_exec hexec hg) h h'
  rcases ht' with rfl | rfl
  · exact hstored g hg
  · exact hworking g hg

/-- The grant was stored as pending; a process that takes over finds it claimed. -/
theorem stored_grant_found : ∃ (c : demoMachine.Config) (g g' : GrantRecord),
    demoDb.grants.get "s" = some g ∧ g.status = .pending ∧
      (c.restart Shared.rollback).shared.working.get "s" = some g' ∧ g'.status = .consuming ∧
      g.MovesOn g' := by
  obtain ⟨c, _, _, _, _, _, _, g', h, -, -, hg', hstatus⟩ := exists_claimed
  obtain ⟨g, hg, hpending⟩ : ∃ g, demoDb.grants.get "s" = some g ∧ g.status = .pending :=
    ⟨_, rfl, rfl⟩
  obtain ⟨g'', hg'', hmoves⟩ := stored_moves_on .refl (h.trans (.single (.restart c))) hg (.inr rfl)
  obtain rfl := Option.some.inj (hg''.symm.trans hg')
  exact ⟨c, g, g'', hg, hpending, hg', hstatus, hmoves⟩

/-! ### Claims -/

/-- The statement claims the grant of the session. -/
def Claims (sid : String) (p : ConsumeParams) : (s : GrantOp) → s.Res → Prop
  | .update (.consume sid' p' _), hit => sid' = sid ∧ p' = p ∧ hit = true
  | _, _ => False

/-- The claimed grant was approved for this operation, and is spent. -/
theorem claims_exec (h : Claims sid p s r) (hexec : language.exec s () t = some (r, t')) :
    ∃ g g', t.get sid = some g ∧ g.status = .approved ∧ t'.get sid = some g' ∧
      g'.status.Spent ∧ g'.IsFor p := by
  cases s with
  | update u =>
    cases u with
    | consume sid' p' now =>
      obtain ⟨rfl, rfl, rfl⟩ := h
      obtain ⟨hhit, rfl⟩ := Prod.mk.inj (Option.some.inj hexec)
      obtain ⟨g, hg, hguard, hget, -⟩ := GrantUpdate.get_of_hit hhit
      have happroved : g.status = .approved := by
        generalize hs : g.status = st
        have hmove := (GrantUpdate.consume sid' p' now).move hguard
        rw [hs] at hmove
        cases hmove
        rfl
      refine ⟨g, _, hg, happroved, hget, ⟨nofun, nofun⟩, ?_⟩
      exact (GrantRecord.isFor_of_guard hguard).congr (GrantUpdate.sameOperation _ g)
    | approvePending => exact h.elim
    | mark => exact h.elim
  | insertPending => exact h.elim
  | selectConsuming => exact h.elim
  | select => exact h.elim

/-- The grant of a session, as something to claim. -/
def claimLatch (sid : String) : Latch language where
  taken t := ∃ g, t.get sid = some g ∧ g.status.Spent
  takes s r := ∃ p, Claims sid p s r
  kept := by
    rintro s ⟨⟩ t r t' ⟨g, hg, hspent⟩ hexec
    obtain ⟨-, rfl⟩ := Prod.mk.inj (Option.some.inj hexec)
    exact GrantOp.spent hg hspent
  found := by
    rintro s ⟨⟩ t r t' ⟨p, hclaims⟩ hexec ⟨g, hg, hspent⟩
    obtain ⟨g', -, hg', happroved, -⟩ := claims_exec hclaims hexec
    obtain rfl := Option.some.inj (hg.symm.trans hg')
    exact hspent.2 happroved
  left := by
    rintro s ⟨⟩ t r t' ⟨p, hclaims⟩ hexec
    obtain ⟨-, g', -, -, hg', hspent, -⟩ := claims_exec hclaims hexec
    exact ⟨g', hg', hspent⟩

/-- The call returned a grant. -/
def Claimed : GrantReply → Prop
  | .claimed grant => grant.isSome = true
  | _ => False

theorem atomicConsume_saves (a : ConsumeCall) :
    Saves (Claims a.sessionId (a.params py)) Claimed (code py (.atomicConsume a, now)) := by
  apply savesFrom_map
  refine savesFrom_own (fun hit hclaims => ?_) fun hit hclaims => ?_
  · refine savesFrom_commit_bind ?_
    rw [if_pos hclaims.2.2]
    exact savesFrom_saved _
  · refine savesFrom_commit_idle ?_
    rw [if_neg fun hhit => hclaims ⟨rfl, rfl, hhit⟩]
    exact savesFrom_ret_of_not nofun

/-- The grant of the session is spent, and one for this operation. -/
def SpentFor (sid : String) (p : ConsumeParams) (t : GrantTable) : Prop :=
  ∃ g, t.get sid = some g ∧ g.status.Spent ∧ g.IsFor p

theorem spentFor_of_exec (h : SpentFor sid p t) (hexec : language.exec s () t = some (r, t')) :
    SpentFor sid p t' := by
  obtain ⟨-, rfl⟩ := Prod.mk.inj (Option.some.inj hexec)
  obtain ⟨g, hg, hspent, hfor⟩ := h
  obtain ⟨g', hg', hspent'⟩ := GrantOp.spent (o := s) hg hspent
  obtain ⟨g'', hg'', hsame⟩ := GrantOp.sameOperation (o := s) hg (.refl g)
  obtain rfl := Option.some.inj (hg'.symm.trans hg'')
  exact ⟨g', hg', hspent', hfor.congr hsame⟩

theorem spentFor_of_claims (h : Claims sid p s r) (hexec : language.exec s () t = some (r, t')) :
    SpentFor sid p t' := by
  obtain ⟨-, g', -, -, hg', hspent, hfor⟩ := claims_exec h hexec
  exact ⟨g', hg', hspent, hfor⟩

/-- The grant of the reply is one for the operation. -/
def RepliesFor (p : ConsumeParams) : GrantReply → Prop
  | .claimed (some g) => g.IsFor p
  | _ => True

theorem atomicConsume_tells (a : ConsumeCall) :
    TellsFrom language (Claims a.sessionId (a.params py)) (SpentFor a.sessionId (a.params py))
      (RepliesFor (a.params py)) (code py (.atomicConsume a, now)) .before := by
  apply tellsFrom_map
  refine tellsFrom_own (fun hit hclaims => ?_) fun hit hclaims => ?_
  · refine tellsFrom_commit ?_
    rw [if_pos hclaims.2.2]
    refine tellsFrom_read ?_
    rintro row ⟨⟩ t t' ⟨g, hg, -, hfor⟩ hexec
    obtain ⟨rfl, -⟩ := Prod.mk.inj (Option.some.inj hexec)
    rw [hg, Option.filter_some]
    split
    · exact hfor
    · exact trivial
  · refine tellsFrom_commit ?_
    rw [if_neg fun hhit => hclaims ⟨rfl, rfl, hhit⟩]
    exact tellsFrom_ret trivial

/-- **Claimed once**: once a call of `atomic_consume` has returned a grant, it is one for the
operation that the call asked for, its arguments compared by their digest, and no other call for
the session ever returns one, in this process or a later one. What is stored is a grant for the
operation as well, and spent. -/
theorem claimed_once {a : ConsumeCall} {g : GrantRecord} (h : Runs py (Pool.init conn) c)
    (hret : c.At i (.atomicConsume a, now) (.ret (.claimed (some g)))) (h' : Runs py c c') :
    g.IsFor (a.params py) ∧
    (∀ j a' now' g', c'.At j (.atomicConsume a', now') (.ret (.claimed (some g'))) →
      a'.sessionId = a.sessionId → j = i) ∧
    ∀ t, t = c'.shared.stored ∨ t = c'.shared.working → SpentFor a.sessionId (a.params py) t := by
  have htakes : ∀ (a : ConsumeCall) now, Saves (claimLatch a.sessionId).takes Claimed
      (code py (.atomicConsume a, now)) :=
    fun a now => (atomicConsume_saves a).imp fun hclaims => ⟨_, hclaims⟩
  refine ⟨?_, ?_, ?_⟩
  · exact good_of_told spentFor_of_exec spentFor_of_claims (atomicConsume_tells a) h hret
  · intro j a' now' g' hret' hsid
    have htakes' := htakes a' now'
    rw [hsid] at htakes'
    exact (Latch.one (htakes a now) htakes' h hret rfl h' hret' rfl).symm
  · intro t ht
    have hupkeep : Upkeep language Exn (Dated GrantCall) fun _ t =>
        SpentFor a.sessionId (a.params py) t := .of_grow id spentFor_of_exec
    obtain ⟨_, _, _, -, -, hspent⟩ := hupkeep.acknowledged spentFor_of_claims
      (atomicConsume_saves a) h hret rfl h' ht
    exact hspent

/-- A process that takes over finds the claimed grant spent. -/
theorem claim_found : ∃ (c : demoMachine.Config) (a : ConsumeCall) (now : String) (g : GrantRecord),
    c.At 1 (.atomicConsume a, now) (.ret (.claimed (some g))) ∧ g.IsFor (a.params demoPy) ∧
      SpentFor a.sessionId (a.params demoPy) (c.restart Shared.rollback).shared.working := by
  obtain ⟨c, _, _, now, _, a, g, _, h, -, hret, -⟩ := exists_claimed
  obtain ⟨hfor, -, hspent⟩ := claimed_once h hret (.single (.restart c))
  exact ⟨c, a, now, g, hret, hfor, hspent _ (.inr rfl)⟩

/-! ### Approvals -/

/-- The statement approves the grant of the session. -/
def Approves (sid actorId : String) : (s : GrantOp) → s.Res → Prop
  | .update (.approvePending sid' actorId' _ _), hit => sid' = sid ∧ actorId' = actorId ∧ hit = true
  | _, _ => False

/-- The grant of the session bears the actor who has approved it. -/
def ApprovedBy (sid actorId : String) (t : GrantTable) : Prop :=
  ∃ g, t.get sid = some g ∧ g.status ≠ .pending ∧ g.approvingActorId = actorId

theorem approves_exec (h : Approves sid actorId s r)
    (hexec : language.exec s () t = some (r, t')) :
    (∃ g, t.get sid = some g ∧ g.status = .pending) ∧ ApprovedBy sid actorId t' := by
  cases s with
  | update u =>
    cases u with
    | approvePending sid' actorId' v now =>
      obtain ⟨rfl, rfl, rfl⟩ := h
      obtain ⟨hhit, rfl⟩ := Prod.mk.inj (Option.some.inj hexec)
      obtain ⟨g, hg, hguard, hget, -⟩ := GrantUpdate.get_of_hit hhit
      exact ⟨⟨g, hg, of_decide_eq_true ((Bool.and_eq_true _ _).mp hguard).1⟩, _, hget, nofun, rfl⟩
    | consume => exact h.elim
    | mark => exact h.elim
  | insertPending => exact h.elim
  | selectConsuming => exact h.elim
  | select => exact h.elim

theorem approvedBy_of_exec (h : ApprovedBy sid actorId t)
    (hexec : language.exec s () t = some (r, t')) : ApprovedBy sid actorId t' := by
  obtain ⟨g, hg, hst, rfl⟩ := h
  obtain ⟨g', hg', hmoves⟩ := movesOn_of_exec hexec hg
  exact ⟨g', hg', GrantStatus.ne_pending_of_edges hmoves.edges hst, hmoves.actor hst⟩

/-- The grant of a session, as something to approve. -/
def approvalLatch (sid : String) : Latch language where
  taken t := ∃ actorId, ApprovedBy sid actorId t
  takes s r := ∃ actorId, Approves sid actorId s r
  kept := by
    rintro s ⟨⟩ t r t' ⟨actorId, h⟩ hexec
    exact ⟨actorId, approvedBy_of_exec h hexec⟩
  found := by
    rintro s ⟨⟩ t r t' ⟨actorId, happroves⟩ hexec ⟨-, g, hg, hst, -⟩
    obtain ⟨⟨g', hg', hpending⟩, -⟩ := approves_exec happroves hexec
    obtain rfl := Option.some.inj (hg.symm.trans hg')
    exact hst hpending
  left := by
    rintro s ⟨⟩ t r t' ⟨actorId, happroves⟩ hexec
    exact ⟨actorId, (approves_exec happroves hexec).2⟩

/-- The call approved the grant. -/
def Approved : GrantReply → Prop
  | .approved hit => hit = true
  | _ => False

theorem approvePending_saves {v : ℕ} :
    Saves (Approves sid actorId) Approved (code py (.approvePending sid actorId v, now)) := by
  apply savesFrom_map
  exact saves_committed fun _ hhit => ⟨rfl, rfl, hhit⟩

/-- **Approvals are kept**: once a call of `approve_pending` has returned `True`, the grant bears
its actor, wherever it is stored or seen, and no other call for the session ever returns `True`. -/
theorem approval_kept {v : ℕ} (h : Runs py (Pool.init conn) c)
    (hret : c.At i (.approvePending sid actorId v, now) (.ret (.approved true)))
    (h' : Runs py c c') :
    (∀ j actorId' v' now', c'.At j (.approvePending sid actorId' v', now')
      (.ret (.approved true)) → j = i) ∧
    ∀ t, t = c'.shared.stored ∨ t = c'.shared.working → ApprovedBy sid actorId t := by
  have htakes : ∀ actorId v now, Saves (approvalLatch sid).takes Approved
      (code py (.approvePending sid actorId v, now)) :=
    fun _ _ _ => approvePending_saves.imp fun happroves => ⟨_, happroves⟩
  constructor
  · intro j actorId' v' now' hret'
    exact (Latch.one (htakes actorId v now) (htakes actorId' v' now') h hret rfl h' hret' rfl).symm
  · intro t ht
    have hupkeep : Upkeep language Exn (Dated GrantCall) fun _ t => ApprovedBy sid actorId t :=
      .of_grow id approvedBy_of_exec
    obtain ⟨_, _, _, -, -, happroved⟩ := hupkeep.acknowledged
      (fun happroves hexec => (approves_exec happroves hexec).2) approvePending_saves h hret rfl h'
      ht
    exact happroved

/-- A process that takes over finds the approval. -/
theorem approval_found : ∃ (c : demoMachine.Config) (sid actorId now : String) (v : ℕ),
    c.At 0 (.approvePending sid actorId v, now) (.ret (.approved true)) ∧
      ApprovedBy sid actorId (c.restart Shared.rollback).shared.working := by
  obtain ⟨c, actorId, now, _, v, _, _, _, h, hret, -, -⟩ := exists_claimed
  exact ⟨c, "s", actorId, now, v, hret,
    (approval_kept h hret (.single (.restart c))).2 _ (.inr rfl)⟩

end GrantConnection

/-! ## The idempotency records -/

namespace IdempotencyConnection

/-- Coroutines of the store. -/
abbrev IdempotencyProg (α : Type) : Type := ConnProg IdempotencyOp IdempotencyOp.Res Exn α

/-- The statements, on the table. -/
def language : Language IdempotencyOp IdempotencyOp.Res Unit IdempotencyTable :=
  ⟨fun s _ t => some (s.exec t)⟩

variable (py : PyLib)

/-- `_row_to_record`. -/
def rowToRecord (row : IdempotencyRow) : IdempotencyProg IdempotencyRecord :=
  match row.toRecord py with
  | some record => .ret record
  | none => .raise .jsonDecode

/-- `reserve`: the record is read back after the commit. `_row_to_record(None)` is a `TypeError`. -/
def reserve (key toolName : String) (toolArgs : Option Json) (now : String) :
    IdempotencyProg IdempotencyRecord := do
  let _ ← execute (IdempotencyOp.reserve key toolName
    (py.dumps (SqliteIdempotencyStore.argsOrEmpty toolArgs)) now)
  commit
  match ← execute (IdempotencyOp.select key) with
  | none => .raise .typeError
  | some row => rowToRecord py row

/-- `get`. -/
def get (key : String) : IdempotencyProg (Option IdempotencyRecord) := do
  match ← execute (IdempotencyOp.select key) with
  | none => return none
  | some row => some <$> rowToRecord py row

/-- `mark_executing`. -/
def markExecuting (key : String) : IdempotencyProg Bool :=
  committed (IdempotencyOp.update key .executing)

/-- `mark_succeeded`. -/
def markSucceeded (key result now : String) : IdempotencyProg Bool :=
  committed (IdempotencyOp.update key (.succeeded result now))

/-- `mark_failed`. -/
def markFailed (key error now : String) : IdempotencyProg Bool :=
  committed (IdempotencyOp.update key (.failed error now))

/-- `mark_unknown`. -/
def markUnknown (key : String) : IdempotencyProg Bool :=
  committed (IdempotencyOp.update key .unknown)

/-- A call of a method of `SqliteIdempotencyStore`. -/
inductive IdempotencyCall : Type where
  | reserve (key toolName : String) (toolArgs : Option Json)
  | get (key : String)
  | markExecuting (key : String)
  | markSucceeded (key result : String)
  | markFailed (key error : String)
  | markUnknown (key : String)

/-- What such a call returns. -/
inductive IdempotencyReply : Type where
  | record (record : IdempotencyRecord)
  | found (record : Option IdempotencyRecord)
  | marked (hit : Bool)

/-- What a call runs. -/
def code : Dated IdempotencyCall → IdempotencyProg IdempotencyReply
  | (.reserve key toolName toolArgs, now) => .record <$> reserve py key toolName toolArgs now
  | (.get key, _) => .found <$> get py key
  | (.markExecuting key, _) => .marked <$> markExecuting key
  | (.markSucceeded key result, now) => .marked <$> markSucceeded key result now
  | (.markFailed key error, now) => .marked <$> markFailed key error now
  | (.markUnknown key, _) => .marked <$> markUnknown key

/-- The runs of the store. -/
abbrev Runs : (language.machine (code py)).Config → (language.machine (code py)).Config → Prop :=
  language.Runs (code py)

variable {py} {c c' : (language.machine (code py)).Config} {conn : Shared IdempotencyTable}
  {t t' : IdempotencyTable} {s : IdempotencyOp} {r : s.Res} {key result now : String} {i : ℕ}

/-- The call changed a record. -/
def Marked : IdempotencyReply → Prop
  | .marked hit => hit = true
  | _ => False

/-- What the call runs where a statement and its commit are one step. -/
def atomicCode (py : PyLib) : IdempotencyCall → Co IdempotencyReply
  | .reserve key toolName toolArgs =>
    .record <$> SqliteIdempotencyStore.reserve py key toolName toolArgs
  | .get key => .found <$> SqliteIdempotencyStore.get py key
  | .markExecuting key => .marked <$> SqliteIdempotencyStore.markExecuting key
  | .markSucceeded key result => .marked <$> SqliteIdempotencyStore.markSucceeded py key result
  | .markFailed key error => .marked <$> SqliteIdempotencyStore.markFailed py key error
  | .markUnknown key => .marked <$> SqliteIdempotencyStore.markUnknown key

/-- **Alone**, a call returns what it returns there, and leaves the same table. -/
theorem alone_agrees (py : PyLib) (db : Db) (call : IdempotencyCall) (instant : Instant) :
    ∃ out t, (code py (call, py.isoformat instant)).solo (language.machine (code py)).exec
        [.ok (), .ok (), .ok ()] ⟨db.idem, db.idem⟩ = some (out, ⟨t, t⟩) ∧
      ∃ envs, (∀ env ∈ envs, env = .instant instant ∨ env = .silent) ∧
        (atomicCode py call).solo exec envs db = some (out, { db with idem := t }) := by
  cases call with
  | markExecuting key => exact ⟨_, _, rfl, [.silent], by simp, rfl⟩
  | markSucceeded key result => exact ⟨_, _, rfl, [.instant instant, .silent], by simp, rfl⟩
  | markFailed key error => exact ⟨_, _, rfl, [.instant instant, .silent], by simp, rfl⟩
  | markUnknown key => exact ⟨_, _, rfl, [.silent], by simp, rfl⟩
  | get key =>
    cases hrow : db.idem.get key with
    | none =>
      have hconn : (language.machine (code py)).exec (.execute (.select key)) (.ok ())
          ⟨db.idem, db.idem⟩ = some (.ok none, ⟨db.idem, db.idem⟩) :=
        machine_execute (congrArg (fun row => some (row, db.idem)) hrow)
      have hdb : exec (.idem (.select key)) .silent db = some (none, db) := by rw [← hrow]; rfl
      exact ⟨_, _, Prog.solo_step hconn, [.silent], by simp, Prog.solo_step hdb⟩
    | some row =>
      have hconn : (language.machine (code py)).exec (.execute (.select key)) (.ok ())
          ⟨db.idem, db.idem⟩ = some (.ok (some row), ⟨db.idem, db.idem⟩) :=
        machine_execute (congrArg (fun row => some (row, db.idem)) hrow)
      have hdb : exec (.idem (.select key)) .silent db = some (some row, db) := by rw [← hrow]; rfl
      refine ⟨match row.toRecord py with
        | some record => .ok (.found (some record))
        | none => .error Exn.jsonDecode, db.idem, (Prog.solo_step hconn).trans ?_, [.silent],
        by simp, (Prog.solo_step hdb).trans ?_⟩
      · change Prog.solo _ (_ <$> some <$> rowToRecord py row) _ _ = _
        unfold rowToRecord
        cases row.toRecord py <;> rfl
      · change Prog.solo _ (_ <$> ((decoded (row.toRecord py)).bind _)) _ _ = _
        cases row.toRecord py <;> rfl
  | reserve key toolName toolArgs =>
    let args := py.dumps (SqliteIdempotencyStore.argsOrEmpty toolArgs)
    let t := ((IdempotencyOp.reserve key toolName args (py.isoformat instant)).exec db.idem).2
    -- there is a record now
    have hsome : (t.get key).isSome = true := IdempotencyOp.isSome_reserve
    obtain ⟨row, hrow⟩ := Option.isSome_iff_exists.mp hsome
    have hinsert : (language.machine (code py)).exec
        (.execute (.reserve key toolName args (py.isoformat instant))) (.ok ())
        ⟨db.idem, db.idem⟩ = some (.ok _, ⟨db.idem, t⟩) := machine_execute rfl
    have hcommit : (language.machine (code py)).exec .commit (.ok ()) ⟨db.idem, t⟩ =
        some (.ok (), ⟨t, t⟩) := rfl
    have hconn : (language.machine (code py)).exec (.execute (.select key)) (.ok ()) ⟨t, t⟩ =
        some (.ok (some row), ⟨t, t⟩) :=
      machine_execute (congrArg (fun row => some (row, t)) hrow)
    have hdb : exec (.idem (.select key)) .silent { db with idem := t } =
        some (some row, { db with idem := t }) := by rw [← hrow]; rfl
    refine ⟨match row.toRecord py with
      | some record => .ok (.record record)
      | none => .error Exn.jsonDecode, t,
      (Prog.solo_step hinsert).trans
        ((Prog.solo_step hcommit).trans ((Prog.solo_step hconn).trans ?_)),
      [.instant instant, .silent, .silent], by simp,
      (Prog.solo_step rfl).trans ((Prog.solo_step rfl).trans ((Prog.solo_step hdb).trans ?_))⟩
    · change Prog.solo _ (_ <$> rowToRecord py row) _ _ = _
      unfold rowToRecord
      cases row.toRecord py <;> rfl
    · change Prog.solo _ (_ <$> decoded (row.toRecord py)) _ _ = _
      cases row.toRecord py <;> rfl

section Demo

/-- The store over a small library. -/
abbrev demoMachine := language.machine (code demoPy)

/-- A key is reserved and started, a second start commits the statement of the first, and the
result is recorded. -/
def startAndSucceed : List (Machine.Act (Dated IdempotencyCall) (ConnOp IdempotencyOp)
    (Except Exn Unit)) :=
  let ok : ConnOp IdempotencyOp → Except Exn Unit := fun _ => .ok ()
  [.spawn (.reserve "k" "submit_transfer" none, "t0"), .steps 0 3 ok,
    .spawn (.markExecuting "k", "t1"), .spawn (.markExecuting "k", "t1"), .steps 1 1 ok,
    .steps 2 2 ok, .steps 1 1 ok, .spawn (.markSucceeded "k" "done", "t2"), .steps 3 2 ok]

/-- The start and the result have succeeded. -/
def succeeded (c : demoMachine.Config) : Bool :=
  match demoMachine.result? c 1, demoMachine.result? c 3 with
  | some ((.markExecuting _, _), .ok (.marked true)),
    some ((.markSucceeded _ _, _), .ok (.marked true)) => true
  | _, _ => false

theorem exists_succeeded : ∃ (c : demoMachine.Config) (key now key' result now' : String),
    Runs demoPy (Pool.init ⟨.empty, .empty⟩) c ∧
      c.At 1 (.markExecuting key, now) (.ret (.marked true)) ∧
      c.At 3 (.markSucceeded key' result, now') (.ret (.marked true)) := by
  have hrun : ((demoMachine.run? (.free fun _ => True) startAndSucceed
      (Pool.init ⟨.empty, .empty⟩)).map succeeded).getD false = true := by decide +kernel
  obtain ⟨c, hreach, hc⟩ := Machine.exists_reach_of_run? hrun
  unfold succeeded at hc
  split at hc
  · rename_i hret hret'
    exact ⟨c, _, _, _, _, _, hreach.restarts, Machine.at_of_result? hret,
      Machine.at_of_result? hret'⟩
  · cases hc

end Demo

/-! ### Starting -/

/-- The statement is this update of the key, and it changed the record. -/
def Updates (key : String) (u : IdempotencyUpdate) : (s : IdempotencyOp) → s.Res → Prop
  | .update key' u', hit => key' = key ∧ u' = u ∧ hit = true
  | _, _ => False

/-- The record of the key is one that this update applied to, and as the update has left it. -/
theorem updates_exec {u : IdempotencyUpdate} (h : Updates key u s r)
    (hexec : language.exec s () t = some (r, t')) :
    ∃ row, t.get key = some row ∧ u.appliesTo row.status = true ∧
      t'.get key = some (u.set row) := by
  cases s with
  | update key' u' =>
    obtain ⟨rfl, rfl, rfl⟩ := h
    obtain ⟨hhit, rfl⟩ := Prod.mk.inj (Option.some.inj hexec)
    exact Table.get_update_of_hit hhit
  | reserve => exact h.elim
  | select => exact h.elim

/-- The record of the key has a status in which these updates do not apply to it. -/
def Past (key : String) (p : IdempotencyStatus → Bool) (t : IdempotencyTable) : Prop :=
  ∃ row, t.get key = some row ∧ p row.status = true

/-- What no update leads out of is not left. -/
theorem past_of_exec {p : IdempotencyStatus → Bool}
    (hp : ∀ u : IdempotencyUpdate, ∀ st, p st = true → u.appliesTo st = true → p u.target = true)
    (h : Past key p t) (hexec : language.exec s () t = some (r, t')) : Past key p t' := by
  obtain ⟨-, rfl⟩ := Prod.mk.inj (Option.some.inj hexec)
  obtain ⟨row, hrow, hst⟩ := h
  cases s with
  | select => exact ⟨row, hrow, hst⟩
  | reserve key' toolName toolArgs now => exact ⟨row, Table.get_insert_of_some hrow, hst⟩
  | update key' u =>
    refine ⟨_, Table.get_update_of_some hrow, ?_⟩
    split
    · rw [Change.apply]
      split
      · rename_i happlies
        exact (congrArg p (u.target_set row)).trans (hp u _ hst happlies)
      · exact hst
    · exact hst

/-- An update that no record comes back from is made once. -/
def updateLatch (key : String) (isOf : IdempotencyUpdate → Prop) (p : IdempotencyStatus → Bool)
    (hp : ∀ u : IdempotencyUpdate, ∀ st, p st = true → u.appliesTo st = true → p u.target = true)
    (hfree : ∀ u, isOf u → ∀ st, u.appliesTo st = true → p st = false)
    (htarget : ∀ u, isOf u → p u.target = true) : Latch language where
  taken := Past key p
  takes s r := ∃ u, isOf u ∧ Updates key u s r
  kept := past_of_exec hp
  found := by
    rintro s ⟨⟩ t r t' ⟨u, hu, hupdates⟩ hexec ⟨row, hrow, hst⟩
    obtain ⟨row', hrow', happlies, -⟩ := updates_exec hupdates hexec
    obtain rfl := Option.some.inj (hrow.symm.trans hrow')
    exact absurd hst (Bool.eq_false_iff.mp (hfree u hu _ happlies))
  left := by
    rintro s ⟨⟩ t r t' ⟨u, hu, hupdates⟩ hexec
    obtain ⟨row, -, -, hrow'⟩ := updates_exec hupdates hexec
    exact ⟨_, hrow', (congrArg p (u.target_set row)).trans (htarget u hu)⟩

/-- No update leads back to `RESERVED`. -/
def startLatch (key : String) : Latch language :=
  updateLatch key (· = .executing) (fun st => st ≠ .reserved)
    (fun u st _ _ => by cases u <;> rfl)
    (by
      rintro u rfl st happlies
      obtain rfl : st = .reserved := of_decide_eq_true happlies
      rfl)
    (by
      rintro u rfl
      rfl)

theorem markExecuting_takes :
    Saves (startLatch key).takes Marked (code py (.markExecuting key, now)) := by
  apply savesFrom_map
  exact saves_committed fun _ hhit => ⟨_, rfl, rfl, rfl, hhit⟩

/-- **Started once**: once a call of `mark_executing` has returned `True`, no other call for the
key ever does, and the record is not `RESERVED` again, wherever it is stored or seen. -/
theorem started_once (h : Runs py (Pool.init conn) c)
    (hret : c.At i (.markExecuting key, now) (.ret (.marked true))) (h' : Runs py c c') :
    (∀ j now', c'.At j (.markExecuting key, now') (.ret (.marked true)) → j = i) ∧
    ∀ t, t = c'.shared.stored ∨ t = c'.shared.working → Past key (fun st => st ≠ .reserved) t := by
  constructor
  · intro j now' hret'
    exact (Latch.one markExecuting_takes markExecuting_takes h hret rfl h' hret' rfl).symm
  · exact fun t ht => Latch.taken_of_returned markExecuting_takes h hret rfl h' ht

/-- A process that takes over finds the key started. -/
theorem start_found : ∃ (c : demoMachine.Config) (key now : String),
    c.At 1 (.markExecuting key, now) (.ret (.marked true)) ∧
      Past key (fun st => st ≠ .reserved) (c.restart Shared.rollback).shared.working := by
  obtain ⟨c, key, now, _, _, _, h, hret, -⟩ := exists_succeeded
  exact ⟨c, key, now, hret, (started_once h hret (.single (.restart c))).2 _ (.inr rfl)⟩

/-! ### Results -/

/-- Nothing but a failure is recorded after a result. -/
def resultLatch (key : String) : Latch language :=
  updateLatch key (fun u => ∃ result now, u = .succeeded result now)
    (fun st => st ≠ .reserved && st ≠ .executing)
    (fun u st hst happlies => by
      cases u with
      | failed error now => rfl
      | succeeded result now => rfl
      | unknown => rfl
      | executing =>
        obtain rfl : st = .reserved := of_decide_eq_true happlies
        cases hst)
    (by
      rintro _ ⟨result, now, rfl⟩ st happlies
      obtain rfl : st = .executing := of_decide_eq_true happlies
      rfl)
    (by
      rintro _ ⟨result, now, rfl⟩
      rfl)

/-- The result is recorded; the record may have been marked as failed since. -/
def HasResult (key result : String) (t : IdempotencyTable) : Prop :=
  ∃ row, t.get key = some row ∧ row.result = some result ∧
    (row.status = .succeeded ∨ row.status = .failed)

theorem hasResult_of_exec (h : HasResult key result t)
    (hexec : language.exec s () t = some (r, t')) : HasResult key result t' := by
  obtain ⟨-, rfl⟩ := Prod.mk.inj (Option.some.inj hexec)
  obtain ⟨row, hrow, hresult, hst⟩ := h
  cases s with
  | select => exact ⟨row, hrow, hresult, hst⟩
  | reserve key' toolName toolArgs now =>
    exact ⟨row, Table.get_insert_of_some hrow, hresult, hst⟩
  | update key' u =>
    refine ⟨_, Table.get_update_of_some hrow, ?_⟩
    split
    · rw [Change.apply]
      split
      · rename_i happlies
        -- `mark_failed` is the only update that applies
        cases u with
        | failed error now => exact ⟨hresult, .inr rfl⟩
        | executing =>
          have hreserved : row.status = .reserved := of_decide_eq_true happlies
          simp [hreserved] at hst
        | succeeded result' now =>
          have hexecuting : row.status = .executing := of_decide_eq_true happlies
          simp [hexecuting] at hst
        | unknown =>
          have hopen := (Bool.or_eq_true _ _).mp happlies
          rcases hst with hst | hst <;> simp [hst] at hopen
      · exact ⟨hresult, hst⟩
    · exact ⟨hresult, hst⟩

theorem hasResult_of_updates (h : Updates key (.succeeded result now) s r)
    (hexec : language.exec s () t = some (r, t')) : HasResult key result t' := by
  obtain ⟨row, -, -, hrow'⟩ := updates_exec h hexec
  exact ⟨_, hrow', rfl, .inl rfl⟩

theorem markSucceeded_saves :
    Saves (Updates key (.succeeded result now)) Marked
      (code py (.markSucceeded key result, now)) := by
  apply savesFrom_map
  exact saves_committed fun _ hhit => ⟨rfl, rfl, hhit⟩

/-- **Results are kept**: once a call of `mark_succeeded` has returned `True`, no other call for the
key ever does, and any record that is read of the key has its result, whether it is read by
another coroutine or by a new process. -/
theorem result_kept (h : Runs py (Pool.init conn) c)
    (hret : c.At i (.markSucceeded key result, now) (.ret (.marked true))) (h' : Runs py c c') :
    (∀ j result' now', c'.At j (.markSucceeded key result', now') (.ret (.marked true)) → j = i) ∧
    ∀ t, t = c'.shared.stored ∨ t = c'.shared.working → ∃ row, t.get key = some row ∧
      (row.status = .succeeded ∨ row.status = .failed) ∧
      ∀ record, row.toRecord py = some record → record.result = some result := by
  have htakes : ∀ result now, Saves (resultLatch key).takes Marked
      (code py (.markSucceeded key result, now)) :=
    fun result now => markSucceeded_saves.imp fun hupdates => ⟨_, ⟨result, now, rfl⟩, hupdates⟩
  constructor
  · intro j result' now' hret'
    exact (Latch.one (htakes result now) (htakes result' now') h hret rfl h' hret' rfl).symm
  · intro t ht
    have hupkeep : Upkeep language Exn (Dated IdempotencyCall) fun _ t => HasResult key result t :=
      .of_grow id hasResult_of_exec
    obtain ⟨_, _, _, -, -, row, hrow, hresult, hst⟩ := hupkeep.acknowledged hasResult_of_updates
      markSucceeded_saves h hret rfl h' ht
    refine ⟨row, hrow, hst, fun record hrecord => ?_⟩
    rw [IdempotencyRow.result_toRecord hrecord, hresult]

/-- A process that takes over finds the result. -/
theorem result_found : ∃ (c : demoMachine.Config) (key result now : String) (row : IdempotencyRow),
    c.At 3 (.markSucceeded key result, now) (.ret (.marked true)) ∧
      (c.restart Shared.rollback).shared.working.get key = some row ∧
      ∀ record, row.toRecord demoPy = some record → record.result = some result := by
  obtain ⟨c, _, _, key, result, now, h, -, hret⟩ := exists_succeeded
  obtain ⟨row, hrow, -, hresult⟩ := (result_kept h hret (.single (.restart c))).2 _ (.inr rfl)
  exact ⟨c, key, result, now, row, hret, hrow, hresult⟩

end IdempotencyConnection

/-! ## The sessions -/

namespace HITLConnection

/-- Coroutines of the store. -/
abbrev HITLProg (α : Type) : Type := ConnProg HITLOp HITLOp.Res Exn α

/-- The statements, on the table. -/
def language : Language HITLOp HITLOp.Res Unit HITLTable := ⟨fun s _ t => some (s.exec t)⟩

variable (py : PyLib)

/-- `insert`. -/
def insert (session : HITLSession) : HITLProg Unit := do
  let accepted ← execute (HITLOp.insert (session.toRow py))
  if accepted then commit else .raise .integrity

/-- `get`. -/
def get (sessionId : String) : HITLProg (Option HITLSession) := do
  match ← execute (HITLOp.select sessionId) with
  | none => return none
  | some row =>
    match row.toSession py with
    | some session => return some session
    | none => .raise .jsonDecode

/-- `update_status`. -/
def updateStatus (sessionId : String) (status : HITLSessionStatus) (expectedVersion : ℕ)
    (now : String) : HITLProg Bool :=
  committed (HITLOp.updateStatus sessionId status now expectedVersion)

/-- `expire_stale_sessions`. -/
def expireStaleSessions (now : String) : HITLProg ℕ := committed (HITLOp.expireStale now)

/-- What a call runs. -/
def code : Dated HITLCall → HITLProg HITLReply
  | (.insert session, _) => (fun _ => .done) <$> insert py session
  | (.get sid, _) => .found <$> get py sid
  | (.updateStatus sid status v, now) => .updated <$> updateStatus sid status v now
  | (.expireStaleSessions, now) => .swept <$> expireStaleSessions now

/-- The runs of the store. -/
abbrev Runs : (language.machine (code py)).Config → (language.machine (code py)).Config → Prop :=
  language.Runs (code py)

variable {py} {c c' : (language.machine (code py)).Config} {conn : Shared HITLTable}
  {t t' : HITLTable} {s : HITLOp} {r : s.Res} {sid now : String} {status : HITLSessionStatus}
  {v : ℕ} {i : ℕ}

/-- **Alone**, a call returns what it returns where a statement and its commit are one step, and
leaves the same table. -/
theorem alone_agrees (py : PyLib) (db : Db) (call : HITLCall) (instant : Instant) : ∃ out t,
    (code py (call, py.isoformat instant)).solo (language.machine (code py)).exec
        [.ok (), .ok ()] ⟨db.hitl, db.hitl⟩ = some (out, ⟨t, t⟩) ∧
      ∃ envs, (∀ env ∈ envs, env = .instant instant ∨ env = .silent) ∧
        (hitlCode py call).solo exec envs db = some (out, { db with hitl := t }) := by
  cases call with
  | updateStatus sid status v => exact ⟨_, _, rfl, [.instant instant, .silent], by simp, rfl⟩
  | expireStaleSessions => exact ⟨_, _, rfl, [.instant instant, .silent], by simp, rfl⟩
  | insert session =>
    cases hexec : (HITLOp.insert (session.toRow py)).exec db.hitl with
    | mk accepted t =>
    have hconn : (language.machine (code py)).exec (.execute (.insert (session.toRow py))) (.ok ())
        ⟨db.hitl, db.hitl⟩ = some (.ok accepted, ⟨db.hitl, t⟩) :=
      machine_execute (congrArg some hexec)
    have hdb : exec (.hitl (.insert (session.toRow py))) .silent db =
        some (accepted, { db with hitl := t }) := by rw [exec, hexec]
    cases accepted with
    | true => exact ⟨_, t, Prog.solo_step hconn, [.silent], by simp, Prog.solo_step hdb⟩
    | false =>
      obtain rfl : t = db.hitl := by
        rw [← Table.get_insert_of_refused (congrArg Prod.fst hexec)]
        exact (congrArg Prod.snd hexec).symm
      exact ⟨_, _, Prog.solo_step hconn, [.silent], by simp, Prog.solo_step hdb⟩
  | get sid =>
    cases hrow : db.hitl.get sid with
    | none =>
      have hconn : (language.machine (code py)).exec (.execute (.select sid)) (.ok ())
          ⟨db.hitl, db.hitl⟩ = some (.ok none, ⟨db.hitl, db.hitl⟩) :=
        machine_execute (congrArg (fun row => some (row, db.hitl)) hrow)
      have hdb : exec (.hitl (.select sid)) .silent db = some (none, db) := by rw [← hrow]; rfl
      exact ⟨_, _, Prog.solo_step hconn, [.silent], by simp, Prog.solo_step hdb⟩
    | some row =>
      have hconn : (language.machine (code py)).exec (.execute (.select sid)) (.ok ())
          ⟨db.hitl, db.hitl⟩ = some (.ok (some row), ⟨db.hitl, db.hitl⟩) :=
        machine_execute (congrArg (fun row => some (row, db.hitl)) hrow)
      have hdb : exec (.hitl (.select sid)) .silent db = some (some row, db) := by rw [← hrow]; rfl
      refine ⟨match row.toSession py with
        | some session => .ok (.found (some session))
        | none => .error Exn.jsonDecode, db.hitl, (Prog.solo_step hconn).trans ?_, [.silent],
        by simp, (Prog.solo_step hdb).trans ?_⟩
      · change Prog.solo _ (_ <$> (match row.toSession py with
          | some session => .ret (some session)
          | none => .raise .jsonDecode : HITLProg (Option HITLSession))) _ _ = _
        cases row.toSession py <;> rfl
      · change Prog.solo _ (_ <$> ((decoded (row.toSession py)).bind _)) _ _ = _
        cases row.toSession py <;> rfl

section Demo

/-- The store over a small library. -/
abbrev demoMachine := language.machine (code demoPy)

/-- Two calls decide the session at its first version. -/
def twoDecisions : List (Machine.Act (Dated HITLCall) (ConnOp HITLOp) (Except Exn Unit)) :=
  let ok : ConnOp HITLOp → Except Exn Unit := fun _ => .ok ()
  [.spawn (.updateStatus "s" .approved 1, "t1"), .spawn (.updateStatus "s" .rejected 1, "t1"),
    .steps 0 1 ok, .steps 1 2 ok, .steps 0 1 ok]

/-- The first call has succeeded, and the session is stored as approved. -/
def decided (c : demoMachine.Config) : Bool :=
  match demoMachine.result? c 0 with
  | some ((.updateStatus "s" _ _, _), .ok (.updated true)) =>
    (c.shared.stored.get "s").any (·.status = .approved)
  | _ => false

theorem exists_decided : ∃ (c : demoMachine.Config) (now : String)
    (status : HITLSessionStatus) (v : ℕ) (row : HITLRow),
    Runs demoPy (Pool.init ⟨demoDb.hitl, demoDb.hitl⟩) c ∧
      c.At 0 (.updateStatus "s" status v, now) (.ret (.updated true)) ∧
      c.shared.stored.get "s" = some row ∧ row.status = .approved := by
  have hrun : ((demoMachine.run? (.free fun _ => True) twoDecisions
      (Pool.init ⟨demoDb.hitl, demoDb.hitl⟩)).map decided).getD false = true := by decide +kernel
  obtain ⟨c, hreach, hc⟩ := Machine.exists_reach_of_run? hrun
  unfold decided at hc
  split at hc
  · rename_i hret
    obtain ⟨row, hrow, hstatus⟩ := (Option.any_eq_true _ _).mp hc
    exact ⟨c, _, _, _, row, hreach.restarts, Machine.at_of_result? hret, hrow,
      of_decide_eq_true hstatus⟩
  · cases hc

end Demo

/-- **Stored sessions move on**: no stored session is lost, none changes its operation, and each
is what it was or later. -/
theorem stored_sessions_later (h : Runs py (Pool.init ⟨t, t⟩) c) (h' : Runs py c c') {row : HITLRow}
    (hrow : c.shared.stored.get sid = some row) {t' : HITLTable}
    (ht' : t' = c'.shared.stored ∨ t' = c'.shared.working) :
    ∃ row', t'.get sid = some row' ∧ row.Later row' ∧ HITLRecord.SameOperation row row' := by
  let R (t t' : HITLTable) : Prop := ∀ row, t.get sid = some row →
    ∃ row', t'.get sid = some row' ∧ row.Later row' ∧ HITLRecord.SameOperation row row'
  have htrans : ∀ {t₁ t₂ t₃}, R t₁ t₂ → R t₂ t₃ → R t₁ t₃ := by
    intro t₁ t₂ t₃ h₁ h₂ row hrow
    obtain ⟨row', hrow', hlater, hsame⟩ := h₁ row hrow
    obtain ⟨row'', hrow'', hlater', hsame'⟩ := h₂ row' hrow'
    refine ⟨row'', hrow'', hlater.trans hlater', ?_⟩
    exact ⟨hsame.user.trans hsame'.user, hsame.thread.trans hsame'.thread,
      hsame.call.trans hsame'.call, hsame.tool.trans hsame'.tool, hsame.args.trans hsame'.args,
      hsame.key.trans hsame'.key, hsame.deadline.trans hsame'.deadline⟩
  have hR : ∀ {s : HITLOp} {env t r t'}, language.exec s env t = some (r, t') → R t t' := by
    rintro s ⟨⟩ t r t' hexec row hrow
    obtain ⟨-, rfl⟩ := Prod.mk.inj (Option.some.inj hexec)
    obtain ⟨row', hrow', hlater⟩ := s.later hrow
    obtain ⟨row'', hrow'', hsame⟩ := HITLOp.sameOperation (o := s) hrow (.refl row)
    obtain rfl := Option.some.inj (hrow'.symm.trans hrow'')
    exact ⟨row', hrow', hlater, hsame⟩
  obtain ⟨hstored, hworking⟩ := stored_evolves (R := R)
    (fun t row hrow => ⟨row, hrow, .refl row, .refl row⟩) htrans hR h h'
  rcases ht' with rfl | rfl
  · exact hstored row hrow
  · exact hworking row hrow

/-- The session was stored as pending; a process that takes over finds it approved. -/
theorem stored_session_found : ∃ (c : demoMachine.Config) (row row' : HITLRow),
    demoDb.hitl.get "s" = some row ∧ row.status = .pending ∧
      (c.restart Shared.rollback).shared.working.get "s" = some row' ∧ row'.status = .approved ∧
      row.Later row' ∧ HITLRecord.SameOperation row row' := by
  obtain ⟨c, _, _, _, row', h, -, hrow', hstatus⟩ := exists_decided
  obtain ⟨row, hrow, hpending⟩ : ∃ row, demoDb.hitl.get "s" = some row ∧ row.status = .pending :=
    ⟨_, rfl, rfl⟩
  obtain ⟨row'', hrow'', hlater, hsame⟩ :=
    stored_sessions_later .refl (h.trans (.single (.restart c))) hrow (.inr rfl)
  obtain rfl := Option.some.inj (hrow''.symm.trans hrow')
  exact ⟨c, row, row'', hrow, hpending, hrow', hstatus, hlater, hsame⟩

/-! ### Versions -/

/-- The statement moves the session on from this version. -/
def Bumps (sid : String) (v : ℕ) : (s : HITLOp) → s.Res → Prop
  | .updateStatus sid' _ _ v', hit => sid' = sid ∧ v' = v ∧ hit = true
  | _, _ => False

theorem bumps_exec (h : Bumps sid v s r) (hexec : language.exec s () t = some (r, t')) :
    ∃ row row', t.get sid = some row ∧ row.version = v ∧ t'.get sid = some row' ∧
      row'.version = v + 1 := by
  cases s with
  | updateStatus sid' status now v' =>
    obtain ⟨rfl, rfl, rfl⟩ := h
    obtain ⟨hhit, rfl⟩ := Prod.mk.inj (Option.some.inj hexec)
    obtain ⟨row, hrow, hv, hget⟩ := HITLOp.get_updateStatus_of_hit hhit
    exact ⟨row, _, hrow, hv, hget, rfl⟩
  | insert => exact h.elim
  | select => exact h.elim
  | expireStale => exact h.elim

/-- The session is past this version. -/
def Beyond (sid : String) (v : ℕ) (t : HITLTable) : Prop :=
  ∃ row, t.get sid = some row ∧ v < row.version

/-- A version of a session. -/
def versionLatch (sid : String) (v : ℕ) : Latch language where
  taken := Beyond sid v
  takes := Bumps sid v
  kept := by
    rintro s ⟨⟩ t r t' ⟨row, hrow, hv⟩ hexec
    obtain ⟨-, rfl⟩ := Prod.mk.inj (Option.some.inj hexec)
    obtain ⟨row', hrow', hlater⟩ := s.later hrow
    exact ⟨row', hrow', Nat.lt_of_lt_of_le hv hlater.version⟩
  found := by
    rintro s ⟨⟩ t r t' hbumps hexec ⟨row, hrow, hv⟩
    obtain ⟨row', -, hrow', rfl, -⟩ := bumps_exec hbumps hexec
    obtain rfl := Option.some.inj (hrow.symm.trans hrow')
    exact Nat.lt_irrefl _ hv
  left := by
    rintro s ⟨⟩ t r t' hbumps hexec
    obtain ⟨-, row', -, -, hrow', hv'⟩ := bumps_exec hbumps hexec
    exact ⟨row', hrow', hv' ▸ Nat.lt_succ_self v⟩

/-- The call moved the session on. -/
def Updated : HITLReply → Prop
  | .updated success => success = true
  | _ => False

theorem updateStatus_saves :
    Saves (versionLatch sid v).takes Updated (code py (.updateStatus sid status v, now)) := by
  apply savesFrom_map
  exact saves_committed fun _ hhit => ⟨rfl, rfl, hhit⟩

/-- **A version is won once**: once a call of `update_status` has returned `True`, no other call at
that version of the session ever does, and the session is past it, wherever it is stored or
seen. -/
theorem version_won_once (h : Runs py (Pool.init conn) c)
    (hret : c.At i (.updateStatus sid status v, now) (.ret (.updated true))) (h' : Runs py c c') :
    (∀ j status' now', c'.At j (.updateStatus sid status' v, now') (.ret (.updated true)) →
      j = i) ∧
    ∀ t, t = c'.shared.stored ∨ t = c'.shared.working → Beyond sid v t := by
  constructor
  · intro j status' now' hret'
    exact (Latch.one updateStatus_saves updateStatus_saves h hret rfl h' hret' rfl).symm
  · exact fun t ht => Latch.taken_of_returned updateStatus_saves h hret rfl h' ht

/-- A process that takes over finds the session decided. -/
theorem decision_found : ∃ (c : demoMachine.Config) (sid now : String)
    (status : HITLSessionStatus) (v : ℕ),
    c.At 0 (.updateStatus sid status v, now) (.ret (.updated true)) ∧
      Beyond sid v (c.restart Shared.rollback).shared.working := by
  obtain ⟨c, now, status, v, _, h, hret, -⟩ := exists_decided
  exact ⟨c, "s", now, status, v, hret,
    (version_won_once h hret (.single (.restart c))).2 _ (.inr rfl)⟩

end HITLConnection

end BankingAgent
