import BankingAgent.ApprovalProtocol
import BankingAgent.GrantLifecycle

/-!
# An approval dispatches at most once

The grant is a one-shot token. The only way to the tool call leads through
`APPROVED → CONSUMING`, one conditional `UPDATE`, and no statement leads back from
there to `PENDING` or `APPROVED`. So whatever runs at the same time, and wherever
the process dies, one session sees one dispatch at most.
-/

namespace BankingAgent

open Async

/-- The entry is a tool call made by `approve` for the session. -/
def IsDispatch (sid : String) (e : LogEntry Call) : Bool :=
  match e.call, e.op with
  | .approve sid' _, .callTool _ _ => sid' = sid
  | _, _ => false

theorem isDispatch_iff {sid : String} {e : LogEntry Call} :
    IsDispatch sid e = true ↔
      (∃ ctx, e.call = .approve sid ctx) ∧ ∃ site call, e.op = .callTool site call := by
  obtain ⟨i, c, o, env, r⟩ := e
  cases c <;> cases o <;> simp [IsDispatch]

/-- The number of tool calls `approve` has made for the session. -/
def dispatches (sid : String) (h : List (LogEntry Call)) : ℕ := h.countP (IsDispatch sid)

/-- The positions from the claim to the tool call. -/
def Pos.Holds : Pos → Prop
  | consuming _ => True
  | claimed _ _ => True
  | looked _ _ _ => True
  | reserving _ _ _ => True
  | reserved _ _ _ => True
  | _ => False

/-- The grant of a session, as a token. -/
def grantToken (dep : Deployment) (sid : String) :
    (service dep).OneShot (Move dep.py) (fun _ => .start) where
  spent := GrantSpent sid
  holds call p := (∃ ctx, call = .approve sid ctx) ∧ p.Holds
  uses := IsDispatch sid
  start_free _ h := h.2
  spent_mono _ he hs := hs.exec he
  holds_of move he h := by
    obtain ⟨⟨ctx, rfl⟩, hq⟩ := h
    cases move with
    | consume now => exact .inr (GrantUpdate.spends_of_consume he)
    | idle => exact .inl ⟨⟨ctx, rfl⟩, hq⟩
    | claim => exact .inl ⟨⟨ctx, rfl⟩, trivial⟩
    | lookupNone => exact .inl ⟨⟨ctx, rfl⟩, trivial⟩
    | lookupFailed => exact .inl ⟨⟨ctx, rfl⟩, trivial⟩
    | reserve => exact .inl ⟨⟨ctx, rfl⟩, trivial⟩
    | reread => exact .inl ⟨⟨ctx, rfl⟩, trivial⟩
    | _ => exact hq.elim
  uses_of move hu := by
    obtain ⟨⟨ctx, rfl⟩, site, call, ho⟩ := isDispatch_iff.mp hu
    cases move with
    | dispatch answer hargs => exact ⟨⟨⟨ctx, rfl⟩, trivial⟩, fun h => h.2⟩
    | idle r quiet => subst ho; exact quiet.elim
    | _ => cases ho

/-- **At most once.** For every session, any number of concurrent `approve` and
`reject` calls and expiry sweeps, every interleaving at the statements of the
stores, crashes anywhere, and every answer of the actor resolver and the tool
server, from every database: `approve` makes at most one tool call for the
session. -/
theorem approve_dispatches_at_most_once (dep : Deployment) (sid : String) {db : Db}
    {c : (service dep).Config}
    (run : (service dep).Reach (.crashing Call.IsDecision) (Pool.init db) c) :
    dispatches sid c.hist ≤ 1 :=
  (grantToken dep sid).count_le_one (decision_follows dep) run

/-- Two operators approve at the same time while the sweep runs; the process dies,
and a third operator tries again. -/
def raceSchedule : List (Machine.Act Call Op Env) :=
  let go := demoEnv demoSuccess
  [.spawn (.approve "s" none), .spawn (.approve "s" none), .spawn .expireStaleSessions,
    .steps 0 3 go, .steps 1 20 go, .steps 2 2 go, .steps 0 20 go, .steps 1 20 go, .crash,
    .spawn (.approve "s" none), .steps 3 20 go]

/-- In that race the tool is called, and called once. -/
theorem approve_dispatches_once_in_race :
    ∃ c : (service demo).Config, dispatches "s" c.hist = 1 ∧ dispatches "s" c.hist ≤ 1 := by
  have hrun : (((service demo).run? (.crashing Call.IsDecision) raceSchedule
    (Pool.init demoDb)).map fun c => decide (dispatches "s" c.hist = 1)).getD false = true := rfl
  obtain ⟨c, run, hc⟩ := Machine.exists_reach_of_run? hrun
  exact ⟨c, of_decide_eq_true hc, approve_dispatches_at_most_once demo "s" run⟩

end BankingAgent
