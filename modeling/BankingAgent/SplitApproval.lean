import BankingAgent.DispatchOnce
import BankingAgent.StoreConnections
import BankingAgent.Sql.Split

/-!
# Decisions on connections that fail

The decision calls as they run on the connections of the stores: a statement and its commit are two
steps, each may fail, any call's commit stores what the others have changed through the same store,
and a process that dies takes with it what nobody has committed. An exception of a store ends the
call, but one of the event log is caught.

* `decision_alone` — where nothing fails and nothing comes between, a decision does what it does
  where a statement and its commit are one step.
* `dispatched_once_for_good` — a session sees one dispatch at most, over all processes; and once
  there was one, a grant that can no longer be claimed is stored.
-/

namespace BankingAgent

open Async Sql

/-- The stores that have a connection. -/
inductive StoreConn : Type where
  | hitl
  | grants
  | idem
  | events
  | threads

/-- The operations, taken apart. A refused `INSERT` raises before its commit, and a `SELECT` has
none. `_persist_event` catches what the event log raises. -/
def storeSplitting : Splitting Op Op.Res Db StoreConn where
  conn
    | .hitl _ => some .hitl
    | .grant _ => some .grants
    | .idem _ => some .idem
    | .event _ => some .events
    | .thread _ => some .threads
    | _ => none
  commits
    | .hitl (.insert _), accepted => accepted
    | .hitl (.select _), _ => false
    | .hitl (.updateStatus _ _ _ _), _ => true
    | .hitl (.expireStale _), _ => true
    | .grant (.insertPending _), accepted => accepted
    | .grant (.selectConsuming _), _ => false
    | .grant (.select _), _ => false
    | .grant (.update _), _ => true
    | .idem (.reserve _ _ _ _), _ => true
    | .idem (.select _), _ => false
    | .idem (.update _ _), _ => true
    | .event _, accepted => accepted
    | .thread (.load _), _ => false
    | .thread (.save _), _ => true
    | _, _ => false
  caught
    | .event _ => some false
    | _ => none
  save
    | .hitl, stored, working => { stored with hitl := working.hitl }
    | .grants, stored, working => { stored with grants := working.grants }
    | .idem, stored, working => { stored with idem := working.idem }
    | .events, stored, working => { stored with events := working.events }
    | .threads, stored, working => { stored with threads := working.threads }

theorem EventTable.insert_refused {t t' : EventTable} {e : AgentEvent}
    (h : t.insert e = (false, t')) : t' = t := by
  rw [EventTable.insert] at h
  split at h
  · exact (Prod.mk.inj h).2.symm
  · cases h

/-- What has no commit changes nothing. -/
theorem unchanged_of_uncommitted {o : Op} {env : Env} {r : o.Res} {db db' : Db}
    (hquiet : ¬ ((storeSplitting.conn o).isSome ∧ storeSplitting.commits o r = true))
    (h : exec o env db = some (r, db')) : db' = db := by
  cases o with
  | hitl o =>
    obtain ⟨rfl, rfl⟩ := exec_hitl h
    cases o with
    | insert row =>
      have hrefused : ((HITLOp.insert row).exec db.hitl).1 = false :=
        Bool.eq_false_iff.mpr fun hacc => hquiet ⟨rfl, hacc⟩
      have hsame : ((HITLOp.insert row).exec db.hitl).2 = db.hitl :=
        Table.get_insert_of_refused hrefused
      rw [hsame]
    | select => rfl
    | updateStatus => exact absurd ⟨rfl, rfl⟩ hquiet
    | expireStale => exact absurd ⟨rfl, rfl⟩ hquiet
  | grant o =>
    obtain ⟨rfl, rfl⟩ := exec_grant h
    cases o with
    | insertPending g =>
      have hrefused : ((GrantOp.insertPending g).exec db.grants).1 = false :=
        Bool.eq_false_iff.mpr fun hacc => hquiet ⟨rfl, hacc⟩
      have hsame : ((GrantOp.insertPending g).exec db.grants).2 = db.grants :=
        GrantConnection.insertPending_refused (Prod.ext hrefused rfl)
      rw [hsame]
    | selectConsuming => rfl
    | select => rfl
    | update => exact absurd ⟨rfl, rfl⟩ hquiet
  | idem o =>
    obtain ⟨rfl, rfl⟩ := exec_idem h
    cases o with
    | reserve => exact absurd ⟨rfl, rfl⟩ hquiet
    | select => rfl
    | update => exact absurd ⟨rfl, rfl⟩ hquiet
  | event e =>
    cases env <;> cases h
    have hrefused : (db.events.insert e).1 = false :=
      Bool.eq_false_iff.mpr fun hacc => hquiet ⟨rfl, hacc⟩
    have hsame : (db.events.insert e).2 = db.events :=
      EventTable.insert_refused (Prod.ext hrefused rfl)
    rw [hsame]
  | thread o =>
    cases env <;> cases h
    cases o with
    | load => rfl
    | save => exact absurd ⟨rfl, rfl⟩ hquiet
  | _ =>
    cases env <;> cases h
    rfl

/-- What has one changes the store of its connection, and no other. -/
theorem saved_of_conn {o : Op} {env : Env} {r : o.Res} {db db' : Db} {k : StoreConn}
    (hconn : storeSplitting.conn o = some k) (h : exec o env db = some (r, db')) :
    storeSplitting.save k db db' = db' := by
  cases o with
  | hitl o =>
    obtain rfl := Option.some.inj hconn
    obtain ⟨-, rfl⟩ := exec_hitl h
    rfl
  | grant o =>
    obtain rfl := Option.some.inj hconn
    obtain ⟨-, rfl⟩ := exec_grant h
    rfl
  | idem o =>
    obtain rfl := Option.some.inj hconn
    obtain ⟨-, rfl⟩ := exec_idem h
    rfl
  | event e =>
    obtain rfl := Option.some.inj hconn
    obtain rfl := exec_event h
    rfl
  | thread o =>
    obtain rfl := Option.some.inj hconn
    cases env <;> cases h
    rfl
  | _ => cases hconn

/-- The operations of the service fall apart without remainder. -/
theorem storeSplitting_whole (dep : Deployment) : storeSplitting.Whole (service dep) :=
  ⟨unchanged_of_uncommitted, fun hconn _ h => saved_of_conn hconn h⟩

/-- **Alone**, and where nothing fails, a decision does what it does in one piece. -/
theorem decision_alone (dep : Deployment) (call : Call) {envs : List Env} {db db' : Db}
    {out : Except Exn Reply} (h : (code dep call).solo exec envs db = some (out, db')) :
    ∃ envs' : List (Except Exn Env), (∀ env ∈ envs', ∃ e, env = .ok e) ∧
      (storeSplitting.split (code dep call)).solo (storeSplitting.machine (service dep)).exec envs'
        ⟨db, db⟩ = some (out, ⟨db', db'⟩) :=
  Splitting.solo_split (storeSplitting_whole dep) h

/-- The grant of a session lies on the connection of its repository. -/
theorem grantToken_on (dep : Deployment) (sid : String) :
    storeSplitting.OneShotOn (grantToken dep sid) .grants where
  taken := by
    rintro call p o r q move ⟨⟨ctx, rfl⟩, hq⟩ hp
    cases move with
    | consume now => exact ⟨rfl, rfl⟩
    | idle => exact absurd ⟨⟨ctx, rfl⟩, hq⟩ hp
    | claim => exact absurd ⟨⟨ctx, rfl⟩, trivial⟩ hp
    | lookupNone => exact absurd ⟨⟨ctx, rfl⟩, trivial⟩ hp
    | lookupFailed => exact absurd ⟨⟨ctx, rfl⟩, trivial⟩ hp
    | reserve => exact absurd ⟨⟨ctx, rfl⟩, trivial⟩ hp
    | reread => exact absurd ⟨⟨ctx, rfl⟩, trivial⟩ hp
    | _ => exact hq.elim
  caught_apart := by
    intro o hcaught hconn
    cases o with
    | event e => cases hconn
    | _ => cases hcaught
  caught_holds := by
    intro call p o r q hcaught move
    cases o with
    | event e =>
      -- a decision stays where it is when it logs
      cases move
      exact Iff.rfl
    | _ => cases hcaught
  save_own := Iff.rfl
  save_other := by
    intro k stored working hk
    cases k with
    | grants => exact absurd rfl hk
    | _ => exact Iff.rfl

/-- The tool calls that `approve` has made for the session. -/
def toolCalls (sid : String)
    (h : List (Splitting.SplitLine Op.Res StoreConn Exn Call Env)) : ℕ :=
  h.countP fun e => (Splitting.whole? e).any (IsDispatch sid)

/-- **Dispatched once, for good**: over any number of decisions that run side by side, statements
and commits that fail, and processes that die with work that nobody has committed, `approve` makes
at most one tool call for a session. Where it has made one, the grant is stored as spent. -/
theorem dispatched_once_for_good (dep : Deployment) (sid : String) {db : Db}
    {c : (storeSplitting.machine (service dep)).Config}
    (h : storeSplitting.Runs (service dep) Call.IsDecision (Pool.init ⟨db, db⟩) c) :
    toolCalls sid c.hist ≤ 1 ∧ (toolCalls sid c.hist ≠ 0 → GrantSpent sid c.shared.stored) := by
  have hkept := Splitting.tokenKept_of_runs (grantToken_on dep sid) (decision_follows dep) h
  exact ⟨hkept.once, hkept.used⟩

/-- Everybody agrees, but the event log is out of order. -/
def demoFailing : SplitOp Op StoreConn → Except Exn Env
  | .perform (.event _) => .error (.remote "disk I/O error")
  | .perform o => .ok (demoEnv demoSuccess o)
  | .commit _ => .ok .silent

/-- Two operators approve at the same time: the second one comes when the first has claimed the
grant. -/
def twoApprovals : List (Machine.Act Call (SplitOp Op StoreConn) (Except Exn Env)) :=
  [.spawn (.approve "s" none), .spawn (.approve "s" none), .steps 0 11 demoFailing,
    .steps 1 20 demoFailing, .steps 0 40 demoFailing]

/-- The tool is called; a process that takes over calls it no more. -/
theorem dispatched_before_restart :
    ∃ c : (storeSplitting.machine (service demo)).Config, toolCalls "s" c.hist = 1 ∧
      GrantSpent "s" (c.restart Shared.rollback).shared.working := by
  have hrun : (((storeSplitting.machine (service demo)).run? (.free Call.IsDecision) twoApprovals
      (Pool.init ⟨demoDb, demoDb⟩)).map fun c =>
        decide (toolCalls "s" c.hist = 1)).getD false = true := by decide +kernel
  obtain ⟨c, hreach, hc⟩ := Machine.exists_reach_of_run? hrun
  have hone : toolCalls "s" c.hist = 1 := of_decide_eq_true hc
  have hspent := (dispatched_once_for_good demo "s" hreach.restarts).2
  exact ⟨c, hone, hspent (by rw [hone]; exact Nat.one_ne_zero)⟩

end BankingAgent
