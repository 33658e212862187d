import BankingAgent.DispatchBinding
import BankingAgent.PendingApprovals
import BankingAgent.Server

/-!
# Maker and checker

An approval writes the approving actor into the grant, next to the user who requested the
operation. Nobody compares the two: `ApprovalRequirement.distinct_from_requester` is used
nowhere. Once it is approved, neither of them changes any more, so that what is dispatched
was approved by somebody else if no approval was given by the requester.
-/

namespace BankingAgent

open Async

/-- The grant has been approved, whatever has become of it since, short of a rejection. -/
def GrantStatus.Granted : GrantStatus → Prop
  | approved => True
  | consuming => True
  | consumed => True
  | failed => True
  | unknown => True
  | _ => False

/-- The grant has been claimed for a dispatch. -/
def GrantStatus.Claimed : GrantStatus → Prop
  | consuming => True
  | consumed => True
  | failed => True
  | unknown => True
  | _ => False

theorem GrantStatus.Claimed.granted {s : GrantStatus} (h : s.Claimed) : s.Granted := by
  cases s <;> first | exact trivial | exact h.elim

/-- A claimed grant stays claimed. -/
theorem GrantStatus.Claimed.edge {s s' : GrantStatus} (h : s.Claimed) (he : GrantEdge s s') :
    s'.Claimed := by
  cases he <;> first | exact trivial | exact h.elim

/-- Only an approval makes a granted status of one that is not. -/
theorem GrantMove.granted {u : GrantUpdate} {s s' : GrantStatus} (h : GrantMove u s s')
    (hs' : s'.Granted) : s.Granted ∨ ∃ sid actorId v now, u = .approvePending sid actorId v now := by
  cases h with
  | consume => exact .inl trivial
  | approvePending sid actorId v now => exact .inr ⟨sid, actorId, v, now, rfl⟩
  | @mark m s _ _ ha =>
    cases m with
    | rejected => exact hs'.elim
    | reconciliationRequired => exact hs'.elim
    | _ =>
      obtain rfl := of_decide_eq_true ha
      exact .inl trivial

/-- Whoever approved a grant had not requested it. -/
def GrantsSeparated (db : Db) : Prop :=
  ∀ sid g, db.grants.get sid = some g → g.status.Granted →
    g.approvingActorId ≠ g.requestingUserId

/-- The grant of the session is claimed. -/
def GrantClaimed (sid : String) (db : Db) : Prop :=
  ∃ g, db.grants.get sid = some g ∧ g.status.Claimed

/-- The entry is an approval of a grant by the user who requested it. -/
def approvesOwn (db : Db) (e : LogEntry Request) : Bool :=
  match e.op with
  | .grant (.update (.approvePending sid actorId v now)) =>
    (db.grants.get sid).any fun g =>
      (GrantRecord.approvePending actorId v now).guard g && actorId = g.requestingUserId
  | _ => false

/-- Any requests, as long as nobody approves what he requested himself. -/
def separately : Discipline Db Request (LogEntry Request) where
  start _ := True
  crash := True
  sequential := False
  ok db _ e := approvesOwn db e = false

section Decidable

instance : DecidablePred separately.start := fun _ => instDecidableTrue

instance : Decidable separately.crash := instDecidableTrue

instance : Decidable separately.sequential := instDecidableFalse

instance (db : Db) (h : List (LogEntry Request)) (e : LogEntry Request) :
    Decidable (separately.ok db h e) :=
  inferInstanceAs (Decidable (approvesOwn db e = false))

end Decidable

/-- What the executor dispatches for a session was approved by another user than the one who
requested it. -/
def MakerChecker {rt : AgentRuntime} (c : rt.server.Config) : Prop :=
  ∀ e ∈ c.hist, ∀ sid key call, e.op = .callTool (.executor sid key) call →
    ∃ g, c.shared.grants.get sid = some g ∧ g.approvingActorId ≠ g.requestingUserId

/-! ## What one statement does -/

/-- Where the grant of a session comes from. -/
theorem GrantOp.get_exec_cases {o : GrantOp} {t : GrantTable} {sid : String} {g' : GrantRecord}
    (h : (o.exec t).2.get sid = some g') :
    t.get sid = some g' ∨ (∃ new : GrantRecord, g' = new.pendingRow) ∨
      ∃ u g, o = .update u ∧ u.sessionId = sid ∧ t.get sid = some g ∧
        u.change.guard g = true ∧ g' = u.change.set g := by
  cases hg : t.get sid with
  | some g =>
    rcases GrantOp.get_exec (o := o) hg with hget | ⟨u, ho, hsid, hguard, hget⟩
    · exact .inl (hget.symm.trans h)
    · exact .inr (.inr ⟨u, g, ho, hsid, rfl, hguard, Option.some.inj (h.symm.trans hget)⟩)
  | none =>
    cases o with
    | selectConsuming => exact .inl (hg.symm.trans h)
    | select => exact .inl (hg.symm.trans h)
    | update u =>
      rw [GrantOp.exec] at h
      cases hit : (t.update u.sessionId u.change).1 with
      | false => exact .inl (hg.symm.trans ((Sql.Table.get_update_of_miss hit).symm.trans h))
      | true =>
        obtain ⟨g, hg', -, -, -⟩ := GrantUpdate.get_of_hit hit
        by_cases hsid : sid = u.sessionId
        · rw [← hsid, hg] at hg'
          cases hg'
        · exact .inl (hg.symm.trans ((Sql.Table.get_update_of_ne hsid).symm.trans h))
    | insertPending new =>
      cases hit : ((GrantOp.insertPending new).exec t).1 with
      | true =>
        rw [(GrantOp.get_insertPending_of_accepted hit).2] at h
        split at h
        · exact .inr (.inl ⟨new, (Option.some.inj h).symm⟩)
        · exact .inl (hg.symm.trans h)
      | false =>
        rw [GrantOp.exec] at h hit
        split at h
        · rename_i hcheck
          rw [if_pos hcheck] at hit
          exact .inl (hg.symm.trans ((congrArg (·.get sid)
            (Sql.Table.get_insert_of_refused hit)).symm.trans h))
        · exact .inl (hg.symm.trans h)

section Exec

variable {db db' : Db} {i : ℕ} {req : Request} {o : Op} {env : Env} {r : o.Res}

/-- Separation is kept by every operation but an approval by the requester. -/
theorem GrantsSeparated.exec (h : GrantsSeparated db) (he : exec o env db = some (r, db'))
    (hown : approvesOwn db ⟨i, req, o, env, r⟩ = false) : GrantsSeparated db' := by
  intro sid g' hg' hgranted
  rw [exec_grantsAfter he] at hg'
  cases o with
  | grant o =>
    rcases GrantOp.get_exec_cases hg' with hg | ⟨new, rfl⟩ | ⟨u, g, rfl, rfl, hg, hguard, rfl⟩
    · exact h sid g' hg hgranted
    · exact hgranted.elim
    · rcases (u.move hguard).granted hgranted with hs | ⟨sid, actorId, v, now, rfl⟩
      · -- an approved grant keeps its actor and its user
        rw [← (u.sameOperation g).user]
        rcases (u.evolves hguard).actor with hactor | ⟨hpending, -⟩
        · rw [hactor]
          exact h _ g hg hs
        · rw [hpending] at hs
          exact hs.elim
      · rintro (hactor : actorId = g.requestingUserId)
        have hg : db.grants.get sid = some g := hg
        simp only [approvesOwn, hg, Option.any_some, Bool.and_eq_false_iff] at hown
        rcases hown with hno | hno
        · exact absurd (hguard.symm.trans hno) (by decide)
        · exact absurd hactor (of_decide_eq_false hno)
  | _ => exact h sid g' hg' hgranted

theorem GrantClaimed.exec {sid : String} (h : GrantClaimed sid db)
    (he : exec o env db = some (r, db')) : GrantClaimed sid db' := by
  obtain ⟨g, hg, hclaimed⟩ := h
  rw [GrantClaimed, exec_grantsAfter he]
  cases o with
  | grant o =>
    obtain ⟨g', hg', hev⟩ := o.evolves hg
    refine ⟨g', hg', ?_⟩
    rcases hev.status with heq | hedge
    · rw [heq]
      exact hclaimed
    · exact hclaimed.edge hedge
  | _ => exact ⟨g, hg, hclaimed⟩

end Exec

/-! ## Every run -/

/-- From the claim to the dispatch the grant is claimed. -/
def Pos.KnowsClaimed (req : Request) (db : Db) (p : Pos) : Prop :=
  ∀ sid ctx, req.decision? = some (.approve sid ctx) → p.Holds → GrantClaimed sid db

/-- What a request does leaves it with what it knows; what it dispatches was claimed. -/
theorem ServerMove.knowsClaimed {py : PyLib} {req : Request} {p q : Pos} {o : Op} {r : o.Res}
    {env : Env} {db db' : Db} (move : ServerMove py req p o r q)
    (he : exec o env db = some (r, db')) (hp : p.KnowsClaimed req db) :
    q.KnowsClaimed req db' ∧
      ∀ sid key call, o = .callTool (.executor sid key) call → GrantClaimed sid db' := by
  cases move with
  | agent r byAgent =>
    refine ⟨fun sid ctx hdec hold => (hp sid ctx hdec hold).exec he, ?_⟩
    rintro sid key call rfl
    exact absurd rfl (byAgent sid key)
  | decide dec move =>
    have keep (hold : q.Holds → p.Holds) : q.KnowsClaimed req db' :=
      fun sid ctx hdec hq => (hp sid ctx hdec (hold hq)).exec he
    cases move with
    | consume now =>
      obtain ⟨hr, rfl⟩ := exec_grant he
      obtain ⟨g, -, -, hget, hmove⟩ := GrantUpdate.get_of_hit hr.symm
      refine ⟨fun sid ctx hdec _ => ?_, nofun⟩
      rw [dec] at hdec
      cases hdec
      exact ⟨_, hget, trivial⟩
    | dispatch answer hargs =>
      refine ⟨keep fun _ => trivial, ?_⟩
      rintro sid key call ⟨⟩
      exact (hp _ _ dec trivial).exec he
    | idle r quiet => exact ⟨keep id, by rintro sid key call rfl; exact quiet.elim⟩
    | claim => exact ⟨keep fun _ => trivial, nofun⟩
    | lookupNone => exact ⟨keep fun _ => trivial, nofun⟩
    | lookupFailed => exact ⟨keep fun _ => trivial, nofun⟩
    | reserve => exact ⟨keep fun _ => trivial, nofun⟩
    | reread => exact ⟨keep fun _ => trivial, nofun⟩
    | _ => exact ⟨keep False.elim, nofun⟩

/-- What is dispatched has been claimed, and what has been approved was approved by another
user than the one who requested it. -/
def makerOutline (rt : AgentRuntime) :
    rt.server.Outline separately (ServerMove rt.py) (fun _ => .start) where
  inv db h := GrantsSeparated db ∧
    ∀ e ∈ h, ∀ sid key call, e.op = .callTool (.executor sid key) call → GrantClaimed sid db
  asserts db _ _ req p := p.KnowsClaimed req db
  owns _ _ := False
  entry _ _ _ := ⟨fun _ _ _ hold => hold.elim, id⟩
  step hinv hp move he hok := by
    obtain ⟨hsep, hhist⟩ := hinv
    obtain ⟨hq, hnew⟩ := move.knowsClaimed he hp
    refine ⟨⟨hsep.exec he hok, List.forall_mem_cons.mpr ⟨hnew, ?_⟩⟩, hq⟩
    exact fun e hmem sid key call hop => (hhist e hmem sid key call hop).exec he
  free _ _ hp _ he _ _ _ := fun sid ctx hdec hold => (hp sid ctx hdec hold).exec he
  excl _ _ _ _ _ ho _ := ho.elim

/-- **Maker and checker are two**, in every run of any requests by any users, with approvals
by any actors and crashes anywhere, in which nobody approves what he requested himself. -/
theorem maker_checker {rt : AgentRuntime} {db : Db} {c : rt.server.Config}
    (hdb : GrantsSeparated db) (run : rt.server.Reach separately (Pool.init db) c) :
    MakerChecker c := by
  obtain ⟨hsep, hhist⟩ := (makerOutline rt).sound_inv (fun req _ => serve_follows rt req)
    ⟨hdb, fun _ he => absurd he List.not_mem_nil⟩ run
  intro e he sid key call hop
  obtain ⟨g, hg, hclaimed⟩ := hhist e he sid key call hop
  exact ⟨g, hg, hsep sid g hg hclaimed.granted⟩

/-! ## Two approvals of one request -/

/-- The request for a transfer is served, then the approval, up to the call of the tool. -/
def requestedAndApproved (actorId : String) : List (Machine.Act Request Op Env) :=
  let go : Op → Env
    | .resolveActor _ => .actor (some ⟨actorId, "test"⟩)
    | o => waitingEnv o
  [.spawn (.agent transferRequest), .steps 0 40 go, .spawn (.approve "s" "run-2"), .steps 1 17 go]

/-- The executor has called a tool for the session. -/
def executorCalled (sid : String) (h : List (LogEntry Request)) : Bool :=
  h.any fun e =>
    match e.op with
    | .callTool (.executor sid' _) _ => sid' = sid
    | _ => false

theorem exists_of_executorCalled {sid : String} {h : List (LogEntry Request)}
    (hcalled : executorCalled sid h = true) :
    ∃ e ∈ h, ∃ key call, e.op = .callTool (.executor sid key) call := by
  obtain ⟨⟨i, req, o, env, r⟩, he, hop⟩ := List.any_eq_true.mp hcalled
  refine ⟨_, he, ?_⟩
  cases o with
  | callTool site call =>
    cases site with
    | executor sid' key =>
      obtain rfl := of_decide_eq_true hop
      exact ⟨key, call, rfl⟩
    | _ => cases hop
  | _ => cases hop

/-- Somebody else approves: the transfer is dispatched, and maker and checker are two. -/
theorem maker_checker_operator :
    ∃ c : demoRuntime.server.Config, demoRuntime.server.Reach separately (Pool.init Db.empty) c ∧
      executorCalled "s" c.hist = true ∧ MakerChecker c := by
  have hrun : ((demoRuntime.server.run? separately (requestedAndApproved "operator")
    (Pool.init Db.empty)).map fun c => executorCalled "s" c.hist).getD false = true := by
    decide +kernel
  obtain ⟨c, run, hcalled⟩ := Machine.exists_reach_of_run?
    (P := fun c => executorCalled "s" c.hist) hrun
  exact ⟨c, run, hcalled, maker_checker (by rintro sid g ⟨⟩) run⟩

/-- Whoever approved the grant of the session had requested it. -/
def selfApproved (sid : String) (db : Db) : Bool :=
  (db.grants.get sid).any fun g => g.approvingActorId = g.requestingUserId

/-- The customer approves her own transfer, and it is dispatched. -/
theorem customer_approves_own_transfer :
    ∃ c : demoRuntime.server.Config,
      demoRuntime.server.Reach (.crashing fun _ => True) (Pool.init Db.empty) c ∧
        ¬ MakerChecker c := by
  have hrun : ((demoRuntime.server.run? (.crashing fun _ => True) (requestedAndApproved "alice")
    (Pool.init Db.empty)).map fun c => executorCalled "s" c.hist &&
      selfApproved "s" c.shared).getD false = true := by decide +kernel
  obtain ⟨c, run, hc⟩ := Machine.exists_reach_of_run?
    (P := fun c => executorCalled "s" c.hist && selfApproved "s" c.shared) hrun
  obtain ⟨hcalled, hown⟩ := (Bool.and_eq_true _ _).mp hc
  refine ⟨c, run, fun hseparate => ?_⟩
  obtain ⟨e, he, key, call, hop⟩ := exists_of_executorCalled hcalled
  obtain ⟨g, hg, hne⟩ := hseparate e he "s" key call hop
  rw [selfApproved, hg, Option.any_some] at hown
  exact hne (of_decide_eq_true hown)

end BankingAgent
