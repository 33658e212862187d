import BankingAgent.SessionLock
import BankingAgent.DispatchOnce

/-!
# Rejection and dispatch

A dispatch is made by the owner of the session, so the session is `APPROVED` at that
moment; a rejection leaves it `REJECTED`. Neither status is given up for the other
one, with one exception: `is_terminal` does not list `RESUMED`, so a session whose
operation was carried out can still be rejected. Where no such rejection happens, the
two exclude each other.
-/

namespace BankingAgent

open Async

/-- The entry is the successful rejection of the session. -/
def IsRejection (sid : String) (e : LogEntry Call) : Bool :=
  match e with
  | ⟨_, .reject sid' _, .hitl (.updateStatus _ .rejected _ _), _, hit⟩ => sid' = sid && hit
  | _ => false

/-- A `reject` call on the session has returned `"rejected"`. -/
def ReturnedRejected (dep : Deployment) (sid : String) (c : (service dep).Config) : Prop :=
  ∃ i ctx r, c.At i (.reject sid ctx) (.ret (.approval r)) ∧ r.decision = .rejected

/-- The claim about a pool: not both a dispatch and a rejection, and no dispatched
session is `REJECTED`. -/
def Exclusive (dep : Deployment) (sid : String) (c : (service dep).Config) : Prop :=
  ¬ (dispatches sid c.hist ≠ 0 ∧ ReturnedRejected dep sid c) ∧
    (dispatches sid c.hist ≠ 0 → ¬ SessionHas sid c.shared (· = .rejected))

/-- The step rejects a session that has been carried out. -/
def rejectsResumed (db : Db) (e : LogEntry Call) : Bool :=
  match e.op with
  | .hitl (.updateStatus sid .rejected _ v) =>
    match db.hitl.get sid with
    | some row => row.version = v && row.status = .resumed
    | none => false
  | _ => false

/-- Every interleaving of decisions and sweeps in which no resumed session is
rejected. -/
def sparingResumed : Discipline Db Call (LogEntry Call) :=
  { (Discipline.free Call.IsDecision : Discipline Db Call (LogEntry Call)) with
    ok := fun db _ e => rejectsResumed db e = false }

instance : DecidablePred sparingResumed.start := inferInstanceAs (DecidablePred Call.IsDecision)

instance : Decidable sparingResumed.crash := instDecidableFalse

instance : Decidable sparingResumed.sequential := instDecidableFalse

instance (db : Db) (h : List (LogEntry Call)) (e : LogEntry Call) :
    Decidable (sparingResumed.ok db h e) :=
  inferInstanceAs (Decidable (rejectsResumed db e = false))

/-- What a call on the session knows about dispatches and rejections. -/
structure Pos.Exclusion (sid : String) (db : Db) (h : List (LogEntry Call)) (p : Pos) : Prop where
  /-- after a dispatch, whoever is to decide at the stored version has read `RESUMED` -/
  fresh : ∀ s, p.fresh? = some s → dispatches sid h ≠ 0 → s.status = .resumed ∨
    ∃ row, db.hitl.get sid = some row ∧ s.version < row.version
  /-- a call that returns `"rejected"` has rejected the session -/
  rejecting : (∃ s, p = .rejecting s) ∨ p = .rejected → h.any (IsRejection sid) = true

section

variable {dep : Deployment} {sid : String} {call : Call} {p q : Pos} {o : Op} {r : o.Res}
  {env : Env} {db db' : Db} {h : List (LogEntry Call)} {i : ℕ}

theorem RowChange.version_le {row row' : HITLRow} (hch : RowChange sid call p o row row') :
    row.version ≤ row'.version := by
  cases hch with
  | same => exact Nat.le_refl _
  | swept => exact Nat.le_refl _
  | decided _ _ _ _ hv => exact hv.symm ▸ Nat.le_succ _
  | closed _ _ _ _ hv => exact hv.symm ▸ Nat.le_succ _

theorem dispatches_cons_of_not {e : LogEntry Call} (he : ¬ IsDispatch sid e = true) :
    dispatches sid (e :: h) = dispatches sid h := List.countP_cons_of_neg he

/-- A dispatch is made by the owner, who stays the owner, and writes nothing. -/
theorem Move.of_isDispatch (move : Move dep.py call p o r q)
    (hd : IsDispatch sid ⟨i, call, o, env, r⟩ = true) :
    call.Decides sid ∧ p.owner?.isSome ∧ q.fresh? = none ∧ o.onHitl = false := by
  obtain ⟨⟨ctx, rfl⟩, site, tc, ho⟩ := isDispatch_iff.mp hd
  cases move with
  | dispatch => exact ⟨rfl, rfl, rfl, rfl⟩
  | idle r quiet => subst ho; exact quiet.elim
  | _ => cases ho

theorem exec_not_onHitl (ho : o.onHitl = false) (he : exec o env db = some (r, db')) :
    db'.hitl = db.hitl := by
  rw [exec_hitlAfter he]
  cases o with
  | hitl => cases ho
  | _ => rfl

/-- At the moment of the dispatch the session is `APPROVED`. -/
theorem Pos.Lock.at_dispatch (hp : call.Decides sid → p.Lock sid db)
    (move : Move dep.py call p o r q) (he : exec o env db = some (r, db'))
    (hd : IsDispatch sid ⟨i, call, o, env, r⟩ = true) : SessionHas sid db' (· = .approved) := by
  obtain ⟨dec, hown, -, ho⟩ := move.of_isDispatch hd
  obtain ⟨s, hs⟩ := Option.isSome_iff_exists.mp hown
  obtain ⟨row, hrow, happ, -⟩ := (hp dec).owner s hs
  exact ⟨row, by rw [exec_not_onHitl ho he, hrow], happ⟩

/-- What is left of a dispatched session is neither `REJECTED` nor `PENDING`. -/
theorem SessionHas.after_dispatch (hok : rejectsResumed db ⟨i, call, o, env, r⟩ = false)
    (hs : SessionHas sid db (fun st => st ≠ .rejected ∧ st ≠ .pending))
    (hd : dispatches sid h ≠ 0) (hp : call.Decides sid → p.Lock sid db)
    (hx : call.Decides sid → p.Exclusion sid db h)
    (move : Move dep.py call p o r q) (he : exec o env db = some (r, db')) :
    SessionHas sid db' (fun st => st ≠ .rejected ∧ st ≠ .pending) := by
  obtain ⟨row, hrow, hne⟩ := hs
  obtain ⟨row', hrow', hch⟩ := move.row he hrow
  refine ⟨row', hrow', ?_⟩
  cases hch with
  | same => exact hne
  | swept => exact ⟨nofun, nofun⟩
  | closed _ _ _ hst => rcases hst with rfl | rfl <;> exact ⟨nofun, nofun⟩
  | @decided s status now dec here hop hst hv =>
    refine ⟨?_, hst.1⟩
    rintro rfl
    subst hop
    -- a rejection at the stored version, after a dispatch: the call has read `RESUMED`
    rcases (hx dec).fresh s here hd with hres | ⟨row₁, hrow₁, hlt⟩
    · rcases ((hp dec).fresh s here).status hrow hv with hst' | ⟨hpend, -⟩
      · simp [rejectsResumed, hrow, hv, hst', hres] at hok
      · rw [hres] at hpend
        cases hpend
    · obtain rfl := Option.some.inj (hrow.symm.trans hrow₁)
      rw [hv] at hlt
      exact absurd hlt (Nat.lt_irrefl _)

/-- A rejection leaves the session `REJECTED`. -/
theorem SessionHas.of_isRejection (move : Move dep.py call p o r q)
    (he : exec o env db = some (r, db'))
    (hr : IsRejection sid ⟨i, call, o, env, r⟩ = true) : SessionHas sid db' (· = .rejected) := by
  unfold IsRejection at hr
  split at hr
  · rename_i hentry
    cases hentry
    obtain ⟨hsid, rfl⟩ := (Bool.and_eq_true _ _).mp hr
    obtain rfl := of_decide_eq_true hsid
    cases move with
    | idle r quiet => exact quiet.elim
    | reject now =>
      obtain ⟨hhit, rfl⟩ := exec_hitl he
      obtain ⟨row, -, -, hget⟩ := HITLOp.get_updateStatus_of_hit hhit.symm
      exact ⟨_, hget, rfl⟩
  · cases hr

end

/-- The assertions about dispatches and rejections, on top of the lock. -/
def exclusionLayer (dep : Deployment) (sid : String) :
    (lockOutline dep sparingResumed sid).Layer where
  inv db h :=
    (dispatches sid h ≠ 0 → SessionHas sid db (fun st => st ≠ .rejected ∧ st ≠ .pending)) ∧
      (h.any (IsRejection sid) = true → SessionHas sid db (· = .rejected))
  asserts db h _ call p := call.Decides sid → p.Exclusion sid db h
  entry _ _ _ _ _ := ⟨vacuous rfl, by rintro (⟨s, hs⟩ | hs) <;> cases hs⟩
  step := by
    intro db db' h i call p q o r env _ hinv hlock hx move he hok _ hlock'
    obtain ⟨hdis, hrej⟩ := hinv
    refine ⟨⟨fun hd => ?_, fun hr => ?_⟩, fun dec => ⟨fun s hs hd => ?_, fun hq => ?_⟩⟩
    · by_cases he' : IsDispatch sid ⟨i, call, o, env, r⟩ = true
      · obtain ⟨row, hrow, happ⟩ := Pos.Lock.at_dispatch hlock move he he'
        exact ⟨row, hrow, by rw [happ]; exact ⟨nofun, nofun⟩⟩
      · rw [dispatches_cons_of_not he'] at hd
        exact (hdis hd).after_dispatch hok hd hlock hx move he
    · rw [List.any_cons, Bool.or_eq_true] at hr
      rcases hr with hr | hr
      · exact .of_isRejection move he hr
      · exact (hrej hr).final_stays (.inl rfl) hlock move he
    · by_cases he' : IsDispatch sid ⟨i, call, o, env, r⟩ = true
      · rw [(move.of_isDispatch he').2.2.1] at hs
        cases hs
      · rw [dispatches_cons_of_not he'] at hd
        cases move.session dec with
        | keep other fresh owner =>
          rw [exec_not_onHitl other he]
          exact (hx dec).fresh s (fresh s hs) hd
        | read fresh owner =>
          -- what is read after a dispatch is not `PENDING`
          left
          obtain ⟨hr, rfl⟩ := exec_hitl he
          obtain ⟨row, rfl, hrow, -⟩ := fresh s hs
          obtain ⟨args, -, rfl⟩ := Option.map_eq_some_iff.mp hrow
          obtain ⟨row', hrow', -, hne⟩ := hdis hd
          obtain rfl := Option.some.inj (hr.trans hrow')
          exact (((hlock' dec).fresh _ hs).1).resolve_left hne
        | decide now here hne fresh owner => rw [fresh] at hs; cases hs
        | close now here heq fresh owner => rw [fresh] at hs; cases hs
    · rw [List.any_cons, Bool.or_eq_true]
      cases move with
      | idle => exact .inr ((hx dec).rejecting hq)
      | reject now => exact .inl (by simp [IsRejection, show _ = sid from dec])
      | rejectGrant => exact .inr ((hx dec).rejecting (.inl ⟨_, rfl⟩))
      | _ => rcases hq with ⟨s, hs⟩ | hs <;> cases hs
  free := by
    intro db db' h i call p q o r env j call' p' _ hinv hlock hx hlock' hx' move he hok _ _ dec
    refine ⟨fun s hs hd => ?_, fun hq => ?_⟩
    · have hf := (hlock' dec).fresh s hs
      obtain ⟨-, row, hrow, hle, -⟩ := id hf
      obtain ⟨row', hrow', hch⟩ := move.row he hrow
      by_cases he' : IsDispatch sid ⟨i, call, o, env, r⟩ = true
      · -- the session is `APPROVED` now, so its version is not the one that was read
        right
        obtain ⟨row₁, hrow₁, happ⟩ := Pos.Lock.at_dispatch hlock move he he'
        obtain ⟨-, -, -, ho⟩ := move.of_isDispatch he'
        rw [exec_not_onHitl ho he] at hrow₁ ⊢
        refine ⟨row₁, hrow₁, ?_⟩
        obtain rfl := Option.some.inj (hrow.symm.trans hrow₁)
        exact Nat.lt_of_le_of_ne hle fun heq => hf.not_approved hrow heq.symm happ
      · rw [dispatches_cons_of_not he'] at hd
        refine ((hx' dec).fresh s hs hd).imp_right ?_
        rintro ⟨row₁, hrow₁, hlt⟩
        obtain rfl := Option.some.inj (hrow.symm.trans hrow₁)
        exact ⟨row', hrow', Nat.lt_of_lt_of_le hlt hch.version_le⟩
    · rw [List.any_cons, (hx' dec).rejecting hq, Bool.or_true]

/-- Only a call that has rejected the session returns `"rejected"`. -/
theorem Pos.Ends.rejected {py : PyLib} {sid : String} {p : Pos} {r : ApprovalResult}
    (h : p.Ends py sid (.ok r)) (hr : r.decision = .rejected) : p = .rejected := by
  cases p with
  | rejected => rfl
  | finished => exact absurd hr (h r rfl).2.2
  | loaded s => exact absurd hr (h r rfl).2.2
  | broken => exact absurd hr (h r rfl).2.2
  | reserved s g retry => exact absurd hr (h.2 r rfl).2.2
  | replayed s =>
    obtain ⟨answer, ha⟩ := h
    cases ha
    cases hr
  | closed s retry v => cases h; cases v <;> cases hr
  | _ => exact h.elim

/-- **Rejection and dispatch exclude each other** in every interleaving, from every
database, as long as no session is rejected that has been carried out. -/
theorem dispatch_excludes_rejection (dep : Deployment) (sid : String) {db : Db}
    {c : (service dep).Config} (run : (service dep).Reach sparingResumed (Pool.init db) c) :
    Exclusive dep sid c := by
  have hinit : ((lockOutline dep sparingResumed sid).extend (exclusionLayer dep sid)).inv db [] :=
    ⟨trivial, fun h => absurd rfl h, fun h => by cases h⟩
  obtain ⟨-, hdis, hrej⟩ := Machine.Outline.sound_inv _ (decision_follows dep) hinit run
  refine ⟨?_, fun hd hs => ?_⟩
  · rintro ⟨hd, i, ctx, r, hat, hr⟩
    obtain ⟨p, hf, -, hx⟩ := Machine.Outline.sound_at _ (decision_follows dep) hinit run hat
    obtain ⟨res, hres, hends⟩ := hf
    cases res with
    | error e => cases hres
    | ok r' =>
      cases hres
      have hp := hends.1.rejected hr
      obtain ⟨row, hrow, hst, -⟩ := hdis hd
      obtain ⟨row', hrow', hst'⟩ := hrej ((hx rfl).rejecting (.inr hp))
      obtain rfl := Option.some.inj (hrow.symm.trans hrow')
      exact hst hst'
  · obtain ⟨row, hrow, hst, -⟩ := hdis hd
    obtain ⟨row', hrow', hst'⟩ := hs
    obtain rfl := Option.some.inj (hrow.symm.trans hrow')
    exact hst hst'

/-- One operator approves, the tool succeeds, and then another one rejects. -/
def lateRejection : List (Machine.Act Call Op Env) :=
  [.spawn (.approve "s" none), .steps 0 40 (demoEnv demoSuccess), .spawn (.reject "s" none),
    .steps 1 20 (demoEnv demoSuccess)]

/-- Thread `i` has returned `"rejected"` for the session, computed. -/
def returnedRejected (dep : Deployment) (sid : String) (i : ℕ) (c : (service dep).Config) : Bool :=
  match Machine.result? c i with
  | some (.reject sid' _, .ok (.approval r)) => sid' = sid && r.decision = .rejected
  | _ => false

theorem ReturnedRejected.of_computed {dep : Deployment} {sid : String} {i : ℕ}
    {c : (service dep).Config} (h : returnedRejected dep sid i c = true) :
    ReturnedRejected dep sid c := by
  rw [returnedRejected] at h
  split at h
  · rename_i sid' ctx r hres
    obtain ⟨hsid, hdec⟩ := (Bool.and_eq_true _ _).mp h
    obtain rfl := of_decide_eq_true hsid
    exact ⟨i, ctx, r, Machine.at_of_result? hres, of_decide_eq_true hdec⟩
  · cases h

/-- The late rejection goes through: the tool was called, `reject` returns `"rejected"`,
and the session of the executed operation reads `REJECTED`. -/
theorem late_rejection_not_exclusive :
    ∃ c : (service demo).Config, (service demo).Reach (.free Call.IsDecision) (Pool.init demoDb) c ∧
      dispatches "s" c.hist = 1 ∧ ReturnedRejected demo "s" c ∧
      (c.shared.hitl.get "s").map (·.status) = some .rejected ∧ ¬ Exclusive demo "s" c := by
  have hrun : (((service demo).run? (.free Call.IsDecision) lateRejection
    (Pool.init demoDb)).map fun c => decide (dispatches "s" c.hist = 1) &&
      (returnedRejected demo "s" 1 c &&
        decide ((c.shared.hitl.get "s").map (·.status) = some .rejected))).getD false = true := rfl
  obtain ⟨c, run, hc⟩ := Machine.exists_reach_of_run? hrun
  obtain ⟨hd, hc⟩ := (Bool.and_eq_true _ _).mp hc
  obtain ⟨hr, hs⟩ := (Bool.and_eq_true _ _).mp hc
  have hd := of_decide_eq_true hd
  have hr := ReturnedRejected.of_computed hr
  exact ⟨c, run, hd, hr, of_decide_eq_true hs, fun hex => hex.1 ⟨by rw [hd]; exact nofun, hr⟩⟩

/-- An approval and a rejection race, both after the read of the other; the approval
wins, and the rejection is refused. -/
theorem dispatch_excludes_rejection_in_race :
    ∃ c : (service demo).Config, dispatches "s" c.hist = 1 ∧ Exclusive demo "s" c := by
  have hrun : (((service demo).run? sparingResumed
    [.spawn (.reject "s" none), .spawn (.approve "s" none), .steps 0 2 (demoEnv demoSuccess),
      .steps 1 40 (demoEnv demoSuccess), .steps 0 20 (demoEnv demoSuccess)]
    (Pool.init demoDb)).map fun c => decide (dispatches "s" c.hist = 1)).getD false = true := rfl
  obtain ⟨c, run, hc⟩ := Machine.exists_reach_of_run? hrun
  exact ⟨c, of_decide_eq_true hc, dispatch_excludes_rejection demo "s" run⟩

end BankingAgent
