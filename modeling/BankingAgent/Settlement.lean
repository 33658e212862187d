import BankingAgent.SessionLock
import BankingAgent.DispatchOnce

/-!
# How a dispatch is settled

When the tool has answered, `approve` writes the outcome into three tables, with
three conditional `UPDATE`s. Two of them always apply: the call owns the session
and holds the grant in `CONSUMING`, and nobody else touches either. The third one
depends on how the idempotency record came to be where it is. No decision call
marks a record `EXECUTING`, so `mark_succeeded` never applies after a reservation;
and `mark_unknown` does not apply to a record that failed before.
-/

namespace BankingAgent

open Async

/-- The key the operation of the session is recorded under. -/
def Db.idemKey? (db : Db) (sid : String) : Option String :=
  (db.hitl.get sid).map HITLRecord.idemKey

/-- The entry marks the record as failed. -/
def MarksFailed (key : String) (e : LogEntry Call) : Bool :=
  match e with
  | ⟨_, _, .idem (.update key' (.failed _ _)), _, hit⟩ => key' = key && hit
  | _ => false

/-- The record under the key has failed, before the run or in it. -/
def HasFailed (db₀ : Db) (h : List (LogEntry Call)) (key : String) : Prop :=
  db₀.idem.status? key = some .failed ∨ h.any (MarksFailed key) = true

theorem hasFailed_nil {db₀ : Db} {key : String} :
    HasFailed db₀ [] key ↔ db₀.idem.status? key = some .failed := by
  simp [HasFailed]

/-! ## What the decision calls do to a record -/

/-- One step of the decision calls, on the status of a record. -/
inductive Decay : Option IdempotencyStatus → Option IdempotencyStatus → Prop
  | same (st : Option IdempotencyStatus) : Decay st st
  | reserve : Decay none (some .reserved)
  | fail (st : IdempotencyStatus) : Decay (some st) (some .failed)
  | giveUp {st : IdempotencyStatus} (h : st = .reserved ∨ st = .executing) :
      Decay (some st) (some .unknown)
  | succeed : Decay (some .executing) (some .succeeded)

/-- No dispatch under the key is on its way or has succeeded. -/
def Unspent (st : Option IdempotencyStatus) : Prop :=
  st ≠ some .executing ∧ st ≠ some .succeeded

theorem Unspent.decay {st st' : Option IdempotencyStatus} (h : Unspent st) (hd : Decay st st') :
    Unspent st' := by
  cases hd with
  | same => exact h
  | succeed => exact absurd rfl h.1
  | reserve => exact ⟨nofun, nofun⟩
  | fail => exact ⟨nofun, nofun⟩
  | giveUp => exact ⟨nofun, nofun⟩

/-- The key is reserved, and the record still unspent. -/
def Held (st : Option IdempotencyStatus) : Prop := Unspent st ∧ st.isSome

theorem Held.decay {st st' : Option IdempotencyStatus} (h : Held st) (hd : Decay st st') :
    Held st' := by
  refine ⟨h.1.decay hd, ?_⟩
  cases hd with
  | same => exact h.2
  | _ => rfl

/-- What a verdict leaves in an unspent record. -/
def Verdict.Leaves : Verdict → Option IdempotencyStatus → Prop
  | succeeded _, st => Unspent st
  | failed _, st => st = some .failed
  | raised, st => st = some .unknown ∨ st = some .failed

theorem Verdict.Leaves.decay {v : Verdict} {st st' : Option IdempotencyStatus}
    (h : v.Leaves st) (hd : Decay st st') : v.Leaves st' := by
  cases v with
  | succeeded => exact Unspent.decay h hd
  | failed error =>
    obtain rfl := h
    cases hd with
    | same => rfl
    | fail => rfl
    | giveUp hst => rcases hst with h | h <;> cases h
  | raised =>
    rcases h with rfl | rfl
    · cases hd with
      | same => exact .inl rfl
      | fail => exact .inr rfl
      | giveUp hst => rcases hst with h | h <;> cases h
    · cases hd with
      | same => exact .inr rfl
      | fail => exact .inr rfl
      | giveUp hst => rcases hst with h | h <;> cases h

section

variable {py : PyLib} {sid : String} {call : Call} {p q : Pos} {o : Op} {r : o.Res} {env : Env}
  {db db' : Db}

theorem Move.decay (move : Move py call p o r q) (he : exec o env db = some (r, db'))
    (key : String) : Decay (db.idem.status? key) (db'.idem.status? key) := by
  rw [exec_idemAfter he]
  cases o with
  | idem o =>
    cases o with
    | select => exact .same _
    | reserve key' toolName toolArgs now =>
      rw [Op.idemAfter, IdempotencyOp.status?_reserve]
      split
      · rename_i h
        obtain ⟨rfl, hnone⟩ := h
        rw [IdempotencyTable.status?, hnone]
        exact .reserve
      · exact .same _
    | update key' u =>
      rw [Op.idemAfter, IdempotencyOp.status?_update]
      split
      · rename_i h
        cases hst : db.idem.status? key with
        | none => subst h; rw [hst]; exact .same _
        | some st =>
          subst h
          rw [hst]
          cases move with
          | idle r quiet => exact quiet.elim
          | @markIdem _ _ _ _ v =>
            cases v <;> cases st <;> first
              | exact .same _
              | exact .fail _
              | exact .succeed
              | exact .giveUp (.inl rfl)
              | exact .giveUp (.inr rfl)
      · exact .same _
  | _ => exact .same _

/-- `FAILED` is final, and an entry says when it was reached. -/
theorem failed_iff (i : ℕ) (call : Call) {key : String} (he : exec o env db = some (r, db')) :
    db'.idem.status? key = some .failed ↔
      db.idem.status? key = some .failed ∨ MarksFailed key ⟨i, call, o, env, r⟩ = true := by
  cases o with
  | idem o =>
    obtain ⟨rfl, rfl⟩ := exec_idem he
    refine IdempotencyOp.status?_eq_failed_iff.trans (or_congr_right ?_)
    cases o with
    | select => simp [MarksFailed]
    | reserve => simp [MarksFailed]
    | update key' u =>
      cases u with
      | failed error now =>
        rw [MarksFailed, Bool.and_eq_true, IdempotencyOp.update_hit_iff, decide_eq_true_eq]
        constructor
        · rintro ⟨_, _, ⟨⟩, hsome⟩
          obtain ⟨st, hst⟩ := Option.isSome_iff_exists.mp hsome
          exact ⟨rfl, st, hst, rfl⟩
        · rintro ⟨rfl, st, hst, -⟩
          exact ⟨error, now, rfl, by rw [hst]; rfl⟩
      | _ => simp [MarksFailed]
  | _ =>
    rw [exec_idemAfter he]
    simp [Op.idemAfter, MarksFailed]

end

/-! ## What a call on the session knows -/

/-- The session the call has read. -/
def Pos.session? : Pos → Option HITLSession
  | start => none
  | finished => none
  | broken => none
  | rejected => none
  | loaded s => some s
  | reconciling s => some s
  | granted s _ => some s
  | approved s _ => some s
  | consuming s => some s
  | claimed s _ => some s
  | replayed s => some s
  | denying s => some s
  | denied s => some s
  | looked s _ _ => some s
  | reserving s _ _ => some s
  | reserved s _ _ => some s
  | dispatched s _ _ => some s
  | idemMarked s _ _ => some s
  | grantMarked s _ _ => some s
  | closed s _ _ => some s
  | rejecting s => some s

/-- Where the call has brought the grant. -/
def Pos.grant? : Pos → Option GrantStatus
  | consuming _ => some .consuming
  | claimed _ _ => some .consuming
  | denying _ => some .consuming
  | denied _ => some .failed
  | looked _ _ _ => some .consuming
  | reserving _ _ _ => some .consuming
  | reserved _ _ _ => some .consuming
  | dispatched _ _ _ => some .consuming
  | idemMarked _ _ _ => some .consuming
  | grantMarked _ _ v => some v.mark.target
  | closed _ _ v => some v.mark.target
  | _ => none

/-- Where the call has brought the session, when it is done. -/
def Pos.closedAs? : Pos → Option HITLSessionStatus
  | closed _ _ v => some v.status
  | _ => none

/-- The outcome of the call's dispatch. -/
def Pos.verdict? : Pos → Option Verdict
  | dispatched _ _ v => some v
  | idemMarked _ _ v => some v
  | grantMarked _ _ v => some v
  | closed _ _ v => some v
  | _ => none

/-- What the call knows about the record it works under. -/
def Pos.Record (status? : String → Option IdempotencyStatus) : Pos → Prop
  | looked s _ _ => Unspent (status? s.idemKey)
  | reserving s _ _ => Held (status? s.idemKey)
  | reserved s _ _ => Held (status? s.idemKey)
  | dispatched s _ _ => Held (status? s.idemKey)
  | idemMarked s _ v => v.Leaves (status? s.idemKey)
  | grantMarked s _ v => v.Leaves (status? s.idemKey)
  | closed s _ v => v.Leaves (status? s.idemKey)
  | _ => True

theorem Pos.Record.decay {p : Pos} {f f' : String → Option IdempotencyStatus} (h : p.Record f)
    (hd : ∀ key, Decay (f key) (f' key)) : p.Record f' := by
  cases p with
  | looked => exact Unspent.decay h (hd _)
  | reserving => exact Held.decay h (hd _)
  | reserved => exact Held.decay h (hd _)
  | dispatched => exact Held.decay h (hd _)
  | idemMarked => exact Verdict.Leaves.decay h (hd _)
  | grantMarked => exact Verdict.Leaves.decay h (hd _)
  | closed => exact Verdict.Leaves.decay h (hd _)
  | _ => trivial

/-- A verdict on a held record leaves what it should, but for success. -/
theorem Verdict.leaves_of_held {v : Verdict} {key now : String} {t : IdempotencyTable}
    (h : Held (t.status? key)) :
    v.Leaves (IdempotencyTable.status? ((IdempotencyOp.update key (v.idem now)).exec t).2 key) := by
  rw [IdempotencyOp.status?_update, if_pos rfl]
  obtain ⟨⟨hx, hs⟩, hsome⟩ := h
  obtain ⟨st, hst⟩ := Option.isSome_iff_exists.mp hsome
  rw [hst] at hx hs ⊢
  cases v <;> cases st <;>
    simp_all [Verdict.Leaves, Verdict.idem, IdempotencyUpdate.appliesTo, IdempotencyUpdate.target,
      Unspent]

section

variable {py : PyLib} {sid : String} {call : Call} {p q : Pos} {o : Op} {r : o.Res} {env : Env}
  {db db' : Db} {h : List (LogEntry Call)} {i : ℕ}

theorem Move.record (move : Move py call p o r q) (he : exec o env db = some (r, db'))
    (hp : p.Record db.idem.status?) : q.Record db'.idem.status? := by
  have hdecay := move.decay he
  cases move with
  | idle => exact hp.decay hdecay
  | lookupNone =>
    obtain ⟨hr, rfl⟩ := exec_idem he
    refine Unspent.decay ?_ (.same _)
    simp only [IdempotencyOp.exec] at hr
    simp [IdempotencyTable.status?, IdempotencyOp.exec, ← hr, Unspent]
  | lookupFailed hst =>
    obtain ⟨hr, rfl⟩ := exec_idem he
    simp only [IdempotencyOp.exec] at hr
    simp [Pos.Record, IdempotencyTable.status?, IdempotencyOp.exec, ← hr, Unspent, hst]
  | @reserve _ _ s g retry text now hit =>
    refine ⟨Unspent.decay hp (hdecay _), ?_⟩
    obtain ⟨-, rfl⟩ := exec_idem he
    simp only [IdempotencyOp.status?_reserve]
    split
    · rfl
    · rename_i hne
      cases hget : db.idem.get s.idemKey with
      | none => exact absurd ⟨trivial, hget⟩ hne
      | some row => rw [IdempotencyTable.status?, hget]; rfl
  | reread => exact Held.decay hp (hdecay _)
  | dispatch => exact Held.decay hp (hdecay _)
  | markIdem now hit =>
    obtain ⟨-, rfl⟩ := exec_idem he
    exact Verdict.leaves_of_held hp
  | markGrant => exact Verdict.Leaves.decay hp (hdecay _)
  | markSession => exact Verdict.Leaves.decay hp (hdecay _)
  | _ => trivial

/-- The call alone brings the grant from the claim to its end. -/
theorem Move.grant? (move : Move py call p o r q) (he : exec o env db = some (r, db'))
    (dec : call.Decides sid)
    (hp : ∀ st, p.grant? = some st → db.grants.status? sid = some st) :
    ∀ st, q.grant? = some st → db'.grants.status? sid = some st := by
  have hgrants := exec_grantsAfter he
  rintro st hst
  cases move with
  | @idle _ _ o _ quiet =>
    rw [(exec_quiet quiet he).2.1]
    exact hp st hst
  | consume now =>
    obtain rfl := dec
    cases hst
    obtain ⟨hr, rfl⟩ := exec_grant he
    obtain ⟨g, -, -, hget, -⟩ := GrantUpdate.get_of_hit hr.symm
    exact congrArg (Option.map _) hget
  | deny now hit =>
    obtain rfl := dec
    cases hst
    rw [hgrants]
    exact GrantMark.status?_mark (hp _ rfl) rfl
  | @markGrant _ _ _ _ v now hit =>
    obtain rfl := dec
    cases hst
    rw [hgrants]
    exact GrantMark.status?_mark (hp _ rfl) (by cases v <;> rfl)
  | claim => rw [hgrants]; exact hp st hst
  | lookupNone => rw [hgrants]; exact hp st hst
  | lookupFailed => rw [hgrants]; exact hp st hst
  | lookupDenied => rw [hgrants]; exact hp st hst
  | reserve => rw [hgrants]; exact hp st hst
  | reread => rw [hgrants]; exact hp st hst
  | dispatch => rw [hgrants]; exact hp st hst
  | markIdem => rw [hgrants]; exact hp st hst
  | markSession => rw [hgrants]; exact hp st hst
  | _ => cases hst

/-- Nobody but its owner moves a grant out of `CONSUMING`. -/
theorem Move.owner_of_grantMove {u : GrantUpdate} {hit : Bool} {st : GrantStatus}
    (move : Move py call p (.grant (.update u)) hit q) (hm : GrantMove u .consuming st) :
    call.Decides u.sessionId ∧ p.owner?.isSome := by
  cases move with
  | idle r quiet => exact quiet.elim
  | deny => exact ⟨rfl, rfl⟩
  | markGrant => exact ⟨rfl, rfl⟩
  | reconcileGrant => cases hm with | mark _ _ ha => cases ha
  | rejectGrant => cases hm with | mark _ _ ha => cases ha
  | _ => cases hm

/-- A grant is held by its owner, or is where nothing leads on from. -/
theorem Pos.grant?_cases {p : Pos} {st : GrantStatus} (h : p.grant? = some st) :
    st = .consuming ∧ p.owner?.isSome ∨ ∀ u st', ¬ GrantMove u st st' := by
  cases p with
  | denied => cases h; exact .inr (GrantMark.target_final .failed)
  | grantMarked s retry v => cases h; exact .inr v.mark.target_final
  | closed s retry v => cases h; exact .inr v.mark.target_final
  | _ => cases h <;> exact .inl ⟨rfl, rfl⟩

/-- Where a call has brought the grant, it stays while the owner does not move it. -/
theorem Move.grant?_other {p' : Pos} (move : Move py call p o r q)
    (he : exec o env db = some (r, db'))
    (hex : ¬ ((call.Decides sid ∧ p.owner?.isSome) ∧ p'.owner?.isSome))
    (hp : ∀ st, p'.grant? = some st → db.grants.status? sid = some st) :
    ∀ st, p'.grant? = some st → db'.grants.status? sid = some st := by
  rintro st hst
  have hstay := hp st hst
  rw [exec_grantsAfter he]
  cases o with
  | grant o =>
    rcases GrantOp.status?_exec (o := o) hstay with h | ⟨u, st', rfl, rfl, hm, -⟩
    · exact h
    · rcases Pos.grant?_cases hst with ⟨rfl, hown⟩ | hdone
      · exact absurd ⟨move.owner_of_grantMove hm, hown⟩ hex
      · exact absurd hm (hdone u st')
  | _ => exact hstay

/-- No decision call changes the key a session works under. -/
theorem Move.idemKey? (move : Move py call p o r q) (he : exec o env db = some (r, db')) :
    db'.idemKey? sid = db.idemKey? sid := by
  rw [Db.idemKey?, Db.idemKey?, exec_hitlAfter he]
  cases o with
  | hitl o =>
    cases o with
    | select => rfl
    | insert => cases move with | idle r quiet => exact quiet.elim
    | updateStatus sid' status now v =>
      by_cases hsid : sid = sid'
      · subst hsid
        rw [Op.hitlAfter, HITLOp.exec, Sql.Table.get_update_self, Option.map_map]
        congr 1
        funext row
        simp only [Function.comp_apply, Sql.Change.apply]
        split <;> rfl
      · rw [Op.hitlAfter, HITLOp.exec, Sql.Table.get_update_of_ne hsid]
    | expireStale now =>
      rw [Op.hitlAfter, HITLOp.exec, Sql.Table.get_updateAll, Option.map_map]
      congr 1
      funext row
      simp only [Function.comp_apply, Sql.Change.apply]
      split <;> rfl
  | _ => rfl

/-- What the call has read is the operation of the session. -/
theorem Move.session? {key? : Option String} (move : Move py call p o r q)
    (he : exec o env db = some (r, db')) (dec : call.Decides sid) (hkey : db.idemKey? sid = key?)
    (hp : ∀ s, p.session? = some s → key? = some s.idemKey) :
    ∀ s, q.session? = some s → key? = some s.idemKey := by
  intro s hs
  cases move with
  | idle => exact hp s hs
  | @load _ _ row s' dec' hrow =>
    obtain rfl := dec.unique dec'
    cases hs
    obtain ⟨hr, -⟩ := exec_hitl he
    obtain ⟨args, -, rfl⟩ := Option.map_eq_some_iff.mp hrow
    have hget : some row = db.hitl.get sid := hr
    rw [← hkey, Db.idemKey?, ← hget]
    rfl
  | _ => first | exact hp s hs | cases hs

/-- The session of a dispatch that did not succeed ends `FAILED`, for good. -/
theorem Move.closedAs? (move : Move py call p o r q) (he : exec o env db = some (r, db'))
    (dec : call.Decides sid) (hlock : p.Lock sid db)
    (hp : ∀ st, p.closedAs? = some st → st = .failed → SessionHas sid db (· = .failed)) :
    ∀ st, q.closedAs? = some st → st = .failed → SessionHas sid db' (· = .failed) := by
  intro st hst hfail
  cases move with
  | @idle _ _ o r quiet =>
    rw [SessionHas, (exec_quiet quiet he).1]
    exact hp st hst hfail
  | @markSession _ _ s retry v now hit =>
    obtain rfl := dec
    cases hst
    obtain ⟨row, hrow, -, hv⟩ := hlock.owner s rfl
    obtain ⟨-, rfl⟩ := exec_hitl he
    have hguard : (HITLRow.updateStatus v.status now (s.version + 1)).guard row = true :=
      decide_eq_true hv
    obtain ⟨_, -, -, hget⟩ :=
      Sql.Table.get_update_of_hit (Sql.Table.update_hit_iff.mpr ⟨row, hrow, hguard⟩)
    exact ⟨_, hget, hfail⟩
  | _ => cases hst

/-- What the tool answered is not forgotten. -/
theorem Move.verdict? (move : Move py call p o r q)
    (hp : ∀ site tc env answer, ⟨i, call, .callTool site tc, env, answer⟩ ∈ h →
      p.verdict? = some (.of answer)) :
    ∀ site tc env' answer, ⟨i, call, .callTool site tc, env', answer⟩ ∈
      (⟨i, call, o, env, r⟩ :: h : List (LogEntry Call)) → q.verdict? = some (.of answer) := by
  intro site tc env' answer hmem
  rcases List.mem_cons.mp hmem with heq | hmem
  · cases heq
    cases move with
    | idle r quiet => exact quiet.elim
    | dispatch => rfl
  · have hv := hp site tc env' answer hmem
    cases move with
    | idle => exact hv
    | markIdem => exact hv
    | markGrant => exact hv
    | markSession => exact hv
    | _ => cases hv

end

/-- What a call on the session knows about the three stores. -/
structure Pos.Settled (sid : String) (key? : Option String) (db : Db) (h : List (LogEntry Call))
    (i : ℕ) (call : Call) (p : Pos) : Prop where
  key : ∀ s, p.session? = some s → key? = some s.idemKey
  record : p.Record db.idem.status?
  grant : ∀ st, p.grant? = some st → db.grants.status? sid = some st
  session : ∀ st, p.closedAs? = some st → st = .failed → SessionHas sid db (· = .failed)
  answer : ∀ site tc env answer, ⟨i, call, .callTool site tc, env, answer⟩ ∈ h →
    p.verdict? = some (.of answer)

/-- The three stores, as the owner of a session settles them, on top of the lock. -/
def settlementLayer (dep : Deployment) (D : Discipline Db Call (LogEntry Call)) (sid : String)
    (db₀ : Db) : (lockOutline dep D sid).Layer where
  inv db h := db.idemKey? sid = db₀.idemKey? sid ∧
    ∀ key, db.idem.status? key = some .failed ↔ HasFailed db₀ h key
  asserts db h i call p := call.Decides sid → p.Settled sid (db₀.idemKey? sid) db h i call
  entry _ _ _ hnew _ :=
    ⟨vacuous rfl, trivial, vacuous rfl, vacuous rfl, fun _ _ _ _ hmem => absurd rfl (hnew _ hmem)⟩
  step := by
    intro db db' h i call p q o r env _ hinv hlock hp move he _ _ _
    obtain ⟨hkey, hfailed⟩ := hinv
    refine ⟨⟨(move.idemKey? he).trans hkey, fun key => ?_⟩, fun dec => ?_⟩
    · refine (failed_iff i call he).trans ?_
      rw [hfailed, HasFailed, HasFailed, List.any_cons, Bool.or_eq_true, or_assoc]
      exact or_congr_right or_comm
    · have hp := hp dec
      exact ⟨move.session? he dec hkey hp.key, move.record he hp.record,
        move.grant? he dec hp.grant, move.closedAs? he dec (hlock dec) hp.session,
        move.verdict? hp.answer⟩
  free := by
    intro db db' h i call p q o r env j call' p' _ _ hlock _ _ hp' move he _ hij hex dec
    have hp' := hp' dec
    refine ⟨hp'.key, hp'.record.decay (move.decay he), ?_, fun st hst hfail => ?_, ?_⟩
    · exact move.grant?_other he (fun ho => hex ⟨ho.1, dec, ho.2⟩) hp'.grant
    · exact (hp'.session st hst hfail).final_stays (.inr (.inl rfl)) hlock move he
    · intro site tc env' answer hmem
      rcases List.mem_cons.mp hmem with heq | hmem
      · cases heq
        exact absurd rfl hij
      · exact hp'.answer site tc env' answer hmem

/-! ## Agreement -/

/-- The statuses a verdict calls for: of the record, the grant and the session. -/
def Verdict.triple : Verdict → IdempotencyStatus × GrantStatus × HITLSessionStatus
  | succeeded _ => (.succeeded, .consumed, .resumed)
  | failed _ => (.failed, .failed, .failed)
  | raised => (.unknown, .unknown, .failed)

/-- The three stores agree on the verdict. -/
structure Matching (sid : String) (db : Db) (v : Verdict) : Prop where
  record : ∃ key record, db.idemKey? sid = some key ∧ db.idem.get key = some record ∧
    record.status = v.triple.1 ∧ ∀ content, v = .succeeded content → record.result = some content
  grant : db.grants.status? sid = some v.triple.2.1
  session : SessionHas sid db (· = v.triple.2.2)

/-- A call that has dispatched and ended has recorded the outcome. -/
theorem Pos.Ends.closed {py : PyLib} {sid : String} {p : Pos} {out : Except Exn ApprovalResult}
    {v : Verdict} (h : p.Ends py sid out) (hv : p.verdict? = some v) :
    ∃ s retry, p = .closed s retry v := by
  cases p with
  | closed s retry v' => cases hv; exact ⟨s, retry, rfl⟩
  | dispatched => exact h.elim
  | idemMarked => exact h.elim
  | grantMarked => exact h.elim
  | _ => cases hv

/-- **When the stores agree.** For every interleaving of decisions and sweeps, from
every database: when an `approve` call that called the tool has returned, record,
grant and session match the outcome exactly if it was a failure, or the call raised
and the record under the key has not failed before. -/
theorem approve_leaves_matching_iff (dep : Deployment) (sid : String) {db : Db}
    {c : (service dep).Config}
    (run : (service dep).Reach (.free Call.IsDecision) (Pool.init db) c)
    {i : ℕ} {ctx : Option Json} {reply : Reply} (returned : c.At i (.approve sid ctx) (.ret reply))
    {site : Site} {tc : ToolCall} {env : Env} {answer : Except Exn ToolResult}
    (dispatched : ⟨i, .approve sid ctx, .callTool site tc, env, answer⟩ ∈ c.hist) :
    ∃ key, db.idemKey? sid = some key ∧
      (Matching sid c.shared (.of answer) ↔
        (∃ error, Verdict.of answer = .failed error) ∨
          Verdict.of answer = .raised ∧ ¬ HasFailed db c.hist key) := by
  let O := (lockOutline dep (.free Call.IsDecision) sid).extend (settlementLayer dep _ sid db)
  have hinit : O.inv db [] := ⟨trivial, rfl, fun _ => hasFailed_nil.symm⟩
  obtain ⟨-, hkey, hfailed⟩ := O.sound_inv (decision_follows dep) hinit run
  obtain ⟨p, hf, -, hp⟩ := O.sound_at (decision_follows dep) hinit run returned
  have hp := hp rfl
  obtain ⟨res, -, hends⟩ := hf
  obtain ⟨s, retry, rfl⟩ := hends.closed (hp.answer _ _ _ _ dispatched)
  have hs := hp.key s rfl
  refine ⟨s.idemKey, hs, ?_⟩
  have hrecord : ∀ record, c.shared.idem.get s.idemKey = some record →
      c.shared.idem.status? s.idemKey = some record.status := fun record h => by
    rw [IdempotencyTable.status?, h]
    rfl
  have hleaves : (Verdict.of answer).Leaves (c.shared.idem.status? s.idemKey) := hp.record
  -- the record is the one of the key, whichever verdict it is compared with
  have hmine : ∀ key, c.shared.idemKey? sid = some key → key = s.idemKey := fun key h =>
    Option.some.inj (h.symm.trans (hkey.trans hs))
  have hgrant := hp.grant _ rfl
  cases hv : Verdict.of answer with
  | succeeded content =>
    rw [hv] at hleaves
    refine ⟨fun hm => ?_, by rintro (⟨error, h⟩ | ⟨h, -⟩) <;> cases h⟩
    obtain ⟨key, record, hk, hget, hst, -⟩ := hm.record
    obtain rfl := hmine key hk
    exact absurd ((hrecord record hget).trans (congrArg some hst)) hleaves.2
  | failed error =>
    rw [hv] at hleaves hgrant
    refine ⟨fun _ => .inl ⟨error, rfl⟩, fun _ => ⟨?_, hgrant, hp.session _ rfl (by rw [hv]; rfl)⟩⟩
    obtain ⟨record, hget, hst⟩ := Option.map_eq_some_iff.mp hleaves
    exact ⟨s.idemKey, record, hkey.trans hs, hget, hst, by rintro content ⟨⟩⟩
  | raised =>
    rw [hv] at hleaves hgrant
    refine ⟨fun hm => .inr ⟨rfl, fun hx => ?_⟩, ?_⟩
    · obtain ⟨key, record, hk, hget, hst, -⟩ := hm.record
      obtain rfl := hmine key hk
      have hfail := (hfailed _).mpr hx
      rw [hrecord record hget, hst] at hfail
      cases hfail
    · rintro (⟨error, h⟩ | ⟨-, hx⟩)
      · cases h
      · refine ⟨?_, hgrant, hp.session _ rfl (by rw [hv]; rfl)⟩
        rcases hleaves with h | h
        · obtain ⟨record, hget, hst⟩ := Option.map_eq_some_iff.mp h
          exact ⟨s.idemKey, record, hkey.trans hs, hget, hst, by rintro content ⟨⟩⟩
        · exact absurd ((hfailed _).mp h) hx

/-- One approval of the recorded operation, with nothing else going on. -/
def soleApproval (outcome : McpOutcome) : List (Machine.Act Call Op Env) :=
  [.spawn (.approve "s" none), .steps 0 40 (demoEnv outcome)]

/-- The entry is the dispatch of the first thread, with such a verdict. -/
def firstDispatch (P : Verdict → Bool) (e : LogEntry Call) : Bool :=
  match e with
  | ⟨0, .approve "s" none, .callTool _ _, _, answer⟩ => P (.of answer)
  | _ => false

/-- The approval of the first thread has returned. -/
def firstReturned (c : (service demo).Config) : Bool :=
  match Machine.result? c 0 with
  | some (.approve "s" none, .ok (.approval _)) => true
  | _ => false

theorem at_of_firstReturned {c : (service demo).Config} (h : firstReturned c = true) :
    ∃ r, c.At 0 (.approve "s" none) (.ret (.approval r)) := by
  rw [firstReturned] at h
  split at h
  · rename_i r hr
    exact ⟨r, Machine.at_of_result? hr⟩
  · cases h

theorem mem_of_firstDispatch {P : Verdict → Bool} {h : List (LogEntry Call)}
    (hany : h.any (firstDispatch P) = true) :
    ∃ site tc env answer, ⟨0, .approve "s" none, .callTool site tc, env, answer⟩ ∈ h ∧
      P (.of answer) = true := by
  obtain ⟨e, he, hP⟩ := List.any_eq_true.mp hany
  unfold firstDispatch at hP
  split at hP
  · exact ⟨_, _, _, _, he, hP⟩
  · cases hP

/-- The tool succeeds, and `approve` returns with the record still `RESERVED`. -/
theorem success_leaves_no_match :
    ∃ (c : (service demo).Config) (reply : Reply) (site : Site) (tc : ToolCall) (env : Env)
      (answer : Except Exn ToolResult),
      (service demo).Reach (.free Call.IsDecision) (Pool.init demoDb) c ∧
      c.At 0 (.approve "s" none) (.ret reply) ∧
      ⟨0, .approve "s" none, .callTool site tc, env, answer⟩ ∈ c.hist ∧
      Verdict.of answer = .succeeded "ok" ∧
      c.shared.idem.status? "s:call-1" = some .reserved ∧
      ¬ Matching "s" c.shared (.of answer) := by
  have hrun : (((service demo).run? (.free Call.IsDecision) (soleApproval demoSuccess)
    (Pool.init demoDb)).map fun c => firstReturned c &&
      (c.hist.any (firstDispatch fun v => decide (v = .succeeded "ok")) &&
        decide (c.shared.idemKey? "s" = some "s:call-1" ∧
          c.shared.idem.status? "s:call-1" = some .reserved))).getD false = true := rfl
  obtain ⟨c, run, hc⟩ := Machine.exists_reach_of_run? hrun
  obtain ⟨hret, hc⟩ := (Bool.and_eq_true _ _).mp hc
  obtain ⟨hany, hst⟩ := (Bool.and_eq_true _ _).mp hc
  obtain ⟨r, hat⟩ := at_of_firstReturned hret
  obtain ⟨site, tc, env, answer, hmem, hv⟩ := mem_of_firstDispatch hany
  have hv := of_decide_eq_true hv
  obtain ⟨hkey, hst⟩ := of_decide_eq_true hst
  refine ⟨c, _, site, tc, env, answer, run, hat, hmem, hv, hst, fun hm => ?_⟩
  obtain ⟨key, record, hk, hget, hstatus, -⟩ := hm.record
  obtain rfl := Option.some.inj (hkey.symm.trans hk)
  rw [hv] at hstatus
  rw [IdempotencyTable.status?, hget, Option.map_some, hstatus] at hst
  cases hst

/-- The tool fails, and the three stores agree on it. -/
theorem failure_leaves_match :
    ∃ (c : (service demo).Config) (answer : Except Exn ToolResult),
      (∃ error, Verdict.of answer = .failed error) ∧ Matching "s" c.shared (.of answer) := by
  have hrun : (((service demo).run? (.free Call.IsDecision) (soleApproval demoFailure)
    (Pool.init demoDb)).map fun c => firstReturned c &&
      c.hist.any (firstDispatch fun v => decide (v = .failed (some "insufficient funds")))).getD
        false = true := rfl
  obtain ⟨c, run, hc⟩ := Machine.exists_reach_of_run? hrun
  obtain ⟨hret, hany⟩ := (Bool.and_eq_true _ _).mp hc
  obtain ⟨r, hat⟩ := at_of_firstReturned hret
  obtain ⟨site, tc, env, answer, hmem, hv⟩ := mem_of_firstDispatch hany
  have hv : ∃ error, Verdict.of answer = .failed error := ⟨_, of_decide_eq_true hv⟩
  obtain ⟨key, -, hiff⟩ := approve_leaves_matching_iff demo "s" run hat hmem
  exact ⟨c, answer, hv, hiff.mpr (.inl hv)⟩

end BankingAgent
