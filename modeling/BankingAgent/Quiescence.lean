import BankingAgent.Settlement
import BankingAgent.RejectExclusive
import BankingAgent.DispatchBinding

/-!
# Session and grant at rest

An operation starts as a `PENDING` session with a `PENDING` grant. Every call moves
one of the two before the other, so in between the pair is out of step; a call that
leaves it so is on its way to repair it. The pairs that can occur at all are the
joint states below. Where nobody is on the way, the pair is one of the consistent
ones, unless one of four things happened: a resumed session was rejected, the
idempotency lookup of an approval found the work done (or could not be read), the
reconciliation gate marked the grant of a session it had lost to a rejection, or, with
the event log on the file of the other stores, an event was refused.
-/

namespace BankingAgent

open Async

/-- The pairs of statuses of a session and a grant at rest. -/
def consistentPairs : List (HITLSessionStatus × GrantStatus) :=
  [(.pending, .pending), (.rejected, .rejected), (.resumed, .consumed), (.failed, .failed),
    (.failed, .unknown), (.reconciliationRequired, .reconciliationRequired), (.expired, .pending)]

/-- Session and grant are both there, in a consistent pair. -/
def Consistent (sid : String) (db : Db) : Prop :=
  ∃ row g, db.hitl.get sid = some row ∧ db.grants.get sid = some g ∧
    (row.status, g.status) ∈ consistentPairs

/-! ## The condition -/

/-- An `approve` call for the session looks up a record that is `SUCCEEDED`, or one it
cannot read. -/
def looksUpDone (py : PyLib) (sid : String) (db : Db) (e : LogEntry Call) : Bool :=
  match e with
  | ⟨_, .approve sid' _, .idem (.select key), _, _⟩ =>
    sid' = sid && (db.idem.get key).any fun row =>
      row.status = .succeeded || (row.toRecord py).isNone
  | _ => false

/-- The step marks a pending grant for reconciliation whose session is not. -/
def reconcilesUndecided (db : Db) (e : LogEntry Call) : Bool :=
  match e.op with
  | .grant (.update (.mark .reconciliationRequired sid _)) =>
    db.grants.status? sid = some .pending &&
      (db.hitl.get sid).any fun row => row.status ≠ .reconciliationRequired
  | _ => false

/-- The step inserts an event whose number is taken. `SqliteEventStore.insert` does not roll
back, so that its connection keeps a write transaction: with the other stores on the same file,
the next of their statements that writes raises `database is locked`. -/
def refusesEvent (db : Db) (e : LogEntry Call) : Bool :=
  match e.op with
  | .event ev => !(db.events.insert ev).1
  | _ => false

/-- Every interleaving of decisions and sweeps in which none of the four happens; `oneFile` says
that the event log is on the file of the other stores. -/
def undisturbed (py : PyLib) (oneFile : Bool) (sid : String) :
    Discipline Db Call (LogEntry Call) :=
  { (Discipline.free Call.IsDecision : Discipline Db Call (LogEntry Call)) with
    ok := fun db _ e => rejectsResumed db e = false ∧ looksUpDone py sid db e = false ∧
      reconcilesUndecided db e = false ∧ (oneFile && refusesEvent db e) = false }

section

variable (py : PyLib) (oneFile : Bool) (sid : String)

instance : DecidablePred (undisturbed py oneFile sid).start :=
  inferInstanceAs (DecidablePred Call.IsDecision)

instance : Decidable (undisturbed py oneFile sid).crash := instDecidableFalse

instance : Decidable (undisturbed py oneFile sid).sequential := instDecidableFalse

instance (db : Db) (h : List (LogEntry Call)) (e : LogEntry Call) :
    Decidable ((undisturbed py oneFile sid).ok db h e) :=
  inferInstanceAs (Decidable (_ ∧ _ ∧ _ ∧ _))

end

/-! ## Joint states -/

/-- The pairs that occur: status and version of the session, status of the grant.
`known` says that the operation has a tool call id. -/
inductive PairState (known : Prop) : HITLSessionStatus → ℕ → GrantStatus → Prop
  | waiting : PairState known .pending 1 .pending
  /-- a call has approved the grant and is about to approve the session -/
  | granted (hk : known) : PairState known .pending 1 .approved
  /-- a call owns the session and takes the grant along -/
  | carrying {g : GrantStatus} (hk : known)
      (hg : g = .approved ∨ g = .consuming ∨ ∃ v : Verdict, g = v.mark.target) :
      PairState known .approved 2 g
  /-- the grant follows, or it was approved at the last moment and will follow -/
  | rejected {g : GrantStatus} (hg : g = .pending ∨ g = .approved ∨ g = .rejected) :
      PairState known .rejected 2 g
  | historical {g : GrantStatus} (hk : ¬ known)
      (hg : g = .pending ∨ g = .reconciliationRequired) :
      PairState known .reconciliationRequired 2 g
  | closed (hk : known) (v : Verdict) : PairState known v.status 3 v.mark.target

section

variable {known : Prop} {st : HITLSessionStatus} {g : GrantStatus}

theorem PairState.at_one (h : PairState known st 1 g) :
    st = .pending ∧ (g = .pending ∨ known ∧ g = .approved) := by
  cases h with
  | waiting => exact ⟨rfl, .inl rfl⟩
  | granted hk => exact ⟨rfl, .inr ⟨hk, rfl⟩⟩

theorem PairState.at_three (h : PairState known st 3 g) :
    known ∧ ∃ v : Verdict, st = v.status ∧ g = v.mark.target := by
  cases h with
  | closed hk v => exact ⟨hk, v, rfl, rfl⟩

theorem PairState.at_approved {n : ℕ} (h : PairState known .approved n g) :
    known ∧ n = 2 ∧ (g = .approved ∨ g = .consuming ∨ ∃ v : Verdict, g = v.mark.target) := by
  generalize hst : HITLSessionStatus.approved = st at h
  cases h with
  | carrying hk hg => exact ⟨hk, rfl, hg⟩
  | closed hk v => cases v <;> cases hst
  | _ => cases hst

theorem PairState.at_rejected {n : ℕ} (h : PairState known .rejected n g) :
    n = 2 ∧ (g = .pending ∨ g = .approved ∨ g = .rejected) := by
  generalize hst : HITLSessionStatus.rejected = st at h
  cases h with
  | rejected hg => exact ⟨rfl, hg⟩
  | closed hk v => cases v <;> cases hst
  | _ => cases hst

theorem PairState.at_historical {n : ℕ} (h : PairState known .reconciliationRequired n g) :
    n = 2 ∧ ¬ known ∧ (g = .pending ∨ g = .reconciliationRequired) := by
  generalize hst : HITLSessionStatus.reconciliationRequired = st at h
  cases h with
  | historical hk hg => exact ⟨rfl, hk, hg⟩
  | closed hk v => cases v <;> cases hst
  | _ => cases hst

theorem PairState.at_pending {n : ℕ} (h : PairState known .pending n g) : n = 1 := by
  generalize hst : HITLSessionStatus.pending = st at h
  cases h with
  | waiting => rfl
  | granted => rfl
  | closed hk v => cases v <;> cases hst
  | _ => cases hst

theorem PairState.at_resumed {n : ℕ} (h : PairState known .resumed n g) : n = 3 := by
  generalize hst : HITLSessionStatus.resumed = st at h
  cases h with
  | closed hk v => rfl
  | _ => cases hst

theorem PairState.not_expired {n : ℕ} : ¬ PairState known .expired n g := by
  intro h
  generalize hst : HITLSessionStatus.expired = st at h
  cases h with
  | closed hk v => cases v <;> cases hst
  | _ => cases hst

/-- A pending grant belongs to a session nobody owns. -/
theorem PairState.pending_le {n : ℕ} (h : PairState known st n .pending) : n ≤ 2 := by
  generalize hg : GrantStatus.pending = g at h
  cases h with
  | closed hk v => cases v <;> cases hg
  | _ => decide

/-- Approving a pending grant. -/
theorem PairState.approve {n : ℕ} (hk : known) (h : PairState known st n .pending) :
    PairState known st n .approved := by
  generalize hg : GrantStatus.pending = g at h
  cases h with
  | waiting => exact .granted hk
  | rejected => exact .rejected (.inr (.inl rfl))
  | historical hun => exact absurd hk hun
  | carrying _ hg' =>
    subst hg
    rcases hg' with h | h | ⟨v, h⟩
    · cases h
    · cases h
    · cases v <;> cases h
  | closed _ v => cases v <;> cases hg
  | granted => cases hg

end

/-- The stored session and grant are in a joint state. -/
def Joint (known : Prop) (sid : String) (db : Db) : Prop :=
  ∃ row g, db.hitl.get sid = some row ∧ db.grants.get sid = some g ∧
    PairState known row.status row.version g.status

/-- The grant was approved by the actor and not yet claimed. -/
def GrantedBy (sid : String) (db : Db) (actorId : String) : Prop :=
  ∃ g, db.grants.get sid = some g ∧ g.status = .approved ∧ g.approvingActorId = actorId

/-- The call has approved the grant and is about to approve the session. -/
def Pos.granted? : Pos → Option (HITLSession × String)
  | granted s actorId => some (s, actorId)
  | _ => none

/-- The call has approved both and is about to claim the grant. -/
def Pos.approved? : Pos → Option (HITLSession × String)
  | approved s actorId => some (s, actorId)
  | _ => none

/-- The call has rejected the session and is about to mark the grant. -/
def Pos.rejecting? : Pos → Option HITLSession
  | rejecting s => some s
  | _ => none

/-- The call is about to mark the grant for reconciliation. -/
def Pos.reconciling? : Pos → Option HITLSession
  | reconciling s => some s
  | _ => none

/-- What a call knows about the joint state. -/
structure Pos.Joins (s₀ : HITLSession) (sid : String) (db : Db) (p : Pos) : Prop where
  operation : ∀ s, p.session? = some s → s₀.SameOperation s
  fresh : ∀ s, p.fresh? = some s →
    s.status = .pending ∧ s.version = 1 ∨ s.status = .resumed ∧ s.version = 3
  owner : ∀ s, p.owner? = some s → s.version = 1
  granted : ∀ x, p.granted? = some x → x.1.version = 1 ∧ x.1.toolCallId ≠ "" ∧
    (SessionHas sid db (· = .pending) → GrantedBy sid db x.2)
  approved : ∀ x, p.approved? = some x → GrantedBy sid db x.2
  rejecting : p.rejecting?.isSome → SessionHas sid db (· = .rejected)

section

variable {py : PyLib} {sid : String} {call : Call} {p q : Pos} {o : Op} {r : o.Res} {env : Env}
  {db db' : Db} {s₀ : HITLSession} {h : List (LogEntry Call)} {i : ℕ}

/-- What a call writes that has not decided yet. -/
theorem Move.decides_cases {s : HITLSession} {status : HITLSessionStatus} {now : String} {v : ℕ}
    {hit : Bool} (move : Move py call p (.hitl (.updateStatus sid status now v)) hit q)
    (here : p.fresh? = some s) :
    (status = .expired ∧ s.expiresAt.isSome) ∨
      (status = .reconciliationRequired ∧ s.toolCallId = "") ∨
      (status = .approved ∧ ∃ a, p = .granted s a) ∨ status = .rejected := by
  cases move with
  | idle r quiet => exact quiet.elim
  | expire now hit deadline => cases here; exact .inl ⟨rfl, deadline⟩
  | reconcile now hit historical => cases here; exact .inr (.inl ⟨rfl, historical⟩)
  | approve => cases here; exact .inr (.inr (.inl ⟨rfl, _, rfl⟩))
  | approveRefused => cases here; exact .inr (.inr (.inl ⟨rfl, _, rfl⟩))
  | reject => exact .inr (.inr (.inr rfl))
  | rejectRefused => exact .inr (.inr (.inr rfl))
  | _ => cases here

/-- What the owner writes: the status that goes with the grant. -/
theorem Move.closes_cases {s : HITLSession} {status : HITLSessionStatus} {now : String} {v : ℕ}
    {hit : Bool} (move : Move py call p (.hitl (.updateStatus sid status now v)) hit q)
    (here : p.owner? = some s) :
    ∃ v : Verdict, status = v.status ∧ p.grant? = some v.mark.target := by
  cases move with
  | idle r quiet => exact quiet.elim
  | denySession => exact ⟨.failed none, rfl, rfl⟩
  | @markSession _ _ _ _ v => exact ⟨v, rfl, rfl⟩
  | _ => cases here

/-- What `rejectsResumed` excludes. -/
theorem not_resumed_of_ok {now : String} {hit : Bool} {row : HITLRow}
    (hok : rejectsResumed db ⟨i, call, .hitl (.updateStatus sid .rejected now row.version), env,
      hit⟩ = false) (hrow : db.hitl.get sid = some row) : row.status ≠ .resumed := by
  intro hres
  simp [rejectsResumed, hrow, hres] at hok

/-- A recorded operation has no deadline, and never gets one. -/
theorem SameStored.deadline {row₀ : HITLRow} {g₀ : GrantRecord}
    (hrow₀ : row₀.toSession py = some s₀) (hdead : s₀.expiresAt = none)
    (hdb : SameStored sid row₀ g₀ db) :
    ∀ row, db.hitl.get sid = some row → row.expiresAt = none := by
  intro row hrow
  obtain ⟨⟨row₁, hrow₁, hsame⟩, -⟩ := hdb
  obtain rfl := Option.some.inj (hrow.symm.trans hrow₁)
  obtain ⟨args, -, rfl⟩ := Option.map_eq_some_iff.mp hrow₀
  exact hsame.deadline.symm.trans hdead

/-- A statement on the session keeps the pair in a joint state. -/
theorem Joint.hitl {known : Prop} (hknown : known ↔ s₀.toolCallId ≠ "")
    (hdead : s₀.expiresAt = none) (hJ : Joint known sid db)
    (hdrow : ∀ row, db.hitl.get sid = some row → row.expiresAt = none)
    (hlock : call.Decides sid → p.Lock sid db)
    (hgrant : call.Decides sid → ∀ st, p.grant? = some st → db.grants.status? sid = some st)
    (hp : call.Decides sid → p.Joins s₀ sid db) (move : Move py call p o r q)
    (he : exec o env db = some (r, db')) (ho : o.onHitl = true)
    (hok : rejectsResumed db ⟨i, call, o, env, r⟩ = false) : Joint known sid db' := by
  obtain ⟨row, g, hrow, hg, hpair⟩ := hJ
  obtain ⟨row', hrow', hch⟩ := move.row he hrow
  have hg' : db'.grants.get sid = some g := by
    rw [exec_grantsAfter he]
    cases o with
    | hitl => exact hg
    | _ => cases ho
  refine ⟨row', g, hrow', hg', ?_⟩
  cases hch with
  | same => exact hpair
  | swept now hpend hexp => rw [hdrow row hrow] at hexp; cases hexp
  | @decided s status now dec here hop hne hv =>
    subst hop
    have hop := (hp dec).operation s
      (by cases p <;> first | exact here | cases here)
    have hstatus := ((hlock dec).fresh s here).status hrow hv
    rcases move.decides_cases here with ⟨-, hexp⟩ | ⟨rfl, hist⟩ | ⟨rfl, a, rfl⟩ | rfl
    · rw [← hop.deadline, hdead] at hexp
      cases hexp
    · -- the reconciliation gate: only operations without a call id come here
      have hun : ¬ known := by rw [hknown, hop.call, hist]; exact fun h => h rfl
      rcases (hp dec).fresh s here with ⟨-, hone⟩ | ⟨-, hthree⟩
      · rw [hv, hone] at hpair
        rw [hone]
        exact .historical hun (.inl (hpair.at_one.2.resolve_right fun h => hun h.1))
      · rw [hv, hthree] at hpair
        exact absurd hpair.at_three.1 hun
    · obtain ⟨hone, hid, hby⟩ := (hp dec).granted (s, a) rfl
      rw [hv, hone] at hpair
      obtain ⟨g₁, hg₁, happ, -⟩ := hby ⟨row, hrow, hpair.at_one.1⟩
      obtain rfl := Option.some.inj (hg.symm.trans hg₁)
      rw [hone]
      refine .carrying ?_ (.inl happ)
      rwa [hknown, hop.call]
    · rcases (hp dec).fresh s here with ⟨-, hone⟩ | ⟨hres, -⟩
      · rw [hv, hone] at hpair
        rw [hone]
        exact .rejected (hpair.at_one.2.imp_right fun h => .inl h.2)
      · -- the late rejection
        rw [← hv] at hok
        rcases hstatus with hst | ⟨hst, -⟩
        · exact absurd (hst.trans hres) (not_resumed_of_ok hok hrow)
        · rw [hres] at hst
          cases hst
  | @closed s status now dec here hop hst hv =>
    subst hop
    obtain ⟨v, rfl, hgv⟩ := move.closes_cases here
    obtain ⟨row₁, hrow₁, happ, -⟩ := (hlock dec).owner s here
    obtain rfl := Option.some.inj (hrow.symm.trans hrow₁)
    rw [happ] at hpair
    have hgs := hgrant dec _ hgv
    rw [GrantTable.status?, hg, Option.map_some, Option.some.injEq] at hgs
    rw [(hp dec).owner s here, hgs]
    exact .closed hpair.at_approved.1 v

/-- An update that applies touches the row. -/
theorem hit_of_guard {u : GrantUpdate} {hit : Bool} {g : GrantRecord}
    (he : exec (.grant (.update u)) env db = some (hit, db'))
    (hg : db.grants.get u.sessionId = some g) (hguard : u.change.guard g = true) : hit = true := by
  obtain ⟨rfl, -⟩ := exec_grant he
  exact Sql.Table.update_hit_iff.mpr ⟨g, hg, hguard⟩

/-- A statement on the grant keeps the pair in a joint state. -/
theorem Joint.grant {known : Prop} (hknown : known ↔ s₀.toolCallId ≠ "")
    (hJ : Joint known sid db) (hlock : call.Decides sid → p.Lock sid db)
    (hp : call.Decides sid → p.Joins s₀ sid db) (move : Move py call p o r q)
    (he : exec o env db = some (r, db')) (ho : o.onHitl = false)
    (hok : reconcilesUndecided db ⟨i, call, o, env, r⟩ = false) : Joint known sid db' := by
  obtain ⟨row, g, hrow, hg, hpair⟩ := hJ
  have hrow' : db'.hitl.get sid = some row := by rw [exec_not_onHitl ho he, hrow]
  -- the status of the session, as the call knows it
  have status_of {st : HITLSessionStatus} (hs : SessionHas sid db (· = st)) : row.status = st := by
    obtain ⟨row₁, hrow₁, rfl⟩ := hs
    exact congrArg _ (Option.some.inj (hrow.symm.trans hrow₁))
  have owned {s : HITLSession} (dec : call.Decides sid) (hs : p.owner? = some s) :
      row.status = .approved := by
    obtain ⟨row₁, hrow₁, happ, -⟩ := (hlock dec).owner s hs
    exact status_of ⟨row₁, hrow₁, happ⟩
  have carried {st : GrantStatus} (happ : row.status = .approved)
      (hst : st = .approved ∨ st = .consuming ∨ ∃ v : Verdict, st = v.mark.target) :
      PairState known row.status row.version st := by
    rw [happ] at hpair ⊢
    obtain ⟨hk, hn, -⟩ := hpair.at_approved
    rw [hn]
    exact .carrying hk hst
  cases o with
  | hitl => cases ho
  | grant o =>
    rcases GrantOp.get_exec (o := o) hg with hget | ⟨u, rfl, rfl, hguard, hget⟩
    · exact ⟨row, g, hrow', by rw [exec_grantsAfter he]; exact hget, hpair⟩
    · refine ⟨row, u.change.set g, hrow', by rw [exec_grantsAfter he]; exact hget, ?_⟩
      obtain rfl := hit_of_guard he hg hguard
      have hmove := u.move hguard
      cases move with
      | idle r quiet => exact quiet.elim
      | grant actorId now hid =>
        have hpend : g.status = .pending := of_decide_eq_true ((Bool.and_eq_true _ _).mp hguard).1
        rw [hpend] at hpair
        have hop := (hp rfl).operation _ rfl
        refine hpair.approve ?_
        rwa [hknown, hop.call]
      | consume now => exact carried (owned rfl rfl) (.inr (.inl rfl))
      | deny now => exact carried (owned rfl rfl) (.inr (.inr ⟨.failed none, rfl⟩))
      | @markGrant _ _ _ _ v now =>
        refine carried (owned rfl rfl) (.inr (.inr ⟨v, ?_⟩))
        cases v <;> rfl
      | rejectGrant now =>
        have hrej := status_of ((hp rfl).rejecting rfl)
        rw [hrej] at hpair ⊢
        rw [hpair.at_rejected.1]
        exact .rejected (.inr (.inr rfl))
      | reconcileGrant now =>
        have hpend : g.status = .pending := of_decide_eq_true hguard
        have hrec : row.status = .reconciliationRequired := by
          by_contra hne
          simp only [GrantUpdate.sessionId] at hg hrow
          simp [reconcilesUndecided, GrantTable.status?, hg, hpend, hrow, hne] at hok
        rw [hrec] at hpair ⊢
        rw [hpair.at_historical.1]
        exact .historical hpair.at_historical.2.1 (.inr rfl)
  | _ => exact ⟨row, g, hrow', by rw [exec_grantsAfter he]; exact hg, hpair⟩

/-! ## What a call knows, step by step -/

/-- Only the claim and a rejection move a grant out of `APPROVED`. -/
theorem GrantedBy.change {actorId : String} (hby : GrantedBy sid db actorId)
    (move : Move py call p o r q) (he : exec o env db = some (r, db'))
    (hclaim : call.Decides sid → p.approved? = none)
    (hreject : call.Decides sid → p.rejecting? = none) : GrantedBy sid db' actorId := by
  obtain ⟨g, hg, happ, hactor⟩ := hby
  rw [GrantedBy, exec_grantsAfter he]
  cases o with
  | grant o =>
    rcases GrantOp.get_exec (o := o) hg with hget | ⟨u, rfl, rfl, hguard, hget⟩
    · exact ⟨g, hget, happ, hactor⟩
    · exfalso
      have hmove := u.move hguard
      rw [happ] at hmove
      generalize (u.change.set g).status = st at hmove
      cases move with
      | idle r quiet => exact quiet.elim
      | consume => cases hclaim rfl
      | consumeRefused => cases hclaim rfl
      | rejectGrant => cases hreject rfl
      | reconcileGrant => cases hmove with | mark _ _ ha => cases ha
      | deny => cases hmove with | mark _ _ ha => cases ha
      | @markGrant _ _ _ _ v =>
        generalize hm : v.mark = m at hmove
        cases hmove with | mark _ _ ha => subst hm; cases v <;> cases ha
      | _ => cases hmove
  | _ => exact ⟨g, hg, happ, hactor⟩

/-- A session does not become `PENDING`. -/
theorem SessionHas.of_pending (move : Move py call p o r q) (he : exec o env db = some (r, db'))
    {row : HITLRow} (hrow : db.hitl.get sid = some row) (hs : SessionHas sid db' (· = .pending)) :
    SessionHas sid db (· = .pending) := by
  obtain ⟨row', hrow', hch⟩ := move.row he hrow
  obtain ⟨row₁, hrow₁, hpend⟩ := hs
  obtain rfl := Option.some.inj (hrow'.symm.trans hrow₁)
  refine ⟨row, hrow, ?_⟩
  cases hch with
  | same => exact hpend
  | swept => cases hpend
  | decided _ _ _ hne => exact absurd hpend hne.1
  | closed _ _ _ hst => rcases hst with rfl | rfl <;> cases hpend

/-- A session that can be decided, with the version that goes with its status. -/
theorem PairState.live {known : Prop} {status : HITLSessionStatus} {version : ℕ}
    {granted : GrantStatus} (hpair : PairState known status version granted)
    (hlive : status = .pending ∨ status = .resumed) :
    status = .pending ∧ version = 1 ∨ status = .resumed ∧ version = 3 := by
  rcases hlive with rfl | rfl
  · exact .inl ⟨rfl, hpair.at_pending⟩
  · exact .inr ⟨rfl, hpair.at_resumed⟩

/-- Who finds the grant pending has read the first version of the session. -/
theorem Pos.Joins.first_version {row : HITLRow} {s : HITLSession} {known : Prop}
    (hp : p.Joins s₀ sid db) (hlock : p.Lock sid db) (hs : p.fresh? = some s)
    (hrow : db.hitl.get sid = some row) (hpair : PairState known row.status row.version .pending) :
    s.version = 1 := by
  obtain ⟨-, row₁, hrow₁, hle, -⟩ := hlock.fresh s hs
  obtain rfl := Option.some.inj (hrow.symm.trans hrow₁)
  rcases hp.fresh s hs with ⟨-, h⟩ | ⟨-, h⟩
  · exact h
  · exact absurd (h ▸ hle.trans hpair.pending_le) (by decide)

/-- One move of a call on the session: what it knows afterwards. -/
theorem Pos.Joins.step {row₀ : HITLRow} {g₀ : GrantRecord}
    (hrow₀ : row₀.toSession py = some s₀) (hdb : SameStored sid row₀ g₀ db)
    (hJ : Joint (s₀.toolCallId ≠ "") sid db) (hlock : p.Lock sid db) (hp : p.Joins s₀ sid db)
    (dec : call.Decides sid) (move : Move py call p o r q) (he : exec o env db = some (r, db'))
    (hlock' : q.Lock sid db') : q.Joins s₀ sid db' := by
  obtain ⟨row, g, hrow, hg, hpair⟩ := hJ
  cases move with
  | @idle _ _ o _ quiet =>
    obtain ⟨hhitl, hgrants, -⟩ := exec_quiet quiet he
    obtain ⟨h₁, h₂, h₃, h₄, h₅, h₆⟩ := hp
    simp only [SessionHas, GrantedBy] at h₄ h₅ h₆
    refine ⟨h₁, h₂, h₃, ?_, ?_, ?_⟩ <;> simpa only [SessionHas, GrantedBy, hhitl, hgrants]
  | @load _ _ row' s dec' hrow' live =>
    obtain rfl := dec.unique dec'
    obtain ⟨hr, rfl⟩ := exec_hitl he
    obtain rfl := Option.some.inj (hrow.symm.trans hr.symm)
    obtain ⟨⟨row₁, hrow₁, hsame⟩, -⟩ := hdb
    obtain rfl := Option.some.inj (hrow.symm.trans hrow₁)
    have hop := HITLRow.toSession_sameOperation hsame hrow₀ hrow'
    obtain ⟨args, -, rfl⟩ := Option.map_eq_some_iff.mp hrow'
    have hlive := (hlock'.fresh _ rfl).1
    refine ⟨?_, ?_, vacuous rfl, vacuous rfl, vacuous rfl, vacuous_isSome rfl⟩
    · rintro _ ⟨⟩
      exact hop
    · rintro _ ⟨⟩
      exact hpair.live hlive
  | @grant _ _ s actorId now hid =>
    obtain rfl := dec
    obtain ⟨hr, rfl⟩ := exec_grant he
    obtain ⟨g₁, hg₁, hguard, hget, -⟩ := GrantUpdate.get_of_hit hr.symm
    obtain rfl := Option.some.inj (hg.symm.trans hg₁)
    have hpend : g.status = .pending := of_decide_eq_true ((Bool.and_eq_true _ _).mp hguard).1
    rw [hpend] at hpair
    have hone : s.version = 1 := hp.first_version hlock rfl hrow hpair
    refine ⟨hp.operation, hp.fresh, vacuous rfl, ?_, vacuous rfl, vacuous_isSome rfl⟩
    rintro _ ⟨⟩
    exact ⟨hone, hid, fun _ => ⟨_, hget, rfl, rfl⟩⟩
  | @approve _ _ s actorId now =>
    obtain rfl := dec
    obtain ⟨hone, -, hby⟩ := hp.granted _ rfl
    obtain ⟨hr, rfl⟩ := exec_hitl he
    obtain ⟨row₁, hrow₁, hv, -⟩ := HITLOp.get_updateStatus_of_hit hr.symm
    obtain rfl := Option.some.inj (hrow.symm.trans hrow₁)
    rw [hv, hone] at hpair
    refine ⟨hp.operation, vacuous rfl, ?_, vacuous rfl, ?_, vacuous_isSome rfl⟩
    · rintro _ ⟨⟩
      exact hone
    · rintro _ ⟨⟩
      exact hby ⟨row, hrow, hpair.at_one.1⟩
  | reject now =>
    obtain rfl := dec
    obtain ⟨hr, rfl⟩ := exec_hitl he
    obtain ⟨_, -, -, hget⟩ := HITLOp.get_updateStatus_of_hit hr.symm
    exact ⟨hp.operation, vacuous rfl, vacuous rfl, vacuous rfl, vacuous rfl,
      fun _ => ⟨_, hget, rfl⟩⟩
  | _ =>
    refine ⟨?_, vacuous rfl, ?_, vacuous rfl, vacuous rfl, vacuous_isSome rfl⟩
    · first | exact hp.operation | exact vacuous rfl
    · first | exact hp.owner | exact vacuous rfl

/-- A move of another call leaves it what it knows. -/
theorem Pos.Joins.other {p' : Pos} {known : Prop} (hJ : Joint known sid db)
    (hlock : call.Decides sid → p.Lock sid db) (hp : call.Decides sid → p.Joins s₀ sid db)
    (hlock' : p'.Lock sid db) (hp' : p'.Joins s₀ sid db) (move : Move py call p o r q)
    (he : exec o env db = some (r, db'))
    (hex : ¬ ((call.Decides sid ∧ p.owner?.isSome) ∧ p'.owner?.isSome)) : p'.Joins s₀ sid db' := by
  obtain ⟨row, g, hrow, -, -⟩ := hJ
  refine ⟨hp'.operation, hp'.fresh, hp'.owner, fun x hx => ?_, fun x hx => ?_, fun hr => ?_⟩
  · obtain ⟨hone, hid, hby⟩ := hp'.granted x hx
    refine ⟨hone, hid, fun hpend => ?_⟩
    have hpend := SessionHas.of_pending move he hrow hpend
    obtain ⟨row₁, hrow₁, hst⟩ := id hpend
    refine (hby hpend).change move he (fun dec => ?_) (fun dec => ?_)
    · -- who claims the grant owns the session, and the session is pending
      cases p with
      | approved s a =>
        obtain ⟨row₂, hrow₂, happ, -⟩ := (hlock dec).owner s rfl
        obtain rfl := Option.some.inj (hrow₁.symm.trans hrow₂)
        rw [hst] at happ
        cases happ
      | _ => rfl
    · cases p with
      | rejecting s =>
        obtain ⟨row₂, hrow₂, hrej⟩ := (hp dec).rejecting rfl
        obtain rfl := Option.some.inj (hrow₁.symm.trans hrow₂)
        rw [hst] at hrej
        cases hrej
      | _ => rfl
  · have hown : p'.owner? = some x.1 := by
      cases p' with
      | approved s a => cases hx; rfl
      | _ => cases hx
    refine (hp'.approved x hx).change move he (fun dec => ?_) (fun dec => ?_)
    · cases p with
      | approved s a => exact absurd ⟨⟨dec, rfl⟩, by rw [hown]; rfl⟩ hex
      | _ => rfl
    · cases p with
      | rejecting s =>
        obtain ⟨row₁, hrow₁, happ, -⟩ := hlock'.owner _ hown
        obtain ⟨row₂, hrow₂, hrej⟩ := (hp dec).rejecting rfl
        obtain rfl := Option.some.inj (hrow₁.symm.trans hrow₂)
        rw [happ] at hrej
        cases hrej
      | _ => rfl
  · exact (hp'.rejecting hr).final_stays (.inl rfl) hlock move he

end

/-! ## Who repairs the pair -/

/-- The calls that are on their way to repair the pair, by the status of the session. -/
def Pos.Pays (p : Pos) : HITLSessionStatus → Bool
  | .pending => p.granted?.isSome
  | .approved => p.owner?.isSome
  | .rejected => p.rejecting?.isSome
  | .reconciliationRequired => p.reconciling?.isSome
  | _ => false

section Pays

variable {s : HITLSession} {st : HITLSessionStatus}

theorem Pos.pays_granted {actorId : String} (h : (granted s actorId).Pays st = true) :
    st = .pending := by
  cases st <;> first | rfl | cases h

theorem Pos.pays_rejecting (h : (rejecting s).Pays st = true) : st = .rejected := by
  cases st <;> first | rfl | cases h

theorem Pos.pays_reconciling (h : (reconciling s).Pays st = true) :
    st = .reconciliationRequired := by
  cases st <;> first | rfl | cases h

end Pays

/-- The call is on its way to repair the pair of the session. -/
def Repairs (sid : String) (db : Db) (call : Call) (p : Pos) : Prop :=
  call.Decides sid ∧ SessionHas sid db fun st => p.Pays st = true

/-- A joint state whose session is closed is consistent. -/
theorem Joint.consistent_of_closed {known : Prop} {sid : String} {db : Db}
    (hJ : Joint known sid db) (v : Verdict) (hs : SessionHas sid db (· = v.status)) :
    Consistent sid db := by
  obtain ⟨row, g, hrow, hg, hpair⟩ := hJ
  obtain ⟨row₁, hrow₁, hst⟩ := hs
  obtain rfl := Option.some.inj (hrow.symm.trans hrow₁)
  refine ⟨row, g, hrow, hg, ?_⟩
  rw [hst] at hpair ⊢
  generalize hv : v.status = st at hpair ⊢
  generalize g.status = gs at hpair ⊢
  generalize row.version = n at hpair
  cases hpair with
  | closed hk v' => cases v' <;> simp [consistentPairs, Verdict.status, Verdict.mark, GrantMark.target]
  | _ => cases v <;> cases hv

section

variable {py : PyLib} {sid : String} {call : Call} {p q : Pos} {o : Op} {r : o.Res} {env : Env}
  {db db' : Db} {known : Prop}

/-- An update that finds the expected version touches the row. -/
theorem hit_of_version {status : HITLSessionStatus} {now : String} {v : ℕ} {hit : Bool}
    {row : HITLRow} (he : exec (.hitl (.updateStatus sid status now v)) env db = some (hit, db'))
    (hrow : db.hitl.get sid = some row) (hv : row.version = v) :
    hit = true ∧ SessionHas sid db' (· = status) := by
  obtain ⟨rfl, rfl⟩ := exec_hitl he
  have hguard : (HITLRow.updateStatus status now v).guard row = true := decide_eq_true hv
  have hhit := Sql.Table.update_hit_iff.mpr ⟨row, hrow, hguard⟩
  obtain ⟨_, -, -, hget⟩ := Sql.Table.get_update_of_hit hhit
  exact ⟨hhit, _, hget, rfl⟩

/-- The pair of a session whose grant is marked as the session says is consistent. -/
theorem consistent_of_marked {m : GrantMark} {row : HITLRow} {g : GrantRecord} {now : String}
    {hit : Bool} (hrow : db.hitl.get sid = some row) (hg : db.grants.get sid = some g)
    (he : exec (.grant (.update (.mark m sid now))) env db = some (hit, db'))
    (hgs : m.appliesTo g.status = true ∨ g.status = m.target)
    (hmem : (row.status, m.target) ∈ consistentPairs) : Consistent sid db' := by
  have hst : db.grants.status? sid = some g.status := congrArg (Option.map _) hg
  have hst' : db'.grants.status? sid = some m.target := by
    rw [exec_grantsAfter he]
    rcases hgs with happ | hdst
    · exact GrantMark.status?_mark hst happ
    · rw [hdst] at hst
      rcases GrantOp.status?_exec (o := .update (.mark m sid now)) hst with h | ⟨u, st', -, -, hm, -⟩
      · exact h
      · exact absurd hm (m.target_final u st')
  obtain ⟨g', hg', hgt⟩ := Option.map_eq_some_iff.mp hst'
  refine ⟨row, g', by rw [exec_not_onHitl rfl he, hrow], hg', ?_⟩
  rw [hgt]
  exact hmem

/-- So the pair of a session that waits for a reconciliation is consistent once its grant does. -/
theorem Joint.consistent_of_reconcile {now : String} {hit : Bool} (hJ : Joint known sid db)
    (hs : SessionHas sid db (· = .reconciliationRequired))
    (he : exec (.grant (.update (.mark .reconciliationRequired sid now))) env db =
      some (hit, db')) : Consistent sid db' := by
  obtain ⟨row, g, hrow, hg, hpair⟩ := hJ
  obtain ⟨row₁, hrow₁, hst⟩ := hs
  obtain rfl := Option.some.inj (hrow.symm.trans hrow₁)
  rw [hst] at hpair
  refine consistent_of_marked hrow hg he ?_ ?_
  · exact hpair.at_historical.2.2.imp_left fun h => by rw [h]; rfl
  · rw [hst]
    decide

/-- And that of a rejected session once its grant is rejected. -/
theorem Joint.consistent_of_reject {now : String} {hit : Bool} (hJ : Joint known sid db)
    (hs : SessionHas sid db (· = .rejected))
    (he : exec (.grant (.update (.mark .rejected sid now))) env db = some (hit, db')) :
    Consistent sid db' := by
  obtain ⟨row, g, hrow, hg, hpair⟩ := hJ
  obtain ⟨row₁, hrow₁, hst⟩ := hs
  obtain rfl := Option.some.inj (hrow.symm.trans hrow₁)
  rw [hst] at hpair
  refine consistent_of_marked hrow hg he ?_ ?_
  · rcases hpair.at_rejected.2 with h | h | h
    · exact .inl (by rw [h]; rfl)
    · exact .inl (by rw [h]; rfl)
    · exact .inr h
  · rw [hst]
    decide

/-- What `approve` finds under its key is readable and no success, unless it is looked up done. -/
theorem open_of_lookup {key : String} {ctx : Option Json} {found : Option IdempotencyRow}
    {i : ℕ} (he : exec (.idem (.select key)) env db = some (found, db'))
    (hok : looksUpDone py sid db ⟨i, .approve sid ctx, .idem (.select key), env, found⟩ = false)
    {rec : IdempotencyRow} (hfound : found = some rec) :
    rec.status ≠ .succeeded ∧ rec.toRecord py ≠ none := by
  obtain ⟨hr, -⟩ := exec_idem he
  have hget : db.idem.get key = some rec := hr.symm.trans hfound
  constructor
  · intro hst
    simp [looksUpDone, hget, hst] at hok
  · intro hbad
    simp [looksUpDone, hget, hbad] at hok

/-- A record that is held is found. -/
theorem found_of_held {key : String} {found : Option IdempotencyRow}
    (hheld : Held (db.idem.status? key))
    (he : exec (.idem (.select key)) env db = some (found, db')) : ∃ rec, found = some rec := by
  have hr : found = db.idem.get key := (exec_idem he).1
  have hsome : (db.idem.status? key).isSome := hheld.2
  rw [IdempotencyTable.status?, ← hr, Option.isSome_map] at hsome
  exact Option.isSome_iff_exists.mp hsome

/-- A grant that is being claimed is found by the call that claims it. -/
theorem selectConsuming_found {found : Option GrantRecord}
    (hst : db.grants.status? sid = some .consuming)
    (he : exec (.grant (.selectConsuming sid)) env db = some (found, db')) :
    found.isSome = true := by
  obtain ⟨hr, -⟩ := exec_grant he
  obtain ⟨g, hg, hgs⟩ := Option.map_eq_some_iff.mp hst
  simp [hr, GrantOp.exec, hg, hgs, Option.filter]

/-- **A call that is to repair the pair does**, or still will. -/
theorem Repairs.step {s₀ : HITLSession} {h : List (LogEntry Call)} {i : ℕ}
    {key? : Option String} (hJ : Joint known sid db) (hJ' : Joint known sid db')
    (hlock : p.Lock sid db) (hset : p.Settled sid key? db h i call) (hp : p.Joins s₀ sid db)
    (hclaim : ∀ s a now, p.approved? = some (s, a) → GrantedBy sid db a →
      exec (.grant (.update (.consume sid (s.consumeParams py sid a) now))) env db ≠
        some (false, db'))
    (hrep : Repairs sid db call p) (move : Move py call p o r q)
    (he : exec o env db = some (r, db'))
    (hok : looksUpDone py sid db ⟨i, call, o, env, r⟩ = false) (hdebt : ¬ Consistent sid db') :
    Repairs sid db' call q := by
  have hJ₀ := hJ
  obtain ⟨dec, row, hrow, hpays⟩ := hrep
  obtain ⟨row₁, g, hrow₁, hg, hpair⟩ := hJ
  obtain rfl := Option.some.inj (hrow.symm.trans hrow₁)
  -- what does not write the session keeps its status
  have keep (ho : o.onHitl = false) (hq : q.Pays row.status = true) : Repairs sid db' call q :=
    ⟨dec, row, by rw [exec_not_onHitl ho he, hrow], hq⟩
  have owned {s : HITLSession} (hs : p.owner? = some s) :
      row.status = .approved ∧ row.version = s.version + 1 := by
    obtain ⟨row₂, hrow₂, h⟩ := hlock.owner s hs
    obtain rfl := Option.some.inj (hrow.symm.trans hrow₂)
    exact h
  cases move with
  | @idle _ _ o _ quiet =>
    refine keep ?_ hpays
    cases o <;> first | rfl | exact quiet.elim
  | approve now =>
    obtain rfl := dec
    obtain ⟨hr, rfl⟩ := exec_hitl he
    obtain ⟨_, -, -, hget⟩ := HITLOp.get_updateStatus_of_hit hr.symm
    exact ⟨rfl, _, hget, rfl⟩
  | @approveRefused _ _ s a now =>
    obtain rfl := dec
    rw [Pos.pays_granted hpays] at hpair
    have hv := hpair.at_pending.trans (hp.granted _ rfl).1.symm
    cases (hit_of_version he hrow hv).1
  | consumeRefused now =>
    obtain rfl := dec
    exact absurd he (hclaim _ _ now rfl (hp.approved _ rfl))
  | claimLost =>
    obtain rfl := dec
    cases selectConsuming_found (hset.grant _ rfl) he
  | lookupSucceeded hst =>
    obtain rfl := dec
    exact absurd hst (open_of_lookup he hok rfl).1
  | lookupBroken hbad =>
    obtain rfl := dec
    exact absurd hbad (open_of_lookup he hok rfl).2
  | @rereadBroken _ _ s _ _ found hbad =>
    obtain rfl := dec
    obtain ⟨rec, rfl⟩ := found_of_held hset.record he
    exact absurd (hbad rec rfl) (open_of_lookup he hok rfl).2
  | consume | claim | lookupNone | lookupFailed | lookupDenied | deny | reserve | reread | dispatch
    | markIdem | markGrant => exact keep rfl (by rw [(owned rfl).1]; rfl)
  | denySession now hit =>
    obtain rfl := dec
    refine absurd (hJ'.consistent_of_closed (.failed none) ?_) hdebt
    exact (hit_of_version he hrow (owned rfl).2).2
  | @markSession _ _ s retry v now hit =>
    obtain rfl := dec
    refine absurd (hJ'.consistent_of_closed v ?_) hdebt
    exact (hit_of_version he hrow (owned rfl).2).2
  | reconcileGrant now hit =>
    obtain rfl := dec
    exact absurd (hJ₀.consistent_of_reconcile ⟨row, hrow, Pos.pays_reconciling hpays⟩ he) hdebt
  | rejectGrant now hit =>
    obtain rfl := dec
    exact absurd (hJ₀.consistent_of_reject ⟨row, hrow, Pos.pays_rejecting hpays⟩ he) hdebt
  | _ => cases hst : row.status <;> rw [hst] at hpays <;> cases hpays

/-- Who decides on the session is then to repair the pair. -/
theorem Move.decides_pays {s : HITLSession} {status : HITLSessionStatus} {now : String} {v : ℕ}
    (move : Move py call p (.hitl (.updateStatus sid status now v)) true q)
    (here : p.fresh? = some s) : s.expiresAt.isSome ∨ q.Pays status = true := by
  cases move with
  | idle r quiet => exact quiet.elim
  | expire now hit deadline => cases here; exact .inl deadline
  | reconcile => exact .inr rfl
  | approve => exact .inr rfl
  | reject => exact .inr rfl
  | _ => cases here

/-- A pending session with a pending grant, or a grant nothing leads on from. -/
theorem consistent_cases {st : HITLSessionStatus} {g : GrantStatus}
    (h : (st, g) ∈ consistentPairs) :
    g = .pending ∧ (st = .pending ∨ st = .expired) ∨ ∃ m : GrantMark, g = m.target := by
  simp only [consistentPairs, List.mem_cons, Prod.mk.injEq, List.not_mem_nil, or_false] at h
  rcases h with ⟨rfl, rfl⟩ | ⟨rfl, rfl⟩ | ⟨rfl, rfl⟩ | ⟨rfl, rfl⟩ | ⟨rfl, rfl⟩ | ⟨rfl, rfl⟩ |
    ⟨rfl, rfl⟩
  · exact .inl ⟨rfl, .inl rfl⟩
  · exact .inr ⟨.rejected, rfl⟩
  · exact .inr ⟨.consumed, rfl⟩
  · exact .inr ⟨.failed, rfl⟩
  · exact .inr ⟨.unknown, rfl⟩
  · exact .inr ⟨.reconciliationRequired, rfl⟩
  · exact .inl ⟨rfl, .inr rfl⟩

/-- Who moves the grant of a consistent pair and leaves an inconsistent one has just
approved it, and is about to approve the session. -/
theorem granted_of_inconsistent {s₀ : HITLSession} {i : ℕ}
    {row : HITLRow} {g : GrantRecord} (hrow : db.hitl.get sid = some row)
    (hg : db.grants.get sid = some g) (hrow' : db'.hitl.get sid = some row)
    (hmem : (row.status, g.status) ∈ consistentPairs)
    (hp : call.Decides sid → p.Joins s₀ sid db) (move : Move py call p o r q)
    (he : exec o env db = some (r, db'))
    (hok : reconcilesUndecided db ⟨i, call, o, env, r⟩ = false) (hdebt : ¬ Consistent sid db') :
    call.Decides sid ∧ (row.status = .pending ∨ row.status = .expired) ∧ q.granted?.isSome := by
  have hsame (hget : db'.grants.get sid = some g) : Consistent sid db' :=
    ⟨row, g, hrow', hget, hmem⟩
  have hframe := exec_grantsAfter he
  cases o with
  | grant o =>
    rcases GrantOp.get_exec (o := o) hg with hget | ⟨u, rfl, rfl, hguard, -⟩
    · exact absurd (hsame (hframe ▸ hget)) hdebt
    · have hmove := u.move hguard
      obtain rfl := hit_of_guard he hg hguard
      generalize (u.change.set g).status = st' at hmove
      rcases consistent_cases hmem with ⟨hpend, hst⟩ | ⟨m, hm⟩
      · rw [hpend] at hmove
        cases move with
        | idle r quiet => exact quiet.elim
        | grant => exact ⟨rfl, hst, rfl⟩
        | rejectGrant =>
          obtain ⟨row₁, hrow₁, hrej⟩ := (hp rfl).rejecting rfl
          obtain rfl := Option.some.inj (hrow.symm.trans hrow₁)
          rw [hrej] at hst
          rcases hst with h | h <;> cases h
        | reconcileGrant =>
          exfalso
          simp only [GrantUpdate.sessionId] at hg hrow
          rcases hst with h | h <;>
            simp [reconcilesUndecided, GrantTable.status?, hg, hpend, hrow, h] at hok
        | deny => cases hmove with | mark _ _ ha => cases ha
        | @markGrant _ _ _ _ v =>
          generalize hv : v.mark = m at hmove
          cases hmove with | mark _ _ ha => subst hv; cases v <;> cases ha
        | _ => cases hmove
      · rw [hm] at hmove
        exact absurd hmove (m.target_final u st')
  | _ => exact absurd (hsame (by rw [hframe]; exact hg)) hdebt

/-- **A call that puts the pair out of step repairs it**, or it was out of step and
whoever had to repair it still has to. -/
theorem Repairs.incurred {s₀ : HITLSession} {i : ℕ}
    (hdead : s₀.expiresAt = none) (hJ : Joint known sid db)
    (hdrow : ∀ row, db.hitl.get sid = some row → row.expiresAt = none)
    (hlock : call.Decides sid → p.Lock sid db) (hp : call.Decides sid → p.Joins s₀ sid db)
    (hrep : ¬ Repairs sid db call p) (move : Move py call p o r q)
    (he : exec o env db = some (r, db'))
    (hok : reconcilesUndecided db ⟨i, call, o, env, r⟩ = false) (hdebt : ¬ Consistent sid db') :
    Repairs sid db' call q ∨ ¬ Consistent sid db ∧
      ∀ {call' : Call} {p' : Pos}, Repairs sid db call' p' → Repairs sid db' call' p' := by
  obtain ⟨row, g, hrow, hg, hpair⟩ := hJ
  obtain ⟨row', hrow', hch⟩ := move.row he hrow
  cases hch with
  | same =>
    by_cases hcons : Consistent sid db
    · left
      obtain ⟨row₁, g₁, hrow₁, hg₁, hmem⟩ := hcons
      obtain rfl := Option.some.inj (hrow.symm.trans hrow₁)
      obtain rfl := Option.some.inj (hg.symm.trans hg₁)
      obtain ⟨dec, hst, hq⟩ :=
        granted_of_inconsistent hrow hg hrow' hmem hp move he hok hdebt
      refine ⟨dec, row, hrow', ?_⟩
      rcases hst with hst | hst
      · rw [hst]
        exact hq
      · rw [hst] at hpair
        exact hpair.not_expired.elim
    · refine .inr ⟨hcons, fun hr => ?_⟩
      obtain ⟨dec, row₁, hrow₁, hpays⟩ := hr
      obtain rfl := Option.some.inj (hrow.symm.trans hrow₁)
      exact ⟨dec, row, hrow', hpays⟩
  | swept now hpend hexp => rw [hdrow row hrow] at hexp; cases hexp
  | closed dec here _ _ hv =>
    -- the owner is to repair the pair
    obtain ⟨row₁, hrow₁, happ, -⟩ := (hlock dec).owner _ here
    refine absurd ⟨dec, row₁, hrow₁, ?_⟩ hrep
    simp only [happ, Pos.Pays, here]
    rfl
  | @decided s status now dec here hop hne hv =>
    left
    subst hop
    obtain ⟨rfl, -⟩ := hit_of_version he hrow hv
    have hop := (hp dec).operation s (by cases p <;> first | exact here | cases here)
    rcases move.decides_pays here with hexp | hpays
    · rw [← hop.deadline, hdead] at hexp
      cases hexp
    · exact ⟨dec, _, hrow', hpays⟩

end

/-! ## At rest -/

/-- The joint state, on top of the lock and the settlement. -/
def restLayer (dep : Deployment) (oneFile : Bool) (sid : String) (db₀ : Db) {row₀ : HITLRow}
    {s₀ : HITLSession} {g₀ : GrantRecord} (hrow₀ : row₀.toSession dep.py = some s₀)
    (hdead : s₀.expiresAt = none) :
    ((lockOutline dep (undisturbed dep.py oneFile sid) sid).extend
      (settlementLayer dep _ sid db₀)).Layer where
  inv db _ := SameStored sid row₀ g₀ db ∧ Joint (s₀.toolCallId ≠ "") sid db
  asserts db _ _ call p := (call.Decides sid → p.Joins s₀ sid db) ∧
    ∀ ctx, call = .approve sid ctx → p.Knows dep.py s₀ g₀
  entry _ _ _ _ :=
    ⟨fun _ => ⟨vacuous rfl, vacuous rfl, vacuous rfl, vacuous rfl, vacuous rfl, vacuous_isSome rfl⟩,
      fun _ _ => trivial⟩
  step := by
    intro db db' h i call p q o r env _ hinv hO hp move he hok _ hO'
    obtain ⟨hdb, hJ⟩ := hinv
    obtain ⟨hlock, hset⟩ := hO
    obtain ⟨hres, -, hrec, -⟩ := hok
    refine ⟨⟨hdb.exec he, ?_⟩, fun dec => ?_, (Move.knows (i := i) dep sid hrow₀ hdb hp.2 move he).2⟩
    · cases ho : o.onHitl with
      | true =>
        exact hJ.hitl Iff.rfl hdead (hdb.deadline hrow₀ hdead) hlock
          (fun dec => (hset dec).grant) hp.1 move he ho hres
      | false => exact hJ.grant Iff.rfl hlock hp.1 move he ho hrec
    · exact (hp.1 dec).step hrow₀ hdb hJ (hlock dec) dec move he (hO'.1 dec)
  free := by
    intro db db' h i call p q o r env j call' p' _ hinv hO hp hO' hp' move he _ _ hex
    refine ⟨fun dec => ?_, hp'.2⟩
    exact Pos.Joins.other hinv.2 hO.1 hp.1 (hO'.1 dec) (hp'.1 dec) move he
      fun ho => hex ⟨ho.1, dec, ho.2⟩

/-- The outline of the calls on a recorded operation: lock, settlement, joint state. -/
def restOutline (dep : Deployment) (oneFile : Bool) (sid : String) (db₀ : Db) {row₀ : HITLRow}
    {s₀ : HITLSession} (g₀ : GrantRecord) (hrow₀ : row₀.toSession dep.py = some s₀)
    (hdead : s₀.expiresAt = none) :
    (service dep).Outline (undisturbed dep.py oneFile sid) (Move dep.py) (fun _ => .start) :=
  ((lockOutline dep _ sid).extend (settlementLayer dep _ sid db₀)).extend
    (@restLayer dep oneFile sid db₀ row₀ s₀ g₀ hrow₀ hdead)

/-- An approved grant of the operation passes the comparison of `atomic_consume`. -/
def Claimable (py : PyLib) (sid : String) (s₀ : HITLSession) (g₀ : GrantRecord) : Prop :=
  ∀ (s : HITLSession) (g : GrantRecord) (now : String), s₀.SameOperation s → g₀.SameOperation g →
    g.status = .approved →
    (GrantRecord.consume (s.consumeParams py sid g.approvingActorId) now).guard g = true

/-- The two copies of a recorded operation match. -/
theorem PendingOperation.claimable (py : PyLib) (p : PendingOperation) (now now' : String) :
    Claimable py p.sessionId (p.session now) (p.grant py now') := by
  intro s g t hs hg happ
  have hkey : s.grantKey = g.idempotencyKey := by
    rw [HITLRecord.grantKey, ← hs.key, ← hg.key]
    rfl
  simp [GrantRecord.consume, HITLSession.consumeParams, matchesOrOpen, happ, hkey, ← hs.user,
    ← hs.thread, ← hs.call, ← hs.tool, ← hs.args, ← hg.user, ← hg.thread, ← hg.call, ← hg.tool,
    ← hg.digest, ← hg.run, ← hg.deadline, ← hg.version, PendingOperation.session,
    PendingOperation.grant]

/-- An inconsistent pair, as a debt: some call is always about to repair it. -/
def pairDebt (dep : Deployment) (oneFile : Bool) (sid : String) (db₀ : Db) {row₀ : HITLRow}
    {s₀ : HITLSession} {g₀ : GrantRecord} (hrow₀ : row₀.toSession dep.py = some s₀)
    (hdead : s₀.expiresAt = none) (hclaim : Claimable dep.py sid s₀ g₀) :
    (restOutline dep oneFile sid db₀ g₀ hrow₀ hdead).Debt where
  debt db := ¬ Consistent sid db
  pays := Repairs sid
  step := by
    intro db db' h i call p q o r env hinv ha move he hok hdebt
    have hJ' := ((restOutline dep oneFile sid db₀ g₀ hrow₀ hdead).step hinv ha move he hok).1.2.2
    obtain ⟨-, hdb, hJ⟩ := hinv
    obtain ⟨⟨hlock, hset⟩, hp, -⟩ := ha
    by_cases hrep : Repairs sid db call p
    · left
      refine hrep.step hJ hJ' (hlock hrep.1) (hset hrep.1) (hp hrep.1) ?_ move he hok.2.1 hdebt
      rintro s a now happ ⟨g, hg, hst, rfl⟩ hmiss
      -- the grant is there, approved by this actor, and the operation matches
      obtain ⟨-, g₁, hg₁, hsame⟩ := hdb
      obtain rfl := Option.some.inj (hg.symm.trans hg₁)
      have hop : s₀.SameOperation s := by
        refine (hp hrep.1).operation s ?_
        cases p with
        | approved s' a' => cases happ; rfl
        | _ => cases happ
      have hguard := hclaim s g now hop hsame hst
      cases hit_of_guard (u := .consume sid (s.consumeParams dep.py sid _) now) hmiss hg hguard
    · rcases Repairs.incurred hdead hJ (hdb.deadline hrow₀ hdead) hlock hp hrep move he
        hok.2.2.1 hdebt with hq | ⟨hd, hothers⟩
      · exact .inl hq
      · exact .inr ⟨hd, hrep, fun _ _ _ hr => hothers hr⟩

/-- A call that is to repair the pair has not ended, if its grant can be read. -/
theorem Repairs.not_ended {dep : Deployment} {sid : String} {db : Db} {call : Call} {p : Pos}
    {out : Except Exn Reply} {s₀ : HITLSession} {g₀ : GrantRecord} (h : Repairs sid db call p)
    (hknows : ∀ ctx, call = .approve sid ctx → p.Knows dep.py s₀ g₀)
    (hread : (dep.py.loads g₀.canonicalToolArgs).isSome) : ¬ p.EndsCall dep.py call out := by
  obtain ⟨dec, row, -, hpays⟩ := h
  have hends : ∀ res, p.Ends dep.py sid res → ∃ s g retry, p = .reserved s g retry ∧
      dep.py.loads g.canonicalToolArgs = none := by
    intro res he
    cases p with
    | reserved s g retry => exact ⟨s, g, retry, rfl, he.1⟩
    | finished => cases hst : row.status <;> rw [hst] at hpays <;> cases hpays
    | loaded => cases hst : row.status <;> rw [hst] at hpays <;> cases hpays
    | broken => cases hst : row.status <;> rw [hst] at hpays <;> cases hpays
    | replayed => cases hst : row.status <;> rw [hst] at hpays <;> cases hpays
    | closed => cases hst : row.status <;> rw [hst] at hpays <;> cases hpays
    | rejected => cases hst : row.status <;> rw [hst] at hpays <;> cases hpays
    | _ => exact he.elim
  intro hend
  cases call with
  | approve sid' ctx =>
    obtain rfl := dec
    obtain ⟨res, -, he⟩ := hend
    obtain ⟨s, g, retry, rfl, hnone⟩ := hends res he
    obtain ⟨-, hsame⟩ := hknows ctx rfl
    rw [hsame.args, hnone] at hread
    cases hread
  | reject sid' ctx =>
    obtain rfl := dec
    obtain ⟨res, -, he, hpos⟩ := hend
    obtain ⟨s, g, retry, rfl, -⟩ := hends res he
    exact hpos
  | expireStaleSessions => exact dec

/-- The recorded operation of a request that was carried out before, under the same key. -/
def demoReplayDb : Db :=
  let reserved := ((IdempotencyOp.reserve "s:call-1" "submit_transfer" "{}" "t0").exec .empty).2
  let executing := ((IdempotencyOp.update "s:call-1" .executing).exec reserved).2
  { demoDb with idem := ((IdempotencyOp.update "s:call-1" (.succeeded "ok" "t0")).exec executing).2 }

end BankingAgent
