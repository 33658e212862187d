import BankingAgent.ApprovalProtocol
import BankingAgent.Async.Outline

/-!
# The optimistic lock on a session

A decision call reads the session once and writes it later, expecting the version
it read. The version only grows, and at one version the status changes in one way
only: the sweep may turn `PENDING` into `EXPIRED`. So

* a call that has read the session and not decided yet is **fresh**: the stored
  version is at least the one it read, and if it is that one, so is the status, up
  to the sweep;
* a call that has approved the session **owns** it: the stored session is
  `APPROVED` at the next version, and no other call can write it.

This holds for every session, from every database, and whatever else is going on.
-/

namespace BankingAgent

open Async

/-- The session a call has read and will decide on. -/
def Pos.fresh? : Pos → Option HITLSession
  | loaded s => some s
  | granted s _ => some s
  | _ => none

/-- The session a call has approved and will close. -/
def Pos.owner? : Pos → Option HITLSession
  | approved s _ => some s
  | consuming s => some s
  | claimed s _ => some s
  | denying s => some s
  | denied s => some s
  | looked s _ _ => some s
  | reserving s _ _ => some s
  | reserved s _ _ => some s
  | dispatched s _ _ => some s
  | idemMarked s _ _ => some s
  | grantMarked s _ _ => some s
  | _ => none

/-- What the call read is still there, up to the sweep, or the version has moved on. -/
def Fresh (sid : String) (db : Db) (s : HITLSession) : Prop :=
  (s.status = .pending ∨ s.status = .resumed) ∧
  ∃ row, db.hitl.get sid = some row ∧ s.version ≤ row.version ∧
    (s.version = row.version →
      row.status = s.status ∨ s.status = .pending ∧ row.status = .expired)

/-- The session is as the call left it when it approved it. -/
def Owned (sid : String) (db : Db) (s : HITLSession) : Prop :=
  ∃ row, db.hitl.get sid = some row ∧ row.status = .approved ∧ row.version = s.version + 1

/-- What a call on the session may rely on. -/
structure Pos.Lock (sid : String) (db : Db) (p : Pos) : Prop where
  fresh : ∀ s, p.fresh? = some s → Fresh sid db s
  owner : ∀ s, p.owner? = some s → Owned sid db s

/-- The stored session has such a status. -/
def SessionHas (sid : String) (db : Db) (P : HITLSessionStatus → Prop) : Prop :=
  ∃ row, db.hitl.get sid = some row ∧ P row.status

/-- The statuses no decision call and no sweep leads out of. `EXPIRED` is none of
them: the sweep leaves the version alone, and a call that has read `PENDING` before
it can still decide. -/
def HITLSessionStatus.Final (st : HITLSessionStatus) : Prop :=
  st = .rejected ∨ st = .failed ∨ st = .reconciliationRequired

/-! ## What a move does to the session -/

/-- The operation is a statement of the session store. -/
def Op.onHitl : Op → Bool
  | hitl _ => true
  | _ => false

/-- The moves of a call on the session, by what they do to it. -/
inductive SessionMove (py : PyLib) (sid : String) : Pos → (o : Op) → o.Res → Pos → Prop
  | keep {p q : Pos} {o : Op} {r : o.Res} (other : o.onHitl = false)
      (fresh : ∀ s, q.fresh? = some s → p.fresh? = some s)
      (owner : ∀ s, q.owner? = some s → p.owner? = some s) : SessionMove py sid p o r q
  | read {p q : Pos} {r : Option HITLRow}
      (fresh : ∀ s, q.fresh? = some s →
        ∃ row, r = some row ∧ HITLRow.toSession py row = some s ∧ s.isTerminal = false)
      (owner : q.owner? = none) : SessionMove py sid p (.hitl (.select sid)) r q
  | decide {p q : Pos} {s : HITLSession} {status : HITLSessionStatus} (now : String) {hit : Bool}
      (here : p.fresh? = some s) (status_ne : status ≠ .pending ∧ status ≠ .resumed)
      (fresh : q.fresh? = none)
      (owner : ∀ s', q.owner? = some s' → s' = s ∧ status = .approved ∧ hit = true) :
      SessionMove py sid p (.hitl (.updateStatus sid status now s.version)) hit q
  | close {p q : Pos} {s : HITLSession} {status : HITLSessionStatus} (now : String) {hit : Bool}
      (here : p.owner? = some s) (status_eq : status = .failed ∨ status = .resumed)
      (fresh : q.fresh? = none) (owner : q.owner? = none) :
      SessionMove py sid p (.hitl (.updateStatus sid status now (s.version + 1))) hit q

/-- Nothing is some value of `none`. -/
theorem vacuous {α : Type} {o : Option α} {P : α → Prop} (h : o = none) :
    ∀ a, o = some a → P a := by
  rintro a rfl
  cases h

/-- The same, for a field that only asks whether something is known. -/
theorem vacuous_isSome {α : Type} {o : Option α} {Q : Prop} (h : o = none) : o.isSome → Q := by
  rintro hsome
  rw [h] at hsome
  cases hsome

theorem Move.session {py : PyLib} {sid : String} {call : Call} {p q : Pos} {o : Op} {r : o.Res}
    (move : Move py call p o r q) (dec : call.Decides sid) : SessionMove py sid p o r q := by
  cases move with
  | @idle _ _ o _ quiet =>
    refine .keep ?_ (fun _ h => h) (fun _ h => h)
    cases o <;> first | rfl | exact quiet.elim
  | dismiss row dec' =>
    obtain rfl := dec.unique dec'
    exact .read (vacuous rfl) rfl
  | load dec' row_eq live =>
    obtain rfl := dec.unique dec'
    exact .read (by rintro _ ⟨⟩; exact ⟨_, rfl, row_eq, live⟩) rfl
  | expire now hit => obtain rfl := dec; exact .decide now rfl ⟨nofun, nofun⟩ rfl (vacuous rfl)
  | reconcile now hit hist => obtain rfl := dec; exact .decide now rfl ⟨nofun, nofun⟩ rfl (vacuous rfl)
  | approve now =>
    obtain rfl := dec
    exact .decide now rfl ⟨nofun, nofun⟩ rfl (by rintro _ ⟨⟩; exact ⟨rfl, rfl, rfl⟩)
  | approveRefused now => obtain rfl := dec; exact .decide now rfl ⟨nofun, nofun⟩ rfl (vacuous rfl)
  | reject now => obtain rfl := dec; exact .decide now rfl ⟨nofun, nofun⟩ rfl (vacuous rfl)
  | rejectRefused now => obtain rfl := dec; exact .decide now rfl ⟨nofun, nofun⟩ rfl (vacuous rfl)
  | denySession now hit => obtain rfl := dec; exact .close now rfl (.inl rfl) rfl rfl
  | @markSession _ _ s retry v now hit =>
    obtain rfl := dec
    exact .close now rfl (by cases v <;> simp [Verdict.status]) rfl rfl
  | sweep => exact dec.elim
  | grant => exact .keep rfl (fun _ h => h) (vacuous rfl)
  | reconcileGrant => exact .keep rfl (vacuous rfl) (vacuous rfl)
  | grantRefused => exact .keep rfl (vacuous rfl) (vacuous rfl)
  | consumeRefused => exact .keep rfl (vacuous rfl) (vacuous rfl)
  | claimLost => exact .keep rfl (vacuous rfl) (vacuous rfl)
  | lookupSucceeded => exact .keep rfl (vacuous rfl) (vacuous rfl)
  | lookupBroken => exact .keep rfl (vacuous rfl) (vacuous rfl)
  | rereadBroken => exact .keep rfl (vacuous rfl) (vacuous rfl)
  | rejectGrant => exact .keep rfl (vacuous rfl) (vacuous rfl)
  | _ => exact .keep rfl (vacuous rfl) (fun _ h => h)

/-- What a move can do to the stored session. -/
inductive RowChange (sid : String) (call : Call) (p : Pos) (o : Op) : HITLRow → HITLRow → Prop
  | same (row : HITLRow) : RowChange sid call p o row row
  | swept {row : HITLRow} (now : String) (pending : row.status = .pending)
      (deadline : row.expiresAt.isSome) :
      RowChange sid call p o row { row with status := .expired, updatedAt := now }
  | decided {row : HITLRow} {s : HITLSession} {status : HITLSessionStatus} {now : String}
      (dec : call.Decides sid) (here : p.fresh? = some s)
      (op_eq : o = .hitl (.updateStatus sid status now s.version))
      (status_ne : status ≠ .pending ∧ status ≠ .resumed) (version : row.version = s.version) :
      RowChange sid call p o row
        { row with status := status, updatedAt := now, version := s.version + 1 }
  | closed {row : HITLRow} {s : HITLSession} {status : HITLSessionStatus} {now : String}
      (dec : call.Decides sid) (here : p.owner? = some s)
      (op_eq : o = .hitl (.updateStatus sid status now (s.version + 1)))
      (status_eq : status = .failed ∨ status = .resumed) (version : row.version = s.version + 1) :
      RowChange sid call p o row
        { row with status := status, updatedAt := now, version := s.version + 1 + 1 }

section

variable {py : PyLib} {sid : String} {call : Call} {p q : Pos} {o : Op} {r : o.Res} {env : Env}
  {db db' : Db}

/-- The version check, on one row. -/
theorem HITLOp.updateStatus_cases (status : HITLSessionStatus) (now : String) (v : ℕ)
    {t : HITLTable} {row : HITLRow} (h : t.get sid = some row) :
    ((HITLOp.updateStatus sid status now v).exec t).2.get sid = some row ∨
      row.version = v ∧ ((HITLOp.updateStatus sid status now v).exec t).2.get sid =
        some { row with status := status, updatedAt := now, version := v + 1 } := by
  cases hhit : ((HITLOp.updateStatus sid status now v).exec t).1 with
  | false => exact .inl ((Sql.Table.get_update_of_miss hhit).trans h)
  | true =>
    obtain ⟨row', hrow', hv, hget⟩ := HITLOp.get_updateStatus_of_hit hhit
    obtain rfl := Option.some.inj (h.symm.trans hrow')
    exact .inr ⟨hv, hget⟩

/-- The calls on other sessions do not write this one. -/
theorem Move.updateStatus_decides {sid' now : String} {status : HITLSessionStatus} {v : ℕ}
    {r : Bool} (move : Move py call p (.hitl (.updateStatus sid' status now v)) r q) :
    call.Decides sid' := by
  cases move with
  | idle r quiet => exact quiet.elim
  | _ => exact rfl

/-- Whatever moves, the stored session changes in one of these ways. -/
theorem Move.row (move : Move py call p o r q) (he : exec o env db = some (r, db'))
    {row : HITLRow} (hrow : db.hitl.get sid = some row) :
    ∃ row', db'.hitl.get sid = some row' ∧ RowChange sid call p o row row' := by
  rw [exec_hitlAfter he]
  cases o with
  | hitl ho =>
    cases ho with
    | select => exact ⟨row, hrow, .same row⟩
    | insert => cases move with | idle r quiet => exact quiet.elim
    | expireStale now =>
      rcases HITLOp.get_expireStale now hrow with h | ⟨hp, hd, h⟩
      · exact ⟨row, h, .same row⟩
      · exact ⟨_, h, .swept now hp hd⟩
    | updateStatus sid' status now v =>
      by_cases hsid : sid = sid'
      · subst hsid
        rcases HITLOp.updateStatus_cases status now v hrow with h | ⟨hv, h⟩
        · exact ⟨row, h, .same row⟩
        · refine ⟨_, h, ?_⟩
          have dec := move.updateStatus_decides
          cases move.session dec with
          | keep other => cases other
          | decide now here hne => exact .decided dec here rfl hne hv
          | close now here heq => exact .closed dec here rfl heq hv
      · exact ⟨row, (Sql.Table.get_update_of_ne hsid).trans hrow, .same row⟩
  | _ => exact ⟨row, hrow, .same row⟩

/-! ## The lock -/

/-- A fresh call finds, at its version, no session that somebody else has decided on. -/
theorem Fresh.status {s : HITLSession} {row : HITLRow} (h : Fresh sid db s)
    (hrow : db.hitl.get sid = some row) (hv : row.version = s.version) :
    row.status = s.status ∨ s.status = .pending ∧ row.status = .expired := by
  obtain ⟨-, row', hrow', -, hst⟩ := h
  obtain rfl := Option.some.inj (hrow.symm.trans hrow')
  exact hst hv.symm

theorem Fresh.not_approved {s : HITLSession} {row : HITLRow} (h : Fresh sid db s)
    (hrow : db.hitl.get sid = some row) (hv : row.version = s.version) :
    row.status ≠ .approved := by
  intro happ
  rcases h.status hrow hv with hst | ⟨-, hst⟩
  · rcases h.1 with hs | hs <;> rw [happ, hs] at hst <;> cases hst
  · rw [happ] at hst
    cases hst

/-- Freshness survives every change. -/
theorem Fresh.change {s : HITLSession} (h : Fresh sid db s)
    (move : Move py call p o r q) (he : exec o env db = some (r, db')) : Fresh sid db' s := by
  obtain ⟨hlive, row, hrow, hle, hst⟩ := h
  obtain ⟨row', hrow', hch⟩ := move.row he hrow
  refine ⟨hlive, row', hrow', ?_⟩
  cases hch with
  | same => exact ⟨hle, hst⟩
  | swept now hp =>
    refine ⟨hle, fun hv => .inr ⟨?_, rfl⟩⟩
    rcases hst hv with hs | ⟨hs, -⟩
    · exact hs.symm.trans hp
    · exact hs
  | decided _ _ _ _ hv =>
    have hlt : s.version < row.version + 1 := Nat.lt_succ_of_le hle
    rw [hv] at hlt
    exact ⟨Nat.le_of_lt hlt, fun heq => absurd heq (Nat.ne_of_lt hlt)⟩
  | closed _ _ _ _ hv =>
    have hlt : s.version < row.version + 1 := Nat.lt_succ_of_le hle
    rw [hv] at hlt
    exact ⟨Nat.le_of_lt hlt, fun heq => absurd heq (Nat.ne_of_lt hlt)⟩

/-- What is owned stays as it is while the owner does not write. -/
theorem Owned.change {s : HITLSession} (h : Owned sid db s)
    (hp : call.Decides sid → p.Lock sid db) (hown : ¬ (call.Decides sid ∧ p.owner?.isSome))
    (move : Move py call p o r q) (he : exec o env db = some (r, db')) : Owned sid db' s := by
  obtain ⟨row, hrow, happ, hv⟩ := h
  obtain ⟨row', hrow', hch⟩ := move.row he hrow
  refine ⟨row', hrow', ?_⟩
  cases hch with
  | same => exact ⟨happ, hv⟩
  | swept now hpend => rw [happ] at hpend; cases hpend
  | decided dec here _ _ hver => exact absurd happ (((hp dec).fresh _ here).not_approved hrow hver)
  | closed dec here => exact absurd ⟨dec, by rw [here]; rfl⟩ hown

/-- A move on the session leads from lock to lock. -/
theorem Pos.Lock.step (dec : call.Decides sid) (hp : p.Lock sid db)
    (move : Move py call p o r q) (he : exec o env db = some (r, db')) : q.Lock sid db' := by
  have hsm := move.session dec
  cases hsm with
  | keep other fresh owner =>
    have hsame : db'.hitl = db.hitl := by
      rw [exec_hitlAfter he]
      cases o with
      | hitl ho => cases other
      | _ => rfl
    refine ⟨fun s hs => (hp.fresh s (fresh s hs)).change move he, fun s hs => ?_⟩
    obtain ⟨row, hrow, h⟩ := hp.owner s (owner s hs)
    exact ⟨row, by rw [hsame, hrow], h⟩
  | read fresh owner =>
    obtain ⟨hr, rfl⟩ := exec_hitl he
    refine ⟨fun s hs => ?_, vacuous owner⟩
    obtain ⟨row, rfl, hrow, hlive⟩ := fresh s hs
    obtain ⟨args, -, rfl⟩ := Option.map_eq_some_iff.mp hrow
    refine ⟨?_, row, hr.symm, Nat.le_refl _, fun _ => .inl rfl⟩
    cases hst : row.status <;> simp [HITLSession.isTerminal, hst] at hlive ⊢
  | decide now here hne fresh owner =>
    refine ⟨vacuous fresh, fun s hs => ?_⟩
    obtain ⟨rfl, rfl, rfl⟩ := owner s hs
    obtain ⟨hr, rfl⟩ := exec_hitl he
    obtain ⟨row, -, -, hget⟩ := HITLOp.get_updateStatus_of_hit hr.symm
    exact ⟨_, hget, rfl, rfl⟩
  | close now here heq fresh owner =>
    exact ⟨vacuous fresh, vacuous owner⟩

/-- Ownership is acquired by approving the session, which fails while it is owned. -/
theorem Pos.Lock.acquire (dec : call.Decides sid) (hp : p.Lock sid db)
    (move : Move py call p o r q) (he : exec o env db = some (r, db')) {s' : HITLSession}
    (hother : Owned sid db s') (hq : q.owner?.isSome) : p.owner?.isSome := by
  obtain ⟨s, hs⟩ := Option.isSome_iff_exists.mp hq
  cases move.session dec with
  | keep other fresh owner => rw [owner s hs]; rfl
  | read fresh owner => rw [owner] at hs; cases hs
  | decide now here hne fresh owner =>
    obtain ⟨rfl, rfl, rfl⟩ := owner s hs
    obtain ⟨hr, -⟩ := exec_hitl he
    obtain ⟨row, hrow, hv, -⟩ := HITLOp.get_updateStatus_of_hit hr.symm
    obtain ⟨row', hrow', happ, -⟩ := hother
    obtain rfl := Option.some.inj (hrow.symm.trans hrow')
    exact absurd happ ((hp.fresh _ here).not_approved hrow hv)
  | close now here heq fresh owner => rw [owner] at hs; cases hs

/-- What is final stays as it is. -/
theorem SessionHas.final_stays {st : HITLSessionStatus} (hs : SessionHas sid db (· = st))
    (hfin : st.Final) (hp : call.Decides sid → p.Lock sid db) (move : Move py call p o r q)
    (he : exec o env db = some (r, db')) : SessionHas sid db' (· = st) := by
  obtain ⟨row, hrow, rfl⟩ := hs
  obtain ⟨row', hrow', hch⟩ := move.row he hrow
  refine ⟨row', hrow', ?_⟩
  cases hch with
  | same => rfl
  | swept _ hpend => rw [hpend] at hfin; simp [HITLSessionStatus.Final] at hfin
  | closed dec here _ _ hv =>
    obtain ⟨row₁, hrow₁, happ, -⟩ := (hp dec).owner _ here
    obtain rfl := Option.some.inj (hrow.symm.trans hrow₁)
    rw [happ] at hfin
    simp [HITLSessionStatus.Final] at hfin
  | decided dec here _ _ hv =>
    have hf := (hp dec).fresh _ here
    rcases hf.status hrow hv with hst | ⟨-, hst⟩
    · rw [hst] at hfin
      rcases hf.1 with h | h <;> rw [h] at hfin <;> simp [HITLSessionStatus.Final] at hfin
    · rw [hst] at hfin
      simp [HITLSessionStatus.Final] at hfin

end

/-- **The optimistic lock**, as an outline of the decision calls. -/
def lockOutline (dep : Deployment) (D : Discipline Db Call (LogEntry Call)) (sid : String) :
    (service dep).Outline D (Move dep.py) (fun _ => .start) where
  inv _ _ := True
  asserts db _ _ call p := call.Decides sid → p.Lock sid db
  owns call p := call.Decides sid ∧ p.owner?.isSome
  entry _ _ _ := ⟨fun _ => ⟨by rintro s ⟨⟩, by rintro s ⟨⟩⟩, fun h => by cases h.2⟩
  step _ hp move he _ := ⟨trivial, fun dec => (hp dec).step dec move he⟩
  free := by
    intro db db' h i call p q o r env j call' p' _ hp hp' move he _ _ hex dec
    refine ⟨fun s hs => ((hp' dec).fresh s hs).change move he, fun s hs => ?_⟩
    refine ((hp' dec).owner s hs).change hp (fun hown => hex ⟨hown, dec, ?_⟩) move he
    rw [hs]
    rfl
  excl := by
    intro db db' h i call p q o r env j call' p' _ hp hp' move he ho hq
    obtain ⟨s', hs'⟩ := Option.isSome_iff_exists.mp ho.2
    exact ⟨hq.1, (hp hq.1).acquire hq.1 move he ((hp' ho.1).owner s' hs') hq.2⟩

end BankingAgent
