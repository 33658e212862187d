import BankingAgent.Async.OneShot
import BankingAgent.Sql.SharedConnection

/-!
# Statements and their commits

Where a statement and its commit are one operation, nothing comes between them, and neither can
fail. Here such a machine is taken apart: an operation is performed on what the connections see,
and if it belongs to a connection and has written, the commit of that connection follows. Either
may fail. The exception ends the coroutine, unless the code catches it; then it goes on as if it
had got a certain answer. The process may die at any time, and what nobody has committed is lost.
An operation that fails has done nothing; the errors after which SQLite rolls the whole transaction
back, such as a full disk, are left out.

* `Splitting.split` — the coroutine, taken apart.
* `follows_split` — it obeys the protocol that it obeyed in one piece, with positions in front of
  its commits.
* `solo_split` — where nothing fails and nothing comes between, it does what it did.
* `tokenKept_of_runs` — a token that is used at most once by the machine is used at most once by
  the one taken apart, over all restarts.
-/

namespace Sql

open Async

variable {Op : Type} {Res : Op → Type} {σ K ε α Call Env Pos : Type}

/-- How operations fall apart, for connections `K`. -/
structure Splitting (Op : Type) (Res : Op → Type) (σ K : Type) : Type where
  /-- the connection of a statement -/
  conn : Op → Option K
  /-- the statement is followed by a commit -/
  commits : (o : Op) → Res o → Bool
  /-- the answer that a caught exception amounts to -/
  caught : (o : Op) → Option (Res o)
  /-- what is stored after a commit, from what was stored and what is seen -/
  save : K → σ → σ → σ

/-- The operations, taken apart. -/
inductive SplitOp (Op K : Type) : Type where
  | perform (o : Op)
  | commit (k : K)

/-- Their answers. -/
abbrev SplitOp.Answer (Res : Op → Type) (ε : Type) : SplitOp Op K → Type
  | .perform o => Except ε (Res o)
  | .commit _ => Except ε Unit

namespace Splitting

variable (S : Splitting Op Res σ K)

/-- What follows an exception, if `k` follows the answers. -/
def rescue {β : Type} (o : Op) (k : Res o → Prog (SplitOp Op K) (SplitOp.Answer Res ε) ε β)
    (e : ε) : Prog (SplitOp Op K) (SplitOp.Answer Res ε) ε β :=
  match S.caught o with
  | some r => k r
  | none => .raise e

/-- The coroutine, taken apart. -/
def split : Prog Op Res ε α → Prog (SplitOp Op K) (SplitOp.Answer Res ε) ε α
  | .ret a => .ret a
  | .raise e => .raise e
  | .op o k => .op (.perform o) fun
    | .error e => S.rescue o (fun r => split (k r)) e
    | .ok r =>
      match S.conn o, S.commits o r with
      | some c, true => .op (.commit c) fun
        | .ok _ => split (k r)
        | .error e => S.rescue o (fun r => split (k r)) e
      | _, _ => split (k r)

/-- The machine, taken apart. What belongs to no connection does not fail. -/
def machine (M : Machine Op Res ε α Call Env σ) :
    Machine (SplitOp Op K) (SplitOp.Answer Res ε) ε α Call (Except ε Env) (Shared σ) where
  exec
    | .perform o, .ok env, c => (M.exec o env c.working).map fun rs => (.ok rs.1, ⟨c.stored, rs.2⟩)
    | .perform o, .error e, c => if (S.conn o).isSome then some (.error e, c) else none
    | .commit k, .ok _, c => some (.ok (), ⟨S.save k c.stored c.working, c.working⟩)
    | .commit _, .error e, c => some (.error e, c)
  code call := S.split (M.code call)

/-- The runs of the machine taken apart, restarts included. -/
abbrev Runs (M : Machine Op Res ε α Call Env σ) (start : Call → Prop) :
    (S.machine M).Config → (S.machine M).Config → Prop :=
  (S.machine M).Restarts (.free start) Shared.rollback

/-! ## Positions -/

/-- The positions of a protocol, and those in front of a commit. -/
inductive SplitPos (Op Pos : Type) : Type where
  | stands (p : Pos)
  /-- the operation has led from `p` to `q`, and is committed next -/
  | committing (o : Op) (p q : Pos)
  /-- an exception ends the coroutine -/
  | failed

/-- The moves of a protocol, taken apart. -/
inductive SplitMove (T : Pos → (o : Op) → Res o → Pos → Prop) :
    SplitPos Op Pos → (o : SplitOp Op K) → SplitOp.Answer Res ε o → SplitPos Op Pos → Prop
  | perform {p q : Pos} {o : Op} {r : Res o} (move : T p o r q)
      (h : ¬ ((S.conn o).isSome ∧ S.commits o r = true)) :
      SplitMove T (.stands p) (.perform o) (.ok r) (.stands q)
  | write {p q : Pos} {o : Op} {r : Res o} (move : T p o r q) (hconn : (S.conn o).isSome)
      (hcommits : S.commits o r = true) :
      SplitMove T (.stands p) (.perform o) (.ok r) (.committing o p q)
  | commit {p q : Pos} {o : Op} {k : K} (hconn : S.conn o = some k) :
      SplitMove T (.committing o p q) (.commit k) (.ok ()) (.stands q)
  | fail {p : Pos} {o : Op} (e : ε) : SplitMove T (.stands p) (.perform o) (.error e) .failed
  | failCommit {p q : Pos} {o : Op} {k : K} (e : ε) :
      SplitMove T (.committing o p q) (.commit k) (.error e) .failed
  | caught {p q : Pos} {o : Op} {r : Res o} (e : ε) (hcaught : S.caught o = some r)
      (move : T p o r q) : SplitMove T (.stands p) (.perform o) (.error e) (.stands q)
  | caughtCommit {p q q' : Pos} {o : Op} {r : Res o} {k : K} (e : ε)
      (hcaught : S.caught o = some r) (move : T p o r q') :
      SplitMove T (.committing o p q) (.commit k) (.error e) (.stands q')

/-- How the coroutine ends. -/
def SplitEnds (Q : Pos → Except ε α → Prop) : SplitPos Op Pos → Except ε α → Prop
  | .stands p, out => Q p out
  | .committing _ _ _, _ => False
  | .failed, _ => True

variable {S}

section Follows

variable {T : Pos → (o : Op) → Res o → Pos → Prop} {Q : Pos → Except ε α → Prop} {o : Op}
  {k : Res o → Prog Op Res ε α} {p : Pos}

/-- After an exception: the coroutine ends, or goes on from where the answer would have led it. -/
theorem follows_rescue
    (ih : ∀ r {q}, Follows T Q (k r) q →
      Follows (S.SplitMove T) (SplitEnds Q) (S.split (k r)) (.stands q))
    (h : Follows T Q (.op o k) p) (e : ε) :
    ∃ pos : SplitPos Op Pos, (pos = .failed ∨ ∃ r q, S.caught o = some r ∧ T p o r q ∧
      pos = .stands q) ∧
      Follows (S.SplitMove T) (SplitEnds Q) (S.rescue o (fun r => S.split (k r)) e) pos := by
  unfold rescue
  cases S.caught o with
  | none => exact ⟨.failed, .inl rfl, trivial⟩
  | some r =>
    obtain ⟨q, move, hk⟩ := h r
    exact ⟨.stands q, .inr ⟨r, q, rfl, move, rfl⟩, ih r hk⟩

/-- The coroutine taken apart obeys the protocol taken apart. -/
theorem follows_split {c : Prog Op Res ε α} (h : Follows T Q c p) :
    Follows (S.SplitMove T) (SplitEnds Q) (S.split c) (.stands p) := by
  induction c generalizing p with
  | ret a => exact h
  | raise e => exact h
  | op o k ih =>
    rw [split]
    intro r
    cases r with
    | error e =>
      obtain ⟨_, rfl | ⟨r, q, hcaught, move, rfl⟩, hf⟩ := follows_rescue ih h e
      · exact ⟨_, .fail e, hf⟩
      · exact ⟨_, .caught e hcaught move, hf⟩
    | ok r =>
      obtain ⟨q, move, hk⟩ := h r
      cases hconn : S.conn o with
      | none =>
        refine ⟨.stands q, .perform move fun hwrite => ?_, ih r hk⟩
        simp [hconn] at hwrite
      | some c =>
        cases hcommits : S.commits o r with
        | false =>
          refine ⟨.stands q, .perform move fun hwrite => ?_, ?_⟩
          · simp [hcommits] at hwrite
          · simp only [hcommits]
            exact ih r hk
        | true =>
          refine ⟨.committing o p q, .write move (by simp [hconn]) hcommits, ?_⟩
          simp only [hcommits]
          intro r'
          cases r' with
          | ok _ => exact ⟨.stands q, .commit hconn, ih r hk⟩
          | error e =>
            obtain ⟨_, rfl | ⟨r', q', hcaught, move', rfl⟩, hf⟩ := follows_rescue ih h e
            · exact ⟨_, .failCommit e, hf⟩
            · exact ⟨_, .caughtCommit e hcaught move', hf⟩

end Follows

/-! ## Alone -/

/-- The operations fall apart without remainder: what does not commit changes nothing, and a commit
stores the change. -/
structure Whole (S : Splitting Op Res σ K) (M : Machine Op Res ε α Call Env σ) : Prop where
  quiet : ∀ {o env r s s'}, ¬ ((S.conn o).isSome ∧ S.commits o r = true) →
    M.exec o env s = some (r, s') → s' = s
  saved : ∀ {o env r s s' k}, S.conn o = some k → S.commits o r = true →
    M.exec o env s = some (r, s') → S.save k s s' = s'

/-- **Alone**, and where nothing fails, the coroutine taken apart does what it does in one piece. -/
theorem solo_split {M : Machine Op Res ε α Call Env σ} (hS : Whole S M) {p : Prog Op Res ε α}
    {envs : List Env} {s s' : σ} {out : Except ε α} (h : p.solo M.exec envs s = some (out, s')) :
    ∃ envs' : List (Except ε Env), (∀ env ∈ envs', ∃ e, env = .ok e) ∧
      (S.split p).solo (S.machine M).exec envs' ⟨s, s⟩ = some (out, ⟨s', s'⟩) := by
  induction p generalizing envs s with
  | ret a =>
    obtain ⟨rfl, rfl⟩ := Prog.solo_ret h
    exact ⟨[], by simp, rfl⟩
  | raise e =>
    cases h
    exact ⟨[], by simp, rfl⟩
  | op o k ih =>
    obtain ⟨env, rest, r, s₁, rfl, hexec, hrest⟩ := Prog.solo_op h
    obtain ⟨envs', hok, hsolo⟩ := ih r hrest
    have hperform : (S.machine M).exec (.perform o) (.ok env) ⟨s, s⟩ =
        some (.ok r, ⟨s, s₁⟩) := by simp [machine, hexec]
    rw [split]
    by_cases hwrites : (S.conn o).isSome ∧ S.commits o r = true
    · obtain ⟨hsome, hcommits⟩ := hwrites
      obtain ⟨c, hconn⟩ := Option.isSome_iff_exists.mp hsome
      have hcommit : (S.machine M).exec (.commit c) (.ok env) ⟨s, s₁⟩ =
          some (.ok (), ⟨s₁, s₁⟩) := by simp [machine, hS.saved hconn hcommits hexec]
      refine ⟨.ok env :: .ok env :: envs', by simpa using hok, ?_⟩
      rw [Prog.solo_step hperform]
      simp only [hconn, hcommits]
      rw [Prog.solo_step hcommit]
      exact hsolo
    · obtain rfl := hS.quiet hwrites hexec
      refine ⟨.ok env :: envs', by simpa using hok, ?_⟩
      rw [Prog.solo_step hperform]
      simp only
      split
      · rename_i hconn hcommits
        exact absurd ⟨by simp [hconn], hcommits⟩ hwrites
      · exact hsolo

/-! ## Tokens -/

/-- A line of the history. -/
abbrev SplitLine (Res : Op → Type) (K ε Call Env : Type) : Type :=
  Entry Call (Except ε Env) (SplitOp Op K) (SplitOp.Answer Res ε)

/-- The line of the history, if it is one of the machine in one piece. -/
def whole? : SplitLine Res K ε Call Env →
    Option (Entry Call Env Op Res)
  | ⟨i, call, .perform o, .ok env, .ok r⟩ => some ⟨i, call, o, env, r⟩
  | _ => none

section Exec

variable {M : Machine Op Res ε α Call Env σ} {env : Except ε Env} {conn conn' : Shared σ}

theorem exec_perform {o : Op} {r : Res o}
    (h : (S.machine M).exec (.perform o) env conn = some (.ok r, conn')) :
    ∃ env', env = .ok env' ∧ M.exec o env' conn.working = some (r, conn'.working) ∧
      conn'.stored = conn.stored := by
  cases env with
  | error e =>
    obtain ⟨-, heq⟩ := Option.ite_none_right_eq_some.mp h
    cases heq
  | ok env =>
    obtain ⟨⟨r', s⟩, hexec, heq⟩ := Option.map_eq_some_iff.mp h
    cases heq
    exact ⟨env, rfl, hexec, rfl⟩

theorem exec_perform_error {o : Op} {e : ε}
    (h : (S.machine M).exec (.perform o) env conn = some (.error e, conn')) : conn' = conn := by
  cases env with
  | error e' =>
    obtain ⟨-, heq⟩ := Option.ite_none_right_eq_some.mp h
    cases heq
    rfl
  | ok env =>
    obtain ⟨⟨r', s⟩, -, heq⟩ := Option.map_eq_some_iff.mp h
    cases heq

theorem exec_commit {k : K}
    (h : (S.machine M).exec (.commit k) env conn = some (.ok (), conn')) :
    conn' = ⟨S.save k conn.stored conn.working, conn.working⟩ := by
  cases env <;> cases h
  rfl

theorem exec_commit_error {k : K} {e : ε}
    (h : (S.machine M).exec (.commit k) env conn = some (.error e, conn')) : conn' = conn := by
  cases env <;> cases h
  rfl

end Exec

section Token

variable {M : Machine Op Res ε α Call Env σ} {T : Call → Pos → (o : Op) → Res o → Pos → Prop}
  {start : Call → Pos} (tok : M.OneShot T start) (S)

/-- The token lies on one connection: whoever takes it writes there, and what is caught has
nothing to do with it. -/
structure OneShotOn (k₀ : K) : Prop where
  taken : ∀ {call p o r q}, T call p o r q → tok.holds call q → ¬ tok.holds call p →
    S.conn o = some k₀ ∧ S.commits o r = true
  caught_apart : ∀ {o}, (S.caught o).isSome → S.conn o ≠ some k₀
  caught_holds : ∀ {call p o r q}, (S.caught o).isSome → T call p o r q →
    (tok.holds call q ↔ tok.holds call p)
  save_own : ∀ {stored working}, tok.spent (S.save k₀ stored working) ↔ tok.spent working
  save_other : ∀ {k stored working}, k ≠ k₀ →
    (tok.spent (S.save k stored working) ↔ tok.spent stored)

/-- The line uses the token. -/
def Uses (e : SplitLine Res K ε Call Env) : Bool :=
  (whole? e).any tok.uses

/-- How often the token was used. -/
def uses (h : List (SplitLine Res K ε Call Env)) : ℕ :=
  h.countP (Uses tok)

/-- The thread holds the token. -/
def Held (call : Call) : SplitPos Op Pos → Prop
  | .stands p => tok.holds call p
  | .committing _ _ q => tok.holds call q
  | .failed => False

/-- A used token is stored as spent, and used once. -/
structure TokenKept (conn : Shared σ)
    (h : List (SplitLine Res K ε Call Env)) : Prop where
  used : uses tok h ≠ 0 → tok.spent conn.stored
  seen : tok.spent conn.stored → tok.spent conn.working
  once : uses tok h ≤ 1

/-- What a thread knows of the token: whoever holds it has taken it and not used it yet, and that it
is taken is stored, or about to be. -/
def TokenAsserts (k₀ : K) (conn : Shared σ)
    (h : List (SplitLine Res K ε Call Env)) (call : Call) :
    SplitPos Op Pos → Prop
  | .stands p => tok.holds call p → tok.spent conn.stored ∧ uses tok h = 0
  | .committing o p q => (∃ r, T call p o r q) ∧ (tok.holds call q →
      tok.spent conn.working ∧ uses tok h = 0 ∧ (S.conn o = some k₀ ∨ tok.spent conn.stored))
  | .failed => True

variable {S tok} {k₀ : K} {call : Call} {pos pos' : SplitPos Op Pos} {o : SplitOp Op K}
  {r : SplitOp.Answer Res ε o} {env : Except ε Env} {conn conn' : Shared σ} {i : ℕ}
  {h : List (SplitLine Res K ε Call Env)}

/-- What is spent stays spent. -/
theorem spent_step (hS : OneShotOn S tok k₀)
    (hseen : tok.spent conn.stored → tok.spent conn.working)
    (move : S.SplitMove (T call) pos o r pos')
    (hexec : (S.machine M).exec o env conn = some (r, conn')) :
    (tok.spent conn.stored → tok.spent conn'.stored) ∧
      (tok.spent conn.working → tok.spent conn'.working) ∧
      (tok.spent conn'.stored → tok.spent conn'.working) := by
  have performed {p q : Pos} {o : Op} {r : Res o} (move : T call p o r q)
      (hexec : (S.machine M).exec (.perform o) env conn = some (.ok r, conn')) :
      (tok.spent conn.stored → tok.spent conn'.stored) ∧
        (tok.spent conn.working → tok.spent conn'.working) ∧
        (tok.spent conn'.stored → tok.spent conn'.working) := by
    obtain ⟨env', -, hM, hstored⟩ := exec_perform hexec
    have hmono := tok.spent_mono move hM
    rw [hstored]
    exact ⟨id, hmono, fun hs => hmono (hseen hs)⟩
  cases move with
  | perform move => exact performed move hexec
  | write move => exact performed move hexec
  | fail e =>
    rw [exec_perform_error hexec]
    exact ⟨id, id, hseen⟩
  | failCommit e =>
    rw [exec_commit_error hexec]
    exact ⟨id, id, hseen⟩
  | caught e =>
    rw [exec_perform_error hexec]
    exact ⟨id, id, hseen⟩
  | caughtCommit e =>
    rw [exec_commit_error hexec]
    exact ⟨id, id, hseen⟩
  | @commit p q o k hconn =>
    rw [exec_commit hexec]
    by_cases hk : k = k₀
    · subst hk
      exact ⟨fun hs => hS.save_own.mpr (hseen hs), id, hS.save_own.mp⟩
    · exact ⟨(hS.save_other hk).mpr, id, fun hs => hseen ((hS.save_other hk).mp hs)⟩

/-- Only the holder uses the token, and then holds it no longer. -/
theorem held_of_uses (move : S.SplitMove (T call) pos o r pos')
    (hu : Uses tok ⟨i, call, o, env, r⟩ = true) :
    (∃ p, pos = .stands p ∧ tok.holds call p) ∧ ¬ Held tok call pos' := by
  have performed {p q : Pos} {o : Op} {r : Res o} (move : T call p o r q)
      (hu : Uses tok (⟨i, call, .perform o, env, .ok r⟩ : SplitLine Res K ε Call Env) = true) :
      tok.holds call p ∧ ¬ tok.holds call q := by
    cases env with
    | error e => cases hu
    | ok env => exact tok.uses_of move hu
  cases move with
  | perform move =>
    obtain ⟨hp, hq⟩ := performed move hu
    exact ⟨⟨_, rfl, hp⟩, hq⟩
  | write move =>
    obtain ⟨hp, hq⟩ := performed move hu
    exact ⟨⟨_, rfl, hp⟩, hq⟩
  | fail e => cases env <;> cases hu
  | failCommit e => cases env <;> cases hu
  | caught e => cases env <;> cases hu
  | caughtCommit e => cases env <;> cases hu
  | commit => cases env <;> cases hu

/-- Whoever holds the token held it before, or has just taken it. -/
theorem held_step (hS : OneShotOn S tok k₀) (hpos : TokenAsserts S tok k₀ conn h call pos)
    (move : S.SplitMove (T call) pos o r pos')
    (hexec : (S.machine M).exec o env conn = some (r, conn')) (hheld : Held tok call pos') :
    Held tok call pos ∨ ¬ tok.spent conn.working ∧ tok.spent conn'.working := by
  cases move with
  | @perform p q o r move =>
    obtain ⟨env', -, hM, -⟩ := exec_perform hexec
    exact tok.holds_of move hM hheld
  | @write p q o r move =>
    obtain ⟨env', -, hM, -⟩ := exec_perform hexec
    exact tok.holds_of move hM hheld
  | fail e => exact hheld.elim
  | failCommit e => exact hheld.elim
  | commit => exact .inl hheld
  | caught e hcaught move =>
    exact .inl ((hS.caught_holds (by simp [hcaught]) move).mp hheld)
  | caughtCommit e hcaught move =>
    obtain ⟨⟨r, hmoved⟩, -⟩ := hpos
    have hp := (hS.caught_holds (by simp [hcaught]) move).mp hheld
    exact .inl ((hS.caught_holds (by simp [hcaught]) hmoved).mpr hp)

theorem uses_cons_of_not {e : SplitLine Res K ε Call Env} (he : ¬ Uses tok e = true) :
    uses tok (e :: h) = uses tok h := List.countP_cons_of_neg he

/-- One operation keeps what is said of the token. -/
theorem tokenKept_step (hS : OneShotOn S tok k₀) (hkept : TokenKept tok conn h)
    (hpos : TokenAsserts S tok k₀ conn h call pos) (move : S.SplitMove (T call) pos o r pos')
    (hexec : (S.machine M).exec o env conn = some (r, conn')) :
    TokenKept tok conn' (⟨i, call, o, env, r⟩ :: h) := by
  obtain ⟨hstored, -, hseen⟩ := spent_step hS hkept.seen move hexec
  by_cases hu : Uses tok ⟨i, call, o, env, r⟩ = true
  · -- the token is used: its holder gives it up
    obtain ⟨⟨p, rfl, hp⟩, -⟩ := held_of_uses move hu
    obtain ⟨hspent, hzero⟩ := hpos hp
    have hone : uses tok (⟨i, call, o, env, r⟩ :: h) = 1 := by
      rw [uses, List.countP_cons_of_pos hu, ← uses, hzero]
    exact ⟨fun _ => hstored hspent, hseen, Nat.le_of_eq hone⟩
  · have hsame := uses_cons_of_not (h := h) hu
    exact ⟨fun hn => hstored (hkept.used (hsame ▸ hn)), hseen, hsame ▸ hkept.once⟩

/-- An operation leads from assertion to assertion. -/
theorem tokenAsserts_step (hS : OneShotOn S tok k₀) (hkept : TokenKept tok conn h)
    (hpos : TokenAsserts S tok k₀ conn h call pos) (move : S.SplitMove (T call) pos o r pos')
    (hexec : (S.machine M).exec o env conn = some (r, conn')) :
    TokenAsserts S tok k₀ conn' (⟨i, call, o, env, r⟩ :: h) call pos' := by
  obtain ⟨hstored, hworking, -⟩ := spent_step hS hkept.seen move hexec
  have hunused (hq : Held tok call pos') :
      uses tok (⟨i, call, o, env, r⟩ :: h) = uses tok h :=
    uses_cons_of_not fun hu => (held_of_uses move hu).2 hq
  -- a token that has just been taken was not used before
  have hnew (hfree : ¬ tok.spent conn.working) : uses tok h = 0 :=
    by_contra fun hn => hfree (hkept.seen (hkept.used hn))
  have hstep := held_step hS hpos move hexec
  cases move with
  | fail e => exact trivial
  | failCommit e => exact trivial
  | @perform p q o r move hwrites =>
    intro hq
    by_cases hp : tok.holds call p
    · rw [hunused hq]
      exact (hpos hp).imp_left hstored
    · obtain ⟨hconn, hcommits⟩ := hS.taken move hq hp
      exact absurd ⟨by simp [hconn], hcommits⟩ hwrites
  | @write p q o r move =>
    refine ⟨⟨r, move⟩, fun hq => ?_⟩
    rw [hunused hq]
    by_cases hp : tok.holds call p
    · obtain ⟨hspent, hzero⟩ := hpos hp
      exact ⟨hworking (hkept.seen hspent), hzero, .inr (hstored hspent)⟩
    · obtain ⟨hfree, hspent⟩ := (hstep hq).resolve_left hp
      exact ⟨hspent, hnew hfree, .inl (hS.taken move hq hp).1⟩
  | @commit p q o k hconn =>
    intro hq
    obtain ⟨-, hheld⟩ := hpos
    obtain ⟨hspent, hzero, hwhere⟩ := hheld hq
    rw [hunused hq]
    refine ⟨?_, hzero⟩
    rcases hwhere with hown | hs
    · obtain rfl := Option.some.inj (hconn.symm.trans hown)
      rw [exec_commit hexec]
      exact hS.save_own.mpr hspent
    · exact hstored hs
  | @caught p q o r e hcaught move =>
    intro hq
    rw [hunused hq]
    have hp := (hS.caught_holds (by simp [hcaught]) move).mp hq
    exact (hpos hp).imp_left hstored
  | @caughtCommit p q q' o r k e hcaught move =>
    intro hq
    rw [hunused hq]
    obtain ⟨⟨r', hmoved⟩, hheld⟩ := hpos
    have hp := (hS.caught_holds (by simp [hcaught]) move).mp hq
    obtain ⟨-, hzero, hwhere⟩ := hheld ((hS.caught_holds (by simp [hcaught]) hmoved).mpr hp)
    have hs := hwhere.resolve_left (hS.caught_apart (by simp [hcaught]))
    exact ⟨hstored hs, hzero⟩

/-- What a thread knows is not disturbed by the others. -/
theorem tokenAsserts_free (hS : OneShotOn S tok k₀) (hkept : TokenKept tok conn h)
    {call' : Call} {other : SplitPos Op Pos}
    (hother : TokenAsserts S tok k₀ conn h call' other)
    (move : S.SplitMove (T call) pos o r pos')
    (hexec : (S.machine M).exec o env conn = some (r, conn'))
    (hexcl : ¬ (Held tok call pos ∧ Held tok call' other)) :
    TokenAsserts S tok k₀ conn' (⟨i, call, o, env, r⟩ :: h) call' other := by
  obtain ⟨hstored, hworking, -⟩ := spent_step hS hkept.seen move hexec
  have hunused (hheld : Held tok call' other) :
      uses tok (⟨i, call, o, env, r⟩ :: h) = uses tok h := by
    refine uses_cons_of_not fun hu => ?_
    obtain ⟨⟨p, rfl, hp⟩, -⟩ := held_of_uses move hu
    exact hexcl ⟨hp, hheld⟩
  cases other with
  | failed => exact trivial
  | stands p =>
    intro hp
    rw [hunused hp]
    exact (hother hp).imp_left hstored
  | committing o' p q =>
    refine ⟨hother.1, fun hq => ?_⟩
    obtain ⟨hspent, hzero, hwhere⟩ := hother.2 hq
    rw [hunused hq]
    exact ⟨hworking hspent, hzero, hwhere.imp_right hstored⟩

/-- The token, as an outline. -/
def tokenOutline (hS : OneShotOn S tok k₀) (may : Call → Prop) :
    (S.machine M).Outline (.free may) (fun call => S.SplitMove (T call))
      (fun call => .stands (start call)) where
  inv := TokenKept tok
  asserts conn h _ call pos := TokenAsserts S tok k₀ conn h call pos
  owns := Held tok
  entry _ _ _ := ⟨fun hh => absurd hh (tok.start_free _), tok.start_free _⟩
  step hinv hpos move hexec _ :=
    ⟨tokenKept_step hS hinv hpos move hexec, tokenAsserts_step hS hinv hpos move hexec⟩
  free hinv _ hother move hexec _ _ hexcl := tokenAsserts_free hS hinv hother move hexec hexcl
  excl := by
    intro conn conn' h i call pos pos' o r env j call' other hinv hpos hother move hexec hheld hpos'
    rcases held_step hS hpos move hexec hpos' with hp | ⟨hfree, -⟩
    · exact hp
    · -- the other thread has taken it already
      cases other with
      | failed => exact hheld.elim
      | stands p => exact absurd (hinv.seen (hother hheld).1) hfree
      | committing o' p q => exact absurd (hother.2 hheld).1 hfree

/-- **At most once, taken apart**: in every run of the machine taken apart, over all restarts, the
token is used at most once, and where it was used what is stored says so. -/
theorem tokenKept_of_runs (hS : OneShotOn S tok k₀) {may : Call → Prop}
    {Q : Call → Pos → Except ε α → Prop}
    (hcode : ∀ call, may call → Follows (T call) (Q call) (M.code call) (start call)) {s : σ}
    {c : (S.machine M).Config} (h : S.Runs M may (Pool.init ⟨s, s⟩) c) :
    TokenKept tok c.shared c.hist := by
  have hinit : TokenKept tok (⟨s, s⟩ : Shared σ) ([] : List (SplitLine Res K ε Call Env)) :=
    ⟨fun hn => absurd rfl hn, id, Nat.zero_le 1⟩
  have hrollback : ∀ {conn : Shared σ} {h : List (SplitLine Res K ε Call Env)},
      TokenKept tok conn h → TokenKept tok conn.rollback h := fun hk => ⟨hk.used, id, hk.once⟩
  obtain ⟨a, hm, ha⟩ := (tokenOutline hS may).restarted
    (fun call hmay => follows_split (hcode call hmay)) hrollback hinit h
  rw [hm.shared, hm.hist]
  exact ha.inv

end Token

end Splitting

end Sql
