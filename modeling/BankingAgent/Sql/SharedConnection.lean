import BankingAgent.Async.Restart

/-!
# Coroutines on one connection

Coroutines that share a connection share its transaction. A statement of one of them is seen by
all at once, the commit of any of them stores what all of them did, and what nobody committed
is lost when the process dies. A coroutine that wants its statement stored has to outlive the
commit that follows it. Any operation may fail instead, and then nothing has happened; the errors
after which SQLite rolls the whole transaction back, such as a full disk, are left out.

* `Upkeep` — what every statement preserves, told with the statements since.
* `Upkeep.always` — such a property holds of what is stored and of what is seen, throughout.
* `stored_evolves` — what is stored is only ever left behind by what statements make of it.
* `Saves` — a coroutine performs its statement, and commits before it returns.
* `Upkeep.acknowledged` — what a statement established holds of what is stored, from the return
  of its coroutine on, across any number of restarts.
* `good_of_told` — what a coroutine reads after its statement, it reads of data on which the
  statement has left its mark.
* `Latch.one` — what can be taken once is acknowledged to one coroutine at most.
* `View.alone` — a part of the data that the statements of a run do not touch.
-/

namespace Sql

open Async

/-- What a coroutine asks of the connection. -/
inductive ConnOp (S : Type) : Type where
  | execute (s : S)
  | commit

/-- The answers, where `A s` is the type of the answers to the statement `s`. -/
abbrev ConnOp.Res {S : Type} (A : S → Type) (ε : Type) : ConnOp S → Type
  | .execute s => Except ε (A s)
  | .commit => Except ε Unit

/-- What is stored, and what the connection sees. -/
structure Shared (D : Type) : Type where
  stored : D
  working : D

/-- What a new connection finds. -/
def Shared.rollback {D : Type} (c : Shared D) : Shared D := ⟨c.stored, c.stored⟩

/-- A language of statements. Where the order of the rows is open, the environment chooses. -/
structure Language (S : Type) (A : S → Type) (Env D : Type) : Type where
  exec : (s : S) → Env → D → Option (A s × D)

variable {S : Type} {A : S → Type} {Env D ε α Call : Type}

/-- Coroutines on a connection. -/
abbrev ConnProg (S : Type) (A : S → Type) (ε α : Type) : Type :=
  Prog (ConnOp S) (ConnOp.Res A ε) ε α

/-- `await conn.execute(…)`. -/
def execute (s : S) : ConnProg S A ε (A s) :=
  .op (.execute s) fun
    | .ok a => .ret a
    | .error e => .raise e

/-- `await conn.commit()`. -/
def commit : ConnProg S A ε Unit :=
  .op .commit fun
    | .ok _ => .ret ()
    | .error e => .raise e

/-- The coroutines `code` on a connection. -/
def Language.machine (L : Language S A Env D) (code : Call → ConnProg S A ε α) :
    Machine (ConnOp S) (ConnOp.Res A ε) ε α Call (Except ε Env) (Shared D) where
  exec
    | .execute _, .error e, c => some (.error e, c)
    | .execute s, .ok env, c =>
      (L.exec s env c.working).map fun rd => (.ok rd.1, { c with working := rd.2 })
    | .commit, .error e, c => some (.error e, c)
    | .commit, .ok _, c => some (.ok (), ⟨c.working, c.working⟩)
  code := code

/-- The runs of the coroutines, restarts included. -/
abbrev Language.Runs (L : Language S A Env D) (code : Call → ConnProg S A ε α) :
    (L.machine code).Config → (L.machine code).Config → Prop :=
  (L.machine code).Restarts (.free fun _ => True) Shared.rollback

/-- A line of the history. -/
abbrev Line (S : Type) (A : S → Type) (Env ε Call : Type) : Type :=
  Entry Call (Except ε Env) (ConnOp S) (ConnOp.Res A ε)

variable {L : Language S A Env D} {code : Call → ConnProg S A ε α} {c c' : (L.machine code).Config}

/-- No statement was performed: a commit, or an error. -/
def Idle (o : ConnOp S) (r : ConnOp.Res A ε o) : Prop :=
  ∀ s a, (⟨o, r⟩ : (o : ConnOp S) × ConnOp.Res A ε o) ≠ ⟨.execute s, .ok a⟩

/-- What an operation does to the connection. -/
theorem machine_exec_cases {o : ConnOp S} {env : Except ε Env} {conn conn' : Shared D}
    {r : ConnOp.Res A ε o} (h : (L.machine code).exec o env conn = some (r, conn')) :
    Idle o r ∧ (conn' = conn ∨ conn' = ⟨conn.working, conn.working⟩) ∨
    ∃ s env' a d, (⟨o, r⟩ : (o : ConnOp S) × ConnOp.Res A ε o) = ⟨.execute s, .ok a⟩ ∧
      L.exec s env' conn.working = some (a, d) ∧ conn' = ⟨conn.stored, d⟩ := by
  cases o with
  | commit =>
    have hidle : Idle .commit r := by rintro s a ⟨⟩
    cases env with
    | error e =>
      cases h
      exact .inl ⟨hidle, .inl rfl⟩
    | ok env =>
      cases h
      exact .inl ⟨hidle, .inr rfl⟩
  | execute s =>
    cases env with
    | error e =>
      cases h
      exact .inl ⟨by rintro s' a ⟨⟩, .inl rfl⟩
    | ok env =>
      obtain ⟨⟨a, d⟩, hexec, heq⟩ := Option.map_eq_some_iff.mp h
      cases heq
      exact .inr ⟨s, env, a, d, rfl, hexec, rfl⟩

/-- A statement that is performed. -/
theorem machine_execute {s : S} {env : Env} {conn : Shared D} {a : A s} {d : D}
    (h : L.exec s env conn.working = some (a, d)) :
    (L.machine code).exec (.execute s) (.ok env) conn = some (.ok a, ⟨conn.stored, d⟩) := by
  simp [Language.machine, h]

section Only

variable {P : ConnOp S → Prop} {s : S}

theorem only_map {β : Type} {f : α → β} {p : ConnProg S A ε α} (h : p.Only P) :
    (f <$> p).Only P := by
  refine Prog.Only.bind ?_ h
  exact fun _ => trivial

theorem only_execute {f : A s → ConnProg S A ε α} (hs : P (.execute s)) (hf : ∀ a, (f a).Only P) :
    (execute s >>= f).Only P := by
  refine ⟨hs, fun r => ?_⟩
  cases r with
  | ok a => exact hf a
  | error e => exact trivial

theorem only_true (p : ConnProg S A ε α) : p.Only fun _ => True := by
  induction p with
  | ret a => exact trivial
  | raise e => exact trivial
  | op o k ih => exact ⟨trivial, ih⟩

theorem only_commit (hcommit : P .commit) : (commit : ConnProg S A ε Unit).Only P := by
  refine ⟨hcommit, fun r => ?_⟩
  cases r with
  | ok a => exact trivial
  | error e => exact trivial

end Only

/-- What one call does, told of all of them. -/
theorem follows_of_call {Pos : Type} {T : Pos → (o : ConnOp S) → ConnOp.Res A ε o → Pos → Prop}
    {Q : Pos → Except ε α → Prop} (hidle : ∀ p o r, T p o r p) {call₀ : Call} {start : Pos}
    (hcode : Follows T Q (code call₀) start) (call : Call) :
    Follows T (fun p out => call = call₀ → Q p out) (code call) start := by
  by_cases hcall : call = call₀
  · subst hcall
    exact hcode.mono id fun hq _ => hq
  · exact follows_of_only (P := fun _ => True) (fun _ r => hidle _ _ r)
      (fun _ h => absurd h hcall) (only_true _)

/-! ## What is preserved -/

/-- A property of the data that every statement preserves, told with the lines since. A statement
is performed on what is seen (`exec`); what is stored stays as it is, next to data for which the
property is known as well (`stored`). -/
structure Upkeep (L : Language S A Env D) (ε Call : Type)
    (G : List (Line S A Env ε Call) → D → Prop) : Prop where
  idle : ∀ {later d i call o env r}, Idle o r → G later d → G (⟨i, call, o, env, r⟩ :: later) d
  exec : ∀ {later d d' i call s env env' a}, G later d → L.exec s env d = some (a, d') →
    G (⟨i, call, .execute s, env', .ok a⟩ :: later) d'
  stored : ∀ {later d d' i call s env env' a stored}, G later stored → G later d →
    L.exec s env d = some (a, d') → G (⟨i, call, .execute s, env', .ok a⟩ :: later) stored

namespace Upkeep

variable {G : List (Line S A Env ε Call) → D → Prop} {later : List (Line S A Env ε Call)}
  {conn conn' : Shared D}

/-- A property that becomes weaker as lines are added. -/
theorem of_grow (grow : ∀ {e later d}, G later d → G (e :: later) d)
    (exec : ∀ {later d d' i call s env env' a}, G later d → L.exec s env d = some (a, d') →
      G (⟨i, call, .execute s, env', .ok a⟩ :: later) d') : Upkeep L ε Call G :=
  ⟨fun _ h => grow h, exec, fun h _ _ => grow h⟩

/-- The property, of what is stored and of what is seen. -/
def Both (G : List (Line S A Env ε Call) → D → Prop) (later : List (Line S A Env ε Call))
    (conn : Shared D) : Prop := G later conn.stored ∧ G later conn.working

/-- A new connection. -/
theorem both_rollback (h : Both G later conn) : Both G later conn.rollback := ⟨h.1, h.1⟩

section Step

variable {i : ℕ} {call : Call} {o : ConnOp S} {env : Except ε Env} {r : ConnOp.Res A ε o}

/-- What is seen, after one operation. -/
theorem working_step (hG : Upkeep L ε Call G) (h : G later conn.working)
    (hexec : (L.machine code).exec o env conn = some (r, conn')) :
    G (⟨i, call, o, env, r⟩ :: later) conn'.working := by
  rcases machine_exec_cases hexec with ⟨hidle, rfl | rfl⟩ | ⟨s, env', a, d, heq, hs, rfl⟩
  · exact hG.idle hidle h
  · exact hG.idle hidle h
  · cases heq
    exact hG.exec h hs

/-- One operation. -/
theorem both_step (hG : Upkeep L ε Call G) (h : Both G later conn)
    (hexec : (L.machine code).exec o env conn = some (r, conn')) :
    Both G (⟨i, call, o, env, r⟩ :: later) conn' := by
  refine ⟨?_, hG.working_step h.2 hexec⟩
  rcases machine_exec_cases hexec with ⟨hidle, rfl | rfl⟩ | ⟨s, env', a, d, heq, hs, rfl⟩
  · exact hG.idle hidle h.1
  · exact hG.idle hidle h.2
  · cases heq
    exact hG.stored h.1 h.2 hs

end Step

/-- **Always**: from data that satisfy the property, it holds of what is stored and of what is
seen. -/
theorem always (hG : Upkeep L ε Call G) {d : D} (h₀ : G [] d)
    (h : L.Runs code (Pool.init ⟨d, d⟩) c) : G c.hist c.shared.stored ∧ G c.hist c.shared.working :=
  have hinit : Both G [] (⟨d, d⟩ : Shared D) := ⟨h₀, h₀⟩
  h.preserves (I := fun conn hist => Both G hist conn) hG.both_step both_rollback hinit

end Upkeep

/-- **Left behind**: where statements relate what they find to what they leave, what is stored at
some time is so related to all that is stored and seen later. -/
theorem stored_evolves {R : D → D → Prop} (hrefl : ∀ d, R d d)
    (htrans : ∀ {d₁ d₂ d₃}, R d₁ d₂ → R d₂ d₃ → R d₁ d₃)
    (hR : ∀ {s env d a d'}, L.exec s env d = some (a, d') → R d d') {d : D}
    (h : L.Runs code (Pool.init ⟨d, d⟩) c) (h' : L.Runs code c c') :
    R c.shared.stored c'.shared.stored ∧ R c.shared.stored c'.shared.working := by
  have step : ∀ {d₀ : D} {conn conn' : Shared D} {o : ConnOp S} {env : Except ε Env}
      {r : ConnOp.Res A ε o}, R d₀ conn.stored ∧ R d₀ conn.working →
      (L.machine code).exec o env conn = some (r, conn') →
      R d₀ conn'.stored ∧ R d₀ conn'.working := by
    rintro d₀ conn conn' o env r ⟨hstored, hworking⟩ hexec
    rcases machine_exec_cases hexec with ⟨-, rfl | rfl⟩ | ⟨s, env', a, d', -, hs, rfl⟩
    · exact ⟨hstored, hworking⟩
    · exact ⟨hworking, hworking⟩
    · exact ⟨hstored, htrans hworking (hR hs)⟩
  -- what is seen has been made of what is stored
  have hmade : R c.shared.stored c.shared.working := by
    refine h.preserves (I := fun (conn : Shared D) _ => R conn.stored conn.working) ?_
      (fun _ => hrefl _) (hrefl d)
    intro conn conn' hist i call o env r hmade hexec
    rcases machine_exec_cases hexec with ⟨-, rfl | rfl⟩ | ⟨s, env', a, d', -, hs, rfl⟩
    · exact hmade
    · exact hrefl _
    · exact htrans hmade (hR hs)
  refine h'.preserves (I := fun (conn : Shared D) _ => R c.shared.stored conn.stored ∧
    R c.shared.stored conn.working) step ?_ ⟨hrefl _, hmade⟩
  exact fun hconn => ⟨hconn.1, hconn.1⟩

section Rows

variable {ρ : Type} (rows : D → List ρ) (mine : ρ → Prop) (insert : ρ → S)

/-- These rows have been inserted since. -/
def InsertedSince (later : List (Line S A Env ε Call)) (d : D) : Prop :=
  ∀ row ∈ rows d, mine row → ∃ e ∈ later, e.op = .execute (insert row)

variable {rows mine insert}

/-- Where rows come from nowhere else, they have been inserted. -/
theorem Upkeep.insertedSince
    (h : ∀ {s env d a d'}, L.exec s env d = some (a, d') → ∀ row ∈ rows d',
      row ∈ rows d ∨ s = insert row) :
    Upkeep L ε Call (InsertedSince rows mine insert) := by
  refine .of_grow (fun hd row hrow hmine => ?_) fun hd hexec row hrow hmine => ?_
  · obtain ⟨e, he, hop⟩ := hd row hrow hmine
    exact ⟨e, List.mem_cons_of_mem _ he, hop⟩
  · rcases h hexec row hrow with hold | rfl
    · obtain ⟨e, he, hop⟩ := hd row hold hmine
      exact ⟨e, List.mem_cons_of_mem _ he, hop⟩
    · exact ⟨_, List.mem_cons_self, rfl⟩

end Rows

/-! ## Returning after the commit -/

/-- How far a coroutine is with its statement. -/
inductive Stage : Type where
  | before
  | written
  | saved

/-- The statement is this one, whatever its answer. -/
def Is (s₀ s : S) (_ : A s) : Prop := s = s₀

variable (own : (s : S) → A s → Prop) (good : α → Prop)

/-- What an operation means for the statement. -/
inductive StageMove : Stage → (o : ConnOp S) → ConnOp.Res A ε o → Stage → Prop
  | idle (p : Stage) (o : ConnOp S) (r : ConnOp.Res A ε o) : StageMove p o r p
  | own {s : S} {a : A s} (h : own s a) : StageMove .before (.execute s) (.ok a) .written
  | commit : StageMove .written .commit (.ok ()) .saved

/-- The coroutine goes on like this from the stage: it does not return such a value before it is
saved. -/
def SavesFrom (p : ConnProg S A ε α) (stage : Stage) : Prop :=
  Follows (StageMove own) (fun stage out => ∀ a, out = .ok a → good a → stage = .saved) p stage

/-- The coroutine performs such a statement, and commits it before it returns such a value. -/
abbrev Saves (p : ConnProg S A ε α) : Prop := SavesFrom own good p .before

section Rules

variable {own good} {β : Type} {s : S} {stage : Stage}

theorem savesFrom_ret {a : α} : SavesFrom own good (.ret a : ConnProg S A ε α) .saved :=
  fun _ _ _ => rfl

/-- Once it is saved, it may do anything. -/
theorem savesFrom_saved (p : ConnProg S A ε α) : SavesFrom own good p .saved :=
  follows_of_only (P := fun _ => True) (fun _ r => .idle _ _ r) (fun _ _ _ _ => rfl) (only_true p)

/-- A value that says nothing. -/
theorem savesFrom_ret_of_not {a : α} (h : ¬ good a) :
    SavesFrom own good (.ret a : ConnProg S A ε α) stage := by
  rintro _ ⟨⟩ hgood
  exact absurd hgood h

theorem savesFrom_raise {e : ε} : SavesFrom own good (.raise e : ConnProg S A ε α) stage := by
  rintro _ ⟨⟩

/-- The statement, if its answer is such. -/
theorem savesFrom_own {f : A s → ConnProg S A ε α}
    (hf : ∀ a, own s a → SavesFrom own good (f a) .written)
    (hf' : ∀ a, ¬ own s a → SavesFrom own good (f a) .before) :
    SavesFrom own good (execute s >>= f) .before := by
  intro r
  cases r with
  | error e => exact ⟨.before, .idle _ _ _, savesFrom_raise⟩
  | ok a =>
    by_cases hown : own s a
    · exact ⟨.written, .own hown, hf a hown⟩
    · exact ⟨.before, .idle _ _ _, hf' a hown⟩

theorem savesFrom_is {f : A s → ConnProg S A ε α} (hf : ∀ a, SavesFrom (Is s) good (f a) .written) :
    SavesFrom (Is s) good (execute s >>= f) .before :=
  savesFrom_own (fun a _ => hf a) fun _ h => absurd rfl h

/-- Another statement. -/
theorem savesFrom_execute {f : A s → ConnProg S A ε α}
    (hf : ∀ a, SavesFrom own good (f a) stage) :
    SavesFrom own good (execute s >>= f) stage := by
  intro r
  cases r with
  | ok a => exact ⟨stage, .idle _ _ _, hf a⟩
  | error e => exact ⟨stage, .idle _ _ _, savesFrom_raise⟩

/-- The commit. -/
theorem savesFrom_commit_bind {f : Unit → ConnProg S A ε α}
    (hf : SavesFrom own good (f ()) .saved) : SavesFrom own good (commit >>= f) .written := by
  intro r
  cases r with
  | ok a => exact ⟨.saved, .commit, hf⟩
  | error e => exact ⟨.written, .idle _ _ _, savesFrom_raise⟩

theorem savesFrom_commit {good : Unit → Prop} :
    SavesFrom own good (commit : ConnProg S A ε Unit) .written := by
  intro r
  cases r with
  | ok a => exact ⟨.saved, .commit, savesFrom_ret⟩
  | error e => exact ⟨.written, .idle _ _ _, savesFrom_raise⟩

/-- The commit of a coroutine whose statement was not such. -/
theorem savesFrom_commit_idle {f : Unit → ConnProg S A ε α}
    (hf : SavesFrom own good (f ()) stage) : SavesFrom own good (commit >>= f) stage := by
  intro r
  cases r with
  | ok a => exact ⟨stage, .idle _ _ _, hf⟩
  | error e => exact ⟨stage, .idle _ _ _, savesFrom_raise⟩

theorem savesFrom_map {good : β → Prop} {f : α → β} {p : ConnProg S A ε α}
    (h : SavesFrom own (fun a => good (f a)) p stage) : SavesFrom own good (f <$> p) stage := by
  refine Follows.map (h.mono id fun {q out} hq => ?_)
  rintro _ hout
  cases out with
  | ok a =>
    cases hout
    exact hq a rfl
  | error e => cases hout

/-- A statement that is less particular. -/
theorem SavesFrom.imp {own' : (s : S) → A s → Prop} {p : ConnProg S A ε α}
    (h : SavesFrom own good p stage) (hown : ∀ {s a}, own s a → own' s a) :
    SavesFrom own' good p stage := by
  refine Follows.mono ?_ (fun hq => hq) h
  rintro p o r q (_ | hs | _)
  · exact .idle _ _ _
  · exact .own (hown hs)
  · exact .commit

end Rules

/-- The line is that of such a statement. -/
inductive Did (i : ℕ) (call : Call) : Line S A Env ε Call → Prop
  | intro {s : S} {env : Except ε Env} {a : A s} (h : own s a) :
      Did i call ⟨i, call, .execute s, env, .ok a⟩

theorem Did.tid {own : (s : S) → A s → Prop} {i : ℕ} {call : Call} {e : Line S A Env ε Call}
    (h : Did own i call e) : e.tid = i := by
  cases h
  rfl

/-- Since such a statement of thread `i`, this is so of the lines that followed. -/
def Since (P : List (Line S A Env ε Call) → Prop) (i : ℕ) (call : Call)
    (hist : List (Line S A Env ε Call)) : Prop :=
  ∃ later e pre, hist = later ++ e :: pre ∧ Did own i call e ∧ P later

section Since

variable {own} {P P' : List (Line S A Env ε Call) → Prop} {i : ℕ} {call : Call}
  {hist : List (Line S A Env ε Call)} {e : Line S A Env ε Call}

theorem Since.cons (h : Since own P i call hist) (hP : ∀ {later}, P later → P' (e :: later)) :
    Since own P' i call (e :: hist) := by
  obtain ⟨later, e', pre, rfl, he', h⟩ := h
  exact ⟨e :: later, e', pre, rfl, he', hP h⟩

theorem Since.imp (h : Since own P i call hist) (hP : ∀ {later}, P later → P' later) :
    Since own P' i call hist := by
  obtain ⟨later, e, pre, hhist, he, h⟩ := h
  exact ⟨later, e, pre, hhist, he, hP h⟩

/-- The lines that followed are in the history. -/
theorem Since.within (h : Since own P i call hist) :
    Since own (fun later => P later ∧ ∀ e ∈ later, e ∈ hist) i call hist := by
  obtain ⟨later, e, pre, rfl, he, h⟩ := h
  exact ⟨later, e, pre, rfl, he, h, fun _ => List.mem_append_left _⟩

end Since

/-- What a thread that runs `call₀` knows at a stage. -/
def StageAsserts (G : List (Line S A Env ε Call) → D → Prop) (call₀ : Call) (conn : Shared D)
    (hist : List (Line S A Env ε Call)) (i : ℕ) (call : Call) : Stage → Prop
  | .before => True
  | .written => call = call₀ → Since own (G · conn.working) i call₀ hist
  | .saved => call = call₀ → Since own (Upkeep.Both G · conn) i call₀ hist

variable {own} {G : List (Line S A Env ε Call) → D → Prop}

/-- What is known at a stage is known after any operation. -/
theorem stageAsserts_step (hG : Upkeep L ε Call G) {call₀ : Call} {conn conn' : Shared D}
    {hist : List (Line S A Env ε Call)} {i j : ℕ} {call call' : Call} {stage : Stage}
    {o : ConnOp S} {env : Except ε Env} {r : ConnOp.Res A ε o}
    (h : StageAsserts own G call₀ conn hist j call' stage)
    (hexec : (L.machine code).exec o env conn = some (r, conn')) :
    StageAsserts own G call₀ conn' (⟨i, call, o, env, r⟩ :: hist) j call' stage := by
  cases stage with
  | before => exact trivial
  | written => exact fun hcall => (h hcall).cons fun hlater => hG.working_step hlater hexec
  | saved => exact fun hcall => (h hcall).cons fun hlater => hG.both_step hlater hexec

/-- The stages, as an outline. -/
def stageOutline (hG : Upkeep L ε Call G) (call₀ : Call)
    (hown : ∀ {s env d a d'}, own s a → L.exec s env d = some (a, d') → G [] d') :
    (L.machine code).Outline (.free fun _ => True) (fun _ => StageMove own)
      (fun _ => Stage.before) where
  inv _ _ := True
  asserts := StageAsserts own G call₀
  owns _ _ := False
  entry _ _ _ := ⟨trivial, id⟩
  step := by
    rintro conn conn' hist i call p q o r env - h move hexec -
    refine ⟨trivial, ?_⟩
    cases move with
    | idle => exact stageAsserts_step hG h hexec
    | @own s a hs =>
      rintro rfl
      cases env with
      | error e => cases hexec
      | ok env =>
        obtain ⟨⟨a', d⟩, hd, heq⟩ := Option.map_eq_some_iff.mp hexec
        cases heq
        exact ⟨[], _, hist, rfl, .intro hs, hown hs hd⟩
    | commit =>
      intro hcall
      have hidle : Idle (A := A) .commit (Except.ok (ε := ε) ()) := by rintro s a ⟨⟩
      cases env with
      | error e => cases hexec
      | ok env =>
        cases hexec
        exact (h hcall).cons fun hlater => ⟨hG.idle hidle hlater, hG.idle hidle hlater⟩
  free _ _ h _ hexec _ _ _ := stageAsserts_step hG h hexec
  excl _ _ _ _ _ h _ := h.elim

/-- **Acknowledged**: if a coroutine that saves its statement has returned, what the statement
established, and every statement since has preserved, holds of what is stored and of what is
seen, across any number of restarts. -/
theorem Upkeep.acknowledged (hG : Upkeep L ε Call G) {call₀ : Call}
    (hown : ∀ {s env d a d'}, own s a → L.exec s env d = some (a, d') → G [] d')
    {good : α → Prop} (hcode : Saves own good (code call₀)) {conn : Shared D}
    (h : L.Runs code (Pool.init conn) c) {i : ℕ} {a : α} (hret : c.At i call₀ (.ret a))
    (hgood : good a) (h' : L.Runs code c c') {d : D}
    (hd : d = c'.shared.stored ∨ d = c'.shared.working) : Since own (G · d) i call₀ c'.hist := by
  let O : (L.machine code).Outline (.free fun _ => True) (fun _ => StageMove own)
      (fun _ => Stage.before) := stageOutline hG call₀ hown
  have hfollows := follows_of_call (T := StageMove own) .idle hcode
  obtain ⟨a', hm, ha⟩ := O.restarted (fun call _ => hfollows call) (fun _ => trivial) trivial h
  obtain ⟨p, hp, hf⟩ := hm.at hret
  have hsaved : p = .saved := hf rfl a rfl hgood
  subst hsaved
  have hboth : Since own (Both G · c.shared) i call₀ c.hist := by
    rw [hm.shared, hm.hist]
    exact ha.asserts hp rfl
  have hlast : Since own (Both G · c'.shared) i call₀ c'.hist :=
    h'.preserves (I := fun conn hist => Since own (Both G · conn) i call₀ hist)
      (fun hs hexec => hs.cons fun hlater => hG.both_step hlater hexec)
      (fun hs => hs.imp both_rollback) hboth
  rcases hd with rfl | rfl
  · exact hlast.imp And.left
  · exact hlast.imp And.right

/-! ## Reading after the statement -/

/-- What a coroutine knows: its statement has been performed, or an answer has told it something
since. -/
inductive Known : Type where
  | before
  | since
  | told (φ : Prop)

section Told

variable (L) (own : (s : S) → A s → Prop) (mark : D → Prop) (good : α → Prop)

/-- What an operation means for what is known. An answer tells what follows from it on marked
data. -/
inductive KnownMove : Known → (o : ConnOp S) → ConnOp.Res A ε o → Known → Prop
  | idle (p : Known) (o : ConnOp S) (r : ConnOp.Res A ε o) : KnownMove p o r p
  | own {s : S} {a : A s} (h : own s a) : KnownMove .before (.execute s) (.ok a) .since
  | told {s : S} {a : A s} {φ : Prop}
      (h : ∀ {env d d'}, mark d → L.exec s env d = some (a, d') → φ) :
      KnownMove .since (.execute s) (.ok a) (.told φ)

/-- The coroutine goes on like this: a value it returns is good, or it has been told that it is. -/
def TellsFrom (p : ConnProg S A ε α) (known : Known) : Prop :=
  Follows (KnownMove L own mark)
    (fun known out => ∀ a, out = .ok a → good a ∨ known = .told (good a)) p known

variable {L own mark good} {β : Type} {s : S} {known : Known}

theorem tellsFrom_ret {a : α} (h : good a) :
    TellsFrom L own mark good (.ret a : ConnProg S A ε α) known := by
  rintro _ ⟨⟩
  exact .inl h

theorem tellsFrom_raise {e : ε} :
    TellsFrom L own mark good (.raise e : ConnProg S A ε α) known := by
  rintro _ ⟨⟩

theorem tellsFrom_own {f : A s → ConnProg S A ε α}
    (hf : ∀ a, own s a → TellsFrom L own mark good (f a) .since)
    (hf' : ∀ a, ¬ own s a → TellsFrom L own mark good (f a) .before) :
    TellsFrom L own mark good (execute s >>= f) .before := by
  intro r
  cases r with
  | error e => exact ⟨.before, .idle _ _ _, tellsFrom_raise⟩
  | ok a =>
    by_cases hown : own s a
    · exact ⟨.since, .own hown, hf a hown⟩
    · exact ⟨.before, .idle _ _ _, hf' a hown⟩

theorem tellsFrom_commit {f : Unit → ConnProg S A ε α}
    (hf : TellsFrom L own mark good (f ()) known) :
    TellsFrom L own mark good (commit >>= f) known := by
  intro r
  cases r with
  | ok a => exact ⟨known, .idle _ _ _, hf⟩
  | error e => exact ⟨known, .idle _ _ _, tellsFrom_raise⟩

/-- The statement whose answer is returned. -/
theorem tellsFrom_read {good : A s → Prop}
    (hread : ∀ {a env d d'}, mark d → L.exec s env d = some (a, d') → good a) :
    TellsFrom L own mark good (execute s : ConnProg S A ε (A s)) .since := by
  intro r
  cases r with
  | ok a =>
    refine ⟨.told (good a), .told hread, ?_⟩
    rintro _ ⟨⟩
    exact .inr rfl
  | error e => exact ⟨.since, .idle _ _ _, tellsFrom_raise⟩

theorem tellsFrom_map {good : β → Prop} {f : α → β} {p : ConnProg S A ε α}
    (h : TellsFrom L own mark (fun a => good (f a)) p known) :
    TellsFrom L own mark good (f <$> p) known := by
  refine Follows.map (h.mono id fun {q out} hq => ?_)
  rintro _ hout
  cases out with
  | ok a =>
    cases hout
    exact hq a rfl
  | error e => cases hout

/-- What a thread that runs `call₀` knows, as an assertion. -/
def Known.Asserts (mark : D → Prop) (call₀ : Call) (conn : Shared D) (call : Call) : Known → Prop
  | .before => True
  | .since => call = call₀ → mark conn.working
  | .told φ => call = call₀ → φ

theorem Known.asserts_step {call₀ call : Call} {conn conn' : Shared D} {known : Known}
    {o : ConnOp S} {env : Except ε Env} {r : ConnOp.Res A ε o}
    (hmark : ∀ {s env d a d'}, mark d → L.exec s env d = some (a, d') → mark d')
    (h : known.Asserts mark call₀ conn call)
    (hexec : (L.machine code).exec o env conn = some (r, conn')) :
    known.Asserts mark call₀ conn' call := by
  cases known with
  | before => exact trivial
  | told φ => exact h
  | since =>
    intro hcall
    rcases machine_exec_cases hexec with ⟨-, rfl | rfl⟩ | ⟨s, env', a, d, -, hs, rfl⟩
    · exact h hcall
    · exact h hcall
    · exact hmark (h hcall) hs

/-- What is known, as an outline. -/
def toldOutline (hmark : ∀ {s env d a d'}, mark d → L.exec s env d = some (a, d') → mark d')
    (hown : ∀ {s env d a d'}, own s a → L.exec s env d = some (a, d') → mark d') (call₀ : Call) :
    (L.machine code).Outline (.free fun _ => True) (fun _ => KnownMove L own mark)
      (fun _ => Known.before) where
  inv _ _ := True
  asserts conn _ _ call known := known.Asserts mark call₀ conn call
  owns _ _ := False
  entry _ _ _ := ⟨trivial, id⟩
  step := by
    rintro conn conn' hist i call p q o r env - h move hexec -
    refine ⟨trivial, ?_⟩
    cases move with
    | idle => exact Known.asserts_step hmark h hexec
    | own hs =>
      intro _
      cases env with
      | error e => cases hexec
      | ok env =>
        obtain ⟨⟨a', d⟩, hd, heq⟩ := Option.map_eq_some_iff.mp hexec
        cases heq
        exact hown hs hd
    | told hφ =>
      intro hcall
      cases env with
      | error e => cases hexec
      | ok env =>
        obtain ⟨⟨a', d⟩, hd, heq⟩ := Option.map_eq_some_iff.mp hexec
        cases heq
        exact hφ (h hcall) hd
  free _ _ h _ hexec _ _ _ := Known.asserts_step hmark h hexec
  excl _ _ _ _ _ h _ := h.elim

/-- **Told**: what a coroutine returns of an answer that it got after its statement is what the
mark of the statement makes of it, whatever the others have done in between. -/
theorem good_of_told (hmark : ∀ {s env d a d'}, mark d → L.exec s env d = some (a, d') → mark d')
    (hown : ∀ {s env d a d'}, own s a → L.exec s env d = some (a, d') → mark d') {call₀ : Call}
    (hcode : TellsFrom L own mark good (code call₀) .before) {conn : Shared D}
    (h : L.Runs code (Pool.init conn) c) {i : ℕ} {a : α} (hret : c.At i call₀ (.ret a)) :
    good a := by
  let O : (L.machine code).Outline (.free fun _ => True) (fun _ => KnownMove L own mark)
      (fun _ => Known.before) := toldOutline hmark hown call₀
  have hfollows := follows_of_call (T := KnownMove L own mark) .idle hcode
  obtain ⟨a', hm, ha⟩ := O.restarted (fun call _ => hfollows call) (fun _ => trivial) trivial h
  obtain ⟨known, hp, hf⟩ := hm.at hret
  rcases hf rfl a rfl with hgood | rfl
  · exact hgood
  · exact ha.asserts hp rfl

end Told

/-! ## What can be taken once -/

/-- Something that statements take, and that no statement gives back. A statement that takes it
has found it free. -/
structure Latch (L : Language S A Env D) : Type where
  taken : D → Prop
  takes : (s : S) → A s → Prop
  kept : ∀ {s env d a d'}, taken d → L.exec s env d = some (a, d') → taken d'
  found : ∀ {s env d a d'}, takes s a → L.exec s env d = some (a, d') → ¬ taken d
  left : ∀ {s env d a d'}, takes s a → L.exec s env d = some (a, d') → taken d'

namespace Latch

variable (l : Latch L)

/-- It is taken, and has not been taken since. -/
def TakenSince (later : List (Line S A Env ε Call)) (d : D) : Prop :=
  l.taken d ∧ ∀ e ∈ later, ∀ i call, ¬ Did l.takes i call e

theorem takenSince_upkeep : Upkeep L ε Call l.TakenSince where
  idle := by
    rintro later d i call o env r hidle ⟨htaken, hlater⟩
    refine ⟨htaken, List.forall_mem_cons.mpr ⟨?_, hlater⟩⟩
    rintro j call' ⟨h⟩
    exact hidle _ _ rfl
  exec := by
    rintro later d d' i call s env env' a ⟨htaken, hlater⟩ hexec
    refine ⟨l.kept htaken hexec, List.forall_mem_cons.mpr ⟨?_, hlater⟩⟩
    rintro j call' ⟨h⟩
    exact l.found h hexec htaken
  stored := by
    rintro later d d' i call s env env' a stored ⟨hstored, hlater⟩ ⟨htaken, -⟩ hexec
    refine ⟨hstored, List.forall_mem_cons.mpr ⟨?_, hlater⟩⟩
    rintro j call' ⟨h⟩
    exact l.found h hexec htaken

variable {l} {good : α → Prop} {conn : Shared D} {i j : ℕ} {call call' : Call} {a a' : α}

/-- Since a coroutine that takes it has returned, it has not been taken again. -/
theorem taken_since (hcode : Saves l.takes good (code call)) (h : L.Runs code (Pool.init conn) c)
    (hret : c.At i call (.ret a)) (hgood : good a) (h' : L.Runs code c c') {d : D}
    (hd : d = c'.shared.stored ∨ d = c'.shared.working) :
    Since l.takes (l.TakenSince · d) i call c'.hist :=
  l.takenSince_upkeep.acknowledged
    (fun hs hexec => ⟨l.left hs hexec, fun _ he => absurd he List.not_mem_nil⟩)
    hcode h hret hgood h' hd

/-- **Taken for good**, once a coroutine that takes it has returned. -/
theorem taken_of_returned (hcode : Saves l.takes good (code call))
    (h : L.Runs code (Pool.init conn) c) (hret : c.At i call (.ret a)) (hgood : good a)
    (h' : L.Runs code c c') {d : D} (hd : d = c'.shared.stored ∨ d = c'.shared.working) :
    l.taken d := by
  obtain ⟨_, _, _, -, -, htaken, -⟩ := taken_since hcode h hret hgood h' hd
  exact htaken

/-- **Once**: two coroutines that take it and have returned are one, whatever failed in between
and however often the process was restarted. -/
theorem one {good' : α → Prop} (hcode : Saves l.takes good (code call))
    (hcode' : Saves l.takes good' (code call')) (h : L.Runs code (Pool.init conn) c)
    (hret : c.At i call (.ret a)) (hgood : good a) (h' : L.Runs code c c')
    (hret' : c'.At j call' (.ret a')) (hgood' : good' a') : i = j := by
  obtain ⟨later, e, pre, hhist, he, -, hlater⟩ := taken_since hcode h hret hgood h' (.inl rfl)
  obtain ⟨later', e', pre', hhist', he', -, hlater'⟩ :=
    taken_since hcode' (h.trans h') hret' hgood' .refl (.inl rfl)
  -- neither of the two lines follows the other
  rcases List.append_eq_append_iff.mp (hhist.symm.trans hhist') with
    ⟨between, rfl, heq⟩ | ⟨between, rfl, heq⟩
  · cases between with
    | nil =>
      obtain rfl := (List.cons.inj heq).1
      exact he.tid.symm.trans he'.tid
    | cons x between =>
      obtain rfl := (List.cons.inj heq).1
      exact absurd he (hlater' _ (by simp) _ _)
  · cases between with
    | nil =>
      obtain rfl := (List.cons.inj heq).1
      exact he.tid.symm.trans he'.tid
    | cons x between =>
      obtain rfl := (List.cons.inj heq).1
      exact absurd he' (hlater _ (by simp) _ _)

end Latch

/-! ## What a run leaves alone -/

/-- A part of the data, and the statements that may touch it. -/
structure View (L : Language S A Env D) (V : Type) : Type where
  view : D → V
  touches : S → Prop
  alone : ∀ {s env d a d'}, ¬ touches s → L.exec s env d = some (a, d') → view d' = view d

/-- One of the two things that could be seen before. -/
def View.OneOf {V : Type} (v : View L V) (conn : Shared D) (d : D) : Prop :=
  v.view d = v.view conn.stored ∨ v.view d = v.view conn.working

/-- **Left alone**: if nothing that happened since touches the part, it is what it was, or what
it was when last committed. -/
theorem View.unchanged {V : Type} (v : View L V) (h : L.Runs code c c') :
    ∃ since, c'.hist = since ++ c.hist ∧
      ((∀ e ∈ since, ∀ s, e.op = .execute s → ¬ v.touches s) →
        v.OneOf c.shared c'.shared.stored ∧ v.OneOf c.shared c'.shared.working) := by
  refine h.preserves (I := fun conn hist => ∃ since, hist = since ++ c.hist ∧
      ((∀ e ∈ since, ∀ s, e.op = .execute s → ¬ v.touches s) →
        v.OneOf c.shared conn.stored ∧ v.OneOf c.shared conn.working)) ?_ ?_
    ⟨[], rfl, fun _ => ⟨.inl rfl, .inr rfl⟩⟩
  · rintro conn conn' hist i call o env r ⟨since, rfl, hview⟩ hexec
    refine ⟨_ :: since, rfl, fun hsince => ?_⟩
    obtain ⟨hstored, hworking⟩ := hview fun e he => hsince e (List.mem_cons_of_mem _ he)
    rcases machine_exec_cases hexec with ⟨-, rfl | rfl⟩ | ⟨s, env', a, d, heq, hs, rfl⟩
    · exact ⟨hstored, hworking⟩
    · exact ⟨hworking, hworking⟩
    · cases heq
      have hsame : v.view d = v.view conn.working :=
        v.alone (hsince _ List.mem_cons_self s rfl) hs
      exact ⟨hstored, hworking.imp hsame.trans hsame.trans⟩
  · rintro conn hist ⟨since, rfl, hview⟩
    exact ⟨since, rfl, fun hsince => ⟨(hview hsince).1, (hview hsince).1⟩⟩

end Sql
