import BankingAgent.Async.Protocol
import Mathlib.Data.List.Forall2

/-!
# Pools of coroutines over a shared state

`Machine` bundles what a concurrent system consists of: the code of each kind
of call, and what an operation does to the shared state once the environment has
chosen its part of the answer. A `Pool` is the shared state, the threads started
so far and the history of the operations performed. A step of the pool starts a
call, lets one thread perform one operation, or crashes the process (the shared
state survives, every thread is lost).

A `Discipline` restricts the runs that are looked at: which calls start, whether
crashes occur, whether a call may start while another is unfinished, and which
entries may be added to the history.

The same pool with positions of a protocol in place of coroutines is the
**abstract pool**. `Machine.Reach.tracked` is the induction rule of the layer: an
invariant of the abstract pool holds of every reachable concrete pool, thread by
thread at the positions the coroutines have reached.
-/

namespace Async

/-- One line of the history: thread `tid`, running `call`, performed `op`; the
environment chose `env` and the thread got the answer `res`. -/
structure Entry (Call Env Op : Type) (Res : Op → Type) : Type where
  /-- the thread -/
  tid : ℕ
  /-- the call the thread is running -/
  call : Call
  /-- the operation -/
  op : Op
  /-- the environment's choice -/
  env : Env
  /-- the answer -/
  res : Res op

/-- A thread: the call it runs and how far it is, or `none` after a crash. -/
structure Thread (Call B : Type) : Type where
  /-- the call -/
  call : Call
  /-- what is left of it -/
  body : Option B

/-- A pool of threads over a shared state, with its history (newest first). -/
structure Pool (σ Call B E : Type) : Type where
  /-- the shared state -/
  shared : σ
  /-- the threads, in the order they were started -/
  threads : List (Thread Call B)
  /-- the operations performed -/
  hist : List E

/-- The code of every call, and the effect of every operation. -/
structure Machine (Op : Type) (Res : Op → Type) (ε α Call Env σ : Type) : Type where
  /-- the answer and the new shared state, if the environment's choice fits -/
  exec : (o : Op) → Env → σ → Option (Res o × σ)
  /-- the coroutine a call runs -/
  code : Call → Prog Op Res ε α

/-- Which runs are considered. -/
structure Discipline (σ Call E : Type) : Type where
  /-- the call may be started -/
  start : Call → Prop
  /-- crashes may occur -/
  crash : Prop
  /-- a call starts only when every earlier one has ended -/
  sequential : Prop
  /-- the entry may be performed in this state, after this history -/
  ok : σ → List E → E → Prop

/-- Every interleaving of the calls `start`, without crashes. -/
def Discipline.free {σ Call E : Type} (start : Call → Prop) : Discipline σ Call E :=
  ⟨start, False, False, fun _ _ _ => True⟩

/-- Every interleaving of the calls `start`, with crashes anywhere. -/
def Discipline.crashing {σ Call E : Type} (start : Call → Prop) : Discipline σ Call E :=
  { Discipline.free start with crash := True }

section Decidable

variable {σ Call E : Type} (start : Call → Prop)

instance [h : DecidablePred start] :
    DecidablePred (Discipline.free start : Discipline σ Call E).start := h

instance : Decidable (Discipline.free start : Discipline σ Call E).crash := instDecidableFalse

instance : Decidable (Discipline.free start : Discipline σ Call E).sequential :=
  instDecidableFalse

instance (s : σ) (h : List E) (e : E) :
    Decidable ((Discipline.free start : Discipline σ Call E).ok s h e) := instDecidableTrue

instance [h : DecidablePred start] :
    DecidablePred (Discipline.crashing start : Discipline σ Call E).start := h

instance : Decidable (Discipline.crashing start : Discipline σ Call E).crash := instDecidableTrue

instance : Decidable (Discipline.crashing start : Discipline σ Call E).sequential :=
  instDecidableFalse

instance (s : σ) (h : List E) (e : E) :
    Decidable ((Discipline.crashing start : Discipline σ Call E).ok s h e) := instDecidableTrue

end Decidable

namespace Pool

variable {σ Call B E : Type}

/-- The pool with no threads and no history. -/
def init (s : σ) : Pool σ Call B E := ⟨s, [], []⟩

/-- Thread `i` runs `call` and is at `b`. -/
def At (c : Pool σ Call B E) (i : ℕ) (call : Call) (b : B) : Prop :=
  c.threads[i]? = some ⟨call, some b⟩

/-- Start a call. -/
def spawn (c : Pool σ Call B E) (call : Call) (b : B) : Pool σ Call B E :=
  { c with threads := c.threads ++ [⟨call, some b⟩] }

/-- Thread `i` moves to `b`, changing the shared state and adding to the history. -/
def advance (c : Pool σ Call B E) (i : ℕ) (call : Call) (b : B) (s : σ) (e : E) :
    Pool σ Call B E :=
  ⟨s, c.threads.set i ⟨call, some b⟩, e :: c.hist⟩

/-- The process dies: every thread is lost. -/
def crash (c : Pool σ Call B E) : Pool σ Call B E :=
  { c with threads := c.threads.map fun t => ⟨t.call, none⟩ }

variable {c : Pool σ Call B E} {i j : ℕ} {call call' : Call} {b b' : B} {s : σ} {e : E}

@[simp] theorem init_shared : (init s : Pool σ Call B E).shared = s := rfl

@[simp] theorem init_hist : (init s : Pool σ Call B E).hist = [] := rfl

@[simp] theorem spawn_shared : (c.spawn call b).shared = c.shared := rfl

@[simp] theorem spawn_hist : (c.spawn call b).hist = c.hist := rfl

@[simp] theorem advance_shared : (c.advance i call b s e).shared = s := rfl

@[simp] theorem advance_hist : (c.advance i call b s e).hist = e :: c.hist := rfl

@[simp] theorem crash_shared : c.crash.shared = c.shared := rfl

@[simp] theorem crash_hist : c.crash.hist = c.hist := rfl

@[simp] theorem not_at_init : ¬ (init s : Pool σ Call B E).At i call b := by
  simp [At, init]

@[simp] theorem not_at_crash : ¬ c.crash.At i call b := by
  simp [At, crash]

theorem At.lt (h : c.At i call b) : i < c.threads.length := by
  by_contra hlt
  rw [At, List.getElem?_eq_none (by omega)] at h
  cases h

/-- A thread is at one place only. -/
theorem At.unique (h : c.At i call b) (h' : c.At i call' b') : call = call' ∧ b = b' := by
  have := h.symm.trans h'
  simpa using this

theorem at_spawn :
    (c.spawn call b).At j call' b' ↔
      c.At j call' b' ∨ j = c.threads.length ∧ call' = call ∧ b' = b := by
  rcases Nat.lt_trichotomy j c.threads.length with hj | hj | hj
  · simp [At, spawn, List.getElem?_append_left hj, Nat.ne_of_lt hj]
  · subst hj
    simp [At, spawn, eq_comm]
  · have h₁ : c.threads.length ≤ j := by omega
    have h₂ : (c.threads ++ [(⟨call, some b⟩ : Thread Call B)]).length ≤ j := by
      rw [List.length_append, List.length_singleton]
      omega
    simp [At, spawn, List.getElem?_eq_none h₁, List.getElem?_eq_none h₂, Nat.ne_of_gt hj]

/-- After a step of thread `i`, thread `i` is at its new place and every other
thread where it was. -/
theorem at_advance (h : i < c.threads.length) :
    (c.advance i call b s e).At j call' b' ↔
      (j = i ∧ call' = call ∧ b' = b) ∨ (j ≠ i ∧ c.At j call' b') := by
  by_cases hj : j = i
  · subst hj
    simp [At, advance, List.getElem?_set_self h, eq_comm]
  · simp [At, advance, List.getElem?_set_ne (Ne.symm hj), hj]

end Pool

namespace Machine

variable {Op : Type} {Res : Op → Type} {ε α Call Env σ : Type}

/-- A pool of running coroutines. -/
abbrev Config (_ : Machine Op Res ε α Call Env σ) : Type :=
  Pool σ Call (Prog Op Res ε α) (Entry Call Env Op Res)

variable (M : Machine Op Res ε α Call Env σ)
  (D : Discipline σ Call (Entry Call Env Op Res))

/-- One step of the system. -/
inductive Step : M.Config → M.Config → Prop
  | spawn {c : M.Config} (call : Call) (may : D.start call)
      (seq : D.sequential → ∀ t ∈ c.threads, ∀ p, t.body = some p → p.outcome?.isSome) :
      Step c (c.spawn call (M.code call))
  | step {c : M.Config} {i : ℕ} {call : Call} {o : Op} {k : Res o → Prog Op Res ε α}
      {env : Env} {r : Res o} {s : σ}
      (here : c.At i call (.op o k)) (exec : M.exec o env c.shared = some (r, s))
      (ok : D.ok c.shared c.hist ⟨i, call, o, env, r⟩) :
      Step c (c.advance i call (k r) s ⟨i, call, o, env, r⟩)
  | crash {c : M.Config} (may : D.crash) : Step c c.crash

/-- `c'` is reached from `c` by a run that obeys the discipline. -/
abbrev Reach : M.Config → M.Config → Prop := Relation.ReflTransGen (M.Step D)

variable {M D} in
/-- Steps add to the history. -/
theorem Step.hist {c c' : M.Config} (h : M.Step D c c') : ∀ e ∈ c.hist, e ∈ c'.hist := by
  cases h with
  | spawn => exact fun _ he => he
  | step => exact fun _ he => List.mem_cons_of_mem _ he
  | crash => exact fun _ he => he

variable {M D} in
/-- Whatever happens in a run is in its history in the end. -/
theorem Reach.within {s : σ} {c : M.Config} (h : M.Reach D (Pool.init s) c) :
    ∀ {H : List (Entry Call Env Op Res)}, (∀ e ∈ c.hist, e ∈ H) →
      M.Reach { D with ok := fun s h e => D.ok s h e ∧ e ∈ H } (Pool.init s) c := by
  induction h with
  | refl => exact fun _ => .refl
  | tail _ hs ih =>
    intro H hH
    refine (ih fun e he => hH e (hs.hist e he)).tail ?_
    cases hs with
    | spawn call may seq => exact .spawn call may seq
    | step here exec ok => exact .step here exec ⟨ok, hH _ List.mem_cons_self⟩
    | crash may => exact .crash may

variable {M D} in
/-- A run of a discipline is one of any more liberal discipline. -/
theorem Reach.weaken {D' : Discipline σ Call (Entry Call Env Op Res)}
    (hstart : ∀ call, D.start call → D'.start call) (hcrash : D.crash → D'.crash)
    (hseq : D'.sequential → D.sequential) (hok : ∀ s h e, D.ok s h e → D'.ok s h e)
    {c c' : M.Config} (h : M.Reach D c c') : M.Reach D' c c' := by
  induction h with
  | refl => exact .refl
  | tail _ hs ih =>
    refine ih.tail ?_
    cases hs with
    | spawn call may seq => exact .spawn call (hstart call may) fun hd => seq (hseq hd)
    | step here exec ok => exact .step here exec (hok _ _ _ ok)
    | crash may => exact .crash (hcrash may)

/-! ## Running a schedule

The step relation, computed: a schedule names the calls that start, the threads
that move, and what the environment chooses for each operation they perform. -/

/-- One line of a schedule. -/
inductive Act (Call Op Env : Type) : Type where
  /-- start a call -/
  | spawn : Call → Act Call Op Env
  /-- let a thread perform its next operations, so many or until it ends -/
  | steps : ℕ → ℕ → (Op → Env) → Act Call Op Env
  /-- crash the process -/
  | crash : Act Call Op Env

section Schedules

variable [DecidablePred D.start] [Decidable D.crash] [Decidable D.sequential]
  [∀ s h e, Decidable (D.ok s h e)]

/-- Every thread has ended, computed. -/
def settled (c : M.Config) : Bool :=
  c.threads.all fun t => (t.body.map fun p => p.outcome?.isSome).getD true

/-- Let what is left of thread `i` perform its next operation, if there is one. -/
def resume? (c : M.Config) (i : ℕ) (call : Call) (choose : Op → Env) :
    Prog Op Res ε α → Option M.Config
  | .op o k =>
    (M.exec o (choose o) c.shared).bind fun rs =>
      if D.ok c.shared c.hist ⟨i, call, o, choose o, rs.1⟩ then
        some (c.advance i call (k rs.1) rs.2 ⟨i, call, o, choose o, rs.1⟩)
      else none
  | _ => some c

/-- Let thread `i` perform its next `n` operations. -/
def steps? (i : ℕ) (choose : Op → Env) : ℕ → M.Config → Option M.Config
  | 0, c => some c
  | n + 1, c =>
    (c.threads[i]?.bind fun t => t.body.bind fun p => M.resume? D c i t.call choose p).bind
      (steps? i choose n)

/-- One line of a schedule, refused where the discipline forbids it. -/
def act? (c : M.Config) : Act Call Op Env → Option M.Config
  | .spawn call =>
    if D.start call ∧ (D.sequential → M.settled c) then
      some (c.spawn call (M.code call))
    else none
  | .steps i n choose => M.steps? D i choose n c
  | .crash => if D.crash then some c.crash else none

/-- A whole schedule. -/
def run? : List (Act Call Op Env) → M.Config → Option M.Config
  | [], c => some c
  | a :: as, c => (M.act? D c a).bind (run? as)

variable {M D}

theorem settled_iff {c : M.Config} :
    M.settled c = true ↔ ∀ t ∈ c.threads, ∀ p, t.body = some p → p.outcome?.isSome := by
  rw [settled, List.all_eq_true]
  refine forall₂_congr fun t _ => ?_
  cases t.body with
  | none => simp
  | some p => simp

omit [DecidablePred D.start] [Decidable D.crash] [Decidable D.sequential] in
theorem reach_of_resume? {c c' : M.Config} {i : ℕ} {call : Call} {choose : Op → Env}
    {p : Prog Op Res ε α} (hp : c.At i call p) (h : M.resume? D c i call choose p = some c') :
    M.Reach D c c' := by
  cases p with
  | ret a =>
    obtain rfl := Option.some.inj h
    exact .refl
  | raise e =>
    obtain rfl := Option.some.inj h
    exact .refl
  | op o k =>
    obtain ⟨⟨r, s⟩, hexec, hr⟩ := Option.bind_eq_some_iff.mp h
    obtain ⟨hok, rfl⟩ := Option.ite_none_right_eq_some.mp hr |>.imp_right Option.some.inj
    exact .single (.step hp hexec hok)

omit [DecidablePred D.start] [Decidable D.crash] [Decidable D.sequential] in
theorem reach_of_steps? {i : ℕ} {choose : Op → Env} :
    ∀ {n : ℕ} {c c' : M.Config}, M.steps? D i choose n c = some c' → M.Reach D c c' := by
  intro n
  induction n with
  | zero =>
    intro c c' h
    obtain rfl := Option.some.inj h
    exact .refl
  | succ n ih =>
    intro c c' h
    obtain ⟨c₁, h₁, h₂⟩ := Option.bind_eq_some_iff.mp h
    obtain ⟨⟨call, body⟩, ht, hb⟩ := Option.bind_eq_some_iff.mp h₁
    obtain ⟨p, rfl, hp⟩ := Option.bind_eq_some_iff.mp hb
    exact (reach_of_resume? ht hp).trans (ih h₂)

omit [DecidablePred D.start] [Decidable D.crash] [Decidable D.sequential] in
/-- One line that lets a thread perform one operation is a step. -/
theorem step_of_steps? (i : ℕ) (choose : Op → Env) {c c' : M.Config}
    (h : M.steps? D i choose 1 c = some c') (hist : c'.hist ≠ c.hist) : M.Step D c c' := by
  obtain ⟨c₁, h₁, h₂⟩ := Option.bind_eq_some_iff.mp h
  obtain rfl := Option.some.inj h₂
  obtain ⟨⟨call, body⟩, ht, hb⟩ := Option.bind_eq_some_iff.mp h₁
  obtain ⟨p, rfl, hp⟩ := Option.bind_eq_some_iff.mp hb
  cases p with
  | ret a => exact absurd (congrArg Pool.hist (Option.some.inj hp)).symm hist
  | raise e => exact absurd (congrArg Pool.hist (Option.some.inj hp)).symm hist
  | op o k =>
    obtain ⟨⟨r, s⟩, hexec, hr⟩ := Option.bind_eq_some_iff.mp hp
    obtain ⟨hok, rfl⟩ := Option.ite_none_right_eq_some.mp hr |>.imp_right Option.some.inj
    exact .step ht hexec hok

theorem reach_of_act? {a : Act Call Op Env} {c c' : M.Config} (h : M.act? D c a = some c') :
    M.Reach D c c' := by
  cases a with
  | spawn call =>
    obtain ⟨⟨hstart, hseq⟩, hc⟩ := Option.ite_none_right_eq_some.mp h
    obtain rfl := Option.some.inj hc
    exact .single (.spawn call hstart fun hd => settled_iff.mp (hseq hd))
  | crash =>
    obtain ⟨hcrash, hc⟩ := Option.ite_none_right_eq_some.mp h
    obtain rfl := Option.some.inj hc
    exact .single (.crash hcrash)
  | steps i n choose => exact reach_of_steps? h

/-- A computed schedule is a run. -/
theorem reach_of_run? (as : List (Act Call Op Env)) :
    ∀ {c c' : M.Config}, M.run? D as c = some c' → M.Reach D c c' := by
  induction as with
  | nil =>
    intro c c' h
    obtain rfl := Option.some.inj h
    exact .refl
  | cons a as ih =>
    intro c c' h
    obtain ⟨c₁, h₁, h₂⟩ := Option.bind_eq_some_iff.mp h
    exact (reach_of_act? h₁).trans (ih h₂)

/-- The call of thread `i` and its result, once it has ended. -/
def result? (c : M.Config) (i : ℕ) : Option (Call × Except ε α) :=
  c.threads[i]?.bind fun t => t.body.bind fun p => p.outcome?.map (t.call, ·)

omit [DecidablePred D.start] [Decidable D.crash] [Decidable D.sequential]
  [∀ s h e, Decidable (D.ok s h e)] in
theorem at_of_result? {c : M.Config} {i : ℕ} {call : Call} {a : α}
    (h : M.result? c i = some (call, .ok a)) : c.At i call (.ret a) := by
  obtain ⟨⟨call', body⟩, ht, h⟩ := Option.bind_eq_some_iff.mp h
  obtain ⟨p, rfl, h⟩ := Option.bind_eq_some_iff.mp h
  obtain ⟨out, hout, h⟩ := Option.map_eq_some_iff.mp h
  cases h
  cases p with
  | ret b => cases hout; exact ht
  | raise e => cases hout
  | op o k => cases hout

omit [DecidablePred D.start] [Decidable D.crash] [Decidable D.sequential]
  [∀ s h e, Decidable (D.ok s h e)] in
theorem at_of_error? {c : M.Config} {i : ℕ} {call : Call} {e : ε}
    (h : M.result? c i = some (call, .error e)) : c.At i call (.raise e) := by
  obtain ⟨⟨call', body⟩, ht, h⟩ := Option.bind_eq_some_iff.mp h
  obtain ⟨p, rfl, h⟩ := Option.bind_eq_some_iff.mp h
  obtain ⟨out, hout, h⟩ := Option.map_eq_some_iff.mp h
  cases h
  cases p with
  | ret b => cases hout
  | raise e => cases hout; exact ht
  | op o k => cases hout

/-- A computed schedule reaches a pool with the computed properties. -/
theorem exists_reach_of_run? {as : List (Act Call Op Env)} {c : M.Config} {P : M.Config → Bool}
    (h : ((M.run? D as c).map P).getD false = true) :
    ∃ c', M.Reach D c c' ∧ P c' = true := by
  cases hr : M.run? D as c with
  | none => rw [hr] at h; cases h
  | some c' =>
    rw [hr] at h
    exact ⟨c', reach_of_run? as hr, h⟩

/-- Two schedules, one after the other. -/
theorem exists_reach_of_run?_run? {as as' : List (Act Call Op Env)} {c : M.Config}
    {P : M.Config → M.Config → Bool}
    (h : ((M.run? D as c).map fun c₁ => ((M.run? D as' c₁).map (P c₁)).getD false).getD false =
      true) :
    ∃ c₁ c', M.Reach D c c₁ ∧ M.Reach D c₁ c' ∧ P c₁ c' = true := by
  obtain ⟨c₁, hfirst, h⟩ := exists_reach_of_run? h
  obtain ⟨c', hsecond, hP⟩ := exists_reach_of_run? h
  exact ⟨c₁, c', hfirst, hsecond, hP⟩

end Schedules

/-! ## The abstract pool -/

section Abstract

variable {Pos : Type} (T : Call → Pos → (o : Op) → Res o → Pos → Prop)
  (start : Call → Pos) (Q : Call → Pos → Except ε α → Prop)

/-- One step of the abstract pool: the threads are positions of the protocol. -/
inductive AStep : Pool σ Call Pos (Entry Call Env Op Res) →
    Pool σ Call Pos (Entry Call Env Op Res) → Prop
  | spawn {a : Pool σ Call Pos (Entry Call Env Op Res)} (call : Call) (may : D.start call)
      (seq : D.sequential → ∀ t ∈ a.threads, ∀ p, t.body = some p → ∃ out, Q t.call p out) :
      AStep a (a.spawn call (start call))
  | step {a : Pool σ Call Pos (Entry Call Env Op Res)} {i : ℕ} {call : Call} {p q : Pos} {o : Op}
      {env : Env} {r : Res o} {s : σ}
      (here : a.At i call p) (move : T call p o r q)
      (exec : M.exec o env a.shared = some (r, s))
      (ok : D.ok a.shared a.hist ⟨i, call, o, env, r⟩) :
      AStep a (a.advance i call q s ⟨i, call, o, env, r⟩)
  | crash {a : Pool σ Call Pos (Entry Call Env Op Res)} (may : D.crash) : AStep a a.crash

/-- A thread and its position: same call, and what is left of the coroutine
obeys the protocol from there. -/
inductive ThreadMatch : Thread Call (Prog Op Res ε α) → Thread Call Pos → Prop
  | lost (call : Call) : ThreadMatch ⟨call, none⟩ ⟨call, none⟩
  | at {call : Call} {c : Prog Op Res ε α} {p : Pos} :
      Follows (T call) (Q call) c p → ThreadMatch ⟨call, some c⟩ ⟨call, some p⟩

/-- A concrete and an abstract pool in the same situation. -/
structure Matches (c : M.Config) (a : Pool σ Call Pos (Entry Call Env Op Res)) : Prop where
  shared : c.shared = a.shared
  hist : c.hist = a.hist
  threads : List.Forall₂ (ThreadMatch T Q) c.threads a.threads

variable {M D T start Q}

theorem forall₂_getElem? {A B : Type} {R : A → B → Prop} {l : List A} {m : List B}
    (h : List.Forall₂ R l m) :
    ∀ {i : ℕ} {x : A}, l[i]? = some x → ∃ y, m[i]? = some y ∧ R x y := by
  induction h with
  | nil => intro i x hx; simp at hx
  | cons hab _ ih =>
    intro i x hx
    cases i with
    | zero =>
      obtain rfl := Option.some.inj hx
      exact ⟨_, rfl, hab⟩
    | succ i => exact ih (by simpa using hx)

theorem forall₂_set {A B : Type} {R : A → B → Prop} {l : List A} {m : List B}
    (h : List.Forall₂ R l m) {x : A} {y : B} (hxy : R x y) :
    ∀ i, List.Forall₂ R (l.set i x) (m.set i y) := by
  induction h with
  | nil => intro i; exact .nil
  | cons hab ht ih =>
    intro i
    cases i with
    | zero => exact .cons hxy ht
    | succ i => exact .cons hab (ih i)

/-- A running thread has a position it obeys the protocol from. -/
theorem Matches.at {c : M.Config} {a : Pool σ Call Pos (Entry Call Env Op Res)}
    (h : M.Matches T Q c a) {i : ℕ} {call : Call} {p : Prog Op Res ε α} (hc : c.At i call p) :
    ∃ q, a.At i call q ∧ Follows (T call) (Q call) p q := by
  obtain ⟨t, ht, hm⟩ := forall₂_getElem? h.threads hc
  cases hm with
  | «at» hf => exact ⟨_, ht, hf⟩

theorem Matches.length {c : M.Config} {a : Pool σ Call Pos (Entry Call Env Op Res)}
    (h : M.Matches T Q c a) : c.threads.length = a.threads.length :=
  h.threads.length_eq

/-- A position is that of a running thread. -/
theorem Matches.of_at {c : M.Config} {a : Pool σ Call Pos (Entry Call Env Op Res)}
    (h : M.Matches T Q c a) {i : ℕ} {call : Call} {q : Pos} (ha : a.At i call q) :
    ∃ p, c.At i call p ∧ Follows (T call) (Q call) p q := by
  have hflip : List.Forall₂ (flip (ThreadMatch T Q)) a.threads c.threads := h.threads.flip
  obtain ⟨t, ht, hm⟩ := forall₂_getElem? hflip ha
  cases hm with
  | «at» hf => exact ⟨_, ht, hf⟩

/-- A thread that has ended has ended at an end of the protocol. -/
theorem Matches.settled {c : M.Config} {a : Pool σ Call Pos (Entry Call Env Op Res)}
    (h : M.Matches T Q c a)
    (hs : ∀ t ∈ c.threads, ∀ p, t.body = some p → p.outcome?.isSome) :
    ∀ t ∈ a.threads, ∀ p, t.body = some p → ∃ out, Q t.call p out := by
  rintro ⟨call, body⟩ ht p rfl
  obtain ⟨i, hi⟩ := List.mem_iff_getElem?.mp ht
  obtain ⟨c₁, hc₁, hf⟩ := h.of_at hi
  have hmem : (⟨call, some c₁⟩ : Thread Call (Prog Op Res ε α)) ∈ c.threads :=
    List.mem_iff_getElem?.mpr ⟨i, hc₁⟩
  have hout := hs _ hmem c₁ rfl
  cases c₁ with
  | ret x => exact ⟨_, hf⟩
  | raise e => exact ⟨_, hf⟩
  | op o k => cases hout

/-- **Simulation**: the abstract pool matches every step of the concrete one. -/
theorem Step.simulate (hcode : ∀ call, D.start call →
      Follows (T call) (Q call) (M.code call) (start call))
    {c c' : M.Config} {a : Pool σ Call Pos (Entry Call Env Op Res)}
    (hs : M.Step D c c') (hm : M.Matches T Q c a) :
    ∃ a', M.AStep D T start Q a a' ∧ M.Matches T Q c' a' := by
  obtain ⟨hsh, hh, hth⟩ := hm
  cases hs with
  | spawn call may seq =>
    refine ⟨_, .spawn call may fun hd => Matches.settled ⟨hsh, hh, hth⟩ (seq hd), hsh, hh, ?_⟩
    exact List.rel_append hth (.cons (.at (hcode call may)) .nil)
  | @step i call o k env r s here exec ok =>
    obtain ⟨p, hp, hf⟩ := Matches.at ⟨hsh, hh, hth⟩ here
    obtain ⟨q, hq, hk⟩ := hf r
    rw [hsh] at exec ok
    rw [hh] at ok
    refine ⟨_, .step hp hq exec ok, rfl, ?_, forall₂_set hth (.at hk) i⟩
    exact congrArg (_ :: ·) hh
  | crash may =>
    refine ⟨_, .crash may, hsh, hh, ?_⟩
    refine List.forall₂_map_left_iff.mpr (List.forall₂_map_right_iff.mpr (hth.imp ?_))
    rintro _ _ (call | h)
    · exact .lost call
    · exact .lost _

/-- **The invariant rule**: what holds of the initial abstract pool and survives
every abstract step holds at every reachable concrete pool. -/
theorem Reach.tracked (hcode : ∀ call, D.start call →
      Follows (T call) (Q call) (M.code call) (start call))
    {J : Pool σ Call Pos (Entry Call Env Op Res) → Prop} {s : σ}
    (h₀ : J (Pool.init s))
    (hstep : ∀ a a', J a → M.AStep D T start Q a a' → J a')
    {c : M.Config} (h : M.Reach D (Pool.init s) c) :
    ∃ a, M.Matches T Q c a ∧ J a := by
  induction h with
  | refl => exact ⟨_, ⟨rfl, rfl, .nil⟩, h₀⟩
  | tail _ hs ih =>
    obtain ⟨a, hm, ha⟩ := ih
    obtain ⟨a', hs', hm'⟩ := hs.simulate hcode hm
    exact ⟨a', hm', hstep a a' ha hs'⟩

end Abstract

end Machine

end Async
