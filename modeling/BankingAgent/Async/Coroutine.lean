import Mathlib.Logic.Relation

/-!
# Coroutines

The computation layer. A coroutine is a free-monad tree over an operation
signature: it returns a value, raises an exception, or awaits one operation and
goes on with the answer. Everything another coroutine could interleave with is
an operation; what runs between two of them is pure.

* `Prog Op Res ε α` — coroutines over the operations `Op`, with answers `Res`,
  exceptions `ε` and result `α`.
* `Prog.attempt` — `try`: the exception becomes a value.
* `Prog.handle` — answer some of the operations on the spot.
* `Trace p es q` — the coroutine `p` performs the events `es` and becomes `q`,
  the answers being arbitrary. What holds of every trace holds whatever the
  environment does.
-/

namespace Async

/-- Coroutine syntax over the operations `Op`, where `Res o` is the type of the
answers to `o`. -/
inductive Prog (Op : Type) (Res : Op → Type) (ε α : Type) : Type where
  /-- return a value -/
  | ret : α → Prog Op Res ε α
  /-- raise an exception -/
  | raise : ε → Prog Op Res ε α
  /-- await an operation and continue with its answer -/
  | op : (o : Op) → (Res o → Prog Op Res ε α) → Prog Op Res ε α

namespace Prog

variable {Op : Type} {Res : Op → Type} {ε α β γ : Type}

/-- Graft a continuation onto every `ret` leaf; an exception skips it. -/
protected def bind : Prog Op Res ε α → (α → Prog Op Res ε β) → Prog Op Res ε β
  | ret a, f => f a
  | raise e, _ => raise e
  | op o k, f => op o fun r => (k r).bind f

instance : Monad (Prog Op Res ε) where
  pure := ret
  bind := Prog.bind

/-- Await a single operation. -/
def await (o : Op) : Prog Op Res ε (Res o) := op o ret

/-- `try`: run to the end and hand back the exception as a value. -/
def attempt : Prog Op Res ε α → Prog Op Res ε (Except ε α)
  | ret a => ret (.ok a)
  | raise e => ret (.error e)
  | op o k => op o fun r => (k r).attempt

/-- Answer the operations `h` has an answer for; nobody else sees them. -/
def handle (h : (o : Op) → Option (Res o)) : Prog Op Res ε α → Prog Op Res ε α
  | ret a => ret a
  | raise e => raise e
  | op o k =>
    match h o with
    | some r => (k r).handle h
    | none => op o fun r => (k r).handle h

/-- The result of a finished coroutine. -/
def outcome? : Prog Op Res ε α → Option (Except ε α)
  | ret a => some (.ok a)
  | raise e => some (.error e)
  | op _ _ => none

/-- Run a coroutine alone: `exec` answers each operation, given what the environment
chooses for it. `none` if the choices do not fit or run out. -/
def solo {Env σ : Type} (exec : (o : Op) → Env → σ → Option (Res o × σ)) :
    Prog Op Res ε α → List Env → σ → Option (Except ε α × σ)
  | ret a, _, s => some (.ok a, s)
  | raise e, _, s => some (.error e, s)
  | op _ _, [], _ => none
  | op o k, env :: envs, s => (exec o env s).bind fun rs => (k rs.1).solo exec envs rs.2

@[simp] theorem pure_eq (a : α) : (pure a : Prog Op Res ε α) = ret a := rfl

@[simp] theorem bind_eq (p : Prog Op Res ε α) (f : α → Prog Op Res ε β) :
    p >>= f = p.bind f := rfl

@[simp] theorem ret_bind (a : α) (f : α → Prog Op Res ε β) : (ret a).bind f = f a := rfl

@[simp] theorem raise_bind (e : ε) (f : α → Prog Op Res ε β) :
    (raise e : Prog Op Res ε α).bind f = raise e := rfl

@[simp] theorem op_bind (o : Op) (k : Res o → Prog Op Res ε α) (f : α → Prog Op Res ε β) :
    (op o k).bind f = op o fun r => (k r).bind f := rfl

@[simp] theorem bind_ret (p : Prog Op Res ε α) : p.bind ret = p := by
  induction p with
  | ret a => rfl
  | raise e => rfl
  | op o k ih => exact congrArg (op o) (funext ih)

/-- What comes after what comes after. -/
theorem bind_assoc (p : Prog Op Res ε α) (f : α → Prog Op Res ε β) (g : β → Prog Op Res ε γ) :
    (p.bind f).bind g = p.bind fun a => (f a).bind g := by
  induction p with
  | ret a => rfl
  | raise e => rfl
  | op o k ih => exact congrArg (op o) (funext ih)

instance : LawfulMonad (Prog Op Res ε) :=
  LawfulMonad.mk' _ (fun p => bind_ret p) (fun _ _ => rfl) bind_assoc

/-- A sequence that has returned has done so in both parts. -/
theorem bind_eq_ret {p : Prog Op Res ε α} {f : α → Prog Op Res ε β} {b : β}
    (h : p.bind f = ret b) : ∃ a, p = ret a ∧ f a = ret b := by
  cases p with
  | ret a => exact ⟨a, rfl, h⟩
  | raise e => cases h
  | op o k => cases h

@[simp] theorem outcome?_ret (a : α) :
    (ret a : Prog Op Res ε α).outcome? = some (.ok a) := rfl

@[simp] theorem outcome?_raise (e : ε) :
    (raise e : Prog Op Res ε α).outcome? = some (.error e) := rfl

@[simp] theorem outcome?_op (o : Op) (k : Res o → Prog Op Res ε α) :
    (op o k).outcome? = none := rfl

/-- Every operation the coroutine may perform satisfies `P`. -/
def Only (P : Op → Prop) : Prog Op Res ε α → Prop
  | ret _ => True
  | raise _ => True
  | op o k => P o ∧ ∀ r, (k r).Only P

section Only

variable {P P' : Op → Prop}

/-- Who does only this does only that. -/
theorem Only.mono (hP : ∀ {o}, P o → P' o) : ∀ {p : Prog Op Res ε α}, p.Only P → p.Only P' := by
  intro p
  induction p with
  | ret a => exact id
  | raise e => exact id
  | op o k ih => exact fun h => ⟨hP h.1, fun r => ih r (h.2 r)⟩

theorem Only.bind {f : α → Prog Op Res ε β} (hf : ∀ a, (f a).Only P) :
    ∀ {p : Prog Op Res ε α}, p.Only P → (p.bind f).Only P := by
  intro p
  induction p with
  | ret a => exact fun _ => hf a
  | raise e => exact id
  | op o k ih => exact fun h => ⟨h.1, fun r => ih r (h.2 r)⟩

theorem Only.attempt : ∀ {p : Prog Op Res ε α}, p.Only P → p.attempt.Only P := by
  intro p
  induction p with
  | ret a => exact id
  | raise e => exact id
  | op o k ih => exact fun h => ⟨h.1, fun r => ih r (h.2 r)⟩

/-- What is answered on the spot is not performed. -/
theorem handle_only {h : (o : Op) → Option (Res o)} {p : Prog Op Res ε α} :
    (p.handle h).Only fun o => h o = none := by
  induction p with
  | ret a => exact trivial
  | raise e => exact trivial
  | op o k ih =>
    rw [Prog.handle]
    cases hr : h o with
    | none => exact ⟨hr, ih⟩
    | some r => exact ih r

end Only

section Solo

variable {Env σ : Type} {exec : (o : Op) → Env → σ → Option (Res o × σ)} {envs : List Env}
  {s s' : σ} {out : Except ε α}

theorem solo_ret {a : α} (h : (ret a : Prog Op Res ε α).solo exec envs s = some (out, s')) :
    out = .ok a ∧ s' = s := by
  cases h
  exact ⟨rfl, rfl⟩

/-- One operation, and the rest. -/
theorem solo_step {o : Op} {k : Res o → Prog Op Res ε α} {env : Env} {r : Res o} {s₁ : σ}
    (h : exec o env s = some (r, s₁)) :
    (op o k).solo exec (env :: envs) s = (k r).solo exec envs s₁ := by
  rw [solo, h, Option.bind_some]

/-- Inversion at an operation. -/
theorem solo_op {o : Op} {k : Res o → Prog Op Res ε α}
    (h : (op o k).solo exec envs s = some (out, s')) :
    ∃ env rest r s₁, envs = env :: rest ∧ exec o env s = some (r, s₁) ∧
      (k r).solo exec rest s₁ = some (out, s') := by
  cases envs with
  | nil => cases h
  | cons env rest =>
    obtain ⟨⟨r, s₁⟩, he, hk⟩ := Option.bind_eq_some_iff.mp h
    exact ⟨env, rest, r, s₁, rfl, he, hk⟩

end Solo

end Prog

/-! ## Traces -/

/-- An operation together with the answer it got. -/
structure Event (Op : Type) (Res : Op → Type) : Type where
  /-- the operation performed -/
  op : Op
  /-- its answer -/
  res : Res op

variable {Op : Type} {Res : Op → Type} {ε α : Type}

/-- `Trace p es q`: from `p`, performing the events `es` in order leaves `q`. -/
inductive Trace : Prog Op Res ε α → List (Event Op Res) → Prog Op Res ε α → Prop
  | nil (p : Prog Op Res ε α) : Trace p [] p
  | cons {o : Op} {k : Res o → Prog Op Res ε α} {r : Res o} {es : List (Event Op Res)}
      {q : Prog Op Res ε α} : Trace (k r) es q → Trace (.op o k) (⟨o, r⟩ :: es) q

section Inversion

variable {β : Type} {p q : Prog Op Res ε α} {es : List (Event Op Res)}

/-- What has returned does nothing more. -/
theorem Trace.of_ret {a : α} (h : Trace (.ret a) es q) : es = [] ∧ q = .ret a := by
  cases h
  exact ⟨rfl, rfl⟩

/-- An operation is still ahead, or it is done and the rest goes on from its answer. -/
theorem Trace.of_op {o : Op} {k : Res o → Prog Op Res ε α} (h : Trace (.op o k) es q) :
    es = [] ∧ q = .op o k ∨ ∃ r es', es = ⟨o, r⟩ :: es' ∧ Trace (k r) es' q := by
  cases h with
  | nil => exact .inl ⟨rfl, rfl⟩
  | cons h => exact .inr ⟨_, _, rfl, h⟩

/-- A trace of a sequence is one of its first part, or goes on in the second. -/
theorem Trace.of_bind {f : α → Prog Op Res ε β} {q : Prog Op Res ε β} :
    ∀ {p : Prog Op Res ε α} {es : List (Event Op Res)}, Trace (p.bind f) es q →
      (∃ p', Trace p es p' ∧ (∀ a, p' ≠ .ret a) ∧ q = p'.bind f) ∨
        ∃ a es₁ es₂, Trace p es₁ (.ret a) ∧ es = es₁ ++ es₂ ∧ Trace (f a) es₂ q := by
  intro p
  induction p with
  | ret a => exact fun h => .inr ⟨a, [], _, .nil _, rfl, h⟩
  | raise e =>
    intro es h
    cases h
    exact .inl ⟨_, .nil _, by rintro a ⟨⟩, rfl⟩
  | op o k ih =>
    intro es h
    rcases Trace.of_op h with ⟨rfl, rfl⟩ | ⟨r, es', rfl, h'⟩
    · exact .inl ⟨_, .nil _, by rintro a ⟨⟩, rfl⟩
    · rcases ih r h' with ⟨p', hp', hret, rfl⟩ | ⟨a, es₁, es₂, h₁, rfl, h₂⟩
      · exact .inl ⟨p', .cons hp', hret, rfl⟩
      · exact .inr ⟨a, ⟨o, r⟩ :: es₁, es₂, .cons h₁, rfl, h₂⟩

/-- After a trace of its first part that returns, a sequence goes on in the second. -/
theorem Trace.after {f : α → Prog Op Res ε β} {a : α} {es₁ es₂ : List (Event Op Res)}
    {p p' : Prog Op Res ε α} {q : Prog Op Res ε β} (h₁ : Trace p es₁ p') :
    p' = .ret a → Trace (p.bind f) (es₁ ++ es₂) q → Trace (f a) es₂ q := by
  induction h₁ with
  | nil p =>
    rintro rfl h
    exact h
  | cons _ ih =>
    intro ha h
    cases h with
    | cons h => exact ih ha h

/-- A trace of the first part that returns, and one of the second. -/
theorem Trace.bind {f : α → Prog Op Res ε β} {a : α} {es₁ es₂ : List (Event Op Res)}
    {p p' : Prog Op Res ε α} {q : Prog Op Res ε β} (h₁ : Trace p es₁ p') :
    p' = .ret a → Trace (f a) es₂ q → Trace (p.bind f) (es₁ ++ es₂) q := by
  induction h₁ with
  | nil p =>
    rintro rfl h
    exact h
  | cons _ ih => exact fun ha h => .cons (ih ha h)

/-- What may be performed at all is performed in a trace. -/
theorem Prog.Only.trace {P : Op → Prop} (h : Trace p es q) :
    p.Only P → ∀ e ∈ es, P e.op := by
  induction h with
  | nil p => exact fun _ e he => absurd he List.not_mem_nil
  | cons _ ih =>
    intro hp e he
    rcases List.mem_cons.mp he with rfl | he
    · exact hp.1
    · exact ih (hp.2 _) e he

end Inversion

end Async
