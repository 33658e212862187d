import BankingAgent.Async.Pool

/-!
# Relying on the answers

`Relies A G Q c` says of the coroutine `c`: as long as the answers it gets are as `A`
says, the operations it performs are as `G` says, and it ends as `Q` says. Of what it does
after an answer that `A` rules out, nothing is said.
-/

namespace Async

variable {Op : Type} {Res : Op → Type} {ε α β : Type}

/-- Relying on `A`, the coroutine guarantees `G` and ends as `Q` says. -/
def Relies (A : (o : Op) → Res o → Prop) (G : Op → Prop) (Q : Except ε α → Prop) :
    Prog Op Res ε α → Prop
  | .ret a => Q (.ok a)
  | .raise e => Q (.error e)
  | .op o k => G o ∧ ∀ r, A o r → Relies A G Q (k r)

variable {A A' : (o : Op) → Res o → Prop} {G : Op → Prop} {Q Q' : Except ε α → Prop}

/-- Consequence. -/
theorem Relies.mono (hA : ∀ {o r}, A' o r → A o r) (hQ : ∀ {out}, Q out → Q' out) :
    ∀ {c : Prog Op Res ε α}, Relies A G Q c → Relies A' G Q' c := by
  intro c
  induction c with
  | ret a => exact fun h => hQ h
  | raise e => exact fun h => hQ h
  | op o k ih => exact fun h => ⟨h.1, fun r hr => ih r (h.2 r (hA hr))⟩

/-- Less may be guaranteed. -/
theorem Relies.weaken {G' : Op → Prop} (hG : ∀ {o}, G o → G' o) :
    ∀ {c : Prog Op Res ε α}, Relies A G Q c → Relies A G' Q c := by
  intro c
  induction c with
  | ret a => exact id
  | raise e => exact id
  | op o k ih => exact fun h => ⟨hG h.1, fun r hr => ih r (h.2 r hr)⟩

/-- Sequencing. -/
theorem Relies.bind {R : Except ε β → Prop} {f : α → Prog Op Res ε β}
    (hok : ∀ a, Q (.ok a) → Relies A G R (f a)) (herr : ∀ e, Q (.error e) → R (.error e)) :
    ∀ {c : Prog Op Res ε α}, Relies A G Q c → Relies A G R (c.bind f) := by
  intro c
  induction c with
  | ret a => exact hok a
  | raise e => exact herr e
  | op o k ih => exact fun h => ⟨h.1, fun r hr => ih r (h.2 r hr)⟩

/-- Sequencing, where all that is said is said of the value. -/
theorem Relies.andThen {P : α → Prop} {R : β → Prop} {c : Prog Op Res ε α}
    {f : α → Prog Op Res ε β} (hc : Relies A G (fun out => ∀ a, out = .ok a → P a) c)
    (hf : ∀ a, P a → Relies A G (fun out => ∀ b, out = .ok b → R b) (f a)) :
    Relies A G (fun out => ∀ b, out = .ok b → R b) (c.bind f) :=
  Relies.bind (fun a h => hf a (h a rfl)) (by rintro _ _ _ ⟨⟩) hc

/-- Sequencing, where nothing is said of the end. -/
theorem Relies.seq {c : Prog Op Res ε α} {f : α → Prog Op Res ε β}
    (hc : Relies A G (fun _ => True) c) (hf : ∀ a, Relies A G (fun _ => True) (f a)) :
    Relies A G (fun _ => True) (c >>= f) :=
  Relies.bind (fun a _ => hf a) (fun _ _ => trivial) hc

/-- `try`: both outcomes become values. -/
theorem Relies.attempt {Q : Except ε (Except ε α) → Prop} :
    ∀ {c : Prog Op Res ε α}, Relies A G (fun out => Q (.ok out)) c → Relies A G Q c.attempt := by
  intro c
  induction c with
  | ret a => exact id
  | raise e => exact id
  | op o k ih => exact fun h => ⟨h.1, fun r hr => ih r (h.2 r hr)⟩

/-- Operations may be answered on the spot as `A` says. -/
theorem Relies.handle {h : (o : Op) → Option (Res o)} (hA : ∀ {o r}, h o = some r → A o r) :
    ∀ {c : Prog Op Res ε α}, Relies A G Q c → Relies A G Q (c.handle h) := by
  intro c
  induction c with
  | ret a => exact id
  | raise e => exact id
  | op o k ih =>
    intro hc
    rw [Prog.handle]
    cases hr : h o with
    | none => exact ⟨hc.1, fun r hA => ih r (hc.2 r hA)⟩
    | some r => exact ih r (hc.2 r (hA hr))

/-- Operations that are always as `G` says need no answer to rely on. -/
theorem relies_of_only {P : Op → Prop} (hG : ∀ {o}, P o → G o) (hQ : ∀ out, Q out) :
    ∀ {c : Prog Op Res ε α}, c.Only P → Relies A G Q c := by
  intro c
  induction c with
  | ret a => exact fun _ => hQ _
  | raise e => exact fun _ => hQ _
  | op o k ih => exact fun h => ⟨hG h.1, fun r _ => ih r (h.2 r)⟩

/-- What is guaranteed whatever the answers are. -/
theorem Relies.only : ∀ {c : Prog Op Res ε α}, Relies (fun _ _ => True) G Q c → c.Only G := by
  intro c
  induction c with
  | ret a => exact fun _ => trivial
  | raise e => exact fun _ => trivial
  | op o k ih => exact fun h => ⟨h.1, fun r => ih r (h.2 r trivial)⟩

/-- **Along a trace** whose answers are as `A` says, the operations are as `G` says. -/
theorem Relies.trace {c c' : Prog Op Res ε α} {es : List (Event Op Res)} (ht : Trace c es c') :
    Relies A G Q c → (∀ e ∈ es, A e.op e.res) → ∀ e ∈ es, G e.op := by
  induction ht with
  | nil c => exact fun _ _ e he => absurd he List.not_mem_nil
  | @cons o k r es c' _ ih =>
    intro h hA e he
    rcases List.mem_cons.mp he with rfl | he
    · exact h.1
    · exact ih (h.2 r (hA _ List.mem_cons_self)) (fun e he => hA e (List.mem_cons_of_mem _ he)) e he

/-- What is guaranteed whatever the answers are may be written into a protocol. -/
theorem Relies.follows {Pos : Type} {T : Pos → (o : Op) → Res o → Pos → Prop}
    {R : Pos → Except ε α → Prop} : ∀ {c : Prog Op Res ε α} {p : Pos},
    Relies (fun _ _ => True) G Q c → Follows T R c p →
      Follows (fun p o r q => T p o r q ∧ G o) R c p := by
  intro c
  induction c with
  | ret a => exact fun _ h => h
  | raise e => exact fun _ h => h
  | op o k ih =>
    intro p hG h r
    obtain ⟨q, hq, hk⟩ := h r
    exact ⟨q, ⟨hq, hG.1⟩, ih r (hG.2 r trivial) hk⟩

/-- How a coroutine ends whatever the answers are is known besides. -/
theorem Relies.ends {Pos : Type} {T : Pos → (o : Op) → Res o → Pos → Prop}
    {R : Pos → Except ε α → Prop} : ∀ {c : Prog Op Res ε α} {p : Pos},
    Relies (fun _ _ => True) G Q c → Follows T R c p →
      Follows T (fun p out => R p out ∧ Q out) c p := by
  intro c
  induction c with
  | ret a => exact fun hQ h => ⟨h, hQ⟩
  | raise e => exact fun hQ h => ⟨h, hQ⟩
  | op o k ih =>
    intro p hc h r
    obtain ⟨q, hq, hk⟩ := h r
    exact ⟨q, hq, ih r (hc.2 r trivial) hk⟩

/-- Every coroutine does something. -/
theorem relies_true : ∀ c : Prog Op Res ε α, Relies A (fun _ => True) (fun _ => True) c := by
  intro c
  induction c with
  | ret a => exact trivial
  | raise e => exact trivial
  | op o k ih => exact ⟨trivial, fun r _ => ih r⟩

/-! ## In a pool -/

/-- **The rule for a machine**: if what the environment answers is as `A` says whenever the
operations are as `G` says, an invariant of the shared state being kept, then all operations
are, in every reachable pool, and all answers. -/
theorem Machine.Reach.relies {Call Env σ : Type} {M : Machine Op Res ε α Call Env σ}
    {D : Discipline σ Call (Entry Call Env Op Res)} {A : Call → (o : Op) → Res o → Prop}
    {G : Call → Op → Prop} {Q : Call → Except ε α → Prop}
    (hcode : ∀ call, D.start call → Relies (A call) (G call) (Q call) (M.code call))
    {J : σ → Prop} {s : σ} (h₀ : J s)
    (hstep : ∀ {s s' h i call o env r}, J s → G call o → M.exec o env s = some (r, s') →
      D.ok s h ⟨i, call, o, env, r⟩ → A call o r ∧ J s')
    {c : M.Config} (h : M.Reach D (Pool.init s) c) :
    J c.shared ∧ (∀ e ∈ c.hist, G e.call e.op) ∧
      ∀ {i call p}, c.At i call p → Relies (A call) (G call) (Q call) p := by
  induction h with
  | refl =>
    exact ⟨h₀, fun e he => absurd he List.not_mem_nil, fun hat => (Pool.not_at_init hat).elim⟩
  | tail _ hs ih =>
    obtain ⟨hJ, hhist, hat⟩ := ih
    cases hs with
    | spawn call may =>
      refine ⟨hJ, hhist, fun h => ?_⟩
      rcases Pool.at_spawn.mp h with h | ⟨-, rfl, rfl⟩
      · exact hat h
      · exact hcode _ may
    | @step i call o k env r s' here exec ok =>
      obtain ⟨hG, hk⟩ := hat here
      obtain ⟨hA, hJ'⟩ := hstep hJ hG exec ok
      refine ⟨hJ', fun e he => ?_, fun h => ?_⟩
      · rcases List.mem_cons.mp he with rfl | he
        · exact hG
        · exact hhist e he
      · rcases (Pool.at_advance here.lt).mp h with ⟨rfl, rfl, rfl⟩ | ⟨-, h⟩
        · exact hk r hA
        · exact hat h
    | crash may => exact ⟨hJ, hhist, fun h => (Pool.not_at_crash h).elim⟩

end Async
