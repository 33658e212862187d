import BankingAgent.Async.Pool
import Mathlib.Data.Nat.Notation

/-!
# Coroutines run alone

`Runs exec c s es out s'` says that `c`, run alone from the shared state `s`, performs
the events `es`, ends with `out` and leaves `s'` behind. For a coroutine that obeys a
protocol this is Hoare logic: assertions about the shared state, one for each position,
that every move establishes where it leads, hold where the coroutine ends.

In a sequential discipline a call starts when every earlier one has ended or was lost in a
crash. Then one thread at most is under way, and nobody disturbs it: an invariant of the
shared state and the history, with assertions at the positions of the one thread, is
established by what single moves do (`Machine.Solo.sound`).
-/

namespace Async

variable {Op : Type} {Res : Op → Type} {ε α Env σ Pos : Type}
  {exec : (o : Op) → Env → σ → Option (Res o × σ)}

/-- A run from start to end, with nothing in between. -/
inductive Runs (exec : (o : Op) → Env → σ → Option (Res o × σ)) :
    Prog Op Res ε α → σ → List (Event Op Res) → Except ε α → σ → Prop
  | ret (a : α) (s : σ) : Runs exec (.ret a) s [] (.ok a) s
  | raise (e : ε) (s : σ) : Runs exec (.raise e) s [] (.error e) s
  | op {o : Op} {k : Res o → Prog Op Res ε α} {env : Env} {r : Res o} {s s₁ s' : σ}
      {es : List (Event Op Res)} {out : Except ε α} (he : exec o env s = some (r, s₁))
      (h : Runs exec (k r) s₁ es out s') : Runs exec (.op o k) s (⟨o, r⟩ :: es) out s'

/-- A run is a trace. -/
theorem Runs.trace {c : Prog Op Res ε α} {s s' : σ} {es : List (Event Op Res)}
    {out : Except ε α} (h : Runs exec c s es out s') : ∃ c', Trace c es c' := by
  induction h with
  | ret a s => exact ⟨_, .nil _⟩
  | raise e s => exact ⟨_, .nil _⟩
  | op _ _ ih =>
    obtain ⟨c', ht⟩ := ih
    exact ⟨c', .cons ht⟩

theorem Runs.trace_ret {c : Prog Op Res ε α} {s s' : σ} {es : List (Event Op Res)}
    {out : Except ε α} {a : α} (h : Runs exec c s es out s') : out = .ok a → Trace c es (.ret a) := by
  induction h with
  | ret a s =>
    rintro ⟨⟩
    exact .nil _
  | raise e s => rintro ⟨⟩
  | op _ _ ih => exact fun ha => .cons (ih ha)

/-- What may be performed at all is performed in a run. -/
theorem Prog.Only.runs {P : Op → Prop} {c : Prog Op Res ε α} {s s' : σ}
    {es : List (Event Op Res)} {out : Except ε α} (hc : c.Only P) (h : Runs exec c s es out s') :
    ∀ e ∈ es, P e.op := by
  obtain ⟨c', ht⟩ := h.trace
  exact Prog.Only.trace ht hc

/-- The choices of the environment, one after the other. -/
theorem Runs.solo {c : Prog Op Res ε α} {s s' : σ} {es : List (Event Op Res)} {out : Except ε α}
    (h : Runs exec c s es out s') : ∃ envs, c.solo exec envs s = some (out, s') := by
  induction h with
  | ret a s => exact ⟨[], rfl⟩
  | raise e s => exact ⟨[], rfl⟩
  | @op o k env r s s₁ s' es out he _ ih =>
    obtain ⟨envs, hsolo⟩ := ih
    exact ⟨env :: envs, Option.bind_eq_some_iff.mpr ⟨_, he, hsolo⟩⟩

section Inversion

variable {c : Prog Op Res ε α} {s s' : σ} {es : List (Event Op Res)} {out : Except ε α}

theorem Runs.of_ret {a : α} (h : Runs exec (.ret a) s es out s') :
    es = [] ∧ out = .ok a ∧ s' = s := by
  cases h
  exact ⟨rfl, rfl, rfl⟩

theorem Runs.of_raise {e : ε} (h : Runs exec (.raise e : Prog Op Res ε α) s es out s') :
    es = [] ∧ out = .error e ∧ s' = s := by
  cases h
  exact ⟨rfl, rfl, rfl⟩

theorem Runs.of_op {o : Op} {k : Res o → Prog Op Res ε α} (h : Runs exec (.op o k) s es out s') :
    ∃ env r s₁ es', exec o env s = some (r, s₁) ∧ es = ⟨o, r⟩ :: es' ∧
      Runs exec (k r) s₁ es' out s' := by
  cases h with
  | op he h => exact ⟨_, _, _, _, he, rfl, h⟩

/-- A sequence that returns has returned in both of its parts. -/
theorem Runs.of_bind {β : Type} {f : α → Prog Op Res ε β} {b : β} :
    ∀ {c : Prog Op Res ε α} {s : σ} {es : List (Event Op Res)},
      Runs exec (c.bind f) s es (.ok b) s' →
        ∃ a es₁ es₂ s₁, es = es₁ ++ es₂ ∧ Runs exec c s es₁ (.ok a) s₁ ∧
          Runs exec (f a) s₁ es₂ (.ok b) s' := by
  intro c
  induction c with
  | ret a => exact fun h => ⟨a, [], _, _, rfl, .ret a _, h⟩
  | raise e =>
    intro s es h
    cases h
  | op o k ih =>
    intro s es h
    obtain ⟨env, r, s₁, es', he, rfl, h'⟩ := Runs.of_op h
    obtain ⟨a, es₁, es₂, s₂, rfl, h₁, h₂⟩ := ih r h'
    exact ⟨a, ⟨o, r⟩ :: es₁, es₂, s₂, rfl, .op he h₁, h₂⟩

/-- What no operation of the coroutine changes is the same at the end. -/
theorem Runs.keeps {γ : Type} {P : Op → Prop} (f : σ → γ)
    (hP : ∀ {o env r s s'}, P o → exec o env s = some (r, s') → f s' = f s)
    (h : Runs exec c s es out s') : c.Only P → f s' = f s := by
  induction h with
  | ret a s => exact fun _ => rfl
  | raise e s => exact fun _ => rfl
  | op he _ ih => exact fun hc => (ih (hc.2 _)).trans (hP hc.1 he)

end Inversion

/-- **The rule**: what every move carries from position to position holds at the end. -/
theorem Runs.carries {T : Pos → (o : Op) → Res o → Pos → Prop} {Q : Pos → Except ε α → Prop}
    {J : Pos → σ → Prop}
    (hJ : ∀ {p o r q env s s'}, J p s → T p o r q → exec o env s = some (r, s') → J q s')
    {c : Prog Op Res ε α} {s s' : σ} {es : List (Event Op Res)} {out : Except ε α}
    (h : Runs exec c s es out s') : ∀ {p : Pos}, Follows T Q c p → J p s →
      ∃ q, Path T p es q ∧ Q q out ∧ J q s' := by
  induction h with
  | ret a s => exact fun hf hj => ⟨_, .nil _, hf, hj⟩
  | raise e s => exact fun hf hj => ⟨_, .nil _, hf, hj⟩
  | op he _ ih =>
    intro p hf hj
    obtain ⟨q, hq, hk⟩ := hf _
    obtain ⟨q', hpath, hend, hj'⟩ := ih hk (hJ hj hq he)
    exact ⟨q', .cons hq hpath, hend, hj'⟩

/-- A run, computed: `choose` stands for the environment, at most `n` operations. -/
def runAlone (exec : (o : Op) → Env → σ → Option (Res o × σ)) (choose : Op → Env) :
    ℕ → Prog Op Res ε α → σ → Option (List (Event Op Res) × Except ε α × σ)
  | _, .ret a, s => some ([], .ok a, s)
  | _, .raise e, s => some ([], .error e, s)
  | 0, .op _ _, _ => none
  | n + 1, .op o k, s =>
    (exec o (choose o) s).bind fun rs =>
      (runAlone exec choose n (k rs.1) rs.2).map fun x => (⟨o, rs.1⟩ :: x.1, x.2)

theorem runs_of_runAlone {choose : Op → Env} {n : ℕ} : ∀ {c : Prog Op Res ε α} {s s' : σ}
    {es : List (Event Op Res)} {out : Except ε α},
    runAlone exec choose n c s = some (es, out, s') → Runs exec c s es out s' := by
  induction n with
  | zero =>
    intro c s s' es out h
    cases c with
    | ret a => cases h; exact .ret a _
    | raise e => cases h; exact .raise e _
    | op o k => cases h
  | succ n ih =>
    intro c s s' es out h
    cases c with
    | ret a => cases h; exact .ret a _
    | raise e => cases h; exact .raise e _
    | op o k =>
      obtain ⟨⟨r, s₁⟩, he, hk⟩ := Option.bind_eq_some_iff.mp h
      obtain ⟨⟨es₁, out₁, s₂⟩, hrun, heq⟩ := Option.map_eq_some_iff.mp hk
      cases heq
      exact .op he (ih hrun)

/-! ## Beginnings -/

/-- The coroutine may begin with events as `Q` says. -/
inductive Begins (exec : (o : Op) → Env → σ → Option (Res o × σ)) :
    (List (Event Op Res) → Prop) → Prog Op Res ε α → σ → Prop
  | done {Q : List (Event Op Res) → Prop} {c : Prog Op Res ε α} {s : σ} (h : Q []) :
      Begins exec Q c s
  | op {Q : List (Event Op Res) → Prop} {o : Op} {k : Res o → Prog Op Res ε α} (env : Env)
      {r : Res o} {s s₁ : σ} (he : exec o env s = some (r, s₁))
      (h : Begins exec (fun es => Q (⟨o, r⟩ :: es)) (k r) s₁) : Begins exec Q (.op o k) s

/-- Whoever begins with a part of a sequence has begun with the sequence. -/
theorem Begins.seq {β : Type} {Q : List (Event Op Res) → Prop} {c : Prog Op Res ε α} {s : σ}
    (h : Begins exec Q c s) (f : α → Prog Op Res ε β) : Begins exec Q (c.bind f) s := by
  induction h with
  | done h => exact .done h
  | op env he _ ih => exact .op env he ih

/-- The events of a thread, in their order. -/
def threadEvents {Call : Type} (i : ℕ) (h : List (Entry Call Env Op Res)) : List (Event Op Res) :=
  ((h.filter fun e => e.tid = i).map fun e => ⟨e.op, e.res⟩).reverse

theorem threadEvents_cons_self {Call : Type} {i : ℕ} {h : List (Entry Call Env Op Res)} {call : Call}
    {o : Op} {env : Env} {r : Res o} :
    threadEvents i (⟨i, call, o, env, r⟩ :: h) = threadEvents i h ++ [⟨o, r⟩] := by
  simp [threadEvents]

/-- What a thread may begin with happens in some run. -/
theorem Begins.reach {Call : Type} {M : Machine Op Res ε α Call Env σ}
    {D : Discipline σ Call (Entry Call Env Op Res)} (hok : ∀ s h e, D.ok s h e)
    {Q : List (Event Op Res) → Prop} {p : Prog Op Res ε α} {s : σ} (h : Begins M.exec Q p s) :
    ∀ {c : M.Config} {i : ℕ} {call : Call}, c.At i call p → c.shared = s →
      ∃ c' es, M.Reach D c c' ∧ threadEvents i c'.hist = threadEvents i c.hist ++ es ∧ Q es := by
  induction h with
  | done h => exact fun _ _ => ⟨_, [], .refl, (List.append_nil _).symm, h⟩
  | @op Q o k env r s s₁ he _ ih =>
    rintro c i call hat rfl
    obtain ⟨c', es, hreach, hes, hQ⟩ := ih ((Pool.at_advance hat.lt).mpr (.inl ⟨rfl, rfl, rfl⟩)) rfl
    refine ⟨c', ⟨o, r⟩ :: es, .head (.step hat he (hok _ _ _)) hreach, ?_, hQ⟩
    rw [hes, Pool.advance_hist, threadEvents_cons_self, List.append_assoc]
    rfl

/-! ## One call after the other -/

namespace Machine

variable {Call : Type} {M : Machine Op Res ε α Call Env σ}
  {D : Discipline σ Call (Entry Call Env Op Res)} {T : Call → Pos → (o : Op) → Res o → Pos → Prop}
  {Q : Call → Pos → Except ε α → Prop} {start : Call → Pos}

/-- What a thread at a position knows, when it is the only one under way. -/
structure Solo (M : Machine Op Res ε α Call Env σ)
    (D : Discipline σ Call (Entry Call Env Op Res))
    (T : Call → Pos → (o : Op) → Res o → Pos → Prop) (start : Call → Pos) where
  /-- the invariant -/
  inv : σ → List (Entry Call Env Op Res) → Prop
  /-- the assertion at a position -/
  asserts : σ → List (Entry Call Env Op Res) → Call → Pos → Prop
  entry : ∀ {s h call}, inv s h → D.start call → asserts s h call (start call)
  step : ∀ {s s' h i call p q o r env}, inv s h → asserts s h call p → T call p o r q →
    M.exec o env s = some (r, s') → D.ok s h ⟨i, call, o, env, r⟩ →
    inv s' (⟨i, call, o, env, r⟩ :: h) ∧ asserts s' (⟨i, call, o, env, r⟩ :: h) call q

/-- The invariant holds, one thread at most is under way, and it stands at an assertion
that does. -/
structure Solo.Holds (O : M.Solo D T start) (Q : Call → Pos → Except ε α → Prop)
    (c : M.Config) : Prop where
  inv : O.inv c.shared c.hist
  one : ∀ {i j call call' b b'}, c.At i call b → c.At j call' b' → b.outcome? = none →
    b'.outcome? = none → i = j
  asserts : ∀ {i call b}, c.At i call b → b.outcome? = none →
    ∃ p, Follows (T call) (Q call) b p ∧ O.asserts c.shared c.hist call p

theorem Solo.Holds.step (hseq : D.sequential) {O : M.Solo D T start}
    (hcode : ∀ call, D.start call → Follows (T call) (Q call) (M.code call) (start call))
    {c c' : M.Config} (h : O.Holds Q c) (hs : M.Step D c c') : O.Holds Q c' := by
  cases hs with
  | spawn call may seq =>
    -- whatever was there before has ended
    have ended {i call' b} (hat : c.At i call' b) : b.outcome? ≠ none := by
      have hsome := seq hseq _ (List.mem_of_getElem? hat) b rfl
      intro hnone
      rw [hnone] at hsome
      cases hsome
    refine ⟨h.inv, fun hat hat' hb hb' => ?_, fun hat hb => ?_⟩
    · rcases Pool.at_spawn.mp hat with hat | ⟨rfl, -, -⟩
      · exact absurd hb (ended hat)
      · rcases Pool.at_spawn.mp hat' with hat' | ⟨rfl, -, -⟩
        · exact absurd hb' (ended hat')
        · rfl
    · rcases Pool.at_spawn.mp hat with hat | ⟨-, rfl, rfl⟩
      · exact absurd hb (ended hat)
      · exact ⟨_, hcode _ may, O.entry h.inv may⟩
  | @step i call o k env r s here exec ok =>
    obtain ⟨p, hf, ha⟩ := h.asserts here rfl
    obtain ⟨q, hq, hk⟩ := hf r
    obtain ⟨hinv, hself⟩ := O.step h.inv ha hq exec ok
    have only {j call' b} (hat : c.At j call' b) (hne : j ≠ i) : b.outcome? ≠ none :=
      fun hb => hne (h.one hat here hb rfl)
    refine ⟨hinv, fun hat hat' hb hb' => ?_, fun hat hb => ?_⟩
    · rcases (Pool.at_advance here.lt).mp hat with ⟨rfl, -, -⟩ | ⟨hne, hat⟩
      · rcases (Pool.at_advance here.lt).mp hat' with ⟨rfl, -, -⟩ | ⟨hne, hat'⟩
        · rfl
        · exact absurd hb' (only hat' hne)
      · exact absurd hb (only hat hne)
    · rcases (Pool.at_advance here.lt).mp hat with ⟨-, rfl, rfl⟩ | ⟨hne, hat⟩
      · exact ⟨q, hk, hself⟩
      · exact absurd hb (only hat hne)
  | crash may =>
    exact ⟨h.inv, fun hat => (Pool.not_at_crash hat).elim, fun hat => (Pool.not_at_crash hat).elim⟩

/-- **One call after the other**: the invariant holds in every reachable pool. -/
theorem Solo.sound (O : M.Solo D T start) (hseq : D.sequential)
    (hcode : ∀ call, D.start call → Follows (T call) (Q call) (M.code call) (start call))
    {s : σ} (h₀ : O.inv s []) {c : M.Config} (h : M.Reach D (Pool.init s) c) :
    O.inv c.shared c.hist := by
  suffices hc : O.Holds Q c from hc.inv
  induction h with
  | refl =>
    exact ⟨h₀, fun hat => (Pool.not_at_init hat).elim, fun hat => (Pool.not_at_init hat).elim⟩
  | tail _ hs ih => exact ih.step hseq hcode hs

end Machine

end Async
