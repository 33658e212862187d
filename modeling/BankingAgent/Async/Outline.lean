import BankingAgent.Async.Pool

/-!
# Proof outlines

An outline of a protocol annotates each position with an assertion about the
shared state and the history, next to one invariant of both. Some positions may be
declared **owned**: no two threads stand at owned positions at once. An outline is
valid if

* a move leads from assertion to assertion, and keeps the invariant;
* no move disturbs the assertion another thread stands at;
* no move leads to an owned position while another thread stands at one.

A valid outline holds throughout every run, whatever the interleaving. A call starts
at a position whose assertion follows from the invariant, and a crashed thread
asserts nothing.

* `Outline.sound` — the outline holds in every reachable pool.
* `Outline.extend` — add assertions to a valid outline, proved with its help.
* `Outline.Debt` — unfinished business: a condition of the shared state that some
  thread is always on its way to repair. It is absent whenever no such thread is
  left.
-/

namespace Async

namespace Machine

variable {Op : Type} {Res : Op → Type} {ε α Call Env σ Pos : Type}

/-- A valid outline of the protocol `T` for the machine `M`, in the runs of `D`. -/
structure Outline (M : Machine Op Res ε α Call Env σ)
    (D : Discipline σ Call (Entry Call Env Op Res))
    (T : Call → Pos → (o : Op) → Res o → Pos → Prop) (start : Call → Pos) where
  /-- the invariant -/
  inv : σ → List (Entry Call Env Op Res) → Prop
  /-- the assertion of a thread at a position -/
  asserts : σ → List (Entry Call Env Op Res) → ℕ → Call → Pos → Prop
  /-- the owned positions -/
  owns : Call → Pos → Prop
  /-- a new thread stands where nothing more than the invariant is asserted -/
  entry : ∀ {s h i call}, inv s h → D.start call → (∀ e ∈ h, e.tid ≠ i) →
    asserts s h i call (start call) ∧ ¬ owns call (start call)
  /-- a move keeps the invariant and establishes the assertion it leads to -/
  step : ∀ {s s' h i call p q o r env}, inv s h → asserts s h i call p → T call p o r q →
    M.exec o env s = some (r, s') → D.ok s h ⟨i, call, o, env, r⟩ →
    inv s' (⟨i, call, o, env, r⟩ :: h) ∧ asserts s' (⟨i, call, o, env, r⟩ :: h) i call q
  /-- a move keeps the assertions of the other threads -/
  free : ∀ {s s' h i call p q o r env j call' p'}, inv s h → asserts s h i call p →
    asserts s h j call' p' → T call p o r q → M.exec o env s = some (r, s') →
    D.ok s h ⟨i, call, o, env, r⟩ → i ≠ j → ¬ (owns call p ∧ owns call' p') →
    asserts s' (⟨i, call, o, env, r⟩ :: h) j call' p'
  /-- an owned position is not entered while another thread owns -/
  excl : ∀ {s s' h i call p q o r env j call' p'}, inv s h → asserts s h i call p →
    asserts s h j call' p' → T call p o r q → M.exec o env s = some (r, s') →
    owns call' p' → owns call q → owns call p

namespace Outline

variable {M : Machine Op Res ε α Call Env σ} {D : Discipline σ Call (Entry Call Env Op Res)}
  {T : Call → Pos → (o : Op) → Res o → Pos → Prop} {start : Call → Pos}
  {Q : Call → Pos → Except ε α → Prop}

/-- The invariant holds, every thread stands at an assertion that does, and at most
one owns. -/
structure Holds (O : M.Outline D T start) (a : Pool σ Call Pos (Entry Call Env Op Res)) :
    Prop where
  inv : O.inv a.shared a.hist
  asserts : ∀ {i call p}, a.At i call p → O.asserts a.shared a.hist i call p
  one : ∀ {i j call call' p p'}, a.At i call p → a.At j call' p' → O.owns call p →
    O.owns call' p' → i = j
  tids : ∀ e ∈ a.hist, e.tid < a.threads.length

theorem holds_init (O : M.Outline D T start) {s : σ} (h₀ : O.inv s []) : O.Holds (Pool.init s) where
  inv := h₀
  asserts h := (Pool.not_at_init h).elim
  one h := (Pool.not_at_init h).elim
  tids _ h := absurd h List.not_mem_nil

theorem Holds.step {O : M.Outline D T start} {a a' : Pool σ Call Pos (Entry Call Env Op Res)}
    (h : O.Holds a) (hs : M.AStep D T start Q a a') : O.Holds a' := by
  cases hs with
  | spawn call may =>
    have hnew : ∀ e ∈ a.hist, e.tid ≠ a.threads.length := fun e he =>
      Nat.ne_of_lt (h.tids e he)
    have hentry := O.entry h.inv may hnew
    refine ⟨h.inv, fun hat => ?_, fun hat hat' ho ho' => ?_, fun e he => ?_⟩
    · rcases Pool.at_spawn.mp hat with hat | ⟨rfl, rfl, rfl⟩
      · exact h.asserts hat
      · exact hentry.1
    · rcases Pool.at_spawn.mp hat with hat | ⟨-, rfl, rfl⟩
      · rcases Pool.at_spawn.mp hat' with hat' | ⟨-, rfl, rfl⟩
        · exact h.one hat hat' ho ho'
        · exact absurd ho' hentry.2
      · exact absurd ho hentry.2
    · rw [Pool.spawn, List.length_append]
      exact Nat.lt_add_right _ (h.tids e he)
  | crash =>
    refine ⟨h.inv, fun hat => (Pool.not_at_crash hat).elim,
      fun hat => (Pool.not_at_crash hat).elim, fun e he => ?_⟩
    rw [Pool.crash, List.length_map]
    exact h.tids e he
  | @step i call p q o env r s here move exec ok =>
    obtain ⟨hinv, hself⟩ := O.step h.inv (h.asserts here) move exec ok
    have excl {j call' p'} (hat : a.At j call' p') (hne : j ≠ i) :
        ¬ (O.owns call p ∧ O.owns call' p') := fun ho => hne (h.one hat here ho.2 ho.1)
    refine ⟨hinv, fun hat => ?_, fun hat hat' ho ho' => ?_, fun e he => ?_⟩
    · rcases (Pool.at_advance here.lt).mp hat with ⟨rfl, rfl, rfl⟩ | ⟨hne, hat⟩
      · exact hself
      · exact O.free h.inv (h.asserts here) (h.asserts hat) move exec ok (Ne.symm hne)
          (excl hat hne)
    · rcases (Pool.at_advance here.lt).mp hat with ⟨rfl, rfl, rfl⟩ | ⟨hne, old⟩
      · rcases (Pool.at_advance here.lt).mp hat' with ⟨rfl, -, -⟩ | ⟨hne', old'⟩
        · rfl
        · have hp := O.excl h.inv (h.asserts here) (h.asserts old') move exec ho' ho
          exact (excl old' hne' ⟨hp, ho'⟩).elim
      · rcases (Pool.at_advance here.lt).mp hat' with ⟨rfl, rfl, rfl⟩ | ⟨-, old'⟩
        · have hp := O.excl h.inv (h.asserts here) (h.asserts old) move exec ho ho'
          exact (excl old hne ⟨hp, ho⟩).elim
        · exact h.one old old' ho ho'
    · rw [Pool.advance, List.length_set]
      rcases List.mem_cons.mp he with rfl | he
      · exact here.lt
      · exact h.tids e he

/-- **Soundness**: a valid outline holds in every reachable pool, each thread standing
at a position it obeys the protocol from. -/
theorem sound (O : M.Outline D T start)
    (hcode : ∀ call, D.start call → Follows (T call) (Q call) (M.code call) (start call))
    {s : σ} (h₀ : O.inv s []) {c : M.Config} (h : M.Reach D (Pool.init s) c) :
    ∃ a, M.Matches T Q c a ∧ O.Holds a :=
  Reach.tracked hcode (O.holds_init h₀) (fun _ _ hi hs => hi.step hs) h

/-- The invariant of a valid outline is an invariant of the machine. -/
theorem sound_inv (O : M.Outline D T start)
    (hcode : ∀ call, D.start call → Follows (T call) (Q call) (M.code call) (start call))
    {s : σ} (h₀ : O.inv s []) {c : M.Config} (h : M.Reach D (Pool.init s) c) :
    O.inv c.shared c.hist := by
  obtain ⟨a, hm, ha⟩ := O.sound hcode h₀ h
  rw [hm.shared, hm.hist]
  exact ha.inv

/-- What a running or finished thread asserts. -/
theorem sound_at (O : M.Outline D T start)
    (hcode : ∀ call, D.start call → Follows (T call) (Q call) (M.code call) (start call))
    {s : σ} (h₀ : O.inv s []) {c : M.Config} (h : M.Reach D (Pool.init s) c) {i : ℕ} {call : Call}
    {b : Prog Op Res ε α} (hat : c.At i call b) :
    ∃ p, Follows (T call) (Q call) b p ∧ O.asserts c.shared c.hist i call p := by
  obtain ⟨a, hm, ha⟩ := O.sound hcode h₀ h
  obtain ⟨p, hp, hf⟩ := hm.at hat
  rw [hm.shared, hm.hist]
  exact ⟨p, hf, ha.asserts hp⟩

/-! ## Extending an outline -/

/-- Further assertions on top of a valid outline. The obligations may use what the
outline below asserts, before the move and after it. -/
structure Layer (O : M.Outline D T start) where
  /-- the further invariant -/
  inv : σ → List (Entry Call Env Op Res) → Prop
  /-- the further assertions -/
  asserts : σ → List (Entry Call Env Op Res) → ℕ → Call → Pos → Prop
  entry : ∀ {s h i call}, O.inv s h → inv s h → D.start call → (∀ e ∈ h, e.tid ≠ i) →
    asserts s h i call (start call)
  step : ∀ {s s' h i call p q o r env}, O.inv s h → inv s h → O.asserts s h i call p →
    asserts s h i call p → T call p o r q → M.exec o env s = some (r, s') →
    D.ok s h ⟨i, call, o, env, r⟩ → O.inv s' (⟨i, call, o, env, r⟩ :: h) →
    O.asserts s' (⟨i, call, o, env, r⟩ :: h) i call q →
    inv s' (⟨i, call, o, env, r⟩ :: h) ∧ asserts s' (⟨i, call, o, env, r⟩ :: h) i call q
  free : ∀ {s s' h i call p q o r env j call' p'}, O.inv s h → inv s h →
    O.asserts s h i call p → asserts s h i call p → O.asserts s h j call' p' →
    asserts s h j call' p' → T call p o r q → M.exec o env s = some (r, s') →
    D.ok s h ⟨i, call, o, env, r⟩ → i ≠ j → ¬ (O.owns call p ∧ O.owns call' p') →
    asserts s' (⟨i, call, o, env, r⟩ :: h) j call' p'

/-- The outline with the further assertions. -/
def extend (O : M.Outline D T start) (L : O.Layer) : M.Outline D T start where
  inv s h := O.inv s h ∧ L.inv s h
  asserts s h i call p := O.asserts s h i call p ∧ L.asserts s h i call p
  owns := O.owns
  entry hi hd ht :=
    ⟨⟨(O.entry hi.1 hd ht).1, L.entry hi.1 hi.2 hd ht⟩, (O.entry hi.1 hd ht).2⟩
  step hi ha move exec ok := by
    obtain ⟨h₁, h₂⟩ := O.step hi.1 ha.1 move exec ok
    obtain ⟨h₃, h₄⟩ := L.step hi.1 hi.2 ha.1 ha.2 move exec ok h₁ h₂
    exact ⟨⟨h₁, h₃⟩, h₂, h₄⟩
  free hi ha hb move exec ok hne hex :=
    ⟨O.free hi.1 ha.1 hb.1 move exec ok hne hex,
      L.free hi.1 hi.2 ha.1 ha.2 hb.1 hb.2 move exec ok hne hex⟩
  excl hi ha hb move exec ho hq := O.excl hi.1 ha.1 hb.1 move exec ho hq

/-! ## Unfinished business -/

/-- A condition that some thread is always about to repair. -/
structure Debt (O : M.Outline D T start) where
  /-- something is to be repaired -/
  debt : σ → Prop
  /-- the thread will repair it -/
  pays : σ → Call → Pos → Prop
  /-- after a move that leaves a debt, the thread that moved will pay; or another one
  had to pay before and still has to -/
  step : ∀ {s s' h i call p q o r env}, O.inv s h → O.asserts s h i call p → T call p o r q →
    M.exec o env s = some (r, s') → D.ok s h ⟨i, call, o, env, r⟩ → debt s' →
    pays s' call q ∨ debt s ∧ ¬ pays s call p ∧
      ∀ {j call' p'}, O.asserts s h j call' p' → i ≠ j → ¬ (O.owns call p ∧ O.owns call' p') →
        pays s call' p' → pays s' call' p'

/-- Every debt has a thread that will pay it. -/
structure Debt.Covered {O : M.Outline D T start} (B : O.Debt)
    (a : Pool σ Call Pos (Entry Call Env Op Res)) : Prop where
  holds : O.Holds a
  payer : B.debt a.shared → ∃ i call p, a.At i call p ∧ B.pays a.shared call p

theorem Debt.Covered.step {O : M.Outline D T start} {B : O.Debt} (hcrash : ¬ D.crash)
    {a a' : Pool σ Call Pos (Entry Call Env Op Res)} (h : B.Covered a)
    (hs : M.AStep D T start Q a a') : B.Covered a' := by
  refine ⟨h.holds.step hs, fun hd => ?_⟩
  cases hs with
  | spawn call may =>
    obtain ⟨i, call', p, hat, hp⟩ := h.payer hd
    exact ⟨i, call', p, Pool.at_spawn.mpr (.inl hat), hp⟩
  | crash may => exact absurd may hcrash
  | @step i call p q o env r s here move exec ok =>
    rcases B.step h.holds.inv (h.holds.asserts here) move exec ok hd with
      hq | ⟨hd₀, hnp, hothers⟩
    · exact ⟨i, call, q, (Pool.at_advance here.lt).mpr (.inl ⟨rfl, rfl, rfl⟩), hq⟩
    · obtain ⟨j, call', p', hat, hp'⟩ := h.payer hd₀
      have hne : i ≠ j := by
        rintro rfl
        obtain ⟨rfl, rfl⟩ := here.unique hat
        exact hnp hp'
      refine ⟨j, call', p', (Pool.at_advance here.lt).mpr (.inr ⟨Ne.symm hne, hat⟩), ?_⟩
      exact hothers (h.holds.asserts hat) hne (fun ho => hne (h.holds.one here hat ho.1 ho.2)) hp'

/-- **Nobody left to pay, nothing left to repair**: in a run without crashes from a
state without debt, every debt has a thread that will pay it. -/
theorem Debt.paid {O : M.Outline D T start} (B : O.Debt) (hcrash : ¬ D.crash)
    (hcode : ∀ call, D.start call → Follows (T call) (Q call) (M.code call) (start call))
    {s : σ} (h₀ : O.inv s []) (hb₀ : ¬ B.debt s) {c : M.Config} (h : M.Reach D (Pool.init s) c)
    (hd : B.debt c.shared) :
    ∃ i call b p, c.At i call b ∧ Follows (T call) (Q call) b p ∧
      O.asserts c.shared c.hist i call p ∧ B.pays c.shared call p := by
  have hinit : B.Covered (Pool.init s) := ⟨O.holds_init h₀, fun hd => absurd hd hb₀⟩
  obtain ⟨a, hm, ha⟩ := Reach.tracked hcode hinit (fun _ _ hi hs => hi.step hcrash hs) h
  rw [hm.shared] at hd ⊢
  rw [hm.hist]
  obtain ⟨i, call, p, hat, hp⟩ := ha.payer hd
  obtain ⟨b, hb, hf⟩ := hm.of_at hat
  exact ⟨i, call, b, p, hb, hf, ha.holds.asserts hat, hp⟩

end Outline

end Machine

end Async
