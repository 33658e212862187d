import BankingAgent.Async.Outline

/-!
# Gates that close for good

Something happens, and from then on no thread that begins is to perform a certain operation.
Each thread performs it past a gate only, which it goes through before. If the event closes the
gate for all the threads that begin after it, then none of them performs the operation, in
every run, whatever the interleaving and wherever the process crashes.
-/

namespace Async

section History

variable {Call Env Op : Type} {Res : Op → Type}

/-- Thread `i` had done nothing when some entry with `P` was made (newest first). -/
def BeginsAfter (P : Entry Call Env Op Res → Bool) (i : ℕ) : List (Entry Call Env Op Res) → Prop
  | [] => False
  | e :: h => BeginsAfter P i h ∨ P e = true ∧ ∀ e' ∈ e :: h, e'.tid ≠ i

/-- No thread that begins after an entry with `P` makes one with `Q`. -/
def NeverAfter (P Q : Entry Call Env Op Res → Bool) : List (Entry Call Env Op Res) → Prop
  | [] => True
  | e :: h => (Q e = true → ¬ BeginsAfter P e.tid h) ∧ NeverAfter P Q h

variable {P Q : Entry Call Env Op Res → Bool} {i : ℕ} {e : Entry Call Env Op Res}
  {h : List (Entry Call Env Op Res)}

/-- A thread that has begun does not begin later. -/
theorem BeginsAfter.of_cons (hb : BeginsAfter P i (e :: h)) (hi : ∃ e' ∈ e :: h, e'.tid = i) :
    BeginsAfter P i h := by
  rcases hb with hb | ⟨-, hnone⟩
  · exact hb
  · obtain ⟨e', he', htid⟩ := hi
    exact absurd htid (hnone e' he')

instance instDecidableBeginsAfter (P : Entry Call Env Op Res → Bool) (i : ℕ) :
    ∀ h, Decidable (BeginsAfter P i h)
  | [] => instDecidableFalse
  | e :: h =>
    haveI := instDecidableBeginsAfter P i h
    inferInstanceAs (Decidable (_ ∨ P e = true ∧ ∀ e' ∈ e :: h, e'.tid ≠ i))

instance instDecidableNeverAfter (P Q : Entry Call Env Op Res → Bool) :
    ∀ h, Decidable (NeverAfter P Q h)
  | [] => instDecidableTrue
  | e :: h =>
    haveI := instDecidableNeverAfter P Q h
    inferInstanceAs (Decidable ((Q e = true → ¬ BeginsAfter P e.tid h) ∧ _))

end History

namespace Machine

variable {Op : Type} {Res : Op → Type} {ε α Call Env σ Pos : Type}

/-- Entries with `Q` are made past a gate, which those with `P` close. -/
structure Gated (D : Discipline σ Call (Entry Call Env Op Res))
    (T : Call → Pos → (o : Op) → Res o → Pos → Prop) (start : Call → Pos)
    (P Q : Entry Call Env Op Res → Bool) where
  /-- the thread has gone through -/
  past : Call → Pos → Prop
  /-- nobody starts there -/
  start_before : ∀ call, ¬ past call (start call)
  /-- the gate lets nobody through that begins after an entry with `P` -/
  enters : ∀ {call p o r q i env s h}, T call p o r q → D.ok s h ⟨i, call, o, env, r⟩ →
    past call q → past call p ∨ ¬ BeginsAfter P i h
  /-- only who is past the gate makes an entry with `Q` -/
  uses_past : ∀ {call p o r q i env}, T call p o r q → Q ⟨i, call, o, env, r⟩ = true → past call p

namespace Gated

variable {M : Machine Op Res ε α Call Env σ} {D : Discipline σ Call (Entry Call Env Op Res)}
  {T : Call → Pos → (o : Op) → Res o → Pos → Prop} {start : Call → Pos}
  {P Q : Entry Call Env Op Res → Bool}

/-- The outline of a gate: whoever is past it has begun, and not after an entry with `P`. -/
def outline (M : Machine Op Res ε α Call Env σ) (gate : Gated D T start P Q) :
    M.Outline D T start where
  inv _ h := NeverAfter P Q h
  asserts _ h i call p := gate.past call p → (∃ e ∈ h, e.tid = i) ∧ ¬ BeginsAfter P i h
  owns _ _ := False
  entry _ _ _ := ⟨fun hp => (gate.start_before _ hp).elim, id⟩
  step {_ _ h i call _ _ o r env} hi hp move _ hok := by
    refine ⟨⟨fun he => (hp (gate.uses_past move he)).2, hi⟩, fun hq => ?_⟩
    -- the thread has begun by now, and no later entry changes that
    have hbegun : ∃ e ∈ ⟨i, call, o, env, r⟩ :: h, e.tid = i := ⟨_, List.mem_cons_self, rfl⟩
    refine ⟨hbegun, fun hb => ?_⟩
    rcases gate.enters move hok hq with hpast | hnot
    · exact (hp hpast).2 (hb.of_cons hbegun)
    · exact hnot (hb.of_cons hbegun)
  free {_ _ h i call _ _ o r env _ _ _} _ _ hp' _ _ _ _ _ := by
    intro hpast
    obtain ⟨⟨e, he, htid⟩, hnot⟩ := hp' hpast
    have hbegun : ∃ e' ∈ ⟨i, call, o, env, r⟩ :: h, e'.tid = _ :=
      ⟨e, List.mem_cons_of_mem _ he, htid⟩
    exact ⟨hbegun, fun hb => hnot (hb.of_cons hbegun)⟩
  excl _ _ _ _ _ ho _ := ho.elim

/-- **The gate holds** in every run. -/
theorem never (gate : Gated D T start P Q) {R : Call → Pos → Except ε α → Prop}
    (hcode : ∀ call, D.start call → Follows (T call) (R call) (M.code call) (start call)) {s : σ}
    {c : M.Config} (run : M.Reach D (Pool.init s) c) : NeverAfter P Q c.hist :=
  (gate.outline M).sound_inv hcode trivial run

end Gated

end Machine

end Async
