import BankingAgent.Async.Outline

/-!
# One-shot tokens

A shared state contains a token that is taken once and never comes back. A thread
holds it from the move that takes it until the move that uses it up, and uses it
up at most once. The rule below turns these local facts about a protocol into the
global one: in every run, whatever the interleaving and wherever the process
crashes, the token is used at most once.
-/

namespace Async

namespace Machine

variable {Op : Type} {Res : Op → Type} {ε α Call Env σ Pos : Type}

/-- A token of the machine `M`, followed through the protocol `T`. -/
structure OneShot (M : Machine Op Res ε α Call Env σ)
    (T : Call → Pos → (o : Op) → Res o → Pos → Prop) (start : Call → Pos) where
  /-- the token was taken -/
  spent : σ → Prop
  /-- the thread took it and may still use it -/
  holds : Call → Pos → Prop
  /-- the entry uses it -/
  uses : Entry Call Env Op Res → Bool
  /-- no call starts with it -/
  start_free : ∀ call, ¬ holds call (start call)
  /-- it never comes back -/
  spent_mono : ∀ {call p o r q env s s'}, T call p o r q → M.exec o env s = some (r, s') →
    spent s → spent s'
  /-- a thread that holds it held it before or has just taken it -/
  holds_of : ∀ {call p o r q env s s'}, T call p o r q → M.exec o env s = some (r, s') →
    holds call q → holds call p ∨ ¬ spent s ∧ spent s'
  /-- only the holder uses it, and then holds it no longer -/
  uses_of : ∀ {call p o r q env i}, T call p o r q → uses ⟨i, call, o, env, r⟩ = true →
    holds call p ∧ ¬ holds call q

namespace OneShot

variable {M : Machine Op Res ε α Call Env σ} {T : Call → Pos → (o : Op) → Res o → Pos → Prop}
  {start : Call → Pos} (tok : M.OneShot T start)

/-- The number of times the token was used. -/
def count (h : List (Entry Call Env Op Res)) : ℕ := h.countP tok.uses

theorem count_cons_of_uses {e : Entry Call Env Op Res} {h : List (Entry Call Env Op Res)}
    (he : tok.uses e = true) : tok.count (e :: h) = tok.count h + 1 :=
  List.countP_cons_of_pos he

theorem count_cons_of_not {e : Entry Call Env Op Res} {h : List (Entry Call Env Op Res)}
    (he : ¬ tok.uses e = true) : tok.count (e :: h) = tok.count h :=
  List.countP_cons_of_neg he

/-- The outline of a token: whoever holds it has taken it and not used it yet, it is
used at most once, and at most one thread holds it. -/
def outline (D : Discipline σ Call (Entry Call Env Op Res)) : M.Outline D T start where
  inv s h := (tok.count h ≠ 0 → tok.spent s) ∧ tok.count h ≤ 1
  asserts s h _ call p := tok.holds call p → tok.spent s ∧ tok.count h = 0
  owns := tok.holds
  entry _ _ _ := ⟨fun hh => absurd hh (tok.start_free _), tok.start_free _⟩
  step := by
    intro s s' h i call p q o r env hinv hp move exec _
    by_cases hu : tok.uses ⟨i, call, o, env, r⟩ = true
    · -- the token is used: its holder gives it up
      obtain ⟨hh, hq⟩ := tok.uses_of move hu
      obtain ⟨hsp, hzero⟩ := hp hh
      refine ⟨⟨fun _ => tok.spent_mono move exec hsp, ?_⟩, fun hh => absurd hh hq⟩
      exact Nat.le_of_eq ((tok.count_cons_of_uses hu).trans (congrArg (· + 1) hzero))
    · rw [tok.count_cons_of_not hu]
      refine ⟨⟨fun hn => tok.spent_mono move exec (hinv.1 hn), hinv.2⟩, fun hq => ?_⟩
      rcases tok.holds_of move exec hq with hh | ⟨hfree, hspent⟩
      · exact (hp hh).imp_left (tok.spent_mono move exec)
      · exact ⟨hspent, by_contra fun hn => hfree (hinv.1 hn)⟩
  free := by
    intro s s' h i call p q o r env j call' p' _ _ hp' move exec _ _ hex hh
    have hu : ¬ tok.uses ⟨i, call, o, env, r⟩ = true := fun hu =>
      hex ⟨(tok.uses_of move hu).1, hh⟩
    rw [tok.count_cons_of_not hu]
    exact (hp' hh).imp_left (tok.spent_mono move exec)
  excl := by
    intro s s' h i call p q o r env j call' p' _ _ hp' move exec hh hq
    rcases tok.holds_of move exec hq with hp | ⟨hfree, -⟩
    · exact hp
    · exact absurd (hp' hh).1 hfree

variable {D : Discipline σ Call (Entry Call Env Op Res)} {Q : Call → Pos → Except ε α → Prop}

/-- **At most once**: in every run the token is used at most once. -/
theorem count_le_one
    (hcode : ∀ call, D.start call → Follows (T call) (Q call) (M.code call) (start call))
    {s : σ} {c : M.Config} (h : M.Reach D (Pool.init s) c) : tok.count c.hist ≤ 1 :=
  ((tok.outline D).sound_inv hcode ⟨fun hn => absurd rfl hn, Nat.zero_le 1⟩ h).2

end OneShot

end Machine

end Async
