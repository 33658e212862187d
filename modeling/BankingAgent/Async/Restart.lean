import BankingAgent.Async.Outline

/-!
# Restarts

A process that dies loses its threads, and what it shared with them is as the next process
finds it: `recover` says how. Between two restarts the system is the machine, in the runs of
its discipline.

* `Outline.restarted` — an outline whose invariant survives `recover` holds across restarts.
* `Restarts.preserves` — what every operation and every restart preserves.
* `Restarts.only` — what a call may not do is not in the history.
-/

namespace Async

/-- The process dies, and another one takes over. -/
def Pool.restart {σ Call B E : Type} (recover : σ → σ) (c : Pool σ Call B E) : Pool σ Call B E :=
  { c.crash with shared := recover c.shared }

namespace Machine

variable {Op : Type} {Res : Op → Type} {ε α Call Env σ Pos : Type}

/-- One step of a system that may be restarted at any time. -/
inductive RStep (M : Machine Op Res ε α Call Env σ)
    (D : Discipline σ Call (Entry Call Env Op Res)) (recover : σ → σ) : M.Config → M.Config → Prop
  | live {c c' : M.Config} (h : M.Step D c c') : RStep M D recover c c'
  | restart (c : M.Config) : RStep M D recover c (c.restart recover)

/-- `c'` is reached from `c`, across any number of restarts. -/
abbrev Restarts (M : Machine Op Res ε α Call Env σ)
    (D : Discipline σ Call (Entry Call Env Op Res)) (recover : σ → σ) :
    M.Config → M.Config → Prop := Relation.ReflTransGen (M.RStep D recover)

variable {M : Machine Op Res ε α Call Env σ} {D : Discipline σ Call (Entry Call Env Op Res)}
  {recover : σ → σ} {c c' : M.Config}

/-- A run without restarts. -/
theorem Reach.restarts (h : M.Reach D c c') : M.Restarts D recover c c' :=
  Relation.ReflTransGen.mono (fun _ _ hs => RStep.live hs) _ _ h

theorem Restarts.restart (h : M.Restarts D recover c c') :
    M.Restarts D recover c (c'.restart recover) := h.tail (.restart c')

/-- **What lasts**: a property of the shared state and the history that every operation and
every restart preserves. -/
theorem Restarts.preserves {I : σ → List (Entry Call Env Op Res) → Prop}
    (hexec : ∀ {s s' h i call o env r}, I s h → M.exec o env s = some (r, s') →
      I s' (⟨i, call, o, env, r⟩ :: h))
    (hrecover : ∀ {s h}, I s h → I (recover s) h)
    (h : M.Restarts D recover c c') (hI : I c.shared c.hist) : I c'.shared c'.hist := by
  induction h with
  | refl => exact hI
  | tail _ hs ih =>
    cases hs with
    | restart => exact hrecover ih
    | live hs =>
      cases hs with
      | spawn => exact ih
      | step _ exec _ => exact hexec ih exec
      | crash => exact ih

/-- The threads of the abstract pool are lost with those of the concrete one. -/
theorem Matches.restart {T : Call → Pos → (o : Op) → Res o → Pos → Prop}
    {Q : Call → Pos → Except ε α → Prop} {a : Pool σ Call Pos (Entry Call Env Op Res)}
    (h : M.Matches T Q c a) :
    M.Matches T Q (c.restart recover) (a.restart recover) := by
  refine ⟨congrArg recover h.shared, h.hist, ?_⟩
  refine List.forall₂_map_left_iff.mpr (List.forall₂_map_right_iff.mpr (h.threads.imp ?_))
  rintro _ _ (call | h)
  · exact .lost call
  · exact .lost _

namespace Outline

variable {T : Call → Pos → (o : Op) → Res o → Pos → Prop} {start : Call → Pos}
  {Q : Call → Pos → Except ε α → Prop}

/-- A restart leaves nothing but the invariant. -/
theorem Holds.restart {O : M.Outline D T start} {a : Pool σ Call Pos (Entry Call Env Op Res)}
    (h : O.Holds a) (hrecover : ∀ {s h}, O.inv s h → O.inv (recover s) h) :
    O.Holds (a.restart recover) where
  inv := hrecover h.inv
  asserts hat := (Pool.not_at_crash hat).elim
  one hat := (Pool.not_at_crash hat).elim
  tids e he := by
    have hlt := h.tids e he
    simpa [Pool.restart, Pool.crash] using hlt

/-- **Soundness across restarts.** -/
theorem restarted (O : M.Outline D T start)
    (hcode : ∀ call, D.start call → Follows (T call) (Q call) (M.code call) (start call))
    (hrecover : ∀ {s h}, O.inv s h → O.inv (recover s) h) {s : σ} (h₀ : O.inv s [])
    (h : M.Restarts D recover (Pool.init s) c) : ∃ a, M.Matches T Q c a ∧ O.Holds a := by
  induction h with
  | refl => exact ⟨_, ⟨rfl, rfl, .nil⟩, O.holds_init h₀⟩
  | tail _ hs ih =>
    obtain ⟨a, hm, ha⟩ := ih
    cases hs with
    | live hs =>
      obtain ⟨a', hs', hm'⟩ := hs.simulate hcode hm
      exact ⟨a', hm', ha.step hs'⟩
    | restart => exact ⟨_, hm.restart, ha.restart hrecover⟩

end Outline

/-- What every call may do at all is what the history shows of it. -/
theorem Restarts.only {P : Call → Op → Prop} (hcode : ∀ call, (M.code call).Only (P call)) {s : σ}
    (h : M.Restarts D recover (Pool.init s) c) : ∀ e ∈ c.hist, P e.call e.op := by
  let O : M.Outline D (fun call _ o _ _ => P call o) (fun _ => ()) :=
    { inv := fun _ hist => ∀ e ∈ hist, P e.call e.op
      asserts := fun _ _ _ _ _ => True
      owns := fun _ _ => False
      entry := fun _ _ _ => ⟨trivial, id⟩
      step := fun hinv _ move _ _ => ⟨List.forall_mem_cons.mpr ⟨move, hinv⟩, trivial⟩
      free := fun _ _ _ _ _ _ _ _ => trivial
      excl := fun _ _ _ _ _ h _ => h.elim }
  have hfollows : ∀ call, D.start call →
      Follows (fun _ o _ _ => P call o) (fun _ _ => True) (M.code call) () :=
    fun call _ => follows_of_only (fun h _ => h) (fun _ => trivial) (hcode call)
  have hrecover : ∀ {s hist}, O.inv s hist → O.inv (recover s) hist := fun h => h
  obtain ⟨a, hm, ha⟩ := O.restarted hfollows hrecover (fun _ h => absurd h List.not_mem_nil) h
  rw [hm.hist]
  exact ha.inv

end Machine

end Async
