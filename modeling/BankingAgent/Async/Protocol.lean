import BankingAgent.Async.Coroutine

/-!
# Protocols: what a coroutine may do where

A protocol is a labelled transition relation on **positions**: `T p o r q` says
that at position `p` the operation `o` may be performed, and that its answer `r`
leads to `q`. A position remembers as much of the coroutine's past as a proof
needs. `Follows T Q c p` says that the coroutine `c`, started at `p`, performs
only operations that `T` allows, whatever the answers, and that it ends in a
position and outcome satisfying `Q`.

The rules below are those of a program logic: one for each constructor of
`Prog`, one for sequencing, one for `try`, and consequence. A protocol is thus
established once, by walking the text of the coroutine, and every later argument
is about the transitions of `T` only.
-/

namespace Async

variable {Op : Type} {Res : Op → Type} {ε α β Pos : Type}

/-- `c` obeys the protocol `T` from the position, and ends as `Q` says. -/
def Follows (T : Pos → (o : Op) → Res o → Pos → Prop) (Q : Pos → Except ε α → Prop) :
    Prog Op Res ε α → Pos → Prop
  | .ret a, p => Q p (.ok a)
  | .raise e, p => Q p (.error e)
  | .op o k, p => ∀ r, ∃ q, T p o r q ∧ Follows T Q (k r) q

section Rules

variable {T : Pos → (o : Op) → Res o → Pos → Prop} {Q : Pos → Except ε α → Prop}

@[simp] theorem follows_ret {a : α} {p : Pos} :
    Follows T Q (.ret a) p ↔ Q p (.ok a) := Iff.rfl

@[simp] theorem follows_raise {e : ε} {p : Pos} :
    Follows T Q (.raise e) p ↔ Q p (.error e) := Iff.rfl

/-- Consequence, in the protocol as in the postcondition. -/
theorem Follows.mono {T' : Pos → (o : Op) → Res o → Pos → Prop} {Q' : Pos → Except ε α → Prop}
    (hT : ∀ {p o r q}, T p o r q → T' p o r q) (hQ : ∀ {p out}, Q p out → Q' p out) :
    ∀ {c : Prog Op Res ε α} {p : Pos}, Follows T Q c p → Follows T' Q' c p := by
  intro c
  induction c with
  | ret a => exact fun h => hQ h
  | raise e => exact fun h => hQ h
  | op o k ih =>
    intro p h r
    obtain ⟨q, hq, hk⟩ := h r
    exact ⟨q, hT hq, ih r hk⟩

/-- A protocol inside a larger one, at the positions `f` of it. -/
theorem follows_embed {Pos' : Type} (f : Pos → Pos')
    {T' : Pos' → (o : Op) → Res o → Pos' → Prop} {Q' : Pos' → Except ε α → Prop}
    (hT : ∀ {p o r q}, T p o r q → T' (f p) o r (f q)) (hQ : ∀ {p out}, Q p out → Q' (f p) out) :
    ∀ {c : Prog Op Res ε α} {p : Pos}, Follows T Q c p → Follows T' Q' c (f p) := by
  intro c
  induction c with
  | ret a => exact fun h => hQ h
  | raise e => exact fun h => hQ h
  | op o k ih =>
    intro p h r
    obtain ⟨q, hq, hk⟩ := h r
    exact ⟨f q, hT hq, ih r hk⟩

/-- **Simulation**: what obeys a protocol obeys any other that can match its moves. -/
theorem Follows.simulate {Pos' : Type} {R : Pos → Pos' → Prop}
    {U : Pos' → (o : Op) → Res o → Pos' → Prop}
    (hT : ∀ {p p' o r q}, R p p' → T p o r q → ∃ q', U p' o r q' ∧ R q q') :
    ∀ {c : Prog Op Res ε α} {p : Pos} {p' : Pos'}, Follows T Q c p → R p p' →
      Follows U (fun p' out => ∃ p, R p p' ∧ Q p out) c p' := by
  intro c
  induction c with
  | ret a => exact fun h hR => ⟨_, hR, h⟩
  | raise e => exact fun h hR => ⟨_, hR, h⟩
  | op o k ih =>
    intro p p' h hR r
    obtain ⟨q, hq, hk⟩ := h r
    obtain ⟨q', hq', hR'⟩ := hT hR hq
    exact ⟨q', hq', ih r hk hR'⟩

/-- A coroutine whose operations lead nowhere stays where it is. -/
theorem follows_of_only {P : Op → Prop} {p : Pos} (hT : ∀ {o}, P o → ∀ r, T p o r p)
    (hQ : ∀ out, Q p out) : ∀ {c : Prog Op Res ε α}, c.Only P → Follows T Q c p := by
  intro c
  induction c with
  | ret a => exact fun _ => hQ _
  | raise e => exact fun _ => hQ _
  | op o k ih => exact fun h r => ⟨p, hT h.1 r, ih r (h.2 r)⟩

/-- Sequencing: the exceptions of the first part are exceptions of the whole. -/
theorem Follows.bind {R : Pos → Except ε β → Prop} {f : α → Prog Op Res ε β}
    (hok : ∀ {p a}, Q p (.ok a) → Follows T R (f a) p)
    (herr : ∀ {p e}, Q p (.error e) → R p (.error e)) :
    ∀ {c : Prog Op Res ε α} {p : Pos}, Follows T Q c p → Follows T R (c.bind f) p := by
  intro c
  induction c with
  | ret a => exact fun h => hok h
  | raise e => exact fun h => herr h
  | op o k ih =>
    intro p h r
    obtain ⟨q, hq, hk⟩ := h r
    exact ⟨q, hq, ih r hk⟩

/-- Applying a function to the result. -/
theorem Follows.map {Q : Pos → Except ε β → Prop} {f : α → β} {c : Prog Op Res ε α} {p : Pos}
    (h : Follows T (fun p out => Q p (out.map f)) c p) : Follows T Q (f <$> c) p := by
  change Follows T Q (c.bind fun a => .ret (f a)) p
  refine Follows.bind ?_ ?_ h
  · exact fun h => h
  · exact fun h => h

/-- `try`: both outcomes become values. -/
theorem Follows.attempt {Q : Pos → Except ε (Except ε α) → Prop} :
    ∀ {c : Prog Op Res ε α} {p : Pos},
      Follows T (fun p out => Q p (.ok out)) c p → Follows T Q c.attempt p := by
  intro c
  induction c with
  | ret a => exact id
  | raise e => exact id
  | op o k ih =>
    intro p h r
    obtain ⟨q, hq, hk⟩ := h r
    exact ⟨q, hq, ih r hk⟩

/-- Operations that are answered on the spot are missed only if they lead nowhere. -/
theorem Follows.handle {h : (o : Op) → Option (Res o)}
    (hT : ∀ {p o r q}, h o = some r → T p o r q → q = p) :
    ∀ {c : Prog Op Res ε α} {p : Pos}, Follows T Q c p → Follows T Q (c.handle h) p := by
  intro c
  induction c with
  | ret a => exact id
  | raise e => exact id
  | op o k ih =>
    intro p hc
    rw [Prog.handle]
    cases hr : h o with
    | none =>
      intro r
      obtain ⟨q, hq, hk⟩ := hc r
      exact ⟨q, hq, ih r hk⟩
    | some r =>
      obtain ⟨q, hq, hk⟩ := hc r
      rw [hT hr hq] at hk
      exact ih r hk

end Rules

/-! ## Traces follow paths of the protocol -/

/-- A path of the protocol labelled with the events `es`. -/
inductive Path (T : Pos → (o : Op) → Res o → Pos → Prop) :
    Pos → List (Event Op Res) → Pos → Prop
  | nil (p : Pos) : Path T p [] p
  | cons {p q p' : Pos} {o : Op} {r : Res o} {es : List (Event Op Res)} :
      T p o r q → Path T q es p' → Path T p (⟨o, r⟩ :: es) p'

/-- One path after the other. -/
theorem Path.append {T : Pos → (o : Op) → Res o → Pos → Prop} {p q p' : Pos}
    {es es' : List (Event Op Res)} (h : Path T p es q) (h' : Path T q es' p') :
    Path T p (es ++ es') p' := by
  induction h with
  | nil p => exact h'
  | cons move _ ih => exact .cons move (ih h')

/-- Every trace of an obedient coroutine is a path, and what is left of the
coroutine obeys the protocol from where the path ends. -/
theorem Follows.path {T : Pos → (o : Op) → Res o → Pos → Prop}
    {Q : Pos → Except ε α → Prop} {c c' : Prog Op Res ε α} {es : List (Event Op Res)}
    (ht : Trace c es c') : ∀ {p : Pos}, Follows T Q c p →
      ∃ p', Path T p es p' ∧ Follows T Q c' p' := by
  induction ht with
  | nil c => exact fun h => ⟨_, .nil _, h⟩
  | @cons o k r es c' _ ih =>
    intro p h
    obtain ⟨q, hq, hk⟩ := h r
    obtain ⟨p', hp', hc'⟩ := ih hk
    exact ⟨p', .cons hq hp', hc'⟩

end Async
