import Mathlib.Data.List.Basic

/-!
# Transactions and crashes

A connection runs a script of statements against stored data. Outside a transaction the
effect of a statement is stored at once. Certain statements open a transaction; from then
on nothing is stored until the next commit. A crash leaves what is stored.

`Durable P script` says that a script which starts where `P` holds leaves `P` behind,
wherever it is stopped. It is proved piece by piece: for statements outside a
transaction one by one, for a transaction at its end only.
-/

namespace Sql

/-- A language of statements, with their effect and their role in transactions. -/
structure Engine (S D : Type) : Type where
  exec : D → S → Except String D
  /-- opens a transaction, unless one is open -/
  opens : S → Bool
  commits : S → Bool
  exec_commit : ∀ d s, commits s = true → exec d s = .ok d

/-- A connection: what is stored, what it sees itself, and whether a transaction is open. -/
structure Conn (D : Type) : Type where
  stored : D
  working : D
  inTransaction : Bool

/-- A fresh connection. -/
def Conn.fresh {D : Type} (d : D) : Conn D := ⟨d, d, false⟩

namespace Engine

variable {S D : Type} (E : Engine S D)

/-- One statement. -/
def step (c : Conn D) (s : S) : Except String (Conn D) :=
  match E.exec c.working s with
  | .error e => .error e
  | .ok d =>
    if E.commits s then .ok ⟨d, d, false⟩
    else if c.inTransaction || E.opens s then .ok ⟨c.stored, d, true⟩
    else .ok ⟨d, d, false⟩

/-- A script, on a connection. -/
def run (c : Conn D) (script : List S) : Except String (Conn D) := script.foldlM E.step c

/-- Where a script stops: the error of the statement that fails, and what is stored once the
connection is closed. `none` if no statement fails. -/
def stops : Conn D → List S → Option (String × D)
  | _, [] => none
  | c, s :: script =>
    match E.step c s with
    | .error e => some (e, c.stored)
    | .ok c' => stops c' script

/-- What a script computes, as the connection sees it. -/
def execAll (d : D) (script : List S) : Except String D := script.foldlM E.exec d

/-- What is stored if the connection is lost somewhere in a script. -/
inductive Survives : Conn D → List S → D → Prop
  | here (c : Conn D) (script : List S) : Survives c script c.stored
  | later {c c' : Conn D} {s : S} {script : List S} {d : D} (h : E.step c s = .ok c')
      (h' : Survives c' script d) : Survives c (s :: script) d

/-- What survives a script that starts where `P` holds satisfies `P`, and so does what the
script leaves if it comes to its end. -/
structure Durable (P : D → Prop) (script : List S) : Prop where
  survives : ∀ d d', P d → E.Survives (.fresh d) script d' → P d'
  run : ∀ d c, P d → E.run (.fresh d) script = .ok c → ∃ d', c = .fresh d' ∧ P d'

variable {E} {c c' : Conn D} {s : S} {script script' : List S} {d d' : D} {P : D → Prop}

theorem exec_of_step (h : E.step c s = .ok c') : E.exec c.working s = .ok c'.working := by
  rw [step] at h
  cases he : E.exec c.working s with
  | error e => rw [he] at h; cases h
  | ok d =>
    rw [he] at h
    simp only at h
    split_ifs at h
    all_goals
      cases h
      rfl

theorem run_cons : E.run c (s :: script) = (E.step c s).bind fun c' => E.run c' script := rfl

theorem execAll_cons : E.execAll d (s :: script) = (E.exec d s).bind fun d' => E.execAll d' script :=
  rfl

theorem run_append :
    E.run c (script ++ script') = (E.run c script).bind fun c' => E.run c' script' := by
  rw [run, List.foldlM_append]
  rfl

theorem execAll_append :
    E.execAll d (script ++ script') = (E.execAll d script).bind fun d' => E.execAll d' script' := by
  rw [execAll, List.foldlM_append]
  rfl

/-- A computation of a script, statement by statement. -/
theorem execAll_cons_ok (h : E.execAll d (s :: script) = .ok d') :
    ∃ d₁, E.exec d s = .ok d₁ ∧ E.execAll d₁ script = .ok d' := by
  rw [execAll_cons] at h
  cases he : E.exec d s with
  | error e => rw [he] at h; cases h
  | ok d₁ =>
    rw [he] at h
    exact ⟨d₁, rfl, h⟩

theorem execAll_cons_of_ok {d₁ : D} (hs : E.exec d s = .ok d₁)
    (h : ∃ d', E.execAll d₁ script = .ok d') : ∃ d', E.execAll d (s :: script) = .ok d' := by
  rw [execAll_cons, hs]
  exact h

theorem execAll_append_of_ok {d₁ : D} (hs : E.execAll d script = .ok d₁) :
    E.execAll d (script ++ script') = E.execAll d₁ script' := by
  rw [execAll_append, hs]
  rfl

theorem execAll_append_ok (h : E.execAll d (script ++ script') = .ok d') :
    ∃ d₁, E.execAll d script = .ok d₁ ∧ E.execAll d₁ script' = .ok d' := by
  rw [execAll_append] at h
  cases he : E.execAll d script with
  | error e => rw [he] at h; cases h
  | ok d₁ =>
    rw [he] at h
    exact ⟨d₁, rfl, h⟩

/-- A property that every statement keeps holds at the end. -/
theorem execAll_keeps (hkeeps : ∀ s ∈ script, ∀ d d', P d → E.exec d s = .ok d' → P d')
    (hd : P d) (h : E.execAll d script = .ok d') : P d' := by
  induction script generalizing d with
  | nil =>
    cases h
    exact hd
  | cons s script ih =>
    obtain ⟨d₁, hs, hrest⟩ := execAll_cons_ok h
    exact ih (fun s' hs' => hkeeps s' (List.mem_cons_of_mem s hs'))
      (hkeeps s List.mem_cons_self d d₁ hd hs) hrest

/-- A connection sees what the script computes. -/
theorem execAll_of_run (h : E.run c script = .ok c') :
    E.execAll c.working script = .ok c'.working := by
  induction script generalizing c with
  | nil =>
    cases h
    rfl
  | cons s script ih =>
    rw [run_cons] at h
    cases hs : E.step c s with
    | error e => rw [hs] at h; cases h
    | ok c₁ =>
      rw [hs] at h
      rw [execAll_cons, exec_of_step hs]
      exact ih h

/-- A script that can be computed can be run. -/
theorem run_of_execAll (h : E.execAll c.working script = .ok d) :
    ∃ c', E.run c script = .ok c' ∧ c'.working = d := by
  induction script generalizing c with
  | nil =>
    cases h
    exact ⟨c, rfl, rfl⟩
  | cons s script ih =>
    obtain ⟨d₁, hs, hrest⟩ := execAll_cons_ok h
    obtain ⟨c₁, hstep⟩ : ∃ c₁, E.step c s = .ok c₁ := by
      rw [step]
      rw [hs]
      simp only
      split_ifs <;> exact ⟨_, rfl⟩
    have hworking : c₁.working = d₁ := Except.ok.inj ((exec_of_step hstep).symm.trans hs)
    obtain ⟨c', hrun, hc'⟩ := ih (c := c₁) (hworking ▸ hrest)
    refine ⟨c', ?_, hc'⟩
    rw [run_cons, hstep]
    exact hrun

/-- A script that stops does not come to its end. -/
theorem run_of_stops {e : String} (h : E.stops c script = some (e, d)) :
    E.run c script = .error e := by
  induction script generalizing c with
  | nil => cases h
  | cons s script ih =>
    rw [run_cons]
    rw [stops] at h
    cases hs : E.step c s with
    | error e' =>
      rw [hs] at h
      cases h
      rfl
    | ok c' =>
      rw [hs] at h
      exact ih h

/-- A statement that succeeds and is stored at once. -/
theorem stops_cons_of_ok {d' : D} (hcommits : E.commits s = false) (hopens : E.opens s = false)
    (h : E.exec d s = .ok d') : E.stops (.fresh d) (s :: script) = E.stops (.fresh d') script := by
  have hstep : E.step (.fresh d) s = .ok (.fresh d') := by
    rw [step]
    rw [show (Conn.fresh d).working = d from rfl, h]
    simp [hcommits, hopens, Conn.fresh]
  rw [stops, hstep]

/-- A statement that fails. -/
theorem stops_cons_of_error {e : String} (h : E.exec c.working s = .error e) :
    E.stops c (s :: script) = some (e, c.stored) := by
  rw [stops, step, h]

/-- With a commit at its end a script leaves nothing open. -/
theorem run_commit {commit : S} (hcommit : E.commits commit = true)
    (h : E.run c (script ++ [commit]) = .ok c') : c' = .fresh c'.working := by
  rw [run_append] at h
  cases hscript : E.run c script with
  | error e => rw [hscript] at h; cases h
  | ok c₁ =>
    rw [hscript] at h
    have hstep : E.step c₁ commit = .ok (.fresh c₁.working) := by
      rw [step]
      rw [E.exec_commit _ _ hcommit]
      simp only [hcommit, if_true]
      rfl
    change E.run c₁ [commit] = .ok c' at h
    rw [run_cons, hstep] at h
    obtain rfl := Except.ok.inj h
    rfl

/-- What the beginning of a script has stored survives. -/
theorem Survives.of_run (h : E.run c script = .ok c') :
    E.Survives c (script ++ script') c'.stored := by
  induction script generalizing c with
  | nil =>
    obtain rfl := Except.ok.inj h
    exact .here _ _
  | cons s script ih =>
    rw [run_cons] at h
    cases hs : E.step c s with
    | error e => rw [hs] at h; cases h
    | ok c₁ =>
      rw [hs] at h
      exact .later hs (ih h)

/-- A crash in two scripts is one in the first, or one in the second after the first. -/
theorem Survives.append (h : E.Survives c (script ++ script') d) :
    E.Survives c script d ∨ ∃ c', E.run c script = .ok c' ∧ E.Survives c' script' d := by
  induction script generalizing c with
  | nil => exact .inr ⟨c, rfl, h⟩
  | cons s script ih =>
    cases h with
    | here => exact .inl (.here c _)
    | later hs hrest =>
      rcases ih hrest with hfirst | ⟨c', hrun, hsecond⟩
      · exact .inl (.later hs hfirst)
      · refine .inr ⟨c', ?_, hsecond⟩
        rw [run_cons, hs]
        exact hrun

namespace Durable

theorem nil : E.Durable P [] where
  survives d d' hd h := by
    cases h
    exact hd
  run d c hd h := by
    cases h
    exact ⟨d, rfl, hd⟩

/-- Durable scripts one after the other. -/
theorem append (h : E.Durable P script) (h' : E.Durable P script') :
    E.Durable P (script ++ script') where
  survives d d' hd hsurvives := by
    rcases hsurvives.append with hfirst | ⟨c, hrun, hsecond⟩
    · exact h.survives d d' hd hfirst
    · obtain ⟨d₁, rfl, hd₁⟩ := h.run d c hd hrun
      exact h'.survives d₁ d' hd₁ hsecond
  run d c hd hrun := by
    rw [run_append] at hrun
    cases hfirst : E.run (.fresh d) script with
    | error e => rw [hfirst] at hrun; cases hrun
    | ok c₁ =>
      rw [hfirst] at hrun
      obtain ⟨d₁, rfl, hd₁⟩ := h.run d c₁ hd hfirst
      exact h'.run d₁ c hd₁ hrun

/-- A statement outside a transaction is stored at once. -/
theorem step_fresh (hopens : E.opens s = false) (h : E.step (.fresh d) s = .ok c) :
    ∃ d', c = .fresh d' ∧ E.exec d s = .ok d' := by
  have he := exec_of_step h
  refine ⟨c.working, ?_, he⟩
  rw [step] at h
  rw [he] at h
  simp only [Conn.fresh, hopens, Bool.or_self, Bool.false_eq_true, if_false, ite_self] at h
  exact (Except.ok.inj h).symm

/-- Statements outside a transaction: each has to keep `P`. -/
theorem of_forall
    (h : ∀ s ∈ script, E.opens s = false ∧ ∀ d d', P d → E.exec d s = .ok d' → P d') :
    E.Durable P script := by
  induction script with
  | nil => exact nil
  | cons s script ih =>
    have hrest := ih fun s' hs' => h s' (List.mem_cons_of_mem s hs')
    obtain ⟨hopens, hkeeps⟩ := h s List.mem_cons_self
    refine ⟨fun d d' hd hsurvives => ?_, fun d c hd hrun => ?_⟩
    · cases hsurvives with
      | here => exact hd
      | later hs hlater =>
        obtain ⟨d₁, rfl, he⟩ := step_fresh hopens hs
        exact hrest.survives d₁ d' (hkeeps d d₁ hd he) hlater
    · rw [run_cons] at hrun
      cases hs : E.step (.fresh d) s with
      | error e => rw [hs] at hrun; cases hrun
      | ok c₁ =>
        rw [hs] at hrun
        obtain ⟨d₁, rfl, he⟩ := step_fresh hopens hs
        exact hrest.run d₁ c (hkeeps d d₁ hd he) hrun

/-- What a durable script computes satisfies `P`. -/
theorem execAll (h : E.Durable P script) (hd : P d) (he : E.execAll d script = .ok d') :
    P d' := by
  obtain ⟨c, hrun, rfl⟩ := run_of_execAll (c := .fresh d) he
  obtain ⟨d₁, rfl, hd₁⟩ := h.run d c hd hrun
  exact hd₁

end Durable

/-- In a transaction nothing is stored. -/
theorem step_inTransaction (hcommits : E.commits s = false)
    (hc : c.inTransaction = true ∨ E.opens s = true) (h : E.step c s = .ok c') :
    c'.stored = c.stored ∧ c'.inTransaction = true := by
  rw [step] at h
  cases he : E.exec c.working s with
  | error e => rw [he] at h; cases h
  | ok d =>
    rw [he] at h
    simp only [hcommits, Bool.false_eq_true, if_false] at h
    rw [if_pos (by simpa using hc)] at h
    cases h
    exact ⟨rfl, rfl⟩

/-- A transaction and its commit: what is stored is what was before, or its result. -/
theorem survives_transaction (tx : List S) (commit : S) (htx : ∀ s ∈ tx, E.commits s = false)
    (hcommit : E.commits commit = true) (hc : c.inTransaction = true ∨
      ∃ s rest, tx = s :: rest ∧ E.opens s = true) :
    (∀ d, E.Survives c (tx ++ [commit]) d → d = c.stored ∨ E.execAll c.working tx = .ok d) ∧
      ∀ c', E.run c (tx ++ [commit]) = .ok c' →
        ∃ d, c' = .fresh d ∧ E.execAll c.working tx = .ok d := by
  induction tx generalizing c with
  | nil =>
    have hin : c.inTransaction = true := hc.resolve_right (by rintro ⟨s, rest, h, -⟩; cases h)
    have hstep : E.step c commit = .ok (.fresh c.working) := by
      rw [step]
      rw [E.exec_commit _ _ hcommit]
      simp only [hcommit, if_true]
      rfl
    refine ⟨fun d h => ?_, fun c' h => ?_⟩
    · cases h with
      | here => exact .inl rfl
      | later hs hrest =>
        rw [hstep] at hs
        cases hs
        cases hrest
        exact .inr rfl
    · rw [List.nil_append, run_cons, hstep] at h
      cases h
      exact ⟨c.working, rfl, rfl⟩
  | cons s tx ih =>
    have hc' : c.inTransaction = true ∨ E.opens s = true :=
      hc.imp_right fun ⟨s', rest, heq, ho⟩ => (List.cons.inj heq).1 ▸ ho
    have hs : E.commits s = false := htx s List.mem_cons_self
    have hrest := fun s' hs' => htx s' (List.mem_cons_of_mem s hs')
    refine ⟨fun d h => ?_, fun c' h => ?_⟩
    · cases h with
      | here => exact .inl rfl
      | later hstep hlater =>
        obtain ⟨hstored, hin⟩ := step_inTransaction hs hc' hstep
        rcases (ih hrest (.inl hin)).1 d hlater with rfl | hall
        · exact .inl hstored
        · refine .inr ?_
          rw [execAll_cons, exec_of_step hstep]
          exact hall
    · rw [List.cons_append, run_cons] at h
      cases hstep : E.step c s with
      | error e => rw [hstep] at h; cases h
      | ok c₁ =>
        rw [hstep] at h
        obtain ⟨-, hin⟩ := step_inTransaction hs hc' hstep
        obtain ⟨d, rfl, hall⟩ := (ih hrest (.inl hin)).2 c' h
        refine ⟨d, rfl, ?_⟩
        rw [execAll_cons, exec_of_step hstep]
        exact hall

/-- A transaction has to keep `P` at its end only. -/
theorem Durable.of_transaction {s commit : S} {tx : List S} (hopens : E.opens s = true)
    (htx : ∀ s' ∈ s :: tx, E.commits s' = false) (hcommit : E.commits commit = true)
    (hfinal : ∀ d d', P d → E.execAll d (s :: tx) = .ok d' → P d') :
    E.Durable P (s :: tx ++ [commit]) where
  survives d d' hd h := by
    have hboth := survives_transaction (c := .fresh d) (s :: tx) commit htx hcommit
      (.inr ⟨s, tx, rfl, hopens⟩)
    rcases hboth.1 d' h with rfl | hall
    · exact hd
    · exact hfinal d d' hd hall
  run d c hd h := by
    have hboth := survives_transaction (c := .fresh d) (s :: tx) commit htx hcommit
      (.inr ⟨s, tx, rfl, hopens⟩)
    obtain ⟨d', rfl, hall⟩ := hboth.2 c h
    exact ⟨d', rfl, hfinal d d' hd hall⟩

end Engine

end Sql
