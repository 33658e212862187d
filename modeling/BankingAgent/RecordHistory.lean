import BankingAgent.Stores.Idempotency

/-!
# Records over a history of statements

The statuses of an idempotency record have an order: once an operation has succeeded, or nobody
knows whether it has, it is not to be made again. Four of the five writes of the store ask for
the status they start from. `mark_failed` does not, and takes a record from wherever it is to
`FAILED`, where it may be tried again.

* `never_regresses_iff` — over any history, no record goes back exactly if `mark_failed` never
  comes to a record that has succeeded or is unknown.
-/

namespace BankingAgent

open Sql

/-- What a sequence of statements leaves behind. -/
def IdempotencyTable.after (t : IdempotencyTable) (ops : List IdempotencyOp) : IdempotencyTable :=
  ops.foldl (fun t o => (o.exec t).2) t

/-- What must not be lost of a record: its success with the result, and that it is not to be
tried again when its outcome is unknown. -/
structure StaysSettled (row row' : IdempotencyRow) : Prop where
  succeeded : row.status = .succeeded → row'.status = .succeeded ∧ row'.result = row.result
  unknown : row.status = .unknown →
    ∀ r : IdempotencyRecord, r.status = row'.status → r.canRetry = false

/-- In every part of the history, every record that is there at the beginning stays settled
until the end. -/
def NeverRegresses (t : IdempotencyTable) (ops : List IdempotencyOp) : Prop :=
  ∀ before later rest, ops = before ++ later ++ rest → ∀ key row,
    (t.after before).get key = some row →
      ∃ row', (t.after (before ++ later)).get key = some row' ∧ StaysSettled row row'

/-- `mark_failed` comes to a record that has succeeded or is unknown. -/
def Unsettles (t : IdempotencyTable) : IdempotencyOp → Bool
  | .update key (.failed _ _) =>
    t.status? key = some .succeeded || t.status? key = some .unknown
  | _ => false

/-- It never does. -/
def NeverUnsettles : IdempotencyTable → List IdempotencyOp → Prop
  | _, [] => True
  | t, o :: ops => Unsettles t o = false ∧ NeverUnsettles (o.exec t).2 ops

/-! ## One statement -/

/-- A record that has succeeded or is unknown. -/
def Settled (row : IdempotencyRow) : Prop := row.status = .succeeded ∨ row.status = .unknown

variable {t : IdempotencyTable} {o : IdempotencyOp} {ops : List IdempotencyOp} {key : String}
  {row : IdempotencyRow}

/-- No guard but that of `mark_failed` lets a settled record through. -/
theorem apply_of_settled {u : IdempotencyUpdate} (hrow : Settled row)
    (hu : ∀ error now, u ≠ .failed error now) : u.change.apply row = row := by
  refine if_neg fun hguard => ?_
  change u.appliesTo row.status = true at hguard
  cases u with
  | failed error now => exact hu error now rfl
  | _ => rcases hrow with hrow | hrow <;> rw [hrow] at hguard <;> cases hguard

/-- **A statement** leaves a settled record as it is, if it does not unsettle it. -/
theorem get_exec_of_settled (ho : Unsettles t o = false) (hget : t.get key = some row)
    (hrow : Settled row) : (o.exec t).2.get key = some row := by
  cases o with
  | select key' => exact hget
  | reserve key' toolName toolArgs now =>
    cases hins : (t.insert (fun _ => false) (IdempotencyRow.reserved key' toolName toolArgs now)).1 with
    | false => rwa [IdempotencyOp.exec, Table.get_insert_of_refused hins]
    | true =>
      -- an insert is accepted only under a key that is free
      obtain ⟨hfree, hafter⟩ := Table.get_insert_of_accepted hins
      have hne : key ≠ key' := by
        rintro rfl
        exact absurd (hget.symm.trans hfree) (by simp)
      rw [IdempotencyOp.exec, hafter]
      exact (if_neg hne).trans hget
  | update key' u =>
    by_cases hkey : key = key'
    · subst hkey
      -- of the updates only `mark_failed` passes its guard, and that one is excluded
      have happly : u.change.apply row = row := apply_of_settled hrow fun error now hu => by
        subst hu
        rcases hrow with hrow | hrow <;> simp [Unsettles, IdempotencyTable.status?, hget, hrow] at ho
      rw [IdempotencyOp.exec, Table.get_update_self, hget, Option.map_some, happly]
    · rwa [IdempotencyOp.exec, Table.get_update_of_ne hkey]

/-! ## A history -/

theorem after_append (ops' : List IdempotencyOp) :
    t.after (ops ++ ops') = (t.after ops).after ops' := List.foldl_append

theorem NeverUnsettles.of_append {ops' : List IdempotencyOp} (h : NeverUnsettles t (ops ++ ops')) :
    NeverUnsettles t ops ∧ NeverUnsettles (t.after ops) ops' := by
  induction ops generalizing t with
  | nil => exact ⟨trivial, h⟩
  | cons o ops ih => exact ⟨⟨h.1, (ih h.2).1⟩, (ih h.2).2⟩

/-- **A history** leaves a settled record as it is, if no statement unsettles one. -/
theorem get_after_of_settled (h : NeverUnsettles t ops) (hget : t.get key = some row)
    (hrow : Settled row) : (t.after ops).get key = some row := by
  induction ops generalizing t with
  | nil => exact hget
  | cons o ops ih => exact ih h.2 (get_exec_of_settled h.1 hget hrow)

/-- No history deletes a record. -/
theorem isSome_after (h : (t.get key).isSome) : ((t.after ops).get key).isSome := by
  induction ops generalizing t with
  | nil => exact h
  | cons o ops ih => exact ih (IdempotencyOp.isSome_exec h)

/-- A record that is left as it is has stayed settled. -/
theorem StaysSettled.refl (row : IdempotencyRow) : StaysSettled row row :=
  ⟨fun h => ⟨h, rfl⟩, fun h r hr => by simp [IdempotencyRecord.canRetry, hr, h]⟩

theorem StaysSettled.of_not_settled {row' : IdempotencyRow} (h : ¬ Settled row) :
    StaysSettled row row' :=
  ⟨fun hs => absurd (.inl hs) h, fun hu => absurd (.inr hu) h⟩

theorem NeverUnsettles.regresses (h : NeverUnsettles t ops) : NeverRegresses t ops := by
  rintro before later rest rfl key row hget
  obtain ⟨hlater, -⟩ := NeverUnsettles.of_append h
  rw [after_append]
  by_cases hrow : Settled row
  · exact ⟨row, get_after_of_settled (NeverUnsettles.of_append hlater).2 hget hrow, .refl row⟩
  · have hsome : (((t.after before).after later).get key).isSome :=
      isSome_after (by rw [hget]; rfl)
    obtain ⟨row', hrow'⟩ := Option.isSome_iff_exists.mp hsome
    exact ⟨row', hrow', .of_not_settled hrow⟩

/-- A statement that unsettles a record is a step back. -/
theorem not_staysSettled_of_unsettles (ho : Unsettles t o = true) :
    ∃ key row, t.get key = some row ∧ ∀ row', (o.exec t).2.get key = some row' →
      ¬ StaysSettled row row' := by
  cases o with
  | select => cases ho
  | reserve => cases ho
  | update key u =>
    cases u with
    | failed error now =>
      cases hget : t.get key with
      | none => simp [Unsettles, IdempotencyTable.status?, hget] at ho
      | some row =>
        refine ⟨key, row, hget, fun row' hrow' hstays => ?_⟩
        rw [IdempotencyOp.exec, Table.get_update_self, hget] at hrow'
        obtain rfl := Option.some.inj hrow'
        simp only [Unsettles, IdempotencyTable.status?, hget, Option.map_some, Option.some.injEq,
          Bool.or_eq_true, decide_eq_true_eq] at ho
        rcases ho with ho | ho
        · cases (hstays.succeeded ho).1
        · exact absurd (hstays.unknown ho ⟨"", .failed, "", none, none, none, "", none⟩ rfl)
            (by decide)
    | _ => cases ho

theorem NeverRegresses.of_cons (h : NeverRegresses t (o :: ops)) :
    NeverRegresses (o.exec t).2 ops := by
  rintro before later rest rfl
  exact h (o :: before) later rest (by simp)

theorem NeverRegresses.neverUnsettles (h : NeverRegresses t ops) : NeverUnsettles t ops := by
  induction ops generalizing t with
  | nil => exact trivial
  | cons o ops ih =>
    refine ⟨?_, ih h.of_cons⟩
    by_contra hunsettles
    obtain ⟨key, row, hget, hback⟩ := not_staysSettled_of_unsettles (eq_true_of_ne_false hunsettles)
    obtain ⟨row', hrow', hstays⟩ := h [] [o] ops rfl key row hget
    exact hback row' hrow' hstays

/-- **No record goes back** in a history exactly if no `mark_failed` of it comes to a record
that has succeeded or is unknown. -/
theorem never_regresses_iff (t : IdempotencyTable) (ops : List IdempotencyOp) :
    NeverRegresses t ops ↔ NeverUnsettles t ops :=
  ⟨NeverRegresses.neverUnsettles, NeverUnsettles.regresses⟩

/-- A call that has succeeded, and an error that arrives late. -/
def lateError : List IdempotencyOp :=
  [.reserve "s:call-1" "submit_transfer" "{}" "t0", .update "s:call-1" .executing,
    .update "s:call-1" (.succeeded "done" "t1"), .update "s:call-1" (.failed "timeout" "t2")]

/-- The record of the transfer goes back to one that may be tried. -/
theorem succeeded_record_regresses : ¬ NeverRegresses .empty lateError := by
  intro h
  obtain ⟨-, -, -, hunsettles, -⟩ := h.neverUnsettles
  exact absurd hunsettles (by decide)

end BankingAgent
