import BankingAgent.Sql.Table
import BankingAgent.Json

/-!
# `idempotency_store.py`: one durable record per operation key

    reserve: absent → RESERVED          mark_executing: RESERVED → EXECUTING
    mark_succeeded: EXECUTING → SUCCEEDED
    mark_unknown: RESERVED | EXECUTING → UNKNOWN
    mark_failed: any status → FAILED

A record is never deleted, and only `reserve` creates one.
-/

namespace BankingAgent

open Sql

/-- `IdempotencyStatus`. -/
inductive IdempotencyStatus : Type where
  | reserved
  | executing
  | succeeded
  | failed
  | unknown
  deriving DecidableEq, Repr

/-- `IdempotencyStatus.value`. -/
def IdempotencyStatus.value : IdempotencyStatus → String
  | reserved => "RESERVED"
  | executing => "EXECUTING"
  | succeeded => "SUCCEEDED"
  | failed => "FAILED"
  | unknown => "UNKNOWN"

/-- A record whose `tool_args` are held as `Args`. -/
structure IdempotencyFields (Args : Type) : Type where
  /-- the primary key -/
  idempotencyKey : String
  status : IdempotencyStatus
  toolName : String
  toolArgs : Option Args
  result : Option String
  error : Option String
  createdAt : String
  completedAt : Option String

/-- `IdempotencyRecord`, as the program holds it. -/
abbrev IdempotencyRecord : Type := IdempotencyFields Json

/-- A row of `idempotency_records`. -/
abbrev IdempotencyRow : Type := IdempotencyFields String

/-- `IdempotencyRecord.is_terminal`. -/
def IdempotencyRecord.isTerminal (r : IdempotencyRecord) : Bool :=
  r.status = .succeeded || r.status = .failed

/-- `IdempotencyRecord.can_retry`. -/
def IdempotencyRecord.canRetry (r : IdempotencyRecord) : Bool :=
  r.status = .reserved || r.status = .failed

/-- `_row_to_record`; `none` if the text of the arguments is not JSON. A missing or
empty text gives no arguments. -/
def IdempotencyRow.toRecord (py : PyLib) (row : IdempotencyRow) : Option IdempotencyRecord :=
  match row.toolArgs with
  | none => some { row with toolArgs := none }
  | some text =>
    if text = "" then some { row with toolArgs := none }
    else (py.loads text).map fun args => { row with toolArgs := some args }

/-- The record read back has the status of the row. -/
theorem IdempotencyRow.status_toRecord {py : PyLib} {row : IdempotencyRow}
    {r : IdempotencyRecord} (h : row.toRecord py = some r) : r.status = row.status := by
  rw [IdempotencyRow.toRecord] at h
  split at h
  · obtain rfl := Option.some.inj h
    rfl
  · split at h
    · obtain rfl := Option.some.inj h
      rfl
    · obtain ⟨args, _, rfl⟩ := Option.map_eq_some_iff.mp h
      rfl

/-- The record read back has the result of the row. -/
theorem IdempotencyRow.result_toRecord {py : PyLib} {row : IdempotencyRow}
    {r : IdempotencyRecord} (h : row.toRecord py = some r) : r.result = row.result := by
  rw [IdempotencyRow.toRecord] at h
  split at h
  · obtain rfl := Option.some.inj h
    rfl
  · split at h
    · obtain rfl := Option.some.inj h
      rfl
    · obtain ⟨args, _, rfl⟩ := Option.map_eq_some_iff.mp h
      rfl

/-- The primary key of a row. -/
abbrev IdempotencyRow.key (row : IdempotencyRow) : String := row.idempotencyKey

/-- The table `idempotency_records`. -/
abbrev IdempotencyTable : Type := Table IdempotencyRow.key

/-- The conditional `UPDATE`s of `SqliteIdempotencyStore`. -/
inductive IdempotencyUpdate : Type where
  /-- the `UPDATE` of `mark_executing` -/
  | executing
  /-- the `UPDATE` of `mark_succeeded` -/
  | succeeded (result now : String)
  /-- the `UPDATE` of `mark_failed` -/
  | failed (error now : String)
  /-- the `UPDATE` of `mark_unknown` -/
  | unknown

/-- The statuses an update applies to; `mark_failed` names none. -/
def IdempotencyUpdate.appliesTo : IdempotencyUpdate → IdempotencyStatus → Bool
  | executing, s => s = .reserved
  | succeeded _ _, s => s = .executing
  | failed _ _, _ => true
  | unknown, s => s = .reserved || s = .executing

/-- The status an update writes. -/
def IdempotencyUpdate.target : IdempotencyUpdate → IdempotencyStatus
  | executing => .executing
  | succeeded _ _ => .succeeded
  | failed _ _ => .failed
  | unknown => .unknown

/-- The `SET` clause of an update. -/
def IdempotencyUpdate.set (u : IdempotencyUpdate) (row : IdempotencyRow) : IdempotencyRow :=
  match u with
  | executing => { row with status := u.target }
  | succeeded result now =>
    { row with status := u.target, result := some result, completedAt := some now }
  | failed error now => { row with status := u.target, error := some error, completedAt := some now }
  | unknown => { row with status := u.target }

/-- The statement, but for the key. -/
def IdempotencyUpdate.change (u : IdempotencyUpdate) :
    Change IdempotencyRow.key where
  guard row := u.appliesTo row.status
  set := u.set
  keeps row := by cases u <;> rfl

/-- The statements `SqliteIdempotencyStore` executes. -/
inductive IdempotencyOp : Type where
  /-- `INSERT OR IGNORE` -/
  | reserve (key toolName toolArgs now : String)
  /-- `SELECT * … WHERE idempotency_key=?` -/
  | select (key : String)
  /-- `UPDATE … WHERE idempotency_key=?` -/
  | update (key : String) (u : IdempotencyUpdate)

/-- What a statement answers: for the writes, whether a row changed. -/
abbrev IdempotencyOp.Res : IdempotencyOp → Type
  | reserve _ _ _ _ => Bool
  | select _ => Option IdempotencyRow
  | update _ _ => Bool

/-- The row `reserve` inserts. -/
def IdempotencyRow.reserved (key toolName toolArgs now : String) : IdempotencyRow :=
  ⟨key, .reserved, toolName, some toolArgs, none, none, now, none⟩

/-- Execute and commit one statement. -/
def IdempotencyOp.exec : (o : IdempotencyOp) → IdempotencyTable → o.Res × IdempotencyTable
  | reserve key toolName toolArgs now, t =>
    t.insert (fun _ => false) (IdempotencyRow.reserved key toolName toolArgs now)
  | select key, t => (t.get key, t)
  | update key u, t => t.update key u.change

/-! ## What a statement can do to a record -/

theorem IdempotencyUpdate.target_set (u : IdempotencyUpdate) (row : IdempotencyRow) :
    (u.set row).status = u.target := by
  cases u <;> rfl

/-- The status stored under a key. -/
def IdempotencyTable.status? (t : IdempotencyTable) (key : String) : Option IdempotencyStatus :=
  (t.get key).map (·.status)

/-- `reserve` creates a reserved record or finds one. -/
theorem IdempotencyOp.status?_reserve {key toolName toolArgs now : String} {t : IdempotencyTable}
    (k : String) :
    IdempotencyTable.status? ((IdempotencyOp.reserve key toolName toolArgs now).exec t).2 k =
      if k = key ∧ t.get key = none then some .reserved else t.status? k := by
  have hkey : (IdempotencyRow.reserved key toolName toolArgs now).key = key := rfl
  cases hins : (t.insert (fun _ => false) (IdempotencyRow.reserved key toolName toolArgs now)).1 with
  | true =>
    obtain ⟨hfree, hget⟩ := Table.get_insert_of_accepted hins
    rw [hkey] at hfree
    rw [IdempotencyTable.status?, IdempotencyOp.exec, hget, hkey]
    by_cases hk : k = key
    · rw [if_pos hk, if_pos ⟨hk, hfree⟩]
      rfl
    · rw [if_neg hk, if_neg (fun h => hk h.1)]
      rfl
  | false =>
    have htaken : t.get key ≠ none := fun hfree => by
      have hmem := Table.get_eq_none_iff.mp hfree
      rw [Table.insert, dif_neg (by rw [hkey]; exact hmem)] at hins
      simp at hins
    rw [IdempotencyTable.status?, IdempotencyOp.exec, Table.get_insert_of_refused hins,
      if_neg (fun h => htaken h.2)]
    rfl

/-- An update moves the record it applies to, and no other. -/
theorem IdempotencyOp.status?_update {key : String} {u : IdempotencyUpdate} {t : IdempotencyTable}
    (k : String) :
    IdempotencyTable.status? ((IdempotencyOp.update key u).exec t).2 k =
      if k = key then (t.status? key).map fun s => if u.appliesTo s then u.target else s
      else t.status? k := by
  by_cases hk : k = key
  · subst hk
    rw [if_pos rfl, IdempotencyTable.status?, IdempotencyOp.exec, Table.get_update_self,
      IdempotencyTable.status?, Option.map_map, Option.map_map]
    congr 1
    funext row
    simp only [Function.comp_apply, Change.apply, IdempotencyUpdate.change]
    by_cases hg : u.appliesTo row.status = true
    · rw [if_pos hg, if_pos hg, u.target_set]
    · rw [if_neg hg, if_neg hg]
  · rw [if_neg hk, IdempotencyTable.status?, IdempotencyOp.exec, Table.get_update_of_ne hk]
    rfl

/-- The key a statement is about. -/
def IdempotencyOp.key : IdempotencyOp → String
  | reserve key _ _ _ => key
  | select key => key
  | update key _ => key

/-- A statement touches the record of its key only. -/
theorem IdempotencyOp.get_exec_of_ne {o : IdempotencyOp} {t : IdempotencyTable} {k : String}
    (h : o.key ≠ k) : (o.exec t).2.get k = t.get k := by
  cases o with
  | select key => rfl
  | reserve key toolName toolArgs now =>
    cases hins : (t.insert (fun _ => false) (IdempotencyRow.reserved key toolName toolArgs now)).1 with
    | false => rw [IdempotencyOp.exec, Table.get_insert_of_refused hins]
    | true =>
      rw [IdempotencyOp.exec, (Table.get_insert_of_accepted hins).2]
      exact if_neg (Ne.symm h)
  | update key u => exact Table.get_update_of_ne (Ne.symm h)

/-- Where a stored result comes from: the statement has written it, or it was there before. -/
theorem IdempotencyOp.result_exec {o : IdempotencyOp} {t : IdempotencyTable} {k : String}
    {row' : IdempotencyRow} (h : (o.exec t).2.get k = some row') :
    t.get k = some row' ∨ o.key = k ∧ (row'.result = none ∨
      (∃ row, t.get k = some row ∧ row'.result = row.result) ∨
        ∃ text now, o = .update k (.succeeded text now) ∧ row'.result = some text) := by
  cases o with
  | select key => exact .inl h
  | reserve key toolName toolArgs now =>
    cases hins : (t.insert (fun _ => false) (IdempotencyRow.reserved key toolName toolArgs now)).1 with
    | false =>
      rw [IdempotencyOp.exec, Table.get_insert_of_refused hins] at h
      exact .inl h
    | true =>
      rw [IdempotencyOp.exec, (Table.get_insert_of_accepted hins).2] at h
      split at h
      · rename_i hk
        obtain rfl := Option.some.inj h
        exact .inr ⟨hk.symm, .inl rfl⟩
      · exact .inl h
  | update key u =>
    by_cases hk : k = key
    · subst hk
      cases hrow : t.get k with
      | none =>
        rw [IdempotencyOp.exec, Table.get_update_self, hrow] at h
        cases h
      | some row =>
        have hget : (t.update k u.change).2.get k = _ := Table.get_update_of_some hrow
        obtain rfl := Option.some.inj (h.symm.trans hget)
        refine .inr ⟨rfl, .inr ?_⟩
        rw [if_pos rfl, Change.apply]
        split
        · cases u with
          | succeeded text now => exact .inr ⟨text, now, rfl, rfl⟩
          | _ => exact .inl ⟨row, rfl, rfl⟩
        · exact .inl ⟨row, rfl, rfl⟩
    · exact .inl ((Table.get_update_of_ne hk).symm.trans h)

/-- An update touches a record exactly if it applies to its status. -/
theorem IdempotencyOp.update_hit_iff {key : String} {u : IdempotencyUpdate}
    {t : IdempotencyTable} :
    ((IdempotencyOp.update key u).exec t).1 = true ↔
      ∃ st, t.status? key = some st ∧ u.appliesTo st = true := by
  refine Table.update_hit_iff.trans ?_
  simp only [IdempotencyTable.status?, Option.map_eq_some_iff]
  constructor
  · rintro ⟨row, hrow, hg⟩
    exact ⟨_, ⟨row, hrow, rfl⟩, hg⟩
  · rintro ⟨_, ⟨row, hrow, rfl⟩, hg⟩
    exact ⟨row, hrow, hg⟩

theorem IdempotencyTable.isSome_status? {t : IdempotencyTable} {key : String} :
    (t.status? key).isSome = (t.get key).isSome := Option.isSome_map

/-- No statement deletes a record. -/
theorem IdempotencyOp.isSome_exec {o : IdempotencyOp} {t : IdempotencyTable} {key : String}
    (h : (t.get key).isSome) : ((o.exec t).2.get key).isSome := by
  rw [← IdempotencyTable.isSome_status?] at h ⊢
  cases o with
  | select key' => exact h
  | reserve key' toolName toolArgs now =>
    rw [IdempotencyOp.status?_reserve]
    split
    · rfl
    · exact h
  | update key' u =>
    rw [IdempotencyOp.status?_update]
    split
    · rename_i hk
      rw [Option.isSome_map, ← hk]
      exact h
    · exact h

/-- After `reserve` there is a record. -/
theorem IdempotencyOp.isSome_reserve {key toolName toolArgs now : String} {t : IdempotencyTable} :
    (((IdempotencyOp.reserve key toolName toolArgs now).exec t).2.get key).isSome := by
  rw [← IdempotencyTable.isSome_status?, IdempotencyOp.status?_reserve]
  cases hget : t.get key with
  | none => rw [if_pos ⟨rfl, rfl⟩]; rfl
  | some row =>
    rw [if_neg (fun h => nomatch h.2), IdempotencyTable.isSome_status?, hget]
    rfl

/-- A record that has succeeded had succeeded before, or `mark_succeeded` has just hit it
and stored its result. -/
theorem IdempotencyOp.get_succeeded {o : IdempotencyOp} {t : IdempotencyTable} {key : String}
    {row : IdempotencyRow} (h : (o.exec t).2.get key = some row) (hst : row.status = .succeeded) :
    t.get key = some row ∨ ∃ result now, o = .update key (.succeeded result now) ∧
      ((IdempotencyOp.update key (.succeeded result now)).exec t).1 = true ∧
      row.result = some result := by
  cases o with
  | select key' => exact .inl h
  | reserve key' toolName toolArgs now =>
    cases hins : (t.insert (fun _ => false) (IdempotencyRow.reserved key' toolName toolArgs now)).1 with
    | false =>
      rw [IdempotencyOp.exec, Table.get_insert_of_refused hins] at h
      exact .inl h
    | true =>
      rw [IdempotencyOp.exec, (Table.get_insert_of_accepted hins).2] at h
      split at h
      · obtain rfl := Option.some.inj h
        cases hst
      · exact .inl h
  | update key' u =>
    by_cases hk : key = key'
    · subst hk
      rw [IdempotencyOp.exec, Table.get_update_self] at h
      obtain ⟨old, hold, rfl⟩ := Option.map_eq_some_iff.mp h
      by_cases hg : u.appliesTo old.status = true
      · have happly : u.change.apply old = u.set old := if_pos hg
        rw [happly] at hst ⊢
        have htarget := (u.target_set old).symm.trans hst
        cases u with
        | succeeded result now =>
          refine .inr ⟨result, now, rfl, ?_, rfl⟩
          exact Table.update_hit_iff.mpr ⟨old, hold, hg⟩
        | executing => cases htarget
        | failed => cases htarget
        | unknown => cases htarget
      · have happly : u.change.apply old = old := if_neg hg
        rw [happly]
        exact .inl hold
    · rw [IdempotencyOp.exec, Table.get_update_of_ne hk] at h
      exact .inl h

/-- `FAILED` is reached by `mark_failed` only, from any record, and never left. -/
theorem IdempotencyOp.status?_eq_failed_iff {o : IdempotencyOp} {t : IdempotencyTable}
    {key : String} :
    IdempotencyTable.status? (o.exec t).2 key = some .failed ↔
      t.status? key = some .failed ∨
        ∃ error now, o = .update key (.failed error now) ∧ (t.status? key).isSome := by
  cases o with
  | select => simp [IdempotencyOp.exec]
  | reserve key' toolName toolArgs now =>
    rw [IdempotencyOp.status?_reserve]
    split
    · rename_i h
      obtain ⟨rfl, hnone⟩ := h
      simp [IdempotencyTable.status?, hnone]
    · simp
  | update key' u =>
    rw [IdempotencyOp.status?_update]
    by_cases hk : key = key'
    · subst hk
      rw [if_pos rfl]
      cases hst : t.status? key with
      | none => simp
      | some st =>
        cases u <;> cases st <;> simp [IdempotencyUpdate.appliesTo, IdempotencyUpdate.target]
    · rw [if_neg hk]
      simp [Ne.symm hk]

end BankingAgent
