import Mathlib.Data.List.Nodup

/-!
# Tables with a primary key

A `Table key` is a list of rows no two of which share a `key`; the proof travels
with the rows, so a table with a duplicated primary key cannot be built. A
statement either reads (`get`), adds a row (`insert`, refused when the key is
taken or the row clashes with a stored one), or changes the rows that satisfy a
guard (`update`, `updateAll`). A `Change` carries the proof that it leaves the key
column alone.

Each operation comes with the one equation for `get` after it. Nothing else about
the list of rows is used by a client.
-/

namespace Sql

variable {κ ρ : Type} {key : ρ → κ}

/-- Rows with pairwise distinct keys. -/
structure Table (key : ρ → κ) : Type where
  /-- the rows, oldest first -/
  rows : List ρ
  /-- the primary key -/
  nodup : (rows.map key).Nodup

/-- What an `UPDATE` does to a row: where the guard holds, set the columns. -/
structure Change (key : ρ → κ) : Type where
  /-- the `WHERE` clause, beyond the key -/
  guard : ρ → Bool
  /-- the `SET` clause -/
  set : ρ → ρ
  /-- the key column is not assigned -/
  keeps : ∀ r, key (set r) = key r

/-- The change, on one row. -/
def Change.apply (u : Change key) (r : ρ) : ρ := if u.guard r then u.set r else r

theorem Change.key_apply (u : Change key) (r : ρ) : key (u.apply r) = key r := by
  rw [Change.apply]
  split
  · exact u.keeps r
  · rfl

namespace Table

variable [DecidableEq κ]

/-- The table without rows. -/
def empty : Table key := ⟨[], List.nodup_nil⟩

/-- `SELECT * … WHERE key = k`. -/
def get (t : Table key) (k : κ) : Option ρ := t.rows.find? fun r => key r = k

/-- `INSERT`: refused if the key is taken or a stored row clashes with the new one. -/
def insert (t : Table key) (clash : ρ → Bool) (r : ρ) : Bool × Table key :=
  if h : key r ∈ t.rows.map key then (false, t)
  else if t.rows.any clash then (false, t)
  else (true, ⟨t.rows ++ [r], by
    rw [List.map_append]
    exact List.nodup_append.mpr ⟨t.nodup, List.nodup_singleton _, by
      rintro a ha b hb rfl
      exact h (List.mem_singleton.mp hb ▸ ha)⟩⟩)

/-- `INSERT OR REPLACE`: a row with the same key goes, the new one is the youngest. -/
def replace (t : Table key) (r : ρ) : Table key where
  rows := t.rows.filter (fun r' => key r' ≠ key r) ++ [r]
  nodup := by
    rw [List.map_append]
    refine List.nodup_append.mpr
      ⟨t.nodup.sublist (List.filter_sublist.map key), List.nodup_singleton _, ?_⟩
    rintro a ha b hb rfl
    obtain ⟨r', hr', rfl⟩ := List.mem_map.mp ha
    have hne : key r' ≠ key r := by simpa using (List.mem_filter.mp hr').2
    exact hne (List.mem_singleton.mp hb)

omit [DecidableEq κ] in
/-- `DELETE … WHERE guard`. -/
def delete (t : Table key) (guard : ρ → Bool) : Table key where
  rows := t.rows.filter fun r => !guard r
  nodup := t.nodup.sublist (List.filter_sublist.map key)

/-- `UPDATE … WHERE guard`, with the number of rows it touched. -/
def updateAll (t : Table key) (u : Change key) : ℕ × Table key :=
  (t.rows.countP u.guard, ⟨t.rows.map u.apply, by
    rw [List.map_map, show key ∘ u.apply = key from funext u.key_apply]
    exact t.nodup⟩)

/-- The change restricted to the row with key `k`. -/
def Change.at (u : Change key) (k : κ) : Change key :=
  ⟨fun r => key r = k && u.guard r, u.set, u.keeps⟩

/-- `UPDATE … WHERE key = k AND guard`, and whether a row was touched. -/
def update (t : Table key) (k : κ) (u : Change key) : Bool × Table key :=
  let n := t.updateAll (Change.at u k)
  (n.1 == 1, n.2)

variable {t : Table key} {k k' : κ} {r : ρ} {u : Change key} {clash : ρ → Bool}

@[simp] theorem get_empty : (empty : Table key).get k = none := rfl

theorem key_of_get (h : t.get k = some r) : key r = k := by
  simpa using List.find?_some h

theorem get_eq_some_iff : t.get k = some r ↔ r ∈ t.rows ∧ key r = k := by
  constructor
  · intro h
    exact ⟨List.mem_of_find?_eq_some h, key_of_get h⟩
  · rintro ⟨hmem, rfl⟩
    cases hg : t.get (key r) with
    | none =>
      have := List.find?_eq_none.mp hg r hmem
      simp at this
    | some r' =>
      have hr' : r' ∈ t.rows := List.mem_of_find?_eq_some hg
      rw [List.inj_on_of_nodup_map t.nodup hr' hmem (key_of_get hg)]

theorem get_eq_none_iff : t.get k = none ↔ k ∉ t.rows.map key := by
  rw [get, List.find?_eq_none]
  simp

/-- After an `UPDATE`, every row is the changed one. -/
@[simp] theorem get_updateAll : (t.updateAll u).2.get k = (t.get k).map u.apply := by
  cases hg : t.get k with
  | none =>
    rw [get_eq_none_iff] at hg
    rw [Option.map_none, get_eq_none_iff, updateAll, List.map_map,
      show key ∘ u.apply = key from funext u.key_apply]
    exact hg
  | some r =>
    obtain ⟨hmem, hk⟩ := get_eq_some_iff.mp hg
    rw [Option.map_some, get_eq_some_iff]
    exact ⟨List.mem_map_of_mem hmem, by rw [u.key_apply, hk]⟩

/-- After an `UPDATE` of the row `k`, that row is the changed one. -/
@[simp] theorem get_update_self : (t.update k u).2.get k = (t.get k).map u.apply := by
  rw [update, get_updateAll]
  cases hg : t.get k with
  | none => rfl
  | some r => simp [Change.apply, Change.at, key_of_get hg]

/-- After an `UPDATE` of the row `k`, the other rows are what they were. -/
theorem get_update_of_ne (h : k' ≠ k) : (t.update k u).2.get k' = t.get k' := by
  rw [update, get_updateAll]
  cases hg : t.get k' with
  | none => rfl
  | some r => simp [Change.apply, Change.at, key_of_get hg, h]

theorem countP_at (u : Change key) (k : κ) (l : List ρ) (h : (l.map key).Nodup) :
    l.countP (Change.at u k).guard = 1 ↔ ∃ r, (r ∈ l ∧ key r = k) ∧ u.guard r = true := by
  induction l with
  | nil => simp
  | cons a l ih =>
    rw [List.map_cons, List.nodup_cons] at h
    by_cases ha : key a = k
    · have hrest : l.countP (Change.at u k).guard = 0 := by
        rw [List.countP_eq_zero]
        intro b hb hg
        have hbk : key b = k := by
          have := (Bool.and_eq_true _ _).mp hg
          simpa using this.1
        exact h.1 (ha.trans hbk.symm ▸ List.mem_map_of_mem hb)
      have honly : ∀ b ∈ l, key b ≠ k := fun b hb hbk =>
        h.1 (ha.trans hbk.symm ▸ List.mem_map_of_mem hb)
      rw [List.countP_cons, hrest]
      constructor
      · intro hc
        refine ⟨a, ⟨List.mem_cons_self .., ha⟩, ?_⟩
        by_contra hg
        simp [Change.at, ha, hg] at hc
      · rintro ⟨b, ⟨hb, hbk⟩, hg⟩
        rcases List.mem_cons.mp hb with rfl | hb
        · simp [Change.at, ha, hg]
        · exact absurd hbk (honly b hb)
    · have hfalse : (Change.at u k).guard a = false := by simp [Change.at, ha]
      rw [List.countP_cons_of_neg (by simp [hfalse]), ih h.2]
      constructor
      · rintro ⟨b, ⟨hb, hbk⟩, hg⟩
        exact ⟨b, ⟨List.mem_cons_of_mem _ hb, hbk⟩, hg⟩
      · rintro ⟨b, ⟨hb, hbk⟩, hg⟩
        rcases List.mem_cons.mp hb with rfl | hb
        · exact absurd hbk ha
        · exact ⟨b, ⟨hb, hbk⟩, hg⟩

/-- An `UPDATE` of the row `k` touches a row exactly if that row passes the guard. -/
theorem update_hit_iff : (t.update k u).1 = true ↔ ∃ r, t.get k = some r ∧ u.guard r = true := by
  have h := countP_at u k t.rows t.nodup
  simp only [← get_eq_some_iff] at h
  rw [← h, update, updateAll]
  exact beq_iff_eq

/-- An `UPDATE` that touches no row changes nothing. -/
theorem get_update_of_miss (h : (t.update k u).1 = false) : (t.update k u).2.get k' = t.get k' := by
  by_cases hk : k' = k
  · subst hk
    rw [get_update_self]
    cases hg : t.get k' with
    | none => rfl
    | some r =>
      have hguard : ¬ u.guard r = true := fun hgr => by
        rw [update_hit_iff.mpr ⟨r, hg, hgr⟩] at h
        cases h
      simp [Change.apply, hguard]
  · exact get_update_of_ne hk

/-- An `UPDATE` that touches the row `k` finds it there and sets its columns. -/
theorem get_update_of_hit (h : (t.update k u).1 = true) :
    ∃ r, t.get k = some r ∧ u.guard r = true ∧ (t.update k u).2.get k = some (u.set r) := by
  obtain ⟨r, hr, hg⟩ := update_hit_iff.mp h
  refine ⟨r, hr, hg, ?_⟩
  rw [get_update_self, hr]
  simp [Change.apply, hg]

/-- After an `UPDATE` of the row `k'`, the row `k` is the changed one or what it was. -/
theorem get_update_of_some (h : t.get k = some r) :
    (t.update k' u).2.get k = some (if k = k' then u.apply r else r) := by
  by_cases hk : k = k'
  · subst hk
    rw [get_update_self, h, if_pos rfl, Option.map_some]
  · rw [get_update_of_ne hk, h, if_neg hk]

theorem get_insert_of_refused (h : (t.insert clash r).1 = false) : (t.insert clash r).2 = t := by
  rw [insert] at h ⊢
  split at h
  · simp_all
  · split at h
    · simp_all
    · cases h

/-- An `INSERT` goes through where the key is free and nothing clashes. -/
theorem insert_accepted (hfree : ∀ r' ∈ t.rows, key r' ≠ key r)
    (hclash : ∀ r' ∈ t.rows, clash r' = false) : (t.insert clash r).1 = true := by
  have hkey : key r ∉ t.rows.map key := fun h => by
    obtain ⟨r', hr', heq⟩ := List.mem_map.mp h
    exact hfree r' hr' heq
  have hany : t.rows.any clash = false := List.any_eq_false.mpr fun r' hr' => by
    simp [hclash r' hr']
  rw [insert, dif_neg hkey, if_neg (by simp [hany])]

/-- An `INSERT` that succeeds found the key free; it adds the row and nothing else. -/
theorem get_insert_of_accepted (h : (t.insert clash r).1 = true) :
    t.get (key r) = none ∧
      ∀ k, (t.insert clash r).2.get k = if k = key r then some r else t.get k := by
  rw [insert] at h ⊢
  split at h
  · cases h
  · rename_i hfree
    split at h
    · cases h
    · rename_i hclash
      refine ⟨get_eq_none_iff.mpr hfree, fun k => ?_⟩
      rw [dif_neg hfree, if_neg hclash, get, get, List.find?_append]
      by_cases hk : k = key r
      · subst hk
        have hnone : t.rows.find? (fun r' => key r' = key r) = none := get_eq_none_iff.mpr hfree
        simp [hnone]
      · have : ¬ key r = k := fun h => hk h.symm
        simp [hk, this]

/-- The rows after an `INSERT` that succeeds. -/
theorem mem_insert_of_accepted {r' : ρ} (h : (t.insert clash r).1 = true) :
    r' ∈ (t.insert clash r).2.rows ↔ r' ∈ t.rows ∨ r' = r := by
  rw [insert] at h ⊢
  split at h
  · cases h
  · rename_i hfree
    split at h
    · cases h
    · rename_i hclash
      rw [dif_neg hfree, if_neg hclash, List.mem_append, List.mem_singleton]

/-- After an `INSERT OR REPLACE`, the new row is stored under its key, and every other
key holds what it held. -/
theorem get_replace : (t.replace r).get k = if k = key r then some r else t.get k := by
  by_cases hk : k = key r
  · rw [if_pos hk, get_eq_some_iff]
    exact ⟨List.mem_append_right _ (List.mem_singleton_self r), hk.symm⟩
  · rw [if_neg hk]
    cases hg : t.get k with
    | none =>
      rw [get_eq_none_iff] at hg ⊢
      rintro hmem
      obtain ⟨r', hr', rfl⟩ := List.mem_map.mp hmem
      rcases List.mem_append.mp hr' with hr' | hr'
      · exact hg (List.mem_map_of_mem (List.mem_of_mem_filter hr'))
      · exact hk (by rw [List.mem_singleton.mp hr'])
    | some r' =>
      obtain ⟨hmem, rfl⟩ := get_eq_some_iff.mp hg
      exact get_eq_some_iff.mpr
        ⟨List.mem_append_left _ (List.mem_filter.mpr ⟨hmem, by simpa using hk⟩), rfl⟩

/-- The rows after an `INSERT OR REPLACE`. -/
theorem mem_replace {r' : ρ} :
    r' ∈ (t.replace r).rows ↔ r' ∈ t.rows ∧ key r' ≠ key r ∨ r' = r := by
  rw [replace, List.mem_append, List.mem_filter, List.mem_singleton, decide_eq_true_eq]

omit [DecidableEq κ] in
/-- The rows after a `DELETE`. -/
theorem mem_delete {guard : ρ → Bool} :
    r ∈ (t.delete guard).rows ↔ r ∈ t.rows ∧ guard r = false := by
  rw [delete, List.mem_filter, Bool.not_eq_true']

/-- An `INSERT OR REPLACE` among other rows. -/
theorem filter_replace {p : ρ → Bool} (hr : p r = false)
    (hkey : ∀ r' ∈ t.rows, p r' = true → key r' ≠ key r) :
    (t.replace r).rows.filter p = t.rows.filter p := by
  rw [replace, List.filter_append, List.filter_singleton, hr, List.filter_filter]
  refine (List.append_nil _).trans (List.filter_congr fun r' hr' => ?_)
  cases hp : p r' with
  | false => rfl
  | true => simpa using hkey r' hr' hp

omit [DecidableEq κ] in
/-- A `DELETE` among other rows. -/
theorem filter_delete {p guard : ρ → Bool}
    (hguard : ∀ r' ∈ t.rows, p r' = true → guard r' = false) :
    (t.delete guard).rows.filter p = t.rows.filter p := by
  rw [delete, List.filter_filter]
  refine List.filter_congr fun r' hr' => ?_
  cases hp : p r' with
  | false => rfl
  | true => simpa using hguard r' hr' hp

/-- A `DELETE` leaves a row alone that the guard spares. -/
theorem get_delete_of_some {guard : ρ → Bool} (h : t.get k = some r) (hguard : guard r = false) :
    (t.delete guard).get k = some r := by
  obtain ⟨hmem, hkey⟩ := get_eq_some_iff.mp h
  exact get_eq_some_iff.mpr ⟨mem_delete.mpr ⟨hmem, hguard⟩, hkey⟩

/-- An `INSERT` leaves the stored rows alone. -/
theorem get_insert_of_some {r' : ρ} (h : t.get k = some r) :
    (t.insert clash r').2.get k = some r := by
  cases hin : (t.insert clash r').1 with
  | false => rw [get_insert_of_refused hin, h]
  | true =>
    obtain ⟨hfree, hget⟩ := get_insert_of_accepted hin
    rw [hget, if_neg, h]
    rintro rfl
    rw [hfree] at h
    cases h

end Table

end Sql
