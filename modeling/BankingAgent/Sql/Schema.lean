import BankingAgent.Sql.Crash
import Mathlib.Data.Int.Notation
import Mathlib.Data.Nat.Notation
import Mathlib.Data.List.Nodup
import Mathlib.Logic.Function.Basic

/-!
# Schemas and the statements that change them

A database file as a family of tables, each with its definition and its rows. The rows of
a table satisfy the constraints of its definition; the proof is a field, so a statement
that would break a constraint has to fail.

Values are positional: `INSERT INTO … SELECT *` copies rows as they are.
-/

namespace Sql

/-- A value of a column. -/
inductive Value : Type where
  | null
  | int (n : ℤ)
  | text (s : String)
  deriving DecidableEq

/-- A row, by position. -/
abbrev Row : Type := List Value

/-- The value of a column. -/
def Row.col (row : Row) (i : ℕ) : Value := row.getD i .null

/-- A column: its name, whether it is `NOT NULL`, and its `CHECK`. -/
structure Column : Type where
  name : String
  notNull : Bool := false
  check : Value → Bool := fun _ => true

/-- What a column accepts. -/
def Column.accepts (c : Column) (v : Value) : Bool := (!c.notNull || v ≠ .null) && c.check v

/-- The columns and the `PRIMARY KEY` and `UNIQUE` constraints of a table. -/
structure TableDef : Type where
  columns : List Column
  /-- column positions -/
  unique : List (List ℕ) := []

/-- No two rows agree on these columns, `NULL`s apart. -/
def Distinct (rows : List Row) (columns : List ℕ) : Prop :=
  ((rows.map fun row => columns.map row.col).filter fun key => Value.null ∉ key).Nodup

instance (rows : List Row) (columns : List ℕ) : Decidable (Distinct rows columns) :=
  inferInstanceAs (Decidable (List.Nodup _))

namespace TableDef

/-- A row fits the columns. -/
def Fits (t : TableDef) (row : Row) : Prop :=
  row.length = t.columns.length ∧ ∀ cv ∈ t.columns.zip row, cv.1.accepts cv.2 = true

instance (t : TableDef) (row : Row) : Decidable (t.Fits row) :=
  inferInstanceAs (Decidable (_ ∧ _))

/-- The rows satisfy the constraints. -/
structure Valid (t : TableDef) (rows : List Row) : Prop where
  fits : ∀ row ∈ rows, t.Fits row
  distinct : ∀ columns ∈ t.unique, Distinct rows columns

instance (t : TableDef) (rows : List Row) : Decidable (t.Valid rows) :=
  decidable_of_iff ((∀ row ∈ rows, t.Fits row) ∧ ∀ columns ∈ t.unique, Distinct rows columns)
    ⟨fun h => ⟨h.1, h.2⟩, fun h => ⟨h.fits, h.distinct⟩⟩

theorem valid_nil (t : TableDef) : t.Valid [] :=
  ⟨fun _ h => absurd h List.not_mem_nil, fun _ _ => List.nodup_nil⟩

/-- A `NOT NULL` column has a value. -/
theorem Fits.col_ne_null {t : TableDef} {row : Row} (h : t.Fits row) {i : ℕ} {c : Column}
    (hc : t.columns[i]? = some c) (hnull : c.notNull = true) : row.col i ≠ .null := by
  obtain ⟨hi, rfl⟩ := List.getElem?_eq_some_iff.mp hc
  have hrow : i < row.length := h.1 ▸ hi
  have hmem : (t.columns[i], row[i]) ∈ t.columns.zip row := by
    have hzip : i < (t.columns.zip row).length := by
      rw [List.length_zip]
      exact Nat.lt_min.mpr ⟨hi, hrow⟩
    exact List.mem_iff_getElem.mpr ⟨i, hzip, List.getElem_zip⟩
  have haccepts := h.2 _ hmem
  rw [Column.accepts, hnull] at haccepts
  rw [Row.col, List.getD_eq_getElem?_getD, List.getElem?_eq_getElem hrow, Option.getD_some]
  simp only [Bool.not_true, Bool.false_or, Bool.and_eq_true, decide_eq_true_eq] at haccepts
  exact haccepts.1

/-- The values of a `NOT NULL` column on which the rows are distinct. -/
theorem Valid.nodup_col {t : TableDef} {rows : List Row} (h : t.Valid rows) {i : ℕ} {c : Column}
    (hc : t.columns[i]? = some c) (hnull : c.notNull = true) (hi : [i] ∈ t.unique) :
    (rows.map fun row => row.col i).Nodup := by
  have hdistinct := h.distinct [i] hi
  rw [Distinct] at hdistinct
  rw [List.filter_eq_self.mpr ?_] at hdistinct
  · refine List.Nodup.of_map (fun v => [v]) ?_
    rwa [List.map_map]
  · intro key hkey
    obtain ⟨row, hrow, rfl⟩ := List.mem_map.mp hkey
    have hne := (h.fits row hrow).col_ne_null hc hnull
    simp [Ne.symm hne]

/-- The definition with a further column. -/
def addColumn (t : TableDef) (c : Column) : TableDef := { t with columns := t.columns ++ [c] }

/-- A further column with an acceptable default breaks no constraint. -/
theorem Valid.addColumn {t : TableDef} {rows : List Row} (h : t.Valid rows) {c : Column}
    {default : Value} (hdefault : c.accepts default = true)
    (hunique : ∀ columns ∈ t.unique, ∀ i ∈ columns, i < t.columns.length) :
    (t.addColumn c).Valid (rows.map fun row => row ++ [default]) where
  fits row hrow := by
    obtain ⟨old, hold, rfl⟩ := List.mem_map.mp hrow
    obtain ⟨hlength, haccepts⟩ := h.fits old hold
    refine ⟨by simp [TableDef.addColumn, hlength], fun cv hcv => ?_⟩
    rw [TableDef.addColumn, List.zip_append hlength.symm] at hcv
    rcases List.mem_append.mp hcv with hcv | hcv
    · exact haccepts cv hcv
    · rw [List.mem_singleton.mp hcv]
      exact hdefault
  distinct columns hcolumns := by
    have hsame : (rows.map fun row => row ++ [default]).map
        (fun row => columns.map (Row.col row)) = rows.map fun row => columns.map (Row.col row) := by
      rw [List.map_map]
      refine List.map_congr_left fun row hrow => List.map_congr_left fun i hi => ?_
      have hlt : i < row.length := (h.fits row hrow).1 ▸ hunique columns hcolumns i hi
      simp [Row.col, List.getElem?_append_left hlt]
    have hdistinct := h.distinct columns hcolumns
    rw [Distinct] at hdistinct ⊢
    rw [hsame]
    exact hdistinct

end TableDef

/-- A table with its rows. -/
structure Relation : Type where
  schema : TableDef
  rows : List Row
  valid : schema.Valid rows

/-- A database file: its tables, and the names of its indexes with their tables. -/
structure Database (N : Type) : Type where
  tables : N → Option Relation
  indexes : List (String × N)

/-- A statement. A query may make its caller raise. -/
inductive Statement (N : Type) : Type where
  | createTable (ifNotExists : Bool) (n : N) (schema : TableDef)
  /-- `IF NOT EXISTS`; a unique index names its column -/
  | createIndex (name : String) (n : N) (unique : Option ℕ)
  | dropTable (n : N)
  | renameTable (n n' : N)
  | addColumn (n : N) (c : Column) (default : Value)
  /-- `INSERT INTO n SELECT * FROM source` -/
  | insertSelect (n source : N)
  /-- `INSERT OR REPLACE`, by the first column -/
  | insertOrReplace (n : N) (row : Row)
  | query (refuses : Database N → Option String)
  | commit

namespace Statement

variable {N : Type}

/-- `INSERT` opens a transaction. -/
def opens : Statement N → Bool
  | .insertSelect _ _ | .insertOrReplace _ _ => true
  | _ => false

def commits : Statement N → Bool
  | .commit => true
  | _ => false

/-- The tables a statement may change, if they exist. -/
def writes : Statement N → List N
  | .dropTable n | .renameTable n _ | .addColumn n _ _ | .insertSelect n _
  | .insertOrReplace n _ => [n]
  | _ => []

/-- The tables a statement may bring into being. -/
def creates : Statement N → List N
  | .createTable _ n _ | .renameTable _ n => [n]
  | _ => []

end Statement

namespace Database

variable {N : Type}

/-- The rows of a table; none if there is no such table. -/
def rows (d : Database N) (n : N) : List Row := ((d.tables n).map Relation.rows).getD []

theorem rows_of_tables_eq {d d' : Database N} {n : N} (h : d'.tables n = d.tables n) :
    d'.rows n = d.rows n := by
  rw [rows, rows, h]

theorem rows_of_some {d : Database N} {n : N} {t : Relation} (h : d.tables n = some t) :
    d.rows n = t.rows := by
  rw [rows, h]
  rfl

variable [DecidableEq N]

/-- Write a table. -/
def set (d : Database N) (n : N) (t : Option Relation) : Database N :=
  { d with tables := Function.update d.tables n t }

/-- Add a column to every row, where that satisfies the constraints. -/
def widen (t : Relation) (c : Column) (default : Value) : Option Relation :=
  if h : (t.schema.addColumn c).Valid (t.rows.map fun row => row ++ [default]) then
    some ⟨t.schema.addColumn c, _, h⟩
  else none

/-- What a statement does to the tables. -/
def exec (d : Database N) : Statement N → Except String (Database N)
  | .createTable ifNotExists n schema =>
    match d.tables n with
    | some _ => if ifNotExists then .ok d else .error "table already exists"
    | none => .ok (d.set n (some ⟨schema, [], schema.valid_nil⟩))
  | .createIndex name n unique =>
    if d.indexes.any fun i => i.1 = name then .ok d
    else match d.tables n with
      | none => .error "no such table"
      | some t =>
        if unique.all fun i => Distinct t.rows [i] then
          .ok { d with indexes := d.indexes ++ [(name, n)] }
        else .error "UNIQUE constraint failed"
  | .dropTable n =>
    match d.tables n with
    | none => .error "no such table"
    | some _ => .ok { d.set n none with indexes := d.indexes.filter fun i => i.2 ≠ n }
  | .renameTable n n' =>
    match d.tables n, d.tables n' with
    | some t, none =>
      .ok { (d.set n none).set n' (some t) with
        indexes := d.indexes.map fun i => if i.2 = n then (i.1, n') else i }
    | none, _ => .error "no such table"
    | some _, some _ => .error "there is already another table"
  | .addColumn n c default =>
    match d.tables n with
    | none => .error "no such table"
    | some t =>
      if t.schema.columns.any fun c' => c'.name = c.name then .error "duplicate column name"
      else match widen t c default with
        | some t' => .ok (d.set n (some t'))
        | none => .error "constraint failed"
  | .insertSelect n source =>
    match d.tables n, d.tables source with
    | some t, some t' =>
      if h : t.schema.Valid (t.rows ++ t'.rows) then .ok (d.set n (some ⟨t.schema, _, h⟩))
      else .error "constraint failed"
    | _, _ => .error "no such table"
  | .insertOrReplace n row =>
    match d.tables n with
    | none => .error "no such table"
    | some t =>
      if h : t.schema.Valid (t.rows.filter (fun r => r.col 0 ≠ row.col 0) ++ [row]) then
        .ok (d.set n (some ⟨t.schema, _, h⟩))
      else .error "constraint failed"
  | .query refuses =>
    match refuses d with
    | some error => .error error
    | none => .ok d
  | .commit => .ok d

/-- SQLite, as Python's `sqlite3` drives it. -/
def sqlite : Engine (Statement N) (Database N) where
  exec := exec
  opens := Statement.opens
  commits := Statement.commits
  exec_commit d s h := by
    cases s with
    | commit => rfl
    | createTable | createIndex | dropTable | renameTable | addColumn | insertSelect
    | insertOrReplace | query => cases h

@[simp] theorem set_tables_self (d : Database N) (n : N) (t : Option Relation) :
    (d.set n t).tables n = t := Function.update_self ..

theorem set_tables_of_ne (d : Database N) {n n' : N} (t : Option Relation) (h : n' ≠ n) :
    (d.set n t).tables n' = d.tables n' := Function.update_of_ne h ..

/-! ## Statements that only create -/

variable {d d' : Database N} {n : N}

/-- Creating a table adds no rows to any, and changes none that exists. -/
theorem exec_createTable {ifNotExists : Bool} {schema : TableDef}
    (h : d.exec (.createTable ifNotExists n schema) = .ok d') :
    (∀ m, d'.rows m = d.rows m) ∧ (∀ m, (d.tables m).isSome → d'.tables m = d.tables m) ∧
      (d'.tables n).isSome ∧ ∀ m, m ≠ n → d'.tables m = d.tables m := by
  rw [exec] at h
  cases ht : d.tables n with
  | some t =>
    rw [ht] at h
    cases ifNotExists with
    | false => cases h
    | true =>
      cases h
      exact ⟨fun _ => rfl, fun _ _ => rfl, by rw [ht]; rfl, fun _ _ => rfl⟩
  | none =>
    rw [ht] at h
    cases h
    refine ⟨fun m => ?_, fun m hm => ?_, by rw [set_tables_self]; rfl,
      fun m hm => set_tables_of_ne d _ hm⟩
    · by_cases hm : m = n
      · rw [hm, rows, rows, set_tables_self, ht]
        rfl
      · exact rows_of_tables_eq (set_tables_of_ne d _ hm)
    · refine set_tables_of_ne d _ ?_
      rintro rfl
      rw [ht] at hm
      cases hm

theorem exec_createTable_ok (schema : TableDef) :
    ∃ d', d.exec (.createTable true n schema) = .ok d' := by
  rw [exec]
  cases d.tables n with
  | some t => exact ⟨d, rfl⟩
  | none => exact ⟨_, rfl⟩

theorem tables_of_createIndex {name : String} {unique : Option ℕ}
    (h : d.exec (.createIndex name n unique) = .ok d') : d'.tables = d.tables := by
  rw [exec] at h
  split at h
  · cases h
    rfl
  · split at h
    · cases h
    · split at h
      · cases h
        rfl
      · cases h

theorem exec_createIndex_ok (name : String) {unique : Option ℕ} {t : Relation}
    (ht : d.tables n = some t) (hunique : ∀ i ∈ unique, Distinct t.rows [i]) :
    ∃ d', d.exec (.createIndex name n unique) = .ok d' := by
  rw [exec]
  split
  · exact ⟨d, rfl⟩
  · simp only [ht]
    rw [if_pos]
    · exact ⟨_, rfl⟩
    · cases unique with
      | none => rfl
      | some i => exact decide_eq_true (hunique i rfl)

theorem tables_of_query {refuses : Database N → Option String}
    (h : d.exec (.query refuses) = .ok d') : d' = d := by
  rw [exec] at h
  split at h <;> cases h
  rfl

theorem exec_insertSelect_ok {source : N} {t t' : Relation} (ht : d.tables n = some t)
    (ht' : d.tables source = some t') (hvalid : t.schema.Valid (t.rows ++ t'.rows)) :
    d.exec (.insertSelect n source) = .ok (d.set n (some ⟨t.schema, _, hvalid⟩)) := by
  rw [exec, ht, ht']
  exact dif_pos hvalid

theorem exec_dropTable_ok {t : Relation} (ht : d.tables n = some t) :
    d.exec (.dropTable n) =
      .ok { d.set n none with indexes := d.indexes.filter fun i => i.2 ≠ n } := by
  rw [exec, ht]

theorem exec_renameTable_ok {n' : N} {t : Relation} (ht : d.tables n = some t)
    (ht' : d.tables n' = none) :
    d.exec (.renameTable n n') = .ok { (d.set n none).set n' (some t) with
      indexes := d.indexes.map fun i => if i.2 = n then (i.1, n') else i } := by
  rw [exec, ht, ht']

theorem exec_addColumn_ok {c : Column} (default : Value) {t : Relation} (ht : d.tables n = some t)
    (hcolumn : (t.schema.columns.any fun c' => c'.name = c.name) = false)
    (hdefault : c.accepts default = true)
    (hunique : ∀ columns ∈ t.schema.unique, ∀ i ∈ columns, i < t.schema.columns.length) :
    ∃ d', d.exec (.addColumn n c default) = .ok d' := by
  simp only [exec, ht, hcolumn, Bool.false_eq_true, if_false, widen]
  rw [dif_pos (t.valid.addColumn hdefault hunique)]
  exact ⟨_, rfl⟩

/-- A column that is added was not there, and every row has its default. -/
theorem exec_addColumn {c : Column} {default : Value}
    (h : d.exec (.addColumn n c default) = .ok d') :
    ∃ t t', d.tables n = some t ∧ (t.schema.columns.any fun c' => c'.name = c.name) = false ∧
      t'.schema = t.schema.addColumn c ∧ t'.rows = t.rows.map (fun row => row ++ [default]) ∧
      d' = d.set n (some t') := by
  rw [exec] at h
  split at h
  · cases h
  · rename_i t ht
    split at h
    · cases h
    · rename_i hcolumn
      split at h <;> cases h
      rename_i t' hwiden
      obtain ⟨hvalid, heq⟩ := Option.dite_none_right_eq_some.mp hwiden
      cases heq
      exact ⟨t, _, ht, Bool.eq_false_iff.mpr hcolumn, rfl, rfl, rfl⟩

/-- A statement leaves the tables alone that it does not name. -/
theorem exec_frame {s : Statement N} {m : N} (hwrites : m ∉ s.writes) (hcreates : m ∉ s.creates)
    (h : d.exec s = .ok d') : d'.tables m = d.tables m := by
  cases s with
  | createTable ifNotExists n schema =>
    exact (exec_createTable h).2.2.2 m (by simpa [Statement.creates] using hcreates)
  | createIndex name n unique => rw [tables_of_createIndex h]
  | query refuses => rw [tables_of_query h]
  | commit =>
    cases h
    rfl
  | dropTable n =>
    have hne : m ≠ n := by simpa [Statement.writes] using hwrites
    rw [exec] at h
    split at h <;> cases h
    exact set_tables_of_ne d _ hne
  | renameTable n n' =>
    have hne : m ≠ n := by simpa [Statement.writes] using hwrites
    have hne' : m ≠ n' := by simpa [Statement.creates] using hcreates
    rw [exec] at h
    split at h <;> cases h
    exact (set_tables_of_ne _ _ hne').trans (set_tables_of_ne d _ hne)
  | addColumn n c default =>
    have hne : m ≠ n := by simpa [Statement.writes] using hwrites
    obtain ⟨-, t', -, -, -, -, rfl⟩ := exec_addColumn h
    exact set_tables_of_ne d _ hne
  | insertSelect n source =>
    have hne : m ≠ n := by simpa [Statement.writes] using hwrites
    rw [exec] at h
    split at h
    · split at h <;> cases h
      exact set_tables_of_ne d _ hne
    · cases h
  | insertOrReplace n row =>
    have hne : m ≠ n := by simpa [Statement.writes] using hwrites
    rw [exec] at h
    split at h
    · cases h
    · split at h <;> cases h
      exact set_tables_of_ne d _ hne

/-- A table that exists stays as it is under a statement that does not write it. -/
theorem exec_keeps {s : Statement N} {m : N} {t : Relation} (hm : m ∉ s.writes)
    (ht : d.tables m = some t) (h : d.exec s = .ok d') : d'.tables m = some t := by
  by_cases hcreates : m ∈ s.creates
  · cases s with
    | createTable ifNotExists n schema => rw [(exec_createTable h).2.1 m (by rw [ht]; rfl), ht]
    | renameTable n n' =>
      -- no table is renamed to the name of one that exists
      obtain rfl : m = n' := by simpa [Statement.creates] using hcreates
      rw [exec, ht] at h
      split at h
      · rename_i hnone
        cases hnone
      · cases h
      · cases h
    | createIndex | dropTable | addColumn | insertSelect | insertOrReplace | query | commit =>
      exact absurd hcreates List.not_mem_nil
  · rw [exec_frame hm hcreates h, ht]

/-- The same for a script. -/
theorem execAll_frame {script : List (Statement N)} {m : N}
    (hm : ∀ s ∈ script, m ∉ s.writes ∧ m ∉ s.creates) (h : sqlite.execAll d script = .ok d') :
    d'.tables m = d.tables m :=
  Engine.execAll_keeps (P := fun e : Database N => e.tables m = d.tables m)
    (fun s hs _ _ he hexec => (exec_frame (hm s hs).1 (hm s hs).2 hexec).trans he) rfl h

theorem execAll_keeps {script : List (Statement N)} {m : N} {t : Relation}
    (hm : ∀ s ∈ script, m ∉ s.writes) (ht : d.tables m = some t)
    (h : sqlite.execAll d script = .ok d') : d'.tables m = some t :=
  Engine.execAll_keeps (P := fun e : Database N => e.tables m = some t)
    (fun s hs _ _ he hexec => exec_keeps (hm s hs) he hexec) ht h

/-- A script that creates a table, and does not write it, leaves it behind. -/
theorem execAll_isSome (before rest : List (Statement N)) {ifNotExists : Bool} {schema : TableDef}
    (hrest : ∀ s ∈ rest, n ∉ s.writes)
    (h : sqlite.execAll d (before ++ .createTable ifNotExists n schema :: rest) = .ok d') :
    (d'.tables n).isSome := by
  obtain ⟨d₁, -, h⟩ := Engine.execAll_append_ok h
  obtain ⟨d₂, hcreate, h⟩ := Engine.execAll_cons_ok h
  obtain ⟨t, ht⟩ := Option.isSome_iff_exists.mp (exec_createTable hcreate).2.2.1
  rw [execAll_keeps hrest ht h]
  rfl

/-! ## Scripts that cannot fail -/

/-- Indexes on a table that exists, each unique one on a column with distinct values. -/
theorem execAll_createIndex_ok (indexes : List (String × Option ℕ)) {t : Relation}
    (ht : d.tables n = some t) (hunique : ∀ i ∈ indexes, ∀ column ∈ i.2, Distinct t.rows [column]) :
    ∃ d', sqlite.execAll d (indexes.map fun i => .createIndex i.1 n i.2) = .ok d' := by
  induction indexes generalizing d with
  | nil => exact ⟨d, rfl⟩
  | cons i rest ih =>
    obtain ⟨d₁, h₁⟩ := exec_createIndex_ok i.1 ht (hunique i List.mem_cons_self)
    exact Engine.execAll_cons_of_ok h₁ (ih ((congrFun (tables_of_createIndex h₁) n).trans ht)
      fun j hj => hunique j (List.mem_cons_of_mem i hj))

/-- A script that creates tables if they do not exist, and indexes on tables that do. -/
def CreatesOn : List N → List (Statement N) → Prop
  | _, [] => True
  | ns, .createTable true n _ :: rest => CreatesOn (n :: ns) rest
  | ns, .createIndex _ n none :: rest => n ∈ ns ∧ CreatesOn ns rest
  | ns, .commit :: rest => CreatesOn ns rest
  | _, _ => False

theorem execAll_ok_of_createsOn (ns : List N) {script : List (Statement N)}
    (hscript : CreatesOn ns script) (hns : ∀ m ∈ ns, (d.tables m).isSome) :
    ∃ d', sqlite.execAll d script = .ok d' := by
  induction script generalizing d ns with
  | nil => exact ⟨d, rfl⟩
  | cons s rest ih =>
    cases s with
    | createTable ifNotExists m schema =>
      cases ifNotExists with
      | false => exact hscript.elim
      | true =>
        obtain ⟨d₁, h₁⟩ := exec_createTable_ok (d := d) (n := m) schema
        obtain ⟨-, hold, hm, -⟩ := exec_createTable h₁
        refine Engine.execAll_cons_of_ok h₁ (ih _ hscript fun m' hm' => ?_)
        rcases List.mem_cons.mp hm' with rfl | hm'
        · exact hm
        · rw [hold m' (hns m' hm')]
          exact hns m' hm'
    | createIndex name m unique =>
      cases unique with
      | some i => exact hscript.elim
      | none =>
        obtain ⟨t, ht⟩ := Option.isSome_iff_exists.mp (hns m hscript.1)
        obtain ⟨d₁, h₁⟩ := exec_createIndex_ok name ht (fun _ h => nomatch h : ∀ i ∈ none, _)
        refine Engine.execAll_cons_of_ok h₁ (ih _ hscript.2 fun m' hm' => ?_)
        rw [tables_of_createIndex h₁]
        exact hns m' hm'
    | commit => exact Engine.execAll_cons_of_ok rfl (ih _ hscript hns)
    | dropTable | renameTable | addColumn | insertSelect | insertOrReplace | query =>
      exact hscript.elim

end Database

end Sql
