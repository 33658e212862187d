import BankingAgent.Migrations
import Mathlib.Tactic.IntervalCases

/-!
# Restarting a migration

Whatever survives a crash of `init_database` holds all rows (`Underway`), and the recorded
version with it. A second run can go through it again exactly if nothing of what the first
run stored is in its way.
-/

namespace BankingAgent

open Sql Database

/-- A database on the way from version `v`: nothing of `d₀` is lost, and nothing stands in
the temporary tables. -/
structure Underway (v : ℕ) (d₀ d : AppDb) : Prop where
  recorded : recordedVersion d = v
  keeps : KeepsRows d₀ d
  versionDef : ∀ t, d.tables .schemaVersion = some t → t.schema = schemaVersionDef
  sessionsDef : ∀ t, d.tables .hitlSessions = some t →
    t.schema = hitlSessionsDef ∨ t.schema = hitlSessionsDef.addColumn toolCallIdColumn
  empty : d.rows .grantsV3 = [] ∧ d.rows .grantsV5 = []
  grantsValid : v < 5 → grantsV3Def.Valid (d.rows .grants)
  sessions : 1 ≤ v → (d.tables .hitlSessions).isSome
  grants : 2 ≤ v → (d.tables .grants).isSome

/-- The recorded version depends on the rows alone. -/
theorem recordedVersion_congr {d d' : AppDb} (h : d'.rows .schemaVersion = d.rows .schemaVersion) :
    recordedVersion d' = recordedVersion d := by
  rw [recordedVersion, recordedVersion, h]

theorem hasToolCallId_congr {d d' : AppDb} (h : d'.tables .hitlSessions = d.tables .hitlSessions) :
    hasToolCallId d' = hasToolCallId d := by
  rw [hasToolCallId, hasToolCallId, h]

theorem sessionRows_congr {d d' : AppDb} (h : d'.tables .hitlSessions = d.tables .hitlSessions) :
    sessionRows d' = sessionRows d := by
  rw [sessionRows, sessionRows, hasToolCallId_congr h, rows_of_tables_eq h]

theorem sessionRows_of_nil {d : AppDb} (h : d.rows .hitlSessions = []) : sessionRows d = [] := by
  rw [sessionRows, h]
  exact ite_self _

/-- A statement that creates something, as the program uses it. -/
def Creates : AppStatement → Prop
  | .createTable _ n schema =>
    (n = .schemaVersion → schema = schemaVersionDef) ∧ (n = .hitlSessions → schema = hitlSessionsDef)
  | .createIndex _ _ _ | .query _ | .commit => True
  | _ => False

section Steps

variable {v : ℕ} {d₀ d d' : AppDb}

/-- **What keeps a database on the way**: the rows, those of `hitl_sessions` up to the new
column, and the definitions. -/
theorem Underway.of_rows (h : Underway v d₀ d)
    (hrows : ∀ m, m ≠ .hitlSessions → d'.rows m = d.rows m)
    (hkept : sessionRows d' = sessionRows d)
    (hversion : ∀ t, d'.tables .schemaVersion = some t → t.schema = schemaVersionDef)
    (hsessions : ∀ t, d'.tables .hitlSessions = some t →
      t.schema = hitlSessionsDef ∨ t.schema = hitlSessionsDef.addColumn toolCallIdColumn)
    (hsome : ∀ m, m = .hitlSessions ∨ m = .grants → (d.tables m).isSome → (d'.tables m).isSome) :
    Underway v d₀ d' where
  recorded := (recordedVersion_congr (hrows _ (by decide))).trans h.recorded
  keeps :=
    { events := (hrows _ (by decide)).trans h.keeps.events
      checkpoints := (hrows _ (by decide)).trans h.keeps.checkpoints
      idempotencyRecords := (hrows _ (by decide)).trans h.keeps.idempotencyRecords
      grants := (hrows _ (by decide)).trans h.keeps.grants
      channelWrites := (hrows _ (by decide)).trans h.keeps.channelWrites
      sessions := hkept.trans h.keeps.sessions }
  versionDef := hversion
  sessionsDef := hsessions
  empty := ⟨(hrows _ (by decide)).trans h.empty.1, (hrows _ (by decide)).trans h.empty.2⟩
  grantsValid hv := by
    rw [hrows _ (by decide)]
    exact h.grantsValid hv
  sessions hv := hsome _ (.inl rfl) (h.sessions hv)
  grants hv := hsome _ (.inr rfl) (h.grants hv)

/-- `Underway` does not look at indexes. -/
theorem Underway.congr (h : Underway v d₀ d) (ht : d'.tables = d.tables) : Underway v d₀ d' := by
  refine h.of_rows (fun m _ => rows_of_tables_eq (congrFun ht m)) (sessionRows_congr (congrFun ht _))
    ?_ ?_ fun m _ => ?_
  · rw [ht]
    exact h.versionDef
  · rw [ht]
    exact h.sessionsDef
  · rw [ht]
    exact id

/-- Creating a table. -/
theorem Underway.createTable (h : Underway v d₀ d) {ifNotExists : Bool} {n : TableName}
    {schema : TableDef} (hcreates : Creates (.createTable ifNotExists n schema))
    (he : d.exec (.createTable ifNotExists n schema) = .ok d') : Underway v d₀ d' := by
  obtain ⟨hrows, hold, hn, hother⟩ := exec_createTable he
  -- a table that was not there is now the one that is created
  have hdef : ∀ m t, d'.tables m = some t → d.tables m = some t ∨ m = n ∧ t.schema = schema := by
    intro m t ht
    cases hm : d.tables m with
    | some t₀ =>
      rw [hold m (by rw [hm]; rfl), hm] at ht
      exact .inl ht
    | none =>
      by_cases hmn : m = n
      · subst hmn
        rw [exec, hm] at he
        cases he
        rw [set_tables_self] at ht
        exact .inr ⟨rfl, by rw [← Option.some.inj ht]⟩
      · rw [hother m hmn, hm] at ht
        cases ht
  refine h.of_rows (fun m _ => hrows m) ?_ (fun t ht => ?_) (fun t ht => ?_)
    fun m _ hm => by rwa [hold m hm]
  · cases hs : d.tables .hitlSessions with
    | some t => exact sessionRows_congr (hold _ (by rw [hs]; rfl))
    | none =>
      have hnil : d.rows .hitlSessions = [] := by rw [rows, hs]; rfl
      rw [sessionRows_of_nil hnil, sessionRows_of_nil ((hrows _).trans hnil)]
  · rcases hdef _ t ht with ht | ⟨hn, hs⟩
    · exact h.versionDef t ht
    · exact hs.trans (hcreates.1 hn.symm)
  · rcases hdef _ t ht with ht | ⟨hn, hs⟩
    · exact h.sessionsDef t ht
    · exact .inl (hs.trans (hcreates.2 hn.symm))

/-- **A statement that creates** keeps all rows. -/
theorem Underway.creates (h : Underway v d₀ d) {s : AppStatement} (hs : Creates s)
    (he : d.exec s = .ok d') : Underway v d₀ d' := by
  cases s with
  | createTable ifNotExists n schema => exact h.createTable hs he
  | createIndex name n unique => exact h.congr (tables_of_createIndex he)
  | query refuses => exact tables_of_query he ▸ h
  | commit =>
    cases he
    exact h
  | dropTable | renameTable | addColumn | insertSelect | insertOrReplace => exact hs.elim

/-- The new column of `hitl_sessions`. -/
theorem Underway.addToolCallId (h : Underway v d₀ d)
    (he : d.exec (.addColumn .hitlSessions toolCallIdColumn (.text "")) = .ok d') :
    Underway v d₀ d' := by
  obtain ⟨t, t', ht, hcolumn, hschema, hwide, rfl⟩ := exec_addColumn he
  have hcolumn : hasToolCallId d = false := by
    rw [hasToolCallId, ht]
    exact hcolumn
  have hcolumn' : hasToolCallId (d.set .hitlSessions (some t')) = true := by
    rw [hasToolCallId, set_tables_self]
    simp [hschema, TableDef.addColumn]
  have hother : ∀ m, m ≠ .hitlSessions →
      (d.set .hitlSessions (some t')).tables m = d.tables m := fun m hm => set_tables_of_ne d _ hm
  refine h.of_rows (fun m hm => rows_of_tables_eq (hother m hm)) ?_ (fun t₁ ht₁ => ?_)
    (fun t₁ ht₁ => ?_) fun m hm hsome => ?_
  · rw [sessionRows, sessionRows, hcolumn, hcolumn', if_pos rfl, if_neg (by decide),
      rows_of_some (set_tables_self ..), rows_of_some ht, hwide]
  · rw [hother _ (by decide)] at ht₁
    exact h.versionDef t₁ ht₁
  · rw [set_tables_self] at ht₁
    rw [← Option.some.inj ht₁, hschema]
    rcases h.sessionsDef t ht with hdef | hdef
    · exact .inr (by rw [hdef])
    · rw [hasToolCallId, ht] at hcolumn
      simp [hdef, TableDef.addColumn] at hcolumn
  · rcases hm with rfl | rfl
    · rw [set_tables_self]
      rfl
    · rwa [hother _ (by decide)]

/-! ## Rebuilding the grants -/

/-- What the transaction of a rebuild does: the rows of the grants move behind those of
the temporary table, which takes their place. -/
theorem of_replaceGrants {temporary : TableName} (htemporary : temporary ≠ .grants)
    (h : appSqlite.execAll d (replaceGrants temporary) = .ok d') :
    ∃ t t', d.tables temporary = some t ∧ d.tables .grants = some t' ∧
      d'.tables temporary = none ∧
      (∃ t'', d'.tables .grants = some t'' ∧ t''.schema = t.schema ∧
        t''.rows = t.rows ++ t'.rows) ∧
      ∀ m, m ≠ temporary → m ≠ .grants → d'.tables m = d.tables m := by
  obtain ⟨d₁, h₁, h⟩ := Engine.execAll_cons_ok h
  obtain ⟨d₂, h₂, h⟩ := Engine.execAll_cons_ok h
  obtain ⟨d₃, h₃, h⟩ := Engine.execAll_cons_ok h
  have hindexes : d'.tables = d₃.tables :=
    Engine.execAll_keeps (P := fun e : AppDb => e.tables = d₃.tables) (fun s hs e e' he hexec => by
      simp only [List.mem_cons, List.not_mem_nil, or_false] at hs
      rcases hs with rfl | rfl | rfl | rfl <;> exact (tables_of_createIndex hexec).trans he) rfl h
  rw [show appSqlite.exec d _ = d.exec _ from rfl, exec] at h₁
  split at h₁
  · rename_i t t' ht ht'
    split at h₁
    · rename_i hvalid
      cases h₁
      rw [show appSqlite.exec _ _ = Database.exec _ _ from rfl, exec] at h₂
      split at h₂ <;> cases h₂
      rw [show appSqlite.exec _ _ = Database.exec _ _ from rfl, exec] at h₃
      split at h₃ <;> cases h₃
      rename_i t₃ ht₃ hnone
      have hwritten := ht₃.symm.trans
        ((set_tables_of_ne _ none htemporary).trans (set_tables_self d _ _))
      refine ⟨t, t', ht, ht', ?_, ⟨t₃, ?_, by rw [Option.some.inj hwritten],
        by rw [Option.some.inj hwritten]⟩, fun m hm hm' => ?_⟩
      · rw [hindexes]
        exact (set_tables_of_ne _ _ htemporary).trans (set_tables_self ..)
      · rw [hindexes]
        simp [Database.set]
      · rw [hindexes]
        exact (set_tables_of_ne _ _ hm').trans ((set_tables_of_ne _ _ hm).trans
          ((set_tables_of_ne _ _ hm').trans (set_tables_of_ne _ _ hm)))
    · cases h₁
  · cases h₁

/-- Rebuilding the grants. -/
theorem Underway.replaceGrants (h : Underway v d₀ d) {temporary : TableName}
    (htemporary : temporary = .grantsV3 ∨ temporary = .grantsV5)
    (he : appSqlite.execAll d (replaceGrants temporary) = .ok d') : Underway v d₀ d' := by
  have hne : temporary ≠ .grants := by rcases htemporary with rfl | rfl <;> decide
  obtain ⟨t, t', ht, ht', hnone, ⟨t'', ht'', -, hrows''⟩, hother⟩ := of_replaceGrants hne he
  -- the temporary table was empty, and what it has got now are the rows of the grants
  have hnil : d.rows temporary = [] := by
    rcases htemporary with rfl | rfl
    · exact h.empty.1
    · exact h.empty.2
  have hrows : ∀ m, d'.rows m = d.rows m := by
    intro m
    by_cases hm : m = temporary
    · rw [hm, hnil, rows, hnone]
      rfl
    · by_cases hg : m = .grants
      · rw [hg, rows_of_some ht'', rows_of_some ht', hrows'', ← rows_of_some ht, hnil,
          List.nil_append]
      · exact rows_of_tables_eq (hother m hm hg)
  have hsessions : d'.tables .hitlSessions = d.tables .hitlSessions :=
    hother _ (by rcases htemporary with rfl | rfl <;> decide) (by decide)
  refine h.of_rows (fun m _ => hrows m) (sessionRows_congr hsessions) ?_ ?_ fun m hm hsome => ?_
  · rw [hother _ (by rcases htemporary with rfl | rfl <;> decide) (by decide)]
    exact h.versionDef
  · rw [hsessions]
    exact h.sessionsDef
  · rcases hm with rfl | rfl
    · rwa [hsessions]
    · rw [ht'']
      rfl

/-! ## Whatever survives -/

/-- A migration that only creates. -/
theorem durable_creates {script : List AppStatement}
    (h : ∀ s ∈ script, Creates s ∧ s.opens = false) :
    appSqlite.Durable (Underway v d₀) script :=
  .of_forall fun s hs => ⟨(h s hs).2, fun _ _ hd he => hd.creates (h s hs).1 he⟩

theorem durable_replaceGrants {temporary : TableName}
    (htemporary : temporary = .grantsV3 ∨ temporary = .grantsV5) :
    appSqlite.Durable (Underway v d₀) (BankingAgent.replaceGrants temporary ++ [.commit]) :=
  .of_transaction rfl
    (by
      intro s hs
      simp only [List.mem_cons, List.not_mem_nil, or_false] at hs
      rcases hs with rfl | rfl | rfl | rfl | rfl | rfl | rfl <;> rfl)
    rfl fun _ _ hd he => hd.replaceGrants htemporary he

/-- **Each migration** keeps all rows, wherever it is cut off. -/
theorem durable_migration (k : ℕ) : appSqlite.Durable (Underway v d₀) (migration k) := by
  match k with
  | 1 => exact durable_creates (by simp [migration, migrateV1, Creates, Statement.opens])
  | 2 => exact durable_creates (by simp [migration, migrateV2, Creates, Statement.opens])
  | 3 =>
    exact (durable_creates (by simp [Creates, Statement.opens])).append
      (durable_replaceGrants (.inl rfl))
  | 4 =>
    refine .of_forall fun s hs => ?_
    simp only [migration, migrateV4, List.mem_cons, List.not_mem_nil, or_false] at hs
    rcases hs with rfl | rfl
    · exact ⟨rfl, fun _ _ hd he => hd.addToolCallId he⟩
    · exact ⟨rfl, fun _ _ hd he => hd.creates (s := .commit) trivial he⟩
  | 5 =>
    exact (durable_creates (by simp [Creates, Statement.opens])).append
      (durable_replaceGrants (.inr rfl))
  | 6 => exact durable_creates (by simp [migration, migrateV6, Creates, Statement.opens])
  | 0 => exact .nil
  | _ + 7 => exact .nil

theorem durable_migrations (target current n : ℕ) :
    appSqlite.Durable (Underway v d₀) (migrations target current n) := by
  induction n with
  | zero => exact .nil
  | succ n ih =>
    rw [migrations, List.range_succ, List.flatMap_append]
    refine ih.append ?_
    rw [List.flatMap_singleton, migrationIf]
    split
    · exact durable_migration _
    · exact .nil

/-! ## What a second run needs -/

/-- A database of version `v` that the first `k` migrations have been through, with nothing
in the way of the next ones. -/
structure Ready (v target k : ℕ) (d₀ d : AppDb) : Prop extends Underway v d₀ d where
  hasSessions : 1 ≤ k → 1 ≤ target → (d.tables .hitlSessions).isSome
  hasGrants : 2 ≤ k → 2 ≤ target → (d.tables .grants).isSome
  noV3 : k < 3 → v < 3 → 3 ≤ target → d.tables .grantsV3 = none
  noColumn : k < 4 → v < 4 → 4 ≤ target → hasToolCallId d = false
  noV5 : k < 5 → v < 5 → 5 ≤ target → d.tables .grantsV5 = none

theorem Underway.ready {target : ℕ} (h : Underway v d₀ d) (hstale : ¬ Stale target d) :
    Ready v target 0 d₀ d where
  toUnderway := h
  hasSessions hk := absurd hk (by decide)
  hasGrants hk := absurd hk (by decide)
  noV3 _ hv ht := by
    by_contra hne
    exact hstale (.inl ⟨h.recorded ▸ hv, ht, Option.isSome_iff_ne_none.mpr hne⟩)
  noColumn _ hv ht := by
    by_contra hne
    exact hstale (.inr (.inl ⟨h.recorded ▸ hv, ht, eq_true_of_ne_false hne⟩))
  noV5 _ hv ht := by
    by_contra hne
    exact hstale (.inr (.inr ⟨h.recorded ▸ hv, ht, Option.isSome_iff_ne_none.mpr hne⟩))

/-- The tables the first `n` migrations do not write. -/
theorem not_mem_writes {target current n : ℕ} {m : TableName}
    (hm : ∀ k, k ≤ n → ∀ s ∈ migration k, m ∉ s.writes) :
    ∀ s ∈ migrations target current n, m ∉ s.writes := by
  intro s hs
  obtain ⟨k, hk, hs⟩ := List.mem_flatMap.mp hs
  rw [migrationIf] at hs
  split at hs
  · exact hm (k + 1) (List.mem_range.mp hk) s hs
  · exact absurd hs List.not_mem_nil

theorem grantsV3_not_written : ∀ k, k ≤ 2 → ∀ s ∈ migration k, .grantsV3 ∉ s.writes := by
  decide

theorem sessions_not_written : ∀ k, k ≤ 3 → ∀ s ∈ migration k, .hitlSessions ∉ s.writes := by
  decide

theorem grantsV5_not_written : ∀ k, k ≤ 4 → ∀ s ∈ migration k, .grantsV5 ∉ s.writes := by
  decide

theorem migrations_succ (target current n : ℕ) :
    migrations target current (n + 1) =
      migrations target current n ++ migrationIf target current (n + 1) := by
  rw [migrations, List.range_succ, List.flatMap_append, List.flatMap_singleton]
  rfl

/-- A run of all migrations goes through the first ones. -/
theorem execAll_migrations_le {target current m n : ℕ} (hle : n ≤ m)
    (h : ∃ d', appSqlite.execAll d (migrations target current m) = .ok d') :
    ∃ d', appSqlite.execAll d (migrations target current n) = .ok d' := by
  induction m, hle using Nat.le_induction with
  | base => exact h
  | succ m _ ih =>
    obtain ⟨d', h⟩ := h
    rw [migrations_succ] at h
    obtain ⟨d₁, h₁, -⟩ := Engine.execAll_append_ok h
    exact ih ⟨d₁, h₁⟩

/-! ## A stale database cannot be opened -/

/-- **What stands in the way** makes the second run fail. -/
theorem Underway.not_execAll {target : ℕ} (hstale : Stale target d) :
    ¬ ∃ d', appSqlite.execAll d (migrations target (recordedVersion d) 6) = .ok d' := by
  intro hall
  rcases hstale with ⟨hv, ht, hsome⟩ | ⟨hv, ht, hcolumn⟩ | ⟨hv, ht, hsome⟩
  · obtain ⟨d', h⟩ := execAll_migrations_le (n := 3) (by decide) hall
    rw [migrations_succ, migrationIf, if_pos ⟨hv, ht⟩] at h
    obtain ⟨d₁, h₁, h⟩ := Engine.execAll_append_ok h
    obtain ⟨t, htable⟩ := Option.isSome_iff_exists.mp hsome
    have hkept := execAll_keeps (not_mem_writes grantsV3_not_written) htable h₁
    obtain ⟨d₂, h₂, h⟩ := Engine.execAll_cons_ok h
    obtain ⟨d₃, h₃, -⟩ := Engine.execAll_cons_ok h
    rw [tables_of_query h₂, show appSqlite.exec d₁ _ = d₁.exec _ from rfl, exec, hkept] at h₃
    cases h₃
  · obtain ⟨d', h⟩ := execAll_migrations_le (n := 4) (by decide) hall
    rw [migrations_succ, migrationIf, if_pos ⟨hv, ht⟩] at h
    obtain ⟨d₁, h₁, h⟩ := Engine.execAll_append_ok h
    obtain ⟨d₂, h₂, -⟩ := Engine.execAll_cons_ok h
    rw [hasToolCallId] at hcolumn
    cases htable : d.tables .hitlSessions with
    | none => rw [htable] at hcolumn; cases hcolumn
    | some t =>
      rw [htable] at hcolumn
      have hkept := execAll_keeps (not_mem_writes sessions_not_written) htable h₁
      obtain ⟨t', -, ht', hnone, -⟩ := exec_addColumn h₂
      rw [hkept] at ht'
      rw [← Option.some.inj ht'] at hnone
      exact absurd hcolumn (Bool.eq_false_iff.mp hnone)
  · obtain ⟨d', h⟩ := execAll_migrations_le (n := 5) (by decide) hall
    rw [migrations_succ, migrationIf, if_pos ⟨hv, ht⟩] at h
    obtain ⟨d₁, h₁, h⟩ := Engine.execAll_append_ok h
    obtain ⟨t, htable⟩ := Option.isSome_iff_exists.mp hsome
    have hkept := execAll_keeps (not_mem_writes grantsV5_not_written) htable h₁
    obtain ⟨d₂, h₂, -⟩ := Engine.execAll_cons_ok h
    rw [show appSqlite.exec d₁ _ = d₁.exec _ from rfl, exec, hkept] at h₂
    cases h₂

/-! ## What is not stale can be opened -/

/-- Constraints on fewer statuses are stronger. -/
theorem grantsDef_mono {statuses statuses' : List String} (h : ∀ s ∈ statuses, s ∈ statuses')
    {rows : List Row} (hvalid : (grantsDef statuses).Valid rows) :
    (grantsDef statuses').Valid rows where
  fits row hrow := by
    obtain ⟨hlength, haccepts⟩ := hvalid.fits row hrow
    refine ⟨hlength, fun cv hcv => ?_⟩
    obtain ⟨i, hi, rfl⟩ := List.mem_iff_getElem.mp hcv
    have hi' : i < ((grantsDef statuses).columns.zip row).length := by
      rw [List.length_zip] at hi ⊢
      exact hi
    have hold := haccepts _ (List.getElem_mem hi')
    rw [List.getElem_zip] at hold ⊢
    have hlt : i < 20 := by
      rw [List.length_zip] at hi
      exact lt_of_lt_of_le hi (Nat.min_le_left _ _)
    by_cases h12 : i = 12
    · subst h12
      -- the column of the status: its text is one of those allowed before
      simp only [grantsDef, grantsColumns, oneOf, Column.accepts, List.getElem_cons_succ,
        List.getElem_cons_zero, Bool.and_eq_true, List.any_eq_true, decide_eq_true_eq] at hold ⊢
      obtain ⟨hnull, s, hs, heq⟩ := hold
      exact ⟨hnull, s, h s hs, heq⟩
    · have hsame : (grantsDef statuses').columns.get ⟨i, hlt⟩ =
          (grantsDef statuses).columns.get ⟨i, hlt⟩ := by
        interval_cases i <;> first | rfl | exact absurd rfl h12
      simp only [List.get_eq_getElem] at hsame
      rw [hsame]
      exact hold
  distinct := hvalid.distinct

/-- The transaction of a rebuild succeeds where the rows satisfy the new constraints. -/
theorem replaceGrants_ok {temporary : TableName} {statuses : List String} {t t' : Relation}
    (htemporary : temporary ≠ .grants) (ht : d.tables temporary = some t)
    (hschema : t.schema = grantsDef statuses) (hnil : t.rows = [])
    (ht' : d.tables .grants = some t') (hvalid : (grantsDef statuses).Valid t'.rows) :
    ∃ d', appSqlite.execAll d (replaceGrants temporary) = .ok d' := by
  have hrows : t.schema.Valid (t.rows ++ t'.rows) := by
    rw [hschema, hnil, List.nil_append]
    exact hvalid
  refine Engine.execAll_cons_of_ok (exec_insertSelect_ok ht ht' hrows) ?_
  refine Engine.execAll_cons_of_ok (exec_dropTable_ok (t := t')
    ((set_tables_of_ne d _ htemporary.symm).trans ht')) ?_
  refine Engine.execAll_cons_of_ok (exec_renameTable_ok (t := ⟨t.schema, _, hrows⟩) ?_ ?_) ?_
  · exact (set_tables_of_ne _ none htemporary).trans (set_tables_self d _ (some _))
  · simp [Database.set]
  · refine execAll_createIndex_ok (n := TableName.grants) (t := ⟨t.schema, _, hrows⟩)
      [("idx_grants_session", none), ("idx_grants_status", none),
        ("idx_grants_expires", none), ("idx_grants_idem_key", some 10)] ?_ ?_
    · simp [Database.set]
    · intro i hi column hcolumn
      simp only [List.mem_cons, List.not_mem_nil, or_false] at hi
      rcases hi with rfl | rfl | rfl | rfl <;> cases hcolumn
      refine hrows.distinct [10] ?_
      rw [hschema]
      exact List.mem_cons_of_mem _ List.mem_cons_self

theorem duplicates_eq_nil {values : List Value} (h : values.Nodup) : duplicates values = [] := by
  have hfilter : (values.filter fun v => 1 < values.count v) = [] :=
    List.filter_eq_nil_iff.mpr fun v _ => by simpa using List.nodup_iff_count_le_one.mp h v
  rw [duplicates, hfilter, List.dedup_nil]

/-- Rows with the constraints of v3 pass the queries of `_migrate_v3`. -/
theorem duplicateGrants_eq_none (h : grantsV3Def.Valid (d.rows .grants)) :
    duplicateGrants d = none := by
  have hsessions := h.nodup_col (i := 0) rfl rfl List.mem_cons_self
  have hkeys := h.nodup_col (i := 10) rfl rfl (List.mem_cons_of_mem _ List.mem_cons_self)
  rw [duplicateGrants, duplicates_eq_nil hsessions, duplicates_eq_nil (hkeys.filter _)]
  rfl

/-- No migration up to v3 gives the sessions the new column. -/
theorem hasToolCallId_exec {s : AppStatement} (hs : Creates s ∨
      .hitlSessions ∉ s.writes ∧ .hitlSessions ∉ s.creates)
    (hcolumn : hasToolCallId d = false) (he : d.exec s = .ok d') : hasToolCallId d' = false := by
  by_cases hframe : .hitlSessions ∉ s.writes ∧ .hitlSessions ∉ s.creates
  · rw [hasToolCallId_congr (exec_frame hframe.1 hframe.2 he), hcolumn]
  · have hs := hs.resolve_right hframe
    cases s with
    | createTable ifNotExists n schema =>
      cases htable : d.tables .hitlSessions with
      | some t =>
        rw [hasToolCallId_congr ((exec_createTable he).2.1 _ (by rw [htable]; rfl)), hcolumn]
      | none =>
        obtain rfl : n = .hitlSessions := by
          simpa [Statement.writes, Statement.creates, eq_comm] using hframe
        rw [exec, htable] at he
        cases he
        rw [hasToolCallId, set_tables_self, hs.2 rfl]
        decide
    | createIndex | query | commit =>
      exact absurd ⟨List.not_mem_nil, List.not_mem_nil⟩ hframe
    | dropTable | renameTable | addColumn | insertSelect | insertOrReplace => exact hs.elim

/-- A rebuild of the grants goes through if the temporary table does not exist and the rows
satisfy its constraints. -/
theorem rebuild_ok {temporary : TableName} {statuses : List String}
    (htemporary : temporary ≠ .grants) (hnone : d.tables temporary = none)
    (hsome : (d.tables .grants).isSome) (hvalid : (grantsDef statuses).Valid (d.rows .grants)) :
    ∃ d', appSqlite.execAll d (.createTable false temporary (grantsDef statuses) ::
        (replaceGrants temporary ++ [.commit])) = .ok d' ∧
      (d'.tables .grants).isSome ∧
      ∀ m, m ≠ temporary → m ≠ .grants → d'.tables m = d.tables m := by
  obtain ⟨t', ht'⟩ := Option.isSome_iff_exists.mp hsome
  rw [rows_of_some ht'] at hvalid
  have hcreate : d.exec (.createTable false temporary (grantsDef statuses)) =
      .ok (d.set temporary (some ⟨grantsDef statuses, [], TableDef.valid_nil _⟩)) := by
    rw [exec, hnone]
  obtain ⟨d₁, h₁⟩ := replaceGrants_ok (t := ⟨grantsDef statuses, [], TableDef.valid_nil _⟩)
    htemporary (set_tables_self d temporary (some _)) rfl rfl
    ((set_tables_of_ne d _ htemporary.symm).trans ht') hvalid
  obtain ⟨-, -, -, -, -, ⟨t'', ht'', -⟩, hother⟩ := of_replaceGrants htemporary h₁
  refine ⟨d₁, ?_, by rw [ht'']; rfl, fun m hm hm' => ?_⟩
  · rw [Engine.execAll_cons, show appSqlite.exec d _ = d.exec _ from rfl, hcreate]
    exact (Engine.execAll_append_of_ok h₁).trans rfl
  · exact (hother m hm hm').trans (set_tables_of_ne d _ hm)

/-- The first migration creates the tables that are missing. -/
theorem Ready.step1 {target : ℕ} (h : Ready v target 0 d₀ d) :
    ∃ d', appSqlite.execAll d migrateV1 = .ok d' ∧ Ready v target 1 d₀ d' := by
  obtain ⟨d', he⟩ : ∃ d', appSqlite.execAll d migrateV1 = .ok d' :=
    execAll_ok_of_createsOn [] (by simp [migrateV1, CreatesOn]) nofun
  have hv3 : d'.tables .grantsV3 = d.tables .grantsV3 :=
    execAll_frame (by decide) he
  have hv5 : d'.tables .grantsV5 = d.tables .grantsV5 :=
    execAll_frame (by decide) he
  refine ⟨d', he, (durable_migration 1).execAll h.toUnderway he, fun _ _ => ?_,
    fun hk => absurd hk (by decide), fun _ hv ht => hv3.trans (h.noV3 (by decide) hv ht),
    fun _ hv ht => ?_,
    fun _ hv ht => hv5.trans (h.noV5 (by decide) hv ht)⟩
  · exact execAll_isSome (migrateV1.take 4) (migrateV1.drop 5)
      (by simp [migrateV1, Statement.writes]) he
  · refine Engine.execAll_keeps (P := fun e : AppDb => hasToolCallId e = false)
      (fun s hs _ _ hc hexec => hasToolCallId_exec (.inl ?_) hc hexec)
      (h.noColumn (by decide) hv ht) he
    simp only [migrateV1, List.mem_cons, List.not_mem_nil, or_false] at hs
    rcases hs with rfl | rfl | rfl | rfl | rfl | rfl | rfl | rfl | rfl | rfl <;> simp [Creates]

/-- The second one creates the table of grants if it is missing. -/
theorem Ready.step2 {target : ℕ} (h : Ready v target 1 d₀ d) :
    ∃ d', appSqlite.execAll d migrateV2 = .ok d' ∧ Ready v target 2 d₀ d' := by
  obtain ⟨d', he⟩ : ∃ d', appSqlite.execAll d migrateV2 = .ok d' :=
    execAll_ok_of_createsOn [] (by simp [migrateV2, CreatesOn]) nofun
  have hother : ∀ m, m ≠ .grants → d'.tables m = d.tables m := fun m hm =>
    execAll_frame (by simp [migrateV2, Statement.writes, Statement.creates, hm]) he
  refine ⟨d', he, (durable_migration 2).execAll h.toUnderway he, fun _ ht => ?_, fun _ _ => ?_,
    fun _ hv ht => (hother _ (by decide)).trans (h.noV3 (by decide) hv ht), fun _ hv ht => ?_,
    fun _ hv ht => (hother _ (by decide)).trans (h.noV5 (by decide) hv ht)⟩
  · rw [hother _ (by decide)]
    exact h.hasSessions (by decide) ht
  · exact execAll_isSome [] (migrateV2.drop 1)
      (by simp [migrateV2, Statement.writes]) he
  · exact (hasToolCallId_congr (hother _ (by decide))).trans (h.noColumn (by decide) hv ht)

/-- The third one builds the table of grants anew. -/
theorem Ready.step3 {target : ℕ} (h : Ready v target 2 d₀ d) (hv : v ≤ 2)
    (ht : 3 ≤ target) :
    ∃ d', appSqlite.execAll d migrateV3 = .ok d' ∧ Ready v target 3 d₀ d' := by
  have hvalid : grantsV3Def.Valid (d.rows .grants) := h.grantsValid (by omega)
  obtain ⟨d', he, hgrants, hother⟩ := rebuild_ok (by decide) (h.noV3 (by decide) (by omega) ht)
    (h.hasGrants (by decide) (by omega)) hvalid
  have he : appSqlite.execAll d migrateV3 = .ok d' := by
    have hquery : d.exec (.query duplicateGrants) = .ok d := by
      rw [exec, duplicateGrants_eq_none hvalid]
    have hquery' : appSqlite.execAll d [.query duplicateGrants] = .ok d :=
      congrArg (fun r => r.bind .ok) hquery
    exact (Engine.execAll_append_of_ok hquery').trans he
  refine ⟨d', he, (durable_migration 3).execAll h.toUnderway he, fun _ ht => ?_, fun _ _ => hgrants,
    fun hk => absurd hk (by decide), fun _ hv ht => ?_, fun _ hv ht => ?_⟩
  · rw [hother _ (by decide) (by decide)]
    exact h.hasSessions (by decide) ht
  · exact (hasToolCallId_congr (hother _ (by decide) (by decide))).trans
      (h.noColumn (by decide) hv ht)
  · exact (hother _ (by decide) (by decide)).trans (h.noV5 (by decide) hv ht)

/-- The fourth one adds a column to the sessions. -/
theorem Ready.step4 {target : ℕ} (h : Ready v target 3 d₀ d) (hv : v ≤ 3)
    (ht : 4 ≤ target) :
    ∃ d', appSqlite.execAll d migrateV4 = .ok d' ∧ Ready v target 4 d₀ d' := by
  obtain ⟨t, htable⟩ := Option.isSome_iff_exists.mp (h.hasSessions (by decide) (by omega))
  have hcolumn := h.noColumn (by decide) (by omega) ht
  have hunique : ∀ columns ∈ t.schema.unique, ∀ i ∈ columns, i < t.schema.columns.length := by
    rcases h.sessionsDef t htable with hdef | hdef <;> rw [hdef] <;> decide
  rw [hasToolCallId, htable] at hcolumn
  obtain ⟨d', he⟩ := exec_addColumn_ok (.text "") htable hcolumn (by decide) hunique
  have hother : ∀ m, m ≠ .hitlSessions → d'.tables m = d.tables m := fun m hm =>
    exec_frame (by simpa [Statement.writes] using hm) (by simp [Statement.creates]) he
  obtain ⟨-, t', -, -, -, -, hset⟩ := exec_addColumn he
  have he : appSqlite.execAll d migrateV4 = .ok d' := by
    rw [migrateV4, Engine.execAll_cons, show appSqlite.exec d _ = d.exec _ from rfl, he]
    rfl
  refine ⟨d', he, (durable_migration 4).execAll h.toUnderway he, fun _ _ => ?_, fun _ ht => ?_,
    fun hk => absurd hk (by decide), fun hk => absurd hk (by decide), fun _ hv ht => ?_⟩
  · rw [hset, set_tables_self]
    rfl
  · rw [hother _ (by decide)]
    exact h.hasGrants (by decide) ht
  · exact (hother _ (by decide)).trans (h.noV5 (by decide) hv ht)

/-- The fifth one builds the table of grants anew once more. -/
theorem Ready.step5 {target : ℕ} (h : Ready v target 4 d₀ d) (hv : v ≤ 4)
    (ht : 5 ≤ target) :
    ∃ d', appSqlite.execAll d migrateV5 = .ok d' ∧ Ready v target 5 d₀ d' := by
  have hvalid : grantsV5Def.Valid (d.rows .grants) :=
    grantsDef_mono (fun s hs => List.mem_append_left _ hs) (h.grantsValid (by omega))
  obtain ⟨d', he, hgrants, hother⟩ := rebuild_ok (by decide) (h.noV5 (by decide) (by omega) ht)
    (h.hasGrants (by decide) (by omega)) hvalid
  refine ⟨d', he, (durable_migration 5).execAll h.toUnderway he, fun _ ht => ?_, fun _ _ => hgrants,
    fun hk => absurd hk (by decide), fun hk => absurd hk (by decide),
    fun hk => absurd hk (by decide)⟩
  rw [hother _ (by decide) (by decide)]
  exact h.hasSessions (by decide) ht

/-- The last one creates its table if it is missing. -/
theorem Ready.step6 {target : ℕ} (h : Ready v target 5 d₀ d) :
    ∃ d', appSqlite.execAll d migrateV6 = .ok d' ∧ Ready v target 6 d₀ d' := by
  obtain ⟨d', he⟩ : ∃ d', appSqlite.execAll d migrateV6 = .ok d' :=
    execAll_ok_of_createsOn [] (by simp [migrateV6, CreatesOn]) nofun
  have hother : ∀ m, m ≠ .channelWrites → d'.tables m = d.tables m := fun m hm =>
    execAll_frame (by simp [migrateV6, Statement.writes, Statement.creates, hm]) he
  refine ⟨d', he, (durable_migration 6).execAll h.toUnderway he, fun _ ht => ?_, fun _ ht => ?_,
    fun hk => absurd hk (by decide), fun hk => absurd hk (by decide),
    fun hk => absurd hk (by decide)⟩
  · rw [hother _ (by decide)]
    exact h.hasSessions (by decide) ht
  · rw [hother _ (by decide)]
    exact h.hasGrants (by decide) ht

/-- **One migration** on a database that is ready for it. -/
theorem Ready.step {target k : ℕ} (h : Ready v target k d₀ d) (hk : k < 6) (hv : v ≤ k)
    (ht : k + 1 ≤ target) :
    ∃ d', appSqlite.execAll d (migration (k + 1)) = .ok d' ∧ Ready v target (k + 1) d₀ d' := by
  interval_cases k
  · exact h.step1
  · exact h.step2
  · exact h.step3 hv ht
  · exact h.step4 hv ht
  · exact h.step5 hv ht
  · exact h.step6

/-- A migration that is not pending changes nothing. -/
theorem Ready.skip {target k : ℕ} (h : Ready v target k d₀ d) (hk : ¬ (v < k + 1 ∧ k + 1 ≤ target)) :
    Ready v target (k + 1) d₀ d where
  toUnderway := h.toUnderway
  hasSessions _ ht := by
    by_cases hv : 1 ≤ v
    · exact h.sessions hv
    · exact h.hasSessions (by omega) ht
  hasGrants _ ht := by
    by_cases hv : 2 ≤ v
    · exact h.grants hv
    · exact h.hasGrants (by omega) ht
  noV3 hk := h.noV3 (Nat.lt_of_succ_lt hk)
  noColumn hk := h.noColumn (Nat.lt_of_succ_lt hk)
  noV5 hk := h.noV5 (Nat.lt_of_succ_lt hk)

/-- **All migrations** on a database that is ready for them. -/
theorem Ready.run {target : ℕ} (h : Ready v target 0 d₀ d) :
    ∀ n ≤ 6, ∃ d', appSqlite.execAll d (migrations target v n) = .ok d' ∧
      Ready v target n d₀ d' := by
  intro n
  induction n with
  | zero => exact fun _ => ⟨d, rfl, h⟩
  | succ n ih =>
    intro hn
    obtain ⟨d₁, h₁, hready⟩ := ih (Nat.le_of_succ_le hn)
    rw [migrations_succ, Engine.execAll_append_of_ok h₁, migrationIf]
    split
    · rename_i hk
      exact hready.step hn (Nat.le_of_lt_succ hk.1) hk.2
    · rename_i hk
      exact ⟨d₁, rfl, hready.skip hk⟩

/-! ## Recording the version -/

theorem foldl_max_le_iff {l : List ℕ} {m b : ℕ} :
    l.foldl max m ≤ b ↔ m ≤ b ∧ ∀ n ∈ l, n ≤ b := by
  induction l generalizing m with
  | nil => simp
  | cons n l ih => simp [ih, and_assoc]

/-- The version that is recorded last is the highest one. -/
theorem recordedVersion_of_rows {target : ℕ} {rows : List Row}
    (hrows : d'.rows .schemaVersion = rows ++ [[Value.int target]])
    (hle : ∀ row ∈ rows, row ∈ d.rows .schemaVersion) (hd : recordedVersion d ≤ target) :
    recordedVersion d' = target := by
  rw [recordedVersion, hrows, List.map_append, List.foldl_append]
  refine le_antisymm (Nat.max_le.mpr ⟨foldl_max_le_iff.mpr ⟨Nat.zero_le _, fun n hn => ?_⟩, ?_⟩)
    (Nat.le_max_right _ _)
  · obtain ⟨row, hrow, rfl⟩ := List.mem_map.mp hn
    exact (foldl_max_le_iff.mp hd).2 _ (List.mem_map_of_mem (hle row hrow))
  · simp [Row.col]

/-- Recording a version keeps all rows. -/
theorem of_recordVersion {target : ℕ} (hd : recordedVersion d ≤ target)
    (he : d.exec (.insertOrReplace .schemaVersion [.int target]) = .ok d') :
    recordedVersion d' = target ∧ KeepsRows d d' := by
  rw [exec] at he
  split at he
  · cases he
  · rename_i t ht
    split at he <;> cases he
    rename_i hvalid
    have hother : ∀ m, m ≠ .schemaVersion →
        (d.set .schemaVersion (some ⟨t.schema, _, hvalid⟩)).tables m = d.tables m :=
      fun m hm => set_tables_of_ne d _ hm
    have hrows := fun m hm => rows_of_tables_eq (hother m hm)
    refine ⟨recordedVersion_of_rows (rows_of_some (set_tables_self ..)) (fun row hrow => ?_) hd,
      ⟨hrows _ (by decide), hrows _ (by decide), hrows _ (by decide), hrows _ (by decide),
        hrows _ (by decide), sessionRows_congr (hother _ (by decide))⟩⟩
    rw [rows_of_some ht]
    exact List.mem_of_mem_filter hrow

/-- A version can be recorded in the table that is there for it. -/
theorem recordVersion_ok (target : ℕ) {t : Relation} (ht : d.tables .schemaVersion = some t)
    (hdef : t.schema = schemaVersionDef) :
    ∃ d', d.exec (.insertOrReplace .schemaVersion [.int target]) = .ok d' := by
  have hvalid : t.schema.Valid
      (t.rows.filter (fun r => r.col 0 ≠ Row.col [.int target] 0) ++ [[.int target]]) := by
    obtain ⟨schema, rows, hrows⟩ := t
    obtain rfl : schema = schemaVersionDef := hdef
    refine ⟨fun row hrow => ?_, fun columns hcolumns => ?_⟩
    · rcases List.mem_append.mp hrow with hrow | hrow
      · exact hrows.fits row (List.mem_of_mem_filter hrow)
      · rw [List.mem_singleton.mp hrow]
        exact ⟨rfl, fun cv hcv => by rw [List.mem_singleton.mp hcv]; rfl⟩
    · obtain rfl : columns = [0] := List.mem_singleton.mp hcolumns
      have hold := hrows.distinct [0] List.mem_cons_self
      rw [Distinct] at hold ⊢
      rw [List.map_append, List.filter_append]
      refine List.nodup_append.mpr ⟨hold.sublist ?_, ?_, ?_⟩
      · exact (List.filter_sublist.map _).filter _
      · exact (List.nodup_singleton _).filter _
      · -- the row that had this version has gone
        rintro a ha b hb rfl
        obtain ⟨row, hrow, rfl⟩ := List.mem_map.mp (List.mem_of_mem_filter ha)
        obtain hb := List.mem_singleton.mp (List.mem_of_mem_filter hb)
        have hne := (List.mem_filter.mp hrow).2
        simp only [List.map_cons, List.map_nil, List.cons.injEq, and_true] at hb
        exact absurd hb (by simpa using hne)
  rw [exec, ht]
  exact ⟨_, dif_pos hvalid⟩

/-! ## The second run -/

theorem KeepsRows.trans {d₁ d₂ d₃ : AppDb} (h : KeepsRows d₁ d₂) (h' : KeepsRows d₂ d₃) :
    KeepsRows d₁ d₃ :=
  ⟨h'.events.trans h.events, h'.checkpoints.trans h.checkpoints,
    h'.idempotencyRecords.trans h.idempotencyRecords, h'.grants.trans h.grants,
    h'.channelWrites.trans h.channelWrites, h'.sessions.trans h.sessions⟩

/-- A database is on the way from its own version. -/
theorem IsVersion.underway {v : ℕ} {d : AppDb} (h : IsVersion v d) : Underway v d d := by
  have hschema : ∀ n t, d.tables n = some t → schemaAt v n = some t.schema := fun n t ht => by
    rw [← h.tables n, ht, Option.map_some]
  have hsome : ∀ n, (schemaAt v n).isSome → (d.tables n).isSome := fun n hn => by
    rwa [← h.tables n, Option.isSome_map] at hn
  have hnone : ∀ n, schemaAt v n = none → d.rows n = [] := fun n hn => by
    rw [← h.tables n, Option.map_eq_none_iff] at hn
    rw [rows, hn]
    rfl
  refine ⟨h.recorded, ⟨rfl, rfl, rfl, rfl, rfl, rfl⟩, fun t ht => ?_, fun t ht => ?_,
    ⟨hnone _ rfl, hnone _ rfl⟩, fun hv => ?_, fun hv => hsome _ ?_, fun hv => hsome _ ?_⟩
  · have hs := hschema _ t ht
    rw [schemaAt] at hs
    split_ifs at hs
    exact (Option.some.inj hs).symm
  · have hs := hschema _ t ht
    simp only [schemaAt] at hs
    split_ifs at hs
    · exact .inl (Option.some.inj hs).symm
    · exact .inr (Option.some.inj hs).symm
  · by_cases h3 : v < 3
    · exact h.grants h3
    · cases ht : d.tables .grants with
      | none =>
        rw [rows, ht]
        exact TableDef.valid_nil _
      | some t =>
        have hs := hschema _ t ht
        rw [schemaAt, if_neg (by omega), if_neg h3, if_pos hv] at hs
        rw [rows_of_some ht, Option.some.inj hs]
        exact t.valid
  · rw [schemaAt, if_neg (by omega)]
    split <;> rfl
  · rw [schemaAt, if_neg (by omega)]
    split_ifs <;> rfl

/-- The script, after the table of the version. -/
theorem execAll_initScript (target current : ℕ) :
    appSqlite.execAll d (initScript target current) =
      (d.exec (.createTable true .schemaVersion schemaVersionDef)).bind fun d₁ =>
        (appSqlite.execAll d₁ (migrations target current 6)).bind fun d₂ =>
          appSqlite.execAll d₂ (recordVersion target current) := by
  rw [initScript, Engine.execAll_cons]
  exact congrArg _ (funext fun d₁ => Engine.execAll_append)

/-- Creating the table of the version does not change what is stale. -/
theorem stale_createVersion {target : ℕ}
    (he : d.exec (.createTable true .schemaVersion schemaVersionDef) = .ok d') :
    Stale target d' ↔ Stale target d := by
  obtain ⟨hrows, -, -, hother⟩ := exec_createTable he
  rw [Stale, Stale, recordedVersion_congr (hrows _), hother _ (by decide), hother _ (by decide),
    hasToolCallId_congr (hother _ (by decide))]

/-- The table of the version and the migrations keep all rows. -/
theorem durable_first (target current : ℕ) : appSqlite.Durable (Underway v d₀)
    ([.createTable true .schemaVersion schemaVersionDef] ++ migrations target current 6) :=
  (durable_creates (by simp [Creates, Statement.opens])).append (durable_migrations ..)

/-- **The end of a run**: the version is recorded, and all rows are there. -/
theorem Underway.run {target : ℕ} (h : Underway v d₀ d) (hv : v ≤ target) {c : Conn AppDb}
    (hrun : appSqlite.run (.fresh d) (initScript target v) = .ok c) :
    recordedVersion c.stored = target ∧ KeepsRows d₀ c.stored := by
  rw [show initScript target v = ([.createTable true .schemaVersion schemaVersionDef] ++
    migrations target v 6) ++ recordVersion target v from rfl, Engine.run_append] at hrun
  cases hfirst : appSqlite.run (.fresh d) ([.createTable true .schemaVersion schemaVersionDef] ++
    migrations target v 6) with
  | error e => rw [hfirst] at hrun; cases hrun
  | ok c₁ =>
    rw [hfirst] at hrun
    obtain ⟨d₁, rfl, h₁⟩ := (durable_first target v).run d c₁ h hfirst
    change appSqlite.run (.fresh d₁) (recordVersion target v) = .ok c at hrun
    rw [recordVersion] at hrun
    split at hrun
    · obtain ⟨d₂, rfl, h₂⟩ := (Engine.survives_transaction (E := appSqlite) (c := .fresh d₁)
        [.insertOrReplace .schemaVersion [.int target]] .commit
        (fun s hs => by rw [List.mem_singleton.mp hs]; rfl) rfl (.inr ⟨_, _, rfl, rfl⟩)).2 c hrun
      obtain ⟨d₃, hinsert, hend⟩ := Engine.execAll_cons_ok h₂
      cases hend
      obtain ⟨hrecorded, hkeeps⟩ := of_recordVersion (h₁.recorded.le.trans hv) hinsert
      exact ⟨hrecorded, h₁.keeps.trans hkeeps⟩
    · cases hrun
      exact ⟨h₁.recorded.trans (by omega), h₁.keeps⟩

/-- **What survives** a crash: a database on the way, or one at the end of it. -/
theorem Underway.of_survives {target : ℕ} (h : Underway v d₀ d) (hv : v ≤ target)
    (hsurvives : appSqlite.Survives (.fresh d) (initScript target v) d') :
    Underway v d₀ d' ∨ recordedVersion d' = target ∧ KeepsRows d₀ d' := by
  rw [show initScript target v = ([.createTable true .schemaVersion schemaVersionDef] ++
    migrations target v 6) ++ recordVersion target v from rfl] at hsurvives
  rcases hsurvives.append with hfirst | ⟨c₁, hrun, hsecond⟩
  · exact .inl ((durable_first target v).survives d d' h hfirst)
  · obtain ⟨d₁, rfl, h₁⟩ := (durable_first target v).run d c₁ h hrun
    rw [recordVersion] at hsecond
    split at hsecond
    · rcases (Engine.survives_transaction (E := appSqlite) (c := .fresh d₁)
        [.insertOrReplace .schemaVersion [.int target]] .commit
        (fun s hs => by rw [List.mem_singleton.mp hs]; rfl) rfl (.inr ⟨_, _, rfl, rfl⟩)).1 d'
          hsecond with rfl | h₂
      · exact .inl h₁
      · obtain ⟨d₃, hinsert, hend⟩ := Engine.execAll_cons_ok h₂
        cases hend
        obtain ⟨hrecorded, hkeeps⟩ := of_recordVersion (h₁.recorded.le.trans hv) hinsert
        exact .inr ⟨hrecorded, h₁.keeps.trans hkeeps⟩
    · cases hsecond
      exact .inl h₁

theorem schemaVersion_not_written : ∀ k, k ≤ 6 → ∀ s ∈ migration k, .schemaVersion ∉ s.writes := by
  decide

/-- A database on the way that is not stale can be opened. -/
theorem Underway.execAll_ok {target : ℕ} (h : Underway v d₀ d) (hstale : ¬ Stale target d) :
    ∃ d', appSqlite.execAll d (initScript target v) = .ok d' := by
  obtain ⟨d₁, h₁⟩ := exec_createTable_ok (d := d) (n := TableName.schemaVersion) schemaVersionDef
  have hunderway : Underway v d₀ d₁ := h.creates (by simp [Creates]) h₁
  have hready := hunderway.ready fun hs => hstale ((stale_createVersion h₁).mp hs)
  obtain ⟨d₂, h₂, hready₂⟩ := hready.run 6 (Nat.le_refl 6)
  rw [execAll_initScript, h₁]
  change ∃ d', (appSqlite.execAll d₁ (migrations target v 6)).bind _ = .ok d'
  rw [h₂]
  change ∃ d', appSqlite.execAll d₂ (recordVersion target v) = .ok d'
  rw [recordVersion]
  split
  · obtain ⟨t, ht⟩ := Option.isSome_iff_exists.mp (exec_createTable h₁).2.2.1
    have ht₂ := execAll_keeps (not_mem_writes schemaVersion_not_written) ht h₂
    obtain ⟨d₃, h₃⟩ := recordVersion_ok target ht₂ (hready₂.versionDef t ht₂)
    exact Engine.execAll_cons_of_ok h₃ ⟨d₃, rfl⟩
  · exact ⟨d₂, rfl⟩

/-- A database on the way can be opened exactly if it is not stale. -/
theorem Underway.restarts {target : ℕ} (h : Underway v d₀ d) (hv : v ≤ target) :
    Restarts target d₀ d ↔ ¬ Stale target d := by
  have hinit : initDatabase target d = appSqlite.run (.fresh d) (initScript target v) := by
    rw [initDatabase, h.recorded, if_neg (by omega)]
  constructor
  · rintro ⟨c, hc, -⟩ hstale
    rw [hinit] at hc
    have hall := Engine.execAll_of_run hc
    obtain ⟨d₁, h₁, hall⟩ := Engine.execAll_cons_ok hall
    obtain ⟨d₂, h₂, -⟩ := Engine.execAll_append_ok hall
    have hrecorded : recordedVersion d₁ = v :=
      (recordedVersion_congr ((exec_createTable h₁).1 _)).trans h.recorded
    exact Underway.not_execAll ((stale_createVersion h₁).mpr hstale) ⟨d₂, by rwa [hrecorded]⟩
  · intro hstale
    obtain ⟨d', h'⟩ := h.execAll_ok hstale
    obtain ⟨c, hrun, -⟩ := Engine.run_of_execAll (c := .fresh d) h'
    exact ⟨c, hinit.trans hrun, h.run hv hrun⟩

theorem migrations_self (target n : ℕ) : migrations target target n = [] := by
  induction n with
  | zero => rfl
  | succ n ih =>
    rw [migrations_succ, ih, migrationIf, if_neg (by omega)]
    rfl

/-- A database of the version in question is opened as it is. -/
theorem restarts_of_recorded {target : ℕ} (hrecorded : recordedVersion d = target)
    (hkeeps : KeepsRows d₀ d) : Restarts target d₀ d := by
  have hscript : initScript target target = [.createTable true .schemaVersion schemaVersionDef] := by
    rw [initScript, migrations_self, recordVersion, if_neg (Nat.lt_irrefl _)]
    rfl
  obtain ⟨d₁, h₁⟩ := exec_createTable_ok (d := d) (n := TableName.schemaVersion) schemaVersionDef
  have hall : appSqlite.execAll d [.createTable true .schemaVersion schemaVersionDef] = .ok d₁ := by
    rw [Engine.execAll_cons, show appSqlite.exec d _ = d.exec _ from rfl, h₁]
    rfl
  obtain ⟨c, hrun, -⟩ := Engine.run_of_execAll (c := .fresh d) hall
  refine ⟨c, ?_, ?_⟩
  · rw [initDatabase, hrecorded, if_neg (Nat.lt_irrefl _), hscript]
    exact hrun
  · have hdurable : appSqlite.Durable
        (fun e => recordedVersion e = target ∧ KeepsRows d₀ e)
        [.createTable true .schemaVersion schemaVersionDef] := .of_forall fun s hs => by
      rw [List.mem_singleton.mp hs]
      refine ⟨rfl, fun e e' he hexec => ?_⟩
      obtain ⟨hrows, -, -, hother⟩ := exec_createTable hexec
      exact ⟨(recordedVersion_congr (hrows _)).trans he.1, he.2.trans ⟨hrows _, hrows _, hrows _,
        hrows _, hrows _, sessionRows_congr (hother _ (by decide))⟩⟩
    obtain ⟨d₂, rfl, h₂⟩ := hdurable.run d c ⟨hrecorded, hkeeps⟩ hrun
    exact h₂

end Steps

/-- **Restarting a migration**: from a database of any version, with any rows, and
wherever `init_database` was cut off, the next run reaches the version and keeps every row
exactly if nothing a pending migration creates without asking is there already. -/
theorem restarts_iff (target v : ℕ) (d₀ d : AppDb) (hstart : IsVersion v d₀) (hv : v ≤ target)
    (hcrash : CrashLeaves target d₀ d) : Restarts target d₀ d ↔ ¬ Stale target d := by
  rw [CrashLeaves, hstart.recorded] at hcrash
  rcases hstart.underway.of_survives hv hcrash with hunderway | ⟨hrecorded, hkeeps⟩
  · exact hunderway.restarts hv
  · refine iff_of_true (restarts_of_recorded hrecorded hkeeps) ?_
    rintro (⟨hlt, hle, -⟩ | ⟨hlt, hle, -⟩ | ⟨hlt, hle, -⟩) <;> omega

/-! ## A crash after v5 -/

/-- A database of a version whose tables have no rows but that of the version. -/
def emptyAt (v : ℕ) (t : Relation) : AppDb :=
  let d : AppDb := ⟨fun n => (schemaAt v n).map fun t => ⟨t, [], t.valid_nil⟩, []⟩
  d.set .schemaVersion (some t)

/-- Version 4, as it is recorded. -/
def versionFour : Relation := ⟨schemaVersionDef, [[.int 4]], by decide⟩

/-- A session that waits for its approval. -/
def waitingSession : Row :=
  [.text "s1", .text "alice", .text "t1", .text "PENDING", .text "submit_transfer", .text "args",
    .null, .null, .text "key-1", .int 0, .text "2026-01-01", .text "2026-01-01", .null,
    .text "call-1"]

/-- Its grant. -/
def waitingGrant : Row :=
  [.text "s1", .text "alice", .text "bob", .text "t1", .null, .null, .text "call-1",
    .text "submit_transfer", .text "args", .text "digest", .text "key-1", .text "PENDING",
    .text "PENDING", .text "2026-01-01", .null, .null, .null, .null, .null, .int 1]

/-- A database of version 4 with that session and its grant. -/
def sessionStored : AppDb :=
  ((emptyAt 4 versionFour).set .hitlSessions
    (some ⟨hitlSessionsDef.addColumn toolCallIdColumn, [waitingSession], by decide⟩)).set .grants
      (some ⟨grantsV3Def, [waitingGrant], by decide⟩)

theorem isVersion_sessionStored : IsVersion 4 sessionStored where
  recorded := rfl
  tables n := by cases n <;> rfl
  grants h := absurd h (by decide)

/-- What `init_database` does of it until `_migrate_v6` has created its table. -/
theorem run_writesTable :
    ∃ c, appSqlite.run (.fresh sessionStored) ((initScript 6 4).take 11) = .ok c ∧
      (c.stored.tables .channelWrites).isSome = true ∧
      (c.stored.tables .grants).map Relation.schema = some grantsV5Def ∧
      recordedVersion c.stored = 4 ∧ c.stored.tables .grantsV5 = none :=
  ⟨_, rfl, rfl, rfl, rfl, rfl⟩

/-- A crash in `_migrate_v6`, when the grants have been rebuilt and the version has not been
recorded: the grants are rebuilt once more, and the session and its grant are there. -/
theorem restarts_in_v6 :
    ∃ d, CrashLeaves 6 sessionStored d ∧ (d.tables .channelWrites).isSome = true ∧
      (d.tables .grants).map Relation.schema = some grantsV5Def ∧ recordedVersion d = 4 ∧
      ∃ c, initDatabase 6 d = .ok c ∧ recordedVersion c.stored = 6 ∧
        sessionRows c.stored = [waitingSession] ∧ c.stored.rows .grants = [waitingGrant] := by
  obtain ⟨c, hrun, hwrites, hgrants, hrecorded, hnone⟩ := run_writesTable
  have hcrash : CrashLeaves 6 sessionStored c.stored := by
    have hscript : initScript 6 4 = (initScript 6 4).take 11 ++ (initScript 6 4).drop 11 :=
      (List.take_append_drop 11 _).symm
    rw [CrashLeaves, isVersion_sessionStored.recorded, hscript]
    exact .of_run hrun
  have hrestarts : Restarts 6 sessionStored c.stored :=
    (restarts_iff 6 4 _ _ isVersion_sessionStored (by decide) hcrash).mpr (by
      rintro (⟨hlt, -⟩ | ⟨hlt, -⟩ | ⟨-, -, hsome⟩)
      · exact absurd hlt (by rw [hrecorded]; decide)
      · exact absurd hlt (by rw [hrecorded]; decide)
      · rw [hnone] at hsome
        cases hsome)
  obtain ⟨c', hc', hversion, hkeeps⟩ := hrestarts
  exact ⟨c.stored, hcrash, hwrites, hgrants, hrecorded, c', hc', hversion, hkeeps.sessions,
    hkeeps.grants⟩

/-! ## A crash after v4 -/

/-- Version 3, as it is recorded. -/
def versionThree : Relation := ⟨schemaVersionDef, [[.int 3]], by decide⟩

theorem isVersion_emptyAt_three : IsVersion 3 (emptyAt 3 versionThree) where
  recorded := rfl
  tables n := by cases n <;> rfl
  grants h := absurd h (by decide)

/-- The database with the new column of `hitl_sessions`, version 3 still recorded. -/
def columnAdded : AppDb :=
  (emptyAt 3 versionThree).set .hitlSessions
    (some ⟨hitlSessionsDef.addColumn toolCallIdColumn, [], TableDef.valid_nil _⟩)

/-- The column is stored as soon as it is added. -/
theorem crashLeaves_columnAdded : CrashLeaves 6 (emptyAt 3 versionThree) columnAdded := by
  have hscript : initScript 6 (recordedVersion (emptyAt 3 versionThree)) =
      .createTable true .schemaVersion schemaVersionDef ::
        .addColumn .hitlSessions toolCallIdColumn (.text "") :: (initScript 6 3).drop 2 := rfl
  have hfirst : appSqlite.step (.fresh (emptyAt 3 versionThree))
      (.createTable true .schemaVersion schemaVersionDef) =
        .ok (.fresh (emptyAt 3 versionThree)) := rfl
  have hsecond : appSqlite.step (.fresh (emptyAt 3 versionThree))
      (.addColumn .hitlSessions toolCallIdColumn (.text "")) = .ok (.fresh columnAdded) := rfl
  rw [CrashLeaves, hscript]
  exact .later hfirst (.later hsecond (.here ..))

/-- After a crash behind `_migrate_v4` the database cannot be opened any more. -/
theorem restart_fails :
    ¬ ∀ (target v : ℕ) (d₀ d : AppDb), IsVersion v d₀ → v ≤ target → CrashLeaves target d₀ d →
      Restarts target d₀ d := by
  intro h
  have hrestarts := h 6 3 _ _ isVersion_emptyAt_three (by decide) crashLeaves_columnAdded
  rcases isVersion_emptyAt_three.underway.of_survives (by decide) crashLeaves_columnAdded with
    hunderway | ⟨hrecorded, -⟩
  · exact (hunderway.restarts (by decide)).mp hrestarts
      (.inr (.inl ⟨by decide, by decide, rfl⟩))
  · exact absurd hrecorded (by decide)

end BankingAgent
