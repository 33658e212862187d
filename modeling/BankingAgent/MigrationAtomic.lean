import BankingAgent.Json
import BankingAgent.MigrationRestart

/-!
# All or nothing: the migration to v3

`_migrate_v3` rebuilds the grants under constraints they did not have before. It looks for
duplicates first and raises while nothing is changed yet. The other constraints it meets in the
copy, and by then the temporary table is stored.

* `all_or_nothing_iff` — on a database of v2 with any grants, `init_database` does everything or
  nothing exactly if there are duplicates it looks for, or the grants satisfy the constraints.
-/

namespace BankingAgent

open Sql Database

/-- A database of v2, with any grants its table can hold. -/
structure IsV2 (d : AppDb) : Prop where
  recorded : recordedVersion d = 2
  tables : ∀ n, (d.tables n).map Relation.schema = schemaAt 2 n

/-- `init_database` returns with the version and with the same rows, the grants under their new
constraints. -/
def Migrates (target : ℕ) (d : AppDb) : Prop :=
  ∃ c, initDatabase target d = .ok c ∧ recordedVersion c.stored = target ∧
    KeepsRows d c.stored ∧ (c.stored.tables .grants).map Relation.schema = schemaAt target .grants

/-- `init_database` raises, and this is stored when the connection is closed. -/
def RaisesLeaving (target : ℕ) (d d' : AppDb) : Prop :=
  ∃ e, initDatabase target d = .error e ∧
    appSqlite.stops (.fresh d) (initScript target (recordedVersion d)) = some (e, d')

/-- A table of grants of v2 that satisfies the constraints of v3. -/
def Repaired (t : Relation) : Prop := t.schema = grantsV2Def ∧ grantsV3Def.Valid t.rows

/-- All or nothing: the migration succeeds; or it raises with everything as it was, and succeeds
once the grants are repaired. -/
def AllOrNothing (target : ℕ) (d : AppDb) : Prop :=
  Migrates target d ∨ RaisesLeaving target d d ∧
    ∀ t, Repaired t → Migrates target (d.set .grants (some t))

section Atomic

variable {target : ℕ} {d d' : AppDb}

/-! ## The constraints of the grants -/

/-- A rebuild leaves the grants under the constraints of the temporary table. -/
theorem grants_of_rebuild {temporary : TableName} {schema : TableDef}
    (htemporary : temporary ≠ .grants)
    (h : appSqlite.execAll d (.createTable false temporary schema ::
      (replaceGrants temporary ++ [.commit])) = .ok d') :
    (d'.tables .grants).map Relation.schema = some schema := by
  obtain ⟨d₁, hcreate, h⟩ := Engine.execAll_cons_ok h
  obtain ⟨d₂, hreplace, hcommit⟩ := Engine.execAll_append_ok h
  cases hcommit
  obtain ⟨t, -, ht, -, -, ⟨t'', ht'', hschema, -⟩, -⟩ := of_replaceGrants htemporary hreplace
  rw [show appSqlite.exec d _ = d.exec _ from rfl, exec] at hcreate
  cases hd : d.tables temporary with
  | some t₀ => rw [hd] at hcreate; cases hcreate
  | none =>
    rw [hd] at hcreate
    cases hcreate
    rw [set_tables_self] at ht
    rw [ht'', Option.map_some, hschema, ← Option.some.inj ht]

/-- The pending migrations of a database of v2. -/
theorem migrations_of_v2 (h : 3 ≤ target) : migrations target 2 6 =
    migrateV3 ++ (migrationIf target 2 4 ++ (migrationIf target 2 5 ++ migrationIf target 2 6)) := by
  have h₁ : migrationIf target 2 1 = [] := if_neg fun hk => absurd hk.1 (by decide)
  have h₂ : migrationIf target 2 2 = [] := if_neg fun hk => absurd hk.1 (by decide)
  have h₃ : migrationIf target 2 3 = migrateV3 := if_pos ⟨by decide, h⟩
  change migrationIf target 2 1 ++ (migrationIf target 2 2 ++ (migrationIf target 2 3 ++
    (migrationIf target 2 4 ++ (migrationIf target 2 5 ++ (migrationIf target 2 6 ++ []))))) = _
  rw [h₁, h₂, h₃, List.append_nil]
  rfl

/-- A migration that does not write the grants leaves them as they are, pending or not. -/
theorem grants_of_migrationIf {k : ℕ}
    (hframe : ∀ s ∈ migration k, .grants ∉ s.writes ∧ .grants ∉ s.creates)
    (h : appSqlite.execAll d (migrationIf target 2 k) = .ok d') :
    d'.tables .grants = d.tables .grants := by
  rw [migrationIf] at h
  split at h
  · exact execAll_frame hframe h
  · cases h
    rfl

/-- **The constraints** of the grants at the end of a run from v2. -/
theorem grants_of_init (h : 3 ≤ target) (hd : recordedVersion d = 2) {c : Conn AppDb}
    (hc : initDatabase target d = .ok c) :
    (c.stored.tables .grants).map Relation.schema = schemaAt target .grants := by
  rw [initDatabase, hd, if_neg (by omega)] at hc
  have hrecord : recordVersion target 2 = [.insertOrReplace .schemaVersion [.int target]] ++
      [.commit] := if_pos (by omega)
  -- the last statement is a commit: what the connection sees is stored
  have hstored : c.stored = c.working := by
    rw [initScript, hrecord, ← List.append_assoc, ← List.cons_append] at hc
    exact congrArg Conn.stored (Engine.run_commit rfl hc)
  rw [hstored]
  have hall := Engine.execAll_of_run hc
  obtain ⟨d₁, -, hall⟩ := Engine.execAll_cons_ok hall
  obtain ⟨d₂, hmigrations, hlast⟩ := Engine.execAll_append_ok hall
  rw [migrations_of_v2 h] at hmigrations
  obtain ⟨d₃, h₃, hmigrations⟩ := Engine.execAll_append_ok hmigrations
  obtain ⟨d₄, h₄, hmigrations⟩ := Engine.execAll_append_ok hmigrations
  obtain ⟨d₅, h₅, h₆⟩ := Engine.execAll_append_ok hmigrations
  have hafter : c.working.tables .grants = d₂.tables .grants := by
    rw [hrecord] at hlast
    exact execAll_frame (by simp [Statement.writes, Statement.creates]) hlast
  have hv6 : d₂.tables .grants = d₅.tables .grants := grants_of_migrationIf (by decide) h₆
  have hv4 : d₄.tables .grants = d₃.tables .grants := grants_of_migrationIf (by decide) h₄
  have hv3 : (d₃.tables .grants).map Relation.schema = some grantsV3Def := by
    obtain ⟨d', -, hrebuild⟩ := Engine.execAll_cons_ok h₃
    exact grants_of_rebuild (by decide) hrebuild
  -- the last rebuild that is pending gives the constraints: that of v5, or that of v3
  rw [hafter, hv6, schemaAt, if_neg (by omega), if_neg (by omega)]
  rw [migrationIf] at h₅
  split at h₅
  · rename_i h5
    rw [if_neg (by omega)]
    exact grants_of_rebuild (by decide) h₅
  · rename_i h5
    cases h₅
    rw [if_pos (by omega), hv4, hv3]

/-! ## Grants that satisfy the constraints -/

theorem IsV2.isVersion (h : IsV2 d) (hvalid : grantsV3Def.Valid (d.rows .grants)) :
    IsVersion 2 d :=
  ⟨h.recorded, h.tables, fun _ => hvalid⟩

/-- Nothing is in the way of a database of v2. -/
theorem IsV2.not_stale (h : IsV2 d) : ¬ Stale target d := by
  have hnone : ∀ n, schemaAt 2 n = none → d.tables n = none := fun n hn => by
    rwa [← h.tables n, Option.map_eq_none_iff] at hn
  have hsessions : hasToolCallId d = false := by
    have hs := h.tables .hitlSessions
    rw [hasToolCallId]
    cases ht : d.tables .hitlSessions with
    | none => rfl
    | some t =>
      rw [ht] at hs
      obtain hs : t.schema = hitlSessionsDef := Option.some.inj hs
      simp only [hs]
      decide
  rintro (⟨-, -, hsome⟩ | ⟨-, -, hcolumn⟩ | ⟨-, -, hsome⟩)
  · rw [hnone _ rfl] at hsome
    cases hsome
  · rw [hsessions] at hcolumn
    cases hcolumn
  · rw [hnone _ rfl] at hsome
    cases hsome

/-- **Everything**: grants that satisfy the constraints are migrated. -/
theorem IsV2.migrates (h : IsV2 d) (ht : 3 ≤ target) (hvalid : grantsV3Def.Valid (d.rows .grants)) :
    Migrates target d := by
  obtain ⟨c, hc, hrecorded, hkeeps⟩ :=
    ((h.isVersion hvalid).underway.restarts (Nat.le_of_succ_le ht)).mpr h.not_stale
  exact ⟨c, hc, hrecorded, hkeeps, grants_of_init ht h.recorded hc⟩

/-- Repaired grants leave a database of v2. -/
theorem IsV2.repair (h : IsV2 d) {t : Relation} (ht : t.schema = grantsV2Def) :
    IsV2 (d.set .grants (some t)) where
  recorded := (recordedVersion_congr (rows_of_tables_eq
    (set_tables_of_ne d _ (by decide)))).trans h.recorded
  tables n := by
    by_cases hn : n = .grants
    · rw [hn, set_tables_self, Option.map_some, ht]
      rfl
    · rw [set_tables_of_ne d _ hn]
      exact h.tables n

/-! ## Grants that do not -/

/-- The run up to the rebuild: the version's table is there, and the queries come next. -/
theorem IsV2.stops_eq (h : IsV2 d) (ht : 3 ≤ target) : ∃ rest,
    appSqlite.stops (.fresh d) (initScript target (recordedVersion d)) =
      appSqlite.stops (.fresh d) (.query duplicateGrants ::
        .createTable false .grantsV3 grantsV3Def :: .insertSelect .grantsV3 .grants :: rest) := by
  have hcreate : d.exec (.createTable true .schemaVersion schemaVersionDef) = .ok d := by
    have hs := h.tables .schemaVersion
    rw [exec]
    cases hd : d.tables .schemaVersion with
    | none => rw [hd] at hs; cases hs
    | some t => rfl
  rw [h.recorded, initScript, migrations_of_v2 ht]
  exact ⟨_, Engine.stops_cons_of_ok rfl rfl hcreate⟩

/-- **Nothing**: duplicates are found while everything is as it was. -/
theorem IsV2.raises_of_duplicates (h : IsV2 d) (ht : 3 ≤ target)
    (hduplicates : duplicateGrants d ≠ none) : RaisesLeaving target d d := by
  obtain ⟨e, he⟩ := Option.ne_none_iff_exists'.mp hduplicates
  obtain ⟨rest, hstops⟩ := h.stops_eq ht
  have hquery : d.exec (.query duplicateGrants) = .error e := by rw [exec, he]
  have hstop := hstops.trans (Engine.stops_cons_of_error hquery)
  refine ⟨e, ?_, hstop⟩
  rw [initDatabase, if_neg (by rw [h.recorded]; omega)]
  exact Engine.run_of_stops hstop

/-- The temporary table, as it is stored when the copy fails. -/
def withTemporary (d : AppDb) : AppDb :=
  d.set .grantsV3 (some ⟨grantsV3Def, [], TableDef.valid_nil _⟩)

/-- **Neither**: other constraints are met in the copy, behind the temporary table. -/
theorem IsV2.raises_of_invalid (h : IsV2 d) (ht : 3 ≤ target)
    (hduplicates : duplicateGrants d = none) (hinvalid : ¬ grantsV3Def.Valid (d.rows .grants)) :
    RaisesLeaving target d (withTemporary d) := by
  obtain ⟨rest, hstops⟩ := h.stops_eq ht
  have hquery : d.exec (.query duplicateGrants) = .ok d := by rw [exec, hduplicates]
  have hnone : d.tables .grantsV3 = none := by
    have hs := h.tables .grantsV3
    rwa [schemaAt, Option.map_eq_none_iff] at hs
  have hcreate : d.exec (.createTable false .grantsV3 grantsV3Def) = .ok (withTemporary d) := by
    rw [exec, hnone]
    rfl
  obtain ⟨t, hgrants⟩ : ∃ t, d.tables .grants = some t := by
    have hs := h.tables .grants
    cases hd : d.tables .grants with
    | none => rw [hd] at hs; cases hs
    | some t => exact ⟨t, rfl⟩
  -- the temporary table is there when the copy meets the constraints
  have hcopy : (withTemporary d).exec (.insertSelect .grantsV3 .grants) =
      .error "constraint failed" := by
    have hsource : (withTemporary d).tables .grants = some t :=
      (set_tables_of_ne d _ (by decide)).trans hgrants
    rw [exec, hsource, withTemporary, set_tables_self]
    exact dif_neg (by rwa [List.nil_append, ← rows_of_some hgrants])
  have hstop := hstops.trans ((Engine.stops_cons_of_ok rfl rfl hquery).trans
    ((Engine.stops_cons_of_ok rfl rfl hcreate).trans (Engine.stops_cons_of_error hcopy)))
  refine ⟨_, ?_, hstop⟩
  rw [initDatabase, if_neg (by rw [h.recorded]; omega)]
  exact Engine.run_of_stops hstop

/-- A run that raises leaves one thing behind, and does not migrate. -/
theorem RaisesLeaving.unique {d₁ d₂ : AppDb} (h₁ : RaisesLeaving target d d₁)
    (h₂ : RaisesLeaving target d d₂) : d₁ = d₂ := by
  obtain ⟨e₁, -, h₁⟩ := h₁
  obtain ⟨e₂, -, h₂⟩ := h₂
  exact (Prod.mk.inj (Option.some.inj (h₁.symm.trans h₂))).2

theorem RaisesLeaving.not_migrates (h : RaisesLeaving target d d') : ¬ Migrates target d := by
  rintro ⟨c, hc, -⟩
  obtain ⟨e, he, -⟩ := h
  rw [he] at hc
  cases hc

theorem IsV2.not_allOrNothing (h : IsV2 d) (ht : 3 ≤ target)
    (hduplicates : duplicateGrants d = none) (hinvalid : ¬ grantsV3Def.Valid (d.rows .grants)) :
    ¬ AllOrNothing target d := by
  have hraises := h.raises_of_invalid ht hduplicates hinvalid
  rintro (hmigrates | ⟨hnothing, -⟩)
  · exact hraises.not_migrates hmigrates
  · -- the temporary table was not there before
    have hsame := congrArg (fun e : AppDb => e.tables .grantsV3) (hnothing.unique hraises)
    have hs := h.tables .grantsV3
    simp only [withTemporary, set_tables_self] at hsame
    rw [hsame] at hs
    cases hs

theorem IsV2.allOrNothing (h : IsV2 d) (ht : 3 ≤ target)
    (hd : duplicateGrants d ≠ none ∨ grantsV3Def.Valid (d.rows .grants)) :
    AllOrNothing target d := by
  rcases hd with hduplicates | hvalid
  · refine .inr ⟨h.raises_of_duplicates ht hduplicates, fun t ⟨hschema, hvalid⟩ => ?_⟩
    refine (h.repair hschema).migrates ht ?_
    rwa [rows_of_some (set_tables_self ..)]
  · exact .inl (h.migrates ht hvalid)

end Atomic

/-- **All or nothing**: from v2, with any grants, the migration does everything or nothing
exactly if there are duplicates among them it looks for, or they satisfy all constraints of
v3. -/
theorem all_or_nothing_iff (target : ℕ) (ht : 3 ≤ target) (d : AppDb) (h : IsV2 d) :
    AllOrNothing target d ↔ duplicateGrants d ≠ none ∨ grantsV3Def.Valid (d.rows .grants) := by
  refine ⟨fun hall => ?_, h.allOrNothing ht⟩
  by_contra hneither
  obtain ⟨hduplicates, hinvalid⟩ := not_or.mp hneither
  exact h.not_allOrNothing ht (not_not.mp hduplicates) hinvalid hall

/-! ## Two databases -/

/-- A grant with a status v2 does not object to. -/
def grantRow (status : String) : Row :=
  [.text "s1", .text "alice", .text "bob", .text "t1", .null, .null, .text "call-1",
    .text "submit_transfer", .text (braced ""), .text "digest", .text "key-1", .text "approved",
    .text status, .text "2026-01-01", .null, .null, .null, .null, .null, .int 1]

/-- Version 2, as it is recorded. -/
def versionTwo : Relation := ⟨schemaVersionDef, [[.int 2]], by decide⟩

/-- A table of grants with one row. -/
def oneGrant (status : String) (h : grantsV2Def.Valid [grantRow status]) : Relation :=
  ⟨grantsV2Def, [grantRow status], h⟩

theorem isV2_emptyAt (t : Relation) (ht : t.schema = grantsV2Def) :
    IsV2 ((emptyAt 2 versionTwo).set .grants (some t)) where
  recorded := rfl
  tables n := by
    cases n with
    | grants => exact congrArg some ht
    | _ => rfl

theorem odd_status_fits : grantsV2Def.Valid [grantRow "DONE"] := by decide

theorem approved_status_fits : grantsV2Def.Valid [grantRow "APPROVED"] := by decide

/-- A status nobody has written down breaks the copy, and the temporary table stays. -/
theorem odd_status_half_migrated :
    ¬ AllOrNothing 3 ((emptyAt 2 versionTwo).set .grants
      (some (oneGrant "DONE" odd_status_fits))) := by
  refine (isV2_emptyAt _ rfl).not_allOrNothing (Nat.le_refl 3) (by decide +kernel) fun h => ?_
  exact absurd (h.fits (grantRow "DONE") (by simp [oneGrant, Database.rows])) (by decide)

/-- A grant that was approved is migrated with everything else. -/
theorem approved_status_migrated :
    AllOrNothing 3 ((emptyAt 2 versionTwo).set .grants
      (some (oneGrant "APPROVED" approved_status_fits))) :=
  (all_or_nothing_iff 3 (Nat.le_refl 3) _ (isV2_emptyAt _ rfl)).mpr
    (.inr (by decide +kernel))

end BankingAgent
