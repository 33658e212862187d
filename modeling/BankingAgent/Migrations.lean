import BankingAgent.Sql.Schema
import Mathlib.Data.List.Dedup

/-!
# `db.py`: schema migrations

`init_database` brings a database to a version. Each migration commits on its own, and the
version is recorded once, after the last of them. A run that is cut off is followed by one
that starts from the recorded version again, so the migrations that had been done are done
a second time.

Most of them do not mind: what they create they create only if it does not exist. Three
statements do: the two temporary tables of the rebuilds of
`approved_operation_grants`, and the new column of `hitl_sessions`. These are data
definitions outside a transaction, stored at once. A database that survives with one of
them can no longer be opened.
-/

namespace BankingAgent

open Sql

/-! ## Tables -/

/-- The tables of the database. -/
inductive TableName : Type where
  | schemaVersion | events | checkpoints | hitlSessions | idempotencyRecords | grants | grantsV3
  | grantsV5 | channelWrites
  deriving DecidableEq

/-- A `NOT NULL` column. -/
def required (name : String) : Column := { name, notNull := true }

/-- A column that may be `NULL`. -/
def optional (name : String) : Column := { name }

/-- A `NOT NULL` column that takes certain texts only. -/
def oneOf (name : String) (values : List String) : Column :=
  { name, notNull := true, check := fun v => values.any fun s => v = .text s }

/-- `_schema_version`. -/
def schemaVersionDef : TableDef where
  columns := [{ name := "version", notNull := true }]
  unique := [[0]]

/-- `events`. -/
def eventsDef : TableDef where
  columns := [required "id", required "run_id", required "seq", required "kind",
    required "payload", required "timestamp"]
  unique := [[0], [1, 2]]

/-- `checkpoints`. -/
def checkpointsDef : TableDef where
  columns := [required "thread_id", required "checkpoint_ns", required "checkpoint_id",
    optional "parent_checkpoint_id", required "type", required "checkpoint", optional "metadata",
    required "created_at"]
  unique := [[0, 1, 2]]

/-- `hitl_sessions`, as v1 creates it. -/
def hitlSessionsDef : TableDef where
  columns := [optional "session_id", required "user_id", required "thread_id", required "status",
    required "tool_name", required "tool_args", optional "authorization_decision",
    optional "approval_requirement", optional "idempotency_key", required "version",
    required "created_at", required "updated_at", optional "expires_at"]
  unique := [[0], [8]]

/-- The column v4 adds. -/
def toolCallIdColumn : Column := required "tool_call_id"

/-- `idempotency_records`. -/
def idempotencyRecordsDef : TableDef where
  columns := [optional "idempotency_key", required "status", required "tool_name",
    optional "tool_args", optional "result", optional "error", required "created_at",
    optional "completed_at"]
  unique := [[0]]

/-- The columns of `approved_operation_grants`, with those for decision and status. -/
def grantsColumns (decision status : Column) : List Column :=
  [required "session_id", required "requesting_user_id", required "approving_actor_id",
    required "thread_id", optional "run_id", optional "checkpoint_id", required "tool_call_id",
    required "tool_name", required "canonical_tool_args", required "argument_digest",
    required "idempotency_key", decision, status, required "created_at", optional "approved_at",
    optional "expires_at", optional "consuming_at", optional "consumed_at", optional "failed_at",
    required "version"]

/-- `approved_operation_grants`, as v2 creates it. -/
def grantsV2Def : TableDef where
  columns := grantsColumns (required "decision") (required "status")

/-- The statuses v3 allows. -/
def grantsV3Statuses : List String :=
  ["PENDING", "APPROVED", "CONSUMING", "CONSUMED", "REJECTED", "EXPIRED", "FAILED", "UNKNOWN"]

/-- `approved_operation_grants` with the given statuses, keys and the `CHECK` of the
decision. -/
def grantsDef (statuses : List String) : TableDef where
  columns := grantsColumns (oneOf "decision" ["PENDING", "approved", "rejected"])
    (oneOf "status" statuses)
  unique := [[0], [10]]

/-- `approved_operation_grants_v3`. -/
def grantsV3Def : TableDef := grantsDef grantsV3Statuses

/-- `approved_operation_grants_v5`. -/
def grantsV5Def : TableDef := grantsDef (grantsV3Statuses ++ ["RECONCILIATION_REQUIRED"])

/-- `channel_writes`. -/
def channelWritesDef : TableDef where
  columns := [required "thread_id", required "checkpoint_ns", required "checkpoint_id",
    required "task_id", required "task_path", required "idx", required "channel",
    required "value", required "created_at"]
  unique := [[0, 1, 2, 3, 5]]

/-! ## Migrations -/

/-- A database of the program, and a statement on it. -/
abbrev AppDb : Type := Database TableName
abbrev AppStatement : Type := Statement TableName

/-- SQLite on the program's tables. -/
abbrev appSqlite : Engine AppStatement AppDb := Database.sqlite

/-- `_migrate_v1`. -/
def migrateV1 : List AppStatement :=
  [.createTable true .events eventsDef,
    .createIndex "idx_events_run_id" .events none,
    .createIndex "idx_events_kind" .events none,
    .createTable true .checkpoints checkpointsDef,
    .createTable true .hitlSessions hitlSessionsDef,
    .createIndex "idx_hitl_status" .hitlSessions none,
    .createIndex "idx_hitl_thread" .hitlSessions none,
    .createTable true .idempotencyRecords idempotencyRecordsDef,
    .createIndex "idx_idem_status" .idempotencyRecords none,
    .commit]

/-- `_migrate_v2`. -/
def migrateV2 : List AppStatement :=
  [.createTable true .grants grantsV2Def,
    .createIndex "idx_grants_session" .grants none,
    .createIndex "idx_grants_status" .grants none,
    .commit]

/-- The values that occur more than once. -/
def duplicates (values : List Value) : List Value :=
  (values.filter fun v => 1 < values.count v).dedup

/-- A value inside an error message. -/
def Value.repr : Value → String
  | .null => "None"
  | .int n => toString n
  | .text s => s!"'{s}'"

/-- The two `GROUP BY` queries of `_migrate_v3`, and what it raises. -/
def duplicateGrants (d : AppDb) : Option String :=
  let sessions := duplicates ((d.rows .grants).map fun row => row.col 0)
  let keys := duplicates (((d.rows .grants).map fun row => row.col 10).filter fun v =>
    v ≠ .null && v ≠ .text "")
  if sessions ≠ [] then
    some <| "Cannot migrate to v3: duplicate session_id rows found: [" ++
      ", ".intercalate (sessions.map Value.repr) ++ "]. Manual reconciliation required."
  else if keys ≠ [] then
    some <| "Cannot migrate to v3: duplicate idempotency_key rows found: [" ++
      ", ".intercalate (keys.map Value.repr) ++ "]. Manual reconciliation required."
  else none

/-- The transaction in which `_migrate_v3` and `_migrate_v5` put the new table in place of
the old one. -/
def replaceGrants (temporary : TableName) : List AppStatement :=
  [.insertSelect temporary .grants,
    .dropTable .grants,
    .renameTable temporary .grants,
    .createIndex "idx_grants_session" .grants none,
    .createIndex "idx_grants_status" .grants none,
    .createIndex "idx_grants_expires" .grants none,
    .createIndex "idx_grants_idem_key" .grants (some 10)]

/-- `_migrate_v3`. -/
def migrateV3 : List AppStatement :=
  [.query duplicateGrants, .createTable false .grantsV3 grantsV3Def] ++
    (replaceGrants .grantsV3 ++ [.commit])

/-- `_migrate_v4`. -/
def migrateV4 : List AppStatement :=
  [.addColumn .hitlSessions toolCallIdColumn (.text ""), .commit]

/-- `_migrate_v5`. -/
def migrateV5 : List AppStatement :=
  [.createTable false .grantsV5 grantsV5Def] ++ (replaceGrants .grantsV5 ++ [.commit])

/-- `_migrate_v6`. -/
def migrateV6 : List AppStatement :=
  [.createTable true .channelWrites channelWritesDef,
    .createIndex "idx_writes_thread" .channelWrites none,
    .commit]

/-- The migration to a version. -/
def migration : ℕ → List AppStatement
  | 1 => migrateV1
  | 2 => migrateV2
  | 3 => migrateV3
  | 4 => migrateV4
  | 5 => migrateV5
  | 6 => migrateV6
  | _ => []

/-- The recorded version: the highest one, 0 if there is none. -/
def recordedVersion (d : AppDb) : ℕ :=
  ((d.rows .schemaVersion).map fun row =>
    match row.col 0 with
    | .int n => n.toNat
    | _ => 0).foldl max 0

/-- `if current < k and schema_version >= k`. -/
def migrationIf (target current k : ℕ) : List AppStatement :=
  if current < k ∧ k ≤ target then migration k else []

/-- The migrations up to a version, one after the other. -/
def migrations (target current n : ℕ) : List AppStatement :=
  (List.range n).flatMap fun k => migrationIf target current (k + 1)

/-- Recording the version. -/
def recordVersion (target current : ℕ) : List AppStatement :=
  if current < target then [.insertOrReplace .schemaVersion [.int target], .commit] else []

/-- The statements of `init_database`, once it has read the version. -/
def initScript (target current : ℕ) : List AppStatement :=
  .createTable true .schemaVersion schemaVersionDef ::
    (migrations target current 6 ++ recordVersion target current)

/-- `init_database`: the connection it returns. -/
def initDatabase (target : ℕ) (d : AppDb) : Except String (Conn AppDb) :=
  if target < recordedVersion d then
    .error <| s!"Database schema version {recordedVersion d} is newer than expected " ++
      s!"{target}. Cannot downgrade."
  else appSqlite.run (.fresh d) (initScript target (recordedVersion d))

/-- What may be stored after `init_database` was cut off. -/
def CrashLeaves (target : ℕ) (d d' : AppDb) : Prop :=
  appSqlite.Survives (.fresh d) (initScript target (recordedVersion d)) d'

/-! ## What a database holds -/

/-- The sessions have a `tool_call_id`. -/
def hasToolCallId (d : AppDb) : Bool :=
  match d.tables .hitlSessions with
  | some t => t.schema.columns.any fun c => c.name = toolCallIdColumn.name
  | none => false

/-- The sessions, with an empty `tool_call_id` where they have none. -/
def sessionRows (d : AppDb) : List Row :=
  if hasToolCallId d then d.rows .hitlSessions
  else (d.rows .hitlSessions).map fun row => row ++ [.text ""]

/-- Every row of every table is still there. -/
structure KeepsRows (d d' : AppDb) : Prop where
  events : d'.rows .events = d.rows .events
  checkpoints : d'.rows .checkpoints = d.rows .checkpoints
  idempotencyRecords : d'.rows .idempotencyRecords = d.rows .idempotencyRecords
  grants : d'.rows .grants = d.rows .grants
  channelWrites : d'.rows .channelWrites = d.rows .channelWrites
  sessions : sessionRows d' = sessionRows d

/-- The definitions of the tables in a version; `none` where there is no such table. -/
def schemaAt (v : ℕ) : TableName → Option TableDef
  | .schemaVersion => if 1 ≤ v then some schemaVersionDef else none
  | .events => if 1 ≤ v then some eventsDef else none
  | .checkpoints => if 1 ≤ v then some checkpointsDef else none
  | .hitlSessions =>
    if v < 1 then none
    else if v < 4 then some hitlSessionsDef
    else some (hitlSessionsDef.addColumn toolCallIdColumn)
  | .idempotencyRecords => if 1 ≤ v then some idempotencyRecordsDef else none
  | .grants =>
    if v < 2 then none
    else if v < 3 then some grantsV2Def
    else if v < 5 then some grantsV3Def
    else some grantsV5Def
  | .grantsV3 => none
  | .grantsV5 => none
  | .channelWrites => if 6 ≤ v then some channelWritesDef else none

/-- A database of a version, with any rows: those of `approved_operation_grants` satisfy
the constraints of v3 before the table has them. -/
structure IsVersion (v : ℕ) (d : AppDb) : Prop where
  recorded : recordedVersion d = v
  tables : ∀ n, (d.tables n).map Relation.schema = schemaAt v n
  grants : v < 3 → grantsV3Def.Valid (d.rows .grants)

/-- `init_database` works again: it reaches the version, and all rows are there. -/
def Restarts (target : ℕ) (d₀ d : AppDb) : Prop :=
  ∃ c, initDatabase target d = .ok c ∧ recordedVersion c.stored = target ∧ KeepsRows d₀ c.stored

/-- The database holds something a pending migration creates without asking: a temporary
table, or the column of v4. -/
def Stale (target : ℕ) (d : AppDb) : Prop :=
  (recordedVersion d < 3 ∧ 3 ≤ target ∧ (d.tables .grantsV3).isSome) ∨
  (recordedVersion d < 4 ∧ 4 ≤ target ∧ hasToolCallId d = true) ∨
  (recordedVersion d < 5 ∧ 5 ≤ target ∧ (d.tables .grantsV5).isSome)

end BankingAgent
