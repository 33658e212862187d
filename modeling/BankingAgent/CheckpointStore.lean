import BankingAgent.Sql.Table

/-!
# `checkpoint_store.py`: checkpoints and pending writes

`SqliteCheckpointSaver` keeps two tables. `aput` stores a checkpoint, `aput_writes` the
writes of a task that belong to a checkpoint, numbered from 0 in every call.
`aget_tuple` reads a checkpoint back.

The second table is written and never read: the tuple comes without pending writes,
whatever was stored.
-/

namespace BankingAgent

open Sql

/-- `JsonPlusSerializer` on the values of one kind, and the text it is stored as. -/
structure Serde (V : Type) : Type where
  /-- `dumps_typed`, as JSON text -/
  dumps : V → String
  /-- `loads_typed` of such text -/
  loads : String → V
  /-- loading undoes dumping -/
  undo : ∀ v, loads (dumps v) = v
  /-- the text is a list of two strings -/
  nonempty : ∀ v, dumps v ≠ ""

/-- The three parts of the key of a checkpoint. -/
structure CheckpointKey : Type where
  threadId : String
  checkpointNs : String
  checkpointId : String
  deriving DecidableEq

/-- `config["configurable"]`, with the defaults `aget_tuple` and `aput_writes` apply. -/
structure SaverConfig : Type where
  threadId : String
  /-- `get("checkpoint_ns", "")` -/
  checkpointNs : String
  /-- `get("checkpoint_id")` -/
  checkpointId : Option String

/-- A row of `checkpoints`. -/
structure CheckpointRow : Type where
  threadId : String
  checkpointNs : String
  checkpointId : String
  parentCheckpointId : Option String
  type : String
  checkpoint : String
  metadata : String
  createdAt : String

/-- The primary key of `checkpoints`. -/
abbrev CheckpointRow.key (row : CheckpointRow) : CheckpointKey :=
  ⟨row.threadId, row.checkpointNs, row.checkpointId⟩

/-- A row of `channel_writes`. -/
structure ChannelWriteRow : Type where
  threadId : String
  checkpointNs : String
  checkpointId : String
  taskId : String
  taskPath : String
  idx : ℕ
  channel : String
  value : String
  createdAt : String

/-- The primary key of `channel_writes`. -/
abbrev ChannelWriteRow.key (row : ChannelWriteRow) : CheckpointKey × String × ℕ :=
  (⟨row.threadId, row.checkpointNs, row.checkpointId⟩, row.taskId, row.idx)

/-- The two tables. -/
structure SaverDb : Type where
  checkpoints : Table CheckpointRow.key
  channelWrites : Table ChannelWriteRow.key

/-- A checkpoint, as far as the saver looks into it. -/
structure GraphCheckpoint (C : Type) : Type where
  /-- `checkpoint["id"]` -/
  id : String
  /-- `checkpoint.get("parent_checkpoint_id")` -/
  parentCheckpointId : Option String
  /-- the whole dictionary -/
  body : C

/-- `CheckpointTuple`. -/
structure CheckpointTuple (C W : Type) : Type where
  config : CheckpointKey
  checkpoint : C
  /-- `none` stands for `{}` -/
  metadata : Option C
  /-- thread and checkpoint of `parent_config` -/
  parentConfig : Option (String × String)
  /-- task, channel and value of the stored writes; `None` by default -/
  pendingWrites : Option (List (String × String × W))

namespace SqliteCheckpointSaver

variable {C W : Type} (ckpt : Serde C) (serde : Serde W)

/-- `_row_to_tuple`. -/
def rowToTuple (row : CheckpointRow) : CheckpointTuple C W where
  config := row.key
  checkpoint := ckpt.loads row.checkpoint
  metadata := if row.metadata = "" then none else some (ckpt.loads row.metadata)
  parentConfig :=
    row.parentCheckpointId.bind fun parent =>
      if parent = "" then none else some (row.threadId, parent)
  pendingWrites := none

/-- `ORDER BY created_at DESC LIMIT 1` on the checkpoints of a thread. -/
def latest (db : SaverDb) (threadId checkpointNs : String) : Option CheckpointRow :=
  (db.checkpoints.rows.filter fun row =>
    row.threadId = threadId && row.checkpointNs = checkpointNs).foldl
      (fun best row =>
        match best with
        | none => some row
        | some old => if old.createdAt < row.createdAt then some row else some old) none

/-- The `SELECT` of `aget_tuple`: an empty checkpoint id counts as none. -/
def fetch (db : SaverDb) (config : SaverConfig) : Option CheckpointRow :=
  match config.checkpointId with
  | some id =>
    if id = "" then latest db config.threadId config.checkpointNs
    else db.checkpoints.get ⟨config.threadId, config.checkpointNs, id⟩
  | none => latest db config.threadId config.checkpointNs

/-- `aget_tuple`. -/
def agetTuple (db : SaverDb) (config : SaverConfig) : Option (CheckpointTuple C W) :=
  (fetch db config).map (rowToTuple ckpt)

/-- `aput`. -/
def aput (config : SaverConfig) (checkpoint : GraphCheckpoint C) (metadata : C) (now : String)
    (db : SaverDb) : SaverDb :=
  let row : CheckpointRow :=
    { threadId := config.threadId, checkpointNs := config.checkpointNs,
      checkpointId := checkpoint.id, parentCheckpointId := checkpoint.parentCheckpointId,
      type := "checkpoint", checkpoint := ckpt.dumps checkpoint.body,
      metadata := ckpt.dumps metadata, createdAt := now }
  { db with checkpoints := db.checkpoints.replace row }

/-- The checkpoint `aput_writes` writes to. -/
def writesKey (config : SaverConfig) : CheckpointKey :=
  ⟨config.threadId, config.checkpointNs, config.checkpointId.getD ""⟩

/-- The `INSERT OR REPLACE` of one write. -/
def putWrite (config : SaverConfig) (taskId taskPath now : String) (db : SaverDb)
    (write : (String × W) × ℕ) : SaverDb :=
  let row : ChannelWriteRow :=
    { threadId := config.threadId, checkpointNs := config.checkpointNs,
      checkpointId := config.checkpointId.getD "", taskId, taskPath, idx := write.2,
      channel := write.1.1, value := serde.dumps write.1.2, createdAt := now }
  { db with channelWrites := db.channelWrites.replace row }

/-- `aput_writes`: the writes are numbered from 0. -/
def aputWrites (config : SaverConfig) (writes : List (String × W)) (taskId taskPath now : String)
    (db : SaverDb) : SaverDb :=
  writes.zipIdx.foldl (putWrite serde config taskId taskPath now) db

/-- A call of the saver that writes. -/
inductive Call (C W : Type) : Type where
  | aput (config : SaverConfig) (checkpoint : GraphCheckpoint C) (metadata : C) (now : String)
  | aputWrites (config : SaverConfig) (writes : List (String × W)) (taskId taskPath now : String)

/-- What a call does. -/
def Call.exec (db : SaverDb) : Call C W → SaverDb
  | .aput config checkpoint metadata now =>
    SqliteCheckpointSaver.aput ckpt config checkpoint metadata now db
  | .aputWrites config writes taskId taskPath now =>
    SqliteCheckpointSaver.aputWrites serde config writes taskId taskPath now db

/-- What a sequence of calls leaves behind. -/
def run (calls : List (Call C W)) (db : SaverDb) : SaverDb := calls.foldl (Call.exec ckpt serde) db

/-- What a call stores for a checkpoint: task, channel and value of each write. -/
def Call.stored (key : CheckpointKey) : Call C W → List (String × String × W)
  | .aput _ _ _ _ => []
  | .aputWrites config writes taskId _ _ =>
    if writesKey config = key then writes.map fun w => (taskId, w.1, w.2) else []

/-- The contract: the tuple that is read contains every write stored for its
checkpoint. -/
def KeepsWrites (calls : List (Call C W)) (db : SaverDb) (config : SaverConfig) : Prop :=
  ∀ tuple, agetTuple ckpt (run ckpt serde calls db) config = some tuple →
    ∀ call ∈ calls, ∀ write ∈ call.stored tuple.config, write ∈ tuple.pendingWrites.getD []

/-! ## The read path -/

/-- **What the saver keeps**: after any sequence of calls, the contract holds for a
configuration exactly if nothing was stored for the checkpoint that is fetched. -/
theorem keeps_writes_iff (calls : List (Call C W)) (db : SaverDb) (config : SaverConfig) :
    KeepsWrites ckpt serde calls db config ↔
      ∀ row, fetch (run ckpt serde calls db) config = some row →
        ∀ call ∈ calls, call.stored row.key = [] := by
  constructor
  · intro h row hrow call hcall
    rw [List.eq_nil_iff_forall_not_mem]
    intro write hwrite
    have htuple : agetTuple (W := W) ckpt (run ckpt serde calls db) config =
        some (rowToTuple ckpt row) := by
      rw [agetTuple, hrow, Option.map_some]
    -- the tuple of a row comes without pending writes
    exact absurd (h _ htuple call hcall write hwrite) List.not_mem_nil
  · intro h tuple htuple call hcall write hwrite
    obtain ⟨row, hrow, rfl⟩ := Option.map_eq_some_iff.mp htuple
    have hstored : call.stored row.key = [] := h row hrow call hcall
    rw [show (rowToTuple (W := W) ckpt row).config = row.key from rfl, hstored] at hwrite
    exact absurd hwrite List.not_mem_nil

end SqliteCheckpointSaver

/-! ## A lost write, in the concrete -/

section Demo

open SqliteCheckpointSaver

/-- Texts, stored behind a quotation mark. -/
def textSerde : Serde String where
  dumps s := String.ofList ('"' :: s.toList)
  loads s := String.ofList s.toList.tail
  undo _ := by simp
  nonempty s := by
    intro h
    have := congrArg String.toList h
    simp at this

/-- A checkpoint of thread `t`. -/
def demoConfig : SaverConfig := ⟨"t", "", some "c1"⟩

/-- A run stops at an interrupt: the checkpoint is stored, then the interrupt, and after
the approval the answer to it. -/
def interruptWrites : List (SqliteCheckpointSaver.Call String String) :=
  [.aput demoConfig ⟨"c1", none, "state"⟩ "metadata" "t0",
    .aputWrites demoConfig [("__interrupt__", "approve?")] "tool_node" "" "t1",
    .aputWrites demoConfig [("__resume__", "approved")] "tool_node" "" "t2"]

/-- Neither the interrupt nor the answer comes back. -/
theorem pending_writes_lost :
    ¬ KeepsWrites textSerde textSerde interruptWrites ⟨.empty, .empty⟩ demoConfig := by
  intro h
  have hmem := h _ rfl (.aputWrites demoConfig [("__resume__", "approved")] "tool_node" "" "t2")
    (by simp [interruptWrites]) ("tool_node", "__resume__", "approved") (by decide)
  cases hmem

end Demo

end BankingAgent
