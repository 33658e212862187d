import BankingAgent.LatestCheckpoint
import BankingAgent.Sql.SharedConnection

/-!
# `checkpoint_store.py`: the saver on its connection

All graphs of a process save their checkpoints over one connection. Each method of
`SqliteCheckpointSaver` is a coroutine on it, which other methods interleave with, which an
error of the database ends anywhere, and which dies with the process.

* `checkpoint_kept` — a checkpoint whose `aput` has returned is read back under its id, or one
  that was put under that id later, until somebody deletes the thread.
* `latest_not_behind` — without an id, no checkpoint is read that is older.
* `threads_isolated` — what is read of a thread does not depend on what is done on the others.
* `deleted_for_good` — what is left of a thread whose `adelete_thread` has returned was put later.
-/

namespace BankingAgent

open Async Sql

deriving instance DecidableEq for CheckpointRow

namespace SqliteCheckpointSaver

/-- The statements of the saver. -/
inductive Statement : Type where
  /-- `SELECT … WHERE thread_id=? AND checkpoint_ns=? AND checkpoint_id=?` -/
  | selectCheckpoint (key : CheckpointKey)
  /-- `SELECT … WHERE thread_id=? AND checkpoint_ns=? ORDER BY created_at DESC LIMIT 1` -/
  | selectLatest (threadId checkpointNs : String)
  /-- `INSERT OR REPLACE INTO checkpoints` -/
  | insertCheckpoint (row : CheckpointRow)
  /-- `INSERT OR REPLACE INTO channel_writes` -/
  | insertWrite (row : ChannelWriteRow)
  /-- `DELETE FROM channel_writes WHERE thread_id=?` -/
  | deleteWrites (threadId : String)
  /-- `DELETE FROM checkpoints WHERE thread_id=?` -/
  | deleteCheckpoints (threadId : String)

namespace Statement

/-- The answers. -/
abbrev Answer : Statement → Type
  | selectCheckpoint _ => Option CheckpointRow
  | selectLatest _ _ => Option CheckpointRow
  | _ => Unit

/-- The thread a statement is about. -/
def thread : Statement → String
  | selectCheckpoint key => key.threadId
  | selectLatest threadId _ => threadId
  | insertCheckpoint row => row.threadId
  | insertWrite row => row.threadId
  | deleteWrites threadId => threadId
  | deleteCheckpoints threadId => threadId

end Statement

instance (db : SaverDb) (threadId checkpointNs : String) (row : CheckpointRow) :
    Decidable (IsLatest db threadId checkpointNs row) :=
  decidable_of_iff (row ∈ db.checkpoints.rows ∧ row.threadId = threadId ∧
      row.checkpointNs = checkpointNs ∧ ∀ row' ∈ db.checkpoints.rows, row'.threadId = threadId →
        row'.checkpointNs = checkpointNs → row'.createdAt ≤ row.createdAt)
    ⟨fun h => ⟨h.1, h.2.1, h.2.2.1, h.2.2.2⟩, fun h => ⟨h.mem, h.thread, h.ns, h.greatest⟩⟩

/-- A row the ordered `SELECT` may answer with. -/
def MayRead (db : SaverDb) (threadId checkpointNs : String) : Option CheckpointRow → Prop
  | some row => IsLatest db threadId checkpointNs row
  | none => ∀ row ∈ db.checkpoints.rows,
      ¬ (row.threadId = threadId ∧ row.checkpointNs = checkpointNs)

instance (db : SaverDb) (threadId checkpointNs : String) :
    DecidablePred (MayRead db threadId checkpointNs)
  | some row => inferInstanceAs (Decidable (IsLatest db threadId checkpointNs row))
  | none => inferInstanceAs (Decidable (∀ row ∈ db.checkpoints.rows,
      ¬ (row.threadId = threadId ∧ row.checkpointNs = checkpointNs)))

/-- The statements, on the two tables. The environment chooses among rows of one `created_at`. -/
def language : Language Statement Statement.Answer (Option CheckpointRow) SaverDb where
  exec
    | .selectCheckpoint key, _, db => some (db.checkpoints.get key, db)
    | .selectLatest threadId checkpointNs, row, db =>
      if MayRead db threadId checkpointNs row then some (row, db) else none
    | .insertCheckpoint row, _, db =>
      some ((), { db with checkpoints := db.checkpoints.replace row })
    | .insertWrite row, _, db =>
      some ((), { db with channelWrites := db.channelWrites.replace row })
    | .deleteWrites threadId, _, db =>
      some ((), { db with channelWrites := db.channelWrites.delete (·.threadId = threadId) })
    | .deleteCheckpoints threadId, _, db =>
      some ((), { db with checkpoints := db.checkpoints.delete (·.threadId = threadId) })

variable {C W ε : Type} (ckpt : Serde C) (serde : Serde W)

/-- What the methods return. -/
inductive Reply (C W : Type) : Type where
  | none
  | config (config : SaverConfig)
  | tuple (tuple : Option (CheckpointTuple C W))
  | tuples (tuples : List (CheckpointTuple C W))

/-! ## The methods -/

namespace Coroutine

/-- `aget_tuple`. -/
def agetTuple (config : SaverConfig) :
    ConnProg Statement Statement.Answer ε (Option (CheckpointTuple C W)) := do
  let row ← match config.checkpointId with
    | some id =>
      if id = "" then execute (Statement.selectLatest config.threadId config.checkpointNs)
      else execute (Statement.selectCheckpoint ⟨config.threadId, config.checkpointNs, id⟩)
    | none => execute (Statement.selectLatest config.threadId config.checkpointNs)
  return row.map (rowToTuple ckpt)

/-- `alist`, which looks at its configuration alone. -/
def alist (config : Option SaverConfig) :
    ConnProg Statement Statement.Answer ε (List (CheckpointTuple C W)) := do
  match config with
  | none => return []
  | some config => return (← agetTuple ckpt config).toList

/-- `aput`. -/
def aput (put : Put C) : ConnProg Statement Statement.Answer ε SaverConfig := do
  execute (Statement.insertCheckpoint (put.row ckpt))
  commit
  return put.config

/-- The row of one write. -/
def writeRow (config : SaverConfig) (taskId taskPath now : String) (write : (String × W) × ℕ) :
    ChannelWriteRow where
  threadId := config.threadId
  checkpointNs := config.checkpointNs
  checkpointId := config.checkpointId.getD ""
  taskId := taskId
  taskPath := taskPath
  idx := write.2
  channel := write.1.1
  value := serde.dumps write.1.2
  createdAt := now

/-- `aput_writes`. -/
def aputWrites (config : SaverConfig) (writes : List (String × W)) (taskId taskPath now : String) :
    ConnProg Statement Statement.Answer ε Unit := do
  writes.zipIdx.forM fun write =>
    execute (Statement.insertWrite (writeRow serde config taskId taskPath now write))
  commit

/-- `adelete_thread`. -/
def adeleteThread (threadId : String) : ConnProg Statement Statement.Answer ε Unit := do
  execute (Statement.deleteWrites threadId)
  execute (Statement.deleteCheckpoints threadId)
  commit

end Coroutine

/-- A call of a method. -/
inductive Method (C W : Type) : Type where
  | agetTuple (config : SaverConfig)
  | alist (config : Option SaverConfig)
  | aput (put : Put C)
  | aputWrites (config : SaverConfig) (writes : List (String × W)) (taskId taskPath now : String)
  | adeleteThread (threadId : String)

namespace Method

/-- What the call runs. -/
def code : Method C W → ConnProg Statement Statement.Answer ε (Reply C W)
  | agetTuple config => .tuple <$> Coroutine.agetTuple ckpt config
  | alist config => .tuples <$> Coroutine.alist ckpt config
  | aput put => .config <$> Coroutine.aput ckpt put
  | aputWrites config writes taskId taskPath now =>
    (fun _ => .none) <$> Coroutine.aputWrites serde config writes taskId taskPath now
  | adeleteThread threadId => (fun _ => .none) <$> Coroutine.adeleteThread threadId

/-- The call is on this thread. -/
def On (threadId : String) : Method C W → Prop
  | agetTuple config => config.threadId = threadId
  | alist config => ∃ c, config = some c ∧ c.threadId = threadId
  | aput put => put.config.threadId = threadId
  | aputWrites config _ _ _ _ => config.threadId = threadId
  | adeleteThread thread => thread = threadId

/-- What a call may ask of the connection: its own rows, on its own thread. -/
def May : Method C W → ConnOp Statement → Prop
  | _, .commit => True
  | agetTuple config, .execute (.selectCheckpoint key) => key.threadId = config.threadId
  | agetTuple config, .execute (.selectLatest threadId _) => threadId = config.threadId
  | alist config, .execute (.selectCheckpoint key) =>
    ∃ c, config = some c ∧ key.threadId = c.threadId
  | alist config, .execute (.selectLatest threadId _) =>
    ∃ c, config = some c ∧ threadId = c.threadId
  | aput put, .execute (.insertCheckpoint row) => row = put.row ckpt
  | aputWrites config _ _ _ _, .execute (.insertWrite row) => row.threadId = config.threadId
  | adeleteThread thread, .execute (.deleteWrites threadId) => threadId = thread
  | adeleteThread thread, .execute (.deleteCheckpoints threadId) => threadId = thread
  | _, _ => False

end Method

/-! ## What the calls do -/

/-- What `aget_tuple` may return. -/
def Returns (db : SaverDb) (config : SaverConfig) (result : Option (CheckpointTuple C W)) : Prop :=
  match config.checkpointId with
  | some id =>
    if id = "" then Reads ckpt db config.threadId config.checkpointNs result
    else result = (db.checkpoints.get ⟨config.threadId, config.checkpointNs, id⟩).map
      (rowToTuple ckpt)
  | none => Reads ckpt db config.threadId config.checkpointNs result

variable {ckpt serde} {db db' : SaverDb} {config : SaverConfig}

/-- What `aget_tuple` returns where nobody else is there is one of these. -/
theorem returns_agetTuple (db : SaverDb) (config : SaverConfig) :
    Returns (W := W) ckpt db config (agetTuple ckpt db config) := by
  rw [agetTuple, fetch, Returns]
  cases config.checkpointId with
  | none => exact reads_latest
  | some id =>
    by_cases hid : id = ""
    · simp only [if_pos hid]
      exact reads_latest
    · simp only [if_neg hid]

theorem reads_of_mayRead {threadId checkpointNs : String} {row : Option CheckpointRow}
    (h : MayRead db threadId checkpointNs row) :
    Reads ckpt db threadId checkpointNs (row.map (rowToTuple (W := W) ckpt)) := by
  cases row with
  | some row => exact .row row h
  | none => exact .nothing h

theorem exec_selectLatest {threadId checkpointNs : String} {row a : Option CheckpointRow}
    (h : language.exec (.selectLatest threadId checkpointNs) row db = some (a, db')) :
    db' = db ∧ MayRead db threadId checkpointNs a := by
  obtain ⟨hread, heq⟩ := Option.ite_none_right_eq_some.mp h
  cases heq
  exact ⟨rfl, hread⟩

/-- **Reading**: `aget_tuple` asks one question, and returns what may be returned where it is
answered. -/
theorem agetTuple_returns (config : SaverConfig) :
    ∃ (s : Statement) (f : s.Answer → Option (CheckpointTuple C W)),
      (Coroutine.agetTuple ckpt config : ConnProg Statement Statement.Answer ε _) =
          (execute s >>= fun a => .ret (f a)) ∧
        ∀ {db row a db'}, language.exec s row db = some (a, db') →
          db' = db ∧ Returns ckpt db config (f a) := by
  have hlatest : ∀ {db row a db'}, language.exec
      (.selectLatest config.threadId config.checkpointNs) row db = some (a, db') → db' = db ∧
        Reads (W := W) ckpt db config.threadId config.checkpointNs
          (Option.map (rowToTuple ckpt) a) :=
    fun h => ⟨(exec_selectLatest h).1, reads_of_mayRead (exec_selectLatest h).2⟩
  unfold Coroutine.agetTuple Returns
  cases config.checkpointId with
  | none => exact ⟨.selectLatest .., Option.map (rowToTuple ckpt), rfl, hlatest⟩
  | some id =>
    by_cases hid : id = ""
    · subst hid
      exact ⟨.selectLatest .., Option.map (rowToTuple ckpt), rfl, hlatest⟩
    · refine ⟨.selectCheckpoint ⟨config.threadId, config.checkpointNs, id⟩,
        Option.map (rowToTuple ckpt), ?_, fun h => ?_⟩
      · simp only [if_neg hid]
        rfl
      · cases h
        exact ⟨rfl, (if_neg hid).mpr rfl⟩

variable (ckpt serde)

theorem agetTuple_only {config : SaverConfig} {P : ConnOp Statement → Prop}
    (hid : ∀ key, key.threadId = config.threadId → P (.execute (.selectCheckpoint key)))
    (hlatest : ∀ ns, P (.execute (.selectLatest config.threadId ns))) :
    (Coroutine.agetTuple (W := W) ckpt config :
      ConnProg Statement Statement.Answer ε _).Only P := by
  unfold Coroutine.agetTuple
  split
  · split
    · exact only_execute (hlatest _) fun _ => trivial
    · exact only_execute (hid _ rfl) fun _ => trivial
  · exact only_execute (hlatest _) fun _ => trivial

theorem code_only (call : Method C W) :
    (call.code ckpt serde : ConnProg Statement Statement.Answer ε _).Only (call.May ckpt) := by
  cases call with
  | agetTuple config =>
    apply only_map
    exact agetTuple_only ckpt (fun _ h => h) fun _ => rfl
  | alist config =>
    apply only_map
    cases config with
    | none => exact trivial
    | some config =>
      refine Prog.Only.bind ?_ (agetTuple_only ckpt ?_ ?_)
      · exact fun _ => trivial
      · exact fun key h => ⟨config, rfl, h⟩
      · exact fun _ => ⟨config, rfl, rfl⟩
  | aput put =>
    apply only_map
    exact only_execute rfl fun _ => only_map (only_commit trivial)
  | aputWrites config writes taskId taskPath now =>
    apply only_map
    refine Prog.Only.bind ?_ ?_
    · exact fun _ => only_commit trivial
    · induction writes.zipIdx with
      | nil => exact trivial
      | cons w l ih => exact only_execute rfl fun _ => ih
  | adeleteThread threadId =>
    apply only_map
    exact only_execute rfl fun _ => only_execute rfl fun _ => only_commit trivial

/-- A line of the history. -/
abbrev SaverLine (C W ε : Type) : Type :=
  Line Statement Statement.Answer (Option CheckpointRow) ε (Method C W)

/-- The runs of the saver. -/
abbrev Runs (ε : Type) :
    (language.machine (ε := ε) (Method.code ckpt serde)).Config →
      (language.machine (ε := ε) (Method.code ckpt serde)).Config → Prop :=
  language.Runs (Method.code ckpt serde)

variable {c c' : (language.machine (ε := ε) (Method.code ckpt serde)).Config}
  {conn : Shared SaverDb}

/-- The rows of a call of `aput` are its own. -/
theorem mem_aput_of_insert (h : Runs ckpt serde ε (Pool.init conn) c) {e : SaverLine C W ε}
    (he : e ∈ c.hist) {row : CheckpointRow} (hop : e.op = .execute (.insertCheckpoint row)) :
    ∃ q, e.call = .aput q ∧ row = q.row ckpt := by
  have hmay := h.only (code_only ckpt serde) e he
  rw [hop] at hmay
  cases hcall : e.call with
  | aput q =>
    rw [hcall] at hmay
    exact ⟨q, rfl, hmay⟩
  | agetTuple config => rw [hcall] at hmay; cases hmay
  | alist config => rw [hcall] at hmay; cases hmay
  | aputWrites config writes taskId taskPath now => rw [hcall] at hmay; cases hmay
  | adeleteThread threadId => rw [hcall] at hmay; cases hmay

/-! ## Saves and a deletion -/

/-- The rows of a thread. -/
def ofThread (threadId : String) (db : SaverDb) : List CheckpointRow × List ChannelWriteRow :=
  (db.checkpoints.rows.filter (·.threadId = threadId),
    db.channelWrites.rows.filter (·.threadId = threadId))

theorem mem_ofThread {threadId : String} {row : CheckpointRow} :
    row ∈ (ofThread threadId db).1 ↔ row ∈ db.checkpoints.rows ∧ row.threadId = threadId := by
  rw [ofThread, List.mem_filter, decide_eq_true_eq]

instance (threadId : String) : DecidablePred (Method.On (C := C) (W := W) threadId)
  | .agetTuple config => inferInstanceAs (Decidable (config.threadId = threadId))
  | .alist none => isFalse nofun
  | .alist (some config) => decidable_of_iff (config.threadId = threadId)
      ⟨fun h => ⟨config, rfl, h⟩, fun ⟨_, h, hthread⟩ => Option.some.inj h ▸ hthread⟩
  | .aput put => inferInstanceAs (Decidable (put.config.threadId = threadId))
  | .aputWrites config _ _ _ _ => inferInstanceAs (Decidable (config.threadId = threadId))
  | .adeleteThread thread => inferInstanceAs (Decidable (thread = threadId))

section Demo

/-- Coroutines over texts. -/
abbrev textMachine := language.machine (ε := Unit) (Method.code textSerde textSerde)

/-- A checkpoint of a thread. -/
def savedOn (threadId id : String) : Put String :=
  ⟨⟨threadId, "", none⟩, ⟨id, none, id⟩, "metadata", momentAt 2 (by decide)⟩

/-- Calls on the threads `t`, `v` and `u`. Those on `v` and `u` come to their end: a checkpoint of
each, and a write of `u`. -/
def saves : List (Machine.Act (Method String String) (ConnOp Statement)
    (Except Unit (Option CheckpointRow))) :=
  [.spawn (.aput (savedOn "t" "c1")), .spawn (.aput (savedOn "v" "c2")),
    .spawn (.aput (savedOn "u" "c3")),
    .spawn (.aputWrites ⟨"u", "", some "c3"⟩ [("messages", "hello")] "task" "" "2026-01-01"),
    .steps 1 2 fun _ => .ok none, .steps 2 2 fun _ => .ok none, .steps 3 2 fun _ => .ok none]

/-- The checkpoint is put on thread `t`, and in between thread `u` is deleted. -/
def saveAndDelete : List (Machine.Act (Method String String) (ConnOp Statement)
    (Except Unit (Option CheckpointRow))) :=
  [.spawn (.adeleteThread "u"), .steps 0 1 fun _ => .ok none, .steps 4 3 fun _ => .ok none,
    .steps 0 1 fun _ => .ok none]

/-- What is there between the two, and at the end. -/
structure SavedAndDeleted (c₁ c : textMachine.Config) (put : Put String)
    (reply reply' : Reply String String) : Prop where
  before : Runs textSerde textSerde Unit (Pool.init ⟨⟨.empty, .empty⟩, ⟨.empty, .empty⟩⟩) c₁
  after : Runs textSerde textSerde Unit c₁ c
  id_ne : put.checkpoint.id ≠ ""
  saved : c.At 0 (.aput put) (.ret reply)
  deleted : c.At 4 (.adeleteThread "u") (.ret reply')
  rowsOfV : ∀ db ∈ [c₁.shared.stored, c₁.shared.working],
    (ofThread "v" db).1 = [(savedOn "v" "c2").row textSerde]
  rowsOfU : (ofThread "u" c₁.shared.stored).1 = [(savedOn "u" "c3").row textSerde] ∧
    (ofThread "u" c₁.shared.stored).2.length = 1
  notOnV : ∀ e ∈ c.hist.take (c.hist.length - c₁.hist.length), ¬ e.call.On "v"

/-- The same, computed. -/
def savedAndDeleted (c₁ c : textMachine.Config) : Bool :=
  match textMachine.result? c 0, textMachine.result? c 4 with
  | some (.aput put, .ok _), some (.adeleteThread thread, .ok _) =>
    put.checkpoint.id = "c1" && thread = "u" &&
      ((∀ db ∈ [c₁.shared.stored, c₁.shared.working],
          (ofThread "v" db).1 = [(savedOn "v" "c2").row textSerde]) &&
        ((ofThread "u" c₁.shared.stored).1 = [(savedOn "u" "c3").row textSerde] ∧
          (ofThread "u" c₁.shared.stored).2.length = 1) &&
        ∀ e ∈ c.hist.take (c.hist.length - c₁.hist.length), ¬ e.call.On "v")
  | _, _ => false

theorem exists_savedAndDeleted : ∃ c₁ c put reply reply',
    SavedAndDeleted c₁ c put reply reply' := by
  have hrun : ((textMachine.run? (.free fun _ => True) saves
      (Pool.init ⟨⟨.empty, .empty⟩, ⟨.empty, .empty⟩⟩)).map fun c₁ =>
        ((textMachine.run? (.free fun _ => True) saveAndDelete c₁).map
          (savedAndDeleted c₁)).getD false).getD false = true := by
    decide +kernel
  obtain ⟨c₁, c, hbefore, hafter, hc⟩ := Machine.exists_reach_of_run?_run? hrun
  unfold savedAndDeleted at hc
  split at hc
  · rename_i put reply thread reply' h₀ h₁
    simp only [Bool.and_eq_true, decide_eq_true_eq] at hc
    obtain ⟨⟨hid, rfl⟩, ⟨hv, hu⟩, hnot⟩ := hc
    exact ⟨c₁, c, put, reply, reply', hbefore.restarts, hafter.restarts, hid ▸ by decide,
      Machine.at_of_result? h₀, Machine.at_of_result? h₁, hv, hu, hnot⟩
  · cases hc

end Demo

/-! ## Kept -/

section Kept

variable (put : Put C)

/-- The row, or one that was put under its key later, is in the table, unless the thread was
deleted. -/
def RowKept (later : List (SaverLine C W ε)) (db : SaverDb) : Prop :=
  (∃ e ∈ later, e.op = .execute (.deleteCheckpoints put.config.threadId)) ∨
    ∃ row, (row = put.row ckpt ∨ ∃ e ∈ later, e.op = .execute (.insertCheckpoint row)) ∧
      db.checkpoints.get put.key = some row

variable {ckpt put}

theorem rowKept_grow {later : List (SaverLine C W ε)} {e : SaverLine C W ε}
    (h : RowKept ckpt put later db) : RowKept ckpt put (e :: later) db := by
  rcases h with ⟨e', he', hop⟩ | ⟨row, hrow, hget⟩
  · exact .inl ⟨e', List.mem_cons_of_mem _ he', hop⟩
  · refine .inr ⟨row, hrow.imp_right ?_, hget⟩
    exact fun ⟨e', he', hop⟩ => ⟨e', List.mem_cons_of_mem _ he', hop⟩

/-- Statements that leave the checkpoints alone. -/
theorem rowKept_of_same {later : List (SaverLine C W ε)} (h : RowKept ckpt put later db)
    (hsame : db'.checkpoints = db.checkpoints) : RowKept ckpt put later db' := by
  rw [RowKept, hsame]
  exact h

theorem rowKept_upkeep : Upkeep language ε (Method C W) (RowKept ckpt put) := by
  refine .of_grow rowKept_grow ?_
  intro later db db' i call s row env a h hexec
  cases s with
  | selectCheckpoint key =>
    cases hexec
    exact rowKept_grow h
  | selectLatest threadId checkpointNs =>
    obtain ⟨rfl, -⟩ := exec_selectLatest hexec
    exact rowKept_grow h
  | insertWrite row =>
    cases hexec
    exact rowKept_grow (rowKept_of_same h rfl)
  | deleteWrites threadId =>
    cases hexec
    exact rowKept_grow (rowKept_of_same h rfl)
  | insertCheckpoint new =>
    cases hexec
    by_cases hkey : put.key = new.key
    · refine .inr ⟨new, .inr ⟨_, List.mem_cons_self, rfl⟩, ?_⟩
      rw [Table.get_replace, if_pos hkey]
    · rcases rowKept_grow h with hdel | ⟨row', hrow', hget⟩
      · exact .inl hdel
      · refine .inr ⟨row', hrow', ?_⟩
        rw [Table.get_replace, if_neg hkey]
        exact hget
  | deleteCheckpoints threadId =>
    cases hexec
    by_cases hthread : threadId = put.config.threadId
    · subst hthread
      exact .inl ⟨_, List.mem_cons_self, rfl⟩
    · rcases rowKept_grow h with hdel | ⟨row', hrow', hget⟩
      · exact .inl hdel
      · refine .inr ⟨row', hrow', Table.get_delete_of_some hget ?_⟩
        have hrow : row'.threadId = put.config.threadId :=
          congrArg CheckpointKey.threadId (Table.key_of_get hget)
        simpa [hrow] using Ne.symm hthread

theorem aput_saves : Saves (Is (.insertCheckpoint (put.row ckpt))) (fun _ => True)
    (Method.code ckpt serde (.aput put) : ConnProg Statement Statement.Answer ε (Reply C W)) := by
  apply savesFrom_map
  exact savesFrom_is fun _ => savesFrom_map savesFrom_commit

theorem rowKept_put {s : Statement} {row : Option CheckpointRow} {a : s.Answer}
    (hs : Is (.insertCheckpoint (put.row ckpt)) s a)
    (hexec : language.exec s row db = some (a, db')) :
    RowKept (W := W) (ε := ε) ckpt put [] db' := by
  have hstatement : s = .insertCheckpoint (put.row ckpt) := hs
  subst hstatement
  cases hexec
  refine .inr ⟨put.row ckpt, .inl rfl, ?_⟩
  rw [Table.get_replace]
  exact if_pos rfl

variable (ckpt put)

/-- The call put the checkpoint under its key: this one, or a later one. -/
def PutLater (later : List (SaverLine C W ε)) (q : Put C) : Prop :=
  q = put ∨ ∃ e ∈ later, e.call = .aput q ∧ e.op = .execute (.insertCheckpoint (q.row ckpt))

variable {ckpt put}

/-- Since the row was inserted, and whatever has happened since, there is a row of such a call. -/
theorem row_since (h : Runs ckpt serde ε (Pool.init conn) c) {i : ℕ} {reply : Reply C W}
    (hret : c.At i (.aput put) (.ret reply)) (h' : Runs ckpt serde ε c c') {db : SaverDb}
    (hdb : db = c'.shared.stored ∨ db = c'.shared.working) :
    Since (Is (.insertCheckpoint (put.row ckpt))) (fun later =>
      (∃ e ∈ later, e.op = .execute (.deleteCheckpoints put.config.threadId)) ∨
        ∃ q, PutLater ckpt put later q ∧ db.checkpoints.get put.key = some (q.row ckpt))
      i (.aput put) c'.hist := by
  have hsince := rowKept_upkeep.acknowledged (fun hs hexec => rowKept_put hs hexec)
    (aput_saves serde) h hret trivial h' hdb
  refine hsince.within.imp fun {later} ⟨hkept, hhist⟩ => hkept.imp_right ?_
  rintro ⟨row, rfl | ⟨e, he, hop⟩, hget⟩
  · exact ⟨put, .inl rfl, hget⟩
  · obtain ⟨q, hcall, rfl⟩ := mem_aput_of_insert ckpt serde (h.trans h') (hhist e he) hop
    exact ⟨q, .inr ⟨e, he, hcall, hop⟩, hget⟩

variable (ckpt put)

/-- Read under its id, the checkpoint comes back, or one that was put under that id later, unless
the thread was deleted. -/
def Kept (later : List (SaverLine C W ε)) (db : SaverDb) : Prop :=
  (∃ e ∈ later, e.op = .execute (.deleteCheckpoints put.config.threadId)) ∨
    ∃ q, PutLater ckpt put later q ∧ q.key = put.key ∧
      ∀ result : Option (CheckpointTuple C W),
        Returns ckpt db
          ⟨put.config.threadId, put.config.checkpointNs, some put.checkpoint.id⟩ result →
        result = some q.tuple

variable {ckpt put}

/-- **Kept**: once `aput` has returned, the checkpoint is read back under its id, or one that was
put under that id later, until somebody deletes the thread. So it is in what the other coroutines
see and in what a new process finds. -/
theorem checkpoint_kept (hid : put.checkpoint.id ≠ "")
    (h : Runs ckpt serde ε (Pool.init conn) c) {i : ℕ} {reply : Reply C W}
    (hret : c.At i (.aput put) (.ret reply)) (h' : Runs ckpt serde ε c c') {db : SaverDb}
    (hdb : db = c'.shared.stored ∨ db = c'.shared.working) :
    Since (Is (.insertCheckpoint (put.row ckpt))) (Kept ckpt put · db) i (.aput put) c'.hist := by
  refine (row_since serde h hret h' hdb).imp fun {later} hkept => hkept.imp_right ?_
  rintro ⟨q, hq, hget⟩
  have hkey : (q.row ckpt).key = put.key := Table.key_of_get hget
  refine ⟨q, hq, hkey, fun result hresult => ?_⟩
  have hget' : result = (db.checkpoints.get put.key).map (rowToTuple ckpt) :=
    (if_neg hid).mp hresult
  rw [hget', hget, Option.map_some, Put.rowToTuple_row]

/-- A process that takes over finds the checkpoint. -/
theorem saved_checkpoint_found : ∃ (c : textMachine.Config) (put : Put String)
    (reply : Reply String String), c.At 0 (.aput put) (.ret reply) ∧
      Since (Is (.insertCheckpoint (put.row textSerde)))
        (Kept textSerde put · (c.restart Shared.rollback).shared.working) 0 (.aput put) c.hist := by
  obtain ⟨c₁, c, put, reply, reply', h⟩ := exists_savedAndDeleted
  exact ⟨c, put, reply, h.saved, checkpoint_kept textSerde h.id_ne (h.before.trans h.after) h.saved
    (.single (.restart c)) (.inr rfl)⟩

/-- Nothing older is read than the reading of the clock at which the checkpoint was put, unless
the thread was deleted or the checkpoint was put again at an earlier reading. -/
def NotBehind (put : Put C) (later : List (SaverLine C W ε)) (db : SaverDb) : Prop :=
  (∃ e ∈ later, e.op = .execute (.deleteCheckpoints put.config.threadId)) ∨
    (∃ e ∈ later, ∃ q : Put C, e.call = .aput q ∧ q.key = put.key ∧ q.now < put.now) ∨
    ∀ row, MayRead db put.config.threadId put.config.checkpointNs row →
      ∃ row', row = some row' ∧ put.now.isoformat ≤ row'.createdAt

/-- **Not behind**: once `aput` has returned, a reading of its thread and namespace without a
checkpoint id does not go back behind it. -/
theorem latest_not_behind (h : Runs ckpt serde ε (Pool.init conn) c) {i : ℕ} {reply : Reply C W}
    (hret : c.At i (.aput put) (.ret reply)) (h' : Runs ckpt serde ε c c') {db : SaverDb}
    (hdb : db = c'.shared.stored ∨ db = c'.shared.working) :
    Since (Is (.insertCheckpoint (put.row ckpt))) (NotBehind put · db) i (.aput put) c'.hist := by
  refine (row_since serde h hret h' hdb).imp fun {later} hkept => hkept.imp_right ?_
  rintro ⟨q, hq, hget⟩
  obtain ⟨hmem, hkey⟩ := Table.get_eq_some_iff.mp hget
  by_cases hback : ∃ e ∈ later, ∃ q : Put C, e.call = .aput q ∧ q.key = put.key ∧ q.now < put.now
  · exact .inl hback
  refine .inr fun read hread => ?_
  have hcreated : put.now.isoformat ≤ (q.row ckpt).createdAt := by
    rcases hq with rfl | ⟨e', he', hcall, -⟩
    · exact le_refl q.now.isoformat
    · refine (UtcDatetime.isoformat_le_iff _ _).mpr (not_lt.mp fun hlt => ?_)
      exact hback ⟨e', he', q, hcall, hkey, hlt⟩
  have hthread : q.config.threadId = put.config.threadId := congrArg CheckpointKey.threadId hkey
  have hns : q.config.checkpointNs = put.config.checkpointNs :=
    congrArg CheckpointKey.checkpointNs hkey
  cases read with
  | none => exact absurd ⟨hthread, hns⟩ (hread _ hmem)
  | some row =>
    have hlatest : IsLatest db put.config.threadId put.config.checkpointNs row := hread
    exact ⟨row, rfl, hcreated.trans (hlatest.greatest _ hmem hthread hns)⟩

/-- A process that takes over reads nothing older. -/
theorem latest_found : ∃ (c : textMachine.Config) (put : Put String)
    (reply : Reply String String), c.At 0 (.aput put) (.ret reply) ∧
      Since (Is (.insertCheckpoint (put.row textSerde)))
        (NotBehind put · (c.restart Shared.rollback).shared.working) 0 (.aput put) c.hist := by
  obtain ⟨c₁, c, put, reply, reply', h⟩ := exists_savedAndDeleted
  exact ⟨c, put, reply, h.saved, latest_not_behind textSerde (h.before.trans h.after) h.saved
    (.single (.restart c)) (.inr rfl)⟩

end Kept

/-! ## The other threads -/

section Isolation

variable {ckpt serde} (threadId : String)

/-- The rows of a thread are touched by statements about it alone. -/
def threadView : View language (List CheckpointRow × List ChannelWriteRow) where
  view := ofThread threadId
  touches s := s.thread = threadId
  alone := by
    intro s row db a db' hs hexec
    cases s with
    | selectCheckpoint key =>
      cases hexec
      rfl
    | selectLatest thread checkpointNs =>
      obtain ⟨rfl, -⟩ := exec_selectLatest hexec
      rfl
    | insertCheckpoint new =>
      cases hexec
      refine congrArg (·, _) (Table.filter_replace (decide_eq_false hs) ?_)
      intro row _ hrow hkey
      exact hs ((congrArg CheckpointKey.threadId hkey).symm.trans (of_decide_eq_true hrow))
    | insertWrite new =>
      cases hexec
      refine congrArg (_, ·) (Table.filter_replace (decide_eq_false hs) ?_)
      intro row _ hrow hkey
      have hthread := congrArg (fun k : CheckpointKey × String × ℕ => k.1.threadId) hkey
      exact hs (hthread.symm.trans (of_decide_eq_true hrow))
    | deleteWrites thread =>
      cases hexec
      have hne : threadId ≠ thread := Ne.symm hs
      rw [ofThread, ofThread, Table.filter_delete]
      intro row _ hrow
      simpa [of_decide_eq_true hrow] using hne
    | deleteCheckpoints thread =>
      cases hexec
      have hne : threadId ≠ thread := Ne.symm hs
      rw [ofThread, ofThread, Table.filter_delete]
      intro row _ hrow
      simpa [of_decide_eq_true hrow] using hne

variable {threadId}

/-- What is read of a thread is read in its rows. -/
theorem returns_of_same (hthread : config.threadId = threadId)
    (hsame : (ofThread threadId db).1 = (ofThread threadId db').1)
    {result : Option (CheckpointTuple C W)} (h : Returns ckpt db config result) :
    Returns ckpt db' config result := by
  subst hthread
  have hmem : ∀ row : CheckpointRow, row.threadId = config.threadId →
      (row ∈ db.checkpoints.rows ↔ row ∈ db'.checkpoints.rows) := by
    intro row hrow
    have hiff : row ∈ (ofThread config.threadId db).1 ↔
        row ∈ db.checkpoints.rows ∧ row.threadId = config.threadId := mem_ofThread
    rw [hsame, mem_ofThread] at hiff
    simpa [hrow] using hiff.symm
  have hreads : ∀ {ns}, Reads ckpt db config.threadId ns result →
      Reads ckpt db' config.threadId ns result := by
    intro ns hread
    cases hread with
    | nothing hnone =>
      exact .nothing fun row hrow hon => hnone row ((hmem row hon.1).mpr hrow) hon
    | row row hrow =>
      refine .row row ⟨(hmem row hrow.thread).mp hrow.mem, hrow.thread, hrow.ns, ?_⟩
      exact fun row' hrow' ht hns => hrow.greatest row' ((hmem row' ht).mpr hrow') ht hns
  have hget : ∀ id, db.checkpoints.get ⟨config.threadId, config.checkpointNs, id⟩ =
      db'.checkpoints.get ⟨config.threadId, config.checkpointNs, id⟩ := by
    intro id
    refine Option.ext fun row => ?_
    rw [Table.get_eq_some_iff, Table.get_eq_some_iff]
    refine and_congr_left fun hkey => hmem row ?_
    exact congrArg CheckpointKey.threadId hkey
  unfold Returns at h ⊢
  cases hid : config.checkpointId with
  | none =>
    rw [hid] at h
    exact hreads h
  | some id =>
    rw [hid] at h
    by_cases hempty : id = ""
    · simp only [if_pos hempty] at h ⊢
      exact hreads h
    · simp only [if_neg hempty] at h ⊢
      rw [h, hget]

/-- A call asks for rows of its own thread. -/
theorem on_of_may {call : Method C W} {s : Statement} (h : call.May ckpt (.execute s)) :
    call.On s.thread := by
  cases call with
  | agetTuple config =>
    cases s <;> first | exact h.symm | cases h
  | alist config =>
    cases s <;> first | exact h.imp fun _ hc => ⟨hc.1, hc.2.symm⟩ | cases h
  | aput put =>
    cases s <;> first | exact congrArg CheckpointRow.threadId (Eq.symm h) | cases h
  | aputWrites config writes taskId taskPath now =>
    cases s <;> first | exact h.symm | cases h
  | adeleteThread thread =>
    cases s <;> first | exact h.symm | cases h

/-- **The other threads**: while nothing happens on a thread, what is read of it is what was read
before, or what was stored then if the process has been restarted. -/
theorem threads_isolated (h₀ : Runs ckpt serde ε (Pool.init conn) c)
    (h : Runs ckpt serde ε c c') (threadId : String) :
    ∃ since, c'.hist = since ++ c.hist ∧ ((∀ e ∈ since, ¬ e.call.On threadId) →
      ∀ config : SaverConfig, config.threadId = threadId →
      ∀ db ∈ [c'.shared.stored, c'.shared.working], ∀ result : Option (CheckpointTuple C W),
        Returns ckpt db config result →
          Returns ckpt c.shared.stored config result ∨
            Returns ckpt c.shared.working config result) := by
  obtain ⟨since, hhist, hview⟩ := (threadView threadId).unchanged h
  refine ⟨since, hhist, fun hsince config hconfig db hdb result hresult => ?_⟩
  have hrun : Runs ckpt serde ε (Pool.init conn) c' := h₀.trans h
  have honly := hrun.only (code_only ckpt serde)
  have hspared : ∀ e ∈ since, ∀ s, e.op = .execute s → ¬ (threadView threadId).touches s := by
    rintro e he s hop rfl
    have hmay := honly e (hhist ▸ List.mem_append_left _ he)
    rw [hop] at hmay
    exact hsince e he (on_of_may hmay)
  obtain ⟨hstored, hworking⟩ := hview hspared
  have hone : (threadView threadId).OneOf c.shared db := by
    simp only [List.mem_cons, List.not_mem_nil, or_false] at hdb
    rcases hdb with rfl | rfl
    · exact hstored
    · exact hworking
  refine hone.imp (fun hsame => ?_) fun hsame => ?_
  · exact returns_of_same hconfig (congrArg Prod.fst hsame) hresult
  · exact returns_of_same hconfig (congrArg Prod.fst hsame) hresult

/-- What is read of a thread with one checkpoint is that checkpoint. -/
theorem returns_of_single {put : Put C} {ns : String} {id : Option String}
    (hrows : (ofThread threadId db).1 = [put.row ckpt]) (hns : ns = put.config.checkpointNs)
    (hid : id = none ∨ id = some put.checkpoint.id) {result : Option (CheckpointTuple C W)}
    (h : Returns ckpt db ⟨threadId, ns, id⟩ result) : result = some put.tuple := by
  obtain ⟨hmem, hthread⟩ : put.row ckpt ∈ db.checkpoints.rows ∧ put.config.threadId = threadId :=
    mem_ofThread.mp (hrows ▸ List.mem_singleton_self _)
  have honly : ∀ row ∈ db.checkpoints.rows, row.threadId = threadId → row = put.row ckpt :=
    fun row hrow hon => List.mem_singleton.mp (hrows ▸ mem_ofThread.mpr ⟨hrow, hon⟩)
  have hreads : Reads ckpt db threadId ns result → result = some put.tuple := by
    rintro (⟨row, hrow⟩ | hnone)
    · rw [honly row hrow.mem hrow.thread, put.rowToTuple_row]
    · exact absurd ⟨hthread, hns.symm⟩ (hnone _ hmem)
  rcases hid with rfl | rfl
  · exact hreads h
  · unfold Returns at h
    dsimp only at h
    split_ifs at h
    · exact hreads h
    · have hget : db.checkpoints.get ⟨threadId, ns, put.checkpoint.id⟩ = some (put.row ckpt) :=
        Table.get_eq_some_iff.mpr ⟨hmem, by rw [← hthread, hns]; rfl⟩
      rw [h, hget, Option.map_some, put.rowToTuple_row]

/-- Neither the save nor the deletion is on thread `v`: a process that takes over reads its
checkpoint, with or without the id. -/
theorem third_thread_isolated : ∃ (c : textMachine.Config) (reply reply' : Reply String String)
    (put : Put String), c.At 0 (.aput put) (.ret reply) ∧
      c.At 4 (.adeleteThread "u") (.ret reply') ∧
      ∀ id ∈ [none, some "c2"], ∀ result : Option (CheckpointTuple String String),
        Returns textSerde (c.restart Shared.rollback).shared.working ⟨"v", "", id⟩ result ↔
          result = some (savedOn "v" "c2").tuple := by
  obtain ⟨c₁, c, put, reply, reply', h⟩ := exists_savedAndDeleted
  obtain ⟨since, hhist, hisolated⟩ := threads_isolated h.before h.after "v"
  have hsince : since = c.hist.take (c.hist.length - c₁.hist.length) := by simp [hhist]
  refine ⟨c, reply, reply', put, h.saved, h.deleted, fun id hid => ?_⟩
  have hid' : id = none ∨ id = some "c2" := by simpa using hid
  have honly (result : Option (CheckpointTuple String String))
      (hresult : Returns textSerde c.shared.stored ⟨"v", "", id⟩ result) :
      result = some (savedOn "v" "c2").tuple := by
    rcases hisolated (hsince ▸ h.notOnV) ⟨"v", "", id⟩ rfl c.shared.stored List.mem_cons_self result
      hresult with hstored | hworking
    · exact returns_of_single (h.rowsOfV _ List.mem_cons_self) rfl hid' hstored
    · exact returns_of_single (h.rowsOfV _ (List.mem_cons_of_mem _ List.mem_cons_self)) rfl hid'
        hworking
  intro result
  constructor
  · exact honly result
  · rintro rfl
    -- something is read, and there is nothing else to be read
    have hread : Returns textSerde c.shared.stored ⟨"v", "", id⟩
      (agetTuple (W := String) textSerde c.shared.stored ⟨"v", "", id⟩) := returns_agetTuple _ _
    rwa [honly _ hread] at hread

end Isolation

/-! ## Deleted -/

section Deleted

variable {ckpt serde} {threadId : String}

theorem checkpoints_exec {s : Statement} {choice : Option CheckpointRow} {a : s.Answer}
    (h : language.exec s choice db = some (a, db')) (row : CheckpointRow)
    (hrow : row ∈ db'.checkpoints.rows) :
    row ∈ db.checkpoints.rows ∨ s = .insertCheckpoint row := by
  cases s with
  | selectLatest thread checkpointNs =>
    obtain ⟨rfl, -⟩ := exec_selectLatest h
    exact .inl hrow
  | insertCheckpoint new =>
    cases h
    rcases Table.mem_replace.mp hrow with ⟨hmem, -⟩ | rfl
    · exact .inl hmem
    · exact .inr rfl
  | deleteCheckpoints thread =>
    cases h
    exact .inl (Table.mem_delete.mp hrow).1
  | selectCheckpoint key =>
    cases h
    exact .inl hrow
  | insertWrite new =>
    cases h
    exact .inl hrow
  | deleteWrites thread =>
    cases h
    exact .inl hrow

theorem writes_exec {s : Statement} {choice : Option CheckpointRow} {a : s.Answer}
    (h : language.exec s choice db = some (a, db')) (row : ChannelWriteRow)
    (hrow : row ∈ db'.channelWrites.rows) :
    row ∈ db.channelWrites.rows ∨ s = .insertWrite row := by
  cases s with
  | selectLatest thread checkpointNs =>
    obtain ⟨rfl, -⟩ := exec_selectLatest h
    exact .inl hrow
  | insertWrite new =>
    cases h
    rcases Table.mem_replace.mp hrow with ⟨hmem, -⟩ | rfl
    · exact .inl hmem
    · exact .inr rfl
  | deleteWrites thread =>
    cases h
    exact .inl (Table.mem_delete.mp hrow).1
  | selectCheckpoint key =>
    cases h
    exact .inl hrow
  | insertCheckpoint new =>
    cases h
    exact .inl hrow
  | deleteCheckpoints thread =>
    cases h
    exact .inl hrow

theorem adeleteThread_saves {s₀ : Statement}
    (hs₀ : s₀ = .deleteWrites threadId ∨ s₀ = .deleteCheckpoints threadId) :
    Saves (Is s₀) (fun _ => True) (Method.code ckpt serde (.adeleteThread threadId) :
      ConnProg Statement Statement.Answer ε (Reply C W)) := by
  apply savesFrom_map
  rcases hs₀ with rfl | rfl
  · exact savesFrom_is fun _ => savesFrom_execute fun _ => savesFrom_commit
  · exact savesFrom_execute fun _ => savesFrom_is fun _ => savesFrom_commit

/-- What is returned comes from a row of the thread. -/
theorem row_of_returns {tuple : CheckpointTuple C W} (h : Returns ckpt db config (some tuple)) :
    ∃ row ∈ db.checkpoints.rows, row.threadId = config.threadId ∧
      tuple = rowToTuple ckpt row := by
  have hreads : Reads ckpt db config.threadId config.checkpointNs (some tuple) →
      ∃ row ∈ db.checkpoints.rows, row.threadId = config.threadId ∧
        tuple = rowToTuple ckpt row := by
    rintro (⟨row, hrow⟩ | -)
    exact ⟨row, hrow.mem, hrow.thread, rfl⟩
  unfold Returns at h
  cases hid : config.checkpointId with
  | none =>
    rw [hid] at h
    exact hreads h
  | some id =>
    rw [hid] at h
    by_cases hempty : id = ""
    · exact hreads ((if_pos hempty).mp h)
    · have hget := ((if_neg hempty).mp h).symm
      obtain ⟨row, hrow, rfl⟩ := Option.map_eq_some_iff.mp hget
      obtain ⟨hmem, hkey⟩ := Table.get_eq_some_iff.mp hrow
      exact ⟨row, hmem, congrArg CheckpointKey.threadId hkey, rfl⟩

/-- What `aget_tuple` returns of the thread was put since. -/
def Forgotten (ckpt : Serde C) (threadId : String) (later : List (SaverLine C W ε)) (db : SaverDb) :
    Prop :=
  ∀ config : SaverConfig, config.threadId = threadId → ∀ tuple : CheckpointTuple C W,
    Returns ckpt db config (some tuple) →
      ∃ e ∈ later, ∃ put, e.call = .aput put ∧ tuple = put.tuple

/-- The writes that are left of the thread were inserted since. -/
def WritesForgotten (threadId : String) (later : List (SaverLine C W ε)) (db : SaverDb) : Prop :=
  InsertedSince (fun db => db.channelWrites.rows) (fun row => row.threadId = threadId)
    Statement.insertWrite later db

/-- Right after its deletion, there is nothing of the thread. -/
theorem checkpoints_deleted {s : Statement} {choice : Option CheckpointRow} {a : s.Answer}
    (hs : Is (.deleteCheckpoints threadId) s a)
    (hexec : language.exec s choice db = some (a, db')) :
    InsertedSince (fun db => db.checkpoints.rows) (fun row => row.threadId = threadId)
      Statement.insertCheckpoint ([] : List (SaverLine C W ε)) db' := by
  have hstatement : s = .deleteCheckpoints threadId := hs
  subst hstatement
  cases hexec
  intro row hrow hthread
  exact absurd hthread (of_decide_eq_false (Table.mem_delete.mp hrow).2)

theorem writes_deleted {s : Statement} {choice : Option CheckpointRow} {a : s.Answer}
    (hs : Is (.deleteWrites threadId) s a) (hexec : language.exec s choice db = some (a, db')) :
    WritesForgotten threadId ([] : List (SaverLine C W ε)) db' := by
  have hstatement : s = .deleteWrites threadId := hs
  subst hstatement
  cases hexec
  intro row hrow hthread
  exact absurd hthread (of_decide_eq_false (Table.mem_delete.mp hrow).2)

/-- **Deleted for good**: once `adelete_thread` has returned, what is read of the thread was put
after its checkpoints were deleted, and what is left of its writes was written after those were.
So it is in what the other coroutines see and in what a new process finds. -/
theorem deleted_for_good (h : Runs ckpt serde ε (Pool.init conn) c) {i : ℕ} {reply : Reply C W}
    (hret : c.At i (.adeleteThread threadId) (.ret reply)) (h' : Runs ckpt serde ε c c')
    {db : SaverDb} (hdb : db = c'.shared.stored ∨ db = c'.shared.working) :
    Since (Is (.deleteCheckpoints threadId)) (Forgotten ckpt threadId · db) i
        (.adeleteThread threadId) c'.hist ∧
      Since (Is (.deleteWrites threadId)) (WritesForgotten threadId · db) i
        (.adeleteThread threadId) c'.hist := by
  constructor
  · have hupkeep : Upkeep language ε (Method C W) (InsertedSince (fun db => db.checkpoints.rows)
        (fun row => row.threadId = threadId) Statement.insertCheckpoint) :=
      .insertedSince checkpoints_exec
    have hsince := hupkeep.acknowledged checkpoints_deleted (adeleteThread_saves (.inr rfl)) h hret
      trivial h' hdb
    refine hsince.within.imp fun {later} ⟨hrows, hhist⟩ config hconfig tuple htuple => ?_
    obtain ⟨row, hrow, hthread, rfl⟩ := row_of_returns htuple
    obtain ⟨e, he, hop⟩ := hrows row hrow (hthread.trans hconfig)
    obtain ⟨put, hcall, rfl⟩ := mem_aput_of_insert ckpt serde (h.trans h') (hhist e he) hop
    exact ⟨e, he, put, hcall, put.rowToTuple_row ckpt⟩
  · have hupkeep : Upkeep language ε (Method C W) (WritesForgotten threadId) :=
      .insertedSince writes_exec
    exact hupkeep.acknowledged writes_deleted (adeleteThread_saves (.inl rfl)) h hret trivial h'
      hdb

/-- A checkpoint and a write of thread `u` are stored when it is deleted; a process that takes over
finds nothing of it but what was stored later. -/
theorem deletion_found : ∃ (c₁ c : textMachine.Config) (reply : Reply String String),
    Runs textSerde textSerde Unit c₁ c ∧
      (ofThread "u" c₁.shared.stored).1 = [(savedOn "u" "c3").row textSerde] ∧
      (ofThread "u" c₁.shared.stored).2.length = 1 ∧
      c.At 4 (.adeleteThread "u") (.ret reply) ∧
      Since (Is (.deleteCheckpoints "u"))
          (Forgotten textSerde "u" · (c.restart Shared.rollback).shared.working) 4
          (.adeleteThread "u") c.hist ∧
        Since (Is (.deleteWrites "u"))
          (WritesForgotten "u" · (c.restart Shared.rollback).shared.working) 4
          (.adeleteThread "u") c.hist := by
  obtain ⟨c₁, c, put, reply, reply', h⟩ := exists_savedAndDeleted
  exact ⟨c₁, c, reply', h.after, h.rowsOfU.1, h.rowsOfU.2, h.deleted,
    deleted_for_good (h.before.trans h.after) h.deleted (.single (.restart c)) (.inr rfl)⟩

end Deleted

end SqliteCheckpointSaver

end BankingAgent
