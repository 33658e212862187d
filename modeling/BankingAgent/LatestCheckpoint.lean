import BankingAgent.CheckpointStore
import BankingAgent.Numbers.IsoFormat
import Mathlib.Data.List.Induction

/-!
# The latest checkpoint

Without a checkpoint id, `aget_tuple` selects by `ORDER BY created_at DESC LIMIT 1`. The texts
are ordered like the readings of the clock, so an older reading never wins; but nothing decides
between equal ones, and any row of the greatest `created_at` may come back.

* `latest_checkpoint_iff` — the checkpoint of the last `aput` comes back, whatever the choice,
  exactly if no other checkpoint was put at its reading.
-/

namespace BankingAgent

/-- The last element of a list that satisfies a predicate. -/
def LastWith {α : Type} (P : α → Prop) (l : List α) (a : α) : Prop :=
  ∃ before rest, l = before ++ a :: rest ∧ P a ∧ ∀ b ∈ rest, ¬ P b

namespace LastWith

variable {α : Type} {P : α → Prop} {l before rest : List α} {a b : α}

theorem concat_iff : LastWith P (l ++ [a]) b ↔ P a ∧ b = a ∨ ¬ P a ∧ LastWith P l b := by
  constructor
  · rintro ⟨before, rest, heq, hb, hrest⟩
    rcases List.eq_nil_or_concat' rest with rfl | ⟨rest, c, rfl⟩
    · obtain ⟨-, rfl⟩ := List.append_singleton_inj.mp heq
      exact .inl ⟨hb, rfl⟩
    · rw [← List.cons_append, ← List.append_assoc] at heq
      obtain ⟨rfl, rfl⟩ := List.append_singleton_inj.mp heq
      exact .inr ⟨hrest a (by simp), before, rest, rfl, hb, fun d hd => hrest d (by simp [hd])⟩
  · rintro (⟨ha, rfl⟩ | ⟨ha, before, rest, rfl, hb, hrest⟩)
    · exact ⟨l, [], rfl, ha, by simp⟩
    · refine ⟨before, rest ++ [a], by simp, hb, fun d hd => ?_⟩
      rcases List.mem_append.mp hd with hd | hd
      · exact hrest d hd
      · exact List.mem_singleton.mp hd ▸ ha

theorem exists_of_mem (ha : a ∈ l) (h : P a) : ∃ b, LastWith P l b := by
  induction l using List.reverseRecOn with
  | nil => simp at ha
  | append_singleton l c ih =>
    by_cases hc : P c
    · exact ⟨c, concat_iff.mpr (.inl ⟨hc, rfl⟩)⟩
    · have hmem : a ∈ l := by
        rcases List.mem_append.mp ha with hmem | hmem
        · exact hmem
        · exact absurd (List.mem_singleton.mp hmem ▸ h) hc
      obtain ⟨b, hb⟩ := ih hmem
      exact ⟨b, concat_iff.mpr (.inr ⟨hc, hb⟩)⟩

theorem mem (h : LastWith P l a) : a ∈ l := by
  obtain ⟨before, rest, rfl, -⟩ := h
  simp

theorem of_last (h : LastWith P l a) : P a := by
  obtain ⟨-, -, -, ha, -⟩ := h
  exact ha

/-- A relation that holds from left to right holds from each such element to the last one. -/
theorem of_pairwise {R : α → α → Prop} (hrefl : R a a) (hpairwise : l.Pairwise R)
    (h : LastWith P l a) (hb : b ∈ l) (hP : P b) : R b a := by
  obtain ⟨before, rest, rfl, -, hrest⟩ := h
  rcases List.mem_append.mp hb with hmem | hmem
  · exact (List.pairwise_append.mp hpairwise).2.2 b hmem a List.mem_cons_self
  · rcases List.mem_cons.mp hmem with rfl | hmem
    · exact hrefl
    · exact absurd hP (hrest b hmem)

end LastWith

namespace SqliteCheckpointSaver

variable {C W : Type} (ckpt : Serde C) (serde : Serde W)

/-! ## The calls -/

/-- A call of `aput`, with the reading of the clock. -/
structure Put (C : Type) : Type where
  config : SaverConfig
  checkpoint : GraphCheckpoint C
  metadata : C
  now : UtcDatetime

namespace Put

variable (put : Put C)

/-- The call, with the text of the reading. -/
def call : Call C W := .aput put.config put.checkpoint put.metadata put.now.isoformat

/-- The checkpoint it stores. -/
def key : CheckpointKey := ⟨put.config.threadId, put.config.checkpointNs, put.checkpoint.id⟩

/-- The row it stores. -/
def row : CheckpointRow where
  threadId := put.config.threadId
  checkpointNs := put.config.checkpointNs
  checkpointId := put.checkpoint.id
  parentCheckpointId := put.checkpoint.parentCheckpointId
  type := "checkpoint"
  checkpoint := ckpt.dumps put.checkpoint.body
  metadata := ckpt.dumps put.metadata
  createdAt := put.now.isoformat

/-- The call is on this thread and namespace. -/
def On (threadId checkpointNs : String) : Prop :=
  put.config.threadId = threadId ∧ put.config.checkpointNs = checkpointNs

/-- The tuple of the checkpoint that was put. -/
def tuple : CheckpointTuple C W where
  config := put.key
  checkpoint := put.checkpoint.body
  metadata := some put.metadata
  parentConfig :=
    put.checkpoint.parentCheckpointId.bind fun parent =>
      if parent = "" then none else some (put.config.threadId, parent)
  pendingWrites := none

theorem rowToTuple_row : rowToTuple (W := W) ckpt (put.row ckpt) = put.tuple := by
  simp [rowToTuple, row, tuple, key, ckpt.undo, ckpt.nonempty]

end Put

/-- The tables after these calls, from empty ones. -/
def afterPuts (puts : List (Put C)) : SaverDb :=
  run ckpt serde (puts.map Put.call) ⟨.empty, .empty⟩

/-! ## What may be read -/

variable (db : SaverDb) (threadId checkpointNs : String)

/-- A row of the thread and namespace with the greatest `created_at`. -/
structure IsLatest (row : CheckpointRow) : Prop where
  mem : row ∈ db.checkpoints.rows
  thread : row.threadId = threadId
  ns : row.checkpointNs = checkpointNs
  greatest : ∀ row' ∈ db.checkpoints.rows, row'.threadId = threadId →
    row'.checkpointNs = checkpointNs → row'.createdAt ≤ row.createdAt

/-- `aget_tuple` without a checkpoint id: the order is by `created_at` alone. -/
inductive Reads : Option (CheckpointTuple C W) → Prop where
  | row (row : CheckpointRow) (h : IsLatest db threadId checkpointNs row) :
      Reads (some (rowToTuple ckpt row))
  | nothing (h : ∀ row ∈ db.checkpoints.rows,
      ¬ (row.threadId = threadId ∧ row.checkpointNs = checkpointNs)) : Reads none

/-- What the scan of `latest` keeps of two rows. -/
def newer (best : Option CheckpointRow) (row : CheckpointRow) : Option CheckpointRow :=
  match best with
  | none => some row
  | some old => if old.createdAt < row.createdAt then some row else some old

variable (puts : List (Put C))

/-- Whatever may be read is the checkpoint of the last call on the thread and namespace. -/
def GetsLast : Prop :=
  ∀ put, LastWith (fun q : Put C => q.On threadId checkpointNs) puts put →
    ∀ result, Reads (W := W) ckpt (afterPuts ckpt serde puts) threadId checkpointNs result →
      result = some put.tuple

/-- The readings of the clock on the thread and namespace do not decrease. -/
def NonDecreasing : Prop :=
  puts.Pairwise fun p q => p.On threadId checkpointNs → q.On threadId checkpointNs → p.now ≤ q.now

/-- No other checkpoint of the thread and namespace was put at the reading of the last call. -/
def AloneAtLast : Prop :=
  ∀ put, LastWith (fun q : Put C => q.On threadId checkpointNs) puts put →
    ∀ q ∈ puts, q.On threadId checkpointNs → q.now = put.now → q.checkpoint.id = put.checkpoint.id

variable {ckpt serde db threadId checkpointNs puts}

/-- The row that the scan keeps is one of the greatest `created_at`, if there is any. -/
theorem scan_cases (rows : List CheckpointRow) :
    (rows = [] ∧ rows.foldl newer none = none) ∨
      ∃ best ∈ rows, rows.foldl newer none = some best ∧
        ∀ row ∈ rows, row.createdAt ≤ best.createdAt := by
  induction rows using List.reverseRecOn with
  | nil => exact .inl ⟨rfl, rfl⟩
  | append_singleton rows row ih =>
    refine .inr ?_
    rw [List.foldl_append]
    rcases ih with ⟨rfl, -⟩ | ⟨best, hbest, hfold, hgreatest⟩
    · exact ⟨row, by simp, rfl, by simp⟩
    · rw [hfold]
      by_cases hlt : best.createdAt < row.createdAt
      · refine ⟨row, by simp, if_pos hlt, fun other hother => ?_⟩
        rcases List.mem_append.mp hother with hmem | hmem
        · exact (hgreatest other hmem).trans hlt.le
        · exact (List.mem_singleton.mp hmem) ▸ le_rfl
      · refine ⟨best, by simp [hbest], if_neg hlt, fun other hother => ?_⟩
        rcases List.mem_append.mp hother with hmem | hmem
        · exact hgreatest other hmem
        · exact (List.mem_singleton.mp hmem) ▸ not_lt.mp hlt

/-- **The scan** of the model is one of the choices. -/
theorem reads_latest : Reads (W := W) ckpt db threadId checkpointNs
    ((latest db threadId checkpointNs).map (rowToTuple ckpt)) := by
  rcases scan_cases (db.checkpoints.rows.filter fun row =>
    row.threadId = threadId && row.checkpointNs = checkpointNs) with
    ⟨hnil, hfold⟩ | ⟨best, hbest, hfold, hgreatest⟩
  · have hnone : latest db threadId checkpointNs = none := hfold
    rw [hnone]
    refine .nothing fun row hrow hon => ?_
    have := List.filter_eq_nil_iff.mp hnil row hrow
    simp [hon] at this
  · have hsome : latest db threadId checkpointNs = some best := hfold
    rw [hsome]
    obtain ⟨hmem, hon⟩ := List.mem_filter.mp hbest
    have hon' : best.threadId = threadId ∧ best.checkpointNs = checkpointNs := by simpa using hon
    refine .row best ⟨hmem, hon'.1, hon'.2, fun row hrow hthread hns => ?_⟩
    exact hgreatest row (List.mem_filter.mpr ⟨hrow, by simp [hthread, hns]⟩)

/-! ## The rows -/

theorem afterPuts_concat (put : Put C) : (afterPuts ckpt serde (puts ++ [put])).checkpoints =
    (afterPuts ckpt serde puts).checkpoints.replace (put.row ckpt) := by
  rw [afterPuts, afterPuts, List.map_append, run, List.foldl_append]
  rfl

/-- **The rows** are those of the last call for each checkpoint. -/
theorem mem_rows_afterPuts {row : CheckpointRow} :
    row ∈ (afterPuts ckpt serde puts).checkpoints.rows ↔
      ∃ put, LastWith (fun q : Put C => q.key = put.key) puts put ∧ row = put.row ckpt := by
  induction puts using List.reverseRecOn with
  | nil => simp [afterPuts, run, Sql.Table.empty, LastWith]
  | append_singleton puts put ih =>
    have hreplace : row ∈ (afterPuts ckpt serde (puts ++ [put])).checkpoints.rows ↔
        row ∈ (afterPuts ckpt serde puts).checkpoints.rows ∧ row.key ≠ put.key ∨
          row = put.row ckpt := by
      rw [afterPuts_concat, Sql.Table.replace, List.mem_append, List.mem_filter,
        List.mem_singleton, decide_eq_true_eq]
      rfl
    rw [hreplace, ih]
    constructor
    · rintro (⟨⟨q, hq, rfl⟩, hne⟩ | rfl)
      · exact ⟨q, LastWith.concat_iff.mpr (.inr ⟨Ne.symm hne, hq⟩), rfl⟩
      · exact ⟨put, LastWith.concat_iff.mpr (.inl ⟨rfl, rfl⟩), rfl⟩
    · rintro ⟨q, hq, rfl⟩
      rcases LastWith.concat_iff.mp hq with ⟨-, rfl⟩ | ⟨hne, hq⟩
      · exact .inr rfl
      · exact .inl ⟨⟨q, hq, rfl⟩, Ne.symm hne⟩

/-- The last call on the thread and namespace is the last one for its checkpoint. -/
theorem row_mem_of_last {put : Put C}
    (h : LastWith (fun q : Put C => q.On threadId checkpointNs) puts put) :
    put.row ckpt ∈ (afterPuts ckpt serde puts).checkpoints.rows := by
  obtain ⟨before, rest, rfl, ⟨rfl, rfl⟩, hrest⟩ := h
  refine mem_rows_afterPuts.mpr ⟨put, ⟨before, rest, rfl, rfl, fun q hq hkey => hrest q hq ?_⟩, rfl⟩
  exact ⟨congrArg CheckpointKey.threadId hkey, congrArg CheckpointKey.checkpointNs hkey⟩

theorem le_last {put q : Put C} (hclock : NonDecreasing threadId checkpointNs puts)
    (h : LastWith (fun q : Put C => q.On threadId checkpointNs) puts put) (hq : q ∈ puts)
    (hon : q.On threadId checkpointNs) : q.now ≤ put.now :=
  h.of_pairwise (fun _ _ => le_rfl) hclock hq hon hon h.of_last

/-- A row that may be read has the reading of the last call. -/
theorem exists_of_isLatest {put : Put C} {row : CheckpointRow}
    (hclock : NonDecreasing threadId checkpointNs puts)
    (h : LastWith (fun q : Put C => q.On threadId checkpointNs) puts put)
    (hrow : IsLatest (afterPuts ckpt serde puts) threadId checkpointNs row) :
    ∃ q ∈ puts, q.On threadId checkpointNs ∧ q.now = put.now ∧ row = q.row ckpt := by
  obtain ⟨q, hq, rfl⟩ := mem_rows_afterPuts.mp hrow.mem
  have hon : q.On threadId checkpointNs := ⟨hrow.thread, hrow.ns⟩
  have hle : (put.row ckpt).createdAt ≤ (q.row ckpt).createdAt :=
    hrow.greatest _ (row_mem_of_last h) h.of_last.1 h.of_last.2
  have hnow := (UtcDatetime.isoformat_le_iff _ _).mp hle
  exact ⟨q, hq.mem, hon, (le_last hclock h hq.mem hon).antisymm hnow, rfl⟩

theorem getsLast_of_alone (hclock : NonDecreasing threadId checkpointNs puts)
    (h : AloneAtLast threadId checkpointNs puts) :
    GetsLast (W := W) ckpt serde threadId checkpointNs puts := by
  intro put hlast result hread
  have hmem : put.row ckpt ∈ (afterPuts ckpt serde puts).checkpoints.rows := row_mem_of_last hlast
  cases hread with
  | nothing hnone => exact absurd hlast.of_last (hnone _ hmem)
  | row row hrow =>
    obtain ⟨q, hq, hon, hnow, rfl⟩ := exists_of_isLatest hclock hlast hrow
    -- the same checkpoint has only one row
    have hkey : (q.row ckpt).key = (put.row ckpt).key := by
      rw [CheckpointRow.key, CheckpointRow.key, CheckpointKey.mk.injEq]
      exact ⟨hon.1.trans hlast.of_last.1.symm, hon.2.trans hlast.of_last.2.symm,
        h put hlast q hq hon hnow⟩
    rw [List.inj_on_of_nodup_map (afterPuts ckpt serde puts).checkpoints.nodup hrow.mem hmem hkey,
      Put.rowToTuple_row]

theorem alone_of_getsLast (hclock : NonDecreasing threadId checkpointNs puts)
    (h : GetsLast (W := W) ckpt serde threadId checkpointNs puts) :
    AloneAtLast threadId checkpointNs puts := by
  intro put hlast q hq hon hnow
  -- the last call for the checkpoint of `q` has the same reading
  obtain ⟨r, hr⟩ := LastWith.exists_of_mem (P := fun r : Put C => r.key = q.key) hq rfl
  have hkey : r.key = q.key := hr.of_last
  have hronn : r.On threadId checkpointNs :=
    ⟨(congrArg CheckpointKey.threadId hkey).trans hon.1,
      (congrArg CheckpointKey.checkpointNs hkey).trans hon.2⟩
  have hle : q.now ≤ r.now :=
    hr.of_pairwise (fun _ _ => le_rfl) hclock hq rfl hon hronn
  have hrnow : r.now = put.now := (le_last hclock hlast hr.mem hronn).antisymm (hnow ▸ hle)
  have hrow : r.row ckpt ∈ (afterPuts ckpt serde puts).checkpoints.rows :=
    mem_rows_afterPuts.mpr ⟨r, hkey ▸ hr, rfl⟩
  have hlatest : IsLatest (afterPuts ckpt serde puts) threadId checkpointNs (r.row ckpt) := by
    refine ⟨hrow, hronn.1, hronn.2, fun row' hmem' hthread hns => ?_⟩
    obtain ⟨s, hs, rfl⟩ := mem_rows_afterPuts.mp hmem'
    refine (UtcDatetime.isoformat_le_iff _ _).mpr ?_
    exact hrnow ▸ le_last hclock hlast hs.mem ⟨hthread, hns⟩
  have htuple := h put hlast _ (.row _ hlatest)
  rw [Put.rowToTuple_row, Option.some_inj] at htuple
  have hsame : r.key = put.key := congrArg CheckpointTuple.config htuple
  exact congrArg CheckpointKey.checkpointId (hkey.symm.trans hsame)

/-- **The latest checkpoint.** Over every sequence of calls with a clock that does not go back,
`aget_tuple` returns the checkpoint of the last call, whatever row of the greatest `created_at`
is chosen, exactly if no other checkpoint was put at its reading. -/
theorem latest_checkpoint_iff (ckpt : Serde C) (serde : Serde W) (threadId checkpointNs : String)
    (puts : List (Put C)) (h : NonDecreasing threadId checkpointNs puts) :
    GetsLast ckpt serde threadId checkpointNs puts ↔ AloneAtLast threadId checkpointNs puts :=
  ⟨alone_of_getsLast h, getsLast_of_alone h⟩

/-! ## Two saves -/

section Demo

/-- A moment in a second. -/
def momentAt (microsecond : ℕ) (h : microsecond < 1000000) : UtcDatetime where
  year := 2026
  month := 1
  day := 2
  hour := 3
  minute := 4
  second := 5
  microsecond := microsecond
  year_lt := by decide
  month_lt := by decide
  day_lt := by decide
  hour_lt := by decide
  minute_lt := by decide
  second_lt := by decide
  microsecond_lt := h

/-- A save of a checkpoint. -/
def savedAt (id : String) (now : UtcDatetime) : Put String :=
  ⟨⟨"t", "", none⟩, ⟨id, none, id⟩, "metadata", now⟩

/-- A save at a second without a fraction, and one a microsecond later. -/
def savesInOrder : List (Put String) :=
  [savedAt "c1" (momentAt 0 (by decide)), savedAt "c2" (momentAt 1 (by decide))]

theorem momentAt_le {n m : ℕ} (hn : n < 1000000) (hm : m < 1000000) (h : n ≤ m) :
    momentAt n hn ≤ momentAt m hm := by
  rw [← not_lt]
  change ¬ (momentAt m hm).fields < (momentAt n hn).fields
  simpa [UtcDatetime.fields, momentAt, List.cons_lt_cons_iff] using h

/-- The text without a fraction comes first. -/
theorem later_checkpoint_read : GetsLast textSerde textSerde "t" "" savesInOrder := by
  refine (latest_checkpoint_iff textSerde textSerde "t" "" savesInOrder ?_).mpr ?_
  · simpa [NonDecreasing, savesInOrder, savedAt] using fun _ _ => momentAt_le _ _ (by decide)
  · intro put hlast q hq _ hnow
    have hput := hlast.mem
    have hmicro := congrArg UtcDatetime.microsecond hnow
    simp only [savesInOrder, List.mem_cons, List.not_mem_nil, or_false] at hput hq
    rcases hput with rfl | rfl <;> rcases hq with rfl | rfl
    · rfl
    · simp [savedAt, momentAt] at hmicro
    · simp [savedAt, momentAt] at hmicro
    · rfl

/-- Two saves at one reading of the clock. -/
def tiedSaves : List (Put String) :=
  [savedAt "c1" (momentAt 7 (by decide)), savedAt "c2" (momentAt 7 (by decide))]

/-- The checkpoint of the first save may be read, and the scan reads it. -/
theorem tied_checkpoint_stale :
    NonDecreasing "t" "" tiedSaves ∧
      (agetTuple (W := String) textSerde (afterPuts textSerde textSerde tiedSaves)
        ⟨"t", "", none⟩).map CheckpointTuple.checkpoint = some "c1" ∧
      ¬ GetsLast textSerde textSerde "t" "" tiedSaves := by
  have hclock : NonDecreasing "t" "" tiedSaves := by
    simp [NonDecreasing, tiedSaves, savedAt]
  refine ⟨hclock, by decide +kernel, fun h => ?_⟩
  have hlast : LastWith (fun q : Put String => q.On "t" "") tiedSaves
      (savedAt "c2" (momentAt 7 (by decide))) := ⟨[_], [], rfl, ⟨rfl, rfl⟩, by simp⟩
  have hid := alone_of_getsLast hclock h _ hlast _ List.mem_cons_self ⟨rfl, rfl⟩ rfl
  simp [savedAt] at hid

end Demo

end SqliteCheckpointSaver

end BankingAgent
