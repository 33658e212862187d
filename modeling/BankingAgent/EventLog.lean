import Mathlib.Algebra.Group.Int.Defs
import BankingAgent.Recording
import BankingAgent.Search.Traversal
import BankingAgent.Sql.SharedConnection

/-!
# `persistence.py`: the event log on its connection

All runs of a process log their events over one connection. `SqliteEventStore.insert` adds a row
under the run id and the number that the caller chose, and commits; `query_run` returns the
events of a run in the order of their numbers, `query` the newest ones that fit a filter. No
statement changes a row or takes one away.

* `event_kept` — an event whose `insert` has returned is in whatever `query_run` returns of its
  run, across any number of restarts.
* `one_event_a_number` — no two events whose `insert` has returned share a run and a number.
* `query_run_exact` — from an empty table on, `query_run` succeeds, and what it returns was
  inserted, each number once.
* `query_newest` — `query` returns the newest events that fit, and no more than it was asked for.
-/

namespace BankingAgent

open Async Sql Traversal

namespace SqliteEventStore

/-- `EventKind`. -/
inductive EventKind : Type where
  | userMessage
  | agentMessage
  | toolCall
  | toolResult
  | error
  | checkpoint
  | reconciliationRequired
  deriving DecidableEq, Repr

/-- The value of a kind, as it is stored. -/
def EventKind.value : EventKind → String
  | userMessage => "user_message"
  | agentMessage => "agent_message"
  | toolCall => "tool_call"
  | toolResult => "tool_result"
  | error => "error"
  | checkpoint => "checkpoint"
  | reconciliationRequired => "reconciliation_required"

/-- `EventKind(value)`; `none` stands for `ValueError`. -/
def EventKind.ofValue? (value : String) : Option EventKind :=
  [userMessage, agentMessage, toolCall, toolResult, error, checkpoint,
    reconciliationRequired].find? fun kind => kind.value = value

@[simp] theorem EventKind.ofValue?_value (kind : EventKind) : ofValue? kind.value = some kind := by
  cases kind <;> rfl

/-- `AgentEvent`. -/
structure AgentEvent : Type where
  runId : String
  seq : ℤ
  kind : EventKind
  payload : Json
  timestamp : String

/-- A row of `events`, without its `id`. -/
structure EventRow : Type where
  runId : String
  seq : ℤ
  kind : String
  payload : String
  timestamp : String
  deriving DecidableEq

/-- `UNIQUE(run_id, seq)`. -/
abbrev EventRow.key (row : EventRow) : String × ℤ := (row.runId, row.seq)

/-- The table `events`. -/
abbrev Events : Type := Table EventRow.key

/-- What can go wrong. -/
inductive StoreError : Type where
  /-- any error of the database -/
  | operationalError
  /-- the number is taken -/
  | integrityError
  /-- SQLite has no such integer -/
  | overflowError
  /-- a row is not that of an event -/
  | valueError

/-- The statements of the store. -/
inductive Statement : Type where
  /-- `INSERT INTO events` -/
  | insert (row : EventRow)
  /-- `SELECT * FROM events WHERE run_id = ? ORDER BY seq` -/
  | selectRun (runId : String)
  /-- `SELECT * FROM events … ORDER BY timestamp DESC LIMIT ?` -/
  | select (runId : Option String) (kind : Option String) (limit : ℤ)

/-- The answers; `false` stands for a violated constraint. -/
abbrev Statement.Answer : Statement → Type
  | .insert _ => Bool
  | .selectRun _ => List EventRow
  | .select _ _ _ => List EventRow

/-- The `WHERE` clause of `query`. -/
def fits (runId kind : Option String) (row : EventRow) : Bool :=
  (runId.all fun r => row.runId = r) && kind.all fun k => row.kind = k

/-- A limit below 0 is none. -/
def limited (limit : ℤ) (rows : List EventRow) : List EventRow :=
  if limit < 0 then rows else rows.take limit.toNat

/-- The rows, in an order that the `SELECT` allows. -/
def InOrder (events : Events) (p : EventRow → Bool) (le : EventRow → EventRow → Prop)
    (rows : List EventRow) : Prop := rows.Perm (events.rows.filter p) ∧ rows.Pairwise le

instance (events : Events) (p : EventRow → Bool) (le : EventRow → EventRow → Prop)
    [DecidableRel le] : DecidablePred (InOrder events p le) :=
  fun rows => inferInstanceAs (Decidable (rows.Perm _ ∧ rows.Pairwise le))

/-- The statements, on the table. The environment chooses among orders that are allowed. -/
def language : Language Statement Statement.Answer (List EventRow) Events where
  exec
    | .insert row, _, events => some (events.insert (fun _ => false) row)
    | .selectRun runId, rows, events =>
      if InOrder events (·.runId = runId) (·.seq ≤ ·.seq) rows then some (rows, events) else none
    | .select runId kind limit, rows, events =>
      if InOrder events (fits runId kind) (fun a b => b.timestamp ≤ a.timestamp) rows then
        some (limited limit rows, events)
      else none

/-! ## The methods -/

variable (py : PyLib)

/-- The row of an event. -/
def toRow (event : AgentEvent) : EventRow where
  runId := event.runId
  seq := event.seq
  kind := event.kind.value
  payload := py.dumps event.payload
  timestamp := event.timestamp

/-- `_row_to_event`. -/
def rowToEvent (row : EventRow) : Option AgentEvent := do
  let kind ← EventKind.ofValue? row.kind
  let payload ← py.loads row.payload
  return ⟨row.runId, row.seq, kind, payload, row.timestamp⟩

/-- Coroutines of the store. -/
abbrev StoreProg (α : Type) : Type := ConnProg Statement Statement.Answer StoreError α

/-- `insert`. A number that SQLite has no integer for does not get there. -/
def insert (event : AgentEvent) : StoreProg Unit :=
  if -2 ^ 63 ≤ event.seq ∧ event.seq < 2 ^ 63 then do
    let accepted ← execute (Statement.insert (toRow py event))
    if accepted then commit else .raise .integrityError
  else .raise .overflowError

/-- The events of some rows. -/
def events (rows : List EventRow) : StoreProg (List AgentEvent) :=
  match rows.mapM (rowToEvent py) with
  | some events => .ret events
  | none => .raise .valueError

/-- `query_run`. -/
def queryRun (runId : String) : StoreProg (List AgentEvent) := do
  events py (← execute (Statement.selectRun runId))

/-- `query`: an empty run id is no filter. A limit that SQLite has no integer for does not get
there. -/
def query (runId : Option String) (kind : Option EventKind) (limit : ℤ) :
    StoreProg (List AgentEvent) :=
  if -2 ^ 63 ≤ limit ∧ limit < 2 ^ 63 then do
    events py
      (← execute (Statement.select (runId.filter (· ≠ "")) (kind.map EventKind.value) limit))
  else .raise .overflowError

/-- A call of a method. -/
inductive Method : Type where
  | insert (event : AgentEvent)
  | queryRun (runId : String)
  | query (runId : Option String) (kind : Option EventKind) (limit : ℤ)

/-- What the methods return. -/
inductive Reply : Type where
  | none
  | events (events : List AgentEvent)

/-- What a call runs. -/
def Method.code : Method → StoreProg Reply
  | insert event => (fun _ => .none) <$> SqliteEventStore.insert py event
  | queryRun runId => .events <$> SqliteEventStore.queryRun py runId
  | query runId kind limit => .events <$> SqliteEventStore.query py runId kind limit

/-- The runs of the store. -/
abbrev Runs : (language.machine (Method.code py)).Config →
    (language.machine (Method.code py)).Config → Prop := language.Runs (Method.code py)

variable {py} {c c' : (language.machine (Method.code py)).Config} {conn : Shared Events}
  {table table' : Events} {event : AgentEvent}

/-- An event is read back, if its payload is. -/
theorem rowToEvent_toRow (h : py.RoundTrips event.payload) :
    rowToEvent py (toRow py event) = some event := by
  have hloads : py.loads (py.dumps event.payload) = some event.payload := h
  simp [rowToEvent, toRow, hloads]

/-! ## Statements -/

section Exec

variable {row : EventRow} {rows answer : List EventRow} {accepted : Bool}

theorem exec_insert (h : language.exec (.insert row) rows table = some (accepted, table')) :
    (accepted = false → table' = table) ∧
      (accepted = true → ∀ row', row' ∈ table'.rows ↔ row' ∈ table.rows ∨ row' = row) := by
  obtain ⟨rfl, rfl⟩ := Prod.mk.inj (Option.some.inj h)
  exact ⟨Table.get_insert_of_refused, fun hacc _ => Table.mem_insert_of_accepted hacc⟩

/-- The table of events that the agent is modelled over accepts what this one accepts, as long as
the same numbers are taken. -/
theorem insert_agrees {t : EventTable} {e : BankingAgent.AgentEvent}
    (hkeys : t.map (fun e => (e.runId, (e.seq : ℤ))) = table.rows.map EventRow.key)
    (hrow : row.key = (e.runId, (e.seq : ℤ))) :
    (t.insert e).1 = (table.insert (fun _ => false) row).1 ∧
      (t.insert e).2.map (fun e => (e.runId, (e.seq : ℤ))) =
        (table.insert (fun _ => false) row).2.rows.map EventRow.key := by
  have htaken : (t.any fun e' => e'.runId = e.runId && e'.seq = e.seq) = true ↔
      row.key ∈ table.rows.map EventRow.key := by
    rw [← hkeys, hrow]
    simp only [List.any_eq_true, Bool.and_eq_true, decide_eq_true_eq, List.mem_map, Prod.mk.injEq,
      Int.natCast_inj]
  by_cases h : row.key ∈ table.rows.map EventRow.key
  · rw [EventTable.insert, if_pos (htaken.mpr h), Table.insert, dif_pos h]
    exact ⟨rfl, hkeys⟩
  · rw [EventTable.insert, if_neg fun hany => h (htaken.mp hany), Table.insert, dif_neg h,
      if_neg (by simp)]
    refine ⟨rfl, ?_⟩
    rw [List.map_append, List.map_append, hkeys, List.map_singleton, List.map_singleton, ← hrow]

/-- No statement takes a row away. -/
theorem mem_of_exec {s : Statement} {a : s.Answer}
    (h : language.exec s rows table = some (a, table')) (hrow : row ∈ table.rows) :
    row ∈ table'.rows := by
  cases s with
  | insert new =>
    cases a with
    | false =>
      rw [(exec_insert h).1 rfl]
      exact hrow
    | true => exact ((exec_insert h).2 rfl row).mpr (.inl hrow)
  | selectRun runId =>
    obtain ⟨-, heq⟩ := Option.ite_none_right_eq_some.mp h
    cases heq
    exact hrow
  | select runId kind limit =>
    obtain ⟨-, heq⟩ := Option.ite_none_right_eq_some.mp h
    cases heq
    exact hrow

/-- Rows come from nowhere but an `INSERT`. -/
theorem inserted_of_exec {s : Statement} {a : s.Answer}
    (h : language.exec s rows table = some (a, table')) (row : EventRow)
    (hrow : row ∈ table'.rows) : row ∈ table.rows ∨ s = .insert row := by
  cases s with
  | insert new =>
    cases a with
    | false =>
      rw [(exec_insert h).1 rfl] at hrow
      exact .inl hrow
    | true => exact (((exec_insert h).2 rfl row).mp hrow).imp_right fun heq => congrArg _ heq.symm
  | selectRun runId =>
    obtain ⟨-, heq⟩ := Option.ite_none_right_eq_some.mp h
    cases heq
    exact .inl hrow
  | select runId kind limit =>
    obtain ⟨-, heq⟩ := Option.ite_none_right_eq_some.mp h
    cases heq
    exact .inl hrow

end Exec

/-! ## Reading rows -/

section Reading

/-- What is read of a row, column by column. -/
theorem rowToEvent_eq_some {row : EventRow} (h : rowToEvent py row = some event) :
    event.runId = row.runId ∧ event.seq = row.seq ∧ event.kind.value = row.kind ∧
      event.timestamp = row.timestamp := by
  obtain ⟨kind, hkind, h⟩ := Option.bind_eq_some_iff.mp h
  obtain ⟨payload, -, h⟩ := Option.bind_eq_some_iff.mp h
  cases h
  have hvalue := List.find?_some hkind
  exact ⟨rfl, rfl, of_decide_eq_true hvalue, rfl⟩

end Reading

/-! ## Three events -/

section Demo

/-- Coroutines over a small library. -/
abbrev demoMachine := language.machine (Method.code demoPy)

/-- Three events of one run are logged side by side, and then another one under the number of the
first. -/
def logFour : List (Machine.Act Method (ConnOp Statement) (Except StoreError (List EventRow))) :=
  [.spawn (.insert ⟨"r", 0, .userMessage, .obj [], "t0"⟩),
    .spawn (.insert ⟨"r", 1, .agentMessage, .obj [], "t1"⟩),
    .spawn (.insert ⟨"r", 2, .agentMessage, .obj [], "t2"⟩),
    .steps 0 1 fun _ => .ok [], .steps 1 2 fun _ => .ok [], .steps 2 2 fun _ => .ok [],
    .steps 0 1 fun _ => .ok [], .spawn (.insert ⟨"r", 0, .error, .obj [], "t3"⟩),
    .steps 3 2 fun _ => .ok []]

/-- The call hands in no payload. -/
def plain : Method → Bool
  | .insert ⟨_, _, _, .obj [], _⟩ => true
  | .insert _ => false
  | _ => true

/-- What is read of some rows, if it can be read. -/
def read? (answer : Option (List EventRow × Events)) : Option (List AgentEvent) :=
  answer.bind fun a => a.1.mapM (rowToEvent demoPy)

/-- The answer to `query_run` of the run. -/
def ofRun (table : Events) : Option (List EventRow × Events) :=
  language.exec (.selectRun "r") table.rows table

/-- The answer to `query` for one message of the agent. -/
def newestMessage (table : Events) : Option (List EventRow × Events) :=
  language.exec (.select ((some "r").filter (· ≠ "")) ((some EventKind.agentMessage).map
    EventKind.value) 1) (table.rows.filter (fits (some "r") (some "agent_message"))).reverse table

/-- The events of the run are read in their order. -/
structure Logged (c : demoMachine.Config) (event event' : AgentEvent) (reply : Reply)
    (all newest : List AgentEvent) : Prop where
  run : Runs demoPy (Pool.init ⟨.empty, .empty⟩) c
  inserted : c.At 0 (.insert event) (.ret reply)
  refused : c.At 3 (.insert event') (.raise .integrityError)
  runId_eq : event.runId = "r" ∧ event'.runId = "r"
  seq_eq : event.seq = 0 ∧ event'.seq = 0
  roundTrip : demoPy.RoundTrips event.payload
  roundTrips : ∀ e ∈ c.hist, ∀ event, e.call = .insert event → demoPy.RoundTrips event.payload
  readAll : ∃ rows table, ofRun c.shared.stored = some (rows, table) ∧
    events demoPy rows = .ret all
  readNewest : ∃ rows table, newestMessage c.shared.stored = some (rows, table) ∧
    events demoPy rows = .ret newest
  all_seq : all.map AgentEvent.seq = [0, 1, 2]
  newest_seq : newest.map AgentEvent.seq = [2]

/-- The same, computed. -/
def logged (c : demoMachine.Config) : Bool :=
  (c.hist.all fun e => plain e.call) &&
  match demoMachine.result? c 0, demoMachine.result? c 3 with
  | some (.insert ⟨"r", 0, _, .obj [], _⟩, .ok _),
    some (.insert ⟨"r", 0, _, _, _⟩, .error .integrityError) =>
    (read? (ofRun c.shared.stored)).map (List.map AgentEvent.seq) = some [0, 1, 2] &&
    (read? (newestMessage c.shared.stored)).map (List.map AgentEvent.seq) = some [2]
  | _, _ => false

theorem exists_of_read? {answer : Option (List EventRow × Events)} {seqs : List ℤ}
    (h : (read? answer).map (List.map AgentEvent.seq) = some seqs) :
    ∃ result : List AgentEvent, (∃ rows table, answer = some (rows, table) ∧
      events demoPy rows = .ret result) ∧ result.map AgentEvent.seq = seqs := by
  obtain ⟨result, hresult, hseqs⟩ := Option.map_eq_some_iff.mp h
  obtain ⟨⟨rows, table⟩, rfl, hread⟩ := Option.bind_eq_some_iff.mp hresult
  exact ⟨result, ⟨rows, table, rfl, by simp only [events, hread]⟩, hseqs⟩

theorem exists_logged : ∃ c event event' reply all newest,
    Logged c event event' reply all newest := by
  have hrun : ((demoMachine.run? (.free fun _ => True) logFour
      (Pool.init ⟨.empty, .empty⟩)).map logged).getD false = true := by decide +kernel
  obtain ⟨c, hreach, hc⟩ := Machine.exists_reach_of_run? hrun
  obtain ⟨hplain, hc⟩ := (Bool.and_eq_true _ _).mp hc
  have htrips : ∀ e ∈ c.hist, ∀ event, e.call = .insert event →
      demoPy.RoundTrips event.payload := by
    intro e he event hcall
    have hp := List.all_eq_true.mp hplain e he
    rw [hcall] at hp
    unfold plain at hp
    split at hp
    · rename_i heq
      cases heq
      exact demoPy_roundTrips_empty
    · cases hp
    · rename_i hne
      exact absurd rfl (hne event)
  split at hc
  · rename_i hret hraised
    obtain ⟨hall, hnewest⟩ := (Bool.and_eq_true _ _).mp hc
    obtain ⟨all, hall, hall_seq⟩ := exists_of_read? (of_decide_eq_true hall)
    obtain ⟨newest, hnewest, hnewest_seq⟩ := exists_of_read? (of_decide_eq_true hnewest)
    exact ⟨c, _, _, _, all, newest, hreach.restarts, Machine.at_of_result? hret,
      Machine.at_of_error? hraised, ⟨rfl, rfl⟩, ⟨rfl, rfl⟩, demoPy_roundTrips_empty, htrips, hall,
      hnewest, hall_seq, hnewest_seq⟩
  · cases hc

end Demo

/-! ## Kept -/

/-- The row was accepted. -/
def Accepted (row : EventRow) : (s : Statement) → s.Answer → Prop
  | .insert row', accepted => row' = row ∧ accepted = true
  | _, _ => False

theorem insert_saves : Saves (Accepted (toRow py event)) (fun _ => True)
    (Method.code py (.insert event)) := by
  apply savesFrom_map
  unfold insert
  split
  · refine savesFrom_own (fun accepted h => ?_) fun accepted h => ?_
    · rw [if_pos h.2]
      exact savesFrom_commit
    · rw [if_neg fun hacc => h ⟨rfl, hacc⟩]
      exact savesFrom_raise
  · exact savesFrom_raise

theorem row_upkeep (row : EventRow) :
    Upkeep language StoreError Method (fun _ table => row ∈ table.rows) :=
  .of_grow id fun h hexec => mem_of_exec hexec h

theorem mem_of_accepted {s : Statement} {a : s.Answer} {rows : List EventRow} {row : EventRow}
    (h : Accepted row s a) (hexec : language.exec s rows table = some (a, table')) :
    row ∈ table'.rows := by
  cases s with
  | insert row' =>
    obtain ⟨rfl, rfl⟩ := h
    exact ((exec_insert hexec).2 rfl _).mpr (.inr rfl)
  | selectRun runId => exact h.elim
  | select runId kind limit => exact h.elim

/-- The row of an event whose `insert` has returned. -/
theorem row_kept (h : Runs py (Pool.init conn) c) {i : ℕ} {reply : Reply}
    (hret : c.At i (.insert event) (.ret reply)) (h' : Runs py c c') {table : Events}
    (htable : table = c'.shared.stored ∨ table = c'.shared.working) :
    toRow py event ∈ table.rows := by
  obtain ⟨_, _, _, -, -, hmem⟩ := (row_upkeep (toRow py event)).acknowledged
    (fun hs hexec => mem_of_accepted hs hexec) insert_saves h hret trivial h' htable
  exact hmem

/-- **Kept**: an event whose `insert` has returned is in whatever `query_run` returns of its run,
to the other coroutines and to a new process. -/
theorem event_kept (htrip : py.RoundTrips event.payload) (h : Runs py (Pool.init conn) c) {i : ℕ}
    {reply : Reply} (hret : c.At i (.insert event) (.ret reply)) (h' : Runs py c c')
    {table table' : Events} (htable : table = c'.shared.stored ∨ table = c'.shared.working)
    {rows answer : List EventRow} {result : List AgentEvent}
    (hanswer : language.exec (.selectRun event.runId) rows table = some (answer, table'))
    (hresult : events py answer = .ret result) : event ∈ result := by
  have hmem := row_kept h hret h' htable
  obtain ⟨⟨hperm, -⟩, heq⟩ := Option.ite_none_right_eq_some.mp hanswer
  cases heq
  have hrow : toRow py event ∈ rows :=
    hperm.mem_iff.mpr (List.mem_filter.mpr ⟨hmem, decide_eq_true rfl⟩)
  unfold events at hresult
  split at hresult
  · rename_i read hread
    cases hresult
    obtain ⟨event', hevent', heq⟩ := exists_of_mem_left (mapM_eq_some_iff.mp hread) hrow
    rw [rowToEvent_toRow htrip] at heq
    obtain rfl := Option.some.inj heq
    exact hevent'
  · cases hresult

/-- A process that takes over returns the event. -/
theorem logged_event_found : ∃ (c : demoMachine.Config) (event : AgentEvent) (reply : Reply)
    (result : List AgentEvent), c.At 0 (.insert event) (.ret reply) ∧ event ∈ result := by
  obtain ⟨c, event, event', reply, all, newest, h⟩ := exists_logged
  obtain ⟨rows, table, hanswer, hresult⟩ := h.readAll
  have hrun : language.exec (.selectRun event.runId) c.shared.stored.rows c.shared.stored =
      some (rows, table) := by
    rw [h.runId_eq.1]
    exact hanswer
  exact ⟨c, event, reply, all, h.inserted, event_kept h.roundTrip h.run h.inserted
    (.single (.restart c)) (.inr rfl) hrun hresult⟩

/-- A row with this key was accepted. -/
def AcceptedKey (key : String × ℤ) : (s : Statement) → s.Answer → Prop
  | .insert row, accepted => row.key = key ∧ accepted = true
  | _, _ => False

/-- Where a number is taken, no row is accepted under it. -/
theorem not_acceptedKey {key : String × ℤ} {s : Statement} {a : s.Answer} {rows : List EventRow}
    (h : AcceptedKey key s a) (hexec : language.exec s rows table = some (a, table')) :
    key ∉ table.rows.map EventRow.key := by
  cases s with
  | insert row =>
    obtain ⟨rfl, rfl⟩ := h
    obtain ⟨hfree, -⟩ := Table.get_insert_of_accepted (congrArg Prod.fst (Option.some.inj hexec))
    exact Table.get_eq_none_iff.mp hfree
  | selectRun runId => exact h.elim
  | select runId kind limit => exact h.elim

theorem acceptedKey_iff {key : String × ℤ} {s : Statement} {a : s.Answer} :
    AcceptedKey key s a ↔ ∃ row : EventRow, row.key = key ∧ Accepted row s a := by
  cases s with
  | insert row => simp [AcceptedKey, Accepted]
  | selectRun runId => simp [AcceptedKey, Accepted]
  | select runId kind limit => simp [AcceptedKey, Accepted]

/-- A number of a run. -/
def numberLatch (key : String × ℤ) : Latch language where
  taken table := key ∈ table.rows.map EventRow.key
  takes := AcceptedKey key
  kept := by
    intro s rows table a table' htaken hexec
    obtain ⟨row, hrow, rfl⟩ := List.mem_map.mp htaken
    exact List.mem_map_of_mem (mem_of_exec hexec hrow)
  found h hexec := not_acceptedKey h hexec
  left := by
    intro s rows table a table' h hexec
    obtain ⟨row, rfl, hacc⟩ := acceptedKey_iff.mp h
    exact List.mem_map_of_mem (mem_of_accepted hacc hexec)

theorem insert_takes : Saves (numberLatch (event.runId, event.seq)).takes (fun _ => True)
    (Method.code py (.insert event)) :=
  insert_saves.imp fun h => acceptedKey_iff.mpr ⟨_, rfl, h⟩

/-- **One event a number**: of the calls of `insert` under one run id and number, one returns at
most, however many there are, in however many processes. -/
theorem one_event_a_number {event' : AgentEvent} (h : Runs py (Pool.init conn) c) {i j : ℕ}
    {reply reply' : Reply} (hret : c.At i (.insert event) (.ret reply)) (h' : Runs py c c')
    (hret' : c'.At j (.insert event') (.ret reply')) (hrun : event.runId = event'.runId)
    (hseq : event.seq = event'.seq) : i = j := by
  have htakes : Saves (numberLatch (event.runId, event.seq)).takes (fun _ => True)
      (Method.code py (.insert event')) := by
    rw [hrun, hseq]
    exact insert_takes
  exact Latch.one insert_takes htakes h hret trivial h' hret' trivial

/-- The first call under the number has returned; the other one, of another event, has not. -/
theorem logged_number_taken : ∃ (c : demoMachine.Config) (event event' : AgentEvent)
    (reply : Reply), c.At 0 (.insert event) (.ret reply) ∧
      c.At 3 (.insert event') (.raise .integrityError) ∧ event'.runId = event.runId ∧
      event'.seq = event.seq ∧
      ∀ c', Runs demoPy c c' → ∀ reply', ¬ c'.At 3 (.insert event') (.ret reply') := by
  obtain ⟨c, event, event', reply, all, newest, h⟩ := exists_logged
  have hrun : event.runId = event'.runId := h.runId_eq.1.trans h.runId_eq.2.symm
  have hseq : event.seq = event'.seq := h.seq_eq.1.trans h.seq_eq.2.symm
  refine ⟨c, event, event', reply, h.inserted, h.refused, hrun.symm, hseq.symm, ?_⟩
  intro c' h' reply' hret'
  exact absurd (one_event_a_number h.run h.inserted h' hret' hrun hseq) (by decide)

/-! ## Nothing invented -/

/-- What a call may ask of the connection. -/
def Method.May (py : PyLib) : Method → ConnOp Statement → Prop
  | _, .commit => True
  | insert event, .execute s => s = .insert (toRow py event)
  | queryRun runId, .execute s => s = .selectRun runId
  | query _ _ _, .execute s => ∀ row, s ≠ .insert row

theorem code_only (call : Method) : (call.code py).Only (call.May py) := by
  cases call with
  | insert event =>
    apply only_map
    unfold insert
    split
    · refine only_execute rfl fun accepted => ?_
      cases accepted with
      | true => exact only_commit trivial
      | false => exact trivial
    · exact trivial
  | queryRun runId =>
    apply only_map
    refine only_execute rfl fun rows => ?_
    unfold events
    split <;> exact trivial
  | query runId kind limit =>
    apply only_map
    unfold query
    split
    · refine only_execute nofun fun rows => ?_
      unfold events
      split <;> exact trivial
    · exact trivial

/-- From an empty table on, every row is that of an event that was handed in. -/
theorem rows_inserted (h : Runs py (Pool.init ⟨.empty, .empty⟩) c) {table : Events}
    (htable : table = c.shared.stored ∨ table = c.shared.working) {row : EventRow}
    (hrow : row ∈ table.rows) :
    ∃ e ∈ c.hist, ∃ event, e.call = .insert event ∧ row = toRow py event := by
  have hupkeep : Upkeep language StoreError Method
      (InsertedSince Table.rows (fun _ => True) Statement.insert) :=
    .insertedSince inserted_of_exec
  have halways := hupkeep.always (fun row hrow => absurd hrow List.not_mem_nil) h
  have hline : ∃ e ∈ c.hist, e.op = .execute (.insert row) := by
    rcases htable with rfl | rfl
    · exact halways.1 row hrow trivial
    · exact halways.2 row hrow trivial
  obtain ⟨e, he, hop⟩ := hline
  have hmay := h.only code_only e he
  rw [hop] at hmay
  cases hcall : e.call with
  | insert event =>
    rw [hcall] at hmay
    exact ⟨e, he, event, hcall, Statement.insert.inj hmay⟩
  | queryRun runId =>
    rw [hcall] at hmay
    cases hmay
  | query runId kind limit =>
    rw [hcall] at hmay
    exact absurd rfl (hmay row)

/-- **Exact**: from an empty table on, `query_run` succeeds if the payloads that were handed in can
be read back; and what it returns are events of the run that were handed in, in the order of their
numbers, each number once. -/
theorem query_run_exact (h : Runs py (Pool.init ⟨.empty, .empty⟩) c)
    (htrip : ∀ e ∈ c.hist, ∀ event, e.call = .insert event → py.RoundTrips event.payload)
    {table table' : Events} (htable : table = c.shared.stored ∨ table = c.shared.working)
    {runId : String} {rows answer : List EventRow}
    (hanswer : language.exec (.selectRun runId) rows table = some (answer, table')) :
    ∃ result, events py answer = .ret result ∧ result.Pairwise (·.seq < ·.seq) ∧
      ∀ event ∈ result, event.runId = runId ∧ ∃ e ∈ c.hist, e.call = .insert event := by
  obtain ⟨⟨hperm, hsorted⟩, heq⟩ := Option.ite_none_right_eq_some.mp hanswer
  cases heq
  have hrows : ∀ row ∈ rows, row.runId = runId ∧ ∃ e ∈ c.hist, ∃ event,
      e.call = .insert event ∧ row = toRow py event ∧ rowToEvent py row = some event := by
    intro row hrow
    obtain ⟨hmem, hrun⟩ := List.mem_filter.mp (hperm.mem_iff.mp hrow)
    obtain ⟨e, he, event, hcall, rfl⟩ := rows_inserted h htable hmem
    exact ⟨of_decide_eq_true hrun, e, he, event, hcall, rfl,
      rowToEvent_toRow (htrip e he event hcall)⟩
  obtain ⟨result, hresult⟩ : ∃ result, rows.mapM (rowToEvent py) = some result :=
    exists_mapM fun row hrow => by
      obtain ⟨-, e, -, event, -, -, hread⟩ := hrows row hrow
      exact ⟨event, hread⟩
  have hread := mapM_eq_some_iff.mp hresult
  refine ⟨result, by rw [events, hresult], ?_, fun event hevent => ?_⟩
  · have hkeys : (rows.map EventRow.key).Nodup :=
      (hperm.map EventRow.key).nodup_iff.mpr (table.nodup.sublist (List.filter_sublist.map _))
    have hnumbers : rows.Pairwise (·.seq < ·.seq) := by
      refine (hsorted.and (List.pairwise_map.mp hkeys)).imp_of_mem ?_
      rintro a b ha hb ⟨hle, hne⟩
      refine lt_of_le_of_ne hle fun hseq => hne (Prod.ext ?_ hseq)
      exact (hrows a ha).1.trans (hrows b hb).1.symm
    have hmap : rows.map EventRow.seq = result.map AgentEvent.seq :=
      map_eq_of_forall₂ (fun h => (rowToEvent_eq_some h).2.1.symm) hread
    refine List.pairwise_map.mp ?_
    rw [← hmap]
    exact List.pairwise_map.mpr hnumbers
  · obtain ⟨row, hrow, hevent'⟩ := exists_of_mem_right hread hevent
    obtain ⟨hrun, e, he, event', hcall, -, hread'⟩ := hrows row hrow
    obtain rfl : event' = event := Option.some.inj (hread'.symm.trans hevent')
    exact ⟨(rowToEvent_eq_some hevent').1.trans hrun, e, he, hcall⟩

/-- What is returned of the run are its three events. -/
theorem logged_run_exact : ∃ (c : demoMachine.Config) (result : List AgentEvent),
    result.map AgentEvent.seq = [0, 1, 2] ∧ result.Pairwise (·.seq < ·.seq) ∧
      ∀ event ∈ result, event.runId = "r" ∧ ∃ e ∈ c.hist, e.call = .insert event := by
  obtain ⟨c, _, _, _, all, _, h⟩ := exists_logged
  obtain ⟨rows, table, hanswer, hall⟩ := h.readAll
  obtain ⟨result, hresult, hexact⟩ := query_run_exact h.run h.roundTrips (.inl rfl) hanswer
  obtain rfl : all = result := Prog.ret.inj (hall.symm.trans hresult)
  exact ⟨c, all, h.all_seq, hexact⟩

/-! ## The newest events -/

/-- The event fits the filters of `query`. -/
def Asked (runId : Option String) (kind : Option EventKind) (event : AgentEvent) : Prop :=
  (∀ r, runId = some r → r ≠ "" → event.runId = r) ∧ ∀ k, kind = some k → event.kind = k

/-- The filters, in the `WHERE` clause. -/
theorem fits_iff_asked {runId : Option String} {kind : Option EventKind} {row : EventRow}
    (h : rowToEvent py row = some event) :
    fits (runId.filter (· ≠ "")) (kind.map EventKind.value) row = true ↔
      Asked runId kind event := by
  obtain ⟨hrun, -, hkind, -⟩ := rowToEvent_eq_some h
  have hvalue : ∀ k : EventKind, row.kind = k.value ↔ event.kind = k := by
    intro k
    rw [← hkind]
    constructor
    · intro heq
      have hsame := congrArg EventKind.ofValue? heq
      rw [EventKind.ofValue?_value, EventKind.ofValue?_value] at hsame
      exact Option.some.inj hsame
    · exact congrArg EventKind.value
  rw [fits, Asked, Bool.and_eq_true]
  refine and_congr ?_ ?_
  · cases runId with
    | none => simp
    | some r =>
      by_cases hr : r = ""
      · simp [hr]
      · simp [hr, hrun]
  · cases kind with
    | none => simp
    | some k => simp [hvalue]

/-- What a limit leaves: all, or as many rows as it says. -/
theorem limited_cases (limit : ℤ) (rows : List EventRow) :
    limited limit rows = rows ∨ 0 ≤ limit ∧ limited limit rows = rows.take limit.toNat ∧
      (limited limit rows).length = limit.toNat := by
  rw [limited]
  split
  · exact .inl rfl
  · rename_i hlimit
    rcases Nat.le_total rows.length limit.toNat with hlen | hlen
    · exact .inl (List.take_of_length_le hlen)
    · exact .inr ⟨by omega, rfl, List.length_take_of_le hlen⟩

/-- **The newest events**: `query` returns events that fit its filters, the newest ones first and
no more than it was asked for; and an event that fits and is missing is not newer than any that
was returned, of which there are as many as were asked for. -/
theorem query_newest {runId : Option String} {kind : Option EventKind} {limit : ℤ}
    {rows answer : List EventRow} {result : List AgentEvent}
    (hanswer : language.exec (.select (runId.filter (· ≠ "")) (kind.map EventKind.value) limit)
      rows table = some (answer, table')) (hresult : events py answer = .ret result) :
    result.Pairwise (fun a b => b.timestamp ≤ a.timestamp) ∧
      (0 ≤ limit → result.length ≤ limit.toNat) ∧
      (∀ event ∈ result, Asked runId kind event) ∧
      ∀ row ∈ table.rows, ∀ event, rowToEvent py row = some event → Asked runId kind event →
        event ∈ result ∨ 0 ≤ limit ∧ result.length = limit.toNat ∧
          ∀ event' ∈ result, event.timestamp ≤ event'.timestamp := by
  obtain ⟨⟨hperm, hsorted⟩, heq⟩ := Option.ite_none_right_eq_some.mp hanswer
  cases heq
  have hread : List.Forall₂ (fun row event => rowToEvent py row = some event)
      (limited limit rows) result := by
    unfold events at hresult
    split at hresult
    · rename_i read hread
      cases hresult
      exact mapM_eq_some_iff.mp hread
    · cases hresult
  have hsub : (limited limit rows).Sublist rows := by
    rcases limited_cases limit rows with h | ⟨-, h, -⟩
    · rw [h]
    · rw [h]
      exact List.take_sublist _ _
  refine ⟨?_, fun hlimit => ?_, fun event hevent => ?_, fun row hrow event hrow' hasked => ?_⟩
  · have hmap : (limited limit rows).map EventRow.timestamp = result.map AgentEvent.timestamp :=
      map_eq_of_forall₂ (fun h => (rowToEvent_eq_some h).2.2.2.symm) hread
    have htimes : ((limited limit rows).map EventRow.timestamp).Pairwise (fun a b => b ≤ a) :=
      List.pairwise_map.mpr (hsorted.sublist hsub)
    rw [hmap] at htimes
    exact List.pairwise_map.mp htimes
  · rw [← hread.length_eq, limited, if_neg (by omega)]
    exact List.length_take_le _ _
  · obtain ⟨row, hrow, hrow'⟩ := exists_of_mem_right hread hevent
    have hfits := (List.mem_filter.mp (hperm.mem_iff.mp (hsub.subset hrow))).2
    exact (fits_iff_asked hrow').mp hfits
  · have hmem : row ∈ rows :=
      hperm.mem_iff.mpr (List.mem_filter.mpr ⟨hrow, (fits_iff_asked hrow').mpr hasked⟩)
    by_cases hin : row ∈ limited limit rows
    · obtain ⟨event', hevent', heq⟩ := exists_of_mem_left hread hin
      obtain rfl := Option.some.inj (hrow'.symm.trans heq)
      exact .inl hevent'
    · rcases limited_cases limit rows with h | ⟨hlimit, h, hlen⟩
      · rw [h] at hin
        exact absurd hmem hin
      · refine .inr ⟨hlimit, hread.length_eq.symm.trans hlen, fun event' hevent' => ?_⟩
        obtain ⟨row', hmem', hrow''⟩ := exists_of_mem_right hread hevent'
        rw [(rowToEvent_eq_some hrow').2.2.2, (rowToEvent_eq_some hrow'').2.2.2]
        -- what is missing comes after what was taken
        rw [h] at hin hmem'
        have hdrop : row ∈ rows.drop limit.toNat := by
          rw [← List.take_append_drop limit.toNat rows] at hmem
          exact (List.mem_append.mp hmem).resolve_left hin
        rw [← List.take_append_drop limit.toNat rows] at hsorted
        exact (List.pairwise_append.mp hsorted).2.2 row' hmem' row hdrop

/-- Of the two messages of the agent the newer one is returned, and what is missing of the run is
no newer or no message of the agent. -/
theorem newest_event_found : ∃ (c : demoMachine.Config) (result : List AgentEvent),
    result.map AgentEvent.seq = [2] ∧
      (∀ event ∈ result, Asked (some "r") (some .agentMessage) event) ∧
      ∀ row ∈ c.shared.stored.rows, ∀ event, rowToEvent demoPy row = some event →
        Asked (some "r") (some .agentMessage) event →
        event ∈ result ∨ ∀ event' ∈ result, event.timestamp ≤ event'.timestamp := by
  obtain ⟨c, _, _, _, _, newest, h⟩ := exists_logged
  obtain ⟨rows, table, hanswer, hresult⟩ := h.readNewest
  obtain ⟨-, -, hasked, hmissing⟩ := query_newest hanswer hresult
  refine ⟨c, newest, h.newest_seq, hasked, fun row hrow event hevent hfits => ?_⟩
  exact (hmissing row hrow event hevent hfits).imp_right fun hold => hold.2.2

end SqliteEventStore

end BankingAgent
