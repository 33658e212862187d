import BankingAgent.Json

/-!
# `persistence.py`: the event log

Events are appended with the sequence number the caller chose; the pair of run and
sequence number is unique, so a second event under the same number is refused.
-/

namespace BankingAgent

/-- `EventKind`, as far as the modelled functions use it. -/
inductive EventKind : Type where
  | userMessage
  | agentMessage
  | checkpoint
  | reconciliationRequired
  deriving DecidableEq, Repr

/-- `AgentEvent`, without its timestamp. -/
structure AgentEvent : Type where
  runId : String
  seq : ℕ
  kind : EventKind
  payload : Json

/-- The table `events`. -/
abbrev EventTable : Type := List AgentEvent

/-- `INSERT INTO events`, refused on `UNIQUE(run_id, seq)`. -/
def EventTable.insert (t : EventTable) (e : AgentEvent) : Bool × EventTable :=
  if t.any fun e' => e'.runId = e.runId && e'.seq = e.seq then (false, t) else (true, t ++ [e])

end BankingAgent
