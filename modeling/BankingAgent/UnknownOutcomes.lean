import BankingAgent.Async.Gate
import BankingAgent.ReplaySafety

/-!
# Calls whose outcome is unknown

A tool call that ends in an exception may have had its effect. Nobody is to make it again: its
record is to stop every later run of the tool node and every later approval. But the adapter
turns the exception of its transport into a failed result, and the record says `FAILED`; and an
exception that escapes from the node leaves the record `RESERVED`. Both stand for calls that may
be tried.

* `unknown_outcome_never_retried` — under a key whose call has raised, no run that begins later
  makes a call, as long as none looks up a record that lets it through.
-/

namespace BankingAgent

open Async

variable {rt : AgentRuntime} {key : String}

/-- A call under the key that may change something, and on the way an exception was raised. -/
def RaisesUnder (rt : AgentRuntime) (key : String) (e : LogEntry Work) : Bool :=
  match e with
  | ⟨_, _, .callTool site call, .mcp outcome, _⟩ =>
    site.idemKey? = some key && rt.mayChange call && outcome.raised
  | _ => false

/-- A call under the key, of whatever kind. -/
def DispatchesUnder (key : String) (e : LogEntry Work) : Bool :=
  match e with
  | ⟨_, _, .callTool site _, _, _⟩ => site.idemKey? = some key
  | _ => false

/-- The message of the state asks for a call under the key that only reads. -/
def AgentRuntime.readsUnder (rt : AgentRuntime) (s : AgentState) (key : String) : Bool :=
  s.lastCalls.any fun tc =>
    rt.recordKey s.sessionId tc.id = some key && rt.operationKind tc.name = .read

/-- What the record of the key lets the piece of work do: there is none, or it says that the
call may be tried, or the tool node finds it unfinished and only reads. -/
def AgentRuntime.letsThrough (rt : AgentRuntime) (key : String) :
    Work → Option IdempotencyRow → Bool
  | _, none => true
  | .decision _, some row => row.status = .failed
  | .toolNode s _, some row =>
    row.status = .failed || row.status = .reserved ||
      (row.status = .executing || row.status = .unknown) && rt.readsUnder s key

/-- The record of the key is looked up and lets the piece of work through. -/
def LetThrough (rt : AgentRuntime) (key : String) (e : LogEntry Work) : Bool :=
  match e with
  | ⟨_, w, .idem (.select k), _, row⟩ => k = key && rt.letsThrough key w row
  | _ => false

/-- The runs of the node and the decisions, in which no record of the key lets anything
through that begins after a call under it has raised. -/
def heedingRaises (rt : AgentRuntime) (key : String) : Discipline Db Work (LogEntry Work) :=
  { Discipline.crashing (σ := Db) (E := LogEntry Work) fun _ => True with
    ok := fun _ h e => LetThrough rt key e = true → ¬ BeginsAfter (RaisesUnder rt key) e.tid h }

/-! ## The lookup is the gate -/

/-- The run of the node has been let through: to a call under the key that only reads if the
message asks for one. -/
def NodePos.PastLookup (rt : AgentRuntime) (s : AgentState) (key : String) : NodePos → Prop
  | cleared _ k tc _ =>
    k = key ∧ (rt.operationKind tc.name = .read → rt.readsUnder s key = true)
  | _ => False

/-- The approval has been let through. -/
def Pos.PastLookup (key : String) : Pos → Prop
  | looked s _ _ => s.idemKey = key
  | reserving s _ _ => s.idemKey = key
  | reserved s _ _ => s.idemKey = key
  | _ => False

/-- The piece of work has been let through. -/
def WorkPos.PastLookup (rt : AgentRuntime) (key : String) : Work → WorkPos → Prop
  | .toolNode s _, .node p => p.PastLookup rt s key
  | .decision _, .decision p => p.PastLookup key
  | _, _ => False

section Step

variable {i : ℕ} {w : Work} {o : Op} {r : o.Res} {env : Env}

/-- The node is let through by the record only. -/
theorem NodeMove.letThrough {s : AgentState} {resumes : List Json} {p q : NodePos}
    (move : NodeMove rt s p o r q) (hq : q.PastLookup rt s key) :
    p.PastLookup rt s key ∨ LetThrough rt key ⟨i, .toolNode s resumes, o, env, r⟩ = true := by
  cases move with
  | idle r quiet => exact .inl hq
  | lookupNone hkey =>
    obtain ⟨rfl, -⟩ := hq
    exact .inr (by simp [LetThrough, AgentRuntime.letsThrough])
  | lookupRetry hkey hst =>
    obtain ⟨rfl, -⟩ := hq
    right
    rcases hst with hst | hst <;> simp [LetThrough, AgentRuntime.letsThrough, hst]
  | lookupRead hkey hst hkind =>
    -- an unfinished record lets a call through that only reads
    obtain ⟨rfl, hreads⟩ := hq
    right
    rcases hst with hst | hst <;>
      simp [LetThrough, AgentRuntime.letsThrough, hst, hreads hkind]
  | markExecuting hit => exact .inl hq
  | recheckSome row => exact .inl hq
  | recheckNone => exact .inl hq
  | reserve text now hit => exact .inl hq
  | reread row => exact .inl hq
  | _ => exact hq.elim

/-- So is the approval. -/
theorem Move.letThrough {call : Call} {p q : Pos} (move : Move rt.py call p o r q)
    (hq : q.PastLookup key) :
    p.PastLookup key ∨ LetThrough rt key ⟨i, .decision call, o, env, r⟩ = true := by
  cases move with
  | idle r quiet => exact .inl hq
  | lookupNone =>
    obtain rfl := hq
    exact .inr (by simp [LetThrough, AgentRuntime.letsThrough])
  | lookupFailed status =>
    obtain rfl := hq
    exact .inr (by simp [LetThrough, AgentRuntime.letsThrough, status])
  | reserve text now hit => exact .inl hq
  | reread row => exact .inl hq
  | _ => exact hq.elim

/-- The tools a run of the node calls are those its message asks for. -/
def Op.Asked (o : Op) : Work → Prop
  | .toolNode s _ => o.OfCalls s
  | .decision _ => True

/-- What a piece of work does. -/
def AskedMove (rt : AgentRuntime) (w : Work) (p : WorkPos) (o : Op) (r : o.Res) (q : WorkPos) :
    Prop :=
  WorkMove rt w p o r q ∧ o.Asked w

theorem AskedMove.letThrough {p q : WorkPos} (move : AskedMove rt w p o r q)
    (hq : q.PastLookup rt key w) :
    p.PastLookup rt key w ∨ LetThrough rt key ⟨i, w, o, env, r⟩ = true := by
  obtain ⟨move, -⟩ := move
  cases move with
  | node move => exact move.letThrough hq
  | decision move => exact move.letThrough hq

/-- A call of the message that only reads. -/
theorem ToolRequest.Of.readsUnder {s : AgentState} {tc : ToolRequest} (htc : tc.Of s)
    (hkey : rt.recordKey s.sessionId tc.id = some key) (hkind : rt.operationKind tc.name = .read) :
    rt.readsUnder s key = true := by
  obtain ⟨tc₀, hmem, hid, hname⟩ := htc
  refine List.any_eq_true.mpr ⟨tc₀, hmem, ?_⟩
  simp [hid, hname, hkey, hkind]

/-- A call under the key is made past its lookup. -/
theorem AskedMove.dispatches {p q : WorkPos} (move : AskedMove rt w p o r q)
    (hd : DispatchesUnder key ⟨i, w, o, env, r⟩ = true) : p.PastLookup rt key w := by
  obtain ⟨move, hcalls⟩ := move
  cases move with
  | node move =>
    have hcalls : Op.OfCalls _ _ := hcalls
    cases move with
    | idle r quiet =>
      cases o <;> first | exact quiet.elim | cases hd
    | execute result hkey =>
      obtain rfl := Option.some.inj (of_decide_eq_true hd)
      exact ⟨rfl, (ToolRequest.of_ofCalls hcalls).readsUnder hkey⟩
    | executeRaised exc hkey =>
      obtain rfl := Option.some.inj (of_decide_eq_true hd)
      exact ⟨rfl, (ToolRequest.of_ofCalls hcalls).readsUnder hkey⟩
    | _ => cases hd
  | decision move =>
    cases move with
    | idle r quiet =>
      cases o <;> first | exact quiet.elim | cases hd
    | dispatch answer hargs => exact Option.some.inj (of_decide_eq_true hd)
    | _ => cases hd

end Step

/-- Every piece of work obeys. -/
theorem asked_follows (rt : AgentRuntime) (w : Work) :
    Follows (AskedMove rt w) (WorkPos.Ends rt.py w) (rt.workCode w) w.entry := by
  have hasked : Relies (fun _ _ => True) (fun o => o.Asked w) (fun _ => True) (rt.workCode w) := by
    cases w with
    | toolNode s resumes =>
      exact Relies.seq (handleCalls_ofCalls s.lastCalls fun tc htc => ⟨tc, htc, rfl, rfl⟩)
        fun _ => trivial
    | decision call => exact relies_true _
  exact hasked.follows (work_follows rt w fun call _ => by cases call <;> exact trivial)

/-- **The lookup of the record** is the gate of the calls under its key. -/
def lookupGate (rt : AgentRuntime) (key : String) :
    Machine.Gated (heedingRaises rt key) (AskedMove rt) Work.entry (RaisesUnder rt key)
      (DispatchesUnder key) where
  past := WorkPos.PastLookup rt key
  start_before w := by cases w <;> exact id
  enters move hok hq := (move.letThrough hq).imp_right hok
  uses_past move hd := move.dispatches hd

/-- **Never again**: over all runs of the tool node, on any states with any answers to the
interrupts, and all decisions, at the same time and with crashes anywhere, once a call under the
key that may change something has raised, nothing that begins later makes a call under the key,
if no record of the key lets it through. -/
theorem unknown_outcome_never_retried {db : Db} {c : rt.workers.Config}
    (run : rt.workers.Reach (heedingRaises rt key) (Pool.init db) c) :
    NeverAfter (RaisesUnder rt key) (DispatchesUnder key) c.hist :=
  (lookupGate rt key).never (fun w _ => asked_follows rt w) run

/-! ## A transfer of unknown outcome -/

section Decidable

instance : DecidablePred (heedingRaises rt key).start := fun _ => instDecidableTrue

instance : Decidable (heedingRaises rt key).crash := instDecidableTrue

instance : Decidable (heedingRaises rt key).sequential := instDecidableFalse

instance (db : Db) (h : List (LogEntry Work)) (e : LogEntry Work) :
    Decidable ((heedingRaises rt key).ok db h e) :=
  inferInstanceAs (Decidable (LetThrough rt key e = true →
    ¬ BeginsAfter (RaisesUnder rt key) e.tid h))

end Decidable

/-- The client raises in an approval, and the node that comes to the transfer later leaves it. -/
theorem raised_transfer_never_retried :
    ∃ c : demoRuntime.workers.Config,
      demoRuntime.workers.Reach (heedingRaises demoRuntime "s:call-1") (Pool.init demoDb) c ∧
        (∃ e ∈ c.hist, RaisesUnder demoRuntime "s:call-1" e = true) ∧
          NeverAfter (RaisesUnder demoRuntime "s:call-1") (DispatchesUnder "s:call-1") c.hist := by
  have hrun : ((demoRuntime.workers.run? (heedingRaises demoRuntime "s:call-1")
    [.spawn (.decision (.approve "s" none)), .steps 0 40 (demoEnv demoRaise),
      .spawn (.toolNode (askingState "s" "call-1" "submit_transfer") []),
      .steps 1 20 (approvingEnv demoSuccess)] (Pool.init demoDb)).map fun c =>
    c.hist.any (RaisesUnder demoRuntime "s:call-1")).getD false = true := by
    decide +kernel
  obtain ⟨c, run, hc⟩ := Machine.exists_reach_of_run? hrun
  exact ⟨c, run, List.any_eq_true.mp hc, unknown_outcome_never_retried run⟩

/-- The transport raises, the adapter makes a failed result of it, and the node submits the
transfer again. -/
theorem swallowed_transfer_retried :
    ∃ c : demoRuntime.workers.Config,
      demoRuntime.workers.Reach (.crashing fun _ => True) (Pool.init Db.empty) c ∧
        ¬ NeverAfter (RaisesUnder demoRuntime "a:call-1") (DispatchesUnder "a:call-1") c.hist := by
  have hrun : ((demoRuntime.workers.run? (.crashing fun _ => True)
    [.spawn (.toolNode transferState []),
      .steps 0 20 (approvingEnv (.adapter true (.error (.remote "connection reset")))),
      .spawn (.toolNode transferState []), .steps 1 20 (approvingEnv demoSuccess)]
    (Pool.init Db.empty)).map fun c =>
      decide (¬ NeverAfter (RaisesUnder demoRuntime "a:call-1") (DispatchesUnder "a:call-1")
        c.hist)).getD false = true := by
    decide +kernel
  obtain ⟨c, run, hc⟩ := Machine.exists_reach_of_run? (P := fun c =>
    decide (¬ NeverAfter (RaisesUnder demoRuntime "a:call-1") (DispatchesUnder "a:call-1") c.hist))
    hrun
  exact ⟨c, run, of_decide_eq_true hc⟩

end BankingAgent
