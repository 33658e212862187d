import BankingAgent.Async.Outline
import Mathlib.Data.Rat.Defs

/-!
# `metrics.py`: one slot for all runs

The collector of an app instance holds the metrics of one run, the current one. Every
`AgentRuntime.run` and `resume` of the process starts its metrics there, records a step after
each answer of the model in the graph, and finishes them, unless it ends by an exception or at
an interrupt. What lies between two of these calls is awaited, so the calls of several runs
interleave in any way.

* `metrics_isolated` — a run finds its own metrics at the end as long as no other run calls the
  collector in the meantime.
-/

namespace BankingAgent

open Async

/-- `StepMetrics`. -/
structure StepMetrics : Type where
  stepIndex : ℕ
  durationMs : ℚ
  inputTokens : ℕ
  outputTokens : ℕ
  toolCallCount : ℕ
  toolDurationMs : ℚ
  deriving DecidableEq

/-- `RunMetrics`. -/
structure RunMetrics : Type where
  runId : String
  steps : List StepMetrics
  totalDurationMs : ℚ
  totalInputTokens : ℕ
  totalOutputTokens : ℕ
  totalToolCalls : ℕ
  startedAt : String
  completedAt : String
  deriving DecidableEq

/-- `RuntimeError("No active run — call start_run first")`. -/
inductive MetricsError : Type where
  | noActiveRun
  deriving DecidableEq

/-- What the clocks say: the ISO time, and `time.monotonic()`. -/
structure Clocks : Type where
  iso : String
  monotonic : ℚ

/-- `InMemoryMetricsCollector`. -/
structure InMemoryMetricsCollector : Type where
  current : Option RunMetrics
  startTime : ℚ

/-- The calls of the collector. -/
inductive MetricsOp : Type where
  | startRun (runId : String)
  | recordStep (metrics : StepMetrics)
  | finishRun
  deriving DecidableEq

/-- What they answer. -/
abbrev MetricsOp.Res : MetricsOp → Type
  | startRun _ => Unit
  | recordStep _ => Except MetricsError Unit
  | finishRun => Except MetricsError RunMetrics

namespace InMemoryMetricsCollector

/-- `InMemoryMetricsCollector.start_run`. -/
def startRun (_ : InMemoryMetricsCollector) (runId : String) (t : Clocks) :
    InMemoryMetricsCollector :=
  ⟨some ⟨runId, [], 0, 0, 0, 0, t.iso, ""⟩, t.monotonic⟩

/-- `InMemoryMetricsCollector.record_step`. -/
def recordStep (c : InMemoryMetricsCollector) (metrics : StepMetrics) :
    Except MetricsError Unit × InMemoryMetricsCollector :=
  match c.current with
  | none => (.error .noActiveRun, c)
  | some run =>
    (.ok (), { c with current := some {
      run with
      steps := run.steps ++ [metrics]
      totalInputTokens := run.totalInputTokens + metrics.inputTokens
      totalOutputTokens := run.totalOutputTokens + metrics.outputTokens
      totalToolCalls := run.totalToolCalls + metrics.toolCallCount
      totalDurationMs := run.totalDurationMs + metrics.durationMs } })

/-- `InMemoryMetricsCollector.finish_run`. -/
def finishRun (c : InMemoryMetricsCollector) (t : Clocks) :
    Except MetricsError RunMetrics × InMemoryMetricsCollector :=
  match c.current with
  | none => (.error .noActiveRun, c)
  | some run =>
    (.ok { run with totalDurationMs := (t.monotonic - c.startTime) * 1000, completedAt := t.iso },
      { c with current := none })

/-- A call of the collector, at what the clocks say. -/
def exec : (o : MetricsOp) → Clocks → InMemoryMetricsCollector →
    Option (o.Res × InMemoryMetricsCollector)
  | .startRun runId, t, c => some ((), c.startRun runId t)
  | .recordStep metrics, _, c => some (c.recordStep metrics)
  | .finishRun, t, c => some (c.finishRun t)

end InMemoryMetricsCollector

/-! ## The runs -/

/-- What a run has to do with the collector. -/
structure MeteredRun : Type where
  runId : String
  /-- the steps it records, in order -/
  steps : List StepMetrics
  /-- it ends neither by an exception nor at an interrupt -/
  finishes : Bool
  deriving DecidableEq

/-- A coroutine over the calls of the collector. -/
abbrev Metered (α : Type) : Type := Prog MetricsOp MetricsOp.Res MetricsError α

/-- `_record_step_metrics` after each step: its exceptions are swallowed. -/
def recordSteps : List StepMetrics → Metered Unit
  | [] => return ()
  | metrics :: rest => do
    let _ ← Prog.await (.recordStep metrics)
    recordSteps rest

/-- The call of `finish_run`: its exceptions are not. -/
def finishMetrics : Metered RunMetrics :=
  .op .finishRun fun
    | .ok metrics => .ret metrics
    | .error exc => .raise exc

/-- The calls of the collector in `AgentRuntime.run` and `AgentRuntime.resume`, with what
`finish_run` returns. -/
def MeteredRun.code (run : MeteredRun) : Metered (Option RunMetrics) := do
  let _ ← Prog.await (.startRun run.runId)
  recordSteps run.steps
  if run.finishes then
    let metrics ← finishMetrics
    return some metrics
  else return none

/-- The runs of one app instance, around its collector. -/
def metered : Machine MetricsOp MetricsOp.Res MetricsError (Option RunMetrics) MeteredRun Clocks
    InMemoryMetricsCollector :=
  ⟨InMemoryMetricsCollector.exec, MeteredRun.code⟩

/-- One call of the collector. -/
abbrev MetricsEntry : Type := Entry MeteredRun Clocks MetricsOp MetricsOp.Res

/-- **Isolation**: every run that has finished its metrics got its own. -/
def MetricsIsolated (c : metered.Config) : Prop :=
  ∀ i run b out, c.At i run b → b.outcome? = some out → run.finishes = true →
    ∃ metrics, out = .ok (some metrics) ∧ metrics.runId = run.runId ∧ metrics.steps = run.steps

/-- The run has started, will finish, and has not yet. -/
def Counting (h : List MetricsEntry) (i : ℕ) : Prop :=
  ∃ e ∈ h, e.tid = i ∧ e.call.finishes = true ∧ ∀ e' ∈ h, e'.tid = i → e'.op ≠ .finishRun

/-- No call of the collector comes between the start and the finish of another run. -/
def oneAtATime : Discipline InMemoryMetricsCollector MeteredRun MetricsEntry :=
  ⟨fun _ => True, False, False, fun _ h e => ∀ i, i ≠ e.tid → ¬ Counting h i⟩

section Decidable

variable (h : List MetricsEntry)

instance (i : ℕ) : Decidable (Counting h i) :=
  inferInstanceAs (Decidable (∃ e ∈ h, e.tid = i ∧ e.call.finishes = true ∧
    ∀ e' ∈ h, e'.tid = i → e'.op ≠ .finishRun))

/-- Only runs that have called the collector can be counting. -/
theorem oneAtATime_ok_iff (s : InMemoryMetricsCollector) (e : MetricsEntry) :
    oneAtATime.ok s h e ↔ ∀ e' ∈ h, e'.tid ≠ e.tid → ¬ Counting h e'.tid := by
  constructor
  · exact fun hok e' _ hne => hok e'.tid hne
  · rintro hok i hne ⟨e', he', rfl, hrest⟩
    exact hok e' he' hne ⟨e', he', rfl, hrest⟩

instance (s : InMemoryMetricsCollector) (e : MetricsEntry) : Decidable (oneAtATime.ok s h e) :=
  decidable_of_iff' _ (oneAtATime_ok_iff h s e)

instance : DecidablePred oneAtATime.start := fun _ => instDecidableTrue

instance : Decidable oneAtATime.crash := instDecidableFalse

instance : Decidable oneAtATime.sequential := instDecidableFalse

end Decidable

/-! ## The protocol of a run -/

/-- How far a run is. -/
inductive MeterPos : Type where
  | fresh
  /-- started, with the steps recorded so far -/
  | recorded (done : List StepMetrics)
  | finished (metrics : Except MetricsError RunMetrics)

/-- What a run may call where. -/
inductive MeterMove (run : MeteredRun) : MeterPos → (o : MetricsOp) → o.Res → MeterPos → Prop
  | start : MeterMove run .fresh (.startRun run.runId) () (.recorded [])
  | record {done rest : List StepMetrics} {metrics : StepMetrics} (r : Except MetricsError Unit)
      (next : run.steps = done ++ metrics :: rest) :
      MeterMove run (.recorded done) (.recordStep metrics) r (.recorded (done ++ [metrics]))
  | finish (r : Except MetricsError RunMetrics) :
      MeterMove run (.recorded run.steps) .finishRun r (.finished r)

/-- How a run may end. -/
def MeterPos.Ends (run : MeteredRun) : MeterPos → Except MetricsError (Option RunMetrics) → Prop
  | finished metrics, out => out = metrics.map some
  | _, _ => run.finishes = false

theorem recordSteps_follows {run : MeteredRun} : ∀ {done rest : List StepMetrics},
    run.steps = done ++ rest →
    Follows (MeterMove run) (fun p out => p = .recorded run.steps ∧ out = .ok ())
      (recordSteps rest) (.recorded done) := by
  intro done rest
  induction rest generalizing done with
  | nil =>
    intro h
    rw [List.append_nil] at h
    exact ⟨by rw [h], rfl⟩
  | cons metrics rest ih =>
    intro h r
    exact ⟨_, .record r h, ih (by rw [h, List.append_assoc]; rfl)⟩

theorem code_follows (run : MeteredRun) :
    Follows (MeterMove run) (MeterPos.Ends run) run.code .fresh := by
  intro r
  refine ⟨_, .start, ?_⟩
  change Follows _ _ ((recordSteps run.steps).bind _) _
  refine Follows.bind ?_ ?_ (recordSteps_follows rfl)
  · rintro _ _ ⟨rfl, -⟩
    cases hfin : run.finishes with
    | false => exact hfin
    | true =>
      intro r
      refine ⟨_, .finish r, ?_⟩
      cases r <;> exact rfl
  · rintro _ _ ⟨-, h⟩
    cases h

/-! ## The slot -/

/-- What a run that will finish knows of the slot. -/
def MeterPos.Knows (slot : Option RunMetrics) (h : List MetricsEntry) (i : ℕ) (run : MeteredRun) :
    MeterPos → Prop
  | fresh => ∀ e ∈ h, e.tid ≠ i
  | recorded done => run.finishes = true →
    Counting h i ∧ ∃ metrics, slot = some metrics ∧ metrics.runId = run.runId ∧
      metrics.steps = done
  | finished r => run.finishes = true →
    ∃ metrics, r = .ok metrics ∧ metrics.runId = run.runId ∧ metrics.steps = run.steps

/-- The start of a run that will finish. -/
theorem counting_start {h : List MetricsEntry} {i : ℕ} {run : MeteredRun} {t : Clocks}
    (hnew : ∀ e ∈ h, e.tid ≠ i) (hfin : run.finishes = true) :
    Counting (⟨i, run, .startRun run.runId, t, ()⟩ :: h) i := by
  refine ⟨_, List.mem_cons_self, rfl, hfin, fun e he hi => ?_⟩
  rcases List.mem_cons.mp he with rfl | he
  · rintro ⟨⟩
  · exact absurd hi (hnew e he)

/-- A recorded step is no end. -/
theorem Counting.record {h : List MetricsEntry} {i : ℕ} {run : MeteredRun} {t : Clocks}
    {metrics : StepMetrics} {r : Except MetricsError Unit} (hc : Counting h i) :
    Counting (⟨i, run, .recordStep metrics, t, r⟩ :: h) i := by
  obtain ⟨e, he, hi, hfin, hopen⟩ := hc
  refine ⟨e, List.mem_cons_of_mem _ he, hi, hfin, fun e' he' hi' => ?_⟩
  rcases List.mem_cons.mp he' with rfl | he'
  · rintro ⟨⟩
  · exact hopen e' he' hi'

/-- A run that calls the collector knows afterwards what it should. -/
theorem MeterMove.knows {h : List MetricsEntry} {i : ℕ} {run : MeteredRun} {p q : MeterPos}
    {o : MetricsOp} {r : o.Res} {t : Clocks} {s s' : InMemoryMetricsCollector}
    (hmove : MeterMove run p o r q) (hexec : InMemoryMetricsCollector.exec o t s = some (r, s'))
    (hp : p.Knows s.current h i run) : q.Knows s'.current (⟨i, run, o, t, r⟩ :: h) i run := by
  cases hmove with
  | start =>
    cases hexec
    exact fun hfin => ⟨counting_start hp hfin, _, rfl, rfl, rfl⟩
  | record r next =>
    intro hfin
    obtain ⟨hc, metrics, hslot, hid, hsteps⟩ := hp hfin
    rw [InMemoryMetricsCollector.exec, InMemoryMetricsCollector.recordStep, hslot] at hexec
    cases hexec
    exact ⟨hc.record, _, rfl, hid, by rw [hsteps]⟩
  | finish r =>
    intro hfin
    obtain ⟨-, metrics, hslot, hid, hsteps⟩ := hp hfin
    rw [InMemoryMetricsCollector.exec, InMemoryMetricsCollector.finishRun, hslot] at hexec
    cases hexec
    exact ⟨_, rfl, hid, hsteps⟩

/-- What a run knows outlasts the calls of others, which do not come while it is counting. -/
theorem MeterPos.Knows.other {h : List MetricsEntry} {i : ℕ} {run : MeteredRun} {p : MeterPos}
    {slot slot' : Option RunMetrics} {e : MetricsEntry} (hp : p.Knows slot h i run)
    (hne : e.tid ≠ i) (hc : ¬ Counting h i) : p.Knows slot' (e :: h) i run := by
  cases p with
  | fresh =>
    intro e' he'
    rcases List.mem_cons.mp he' with rfl | he'
    · exact hne
    · exact hp e' he'
  | recorded done => exact fun hfin => absurd (hp hfin).1 hc
  | finished r => exact hp

/-- The slot belongs to the run that is counting. -/
def slotOutline : metered.Outline oneAtATime MeterMove (fun _ => .fresh) where
  inv _ _ := True
  asserts s h i run p := p.Knows s.current h i run
  owns _ _ := False
  entry _ _ hnew := ⟨hnew, id⟩
  step _ hp hmove hexec _ := ⟨trivial, hmove.knows hexec hp⟩
  free _ _ hp _ _ hok hne _ := hp.other hne (hok _ hne.symm)
  excl _ _ _ _ _ ho _ := ho.elim

/-- **Metrics are isolated** in every run of any number of runs in which no call of the
collector comes between the start and the finish of another run. -/
theorem metrics_isolated {s : InMemoryMetricsCollector} {c : metered.Config}
    (h : metered.Reach oneAtATime (Pool.init s) c) : MetricsIsolated c := by
  intro i run b out hat hout hfin
  obtain ⟨p, hf, hp⟩ := slotOutline.sound_at (fun run _ => code_follows run) trivial h hat
  have hends : p.Ends run out := by
    cases b with
    | ret a => cases hout; exact hf
    | raise e => cases hout; exact hf
    | op o k => cases hout
  cases p with
  | finished r =>
    obtain ⟨metrics, rfl, hid, hsteps⟩ := hp hfin
    exact ⟨metrics, hends, hid, hsteps⟩
  | fresh => exact absurd hfin (by rw [hends]; exact Bool.false_ne_true)
  | recorded done => exact absurd hfin (by rw [hends]; exact Bool.false_ne_true)

/-! ## Two runs -/

/-- A run of one step. -/
def shortRun (runId : String) : MeteredRun := ⟨runId, [⟨0, 1, 0, 0, 0, 0⟩], true⟩

/-- The clocks stand still. -/
def noon : MetricsOp → Clocks := fun _ => ⟨"2026-01-01T12:00:00+00:00", 0⟩

/-- The first run starts, then the second; the first finishes, then the second. -/
def overlapping : List (Machine.Act MeteredRun MetricsOp Clocks) :=
  [.spawn (shortRun "a"), .spawn (shortRun "b"), .steps 0 1 noon, .steps 1 2 noon,
    .steps 0 2 noon, .steps 1 1 noon]

/-- The first run gets the metrics of the second, which is left with an exception. -/
theorem overlapping_runs_fail :
    ∃ c, metered.Reach (.free fun _ => True) (Pool.init ⟨none, 0⟩) c ∧
      ¬ MetricsIsolated c := by
  have hrun : ((metered.run? (.free fun _ => True) overlapping (Pool.init ⟨none, 0⟩)).map fun c =>
      decide (metered.result? c 1 = some (shortRun "b", .error .noActiveRun))).getD false =
      true := by decide +kernel
  obtain ⟨c, hreach, hc⟩ := Machine.exists_reach_of_run? (P := fun c =>
    decide (metered.result? c 1 = some (shortRun "b", .error .noActiveRun))) hrun
  refine ⟨c, hreach, fun hisolated => ?_⟩
  obtain ⟨metrics, hout, -⟩ :=
    hisolated 1 _ _ _ (Machine.at_of_error? (of_decide_eq_true hc)) rfl rfl
  cases hout

/-- The first run dies of an exception; the second starts, records its step and finishes; then
the third. -/
def separate : List (Machine.Act MeteredRun MetricsOp Clocks) :=
  [.spawn { shortRun "a" with finishes := false }, .spawn (shortRun "b"), .spawn (shortRun "c"),
    .steps 0 2 noon, .steps 1 3 noon, .steps 2 3 noon]

/-- Both runs that finish have got their own metrics. -/
theorem separate_runs_isolated :
    ∃ c, metered.Reach oneAtATime (Pool.init ⟨none, 0⟩) c ∧
      (metered.result? c 1).isSome ∧ (metered.result? c 2).isSome ∧ MetricsIsolated c := by
  have hrun : ((metered.run? oneAtATime separate (Pool.init ⟨none, 0⟩)).map fun c =>
      (metered.result? c 1).isSome && (metered.result? c 2).isSome).getD false = true := by
    decide +kernel
  obtain ⟨c, hreach, hc⟩ := Machine.exists_reach_of_run? (P := fun c =>
    (metered.result? c 1).isSome && (metered.result? c 2).isSome) hrun
  obtain ⟨hone, htwo⟩ := (Bool.and_eq_true _ _).mp hc
  exact ⟨c, hreach, hone, htwo, metrics_isolated hreach⟩

end BankingAgent
