import Mathlib.Algebra.Order.Ring.Int
import Mathlib.Data.Int.Notation
import Mathlib.Data.List.Induction

/-!
# `reliability.py`: the circuit breaker

Several callers share one `CircuitBreaker`: each asks `allow_request` before a call and records
how the call went. An open breaker fails fast until the recovery timeout has passed since the last
failure; the request that finds it passed is let through, and the breaker is half open.

While it is half open `allow_request` always answers `True`, whoever asks and how often. So a
recovery has one probe exactly if nobody asks a half-open breaker.

* `breaker_fails_fast` — an open breaker lets nothing through within the recovery timeout.
* `one_probe_iff` — each recovery has one probe, exactly if no request meets a half-open breaker.

The clock readings are of any linear order with a subtraction.
-/

namespace BankingAgent

/-- `CircuitState`. -/
inductive CircuitState : Type where
  | closed
  | opened
  | halfOpen
  deriving DecidableEq, Repr

/-- `CircuitBreaker`. -/
structure CircuitBreaker (T : Type) : Type where
  failureThreshold : ℤ
  recoveryTimeoutSeconds : T
  state : CircuitState
  failureCount : ℤ
  lastFailureTime : T
  deriving DecidableEq, Repr

/-- The calls of a breaker, with what `time.monotonic()` reads at each. -/
inductive BreakerCall (T : Type) : Type where
  | allowRequest (now : T)
  | recordSuccess (now : T)
  | recordFailure (now : T)
  deriving DecidableEq, Repr

/-- What the clock reads at a call. -/
def BreakerCall.now {T : Type} : BreakerCall T → T
  | allowRequest now | recordSuccess now | recordFailure now => now

/-- When the call records a failure, if it does. -/
def BreakerCall.failure? {T : Type} : BreakerCall T → Option T
  | recordFailure now => some now
  | allowRequest _ | recordSuccess _ => none

/-- A call of `allow_request`. -/
def BreakerCall.Asks {T : Type} : BreakerCall T → Prop
  | allowRequest _ => True
  | recordSuccess _ | recordFailure _ => False

namespace CircuitBreaker

variable {T : Type} [LinearOrder T] [Sub T]

/-- A new `CircuitBreaker`. -/
def create [Zero T] (failureThreshold : ℤ) (recoveryTimeoutSeconds : T) : CircuitBreaker T :=
  ⟨failureThreshold, recoveryTimeoutSeconds, .closed, 0, 0⟩

/-- `CircuitBreaker.record_success`. -/
def recordSuccess (b : CircuitBreaker T) : CircuitBreaker T :=
  match b.state with
  | .halfOpen => { b with state := .closed, failureCount := 0 }
  | .closed => { b with failureCount := 0 }
  | .opened => b

/-- `CircuitBreaker.record_failure`. -/
def recordFailure (b : CircuitBreaker T) (now : T) : CircuitBreaker T :=
  { b with
    failureCount := b.failureCount + 1
    lastFailureTime := now
    state := if b.failureThreshold ≤ b.failureCount + 1 then .opened else b.state }

/-- `CircuitBreaker.allow_request`. -/
def allowRequest (b : CircuitBreaker T) (now : T) : Bool × CircuitBreaker T :=
  match b.state with
  | .closed => (true, b)
  | .opened =>
    if b.recoveryTimeoutSeconds < now - b.lastFailureTime then
      (true, { b with state := .halfOpen })
    else (false, b)
  | .halfOpen => (true, b)

/-- The breaker after a call. -/
def step (b : CircuitBreaker T) : BreakerCall T → CircuitBreaker T
  | .allowRequest now => (b.allowRequest now).2
  | .recordSuccess _ => b.recordSuccess
  | .recordFailure now => b.recordFailure now

/-- The breaker after the calls, made one after the other. -/
def after (b : CircuitBreaker T) (calls : List (BreakerCall T)) : CircuitBreaker T :=
  calls.foldl step b

/-- The call is a request that is let through. -/
def lets (b : CircuitBreaker T) : BreakerCall T → Bool
  | .allowRequest now => (b.allowRequest now).1
  | .recordSuccess _ | .recordFailure _ => false

/-- How many requests of the calls are let through. -/
def letThrough (b : CircuitBreaker T) : List (BreakerCall T) → ℕ
  | [] => 0
  | call :: calls => (b.lets call).toNat + (b.step call).letThrough calls

/-- When the last failure of the calls was recorded, if one was. -/
def lastFailure? : List (BreakerCall T) → Option T
  | [] => none
  | call :: calls => (lastFailure? calls).or call.failure?

variable {b : CircuitBreaker T} {now t : T} {call : BreakerCall T}
  {calls pre mid : List (BreakerCall T)}

@[simp] theorem after_nil : b.after [] = b := rfl

@[simp] theorem after_cons : b.after (call :: calls) = (b.step call).after calls := rfl

theorem after_append : b.after (pre ++ calls) = (b.after pre).after calls := by
  simp [after]

@[simp] theorem letThrough_nil : b.letThrough [] = 0 := rfl

@[simp] theorem letThrough_cons : b.letThrough (call :: calls) =
    (b.lets call).toNat + (b.step call).letThrough calls := rfl

/-! ## What one call can do -/

/-- A request that finds the breaker open passes if the timeout has passed. -/
theorem allowRequest_opened (h : b.state = .opened) :
    (b.allowRequest now).1 = decide (b.recoveryTimeoutSeconds < now - b.lastFailureTime) := by
  rw [allowRequest, h]
  by_cases hlate : b.recoveryTimeoutSeconds < now - b.lastFailureTime <;> simp [hlate]

/-- A request that finds the breaker half open passes, and leaves it as it is. -/
theorem allowRequest_halfOpen (h : b.state = .halfOpen) : b.allowRequest now = (true, b) := by
  rw [allowRequest, h]

/-- No call but `record_failure` touches the time of the last failure, and none the settings. -/
theorem step_frame : (b.step call).failureThreshold = b.failureThreshold ∧
    (b.step call).recoveryTimeoutSeconds = b.recoveryTimeoutSeconds ∧
    (b.step call).lastFailureTime = call.failure?.getD b.lastFailureTime := by
  cases call with
  | allowRequest now =>
    simp only [step, allowRequest]
    split
    · simp [BreakerCall.failure?]
    · split <;> simp [BreakerCall.failure?]
    · simp [BreakerCall.failure?]
  | recordSuccess now =>
    simp only [step, recordSuccess]
    split <;> simp [BreakerCall.failure?]
  | recordFailure now => simp [step, recordFailure, BreakerCall.failure?]

/-- The failures that tripped a breaker stay counted until it closes again. -/
def Tripped (b : CircuitBreaker T) : Prop :=
  b.state ≠ .closed → b.failureThreshold ≤ b.failureCount

theorem Tripped.step (h : b.Tripped) (call : BreakerCall T) : (b.step call).Tripped := by
  cases call with
  | allowRequest now =>
    simp only [CircuitBreaker.step, allowRequest]
    split
    · exact h
    · rename_i hopened
      split
      · exact fun _ => h (by simp [hopened])
      · exact h
    · exact h
  | recordSuccess now =>
    simp only [CircuitBreaker.step, recordSuccess]
    split
    · exact fun hne => absurd rfl hne
    · rename_i hclosed
      exact fun hne => absurd hclosed hne
    · exact h
  | recordFailure now =>
    intro hne
    simp only [CircuitBreaker.step, recordFailure] at hne ⊢
    by_cases hreached : b.failureThreshold ≤ b.failureCount + 1
    · exact hreached
    · -- below the threshold the state stays, and it was closed
      have hclosed : b.state ≠ .closed := by simpa [hreached] using hne
      exact le_trans (h hclosed) (by omega)

/-- A call that is no request ends the recovery. -/
theorem Tripped.leaves (h : b.Tripped) (hcall : ¬ call.Asks) : (b.step call).state ≠ .halfOpen := by
  cases call with
  | allowRequest now => exact absurd trivial hcall
  | recordSuccess now =>
    simp only [CircuitBreaker.step, recordSuccess]
    split
    · simp
    · rename_i hclosed
      simp [hclosed]
    · rename_i hopened
      simp [hopened]
  | recordFailure now =>
    simp only [CircuitBreaker.step, recordFailure]
    split
    · simp
    · rename_i hbelow
      intro hhalf
      exact hbelow (le_trans (h (by simp [hhalf])) (by omega))

/-- A breaker that is half open after a call was half open before it, or was open and the call is
the request that found the timeout passed. -/
theorem Tripped.enters (h : b.Tripped) (hhalf : (b.step call).state = .halfOpen) :
    ∃ now, call = .allowRequest now ∧ (b.state = .halfOpen ∨ b.state = .opened) := by
  cases call with
  | allowRequest now =>
    refine ⟨now, rfl, ?_⟩
    simp only [CircuitBreaker.step, allowRequest] at hhalf
    cases hstate : b.state with
    | closed => simp [hstate] at hhalf
    | opened => exact .inr rfl
    | halfOpen => exact .inl rfl
  | recordSuccess now => exact absurd hhalf (h.leaves id)
  | recordFailure now => exact absurd hhalf (h.leaves id)

/-! ## Runs -/

theorem Tripped.after (h : b.Tripped) (calls : List (BreakerCall T)) : (b.after calls).Tripped := by
  induction calls generalizing b with
  | nil => exact h
  | cons call calls ih => exact ih (h.step call)

theorem after_settings : (b.after calls).recoveryTimeoutSeconds = b.recoveryTimeoutSeconds := by
  induction calls generalizing b with
  | nil => rfl
  | cons call calls ih => exact ih.trans step_frame.2.1

theorem after_lastFailureTime :
    (b.after calls).lastFailureTime = (lastFailure? calls).getD b.lastFailureTime := by
  induction calls generalizing b with
  | nil => rfl
  | cons call calls ih =>
    rw [after_cons, ih, step_frame.2.2, lastFailure?]
    cases lastFailure? calls <;> rfl

/-- Requests alone leave a half-open breaker half open, and pass. -/
theorem requests_halfOpen (h : b.state = .halfOpen) (hmid : ∀ call ∈ mid, call.Asks) :
    b.after mid = b ∧ b.letThrough mid = mid.length := by
  induction mid with
  | nil => exact ⟨rfl, rfl⟩
  | cons call mid ih =>
    obtain ⟨hcall, hrest⟩ := List.forall_mem_cons.mp hmid
    cases call with
    | allowRequest now =>
      have hsame : b.step (.allowRequest now) = b := congrArg Prod.snd (allowRequest_halfOpen h)
      have hlets : b.lets (.allowRequest now) = true := congrArg Prod.fst (allowRequest_halfOpen h)
      obtain ⟨hafter, hcount⟩ := ih hrest
      rw [after_cons, letThrough_cons, hsame, hlets]
      exact ⟨hafter, by simp [hcount, Nat.add_comm]⟩
    | recordSuccess now => cases hcall
    | recordFailure now => cases hcall

/-- How a breaker got half open: a request found it open, and since then only requests came. -/
theorem Tripped.since (h : b.Tripped) (hclosed : b.state ≠ .halfOpen) :
    (b.after pre).state = .halfOpen → ∃ before now mid, pre = before ++ .allowRequest now :: mid ∧
      (b.after before).state = .opened ∧
      ((b.after before).step (.allowRequest now)).state = .halfOpen ∧ ∀ call ∈ mid, call.Asks := by
  induction pre using List.reverseRecOn with
  | nil => exact fun hhalf => absurd hhalf hclosed
  | append_singleton pre call ih =>
    intro hhalf
    rw [after_append] at hhalf
    obtain ⟨now, rfl, hbefore⟩ := (h.after pre).enters hhalf
    rcases hbefore with hbefore | hbefore
    · obtain ⟨before, now', mid, rfl, hopened, hstep, hmid⟩ := ih hbefore
      refine ⟨before, now', mid ++ [.allowRequest now], by simp, hopened, hstep, ?_⟩
      intro call hmem
      rcases List.mem_append.mp hmem with hmem | hmem
      · exact hmid call hmem
      · rw [List.mem_singleton.mp hmem]
        trivial
    · exact ⟨pre, now, [], rfl, hbefore, hhalf, by simp⟩

/-! ## The two rules -/

/-- No request passes while the breaker is open, within the recovery timeout of the last failure. -/
def FailsFast (b : CircuitBreaker T) (calls : List (BreakerCall T)) : Prop :=
  ∀ pre now post t, calls = pre ++ .allowRequest now :: post → (b.after pre).state = .opened →
    lastFailure? pre = some t → now - t ≤ b.recoveryTimeoutSeconds →
      (b.after pre).lets (.allowRequest now) = false

/-- From the request that makes an open breaker half open on, at most one request passes until a
success or a failure is recorded. -/
def OneProbe (b : CircuitBreaker T) (calls : List (BreakerCall T)) : Prop :=
  ∀ pre now mid post, calls = pre ++ .allowRequest now :: (mid ++ post) →
    (b.after pre).state = .opened →
    ((b.after pre).step (.allowRequest now)).state = .halfOpen → (∀ call ∈ mid, call.Asks) →
      (b.after pre).letThrough (.allowRequest now :: mid) ≤ 1

/-- No request meets a half-open breaker. -/
def NoneHalfOpen (b : CircuitBreaker T) (calls : List (BreakerCall T)) : Prop :=
  ∀ pre now post, calls = pre ++ .allowRequest now :: post → (b.after pre).state ≠ .halfOpen

/-- **Failing fast**: what `OPEN` is for holds in every run. -/
theorem breaker_fails_fast (b : CircuitBreaker T) (calls : List (BreakerCall T)) :
    b.FailsFast calls := by
  intro pre now post t _ hopened hlast hwithin
  have htime : (b.after pre).lastFailureTime = t := by simp [after_lastFailureTime, hlast]
  rw [lets, allowRequest_opened hopened, htime, after_settings]
  simpa using hwithin

/-- The request that makes an open breaker half open passes. -/
theorem lets_of_enters (hopened : b.state = .opened)
    (hhalf : (b.step (.allowRequest now)).state = .halfOpen) :
    b.lets (.allowRequest now) = true := by
  simp only [step, allowRequest, hopened] at hhalf
  by_cases hlate : b.recoveryTimeoutSeconds < now - b.lastFailureTime
  · simp [lets, allowRequest_opened hopened, hlate]
  · simp [hlate, hopened] at hhalf

/-- A request that meets a half-open breaker is a second probe of its recovery. -/
theorem Tripped.noneHalfOpen (h : b.Tripped) (hclosed : b.state ≠ .halfOpen)
    (hprobe : b.OneProbe calls) : b.NoneHalfOpen calls := by
  intro pre now post hcalls hhalf
  obtain ⟨before, now', mid, rfl, hopened, hstep, hmid⟩ := h.since hclosed hhalf
  have hasks : ∀ call ∈ mid ++ [BreakerCall.allowRequest now], call.Asks := by
    intro call hmem
    rcases List.mem_append.mp hmem with hmem | hmem
    · exact hmid call hmem
    · rw [List.mem_singleton.mp hmem]
      trivial
  have hone := hprobe before now' (mid ++ [.allowRequest now]) post (by simp [hcalls]) hopened hstep
    hasks
  rw [letThrough_cons, lets_of_enters hopened hstep, (requests_halfOpen hstep hasks).2] at hone
  simp only [Bool.toNat_true, List.length_append, List.length_singleton] at hone
  omega

/-- If no request meets a half-open breaker, the one that made it half open stays alone. -/
theorem NoneHalfOpen.oneProbe (h : b.NoneHalfOpen calls) : b.OneProbe calls := by
  intro pre now mid post hcalls _ hhalf hmid
  cases mid with
  | nil => cases hlets : (b.after pre).lets (.allowRequest now) <;> simp [hlets]
  | cons call mid =>
    cases call with
    | allowRequest now' =>
      refine absurd ?_ (h (pre ++ [.allowRequest now]) now' (mid ++ post) (by simp [hcalls]))
      rw [after_append]
      exact hhalf
    | recordSuccess now' => cases hmid _ List.mem_cons_self
    | recordFailure now' => cases hmid _ List.mem_cons_self

/-- **One probe a recovery**: a new breaker fails fast and lets one probe through for each
recovery, exactly in the runs in which no request meets it half open. -/
theorem one_probe_iff [Zero T] (failureThreshold : ℤ) (recoveryTimeoutSeconds : T)
    (calls : List (BreakerCall T)) :
    ((create failureThreshold recoveryTimeoutSeconds).FailsFast calls ∧
      (create failureThreshold recoveryTimeoutSeconds).OneProbe calls) ↔
      (create failureThreshold recoveryTimeoutSeconds).NoneHalfOpen calls := by
  have htripped : (create failureThreshold recoveryTimeoutSeconds).Tripped :=
    fun hne => absurd rfl hne
  constructor
  · rintro ⟨-, hprobe⟩
    exact htripped.noneHalfOpen (by simp [create]) hprobe
  · exact fun hnone => ⟨breaker_fails_fast _ _, hnone.oneProbe⟩

/-- Three callers ask after the timeout, before any of them has recorded how its call went. -/
def threeProbes : List (BreakerCall ℤ) :=
  [.recordFailure 1, .allowRequest 32, .allowRequest 33, .allowRequest 33]

/-- All three pass: the request that makes the breaker half open, and the two after it. -/
theorem three_probes_pass : (threeProbes.map BreakerCall.now).Pairwise (· ≤ ·) ∧
    ¬ ((create 1 30).FailsFast threeProbes ∧ (create 1 30).OneProbe threeProbes) ∧
    (((create 1 30).after (threeProbes.take 2)).state = .halfOpen ∧
      ((create 1 30).after (threeProbes.take 2)).letThrough (threeProbes.drop 2) = 2) := by
  refine ⟨by decide, ?_, by decide⟩
  rintro ⟨-, hprobe⟩
  have hmany := hprobe [.recordFailure 1] 32 [.allowRequest 33, .allowRequest 33] [] rfl (by decide)
    (by decide) (by simp [BreakerCall.Asks])
  exact absurd hmany (by decide)

end CircuitBreaker

end BankingAgent
