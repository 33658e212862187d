import BankingAgent.Async.Coroutine
import BankingAgent.Provider
import Mathlib.Data.Rat.Defs
import Mathlib.Order.Bounds.Defs

/-!
# `deepseek.py`: the retries of a request

`requestWithRetry` says what comes out of the loop. Here the loop is a coroutine that awaits its
posts and the waits between them, so that they can be counted, and its two `RuntimeError`s are told
apart.

* `retry_spec` — the loop posts until the first response that is not to be retried, or as often as
  it may; how the last post ends is how it ends, and the `raise` behind the loop is not reached.
* `served_eq_requestWithRetry` — the loop comes to what `requestWithRetry` says.
-/

namespace BankingAgent

open Async

/-- What is posted, and how long the transport may take. -/
structure PostRequest : Type where
  url : String
  headers : List (String × String)
  body : String
  timeout : ℚ

/-- What `_request_with_retry` awaits. -/
inductive RetryOp : Type where
  | post (request : PostRequest)
  /-- the backoff, and a random part of it -/
  | sleep (backoff : ℚ)

/-- What comes back: a status and a body, or the text of an exception. -/
abbrev RetryOp.Res : RetryOp → Type
  | post _ => Except String (ℕ × String)
  | sleep _ => Unit

/-- The `RuntimeError`s of `_request_with_retry`. -/
inductive RetryError : Type where
  /-- in the loop, at the last attempt -/
  | attemptsFailed (attempts : ℤ) (exc : String)
  /-- behind the loop -/
  | loopEnded (lastExc : Option String)
  deriving DecidableEq

/-- The message of the error. -/
def RetryError.message : RetryError → String
  | attemptsFailed attempts exc => s!"Provider request failed after {attempts} attempts: {exc}"
  | loopEnded none => "Provider request failed: None"
  | loopEnded (some exc) => s!"Provider request failed: {exc}"

/-- A coroutine of the retries. -/
abbrev RetryProg (α : Type) : Type := Prog RetryOp RetryOp.Res RetryError α

/-- The loop of `_request_with_retry`, with the attempts that are left. -/
def retryAttempts (maxRetries : ℤ) (request : PostRequest) :
    (left attempt : ℕ) → (backoff : ℚ) → (lastExc : Option String) → RetryProg (ℕ × String)
  | 0, _, _, lastExc => .raise (.loopEnded lastExc)
  | left + 1, attempt, backoff, lastExc =>
    .op (.post request) fun
      | .ok (status, body) =>
        if status ∈ nonRetryableStatuses then .ret (status, body)
        else if status ∈ retryableStatuses ∧ attempt < maxRetries then
          .op (.sleep backoff) fun _ =>
            retryAttempts maxRetries request left (attempt + 1) (backoff * 2) lastExc
        else .ret (status, body)
      | .error exc =>
        if attempt < maxRetries then
          .op (.sleep backoff) fun _ =>
            retryAttempts maxRetries request left (attempt + 1) (backoff * 2) (some exc)
        else .raise (.attemptsFailed (maxRetries + 1) exc)

/-- `_request_with_retry`. -/
def retryRequest (maxRetries : ℤ) (retryBackoff : ℚ) (request : PostRequest) :
    RetryProg (ℕ × String) :=
  retryAttempts maxRetries request (maxRetries + 1).toNat 0 retryBackoff none

/-- What the transport does at each post. -/
abbrev Outcomes : Type := ℕ → Except String (ℕ × String)

/-- How many posts there have been at the end, and how the coroutine ends, if its posts are answered
by the outcomes in turn. -/
def served {α : Type} (outcomes : Outcomes) : ℕ → RetryProg α → ℕ × Except RetryError α
  | posts, .ret a => (posts, .ok a)
  | posts, .raise e => (posts, .error e)
  | posts, .op (.post _) k => served outcomes (posts + 1) (k (outcomes posts))
  | posts, .op (.sleep _) k => served outcomes posts (k ())

/-! ## One attempt -/

/-- A response whose status asks for no retry. -/
def IsFinal : Except String (ℕ × String) → Prop
  | .ok (status, _) => status ∉ retryableStatuses
  | .error _ => False

/-- The loop ends with the attempt. -/
def Stops (maxRetries : ℕ) (outcomes : Outcomes) (attempt : ℕ) : Prop :=
  attempt = maxRetries ∨ IsFinal (outcomes attempt)

/-- How the loop ends if it ends with the outcome: an exception is wrapped. -/
def asResult (maxRetries : ℕ) : Except String (ℕ × String) → Except RetryError (ℕ × String)
  | .ok response => .ok response
  | .error exc => .error (.attemptsFailed (maxRetries + 1) exc)

variable {maxRetries left attempt : ℕ} {request : PostRequest} {backoff : ℚ}
  {lastExc : Option String} {outcomes : Outcomes}

theorem not_retryable_of_nonRetryable {status : ℕ} (h : status ∈ nonRetryableStatuses) :
    status ∉ retryableStatuses := by
  simp only [nonRetryableStatuses, List.mem_cons, List.not_mem_nil, or_false] at h
  rcases h with rfl | rfl | rfl | rfl <;> decide

/-- An attempt that ends the loop. -/
theorem served_stops (hle : attempt ≤ maxRetries) (h : Stops maxRetries outcomes attempt) :
    served outcomes attempt (retryAttempts maxRetries request (left + 1) attempt backoff lastExc) =
      (attempt + 1, asResult maxRetries (outcomes attempt)) := by
  rw [retryAttempts, served]
  cases houtcome : outcomes attempt with
  | ok response =>
    obtain ⟨status, body⟩ := response
    rw [Stops, houtcome] at h
    by_cases hnon : status ∈ nonRetryableStatuses
    · simp [hnon, served, asResult]
    · have hlast : ¬ (status ∈ retryableStatuses ∧ (attempt : ℤ) < maxRetries) := by
        rintro ⟨hretryable, hlt⟩
        rcases h with rfl | hfinal
        · exact lt_irrefl _ hlt
        · exact hfinal hretryable
      simp only [if_neg hnon, if_neg hlast, served, asResult]
  | error exc =>
    rw [Stops, houtcome] at h
    obtain rfl := h.resolve_right id
    simp [served, asResult]

/-- An attempt that does not: after a wait comes the next one. -/
theorem served_goes_on (request : PostRequest) (left : ℕ) (backoff : ℚ)
    (lastExc : Option String) (hlt : attempt < maxRetries)
    (h : ¬ Stops maxRetries outcomes attempt) :
    ∃ lastExc', served outcomes attempt
        (retryAttempts maxRetries request (left + 1) attempt backoff lastExc) =
      served outcomes (attempt + 1)
        (retryAttempts maxRetries request left (attempt + 1) (backoff * 2) lastExc') := by
  have hmore : (attempt : ℤ) < maxRetries := by exact_mod_cast hlt
  rw [retryAttempts, served]
  cases houtcome : outcomes attempt with
  | ok response =>
    obtain ⟨status, body⟩ := response
    rw [Stops, houtcome, not_or] at h
    have hretryable : status ∈ retryableStatuses := not_not.mp h.2
    have hnon : status ∉ nonRetryableStatuses :=
      fun hnon => not_retryable_of_nonRetryable hnon hretryable
    exact ⟨lastExc, by simp only [if_neg hnon, if_pos (And.intro hretryable hmore), served]⟩
  | error exc => exact ⟨some exc, by simp only [if_pos hmore, served]⟩

/-! ## The loop -/

/-- From an attempt on, the loop ends with the first that stops it. -/
theorem served_retryAttempts (request : PostRequest) (outcomes : Outcomes) (left attempt : ℕ)
    (backoff : ℚ) (lastExc : Option String) (hleft : attempt + left = maxRetries) :
    ∃ k, attempt ≤ k ∧ Stops maxRetries outcomes k ∧
      (∀ j, attempt ≤ j → Stops maxRetries outcomes j → k ≤ j) ∧
      served outcomes attempt
          (retryAttempts maxRetries request (left + 1) attempt backoff lastExc) =
        (k + 1, asResult maxRetries (outcomes k)) := by
  induction left generalizing attempt backoff lastExc with
  | zero =>
    have hstops : Stops maxRetries outcomes attempt := .inl (by omega)
    exact ⟨attempt, le_rfl, hstops, fun _ hj _ => hj, served_stops (by omega) hstops⟩
  | succ left ih =>
    by_cases hstops : Stops maxRetries outcomes attempt
    · exact ⟨attempt, le_rfl, hstops, fun _ hj _ => hj, served_stops (by omega) hstops⟩
    · obtain ⟨lastExc', hnext⟩ :=
        served_goes_on request (left + 1) backoff lastExc (by omega) hstops
      obtain ⟨k, hk, hk', hleast, hserved⟩ := ih (attempt + 1) (backoff * 2) lastExc' (by omega)
      refine ⟨k, by omega, hk', fun j hj hj' => ?_, hnext.trans hserved⟩
      rcases Nat.eq_or_lt_of_le hj with rfl | hlt
      · exact absurd hj' hstops
      · exact hleast j hlt hj'

/-- **The retries**: there is a first attempt that is the last one allowed or whose response is not
to be retried. There are as many posts as it takes to get there, the result is what that attempt
came to, and the loop is left from within. -/
theorem retry_spec (maxRetries : ℕ) (retryBackoff : ℚ) (request : PostRequest)
    (outcomes : Outcomes) : ∃ k, IsLeast (Stops maxRetries outcomes) k ∧
      served outcomes 0 (retryRequest maxRetries retryBackoff request) =
        (k + 1, asResult maxRetries (outcomes k)) ∧
      ∀ lastExc, (served outcomes 0 (retryRequest maxRetries retryBackoff request)).2 ≠
        .error (.loopEnded lastExc) := by
  obtain ⟨k, -, hstops, hleast, hserved⟩ :=
    served_retryAttempts request outcomes maxRetries 0 retryBackoff none (Nat.zero_add maxRetries)
  have hrun : served outcomes 0 (retryRequest maxRetries retryBackoff request) =
      (k + 1, asResult maxRetries (outcomes k)) := by
    rw [retryRequest, ← hserved]
    congr 2
  refine ⟨k, ⟨hstops, fun j hj => hleast j (Nat.zero_le j) hj⟩, hrun, fun lastExc hended => ?_⟩
  rw [hrun] at hended
  cases houtcome : outcomes k with
  | ok response => rw [houtcome] at hended; cases hended
  | error exc => rw [houtcome] at hended; cases hended

/-! ## The loop and `requestWithRetry` -/

theorem served_eq_requestAttempts {maxRetries : ℤ} :
    (served outcomes attempt (retryAttempts maxRetries request left attempt backoff
        lastExc)).2.mapError (fun e => PyError.runtime e.message) =
      requestAttempts maxRetries outcomes left attempt (lastExc.getD "None") := by
  induction left generalizing attempt backoff lastExc with
  | zero => cases lastExc <;> rfl
  | succ left ih =>
    rw [retryAttempts, served, requestAttempts]
    cases outcomes attempt with
    | ok response =>
      obtain ⟨status, body⟩ := response
      by_cases hnon : status ∈ nonRetryableStatuses
      · simp only [if_pos hnon]
        rfl
      · by_cases hretry : status ∈ retryableStatuses ∧ (attempt : ℤ) < maxRetries
        · simp only [if_neg hnon, if_pos hretry, served]
          exact ih
        · simp only [if_neg hnon, if_neg hretry]
          rfl
    | error exc =>
      by_cases hmore : (attempt : ℤ) < maxRetries
      · simp only [if_pos hmore, served]
        exact ih
      · simp only [if_neg hmore]
        rfl

/-- **One loop**: what the coroutine comes to is what `requestWithRetry` says. -/
theorem served_eq_requestWithRetry (maxRetries : ℤ) (retryBackoff : ℚ) (request : PostRequest)
    (outcomes : Outcomes) :
    (served outcomes 0 (retryRequest maxRetries retryBackoff request)).2.mapError
        (fun e => PyError.runtime e.message) = requestWithRetry maxRetries outcomes :=
  served_eq_requestAttempts

/-- A transport that is down once, then busy, and then answers. -/
example : served (fun n => [.error "down", .ok (503, ""), .ok (200, "{}")].getD n (.error ""))
    0 (retryRequest 5 1 ⟨"", [], "", 30⟩) = (3, .ok (200, "{}")) := rfl

end BankingAgent
