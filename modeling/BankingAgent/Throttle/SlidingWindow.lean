import Mathlib.Algebra.Order.Group.Defs
import Mathlib.Algebra.Order.Group.Int
import Mathlib.Data.List.Induction
import Mathlib.Data.List.Sort
import Mathlib.Tactic.Abel

/-!
# A limiter with a sliding window

A limiter admits a request if fewer than `max` requests have been admitted within the window before
it. One that remembers every admission is easy to reason about; one that forgets what has left the
window needs no more than `max` entries. If the clock does not go back they decide alike. Times
form an ordered group: the difference of two of them is exact.

* `logAfter_within` — the pruned log and the full history have the same entries in the window.
* `history_countP_le` — among times that are pairwise less than a window apart at most `max` have
  been admitted.
* `history_within_eq` — if a request is refused, exactly `max` were admitted in the window before.
-/

namespace SlidingWindow

variable {T : Type} [AddCommGroup T] [LinearOrder T] {max : ℤ} {window now now' : T}
  {log times : List T}

/-- The entries of a log that lie in the window before `now`. -/
def within (window now : T) (log : List T) : List T := log.filter fun t => now - t < window

/-- A request at `now` is admitted. -/
def HasRoom (max : ℤ) (window : T) (log : List T) (now : T) : Prop :=
  ((within window now log).length : ℤ) < max

instance : Decidable (HasRoom max window log now) :=
  inferInstanceAs (Decidable (((within window now log).length : ℤ) < max))

/-- The log after a request, if what has left the window is forgotten. -/
def record (max : ℤ) (window : T) (log : List T) (now : T) : List T :=
  if HasRoom max window log now then within window now log ++ [now] else log

/-- The history after a request, if nothing is forgotten. -/
def remember (max : ℤ) (window : T) (history : List T) (now : T) : List T :=
  if HasRoom max window history now then history ++ [now] else history

/-- The log after requests at the times. -/
def logAfter (max : ℤ) (window : T) (times : List T) : List T :=
  times.foldl (record max window) []

/-- The requests among those at the times that are admitted. -/
def history (max : ℤ) (window : T) (times : List T) : List T :=
  times.foldl (remember max window) []

@[simp] theorem within_nil : within window now [] = [] := rfl

@[simp] theorem within_append {log' : List T} :
    within window now (log ++ log') = within window now log ++ within window now log' :=
  List.filter_append ..

@[simp] theorem mem_within {t : T} : t ∈ within window now log ↔ t ∈ log ∧ now - t < window := by
  simp [within]

@[simp] theorem logAfter_nil : logAfter max window ([] : List T) = [] := rfl

@[simp] theorem history_nil : history max window ([] : List T) = [] := rfl

theorem logAfter_concat :
    logAfter max window (times ++ [now]) = record max window (logAfter max window times) now := by
  simp [logAfter]

theorem history_concat :
    history max window (times ++ [now]) = remember max window (history max window times) now := by
  simp [history]

/-- A refused request leaves the log as it was. -/
theorem record_refused (h : ¬ HasRoom max window log now) : record max window log now = log :=
  if_neg h

theorem mem_record {t : T} (h : t ∈ record max window log now) : t ∈ log ∨ t = now := by
  rw [record] at h
  split at h
  · rcases List.mem_append.mp h with h | h
    · exact .inl (mem_within.mp h).1
    · exact .inr (List.mem_singleton.mp h)
  · exact .inl h

/-- What is logged has been a request. -/
theorem mem_logAfter {t : T} (h : t ∈ logAfter max window times) : t ∈ times := by
  induction times using List.reverseRecOn with
  | nil => exact h
  | append_singleton times now ih =>
    rw [logAfter_concat] at h
    rcases mem_record h with h | rfl
    · exact List.mem_append_left _ (ih h)
    · simp

theorem mem_history {t : T} (h : t ∈ history max window times) : t ∈ times := by
  induction times using List.reverseRecOn with
  | nil => exact h
  | append_singleton times now ih =>
    rw [history_concat, remember] at h
    split at h
    · rcases List.mem_append.mp h with h | h
      · exact List.mem_append_left _ (ih h)
      · exact List.mem_append_right _ h
    · exact List.mem_append_left _ (ih h)

/-! ## The window law -/

/-- **The window law**: among times of which any two are less than a window apart, at most `max`
have been admitted. -/
theorem history_countP_le (hmax : 0 ≤ max) (p : T → Prop) [DecidablePred p]
    (hp : ∀ s t, p s → p t → t - s < window) :
    ((history max window times).countP (fun t => decide (p t)) : ℤ) ≤ max := by
  induction times using List.reverseRecOn with
  | nil => simpa using hmax
  | append_singleton times now ih =>
    rw [history_concat, remember]
    by_cases hadmits : HasRoom max window (history max window times) now
    · rw [if_pos hadmits, List.countP_append]
      by_cases hnow : p now
      · -- what counts before `now` lies in the window before `now`, and there is room in it
        have hroom : (history max window times).countP (fun t => decide (p t)) ≤
            (within window now (history max window times)).length := by
          rw [within, ← List.countP_eq_length_filter]
          refine List.countP_mono_left fun t _ ht => ?_
          exact decide_eq_true (hp t now (of_decide_eq_true ht) hnow)
        rw [HasRoom] at hadmits
        simp only [hnow, decide_true, List.countP_singleton, if_true]
        omega
      · simpa [hnow] using ih
    · rw [if_neg hadmits]
      exact ih

/-- Requests at one time are admitted up to `max` of them. -/
theorem logAfter_replicate {n : ℕ} (hn : (n : ℤ) ≤ max) (hwindow : 0 < window) :
    logAfter max window (List.replicate n now) = List.replicate n now := by
  induction n with
  | zero => rfl
  | succ n ih =>
    have hwithin : within window now (List.replicate n now) = List.replicate n now := by
      refine List.filter_eq_self.mpr fun t ht => ?_
      rw [List.eq_of_mem_replicate ht]
      simpa using hwindow
    have hadmits : HasRoom max window (List.replicate n now) now := by
      rw [HasRoom, hwithin, List.length_replicate]
      omega
    rw [List.replicate_succ', logAfter_concat, ih (by omega), record, if_pos hadmits, hwithin]

/-! ## The pruned log is as good as the history -/

section Ordered

variable [IsOrderedAddMonoid T]

/-- What has left the window does not come back. -/
theorem within_within (hle : now ≤ now') :
    within window now' (within window now log) = within window now' log := by
  rw [within, within, within, List.filter_filter]
  refine List.filter_congr fun t _ => ?_
  have hearlier : now - t ≤ now' - t := sub_le_sub_right hle t
  by_cases hin : now' - t < window
  · simp [hin, lt_of_le_of_lt hearlier hin]
  · simp [hin]

/-- The same entries in the window, and one more: still the same. -/
theorem within_record {log' : List T} (hsame : ∀ n, now ≤ n → within window n log =
    within window n log') (hle : now ≤ now') :
    within window now' (record max window log now) =
      within window now' (remember max window log' now) := by
  have hadmits : HasRoom max window log now ↔ HasRoom max window log' now := by
    rw [HasRoom, HasRoom, hsame now le_rfl]
  rw [record, remember]
  by_cases h : HasRoom max window log' now
  · rw [if_pos (hadmits.mpr h), if_pos h, within_append, within_append, within_within hle,
      hsame now' hle]
  · rw [if_neg (fun h' => h (hadmits.mp h')), if_neg h, hsame now' hle]

/-- **The pruned log** has the entries of the history that lie in the window, at every time from
the last request on. -/
theorem logAfter_within (hsorted : (times ++ [now]).Pairwise (· ≤ ·)) :
    within window now (logAfter max window times) =
      within window now (history max window times) := by
  induction times using List.reverseRecOn generalizing now with
  | nil => rfl
  | append_singleton times last ih =>
    rw [logAfter_concat, history_concat]
    obtain ⟨hinit, -, hlast⟩ := List.pairwise_append.mp hsorted
    refine within_record (fun n hn => ih ?_) (hlast last (by simp) now (by simp))
    refine List.pairwise_append.mpr ⟨(List.pairwise_append.mp hinit).1, by simp, ?_⟩
    intro t ht n' hn'
    rw [List.mem_singleton.mp hn']
    exact ((List.pairwise_append.mp hinit).2.2 t ht last (by simp)).trans hn

/-- Both limiters decide alike. -/
theorem hasRoom_logAfter_iff (hsorted : (times ++ [now]).Pairwise (· ≤ ·)) :
    HasRoom max window (logAfter max window times) now ↔
      HasRoom max window (history max window times) now := by
  rw [HasRoom, HasRoom, logAfter_within hsorted]

/-- **Full use**: if a request is refused, the window before it is full. -/
theorem history_within_eq (hmax : 0 ≤ max) (hsorted : (times ++ [now]).Pairwise (· ≤ ·))
    (hrefused : ¬ HasRoom max window (history max window times) now) :
    ((within window now (history max window times)).length : ℤ) = max := by
  refine le_antisymm ?_ (not_lt.mp hrefused)
  have hlast : ∀ t ∈ history max window times, t ≤ now := fun t ht =>
    (List.pairwise_append.mp hsorted).2.2 t (mem_history ht) now (by simp)
  have hlaw : ((history max window times).countP
      (fun t => decide (t ≤ now ∧ now - t < window)) : ℤ) ≤ max :=
    history_countP_le hmax _ fun s t hs ht => lt_of_le_of_lt (sub_le_sub_right ht.1 s) hs.2
  refine le_trans (Int.ofNat_le.mpr ?_) hlaw
  rw [within, ← List.countP_eq_length_filter]
  refine List.countP_mono_left fun t ht hin => ?_
  exact decide_eq_true ⟨hlast t ht, of_decide_eq_true hin⟩

end Ordered

end SlidingWindow
