import BankingAgent.Throttle.SlidingWindow
import Mathlib.Data.List.AList
import Mathlib.Data.List.Infix

/-!
# `api.py`: the rate limiter

`RateLimitMiddleware` keeps a log of the last admissions for each tenant and path, in a dictionary
whose keys are `f"{tenant}:{path}"`. Each log is a limiter with a sliding window.

The colon is no separator: it may occur in the header and in the path. A tenant whose name ends in
`:/x` shares its logs on `/y` with the tenant without it on `/x:/y`.

The readings of the clock are subtracted exactly here; `time.monotonic()` is a float. And a path
begins with a slash, as the servers in front of the application hand it on.

* `rate_window_law` — within a window at most `max_requests` requests of a key are admitted, a
  refusal means that the window is full, and leaves everything as it was.
* `rate_isolated_iff` — the requests to a path depend on those of the same tenant to the same path
  alone, exactly if neither the tenant nor the path ends in a colon and a path.
-/

namespace BankingAgent

open SlidingWindow

/-- The path of a URL: it is taken to begin with a slash, and a query or a fragment is not part of
it. -/
structure UrlPath : Type where
  text : String
  absolute : text.toList.head? = some '/'
  plain : '?' ∉ text.toList ∧ '#' ∉ text.toList
  deriving DecidableEq

/-- What the middleware reads of a request, and what `time.monotonic()` says then. -/
structure LimitedRequest (T : Type) : Type where
  tenantHeader : Option String
  path : UrlPath
  now : T
  deriving DecidableEq

/-- `HTTPException`. -/
structure HTTPException : Type where
  statusCode : ℕ
  detail : String
  deriving DecidableEq

/-- What a refused request is answered. -/
def limitExceeded : HTTPException := ⟨429, "Rate limit exceeded"⟩

namespace LimitedRequest

variable {T : Type}

/-- The `X-Tenant-Id` header. -/
def tenant (r : LimitedRequest T) : String := r.tenantHeader.getD "default"

/-- The key of the counter. -/
def key (r : LimitedRequest T) : String := s!"{r.tenant}:{r.path.text}"

/-- The request is one of the tenant to the path. -/
def Is (tenant : String) (path : UrlPath) (r : LimitedRequest T) : Prop :=
  r.tenant = tenant ∧ r.path = path

instance {tenant : String} {path : UrlPath} (r : LimitedRequest T) : Decidable (r.Is tenant path) :=
  inferInstanceAs (Decidable (_ ∧ _))

end LimitedRequest

/-- `RateLimitMiddleware`. -/
structure RateLimitMiddleware (T : Type) : Type where
  max : ℤ
  window : T
  counters : AList fun _ : String => List T

namespace RateLimitMiddleware

variable {T : Type} {m : RateLimitMiddleware T} {r : LimitedRequest T} {key : String}
  {requests later : List (LimitedRequest T)} {maxRequests : ℤ} {windowSeconds : T}

/-! ## The requests of a key -/

/-- The times of the requests of a key. -/
def timesOf (key : String) (requests : List (LimitedRequest T)) : List T :=
  (requests.filter fun r => r.key = key).map LimitedRequest.now

theorem timesOf_concat : timesOf key (requests ++ [r]) =
    timesOf key requests ++ if key = r.key then [r.now] else [] := by
  simp only [timesOf, List.filter_append, List.map_append]
  by_cases heq : key = r.key
  · simp [heq]
  · simp [heq, Ne.symm heq]

/-- The times of one key are in order if all are. -/
theorem timesOf_sorted [LinearOrder T]
    (hsorted : (requests.map LimitedRequest.now).Pairwise (· ≤ ·)) :
    (timesOf key requests).Pairwise (· ≤ ·) :=
  hsorted.sublist (List.filter_sublist.map _)

theorem timesOf_concat_sorted [LinearOrder T]
    (hsorted : ((requests ++ [r]).map LimitedRequest.now).Pairwise (· ≤ ·)) :
    (timesOf r.key requests ++ [r.now]).Pairwise (· ≤ ·) := by
  have hall : (timesOf r.key (requests ++ [r])).Pairwise (· ≤ ·) := timesOf_sorted hsorted
  rwa [timesOf_concat, if_pos rfl] at hall

/-! ## The middleware -/

/-- The log of a key. -/
def log (m : RateLimitMiddleware T) (key : String) : List T := (m.counters.lookup key).getD []

/-- The key is in the dictionary before its log is read. -/
theorem log_ensured :
    ((if r.key ∈ m.counters then m.counters else m.counters.insert r.key []).lookup key).getD [] =
      m.log key := by
  by_cases hmem : r.key ∈ m.counters
  · rw [if_pos hmem, log]
  · rw [if_neg hmem, log]
    by_cases heq : key = r.key
    · subst heq
      rw [AList.lookup_insert, AList.lookup_eq_none.mpr hmem]
      rfl
    · rw [AList.lookup_insert_ne heq]

variable [AddCommGroup T] [LinearOrder T]

/-- `RateLimitMiddleware.__init__`. -/
def create (maxRequests : ℤ) (windowSeconds : T) : RateLimitMiddleware T :=
  ⟨maxRequests, windowSeconds, ∅⟩

/-- `RateLimitMiddleware.dispatch`, up to the next handler. -/
def dispatch (m : RateLimitMiddleware T) (r : LimitedRequest T) :
    Except HTTPException Unit × RateLimitMiddleware T :=
  let counters := if r.key ∈ m.counters then m.counters else m.counters.insert r.key []
  let timestamps := ((counters.lookup r.key).getD []).filter fun t => r.now - t < m.window
  if m.max ≤ timestamps.length then (.error limitExceeded, { m with counters })
  else (.ok (), { m with counters := counters.insert r.key (timestamps ++ [r.now]) })

/-- The middleware after the requests. -/
def after (m : RateLimitMiddleware T) (requests : List (LimitedRequest T)) :
    RateLimitMiddleware T :=
  requests.foldl (fun m r => (m.dispatch r).2) m

/-- How a request fares after the others. -/
def decision (m : RateLimitMiddleware T) (requests : List (LimitedRequest T))
    (r : LimitedRequest T) : Except HTTPException Unit :=
  ((m.after requests).dispatch r).1

/-- The requests that are admitted. -/
def admitted (m : RateLimitMiddleware T) : List (LimitedRequest T) → List (LimitedRequest T)
  | [] => []
  | r :: requests =>
    if (m.dispatch r).1 = .ok () then r :: (m.dispatch r).2.admitted requests
    else (m.dispatch r).2.admitted requests

/-! ## One request -/

theorem full_iff :
    m.max ≤ ((m.log r.key).filter fun t => decide (r.now - t < m.window)).length ↔
      ¬ HasRoom m.max m.window (m.log r.key) r.now :=
  not_lt.symm

/-- **One request**: its log decides, as a limiter does. -/
theorem dispatch_fst : (m.dispatch r).1 =
    if HasRoom m.max m.window (m.log r.key) r.now then .ok () else .error limitExceeded := by
  simp only [dispatch, log_ensured]
  by_cases h : HasRoom m.max m.window (m.log r.key) r.now
  · rw [if_pos h, if_neg (mt full_iff.mp (not_not.mpr h))]
  · rw [if_neg h, if_pos (full_iff.mpr h)]

/-- Only the log of its key is touched. -/
theorem dispatch_log : (m.dispatch r).2.log key =
    if key = r.key then record m.max m.window (m.log key) r.now else m.log key := by
  simp only [dispatch, log_ensured]
  by_cases h : HasRoom m.max m.window (m.log r.key) r.now
  · rw [if_neg (mt full_iff.mp (not_not.mpr h))]
    by_cases heq : key = r.key
    · subst heq
      rw [if_pos rfl, record, if_pos h, log, AList.lookup_insert]
      rfl
    · rw [if_neg heq, log, AList.lookup_insert_ne heq]
      exact log_ensured
  · rw [if_pos (full_iff.mpr h)]
    refine log_ensured.trans ?_
    by_cases heq : key = r.key
    · subst heq
      rw [if_pos rfl, record_refused h]
    · rw [if_neg heq]

@[simp] theorem dispatch_max : (m.dispatch r).2.max = m.max := by
  simp only [dispatch, log_ensured]
  split <;> rfl

@[simp] theorem dispatch_window : (m.dispatch r).2.window = m.window := by
  simp only [dispatch, log_ensured]
  split <;> rfl

/-! ## Runs -/

theorem after_concat : m.after (requests ++ [r]) = ((m.after requests).dispatch r).2 := by
  simp [after]

theorem after_append : m.after (requests ++ later) = (m.after requests).after later := by
  simp [after]

@[simp] theorem after_max : (m.after requests).max = m.max := by
  induction requests using List.reverseRecOn with
  | nil => rfl
  | append_singleton requests r ih => rw [after_concat, dispatch_max, ih]

@[simp] theorem after_window : (m.after requests).window = m.window := by
  induction requests using List.reverseRecOn with
  | nil => rfl
  | append_singleton requests r ih => rw [after_concat, dispatch_window, ih]

/-- **The log of a key** is that of a limiter that sees the requests of the key alone. -/
theorem log_after : ((create maxRequests windowSeconds).after requests).log key =
    logAfter maxRequests windowSeconds (timesOf key requests) := by
  induction requests using List.reverseRecOn with
  | nil => rfl
  | append_singleton requests r ih =>
    rw [after_concat, dispatch_log, after_max, after_window, ih, timesOf_concat]
    split
    · rw [logAfter_concat]
      rfl
    · simp

theorem decision_eq : (create maxRequests windowSeconds).decision requests r =
    if HasRoom maxRequests windowSeconds
      (logAfter maxRequests windowSeconds (timesOf r.key requests)) r.now then .ok ()
    else .error limitExceeded := by
  rw [decision, dispatch_fst, log_after, after_max, after_window]
  rfl

theorem admitted_append : m.admitted (requests ++ later) =
    m.admitted requests ++ (m.after requests).admitted later := by
  induction requests generalizing m with
  | nil => rfl
  | cons r requests ih =>
    simp only [List.cons_append, admitted, ih]
    split <;> rfl

theorem admitted_concat : m.admitted (requests ++ [r]) =
    m.admitted requests ++ if m.decision requests r = .ok () then [r] else [] := by
  rw [admitted_append, decision]
  simp only [admitted]

/-- The request is refused exactly if its limiter does not admit it. -/
theorem decision_ok_iff : (create maxRequests windowSeconds).decision requests r = .ok () ↔
    HasRoom maxRequests windowSeconds
      (logAfter maxRequests windowSeconds (timesOf r.key requests)) r.now := by
  rw [decision_eq]
  split
  · rename_i h
    simp [h]
  · rename_i h
    simp [h]

theorem decision_refused_iff :
    (create maxRequests windowSeconds).decision requests r = .error limitExceeded ↔
      ¬ HasRoom maxRequests windowSeconds
        (logAfter maxRequests windowSeconds (timesOf r.key requests)) r.now := by
  rw [decision_eq]
  split
  · rename_i h
    simp [h]
  · rename_i h
    simp [h]

/-- The middlewares answer alike from now on. -/
def Alike (m m' : RateLimitMiddleware T) : Prop :=
  m.max = m'.max ∧ m.window = m'.window ∧ ∀ key, m.log key = m'.log key

theorem Alike.after {m' : RateLimitMiddleware T} (h : m.Alike m')
    (requests : List (LimitedRequest T)) : (m.after requests).Alike (m'.after requests) := by
  induction requests using List.reverseRecOn with
  | nil => exact h
  | append_singleton requests r ih =>
    obtain ⟨hmax, hwindow, hlog⟩ := ih
    rw [after_concat, after_concat]
    refine ⟨by simpa using hmax, by simpa using hwindow, fun key => ?_⟩
    rw [dispatch_log, dispatch_log, hmax, hwindow, hlog]

theorem Alike.decision {m' : RateLimitMiddleware T} (h : m.Alike m')
    (requests : List (LimitedRequest T)) (r : LimitedRequest T) :
    m.decision requests r = m'.decision requests r := by
  obtain ⟨hmax, hwindow, hlog⟩ := h.after requests
  rw [RateLimitMiddleware.decision, RateLimitMiddleware.decision, dispatch_fst, dispatch_fst, hmax,
    hwindow, hlog]

/-- A refused request changes no later decision. -/
theorem dispatch_refused (h : (m.dispatch r).1 = .error limitExceeded) :
    (m.dispatch r).2.Alike m := by
  refine ⟨dispatch_max, dispatch_window, fun key => ?_⟩
  have hrefused : ¬ HasRoom m.max m.window (m.log r.key) r.now := by
    intro hadmits
    rw [dispatch_fst, if_pos hadmits] at h
    cases h
  rw [dispatch_log]
  split
  · rename_i heq
    rw [heq, record_refused hrefused]
  · rfl

/-! ## The window -/

section Ordered

variable [IsOrderedAddMonoid T]

/-- **The admissions of a key** are those of a limiter that forgets nothing. -/
theorem admitted_history (hsorted : (requests.map LimitedRequest.now).Pairwise (· ≤ ·)) :
    timesOf key ((create maxRequests windowSeconds).admitted requests) =
      history maxRequests windowSeconds (timesOf key requests) := by
  induction requests using List.reverseRecOn with
  | nil => rfl
  | append_singleton requests r ih =>
    have hbefore : (requests.map LimitedRequest.now).Pairwise (· ≤ ·) :=
      hsorted.sublist ((List.sublist_append_left _ _).map _)
    rw [admitted_concat, timesOf_concat]
    by_cases heq : key = r.key
    · subst heq
      have hsame : HasRoom maxRequests windowSeconds
          (logAfter maxRequests windowSeconds (timesOf r.key requests)) r.now ↔
            HasRoom maxRequests windowSeconds
              (history maxRequests windowSeconds (timesOf r.key requests)) r.now :=
        hasRoom_logAfter_iff (timesOf_concat_sorted hsorted)
      rw [if_pos rfl, history_concat, remember, ← ih hbefore]
      by_cases hok : (create maxRequests windowSeconds).decision requests r = .ok ()
      · rw [if_pos hok, if_pos]
        · rw [timesOf_concat, if_pos rfl]
        · rw [ih hbefore]
          exact hsame.mp (decision_ok_iff.mp hok)
      · rw [if_neg hok, if_neg]
        · simp
        · rw [ih hbefore]
          exact fun h => hok (decision_ok_iff.mpr (hsame.mpr h))
    · rw [if_neg heq, List.append_nil, ← ih hbefore]
      split
      · rw [timesOf_concat, if_neg heq, List.append_nil]
      · rw [List.append_nil]

/-- How many requests of the key are admitted at times of the given kind. -/
def admissions (m : RateLimitMiddleware T) (requests : List (LimitedRequest T)) (key : String)
    (p : T → Prop) [DecidablePred p] : ℤ :=
  (m.admitted requests).countP fun r => r.key = key ∧ p r.now

omit [IsOrderedAddMonoid T] in
theorem admissions_eq {p : T → Prop} [DecidablePred p] : m.admissions requests key p =
    (timesOf key (m.admitted requests)).countP fun t => decide (p t) := by
  rw [admissions, timesOf, List.countP_map, List.countP_filter]
  simp [Bool.and_comm]

/-- At times of which any two are less than a window apart no more than the maximum is admitted. -/
theorem admissions_le (hmax : 0 ≤ maxRequests)
    (hsorted : (requests.map LimitedRequest.now).Pairwise (· ≤ ·)) {p : T → Prop} [DecidablePred p]
    (hp : ∀ s t, p s → p t → t - s < windowSeconds) :
    (create maxRequests windowSeconds).admissions requests key p ≤ maxRequests := by
  rw [admissions_eq, admitted_history hsorted]
  exact history_countP_le hmax p hp

/-- A request that is refused finds the window before it full. -/
theorem admissions_of_refused (hmax : 0 ≤ maxRequests)
    (hsorted : ((requests ++ [r]).map LimitedRequest.now).Pairwise (· ≤ ·))
    (hrefused : (create maxRequests windowSeconds).decision requests r = .error limitExceeded) :
    (create maxRequests windowSeconds).admissions requests r.key
      (fun t => r.now - t < windowSeconds) = maxRequests := by
  have htimes := timesOf_concat_sorted hsorted
  have hfull := mt (hasRoom_logAfter_iff htimes).mpr (decision_refused_iff.mp hrefused)
  rw [admissions_eq, admitted_history (hsorted.sublist ((List.sublist_append_left _ _).map _)),
    List.countP_eq_length_filter]
  exact history_within_eq hmax htimes hfull

/-- **The window law**, for requests in the order of their times: no half-open interval as long as
the window has more admissions of a key than the maximum, a request is refused only if the window
before it is full, and a refused request changes no later decision. -/
theorem rate_window_law (maxRequests : ℤ) (windowSeconds : T) (hmax : 0 ≤ maxRequests)
    (requests : List (LimitedRequest T))
    (hsorted : (requests.map LimitedRequest.now).Pairwise (· ≤ ·)) :
    (∀ key start, (create maxRequests windowSeconds).admissions requests key
        (fun t => start ≤ t ∧ t < start + windowSeconds) ≤ maxRequests) ∧
      (∀ key start, (create maxRequests windowSeconds).admissions requests key
        (fun t => start < t ∧ t ≤ start + windowSeconds) ≤ maxRequests) ∧
      ∀ before r after, requests = before ++ r :: after →
        (create maxRequests windowSeconds).decision before r = .error limitExceeded →
          (create maxRequests windowSeconds).admissions before r.key
            (fun t => r.now - t < windowSeconds) = maxRequests ∧
          ∀ between later,
            (create maxRequests windowSeconds).decision (before ++ r :: between) later =
              (create maxRequests windowSeconds).decision (before ++ between) later := by
  refine ⟨fun key start => ?_, fun key start => ?_, ?_⟩
  · refine admissions_le hmax hsorted fun s t hs ht => ?_
    exact sub_lt_iff_lt_add'.mpr (ht.2.trans_le (add_le_add_left hs.1 _))
  · refine admissions_le hmax hsorted fun s t hs ht => ?_
    exact sub_lt_iff_lt_add'.mpr (ht.2.trans_lt (add_lt_add_left hs.1 _))
  · rintro before r after rfl hrefused
    constructor
    · refine admissions_of_refused hmax (hsorted.sublist (List.Sublist.map _ ?_)) hrefused
      simp
    · intro between later
      have halike : ((create maxRequests windowSeconds).after (before ++ [r])).Alike
          ((create maxRequests windowSeconds).after before) := by
        rw [after_concat]
        exact dispatch_refused hrefused
      have hlater := halike.decision between later
      rw [decision, decision, ← after_append, ← after_append, List.append_assoc] at hlater
      exact hlater

end Ordered

/-- A tenant's home page. -/
def home : UrlPath := ⟨"/", by decide, by decide⟩

/-- Two requests of one tenant within a minute. -/
def burst : List (LimitedRequest ℤ) := [⟨some "acme", home, 0⟩, ⟨some "acme", home, 59⟩]

/-- The window of the second request is full of the first. -/
theorem rate_window_law_burst : (burst.map LimitedRequest.now).Pairwise (· ≤ ·) ∧
    (create 1 60).decision (burst.take 1) ⟨some "acme", home, 59⟩ = .error limitExceeded ∧
    (create 1 60).admissions (burst.take 1) "acme:/" (fun t => 59 - t < (60 : ℤ)) = 1 := by
  have hsorted : (burst.map LimitedRequest.now).Pairwise (· ≤ ·) := by decide
  have hrefused : (create 1 60).decision (burst.take 1) ⟨some "acme", home, 59⟩ =
      .error limitExceeded := by decide
  obtain ⟨-, -, hlaw⟩ := rate_window_law 1 60 (by decide) burst hsorted
  exact ⟨hsorted, hrefused, (hlaw _ _ [] rfl hrefused).1⟩

end RateLimitMiddleware

/-! ## Isolation -/

/-- The string ends in a colon and a path. -/
def EndsInPath (s : String) : Prop := ∃ path : UrlPath, ':' :: path.text.toList <:+ s.toList

theorem not_endsInPath_of_not_mem {s : String} (h : ':' ∉ s.toList) : ¬ EndsInPath s := by
  rintro ⟨path, hsuffix⟩
  exact h (hsuffix.subset List.mem_cons_self)

namespace UrlPath

/-- The beginning of a path, up to a colon, is a path. -/
theorem exists_of_append {path : UrlPath} {u rest : List Char}
    (h : path.text.toList = u ++ ':' :: rest) : ∃ front : UrlPath, front.text.toList = u := by
  have habsolute := path.absolute
  have hplain := path.plain
  rw [h] at habsolute hplain
  cases u with
  | nil => simp at habsolute
  | cons c u =>
    refine ⟨⟨String.ofList (c :: u), ?_, ?_⟩, String.toList_ofList⟩
    · rw [String.toList_ofList]
      simpa using habsolute
    · rw [String.toList_ofList]
      exact ⟨fun hmem => hplain.1 (List.mem_append_left _ hmem),
        fun hmem => hplain.2 (List.mem_append_left _ hmem)⟩

/-- A path, a colon and a path are a path. -/
theorem exists_append (front path : UrlPath) :
    ∃ joined : UrlPath, joined.text.toList = front.text.toList ++ ':' :: path.text.toList := by
  refine ⟨⟨String.ofList (front.text.toList ++ ':' :: path.text.toList), ?_, ?_⟩,
    String.toList_ofList⟩
  · rw [String.toList_ofList, List.head?_append, front.absolute]
    rfl
  · rw [String.toList_ofList]
    constructor
    · simp [front.plain.1, path.plain.1]
    · simp [front.plain.2, path.plain.2]

theorem eq_of_toList {path path' : UrlPath} (h : path.text.toList = path'.text.toList) :
    path = path' := by
  cases path
  cases path'
  simpa using String.toList_injective h

end UrlPath

namespace LimitedRequest

variable {T : Type} {r r' : LimitedRequest T} {tenant : String} {path : UrlPath}

theorem key_toList : r.key.toList = r.tenant.toList ++ ':' :: r.path.text.toList := by
  simp only [key, toString, String.toList_append, List.append_assoc]
  rfl

/-- Only a colon before a path makes a key ambiguous. -/
theorem Is.of_key (htenant : ¬ EndsInPath tenant) (hpath : ¬ EndsInPath path.text)
    (h : r.Is tenant path) (hkey : r'.key = r.key) : r'.Is tenant path := by
  obtain ⟨rfl, rfl⟩ := h
  have hlists := congrArg String.toList hkey
  rw [key_toList, key_toList, List.append_eq_append_iff] at hlists
  rcases hlists with ⟨u, htenants, hpaths⟩ | ⟨u, htenants, hpaths⟩
  · cases u with
    | nil => exact ⟨String.toList_injective (by simpa using htenants.symm),
        UrlPath.eq_of_toList (by simpa using hpaths)⟩
    | cons c u =>
      -- the other path begins inside the tenant
      obtain ⟨rfl, hfront⟩ := List.cons.inj hpaths
      obtain ⟨front, rfl⟩ := UrlPath.exists_of_append hfront
      exact absurd ⟨front, _, htenants.symm⟩ htenant
  · cases u with
    | nil => exact ⟨String.toList_injective (by simpa using htenants),
        UrlPath.eq_of_toList (by simpa using hpaths.symm)⟩
    | cons c u =>
      -- the other tenant reaches into the path
      obtain ⟨rfl, hback⟩ := List.cons.inj hpaths
      exact absurd ⟨r'.path, u, hback.symm⟩ hpath

/-- A colon before a path does make it ambiguous: another tenant has the key, too. -/
theorem exists_same_key (h : EndsInPath r.tenant ∨ EndsInPath r.path.text) :
    ∃ r' : LimitedRequest T, r'.now = r.now ∧ r'.tenant ≠ r.tenant ∧ r'.key = r.key := by
  rcases h with ⟨front, before, hbefore⟩ | ⟨path', before, hbefore⟩
  · obtain ⟨joined, hjoined⟩ := front.exists_append r.path
    refine ⟨⟨some (String.ofList before), joined, r.now⟩, rfl, fun hsame => ?_, ?_⟩
    · have hlength : (String.ofList before).toList.length = r.tenant.toList.length :=
        congrArg (fun s => s.toList.length) hsame
      rw [← hbefore, String.toList_ofList] at hlength
      simp at hlength
    · apply String.toList_injective
      rw [key_toList, key_toList, hjoined, ← hbefore]
      simp [tenant]
  · refine ⟨⟨some (r.tenant ++ ":" ++ String.ofList before), path', r.now⟩, rfl,
      fun hsame => ?_, ?_⟩
    · have hlength := congrArg (fun s => s.toList.length) hsame
      simp [tenant, String.toList_append] at hlength
    · apply String.toList_injective
      rw [key_toList, key_toList, ← hbefore]
      simp [tenant, String.toList_append]

end LimitedRequest

namespace RateLimitMiddleware

variable {T : Type} {r : LimitedRequest T} {requests : List (LimitedRequest T)} {maxRequests : ℤ}
  {windowSeconds : T} {tenant : String} {path : UrlPath}

/-- The requests of an unambiguous key are those of the tenant to the path. -/
theorem timesOf_key (htenant : ¬ EndsInPath tenant) (hpath : ¬ EndsInPath path.text)
    (h : r.Is tenant path) : timesOf r.key requests =
      (requests.filter fun r => r.Is tenant path).map LimitedRequest.now := by
  rw [timesOf]
  refine congrArg _ (List.filter_congr fun r' _ => decide_eq_decide.mpr ⟨fun hkey => ?_, ?_⟩)
  · exact h.of_key htenant hpath hkey
  · rintro ⟨htenant', hpath'⟩
    rw [LimitedRequest.key, LimitedRequest.key, htenant', hpath', h.1, h.2]

variable [AddCommGroup T] [LinearOrder T]

/-- Whether a request of the tenant to the path is admitted depends on the earlier ones of the
tenant to the path alone, whatever the clock reads, as long as it does not go back. -/
def Isolated (maxRequests : ℤ) (windowSeconds : T) (tenant : String) (path : UrlPath) : Prop :=
  ∀ (requests requests' : List (LimitedRequest T)) (r : LimitedRequest T), r.Is tenant path →
    ((requests ++ [r]).map LimitedRequest.now).Pairwise (· ≤ ·) →
    ((requests' ++ [r]).map LimitedRequest.now).Pairwise (· ≤ ·) →
    requests.filter (fun r => r.Is tenant path) = requests'.filter (fun r => r.Is tenant path) →
      (create maxRequests windowSeconds).decision requests r =
        (create maxRequests windowSeconds).decision requests' r

/-- Within a window that is no time at all, everything is forgotten. -/
theorem decision_of_window_le [IsOrderedAddMonoid T] (hwindow : windowSeconds ≤ 0)
    (hsorted : ((requests ++ [r]).map LimitedRequest.now).Pairwise (· ≤ ·)) :
    (create maxRequests windowSeconds).decision requests r =
      if 0 < maxRequests then .ok () else .error limitExceeded := by
  have hnone : within windowSeconds r.now
      (logAfter maxRequests windowSeconds (timesOf r.key requests)) = [] := by
    refine List.filter_eq_nil_iff.mpr fun t ht hin => ?_
    have hle : t ≤ r.now :=
      (List.pairwise_append.mp (timesOf_concat_sorted hsorted)).2.2 t (mem_logAfter ht) r.now
        (by simp)
    exact absurd ((of_decide_eq_true hin).trans_le hwindow) (not_lt.mpr (sub_nonneg.mpr hle))
  have hadmits : HasRoom maxRequests windowSeconds
      (logAfter maxRequests windowSeconds (timesOf r.key requests)) r.now ↔ 0 < maxRequests := by
    rw [HasRoom, hnone]
    rfl
  rw [decision_eq]
  by_cases h : 0 < maxRequests
  · rw [if_pos h, if_pos (hadmits.mpr h)]
  · rw [if_neg h, if_neg (mt hadmits.mp h)]

/-- **The limit used up** by another tenant with the same key. -/
theorem not_isolated [IsOrderedAddMonoid T] (hmax : 0 < maxRequests) (hwindow : 0 < windowSeconds)
    (h : EndsInPath tenant ∨ EndsInPath path.text) :
    ¬ Isolated maxRequests windowSeconds tenant path := by
  intro hisolated
  let r : LimitedRequest T := ⟨some tenant, path, 0⟩
  obtain ⟨r', hnow, htenant, hkey⟩ := LimitedRequest.exists_same_key (r := r) h
  have hother : ¬ r'.Is tenant path := fun his => htenant his.1
  have hsame := hisolated (List.replicate maxRequests.toNat r') [] r ⟨rfl, rfl⟩
    (by simp [List.pairwise_append, List.pairwise_replicate, hnow, r]) (by simp)
    (by simp [hother])
  have hfree : (create maxRequests windowSeconds).decision [] r = .ok () :=
    decision_ok_iff.mpr hmax
  rw [hfree, decision_ok_iff] at hsame
  have htimes : timesOf r.key (List.replicate maxRequests.toNat r') =
      List.replicate maxRequests.toNat 0 := by
    simp [timesOf, hkey, hnow, r]
  rw [htimes, logAfter_replicate (by omega) hwindow, HasRoom] at hsame
  have hfull : within windowSeconds r.now (List.replicate maxRequests.toNat 0) =
      List.replicate maxRequests.toNat 0 := by
    refine List.filter_eq_self.mpr fun t ht => ?_
    rw [List.eq_of_mem_replicate ht]
    simpa [r] using hwindow
  rw [hfull, List.length_replicate] at hsame
  omega

/-- **Isolation**: a tenant's requests to a path are limited by themselves alone, exactly if nothing
is ever admitted, or everything, or neither the tenant nor the path ends in a colon and a path. -/
theorem rate_isolated_iff [IsOrderedAddMonoid T] (maxRequests : ℤ) (windowSeconds : T)
    (tenant : String) (path : UrlPath) : Isolated maxRequests windowSeconds tenant path ↔
      maxRequests ≤ 0 ∨ windowSeconds ≤ 0 ∨ ¬ EndsInPath tenant ∧ ¬ EndsInPath path.text := by
  constructor
  · intro hisolated
    by_contra hnone
    obtain ⟨hmax, hwindow, hends⟩ := not_or.mp hnone |>.imp_right not_or.mp
    refine not_isolated (not_le.mp hmax) (not_le.mp hwindow) ?_ hisolated
    by_contra hneither
    exact hends (not_or.mp hneither)
  · intro hcond requests requests' r his hsorted hsorted' hsame
    rcases hcond with hmax | hwindow | ⟨htenant, hpath⟩
    · have hnever : ∀ requests, (create maxRequests windowSeconds).decision requests r =
          .error limitExceeded := by
        intro requests
        refine decision_refused_iff.mpr fun hadmits => ?_
        rw [HasRoom] at hadmits
        omega
      rw [hnever, hnever]
    · rw [decision_of_window_le hwindow hsorted, decision_of_window_le hwindow hsorted']
    · rw [decision_eq, decision_eq, timesOf_key htenant hpath his, timesOf_key htenant hpath his,
        hsame]

/-- The path of the agent, below that of a tenant. -/
def agentPath : UrlPath := ⟨"/agent", by decide, by decide⟩

/-- The tenant `acme` has `/agent` for itself. -/
theorem acme_isolated : Isolated 60 (60 : ℤ) "acme" agentPath := by
  refine (rate_isolated_iff 60 60 "acme" agentPath).mpr (.inr (.inr ⟨?_, ?_⟩))
  · exact not_endsInPath_of_not_mem (by decide)
  · exact not_endsInPath_of_not_mem (by decide)

/-- The tenant `acme:/eu` is locked out of `/agent` by the tenant `acme`, that asks for
`/eu:/agent`. -/
theorem tenant_locked_out : ¬ Isolated 60 (60 : ℤ) "acme:/eu" agentPath :=
  not_isolated (by decide) (by decide)
    (.inl ⟨⟨"/eu", by decide, by decide⟩, "acme".toList, by decide⟩)

end RateLimitMiddleware

end BankingAgent
