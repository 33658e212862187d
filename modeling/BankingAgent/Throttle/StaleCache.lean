import Mathlib.Algebra.Order.Group.Defs
import Mathlib.Data.List.Chain

/-!
# A cache that prefers a stale document to none

A document is kept for some time after it was fetched. A look within that time asks nobody; a
later one asks for a new document, and falls back on the old one if there is no answer. A document
that is of no use is kept like any other, but asked for again at the next look. Times form an
ordered group: the difference of two of them is exact.

* `after_eq` — what the cache holds is what was fetched last.
* `isChain_fetches` — after a useful document nothing is fetched for that time.
* `length_nsmul_le` — so `n + 1` useful documents in a row take `n` times as long.
-/

namespace StaleCache

variable {D T : Type}

/-- A document, and when it was fetched. -/
structure Cache (D T : Type) : Type where
  document : D
  lastFetch : T

/-- Whom a look has asked, and what the answer was. -/
inductive Request (D : Type) : Type where
  | none
  | failed
  | fetched (document : D)

/-- The document that was fetched, if one was. -/
def Request.document? : Request D → Option D
  | fetched document => some document
  | _ => Option.none

section Look

variable [LT T] [DecidableLT T] [Sub T] (useful : D → Bool) (ttl : T)

/-- A look at a time, where `response` is the answer if somebody is asked. -/
def Cache.look (c : Cache D T) (now : T) (response : Option D) : Request D × Cache D T :=
  if useful c.document = true ∧ now - c.lastFetch < ttl then (.none, c)
  else match response with
    | some document => (.fetched document, ⟨document, now⟩)
    | Option.none => (.failed, c)

/-- The cache after some looks. -/
def Cache.after (c : Cache D T) (looks : List (T × Option D)) : Cache D T :=
  looks.foldl (fun c look => (c.look useful ttl look.1 look.2).2) c

/-- The documents that some looks fetch, and when. -/
def Cache.fetches (c : Cache D T) : List (T × Option D) → List (T × D)
  | [] => []
  | look :: looks =>
    ((c.look useful ttl look.1 look.2).1.document?.map (Prod.mk look.1)).toList ++
      Cache.fetches (c.look useful ttl look.1 look.2).2 looks

variable {useful ttl} {c : Cache D T} {now : T} {response : Option D}

theorem look_of_fresh (h : useful c.document = true ∧ now - c.lastFetch < ttl) :
    c.look useful ttl now response = (.none, c) := if_pos h

theorem look_of_answer (h : ¬ (useful c.document = true ∧ now - c.lastFetch < ttl)) (document : D) :
    c.look useful ttl now (some document) = (.fetched document, ⟨document, now⟩) := if_neg h

theorem look_of_failure (h : ¬ (useful c.document = true ∧ now - c.lastFetch < ttl)) :
    c.look useful ttl now none = (.failed, c) := if_neg h

/-- A look that asks somebody does not find such a document. -/
theorem look_stale (h : (c.look useful ttl now response).1 ≠ .none) :
    ¬ (useful c.document = true ∧ now - c.lastFetch < ttl) := by
  intro hfresh
  rw [look_of_fresh hfresh] at h
  exact h rfl

/-- A look holds what it has fetched, or what was held before. -/
theorem look_cache :
    (c.look useful ttl now response).2 =
      ((c.look useful ttl now response).1.document?.map fun d => ⟨d, now⟩).getD c := by
  by_cases hfresh : useful c.document = true ∧ now - c.lastFetch < ttl
  · rw [look_of_fresh hfresh]
    rfl
  · cases response with
    | none =>
      rw [look_of_failure hfresh]
      rfl
    | some document =>
      rw [look_of_answer hfresh]
      rfl

/-- **What the cache holds** is what was fetched last. -/
theorem after_eq (c : Cache D T) (looks : List (T × Option D)) :
    c.after useful ttl looks =
      ((c.fetches useful ttl looks).getLast?.map fun f => ⟨f.2, f.1⟩).getD c := by
  induction looks generalizing c with
  | nil => rfl
  | cons look looks ih =>
    rw [Cache.after, List.foldl_cons, ← Cache.after, ih, Cache.fetches, look_cache]
    cases (c.look useful ttl look.1 look.2).1.document? with
    | none => rfl
    | some d =>
      cases h : Cache.fetches useful ttl ⟨d, look.1⟩ looks with
      | nil => simp [h]
      | cons f fs => simp [h, List.getLast?_cons]

end Look

section Spaced

variable [AddCommGroup T] [LinearOrder T] {useful : D → Bool} {ttl : T}

/-- The second document is fetched a while after the first, if that is useful. -/
def Spaced (useful : D → Bool) (ttl : T) (f f' : T × D) : Prop :=
  useful f.2 = true → ttl ≤ f'.1 - f.1

/-- **After a useful document** nothing is fetched for a while. -/
theorem isChain_fetches (c : Cache D T) (looks : List (T × Option D)) :
    ((c.lastFetch, c.document) :: c.fetches useful ttl looks).IsChain (Spaced useful ttl) := by
  induction looks generalizing c with
  | nil => exact List.isChain_singleton _
  | cons look looks ih =>
    rw [Cache.fetches]
    have hrest := ih (c.look useful ttl look.1 look.2).2
    rw [look_cache] at hrest ⊢
    cases hdoc : (c.look useful ttl look.1 look.2).1.document? with
    | none =>
      rw [hdoc] at hrest
      exact hrest
    | some d =>
      rw [hdoc] at hrest
      refine List.isChain_cons_cons.mpr ⟨fun huseful => ?_, hrest⟩
      have hasked : (c.look useful ttl look.1 look.2).1 ≠ .none := fun hnone => by
        rw [hnone] at hdoc
        cases hdoc
      exact not_lt.mp fun hlt => look_stale hasked ⟨huseful, hlt⟩

/-- **Useful documents in a row** take their time. -/
theorem length_nsmul_le [IsOrderedAddMonoid T] {f : T × D} {fs : List (T × D)}
    (hchain : (f :: fs).IsChain (Spaced useful ttl)) (huseful : ∀ g ∈ f :: fs, useful g.2 = true) :
    fs.length • ttl ≤ ((f :: fs).getLast (List.cons_ne_nil _ _)).1 - f.1 := by
  induction fs generalizing f with
  | nil => simp
  | cons g fs ih =>
    obtain ⟨hstep, hrest⟩ := List.isChain_cons_cons.mp hchain
    obtain ⟨hf, hfs⟩ := List.forall_mem_cons.mp huseful
    have hlast := ih hrest hfs
    rw [List.getLast_cons (List.cons_ne_nil g fs), List.length_cons, succ_nsmul']
    have hsum := add_le_add (hstep hf) hlast
    rwa [sub_add_sub_comm, add_comm g.1, add_sub_add_right_eq_sub] at hsum

end Spaced

end StaleCache
