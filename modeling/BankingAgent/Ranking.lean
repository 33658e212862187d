import Mathlib.Data.List.Sort

/-!
# What comes first in a stable sort

An element of a list comes to a place that can be counted: behind those that stood before it and
do not belong behind it, and behind those that stood after it and belong before it.

* `rank` — the number of elements that come before an element.
* `mem_take_insertionSort_iff` — the first `k` of the sorted list are the elements whose rank is
  less than `k`.
* `head?_insertionSort_iff` — the first one.
-/

namespace Ranking

variable {α : Type} (r : α → α → Prop) [DecidableRel r]

/-- How many come before `a`, which stands between two lists: an element before it does unless
`a` has to be before it, an element after it only if it has to. -/
def rank (before : List α) (a : α) (after : List α) : ℕ :=
  before.countP (fun b => r b a) + after.countP fun b => ¬ r a b

variable {r} {k : ℕ} {a x : α} {l s : List α}

/-- The first `k` of a list, by what stands before an element. -/
theorem mem_take_iff : a ∈ l.take k ↔ ∃ pre post, l = pre ++ a :: post ∧ pre.length < k := by
  constructor
  · intro h
    obtain ⟨pre, post, hsplit⟩ := List.append_of_mem h
    refine ⟨pre, post ++ l.drop k, ?_, ?_⟩
    · rw [← List.cons_append, ← List.append_assoc, ← hsplit, List.take_append_drop]
    · have hlen := congrArg List.length hsplit
      rw [List.length_take, List.length_append, List.length_cons] at hlen
      omega
  · rintro ⟨pre, post, rfl, hlt⟩
    rw [List.take_append, List.take_cons (by omega)]
    exact List.mem_append_right _ List.mem_cons_self

section Insert

variable [IsTrans α r]

omit [DecidableRel r] in
/-- What goes before an element of a sorted list goes before everything behind it. -/
theorem rel_of_rel {b c : α} (h : (b :: s).Pairwise r) (hx : r x b) (hc : c ∈ b :: s) : r x c := by
  rcases List.mem_cons.mp hc with rfl | hc
  · exact hx
  · exact trans_of r hx ((List.pairwise_cons.mp h).1 c hc)

theorem takeWhile_eq_filter (h : s.Pairwise r) :
    s.takeWhile (fun b => ¬ r x b) = s.filter fun b => ¬ r x b := by
  induction s with
  | nil => rfl
  | cons b s ih =>
    by_cases hx : r x b
    · have hnone : (b :: s).filter (fun c => ¬ r x c) = [] :=
        List.filter_eq_nil_iff.mpr fun c hc => by simpa using rel_of_rel h hx hc
      rw [hnone, List.takeWhile_cons_of_neg (by simpa using hx)]
    · rw [List.takeWhile_cons_of_pos (by simpa using hx), List.filter_cons_of_pos (by simpa using hx),
        ih (List.pairwise_cons.mp h).2]

theorem dropWhile_eq_filter (h : s.Pairwise r) :
    s.dropWhile (fun b => ¬ r x b) = s.filter fun b => r x b := by
  induction s with
  | nil => rfl
  | cons b s ih =>
    by_cases hx : r x b
    · have hself : (b :: s).filter (fun c => r x c) = b :: s :=
        List.filter_eq_self.mpr fun c hc => by simpa using rel_of_rel h hx hc
      rw [hself, List.dropWhile_cons_of_neg (by simpa using hx)]
    · rw [List.dropWhile_cons_of_pos (by simpa using hx), List.filter_cons_of_neg (by simpa using hx),
        ih (List.pairwise_cons.mp h).2]

/-- In a sorted list an element goes between those it does not have to be before and the
others. -/
theorem orderedInsert_eq_filter (h : s.Pairwise r) : s.orderedInsert r x =
    s.filter (fun b => ¬ r x b) ++ x :: s.filter fun b => r x b := by
  rw [List.orderedInsert_eq_take_drop, takeWhile_eq_filter h, dropWhile_eq_filter h]

/-- Where an element is found that something is inserted next to: one place further on, if that
goes before it. -/
theorem exists_split_orderedInsert {pre post : List α} (h : (pre ++ a :: post).Pairwise r) :
    ∃ pre' post', (pre ++ a :: post).orderedInsert r x = pre' ++ a :: post' ∧
      pre'.length = pre.length + if r x a then 1 else 0 := by
  rw [orderedInsert_eq_filter h, List.filter_append, List.filter_append]
  obtain ⟨hpre, hrest, hcross⟩ := List.pairwise_append.mp h
  by_cases hx : r x a
  · have hnone : (a :: post).filter (fun b => ¬ r x b) = [] :=
      List.filter_eq_nil_iff.mpr fun c hc => by simpa using rel_of_rel hrest hx hc
    have hself : (a :: post).filter (fun b => r x b) = a :: post :=
      List.filter_eq_self.mpr fun c hc => by simpa using rel_of_rel hrest hx hc
    refine ⟨pre.filter (fun b => ¬ r x b) ++ x :: pre.filter fun b => r x b, post, ?_, ?_⟩
    · rw [hnone, hself, List.append_nil, List.append_assoc, List.cons_append]
    · have hperm := (List.filter_append_perm (fun b => decide (r x b)) pre).length_eq
      simp only [hx, if_true, List.length_append, List.length_cons, decide_not] at hperm ⊢
      omega
  · have hfree : ∀ b ∈ pre, ¬ r x b := fun b hb hxb =>
      hx (trans_of r hxb (hcross b hb a List.mem_cons_self))
    have hself : pre.filter (fun b => ¬ r x b) = pre :=
      List.filter_eq_self.mpr fun c hc => by simpa using hfree c hc
    rw [hself, List.filter_cons_of_pos (by simpa using hx), List.append_assoc, List.cons_append]
    exact ⟨pre, _, rfl, by simp [hx]⟩

end Insert

variable [Std.Total r] [IsTrans α r]

/-- Every element is found behind as many others as its rank says. -/
theorem exists_split_insertionSort (r : α → α → Prop) [DecidableRel r] [Std.Total r] [IsTrans α r]
    (before : List α) (a : α) (after : List α) :
    ∃ pre post, (before ++ a :: after).insertionSort r = pre ++ a :: post ∧
      pre.length = rank r before a after := by
  induction before with
  | nil =>
    rw [List.nil_append, List.insertionSort_cons,
      orderedInsert_eq_filter (List.pairwise_insertionSort r after)]
    refine ⟨_, _, rfl, ?_⟩
    rw [← List.countP_eq_length_filter, (List.perm_insertionSort r after).countP_eq]
    simp [rank]
  | cons x before ih =>
    obtain ⟨pre, post, hsort, hlen⟩ := ih
    have hsorted := List.pairwise_insertionSort r (before ++ a :: after)
    rw [hsort] at hsorted
    obtain ⟨pre', post', hinsert, hlen'⟩ := exists_split_orderedInsert (x := x) hsorted
    refine ⟨pre', post', ?_, ?_⟩
    · rw [List.cons_append, List.insertionSort_cons, hsort, hinsert]
    · rw [hlen', hlen, rank, rank, List.countP_cons]
      simp only [decide_eq_true_eq]
      omega

omit [Std.Total r] [IsTrans α r] in
theorem rank_cons_before {before after : List α} :
    rank r (x :: before) a after = rank r before a after + if r x a then 1 else 0 := by
  rw [rank, rank, List.countP_cons]
  simp only [decide_eq_true_eq]
  omega

/-- In front of the others, an element comes behind those of the sorted list that it does not
have to be before. -/
theorem rank_nil_before :
    rank r [] x l = ((l.insertionSort r).takeWhile fun b => ¬ r x b).length := by
  rw [takeWhile_eq_filter (List.pairwise_insertionSort r l), ← List.countP_eq_length_filter,
    (List.perm_insertionSort r l).countP_eq]
  simp [rank]

/-- What is found in the sorted list stood somewhere, with that rank. -/
theorem exists_rank_eq {pre post : List α} (h : l.insertionSort r = pre ++ a :: post) :
    ∃ before after, l = before ++ a :: after ∧ rank r before a after = pre.length := by
  induction l generalizing pre post with
  | nil => exact absurd h (by simp)
  | cons x l ih =>
    have hsorted := List.pairwise_insertionSort r l
    -- an element of the sorted rest has its place from there
    have hback : ∀ {pre' post' : List α}, l.insertionSort r = pre' ++ a :: post' →
        pre'.length + (if r x a then 1 else 0) = pre.length →
        ∃ before after, x :: l = before ++ a :: after ∧ rank r before a after = pre.length := by
      intro pre' post' hsort hlen
      obtain ⟨before, after, rfl, hrank⟩ := ih hsort
      exact ⟨x :: before, after, rfl, by rw [rank_cons_before, hrank, hlen]⟩
    have hself : x = a → (l.insertionSort r).takeWhile (fun b => ¬ r x b) = pre →
        ∃ before after, x :: l = before ++ a :: after ∧ rank r before a after = pre.length := by
      rintro rfl rfl
      exact ⟨[], l, rfl, rank_nil_before⟩
    have hwhole := List.takeWhile_append_dropWhile (p := fun b => ¬ r x b)
      (l := l.insertionSort r)
    rw [List.insertionSort_cons, List.orderedInsert_eq_take_drop, List.append_eq_append_iff] at h
    rcases h with ⟨c, hpre, hrest⟩ | ⟨c, htake, hrest⟩
    · -- the element does not stand before the one that is inserted
      rcases List.cons_eq_append_iff.mp hrest with ⟨rfl, hcons⟩ | ⟨c, rfl, hdrop⟩
      · rw [List.append_nil] at hpre
        exact hself (List.cons.inj hcons).1.symm hpre.symm
      · have hx : r x a := by
          have hmem : a ∈ (l.insertionSort r).filter fun b => r x b := by
            rw [← dropWhile_eq_filter hsorted, hdrop]
            simp
          simpa using (List.mem_filter.mp hmem).2
        rw [hdrop, ← List.append_assoc] at hwhole
        refine hback hwhole.symm ?_
        rw [hpre, if_pos hx, List.length_append, List.length_append, List.length_cons]
        omega
    · -- it does
      rcases List.cons_eq_append_iff.mp hrest with ⟨rfl, hcons⟩ | ⟨c, rfl, -⟩
      · rw [List.append_nil] at htake
        exact hself (List.cons.inj hcons).1 htake
      · have hx : ¬ r x a := by
          have hmem : a ∈ (l.insertionSort r).filter fun b => ¬ r x b := by
            rw [← takeWhile_eq_filter hsorted, htake]
            simp
          simpa using (List.mem_filter.mp hmem).2
        rw [htake, List.append_assoc, List.cons_append] at hwhole
        refine hback hwhole.symm ?_
        rw [if_neg hx, Nat.add_zero]

/-- **The first `k`** of the sorted list are the elements with a rank less than `k`. -/
theorem mem_take_insertionSort_iff : a ∈ (l.insertionSort r).take k ↔
    ∃ before after, l = before ++ a :: after ∧ rank r before a after < k := by
  rw [mem_take_iff]
  constructor
  · rintro ⟨pre, post, hsort, hlt⟩
    obtain ⟨before, after, rfl, hrank⟩ := exists_rank_eq hsort
    exact ⟨before, after, rfl, hrank ▸ hlt⟩
  · rintro ⟨before, after, rfl, hlt⟩
    obtain ⟨pre, post, hsort, hlen⟩ := exists_split_insertionSort r before a after
    exact ⟨pre, post, hsort, hlen ▸ hlt⟩

/-- **The first** of the sorted list is the element that nothing before it comes before, and that
goes before everything behind it. -/
theorem head?_insertionSort_iff : (l.insertionSort r).head? = some a ↔
    ∃ before after, l = before ++ a :: after ∧ (∀ b ∈ before, ¬ r b a) ∧ ∀ b ∈ after, r a b := by
  have hfirst : (l.insertionSort r).head? = some a ↔ a ∈ (l.insertionSort r).take 1 := by
    cases l.insertionSort r with
    | nil => simp
    | cons x s => simp [eq_comm]
  rw [hfirst, mem_take_insertionSort_iff]
  refine exists_congr fun before => exists_congr fun after => and_congr_right fun _ => ?_
  rw [Nat.lt_one_iff, rank, Nat.add_eq_zero_iff, List.countP_eq_zero, List.countP_eq_zero]
  simp

end Ranking
