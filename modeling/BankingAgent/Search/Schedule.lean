import Mathlib.Data.List.Sort
import Mathlib.Order.Extension.Linear

/-!
# Schedules

Items stand under keys, and each needs some others, named by their keys. A schedule goes through
all of them, one after the other, and finds done what the next one needs.

* `Runs` — in this order nothing has to wait.
* `runs_iff` — what an item needs stands before it.
* `exists_runs_iff` — there is such an order exactly if what is needed is there and nothing needs
  itself in the end.
-/

namespace Schedule

variable {α κ : Type} (key : α → κ) (needs : α → List κ)

/-- Where the keys `done` are done, the items can be gone through in this order. -/
def Runs : List κ → List α → Prop
  | _, [] => True
  | done, a :: order => (∀ k ∈ needs a, k ∈ done) ∧ Runs (key a :: done) order

instance decidableRuns [DecidableEq κ] : ∀ done order, Decidable (Runs key needs done order)
  | _, [] => inferInstanceAs (Decidable True)
  | done, a :: order =>
    have : Decidable (Runs key needs (key a :: done) order) := decidableRuns _ order
    inferInstanceAs (Decidable ((∀ k ∈ needs a, k ∈ done) ∧ Runs key needs (key a :: done) order))

/-- An item under the first key needs the second, which is there. -/
def Depends (items : List α) (k l : κ) : Prop :=
  (∃ a ∈ items, key a = k ∧ l ∈ needs a) ∧ ∃ b ∈ items, key b = l

variable {key needs} {items order : List α}

/-- Under keys that are distinct, the last item with a key is the one that is there. -/
theorem find?_reverse_eq_some_iff [DecidableEq κ] (hkeys : (items.map key).Nodup) {k : κ} {a : α} :
    (items.reverse.find? fun b => key b = k) = some a ↔ a ∈ items ∧ key a = k := by
  constructor
  · intro h
    exact ⟨List.mem_reverse.mp (List.mem_of_find?_eq_some h), by simpa using List.find?_some h⟩
  · rintro ⟨ha, rfl⟩
    have hsome : (items.reverse.find? fun b => key b = key a).isSome = true :=
      List.find?_isSome.mpr ⟨a, List.mem_reverse.mpr ha, decide_eq_true rfl⟩
    obtain ⟨b, hb⟩ := Option.isSome_iff_exists.mp hsome
    have hkey : key b = key a := by simpa using List.find?_some hb
    rw [hb, List.inj_on_of_nodup_map hkeys
      (List.mem_reverse.mp (List.mem_of_find?_eq_some hb)) ha hkey]

/-- What an item needs stands before it. -/
theorem runs_iff {done : List κ} :
    Runs key needs done order ↔ ∀ before a after, order = before ++ a :: after →
      ∀ k ∈ needs a, k ∈ done ∨ ∃ b ∈ before, key b = k := by
  induction order generalizing done with
  | nil =>
    refine ⟨fun _ before a after h => ?_, fun _ => trivial⟩
    simp at h
  | cons c order ih =>
    rw [Runs, ih]
    constructor
    · rintro ⟨hfirst, hrest⟩ before a after h k hk
      cases before with
      | nil =>
        obtain ⟨rfl, rfl⟩ := List.cons.inj h
        exact .inl (hfirst k hk)
      | cons b before =>
        obtain ⟨rfl, rfl⟩ := List.cons.inj h
        rcases hrest before a after rfl k hk with hdone | ⟨b, hb, rfl⟩
        · rcases List.mem_cons.mp hdone with rfl | hdone
          · exact .inr ⟨c, List.mem_cons_self, rfl⟩
          · exact .inl hdone
        · exact .inr ⟨b, List.mem_cons_of_mem _ hb, rfl⟩
    · intro h
      refine ⟨fun k hk => ?_, fun before a after horder k hk => ?_⟩
      · simpa using h [] c order rfl k hk
      · subst horder
        rcases h (c :: before) a after rfl k hk with hdone | ⟨b, hb, rfl⟩
        · exact .inl (List.mem_cons_of_mem _ hdone)
        · rcases List.mem_cons.mp hb with rfl | hb
          · exact .inl List.mem_cons_self
          · exact .inr ⟨b, hb, rfl⟩

/-- The dependencies of some items are those of the items in any other order. -/
theorem depends_of_perm (h : order.Perm items) : Depends key needs order = Depends key needs items := by
  funext k l
  simp only [Depends, h.mem_iff]

/-- What a schedule goes through earlier has the lower number. -/
theorem Runs.idxOf_lt [DecidableEq κ] (h : Runs key needs [] order) (hkeys : (order.map key).Nodup)
    {k l : κ} (hdep : Depends key needs order k l) :
    (order.map key).idxOf l < (order.map key).idxOf k := by
  obtain ⟨⟨a, ha, rfl, hl⟩, -⟩ := hdep
  obtain ⟨before, after, rfl⟩ := List.append_of_mem ha
  rcases runs_iff.mp h before a after rfl l hl with hdone | ⟨b, hb, rfl⟩
  · cases hdone
  · have hmem : key b ∈ before.map key := List.mem_map_of_mem hb
    have hnot : key a ∉ before.map key := by
      rw [List.map_append, List.map_cons] at hkeys
      exact fun hmem => List.disjoint_of_nodup_append hkeys hmem List.mem_cons_self
    rw [List.map_append, List.map_cons, List.idxOf_append_of_mem hmem,
      List.idxOf_append_of_notMem hnot, List.idxOf_cons_self, Nat.add_zero]
    exact List.idxOf_lt_length_of_mem hmem

/-- In a schedule nothing needs itself in the end. -/
theorem Runs.acyclic (h : Runs key needs [] order) (hkeys : (order.map key).Nodup) (k : κ) :
    ¬ Relation.TransGen (Depends key needs order) k k := by
  classical
  intro hcycle
  have hlt : ∀ {l}, Relation.TransGen (Depends key needs order) k l →
      (order.map key).idxOf l < (order.map key).idxOf k := by
    intro l hkl
    induction hkl with
    | single hdep => exact h.idxOf_lt hkeys hdep
    | tail _ hdep ih => exact (h.idxOf_lt hkeys hdep).trans ih
  exact Nat.lt_irrefl _ (hlt hcycle)

/-- The dependencies order the keys, if nothing needs itself in the end. -/
theorem isPartialOrder_of_acyclic
    (hacyclic : ∀ k, ¬ Relation.TransGen (Depends key needs items) k k) :
    IsPartialOrder κ fun l k => Relation.ReflTransGen (Depends key needs items) k l where
  refl _ := .refl
  trans _ _ _ h h' := h'.trans h
  antisymm k l h h' := by
    rcases Relation.reflTransGen_iff_eq_or_transGen.mp h with rfl | hlk
    · rfl
    · exact absurd (hlk.trans_left h') (hacyclic l)

/-- **There is a schedule**: a linear order that extends the dependencies. -/
theorem exists_runs (hfound : ∀ a ∈ items, ∀ k ∈ needs a, ∃ b ∈ items, key b = k)
    (hacyclic : ∀ k, ¬ Relation.TransGen (Depends key needs items) k k) :
    ∃ order, order.Perm items ∧ Runs key needs [] order := by
  classical
  have := isPartialOrder_of_acyclic hacyclic
  obtain ⟨s, hs, hextends⟩ := extend_partialOrder fun l k =>
    Relation.ReflTransGen (Depends key needs items) k l
  let le (a b : α) : Prop := s (key a) (key b)
  have : Std.Total le := ⟨fun a b => hs.total (key a) (key b)⟩
  have : IsTrans α le := ⟨fun a b c h h' => hs.trans _ _ _ h h'⟩
  have hsorted := List.pairwise_insertionSort le items
  refine ⟨items.insertionSort le, List.perm_insertionSort le items, runs_iff.mpr ?_⟩
  intro before a after horder k hk
  have ha : a ∈ items := by
    rw [← List.mem_insertionSort le, horder]
    simp
  obtain ⟨b, hb, rfl⟩ := hfound a ha k hk
  have hdep : Depends key needs items (key a) (key b) := ⟨⟨a, ha, rfl, hk⟩, b, hb, rfl⟩
  have hle : s (key b) (key a) := hextends _ _ (.single hdep)
  -- what `a` needs is not `a`, and stands in no later place
  have hne : key b ≠ key a := fun heq => hacyclic (key a) (.single (heq ▸ hdep))
  rw [← List.mem_insertionSort le, horder] at hb
  rw [horder] at hsorted
  rcases List.mem_append.mp hb with hb | hb
  · exact .inr ⟨b, hb, rfl⟩
  · rcases List.mem_cons.mp hb with rfl | hb
    · exact absurd rfl hne
    · have hge : s (key a) (key b) :=
        (List.pairwise_cons.mp (List.pairwise_append.mp hsorted).2.1).1 b hb
      exact absurd (hs.antisymm _ _ hle hge) hne

/-- **Schedules exist** exactly where what is needed is there and nothing needs itself in the
end. -/
theorem exists_runs_iff (hkeys : (items.map key).Nodup) :
    (∃ order, order.Perm items ∧ Runs key needs [] order) ↔
      (∀ a ∈ items, ∀ k ∈ needs a, ∃ b ∈ items, key b = k) ∧
        ∀ k, ¬ Relation.TransGen (Depends key needs items) k k := by
  constructor
  · rintro ⟨order, hperm, hruns⟩
    refine ⟨fun a ha k hk => ?_, ?_⟩
    · obtain ⟨before, after, rfl⟩ := List.append_of_mem (hperm.mem_iff.mpr ha)
      rcases runs_iff.mp hruns before a after rfl k hk with hdone | ⟨b, hb, rfl⟩
      · cases hdone
      · exact ⟨b, hperm.subset (List.mem_append_left _ hb), rfl⟩
    · rw [← depends_of_perm hperm]
      exact hruns.acyclic ((hperm.map key).nodup_iff.mpr hkeys)
  · exact fun h => exists_runs h.1 h.2

end Schedule
