import Mathlib.Data.List.AList
import Mathlib.Tactic.Abel

/-!
# Totals over a dictionary

A dictionary is an `AList`. The total of a measure over its values changes by the one
entry that is written: a new entry adds its measure, a changed entry adds the
difference.
-/

namespace AList

variable {α β : Type} [DecidableEq α] {R : Type} [AddCommGroup R]

theorem lookup_insert_eq_ite (a a' : α) (b : β) (s : AList fun _ : α => β) :
    (s.insert a b).lookup a' = if a' = a then some b else s.lookup a' := by
  split
  · rename_i h
    rw [h, lookup_insert]
  · rename_i h
    exact lookup_insert_ne h

/-- The sum of a measure over the values of a dictionary. -/
def total (f : β → R) (s : AList fun _ : α => β) : R := (s.entries.map fun e => f e.2).sum

variable {f : β → R} {s : AList fun _ : α => β} {a : α} {b b' : β}


/-- A new entry adds its measure. -/
theorem total_insert_of_notMem (h : a ∉ s) : total f (s.insert a b) = total f s + f b := by
  rw [total, entries_insert_of_notMem h, List.map_cons, List.sum_cons, add_comm]
  rfl

/-- Taking an entry out takes its measure away. -/
theorem total_eq_kerase_add (h : s.lookup a = some b) :
    total f s = ((s.entries.kerase a).map fun e => f e.2).sum + f b := by
  have hmem : (⟨a, b⟩ : Sigma fun _ : α => β) ∈ s.entries :=
    List.of_mem_dlookup (Option.mem_def.mpr h)
  obtain ⟨b', l₁, l₂, -, hl, hk⟩ :=
    List.exists_of_kerase (List.mem_keys_of_mem hmem)
  have hb : b' = b := by
    have hmem' : (⟨a, b'⟩ : Sigma fun _ : α => β) ∈ s.entries := by rw [hl]; simp
    exact List.NodupKeys.eq_of_mk_mem s.nodupKeys hmem' hmem
  rw [hk, total, hl, hb]
  simp only [List.map_append, List.map_cons, List.sum_append, List.sum_cons]
  abel

/-- A changed entry adds the difference. -/
theorem total_insert_of_lookup (h : s.lookup a = some b) :
    total f (s.insert a b') = total f s - f b + f b' := by
  rw [total_eq_kerase_add h, total, entries_insert, List.map_cons, List.sum_cons,
    add_sub_cancel_right, add_comm]

end AList
