import Mathlib.Data.List.Nodup

/-!
# Dictionaries in insertion order

A dictionary keeps its keys in the order in which they came first: writing a key that is there
changes its value in place, and a new key goes to the end.

* `OrderedDict` — entries with distinct keys.
* `get?_set` — what is found after a key has been written.
-/

/-- Entries with distinct keys, in the order in which the keys came. -/
structure OrderedDict (α β : Type) : Type where
  entries : List (α × β)
  /-- no key comes twice -/
  nodup : (entries.map Prod.fst).Nodup

namespace OrderedDict

variable {α β : Type} [DecidableEq α]

/-- Entries after a key has been written: in place if it is there, else at the end. -/
def setEntry (a : α) (b : β) : List (α × β) → List (α × β)
  | [] => [(a, b)]
  | e :: rest => if e.1 = a then (a, b) :: rest else e :: setEntry a b rest

variable {a a' : α} {b b' : β} {l : List (α × β)} {d : OrderedDict α β}

/-- Setting a key adds it, and removes none. -/
theorem mem_keys_setEntry : a' ∈ (setEntry a b l).map Prod.fst ↔ a' = a ∨ a' ∈ l.map Prod.fst := by
  induction l with
  | nil => simp [setEntry]
  | cons e rest ih =>
    rw [setEntry]
    split
    · rename_i h
      simp [h]
    · rw [List.map_cons, List.mem_cons, ih, List.map_cons, List.mem_cons]
      tauto

theorem nodup_setEntry (h : (l.map Prod.fst).Nodup) : ((setEntry a b l).map Prod.fst).Nodup := by
  induction l with
  | nil => simp [setEntry]
  | cons e rest ih =>
    obtain ⟨he, hrest⟩ := List.nodup_cons.mp h
    rw [setEntry]
    split
    · rename_i hea
      subst hea
      exact List.nodup_cons.mpr ⟨he, hrest⟩
    · rename_i hea
      refine List.nodup_cons.mpr ⟨fun hmem => ?_, ih hrest⟩
      rcases mem_keys_setEntry.mp hmem with heq | hmem
      · exact hea heq
      · exact he hmem

/-- `{}`. -/
def empty : OrderedDict α β := ⟨[], List.nodup_nil⟩

/-- `d[a] = b`. -/
def set (d : OrderedDict α β) (a : α) (b : β) : OrderedDict α β :=
  ⟨setEntry a b d.entries, nodup_setEntry d.nodup⟩

/-- `d.get(a)`. -/
def get? (d : OrderedDict α β) (a : α) : Option β :=
  (d.entries.find? fun e => e.1 = a).map Prod.snd

/-- `d.values()`. -/
def values (d : OrderedDict α β) : List β := d.entries.map Prod.snd

omit [DecidableEq α] in
/-- A key has one value. -/
theorem value_unique (hb : (a, b) ∈ d.entries) (hb' : (a, b') ∈ d.entries) : b = b' :=
  congrArg Prod.snd (List.inj_on_of_nodup_map d.nodup hb hb' rfl)

/-- Looking a key up finds its entry. -/
theorem get?_eq_some_iff : d.get? a = some b ↔ (a, b) ∈ d.entries := by
  rw [get?, Option.map_eq_some_iff]
  constructor
  · rintro ⟨e, hfind, rfl⟩
    have hkey : e.1 = a := by simpa using List.find?_some hfind
    rw [← hkey]
    exact List.mem_of_find?_eq_some hfind
  · intro hmem
    cases hfind : d.entries.find? fun e => e.1 = a with
    | none => simpa using List.find?_eq_none.mp hfind _ hmem
    | some e =>
      have hkey : e.1 = a := by simpa using List.find?_some hfind
      refine ⟨e, rfl, value_unique (d := d) (a := a) ?_ hmem⟩
      rw [← hkey]
      exact List.mem_of_find?_eq_some hfind

theorem mem_setEntry_iff (h : (l.map Prod.fst).Nodup) :
    (a', b') ∈ setEntry a b l ↔ a' = a ∧ b' = b ∨ a' ≠ a ∧ (a', b') ∈ l := by
  induction l with
  | nil => simp [setEntry]
  | cons e rest ih =>
    obtain ⟨he, hrest⟩ := List.nodup_cons.mp h
    have hout : (a', b') ∈ rest → a' ≠ e.1 := by
      rintro hmem rfl
      exact he (List.mem_map.mpr ⟨_, hmem, rfl⟩)
    rw [setEntry]
    split
    · rename_i hea
      subst hea
      simp only [List.mem_cons, Prod.ext_iff]
      tauto
    · rename_i hea
      have hne : (a', b') = e → a' ≠ a := by
        rintro rfl
        exact hea
      rw [List.mem_cons, ih hrest, List.mem_cons]
      tauto

@[simp] theorem get?_empty : (empty : OrderedDict α β).get? a = none := rfl

/-- **Writing** a key changes what is found under it, and nothing else. -/
theorem get?_set : (d.set a b).get? a' = if a' = a then some b else d.get? a' := by
  ext b''
  rw [get?_eq_some_iff, set, mem_setEntry_iff d.nodup]
  split
  · rename_i h
    simp [h, eq_comm]
  · rename_i h
    simp [h, get?_eq_some_iff]

@[simp] theorem get?_set_self : (d.set a b).get? a = some b := by
  rw [get?_set, if_pos rfl]

/-- The other keys keep their values. -/
theorem get?_set_of_ne (h : a' ≠ a) : (d.set a b).get? a' = d.get? a' := by
  rw [get?_set, if_neg h]

theorem mem_values_iff : b ∈ d.values ↔ ∃ a, d.get? a = some b := by
  simp [values, get?_eq_some_iff]

end OrderedDict
