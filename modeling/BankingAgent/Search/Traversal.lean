import Mathlib.Data.List.Forall2

/-!
# Lists gone through by what may fail

A list is gone through by a function that may fail, or may raise. If it does not, the results belong
to the items one by one.

* `mapM_eq_some_iff`, `mapM_eq_ok_iff` — what comes out of it.
* `mapM_eq_error_iff` — where it has raised.
* `collect` — a loop that collects errors and may raise.
-/

namespace Traversal

variable {α β γ ε : Type} {l : List α} {m : List β}

/-! ## Items that belong together -/

section Related

variable {R : α → β → Prop}

/-- Each item on the left has one on the right that it is related to. -/
theorem exists_of_mem_left (h : List.Forall₂ R l m) {a : α} (ha : a ∈ l) : ∃ b ∈ m, R a b := by
  induction h with
  | nil => exact absurd ha List.not_mem_nil
  | cons hab _ ih =>
    rcases List.mem_cons.mp ha with rfl | hmem
    · exact ⟨_, List.mem_cons_self, hab⟩
    · obtain ⟨b, hb, hR⟩ := ih hmem
      exact ⟨b, List.mem_cons_of_mem _ hb, hR⟩

/-- Each item on the right has one on the left. -/
theorem exists_of_mem_right (h : List.Forall₂ R l m) {b : β} (hb : b ∈ m) : ∃ a ∈ l, R a b :=
  exists_of_mem_left h.flip hb

/-- An item of a kind is on the left if one of that kind is on the right. -/
theorem exists_mem_iff_of_forall₂ {P : α → Prop} {Q : β → Prop} (h : List.Forall₂ R l m)
    (hPQ : ∀ {a b}, R a b → (P a ↔ Q b)) : (∃ a ∈ l, P a) ↔ ∃ b ∈ m, Q b := by
  constructor
  · rintro ⟨a, ha, hP⟩
    obtain ⟨b, hb, hR⟩ := exists_of_mem_left h ha
    exact ⟨b, hb, (hPQ hR).mp hP⟩
  · rintro ⟨b, hb, hQ⟩
    obtain ⟨a, ha, hR⟩ := exists_of_mem_right h hb
    exact ⟨a, ha, (hPQ hR).mpr hQ⟩

/-- A list of partners is made of a partner for each. -/
theorem exists_forall₂_iff : (∃ m, List.Forall₂ R l m) ↔ ∀ a ∈ l, ∃ b, R a b := by
  constructor
  · rintro ⟨m, h⟩ a ha
    obtain ⟨b, -, hab⟩ := exists_of_mem_left h ha
    exact ⟨b, hab⟩
  · intro h
    induction l with
    | nil => exact ⟨[], .nil⟩
    | cons a l ih =>
      obtain ⟨⟨b, hab⟩, hrest⟩ := List.forall_mem_cons.mp h
      obtain ⟨m, hm⟩ := ih hrest
      exact ⟨b :: m, .cons hab hm⟩

/-- What related items have in common, all of them have. -/
theorem map_eq_of_forall₂ {g : α → γ} {k : β → γ} (hR : ∀ {a b}, R a b → g a = k b)
    (h : List.Forall₂ R l m) : l.map g = m.map k := by
  induction h with
  | nil => rfl
  | cons hab _ ih => rw [List.map_cons, List.map_cons, hR hab, ih]

end Related

/-! ## Functions that may fail -/

section Fails

variable {f : α → Option β}

/-- What has been made of the items. -/
theorem mapM_eq_some_iff : l.mapM f = some m ↔ List.Forall₂ (fun a b => f a = some b) l m := by
  induction l generalizing m with
  | nil =>
    rw [List.mapM_nil, List.forall₂_nil_left_iff]
    exact ⟨fun h => (Option.some.inj h).symm, fun h => congrArg some h.symm⟩
  | cons a l ih =>
    rw [List.mapM_cons, Option.bind_eq_bind, Option.bind_eq_some_iff, List.forall₂_cons_left_iff]
    refine exists_congr fun b => ?_
    rw [Option.bind_eq_bind, Option.bind_eq_some_iff]
    constructor
    · rintro ⟨hb, rest, hrest, h⟩
      exact ⟨rest, hb, ih.mp hrest, (Option.some.inj h).symm⟩
    · rintro ⟨rest, hb, hrest, rfl⟩
      exact ⟨hb, rest, ih.mpr hrest, rfl⟩

/-- It does not fail, if it fails at none of them. -/
theorem exists_mapM (h : ∀ a ∈ l, ∃ b, f a = some b) : ∃ m, l.mapM f = some m := by
  induction l with
  | nil => exact ⟨[], rfl⟩
  | cons a l ih =>
    obtain ⟨b, hb⟩ := h a List.mem_cons_self
    obtain ⟨bs, hbs⟩ := ih fun a ha => h a (List.mem_cons_of_mem _ ha)
    exact ⟨b :: bs, by simp [List.mapM_cons, hb, hbs]⟩

end Fails

/-! ## Functions that may raise -/

section Raises

variable {f : α → Except ε β}

/-- What has not raised has come to a value, and gone on with it. -/
theorem bind_eq_ok_iff {x : Except ε α} {f : α → Except ε β} {b : β} :
    (x >>= f) = .ok b ↔ ∃ a, x = .ok a ∧ f a = .ok b := by
  cases x with
  | error e => exact ⟨nofun, fun ⟨_, h, _⟩ => nomatch h⟩
  | ok a => exact ⟨fun h => ⟨a, rfl, h⟩, fun ⟨_, h, hb⟩ => Except.ok.inj h ▸ hb⟩

/-- A loop that does not raise has a result for each item. -/
theorem mapM_eq_ok_iff : l.mapM f = .ok m ↔ List.Forall₂ (fun a b => f a = .ok b) l m := by
  induction l generalizing m with
  | nil =>
    rw [List.mapM_nil, List.forall₂_nil_left_iff]
    exact ⟨fun h => (Except.ok.inj h).symm, fun h => congrArg Except.ok h.symm⟩
  | cons a l ih =>
    rw [List.mapM_cons, bind_eq_ok_iff, List.forall₂_cons_left_iff]
    refine exists_congr fun b => ?_
    rw [bind_eq_ok_iff]
    constructor
    · rintro ⟨hb, rest, hrest, h⟩
      exact ⟨rest, hb, ih.mp hrest, (Except.ok.inj h).symm⟩
    · rintro ⟨rest, hb, hrest, rfl⟩
      exact ⟨hb, rest, ih.mpr hrest, rfl⟩

/-- All results have a property, if each item has a result that has it. -/
theorem exists_mapM_forall_iff {P : β → Prop} :
    (∃ m, l.mapM f = .ok m ∧ ∀ b ∈ m, P b) ↔ ∀ a ∈ l, ∃ b, f a = .ok b ∧ P b := by
  simp only [mapM_eq_ok_iff]
  constructor
  · rintro ⟨m, hm, hall⟩ a ha
    obtain ⟨b, hb, hab⟩ := exists_of_mem_left hm ha
    exact ⟨b, hab, hall b hb⟩
  · intro h
    induction l with
    | nil => exact ⟨[], .nil, nofun⟩
    | cons a l ih =>
      obtain ⟨⟨b, hab, hb⟩, hrest⟩ := List.forall_mem_cons.mp h
      obtain ⟨m, hm, hall⟩ := ih hrest
      exact ⟨b :: m, .cons hab hm, List.forall_mem_cons.mpr ⟨hb, hall⟩⟩

/-- A loop returns if no item raises. -/
theorem mapM_returns_iff : (∃ m, l.mapM f = .ok m) ↔ ∀ a ∈ l, ∃ b, f a = .ok b := by
  simp only [mapM_eq_ok_iff, exists_forall₂_iff]

/-- What raises has raised before it came to a value, or goes on to raise with it. -/
theorem bind_eq_error_iff {x : Except ε α} {f : α → Except ε β} {e : ε} :
    (x >>= f) = .error e ↔ x = .error e ∨ ∃ a, x = .ok a ∧ f a = .error e := by
  cases x with
  | error e' => exact ⟨fun h => .inl (congrArg Except.error (Except.error.inj h)), fun h =>
      h.elim (fun h => congrArg Except.error (Except.error.inj h)) fun ⟨_, h, _⟩ => nomatch h⟩
  | ok a => exact ⟨fun h => .inr ⟨a, rfl, h⟩, fun h =>
      h.elim nofun fun ⟨_, h, he⟩ => Except.ok.inj h ▸ he⟩

/-- **A loop that raises** does so at the first item that raises. -/
theorem mapM_eq_error_iff {e : ε} :
    l.mapM f = .error e ↔ ∃ before a after, l = before ++ a :: after ∧
      (∀ b ∈ before, ∃ r, f b = .ok r) ∧ f a = .error e := by
  induction l with
  | nil => exact ⟨nofun, fun ⟨before, _, _, h, _⟩ => by simp at h⟩
  | cons a l ih =>
    rw [List.mapM_cons, bind_eq_error_iff]
    constructor
    · rintro (ha | ⟨r, ha, h⟩)
      · exact ⟨[], a, l, rfl, nofun, ha⟩
      · obtain hrest | ⟨_, _, h⟩ := bind_eq_error_iff.mp h
        · obtain ⟨before, b, after, rfl, hbefore, hb⟩ := ih.mp hrest
          exact ⟨a :: before, b, after, rfl, List.forall_mem_cons.mpr ⟨⟨r, ha⟩, hbefore⟩, hb⟩
        · cases h
    · rintro ⟨before, b, after, heq, hbefore, hb⟩
      cases before with
      | nil =>
        obtain ⟨rfl, -⟩ := List.cons_eq_cons.mp heq
        exact .inl hb
      | cons c before =>
        obtain ⟨rfl, rfl⟩ := List.cons_eq_cons.mp heq
        obtain ⟨⟨r, hr⟩, hbefore⟩ := List.forall_mem_cons.mp hbefore
        have hrest : (before ++ b :: after).mapM f = .error e :=
          ih.mpr ⟨before, b, after, rfl, hbefore, hb⟩
        exact .inr ⟨r, hr, bind_eq_error_iff.mpr (.inl hrest)⟩

/-- The errors `f` finds in the items, one item after the other. -/
def collect (f : α → Except ε (List β)) (l : List α) : Except ε (List β) :=
  (l.mapM f).map List.flatten

/-- **No errors** are collected exactly if no item raises and none has any. -/
theorem collect_eq_nil_iff {f : α → Except ε (List β)} :
    collect f l = .ok [] ↔ ∀ a ∈ l, f a = .ok [] := by
  induction l with
  | nil => exact ⟨fun _ _ => nofun, fun _ => rfl⟩
  | cons a l ih =>
    rw [List.forall_mem_cons, ← ih, collect, collect, List.mapM_cons]
    cases f a with
    | error e => exact ⟨nofun, fun h => nomatch h.1⟩
    | ok found =>
      cases l.mapM f with
      | error e => exact ⟨nofun, fun h => nomatch h.2⟩
      | ok rest =>
        simp only [bind, Except.bind, pure, Except.pure, Except.map, Except.ok.injEq,
          List.flatten_cons, List.append_eq_nil_iff]

theorem collect_returns_iff {f : α → Except ε (List β)} :
    (∃ found, collect f l = .ok found) ↔ ∀ a ∈ l, ∃ found, f a = .ok found := by
  rw [← mapM_returns_iff, collect]
  cases l.mapM f <;> simp [Except.map]

end Raises

end Traversal
