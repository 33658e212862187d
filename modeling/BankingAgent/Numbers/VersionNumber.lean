import BankingAgent.Numbers.IsoFormat

/-!
# Versions as texts

A version is three numbers, and is written as these in decimal with points between them. Versions
are ordered by their numbers, one after the other; their texts are ordered by the decimal texts of
the numbers, one after the other. The two orders differ as soon as two numbers have different
numbers of digits: `9` comes behind `10` as a text.

* `VersionNumber` — three numbers, and their order.
* `text_le_iff` — texts are ordered by their parts.
* `parts_le_iff_of_length_eq` — with equally many digits for each number they agree.
-/

/-- Two texts with a separator that comes before all of their characters are ordered by what stands
before it, and then by what stands behind it. -/
theorem List.append_cons_lt_append_cons_iff {α : Type} [LinearOrder α] {a a' : List α} {sep : α}
    (b b' : List α) (ha : ∀ c ∈ a, sep < c) (ha' : ∀ c ∈ a', sep < c) :
    a ++ sep :: b < a' ++ sep :: b' ↔ a < a' ∨ a = a' ∧ b < b' := by
  induction a generalizing a' with
  | nil =>
    cases a' with
    | nil => simp
    | cons y a' => simp [List.cons_lt_cons_iff, ha' y]
  | cons x a ih =>
    obtain ⟨hx, ha⟩ := List.forall_mem_cons.mp ha
    cases a' with
    | nil => simp [List.cons_lt_cons_iff, hx.not_gt, hx.ne']
    | cons y a' =>
      obtain ⟨hy, ha'⟩ := List.forall_mem_cons.mp ha'
      simp only [List.cons_append, List.cons_lt_cons_iff, ih ha ha', List.cons.injEq]
      tauto

/-- `major.minor.patch`. -/
@[ext]
structure VersionNumber : Type where
  major : ℕ
  minor : ℕ
  patch : ℕ
  deriving DecidableEq

namespace VersionNumber

/-- The numbers, the most important first. -/
def fields (v : VersionNumber) : List ℕ := [v.major, v.minor, v.patch]

theorem fields_injective : Function.Injective fields := by
  intro v w h
  simp only [fields, List.cons.injEq] at h
  obtain ⟨h₁, h₂, h₃, -⟩ := h
  exact VersionNumber.ext h₁ h₂ h₃

/-- Versions are compared number by number. -/
instance : LinearOrder VersionNumber := LinearOrder.lift' fields fields_injective

/-- The decimal texts of the numbers. -/
def parts (v : VersionNumber) : List (List Char) := v.fields.map (Nat.toDigits 10)

/-- The text of a version. -/
def text (v : VersionNumber) : String :=
  String.ofList (Nat.toDigits 10 v.major ++ '.' :: (Nat.toDigits 10 v.minor ++ '.' ::
    Nat.toDigits 10 v.patch))

variable {v w : VersionNumber} {n m : ℕ}

theorem toDigits_injective : Function.Injective (Nat.toDigits 10) := by
  intro n m h
  rw [← Nat.ofDigitChars_ten_toDigits (n := n), h, Nat.ofDigitChars_ten_toDigits]

theorem parts_injective : Function.Injective parts :=
  (List.map_injective_iff.mpr toDigits_injective).comp fields_injective

/-- The point comes before the digits. -/
theorem point_lt_of_mem {c : Char} (hc : c ∈ Nat.toDigits 10 n) : '.' < c := by
  have hdigit : c.isDigit = true := Nat.isDigit_of_mem_toDigits (by decide) le_rfl hc
  have hzero : '0' ≤ c := by
    simp only [Char.isDigit, Bool.and_eq_true, decide_eq_true_eq] at hdigit
    exact hdigit.1
  exact lt_of_lt_of_le (by decide) hzero

/-- **Texts of versions** are ordered by their parts. -/
theorem text_lt_iff : v.text < w.text ↔ v.parts < w.parts := by
  rw [text, text, String.lt_iff_toList_lt, String.toList_ofList, String.toList_ofList,
    List.append_cons_lt_append_cons_iff _ _ (fun _ => point_lt_of_mem) fun _ => point_lt_of_mem,
    List.append_cons_lt_append_cons_iff _ _ (fun _ => point_lt_of_mem) fun _ => point_lt_of_mem]
  simp [parts, fields, List.cons_lt_cons_iff]

theorem text_le_iff : v.text ≤ w.text ↔ v.parts ≤ w.parts := by
  rw [← not_lt, ← not_lt, text_lt_iff]

theorem text_injective : Function.Injective text := by
  intro v w h
  apply parts_injective
  exact le_antisymm (text_le_iff.mp h.le) (text_le_iff.mp h.ge)

/-- A number is written with as many digits as it needs. -/
theorem toDigits_eq_fixedDigits (n : ℕ) :
    Nat.toDigits 10 n = fixedDigits (Nat.toDigits 10 n).length n := by
  induction n using Nat.strongRecOn with
  | ind n ih =>
    by_cases hn : n < 10
    · rw [Nat.toDigits_of_lt_base hn]
      simp [fixedDigits, Nat.mod_eq_of_lt hn]
    · rw [Nat.toDigits_of_base_le (by decide) (by omega), List.length_append, List.length_singleton,
        fixedDigits, ← ih (n / 10) (by omega)]

/-- Numbers with equally many digits are ordered like their texts. -/
theorem toDigits_lt_iff (h : (Nat.toDigits 10 n).length = (Nat.toDigits 10 m).length) :
    Nat.toDigits 10 n < Nat.toDigits 10 m ↔ n < m := by
  have hwidth : ∀ k, k < 10 ^ (Nat.toDigits 10 k).length := by
    intro k
    apply (Nat.length_toDigits_le_iff (by decide) Nat.length_toDigits_pos).mp
    exact le_rfl
  rw [toDigits_eq_fixedDigits n, toDigits_eq_fixedDigits m, ← h]
  apply fixedDigits_lt_iff (hwidth n)
  rw [h]
  exact hwidth m

/-- **Equally many digits**, number by number: the texts are ordered like the versions. -/
theorem parts_le_iff_of_length_eq (h : v.parts.map List.length = w.parts.map List.length) :
    v.parts ≤ w.parts ↔ v ≤ w := by
  simp only [parts, fields, List.map_cons, List.map_nil, List.cons.injEq] at h
  obtain ⟨h₁, h₂, h₃, -⟩ := h
  rw [← not_lt, ← not_lt]
  change ¬ w.parts < v.parts ↔ ¬ w.fields < v.fields
  simp [parts, fields, List.cons_lt_cons_iff, toDigits_lt_iff h₁.symm, toDigits_lt_iff h₂.symm,
    toDigits_lt_iff h₃.symm, toDigits_injective.eq_iff]

end VersionNumber
