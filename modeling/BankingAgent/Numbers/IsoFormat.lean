import Mathlib.Data.List.Lex
import Mathlib.Data.String.Basic
import Mathlib.Order.Basic
import Mathlib.Tactic.IntervalCases

/-!
# Times as texts

A moment in UTC, its order field by field, and the text of ISO 8601 that leaves out a
fraction of zero. The texts are ordered as the moments are: fields have a fixed width, and the
sign that follows a second without a fraction comes before the point of one.

* `UtcDatetime` — the fields, and their order.
* `isoformat_lt_iff` — texts are ordered like moments.
* `fromisoformat_isoformat` — reading a text gives the moment back.
-/

/-! ## Texts of a fixed width -/

/-- The last digits of a number, as many as the width says. -/
def fixedDigits : ℕ → ℕ → List Char
  | 0, _ => []
  | width + 1, n => fixedDigits width (n / 10) ++ [Nat.digitChar (n % 10)]

@[simp] theorem length_fixedDigits (width n : ℕ) : (fixedDigits width n).length = width := by
  induction width generalizing n with
  | zero => rfl
  | succ width ih => simp [fixedDigits, ih]

/-- Texts whose first parts are equally long are ordered by these first. -/
theorem List.append_lt_append_iff {α : Type} [LinearOrder α] {a a' : List α} (b b' : List α)
    (h : a.length = a'.length) : a ++ b < a' ++ b' ↔ a < a' ∨ a = a' ∧ b < b' := by
  induction a generalizing a' with
  | nil =>
    obtain rfl : a' = [] := List.length_eq_zero_iff.mp h.symm
    simp
  | cons x a ih =>
    obtain ⟨y, a', rfl⟩ := List.exists_cons_of_length_eq_add_one h.symm
    have hlen : a.length = a'.length := by simpa using h
    simp only [List.cons_append, List.cons_lt_cons_iff, ih hlen, List.cons.injEq]
    tauto

theorem digitChar_lt_iff {n m : ℕ} (hn : n < 10) (hm : m < 10) :
    Nat.digitChar n < Nat.digitChar m ↔ n < m := by
  rw [Char.lt_def, UInt32.lt_iff_toNat_lt]
  change (Nat.digitChar n).toNat < (Nat.digitChar m).toNat ↔ _
  rw [Nat.toNat_digitChar_of_lt_ten hn, Nat.toNat_digitChar_of_lt_ten hm]
  omega

/-- **Digits** of one width are ordered like the numbers that have no more of them. -/
theorem fixedDigits_lt_iff {width n m : ℕ} (hn : n < 10 ^ width) (hm : m < 10 ^ width) :
    fixedDigits width n < fixedDigits width m ↔ n < m := by
  induction width generalizing n m with
  | zero =>
    obtain rfl : n = 0 := by omega
    obtain rfl : m = 0 := by omega
    simp
  | succ width ih =>
    have hn' : n / 10 < 10 ^ width := by omega
    have hm' : m / 10 < 10 ^ width := by omega
    have hlast := digitChar_lt_iff (Nat.mod_lt n (by decide)) (Nat.mod_lt m (by decide))
    have heq : fixedDigits width (n / 10) = fixedDigits width (m / 10) ↔ n / 10 = m / 10 := by
      refine ⟨fun h => ?_, fun h => h ▸ rfl⟩
      have hle := (ih hn' hm').not.mp (h ▸ lt_irrefl _)
      have hge := (ih hm' hn').not.mp (h ▸ lt_irrefl _)
      omega
    rw [fixedDigits, fixedDigits, List.append_lt_append_iff _ _ (by simp), ih hn' hm', heq,
      List.cons_lt_cons_iff, hlast]
    simp
    omega

/-- The same for digits that something follows. -/
theorem field_lt_iff {width n m : ℕ} (hn : n < 10 ^ width) (hm : m < 10 ^ width)
    (b b' : List Char) :
    fixedDigits width n ++ b < fixedDigits width m ++ b' ↔ n < m ∨ n = m ∧ b < b' := by
  rw [List.append_lt_append_iff _ _ (by simp), fixedDigits_lt_iff hn hm]
  refine or_congr_right (and_congr_left' ⟨fun h => ?_, fun h => h ▸ rfl⟩)
  have hle := (fixedDigits_lt_iff hn hm).not.mp (h ▸ lt_irrefl _)
  have hge := (fixedDigits_lt_iff hm hn).not.mp (h ▸ lt_irrefl _)
  omega

/-- Reading as many digits as the width says, after what has been read. -/
def readDigits : ℕ → ℕ → List Char → Option (ℕ × List Char)
  | 0, acc, cs => some (acc, cs)
  | width + 1, acc, c :: cs =>
    if c.isDigit then readDigits width (10 * acc + (c.toNat - 48)) cs else none
  | _ + 1, _, [] => none

theorem readDigits_succ (width acc : ℕ) (cs : List Char) :
    readDigits (width + 1) acc cs =
      (readDigits width acc cs).bind fun x => readDigits 1 x.1 x.2 := by
  induction width generalizing acc cs with
  | zero => rfl
  | succ width ih =>
    cases cs with
    | nil => rfl
    | cons c cs =>
      rw [readDigits]
      split
      · rename_i hdigit
        rw [ih, readDigits, if_pos hdigit]
      · rename_i hdigit
        rw [readDigits, if_neg hdigit, Option.bind_none]

/-- **Reading** the digits of a number gives the number back. -/
theorem readDigits_fixedDigits {width n : ℕ} (hn : n < 10 ^ width) (acc : ℕ) (rest : List Char) :
    readDigits width acc (fixedDigits width n ++ rest) = some (acc * 10 ^ width + n, rest) := by
  induction width generalizing n rest with
  | zero =>
    obtain rfl : n = 0 := by omega
    simp [readDigits, fixedDigits]
  | succ width ih =>
    have hlt : n % 10 < 10 := Nat.mod_lt n (by decide)
    have hdigit : (Nat.digitChar (n % 10)).isDigit = true := by
      interval_cases h : n % 10 <;> decide
    rw [readDigits_succ, fixedDigits, List.append_assoc, ih (by omega), Option.bind_some]
    rw [List.singleton_append, readDigits, if_pos hdigit, readDigits,
      Nat.toNat_digitChar_of_lt_ten hlt]
    have hvalue : 10 * (acc * 10 ^ width + n / 10) + (48 + n % 10 - 48) =
        acc * 10 ^ (width + 1) + n := by
      rw [pow_succ, ← mul_assoc]
      omega
    rw [← hvalue]

/-! ## Moments -/

/-- A `datetime` in UTC; the days of a month are not told apart. -/
@[ext]
structure UtcDatetime : Type where
  year : ℕ
  month : ℕ
  day : ℕ
  hour : ℕ
  minute : ℕ
  second : ℕ
  microsecond : ℕ
  year_lt : year < 10000
  month_lt : month < 13
  day_lt : day < 32
  hour_lt : hour < 24
  minute_lt : minute < 60
  second_lt : second < 60
  microsecond_lt : microsecond < 1000000

namespace UtcDatetime

/-- The fields, the coarsest first. -/
def fields (t : UtcDatetime) : List ℕ :=
  [t.year, t.month, t.day, t.hour, t.minute, t.second, t.microsecond]

theorem fields_injective : Function.Injective fields := by
  intro t u h
  simp only [fields, List.cons.injEq] at h
  obtain ⟨h₁, h₂, h₃, h₄, h₅, h₆, h₇, -⟩ := h
  exact UtcDatetime.ext h₁ h₂ h₃ h₄ h₅ h₆ h₇

/-- Moments are compared field by field. -/
instance : LinearOrder UtcDatetime := LinearOrder.lift' fields fields_injective

/-- What follows the seconds: no fraction if it is zero. -/
def fraction (microsecond : ℕ) : List Char :=
  (if microsecond = 0 then [] else '.' :: fixedDigits 6 microsecond) ++ "+00:00".toList

/-- `isoformat()`. -/
def isoformat (t : UtcDatetime) : String :=
  String.ofList (fixedDigits 4 t.year ++ '-' :: (fixedDigits 2 t.month ++ '-' ::
    (fixedDigits 2 t.day ++ 'T' :: (fixedDigits 2 t.hour ++ ':' ::
      (fixedDigits 2 t.minute ++ ':' :: (fixedDigits 2 t.second ++ fraction t.microsecond))))))

variable (t u : UtcDatetime)

/-- The sign comes before the point. -/
theorem fraction_lt_iff {n m : ℕ} (hn : n < 1000000) (hm : m < 1000000) :
    fraction n < fraction m ↔ n < m := by
  have hsign : '+' < '.' := by decide
  have hpoint : ¬ '.' < '+' := by decide
  rcases Nat.eq_zero_or_pos n with rfl | hn0 <;> rcases Nat.eq_zero_or_pos m with rfl | hm0
  · simp
  · simp [fraction, hm0.ne', hm0, List.cons_lt_cons_iff, hsign]
  · simp [fraction, hn0.ne', List.cons_lt_cons_iff, hpoint]
  · simp only [fraction, hn0.ne', hm0.ne', if_false, List.cons_append, List.cons_lt_cons_iff,
      lt_irrefl, false_or, true_and]
    rw [field_lt_iff hn hm]
    simp

/-- A field of two digits and what separates it from the next. -/
theorem pair_lt_iff {n m : ℕ} (hn : n < 100) (hm : m < 100) (c : Char) (b b' : List Char) :
    fixedDigits 2 n ++ c :: b < fixedDigits 2 m ++ c :: b' ↔ n < m ∨ n = m ∧ b < b' := by
  rw [field_lt_iff hn hm, List.cons_lt_cons_iff]
  simp

/-- **Texts are ordered like moments.** -/
theorem isoformat_lt_iff : t.isoformat < u.isoformat ↔ t < u := by
  have hmonth := pair_lt_iff (t.month_lt.trans (by decide)) (u.month_lt.trans (by decide)) '-'
  have hday := pair_lt_iff (t.day_lt.trans (by decide)) (u.day_lt.trans (by decide)) 'T'
  have hhour := pair_lt_iff (t.hour_lt.trans (by decide)) (u.hour_lt.trans (by decide)) ':'
  have hminute := pair_lt_iff (t.minute_lt.trans (by decide)) (u.minute_lt.trans (by decide)) ':'
  change _ ↔ t.fields < u.fields
  rw [isoformat, isoformat, String.lt_iff_toList_lt, String.toList_ofList, String.toList_ofList,
    field_lt_iff (show t.year < 10 ^ 4 from t.year_lt) u.year_lt, List.cons_lt_cons_iff, hmonth,
    hday, hhour, hminute, field_lt_iff (show t.second < 10 ^ 2 from t.second_lt.trans (by decide))
      (u.second_lt.trans (by decide)), fraction_lt_iff t.microsecond_lt u.microsecond_lt]
  simp [fields, List.cons_lt_cons_iff]

theorem isoformat_le_iff : t.isoformat ≤ u.isoformat ↔ t ≤ u := by
  rw [← not_lt, ← not_lt, isoformat_lt_iff]

/-! ## Reading -/

/-- A field and the character after it. -/
def readField (width : ℕ) (separator : Char) (cs : List Char) : Option (ℕ × List Char) :=
  (readDigits width 0 cs).bind fun x =>
    match x.2 with
    | c :: rest => if c = separator then some (x.1, rest) else none
    | [] => none

/-- The fraction of a second, if there is one, and the sign of UTC. -/
def readFraction (cs : List Char) : Option ℕ :=
  if cs = "+00:00".toList then some 0
  else match cs with
    | '.' :: rest =>
      (readDigits 6 0 rest).bind fun x => if x.2 = "+00:00".toList then some x.1 else none
    | _ => none

/-- `datetime.fromisoformat`, on the texts of moments in UTC. -/
def fromisoformat (text : String) : Option UtcDatetime :=
  (readField 4 '-' text.toList).bind fun (year, cs) =>
  (readField 2 '-' cs).bind fun (month, cs) =>
  (readField 2 'T' cs).bind fun (day, cs) =>
  (readField 2 ':' cs).bind fun (hour, cs) =>
  (readField 2 ':' cs).bind fun (minute, cs) =>
  (readDigits 2 0 cs).bind fun (second, cs) =>
  (readFraction cs).bind fun microsecond =>
    if h : year < 10000 ∧ month < 13 ∧ day < 32 ∧ hour < 24 ∧ minute < 60 ∧ second < 60 ∧
        microsecond < 1000000 then
      some { year, month, day, hour, minute, second, microsecond, year_lt := h.1,
             month_lt := h.2.1, day_lt := h.2.2.1, hour_lt := h.2.2.2.1,
             minute_lt := h.2.2.2.2.1, second_lt := h.2.2.2.2.2.1,
             microsecond_lt := h.2.2.2.2.2.2 }
    else none

theorem readField_fixedDigits {width n : ℕ} (hn : n < 10 ^ width) (separator : Char)
    (rest : List Char) :
    readField width separator (fixedDigits width n ++ separator :: rest) = some (n, rest) := by
  simp [readField, readDigits_fixedDigits hn]

theorem readFraction_fraction {n : ℕ} (hn : n < 1000000) : readFraction (fraction n) = some n := by
  rcases Nat.eq_zero_or_pos n with rfl | hpos
  · rfl
  · have hread := readDigits_fixedDigits (show n < 10 ^ 6 from hn) 0 "+00:00".toList
    have htext : fraction n = '.' :: (fixedDigits 6 n ++ "+00:00".toList) := by
      rw [fraction, if_neg hpos.ne', List.cons_append]
    have hne : '.' :: (fixedDigits 6 n ++ "+00:00".toList) ≠ "+00:00".toList := by
      intro h
      have hhead : '.' = '+' := (List.cons.inj h).1
      exact absurd hhead (by decide)
    rw [htext]
    change (if '.' :: (fixedDigits 6 n ++ "+00:00".toList) = "+00:00".toList then some 0
      else (readDigits 6 0 (fixedDigits 6 n ++ "+00:00".toList)).bind fun x =>
        if x.2 = "+00:00".toList then some x.1 else none) = some n
    rw [if_neg hne]
    -- from here on the zone is any text
    generalize "+00:00".toList = zone at hread
    rw [hread, Option.bind_some, if_pos rfl, Nat.zero_mul, Nat.zero_add]

/-- **Reading a text** gives the moment back. -/
theorem fromisoformat_isoformat : fromisoformat t.isoformat = some t := by
  have hyear := readField_fixedDigits (show t.year < 10 ^ 4 from t.year_lt) '-'
  have hmonth := readField_fixedDigits (show t.month < 10 ^ 2 from t.month_lt.trans (by decide)) '-'
  have hday := readField_fixedDigits (show t.day < 10 ^ 2 from t.day_lt.trans (by decide)) 'T'
  have hhour := readField_fixedDigits (show t.hour < 10 ^ 2 from t.hour_lt.trans (by decide)) ':'
  have hminute :=
    readField_fixedDigits (show t.minute < 10 ^ 2 from t.minute_lt.trans (by decide)) ':'
  have hsecond :=
    readDigits_fixedDigits (show t.second < 10 ^ 2 from t.second_lt.trans (by decide)) 0
  have hbounds : t.year < 10000 ∧ t.month < 13 ∧ t.day < 32 ∧ t.hour < 24 ∧ t.minute < 60 ∧
      t.second < 60 ∧ t.microsecond < 1000000 :=
    ⟨t.year_lt, t.month_lt, t.day_lt, t.hour_lt, t.minute_lt, t.second_lt, t.microsecond_lt⟩
  rw [fromisoformat, isoformat, String.toList_ofList, hyear, Option.bind_some]
  simp only [hmonth, hday, hhour, hminute, hsecond, Option.bind_some, Nat.zero_mul, Nat.zero_add,
    readFraction_fraction t.microsecond_lt]
  exact dif_pos hbounds

end UtcDatetime
