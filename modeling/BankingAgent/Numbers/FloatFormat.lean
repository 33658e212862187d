import Mathlib.Data.Int.Log
import Mathlib.Data.Rat.Floor
import Mathlib.Tactic.Positivity

/-!
# Floating-point numbers

The numbers of a binary format with a precision and a range of exponents: the rationals it can
represent, two infinities and `NaN`. The sign of a zero is not kept; no comparison sees it.

* `FloatFormat.value` — rounding to the nearest, ties to even.
* `FloatFormat.value_between` — between zero and a number of the format, rounding stays between
  them.
* `Number` — the numbers, with comparisons that are false for `NaN`, and subtraction.
-/

/-- A format: its precision, its least exponent, and the exponent at which it overflows. -/
structure FloatFormat : Type where
  precision : ℕ
  minExp : ℤ
  maxExp : ℤ
  pos : 0 < precision

namespace FloatFormat

/-- The format of `float`. -/
def binary64 : FloatFormat := ⟨53, -1074, 1024, by decide⟩

/-- Rounding to an integer: to the nearest, ties to even. -/
def roundHalfEven (x : ℚ) : ℤ :=
  if x - ⌊x⌋ < 1 / 2 then ⌊x⌋
  else if 1 / 2 < x - ⌊x⌋ then ⌊x⌋ + 1
  else if ⌊x⌋ % 2 = 0 then ⌊x⌋ else ⌊x⌋ + 1

variable (F : FloatFormat)

/-- The exponent of the last place of a number. -/
def ulpExp (q : ℚ) : ℤ := max (Int.log 2 |q| - (F.precision - 1)) F.minExp

/-- A multiple of its last place that does not overflow. -/
def Representable (q : ℚ) : Prop := (∃ k : ℤ, q = k * 2 ^ F.ulpExp q) ∧ |q| < 2 ^ F.maxExp

/-- The nearest multiple of the last place. -/
def value (q : ℚ) : ℚ := roundHalfEven (q / 2 ^ F.ulpExp q) * 2 ^ F.ulpExp q

/-! ## Rounding -/

section Round

variable {F} {q b : ℚ}

theorem floor_le_roundHalfEven (x : ℚ) : ⌊x⌋ ≤ roundHalfEven x := by
  rw [roundHalfEven]
  split_ifs <;> omega

theorem roundHalfEven_le_ceil (x : ℚ) : roundHalfEven x ≤ ⌈x⌉ := by
  have hfloor : ⌊x⌋ ≤ ⌈x⌉ := Int.floor_le_ceil x
  by_cases hint : x - ⌊x⌋ < 1 / 2
  · rw [roundHalfEven, if_pos hint]
    exact hfloor
  · -- otherwise there is something above the floor
    have hlt : (⌊x⌋ : ℚ) < x := by linarith
    have hceil : ⌊x⌋ + 1 ≤ ⌈x⌉ := Int.lt_ceil.mpr hlt
    rw [roundHalfEven, if_neg hint]
    split_ifs <;> omega

theorem two_zpow_pos (e : ℤ) : (0 : ℚ) < 2 ^ e := zpow_pos (by norm_num) e

/-- A multiple of a power of two is one of any smaller power. -/
theorem exists_mul_zpow (n : ℤ) {e f : ℤ} (h : f ≤ e) : ∃ k : ℤ, (n : ℚ) * 2 ^ e = k * 2 ^ f := by
  obtain ⟨m, hm⟩ := Int.le.dest h
  refine ⟨n * 2 ^ m, ?_⟩
  rw [← hm, zpow_add₀ (by norm_num : (2 : ℚ) ≠ 0), zpow_natCast]
  push_cast
  ring

/-- What is rounded has at most as many digits as the format. -/
theorem abs_lt_of_ulpExp (q : ℚ) : |q| < 2 ^ (F.precision + F.ulpExp q) := by
  refine (Int.lt_zpow_succ_log_self (b := 2) (by decide) |q|).trans_le ?_
  refine zpow_le_zpow_right₀ (by norm_num : (1 : ℚ) ≤ 2) ?_
  have hle : Int.log 2 |q| - (F.precision - 1) ≤ F.ulpExp q := le_max_left _ _
  omega

theorem abs_roundHalfEven_le (q : ℚ) :
    |roundHalfEven (q / 2 ^ F.ulpExp q)| ≤ 2 ^ F.precision := by
  have hpos := two_zpow_pos (F.ulpExp q)
  have habs : |q / 2 ^ F.ulpExp q| < 2 ^ F.precision := by
    rw [abs_div, abs_of_pos hpos, div_lt_iff₀ hpos, ← zpow_natCast,
      ← zpow_add₀ (by norm_num : (2 : ℚ) ≠ 0)]
    exact abs_lt_of_ulpExp q
  obtain ⟨hlow, hhigh⟩ := abs_lt.mp habs
  refine abs_le.mpr ⟨le_trans ?_ (floor_le_roundHalfEven _),
    (roundHalfEven_le_ceil _).trans ?_⟩
  · refine Int.le_floor.mpr ?_
    push_cast
    exact hlow.le
  · refine Int.ceil_le.mpr ?_
    push_cast
    exact hhigh.le

/-- With no more digits than the format has, a number is a multiple of its last place. -/
theorem exists_mul_ulp {n e : ℤ} (hmin : F.minExp ≤ e) (hdigits : |n| < 2 ^ F.precision) :
    ∃ k : ℤ, (n : ℚ) * 2 ^ e = k * 2 ^ F.ulpExp (n * 2 ^ e) := by
  by_cases hzero : n = 0
  · exact ⟨0, by simp [hzero]⟩
  · have hlt : |(n : ℚ) * 2 ^ e| < 2 ^ (F.precision + e) := by
      rw [abs_mul, abs_of_pos (two_zpow_pos e), ← Int.cast_abs,
        zpow_add₀ (by norm_num : (2 : ℚ) ≠ 0), zpow_natCast]
      refine mul_lt_mul_of_pos_right ?_ (two_zpow_pos e)
      exact_mod_cast hdigits
    have hpos : 0 < |(n : ℚ) * 2 ^ e| := by
      have := two_zpow_pos e
      positivity
    have hlog : Int.log 2 |(n : ℚ) * 2 ^ e| < F.precision + e :=
      (Int.lt_zpow_iff_log_lt (by decide) hpos).mp (by exact_mod_cast hlt)
    exact exists_mul_zpow n (max_le (by omega) hmin)

/-- A power of two is twice another one, with either sign. -/
theorem exists_two_mul {n : ℤ} {p : ℕ} (hp : 0 < p) (h : |n| = 2 ^ p) :
    ∃ m : ℤ, n = 2 * m ∧ |m| < 2 ^ p := by
  obtain ⟨p, rfl⟩ := Nat.exists_eq_add_of_le' hp
  have hpow : (0 : ℤ) < 2 ^ p := by positivity
  rw [pow_succ] at h ⊢
  rcases abs_choice n with hsign | hsign
  · exact ⟨2 ^ p, by omega, by rw [abs_of_pos hpow]; omega⟩
  · exact ⟨-2 ^ p, by omega, by rw [abs_neg, abs_of_pos hpow]; omega⟩

/-- **Rounding** gives a number of the format, if it does not overflow. -/
theorem value_representable (h : |F.value q| < 2 ^ F.maxExp) : F.Representable (F.value q) := by
  refine ⟨?_, h⟩
  have hbound := abs_roundHalfEven_le (F := F) q
  have hmin : F.minExp ≤ F.ulpExp q := le_max_right _ _
  rw [value]
  rcases hbound.lt_or_eq with hlt | heq
  · exact exists_mul_ulp hmin hlt
  · -- a carry: the number has one digit too many, and that digit is zero
    obtain ⟨m, hm, hdigits⟩ := exists_two_mul F.pos heq
    have hcarry : ((2 * m : ℤ) : ℚ) * 2 ^ F.ulpExp q = m * 2 ^ (F.ulpExp q + 1) := by
      rw [zpow_add₀ (by norm_num : (2 : ℚ) ≠ 0), zpow_one]
      push_cast
      ring
    rw [hm, hcarry]
    exact exists_mul_ulp (by omega) hdigits

theorem roundHalfEven_intCast (n : ℤ) : roundHalfEven n = n := by
  refine le_antisymm ?_ ?_
  · simpa using roundHalfEven_le_ceil n
  · simpa using floor_le_roundHalfEven n

/-- A multiple of its last place is not rounded. -/
theorem value_of_mul_ulp {k : ℤ} (h : q = k * 2 ^ F.ulpExp q) : F.value q = q := by
  have hquot : q / 2 ^ F.ulpExp q = k := by
    rw [div_eq_iff (two_zpow_pos _).ne']
    exact h
  rw [value, hquot, roundHalfEven_intCast, ← h]

/-- A power of two is not rounded, even if it overflows. -/
theorem value_two_zpow {e : ℤ} (hmin : F.minExp ≤ e) : F.value (2 ^ e) = 2 ^ e := by
  obtain ⟨k, hk⟩ := exists_mul_ulp (F := F) (n := 1) hmin
    (by simpa using one_lt_pow₀ (one_lt_two : (1 : ℤ) < 2) F.pos.ne')
  rw [Int.cast_one, one_mul] at hk
  exact value_of_mul_ulp hk

/-- **Between zero and a number of the format** rounding stays between them. -/
theorem value_between (hq : 0 ≤ q) (hle : q ≤ b) (hb : F.Representable b) :
    0 ≤ F.value q ∧ F.value q ≤ b := by
  have hpos := two_zpow_pos (F.ulpExp q)
  have hnonneg : 0 ≤ roundHalfEven (q / 2 ^ F.ulpExp q) :=
    le_trans (Int.floor_nonneg.mpr (div_nonneg hq hpos.le)) (floor_le_roundHalfEven _)
  refine ⟨mul_nonneg (by exact_mod_cast hnonneg) hpos.le, ?_⟩
  rcases hq.eq_or_lt with rfl | hq
  · simpa [value, roundHalfEven] using hle
  · -- the last place of the bound is not below that of the number
    have hulp : F.ulpExp q ≤ F.ulpExp b := by
      refine max_le_max (Int.sub_le_sub_right ?_ _) le_rfl
      rw [abs_of_pos hq, abs_of_pos (hq.trans_le hle)]
      exact Int.log_mono_right hq hle
    obtain ⟨⟨n, hn⟩, -⟩ := hb
    obtain ⟨k, hk⟩ := exists_mul_zpow n hulp
    have hceil : ⌈q / 2 ^ F.ulpExp q⌉ ≤ k := by
      rw [Int.ceil_le, div_le_iff₀ hpos, ← hk, ← hn]
      exact hle
    have hround := (roundHalfEven_le_ceil _).trans hceil
    calc F.value q ≤ k * 2 ^ F.ulpExp q :=
          mul_le_mul_of_nonneg_right (by exact_mod_cast hround) hpos.le
      _ = b := by rw [← hk, ← hn]

/-- An integer with no more digits than the format is one of its numbers. -/
theorem representable_intCast {n : ℤ} (hdigits : |n| < 2 ^ F.precision) (hmin : F.minExp ≤ 0)
    (hmax : F.precision ≤ F.maxExp) : F.Representable n := by
  have hlt : |(n : ℚ)| < 2 ^ (F.precision : ℤ) := by
    rw [zpow_natCast]
    exact_mod_cast hdigits
  refine ⟨?_, hlt.trans_le (zpow_le_zpow_right₀ (by norm_num) hmax)⟩
  simpa using exists_mul_ulp hmin hdigits

end Round

end FloatFormat

/-! ## The numbers -/

/-- A number of a format. -/
inductive Number (F : FloatFormat) : Type where
  | nan
  | inf (negative : Bool)
  | finite (q : ℚ) (h : F.Representable q)

namespace Number

variable {F : FloatFormat}

/-- The number nearest to a rational, or an infinity if that overflows. -/
def round (F : FloatFormat) (q : ℚ) : Number F :=
  if h : |F.value q| < 2 ^ F.maxExp then .finite (F.value q) (FloatFormat.value_representable h)
  else .inf (decide (q < 0))

/-- `<`, which is false for `NaN`. -/
def lt : Number F → Number F → Bool
  | nan, _ => false
  | _, nan => false
  | finite p _, finite q _ => p < q
  | finite _ _, inf negative => !negative
  | inf negative, finite _ _ => negative
  | inf negative, inf negative' => negative && !negative'

/-- `<=`, which is false for `NaN`. -/
def le : Number F → Number F → Bool
  | nan, _ => false
  | _, nan => false
  | finite p _, finite q _ => p ≤ q
  | finite _ _, inf negative => !negative
  | inf negative, finite _ _ => negative
  | inf negative, inf negative' => negative || !negative'

/-- `-`. -/
def sub : Number F → Number F → Number F
  | nan, _ => nan
  | _, nan => nan
  | finite p _, finite q _ => round F (p - q)
  | finite _ _, inf negative => inf (!negative)
  | inf negative, finite _ _ => inf negative
  | inf negative, inf negative' => if negative = negative' then nan else inf negative

/-- A number between two of the format is one itself, unless it is `NaN`. -/
theorem exists_finite {x : Number F} {p r : ℚ} {hp : F.Representable p} {hr : F.Representable r}
    (hnan : x ≠ nan) (hlow : x.le (finite p hp) = false) (hhigh : (finite r hr).lt x = false) :
    ∃ q h, x = finite q h ∧ p < q ∧ q ≤ r := by
  cases x with
  | nan => exact absurd rfl hnan
  | inf negative => cases negative <;> simp [le, lt] at hlow hhigh
  | finite q h => exact ⟨q, h, rfl, by simpa [le] using hlow, by simpa [lt] using hhigh⟩

/-- Rounding never gives `NaN`. -/
theorem round_ne_nan (q : ℚ) : round F q ≠ nan := by
  rw [round]
  split <;> simp

/-- The number is finite and not negative. -/
def FiniteNonNeg (x : Number F) : Prop := ∃ q h, x = finite q h ∧ 0 ≤ q

/-- **Subtraction** of no more than there is leaves something that is finite and not
negative. -/
theorem sub_finiteNonNeg {p q : ℚ} (hp : F.Representable p) (hq : F.Representable q)
    (hpos : 0 ≤ q) (hle : q ≤ p) : (sub (finite p hp) (finite q hq)).FiniteNonNeg := by
  obtain ⟨hlow, hhigh⟩ := FloatFormat.value_between (sub_nonneg.mpr hle) (sub_le_self p hpos) hp
  have hfinite : |F.value (p - q)| < 2 ^ F.maxExp := by
    rw [abs_of_nonneg hlow]
    exact (hhigh.trans (le_abs_self p)).trans_lt hp.2
  exact ⟨_, _, dif_pos hfinite, hlow⟩

end Number
