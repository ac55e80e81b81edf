/-
Rounding to a binary format, ties to even.

* `halfEven`: the nearest integer, the even one of the two at a tie;
  `halfEven_eq_self_iff` names its fixed points, the integers.
* `BinaryFormat`: a significand width and an exponent range; `roundTo` rounds to the
  nearest multiple of the unit in the last place, `roundExt` overflows to an infinity.
* `roundExt_intCast_eq_self_iff`: an integer is kept exactly when it is an odd part below
  `2 ^ prec` times a power of two (`Representable`).
* `Nearby`: what a filter needs of a rounding, a sign and an error bound;
  `nearby_roundTo` for a format, `nearby_id` for exact arithmetic.
* `binary32`, `binary64`: the formats of a 32-bit and a 64-bit float.
-/
import EmbodiedSynth.Library.ExtNum
import Mathlib.Data.Int.Log
import Mathlib.Algebra.Order.Floor.Ring
import Mathlib.Data.Rat.Floor

namespace Rounding

variable {K : Type*} [Field K] [LinearOrder K] [IsStrictOrderedRing K] [FloorRing K]

/-! ### The nearest integer, ties to even -/

/-- The nearest integer, the even one at a tie. -/
def halfEven (x : K) : ℤ :=
  if Int.fract x < 1 / 2 then ⌊x⌋
  else if 1 / 2 < Int.fract x then ⌊x⌋ + 1
  else if Even ⌊x⌋ then ⌊x⌋ else ⌊x⌋ + 1

@[simp] lemma halfEven_intCast (n : ℤ) : halfEven (n : K) = n := by
  simp [halfEven]

/-- The nearest integer is the number itself exactly on the integers. -/
lemma halfEven_eq_self_iff (x : K) : (halfEven x : K) = x ↔ ∃ n : ℤ, x = n := by
  constructor
  · exact fun h => ⟨halfEven x, h.symm⟩
  · rintro ⟨n, rfl⟩
    rw [halfEven_intCast]

/-- The nearest integer is off by a half at most. -/
lemma abs_halfEven_sub_le (x : K) : |(halfEven x : K) - x| ≤ 1 / 2 := by
  have hfract := Int.floor_add_fract x
  have h0 := Int.fract_nonneg x
  have h1 := Int.fract_lt_one x
  rw [halfEven, abs_le]
  split_ifs <;> push_cast <;> constructor <;> linarith

omit [IsStrictOrderedRing K] in
lemma halfEven_nonneg {x : K} (h : 0 ≤ x) : 0 ≤ halfEven x := by
  have hfloor : 0 ≤ ⌊x⌋ := Int.floor_nonneg.mpr h
  rw [halfEven]
  split_ifs <;> omega

/-! ### Roundings with an error bound -/

/-- A rounding that keeps the sign and whose error is a 24-bit unit at most, relative to the
number from one on and absolute below. -/
structure Nearby (f : K → K) : Prop where
  nonneg : ∀ x, 0 ≤ x → 0 ≤ f x
  error : ∀ x, |f x - x| ≤ max |x| 1 / 2 ^ 24

omit [FloorRing K] in
/-- Exact arithmetic makes no error. -/
lemma nearby_id : Nearby (id : K → K) where
  nonneg _ h := h
  error x := by
    rw [id, sub_self, abs_zero]
    positivity

omit [FloorRing K] in
/-- The error on a number that is at most `c`. -/
lemma Nearby.le_add {f : K → K} (hf : Nearby f) {x c : K} (h0 : 0 ≤ x) (hx : x ≤ c)
    (hc : 1 ≤ c) : f x ≤ x + c / 2 ^ 24 := by
  have herr := (abs_le.mp (hf.error x)).2
  rw [abs_of_nonneg h0] at herr
  have hmax : max x 1 / 2 ^ 24 ≤ c / 2 ^ 24 := by gcongr; exact max_le hx hc
  linarith

/-! ### Binary formats -/

/-- A binary format: the width of its significand and the exponents of its smallest unit
and of its overflow threshold, wide enough for the integers of a machine word. -/
structure BinaryFormat where
  prec : ℕ
  minExp : ℤ
  maxExp : ℤ
  le_prec : 24 ≤ prec
  minExp_le : minExp ≤ -24
  le_maxExp : 64 ≤ maxExp

namespace BinaryFormat

variable (F : BinaryFormat)

/-- The exponent of the unit in the last place of `x`. -/
def unitExp (x : K) : ℤ := max (Int.log 2 |x| - (F.prec - 1)) F.minExp

/-- The nearest multiple of the unit in the last place, ties to even. -/
def roundTo (x : K) : K := (halfEven (x / 2 ^ F.unitExp x) : K) * 2 ^ F.unitExp x

/-- Rounding, with overflow to the infinity of the sign. -/
def roundExt (x : K) : ExtNum K :=
  if |F.roundTo x| < 2 ^ F.maxExp then .fin (F.roundTo x)
  else if F.roundTo x < 0 then .negInf else .posInf

omit [IsStrictOrderedRing K] in
lemma roundExt_ne_nan (x : K) : F.roundExt x ≠ .nan := by
  rw [roundExt]
  split_ifs <;> simp

lemma roundTo_eq_self_iff (x : K) : F.roundTo x = x ↔ ∃ z : ℤ, x = z * 2 ^ F.unitExp x := by
  have h2 : (2 : K) ^ F.unitExp x ≠ 0 := zpow_ne_zero _ two_ne_zero
  rw [roundTo, ← eq_div_iff h2, halfEven_eq_self_iff]
  exact exists_congr fun z => by rw [div_eq_iff h2]

/-- A half unit in the last place, against the number or the smallest unit. -/
lemma zpow_unitExp_le {x : K} (hx : x ≠ 0) : (2 : K) ^ F.unitExp x / 2 ≤ max |x| 1 / 2 ^ 24 := by
  have hprec := F.le_prec
  have hmin := F.minExp_le
  rcases max_choice (Int.log 2 |x| - ((F.prec : ℤ) - 1)) F.minExp with h | h
  · calc (2 : K) ^ F.unitExp x / 2 = 2 ^ Int.log 2 |x| * 2 ^ (-(F.prec : ℤ)) := by
          rw [unitExp, h, ← zpow_add₀ two_ne_zero, div_eq_mul_inv, ← zpow_neg_one,
            ← zpow_add₀ two_ne_zero]
          congr 1; ring
      _ ≤ |x| * 2 ^ (-24 : ℤ) := by
          have hlog : (2 : K) ^ Int.log 2 |x| ≤ |x| := by
            exact_mod_cast Int.zpow_log_le_self (b := 2) (by norm_num) (abs_pos.mpr hx)
          gcongr
          · norm_num
          · omega
      _ ≤ max |x| 1 / 2 ^ 24 := by
          rw [zpow_neg, ← div_eq_mul_inv]
          norm_num
          gcongr
          exact le_max_left _ _
  · calc (2 : K) ^ F.unitExp x / 2 = 2 ^ F.minExp / 2 := by rw [unitExp, h]
      _ ≤ 2 ^ (-24 : ℤ) / 1 := by
          gcongr <;> norm_num
      _ ≤ max |x| 1 / 2 ^ 24 := by
          rw [zpow_neg, div_one, ← one_div]
          norm_num
          gcongr
          exact le_max_right _ _

/-- Rounding to a format keeps the sign and errs by half a unit in the last place. -/
lemma nearby_roundTo : Nearby (F.roundTo : K → K) where
  nonneg x h := by
    have h0 : 0 ≤ halfEven (x / 2 ^ F.unitExp x) := halfEven_nonneg (by positivity)
    exact mul_nonneg (by exact_mod_cast h0) (by positivity)
  error x := by
    rcases eq_or_ne x 0 with rfl | hx
    · simp [roundTo, show halfEven (0 : K) = 0 by exact_mod_cast halfEven_intCast (K := K) 0]
    · have hpos : (0 : K) < 2 ^ F.unitExp x := by positivity
      have hdiff : F.roundTo x - x
          = ((halfEven (x / 2 ^ F.unitExp x) : K) - x / 2 ^ F.unitExp x) * 2 ^ F.unitExp x := by
        rw [sub_mul, div_mul_cancel₀ _ hpos.ne', roundTo]
      rw [hdiff, abs_mul, abs_of_pos hpos]
      calc _ ≤ 1 / 2 * (2 : K) ^ F.unitExp x := by gcongr; exact abs_halfEven_sub_le _
        _ = 2 ^ F.unitExp x / 2 := by ring
        _ ≤ max |x| 1 / 2 ^ 24 := F.zpow_unitExp_le hx

/-- An integer whose odd part fits the significand. -/
def Representable (n : ℤ) : Prop := ∃ (m : ℤ) (k : ℕ), |m| < 2 ^ F.prec ∧ n = m * 2 ^ k

/-- The leading bit of an integer, as a bound from both sides. -/
lemma abs_lt_zpow_log (x : K) : |x| < 2 ^ (Int.log 2 |x| + 1) := by
  exact_mod_cast Int.lt_zpow_succ_log_self (b := 2) (by norm_num) |x|

/-- The unit in the last place of a representable integer divides it. -/
lemma unitExp_le {n m : ℤ} {k : ℕ} (hn : n ≠ 0) (hm : |m| < 2 ^ F.prec) (h : n = m * 2 ^ k) :
    F.unitExp (n : K) ≤ k := by
  have hpos : (0 : K) < |(n : K)| := abs_pos.mpr (Int.cast_ne_zero.mpr hn)
  have hlt : |(n : K)| < ((2 : ℕ) : K) ^ ((F.prec : ℤ) + k) := by
    have hm' : |(m : K)| < 2 ^ F.prec := by exact_mod_cast hm
    rw [h, zpow_add₀ (by norm_num), zpow_natCast, zpow_natCast]
    push_cast
    rw [abs_mul, abs_of_pos (show (0 : K) < 2 ^ k by positivity)]
    exact mul_lt_mul_of_pos_right hm' (by positivity)
  have hlog : Int.log 2 |(n : K)| < (F.prec : ℤ) + k :=
    (Int.lt_zpow_iff_log_lt (by norm_num) hpos).mp hlt
  have hmin := F.minExp_le
  refine max_le ?_ ?_ <;> omega

/-- **The integers a format keeps**: rounding leaves `n` alone exactly when its odd part
fits the significand. -/
theorem roundTo_intCast_eq_self_iff (n : ℤ) :
    F.roundTo (n : K) = n ↔ F.Representable n := by
  rcases eq_or_ne n 0 with rfl | hn
  · refine ⟨fun _ => ⟨0, 0, by positivity, by simp⟩, fun _ => ?_⟩
    simp [roundTo, show halfEven (0 : K) = 0 by exact_mod_cast halfEven_intCast (K := K) 0]
  rw [roundTo_eq_self_iff]
  have h2 : (2 : K) ≠ 0 := two_ne_zero
  constructor
  · rintro ⟨z, hz⟩
    rcases le_or_gt 0 (F.unitExp (n : K)) with hu | hu
    · -- the unit is an integer, and the multiple of it has at most `prec` bits
      obtain ⟨k, hk⟩ := Int.eq_ofNat_of_zero_le hu
      rw [hk] at hz
      refine ⟨z, k, ?_, by exact_mod_cast hz⟩
      have hbound := abs_lt_zpow_log (n : K)
      have hle : Int.log 2 |(n : K)| + 1 ≤ (F.prec : ℤ) + k := by
        have := le_max_left (Int.log 2 |(n : K)| - ((F.prec : ℤ) - 1)) F.minExp
        rw [← unitExp, hk] at this
        omega
      have hlt : |(z : K)| * 2 ^ k < 2 ^ F.prec * 2 ^ k := by
        calc |(z : K)| * 2 ^ k = |(n : K)| := by
              rw [hz, abs_mul]
              rw [zpow_natCast, abs_of_pos (show (0 : K) < 2 ^ k by positivity)]
          _ < 2 ^ (Int.log 2 |(n : K)| + 1) := hbound
          _ ≤ 2 ^ ((F.prec : ℤ) + k) := zpow_le_zpow_right₀ (by norm_num) hle
          _ = 2 ^ F.prec * 2 ^ k := by rw [zpow_add₀ h2, zpow_natCast, zpow_natCast]
      have := lt_of_mul_lt_mul_right hlt (by positivity)
      exact_mod_cast this
    · -- the unit is a fraction: the integer itself has fewer than `prec` bits
      refine ⟨n, 0, ?_, by simp⟩
      have hle : Int.log 2 |(n : K)| + 1 ≤ (F.prec : ℤ) := by
        have := le_max_left (Int.log 2 |(n : K)| - ((F.prec : ℤ) - 1)) F.minExp
        rw [← unitExp] at this
        omega
      have := (abs_lt_zpow_log (n : K)).trans_le (zpow_le_zpow_right₀ (by norm_num) hle)
      rw [zpow_natCast] at this
      exact_mod_cast this
  · rintro ⟨m, k, hm, rfl⟩
    have hu := F.unitExp_le (K := K) hn hm rfl
    generalize F.unitExp ((m * 2 ^ k : ℤ) : K) = u at hu ⊢
    obtain ⟨d, hd⟩ := Int.le.dest hu
    refine ⟨m * 2 ^ d, ?_⟩
    push_cast
    rw [mul_assoc, ← zpow_natCast (2 : K) k, ← hd, zpow_add₀ h2, zpow_natCast, mul_comm (2 ^ d)]

/-- Rounding with overflow keeps the same integers, as far as they lie below the overflow
threshold. -/
theorem roundExt_intCast_eq_self_iff {n : ℤ} (h : |n| < 2 ^ 64) :
    F.roundExt (n : K) = .fin (n : K) ↔ F.Representable n := by
  rw [← roundTo_intCast_eq_self_iff (K := K), roundExt]
  constructor
  · intro hn
    split_ifs at hn
    exact ExtNum.fin.inj hn
  · intro hn
    have habs : |(n : K)| < 2 ^ F.maxExp := by
      have h1 : |(n : K)| < 2 ^ (64 : ℤ) := by exact_mod_cast h
      exact h1.trans_le (zpow_le_zpow_right₀ (by norm_num) F.le_maxExp)
    rw [hn, if_pos habs]

/-- Integers of at most `prec` bits are kept, and so is the first power of two past them. -/
lemma representable_of_abs_le {n : ℤ} (h : |n| ≤ 2 ^ F.prec) : F.Representable n := by
  rcases lt_or_eq_of_le h with hlt | heq
  · exact ⟨n, 0, hlt, by simp⟩
  · have h1 : (1 : ℤ) < 2 ^ F.prec :=
      one_lt_pow₀ (by norm_num) (by have := F.le_prec; omega)
    rcases abs_choice n with hn | hn
    · exact ⟨1, F.prec, by simpa using h1, by rw [← heq, hn, one_mul]⟩
    · exact ⟨-1, F.prec, by simpa using h1, by rw [← heq, hn]; ring⟩

/-- The arithmetic of a format, over a power function. -/
def toArith (pow : ExtNum K → ExtNum K → ExtNum K) : FloatArith K where
  round := F.roundExt
  round_ne_nan := F.roundExt_ne_nan
  round_intCast n hn := by
    have hprec : (2 : ℤ) ^ 24 ≤ 2 ^ F.prec := pow_le_pow_right₀ (by norm_num) F.le_prec
    refine (F.roundExt_intCast_eq_self_iff ?_).mpr (F.representable_of_abs_le (hn.trans hprec))
    exact hn.trans_lt (by norm_num)
  pow := pow

end BinaryFormat

/-- The format of a 32-bit float. -/
def binary32 : BinaryFormat where
  prec := 24
  minExp := -149
  maxExp := 128
  le_prec := le_rfl
  minExp_le := by norm_num
  le_maxExp := by norm_num

/-- The format of a 64-bit float. -/
def binary64 : BinaryFormat where
  prec := 53
  minExp := -1074
  maxExp := 1024
  le_prec := by norm_num
  minExp_le := by norm_num
  le_maxExp := by norm_num

/-- The arithmetic of a 32-bit float on the rationals. -/
def float32 : FloatArith ℚ := binary32.toArith FloatArith.ratPow

end Rounding
