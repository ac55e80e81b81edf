/-
The exponential smoothing of the sketches, in the arithmetic of a board.

* `BoardFloat`: how a board rounds to `float` and to `double`; `BoardFloat.ieee` is the
  arithmetic of the boards, `BoardFloat.exact` rounds nothing.
* `floatLiteral`: a float constant of a sketch.
* `smooth`: the smoothing expression the sketches share, with the types the source gives it.
* `smooth_mem`: a smoothed value never leaves the range of the converter by more than one.
-/
import EmbodiedSynth.Library.Rounding

namespace Arduino

open Rounding

variable {K : Type*} [Field K] [LinearOrder K] [IsStrictOrderedRing K]

/-- How a board rounds a result of type `float` and one of type `double`. -/
structure BoardFloat (K : Type*) [Field K] [LinearOrder K] [IsStrictOrderedRing K] where
  toFloat : K → K
  toDouble : K → K
  nearby_toFloat : Nearby toFloat
  nearby_toDouble : Nearby toDouble

/-- Exact arithmetic. -/
def BoardFloat.exact : BoardFloat K where
  toFloat := id
  toDouble := id
  nearby_toFloat := nearby_id
  nearby_toDouble := nearby_id

/-- The arithmetic of the boards: a 32-bit float and a 64-bit double. -/
def BoardFloat.ieee [FloorRing K] : BoardFloat K where
  toFloat := binary32.roundTo
  toDouble := binary64.roundTo
  nearby_toFloat := binary32.nearby_roundTo
  nearby_toDouble := binary64.nearby_roundTo

/-- A float variable set to a decimal literal, which is a double. -/
def floatLiteral (B : BoardFloat K) (x : ℚ) : K := B.toFloat (B.toDouble x)

/-- A reading of the 12-bit converter. -/
abbrev Adc := Fin 4096

/-- `(smoothedValue * (1.0 - smoothing)) + (rawValue * smoothing)`, assigned to a float.  The
literal `1.0` is a double, and so are the first product and the sum; the product with the int
is a float. -/
def smooth (B : BoardFloat K) (smoothing smoothedValue : K) (rawValue : Adc) : K :=
  let kept := B.toDouble (smoothedValue * B.toDouble (1 - smoothing))
  let new := B.toFloat ((rawValue : ℕ) * smoothing)
  B.toFloat (B.toDouble (kept + new))

/-- The range of a smoothed value: that of the converter, and one more for rounding. -/
def InRange (x : K) : Prop := 0 ≤ x ∧ x ≤ 4096

lemma inRange_zero : InRange (0 : K) := ⟨le_rfl, by norm_num⟩

lemma Adc.cast_le (rawValue : Adc) : ((rawValue : ℕ) : K) ≤ 4095 := by
  exact_mod_cast Nat.le_of_lt_succ rawValue.isLt

lemma inRange_adc (rawValue : Adc) : InRange ((rawValue : ℕ) : K) :=
  ⟨Nat.cast_nonneg _, (Adc.cast_le rawValue).trans (by norm_num)⟩

/-- A decimal constant of the sketches keeps away from 0 and 1 in rounding. -/
lemma floatLiteral_mem (B : BoardFloat K) {q : ℚ} (h0 : 1 / 25 ≤ q) (h1 : q ≤ 1 / 5) :
    1 / 100 ≤ floatLiteral B q ∧ floatLiteral B q ≤ 1 / 2 := by
  have hq0 : ((1 / 25 : ℚ) : K) ≤ q := Rat.cast_le.mpr h0
  have hq1 : (q : K) ≤ (1 / 5 : ℚ) := Rat.cast_le.mpr h1
  push_cast at hq0 hq1
  have hdouble := abs_le.mp (B.nearby_toDouble.error (q : K))
  rw [max_eq_right (by rw [abs_of_nonneg] <;> linarith)] at hdouble
  have hfloat := abs_le.mp (B.nearby_toFloat.error (B.toDouble q))
  rw [max_eq_right (by rw [abs_of_nonneg] <;> linarith)] at hfloat
  rw [floatLiteral]
  constructor <;> linarith

/-- **The smoothed value stays in the range of the converter**, up to the rounding, where the
smoothing factor is no smaller than what rounding could undo. -/
theorem smooth_mem (B : BoardFloat K) {a s : K} (ha : 1 / 100 ≤ a ∧ a ≤ 1 / 2) (hs : InRange s)
    (rawValue : Adc) : InRange (smooth B a s rawValue) := by
  obtain ⟨ha0, ha1⟩ := ha
  obtain ⟨hs0, hs1⟩ := hs
  have hraw0 : (0 : K) ≤ (rawValue : ℕ) := Nat.cast_nonneg _
  have hraw1 : ((rawValue : ℕ) : K) ≤ 4095 := Adc.cast_le rawValue
  have hβ0 : 0 ≤ B.toDouble (1 - a) := B.nearby_toDouble.nonneg _ (by linarith)
  have hβ1 : B.toDouble (1 - a) ≤ 1 - a + 1 / 2 ^ 24 :=
    B.nearby_toDouble.le_add (by linarith) (by linarith) le_rfl
  have hkept0 : 0 ≤ s * B.toDouble (1 - a) := mul_nonneg hs0 hβ0
  have hkept1 : s * B.toDouble (1 - a) ≤ 4096 * (1 - a + 1 / 2 ^ 24) := by gcongr
  have hnew0 : 0 ≤ ((rawValue : ℕ) : K) * a := mul_nonneg hraw0 (by linarith)
  have hnew1 : ((rawValue : ℕ) : K) * a ≤ 4095 * a := by gcongr
  have hkept := B.nearby_toDouble.le_add (c := 4096) hkept0 (by linarith) (by norm_num)
  have hnew := B.nearby_toFloat.le_add (c := 4096) hnew0 (by linarith) (by norm_num)
  have hsum0 := add_nonneg (B.nearby_toDouble.nonneg _ hkept0) (B.nearby_toFloat.nonneg _ hnew0)
  have hsum := B.nearby_toDouble.le_add (c := 4096) hsum0 (by linarith) (by norm_num)
  have hres0 := B.nearby_toDouble.nonneg _ hsum0
  have hres := B.nearby_toFloat.le_add (c := 4096) hres0 (by linarith) (by norm_num)
  exact ⟨B.nearby_toFloat.nonneg _ hres0, hres.trans (by linarith)⟩

/-- Smoothing by a decimal constant of the sketches. -/
lemma smooth_literal_mem (B : BoardFloat K) {q : ℚ} (h0 : 1 / 25 ≤ q) (h1 : q ≤ 1 / 5) {s : K}
    (hs : InRange s) (rawValue : Adc) : InRange (smooth B (floatLiteral B q) s rawValue) :=
  smooth_mem B (floatLiteral_mem B h0 h1) hs rawValue

end Arduino
