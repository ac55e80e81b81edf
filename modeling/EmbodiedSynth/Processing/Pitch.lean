/-
The proportional pitch law of the sketches that map a stretch linearly to a frequency.

* `sensorFreq`: the first two statements of their `draw`, an affine map and a clamp.
* `sensorFreq_mem_band`: on every number, infinities included, the frequency lies in the
  band; `sensorFreq_nan`: NaN goes through both statements.
* `sensorFreq_exact`: in exact arithmetic the frequency is a ramp.
-/
import EmbodiedSynth.Library.Ramp
import EmbodiedSynth.Processing.Api

namespace Processing

open ExtNum

variable {K : Type*} [Field K] [LinearOrder K] (A : FloatArith K)

/-- The frequency of a smoothed value: mapped from `minSensor..maxSensor` to the band, then
clamped to it. -/
def sensorFreq (minSensor maxSensor smoothedValue : ExtNum K) : ExtNum K :=
  let freq := map A smoothedValue minSensor maxSensor 100 1000
  constrain freq 100 1000

/-- A frequency of the safe band.  The two comparisons hold of no NaN and no infinity. -/
def InBand (f : ExtNum K) : Prop := 100 ≤ f ∧ f ≤ 1000

@[simp] lemma sensorFreq_nan (minSensor maxSensor : ExtNum K) :
    sensorFreq A minSensor maxSensor .nan = .nan := by
  simp [sensorFreq, map, constrain]

lemma inBand_fin {x : K} : InBand (.fin x) ↔ 100 ≤ x ∧ x ≤ 1000 :=
  and_congr fin_le_fin fin_le_fin

lemma not_inBand_nan : ¬ InBand (ExtNum.nan : ExtNum K) := fun h => not_le_nan _ h.1

/-- A difference of small integers is exact. -/
lemma sub_natCast {m n : ℕ} (hmn : m ≤ n) (h : n - m ≤ 2 ^ 24) :
    A.sub (.fin (n : K)) (.fin (m : K)) = .fin ((n - m : ℕ) : K) := by
  have hround := A.round_intCast ((n - m : ℕ) : ℤ) (by rw [Nat.abs_cast]; exact_mod_cast h)
  rw [Int.cast_natCast] at hround
  rw [FloatArith.sub_fin, ← Nat.cast_sub hmn, hround]

/-- The width of the band. -/
lemma band_width : A.sub 1000 100 = .fin ((900 : ℕ) : K) :=
  sub_natCast A (by norm_num) (by norm_num)

variable [IsStrictOrderedRing K]

/-- **The clamp keeps the band** on every value that is a number. -/
theorem sensorFreq_mem_band {m n : ℕ} (hmn : m < n) (h : n - m ≤ 2 ^ 24) {v : ExtNum K}
    (hv : v ≠ .nan) : InBand (sensorFreq A (.fin (m : K)) (.fin (n : K)) v) := by
  have hpos : (0 : K) < ((n - m : ℕ) : K) := Nat.cast_pos.mpr (Nat.sub_pos_of_lt hmn)
  have hmap : map A v (.fin (m : K)) (.fin (n : K)) 100 1000 ≠ .nan := by
    rw [map, sub_natCast A hmn.le h, band_width]
    refine A.fin_add_ne_nan (A.fin_mul_ne_nan (A.div_fin_ne_nan ?_ hpos) (by norm_num)) _
    exact A.sub_fin_ne_nan hv _
  have hfoot : (100 : ExtNum K) ≤ 1000 := by
    rw [ofNat_eq, ofNat_eq, fin_le_fin]
    norm_num
  exact clamp_mem hfoot hmap

/-- In exact arithmetic the frequency is the ramp from the band's foot to its top. -/
lemma sensorFreq_exact (pow : ExtNum K → ExtNum K → ExtNum K) {a b : K} (hab : a < b) (v : K) :
    sensorFreq (.exact pow) (.fin a) (.fin b) (.fin v) = .fin (ramp a b 100 1000 v) := by
  have hne : b - a ≠ 0 := (sub_pos.mpr hab).ne'
  have hmap : map (.exact pow) (.fin v) (.fin a) (.fin b) 100 1000
      = .fin (100 + (1000 - 100) * ((v - a) / (b - a))) := by
    simp [map, FloatArith.div_fin _ _ hne]
  rw [sensorFreq, hmap]
  exact clamp_fin (by norm_num)

end Processing
