/-
The calibrated pitch, in exact arithmetic.

`updatePitch` takes the fraction of the way from the relaxed to the stretched position, clamps it,
and raises the width of the band to it.  The way may run up or down.

* `fraction`: the clamped fraction; it is 0 where the positions are too close to divide by their
  difference.
* `freq_updatePitch`: the pitch `updatePitch` computes is a power of the fraction.
* `pitch`: the pitch of a reading between two positions; `pitch_exact` over the reals.
* `pitch_law`: the map is onto the ends of the band, stays in it, keeps the order, and is inverted
  by exchanging the positions.
-/
import EmbodiedSynth.Library.Ramp
import EmbodiedSynth.Synths2Sensors.Sketch
import Mathlib.Analysis.SpecialFunctions.Pow.Real

namespace EmbodiedSynth.Synths2Sensors

open ExtNum FloatArith Processing

/-! ### The fraction of the way -/

section Fraction

variable {K : Type*} [Field K] [LinearOrder K]

/-- Whether the positions are too close to divide by their difference. -/
def TooClose (r t : K) : Prop := |t - r| < ((1 / 1000 : ℚ) : K)

instance (r t : K) : Decidable (TooClose r t) := inferInstanceAs (Decidable (_ < _))

/-- The clamped fraction of the way from the relaxed to the stretched position. -/
def fraction (r t v : K) : K := if TooClose r t then 0 else ramp r t 0 1 v

variable [IsStrictOrderedRing K]

lemma ne_of_not_tooClose {r t : K} (h : ¬ TooClose r t) : r ≠ t := by
  rintro rfl
  refine h ?_
  rw [TooClose, sub_self, abs_zero]
  exact_mod_cast (show (0 : ℚ) < 1 / 1000 by norm_num)

/-- The pitch is a power of the normalised reading. -/
lemma freq_updatePitch (pow : ExtNum K → ExtNum K → ExtNum K) (s : State K) :
    (updatePitch (.exact pow) s).freq
      = (exact pow).mul (minFreq K) (pow (.fin 10) (updatePitch (.exact pow) s).normalized) := by
  have hwidth : (exact pow).div (maxFreq K) (minFreq K) = .fin 10 := by
    rw [maxFreq, minFreq, ofNat_eq, ofNat_eq, div_fin _ _ (by norm_num), exact_round]
    norm_num
  rw [← hwidth]
  rfl

/-- At the ends of the way the pitch is at the ends of the band. -/
lemma freq_of_normalized {pow : ExtNum K → ExtNum K → ExtNum K} (hpow : LawfulPow pow)
    {s : State K} :
    ((updatePitch (.exact pow) s).normalized = .fin 0 →
        (updatePitch (.exact pow) s).freq = minFreq K)
      ∧ ((updatePitch (.exact pow) s).normalized = .fin 1 →
        (updatePitch (.exact pow) s).freq = maxFreq K) := by
  rw [freq_updatePitch]
  refine ⟨fun h => ?_, fun h => ?_⟩
  · rw [h, hpow.pow_zero]
    exact congrArg fin (mul_one 100)
  · rw [h, hpow.pow_one]
    refine congrArg fin ?_
    norm_num

section Positions

variable (pow : ExtNum K → ExtNum K → ExtNum K) {s : State K} {r t : K}
  (hr : s.relaxedSensor = .fin r) (ht : s.stretchedSensor = .fin t)

include hr ht

omit [IsStrictOrderedRing K] in
/-- The guard of the division. -/
lemma guard_iff : ((exact pow).sub s.stretchedSensor s.relaxedSensor).abs
    < literal (.exact pow) (1 / 1000) ↔ TooClose r t := by
  rw [hr, ht, sub_fin, exact_round]
  exact fin_lt_fin

/-- Positions too close together normalise every reading to 0, NaN included. -/
lemma normalized_of_tooClose (h : TooClose r t) :
    (updatePitch (.exact pow) s).normalized = .fin 0 := by
  simp only [updatePitch, if_pos ((guard_iff pow hr ht).mpr h)]
  exact (clamp_fin zero_le_one).trans (by simp)

/-- A finite reading is normalised to its fraction of the way. -/
lemma normalized_eq {v : K} (hv : s.smoothedValue = .fin v) :
    (updatePitch (.exact pow) s).normalized = .fin (fraction r t v) := by
  by_cases hclose : TooClose r t
  · rw [normalized_of_tooClose pow hr ht hclose, fraction, if_pos hclose]
  · have hne : t - r ≠ 0 := sub_ne_zero.mpr (ne_of_not_tooClose hclose).symm
    simp only [updatePitch, if_neg (mt (guard_iff pow hr ht).mp hclose)]
    rw [hr, ht, hv, sub_fin, sub_fin, exact_round, exact_round, div_fin _ _ hne, exact_round,
      fraction, if_neg hclose, Ramp.ramp_unit]
    exact clamp_fin zero_le_one

end Positions

end Fraction

/-! ### The pitch over the reals -/

/-- The real power. -/
noncomputable def realPow : ExtNum ℝ → ExtNum ℝ → ExtNum ℝ
  | .fin x, .fin y => .fin (x ^ y)
  | _, _ => .nan

/-- Exact arithmetic on the reals. -/
noncomputable def exactReal : FloatArith ℝ := exact realPow

lemma lawfulPow_realPow : LawfulPow realPow where
  pow_zero x := congrArg fin (Real.rpow_zero x)
  pow_one x := congrArg fin (Real.rpow_one x)

/-- The pitch `updatePitch` computes for a reading between two positions. -/
noncomputable def pitch (s : State ℝ) (relaxed stretched reading : ExtNum ℝ) : ExtNum ℝ :=
  (updatePitch exactReal
    { s with
      relaxedSensor := relaxed
      stretchedSensor := stretched
      smoothedValue := reading }).freq

lemma pitch_exact (s : State ℝ) (r t v : ℝ) :
    pitch s (.fin r) (.fin t) (.fin v) = .fin (100 * (10 : ℝ) ^ fraction r t v) := by
  rw [pitch, exactReal, freq_updatePitch, normalized_eq realPow rfl rfl rfl]
  rfl

/-- Where the positions are too close every reading has the pitch of the foot. -/
lemma pitch_of_tooClose (s : State ℝ) {r t : ℝ} (h : TooClose r t) (reading : ExtNum ℝ) :
    pitch s (.fin r) (.fin t) reading = minFreq ℝ :=
  (freq_of_normalized lawfulPow_realPow).1 (normalized_of_tooClose realPow rfl rfl h)

lemma tooClose_iff {r t : ℝ} : TooClose r t ↔ |t - r| < 1 / 1000 := by
  rw [TooClose]
  norm_num

section Law

variable (s : State ℝ) {r t : ℝ} (h : ¬ TooClose r t)

include h

/-- The pitch of positions far enough apart. -/
lemma pitch_eq_ramp (v : ℝ) :
    pitch s (.fin r) (.fin t) (.fin v) = .fin (100 * (10 : ℝ) ^ ramp r t 0 1 v) := by
  rw [pitch_exact, fraction, if_neg h]

/-- The positions have the pitches of the ends of the band. -/
lemma pitch_ends : pitch s (.fin r) (.fin t) (.fin r) = minFreq ℝ
    ∧ pitch s (.fin r) (.fin t) (.fin t) = maxFreq ℝ := by
  have hne := ne_of_not_tooClose h
  rw [pitch_eq_ramp s h, pitch_eq_ramp s h, Ramp.ramp_unit_eq_zero hne (by simp),
    Ramp.ramp_unit_eq_one hne (by simp), Real.rpow_zero, Real.rpow_one]
  refine ⟨congrArg fin (mul_one 100), congrArg fin ?_⟩
  norm_num

/-- Every pitch lies in the band. -/
lemma pitch_mem (v : ℝ) : minFreq ℝ ≤ pitch s (.fin r) (.fin t) (.fin v)
    ∧ pitch s (.fin r) (.fin t) (.fin v) ≤ maxFreq ℝ := by
  obtain ⟨h0, h1⟩ := Ramp.ramp_unit_mem r t v
  have hlow : (10 : ℝ) ^ (0 : ℝ) ≤ 10 ^ ramp r t 0 1 v :=
    Real.rpow_le_rpow_of_exponent_le (by norm_num) h0
  have hhigh : (10 : ℝ) ^ ramp r t 0 1 v ≤ 10 ^ (1 : ℝ) :=
    Real.rpow_le_rpow_of_exponent_le (by norm_num) h1
  rw [Real.rpow_zero] at hlow
  rw [Real.rpow_one] at hhigh
  rw [pitch_eq_ramp s h]
  refine ⟨fin_le_fin.mpr ?_, fin_le_fin.mpr ?_⟩
  · calc (100 : ℝ) = 100 * 1 := (mul_one _).symm
      _ ≤ 100 * 10 ^ ramp r t 0 1 v := by gcongr
  · calc 100 * (10 : ℝ) ^ ramp r t 0 1 v ≤ 100 * 10 := by gcongr
      _ = 1000 := by norm_num

/-- Along the way the pitch does not fall, and between the positions it rises. -/
lemma pitch_mono {v w : ℝ} (hvw : 0 ≤ (w - v) * (t - r)) :
    pitch s (.fin r) (.fin t) (.fin v) ≤ pitch s (.fin r) (.fin t) (.fin w)
      ∧ (v ≠ w → v ∈ Set.uIcc r t → w ∈ Set.uIcc r t →
        pitch s (.fin r) (.fin t) (.fin v) < pitch s (.fin r) (.fin t) (.fin w)) := by
  have hne := ne_of_not_tooClose h
  rw [pitch_eq_ramp s h, pitch_eq_ramp s h]
  refine ⟨fin_le_fin.mpr ?_, fun hvw' hv hw => fin_lt_fin.mpr ?_⟩
  · have hpow := Real.rpow_le_rpow_of_exponent_le (show (1 : ℝ) ≤ 10 by norm_num)
      (Ramp.ramp_unit_mono hne hvw)
    linarith
  · have hpos : 0 < (w - v) * (t - r) :=
      hvw.lt_of_ne' (mul_ne_zero (sub_ne_zero.mpr hvw'.symm) (sub_ne_zero.mpr hne.symm))
    have hpow := Real.rpow_lt_rpow_of_exponent_lt (show (1 : ℝ) < 10 by norm_num)
      (Ramp.ramp_unit_lt hv hw hpos)
    linarith

/-- Exchanging the positions inverts the pitch. -/
lemma pitch_swap (v : ℝ) : exactReal.mul (pitch s (.fin r) (.fin t) (.fin v))
    (pitch s (.fin t) (.fin r) (.fin v)) = exactReal.mul (minFreq ℝ) (maxFreq ℝ) := by
  have hback : ¬ TooClose t r := by rwa [TooClose, abs_sub_comm]
  rw [pitch_eq_ramp s h, pitch_eq_ramp s hback, Ramp.ramp_unit_swap (ne_of_not_tooClose h)]
  refine congrArg fin ?_
  generalize ramp r t 0 1 v = x
  calc 100 * (10 : ℝ) ^ x * (100 * 10 ^ (1 - x)) = 100 * 100 * (10 ^ x * 10 ^ (1 - x)) := by ring
    _ = 100 * 100 * 10 ^ (1 : ℝ) := by rw [← Real.rpow_add (by norm_num), add_sub_cancel]
    _ = 100 * 1000 := by rw [Real.rpow_one]; norm_num

end Law

/-- **The calibrated pitch map**: for positions not too close it takes them to the ends of the
band, stays in the band, keeps the order of the readings along the way from the relaxed to the
stretched position, strictly between the two, and exchanging the positions inverts it about the
middle of the band; for positions too close it is the foot of the band on every reading. -/
theorem pitch_law (s : State ℝ) (r t : ℝ) :
    (1 / 1000 ≤ |t - r| →
      pitch s (.fin r) (.fin t) (.fin r) = minFreq ℝ
        ∧ pitch s (.fin r) (.fin t) (.fin t) = maxFreq ℝ
        ∧ (∀ v : ℝ, minFreq ℝ ≤ pitch s (.fin r) (.fin t) (.fin v)
          ∧ pitch s (.fin r) (.fin t) (.fin v) ≤ maxFreq ℝ)
        ∧ (∀ v w : ℝ, 0 ≤ (w - v) * (t - r) →
          pitch s (.fin r) (.fin t) (.fin v) ≤ pitch s (.fin r) (.fin t) (.fin w)
            ∧ (v ≠ w → v ∈ Set.uIcc r t → w ∈ Set.uIcc r t →
              pitch s (.fin r) (.fin t) (.fin v) < pitch s (.fin r) (.fin t) (.fin w)))
        ∧ ∀ v : ℝ, exactReal.mul (pitch s (.fin r) (.fin t) (.fin v))
            (pitch s (.fin t) (.fin r) (.fin v)) = exactReal.mul (minFreq ℝ) (maxFreq ℝ))
      ∧ (|t - r| < 1 / 1000 → ∀ reading : ExtNum ℝ,
        pitch s (.fin r) (.fin t) reading = minFreq ℝ) := by
  refine ⟨fun hfar => ?_, fun hnear => pitch_of_tooClose s (tooClose_iff.mpr hnear)⟩
  have h : ¬ TooClose r t := mt tooClose_iff.mp (not_lt.mpr hfar)
  exact ⟨(pitch_ends s h).1, (pitch_ends s h).2, pitch_mem s h, fun v w => pitch_mono s h,
    pitch_swap s h⟩

/-- Between the positions `clearCalibration` sets, and between two equal ones. -/
theorem pitch_law_cleared :
    (pitch (init exactReal) (.fin 615) (.fin 650) (.fin 615) = minFreq ℝ
        ∧ pitch (init exactReal) (.fin 615) (.fin 650) (.fin 650) = maxFreq ℝ)
      ∧ pitch (init exactReal) (.fin 615) (.fin 615) (.fin 650) = minFreq ℝ := by
  have hfar := (pitch_law (init exactReal) 615 650).1 (by norm_num)
  exact ⟨⟨hfar.1, hfar.2.1⟩, (pitch_law (init exactReal) 615 615).2 (by norm_num) (.fin 650)⟩

end EmbodiedSynth.Synths2Sensors
