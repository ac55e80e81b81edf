/-
The silence of `sketch_embodied_synth_cutoff_frequency_white_noise_silence.pde`, on a 32-bit
float.

* `next_float`: around an integer from 2048 to 4096 the floats keep a distance.
* `amp`: the amplitude that `draw` sets; `amp_eq_zero_iff`.
* `silent_iff`: the noise is silent exactly in the frames that show a relaxed sensor, or a
  stretched one.
-/
import EmbodiedSynth.DirectMapping.Laws
import EmbodiedSynth.Synths2Sensors.Amounts

namespace EmbodiedSynth.DirectMapping

open Processing ExtNum FloatArith Rounding

namespace Sketch

/-- A float next to an integer is no nearer than a unit in the last place. -/
lemma next_float {x : ℚ} (h : float32.IsFloat (.fin x)) {n : ℤ} (hn : 2048 < n) :
    ((n : ℚ) < x → (n : ℚ) + 1 / 4096 ≤ x) ∧ (x < n → x ≤ (n : ℚ) - 1 / 4096) := by
  rcases lt_or_ge x 2048 with hsmall | hlarge
  · have hn' : (2049 : ℚ) ≤ n := by exact_mod_cast hn
    constructor <;> intro _ <;> linarith
  · obtain ⟨p, hp⟩ := h x rfl
    have hx := binary32.roundTo_of_roundExt hp
    have hpow : (2 : ℚ) ^ (11 : ℤ) ≤ binary32.roundTo p := by
      rw [hx]
      norm_num
      exact hlarge
    obtain ⟨z, hz⟩ := binary32.exists_roundTo_eq_of_le (by decide) hpow
    rw [hx] at hz
    have hgrid : x = z / 4096 := by
      rw [hz]
      norm_num [binary32]
      ring
    rw [hgrid]
    constructor
    · intro hlt
      rw [lt_div_iff₀ (by norm_num)] at hlt
      have hz : n * 4096 + 1 ≤ z := by exact_mod_cast hlt
      have hz' : (n : ℚ) * 4096 + 1 ≤ z := by exact_mod_cast hz
      rw [le_div_iff₀ (by norm_num)]
      linarith
    · intro hlt
      rw [div_lt_iff₀ (by norm_num)] at hlt
      have hz : z + 1 ≤ n * 4096 := by exact_mod_cast hlt
      have hz' : (z : ℚ) + 1 ≤ n * 4096 := by exact_mod_cast hz
      rw [div_le_iff₀ (by norm_num)]
      linarith

/-- The amplitude that `draw` sets. -/
def amp (silenceWhenStretched : Bool) (v : ExtNum ℚ) : ExtNum ℚ :=
  mapped float32 (control float32 v silenceWhenStretched) 0 1 0 (literal float32 (1 / 4)) 0
    (literal float32 (1 / 4))

lemma precise_float32 : float32.Precise := precise_toArith binary32 ratPow

lemma quarter_nonneg : 0 ≤ literal float32 (1 / 4) :=
  (literal_mem_unit precise_float32.toRegular (by norm_num) (by norm_num)).1

lemma amp_le (silenceWhenStretched : Bool) {v v' : ExtNum ℚ} (h : v ≤ v') :
    amp silenceWhenStretched (if silenceWhenStretched then v' else v)
      ≤ amp silenceWhenStretched (if silenceWhenStretched then v else v') :=
  mapped_le_mapped rising_unit (rising_control precise_float32) quarter_nonneg
    precise_float32.toRegular (control_le precise_float32.toRegular silenceWhenStretched h)

lemma amp_nonneg (silenceWhenStretched : Bool) {v : ExtNum ℚ} (hv : v ≠ .nan) :
    0 ≤ amp silenceWhenStretched v :=
  (mapped_mem rising_unit (rising_control precise_float32) quarter_nonneg
    ((control_ne_nan_iff v silenceWhenStretched).mpr hv)).1

/-- A float that is not on one side of an integer is at least one step on the other. -/
lemma step_le {v : ExtNum ℚ} (hv : float32.IsFloat v) (hne : v ≠ .nan) {n : ℤ} (hn : 2048 < n) :
    (¬ v ≤ .fin (n : ℚ) → .fin ((n : ℚ) + 1 / 4096) ≤ v)
      ∧ (¬ .fin (n : ℚ) ≤ v → v ≤ .fin ((n : ℚ) - 1 / 4096)) := by
  cases v with
  | nan => exact absurd rfl hne
  | negInf => exact ⟨fun h => absurd (negInf_le_fin _) h, fun _ => negInf_le_fin _⟩
  | fin x =>
      obtain ⟨habove, hbelow⟩ := next_float hv hn
      simp only [fin_le_fin, not_le]
      exact ⟨habove, hbelow⟩
  | posInf => exact ⟨fun _ => fin_le_posInf _, fun h => absurd (fin_le_posInf _) h⟩

/-- Below its silent end the sketch is heard. -/
lemma amp_steps : ¬ amp false (.fin (((2450 : ℤ) : ℚ) + 1 / 4096)) ≤ 0
    ∧ ¬ amp true (.fin (((2900 : ℤ) : ℚ) - 1 / 4096)) ≤ 0
    ∧ amp false 2450 = 0 ∧ amp true 2900 = 0 := by
  decide +kernel

/-- The amplitude is zero exactly on the silent side. -/
lemma amp_eq_zero_iff (silenceWhenStretched : Bool) {v : ExtNum ℚ} (hv : float32.IsFloat v) :
    amp silenceWhenStretched v = 0 ↔ if silenceWhenStretched then 2900 ≤ v else v ≤ 2450 := by
  obtain ⟨hfalse, htrue, hrelaxed, hstretched⟩ := amp_steps
  by_cases hne : v = .nan
  · -- NaN is neither silent nor on any side
    subst hne
    cases silenceWhenStretched <;> decide +kernel
  have hnonneg := amp_nonneg silenceWhenStretched hne
  cases silenceWhenStretched with
  | false =>
      simp only [Bool.false_eq_true, if_false]
      constructor
      · intro hzero
        by_contra hsilent
        have hstep := (step_le hv hne (n := 2450) (by norm_num)).1 hsilent
        exact hfalse (hzero ▸ amp_le false hstep)
      · intro hsilent
        exact ExtNum.le_antisymm (hrelaxed ▸ amp_le false hsilent) hnonneg
  | true =>
      simp only [if_true]
      constructor
      · intro hzero
        by_contra hsilent
        have hstep := (step_le hv hne (n := 2900) (by norm_num)).2 hsilent
        exact htrue (hzero ▸ amp_le true hstep)
      · intro hsilent
        exact ExtNum.le_antisymm (hstretched ▸ amp_le true hsilent) hnonneg

lemma isFloat_smoothedValue (S : Sketch) (es : List Event) :
    float32.IsFloat (S.run float32 es).smoothedValue := by
  rw [smoothedValue_run]
  cases S.lastField es with
  | none => cases S <;> exact_mod_cast float32.isFloat_intCast (n := _) (by norm_num)
  | some field => exact Synths2Sensors.isFloat_float float32 field

/-- **The noise is silent exactly in the frames of a relaxed sensor**, or of a stretched one
where the sketch is told so. -/
theorem silent_iff (silenceWhenStretched : Bool) {es : List Event} {f : Frame ℚ}
    (hf : f ∈ ((cutoffFrequencyWhiteNoiseSilence silenceWhenStretched).run float32 es).frames) :
    ⟨.noiseAmp, 0⟩ ∈ f.settings
      ↔ if silenceWhenStretched then 2900 ≤ f.smoothedValue else f.smoothedValue ≤ 2450 := by
  obtain ⟨pre, post, -, rfl⟩ := (mem_frames_iff _ _ _ _).mp hf
  have hfloat := isFloat_smoothedValue (cutoffFrequencyWhiteNoiseSilence silenceWhenStretched) pre
  generalize (run float32 (cutoffFrequencyWhiteNoiseSilence silenceWhenStretched) pre).smoothedValue
    = v at hfloat
  have hmem : ⟨.noiseAmp, 0⟩ ∈ settings float32
      (cutoffFrequencyWhiteNoiseSilence silenceWhenStretched) v
        ↔ amp silenceWhenStretched v = 0 := by
    rw [settings, drawCutoffFrequencyWhiteNoiseSilence]
    simp [amp, eq_comm]
  rw [hmem, amp_eq_zero_iff silenceWhenStretched hfloat]

/-- A frame after a reading between the two ends. -/
theorem silent_iff_line :
    (⟨.noiseAmp, 0⟩ : Setting ℚ) ∈ [(⟨.noiseAmp, .fin (14913081 / 536870912)⟩ : Setting ℚ),
        ⟨.lowpassFreq, .fin (7573049 / 8192)⟩]
      ↔ (.fin 2500 : ExtNum ℚ) ≤ 2450 :=
  have hframe : (⟨.fin 2510, .fin 2500, [⟨.noiseAmp, .fin (14913081 / 536870912)⟩,
      ⟨.lowpassFreq, .fin (7573049 / 8192)⟩]⟩ : Frame ℚ)
      ∈ ((cutoffFrequencyWhiteNoiseSilence false).run float32
        [.serialEvent (some "2510,2500.00\r\n".toList), .draw]).frames := by decide +kernel
  silent_iff false hframe

end Sketch

end EmbodiedSynth.DirectMapping
