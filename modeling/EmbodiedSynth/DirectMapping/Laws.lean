/-
The laws of the direct mappings.

* `settings_rise`: in float arithmetic a larger smoothed value lowers no parameter, or raises
  none in the sketch that is silent when stretched; `frames_rise` for the frames of runs.
* `law`: what each sketch makes of a reading, as ramps.
* `settings_exact`: in exact arithmetic the settings are those of the law.
-/
import EmbodiedSynth.DirectMapping.Safety

namespace EmbodiedSynth.DirectMapping

open Processing ExtNum FloatArith

/-- The same parameter, set no lower. -/
def Setting.Rises {K : Type*} [LinearOrder K] (s s' : Setting K) : Prop :=
  s.parameter = s'.parameter ∧ s.value ≤ s'.value

namespace Sketch

/-- Whether a stretch lowers the parameters. -/
def inverted : Sketch → Bool
  | cutoffFrequencyWhiteNoiseSilence silenceWhenStretched => silenceWhenStretched
  | _ => false

section Order

variable {K : Type*} [Field K] [LinearOrder K] [IsStrictOrderedRing K] {A : FloatArith K}

/-- A partial rises with the fundamental. -/
lemma mul_ofInt_le (hA : A.Regular) {i : ℕ} (hi : i < 12) {freq freq' : ExtNum K}
    (h : freq ≤ freq') : A.mul freq (A.ofInt (i + 1)) ≤ A.mul freq' (A.ofInt (i + 1)) := by
  have hpos : (0 : K) < ((i + 1 : ℕ) : K) := Nat.cast_pos.mpr (Nat.succ_pos i)
  rw [A.ofInt_succ (by omega), mul_fin_eq A hpos, mul_fin_eq A hpos]
  exact hA.rounded_le_rounded (fun _ _ hxy => mul_le_mul_of_nonneg_right hxy hpos.le) h

/-- The control rises, or falls where the sketch is inverted. -/
lemma control_le (hA : A.Regular) (silenceWhenStretched : Bool) {v v' : ExtNum K} (h : v ≤ v') :
    control A (if silenceWhenStretched then v' else v) silenceWhenStretched
      ≤ control A (if silenceWhenStretched then v else v') silenceWhenStretched := by
  have hnorm := mapped_le_mapped (rising_natCast (m := 2450) (n := 2900) (by norm_num)
    (by norm_num)) rising_unit unit_le hA h
  cases silenceWhenStretched with
  | false => exact hnorm
  | true =>
      have hsub := hA.rounded_le_rounded (fun _ _ hxy => add_le_add_right hxy 1)
        (neg_le_neg hnorm)
      rwa [← fin_sub_eq, ← fin_sub_eq] at hsub

variable (A) (S : Sketch)

/-- **A larger value lowers no parameter**, or raises none where the sketch is inverted. -/
theorem settings_rise (hA : A.Precise) {v v' : ExtNum K} (h : v ≤ v') :
    List.Forall₂ Setting.Rises (S.settings A (if S.inverted then v' else v))
      (S.settings A (if S.inverted then v else v')) := by
  have hregular := hA.toRegular
  cases S with
  | controlPitch =>
      exact .cons ⟨rfl, mapped_le_mapped (rising_natCast (by norm_num) (by norm_num))
        (rising_natCast (by norm_num) (by norm_num)) (natCast_le_natCast (by norm_num))
        hregular h⟩ .nil
  | harmonic =>
      have hfreq := mapped_le_mapped (rising_natCast (m := 2600) (n := 2900) (by norm_num)
        (by norm_num)) (rising_natCast (m := 40) (n := 800) (by norm_num) (by norm_num))
        (natCast_le_natCast (m := 40) (n := 800) (by norm_num)) hregular h
      refine List.forall₂_map_left_iff.mpr (List.forall₂_map_right_iff.mpr ?_)
      refine List.forall₂_same.mpr fun i hi => ⟨rfl, ?_⟩
      exact mul_ofInt_le hregular (List.mem_range.mp hi) hfreq
  | cutoffFrequencyWhiteNoise =>
      exact .cons ⟨rfl, mapped_le_mapped (rising_natCast (by norm_num) (by norm_num))
        (rising_natCast (by norm_num) (by norm_num)) (natCast_le_natCast (by norm_num))
        hregular h⟩ .nil
  | cutoffFrequencyWhiteNoiseSilence silenceWhenStretched =>
      have hcontrol := control_le hregular silenceWhenStretched h
      have hquarter := (literal_mem_unit hregular (q := 1 / 4) (by norm_num) (by norm_num)).1
      exact .cons ⟨rfl, mapped_le_mapped rising_unit (rising_control hA) hquarter hregular
        hcontrol⟩ (.cons ⟨rfl, mapped_le_mapped rising_unit
          (rising_natCast (by norm_num) (by norm_num)) (natCast_le_natCast (by norm_num))
          hregular hcontrol⟩ .nil)
  | noiseLayer1 =>
      have hsensor : Rising A (650 : ExtNum K) 820 := rising_natCast (by norm_num) (by norm_num)
      have hamp := rising_literal hA (p := 5 / 100) (q := 4 / 10) (by norm_num) (by norm_num)
        (by norm_num)
      have hloud : literal A (5 / 100) ≤ literal A (4 / 10) :=
        literal_le_literal hregular (by norm_num)
      exact .cons ⟨rfl, mapped_le_mapped hsensor (rising_natCast (by norm_num) (by norm_num))
          (natCast_le_natCast (by norm_num)) hregular h⟩
        (.cons ⟨rfl, mapped_le_mapped hsensor (rising_natCast (by norm_num) (by norm_num))
          (natCast_le_natCast (by norm_num)) hregular h⟩
        (.cons ⟨rfl, natCast_le_natCast le_rfl⟩
        (.cons ⟨rfl, mapped_le_mapped hsensor hamp hloud hregular h⟩ .nil)))

omit [IsStrictOrderedRing K] in
/-- The settings of a frame are those of the smoothed value it shows. -/
lemma settings_of_mem_frames {es : List Event} {f : Frame K} (h : f ∈ (S.run A es).frames) :
    f.settings = S.settings A f.smoothedValue := by
  obtain ⟨pre, post, -, rfl⟩ := (S.mem_frames_iff A es f).mp h
  rfl

/-- **Of any two frames the one with the larger smoothed value** sets no parameter lower, or
none higher where the sketch is inverted. -/
theorem frames_rise (hA : A.Precise) {es es' : List Event} {f f' : Frame K}
    (hf : f ∈ (S.run A es).frames) (hf' : f' ∈ (S.run A es').frames)
    (h : f.smoothedValue ≤ f'.smoothedValue) :
    List.Forall₂ Setting.Rises (if S.inverted then f' else f).settings
      (if S.inverted then f else f').settings := by
  have hrise := S.settings_rise A hA h
  have hsettings := S.settings_of_mem_frames A hf
  have hsettings' := S.settings_of_mem_frames A hf'
  split_ifs at hrise ⊢
  · rwa [hsettings, hsettings']
  · rwa [hsettings, hsettings']

end Order

/-- The first frame of a run, and one after a line, on a 32-bit float. -/
theorem frames_rise_startup :
    List.Forall₂ Setting.Rises [(⟨.lowpassFreq, 100⟩ : Setting ℚ)] [⟨.lowpassFreq, 8000⟩] :=
  have hrelaxed : (⟨0, 0, [⟨.lowpassFreq, 100⟩]⟩ : Frame ℚ)
      ∈ (cutoffFrequencyWhiteNoise.run Rounding.float32 [.draw]).frames := by decide +kernel
  have hstretched : (⟨2900, 2900, [⟨.lowpassFreq, 8000⟩]⟩ : Frame ℚ)
      ∈ (cutoffFrequencyWhiteNoise.run Rounding.float32
        [.serialEvent (some "2900,2900.00\r\n".toList), .draw]).frames := by decide +kernel
  frames_rise Rounding.float32 cutoffFrequencyWhiteNoise
    (precise_toArith Rounding.binary32 ratPow) hrelaxed hstretched (by decide +kernel)

/-! ### Exact arithmetic -/

/-- How far the sensor is stretched, or relaxed. -/
def controlLaw (silenceWhenStretched : Bool) (v : ℚ) : ℚ :=
  if silenceWhenStretched then ramp 2900 2450 0 1 v else ramp 2450 2900 0 1 v

lemma controlLaw_mem (silenceWhenStretched : Bool) (v : ℚ) :
    0 ≤ controlLaw silenceWhenStretched v ∧ controlLaw silenceWhenStretched v ≤ 1 := by
  rw [controlLaw]
  split_ifs <;> exact Ramp.ramp_unit_mem _ _ _

/-- What the sketches make of a reading. -/
def law : Sketch → ℚ → List (Setting ℚ)
  | controlPitch, v =>
      [⟨.sineFreq 0, .fin (ramp (2600 + 300 * 60 / 760) (2600 + 300 * 960 / 760) 100 1000 v)⟩]
  | harmonic, v =>
      (List.range 12).map fun i => ⟨.sineFreq i, .fin (ramp 2600 2900 40 800 v * (i + 1))⟩
  | cutoffFrequencyWhiteNoise, v => [⟨.lowpassFreq, .fin (ramp 2300 2900 100 8000 v)⟩]
  | cutoffFrequencyWhiteNoiseSilence silenceWhenStretched, v =>
      [⟨.noiseAmp, .fin (controlLaw silenceWhenStretched v / 4)⟩,
        ⟨.lowpassFreq, .fin (40 + 7960 * controlLaw silenceWhenStretched v)⟩]
  | noiseLayer1, v =>
      [⟨.sineFreq 0, .fin (ramp 650 (650 + 170 * 1120 / 920) 80 1200 v)⟩,
        ⟨.bandFreq, .fin (ramp (650 - 170 * 100 / 4800) (650 + 170 * 5800 / 4800) 100 6000 v)⟩,
        ⟨.bandRes, 8⟩,
        ⟨.sineAmp 0, .fin (ramp 650 820 (1 / 20) (2 / 5) v)⟩]

section Exact

variable (pow : ExtNum ℚ → ExtNum ℚ → ExtNum ℚ)

/-- A control inside its range is not clamped. -/
lemma mapped_control {c low high : ℚ} (h0 : 0 ≤ c) (h1 : c ≤ 1) (h : low < high) :
    mapped (.exact pow) (.fin c) (.fin 0) (.fin 1) (.fin low) (.fin high) (.fin low) (.fin high)
      = .fin (low + (high - low) * c) := by
  have hne : high - low ≠ 0 := (sub_pos.mpr h).ne'
  rw [mapped_exact pow zero_lt_one h h, sub_self, zero_div, mul_zero, add_zero, sub_zero, one_mul,
    zero_add, div_self hne, Ramp.ramp_of_mem zero_lt_one h.le h0 h1, sub_zero, sub_zero, div_one]

lemma control_exact (silenceWhenStretched : Bool) (v : ℚ) :
    control (.exact pow) (.fin v) silenceWhenStretched
      = .fin (controlLaw silenceWhenStretched v) := by
  have hnorm : mapped (.exact pow) (.fin v) 2450 2900 0 1 0 1 = .fin (ramp 2450 2900 0 1 v) := by
    have hexact := mapped_exact pow (show (2450 : ℚ) < 2900 by norm_num) zero_lt_one
      (zero_lt_one (α := ℚ)) v
    norm_num at hexact
    exact hexact
  rw [control, hnorm]
  cases silenceWhenStretched with
  | false => rfl
  | true =>
      have hswap := Ramp.ramp_unit_swap (show (2450 : ℚ) ≠ 2900 by norm_num) v
      rw [if_pos rfl, controlLaw, if_pos rfl, hswap]
      exact FloatArith.sub_fin _ _ _

variable (S : Sketch)

/-- **In exact arithmetic the sketches follow the law.** -/
theorem settings_exact (v : ℚ) : S.settings (.exact pow) (.fin v) = S.law v := by
  cases S with
  | controlPitch =>
      rw [settings, drawControlPitch, law]
      have hexact := mapped_exact pow (show (2600 : ℚ) < 2900 by norm_num)
        (show (40 : ℚ) < 800 by norm_num) (show (100 : ℚ) < 1000 by norm_num) v
      norm_num at hexact ⊢
      exact hexact
  | harmonic =>
      have hexact := mapped_exact pow (show (2600 : ℚ) < 2900 by norm_num)
        (show (40 : ℚ) < 800 by norm_num) (show (40 : ℚ) < 800 by norm_num) v
      norm_num at hexact
      have hfreq : mapped (.exact pow) (.fin v) 2600 2900 40 800 40 800
          = .fin (ramp 2600 2900 40 800 v) := hexact
      rw [settings, drawHarmonic, law, hfreq]
      refine List.map_congr_left fun i _ => ?_
      simp [ofInt]
  | cutoffFrequencyWhiteNoise =>
      rw [settings, drawCutoffFrequencyWhiteNoise, law]
      have hexact := mapped_exact pow (show (2300 : ℚ) < 2900 by norm_num)
        (show (100 : ℚ) < 8000 by norm_num) (show (100 : ℚ) < 8000 by norm_num) v
      norm_num at hexact ⊢
      exact hexact
  | cutoffFrequencyWhiteNoiseSilence silenceWhenStretched =>
      obtain ⟨h0, h1⟩ := controlLaw_mem silenceWhenStretched v
      have hamp := mapped_control pow h0 h1 (show (0 : ℚ) < 1 / 4 by norm_num)
      have hcutoff := mapped_control pow h0 h1 (show (40 : ℚ) < 8000 by norm_num)
      rw [settings, drawCutoffFrequencyWhiteNoiseSilence, control_exact, law]
      norm_num [literal] at hamp hcutoff ⊢
      refine ⟨hamp.trans ?_, hcutoff⟩
      rw [one_div_mul_eq_div]
  | noiseLayer1 =>
      rw [settings, drawNoiseLayer1, law]
      have hsine := mapped_exact pow (show (650 : ℚ) < 820 by norm_num)
        (show (80 : ℚ) < 1000 by norm_num) (show (80 : ℚ) < 1200 by norm_num) v
      have hband := mapped_exact pow (show (650 : ℚ) < 820 by norm_num)
        (show (200 : ℚ) < 5000 by norm_num) (show (100 : ℚ) < 6000 by norm_num) v
      have hamp := mapped_exact pow (show (650 : ℚ) < 820 by norm_num)
        (show (1 / 20 : ℚ) < 2 / 5 by norm_num) (show (1 / 20 : ℚ) < 2 / 5 by norm_num) v
      norm_num [literal] at hsine hband hamp ⊢
      exact ⟨hsine, hband, hamp⟩

/-- **In exact arithmetic every frame of a run follows the law.** -/
theorem frames_law {es : List Event} {f : Frame ℚ} (hf : f ∈ (S.run (.exact pow) es).frames)
    {v : ℚ} (hv : f.smoothedValue = .fin v) : f.settings = S.law v := by
  rw [S.settings_of_mem_frames _ hf, hv, settings_exact]

end Exact

/-- A frame of the sketch for the pitch, after a reading between its calibration points. -/
theorem frames_law_line : [(⟨.sineFreq 0, .fin (880 / 3)⟩ : Setting ℚ)] = controlPitch.law 2700 :=
  have hframe : (⟨.fin 2710, .fin 2700, [⟨.sineFreq 0, .fin (880 / 3)⟩]⟩ : Frame ℚ)
      ∈ (controlPitch.run exactRat
        [.serialEvent (some "2710,2700.00\r\n".toList), .draw]).frames := by decide +kernel
  frames_law ratPow controlPitch hframe rfl

end Sketch

end EmbodiedSynth.DirectMapping
