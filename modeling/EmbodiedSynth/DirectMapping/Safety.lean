/-
The limits of the direct mappings.

Each sketch constrains what it computes from a reading, to keep the sound inside safe limits.
Every number is kept inside, and NaN is not: both comparisons of a clamp are false on it.

* `limits`, `Safe`: the limits of each parameter, for each sketch.
* `settings_safe_iff`: the settings of a smoothed value are safe exactly when it is a number.
* `sound_safe_iff`: all that a run sets is safe exactly when at each `draw` the last field
  taken, if any, denotes a number.
* `heard_iff`: a run makes each reading heard once exactly when one line comes for each frame.
-/
import EmbodiedSynth.ControlPitchSaveCsv.Band
import EmbodiedSynth.DirectMapping.Sketch

namespace EmbodiedSynth.DirectMapping

open Processing ExtNum FloatArith ControlPitchSaveCsv

namespace Sketch

variable {K : Type*} [Field K] [LinearOrder K] (A : FloatArith K)

/-- The limits of the parameters that a sketch sets.  An amplitude that is not mapped lies
between 0 and 1. -/
def limits : Sketch → Parameter → Option (ExtNum K × ExtNum K)
  | controlPitch, .sineFreq 0 => some (100, 1000)
  | controlPitch, .sineAmp 0 => some (0, 1)
  | harmonic, .sineFreq i =>
      if i < partialAmps.length then
        some (.fin ((40 * (i + 1) : ℕ) : K), .fin ((800 * (i + 1) : ℕ) : K))
      else none
  | harmonic, .sineAmp i => if i < partialAmps.length then some (0, 1) else none
  | cutoffFrequencyWhiteNoise, .lowpassFreq => some (100, 8000)
  | cutoffFrequencyWhiteNoise, .noiseAmp => some (0, 1)
  | cutoffFrequencyWhiteNoiseSilence _, .lowpassFreq => some (40, 8000)
  | cutoffFrequencyWhiteNoiseSilence _, .noiseAmp => some (0, literal A (1 / 4))
  | noiseLayer1, .sineFreq 0 => some (80, 1200)
  | noiseLayer1, .bandFreq => some (100, 6000)
  | noiseLayer1, .bandRes => some (8, 8)
  | noiseLayer1, .sineAmp 0 => some (literal A (5 / 100), literal A (4 / 10))
  | noiseLayer1, .noiseAmp => some (0, 1)
  | _, _ => none

/-- A setting inside the limits of its parameter. -/
def Safe (S : Sketch) (s : Setting K) : Prop :=
  ∃ low high, S.limits A s.parameter = some (low, high) ∧ low ≤ s.value ∧ s.value ≤ high

variable {A}

lemma safe_iff {S : Sketch} {p : Parameter} {low high : ExtNum K}
    (h : S.limits A p = some (low, high)) (x : ExtNum K) :
    S.Safe A ⟨p, x⟩ ↔ low ≤ x ∧ x ≤ high := by
  constructor
  · rintro ⟨low', high', hlimits, hx⟩
    obtain ⟨rfl, rfl⟩ := Prod.mk.inj (Option.some.inj (h.symm.trans hlimits))
    exact hx
  · exact fun hx => ⟨low, high, h, hx⟩

variable [IsStrictOrderedRing K]

/-! ### Constants -/

lemma natCast_le_natCast {m n : ℕ} (h : m ≤ n) : (fin (m : K)) ≤ fin (n : K) :=
  fin_le_fin.mpr (Nat.cast_le.mpr h)

lemma unit_le : (0 : ExtNum K) ≤ 1 := fin_le_fin.mpr zero_le_one

lemma rising_unit : Rising A 0 1 := by
  have h := rising_natCast (A := A) (m := 0) (n := 1) (by norm_num) (by norm_num)
  rwa [Nat.cast_zero, Nat.cast_one] at h

omit [IsStrictOrderedRing K] in
lemma literal_zero : literal A 0 = 0 := by
  rw [literal, Rat.cast_zero, FloatArith.round_zero]
  rfl

lemma literal_le_literal (hA : A.Regular) {p q : ℚ} (h : p ≤ q) : literal A p ≤ literal A q :=
  hA.round_mono _ _ (Rat.cast_le.mpr h)

/-- A constant amplitude. -/
lemma literal_mem_unit (hA : A.Regular) {q : ℚ} (h0 : 0 ≤ q) (h1 : q ≤ 1) :
    0 ≤ literal A q ∧ literal A q ≤ 1 := by
  have hone : literal A 1 = 1 := by
    have hround := A.round_intCast 1 (by norm_num)
    rw [Int.cast_one] at hround
    rw [literal, Rat.cast_one, hround]
    rfl
  exact ⟨literal_zero (A := A) ▸ literal_le_literal hA h0, hone ▸ literal_le_literal hA h1⟩

/-! ### One frame -/

lemma controlPitch_safe_iff (v : ExtNum K) :
    (∀ s ∈ drawControlPitch A v, controlPitch.Safe A s) ↔ v ≠ .nan := by
  rw [drawControlPitch, List.forall_mem_singleton, safe_iff rfl]
  exact mapped_mem_iff (rising_natCast (by norm_num) (by norm_num))
    (rising_natCast (by norm_num) (by norm_num)) (natCast_le_natCast (by norm_num)) v

/-- A partial is a multiple of the fundamental. -/
lemma mul_ofInt_mem_iff (hA : A.Regular) {i m n : ℕ} (hi : i < 12) (hm : m ≤ 1000)
    (hn : n ≤ 1000) {freq : ExtNum K}
    (hfreq : (fin (m : K) ≤ freq ∧ freq ≤ fin (n : K)) ↔ freq ≠ .nan) :
    (fin ((m * (i + 1) : ℕ) : K) ≤ A.mul freq (A.ofInt (i + 1))
      ∧ A.mul freq (A.ofInt (i + 1)) ≤ fin ((n * (i + 1) : ℕ) : K)) ↔ freq ≠ .nan := by
  have hpos : (0 : K) < ((i + 1 : ℕ) : K) := Nat.cast_pos.mpr (Nat.succ_pos i)
  have hends : ∀ k : ℕ, k ≤ 1000 → A.rounded (· * ((i + 1 : ℕ) : K)) (fin (k : K))
      = fin ((k * (i + 1) : ℕ) : K) := by
    intro k hk
    rw [rounded, ← Nat.cast_mul, A.round_natCast]
    nlinarith
  rw [A.ofInt_succ (by omega), mul_fin_eq A hpos, ← hends m hm, ← hends n hn]
  have hmono : Monotone (· * ((i + 1 : ℕ) : K)) :=
    fun _ _ hxy => mul_le_mul_of_nonneg_right hxy hpos.le
  constructor
  · rintro ⟨hle, -⟩ rfl
    exact not_le_nan _ hle
  · intro hne
    obtain ⟨hlow, hhigh⟩ := hfreq.mpr hne
    exact ⟨hA.rounded_le_rounded hmono hlow, hA.rounded_le_rounded hmono hhigh⟩

lemma harmonic_safe_iff (hA : A.Regular) (v : ExtNum K) :
    (∀ s ∈ drawHarmonic A v, harmonic.Safe A s) ↔ v ≠ .nan := by
  have hsensor : Rising A (2600 : ExtNum K) 2900 := rising_natCast (by norm_num) (by norm_num)
  have hband : Rising A (40 : ExtNum K) 800 := rising_natCast (by norm_num) (by norm_num)
  have hlow : (40 : ExtNum K) ≤ 800 := natCast_le_natCast (by norm_num)
  have hne := mapped_ne_nan_iff hsensor hband hlow v
  have hmultiple : ∀ i < partialAmps.length, harmonic.Safe A ⟨.sineFreq i,
      A.mul (mapped A v 2600 2900 40 800 40 800) (A.ofInt (i + 1))⟩ ↔ v ≠ .nan := by
    intro i hi
    have hlimits : harmonic.limits A (.sineFreq i) = some (.fin ((40 * (i + 1) : ℕ) : K),
        .fin ((800 * (i + 1) : ℕ) : K)) := if_pos hi
    have hfreq := (mapped_mem_iff hsensor hband hlow v).trans hne.symm
    rw [safe_iff hlimits, mul_ofInt_mem_iff hA hi (by norm_num) (by norm_num) hfreq, hne]
  rw [drawHarmonic, List.forall_mem_map]
  constructor
  · intro h
    exact (hmultiple 0 (by decide)).mp (h 0 (by decide))
  · intro hv i hi
    exact (hmultiple i (List.mem_range.mp hi)).mpr hv

lemma cutoffFrequencyWhiteNoise_safe_iff (v : ExtNum K) :
    (∀ s ∈ drawCutoffFrequencyWhiteNoise A v, cutoffFrequencyWhiteNoise.Safe A s)
      ↔ v ≠ .nan := by
  rw [drawCutoffFrequencyWhiteNoise, List.forall_mem_singleton, safe_iff rfl]
  exact mapped_mem_iff (rising_natCast (by norm_num) (by norm_num))
    (rising_natCast (by norm_num) (by norm_num)) (natCast_le_natCast (by norm_num)) v

lemma rising_control (hA : A.Precise) : Rising A 0 (literal A (1 / 4)) := by
  have h := rising_literal hA (p := 0) (q := 1 / 4) (by norm_num) (by norm_num) (by norm_num)
  rwa [literal_zero] at h

lemma control_ne_nan_iff (v : ExtNum K) (silenceWhenStretched : Bool) :
    control A v silenceWhenStretched ≠ .nan ↔ v ≠ .nan := by
  have hnorm := mapped_ne_nan_iff (A := A) (rising_natCast (m := 2450) (n := 2900) (by norm_num)
    (by norm_num)) rising_unit unit_le v
  cases silenceWhenStretched with
  | false => exact hnorm
  | true => exact (A.fin_sub_ne_nan_iff 1 _).trans hnorm

lemma cutoffFrequencyWhiteNoiseSilence_safe_iff (hA : A.Precise) (silenceWhenStretched : Bool)
    (v : ExtNum K) : (∀ s ∈ drawCutoffFrequencyWhiteNoiseSilence A v silenceWhenStretched,
      (cutoffFrequencyWhiteNoiseSilence silenceWhenStretched).Safe A s) ↔ v ≠ .nan := by
  have hquarter : 0 ≤ literal A (1 / 4) := (literal_mem_unit hA.toRegular (by norm_num)
    (by norm_num)).1
  have hamp := mapped_mem_iff rising_unit (rising_control hA) hquarter
    (control A v silenceWhenStretched)
  have hcutoff := mapped_mem_iff (A := A) rising_unit (rising_natCast (m := 40) (n := 8000)
    (by norm_num) (by norm_num)) (natCast_le_natCast (m := 40) (n := 8000) (by norm_num))
    (control A v silenceWhenStretched)
  rw [drawCutoffFrequencyWhiteNoiseSilence, List.forall_mem_cons, List.forall_mem_singleton,
    safe_iff rfl, safe_iff rfl, ← control_ne_nan_iff (A := A) v silenceWhenStretched]
  exact ⟨fun h => hamp.mp h.1, fun h => ⟨hamp.mpr h, hcutoff.mpr h⟩⟩

lemma noiseLayer1_safe_iff (hA : A.Precise) (v : ExtNum K) :
    (∀ s ∈ drawNoiseLayer1 A v, noiseLayer1.Safe A s) ↔ v ≠ .nan := by
  have hsensor : Rising A (650 : ExtNum K) 820 := rising_natCast (by norm_num) (by norm_num)
  have hsine := mapped_mem_iff hsensor (rising_natCast (m := 80) (n := 1000) (by norm_num)
    (by norm_num)) (natCast_le_natCast (m := 80) (n := 1200) (by norm_num)) v
  have hband := mapped_mem_iff hsensor (rising_natCast (m := 200) (n := 5000) (by norm_num)
    (by norm_num)) (natCast_le_natCast (m := 100) (n := 6000) (by norm_num)) v
  have hloud : literal A (5 / 100) ≤ literal A (4 / 10) :=
    literal_le_literal hA.toRegular (by norm_num)
  have hamp := mapped_mem_iff hsensor (rising_literal hA (p := 5 / 100) (q := 4 / 10)
    (by norm_num) (by norm_num) (by norm_num)) hloud v
  have height : (8 : ExtNum K) ≤ 8 := natCast_le_natCast le_rfl
  simp only [drawNoiseLayer1, List.forall_mem_cons, List.not_mem_nil, false_implies,
    implies_true, and_true]
  rw [safe_iff rfl, safe_iff rfl, safe_iff rfl, safe_iff rfl]
  exact ⟨fun h => hsine.mp h.1,
    fun h => ⟨hsine.mpr h, hband.mpr h, ⟨height, height⟩, hamp.mpr h⟩⟩

variable (A) (S : Sketch)

/-- **One frame is safe exactly when its smoothed value is a number.** -/
theorem settings_safe_iff (hA : A.Precise) (v : ExtNum K) :
    (∀ s ∈ S.settings A v, S.Safe A s) ↔ v ≠ .nan := by
  cases S with
  | controlPitch => exact controlPitch_safe_iff v
  | harmonic => exact harmonic_safe_iff hA.toRegular v
  | cutoffFrequencyWhiteNoise => exact cutoffFrequencyWhiteNoise_safe_iff v
  | cutoffFrequencyWhiteNoiseSilence silenceWhenStretched =>
      exact cutoffFrequencyWhiteNoiseSilence_safe_iff hA silenceWhenStretched v
  | noiseLayer1 => exact noiseLayer1_safe_iff hA v

/-- What `setup` sets is safe. -/
lemma setup_safe (hA : A.Precise) : ∀ s ∈ S.setup A, S.Safe A s := by
  have hunit : ∀ q : ℚ, 0 ≤ q → q ≤ 1 → 0 ≤ literal A q ∧ literal A q ≤ 1 :=
    fun _ => literal_mem_unit hA.toRegular
  cases S with
  | controlPitch =>
      rw [setup, List.forall_mem_singleton, safe_iff rfl]
      exact hunit _ (by norm_num) (by norm_num)
  | harmonic =>
      rw [setup]
      intro s hs
      obtain ⟨i, hi, rfl⟩ := List.mem_mapIdx.mp hs
      have hamps : ∀ q ∈ partialAmps, 0 ≤ q ∧ q ≤ 1 := by decide +kernel
      obtain ⟨h0, h1⟩ := hamps _ (List.getElem_mem hi)
      have hlimits : harmonic.limits A (.sineAmp i) = some (0, 1) := if_pos hi
      exact (safe_iff hlimits _).mpr (hunit _ h0 h1)
  | cutoffFrequencyWhiteNoise =>
      rw [setup, List.forall_mem_singleton, safe_iff rfl]
      exact hunit _ (by norm_num) (by norm_num)
  | cutoffFrequencyWhiteNoiseSilence silenceWhenStretched =>
      rw [setup, List.forall_mem_singleton, safe_iff rfl]
      exact ⟨fin_le_fin.mpr le_rfl,
        (literal_mem_unit hA.toRegular (by norm_num) (by norm_num)).1⟩
  | noiseLayer1 =>
      rw [setup, List.forall_mem_cons, List.forall_mem_singleton, safe_iff rfl, safe_iff rfl]
      exact ⟨⟨literal_le_literal hA.toRegular (by norm_num),
        literal_le_literal hA.toRegular (by norm_num)⟩, hunit _ (by norm_num) (by norm_num)⟩

/-! ### Runs -/

/-- Before a `draw` the last field taken, if any, denotes a number. -/
def NumberAtDraw (pre : List Event) (e : Event) : Prop :=
  isDraw e = true → ∀ field, S.lastField pre = some field → DenotesNumber field

omit [IsStrictOrderedRing K] in
lemma smoothedValue_ne_nan_iff (es : List Event) : (S.run A es).smoothedValue ≠ .nan
    ↔ ∀ field, S.lastField es = some field → DenotesNumber field := by
  have hstartup : (S.startup : ExtNum K) ≠ .nan := by
    cases S <;> exact fun h => by cases h
  rw [smoothedValue_run]
  cases S.lastField es with
  | none => simpa using hstartup
  | some field =>
      simp only [Option.map_some, Option.getD_some, Ne, float_eq_nan_iff, not_not,
        Option.some.injEq, forall_eq']

/-- **All that a run sets is safe** exactly when at each `draw` the second field of the last line
taken before it, if any, denotes a number. -/
theorem sound_safe_iff (hA : A.Precise) (es : List Event) :
    (∀ s ∈ S.sound A es, S.Safe A s) ↔ Machine.EveryStep S.NumberAtDraw es := by
  have hframe : ∀ v, (∀ s ∈ S.settings A v, S.Safe A s) ↔ v ≠ .nan := S.settings_safe_iff A hA
  rw [sound, List.forall_mem_append, and_iff_right (S.setup_safe A hA), List.forall_mem_flatMap]
  constructor
  · intro h pre e post hes he field hfield
    cases e with
    | serialEvent incoming => exact absurd he Bool.false_ne_true
    | draw =>
        have hdraw := h _ ((S.mem_frames_iff A es _).mpr ⟨pre, post, hes, rfl⟩)
        exact (S.smoothedValue_ne_nan_iff A pre).mp ((hframe _).mp hdraw) field hfield
  · intro h f hf
    obtain ⟨pre, post, hes, rfl⟩ := (S.mem_frames_iff A es f).mp hf
    exact (hframe _).mpr ((S.smoothedValue_ne_nan_iff A pre).mpr (h pre .draw post hes rfl))

/-- A frame of the harmonic sketch on a 32-bit float, after a line of two numbers. -/
theorem sound_safe_iff_frame :
    (∀ s ∈ harmonic.sound Rounding.float32 [.serialEvent (some "2600,2650.00\r\n".toList), .draw],
        harmonic.Safe Rounding.float32 s)
      ↔ Machine.EveryStep harmonic.NumberAtDraw
        [.serialEvent (some "2600,2650.00\r\n".toList), .draw] :=
  sound_safe_iff _ _ (precise_toArith Rounding.binary32 ratPow) _

/-! ### Lost and repeated readings -/

/-- After the step, if it is a `draw`, the frames show what was taken so far. -/
def Heard (pre : List Event) (e : Event) : Prop :=
  isDraw e = true → (S.run A (pre ++ [e])).frames.map Frame.smoothedValue
    = ((pre ++ [e]).filterMap S.secondField).map (float A)

/-- Before the step, if it is a `draw`, one line was taken since the last. -/
def OneLine (pre : List Event) (e : Event) : Prop :=
  isDraw e = true → ∃ field, (pre.rtakeWhile (!isDraw ·)).filterMap S.secondField = [field]

omit [IsStrictOrderedRing K] in
/-- **No reading is lost or repeated** exactly when before every `draw` one line was taken since
the last. -/
theorem heard_iff (es : List Event) :
    Machine.EveryStep (S.Heard A) es ↔ Machine.EveryStep S.OneLine es := by
  have hone : (S.mailbox A).OneWritten (float A) = S.OneLine := by
    funext pre e
    refine propext (imp_congr_right fun _ => exists_congr fun field => ?_)
    simp [mailbox, Mailbox.sinceSample, Mailbox.writes]
  rw [← hone]
  exact (S.mailbox A).log_eq_iff (float A) rfl es

end Sketch

end EmbodiedSynth.DirectMapping
