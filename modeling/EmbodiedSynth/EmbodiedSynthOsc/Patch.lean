/-
The sounding path of the Max patch, `Embodied_Synth_OSC.maxpat`, against the two recorders of
the same messages.

The smoothed value of a `/stretch` message goes through `scale 2600. 3240. 100. 1000.` and
`clip 100. 1000.` to the oscillator, while the logger script and the Processing recorder start
the same slope at 2500.

* `cycleFreq`: what the patch sends to `cycle~`.
* `logFreq_exact`, `cycleFreq_exact`: the frequencies in exact arithmetic, as ramps.
* `HeardAndLogged`: a frequency is heard and logged for a value, in the patch and its logger
  and in the Processing recorder.
* `heardAndLogged_iff`: there is one exactly off the open slope of the recorders.

The other objects of the patch, which display or record, are left out.
-/
import EmbodiedSynth.StretchOscLogger.Numbering
import EmbodiedSynth.WifiOscControlPitchSaveCsv.Samples

namespace EmbodiedSynth.EmbodiedSynthOsc

open Ramp

section Patch

variable {K : Type*} [Field K] [LinearOrder K] (A : FloatArith K)

/-- The object `scale a b c d`: the affine map that takes `a` to `c` and `b` to `d`. -/
def scale (a b c d v : ExtNum K) : ExtNum K :=
  A.add c (A.mul (A.sub d c) (A.div (A.sub v a) (A.sub b a)))

/-- The object `clip lo hi`. -/
def clip (lo hi v : ExtNum K) : ExtNum K := ExtNum.clamp v lo hi

/-- What the patch sends to `cycle~` for a smoothed value. -/
def cycleFreq (smoothed : ExtNum K) : ExtNum K :=
  clip 100 1000 (scale A 2600 3240 100 1000 smoothed)

end Patch

variable {K : Type*} [Field K] [LinearOrder K] [IsStrictOrderedRing K]
  (pow : ExtNum K → ExtNum K → ExtNum K)

/-- The patch computes a ramp from 2600. -/
lemma cycleFreq_exact (v : K) :
    cycleFreq (.exact pow) (.fin v) = .fin (ramp 2600 3240 100 1000 v) := by
  have hne : (3240 - 2600 : K) ≠ 0 := by norm_num
  have hscale : scale (.exact pow) 2600 3240 100 1000 (.fin v)
      = .fin (100 + (1000 - 100) * ((v - 2600) / (3240 - 2600))) := by
    simp [scale, FloatArith.div_fin _ _ hne]
  rw [cycleFreq, hscale]
  exact ExtNum.clamp_fin (by norm_num)

/-- The logger computes a ramp from 2500. -/
lemma logFreq_exact (v : K) :
    StretchOscLogger.logFreq (.exact pow) (.fin v) = .fin (ramp 2500 3240 100 1000 v) := by
  have hne : (3240 - 2500 : K) ≠ 0 := by norm_num
  have hscale : StretchOscLogger.scale (.exact pow) (.fin v) 2500 3240 100 1000
      = .fin (100 + (1000 - 100) * ((v - 2500) / (3240 - 2500))) := by
    simp only [StretchOscLogger.scale, ExtNum.ofNat_eq, FloatArith.sub_fin, FloatArith.mul_fin,
      FloatArith.exact_round, FloatArith.div_fin _ _ hne, FloatArith.add_fin]
    congr 1
    ring
  show StretchOscLogger.mathMax (.fin 100) (StretchOscLogger.mathMin (.fin 1000) _) = _
  rw [StretchOscLogger.minSensor, StretchOscLogger.maxSensor, StretchOscLogger.minFreq,
    StretchOscLogger.maxFreq, hscale, StretchOscLogger.mathMin_fin, StretchOscLogger.mathMax_fin]
  rfl

/-- The frequency `f` is what is heard and logged for the smoothed value `v`: the patch sends
it to `cycle~`, `list` writes it to the open file, and the Processing recorder sets it and
writes it in the frame after a message that carries `v`. -/
structure HeardAndLogged (v : K) (f : ExtNum K) : Prop where
  heard : cycleFreq (.exact pow) (.fin v) = f
  logged : ∀ (s : StretchOscLogger.State) (r : StretchOscLogger.Reading K) (now : ℤ) (file),
    s.file = some file → r.smoothed = .fin v →
      ∃ row, StretchOscLogger.rows (StretchOscLogger.list (.exact pow) s r now true).2
        = [(file, row)] ∧ row.frequency = f
  recorded : ∀ (s : WifiOscControlPitchSaveCsv.State K) (msg) (x) (millis : ℤ),
    WifiOscControlPitchSaveCsv.OscMessage.sample msg = some x → x.smoothed = .fin v →
      let t := WifiOscControlPitchSaveCsv.draw (.exact pow)
        (WifiOscControlPitchSaveCsv.oscEvent (.exact pow) s msg) millis
      t.sineFreqs.getLast? = some f
        ∧ t.csv.getLast?.map WifiOscControlPitchSaveCsv.Row.frequency = some f

/-- The frequency `list` writes to an open file. -/
lemma rows_list {s : StretchOscLogger.State} {r : StretchOscLogger.Reading K} {file : List Char}
    {v : K} (hfile : s.file = some file) (hv : r.smoothed = .fin v) (now : ℤ) :
    ∃ row, StretchOscLogger.rows (StretchOscLogger.list (.exact pow) s r now true).2
      = [(file, row)] ∧ row.frequency = .fin (ramp 2500 3240 100 1000 v) := by
  refine ⟨StretchOscLogger.makeRow (.exact pow) s.sample s.startTime r now, ?_, ?_⟩
  · rw [StretchOscLogger.list, hfile]
    rfl
  · rw [StretchOscLogger.makeRow, hv, logFreq_exact]

/-- The frequency of the frame after a message. -/
lemma sensorFreq_oscEvent (s : WifiOscControlPitchSaveCsv.State K)
    {msg : WifiOscControlPitchSaveCsv.OscMessage K} {x : WifiOscControlPitchSaveCsv.Sample K}
    {v : K} (hx : msg.sample = some x) (hv : x.smoothed = .fin v) :
    Processing.sensorFreq (.exact pow) (WifiOscControlPitchSaveCsv.minSensor K)
      (WifiOscControlPitchSaveCsv.maxSensor K)
      (WifiOscControlPitchSaveCsv.oscEvent (.exact pow) s msg).smoothedValue
        = .fin (ramp 2500 3240 100 1000 v) := by
  have hvalue : (WifiOscControlPitchSaveCsv.oscEvent (.exact pow) s msg).smoothedValue
      = .fin v := by
    rw [WifiOscControlPitchSaveCsv.oscEvent_eq, hx]
    exact hv
  rw [hvalue]
  exact Processing.sensorFreq_exact pow (by norm_num) v

/-- A frequency that is heard and logged makes the two ramps meet. -/
lemma HeardAndLogged.ramp_eq {v : K} {f : ExtNum K} (h : HeardAndLogged pow v f) :
    ramp 2600 3240 100 1000 v = ramp 2500 3240 100 1000 v := by
  obtain ⟨row, hrow, hf⟩ := h.logged ⟨some [], [], 0, 0⟩ ⟨.fin 0, .fin 0, .fin v⟩ 0 [] rfl rfl
  obtain ⟨row', hrow', hf'⟩ := rows_list pow (s := ⟨some [], [], 0, 0⟩)
    (r := ⟨.fin 0, .fin 0, .fin v⟩) rfl rfl 0
  obtain rfl : row = row' := by simpa using hrow.symm.trans hrow'
  have hheard := h.heard
  rw [cycleFreq_exact, ← hf, hf'] at hheard
  exact ExtNum.fin.inj hheard

/-- **What is heard against what is logged**: one frequency is both, everywhere, exactly for
the values up to 2500 and from 3240 on. -/
theorem heardAndLogged_iff (v : K) :
    (∃ f, HeardAndLogged pow v f) ↔ v ≤ 2500 ∨ 3240 ≤ v := by
  have hramps : ramp 2600 3240 100 1000 v = ramp 2500 3240 100 1000 v ↔ v ≤ 2500 ∨ 3240 ≤ v :=
    ramp_eq_iff (by norm_num) (by norm_num) (by norm_num)
  rw [← hramps]
  constructor
  · exact fun ⟨_, h⟩ => h.ramp_eq
  · intro heq
    refine ⟨.fin (ramp 2500 3240 100 1000 v), by rw [cycleFreq_exact, heq], ?_, ?_⟩
    · exact fun s r now file hfile hv => rows_list pow hfile hv now
    · intro s msg x millis hx hv
      have hfreq := sensorFreq_oscEvent pow s hx hv
      simp [WifiOscControlPitchSaveCsv.draw, hfreq]

/-- Below the slope all three frequencies are 100. -/
theorem heardAndLogged_2400 :
    ∃ f, HeardAndLogged FloatArith.ratPow (2400 : ℚ) f :=
  (heardAndLogged_iff _ _).mpr (Or.inl (by norm_num))

/-- At 2600 the patch plays 100 and the logger writes a higher frequency. -/
theorem not_heardAndLogged_2600 : ¬ ∃ f, HeardAndLogged FloatArith.ratPow (2600 : ℚ) f := by
  rintro ⟨f, h⟩
  exact absurd h.ramp_eq (by norm_num [ramp])

end EmbodiedSynth.EmbodiedSynthOsc
