/-
The status against the pitch, in exact arithmetic.

The status compares the reading with the two positions in either order, widened by the margin; the
pitch takes the fraction of the way from one to the other.

* `FiniteState`: the reading, the two positions and the sum are finite; `finiteState_run`
  keeps it over lines that carry finite numbers.
* `OutsideAt`: the reading lies outside the range, at the end of a position.
* `Consistent`: the status and the pitch do not contradict each other.
* `status_pitch_agree`: they never do after a `draw`.
-/
import EmbodiedSynth.Synths2Sensors.Pitch
import EmbodiedSynth.Synths2Sensors.Windows

namespace EmbodiedSynth.Synths2Sensors

open ExtNum FloatArith

variable {K : Type*} [Field K] [LinearOrder K]

/-! ### Finite states -/

/-- A finite number. -/
def IsFin (a : ExtNum K) : Prop := ∃ x, a = .fin x

/-- The positions and the sum of a calibration are finite. -/
structure FiniteCalibration (c : Calibration K) : Prop where
  sensor : ∀ p, IsFin (c.sensor p)
  sum : IsFin c.calibrationSum

/-- So are they in a state, and its reading too. -/
structure FiniteState (s : State K) : Prop where
  reading : IsFin s.smoothedValue
  calibration : FiniteCalibration s.calibration

/-- `updateCalibration` leaves a position or makes it the mean of a window with samples. -/
lemma sensor_updateCalibration (A : FloatArith K) (s : State K) (millis : ℤ) (p : Endpoint) :
    (updateCalibration A s millis).calibration.sensor p = s.calibration.sensor p
      ∨ s.calibrationSamples ≠ 0 ∧ (updateCalibration A s millis).calibration.sensor p
        = A.div s.calibrationSum (A.ofInt s.calibrationSamples) := by
  simp only [updateCalibration]
  split_ifs with h1 h2 h3 h4 h5 h5 <;> cases p <;>
    first | exact Or.inl rfl | exact Or.inr ⟨h3, rfl⟩

lemma calibrationSum_updateCalibration (A : FloatArith K) (s : State K) (millis : ℤ) :
    (updateCalibration A s millis).calibration.calibrationSum = s.calibrationSum := by
  simp only [updateCalibration]
  split_ifs <;> rfl

section Exact

variable (pow : ExtNum K → ExtNum K → ExtNum K)

/-- Closing a window divides by the number of its samples, which is not zero. -/
lemma finiteCalibration_updateCalibration [IsStrictOrderedRing K] {s : State K}
    (h : FiniteCalibration s.calibration) (millis : ℤ) :
    FiniteCalibration (updateCalibration (.exact pow) s millis).calibration where
  sensor p := by
    obtain ⟨x, hx⟩ := h.sum
    have hsum : s.calibrationSum = .fin x := hx
    rcases sensor_updateCalibration (.exact pow) s millis p with hp | ⟨hne, hp⟩
    · rw [hp]
      exact h.sensor p
    · have hcount : ((s.calibrationSamples : ℤ) : K) ≠ 0 := by exact_mod_cast hne
      rw [hp, hsum, ofInt, exact_round, div_fin _ _ hcount]
      exact ⟨_, rfl⟩
  sum := by
    rw [calibrationSum_updateCalibration]
    exact h.sum

/-- Every event keeps a state finite, a line where it carries finite numbers. -/
lemma finiteState_step [IsStrictOrderedRing K] {s : State K} (h : FiniteState s) {e : Event}
    (hfin : FiniteLine (.exact pow) e) : FiniteState (step (.exact pow) s e) where
  reading := by
    rw [smoothedValue_step]
    cases hacc : accepted (.exact pow) e with
    | none => exact h.reading
    | some v => exact hfin.accepted hacc
  calibration := by
    cases e with
    | serialEvent incoming =>
        rcases serialEvent_cases (.exact pow) incoming with
          ⟨-, hs⟩ | ⟨line, newRaw, newSmoothed, rfl, hr, hs⟩
        · rw [hs]; exact h.calibration
        · obtain ⟨-, v, rfl⟩ := hfin newRaw newSmoothed hr
          obtain ⟨x, hx⟩ := h.calibration.sum
          have hsum : s.calibrationSum = .fin x := hx
          rw [hs, calibration_store]
          split_ifs
          · refine ⟨fun p => ?_, ⟨x + v, ?_⟩⟩
            · exact (h.calibration.sensor p)
            · rw [hsum, add_fin, exact_round]
          · exact h.calibration
    | keyPressed key millis =>
        cases hkey : calibrationKey key with
        | some p =>
            rw [step_of_calibrationKey _ s hkey, startCalibration]
            split_ifs
            · exact h.calibration
            · exact h.calibration
            · refine ⟨fun q => ?_, ⟨0, rfl⟩⟩
              have hq := h.calibration.sensor q
              cases p <;> cases q <;> exact hq
        | none =>
            by_cases hclear : isClearKey key = true
            · rw [step_of_isClearKey _ s hclear]
              exact ⟨fun p => by cases p; exacts [⟨615, rfl⟩, ⟨650, rfl⟩], ⟨0, rfl⟩⟩
            · rw [calibration_step_of_otherKey _ s hkey (by simpa using hclear)]
              exact h.calibration
    | draw millis =>
        show FiniteCalibration (draw (.exact pow) s millis).calibration
        rw [calibration_draw]
        exact finiteCalibration_updateCalibration pow h.calibration millis

/-- In exact arithmetic a run over finite lines keeps everything finite. -/
lemma finiteState_run [IsStrictOrderedRing K] {es : List Event}
    (hfin : ∀ e ∈ es, FiniteLine (.exact pow) e) : FiniteState (run (.exact pow) es) :=
  Machine.run_invariant (P := FiniteState) (fun _ hs e he => finiteState_step pow hs (hfin e he))
    ⟨⟨1780, rfl⟩, fun p => by cases p; exacts [⟨1750, rfl⟩, ⟨2050, rfl⟩], ⟨0, rfl⟩⟩

end Exact

/-! ### Status and pitch -/

/-- The reading lies outside the range, at the end of the position `p`. -/
def OutsideAt (s : State K) (p : Endpoint) : Prop :=
  s.sensorStatus = .belowMin ∧ s.calibration.sensor p < s.calibration.sensor p.other
    ∨ s.sensorStatus = .aboveMax ∧ s.calibration.sensor p.other < s.calibration.sensor p

/-- The end of the band at a position. -/
def endFreq (K : Type*) [Field K] : Endpoint → ExtNum K
  | .relaxed => minFreq K
  | .stretched => maxFreq K

/-- The status and the pitch do not contradict each other: inside the band the status is OK,
outside the range the pitch is at an end of the band, and for positions not too close at the end
the reading lies at. -/
structure Consistent (A : FloatArith K) (s : State K) : Prop where
  inside : minFreq K < s.freq → s.freq < maxFreq K → s.sensorStatus = .ok
  outside : s.sensorStatus = .belowMin ∨ s.sensorStatus = .aboveMax →
    s.freq = minFreq K ∨ s.freq = maxFreq K
  atEnd : Processing.literal A (1 / 1000) ≤ (A.sub s.stretchedSensor s.relaxedSensor).abs →
    ∀ p, OutsideAt s p → s.freq = endFreq K p

section Draw

variable [IsStrictOrderedRing K] (pow : ExtNum K → ExtNum K → ExtNum K)

/-- What a status says about three finite numbers. -/
lemma sensorStatus_exact {u : State K} {r t v : K} (hr : u.relaxedSensor = .fin r)
    (ht : u.stretchedSensor = .fin t) (hv : u.smoothedValue = .fin v)
    (hrec : u.sensorDataReceived = true) :
    ((updateSensorStatus (.exact pow) u).sensorStatus = .belowMin → v ≤ r ∧ v ≤ t)
      ∧ ((updateSensorStatus (.exact pow) u).sensorStatus = .aboveMax → r ≤ v ∧ t ≤ v)
      ∧ (updateSensorStatus (.exact pow) u).sensorStatus ≠ .waiting := by
  have hmin : calibratedMin (.exact pow) u = .fin (min r t - 3) := by
    rw [calibratedMin, hr, ht, Processing.min_fin]
    exact sub_fin _ _ _
  have hmax : calibratedMax (.exact pow) u = .fin (max r t + 3) := by
    rw [calibratedMax, hr, ht, Processing.max_fin]
    rfl
  rw [updateSensorStatus, if_neg (by simp [hrec]), hmin, hmax, hv]
  split_ifs with hbelow habove
  · have hlt := fin_lt_fin.mp hbelow
    have h1 := min_le_left r t
    have h2 := min_le_right r t
    exact ⟨fun _ => ⟨by linarith, by linarith⟩, by simp, by simp⟩
  · have hlt := fin_lt_fin.mp habove
    have h1 := le_max_left r t
    have h2 := le_max_right r t
    exact ⟨by simp, fun _ => ⟨by linarith, by linarith⟩, by simp⟩
  · exact ⟨by simp, by simp, by simp⟩

/-- Away from its own end of the range a reading is normalised past that end. -/
lemma freq_of_outsideAt {pow : ExtNum K → ExtNum K → ExtNum K} (hpow : LawfulPow pow)
    {u : State K} {r t v : K} (hr : u.relaxedSensor = .fin r) (ht : u.stretchedSensor = .fin t)
    (hv : u.smoothedValue = .fin v) (hfar : ¬ TooClose r t) :
    (0 ≤ (r - v) * (t - r) → (updatePitch (.exact pow) u).freq = minFreq K)
      ∧ (0 ≤ (v - t) * (t - r) → (updatePitch (.exact pow) u).freq = maxFreq K) := by
  have hne := ne_of_not_tooClose hfar
  have hnormalized := normalized_eq pow hr ht hv
  rw [fraction, if_neg hfar] at hnormalized
  refine ⟨fun h => (freq_of_normalized hpow).1 ?_, fun h => (freq_of_normalized hpow).2 ?_⟩
  · rw [hnormalized, Ramp.ramp_unit_eq_zero hne h]
  · rw [hnormalized, Ramp.ramp_unit_eq_one hne h]

/-- Outside the range at the end of a position, a reading has the pitch of that end. -/
lemma freq_of_status {pow : ExtNum K → ExtNum K → ExtNum K} (hpow : LawfulPow pow) {w : State K}
    {r t v : K} (hr : w.relaxedSensor = .fin r) (ht : w.stretchedSensor = .fin t)
    (hv : w.smoothedValue = .fin v) (hfar : ¬ TooClose r t)
    (hbelow : w.sensorStatus = .belowMin → v ≤ r ∧ v ≤ t)
    (habove : w.sensorStatus = .aboveMax → r ≤ v ∧ t ≤ v) {p : Endpoint} (hout : OutsideAt w p) :
    (updatePitch (.exact pow) w).freq = endFreq K p := by
  obtain ⟨hlow, hhigh⟩ := freq_of_outsideAt hpow hr ht hv hfar
  -- which way the positions lie, and past which of them the reading is
  cases p with
  | relaxed =>
      refine hlow ?_
      rcases hout with ⟨hst, hlt⟩ | ⟨hst, hlt⟩
      · have hrt : w.relaxedSensor < w.stretchedSensor := hlt
        rw [hr, ht, fin_lt_fin] at hrt
        exact mul_nonneg (sub_nonneg.mpr (hbelow hst).1) (sub_nonneg.mpr hrt.le)
      · have htr : w.stretchedSensor < w.relaxedSensor := hlt
        rw [hr, ht, fin_lt_fin] at htr
        exact mul_nonneg_of_nonpos_of_nonpos (sub_nonpos.mpr (habove hst).1)
          (sub_nonpos.mpr htr.le)
  | stretched =>
      refine hhigh ?_
      rcases hout with ⟨hst, hlt⟩ | ⟨hst, hlt⟩
      · have htr : w.stretchedSensor < w.relaxedSensor := hlt
        rw [hr, ht, fin_lt_fin] at htr
        exact mul_nonneg_of_nonpos_of_nonpos (sub_nonpos.mpr (hbelow hst).2)
          (sub_nonpos.mpr htr.le)
      · have hrt : w.relaxedSensor < w.stretchedSensor := hlt
        rw [hr, ht, fin_lt_fin] at hrt
        exact mul_nonneg (sub_nonneg.mpr (habove hst).2) (sub_nonneg.mpr hrt.le)

omit [Field K] [IsStrictOrderedRing K] in
/-- Between different positions a reading outside the range lies at the end of one of them. -/
lemma exists_outsideAt {w : State K} {r t : K} (hr : w.relaxedSensor = .fin r)
    (ht : w.stretchedSensor = .fin t) (hne : r ≠ t)
    (hst : w.sensorStatus = .belowMin ∨ w.sensorStatus = .aboveMax) : ∃ p, OutsideAt w p := by
  have hrt : w.relaxedSensor < w.stretchedSensor ∨ w.stretchedSensor < w.relaxedSensor := by
    rw [hr, ht, fin_lt_fin, fin_lt_fin]
    exact lt_or_gt_of_ne hne
  rcases hst with hst | hst <;> rcases hrt with hrt | hrt
  · exact ⟨.relaxed, Or.inl ⟨hst, hrt⟩⟩
  · exact ⟨.stretched, Or.inl ⟨hst, hrt⟩⟩
  · exact ⟨.stretched, Or.inr ⟨hst, hrt⟩⟩
  · exact ⟨.relaxed, Or.inr ⟨hst, hrt⟩⟩

/-- The status and the pitch of three finite numbers are consistent. -/
lemma consistent_of_fin {pow : ExtNum K → ExtNum K → ExtNum K} (hpow : LawfulPow pow)
    {u : State K} {r t v : K} (hr : u.relaxedSensor = .fin r) (ht : u.stretchedSensor = .fin t)
    (hv : u.smoothedValue = .fin v) (hrec : u.sensorDataReceived = true) :
    Consistent (.exact pow) (updatePitch (.exact pow) (updateSensorStatus (.exact pow) u)) := by
  obtain ⟨hbelow, habove, hwaiting⟩ := sensorStatus_exact pow hr ht hv hrec
  have hcal := calibration_updateSensorStatus (.exact pow) u
  have hread := readings_updateSensorStatus (.exact pow) u
  generalize updateSensorStatus (.exact pow) u = w at hbelow habove hwaiting hcal hread ⊢
  have hr' : w.relaxedSensor = .fin r := (congrArg Calibration.relaxedSensor hcal).trans hr
  have ht' : w.stretchedSensor = .fin t := (congrArg Calibration.stretchedSensor hcal).trans ht
  have hv' : w.smoothedValue = .fin v := (congrArg Readings.smoothedValue hread).trans hv
  have houtside : w.sensorStatus = .belowMin ∨ w.sensorStatus = .aboveMax →
      (updatePitch (.exact pow) w).freq = minFreq K
        ∨ (updatePitch (.exact pow) w).freq = maxFreq K := by
    intro hst
    by_cases hclose : TooClose r t
    · exact Or.inl ((freq_of_normalized hpow).1 (normalized_of_tooClose pow hr' ht' hclose))
    · obtain ⟨p, hp⟩ := exists_outsideAt hr' ht' (ne_of_not_tooClose hclose) hst
      have hfreq := freq_of_status hpow hr' ht' hv' hclose hbelow habove hp
      cases p with
      | relaxed => exact Or.inl hfreq
      | stretched => exact Or.inr hfreq
  refine ⟨fun hlow hhigh => ?_, houtside, fun hfar p hp => ?_⟩
  · have hnot : ¬ (w.sensorStatus = .belowMin ∨ w.sensorStatus = .aboveMax) := by
      intro hst
      rcases houtside hst with hfreq | hfreq
      · exact lt_irrefl _ (hfreq ▸ hlow)
      · exact lt_irrefl _ (hfreq ▸ hhigh)
    show w.sensorStatus = .ok
    cases hst : w.sensorStatus with
    | waiting => exact absurd hst hwaiting
    | belowMin => exact absurd (Or.inl hst) hnot
    | aboveMax => exact absurd (Or.inr hst) hnot
    | ok => rfl
  · have hguard : ¬ ((exact pow).sub w.stretchedSensor w.relaxedSensor).abs
        < Processing.literal (.exact pow) (1 / 1000) := not_lt_of_le hfar
    exact freq_of_status hpow hr' ht' hv' (mt (guard_iff pow hr' ht').mpr hguard) hbelow habove hp

/-- **Status and pitch**: after every `draw` of a run on finite lines, once data has arrived, the
status and the pitch do not contradict each other. -/
theorem status_pitch_agree {pow : ExtNum K → ExtNum K → ExtNum K} (hpow : LawfulPow pow)
    {es : List Event} (hfin : ∀ e ∈ es, FiniteLine (.exact pow) e) (millis : ℤ)
    (hrec : (run (.exact pow) (es ++ [.draw millis])).sensorDataReceived = true) :
    Consistent (.exact pow) (run (.exact pow) (es ++ [.draw millis])) := by
  have hlast := finiteState_run pow hfin
  have hcal := finiteCalibration_updateCalibration pow hlast.calibration millis
  have hread := readings_updateCalibration (.exact pow) (run (.exact pow) es) millis
  have hrec' := (congrArg Readings.sensorDataReceived
    (readings_draw (.exact pow) (run (.exact pow) es) millis)).symm
  obtain ⟨r, hr⟩ := hcal.sensor .relaxed
  obtain ⟨t, ht⟩ := hcal.sensor .stretched
  obtain ⟨v, hv⟩ := hlast.reading
  rw [run_concat] at hrec ⊢
  have hagree := consistent_of_fin hpow hr ht ((congrArg Readings.smoothedValue hread).trans hv)
    ((congrArg Readings.sensorDataReceived hread).trans (hrec'.trans hrec))
  exact ⟨hagree.inside, hagree.outside, hagree.atEnd⟩

end Draw

/-- A reading below the startup range. -/
theorem status_pitch_agree_below :
    Consistent exactRat
      (run exactRat ([.serialEvent (some "1700,1700.00\r\n".toList)] ++ [.draw 0])) := by
  have hline : FiniteLine exactRat (.serialEvent (some "1700,1700.00\r\n".toList)) :=
    finiteLine_of_reading (r := 1700) (v := 1700) (by decide +kernel)
  refine status_pitch_agree lawfulPow_ratPow (fun e he => ?_) 0 (by decide +kernel)
  rw [List.mem_singleton.mp he]
  exact hline

end EmbodiedSynth.Synths2Sensors
