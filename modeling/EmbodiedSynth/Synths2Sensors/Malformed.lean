/-
Malformed lines and the calibrating receiver.

`serialEvent` is meant to drop a line that is not two numbers, but it reads a field that is
no number as NaN, and NaN passes the saturation test, whose two comparisons are both false.

* `WellFormed`: two comma-separated fields, each a finite decimal number after trimming.
* `Rejected`: the lines the guards turn away; `reading_eq_none_iff` checks that these are
  all of them.
* `Untouched`: the ten variables a malformed line is to leave alone.
* `malformed_untouched_iff`: in a reachable state a malformed line leaves them alone exactly
  when the guards reject it, or when it repeats what the state already holds (`Repeats`).
-/
import EmbodiedSynth.Synths2Sensors.Sketch

namespace EmbodiedSynth.Synths2Sensors

open Processing

variable {K : Type*} [Field K] [LinearOrder K] (A : FloatArith K)

/-! ### Lines -/

/-- A finite decimal number, read to the end of the text. -/
def DenotesFiniteDecimal (cs : List Char) : Prop :=
  ∃ q, Numeral.decimal (Numeral.readSign cs).2 = some (q, [])

/-- Two comma-separated fields that both denote finite decimal numbers. -/
def WellFormed (line : List Char) : Prop :=
  ∃ value0 value1, split (trim line) ',' = [value0, value1]
    ∧ DenotesFiniteDecimal (trim value0) ∧ DenotesFiniteDecimal (trim value1)

/-- The lines the guards of `serialEvent` turn away: an empty line, a status line, a line
that has not two fields, and a line whose first field is a saturated reading. -/
def Rejected (line : List Char) : Prop :=
  trim line = [] ∨ startsWith (trim line) "XIAO" = true ∨ startsWith (trim line) "===" = true
    ∨ (split (trim line) ',').length ≠ 2
    ∨ ∃ value0 value1, split (trim line) ',' = [value0, value1]
        ∧ (float A (trim value0) ≤ 1 ∨ float A (trim value0) ≥ 4095)

/-- The guards return early on the rejected lines and on no others. -/
lemma reading_eq_none_iff (line : List Char) : reading A line = none ↔ Rejected A line := by
  rw [reading, Rejected]
  by_cases hnil : trim line = []
  · simp [hnil]
  by_cases hxiao : startsWith (trim line) "XIAO" = true
  · simp [hxiao]
  by_cases heq : startsWith (trim line) "===" = true
  · simp [heq]
  rw [or_iff_right hnil, or_iff_right hxiao, or_iff_right heq]
  simp only [if_neg (mt List.length_eq_zero_iff.mp hnil), if_neg hxiao, if_neg heq]
  split
  · next value0 value1 hsplit =>
      rw [hsplit]
      constructor
      · intro h
        split_ifs at h with hsat
        exact Or.inr ⟨value0, value1, rfl, hsat⟩
      · rintro (h | ⟨w0, w1, hw, hsat⟩)
        · exact absurd rfl h
        · obtain ⟨rfl, rfl⟩ : value0 = w0 ∧ value1 = w1 := by simpa using hw
          rw [if_pos hsat]
  · next hne =>
      refine ⟨fun _ => Or.inl fun hlen => ?_, fun _ => rfl⟩
      obtain ⟨value0, value1, h⟩ := List.length_eq_two.mp hlen
      exact hne value0 value1 h

/-- The numbers of an accepted line are those of its two fields. -/
lemma fields_of_reading {line : List Char} {newRaw newSmoothed : ExtNum K}
    (h : reading A line = some (newRaw, newSmoothed)) :
    ∃ value0 value1, split (trim line) ',' = [value0, value1]
      ∧ float A (trim value0) = newRaw ∧ float A (trim value1) = newSmoothed := by
  simp only [reading] at h
  split_ifs at h
  split at h
  · next value0 value1 hsplit =>
      split_ifs at h
      obtain ⟨rfl, rfl⟩ := Prod.mk.inj (Option.some.inj h)
      exact ⟨value0, value1, hsplit, rfl, rfl⟩
  · exact absurd h (by simp)

/-! ### The variables a malformed line is to leave alone -/

/-- The ten variables that hold the reading, its status and the calibration sum. -/
structure Untouched (s t : State K) : Prop where
  rawValue : t.rawValue = s.rawValue
  smoothedValue : t.smoothedValue = s.smoothedValue
  sensorDataReceived : t.sensorDataReceived = s.sensorDataReceived
  observedMin : t.observedMin = s.observedMin
  observedMax : t.observedMax = s.observedMax
  sensorStatus : t.sensorStatus = s.sensorStatus
  amountBelow : t.amountBelow = s.amountBelow
  amountAbove : t.amountAbove = s.amountAbove
  calibrationSum : t.calibrationSum = s.calibrationSum
  calibrationSamples : t.calibrationSamples = s.calibrationSamples

omit [Field K] [LinearOrder K] in
lemma Untouched.refl (s : State K) : Untouched s s :=
  ⟨rfl, rfl, rfl, rfl, rfl, rfl, rfl, rfl, rfl, rfl⟩

/-- The status and the amount it comes with are those of the current reading and the current
thresholds. -/
def StatusCurrent (s : State K) : Prop :=
  if s.smoothedValue < calibratedMin A s then
    s.sensorStatus = .belowMin ∧ s.amountBelow = A.sub (calibratedMin A s) s.smoothedValue
  else if s.smoothedValue > calibratedMax A s then
    s.sensorStatus = .aboveMax ∧ s.amountAbove = A.sub s.smoothedValue (calibratedMax A s)
  else s.sensorStatus = .ok

/-- The two fields of the line are read as the numbers the state already holds, no window is
open to count the line as a sample, and the status is current. -/
structure Repeats (s : State K) (line : List Char) : Prop where
  numbers : ∃ value0 value1, split (trim line) ',' = [value0, value1]
    ∧ float A (trim value0) = s.rawValue ∧ float A (trim value1) = s.smoothedValue
  sensorDataReceived : s.sensorDataReceived = true
  closed : s.calibration.windowOpen = false
  current : StatusCurrent A s

/-! ### The observed range contains the reading -/

/-- Once data has arrived the reading lies in the observed range, as far as comparisons can
tell. -/
def InObservedRange (r : Readings K) : Prop :=
  r.sensorDataReceived = true →
    ¬ r.smoothedValue < r.observedMin ∧ ¬ r.observedMax < r.smoothedValue

omit [Field K] in
lemma inObservedRange_updateObservedRange (s : State K) :
    InObservedRange (updateObservedRange s).readings := by
  intro _
  rw [updateObservedRange]
  split_ifs with h1 h2 h2 <;> simp_all [State.readings, ExtNum.lt_irrefl]

lemma inObservedRange_store (s : State K) (newRaw newSmoothed : ExtNum K) :
    InObservedRange (store A s newRaw newSmoothed).readings := by
  rw [store, readings_collectSample, readings_updateSensorStatus]
  exact inObservedRange_updateObservedRange _

lemma inObservedRange_step {s : State K} (h : InObservedRange s.readings) (e : Event) :
    InObservedRange (step A s e).readings := by
  cases e with
  | serialEvent incoming =>
      rcases serialEvent_cases A incoming with ⟨-, hs⟩ | ⟨-, newRaw, newSmoothed, -, -, hs⟩
      · rw [hs]; exact h
      · rw [hs]; exact inObservedRange_store A s newRaw newSmoothed
  | keyPressed key millis =>
      show InObservedRange (keyPressed s key millis).readings
      rcases keyPressed_cases s key millis with ⟨p, -, -, hk⟩ | ⟨-, -, hk⟩ | ⟨-, -, hk | hk | hk⟩
      · rw [hk, readings_startCalibration]; exact h
      · rw [hk, readings_clearCalibration]; exact h
      · rw [hk]; exact h
      · rw [hk, resetObservedRange]
        intro hr
        split_ifs at hr ⊢ with hrec
        · exact ⟨ExtNum.lt_irrefl _, ExtNum.lt_irrefl _⟩
        · exact absurd hr hrec
      · rw [hk]; exact h
  | draw millis =>
      show InObservedRange (draw A s millis).readings
      rw [readings_draw]
      exact h

lemma Reachable.inObservedRange {s : State K} (hs : Reachable A s) :
    InObservedRange s.readings :=
  hs.invariant (P := fun t => InObservedRange t.readings)
    (fun h => absurd h Bool.false_ne_true) (fun _ e h => inObservedRange_step A h e)

/-! ### What an accepted line changes -/

omit [Field K] in
lemma updateObservedRange_eq_self {s : State K}
    (h : ¬ s.smoothedValue < s.observedMin ∧ ¬ s.observedMax < s.smoothedValue) :
    updateObservedRange s = s := by
  simp [updateObservedRange, h.1, h.2]

/-- Recomputing the status changes nothing exactly when it is current. -/
lemma updateSensorStatus_eq_self_iff {s : State K} (h : s.sensorDataReceived = true) :
    updateSensorStatus A s = s ↔ StatusCurrent A s := by
  have hrec : ¬ (!s.sensorDataReceived) = true := by simp [h]
  rw [updateSensorStatus, if_neg hrec, StatusCurrent]
  split_ifs <;> (constructor <;> intro heq)
  · exact ⟨(congrArg State.sensorStatus heq).symm, (congrArg State.amountBelow heq).symm⟩
  · rw [← heq.1, ← heq.2]
  · exact ⟨(congrArg State.sensorStatus heq).symm, (congrArg State.amountAbove heq).symm⟩
  · rw [← heq.1, ← heq.2]
  · exact (congrArg State.sensorStatus heq).symm
  · rw [← heq]

/-- The status update writes the status and the two amounts. -/
lemma updateSensorStatus_eq (s : State K) :
    updateSensorStatus A s
      = { s with
          sensorStatus := (updateSensorStatus A s).sensorStatus
          amountBelow := (updateSensorStatus A s).amountBelow
          amountAbove := (updateSensorStatus A s).amountAbove } := by
  rw [updateSensorStatus]; split_ifs <;> rfl

/-- A line that repeats the numbers of the state, outside a window, only updates the status. -/
lemma store_of_repeat {s : State K} (hobs : InObservedRange s.readings)
    (hrec : s.sensorDataReceived = true) (hclosed : s.calibration.windowOpen = false) :
    store A s s.rawValue s.smoothedValue = updateSensorStatus A s := by
  have heta : { s with rawValue := s.rawValue, smoothedValue := s.smoothedValue,
                       sensorDataReceived := true } = s := by rw [← hrec]
  have hcal : (updateSensorStatus A s).calibration.windowOpen = false := by
    rw [calibration_updateSensorStatus, hclosed]
  rw [store, heta, updateObservedRange_eq_self (hobs hrec), collectSample_of_closed A hcal]

/-- An accepted line leaves the ten variables alone exactly when its numbers, the arrival of
data, the closed window and the status are already in the state. -/
lemma untouched_store_iff {s : State K} (hobs : InObservedRange s.readings)
    (newRaw newSmoothed : ExtNum K) :
    Untouched s (store A s newRaw newSmoothed)
      ↔ (newRaw = s.rawValue ∧ newSmoothed = s.smoothedValue)
        ∧ s.sensorDataReceived = true ∧ s.calibration.windowOpen = false ∧ StatusCurrent A s := by
  constructor
  · intro h
    obtain ⟨hraw, hsmooth, hrec⟩ := store_reading A s newRaw newSmoothed
    have hrec' : s.sensorDataReceived = true := h.sensorDataReceived.symm.trans hrec
    obtain rfl : newRaw = s.rawValue := hraw.symm.trans h.rawValue
    obtain rfl : newSmoothed = s.smoothedValue := hsmooth.symm.trans h.smoothedValue
    have hclosed : s.calibration.windowOpen = false := by
      by_contra hopen
      have hcal := calibration_store A s s.rawValue s.smoothedValue
      rw [if_pos (by simpa using hopen)] at hcal
      have hcount := (congrArg Calibration.calibrationSamples hcal).symm.trans h.calibrationSamples
      exact Nat.succ_ne_self _ hcount
    rw [store_of_repeat A hobs hrec' hclosed] at h
    refine ⟨⟨rfl, rfl⟩, hrec', hclosed, (updateSensorStatus_eq_self_iff A hrec').mp ?_⟩
    rw [updateSensorStatus_eq, h.sensorStatus, h.amountBelow, h.amountAbove]
  · rintro ⟨⟨rfl, rfl⟩, hrec, hclosed, hcur⟩
    rw [store_of_repeat A hobs hrec hclosed, (updateSensorStatus_eq_self_iff A hrec).mpr hcur]
    exact Untouched.refl s

/-- **Malformed lines**: in a reachable state a malformed line leaves the ten variables alone
exactly when a guard rejects it, or when it repeats what the state already holds. -/
theorem malformed_untouched_iff {s : State K} (hs : Reachable A s) (line : List Char) :
    (¬ WellFormed line → Untouched s (serialEvent A s (some line)))
      ↔ WellFormed line ∨ Rejected A line ∨ Repeats A s line := by
  rw [← reading_eq_none_iff, ← or_iff_not_imp_left]
  refine or_congr_right ?_
  rw [serialEvent]
  cases hread : reading A line with
  | none => exact iff_of_true (Untouched.refl s) (Or.inl rfl)
  | some r =>
      obtain ⟨newRaw, newSmoothed⟩ := r
      show Untouched s (store A s newRaw newSmoothed) ↔ _
      rw [untouched_store_iff A hs.inObservedRange]
      obtain ⟨value0, value1, hsplit, hraw, hsmooth⟩ := fields_of_reading A hread
      constructor
      · rintro ⟨⟨rfl, rfl⟩, hrec, hclosed, hcur⟩
        exact Or.inr ⟨⟨value0, value1, hsplit, hraw, hsmooth⟩, hrec, hclosed, hcur⟩
      · rintro (h | h)
        · exact absurd h (by simp)
        · obtain ⟨w0, w1, hw, hraw', hsmooth'⟩ := h.numbers
          obtain ⟨rfl, rfl⟩ : value0 = w0 ∧ value1 = w1 := by simpa [hsplit] using hw
          exact ⟨⟨hraw.symm.trans hraw', hsmooth.symm.trans hsmooth'⟩, h.sensorDataReceived,
            h.closed, h.current⟩

/-- A line whose second number got lost. -/
def missingSmoothed : List Char := "1800,\r\n".toList

theorem malformed_untouched_iff_startup :
    (¬ WellFormed missingSmoothed →
        Untouched (init FloatArith.exactRat)
          (serialEvent FloatArith.exactRat (init FloatArith.exactRat) (some missingSmoothed)))
      ↔ WellFormed missingSmoothed ∨ Rejected FloatArith.exactRat missingSmoothed
        ∨ Repeats FloatArith.exactRat (init FloatArith.exactRat) missingSmoothed :=
  malformed_untouched_iff _ (Machine.Reachable.refl _ _) _

/-- The lost number is read as NaN, and the line is stored at startup. -/
theorem missingSmoothed_stored :
    Reachable FloatArith.exactRat (init FloatArith.exactRat) ∧ ¬ WellFormed missingSmoothed
      ∧ ¬ Untouched (init FloatArith.exactRat)
        (serialEvent FloatArith.exactRat (init FloatArith.exactRat) (some missingSmoothed)) := by
  refine ⟨Machine.Reachable.refl _ _, ?_, fun h => ?_⟩
  · rintro ⟨value0, value1, hsplit, -, q, hq⟩
    have hfields : split (trim missingSmoothed) ',' = ["1800".toList, []] := by decide
    rw [hfields, List.cons.injEq, List.cons.injEq] at hsplit
    obtain ⟨-, rfl, -⟩ := hsplit
    exact absurd hq (by simp [trim, javaTrim, Numeral.readSign, Numeral.decimal_nil])
  · exact absurd h.sensorDataReceived (by decide +kernel)

end EmbodiedSynth.Synths2Sensors
