/-
The calibrating receiver, `sketch_embodied_synths_2sensors.pde`.

* `State`: the variables of the sketch; `init`: their startup values.
* `reading`: the guards of `serialEvent` up to the assignment; `store`: what an accepted
  reading does to the state; `serialEvent` puts the two together.
* `startCalibration`, `updateCalibration`, `clearCalibration`: the calibration window.
* `updateSensorStatus`, `updatePitch`, `updateSound`: the rest of `draw`.
* `Event`, `step`: the handlers as the steps of one machine.
* `accepted`: the number an event makes the current reading, if it does.

Times are the values of `millis()`, which is taken not to wrap.  Console output, the layout
of the window and the drawing of the waveform are left out: nothing reads them back.
-/
import EmbodiedSynth.Library.Machine
import EmbodiedSynth.Processing.Api

namespace EmbodiedSynth.Synths2Sensors

open Processing

/-- The values of `sensorStatus`. -/
inductive SensorStatus where
  | waiting
  | belowMin
  | aboveMax
  | ok
  deriving DecidableEq, Repr

/-- The two calibrated positions of the sensor. -/
inductive Endpoint where
  | relaxed
  | stretched
  deriving DecidableEq, Repr

/-- The position that is not `p`. -/
def Endpoint.other : Endpoint → Endpoint
  | .relaxed => .stretched
  | .stretched => .relaxed

/-- The variables of the sketch, and what the oscillator was last told. -/
structure State (K : Type*) where
  rawValue : ExtNum K
  smoothedValue : ExtNum K
  sensorDataReceived : Bool
  relaxedSensor : ExtNum K
  stretchedSensor : ExtNum K
  relaxedCalibrated : Bool
  stretchedCalibrated : Bool
  calibratingRelaxed : Bool
  calibratingStretched : Bool
  calibrationStartTime : ℤ
  calibrationSum : ExtNum K
  calibrationSamples : ℕ
  observedMin : ExtNum K
  observedMax : ExtNum K
  normalized : ExtNum K
  freq : ExtNum K
  muted : Bool
  sensorStatus : SensorStatus
  amountBelow : ExtNum K
  amountAbove : ExtNum K
  sineFreq : Option (ExtNum K)
  sineAmp : ExtNum K

section Constants

variable (K : Type*) [Field K]

def calibrationDuration : ℤ := 1500

def calibrationMargin : ExtNum K := 3

def minFreq : ExtNum K := 100

def maxFreq : ExtNum K := 1000

/-- `Float.MAX_VALUE`. -/
def floatMax : K := (((2 ^ 24 - 1) * 2 ^ 104 : ℕ) : K)

end Constants

variable {K : Type*} [Field K] [LinearOrder K] (A : FloatArith K)

/-- `float amplitude`. -/
def amplitude : ExtNum K := literal A (2 / 10)

/-- The startup values. -/
def init : State K where
  rawValue := 0
  smoothedValue := 1780
  sensorDataReceived := false
  relaxedSensor := 1750
  stretchedSensor := 2050
  relaxedCalibrated := false
  stretchedCalibrated := false
  calibratingRelaxed := false
  calibratingStretched := false
  calibrationStartTime := 0
  calibrationSum := 0
  calibrationSamples := 0
  observedMin := .fin (floatMax K)
  observedMax := .fin (-floatMax K)
  normalized := 0
  freq := minFreq K
  muted := false
  sensorStatus := .waiting
  amountBelow := 0
  amountAbove := 0
  sineFreq := none
  sineAmp := amplitude A

/-! ### Two views of the state

The readings with their observed range, and the calibration.  Each update of the sketch works
on one of the two. -/

/-- The current reading and the observed range. -/
structure Readings (K : Type*) where
  rawValue : ExtNum K
  smoothedValue : ExtNum K
  sensorDataReceived : Bool
  observedMin : ExtNum K
  observedMax : ExtNum K

/-- The calibrated positions and the calibration window. -/
structure Calibration (K : Type*) where
  relaxedSensor : ExtNum K
  stretchedSensor : ExtNum K
  relaxedCalibrated : Bool
  stretchedCalibrated : Bool
  calibratingRelaxed : Bool
  calibratingStretched : Bool
  calibrationStartTime : ℤ
  calibrationSum : ExtNum K
  calibrationSamples : ℕ

namespace Calibration

/-- Whether the window of `p` is open. -/
def calibrating (c : Calibration K) : Endpoint → Bool
  | .relaxed => c.calibratingRelaxed
  | .stretched => c.calibratingStretched

/-- The value of the position `p`. -/
def sensor (c : Calibration K) : Endpoint → ExtNum K
  | .relaxed => c.relaxedSensor
  | .stretched => c.stretchedSensor

/-- Whether the position `p` was calibrated. -/
def calibrated (c : Calibration K) : Endpoint → Bool
  | .relaxed => c.relaxedCalibrated
  | .stretched => c.stretchedCalibrated

/-- Whether some window is open. -/
def windowOpen (c : Calibration K) : Bool := c.calibratingRelaxed || c.calibratingStretched

end Calibration

namespace State

/-- The readings of a state. -/
def readings (s : State K) : Readings K :=
  ⟨s.rawValue, s.smoothedValue, s.sensorDataReceived, s.observedMin, s.observedMax⟩

/-- The calibration of a state. -/
def calibration (s : State K) : Calibration K :=
  ⟨s.relaxedSensor, s.stretchedSensor, s.relaxedCalibrated, s.stretchedCalibrated,
    s.calibratingRelaxed, s.calibratingStretched, s.calibrationStartTime, s.calibrationSum,
    s.calibrationSamples⟩

/-- The flag of the window of `p` set. -/
def setCalibrating (s : State K) : Endpoint → State K
  | .relaxed => { s with calibratingRelaxed := true }
  | .stretched => { s with calibratingStretched := true }

end State

/-! ### Status and observed range -/

/-- The lower threshold of the status. -/
def calibratedMin (s : State K) : ExtNum K :=
  A.sub (Processing.min s.relaxedSensor s.stretchedSensor) (calibrationMargin K)

/-- The upper threshold of the status. -/
def calibratedMax (s : State K) : ExtNum K :=
  A.add (Processing.max s.relaxedSensor s.stretchedSensor) (calibrationMargin K)

/-- `updateSensorStatus()`.  Each branch writes its own amount and leaves the other. -/
def updateSensorStatus (s : State K) : State K :=
  if !s.sensorDataReceived then { s with sensorStatus := .waiting }
  else if s.smoothedValue < calibratedMin A s then
    { s with
      sensorStatus := .belowMin
      amountBelow := A.sub (calibratedMin A s) s.smoothedValue }
  else if s.smoothedValue > calibratedMax A s then
    { s with
      sensorStatus := .aboveMax
      amountAbove := A.sub s.smoothedValue (calibratedMax A s) }
  else { s with sensorStatus := .ok }

/-- `updateObservedRange()`: two independent comparisons. -/
def updateObservedRange (s : State K) : State K :=
  let s := if s.smoothedValue < s.observedMin then { s with observedMin := s.smoothedValue } else s
  if s.smoothedValue > s.observedMax then { s with observedMax := s.smoothedValue } else s

/-- `resetObservedRange()`. -/
def resetObservedRange (s : State K) : State K :=
  if s.sensorDataReceived then
    { s with observedMin := s.smoothedValue, observedMax := s.smoothedValue }
  else { s with observedMin := .fin (floatMax K), observedMax := .fin (-floatMax K) }

/-! ### Serial input -/

/-- The guards of `serialEvent` on a line: the raw and the smoothed number it goes on with,
or `none` where it returns early.  `float` does not throw, so the handler of the source
that catches a parse error is never entered. -/
def reading (incoming : List Char) : Option (ExtNum K × ExtNum K) :=
  let incoming := trim incoming
  if incoming.length = 0 then none
  else if startsWith incoming "XIAO" then none
  else if startsWith incoming "===" then none
  else match split incoming ',' with
    | [value0, value1] =>
        let newRaw := float A (trim value0)
        let newSmoothed := float A (trim value1)
        -- reject obvious ADC saturation and disconnection
        if newRaw ≤ 1 ∨ newRaw ≥ 4095 then none else some (newRaw, newSmoothed)
    | _ => none

/-- The calibration sample taken from an accepted reading. -/
def collectSample (s : State K) : State K :=
  if s.calibratingRelaxed || s.calibratingStretched then
    { s with
      calibrationSum := A.add s.calibrationSum s.smoothedValue
      calibrationSamples := s.calibrationSamples + 1 }
  else s

/-- What `serialEvent` does with the numbers of an accepted line. -/
def store (s : State K) (newRaw newSmoothed : ExtNum K) : State K :=
  collectSample A (updateSensorStatus A (updateObservedRange
    { s with rawValue := newRaw, smoothedValue := newSmoothed, sensorDataReceived := true }))

/-- `serialEvent(p)`, on what `readStringUntil` returned. -/
def serialEvent (s : State K) : Option (List Char) → State K
  | none => s
  | some incoming =>
      match reading A incoming with
      | none => s
      | some (newRaw, newSmoothed) => store A s newRaw newSmoothed

/-! ### Calibration -/

/-- The common body of `startRelaxedCalibration()` and `startStretchedCalibration()`, at the
time `millis`. -/
def startCalibration (p : Endpoint) (s : State K) (millis : ℤ) : State K :=
  if !s.sensorDataReceived then s
  else if s.calibratingRelaxed || s.calibratingStretched then s
  else
    { s.setCalibrating p with
      calibrationStartTime := millis
      calibrationSum := 0
      calibrationSamples := 0 }

/-- `startRelaxedCalibration()`. -/
def startRelaxedCalibration (s : State K) (millis : ℤ) : State K :=
  startCalibration .relaxed s millis

/-- `startStretchedCalibration()`. -/
def startStretchedCalibration (s : State K) (millis : ℤ) : State K :=
  startCalibration .stretched s millis

/-- `updateCalibration()`, at the time `millis`. -/
def updateCalibration (s : State K) (millis : ℤ) : State K :=
  if !s.calibratingRelaxed && !s.calibratingStretched then s
  else if millis - s.calibrationStartTime < calibrationDuration then s
  else if s.calibrationSamples = 0 then
    { s with calibratingRelaxed := false, calibratingStretched := false }
  else
    let measuredValue := A.div s.calibrationSum (A.ofInt s.calibrationSamples)
    let s := if s.calibratingRelaxed then
        { s with relaxedSensor := measuredValue, relaxedCalibrated := true } else s
    let s := if s.calibratingStretched then
        { s with stretchedSensor := measuredValue, stretchedCalibrated := true } else s
    { s with calibratingRelaxed := false, calibratingStretched := false }

/-- `clearCalibration()`.  It leaves the start time, and its endpoints are not the startup
ones. -/
def clearCalibration (s : State K) : State K :=
  { s with
    relaxedSensor := 615
    stretchedSensor := 650
    relaxedCalibrated := false
    stretchedCalibrated := false
    calibratingRelaxed := false
    calibratingStretched := false
    calibrationSum := 0
    calibrationSamples := 0 }

/-! ### Sound -/

/-- `updatePitch()`: the exponential pitch of the normalised reading. -/
def updatePitch (s : State K) : State K :=
  let calibrationRange := A.sub s.stretchedSensor s.relaxedSensor
  let normalized :=
    if calibrationRange.abs < literal A (1 / 1000) then 0
    else A.div (A.sub s.smoothedValue s.relaxedSensor) calibrationRange
  let normalized := constrain normalized 0 1
  { s with
    normalized := normalized
    freq := A.mul (minFreq K) (A.pow (A.div (maxFreq K) (minFreq K)) normalized) }

/-- `updateSound()`. -/
def updateSound (s : State K) : State K :=
  { s with
    sineFreq := some s.freq
    sineAmp := if s.muted then 0 else amplitude A }

/-! ### The handlers as a machine -/

/-- `draw()`, at the time `millis`. -/
def draw (s : State K) (millis : ℤ) : State K :=
  updateSound A (updatePitch A (updateSensorStatus A (updateCalibration A s millis)))

/-- `keyPressed()` with the key `key`, at the time `millis`. -/
def keyPressed (s : State K) (key : Char) (millis : ℤ) : State K :=
  let s := if key = 'r' ∨ key = 'R' then startRelaxedCalibration s millis else s
  let s := if key = 's' ∨ key = 'S' then startStretchedCalibration s millis else s
  let s := if key = 'm' ∨ key = 'M' then { s with muted := !s.muted } else s
  let s := if key = 'c' ∨ key = 'C' then clearCalibration s else s
  if key = 'x' ∨ key = 'X' then resetObservedRange s else s

/-- The events the sketch handles. -/
inductive Event where
  | serialEvent (incoming : Option (List Char))
  | keyPressed (key : Char) (millis : ℤ)
  | draw (millis : ℤ)

/-- One handler, run to its end. -/
def step (s : State K) : Event → State K
  | .serialEvent incoming => serialEvent A s incoming
  | .keyPressed key millis => keyPressed s key millis
  | .draw millis => draw A s millis

/-- The state after the events `es`, from startup. -/
def run (es : List Event) : State K := Machine.run (step A) (init A) es

lemma run_append (es fs : List Event) :
    run A (es ++ fs) = Machine.run (step A) (run A es) fs :=
  Machine.run_append _ _ _ _

lemma run_concat (es : List Event) (e : Event) :
    run A (es ++ [e]) = step A (run A es) e :=
  Machine.run_concat _ _ _ _

/-- The states the sketch can be in. -/
def Reachable (s : State K) : Prop := Machine.Reachable (step A) (init A) s

/-! ### Lines -/

/-- The smoothed number of an accepted line. -/
def accepted : Event → Option (ExtNum K)
  | .serialEvent (some line) => (reading A line).map Prod.snd
  | _ => none

variable {A} in
/-- It is read from a line. -/
lemma exists_reading_of_accepted {e : Event} {newSmoothed : ExtNum K}
    (h : accepted A e = some newSmoothed) :
    ∃ line newRaw, e = .serialEvent (some line) ∧ reading A line = some (newRaw, newSmoothed) := by
  cases e with
  | serialEvent incoming =>
      cases incoming with
      | none => exact absurd h (by simp [accepted])
      | some line =>
          obtain ⟨r, hr, rfl⟩ := Option.map_eq_some_iff.mp h
          exact ⟨line, r.1, rfl, hr⟩
  | keyPressed key millis => exact absurd h (by simp [accepted])
  | draw millis => exact absurd h (by simp [accepted])

/-- What a line does: nothing, or it is accepted and its numbers are stored. -/
lemma serialEvent_cases (incoming : Option (List Char)) :
    (accepted A (.serialEvent incoming) = none
        ∧ ∀ s, step A s (.serialEvent incoming) = s)
      ∨ ∃ line newRaw newSmoothed, incoming = some line
        ∧ reading A line = some (newRaw, newSmoothed)
        ∧ ∀ s, step A s (.serialEvent incoming) = store A s newRaw newSmoothed := by
  cases incoming with
  | none => exact Or.inl ⟨rfl, fun _ => rfl⟩
  | some line =>
      cases hread : reading A line with
      | none =>
          refine Or.inl ⟨by rw [accepted, hread]; rfl, fun s => ?_⟩
          rw [step, serialEvent, hread]
      | some r =>
          refine Or.inr ⟨line, r.1, r.2, rfl, hread, fun s => ?_⟩
          rw [step, serialEvent, hread]

/-! ### What the handlers leave alone -/

omit [Field K] in
/-- The observed range is apart from everything else. -/
lemma updateObservedRange_fields (s : State K) :
    (updateObservedRange s).rawValue = s.rawValue
      ∧ (updateObservedRange s).smoothedValue = s.smoothedValue
      ∧ (updateObservedRange s).sensorDataReceived = s.sensorDataReceived
      ∧ (updateObservedRange s).amountBelow = s.amountBelow
      ∧ (updateObservedRange s).amountAbove = s.amountAbove := by
  rw [updateObservedRange]
  split_ifs <;> exact ⟨rfl, rfl, rfl, rfl, rfl⟩

@[simp] lemma readings_updateSensorStatus (s : State K) :
    (updateSensorStatus A s).readings = s.readings := by
  rw [updateSensorStatus]; split_ifs <;> rfl

@[simp] lemma calibration_updateSensorStatus (s : State K) :
    (updateSensorStatus A s).calibration = s.calibration := by
  rw [updateSensorStatus]; split_ifs <;> rfl

omit [Field K] in
@[simp] lemma calibration_updateObservedRange (s : State K) :
    (updateObservedRange s).calibration = s.calibration := by
  rw [updateObservedRange]; split_ifs <;> rfl

omit [LinearOrder K] in
@[simp] lemma calibration_resetObservedRange (s : State K) :
    (resetObservedRange s).calibration = s.calibration := by
  rw [resetObservedRange]; split_ifs <;> rfl

/-- Outside a window no sample is taken. -/
lemma collectSample_of_closed {s : State K} (h : s.calibration.windowOpen = false) :
    collectSample A s = s :=
  if_neg (Bool.not_eq_true _ ▸ h)

/-- Inside a window the reading is added and counted. -/
lemma calibration_collectSample (s : State K) :
    (collectSample A s).calibration
      = if s.calibration.windowOpen then
          { s.calibration with
            calibrationSum := A.add s.calibration.calibrationSum s.smoothedValue
            calibrationSamples := s.calibration.calibrationSamples + 1 }
        else s.calibration := by
  show (if s.calibration.windowOpen then _ else _ : State K).calibration = _
  split_ifs <;> rfl

@[simp] lemma readings_collectSample (s : State K) :
    (collectSample A s).readings = s.readings := by
  rw [collectSample]; split_ifs <;> rfl

/-- An accepted reading is stored. -/
lemma store_reading (s : State K) (newRaw newSmoothed : ExtNum K) :
    (store A s newRaw newSmoothed).rawValue = newRaw
      ∧ (store A s newRaw newSmoothed).smoothedValue = newSmoothed
      ∧ (store A s newRaw newSmoothed).sensorDataReceived = true := by
  have hreadings : (store A s newRaw newSmoothed).readings
      = (updateObservedRange
          { s with rawValue := newRaw, smoothedValue := newSmoothed,
                   sensorDataReceived := true }).readings := by
    rw [store, readings_collectSample, readings_updateSensorStatus]
  obtain ⟨hraw, hsmooth, hrec, -⟩ := updateObservedRange_fields
    { s with rawValue := newRaw, smoothedValue := newSmoothed, sensorDataReceived := true }
  exact ⟨(congrArg Readings.rawValue hreadings).trans hraw,
    (congrArg Readings.smoothedValue hreadings).trans hsmooth,
    (congrArg Readings.sensorDataReceived hreadings).trans hrec⟩

/-- An accepted line counts as a sample inside a window and changes no calibration outside
one. -/
lemma calibration_store (s : State K) (newRaw newSmoothed : ExtNum K) :
    (store A s newRaw newSmoothed).calibration
      = if s.calibration.windowOpen then
          { s.calibration with
            calibrationSum := A.add s.calibrationSum newSmoothed
            calibrationSamples := s.calibrationSamples + 1 }
        else s.calibration := by
  have hreadings := readings_collectSample A (updateSensorStatus A (updateObservedRange
    { s with rawValue := newRaw, smoothedValue := newSmoothed, sensorDataReceived := true }))
  have hsmooth := (congrArg Readings.smoothedValue hreadings).symm.trans
    (store_reading A s newRaw newSmoothed).2.1
  rw [store, calibration_collectSample, calibration_updateSensorStatus,
    calibration_updateObservedRange]
  simp only [State.readings] at hsmooth
  rw [hsmooth]
  rfl

/-- Outside a window a line changes no calibration. -/
lemma calibration_serialEvent_of_closed {s : State K} (h : s.calibration.windowOpen = false)
    (incoming : Option (List Char)) :
    (step A s (.serialEvent incoming)).calibration = s.calibration := by
  rcases serialEvent_cases A incoming with ⟨-, hs⟩ | ⟨-, newRaw, newSmoothed, -, -, hs⟩
  · rw [hs]
  · rw [hs, calibration_store, if_neg (Bool.not_eq_true _ ▸ h)]

omit [LinearOrder K] in
@[simp] lemma readings_startCalibration (p : Endpoint) (s : State K) (millis : ℤ) :
    (startCalibration p s millis).readings = s.readings := by
  cases p <;> (rw [startCalibration]; split_ifs <;> rfl)

@[simp] lemma readings_updateCalibration (s : State K) (millis : ℤ) :
    (updateCalibration A s millis).readings = s.readings := by
  simp only [updateCalibration]; split_ifs <;> rfl

omit [LinearOrder K] in
@[simp] lemma readings_clearCalibration (s : State K) :
    (clearCalibration s).readings = s.readings := rfl

@[simp] lemma readings_draw (s : State K) (millis : ℤ) :
    (draw A s millis).readings = s.readings := by
  show (updateSensorStatus A (updateCalibration A s millis)).readings = s.readings
  rw [readings_updateSensorStatus, readings_updateCalibration]

/-- Of the steps of `draw` only `updateCalibration` touches the calibration. -/
lemma calibration_draw (s : State K) (millis : ℤ) :
    (draw A s millis).calibration = (updateCalibration A s millis).calibration :=
  calibration_updateSensorStatus A (updateCalibration A s millis)

omit [Field K] [LinearOrder K] in
/-- The first test of `updateCalibration`. -/
lemma not_windowOpen (s : State K) :
    (!s.calibratingRelaxed && !s.calibratingStretched) = !s.calibration.windowOpen :=
  (Bool.not_or _ _).symm

/-- Outside a window `updateCalibration` does nothing. -/
lemma updateCalibration_of_closed {s : State K} (h : s.calibration.windowOpen = false)
    (millis : ℤ) : updateCalibration A s millis = s := by
  rw [updateCalibration, not_windowOpen, h, if_pos (Bool.not_false)]

/-- Before the duration is over it does nothing either. -/
lemma updateCalibration_of_early {s : State K} {millis : ℤ}
    (h : millis - s.calibrationStartTime < calibrationDuration) :
    updateCalibration A s millis = s := by
  rw [updateCalibration, if_pos h]
  split_ifs <;> rfl

/-! ### Keys -/

/-- The position a key starts to calibrate. -/
def calibrationKey (key : Char) : Option Endpoint :=
  if key = 'r' ∨ key = 'R' then some .relaxed
  else if key = 's' ∨ key = 'S' then some .stretched
  else none

/-- Whether a key clears the calibration. -/
def isClearKey (key : Char) : Bool := key = 'c' || key = 'C'

omit [LinearOrder K] in
/-- What a key does: at most one of the five tests of `keyPressed` succeeds. -/
lemma keyPressed_cases (s : State K) (key : Char) (millis : ℤ) :
    (∃ p, calibrationKey key = some p ∧ isClearKey key = false
        ∧ keyPressed s key millis = startCalibration p s millis)
      ∨ (calibrationKey key = none ∧ isClearKey key = true
        ∧ keyPressed s key millis = clearCalibration s)
      ∨ (calibrationKey key = none ∧ isClearKey key = false
        ∧ (keyPressed s key millis = { s with muted := !s.muted }
          ∨ keyPressed s key millis = resetObservedRange s ∨ keyPressed s key millis = s)) := by
  by_cases hr : key = 'r' ∨ key = 'R'
  · refine Or.inl ⟨.relaxed, if_pos hr, ?_, ?_⟩ <;> rcases hr with rfl | rfl <;> rfl
  by_cases hs : key = 's' ∨ key = 'S'
  · refine Or.inl ⟨.stretched, ?_, ?_, ?_⟩ <;> rcases hs with rfl | rfl <;> rfl
  by_cases hc : key = 'c' ∨ key = 'C'
  · refine Or.inr (Or.inl ⟨?_, ?_, ?_⟩) <;> rcases hc with rfl | rfl <;> rfl
  refine Or.inr (Or.inr ⟨by simp [calibrationKey, hr, hs], ?_, ?_⟩)
  · simpa [isClearKey] using hc
  by_cases hm : key = 'm' ∨ key = 'M'
  · left; rcases hm with rfl | rfl <;> rfl
  right
  by_cases hx : key = 'x' ∨ key = 'X'
  · left; simp [keyPressed, hr, hs, hc, hm, hx]
  · right; simp [keyPressed, hr, hs, hc, hm, hx]

/-! ### The current reading -/

/-- Only an accepted line changes the current reading. -/
lemma smoothedValue_step (s : State K) (e : Event) :
    (step A s e).smoothedValue = (accepted A e).getD s.smoothedValue := by
  cases e with
  | serialEvent incoming =>
      rcases serialEvent_cases A incoming with ⟨hacc, hs⟩ | ⟨line, newRaw, newSmoothed, rfl, hr, hs⟩
      · rw [hs, hacc]; rfl
      · rw [hs, accepted, hr]
        exact (store_reading A s newRaw newSmoothed).2.1
  | keyPressed key millis =>
      show (keyPressed s key millis).smoothedValue = s.smoothedValue
      rcases keyPressed_cases s key millis with ⟨p, -, -, hk⟩ | ⟨-, -, hk⟩ | ⟨-, -, hk | hk | hk⟩
      · rw [hk]
        exact congrArg Readings.smoothedValue (readings_startCalibration p s millis)
      · rw [hk]; rfl
      · rw [hk]
      · rw [hk, resetObservedRange]
        split_ifs <;> rfl
      · rw [hk]
  | draw millis => exact congrArg Readings.smoothedValue (readings_draw A s millis)

end EmbodiedSynth.Synths2Sensors
