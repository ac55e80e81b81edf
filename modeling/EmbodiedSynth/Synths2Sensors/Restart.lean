/-
The clearing key against a fresh start.

`clearCalibration` leaves the start time of the window as it is, which no one can tell while no
window is open, but it sets the two positions to other values than the sketch starts with.

* `restartCalibration`: a state with its calibration variables at their startup values.
* `SameShown`: two states show the same calibration, status and pitch.
* `SameOutsideWindow`: two states are equal but for the start time of a closed window;
  `sameOutsideWindow_step` carries it over every event.
* `cleared_sameShown`: a cleared state against a restarted one with the positions of
  `clearCalibration`.
* `clear_eq_restart_iff`: clearing and then any events show the same as restarting and then the
  same events, exactly when there are none or the first clears again.
-/
import EmbodiedSynth.Synths2Sensors.Windows

namespace EmbodiedSynth.Synths2Sensors

open FloatArith Machine

variable {K : Type*} [Field K] [LinearOrder K] (A : FloatArith K)

/-! ### Restarting -/

/-- The state with only its calibration variables at their startup values. -/
def restartCalibration (s : State K) : State K :=
  { s with
    relaxedSensor := (init A).relaxedSensor
    stretchedSensor := (init A).stretchedSensor
    relaxedCalibrated := (init A).relaxedCalibrated
    stretchedCalibrated := (init A).stretchedCalibrated
    calibratingRelaxed := (init A).calibratingRelaxed
    calibratingStretched := (init A).calibratingStretched
    calibrationStartTime := (init A).calibrationStartTime
    calibrationSum := (init A).calibrationSum
    calibrationSamples := (init A).calibrationSamples }

/-- The two positions, the four flags, the status and the pitch are the same. -/
structure SameShown (s t : State K) : Prop where
  relaxedSensor : s.relaxedSensor = t.relaxedSensor
  stretchedSensor : s.stretchedSensor = t.stretchedSensor
  relaxedCalibrated : s.relaxedCalibrated = t.relaxedCalibrated
  stretchedCalibrated : s.stretchedCalibrated = t.stretchedCalibrated
  calibratingRelaxed : s.calibratingRelaxed = t.calibratingRelaxed
  calibratingStretched : s.calibratingStretched = t.calibratingStretched
  sensorStatus : s.sensorStatus = t.sensorStatus
  normalized : s.normalized = t.normalized
  freq : s.freq = t.freq

/-- A press of the clearing key. -/
def Event.isClear : Event → Bool
  | .keyPressed key _ => isClearKey key
  | _ => false

/-! ### The start time of a closed window -/

/-- The state with another start time of its window. -/
def State.setStartTime (s : State K) (t₀ : ℤ) : State K := { s with calibrationStartTime := t₀ }

omit [Field K] in
lemma updateObservedRange_setStartTime (s : State K) (t₀ : ℤ) :
    updateObservedRange (s.setStartTime t₀) = (updateObservedRange s).setStartTime t₀ := by
  by_cases hmin : s.smoothedValue < s.observedMin <;>
    by_cases hmax : s.smoothedValue > s.observedMax <;>
      simp [updateObservedRange, State.setStartTime, hmin, hmax]

lemma updateSensorStatus_setStartTime (s : State K) (t₀ : ℤ) :
    updateSensorStatus A (s.setStartTime t₀) = (updateSensorStatus A s).setStartTime t₀ := by
  rw [updateSensorStatus, updateSensorStatus]
  show (if !s.sensorDataReceived then _ else if s.smoothedValue < calibratedMin A s then _
    else if s.smoothedValue > calibratedMax A s then _ else _) = _
  split_ifs <;> rfl

lemma collectSample_setStartTime (s : State K) (t₀ : ℤ) :
    collectSample A (s.setStartTime t₀) = (collectSample A s).setStartTime t₀ := by
  rw [collectSample, collectSample]
  show (if s.calibratingRelaxed || s.calibratingStretched then _ else _) = _
  split_ifs <;> rfl

lemma store_setStartTime (s : State K) (t₀ : ℤ) (newRaw newSmoothed : ExtNum K) :
    store A (s.setStartTime t₀) newRaw newSmoothed
      = (store A s newRaw newSmoothed).setStartTime t₀ := by
  have hassign : ({ s.setStartTime t₀ with
        rawValue := newRaw, smoothedValue := newSmoothed, sensorDataReceived := true } : State K)
      = State.setStartTime
        { s with rawValue := newRaw, smoothedValue := newSmoothed, sensorDataReceived := true }
        t₀ := rfl
  rw [store, store, hassign, updateObservedRange_setStartTime, updateSensorStatus_setStartTime,
    collectSample_setStartTime]

/-- No line reads or writes the start time. -/
lemma serialEvent_setStartTime (s : State K) (t₀ : ℤ) (incoming : Option (List Char)) :
    step A (s.setStartTime t₀) (.serialEvent incoming)
      = (step A s (.serialEvent incoming)).setStartTime t₀ := by
  rcases serialEvent_cases A incoming with ⟨-, hs⟩ | ⟨-, newRaw, newSmoothed, -, -, hs⟩
  · rw [hs, hs]
  · rw [hs, hs, store_setStartTime]

omit [LinearOrder K] in
/-- A key that opens no window neither reads nor writes it. -/
lemma keyPressed_setStartTime (s : State K) (t₀ : ℤ) {key : Char}
    (h : calibrationKey key = none) (millis : ℤ) :
    keyPressed (s.setStartTime t₀) key millis = (keyPressed s key millis).setStartTime t₀ := by
  have hr : ¬(key = 'r' ∨ key = 'R') := fun hr => by simp [calibrationKey, hr] at h
  have hs : ¬(key = 's' ∨ key = 'S') := fun hs => by simp [calibrationKey, hr, hs] at h
  have hreset : ∀ u : State K,
      resetObservedRange (u.setStartTime t₀) = (resetObservedRange u).setStartTime t₀ := by
    intro u
    rw [resetObservedRange, resetObservedRange]
    show (if u.sensorDataReceived then _ else _) = _
    split_ifs <;> rfl
  simp only [keyPressed, if_neg hr, if_neg hs]
  by_cases hm : key = 'm' ∨ key = 'M' <;> by_cases hc : key = 'c' ∨ key = 'C' <;>
    by_cases hx : key = 'x' ∨ key = 'X' <;>
      simp only [hm, hc, hx, if_true, if_false, ← hreset] <;> rfl

omit [LinearOrder K] in
/-- A key that opens a window writes it. -/
lemma startCalibration_setStartTime (p : Endpoint) {s : State K}
    (hrec : s.sensorDataReceived = true) (hclosed : s.calibration.windowOpen = false) (t₀ : ℤ)
    (millis : ℤ) :
    startCalibration p (s.setStartTime t₀) millis = startCalibration p s millis := by
  have hopened : ∀ u : State K, u.sensorDataReceived = true →
      u.calibration.windowOpen = false → startCalibration p u millis
        = { u.setCalibrating p with
            calibrationStartTime := millis, calibrationSum := 0, calibrationSamples := 0 } := by
    intro u hu hc
    rw [startCalibration, hu, if_neg (by simp)]
    exact if_neg (Bool.not_eq_true _ ▸ hc)
  rw [hopened s hrec hclosed, hopened (s.setStartTime t₀) hrec hclosed]
  cases p <;> rfl

/-- A `draw` outside a window. -/
lemma draw_of_closed {s : State K} (h : s.calibration.windowOpen = false) (millis : ℤ) :
    draw A s millis = updateSound A (updatePitch A (updateSensorStatus A s)) := by
  rw [draw, updateCalibration_of_closed A h]

/-! ### Two runs -/

/-- The two states are equal, or no window is open and they differ in its start time alone. -/
def SameOutsideWindow (s t : State K) : Prop :=
  t = s ∨ s.calibration.windowOpen = false ∧ ∃ t₀, t = s.setStartTime t₀

omit [Field K] [LinearOrder K] in
/-- Such states show the same. -/
lemma SameOutsideWindow.shown {s t : State K} (h : SameOutsideWindow s t) : SameShown s t := by
  rcases h with rfl | ⟨-, t₀, rfl⟩ <;> exact ⟨rfl, rfl, rfl, rfl, rfl, rfl, rfl, rfl, rfl⟩

/-- Every event keeps two states so related: a line and a `draw` outside a window never look
at the start time, and a key that opens a window writes it. -/
lemma sameOutsideWindow_step {s t : State K} (h : SameOutsideWindow s t) (e : Event) :
    SameOutsideWindow (step A s e) (step A t e) := by
  rcases h with rfl | ⟨hclosed, t₀, rfl⟩
  · exact Or.inl rfl
  cases e with
  | serialEvent incoming =>
      refine Or.inr ⟨?_, t₀, serialEvent_setStartTime A s t₀ incoming⟩
      rw [calibration_serialEvent_of_closed A hclosed]
      exact hclosed
  | keyPressed key millis =>
      cases hkey : calibrationKey key with
      | some p =>
          rw [step_of_calibrationKey A _ hkey, step_of_calibrationKey A _ hkey]
          cases hrec : s.sensorDataReceived with
          | false =>
              rw [startCalibration_of_not_received hrec,
                startCalibration_of_not_received (s := s.setStartTime t₀) hrec]
              exact Or.inr ⟨hclosed, t₀, rfl⟩
          | true => exact Or.inl (startCalibration_setStartTime p hrec hclosed t₀ millis)
      | none =>
          refine Or.inr ⟨?_, t₀, keyPressed_setStartTime s t₀ hkey millis⟩
          by_cases hclear : isClearKey key = true
          · rw [step_of_isClearKey A s hclear]; rfl
          · rw [calibration_step_of_otherKey A s hkey (by simpa using hclear)]; exact hclosed
  | draw millis =>
      show SameOutsideWindow (draw A s millis) (draw A (s.setStartTime t₀) millis)
      rw [draw_of_closed A hclosed,
        draw_of_closed A (s := s.setStartTime t₀) hclosed, updateSensorStatus_setStartTime]
      refine Or.inr ⟨?_, t₀, rfl⟩
      exact (congrArg Calibration.windowOpen (calibration_updateSensorStatus A s)).trans hclosed

/-- And so does every run. -/
lemma sameOutsideWindow_run {s t : State K} (h : SameOutsideWindow s t) (es : List Event) :
    SameOutsideWindow (Machine.run (step A) s es) (Machine.run (step A) t es) :=
  run_rel (R := SameOutsideWindow) (fun _ _ huv e _ => sameOutsideWindow_step A huv e) h

/-! ### Clearing against restarting -/

/-- But for its two positions, a cleared calibration behaves as a restarted one. -/
theorem cleared_sameShown (s : State K) (es : List Event) :
    SameShown (Machine.run (step A) (clearCalibration s) es)
      (Machine.run (step A)
        { restartCalibration A s with relaxedSensor := 615, stretchedSensor := 650 } es) :=
  (sameOutsideWindow_run A (Or.inr ⟨rfl, 0, rfl⟩) es).shown

/-- A clearing key makes the same of a cleared and of a restarted state. -/
lemma sameOutsideWindow_of_isClear (s : State K) {e : Event} (h : e.isClear = true) :
    SameOutsideWindow (step A (clearCalibration s) e) (step A (restartCalibration A s) e) := by
  cases e with
  | keyPressed key millis =>
      rw [step_of_isClearKey A _ h, step_of_isClearKey A _ h]
      exact Or.inr ⟨rfl, 0, rfl⟩
  | serialEvent incoming => exact absurd h Bool.false_ne_true
  | draw millis => exact absurd h Bool.false_ne_true

/-- Outside a window only the clearing key moves a position. -/
lemma relaxedSensor_step {s : State K} (hclosed : s.calibration.windowOpen = false) {e : Event}
    (he : e.isClear = false) : (step A s e).relaxedSensor = s.relaxedSensor := by
  have of_calibration : (step A s e).calibration = s.calibration →
      (step A s e).relaxedSensor = s.relaxedSensor := congrArg Calibration.relaxedSensor
  cases e with
  | serialEvent incoming =>
      exact of_calibration (calibration_serialEvent_of_closed A hclosed incoming)
  | keyPressed key millis =>
      cases hkey : calibrationKey key with
      | some p =>
          rw [step_of_calibrationKey A s hkey, startCalibration]
          cases p <;> (split_ifs <;> rfl)
      | none => exact of_calibration (calibration_step_of_otherKey A s hkey he millis)
  | draw millis =>
      apply of_calibration
      rw [show step A s (.draw millis) = draw A s millis from rfl, calibration_draw,
        updateCalibration_of_closed A hclosed]

/-- Clearing and then any events show the same as restarting and then the same events, exactly
when there are no events or the first of them clears again.  The positions after
`clearCalibration` are not those the sketch starts with. -/
theorem clear_eq_restart_iff [IsStrictOrderedRing K] (s : State K) (es : List Event) :
    EveryStep (fun pre e => SameShown (Machine.run (step A) (clearCalibration s) (pre ++ [e]))
        (Machine.run (step A) (restartCalibration A s) (pre ++ [e]))) es
      ↔ ∀ e post, es = e :: post → e.isClear = true := by
  constructor
  · rintro h e post rfl
    have hfirst := (h [] e post rfl).relaxedSensor
    by_contra hclear
    have hclear : e.isClear = false := by simpa using hclear
    have hmoved : (clearCalibration s).relaxedSensor = (restartCalibration A s).relaxedSensor :=
      calc (clearCalibration s).relaxedSensor
          = (step A (clearCalibration s) e).relaxedSensor :=
            (relaxedSensor_step A rfl hclear).symm
        _ = (step A (restartCalibration A s) e).relaxedSensor := hfirst
        _ = (restartCalibration A s).relaxedSensor := relaxedSensor_step A rfl hclear
    have hfin : (615 : ExtNum K) = 1750 := hmoved
    rw [ExtNum.ofNat_eq, ExtNum.ofNat_eq, ExtNum.fin.injEq] at hfin
    norm_num at hfin
  · intro h pre e post hes
    cases pre with
    | nil =>
        exact (sameOutsideWindow_of_isClear A s (h e post hes)).shown
    | cons d pre =>
        have hd := sameOutsideWindow_of_isClear A s (h d (pre ++ e :: post) hes)
        exact (sameOutsideWindow_run A hd (pre ++ [e])).shown

/-- After a first press of the clearing key, a second press: the runs show the same. -/
theorem clear_eq_restart_of_clear :
    EveryStep (fun pre e =>
        SameShown (Machine.run (step exactRat) (clearCalibration (init exactRat)) (pre ++ [e]))
          (Machine.run (step exactRat) (restartCalibration exactRat (init exactRat))
            (pre ++ [e])))
      [.keyPressed 'c' 0, .draw 0] :=
  (clear_eq_restart_iff exactRat (init exactRat) [.keyPressed 'c' 0, .draw 0]).mpr
    (by rintro e post ⟨⟩; rfl)

/-- The startup state, cleared and drawn, has another relaxed position than the startup state
drawn. -/
theorem clear_ne_restart :
    ¬ ∀ (s : State ℚ) (es : List Event), Reachable exactRat s →
      EveryStep (fun pre e =>
        SameShown (Machine.run (step exactRat) (clearCalibration s) (pre ++ [e]))
          (Machine.run (step exactRat) (restartCalibration exactRat s) (pre ++ [e]))) es := by
  intro h
  have hdraw := (h (init exactRat) [.draw 0] (Machine.Reachable.refl _ _) [] (.draw 0) []
    rfl).relaxedSensor
  have hfin : (615 : ExtNum ℚ) = 1750 := hdraw
  exact absurd hfin (by decide)

end EmbodiedSynth.Synths2Sensors
