/-
The calibration window of the receiver.

A window is opened by a key, collects the accepted lines, and is closed by the first `draw`
that comes `calibrationDuration` after the key, or earlier by the clearing key.  Two keys
open windows, and they share one accumulator and one start time.

* `Opens`, `Closes`: the key press that opens a window, the events that close it.
* `Window`: what is known inside a window: which one it is, when it was opened, and that the
  accumulator holds the sum and the count of the samples collected since.
  `Window.step` carries it over every event that does not close the window.
* `Window.close`: what the closing `draw` makes of it (`Closed`).
* `exists_opening`: an open window was opened by some key press of the run, and nothing has
  closed it since.
* `windows_exact`: the laws of the window over all runs, in exact arithmetic.
-/
import EmbodiedSynth.Synths2Sensors.Sketch
import Mathlib.Algebra.BigOperators.Group.List.Basic

namespace EmbodiedSynth.Synths2Sensors

open Processing

variable {K : Type*} [Field K] [LinearOrder K]

/-! ### Events of a window -/

section Events

variable (A : FloatArith K)

/-- The smoothed number an event adds to an open window: that of an accepted line. -/
def sample : Event → Option K
  | .serialEvent (some line) =>
      match reading A line with
      | some (_, .fin v) => some v
      | _ => none
  | _ => none

/-- The smoothed numbers of the accepted lines of a run, in order. -/
def samples (es : List Event) : List K := es.filterMap (sample A)

/-- An accepted line carries finite numbers. -/
def FiniteLine : Event → Prop
  | .serialEvent (some line) =>
      ∀ newRaw newSmoothed, reading A line = some (newRaw, newSmoothed) →
        (∃ r, newRaw = .fin r) ∧ ∃ v, newSmoothed = .fin v
  | _ => True

variable {A} in
lemma finiteLine_of_reading {line : List Char} {r v : K}
    (h : reading A line = some (.fin r, .fin v)) : FiniteLine A (.serialEvent (some line)) := by
  intro newRaw newSmoothed hread
  obtain ⟨rfl, rfl⟩ := Prod.mk.inj (Option.some.inj (h.symm.trans hread))
  exact ⟨⟨r, rfl⟩, v, rfl⟩

variable {A} in
/-- So the number it makes the reading is finite. -/
lemma FiniteLine.accepted {e : Event} (h : FiniteLine A e) {v : ExtNum K}
    (hv : accepted A e = some v) : ∃ x, v = .fin x := by
  obtain ⟨line, newRaw, rfl, hr⟩ := exists_reading_of_accepted hv
  exact (h newRaw v hr).2

/-- The events that close a window opened at `t₀`: a `draw` once the duration is over, and
the clearing key. -/
def Closes (t₀ : ℤ) : Event → Prop
  | .serialEvent _ => False
  | .keyPressed key _ => isClearKey key = true
  | .draw millis => calibrationDuration ≤ millis - t₀

/-- The key `key`, pressed after the run `pre`, opens the window of `p`. -/
structure Opens (pre : List Event) (key : Char) (p : Endpoint) : Prop where
  key : calibrationKey key = some p
  received : (run A pre).sensorDataReceived = true
  closed : (run A pre).calibration.windowOpen = false

/-- A line that is not accepted adds no sample. -/
lemma sample_of_not_accepted {incoming : Option (List Char)}
    (h : accepted A (.serialEvent incoming) = none) : sample A (.serialEvent incoming) = none := by
  cases incoming with
  | none => rfl
  | some line => rw [sample, Option.map_eq_none_iff.mp h]

@[simp] lemma sample_keyPressed (key : Char) (millis : ℤ) :
    sample A (.keyPressed key millis) = none := rfl

@[simp] lemma sample_draw (millis : ℤ) : sample A (.draw millis) = none := rfl

@[simp] lemma samples_nil : samples A [] = [] := rfl

lemma samples_append (es fs : List Event) : samples A (es ++ fs) = samples A es ++ samples A fs :=
  List.filterMap_append

lemma samples_singleton (e : Event) : samples A [e] = (sample A e).toList := by
  rw [samples, List.filterMap_cons]
  cases sample A e <;> rfl

/-! ### The calibration through one handler -/

/-- Data stays received. -/
lemma sensorDataReceived_step {s : State K} (h : s.sensorDataReceived = true) (e : Event) :
    (step A s e).sensorDataReceived = true := by
  cases e with
  | serialEvent incoming =>
      rcases serialEvent_cases A incoming with ⟨-, hs⟩ | ⟨-, newRaw, newSmoothed, -, -, hs⟩
      · rw [hs]; exact h
      · rw [hs]; exact (store_reading A s newRaw newSmoothed).2.2
  | keyPressed key millis =>
      show (keyPressed s key millis).sensorDataReceived = true
      rcases keyPressed_cases s key millis with ⟨p, -, -, hk⟩ | ⟨-, -, hk⟩ | ⟨-, -, hk | hk | hk⟩
      · rw [hk]
        exact (congrArg Readings.sensorDataReceived (readings_startCalibration p s millis)).trans h
      · rw [hk]; exact h
      · rw [hk]; exact h
      · rw [hk, resetObservedRange, if_pos h]; exact h
      · rw [hk]; exact h
  | draw millis =>
      exact (congrArg Readings.sensorDataReceived (readings_draw A s millis)).trans h

lemma sensorDataReceived_run {s : State K} (h : s.sensorDataReceived = true)
    (es : List Event) : (Machine.run (step A) s es).sensorDataReceived = true :=
  Machine.run_invariant (P := fun t : State K => t.sensorDataReceived = true)
    (fun _ ht e _ => sensorDataReceived_step A ht e) h

omit [LinearOrder K] in
/-- A start key inside a window does nothing. -/
lemma startCalibration_of_open {s : State K} (h : s.calibration.windowOpen = true)
    (p : Endpoint) (millis : ℤ) : startCalibration p s millis = s := by
  rw [startCalibration]
  split_ifs with h1 h2
  · rfl
  · rfl
  · exact absurd h h2

omit [LinearOrder K] in
/-- A start key before any data does nothing. -/
lemma startCalibration_of_not_received {s : State K} (h : s.sensorDataReceived = false)
    (p : Endpoint) (millis : ℤ) : startCalibration p s millis = s := by
  rw [startCalibration, if_pos (by simp [h])]

/-- A start key acts through `startCalibration`. -/
lemma step_of_calibrationKey (s : State K) {key : Char} {p : Endpoint}
    (h : calibrationKey key = some p) (millis : ℤ) :
    step A s (.keyPressed key millis) = startCalibration p s millis := by
  show keyPressed s key millis = startCalibration p s millis
  rcases keyPressed_cases s key millis with ⟨q, hq, -, hk⟩ | ⟨hq, -⟩ | ⟨hq, -⟩
  · obtain rfl : q = p := Option.some.inj (hq.symm.trans h)
    exact hk
  · exact absurd (hq.symm.trans h) (by simp)
  · exact absurd (hq.symm.trans h) (by simp)

/-- The clearing key acts through `clearCalibration`. -/
lemma step_of_isClearKey (s : State K) {key : Char} (h : isClearKey key = true) (millis : ℤ) :
    step A s (.keyPressed key millis) = clearCalibration s := by
  show keyPressed s key millis = clearCalibration s
  rcases keyPressed_cases s key millis with ⟨q, -, hc, -⟩ | ⟨-, -, hk⟩ | ⟨-, hc, -⟩
  · exact absurd (hc.symm.trans h) Bool.false_ne_true
  · exact hk
  · exact absurd (hc.symm.trans h) Bool.false_ne_true

/-- Every other key leaves the calibration alone. -/
lemma calibration_step_of_otherKey (s : State K) {key : Char} (hkey : calibrationKey key = none)
    (hclear : isClearKey key = false) (millis : ℤ) :
    (step A s (.keyPressed key millis)).calibration = s.calibration := by
  show (keyPressed s key millis).calibration = s.calibration
  rcases keyPressed_cases s key millis with ⟨q, hq, -⟩ | ⟨-, hc, -⟩ | ⟨-, -, hk | hk | hk⟩
  · exact absurd (hq.symm.trans hkey) (by simp)
  · exact absurd (hclear.symm.trans hc) Bool.false_ne_true
  · rw [hk]; rfl
  · rw [hk, calibration_resetObservedRange]
  · rw [hk]

/-- Outside a window only a start key, and only after data has arrived, opens one. -/
lemma opening_of_step {s : State K} {e : Event} (hclosed : s.calibration.windowOpen = false)
    (hopen : (step A s e).calibration.windowOpen = true) :
    ∃ key millis p, e = .keyPressed key millis ∧ calibrationKey key = some p
      ∧ s.sensorDataReceived = true := by
  have hcal : (step A s e).calibration ≠ s.calibration := by
    intro h
    rw [h, hclosed] at hopen
    exact Bool.false_ne_true hopen
  cases e with
  | serialEvent incoming =>
      exact absurd (calibration_serialEvent_of_closed A hclosed incoming) hcal
  | keyPressed key millis =>
      cases hkey : calibrationKey key with
      | some p =>
          refine ⟨key, millis, p, rfl, hkey, ?_⟩
          by_contra hrec
          rw [step_of_calibrationKey A s hkey,
            startCalibration_of_not_received (by simpa using hrec)] at hcal
          exact hcal rfl
      | none =>
          by_cases hclear : isClearKey key = true
          · rw [step_of_isClearKey A s hclear] at hopen
            exact absurd hopen Bool.false_ne_true
          · exact absurd (calibration_step_of_otherKey A s hkey (by simpa using hclear) millis) hcal
  | draw millis =>
      refine absurd ((calibration_draw A s millis).trans ?_) hcal
      rw [updateCalibration_of_closed A hclosed]

end Events

/-! ### Inside a window -/

/-- The window of `p`, opened at `t₀` with the calibration `c₀`, has collected the samples
`xs`. -/
structure Window (p : Endpoint) (t₀ : ℤ) (c₀ : Calibration K) (xs : List K)
    (c : Calibration K) : Prop where
  calibrating : c.calibrating p = true
  other : c.calibrating p.other = false
  startTime : c.calibrationStartTime = t₀
  sum : c.calibrationSum = .fin xs.sum
  count : c.calibrationSamples = xs.length
  sensor : ∀ q, c.sensor q = c₀.sensor q
  calibrated : ∀ q, c.calibrated q = c₀.calibrated q

/-- What a late `draw` makes of a window: it is closed; without samples every position is as
it was at the opening, with samples the selected position is their mean and the other one is
as it was. -/
structure Closed (p : Endpoint) (c₀ : Calibration K) (xs : List K) (c : Calibration K) :
    Prop where
  closed : c.windowOpen = false
  other : c.sensor p.other = c₀.sensor p.other ∧ c.calibrated p.other = c₀.calibrated p.other
  failed : xs = [] → c.sensor p = c₀.sensor p ∧ c.calibrated p = c₀.calibrated p
  recorded : xs ≠ [] → c.sensor p = .fin (xs.sum / xs.length) ∧ c.calibrated p = true

namespace Window

variable {p : Endpoint} {t₀ : ℤ} {c₀ c : Calibration K} {xs : List K}

omit [LinearOrder K] in
lemma windowOpen (h : Window p t₀ c₀ xs c) : c.windowOpen = true := by
  cases p
  · exact Bool.or_eq_true_iff.mpr (Or.inl h.calibrating)
  · exact Bool.or_eq_true_iff.mpr (Or.inr h.calibrating)

omit [LinearOrder K] in
/-- A start key after data has arrived opens its window, empty. -/
lemma start {s : State K} (hrec : s.sensorDataReceived = true)
    (hclosed : s.calibration.windowOpen = false) (p : Endpoint) (millis : ℤ) :
    Window p millis s.calibration [] (startCalibration p s millis).calibration := by
  have h1 : ¬ (!s.sensorDataReceived) = true := by simp [hrec]
  have h2 : ¬ (s.calibratingRelaxed || s.calibratingStretched) = true := by
    rw [Bool.not_eq_true]; exact hclosed
  obtain ⟨hr, hs⟩ : s.calibratingRelaxed = false ∧ s.calibratingStretched = false := by
    simpa using h2
  rw [startCalibration, if_neg h1, if_neg h2]
  cases p
  · exact ⟨rfl, hs, rfl, rfl, rfl, by rintro (_ | _) <;> rfl, by rintro (_ | _) <;> rfl⟩
  · exact ⟨rfl, hr, rfl, rfl, rfl, by rintro (_ | _) <;> rfl, by rintro (_ | _) <;> rfl⟩

omit [LinearOrder K] in
/-- A further sample. -/
lemma concat (h : Window p t₀ c₀ xs c) (v : K) :
    Window p t₀ c₀ (xs ++ [v]) { c with
      calibrationSum := .fin (xs.sum + v)
      calibrationSamples := c.calibrationSamples + 1 } where
  calibrating := by cases p <;> exact h.calibrating
  other := by cases p <;> exact h.other
  startTime := h.startTime
  sum := by rw [List.sum_append, List.sum_singleton]
  count := by rw [List.length_append, List.length_singleton, ← h.count]
  sensor q := by have hq := h.sensor q; cases q <;> exact hq
  calibrated q := by have hq := h.calibrated q; cases q <;> exact hq

variable (pow : ExtNum K → ExtNum K → ExtNum K)

/-- **Inside a window**: an event that does not close the window adds its sample to it and
keeps everything else. -/
theorem step {s : State K} (h : Window p t₀ c₀ xs s.calibration) {e : Event}
    (hfin : FiniteLine (.exact pow) e) (hopen : ¬ Closes t₀ e) :
    Window p t₀ c₀ (xs ++ (sample (.exact pow) e).toList)
      (Synths2Sensors.step (.exact pow) s e).calibration := by
  cases e with
  | serialEvent incoming =>
      rcases serialEvent_cases (.exact pow) incoming with
        ⟨hacc, hs⟩ | ⟨line, newRaw, newSmoothed, rfl, hr, hs⟩
      · rw [hs, sample_of_not_accepted _ hacc, Option.toList_none, List.append_nil]
        exact h
      · obtain ⟨-, v, rfl⟩ := hfin newRaw newSmoothed hr
        have hsample : sample (.exact pow) (.serialEvent (some line)) = some v := by
          rw [sample, hr]
        have hsum : s.calibrationSum = .fin xs.sum := h.sum
        rw [hs, hsample, calibration_store, if_pos h.windowOpen, hsum, FloatArith.add_fin,
          FloatArith.exact_round]
        exact h.concat v
  | keyPressed key millis =>
      have hclear : isClearKey key = false := by simpa [Closes] using hopen
      rw [sample_keyPressed, Option.toList_none, List.append_nil]
      cases hkey : calibrationKey key with
      | some q =>
          rw [step_of_calibrationKey _ s hkey, startCalibration_of_open h.windowOpen]
          exact h
      | none =>
          rw [calibration_step_of_otherKey _ s hkey hclear]
          exact h
  | draw millis =>
      have hearly : millis - s.calibrationStartTime < calibrationDuration := by
        rw [show s.calibrationStartTime = t₀ from h.startTime]
        exact not_le.mp hopen
      rw [sample_draw, Option.toList_none, List.append_nil]
      show Window p t₀ c₀ xs (draw (.exact pow) s millis).calibration
      rw [calibration_draw, updateCalibration_of_early _ hearly]
      exact h

/-- A run of events that do not close the window stays inside it and adds its samples. -/
theorem run {s : State K} (h : Window p t₀ c₀ xs s.calibration) {es : List Event}
    (hfin : ∀ e ∈ es, FiniteLine (.exact pow) e) (hopen : ∀ e ∈ es, ¬ Closes t₀ e) :
    Window p t₀ c₀ (xs ++ samples (.exact pow) es)
      (Machine.run (Synths2Sensors.step (.exact pow)) s es).calibration := by
  induction es generalizing xs s with
  | nil => simpa using h
  | cons e es ih =>
      have h1 := h.step pow (hfin e List.mem_cons_self) (hopen e List.mem_cons_self)
      have h2 := ih h1 (fun e' he' => hfin e' (List.mem_cons_of_mem e he'))
        (fun e' he' => hopen e' (List.mem_cons_of_mem e he'))
      rw [Machine.run_cons]
      rwa [List.append_assoc, ← samples_singleton, ← samples_append] at h2

/-- **The end of a window**: the first `draw` after the duration closes it. -/
theorem close [IsStrictOrderedRing K] {s : State K} (h : Window p t₀ c₀ xs s.calibration)
    {millis : ℤ} (hlate : calibrationDuration ≤ millis - t₀) :
    Closed p c₀ xs (Synths2Sensors.step (.exact pow) s (.draw millis)).calibration := by
  have hover : ¬ millis - s.calibrationStartTime < calibrationDuration := by
    rw [show s.calibrationStartTime = t₀ from h.startTime]
    exact not_lt.mpr hlate
  have hw : ¬ (!s.calibratingRelaxed && !s.calibratingStretched) = true := by
    rw [not_windowOpen, h.windowOpen]
    exact Bool.false_ne_true
  have hcount : s.calibrationSamples = xs.length := h.count
  have hsum : s.calibrationSum = .fin xs.sum := h.sum
  show Closed p c₀ xs (draw (.exact pow) s millis).calibration
  rw [calibration_draw]
  by_cases hxs : xs = []
  · -- no samples: only the flags change
    rw [updateCalibration, if_neg hw, if_neg hover, if_pos (by simp [hcount, hxs])]
    have hother := And.intro (h.sensor p.other) (h.calibrated p.other)
    have hself := And.intro (h.sensor p) (h.calibrated p)
    cases p <;> exact ⟨rfl, hother, fun _ => hself, fun hne => absurd hxs hne⟩
  · have hlen : xs.length ≠ 0 := by simpa using hxs
    have hmean : (FloatArith.exact pow).div s.calibrationSum
        ((FloatArith.exact pow).ofInt s.calibrationSamples) = .fin (xs.sum / xs.length) := by
      rw [hsum, hcount, FloatArith.ofInt, FloatArith.exact_round, Int.cast_natCast]
      exact FloatArith.div_fin _ _ (Nat.cast_ne_zero.mpr hlen)
    rw [updateCalibration, if_neg hw, if_neg hover, if_neg (by rwa [hcount])]
    cases p
    · have hr : s.calibratingRelaxed = true := h.calibrating
      have hs : s.calibratingStretched = false := h.other
      simp only [hr, hs, hmean, if_true, Bool.false_eq_true, if_false]
      exact ⟨rfl, ⟨h.sensor .stretched, h.calibrated .stretched⟩, fun hnil => absurd hnil hxs,
        fun _ => ⟨rfl, rfl⟩⟩
    · have hs : s.calibratingStretched = true := h.calibrating
      have hr : s.calibratingRelaxed = false := h.other
      simp only [hr, hs, hmean, if_true, Bool.false_eq_true, if_false]
      exact ⟨rfl, ⟨h.sensor .relaxed, h.calibrated .relaxed⟩, fun hnil => absurd hnil hxs,
        fun _ => ⟨rfl, rfl⟩⟩

end Window

/-! ### The window over a whole run -/

section Run

variable (pow : ExtNum K → ExtNum K → ExtNum K)

/-- The window a key press has opened, as long as nothing has closed it. -/
lemma Opens.window {pre post : List Event} {key : Char} {p : Endpoint}
    (h : Opens (.exact pow) pre key p) {t₀ : ℤ}
    (hfin : ∀ e ∈ pre ++ .keyPressed key t₀ :: post, FiniteLine (.exact pow) e)
    (hopen : ∀ e ∈ post, ¬ Closes t₀ e) :
    Window p t₀ (run (.exact pow) pre).calibration (samples (.exact pow) post)
      (run (.exact pow) (pre ++ .keyPressed key t₀ :: post)).calibration := by
  have hpost : ∀ e ∈ post, FiniteLine (.exact pow) e :=
    fun e he => hfin e (List.mem_append_right _ (List.mem_cons_of_mem _ he))
  have hstart := Window.start h.received h.closed p t₀
  rw [← step_of_calibrationKey (.exact pow) _ h.key] at hstart
  have hrun := hstart.run pow hpost hopen
  rw [List.nil_append, ← Machine.run_cons] at hrun
  rwa [← run_append] at hrun

/-- **An open window was opened by a key press of the run**, and nothing has closed it
since. -/
theorem exists_opening [IsStrictOrderedRing K] {es : List Event}
    (hfin : ∀ e ∈ es, FiniteLine (.exact pow) e)
    (hopen : (run (.exact pow) es).calibration.windowOpen = true) :
    ∃ pre key t₀ post p, es = pre ++ .keyPressed key t₀ :: post
      ∧ Opens (.exact pow) pre key p ∧ ∀ e ∈ post, ¬ Closes t₀ e := by
  induction es using List.reverseRecOn with
  | nil => exact absurd hopen Bool.false_ne_true
  | append_singleton es e ih =>
      have hes : ∀ x ∈ es, FiniteLine (.exact pow) x :=
        fun x hx => hfin x (List.mem_append_left _ hx)
      rw [run_concat] at hopen
      cases hprev : (run (.exact pow) es).calibration.windowOpen with
      | false =>
          -- the window was opened by this very event
          obtain ⟨key, millis, p, rfl, hkey, hrec⟩ := opening_of_step _ hprev hopen
          exact ⟨es, key, millis, [], p, rfl, ⟨hkey, hrec, hprev⟩, by simp⟩
      | true =>
          -- the window was open before, so this event does not close it
          obtain ⟨pre, key, t₀, post, p, rfl, hopens, hpost⟩ := ih hes hprev
          refine ⟨pre, key, t₀, post ++ [e], p, by simp, hopens, ?_⟩
          have hw := hopens.window pow hes hpost
          have hnot : ¬ Closes t₀ e := by
            intro hcl
            cases e with
            | serialEvent incoming => exact hcl
            | keyPressed key' millis =>
                rw [step_of_isClearKey _ _ hcl] at hopen
                exact absurd hopen Bool.false_ne_true
            | draw millis =>
                exact Bool.false_ne_true ((hw.close pow hcl).closed.symm.trans hopen)
          intro x hx
          rcases List.mem_append.mp hx with hx | hx
          · exact hpost x hx
          · rwa [List.mem_singleton.mp hx]

/-- The laws of the calibration window after the run `es`. -/
structure WindowsExact (A : FloatArith K) (es : List Event) : Prop where
  /-- At most one window is open. -/
  exclusive : ¬ ((run A es).calibratingRelaxed = true ∧ (run A es).calibratingStretched = true)
  /-- An open window was opened by a key press that nothing has closed since, data has
  arrived, and the accumulator holds the sum and the count of the lines accepted since. -/
  accumulated : ∀ p, (run A es).calibration.calibrating p = true →
    (run A es).sensorDataReceived = true
      ∧ ∃ pre key t₀ post, es = pre ++ .keyPressed key t₀ :: post ∧ Opens A pre key p
        ∧ (∀ e ∈ post, ¬ Closes t₀ e)
        ∧ (run A es).calibrationSum = .fin (samples A post).sum
        ∧ (run A es).calibrationSamples = (samples A post).length
  /-- A window stays open, and both positions stay as they were, until an event closes it. -/
  stays : ∀ pre key t₀ post p, es = pre ++ .keyPressed key t₀ :: post → Opens A pre key p →
    (∀ e ∈ post, ¬ Closes t₀ e) →
    (run A es).calibration.calibrating p = true
      ∧ (∀ q, (run A es).calibration.sensor q = (run A pre).calibration.sensor q)
      ∧ ∀ q, (run A es).calibration.calibrated q = (run A pre).calibration.calibrated q
  /-- The first `draw` after the duration closes it, on the selected position only. -/
  drawCloses : ∀ pre key t₀ post p millis, es = pre ++ .keyPressed key t₀ :: post →
    Opens A pre key p → (∀ e ∈ post, ¬ Closes t₀ e) → calibrationDuration ≤ millis - t₀ →
    Closed p (run A pre).calibration (samples A post)
      (step A (run A es) (.draw millis)).calibration
  /-- The clearing key closes it earlier. -/
  clearCloses : ∀ key millis, isClearKey key = true →
    (step A (run A es) (.keyPressed key millis)).calibration.windowOpen = false
  /-- A start key does nothing inside a window, and nothing before data has arrived. -/
  ignored : ∀ key millis, (calibrationKey key).isSome = true →
    ((run A es).calibration.windowOpen = true ∨ (run A es).sensorDataReceived = false) →
    step A (run A es) (.keyPressed key millis) = run A es

/-- **Calibration windows are exact**: in exact arithmetic, whatever the order of the events,
as long as the accepted lines carry finite numbers. -/
theorem windows_exact [IsStrictOrderedRing K] (es : List Event)
    (hfin : ∀ e ∈ es, FiniteLine (.exact pow) e) : WindowsExact (.exact pow) es where
  exclusive := by
    rintro ⟨hr, hs⟩
    have hopen : (run (.exact pow) es).calibration.windowOpen = true :=
      Bool.or_eq_true_iff.mpr (Or.inl hr)
    obtain ⟨pre, key, t₀, post, p, rfl, hopens, hpost⟩ := exists_opening pow hfin hopen
    have hw := hopens.window pow hfin hpost
    cases p
    · exact Bool.false_ne_true (hw.other.symm.trans hs)
    · exact Bool.false_ne_true (hw.other.symm.trans hr)
  accumulated p hp := by
    have hopen : (run (.exact pow) es).calibration.windowOpen = true := by
      cases p
      · exact Bool.or_eq_true_iff.mpr (Or.inl hp)
      · exact Bool.or_eq_true_iff.mpr (Or.inr hp)
    obtain ⟨pre, key, t₀, post, q, rfl, hopens, hpost⟩ := exists_opening pow hfin hopen
    have hw := hopens.window pow hfin hpost
    obtain rfl : q = p := by
      cases q <;> cases p
      · rfl
      · exact absurd (hw.other.symm.trans hp) Bool.false_ne_true
      · exact absurd (hw.other.symm.trans hp) Bool.false_ne_true
      · rfl
    refine ⟨?_, pre, key, t₀, post, rfl, hopens, hpost, hw.sum, hw.count⟩
    rw [run_append]
    exact sensorDataReceived_run _ hopens.received _
  stays pre key t₀ post p hes hopens hpost := by
    subst hes
    have hw := hopens.window pow hfin hpost
    exact ⟨hw.calibrating, hw.sensor, hw.calibrated⟩
  drawCloses pre key t₀ post p millis hes hopens hpost hlate := by
    subst hes
    have hw := hopens.window pow hfin hpost
    exact hw.close pow hlate
  clearCloses key millis hclear := by
    rw [step_of_isClearKey _ _ hclear]
    rfl
  ignored key millis hkey h := by
    obtain ⟨p, hp⟩ := Option.isSome_iff_exists.mp hkey
    rw [step_of_calibrationKey _ _ hp]
    rcases h with h | h
    · exact startCalibration_of_open h p millis
    · exact startCalibration_of_not_received h p millis

end Run

/-- A relaxed calibration with two samples: a `draw` before the deadline and a start key
inside the window do nothing to it. -/
def relaxedRun : List Event :=
  [.serialEvent (some "1800,1790.50\r\n".toList), .keyPressed 'r' 0,
    .serialEvent (some "1802,1791.50\r\n".toList), .draw 1400, .keyPressed 's' 1450,
    .serialEvent (some "1804,1792.50\r\n".toList), .draw 1600]

theorem windows_exact_relaxedRun :
    WindowsExact FloatArith.exactRat relaxedRun
      ∧ (run FloatArith.exactRat relaxedRun).relaxedSensor = .fin 1792
      ∧ (run FloatArith.exactRat relaxedRun).stretchedCalibrated = false := by
  refine ⟨windows_exact FloatArith.ratPow relaxedRun ?_, by decide +kernel, by decide +kernel⟩
  have h1 : FiniteLine FloatArith.exactRat (.serialEvent (some "1800,1790.50\r\n".toList)) :=
    finiteLine_of_reading (r := 1800) (v := 3581 / 2) (by decide +kernel)
  have h2 : FiniteLine FloatArith.exactRat (.serialEvent (some "1802,1791.50\r\n".toList)) :=
    finiteLine_of_reading (r := 1802) (v := 3583 / 2) (by decide +kernel)
  have h3 : FiniteLine FloatArith.exactRat (.serialEvent (some "1804,1792.50\r\n".toList)) :=
    finiteLine_of_reading (r := 1804) (v := 3585 / 2) (by decide +kernel)
  simp only [relaxedRun, List.forall_mem_cons, List.not_mem_nil, false_implies, implies_true,
    and_true]
  exact ⟨h1, trivial, h2, trivial, trivial, h3, trivial⟩

end EmbodiedSynth.Synths2Sensors
