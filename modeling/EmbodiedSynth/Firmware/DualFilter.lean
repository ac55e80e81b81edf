/-
The filters of the dual sketch do not notice a pause.

* `unpaused`: the readings of the iterations that are not paused after their key.
* `dataLines`, `filterLine`: the data lines of a run, and what the filters alone print.
* `dataLines_eq`: they are the same, for every sketch of the family.
* `Pin`: the two sensors; `exactDual`: the dual sketch in exact arithmetic.
* `smoothedValue_run_eq_average`: there the filter of a sensor is the average of its readings.
* `pausing_undisturbed`: what follows for the dual sketch.
-/
import EmbodiedSynth.Library.Averaging
import EmbodiedSynth.Firmware.SerialSketch

namespace EmbodiedSynth.Firmware

open Arduino

/-- Whether a line is a data line. -/
def Printed.isData {ρ φ : Type*} : Printed ρ φ → Bool
  | .status _ => false
  | .data _ _ => true

namespace Sketch

/-! ### Pauses erased -/

section Shared

variable {ρ φ : Type*} (F : Sketch ρ φ)

/-- The readings of the iterations of a run that are not paused after their key, the run
being started paused or not. -/
def unpaused (paused : Bool) (inputs : List (LoopInput ρ)) : List ρ :=
  (Machine.selected toggled (fun p i => !toggled p i) paused inputs).map LoopInput.rawValue

/-- The data lines of a run. -/
def dataLines (rawValue : ρ) (inputs : List (LoopInput ρ)) : List (Printed ρ φ) :=
  (F.printed rawValue inputs).filter Printed.isData

/-- The filter alone, which takes a reading in and prints it. -/
def filterLine (s : φ) (rawValue : ρ) : φ × List (Printed ρ φ) :=
  (F.smooth s rawValue, [.data rawValue (F.smooth s rawValue)])

/-- An iteration without a key. -/
def keyless (rawValue : ρ) : LoopInput ρ := ⟨none, rawValue⟩

lemma unpaused_append (pre post : List (LoopInput ρ)) :
    unpaused false (pre ++ post) = unpaused false pre ++ unpaused (pausedAfter pre) post := by
  rw [unpaused, Machine.selected_append, run_toggled, List.map_append]
  rfl

/-- Iterations without a key are not paused. -/
lemma unpaused_keyless (rs : List ρ) : unpaused false (rs.map keyless) = rs := by
  induction rs with
  | nil => rfl
  | cons r rs ih => exact congrArg (r :: ·) ih

/-- The keyboard check prints no data line. -/
lemma filter_checkKeyboard (paused : Bool) (key : Option Char) :
    ((checkKeyboard paused key).2 : List (Printed ρ φ)).filter Printed.isData = [] := by
  rw [checkKeyboard]
  split_ifs <;> rfl

/-- The iterations the sketch selects are those its keys select. -/
lemma selected_loop (s : State φ) (inputs : List (LoopInput ρ)) :
    (Machine.selected (Machine.next F.loop) (fun s i => !toggled s.paused i) s inputs).map
      LoopInput.rawValue = unpaused s.paused inputs :=
  congrArg (List.map LoopInput.rawValue) (Machine.selected_eq_of_view
    (q := fun p i => !toggled p i) State.paused F.paused_loop (fun _ _ => rfl) s inputs)

/-- The filter after a run is the filter on the unpaused readings. -/
theorem smoothedValue_run (rawValue : ρ) (inputs : List (LoopInput ρ)) :
    (F.run rawValue inputs).smoothedValue
      = Machine.run F.smooth (F.initial rawValue) (unpaused false inputs) := by
  rw [run, Machine.view_run F.smooth (fun s i => !toggled s.paused i) State.smoothedValue
    LoopInput.rawValue, selected_loop]
  · rfl
  · exact fun s i h => (F.loop_of_unpaused (by simpa using h)).1
  · exact fun s i h => (F.loop_of_paused (by simpa using h)).1

/-- **The data lines of a run are those of the filter alone** on its unpaused readings. -/
theorem dataLines_eq (rawValue : ρ) (inputs : List (LoopInput ρ)) :
    F.dataLines rawValue inputs
      = Machine.emitted F.filterLine (F.initial rawValue) (unpaused false inputs) := by
  have hsetup : (F.setup rawValue).2.filter Printed.isData = [] := rfl
  rw [dataLines, printed, List.filter_append, hsetup, List.nil_append,
    Machine.filter_emitted F.filterLine (fun s i => !toggled s.paused i) State.smoothedValue
      LoopInput.rawValue, selected_loop]
  · rfl
  · intro s i h
    obtain ⟨hfilter, hlines⟩ := F.loop_of_unpaused (i := i) (by simpa using h)
    refine ⟨hfilter, ?_⟩
    rw [hlines, List.filter_append, filter_checkKeyboard]
    rfl
  · intro s i h
    obtain ⟨hfilter, hlines⟩ := F.loop_of_paused (i := i) (by simpa using h)
    rw [hlines, filter_checkKeyboard]
    exact ⟨hfilter, rfl⟩

end Shared

/-! ### The dual sketch -/

/-- The pins of the dual sketch. -/
inductive Pin where
  | sensorPin0
  | sensorPin1

/-- What a pair holds for a pin. -/
def Pin.of {α : Type*} : Pin → α × α → α
  | .sensorPin0, p => p.1
  | .sensorPin1, p => p.2

section Dual

variable {K : Type*} [Field K]

/-- The reading of a pin, as a number. -/
def Pin.value (K : Type*) [Field K] (pin : Pin) (r : Adc × Adc) : K := ((pin.of r : Adc) : ℕ)

variable [LinearOrder K] [IsStrictOrderedRing K] [FloorRing K]

/-- The dual sketch in exact arithmetic, over its smoothing factor. -/
def exactDual (a : K) : Sketch (Adc × Adc) (K × K) := dual BoardFloat.exact a

/-- The filter of a pin starts from its first reading. -/
lemma Pin.of_initial (pin : Pin) (a : K) (r : Adc × Adc) :
    pin.of ((exactDual a).initial r) = pin.value K r := by
  cases pin <;> rfl

/-- And moves towards each reading by the smoothing factor. -/
lemma Pin.of_smooth (pin : Pin) (a : K) (s : K × K) (r : Adc × Adc) :
    pin.of ((exactDual a).smooth s r)
      = pin.of s * (1 - a) + pin.value K r * a := by
  cases pin <;> rfl

/-- The filter of a pin averages its readings. -/
lemma Pin.of_run_smooth (pin : Pin) (a : K) (s : K × K) (rs : List (Adc × Adc)) :
    pin.of (Machine.run (exactDual a).smooth s rs)
      = Averaging.average a (pin.of s) (rs.map (pin.value K)) := by
  induction rs using List.reverseRecOn with
  | nil => rfl
  | append_singleton rs r ih =>
      rw [Machine.run_concat, Pin.of_smooth, ih, List.map_append, List.map_singleton,
        Averaging.average_concat]

/-- **A filter of the dual sketch is the average of the readings of its pin** in setup and the
unpaused iterations. -/
theorem smoothedValue_run_eq_average (pin : Pin) (a : K) (rawValue : Adc × Adc)
    (inputs : List (LoopInput (Adc × Adc))) :
    pin.of ((exactDual a).run rawValue inputs).smoothedValue
      = Averaging.average a (pin.value K rawValue)
        ((unpaused false inputs).map (pin.value K)) := by
  rw [smoothedValue_run, Pin.of_run_smooth, Pin.of_initial]

/-- From any point of a run its filter averages on. -/
lemma smoothedValue_run_append (pin : Pin) (a : K) (rawValue : Adc × Adc)
    (pre post : List (LoopInput (Adc × Adc))) :
    pin.of ((exactDual a).run rawValue (pre ++ post)).smoothedValue
      = Averaging.average a (pin.of ((exactDual a).run rawValue pre).smoothedValue)
        ((unpaused (pausedAfter pre) post).map (pin.value K)) := by
  rw [smoothedValue_run_eq_average, smoothedValue_run_eq_average, unpaused_append,
    List.map_append, Averaging.average_append]

/-- **Pausing does not disturb the dual filter.**  The data lines depend on the unpaused readings
alone: on them without a key too, and on a run with paused iterations put in that toggle back.
Each filter is the weighted sum of the readings of its pin, lies between the least and the
greatest of them, and forgets where it was as the power of `1 - a` by the unpaused iterations
since. -/
theorem pausing_undisturbed {a : K} (h0 : 0 < a) (h1 : a < 1) :
    (∀ rawValue inputs inputs', unpaused false inputs = unpaused false inputs' →
        (exactDual a).dataLines rawValue inputs = (exactDual a).dataLines rawValue inputs')
      ∧ (∀ rawValue inputs, (exactDual a).dataLines rawValue inputs
          = (exactDual a).dataLines rawValue ((unpaused false inputs).map keyless))
      ∧ (∀ rawValue pre mid post, unpaused (pausedAfter pre) mid = [] →
          pausedAfter (pre ++ mid) = pausedAfter pre →
          (exactDual a).dataLines rawValue (pre ++ mid ++ post)
            = (exactDual a).dataLines rawValue (pre ++ post))
      ∧ (∀ (pin : Pin) rawValue inputs n, n = (unpaused false inputs).length →
          pin.of ((exactDual a).run rawValue inputs).smoothedValue
            = (1 - a) ^ n * pin.value K rawValue + ∑ i ∈ Finset.range n,
              a * (1 - a) ^ (n - (i + 1)) * ((unpaused false inputs).map (pin.value K)).getD i 0)
      ∧ (∀ (pin : Pin) rawValue inputs,
          Averaging.Between (pin.value K rawValue :: (unpaused false inputs).map (pin.value K))
            (pin.of ((exactDual a).run rawValue inputs).smoothedValue))
      ∧ (∀ (pin : Pin) rawValue rawValue' pre pre' post post',
          unpaused (pausedAfter pre) post = unpaused (pausedAfter pre') post' →
          pin.of ((exactDual a).run rawValue (pre ++ post)).smoothedValue
              - pin.of ((exactDual a).run rawValue' (pre' ++ post')).smoothedValue
            = (1 - a) ^ (unpaused (pausedAfter pre) post).length
              * (pin.of ((exactDual a).run rawValue pre).smoothedValue
                - pin.of ((exactDual a).run rawValue' pre').smoothedValue)) := by
  refine ⟨fun rawValue inputs inputs' h => ?_, fun rawValue inputs => ?_,
    fun rawValue pre mid post hmid hpause => ?_, fun pin rawValue inputs n hn => ?_,
    fun pin rawValue inputs => ?_, fun pin rawValue rawValue' pre pre' post post' h => ?_⟩
  · rw [dataLines_eq, dataLines_eq, h]
  · rw [dataLines_eq, dataLines_eq, unpaused_keyless]
  · rw [dataLines_eq, dataLines_eq, unpaused_append, unpaused_append, unpaused_append, hmid,
      hpause, List.append_nil]
  · rw [smoothedValue_run_eq_average, Averaging.average_eq_sum, List.length_map, ← hn]
  · rw [smoothedValue_run_eq_average]
    exact Averaging.between_average h0.le h1.le _ _
  · rw [smoothedValue_run_append, smoothedValue_run_append, ← h, Averaging.average_sub_average,
      List.length_map]

/-- At a half, a key pauses two iterations and a key ends the pause: the readings of the two
leave no trace. -/
theorem pausing_undisturbed_half :
    let F := exactDual (1 / 2 : ℚ)
    F.dataLines (8, 4)
        [⟨none, (0, 4)⟩, ⟨some 'p', (9, 9)⟩, ⟨none, (7, 7)⟩, ⟨some 'p', (4, 0)⟩]
      = F.dataLines (8, 4) [⟨none, (0, 4)⟩, ⟨none, (4, 0)⟩] :=
  (pausing_undisturbed (by norm_num) (by norm_num)).1 _ _ _ rfl

end Dual

end Sketch

end EmbodiedSynth.Firmware
