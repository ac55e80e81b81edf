/-
The frequency band of the serial recorder.

The clamp in `draw` bounds every number, but it is made of two comparisons, and both are
false on NaN.  `serialEvent` stores whatever `float` makes of a field, so a field that is no
number reaches the oscillator and the CSV as NaN.

* `DenotesNumber`: the texts that `float` reads as a number.
* `lastField`: the second field of the last line the sketch has taken.
* `mailbox`: the recorder as a mailbox.
* `band_iff`: every frequency of a run lies in the band exactly when at each `draw` that
  field, if there is one, denotes a number.
-/
import EmbodiedSynth.ControlPitchSaveCsv.Sketch
import EmbodiedSynth.Library.Mailbox

namespace EmbodiedSynth.ControlPitchSaveCsv

open Processing

variable {K : Type*} [Field K] [LinearOrder K] (A : FloatArith K)

/-- A text that denotes a number, an infinity included. -/
def DenotesNumber (cs : List Char) : Prop := ∃ x, parseFloat cs = some x ∧ x ≠ .nan

/-- The texts that are read as NaN are those that denote no number. -/
lemma float_eq_nan_iff (cs : List Char) : float A cs = .nan ↔ ¬ DenotesNumber cs := by
  rw [float, DenotesNumber]
  cases parseFloat cs with
  | none => simp
  | some x =>
      cases x with
      | nan => simp [roundText]
      | negInf => simp [roundText]
      | fin q => simp [roundText, A.round_ne_nan]
      | posInf => simp [roundText]

/-- The second field of a line the sketch takes. -/
def secondField : Event → Option (List Char)
  | .serialEvent (some incoming) => (fields incoming).map Prod.snd
  | _ => none

/-- The second field of the last line taken in a run. -/
def lastField (es : List Event) : Option (List Char) := (es.filterMap secondField).getLast?

/-- Whether an event writes a row. -/
def Event.isDraw : Event → Bool
  | .serialEvent _ => false
  | .draw _ => true

/-- A line overwrites the smoothed value with what `float` makes of its second field. -/
lemma smoothedValue_serialEvent (s : State K) (incoming : Option (List Char)) :
    (serialEvent A s incoming).smoothedValue
      = ((secondField (.serialEvent incoming)).map (float A)).getD s.smoothedValue := by
  cases incoming with
  | none => rfl
  | some line =>
      rw [serialEvent, secondField]
      cases fields line <;> rfl

/-- A line writes no row and sets no frequency. -/
lemma outputs_serialEvent (s : State K) (incoming : Option (List Char)) :
    (serialEvent A s incoming).csv = s.csv
      ∧ (serialEvent A s incoming).sineFreqs = s.sineFreqs := by
  cases incoming with
  | none => exact ⟨rfl, rfl⟩
  | some line =>
      rw [serialEvent]
      cases fields line <;> exact ⟨rfl, rfl⟩

/-- The recorder as a mailbox: lines write the smoothed value, frames sample it. -/
def mailbox : Mailbox (step A) (List Char) (ExtNum K) where
  cell := State.smoothedValue
  log s := s.csv.map Row.smoothed
  written := secondField
  store := float A
  isSample := Event.isDraw
  written_sample e h := by
    cases e with
    | serialEvent incoming => exact absurd h Bool.false_ne_true
    | draw millis => rfl
  cell_step s e := by
    cases e with
    | serialEvent incoming => exact smoothedValue_serialEvent A s incoming
    | draw millis => rfl
  log_step s e := by
    cases e with
    | serialEvent incoming =>
        rw [step, (outputs_serialEvent A s incoming).1]
        exact (List.append_nil _).symm
    | draw millis => simp [step, draw, Event.isDraw]

/-- The smoothed value is what `float` makes of the last field, or the startup value. -/
lemma smoothedValue_run (es : List Event) :
    (run A es).smoothedValue = ((lastField es).map (float A)).getD 700 :=
  (mailbox A).cell_run (init K) es

/-- The frequency a step sets and writes. -/
def frequencies (s : State K) : Event → List (ExtNum K)
  | .serialEvent _ => []
  | .draw _ => [sensorFreq A (minSensor K) (maxSensor K) s.smoothedValue]

lemma sineFreqs_step (s : State K) (e : Event) :
    (step A s e).sineFreqs = s.sineFreqs ++ frequencies A s e := by
  cases e with
  | serialEvent incoming =>
      rw [frequencies, List.append_nil]
      exact (outputs_serialEvent A s incoming).2
  | draw millis => rfl

lemma csv_step (s : State K) (e : Event) :
    (step A s e).csv.map Row.frequency = s.csv.map Row.frequency ++ frequencies A s e := by
  cases e with
  | serialEvent incoming =>
      rw [frequencies, List.append_nil, step, (outputs_serialEvent A s incoming).1]
  | draw millis => simp [step, draw, frequencies]

/-- The oscillator is set to the frequencies that are written. -/
lemma csv_frequency_eq_sineFreqs (es : List Event) :
    (run A es).csv.map Row.frequency = (run A es).sineFreqs :=
  Machine.run_invariant (P := fun s : State K => s.csv.map Row.frequency = s.sineFreqs)
    (fun s hs e _ => by rw [csv_step, sineFreqs_step, hs]) rfl

/-- The frequencies of a run are those of its `draw` steps. -/
lemma mem_sineFreqs_iff (es : List Event) (f : ExtNum K) :
    f ∈ (run A es).sineFreqs ↔ ∃ pre millis post, es = pre ++ .draw millis :: post
      ∧ f = sensorFreq A (minSensor K) (maxSensor K) (run A pre).smoothedValue := by
  rw [run, Machine.mem_log_run_iff (sineFreqs_step A)]
  constructor
  · rintro (h | ⟨pre, e, post, rfl, h⟩)
    · exact absurd h List.not_mem_nil
    · cases e with
      | serialEvent incoming => exact absurd h List.not_mem_nil
      | draw millis => exact ⟨pre, millis, post, rfl, List.mem_singleton.mp h⟩
  · rintro ⟨pre, millis, post, rfl, rfl⟩
    exact Or.inr ⟨pre, .draw millis, post, rfl, List.mem_singleton_self _⟩

variable [IsStrictOrderedRing K]

/-- The frequency of a smoothed value lies in the band exactly when the value is a number. -/
lemma inBand_sensorFreq_iff (v : ExtNum K) :
    InBand (sensorFreq A (minSensor K) (maxSensor K) v) ↔ v ≠ .nan := by
  constructor
  · rintro h rfl
    rw [sensorFreq_nan] at h
    exact not_inBand_nan h
  · intro hv
    exact sensorFreq_mem_band A (by norm_num) (by norm_num) hv

/-- **The band of the oscillator**: every frequency that a run sets or writes is a number
from 100 to 1000, exactly when at each of its `draw` steps the second field of the last line
taken before it, if any, denotes a number. -/
theorem band_iff (es : List Event) :
    ((∀ f ∈ (run A es).sineFreqs, InBand f) ∧ ∀ row ∈ (run A es).csv, InBand row.frequency)
      ↔ ∀ pre millis post, es = pre ++ .draw millis :: post →
          ∀ field, lastField pre = some field → DenotesNumber field := by
  have hrows : (∀ row ∈ (run A es).csv, InBand row.frequency)
      ↔ ∀ f ∈ (run A es).sineFreqs, InBand f := by
    rw [← csv_frequency_eq_sineFreqs, List.forall_mem_map]
  rw [hrows, and_self]
  have hvalue : ∀ pre, (run A pre).smoothedValue ≠ .nan
      ↔ ∀ field, lastField pre = some field → DenotesNumber field := by
    intro pre
    rw [smoothedValue_run]
    cases lastField pre with
    | none => simp
    | some field =>
        simp only [Option.map_some, Option.getD_some, Ne, float_eq_nan_iff, not_not,
          Option.some.injEq, forall_eq']
  constructor
  · intro h pre millis post hes
    rw [← hvalue, ← inBand_sensorFreq_iff A]
    exact h _ ((mem_sineFreqs_iff A es _).mpr ⟨pre, millis, post, hes, rfl⟩)
  · intro h f hf
    obtain ⟨pre, millis, post, hes, rfl⟩ := (mem_sineFreqs_iff A es f).mp hf
    rw [inBand_sensorFreq_iff A, hvalue]
    exact h pre millis post hes

/-- A frame after a line of two numbers. -/
theorem band_iff_numbers :
    (∀ f ∈ (run FloatArith.exactRat
          [.serialEvent (some "2600,2650.00\r\n".toList), .draw 16]).sineFreqs, InBand f)
      ∧ ∀ row ∈ (run FloatArith.exactRat
          [.serialEvent (some "2600,2650.00\r\n".toList), .draw 16]).csv,
          InBand row.frequency := by
  refine (band_iff FloatArith.exactRat _).mpr fun pre millis post hes field hfield => ?_
  have hlast : lastField pre = some "2650.00".toList ∨ lastField pre = none := by
    rcases pre with _ | ⟨e, _ | ⟨e', pre⟩⟩
    · exact Or.inr rfl
    · obtain rfl := (List.cons.inj hes).1
      exact Or.inl (by decide +kernel)
    · exact absurd (congrArg List.length hes) (by simp)
  rcases hlast with h | h
  · obtain rfl := Option.some.inj (h.symm.trans hfield)
    exact ⟨.fin 2650, by decide +kernel, by simp⟩
  · exact absurd (h.symm.trans hfield) (by simp)

/-- A line with text in its second field, then a frame: the oscillator is set to NaN. -/
theorem text_field_leaves_band :
    ¬ ((∀ f ∈ (run FloatArith.exactRat
          [.serialEvent (some "2600,SMOOTH\r\n".toList), .draw 16]).sineFreqs, InBand f)
      ∧ ∀ row ∈ (run FloatArith.exactRat
          [.serialEvent (some "2600,SMOOTH\r\n".toList), .draw 16]).csv,
          InBand row.frequency) := by
  intro h
  have hnan : ExtNum.nan ∈ (run FloatArith.exactRat
      [.serialEvent (some "2600,SMOOTH\r\n".toList), .draw 16]).sineFreqs := by decide +kernel
  exact not_inBand_nan (h.1 _ hnan)

end EmbodiedSynth.ControlPitchSaveCsv
