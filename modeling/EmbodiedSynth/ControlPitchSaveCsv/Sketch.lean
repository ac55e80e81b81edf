/-
The serial recorder, `sketch_embodied_synth_control_pitch_save_CSV.pde`.

* `State`: the variables of the sketch, the rows of the CSV after its header, and the
  frequencies the oscillator was set to, in order.
* `fields`: the guards of `serialEvent`; `serialEvent`, `draw`: its two handlers.
* `Event`, `step`: the handlers as the steps of one machine.

The console output, the drawing and the flushing of the file are left out.  A row keeps its
values.  Their decimal text is left out: that of a float drops digits of a large number.
-/
import EmbodiedSynth.Library.Machine
import EmbodiedSynth.Processing.Pitch

namespace EmbodiedSynth.ControlPitchSaveCsv

open Processing

/-- A row of the CSV, `sample,time_ms,raw,smoothed,frequency`. -/
structure Row (K : Type*) where
  sample : ℕ
  timeMs : ℤ
  raw : ExtNum K
  smoothed : ExtNum K
  frequency : ExtNum K

/-- The variables of the sketch and what it has put out. -/
structure State (K : Type*) where
  rawValue : ExtNum K
  smoothedValue : ExtNum K
  sampleIndex : ℕ
  csv : List (Row K)
  sineFreqs : List (ExtNum K)

section Constants

variable (K : Type*) [Field K]

def minSensor : ExtNum K := 2500

def maxSensor : ExtNum K := 3240

/-- The startup values. -/
def init : State K where
  rawValue := 0
  smoothedValue := 700
  sampleIndex := 0
  csv := []
  sineFreqs := []

end Constants

variable {K : Type*} [Field K] [LinearOrder K] (A : FloatArith K)

/-- The guards of `serialEvent` on a line: its two fields, or `none` where the line is
dropped. -/
def fields (incoming : List Char) : Option (List Char × List Char) :=
  let incoming := trim incoming
  if incoming.length = 0 then none
  else if startsWith incoming "XIAO" then none
  else if startsWith incoming "===" then none
  else match split incoming ',' with
    | [value0, value1] => some (value0, value1)
    | _ => none

/-- `serialEvent(p)`, on what `readStringUntil` returned.  `float` does not throw, so the
handler of the source that catches a parse error is never entered. -/
def serialEvent (s : State K) : Option (List Char) → State K
  | none => s
  | some incoming =>
      match fields incoming with
      | none => s
      | some (value0, value1) =>
          { s with rawValue := float A value0, smoothedValue := float A value1 }

/-- `draw()`, at the time `millis`. -/
def draw (s : State K) (millis : ℤ) : State K :=
  let freq := sensorFreq A (minSensor K) (maxSensor K) s.smoothedValue
  { s with
    sineFreqs := s.sineFreqs ++ [freq]
    csv := s.csv ++ [{ sample := s.sampleIndex, timeMs := millis, raw := s.rawValue,
                       smoothed := s.smoothedValue, frequency := freq }]
    sampleIndex := s.sampleIndex + 1 }

/-- The events the sketch handles. -/
inductive Event where
  | serialEvent (incoming : Option (List Char))
  | draw (millis : ℤ)

/-- One handler, run to its end. -/
def step (s : State K) : Event → State K
  | .serialEvent incoming => serialEvent A s incoming
  | .draw millis => draw A s millis

/-- The state after the events `es`, from startup. -/
def run (es : List Event) : State K := Machine.run (step A) (init K) es

/-- A line without a comma is dropped. -/
lemma fields_of_notMem {line : List Char} (h : ',' ∉ line) : fields line = none := by
  have htrim : ',' ∉ trim line := fun hmem => by
    rcases mem_of_mem_trim hmem with h1 | h1
    · exact h h1
    · exact absurd h1 (by decide)
  rw [fields, split_of_notMem htrim]
  split_ifs <;> rfl

end EmbodiedSynth.ControlPitchSaveCsv
