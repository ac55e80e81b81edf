/-
The OSC recorder, `sketch_embodied_synth_wifi_osc_control_pitch_save_CSV.pde`.

* `OscMessage`: an OSC message, its arguments given by what their accessors return.
* `State`: the variables of the sketch, the rows of the CSV after its header, and the
  frequencies the oscillator was set to, in order.
* `oscEvent`, `draw`: its two handlers; `Event`, `step`: the handlers as the steps of one
  machine.

The console output, the drawing, the flushing of the file and the port are left out.  A
message whose arguments have other types than the accessors expect makes the library throw,
and is not modelled.  A row keeps its values.  Their decimal text is left out: that of a float
drops digits of a large time.
-/
import EmbodiedSynth.Library.Machine
import EmbodiedSynth.Processing.Pitch

namespace EmbodiedSynth.WifiOscControlPitchSaveCsv

open Processing

/-- An argument of an OSC message, by its accessors. -/
structure OscArgument (K : Type*) where
  intValue : ℤ
  floatValue : ExtNum K

/-- An OSC message. -/
structure OscMessage (K : Type*) where
  addrPattern : String
  arguments : List (OscArgument K)

/-- A row of the CSV, `sample,processing_time_ms,sensor_time_ms,raw,smoothed,frequency`. -/
structure Row (K : Type*) where
  sample : ℕ
  processingTimeMs : ℤ
  sensorTimeMs : ExtNum K
  raw : ExtNum K
  smoothed : ExtNum K
  frequency : ExtNum K

/-- The variables of the sketch and what it has put out. -/
structure State (K : Type*) where
  rawValue : ExtNum K
  smoothedValue : ExtNum K
  sensorTimestamp : ExtNum K
  sampleIndex : ℕ
  csv : List (Row K)
  sineFreqs : List (ExtNum K)

section Constants

variable (K : Type*) [Field K]

def minSensor : ExtNum K := 2500

def maxSensor : ExtNum K := 3240

/-- The startup values. -/
def init : State K where
  rawValue := 0
  smoothedValue := 700
  sensorTimestamp := 0
  sampleIndex := 0
  csv := []
  sineFreqs := []

end Constants

variable {K : Type*} [Field K] [LinearOrder K] (A : FloatArith K)

/-- `oscEvent(msg)`.  The two ints are converted to the float variables they are assigned
to. -/
def oscEvent (s : State K) (msg : OscMessage K) : State K :=
  if msg.addrPattern = "/stretch" then
    match msg.arguments with
    | a0 :: a1 :: a2 :: _ =>
        { s with
          sensorTimestamp := A.ofInt a0.intValue
          rawValue := A.ofInt a1.intValue
          smoothedValue := a2.floatValue }
    | _ => s
  else s

/-- `draw()`, at the time `millis`. -/
def draw (s : State K) (millis : ℤ) : State K :=
  let freq := sensorFreq A (minSensor K) (maxSensor K) s.smoothedValue
  { s with
    sineFreqs := s.sineFreqs ++ [freq]
    csv := s.csv ++ [{ sample := s.sampleIndex, processingTimeMs := millis,
                       sensorTimeMs := s.sensorTimestamp, raw := s.rawValue,
                       smoothed := s.smoothedValue, frequency := freq }]
    sampleIndex := s.sampleIndex + 1 }

/-- The events the sketch handles. -/
inductive Event (K : Type*) where
  | oscEvent (msg : OscMessage K)
  | draw (millis : ℤ)

/-- One handler, run to its end. -/
def step (s : State K) : Event K → State K
  | .oscEvent msg => oscEvent A s msg
  | .draw millis => draw A s millis

/-- The state after the events `es`, from startup. -/
def run (es : List (Event K)) : State K := Machine.run (step A) (init K) es

end EmbodiedSynth.WifiOscControlPitchSaveCsv
