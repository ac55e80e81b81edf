/-
The sketches that map a stretch directly to sound: `sketch_embodied_synth_control_pitch.pde`,
`sketch_embodied_synth_harmonic.pde`, `sketch_embodied_synth_cutoff_frequency_white_noise.pde`,
`sketch_embodied_synth_cutoff_frequency_white_noise_silence.pde` and
`sketch_embodied_synth_noise_layer_1.pde`.

They share one shape: `serialEvent` overwrites the two values of the sensor, and `draw` computes
parameters of the sound engine from the smoothed one.  They differ in the guards on a line and
in the parameters.

* `Sketch`: the five sketches; `startup`, `setup`, `fields`, `settings`: what each does by itself.
* `State`, `serialEvent`, `draw`, `step`: the shared code.  A frame is what a `draw` shows and
  sets, and `sound` all that was ever set.
* `mailbox`: a sketch as a mailbox; `smoothedValue_run` and `mem_frames_iff` are its runs.

The console output, the drawing and the ports are left out.  A handler runs to its end.
-/
import EmbodiedSynth.ControlPitchSaveCsv.Sketch
import EmbodiedSynth.Library.Mailbox
import EmbodiedSynth.Processing.Mapped

namespace EmbodiedSynth.DirectMapping

open Processing

/-- A parameter of the sound engine. -/
inductive Parameter where
  | sineFreq (i : ℕ)
  | sineAmp (i : ℕ)
  | noiseAmp
  | lowpassFreq
  | bandFreq
  | bandRes
deriving DecidableEq

/-- A call of the sound engine that sets a parameter. -/
structure Setting (K : Type*) where
  parameter : Parameter
  value : ExtNum K
deriving DecidableEq

/-- What a `draw` shows and sets. -/
structure Frame (K : Type*) where
  rawValue : ExtNum K
  smoothedValue : ExtNum K
  settings : List (Setting K)
deriving DecidableEq

/-- The variables of a sketch, and its frames so far. -/
structure State (K : Type*) where
  rawValue : ExtNum K
  smoothedValue : ExtNum K
  frames : List (Frame K)

/-- The sketches. -/
inductive Sketch where
  | controlPitch
  | harmonic
  | cutoffFrequencyWhiteNoise
  | cutoffFrequencyWhiteNoiseSilence (silenceWhenStretched : Bool)
  | noiseLayer1
deriving DecidableEq

/-- The events a sketch handles. -/
inductive Event where
  | serialEvent (incoming : Option (List Char))
  | draw

/-! ### What each sketch does by itself -/

/-- `serialEvent` of `sketch_embodied_synth_noise_layer_1.pde` has no guard but the number of
fields. -/
def noiseLayer1Fields (incoming : List Char) : Option (List Char × List Char) :=
  match split (trim incoming) ',' with
  | [value0, value1] => some (value0, value1)
  | _ => none

/-- The amplitudes of the partials, `amps`. -/
def partialAmps : List ℚ :=
  [45 / 100, 25 / 100, 15 / 100, 10 / 100, 7 / 100, 5 / 100, 3 / 100, 2 / 100, 15 / 1000, 1 / 100,
    5 / 1000, 1 / 1000]

section Draw

variable {K : Type*} [Field K] [LinearOrder K] (A : FloatArith K) (smoothedValue : ExtNum K)

/-- `draw` of `sketch_embodied_synth_control_pitch.pde`. -/
def drawControlPitch : List (Setting K) :=
  [⟨.sineFreq 0, mapped A smoothedValue 2600 2900 40 800 100 1000⟩]

/-- `draw` of `sketch_embodied_synth_harmonic.pde`. -/
def drawHarmonic : List (Setting K) :=
  let freq := mapped A smoothedValue 2600 2900 40 800 40 800
  (List.range partialAmps.length).map fun i => ⟨.sineFreq i, A.mul freq (A.ofInt (i + 1))⟩

/-- `draw` of `sketch_embodied_synth_cutoff_frequency_white_noise.pde`. -/
def drawCutoffFrequencyWhiteNoise : List (Setting K) :=
  [⟨.lowpassFreq, mapped A smoothedValue 2300 2900 100 8000 100 8000⟩]

/-- The variable `control` of `sketch_embodied_synth_cutoff_frequency_white_noise_silence.pde`. -/
def control (silenceWhenStretched : Bool) : ExtNum K :=
  let sensorNorm := mapped A smoothedValue 2450 2900 0 1 0 1
  if silenceWhenStretched then A.sub 1 sensorNorm else sensorNorm

/-- `draw` of `sketch_embodied_synth_cutoff_frequency_white_noise_silence.pde`. -/
def drawCutoffFrequencyWhiteNoiseSilence (silenceWhenStretched : Bool) : List (Setting K) :=
  let control := control A smoothedValue silenceWhenStretched
  [⟨.noiseAmp, mapped A control 0 1 0 (literal A (1 / 4)) 0 (literal A (1 / 4))⟩,
    ⟨.lowpassFreq, mapped A control 0 1 40 8000 40 8000⟩]

/-- `draw` of `sketch_embodied_synth_noise_layer_1.pde`. -/
def drawNoiseLayer1 : List (Setting K) :=
  [⟨.sineFreq 0, mapped A smoothedValue 650 820 80 1000 80 1200⟩,
    ⟨.bandFreq, mapped A smoothedValue 650 820 200 5000 100 6000⟩,
    ⟨.bandRes, 8⟩,
    ⟨.sineAmp 0, mapped A smoothedValue 650 820 (literal A (5 / 100)) (literal A (4 / 10))
      (literal A (5 / 100)) (literal A (4 / 10))⟩]

end Draw

namespace Sketch

/-- The guards of `serialEvent`.  Those of the first four are the serial recorder's. -/
def fields : Sketch → List Char → Option (List Char × List Char)
  | noiseLayer1 => noiseLayer1Fields
  | _ => ControlPitchSaveCsv.fields

section Numbers

variable {K : Type*} [Field K] [LinearOrder K] (A : FloatArith K)

/-- The smoothed value at startup. -/
def startup : Sketch → ExtNum K
  | controlPitch => 700
  | harmonic => 700
  | cutoffFrequencyWhiteNoise => 0
  | cutoffFrequencyWhiteNoiseSilence _ => 0
  | noiseLayer1 => 700

/-- What `setup` sets. -/
def setup : Sketch → List (Setting K)
  | controlPitch => [⟨.sineAmp 0, literal A (2 / 10)⟩]
  | harmonic => partialAmps.mapIdx fun i amp => ⟨.sineAmp i, literal A amp⟩
  | cutoffFrequencyWhiteNoise => [⟨.noiseAmp, literal A (2 / 10)⟩]
  | cutoffFrequencyWhiteNoiseSilence _ => [⟨.noiseAmp, 0⟩]
  | noiseLayer1 => [⟨.sineAmp 0, literal A (15 / 100)⟩, ⟨.noiseAmp, literal A (25 / 100)⟩]

/-- What `draw` sets, in order. -/
def settings (S : Sketch) (smoothedValue : ExtNum K) : List (Setting K) :=
  match S with
  | controlPitch => drawControlPitch A smoothedValue
  | harmonic => drawHarmonic A smoothedValue
  | cutoffFrequencyWhiteNoise => drawCutoffFrequencyWhiteNoise A smoothedValue
  | cutoffFrequencyWhiteNoiseSilence silenceWhenStretched =>
      drawCutoffFrequencyWhiteNoiseSilence A smoothedValue silenceWhenStretched
  | noiseLayer1 => drawNoiseLayer1 A smoothedValue

/-! ### The shared code -/

variable (S : Sketch)

def init : State K where
  rawValue := 0
  smoothedValue := S.startup
  frames := []

/-- `serialEvent(p)`, on what `readStringUntil` returned.  `float` does not throw. -/
def serialEvent (s : State K) : Option (List Char) → State K
  | none => s
  | some incoming =>
      match S.fields incoming with
      | none => s
      | some (value0, value1) =>
          { s with rawValue := float A value0, smoothedValue := float A value1 }

/-- `draw()`. -/
def draw (s : State K) : State K :=
  { s with frames := s.frames ++ [{ rawValue := s.rawValue, smoothedValue := s.smoothedValue,
                                    settings := S.settings A s.smoothedValue }] }

/-- One handler, run to its end. -/
def step (s : State K) : Event → State K
  | .serialEvent incoming => S.serialEvent A s incoming
  | .draw => S.draw A s

/-- The state after the events `es`, from startup. -/
def run (es : List Event) : State K := Machine.run (S.step A) S.init es

/-- All that the sound engine was ever set to, in order. -/
def sound (es : List Event) : List (Setting K) :=
  S.setup A ++ (S.run A es).frames.flatMap Frame.settings

/-! ### Runs -/

/-- The second field of a line the sketch takes. -/
def secondField : Event → Option (List Char)
  | .serialEvent (some incoming) => (S.fields incoming).map Prod.snd
  | _ => none

/-- The second field of the last line taken in a run. -/
def lastField (es : List Event) : Option (List Char) := (es.filterMap S.secondField).getLast?

/-- Whether an event makes a frame. -/
def isDraw : Event → Bool
  | .serialEvent _ => false
  | .draw => true

lemma smoothedValue_serialEvent (s : State K) (incoming : Option (List Char)) :
    (S.serialEvent A s incoming).smoothedValue
      = ((S.secondField (.serialEvent incoming)).map (float A)).getD s.smoothedValue := by
  cases incoming with
  | none => rfl
  | some line =>
      rw [serialEvent, secondField]
      cases S.fields line <;> rfl

/-- A line makes no frame. -/
lemma frames_serialEvent (s : State K) (incoming : Option (List Char)) :
    (S.serialEvent A s incoming).frames = s.frames := by
  cases incoming with
  | none => rfl
  | some line =>
      rw [serialEvent]
      cases S.fields line <;> rfl

/-- A sketch as a mailbox: lines write the smoothed value, frames sample it. -/
def mailbox : Mailbox (S.step A) (List Char) (ExtNum K) where
  cell := State.smoothedValue
  log s := s.frames.map Frame.smoothedValue
  written := S.secondField
  store := float A
  isSample := isDraw
  written_sample e h := by
    cases e with
    | serialEvent incoming => exact absurd h Bool.false_ne_true
    | draw => rfl
  cell_step s e := by
    cases e with
    | serialEvent incoming => exact S.smoothedValue_serialEvent A s incoming
    | draw => rfl
  log_step s e := by
    cases e with
    | serialEvent incoming =>
        rw [step, frames_serialEvent]
        exact (List.append_nil _).symm
    | draw => simp [step, draw, isDraw]

/-- The smoothed value is what `float` makes of the last field, or the startup value. -/
lemma smoothedValue_run (es : List Event) :
    (S.run A es).smoothedValue = ((S.lastField es).map (float A)).getD S.startup :=
  (S.mailbox A).cell_run S.init es

/-- The frame that an event makes. -/
def made (s : State K) : Event → List (Frame K)
  | .serialEvent _ => []
  | .draw => [⟨s.rawValue, s.smoothedValue, S.settings A s.smoothedValue⟩]

lemma frames_step (s : State K) (e : Event) :
    (S.step A s e).frames = s.frames ++ S.made A s e := by
  cases e with
  | serialEvent incoming =>
      rw [made, List.append_nil]
      exact S.frames_serialEvent A s incoming
  | draw => rfl

/-- The frames of a run are made by its `draw` steps. -/
lemma mem_frames_iff (es : List Event) (f : Frame K) :
    f ∈ (S.run A es).frames ↔ ∃ pre post, es = pre ++ .draw :: post
      ∧ f = ⟨(S.run A pre).rawValue, (S.run A pre).smoothedValue,
          S.settings A (S.run A pre).smoothedValue⟩ := by
  rw [run, Machine.mem_log_run_iff (S.frames_step A)]
  constructor
  · rintro (h | ⟨pre, e, post, rfl, h⟩)
    · exact absurd h List.not_mem_nil
    · cases e with
      | serialEvent incoming => exact absurd h List.not_mem_nil
      | draw => exact ⟨pre, post, rfl, List.mem_singleton.mp h⟩
  · rintro ⟨pre, post, rfl, rfl⟩
    exact Or.inr ⟨pre, .draw, post, rfl, List.mem_singleton_self _⟩

end Numbers

end Sketch

end EmbodiedSynth.DirectMapping
