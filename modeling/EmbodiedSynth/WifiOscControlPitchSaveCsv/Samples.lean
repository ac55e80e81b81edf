/-
The samples the OSC recorder writes.

Messages overwrite the three variables of the sketch, and each frame writes them to the CSV,
whether or not a message came.  The recorder is a sampled mailbox.

* `Sample`: what a `/stretch` message carries; `samples`: those of a run.
* `mailbox`: the recorder as a mailbox.
* `recorded_iff`: after every `draw` the rows are the samples received so far exactly when
  before every `draw` one sample came since the last, and its ints are exact as floats.
-/
import EmbodiedSynth.WifiOscControlPitchSaveCsv.Sketch
import EmbodiedSynth.Library.Mailbox

namespace EmbodiedSynth.WifiOscControlPitchSaveCsv

open Machine

/-- The sensor time, the raw and the smoothed value a message carries. -/
structure Sample (K : Type*) where
  sensorTime : ℤ
  raw : ℤ
  smoothed : ExtNum K

/-- The sample of a `/stretch` message with at least three arguments. -/
def OscMessage.sample {K : Type*} (msg : OscMessage K) : Option (Sample K) :=
  if msg.addrPattern = "/stretch" then
    match msg.arguments with
    | a0 :: a1 :: a2 :: _ => some ⟨a0.intValue, a1.intValue, a2.floatValue⟩
    | _ => none
  else none

/-- The sample an event brings. -/
def Event.sample {K : Type*} : Event K → Option (Sample K)
  | .oscEvent msg => msg.sample
  | .draw _ => none

/-- Whether an event writes a row. -/
def Event.isDraw {K : Type*} : Event K → Bool
  | .oscEvent _ => false
  | .draw _ => true

/-- The sensor columns of a row. -/
def Row.sensor {K : Type*} (row : Row K) : ExtNum K × ExtNum K × ExtNum K :=
  (row.sensorTimeMs, row.raw, row.smoothed)

variable {K : Type*} [Field K] [LinearOrder K] (A : FloatArith K)

omit [LinearOrder K] in
/-- A sample as numbers. -/
def Sample.numbers (x : Sample K) : ExtNum K × ExtNum K × ExtNum K :=
  (.fin x.sensorTime, .fin x.raw, x.smoothed)

/-- A sample as the sketch stores it. -/
def Sample.stored (x : Sample K) : ExtNum K × ExtNum K × ExtNum K :=
  (A.ofInt x.sensorTime, A.ofInt x.raw, x.smoothed)

/-- A message with a sample stores it, and no other message does anything. -/
lemma oscEvent_eq (s : State K) (msg : OscMessage K) :
    oscEvent A s msg = (msg.sample.map fun x =>
      { s with
        sensorTimestamp := A.ofInt x.sensorTime
        rawValue := A.ofInt x.raw
        smoothedValue := x.smoothed }).getD s := by
  obtain ⟨addrPattern, arguments⟩ := msg
  rw [oscEvent, OscMessage.sample]
  split_ifs
  · rcases arguments with _ | ⟨a0, _ | ⟨a1, _ | ⟨a2, rest⟩⟩⟩ <;> rfl
  · rfl

/-- The recorder as a mailbox: messages write the three variables, frames sample them. -/
def mailbox : Mailbox (step A) (Sample K) (ExtNum K × ExtNum K × ExtNum K) where
  cell s := (s.sensorTimestamp, s.rawValue, s.smoothedValue)
  log s := s.csv.map Row.sensor
  written := Event.sample
  store := Sample.stored A
  isSample := Event.isDraw
  written_sample e h := by
    cases e with
    | oscEvent msg => exact absurd h Bool.false_ne_true
    | draw millis => rfl
  cell_step s e := by
    cases e with
    | draw millis => rfl
    | oscEvent msg =>
        rw [step, oscEvent_eq, Event.sample]
        cases msg.sample <;> rfl
  log_step s e := by
    cases e with
    | draw millis => simp [step, draw, Event.isDraw, Row.sensor]
    | oscEvent msg =>
        rw [step, oscEvent_eq]
        cases msg.sample <;> simp [Event.isDraw]

/-- The samples received in a run. -/
def samples (es : List (Event K)) : List (Sample K) := es.filterMap Event.sample

/-- The samples received after the last `draw`. -/
def sinceDraw (es : List (Event K)) : List (Sample K) := samples (es.rtakeWhile (!·.isDraw))

/-- After the step, if it is a `draw`, the rows are the samples received so far. -/
def Recorded (pre : List (Event K)) (e : Event K) : Prop :=
  e.isDraw = true →
    (run A (pre ++ [e])).csv.map Row.sensor = (samples (pre ++ [e])).map Sample.numbers

/-- Before the step, if it is a `draw`, one sample came since the last, and its ints are exact
as floats. -/
def OneSample (pre : List (Event K)) (e : Event K) : Prop :=
  e.isDraw = true → ∃ x, sinceDraw pre = [x]
    ∧ A.ofInt x.sensorTime = .fin x.sensorTime ∧ A.ofInt x.raw = .fin x.raw

/-- **The recorded samples**: after every `draw` of a run the rows are the samples received so
far, in order, exactly when before every `draw` one sample came since the last one and its
ints are exact as floats. -/
theorem recorded_iff (es : List (Event K)) :
    EveryStep (Recorded A) es ↔ EveryStep (OneSample A) es := by
  have hone : (mailbox A).OneWritten Sample.numbers = OneSample A := by
    funext pre e
    refine propext (imp_congr_right fun _ => exists_congr fun x => and_congr_right fun _ => ?_)
    simp [mailbox, Sample.stored, Sample.numbers]
  rw [← hone]
  exact (mailbox A).log_eq_iff Sample.numbers rfl es

/-- A frame before the first message writes a row of startup values. -/
theorem startup_row_recorded : ¬ EveryStep (Recorded FloatArith.exactRat) [.draw 0] := by
  intro h
  have hrows := h [] (.draw 0) [] rfl rfl
  exact absurd hrows (by decide +kernel)

end EmbodiedSynth.WifiOscControlPitchSaveCsv
