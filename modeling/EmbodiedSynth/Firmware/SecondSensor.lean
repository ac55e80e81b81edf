/-
The sketch that reads two sensors and prints the second,
`sketch_embodied_synth_esp32c3_serial_2sensors.ino`.

* `Projects`: two sketches that print alike, the second on a part of the readings of the first.
* `esp32c3Serial2Sensors`: the sketch.
* `second_sensor_stream`: after its banner the stream is that of the RP2040 sketch on the second
  sensor; the first leaves no trace.
-/
import EmbodiedSynth.Firmware.SerialSketch

namespace EmbodiedSynth.Firmware

open Arduino

namespace Sketch

/-! ### Sketches that print alike -/

section Project

variable {ρ φ ρ' φ' : Type*} {F : Sketch ρ φ} {G : Sketch ρ' φ'} {p : ρ → ρ'} {q : φ → φ'}

/-- A state with its filters projected. -/
def projectState (q : φ → φ') (s : State φ) : State φ' := ⟨s.paused, q s.smoothedValue⟩

/-- An iteration with its readings projected. -/
def projectInput (p : ρ → ρ') (i : LoopInput ρ) : LoopInput ρ' := ⟨i.key, p i.rawValue⟩

/-- What the first sketch prints on some readings the second prints on their projection. -/
structure Projects (F : Sketch ρ φ) (G : Sketch ρ' φ') (p : ρ → ρ') (q : φ → φ') : Prop where
  initial : ∀ r, q (F.initial r) = G.initial (p r)
  smooth : ∀ s r, q (F.smooth s r) = G.smooth (q s) (p r)
  dataLine : ∀ r s, F.dataLine r s = G.dataLine (p r) (q s)

/-- So it is for one iteration. -/
lemma Projects.loop (h : Projects F G p q) (s : State φ) (i : LoopInput ρ) :
    projectState q (F.loop s i).1 = (G.loop (projectState q s) (projectInput p i)).1
      ∧ (F.loop s i).2.map F.text
        = (G.loop (projectState q s) (projectInput p i)).2.map G.text := by
  have hpaused : (F.loop s i).1.paused
      = (G.loop (projectState q s) (projectInput p i)).1.paused := by
    rw [F.paused_loop, G.paused_loop]
    rfl
  have hstatus : (checkKeyboard s.paused i.key : Bool × List (Printed ρ φ)).2.map F.text
      = (checkKeyboard s.paused i.key : Bool × List (Printed ρ' φ')).2.map G.text := by
    simp only [checkKeyboard]
    split_ifs <;> rfl
  cases hnext : toggled s.paused i with
  | true =>
      obtain ⟨hsmooth, hout⟩ := F.loop_of_paused hnext
      obtain ⟨hsmooth', hout'⟩ := G.loop_of_paused (s := projectState q s)
        (i := projectInput p i) hnext
      refine ⟨congrArg₂ State.mk hpaused ?_, ?_⟩
      · rw [hsmooth]
        exact hsmooth'.symm
      · rw [hout, hout', hstatus]
        rfl
  | false =>
      obtain ⟨hsmooth, hout⟩ := F.loop_of_unpaused hnext
      obtain ⟨hsmooth', hout'⟩ := G.loop_of_unpaused (s := projectState q s)
        (i := projectInput p i) hnext
      refine ⟨congrArg₂ State.mk hpaused ?_, ?_⟩
      · rw [hsmooth, h.smooth]
        exact hsmooth'.symm
      · rw [hout, hout', List.map_append, List.map_append, hstatus, List.map_singleton,
          List.map_singleton, text, text, h.dataLine, h.smooth]
        rfl

/-- The lines of a run after the banner. -/
lemma Projects.stream (h : Projects F G p q) (r : ρ) (inputs : List (LoopInput ρ)) :
    ∃ lines, F.stream r inputs = F.text (.status F.banner) ++ lines
      ∧ G.stream (p r) (inputs.map (projectInput p)) = G.text (.status G.banner) ++ lines := by
  have hemitted := Machine.map_emitted G.loop (projectState q) (projectInput p) F.text G.text
    h.loop (F.setup r).1 inputs
  have hsetup : projectState q (F.setup r).1 = (G.setup (p r)).1 :=
    congrArg (State.mk false) (h.initial r)
  refine ⟨(Machine.emitted F.loop (F.setup r).1 inputs).flatMap F.text, ?_, ?_⟩
  · rw [Sketch.stream, printed, List.flatMap_append]
    exact congrArg (· ++ _) (List.append_nil _)
  · rw [Sketch.stream, printed, List.flatMap_append, List.flatMap_def (f := F.text), hemitted,
      hsetup, ← List.flatMap_def]
    exact congrArg (· ++ _) (List.append_nil _)

end Project

/-! ### The sketch -/

section SecondSensor

variable {K : Type*} [Field K] [LinearOrder K] [IsStrictOrderedRing K] [FloorRing K]
  (B : BoardFloat K)

/-- `sketch_embodied_synth_esp32c3_serial_2sensors.ino`: both sensors are smoothed, and the
second is printed. -/
def esp32c3Serial2Sensors : Sketch (Adc × Adc) (K × K) where
  banner := "XIAO ESP32C3 Dual Stretch Sensor Test"
  initial _ := (0, 0)
  smooth s rawValue :=
    (Arduino.smooth B (floatLiteral B (8 / 100)) s.1 rawValue.1,
      Arduino.smooth B (floatLiteral B (8 / 100)) s.2 rawValue.2)
  dataLine rawValue s := printInt rawValue.2 ++ ",".toList ++ printFloat s.2

/-- **The first sensor leaves no trace**: after the banner the stream is that of the RP2040
sketch on the second. -/
theorem second_sensor_stream (rawValue : Adc × Adc) (inputs : List (LoopInput (Adc × Adc))) :
    ∃ lines, (esp32c3Serial2Sensors B).stream rawValue inputs
        = "XIAO ESP32C3 Dual Stretch Sensor Test".toList ++ crlf ++ lines
      ∧ (rp2040 B).stream rawValue.2 (inputs.map (projectInput Prod.snd))
        = "XIAO RP2040 Stretch Sensor Test".toList ++ crlf ++ lines := by
  have hproject : Projects (esp32c3Serial2Sensors B) (rp2040 B) Prod.snd Prod.snd :=
    ⟨fun _ => rfl, fun _ _ => rfl, fun _ _ => rfl⟩
  exact hproject.stream rawValue inputs

/-- A reading, a pause and a key that resumes. -/
theorem second_sensor_stream_keys :
    ∃ lines, (esp32c3Serial2Sensors (BoardFloat.exact : BoardFloat ℚ)).stream (7, 0)
          [⟨none, (5, 1800)⟩, ⟨some 'p', (6, 1900)⟩, ⟨some 'p', (7, 2000)⟩]
        = "XIAO ESP32C3 Dual Stretch Sensor Test".toList ++ crlf ++ lines
      ∧ (rp2040 (BoardFloat.exact : BoardFloat ℚ)).stream 0
          [⟨none, 1800⟩, ⟨some 'p', 1900⟩, ⟨some 'p', 2000⟩]
        = "XIAO RP2040 Stretch Sensor Test".toList ++ crlf ++ lines :=
  second_sensor_stream _ _ _

end SecondSensor

end Sketch

end EmbodiedSynth.Firmware
