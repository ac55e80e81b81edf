/-
The sketches that print to the serial port: `sketch_embodied_synth_rp2040.ino`,
`sketch_embodied_synthesisers_esp32S3.ino` and
`sketch_jul19a_embodied_synthesisers_esp32s3_2sensors.ino`.

They share one loop: a `p` on the keyboard toggles the pause and prints a status line, and an
unpaused iteration smooths the readings and prints a data line.  They differ in the banner,
in what the filters start from and in the format of the data line.

* `Sketch`: what a sketch does by itself; `rp2040`, `esp32S3`, `jul19a`: the three.
* `setup`, `loop`: the shared code.  `printed` lists the lines of a run, `stream` is the text
  they are sent as.
* `forall_printed`: the status lines of a run are the three texts, and a property of the
  filter kept by the smoothing holds of every data line.
* `pausedAfter`: whether a run is paused, read off its keys; `no_data_iff`: when it prints no
  data line.

The delays, the pins and the ports are left out.
-/
import EmbodiedSynth.Library.Machine
import EmbodiedSynth.Arduino.Print
import EmbodiedSynth.Arduino.Smoothing

namespace EmbodiedSynth.Firmware

open Arduino

/-- A printed line: a status text, or the readings with the filters after them. -/
inductive Printed (ρ φ : Type*) where
  | status (text : String)
  | data (rawValue : ρ) (smoothedValue : φ)
  deriving DecidableEq

/-- A sketch: its readings `ρ`, its filters `φ`, and what it does by itself. -/
structure Sketch (ρ φ : Type*) where
  banner : String
  initial : ρ → φ
  smooth : φ → ρ → φ
  dataLine : ρ → φ → List Char

/-- The variables of a sketch. -/
structure State (φ : Type*) where
  paused : Bool
  smoothedValue : φ

/-- What an iteration of the loop finds: a key, if one is waiting, and the readings of the
converter. -/
structure LoopInput (ρ : Type*) where
  key : Option Char
  rawValue : ρ

namespace Sketch

/-! ### The shared code -/

section Shared

variable {ρ φ : Type*} (F : Sketch ρ φ)

/-- `setup()`, which reads the converter where the filters start from it. -/
def setup (rawValue : ρ) : State φ × List (Printed ρ φ) :=
  ({ paused := false, smoothedValue := F.initial rawValue }, [.status F.banner])

/-- The keyboard check of `loop()`. -/
def checkKeyboard (paused : Bool) (key : Option Char) : Bool × List (Printed ρ φ) :=
  if key = some 'p' then
    if !paused then (true, [.status "=== PAUSED ==="]) else (false, [.status "=== RUNNING ==="])
  else (paused, [])

/-- `loop()`. -/
def loop (s : State φ) (i : LoopInput ρ) : State φ × List (Printed ρ φ) :=
  let (paused, status) := checkKeyboard s.paused i.key
  if !paused then
    let smoothedValue := F.smooth s.smoothedValue i.rawValue
    ({ paused := paused, smoothedValue := smoothedValue },
      status ++ [.data i.rawValue smoothedValue])
  else ({ s with paused := paused }, status)

/-- The lines of a run, started on the reading `rawValue`. -/
def printed (rawValue : ρ) (inputs : List (LoopInput ρ)) : List (Printed ρ φ) :=
  (F.setup rawValue).2 ++ Machine.emitted F.loop (F.setup rawValue).1 inputs

/-- The text of a line, its end included. -/
def text : Printed ρ φ → List Char
  | .status t => t.toList ++ crlf
  | .data rawValue smoothedValue => F.dataLine rawValue smoothedValue ++ crlf

/-- The text a run sends. -/
def stream (rawValue : ρ) (inputs : List (LoopInput ρ)) : List Char :=
  (F.printed rawValue inputs).flatMap F.text

/-- The status lines of a sketch. -/
def IsStatus (t : String) : Prop := t = F.banner ∨ t = "=== PAUSED ===" ∨ t = "=== RUNNING ==="

/-- A line as a run prints it, `P` being what holds of the filters. -/
def Sound (P : φ → Prop) : Printed ρ φ → Prop
  | .status t => F.IsStatus t
  | .data _ smoothedValue => P smoothedValue

/-- The keyboard check prints status lines only. -/
lemma isStatus_of_mem_checkKeyboard {paused : Bool} {key : Option Char} {p : Printed ρ φ}
    (h : p ∈ (checkKeyboard paused key).2) : ∃ t, p = .status t ∧ F.IsStatus t := by
  rw [checkKeyboard] at h
  split_ifs at h
  · exact ⟨_, List.mem_singleton.mp h, Or.inr (Or.inl rfl)⟩
  · exact ⟨_, List.mem_singleton.mp h, Or.inr (Or.inr rfl)⟩
  · exact absurd h List.not_mem_nil

/-- One iteration keeps what the smoothing keeps, and prints it. -/
lemma loop_sound {P : φ → Prop} (hsmooth : ∀ s r, P s → P (F.smooth s r)) {s : State φ}
    (hs : P s.smoothedValue) (i : LoopInput ρ) :
    P (F.loop s i).1.smoothedValue ∧ ∀ p ∈ (F.loop s i).2, F.Sound P p := by
  have hstatus : ∀ p ∈ (checkKeyboard s.paused i.key : Bool × List (Printed ρ φ)).2,
      F.Sound P p := by
    intro p hp
    obtain ⟨t, rfl, ht⟩ := F.isStatus_of_mem_checkKeyboard hp
    exact ht
  simp only [loop]
  split_ifs
  · refine ⟨hsmooth _ _ hs, fun p hp => ?_⟩
    rcases List.mem_append.mp hp with hp | hp
    · exact hstatus p hp
    · rw [List.mem_singleton.mp hp]
      exact hsmooth _ _ hs
  · exact ⟨hs, hstatus⟩

/-- The variables of a sketch after the iterations `inputs`. -/
def run (rawValue : ρ) (inputs : List (LoopInput ρ)) : State φ :=
  Machine.run (Machine.next F.loop) (F.setup rawValue).1 inputs

/-- The last iteration of a run. -/
lemma run_concat (rawValue : ρ) (inputs : List (LoopInput ρ)) (i : LoopInput ρ) :
    F.run rawValue (inputs ++ [i]) = (F.loop (F.run rawValue inputs) i).1 :=
  Machine.run_concat _ _ _ _

/-- A line of a run is the banner, or is printed by one of its iterations. -/
lemma mem_printed_iff (rawValue : ρ) (inputs : List (LoopInput ρ)) (p : Printed ρ φ) :
    p ∈ F.printed rawValue inputs ↔ p = .status F.banner ∨ ∃ pre i post,
      inputs = pre ++ i :: post ∧ p ∈ (F.loop (F.run rawValue pre) i).2 := by
  rw [printed, setup, List.mem_append, List.mem_singleton, Machine.mem_emitted_iff]
  rfl

/-- **The lines of a run**: the status lines are the three texts of the sketch, and every
data line carries filters that satisfy what the smoothing keeps. -/
theorem forall_printed {P : φ → Prop} (hinit : ∀ r, P (F.initial r))
    (hsmooth : ∀ s r, P s → P (F.smooth s r)) (rawValue : ρ) (inputs : List (LoopInput ρ)) :
    ∀ p ∈ F.printed rawValue inputs, F.Sound P p := by
  intro p hp
  rcases (F.mem_printed_iff rawValue inputs p).mp hp with rfl | ⟨pre, i, post, -, hp⟩
  · exact Or.inl rfl
  · have hrun : P (F.run rawValue pre).smoothedValue :=
      Machine.run_invariant (P := fun s : State φ => P s.smoothedValue)
        (fun s hs j _ => (F.loop_sound hsmooth hs j).1) (hinit rawValue)
    exact (F.loop_sound hsmooth hrun i).2 p hp

/-! ### Pauses -/

/-- Whether the keys of `inputs` leave a sketch paused. -/
def pausedAfter (inputs : List (LoopInput ρ)) : Bool :=
  (inputs.countP fun i => i.key = some 'p') % 2 = 1

/-- The pause after the key of an iteration. -/
def toggled (paused : Bool) (i : LoopInput ρ) : Bool :=
  if i.key = some 'p' then !paused else paused

/-- The keyboard check toggles the pause. -/
lemma checkKeyboard_fst (paused : Bool) (i : LoopInput ρ) :
    (checkKeyboard paused i.key : Bool × List (Printed ρ φ)).1 = toggled paused i := by
  rw [checkKeyboard, toggled]
  by_cases hkey : i.key = some 'p'
  · rw [if_pos hkey, if_pos hkey]
    cases paused <;> rfl
  · rw [if_neg hkey, if_neg hkey]

/-- The pause after an iteration is that after its key. -/
lemma paused_loop (s : State φ) (i : LoopInput ρ) :
    (F.loop s i).1.paused = toggled s.paused i := by
  simp only [loop]
  split_ifs <;> exact checkKeyboard_fst s.paused i

/-- An iteration paused after its key leaves the filter and prints status lines only. -/
lemma loop_of_paused {s : State φ} {i : LoopInput ρ} (h : toggled s.paused i = true) :
    (F.loop s i).1.smoothedValue = s.smoothedValue
      ∧ (F.loop s i).2 = (checkKeyboard s.paused i.key).2 := by
  have hpaused : ¬ (!(checkKeyboard s.paused i.key : Bool × List (Printed ρ φ)).1) = true := by
    rw [checkKeyboard_fst, h]
    exact Bool.false_ne_true
  simp only [loop]
  rw [if_neg hpaused]
  exact ⟨rfl, rfl⟩

/-- Any other filters its reading and prints it after them. -/
lemma loop_of_unpaused {s : State φ} {i : LoopInput ρ} (h : toggled s.paused i = false) :
    (F.loop s i).1.smoothedValue = F.smooth s.smoothedValue i.rawValue
      ∧ (F.loop s i).2 = (checkKeyboard s.paused i.key).2
        ++ [.data i.rawValue (F.smooth s.smoothedValue i.rawValue)] := by
  have hrunning : (!(checkKeyboard s.paused i.key : Bool × List (Printed ρ φ)).1) = true := by
    rw [checkKeyboard_fst, h]
    rfl
  simp only [loop]
  rw [if_pos hrunning]
  exact ⟨rfl, rfl⟩

/-- An iteration prints a data line unless it is paused after its key. -/
lemma exists_data_mem_loop_iff (s : State φ) (i : LoopInput ρ) :
    (∃ r x, .data r x ∈ (F.loop s i).2) ↔ (F.loop s i).1.paused = false := by
  have hstatus : ∀ r x,
      .data r x ∉ (checkKeyboard s.paused i.key : Bool × List (Printed ρ φ)).2 := by
    intro r x hp
    obtain ⟨t, ht, -⟩ := F.isStatus_of_mem_checkKeyboard hp
    exact absurd ht (by simp)
  rw [paused_loop]
  cases h : toggled s.paused i with
  | true =>
      rw [(F.loop_of_paused h).2]
      exact ⟨fun ⟨r, x, hp⟩ => absurd hp (hstatus r x), fun hp => absurd hp (by decide)⟩
  | false =>
      rw [(F.loop_of_unpaused h).2]
      exact ⟨fun _ => rfl,
        fun _ => ⟨_, _, List.mem_append_right _ (List.mem_singleton_self _)⟩⟩

/-- The keys of a run are counted by toggling at each. -/
lemma run_toggled (inputs : List (LoopInput ρ)) :
    Machine.run toggled false inputs = pausedAfter inputs := by
  induction inputs using List.reverseRecOn with
  | nil => rfl
  | append_singleton inputs i ih =>
      rw [Machine.run_concat, ih, toggled, pausedAfter, pausedAfter, List.countP_append,
        List.countP_singleton]
      by_cases h : i.key = some 'p'
      · rw [if_pos h, if_pos (decide_eq_true h), ← decide_not]
        exact decide_eq_decide.mpr (by omega)
      · rw [if_neg h, if_neg (by simpa using h), Nat.add_zero]

/-- The pause after the iterations `inputs` is decided by their keys. -/
lemma paused_run (rawValue : ρ) (inputs : List (LoopInput ρ)) :
    (F.run rawValue inputs).paused = pausedAfter inputs := by
  rw [← run_toggled]
  refine Machine.run_rel (R := fun (s : State φ) paused => s.paused = paused) ?_ rfl
  rintro s paused rfl i -
  exact F.paused_loop s i

/-- A run prints no data line exactly when it is paused after the key of every iteration. -/
theorem no_data_iff (rawValue : ρ) (inputs : List (LoopInput ρ)) :
    (∀ r x, .data r x ∉ F.printed rawValue inputs)
      ↔ ∀ pre i post, inputs = pre ++ i :: post → pausedAfter (pre ++ [i]) = true := by
  have hlast : ∀ pre i, (F.loop (F.run rawValue pre) i).1.paused = pausedAfter (pre ++ [i]) := by
    intro pre i
    rw [← F.paused_run rawValue, run_concat]
  constructor
  · intro h pre i post hin
    rw [← hlast]
    by_contra hne
    obtain ⟨r, x, hp⟩ := (F.exists_data_mem_loop_iff _ i).mpr (Bool.not_eq_true _ ▸ hne)
    exact h r x ((F.mem_printed_iff _ _ _).mpr (Or.inr ⟨pre, i, post, hin, hp⟩))
  · intro h r x hp
    rcases (F.mem_printed_iff _ _ _).mp hp with heq | ⟨pre, i, post, hin, hp⟩
    · exact absurd heq (by simp)
    · have hfalse := (F.exists_data_mem_loop_iff _ i).mp ⟨r, x, hp⟩
      rw [hlast, h pre i post hin] at hfalse
      exact absurd hfalse (by decide)

end Shared

/-! ### The three sketches -/

section Sketches

variable {K : Type*} [Field K] [LinearOrder K] [IsStrictOrderedRing K] [FloorRing K]
  (B : BoardFloat K)

/-- The raw reading and the two-decimal smoothed value printed for a sensor, as floats. -/
def printedValues (A : FloatArith K) (rawValue : Adc) (smoothedValue : K) :
    ExtNum K × ExtNum K :=
  (.fin (rawValue : ℕ), A.round ((hundredths smoothedValue / 100 : ℚ) : K))

/-- `sketch_embodied_synth_rp2040.ino`, which prints `raw,smoothed`. -/
def rp2040 : Sketch Adc K where
  banner := "XIAO RP2040 Stretch Sensor Test"
  initial _ := 0
  smooth := Arduino.smooth B (floatLiteral B (8 / 100))
  dataLine rawValue smoothedValue := printInt rawValue ++ ",".toList ++ printFloat smoothedValue

/-- `sketch_embodied_synthesisers_esp32S3.ino`, which labels its fields. -/
def esp32S3 : Sketch Adc K where
  banner := "XIAO ESP32-S3 Stretch Sensor Test"
  initial _ := 0
  smooth := Arduino.smooth B (floatLiteral B (4 / 100))
  dataLine rawValue smoothedValue :=
    "RAW0: ".toList ++ printInt rawValue ++ ",".toList ++ "\tSMOOTH0: ".toList
      ++ printFloat smoothedValue

/-- `sketch_jul19a_embodied_synthesisers_esp32s3_2sensors.ino`, over its smoothing factor:
two sensors, whose filters start from their first readings. -/
def dual (smoothing : K) : Sketch (Adc × Adc) (K × K) where
  banner := "XIAO ESP32-S3 Dual Stretch Sensor Test"
  initial rawValue := ((rawValue.1 : ℕ), (rawValue.2 : ℕ))
  smooth s rawValue :=
    (Arduino.smooth B smoothing s.1 rawValue.1, Arduino.smooth B smoothing s.2 rawValue.2)
  dataLine rawValue s :=
    printInt rawValue.1 ++ ",".toList ++ printFloat s.1 ++ ",".toList
      ++ printInt rawValue.2 ++ ",".toList ++ printFloat s.2

/-- The dual sketch at its own smoothing factor. -/
def jul19a : Sketch (Adc × Adc) (K × K) := dual B (floatLiteral B (4 / 100))

/-- Every data line of the RP2040 sketch prints a value in range. -/
lemma rp2040_printed (rawValue : Adc) (inputs : List (LoopInput Adc)) :
    ∀ p ∈ (rp2040 B).printed rawValue inputs, (rp2040 B).Sound InRange p :=
  (rp2040 B).forall_printed (fun _ => inRange_zero)
    (fun _ r hs => smooth_literal_mem B (by norm_num) (by norm_num) hs r) rawValue inputs

/-- Every data line of the ESP32-S3 sketch prints a value in range. -/
lemma esp32S3_printed (rawValue : Adc) (inputs : List (LoopInput Adc)) :
    ∀ p ∈ (esp32S3 B).printed rawValue inputs, (esp32S3 B).Sound InRange p :=
  (esp32S3 B).forall_printed (fun _ => inRange_zero)
    (fun _ r hs => smooth_literal_mem B (by norm_num) (by norm_num) hs r) rawValue inputs

/-- Every data line of the dual sketch prints two values in range. -/
lemma jul19a_printed (rawValue : Adc × Adc) (inputs : List (LoopInput (Adc × Adc))) :
    ∀ p ∈ (jul19a B).printed rawValue inputs,
      (jul19a B).Sound (fun s => InRange s.1 ∧ InRange s.2) p :=
  (jul19a B).forall_printed (fun _ => ⟨inRange_adc _, inRange_adc _⟩)
    (fun _ r hs => ⟨smooth_literal_mem B (by norm_num) (by norm_num) hs.1 r.1,
      smooth_literal_mem B (by norm_num) (by norm_num) hs.2 r.2⟩) rawValue inputs

end Sketches

end Sketch

end EmbodiedSynth.Firmware
