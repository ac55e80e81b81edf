/-
The direct mappings, driven by the serial sketches of the boards.

* `received`: the lines a run received; `count_of_fields`: a line that is taken has one comma.
* `Pair`: a line with a reading and its smoothed value; `fields_drop`: its tails.
* `Board`: a board that prints pairs, and what it has printed.
* `driven_safe`: whatever such a board has sent, from whichever offset it is read and however
  frames fall between the lines, nothing unsafe is set, and every frame shows a printed value.
-/
import EmbodiedSynth.ControlPitchSaveCsv.Stream
import EmbodiedSynth.DirectMapping.Safety
import EmbodiedSynth.Firmware.SecondSensor

namespace EmbodiedSynth.DirectMapping

open Processing ExtNum FloatArith Arduino Lines Firmware

/-! ### Lines -/

/-- The lines that a run received. -/
def received (es : List Event) : List (List Char) :=
  es.filterMap fun
    | .serialEvent incoming => incoming
    | .draw => none

lemma received_append (es es' : List Event) :
    received (es ++ es') = received es ++ received es' :=
  List.filterMap_append

namespace Sketch

variable (S : Sketch)

/-- What the guards of the recorder let through, the others let through. -/
lemma fields_of_recorder {line : List Char} {v : List Char × List Char}
    (h : ControlPitchSaveCsv.fields line = some v) : S.fields line = some v := by
  cases S with
  | noiseLayer1 =>
      rw [ControlPitchSaveCsv.fields] at h
      split_ifs at h
      exact h
  | _ => exact h

/-- A line that is taken has one comma. -/
lemma count_of_fields {line : List Char} {v : List Char × List Char}
    (h : S.fields line = some v) : line.count ',' = 1 := by
  have hsplit : (split (trim line) ',').length = 2 := by
    rcases hvalues : split (trim line) ',' with _ | ⟨value0, _ | ⟨value1, _ | ⟨value2, values⟩⟩⟩
    case cons.cons.nil => rfl
    -- no other number of fields is taken
    all_goals cases S <;> simp [fields, noiseLayer1Fields, ControlPitchSaveCsv.fields, hvalues] at h
  have hspace : ∀ d : Char, plainSpace d = ',' ↔ d = ',' := by
    intro d
    rw [plainSpace]
    split_ifs with hd
    · rcases hd with rfl | rfl <;> decide
    · rfl
  rw [length_split, count_trim (by decide) hspace] at hsplit
  omega

lemma fields_of_notMem {line : List Char} (h : ',' ∉ line) : S.fields line = none := by
  cases hfields : S.fields line with
  | none => rfl
  | some v =>
      have hcount := S.count_of_fields hfields
      rw [List.count_eq_zero.mpr h] at hcount
      cases hcount

/-- The last field was in a line that was received. -/
lemma exists_line_of_lastField {es : List Event} {field : List Char}
    (h : S.lastField es = some field) :
    ∃ line ∈ received es, ∃ value0, S.fields line = some (value0, field) := by
  obtain ⟨e, he, hfield⟩ := List.mem_filterMap.mp (List.mem_of_getLast? h)
  cases e with
  | draw => cases hfield
  | serialEvent incoming =>
      cases incoming with
      | none => cases hfield
      | some line =>
          obtain ⟨⟨value0, value1⟩, hv, rfl⟩ := Option.map_eq_some_iff.mp hfield
          exact ⟨line, List.mem_filterMap.mpr ⟨_, he, rfl⟩, value0, hv⟩

end Sketch

/-! ### Boards that print pairs -/

section Pairs

variable {K : Type*} [Field K] [LinearOrder K] [IsStrictOrderedRing K] [FloorRing K]

/-- A line with a reading and its smoothed value. -/
def Pair (rawValue : Adc) (smoothedValue : K) (line : List Char) : Prop :=
  InRange smoothedValue
    ∧ line = printInt rawValue ++ ',' :: (fixed (hundredths smoothedValue) ++ crlf)

omit [IsStrictOrderedRing K] in
/-- The second field of a tail of such a line is the smoothed value. -/
lemma fields_drop (S : Sketch) {rawValue : Adc} {smoothedValue : K} {line : List Char}
    (h : Pair rawValue smoothedValue line) {j : ℕ} {value0 value1 : List Char}
    (hfields : S.fields (line.drop j) = some (value0, value1)) :
    value1 = fixed (hundredths smoothedValue) := by
  obtain ⟨-, rfl⟩ := h
  rcases le_or_gt j (printInt rawValue).length with hj | hj
  · have hpair : ControlPitchSaveCsv.fields ((printInt rawValue).drop j
        ++ ',' :: fixed (hundredths smoothedValue) ++ crlf)
          = some ((printInt rawValue).drop j, fixed (hundredths smoothedValue)) :=
      ControlPitchSaveCsv.fields_pair
        (fun c hc => isDigit_of_mem_printInt (List.mem_of_mem_drop hc))
        fun c hc => isDigit_or_point_of_mem_fixed hc
    have htaken := S.fields_of_recorder hpair
    rw [List.append_assoc, List.cons_append, ← List.drop_append_of_le_length hj] at htaken
    exact (Prod.mk.inj (Option.some.inj (hfields.symm.trans htaken))).2
  · -- the comma is gone
    have hnone : ',' ∉ (printInt rawValue
        ++ ',' :: (fixed (hundredths smoothedValue) ++ crlf)).drop j := by
      rw [List.drop_append, List.drop_of_length_le hj.le, List.nil_append]
      obtain ⟨d, hd⟩ := Nat.exists_eq_succ_of_ne_zero (Nat.sub_ne_zero_of_lt hj)
      rw [hd, List.drop_succ_cons]
      intro hmem
      rcases List.mem_append.mp (List.mem_of_mem_drop hmem) with hmem | hmem
      · exact notMem_fixed (by decide) (by decide) _ hmem
      · exact absurd hmem (by decide)
    rw [S.fields_of_notMem hnone] at hfields
    cases hfields

/-- The lines of a board: no pair, or a pair that it has printed. -/
def PrintsPairs (printed : Adc → K → Prop) (lines : List (List Char)) : Prop :=
  ∀ line ∈ lines, IsLine line
    ∧ (',' ∉ line ∨ ∃ rawValue smoothedValue, printed rawValue smoothedValue
        ∧ Pair rawValue smoothedValue line)

omit [IsStrictOrderedRing K] in
/-- The last field that was taken is a smoothed value that was printed. -/
lemma exists_printed_of_lastField (S : Sketch) {printed : Adc → K → Prop}
    {lines : List (List Char)} (hlines : PrintsPairs printed lines) {k : ℕ} {es : List Event}
    (hes : received es <+: completeLines (lines.flatten.drop k)) {field : List Char}
    (h : S.lastField es = some field) : ∃ rawValue smoothedValue, printed rawValue smoothedValue
      ∧ field = fixed (hundredths smoothedValue) := by
  obtain ⟨line, hline, value0, hfields⟩ := S.exists_line_of_lastField h
  have hcut := hes.subset hline
  rw [completeLines_drop fun l hl => (hlines l hl).1] at hcut
  obtain ⟨whole, hwhole, j, rfl⟩ := exists_drop_of_mem_cutLines hcut
  rcases (hlines whole hwhole).2 with hcomma | ⟨rawValue, smoothedValue, hprinted, hpair⟩
  · rw [S.fields_of_notMem fun hmem => hcomma (List.mem_of_mem_drop hmem)] at hfields
    cases hfields
  · exact ⟨rawValue, smoothedValue, hprinted, fields_drop S hpair hfields⟩

/-! ### The boards -/

variable (B : BoardFloat K)

/-- What a board sends in a run, and what it prints. -/
inductive Board : List Char → (Adc → K → Prop) → Prop where
  | rp2040 (rawValue : Adc) (inputs : List (LoopInput Adc)) :
      Board ((Firmware.Sketch.rp2040 B).stream rawValue inputs)
        fun r x => .data r x ∈ (Firmware.Sketch.rp2040 B).printed rawValue inputs
  | esp32c3Serial2Sensors (rawValue : Adc × Adc) (inputs : List (LoopInput (Adc × Adc))) :
      Board ((Firmware.Sketch.esp32c3Serial2Sensors B).stream rawValue inputs)
        fun r x => ∃ r₁ x₁,
          .data (r₁, r) (x₁, x) ∈ (Firmware.Sketch.esp32c3Serial2Sensors B).printed rawValue inputs

/-- The status lines are lines without a comma. -/
lemma status_line {ρ φ : Type*} {F : Firmware.Sketch ρ φ} (hfeed : '\n' ∉ F.banner.toList)
    (hcomma : ',' ∉ F.banner.toList) {t : String} (h : F.IsStatus t) :
    IsLine (F.text (.status t)) ∧ ',' ∉ F.text (.status t) := by
  have htext : ∀ u : String, '\n' ∉ u.toList → ',' ∉ u.toList →
      IsLine (u.toList ++ crlf) ∧ ',' ∉ u.toList ++ crlf := by
    intro u hu hu'
    have hline : u.toList ++ crlf = (u.toList ++ ['\r']) ++ ['\n'] := by simp [crlf]
    constructor
    · rw [hline]
      exact isLine_append (by simpa using hu)
    · rw [List.mem_append, not_or]
      exact ⟨hu', by decide⟩
  rcases h with rfl | rfl | rfl
  · exact htext _ hfeed hcomma
  · exact htext _ (by decide) (by decide)
  · exact htext _ (by decide) (by decide)

omit [IsStrictOrderedRing K] in
/-- A pair ends in its only line feed. -/
lemma Pair.isLine {rawValue : Adc} {smoothedValue : K} {line : List Char}
    (h : Pair rawValue smoothedValue line) : IsLine line := by
  obtain ⟨-, rfl⟩ := h
  have hline : printInt rawValue ++ ',' :: (fixed (hundredths smoothedValue) ++ crlf)
      = (printInt rawValue ++ ',' :: (fixed (hundredths smoothedValue) ++ ['\r']))
        ++ ['\n'] := by simp [crlf]
  rw [hline]
  refine isLine_append ?_
  simp only [List.mem_append, List.mem_cons, List.not_mem_nil, or_false, not_or]
  exact ⟨notMem_printInt (by decide) _, by decide,
    notMem_fixed (by decide) (by decide) _, by decide⟩

/-- The lines of the two-sensor sketch carry a value in range. -/
lemma esp32c3Serial2Sensors_printed (rawValue : Adc × Adc)
    (inputs : List (LoopInput (Adc × Adc))) :
    ∀ p ∈ (Firmware.Sketch.esp32c3Serial2Sensors B).printed rawValue inputs,
      (Firmware.Sketch.esp32c3Serial2Sensors B).Sound (fun s => InRange s.2) p :=
  (Firmware.Sketch.esp32c3Serial2Sensors B).forall_printed (fun _ => inRange_zero)
    (fun _ r hs => smooth_literal_mem B (by norm_num) (by norm_num) hs r.2) rawValue inputs

lemma Board.exists_lines {text : List Char} {printed : Adc → K → Prop}
    (h : Board B text printed) : ∃ lines, text = lines.flatten ∧ PrintsPairs printed lines := by
  cases h with
  | rp2040 rawValue inputs =>
      refine ⟨_, List.flatMap_def, fun line hline => ?_⟩
      obtain ⟨p, hp, rfl⟩ := List.mem_map.mp hline
      have hsound := Firmware.Sketch.rp2040_printed B rawValue inputs p hp
      cases p with
      | status t =>
          have hfeed : '\n' ∉ "XIAO RP2040 Stretch Sensor Test".toList := by decide
          have hbanner : ',' ∉ "XIAO RP2040 Stretch Sensor Test".toList := by decide
          obtain ⟨hline, hcomma⟩ := status_line hfeed hbanner hsound
          exact ⟨hline, Or.inl hcomma⟩
      | data r x =>
          have hpair : Pair r x ((Firmware.Sketch.rp2040 B).text (.data r x)) :=
            ⟨hsound, ControlPitchSaveCsv.text_data B hsound⟩
          exact ⟨hpair.isLine, Or.inr ⟨r, x, hp, hpair⟩⟩
  | esp32c3Serial2Sensors rawValue inputs =>
      refine ⟨_, List.flatMap_def, fun line hline => ?_⟩
      obtain ⟨p, hp, rfl⟩ := List.mem_map.mp hline
      have hsound := esp32c3Serial2Sensors_printed B rawValue inputs p hp
      cases p with
      | status t =>
          have hfeed : '\n' ∉ "XIAO ESP32C3 Dual Stretch Sensor Test".toList := by decide
          have hbanner : ',' ∉ "XIAO ESP32C3 Dual Stretch Sensor Test".toList := by decide
          obtain ⟨hline, hcomma⟩ := status_line hfeed hbanner hsound
          exact ⟨hline, Or.inl hcomma⟩
      | data r x =>
          have htext : (Firmware.Sketch.esp32c3Serial2Sensors B).text (.data r x)
              = (Firmware.Sketch.rp2040 B).text (.data r.2 x.2) := rfl
          have hpair : Pair r.2 x.2
              ((Firmware.Sketch.esp32c3Serial2Sensors B).text (.data r x)) :=
            ⟨hsound, htext.trans (ControlPitchSaveCsv.text_data B hsound)⟩
          exact ⟨hpair.isLine, Or.inr ⟨r.2, x.2, ⟨r.1, x.1, hp⟩, hpair⟩⟩

variable {B} {A : FloatArith K}

/-- **Driven by such a board a sketch sets nothing unsafe**, from whichever offset it reads and
however its frames fall between the lines, and every frame shows the startup value or one that
was printed. -/
theorem driven_safe (hA : A.Precise) (S : Sketch) {text : List Char} {printed : Adc → K → Prop}
    (hboard : Board B text printed) {k : ℕ} {es : List Event}
    (hes : received es <+: completeLines (text.drop k)) :
    (∀ s ∈ S.sound A es, S.Safe A s)
      ∧ ∀ f ∈ (S.run A es).frames, f.smoothedValue = S.startup
        ∨ ∃ rawValue smoothedValue, printed rawValue smoothedValue
          ∧ f.smoothedValue = A.round ((hundredths smoothedValue / 100 : ℚ) : K) := by
  obtain ⟨lines, rfl, hlines⟩ := hboard.exists_lines
  have hlast : ∀ pre e post, es = pre ++ e :: post → ∀ field, S.lastField pre = some field →
      ∃ rawValue smoothedValue, printed rawValue smoothedValue
        ∧ field = fixed (hundredths smoothedValue) := by
    rintro pre e post rfl field hfield
    refine exists_printed_of_lastField S hlines (List.IsPrefix.trans ?_ hes) hfield
    rw [received_append]
    exact List.prefix_append _ _
  constructor
  · refine (S.sound_safe_iff A hA es).mpr fun pre e post hpre _ field hfield => ?_
    obtain ⟨rawValue, smoothedValue, -, rfl⟩ := hlast pre e post hpre field hfield
    by_contra hnot
    have hnan := (ControlPitchSaveCsv.float_eq_nan_iff A _).mpr hnot
    rw [float_fixed] at hnan
    exact A.round_ne_nan _ hnan
  · intro f hf
    obtain ⟨pre, post, hpre, rfl⟩ := (S.mem_frames_iff A es f).mp hf
    rw [Sketch.smoothedValue_run]
    cases hfield : S.lastField pre with
    | none => exact Or.inl rfl
    | some field =>
        obtain ⟨rawValue, smoothedValue, hprinted, rfl⟩ := hlast pre .draw post hpre field hfield
        exact Or.inr ⟨rawValue, smoothedValue, hprinted, float_fixed A _⟩

end Pairs

/-- The control pitch sketch on a 32-bit float, attached inside the raw reading of the first data
line of the RP2040 sketch. -/
theorem driven_safe_inside :
    (∀ s ∈ Sketch.controlPitch.sound Rounding.float32
        [.draw, .serialEvent (some "00,144.00\r\n".toList), .draw],
      Sketch.controlPitch.Safe Rounding.float32 s)
    ∧ ∀ f ∈ (Sketch.controlPitch.run Rounding.float32
        [.draw, .serialEvent (some "00,144.00\r\n".toList), .draw]).frames,
      f.smoothedValue = Sketch.controlPitch.startup
        ∨ ∃ rawValue smoothedValue,
          .data rawValue smoothedValue
              ∈ (Firmware.Sketch.rp2040 (BoardFloat.exact : BoardFloat ℚ)).printed 0 [⟨none, 1800⟩]
            ∧ f.smoothedValue = Rounding.float32.round ((hundredths smoothedValue / 100 : ℚ) : ℚ) :=
  driven_safe (precise_toArith Rounding.binary32 ratPow) Sketch.controlPitch
    (Board.rp2040 0 [⟨none, 1800⟩]) (k := 35) (by decide +kernel)

end EmbodiedSynth.DirectMapping
