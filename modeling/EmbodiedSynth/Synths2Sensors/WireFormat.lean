/-
The lines of the two ESP32-S3 sketches at the calibrating receiver.

The single-sensor sketch labels its fields, and the receiver reads a label as NaN and stores
it.  The dual sketch prints four fields, and the receiver drops them.  Only the status lines
do what they should: nothing.

* `Faithful`: what is asked of one line, `Agrees` of the lines of a run.
* `labelledLine`: a data line of the single-sensor sketch.
* `reading_esp32S3`, `reading_jul19a`: what the receiver makes of a data line.
* `wireFormat_agrees_iff`: the receiver agrees with a sketch exactly on the runs that print no
  data line, those that are paused after the key of every iteration.
-/
import EmbodiedSynth.Synths2Sensors.Malformed
import EmbodiedSynth.Firmware.SerialSketch

namespace EmbodiedSynth.Synths2Sensors

open Processing Arduino Firmware

/-! ### Agreement -/

section Agreement

variable {K : Type*} [Field K] [LinearOrder K] (A : FloatArith K) {ρ φ : Type*}
  (F : Sketch ρ φ) (values : ρ → φ → List (ExtNum K × ExtNum K))

/-- The receiver fed a printed line. -/
def feed (s : State K) (p : Printed ρ φ) : State K := serialEvent A s (some (F.text p))

/-- A status line changes nothing; a data line is accepted and leaves a raw reading with its
smoothed value, both as printed. -/
def Faithful (s : State K) : Printed ρ φ → Prop
  | .status t => feed A F s (.status t) = s
  | .data rawValue smoothedValue =>
      reading A (F.text (.data rawValue smoothedValue)) ≠ none
        ∧ ((feed A F s (.data rawValue smoothedValue)).rawValue,
          (feed A F s (.data rawValue smoothedValue)).smoothedValue) ∈ values rawValue smoothedValue

/-- Every line of a run is faithful in the state the lines before it have led to. -/
def Agrees (s : State K) (ps : List (Printed ρ φ)) : Prop :=
  ∀ pre p post, ps = pre ++ p :: post → Faithful A F values (Machine.run (feed A F) s pre) p

/-- Where status lines are dropped and no data line is faithful, agreement holds on the runs
without data lines. -/
lemma agrees_iff {P : φ → Prop} {ps : List (Printed ρ φ)} (hps : ∀ p ∈ ps, F.Sound P p)
    (hstatus : ∀ t, F.IsStatus t → reading A (F.text (.status t)) = none)
    (hdata : ∀ s r x, P x → ¬ Faithful A F values s (.data r x)) (s : State K) :
    Agrees A F values s ps ↔ ∀ r x, .data r x ∉ ps := by
  constructor
  · intro h r x hp
    obtain ⟨pre, post, rfl⟩ := List.append_of_mem hp
    exact hdata _ r x (hps _ hp) (h pre _ post rfl)
  · rintro h pre p post rfl
    have hmem : p ∈ pre ++ p :: post := by simp
    cases p with
    | status t =>
        show serialEvent A _ (some (F.text (.status t))) = _
        rw [serialEvent, hstatus t (hps _ hmem)]
    | data r x => exact absurd hmem (h r x)

end Agreement

/-! ### The status lines -/

section Status

variable {K : Type*} [Field K] [LinearOrder K] (A : FloatArith K)

/-- A line that starts as the banner or as a status line is dropped. -/
lemma reading_of_startsWith {t : String} (htrim : trim (t.toList ++ crlf) = t.toList)
    (hstart : startsWith t.toList "XIAO" = true ∨ startsWith t.toList "===" = true) :
    reading A (t.toList ++ crlf) = none := by
  rw [reading_eq_none_iff, Rejected, htrim]
  exact Or.inr (hstart.imp_right Or.inl)

/-- A sketch whose banner is dropped prints status lines that are dropped. -/
lemma reading_status {ρ φ : Type*} {F : Sketch ρ φ}
    (hbanner : reading A (F.banner.toList ++ crlf) = none) {t : String} (h : F.IsStatus t) :
    reading A (F.text (.status t)) = none := by
  rcases h with rfl | rfl | rfl
  · exact hbanner
  · exact reading_of_startsWith A (by decide +kernel) (Or.inr rfl)
  · exact reading_of_startsWith A (by decide +kernel) (Or.inr rfl)

end Status

/-! ### The data lines -/

/-- The single-sensor data line, without its end, that prints the reading `r` and `n`
hundredths. -/
def labelledLine (r n : ℕ) : List Char :=
  "RAW0: ".toList ++ printInt r ++ ',' :: ("\tSMOOTH0: ".toList ++ fixed n)

lemma plainSpace_of_mem_labelledLine {r n : ℕ} {c : Char} (hc : c ∈ labelledLine r n) :
    plainSpace c = c := by
  have hlabel0 : "RAW0: ".toList.all (fun c => plainSpace c = c) = true := by decide
  have hlabel1 : "\tSMOOTH0: ".toList.all (fun c => plainSpace c = c) = true := by decide
  have hmem : c ∈ "RAW0: ".toList ++ printInt r ++ ',' :: ("\tSMOOTH0: ".toList ++ fixed n) := hc
  simp only [List.mem_append, List.mem_cons] at hmem
  rcases hmem with (hc | hc) | rfl | hc | hc
  · exact of_decide_eq_true (List.all_eq_true.mp hlabel0 c hc)
  · exact (isGraphic_of_mem_printInt hc).1
  · decide
  · exact of_decide_eq_true (List.all_eq_true.mp hlabel1 c hc)
  · exact (isGraphic_of_mem_fixed hc).1

/-- The line starts with a letter and ends in a digit, so trimming takes its end only. -/
lemma trim_labelledLine (r n : ℕ) : trim (labelledLine r n ++ crlf) = labelledLine r n := by
  refine trim_line (fun c hc => plainSpace_of_mem_labelledLine hc) ?_ ?_
  · intro c hc
    obtain rfl : 'R' = c := Option.some.inj hc
    decide
  · intro c hc
    have hlast : (labelledLine r n).getLast? = (fixed n).getLast? := by
      show ("RAW0: ".toList ++ printInt r ++ ',' :: ("\tSMOOTH0: ".toList ++ fixed n)).getLast? = _
      rw [← List.cons_append, ← List.append_assoc,
        List.getLast?_append_of_ne_nil _ (fixed_ne_nil n)]
    rw [hlast] at hc
    exact isBlank_of_isDigit (isDigit_of_mem_getLast_fixed hc)

lemma split_labelledLine (r n : ℕ) : split (labelledLine r n) ','
    = ["RAW0: ".toList ++ printInt r, "\tSMOOTH0: ".toList ++ fixed n] := by
  refine split_pair ?_ ?_
  · rw [List.mem_append, not_or]
    exact ⟨by decide, notMem_printInt (by decide) r⟩
  · rw [List.mem_append, not_or]
    exact ⟨by decide, notMem_fixed (by decide) (by decide) n⟩

/-- A field that starts with a capital letter off `N` and `I` is no number. -/
lemma float_trim_label {K : Type*} [Field K] [LinearOrder K] (A : FloatArith K) {c : Char}
    (hc : IsGraphic c) (hdigit : c.isDigit = false) (hname : c ∉ ['-', '+', '.', 'N', 'I'])
    (cs : List Char) : float A (trim (c :: cs)) = .nan := by
  obtain ⟨ds, hds⟩ := trim_cons hc.1 hc.2 cs
  rw [hds, float_cons_eq_nan A hc.2 hdigit hname]

/-- The receiver reads the labelled fields of the single-sensor sketch as NaN. -/
lemma reading_labelledLine {K : Type*} [Field K] [LinearOrder K] (A : FloatArith K) (r n : ℕ) :
    reading A (labelledLine r n ++ crlf) = some (.nan, .nan) := by
  have hraw : float A (trim ("RAW0: ".toList ++ printInt r)) = .nan :=
    float_trim_label A (by decide) (by decide) (by decide) _
  have hsmoothed : float A (trim ("\tSMOOTH0: ".toList ++ fixed n)) = .nan := by
    -- the tab that starts the field is trimmed first
    show float A (trim ('\t' :: 'S' :: ("MOOTH0: ".toList ++ fixed n))) = .nan
    rw [trim_cons_blank (by decide)]
    exact float_trim_label A (by decide) (by decide) (by decide) _
  have hne : labelledLine r n ≠ [] := List.cons_ne_nil 'R' _
  have hxiao : startsWith (labelledLine r n) "XIAO" = false :=
    startsWith_cons_eq_false (by decide) rfl _
  have heq : startsWith (labelledLine r n) "===" = false :=
    startsWith_cons_eq_false (by decide) rfl _
  rw [reading, trim_labelledLine]
  simp only [hxiao, heq, split_labelledLine, hraw, hsmoothed]
  simp [hne]

section DataLines

variable {K : Type*} [Field K] [LinearOrder K] [IsStrictOrderedRing K] [FloorRing K]
  (B : BoardFloat K) (A : FloatArith K)

/-- The data lines of the single-sensor sketch are taken, as NaN. -/
lemma reading_esp32S3 {rawValue : Adc} {smoothedValue : K} (h : InRange smoothedValue) :
    reading A ((Sketch.esp32S3 B).text (.data rawValue smoothedValue)) = some (.nan, .nan) := by
  have hprint : printFloat smoothedValue = fixed (hundredths smoothedValue) :=
    printFloat_eq h.1 (h.2.trans (by norm_num))
  have htext : (Sketch.esp32S3 B).text (.data rawValue smoothedValue)
      = labelledLine rawValue (hundredths smoothedValue) ++ crlf := by
    show "RAW0: ".toList ++ printInt rawValue ++ [','] ++ "\tSMOOTH0: ".toList
      ++ printFloat smoothedValue ++ crlf
        = ("RAW0: ".toList ++ printInt rawValue
            ++ ',' :: ("\tSMOOTH0: ".toList ++ fixed (hundredths smoothedValue))) ++ crlf
    rw [hprint]
    simp
  rw [htext, reading_labelledLine]

/-- The data lines of the dual sketch have four fields and are dropped. -/
lemma reading_jul19a {rawValue : Adc × Adc} {s : K × K} (h : InRange s.1 ∧ InRange s.2) :
    reading A ((Sketch.jul19a B).text (.data rawValue s)) = none := by
  have hprint : ∀ x : K, InRange x → printFloat x = fixed (hundredths x) :=
    fun x hx => printFloat_eq hx.1 (hx.2.trans (by norm_num))
  have htext : (Sketch.jul19a B).text (.data rawValue s)
      = (printInt rawValue.1 ++ ',' :: (fixed (hundredths s.1)
          ++ ',' :: (printInt rawValue.2 ++ ',' :: fixed (hundredths s.2)))) ++ crlf := by
    show printInt rawValue.1 ++ [','] ++ printFloat s.1 ++ [','] ++ printInt rawValue.2 ++ [',']
      ++ printFloat s.2 ++ crlf = _
    rw [hprint _ h.1, hprint _ h.2]
    simp
  have hgraphic : ∀ c ∈ printInt rawValue.1 ++ ',' :: (fixed (hundredths s.1)
      ++ ',' :: (printInt rawValue.2 ++ ',' :: fixed (hundredths s.2))), IsGraphic c := by
    intro c hc
    simp only [List.mem_append, List.mem_cons] at hc
    rcases hc with hc | rfl | hc | rfl | hc | rfl | hc
    · exact isGraphic_of_mem_printInt hc
    · decide
    · exact isGraphic_of_mem_fixed hc
    · decide
    · exact isGraphic_of_mem_printInt hc
    · decide
    · exact isGraphic_of_mem_fixed hc
  have hint : ∀ n, ',' ∉ printInt n := notMem_printInt (by decide)
  have hfixed : ∀ h, ',' ∉ fixed h := notMem_fixed (by decide) (by decide)
  rw [htext, reading_eq_none_iff, Rejected, crlf, trim_graphic_line hgraphic,
    split_append_cons (hint _), split_append_cons (hfixed _), split_pair (hint _) (hfixed _)]
  exact Or.inr (Or.inr (Or.inr (Or.inl (by simp))))

/-- The values printed on a line of the single-sensor sketch. -/
def values1 (rawValue : Adc) (smoothedValue : K) : List (ExtNum K × ExtNum K) :=
  [Sketch.printedValues A rawValue smoothedValue]

/-- The values printed on a line of the dual sketch, sensor by sensor. -/
def values2 (rawValue : Adc × Adc) (s : K × K) : List (ExtNum K × ExtNum K) :=
  [Sketch.printedValues A rawValue.1 s.1, Sketch.printedValues A rawValue.2 s.2]

/-- **The wire format**: fed the lines of a run from any state, the receiver agrees with
either sketch exactly when the run is paused after the key of every iteration, that is, when
it prints no data line. -/
theorem wireFormat_agrees_iff (s : State K) :
    (∀ rawValue inputs,
      Agrees A (Sketch.esp32S3 B) (values1 A) s ((Sketch.esp32S3 B).printed rawValue inputs)
        ↔ ∀ pre i post, inputs = pre ++ i :: post → Sketch.pausedAfter (pre ++ [i]) = true)
    ∧ ∀ rawValue inputs,
      Agrees A (Sketch.jul19a B) (values2 A) s ((Sketch.jul19a B).printed rawValue inputs)
        ↔ ∀ pre i post, inputs = pre ++ i :: post → Sketch.pausedAfter (pre ++ [i]) = true := by
  constructor
  · intro rawValue inputs
    rw [← Sketch.no_data_iff]
    refine agrees_iff A _ _ (Sketch.esp32S3_printed B rawValue inputs)
      (fun t => reading_status A ?_) (fun t r x hx hfaithful => ?_) s
    · exact reading_of_startsWith A (t := "XIAO ESP32-S3 Stretch Sensor Test")
        (by decide +kernel) (Or.inl rfl)
    · have hmem := hfaithful.2
      have hraw : (feed A (Sketch.esp32S3 B) t (.data r x)).rawValue = .nan := by
        rw [feed, serialEvent, reading_esp32S3 B A hx]
        exact (store_reading A t .nan .nan).1
      rw [hraw] at hmem
      exact absurd (congrArg Prod.fst (List.mem_singleton.mp hmem)) (by simp [Sketch.printedValues])
  · intro rawValue inputs
    rw [← Sketch.no_data_iff]
    refine agrees_iff A _ _ (Sketch.jul19a_printed B rawValue inputs)
      (fun t => reading_status A ?_) (fun t r x hx hfaithful => ?_) s
    · exact reading_of_startsWith A (t := "XIAO ESP32-S3 Dual Stretch Sensor Test")
        (by decide +kernel) (Or.inl rfl)
    · exact hfaithful.1 (reading_jul19a B A hx)

end DataLines

/-- A run paused from its first iteration on prints status lines only, and the receiver
agrees. -/
theorem wireFormat_agrees_paused :
    Agrees FloatArith.exactRat (Sketch.esp32S3 (BoardFloat.exact : BoardFloat ℚ))
      (values1 FloatArith.exactRat) (init FloatArith.exactRat)
      ((Sketch.esp32S3 BoardFloat.exact).printed 0 [⟨some 'p', 1800⟩]) :=
  ((wireFormat_agrees_iff _ _ _).1 0 _).mpr fun pre i post hin => by
    rcases pre with _ | ⟨j, pre⟩
    · obtain rfl := (List.cons.inj hin).1
      rfl
    · exact absurd (congrArg List.length hin) (by simp)

/-- One iteration of the single-sensor sketch, fed to the receiver at startup: the data line is
stored as NaN. -/
theorem wireFormat_disagrees :
    ¬ Agrees FloatArith.exactRat (Sketch.esp32S3 (BoardFloat.exact : BoardFloat ℚ))
      (values1 FloatArith.exactRat) (init FloatArith.exactRat)
      ((Sketch.esp32S3 BoardFloat.exact).printed 0 [⟨none, 1800⟩]) := by
  intro h
  have hfaithful := h [.status "XIAO ESP32-S3 Stretch Sensor Test"] (.data 1800 72) []
    (by decide +kernel)
  have hraw : (feed FloatArith.exactRat (Sketch.esp32S3 (BoardFloat.exact : BoardFloat ℚ))
      (Machine.run (feed FloatArith.exactRat (Sketch.esp32S3 (BoardFloat.exact : BoardFloat ℚ)))
        (init FloatArith.exactRat) [.status "XIAO ESP32-S3 Stretch Sensor Test"])
      (.data 1800 72)).rawValue = .nan := by decide +kernel
  have hmem := hfaithful.2
  rw [hraw] at hmem
  exact absurd (congrArg Prod.fst (List.mem_singleton.mp hmem)) (by decide)

end EmbodiedSynth.Synths2Sensors
