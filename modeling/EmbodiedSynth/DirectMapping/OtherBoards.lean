/-
The direct mappings, driven by the boards that print no pairs.

The single-sensor ESP32-S3 sketch labels its fields: a label is taken, and it is no number.  The
dual one prints four fields: a whole line is dropped.

* `fields_blank`: the two fields of a line that may start with blanks.
* `esp32S3_safe_iff`: with labels a run is safe exactly when no frame follows a data line.
* `jul19a_taken`: with four fields at most one line is ever taken, the one that the reader fell
  into.
-/
import EmbodiedSynth.DirectMapping.Driven
import EmbodiedSynth.Synths2Sensors.WireFormat

namespace EmbodiedSynth.DirectMapping

open Processing ExtNum FloatArith Arduino Lines Firmware ControlPitchSaveCsv

/-! ### Lines with a comma -/

/-- A line that starts with no blank has its two fields taken whole. -/
lemma fields_of_head {value0 value1 : List Char} (h0 : ',' ∉ value0) (h1 : ',' ∉ value1)
    (hX : 'X' ∉ value0) (heq : '=' ∉ value0)
    (hplain : ∀ c ∈ value0 ++ ',' :: value1, plainSpace c = c)
    (hhead : ∀ c ∈ value0.head?, isBlank c = false)
    (hlast : ∀ c ∈ (',' :: value1).getLast?, isBlank c = false) :
    ControlPitchSaveCsv.fields (value0 ++ ',' :: value1 ++ crlf) = some (value0, value1) := by
  have hne : value0 ++ ',' :: value1 ≠ [] := by simp
  have hfirst : ∀ c ∈ (value0 ++ ',' :: value1).head?, c ∈ value0.head? ∨ c = ',' := by
    intro c hc
    cases value0 with
    | nil => exact Or.inr (Option.some.inj hc).symm
    | cons d ds => exact Or.inl hc
  have htrim : trim (value0 ++ ',' :: value1 ++ crlf) = value0 ++ ',' :: value1 := by
    refine trim_line hplain (fun c hc => ?_) fun c hc => ?_
    · rcases hfirst c hc with hc | rfl
      · exact hhead c hc
      · decide
    · rw [List.getLast?_append_of_ne_nil _ (List.cons_ne_nil _ _)] at hc
      exact hlast c hc
  have hstart : ∀ d, d ≠ ',' → d ∉ value0 → ∀ head : String, ∀ ds, head.toList = d :: ds →
      startsWith (value0 ++ ',' :: value1) head = false := by
    intro d hcomma hd head ds hdef
    obtain ⟨c, cs, hcs⟩ := List.exists_cons_of_ne_nil hne
    rw [hcs]
    refine startsWith_cons_eq_false (fun hdc => ?_) hdef _
    rcases hfirst c (by rw [hcs]; rfl) with hc | hc
    · exact hd (hdc ▸ List.mem_of_mem_head? hc)
    · exact hcomma (hdc.trans hc)
  rw [ControlPitchSaveCsv.fields, htrim, hstart 'X' (by decide) hX "XIAO" _ rfl,
    hstart '=' (by decide) heq "===" _ rfl, split_pair h0 h1]
  simp

/-- Blanks before the first field leave the second whole. -/
lemma exists_fields {value0 value1 : List Char} (h0 : ',' ∉ value0) (h1 : ',' ∉ value1)
    (hX : 'X' ∉ value0) (heq : '=' ∉ value0)
    (hplain : ∀ c ∈ value0 ++ ',' :: value1, plainSpace c = c)
    (hlast : ∀ c ∈ (',' :: value1).getLast?, isBlank c = false) :
    ∃ value, ControlPitchSaveCsv.fields (value0 ++ ',' :: value1 ++ crlf)
      = some (value, value1) := by
  induction value0 with
  | nil =>
      exact ⟨_, fields_of_head h0 h1 hX heq hplain (fun c hc => by cases hc) hlast⟩
  | cons c cs ih =>
      cases hc : isBlank c with
      | true =>
          have hcplain : plainSpace c = c := hplain c List.mem_cons_self
          have htrim : trim (c :: cs ++ ',' :: value1 ++ crlf)
              = trim (cs ++ ',' :: value1 ++ crlf) := trim_cons_blank (hcplain.symm ▸ hc) _
          have hcons : ControlPitchSaveCsv.fields (c :: cs ++ ',' :: value1 ++ crlf)
              = ControlPitchSaveCsv.fields (cs ++ ',' :: value1 ++ crlf) := by
            rw [ControlPitchSaveCsv.fields, ControlPitchSaveCsv.fields, htrim]
          rw [hcons]
          exact ih (fun h => h0 (List.mem_cons_of_mem c h)) (fun h => hX (List.mem_cons_of_mem c h))
            (fun h => heq (List.mem_cons_of_mem c h))
            fun d hd => hplain d (List.mem_cons_of_mem c hd)
      | false =>
          refine ⟨_, fields_of_head h0 h1 hX heq hplain (fun d hd => ?_) hlast⟩
          obtain rfl : c = d := Option.some.inj hd
          exact hc

/-! ### Labelled fields -/

/-- A field that starts with a tab and a letter off the numbers is no number. -/
lemma not_denotesNumber_smooth (cs : List Char) :
    ¬ DenotesNumber ("\tSMOOTH0: ".toList ++ cs) := by
  rintro ⟨x, hx, -⟩
  have hblank : parseFloat ('\t' :: 'S' :: ("MOOTH0: ".toList ++ cs))
      = parseFloat ('S' :: ("MOOTH0: ".toList ++ cs)) := by
    rw [parseFloat, parseFloat, javaTrim, javaTrim, List.dropWhile_cons]
    rfl
  have hnone : parseFloat ("\tSMOOTH0: ".toList ++ cs) = none :=
    hblank.trans (parseFloat_cons_eq_none (by decide) (by decide) (by decide) _)
  rw [hnone] at hx
  cases hx

/-- A tail of a labelled line that keeps the comma is taken, and its second field is no
number. -/
lemma fields_drop_labelledLine (S : Sketch) (r n j : ℕ)
    (h : ',' ∈ (Synths2Sensors.labelledLine r n ++ crlf).drop j) :
    ∃ value0 value1, S.fields ((Synths2Sensors.labelledLine r n ++ crlf).drop j)
      = some (value0, value1) ∧ ¬ DenotesNumber value1 := by
  set label := "RAW0: ".toList ++ printInt r with hlabel
  set value1 := "\tSMOOTH0: ".toList ++ fixed n with hvalue1
  have hline : Synths2Sensors.labelledLine r n ++ crlf = label ++ (',' :: value1 ++ crlf) :=
    List.append_assoc _ _ _
  have hnot : ∀ c, c.isDigit = false → c ∉ "RAW0: ".toList → c ∉ label := by
    intro c hc hmem
    rw [hlabel, List.mem_append, not_or]
    exact ⟨hmem, notMem_printInt hc r⟩
  have hcomma : ',' ∉ value1 := by
    rw [hvalue1, List.mem_append, not_or]
    exact ⟨by decide, notMem_fixed (by decide) (by decide) n⟩
  rw [hline] at h ⊢
  rcases le_or_gt j label.length with hj | hj
  · have htail : ∀ c, c ∉ label → c ∉ label.drop j :=
      fun c hc hmem => hc (List.mem_of_mem_drop hmem)
    have hplain : ∀ c ∈ label.drop j ++ ',' :: value1, plainSpace c = c := by
      intro c hc
      refine Synths2Sensors.plainSpace_of_mem_labelledLine (r := r) (n := n) ?_
      rcases List.mem_append.mp hc with hc | hc
      · exact List.mem_append_left _ (List.mem_of_mem_drop hc)
      · exact List.mem_append_right _ hc
    have hlast : ∀ c ∈ (',' :: value1).getLast?, isBlank c = false := by
      intro c hc
      rw [hvalue1, ← List.cons_append, List.getLast?_append_of_ne_nil _ (fixed_ne_nil n)] at hc
      exact isBlank_of_isDigit (isDigit_of_mem_getLast_fixed hc)
    obtain ⟨value0, hfields⟩ := exists_fields (htail _ (hnot _ (by decide) (by decide))) hcomma
      (htail _ (hnot _ (by decide) (by decide))) (htail _ (hnot _ (by decide) (by decide)))
      hplain hlast
    rw [List.append_assoc, ← List.drop_append_of_le_length hj] at hfields
    exact ⟨value0, value1, S.fields_of_recorder hfields, not_denotesNumber_smooth _⟩
  · -- the comma is gone
    rw [List.drop_append, List.drop_of_length_le hj.le, List.nil_append] at h
    obtain ⟨d, hd⟩ := Nat.exists_eq_succ_of_ne_zero (Nat.sub_ne_zero_of_lt hj)
    rw [hd, List.cons_append, List.drop_succ_cons] at h
    rcases List.mem_append.mp (List.mem_of_mem_drop h) with hmem | hmem
    · exact absurd hmem hcomma
    · exact absurd hmem (by decide)

/-- Before a `draw` no line with a comma was received. -/
def NoDataAtDraw (pre : List Event) (e : Event) : Prop :=
  Sketch.isDraw e = true → ∀ line ∈ received pre, ',' ∉ line

section Labelled

variable {K : Type*} [Field K] [LinearOrder K] [IsStrictOrderedRing K] [FloorRing K]
  (B : BoardFloat K) {A : FloatArith K}

omit [FloorRing K] in
/-- Where each line with a comma is taken as no number, a run is safe exactly when no frame
follows one. -/
lemma safe_iff_noDataAtDraw (hA : A.Precise) (S : Sketch) {es : List Event}
    (hlines : ∀ line ∈ received es, ',' ∈ line → ∃ value0 value1,
      S.fields line = some (value0, value1) ∧ ¬ DenotesNumber value1) :
    (∀ s ∈ S.sound A es, S.Safe A s) ↔ Machine.EveryStep NoDataAtDraw es := by
  rw [S.sound_safe_iff A hA]
  have hpre : ∀ pre e post, es = pre ++ e :: post → ∀ line ∈ received pre,
      line ∈ received es := by
    rintro pre e post rfl line hline
    rw [received_append]
    exact List.mem_append_left _ hline
  constructor
  · intro h pre e post hes he line hline hcomma
    obtain ⟨value0, value1, hfields, -⟩ := hlines line (hpre pre e post hes line hline) hcomma
    -- some field was taken, and the last one is no number
    have hne : pre.filterMap S.secondField ≠ [] := by
      obtain ⟨d, hd, hdline⟩ := List.mem_filterMap.mp hline
      refine List.ne_nil_of_mem (List.mem_filterMap.mpr ⟨d, hd, (?_ : _ = some value1)⟩)
      cases d with
      | draw => cases hdline
      | serialEvent incoming =>
          obtain rfl : incoming = some line := hdline
          rw [Sketch.secondField, hfields]
          rfl
    have hfield : S.lastField pre = some _ := List.getLast?_eq_some_getLast hne
    obtain ⟨last, hlast, value0', hfields'⟩ := S.exists_line_of_lastField hfield
    have hlastComma : ',' ∈ last := by
      by_contra hnot
      rw [S.fields_of_notMem hnot] at hfields'
      cases hfields'
    obtain ⟨_, _, htaken, hnot⟩ := hlines last (hpre pre e post hes last hlast) hlastComma
    obtain ⟨rfl, rfl⟩ := Prod.mk.inj (Option.some.inj (hfields'.symm.trans htaken))
    exact hnot (h pre e post hes he _ hfield)
  · intro h pre e post hes he field hfield
    obtain ⟨line, hline, value0, hfields⟩ := S.exists_line_of_lastField hfield
    rw [S.fields_of_notMem (h pre e post hes he line hline)] at hfields
    cases hfields

/-- The lines received from a board are tails of those it printed. -/
lemma exists_drop_of_mem_received {ρ φ : Type*} {F : Firmware.Sketch ρ φ} {rawValue : ρ}
    {inputs : List (LoopInput ρ)} (hprinted : ∀ p ∈ F.printed rawValue inputs, IsLine (F.text p))
    {k : ℕ} {es : List Event}
    (hes : received es <+: completeLines ((F.stream rawValue inputs).drop k))
    {line : List Char} (hline : line ∈ received es) :
    ∃ p ∈ F.printed rawValue inputs, ∃ j, line = (F.text p).drop j := by
  have hlines : ∀ l ∈ (F.printed rawValue inputs).map F.text, IsLine l :=
    List.forall_mem_map.mpr hprinted
  have hcut := hes.subset hline
  rw [Firmware.Sketch.stream, List.flatMap_def, completeLines_drop hlines] at hcut
  obtain ⟨l, hl, j, rfl⟩ := exists_drop_of_mem_cutLines hcut
  obtain ⟨p, hp, rfl⟩ := List.mem_map.mp hl
  exact ⟨p, hp, j, rfl⟩

lemma text_esp32S3 {rawValue : Adc} {smoothedValue : K} (h : InRange smoothedValue) :
    (Firmware.Sketch.esp32S3 B).text (.data rawValue smoothedValue)
      = Synths2Sensors.labelledLine rawValue (hundredths smoothedValue) ++ crlf := by
  have hprint : printFloat smoothedValue = fixed (hundredths smoothedValue) :=
    printFloat_eq h.1 (h.2.trans (by norm_num))
  show "RAW0: ".toList ++ printInt rawValue ++ [','] ++ "\tSMOOTH0: ".toList
    ++ printFloat smoothedValue ++ crlf
      = ("RAW0: ".toList ++ printInt rawValue
          ++ ',' :: ("\tSMOOTH0: ".toList ++ fixed (hundredths smoothedValue))) ++ crlf
  rw [hprint]
  simp

lemma isLine_labelledLine (r n : ℕ) : IsLine (Synths2Sensors.labelledLine r n ++ crlf) := by
  have hline : Synths2Sensors.labelledLine r n ++ crlf
      = (Synths2Sensors.labelledLine r n ++ ['\r']) ++ ['\n'] := by simp [crlf]
  rw [hline]
  refine isLine_append ?_
  rw [List.mem_append, not_or]
  refine ⟨fun hmem => ?_, by decide⟩
  have hparts : '\n' ∈ "RAW0: ".toList ++ printInt r ++ ',' :: ("\tSMOOTH0: ".toList ++ fixed n) :=
    hmem
  simp only [List.mem_append, List.mem_cons] at hparts
  rcases hparts with (h | h) | h | h | h
  · exact absurd h (by decide)
  · exact notMem_printInt (by decide) r h
  · exact absurd h (by decide)
  · exact absurd h (by decide)
  · exact notMem_fixed (by decide) (by decide) n h

/-- **Driven by the labelled lines a run is safe** exactly when no frame follows a line with a
comma, from whichever offset the stream is read. -/
theorem esp32S3_safe_iff (hA : A.Precise) (S : Sketch) (rawValue : Adc)
    (inputs : List (LoopInput Adc)) {k : ℕ} {es : List Event} (hes : received es <+:
      completeLines (((Firmware.Sketch.esp32S3 B).stream rawValue inputs).drop k)) :
    (∀ s ∈ S.sound A es, S.Safe A s) ↔ Machine.EveryStep NoDataAtDraw es := by
  have hfeed : '\n' ∉ "XIAO ESP32-S3 Stretch Sensor Test".toList := by decide
  have hbanner : ',' ∉ "XIAO ESP32-S3 Stretch Sensor Test".toList := by decide
  have hsound := Firmware.Sketch.esp32S3_printed B rawValue inputs
  refine safe_iff_noDataAtDraw hA S fun line hline hcomma => ?_
  have hlines : ∀ p ∈ (Firmware.Sketch.esp32S3 B).printed rawValue inputs,
      IsLine ((Firmware.Sketch.esp32S3 B).text p) := by
    intro p hp
    cases p with
    | status t => exact (status_line hfeed hbanner (hsound _ hp)).1
    | data r x =>
        rw [text_esp32S3 B (hsound _ hp)]
        exact isLine_labelledLine _ _
  obtain ⟨p, hp, j, rfl⟩ := exists_drop_of_mem_received hlines hes hline
  cases p with
  | status t =>
      exact absurd (List.mem_of_mem_drop hcomma) (status_line hfeed hbanner (hsound _ hp)).2
  | data r x =>
      rw [text_esp32S3 B (hsound _ hp)] at hcomma ⊢
      exact fields_drop_labelledLine S _ _ j hcomma

/-- The harmonic sketch on a 32-bit float, with a frame after a labelled line. -/
theorem esp32S3_safe_iff_frame :
    (∀ s ∈ Sketch.harmonic.sound Rounding.float32
        [.serialEvent (some "RAW0: 1800,\tSMOOTH0: 72.00\r\n".toList), .draw],
      Sketch.harmonic.Safe Rounding.float32 s)
    ↔ Machine.EveryStep NoDataAtDraw
        [.serialEvent (some "RAW0: 1800,\tSMOOTH0: 72.00\r\n".toList), .draw] :=
  esp32S3_safe_iff (BoardFloat.exact : BoardFloat ℚ) (precise_toArith Rounding.binary32 ratPow)
    Sketch.harmonic 0
    [⟨none, 1800⟩] (k := 35) (by decide +kernel)

end Labelled

/-! ### Four fields -/

section FourFields

variable {K : Type*} [Field K] [LinearOrder K] [IsStrictOrderedRing K] [FloorRing K]
  (B : BoardFloat K) {A : FloatArith K}

/-- A whole line of the dual sketch has no comma or three. -/
lemma text_jul19a {p : Printed (Adc × Adc) (K × K)}
    (h : (Firmware.Sketch.jul19a B).Sound (fun s => InRange s.1 ∧ InRange s.2) p) :
    IsLine ((Firmware.Sketch.jul19a B).text p)
      ∧ ((Firmware.Sketch.jul19a B).text p).count ',' ≠ 1 := by
  have hfeed : '\n' ∉ "XIAO ESP32-S3 Dual Stretch Sensor Test".toList := by decide
  have hbanner : ',' ∉ "XIAO ESP32-S3 Dual Stretch Sensor Test".toList := by decide
  cases p with
  | status t =>
      obtain ⟨hline, hcomma⟩ := status_line hfeed hbanner h
      exact ⟨hline, List.count_eq_zero.mpr hcomma ▸ by decide⟩
  | data r x =>
      have hprint : ∀ y : K, InRange y → printFloat y = fixed (hundredths y) :=
        fun y hy => printFloat_eq hy.1 (hy.2.trans (by norm_num))
      have htext : (Firmware.Sketch.jul19a B).text (.data r x)
          = (printInt r.1 ++ ',' :: (fixed (hundredths x.1) ++ ',' :: (printInt r.2
              ++ ',' :: (fixed (hundredths x.2) ++ ['\r'])))) ++ ['\n'] := by
        show printInt r.1 ++ [','] ++ printFloat x.1 ++ [','] ++ printInt r.2 ++ [',']
          ++ printFloat x.2 ++ crlf = _
        rw [hprint _ h.1, hprint _ h.2]
        simp [crlf]
      have hint : ∀ c : Char, c.isDigit = false → ∀ n, c ∉ printInt n :=
        fun c hc n => notMem_printInt hc n
      have hfixed : ∀ c : Char, c.isDigit = false → c ≠ '.' → ∀ n, c ∉ fixed n :=
        fun c hc hpoint n => notMem_fixed hc hpoint n
      rw [htext]
      constructor
      · refine isLine_append ?_
        simp only [List.mem_append, List.mem_cons, List.not_mem_nil, or_false, not_or]
        exact ⟨hint _ (by decide) _, by decide, hfixed _ (by decide) (by decide) _, by decide,
          hint _ (by decide) _, by decide, hfixed _ (by decide) (by decide) _, by decide⟩
      · simp only [List.count_append, List.count_cons, List.count_nil,
          List.count_eq_zero.mpr (hint ',' (by decide) _),
          List.count_eq_zero.mpr (hfixed ',' (by decide) (by decide) _)]
        decide

/-- Where at most the first is taken, one is taken at most. -/
lemma length_filterMap_le_one {α β : Type*} {f : α → Option β} {l : List α}
    (h : ∀ x ∈ l.tail, f x = none) : (l.filterMap f).length ≤ 1 := by
  cases l with
  | nil => exact Nat.zero_le 1
  | cons first rest =>
      have hrest : rest.filterMap f = [] := List.filterMap_eq_nil_iff.mpr h
      cases hfirst : f first with
      | none =>
          rw [List.filterMap_cons_none hfirst, hrest]
          exact Nat.zero_le 1
      | some v =>
          rw [List.filterMap_cons_some hfirst, hrest]
          exact le_rfl

omit [IsStrictOrderedRing K] [FloorRing K] in
/-- Where no line is taken every frame shows the startup value. -/
lemma startup_of_not_taken (S : Sketch) {es : List Event}
    (h : ∀ line ∈ received es, S.fields line = none) {f : Frame K}
    (hf : f ∈ (S.run A es).frames) : f.smoothedValue = S.startup := by
  obtain ⟨pre, post, rfl, rfl⟩ := (S.mem_frames_iff A es f).mp hf
  rw [Sketch.smoothedValue_run]
  cases hfield : S.lastField pre with
  | none => rfl
  | some field =>
      obtain ⟨line, hline, value0, hfields⟩ := S.exists_line_of_lastField hfield
      have hmem : line ∈ received (pre ++ .draw :: post) := by
        rw [received_append]
        exact List.mem_append_left _ hline
      rw [h line hmem] at hfields
      cases hfields

/-- **Driven by the four fields** a sketch takes one line at most, and only the first, which it
fell into.  Where the stream is read from its start it takes none, and every frame shows the startup
value. -/
theorem jul19a_taken (S : Sketch) (rawValue : Adc × Adc) (inputs : List (LoopInput (Adc × Adc)))
    {k : ℕ} {es : List Event} (hes : received es <+:
      completeLines (((Firmware.Sketch.jul19a B).stream rawValue inputs).drop k)) :
    ((received es).filterMap S.fields).length ≤ 1
      ∧ (∀ line ∈ (received es).tail, S.fields line = none)
      ∧ (k = 0 → (∀ line ∈ received es, S.fields line = none)
        ∧ ∀ f ∈ (S.run A es).frames, f.smoothedValue = S.startup) := by
  have hsound : ∀ l ∈ ((Firmware.Sketch.jul19a B).printed rawValue inputs).map
      (Firmware.Sketch.jul19a B).text, IsLine l ∧ l.count ',' ≠ 1 :=
    List.forall_mem_map.mpr fun p hp =>
      text_jul19a B (Firmware.Sketch.jul19a_printed B rawValue inputs p hp)
  have hnone : ∀ l ∈ ((Firmware.Sketch.jul19a B).printed rawValue inputs).map
      (Firmware.Sketch.jul19a B).text, S.fields l = none := by
    intro l hl
    cases hfields : S.fields l with
    | none => rfl
    | some v => exact absurd (S.count_of_fields hfields) (hsound l hl).2
  rw [Firmware.Sketch.stream, List.flatMap_def,
    completeLines_drop fun l hl => (hsound l hl).1] at hes
  have htail : ∀ line ∈ (received es).tail, S.fields line = none := by
    intro line hline
    rw [← List.drop_one] at hline
    have hmem := (hes.drop 1).subset hline
    rw [List.drop_one] at hmem
    exact hnone line (mem_of_mem_tail_cutLines hmem)
  refine ⟨length_filterMap_le_one htail, htail, ?_⟩
  rintro rfl
  rw [cutLines_zero fun l hl => (hsound l hl).1] at hes
  have hall : ∀ line ∈ received es, S.fields line = none := fun line hline =>
    hnone line (hes.subset hline)
  exact ⟨hall, fun f hf => startup_of_not_taken S hall hf⟩

/-- The banner, a line of four fields, and a frame. -/
def fourFieldsFrame : List Event :=
  [.serialEvent (some "XIAO ESP32-S3 Dual Stretch Sensor Test\r\n".toList),
    .serialEvent (some "1800,1800.00,1900,1900.00\r\n".toList), .draw]

/-- The noise layer sketch on a 32-bit float. -/
theorem jul19a_taken_line :
    ((received fourFieldsFrame).filterMap Sketch.noiseLayer1.fields).length ≤ 1
      ∧ (∀ line ∈ (received fourFieldsFrame).tail, Sketch.noiseLayer1.fields line = none)
      ∧ (0 = 0 → (∀ line ∈ received fourFieldsFrame, Sketch.noiseLayer1.fields line = none)
        ∧ ∀ f ∈ (Sketch.noiseLayer1.run Rounding.float32 fourFieldsFrame).frames,
          f.smoothedValue = Sketch.noiseLayer1.startup) :=
  jul19a_taken (BoardFloat.exact : BoardFloat ℚ) Sketch.noiseLayer1 (1800, 1900)
    [⟨none, (1800, 1900)⟩] (k := 0) (by decide +kernel)

end FourFields

end EmbodiedSynth.DirectMapping
