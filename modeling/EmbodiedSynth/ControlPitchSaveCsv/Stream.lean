/-
The stream of the RP2040 sketch, read by the serial recorder from any offset.

The recorder attaches in the middle of the stream, so the first line it sees is the tail of
the line it fell into.  A tail without the comma is dropped.  A tail with the comma is taken:
its second field is whole, its first may have lost digits.

* `assigned`: the two values a line assigns; `assignments`: those of a text.  `run_lines`
  says that fed a list of lines the recorder keeps the last of these and changes nothing else.
* `dataLines`: the data lines of a run with the offsets they are printed at.
* `Decodes`: the recorder reads back what was printed, except for the raw reading of the first
  line where `lost` holds of it.
* `stream_decodes`: it does, where only the raw reading of a line entered past its start and
  no later than at its comma is lost.
-/
import EmbodiedSynth.ControlPitchSaveCsv.Sketch
import EmbodiedSynth.Firmware.SerialSketch
import EmbodiedSynth.Library.Lines

namespace EmbodiedSynth.ControlPitchSaveCsv

open Processing Arduino Lines Firmware

/-! ### What a line assigns -/

section Assigned

variable {K : Type*} [Field K] [LinearOrder K] (A : FloatArith K)

/-- The values a line assigns to `rawValue` and `smoothedValue`. -/
def assigned (incoming : List Char) : Option (ExtNum K × ExtNum K) :=
  (fields incoming).map fun values => (float A values.1, float A values.2)

/-- `serialEvent` assigns these values and does nothing else. -/
lemma serialEvent_eq (s : State K) (incoming : List Char) :
    serialEvent A s (some incoming) = ((assigned A incoming).map fun v =>
      { s with rawValue := v.1, smoothedValue := v.2 }).getD s := by
  rw [serialEvent, assigned]
  cases fields incoming with
  | none => rfl
  | some values => rfl

/-- Fed a list of lines, the recorder is left with the last values assigned. -/
theorem run_lines (s : State K) (lines : List (List Char)) :
    Machine.run (step A) s (lines.map fun line => .serialEvent (some line))
      = ((lines.filterMap (assigned A)).getLast?.map fun v =>
          { s with rawValue := v.1, smoothedValue := v.2 }).getD s := by
  induction lines using List.reverseRecOn with
  | nil => rfl
  | append_singleton lines line ih =>
      rw [List.map_append, Machine.run_append, ih, List.filterMap_append]
      show serialEvent A _ (some line) = _
      rw [serialEvent_eq]
      cases hline : assigned A line with
      | none => simp [hline]
      | some v =>
          rw [List.filterMap_cons_some hline, List.filterMap_nil, List.getLast?_concat]
          cases (lines.filterMap (assigned A)).getLast? <;> rfl

/-- The values assigned while a text is read, line by line. -/
def assignments (text : List Char) : List (ExtNum K × ExtNum K) :=
  (completeLines text).filterMap (assigned A)

lemma assigned_of_notMem {line : List Char} (h : ',' ∉ line) : assigned A line = none := by
  rw [assigned, fields_of_notMem h]
  rfl

end Assigned

/-- A line of two fields made of digits and points is taken as it is. -/
lemma fields_pair {value0 value1 : List Char} (h0 : ∀ c ∈ value0, c.isDigit = true)
    (h1 : ∀ c ∈ value1, c.isDigit = true ∨ c = '.') :
    fields (value0 ++ ',' :: value1 ++ crlf) = some (value0, value1) := by
  have hchar : ∀ c ∈ value0 ++ ',' :: value1, c.isDigit = true ∨ c = '.' ∨ c = ',' := by
    intro c hc
    rcases List.mem_append.mp hc with hc | hc
    · exact Or.inl (h0 c hc)
    · rcases List.mem_cons.mp hc with rfl | hc
      · exact Or.inr (Or.inr rfl)
      · exact (h1 c hc).imp_right Or.inl
  have hgraphic : ∀ c ∈ value0 ++ ',' :: value1, IsGraphic c := by
    intro c hc
    rcases hchar c hc with hc | rfl | rfl
    · exact isGraphic_of_isDigit hc
    · decide
    · decide
  have hcomma0 : ',' ∉ value0 := fun h => absurd (h0 _ h) (by decide)
  have hcomma1 : ',' ∉ value1 := fun h => absurd (h1 _ h) (by decide)
  have htrim : trim (value0 ++ ',' :: value1 ++ crlf) = value0 ++ ',' :: value1 :=
    trim_graphic_line hgraphic
  obtain ⟨c, cs, hcs⟩ := List.exists_cons_of_ne_nil
    (show value0 ++ ',' :: value1 ≠ [] by simp)
  have hhead : ∀ d : Char, d.isDigit = false ∧ d ≠ '.' ∧ d ≠ ',' → d ≠ c := by
    rintro d ⟨hdigit, hpoint, hcomma⟩ rfl
    rcases hchar d (by rw [hcs]; exact List.mem_cons_self) with h | h | h
    · exact absurd h (by simp [hdigit])
    · exact hpoint h
    · exact hcomma h
  have hxiao : startsWith (value0 ++ ',' :: value1) "XIAO" = false := by
    rw [hcs]
    exact startsWith_cons_eq_false (hhead 'X' (by decide)) rfl cs
  have heq : startsWith (value0 ++ ',' :: value1) "===" = false := by
    rw [hcs]
    exact startsWith_cons_eq_false (hhead '=' (by decide)) rfl cs
  rw [fields, htrim]
  simp [hxiao, heq, split_pair hcomma0 hcomma1]

/-! ### The printed data lines -/

section Stream

variable {K : Type*} [Field K] [LinearOrder K] [IsStrictOrderedRing K] [FloorRing K]
  (B : BoardFloat K) (A : FloatArith K)

/-- A data line and the offset it is printed at. -/
structure DataLine (K : Type*) where
  start : ℕ
  rawValue : Adc
  smoothedValue : K
  deriving DecidableEq

/-- The offset of the comma of a data line. -/
def DataLine.comma (l : DataLine K) : ℕ := l.start + (printInt l.rawValue).length

/-- The values printed on a data line. -/
def DataLine.values (l : DataLine K) : ExtNum K × ExtNum K :=
  Sketch.printedValues A l.rawValue l.smoothedValue

/-- The data lines among printed lines, the first of which starts at `start`. -/
def dataLines (start : ℕ) : List (Printed Adc K) → List (DataLine K)
  | [] => []
  | .status t :: ps =>
      dataLines (start + ((Sketch.rp2040 B).text (.status t)).length) ps
  | .data rawValue smoothedValue :: ps =>
      ⟨start, rawValue, smoothedValue⟩ ::
        dataLines (start + ((Sketch.rp2040 B).text (.data rawValue smoothedValue)).length) ps

/-- What was read, `vs`, is what the lines `ls` print, except for the raw reading of the first
line where `lost` holds of it. -/
def Agree (lost : DataLine K → Prop) (vs : List (ExtNum K × ExtNum K)) (ls : List (DataLine K)) :
    Prop :=
  vs.map Prod.snd = ls.map (fun l => (l.values A).2) ∧
    ∀ (i : ℕ) v l, vs[i]? = some v → ls[i]? = some l → v.1 = (l.values A).1 ∨ i = 0 ∧ lost l

/-- The run of the sketch on `inputs`, read by the recorder from the offset `k`: the data
lines whose comma lies at or after `k` are read back in order, except for the raw reading of
the first where `lost` holds of it. -/
def Decodes (lost : ℕ → DataLine K → Prop) (rawValue : Adc) (inputs : List (LoopInput Adc))
    (k : ℕ) : Prop :=
  Agree A (lost k) (assignments A (((Sketch.rp2040 B).stream rawValue inputs).drop k))
    ((dataLines B 0 ((Sketch.rp2040 B).printed rawValue inputs)).filter fun l => k ≤ l.comma)

/-! ### The tails of a printed line -/

/-- The text of a data line whose value is in range. -/
lemma text_data {rawValue : Adc} {smoothedValue : K} (h : InRange smoothedValue) :
    (Sketch.rp2040 B).text (.data rawValue smoothedValue)
      = printInt rawValue ++ ',' :: (fixed (hundredths smoothedValue) ++ crlf) := by
  have hprint : printFloat smoothedValue = fixed (hundredths smoothedValue) :=
    printFloat_eq h.1 (h.2.trans (by norm_num))
  show printInt rawValue ++ [','] ++ printFloat smoothedValue ++ crlf = _
  rw [hprint]
  simp

/-- The status lines have no comma and end in their only line feed. -/
lemma text_status {t : String} (h : (Sketch.rp2040 B).IsStatus t) :
    IsLine ((Sketch.rp2040 B).text (.status t)) ∧ ',' ∉ (Sketch.rp2040 B).text (.status t) := by
  have hline : ∀ u : List Char, (u ++ crlf) = (u ++ ['\r']) ++ ['\n'] := fun u => by simp [crlf]
  show IsLine (t.toList ++ crlf) ∧ ',' ∉ t.toList ++ crlf
  rcases h with rfl | rfl | rfl
  · show IsLine ("XIAO RP2040 Stretch Sensor Test".toList ++ crlf)
      ∧ ',' ∉ "XIAO RP2040 Stretch Sensor Test".toList ++ crlf
    exact ⟨hline _ ▸ isLine_append (by decide), by decide⟩
  · exact ⟨hline _ ▸ isLine_append (by decide), by decide⟩
  · exact ⟨hline _ ▸ isLine_append (by decide), by decide⟩

/-- Every printed line ends in its only line feed. -/
lemma isLine_text {p : Printed Adc K} (h : (Sketch.rp2040 B).Sound InRange p) :
    IsLine ((Sketch.rp2040 B).text p) := by
  cases p with
  | status t => exact (text_status B h).1
  | data rawValue smoothedValue =>
      have hline : printInt rawValue ++ ',' :: (fixed (hundredths smoothedValue) ++ crlf)
          = (printInt rawValue ++ ',' :: (fixed (hundredths smoothedValue) ++ ['\r']))
            ++ ['\n'] := by simp [crlf]
      rw [text_data B h, hline]
      refine isLine_append ?_
      simp only [List.mem_append, List.mem_cons, List.not_mem_nil, or_false, not_or]
      exact ⟨notMem_printInt (by decide) _, by decide,
        notMem_fixed (by decide) (by decide) _, by decide⟩

/-- No tail of a status line assigns anything. -/
lemma assigned_drop_status {t : String} (h : (Sketch.rp2040 B).IsStatus t) (k : ℕ) :
    assigned A (((Sketch.rp2040 B).text (.status t)).drop k) = none :=
  assigned_of_notMem A fun hmem => (text_status B h).2 (List.mem_of_mem_drop hmem)

/-- A tail that keeps the comma assigns the smoothed value whole, and what is left of the raw
reading. -/
lemma assigned_drop_data {rawValue : Adc} {smoothedValue : K} (h : InRange smoothedValue)
    {k : ℕ} (hk : k ≤ (printInt rawValue).length) :
    assigned A (((Sketch.rp2040 B).text (.data rawValue smoothedValue)).drop k)
      = some (float A ((printInt rawValue).drop k),
          A.round ((hundredths smoothedValue / 100 : ℚ) : K)) := by
  have hfields : fields ((printInt rawValue).drop k ++ ',' ::
      fixed (hundredths smoothedValue) ++ crlf)
        = some ((printInt rawValue).drop k, fixed (hundredths smoothedValue)) :=
    fields_pair (fun c hc => isDigit_of_mem_printInt (List.mem_of_mem_drop hc))
      fun c hc => isDigit_or_point_of_mem_fixed hc
  rw [text_data B h, List.drop_append_of_le_length hk, assigned]
  rw [List.append_assoc, List.cons_append] at hfields
  rw [hfields, Option.map_some, float_fixed]

/-- A tail from past the comma assigns nothing. -/
lemma assigned_drop_data_of_lt {rawValue : Adc} {smoothedValue : K} (h : InRange smoothedValue)
    {k : ℕ} (hk : (printInt rawValue).length < k) :
    assigned A (((Sketch.rp2040 B).text (.data rawValue smoothedValue)).drop k) = none := by
  refine assigned_of_notMem A fun hmem => ?_
  rw [text_data B h, List.drop_append, List.drop_of_length_le hk.le, List.nil_append] at hmem
  obtain ⟨d, hd⟩ : ∃ d, k - (printInt rawValue).length = d + 1 :=
    ⟨_, (Nat.succ_pred (by omega)).symm⟩
  rw [hd, List.drop_succ_cons] at hmem
  rcases List.mem_append.mp (List.mem_of_mem_drop hmem) with hmem | hmem
  · exact notMem_fixed (by decide) (by decide) _ hmem
  · exact absurd hmem (by decide)

omit [IsStrictOrderedRing K] [FloorRing K] in
/-- A printed raw reading is read back. -/
lemma float_printInt_adc (rawValue : Adc) :
    float A (printInt rawValue) = .fin ((rawValue : ℕ) : K) := by
  rw [float_printInt]
  have hle : |((rawValue : ℕ) : ℤ)| ≤ 2 ^ 24 := by
    rw [abs_of_nonneg (by positivity)]
    have := rawValue.isLt
    norm_num
    omega
  exact_mod_cast A.round_intCast _ hle

/-! ### Whole streams -/

/-- The data lines start at or after the first offset. -/
lemma le_start {start : ℕ} {ps : List (Printed Adc K)} {l : DataLine K}
    (h : l ∈ dataLines B start ps) : start ≤ l.start := by
  induction ps generalizing start with
  | nil => exact absurd h List.not_mem_nil
  | cons p ps ih =>
      cases p with
      | status t => exact (Nat.le_add_right _ _).trans (ih h)
      | data rawValue smoothedValue =>
          rcases List.mem_cons.mp h with rfl | h
          · exact le_rfl
          · exact (Nat.le_add_right _ _).trans (ih h)

/-- Whole lines are read back as they were printed. -/
lemma filterMap_text {ps : List (Printed Adc K)}
    (h : ∀ p ∈ ps, (Sketch.rp2040 B).Sound InRange p) (start : ℕ) :
    (ps.map (Sketch.rp2040 B).text).filterMap (assigned A)
      = (dataLines B start ps).map (DataLine.values A) := by
  induction ps generalizing start with
  | nil => rfl
  | cons p ps ih =>
      have hp := h p List.mem_cons_self
      have hps := fun q hq => h q (List.mem_cons_of_mem p hq)
      rw [List.map_cons]
      cases p with
      | status t =>
          have hnone := assigned_drop_status B A hp 0
          rw [List.drop_zero] at hnone
          rw [List.filterMap_cons_none hnone]
          exact ih hps _
      | data rawValue smoothedValue =>
          have hsome := assigned_drop_data B A hp (Nat.zero_le (printInt rawValue).length)
          rw [List.drop_zero, List.drop_zero, float_printInt_adc] at hsome
          rw [List.filterMap_cons_some hsome, ih hps]
          rfl

omit [IsStrictOrderedRing K] in
/-- The values of a list of lines, read off by index. -/
lemma eq_values {ls : List (DataLine K)} {i : ℕ} {v : ExtNum K × ExtNum K} {l : DataLine K}
    (hv : (ls.map (DataLine.values A))[i]? = some v) (hl : ls[i]? = some l) : v = l.values A := by
  rw [List.getElem?_map, hl, Option.map_some, Option.some.injEq] at hv
  exact hv.symm

omit [IsStrictOrderedRing K] in
/-- Two lists that agree entirely. -/
lemma agree_map (lost : DataLine K → Prop) (ls : List (DataLine K)) :
    Agree A lost (ls.map (DataLine.values A)) ls :=
  ⟨by simp, fun _ _ _ hv hl => Or.inl (congrArg Prod.fst (eq_values A hv hl))⟩

omit [IsStrictOrderedRing K] in
/-- Two lists that agree but for the first raw reading. -/
lemma agree_cons {lost : DataLine K → Prop} {l : DataLine K} (hl : lost l) (x : ExtNum K)
    (ls : List (DataLine K)) :
    Agree A lost ((x, (l.values A).2) :: ls.map (DataLine.values A)) (l :: ls) := by
  refine ⟨by simp, fun i v m hv hm => ?_⟩
  cases i with
  | zero =>
      obtain rfl : l = m := by simpa using hm
      exact Or.inr ⟨rfl, hl⟩
  | succ i => exact Or.inl (congrArg Prod.fst (eq_values A hv hm))

/-- The data lines after the offset `k` are all of those that start there. -/
lemma filter_dataLines {start k : ℕ} (hk : k ≤ start) (ps : List (Printed Adc K)) :
    (dataLines B start ps).filter (fun l => k ≤ l.comma) = dataLines B start ps :=
  List.filter_eq_self.mpr fun _ hl => decide_eq_true <|
    (hk.trans (le_start B hl)).trans (Nat.le_add_right _ _)

/-- The raw reading of a line entered past its start and no later than at its comma. -/
def Entered (k : ℕ) (l : DataLine K) : Prop := l.start < k ∧ k ≤ l.comma

/-- The offset falls into the first line, and the later ones are whole. -/
lemma agree_drop {p : Printed Adc K} (hp : (Sketch.rp2040 B).Sound InRange p)
    {ps : List (Printed Adc K)} (hps : ∀ q ∈ ps, (Sketch.rp2040 B).Sound InRange q)
    (start : ℕ) {k : ℕ} (hk : k < ((Sketch.rp2040 B).text p).length) :
    Agree A (Entered (start + k))
      ((((Sketch.rp2040 B).text p).drop k :: ps.map (Sketch.rp2040 B).text).filterMap (assigned A))
      ((dataLines B start (p :: ps)).filter fun l => start + k ≤ l.comma) := by
  have hrest := filterMap_text B A hps (start + ((Sketch.rp2040 B).text p).length)
  have hlater := filter_dataLines B
    (show start + k ≤ start + ((Sketch.rp2040 B).text p).length by omega) ps
  cases p with
  | status t =>
      rw [List.filterMap_cons_none (assigned_drop_status B A hp k), hrest, dataLines, hlater]
      exact agree_map A _ _
  | data rawValue smoothedValue =>
      rw [dataLines]
      rcases le_or_gt k (printInt rawValue).length with hcomma | hcomma
      · -- the comma survives, so the line is taken
        rw [List.filterMap_cons_some (assigned_drop_data B A hp hcomma), hrest,
          List.filter_cons_of_pos (by simpa [DataLine.comma] using hcomma), hlater]
        rcases Nat.eq_zero_or_pos k with rfl | hpos
        · rw [List.drop_zero, float_printInt_adc]
          exact agree_map A _ (⟨start, rawValue, smoothedValue⟩ :: _)
        · have hentered : Entered (start + k) (⟨start, rawValue, smoothedValue⟩ : DataLine K) :=
            ⟨Nat.lt_add_of_pos_right hpos, Nat.add_le_add_left hcomma start⟩
          exact agree_cons A hentered _ _
      · rw [List.filterMap_cons_none (assigned_drop_data_of_lt B A hp hcomma), hrest,
          List.filter_cons_of_neg (by simpa [DataLine.comma] using hcomma), hlater]
        exact agree_map A _ _

/-- A line that lies before the offset is left out on both sides. -/
lemma filter_dataLines_cons {p : Printed Adc K} (hp : (Sketch.rp2040 B).Sound InRange p)
    (ps : List (Printed Adc K)) (start : ℕ) {k : ℕ}
    (hk : ((Sketch.rp2040 B).text p).length ≤ k) :
    (dataLines B start (p :: ps)).filter (fun l => start + k ≤ l.comma)
      = (dataLines B (start + ((Sketch.rp2040 B).text p).length) ps).filter
          fun l => start + k ≤ l.comma := by
  cases p with
  | status t => rfl
  | data rawValue smoothedValue =>
      have hcomma : ¬ start + k ≤ start + (printInt rawValue).length := by
        rw [text_data B hp] at hk
        simp only [List.length_append, List.length_cons] at hk
        omega
      rw [dataLines, List.filter_cons_of_neg (by simpa [DataLine.comma] using hcomma)]

/-- The lines of a stream that starts at `start`, with their first `k` characters gone. -/
lemma agree_cutLines {ps : List (Printed Adc K)}
    (h : ∀ p ∈ ps, (Sketch.rp2040 B).Sound InRange p) (start k : ℕ) :
    Agree A (Entered (start + k))
      ((cutLines k (ps.map (Sketch.rp2040 B).text)).filterMap (assigned A))
      ((dataLines B start ps).filter fun l => start + k ≤ l.comma) := by
  induction ps generalizing start k with
  | nil => exact agree_map A _ []
  | cons p ps ih =>
      have hp := h p List.mem_cons_self
      have hps := fun q hq => h q (List.mem_cons_of_mem p hq)
      rw [List.map_cons]
      rcases lt_or_ge k ((Sketch.rp2040 B).text p).length with hk | hk
      · rw [cutLines_of_lt hk]
        exact agree_drop B A hp hps start hk
      · have hoffset : start + ((Sketch.rp2040 B).text p).length
            + (k - ((Sketch.rp2040 B).text p).length) = start + k := by omega
        have hnext := ih hps (start + ((Sketch.rp2040 B).text p).length)
          (k - ((Sketch.rp2040 B).text p).length)
        rw [hoffset] at hnext
        rw [cutLines_of_le hk, filter_dataLines_cons B hp ps start hk]
        exact hnext

/-- **The stream decodes from any offset**: the recorder assigns the smoothed values printed on
the data lines whose comma lies at or after the offset, in order, and with each of them its
raw reading, except that of a first line entered past its start and no later than at its
comma. -/
theorem stream_decodes (rawValue : Adc) (inputs : List (LoopInput Adc)) (k : ℕ) :
    Decodes B A Entered rawValue inputs k := by
  have hsound := Sketch.rp2040_printed B rawValue inputs
  have hlines : ∀ l ∈ ((Sketch.rp2040 B).printed rawValue inputs).map (Sketch.rp2040 B).text,
      IsLine l := by
    intro l hl
    obtain ⟨p, hp, rfl⟩ := List.mem_map.mp hl
    exact isLine_text B (hsound p hp)
  have hagree := agree_cutLines B A hsound 0 k
  rw [Nat.zero_add] at hagree
  rw [Decodes, assignments, Sketch.stream, List.flatMap_def, completeLines_drop hlines]
  exact hagree

end Stream

/-- A run of one iteration, read from the second digit of its raw reading. -/
theorem stream_decodes_inside :
    Decodes BoardFloat.exact FloatArith.exactRat Entered 0 [⟨none, 2600⟩] 34 :=
  stream_decodes _ _ _ _ _

/-- The offset lies in the raw field of a line. -/
def InRawField {K : Type*} (k : ℕ) (l : DataLine K) : Prop := l.start ≤ k ∧ k < l.comma

/-- A run of one iteration, read from the comma of its data line: the raw field is empty and
NaN is assigned, although the offset lies in no raw field. -/
theorem comma_entered_loses_raw :
    ¬ Decodes BoardFloat.exact FloatArith.exactRat InRawField 0 [⟨none, 2600⟩] 37 := by
  rintro ⟨-, h⟩
  have hread : (assignments FloatArith.exactRat
      (((Sketch.rp2040 (BoardFloat.exact : BoardFloat ℚ)).stream 0 [⟨none, 2600⟩]).drop 37))[0]?
        = some (.nan, .fin 208) := by decide +kernel
  rcases h 0 _ ⟨33, 2600, 208⟩ hread (by decide +kernel) with hnan | ⟨-, -, hlt⟩
  · exact absurd hnan (by decide +kernel)
  · exact absurd hlt (by decide)

end EmbodiedSynth.ControlPitchSaveCsv
