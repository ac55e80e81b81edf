/-
The functions of the Processing language the sketches call.

* `trim`, `split`, `startsWith`: text, as lists of characters.
* `float`: the number a text denotes.  It accepts what the `Float.parseFloat` of Java
  accepts (`parseFloat`), and gives NaN on every other text.
* `literal`: a float constant of a sketch.
* `map`, `constrain`, `min`, `max`: the affine map and the comparisons.
* `trim_line`, `split_append_cons`, `float_digits`, `float_point`, `float_cons_eq_nan`:
  what these do to a printed line and its fields.
-/
import EmbodiedSynth.Library.ExtNum
import EmbodiedSynth.Library.Numeral
import Mathlib.Data.List.DropRight

namespace Processing

open Numeral

/-! ### Text -/

/-- The characters the `trim` of Java removes: the space and every control character before
it. -/
def isBlank (c : Char) : Bool := c ≤ ' '

/-- The `trim` of a Java string. -/
def javaTrim (cs : List Char) : List Char := (cs.dropWhile isBlank).rdropWhile isBlank

/-- A no-break space counts as a space. -/
def plainSpace (c : Char) : Char := if c = '\u00A0' ∨ c = '\uFEFF' then ' ' else c

/-- `trim(str)`: the no-break spaces become spaces, then both ends are trimmed. -/
def trim (cs : List Char) : List Char := javaTrim (cs.map plainSpace)

/-- `split(str, delim)`: always one field more than there are delimiters. -/
def split (cs : List Char) (delim : Char) : List (List Char) := cs.splitOn delim

/-- `str.startsWith(head)`. -/
def startsWith (cs : List Char) (head : String) : Bool := head.toList.isPrefixOf cs

/-- Trimming keeps only characters of the text, and spaces put for no-break spaces. -/
lemma mem_of_mem_trim {cs : List Char} {c : Char} (h : c ∈ trim cs) : c ∈ cs ∨ c = ' ' := by
  have h1 : c ∈ (cs.map plainSpace).dropWhile isBlank :=
    (List.rdropWhile_prefix isBlank _).subset h
  have h2 : c ∈ cs.map plainSpace := (List.dropWhile_sublist isBlank).subset h1
  obtain ⟨d, hd, rfl⟩ := List.mem_map.mp h2
  rw [plainSpace]
  split_ifs
  · exact Or.inr rfl
  · exact Or.inl hd

/-- A text whose ends are not blank is its own trim. -/
lemma javaTrim_eq_self {w : List Char} (hhead : ∀ c ∈ w.head?, isBlank c = false)
    (hlast : ∀ c ∈ w.getLast?, isBlank c = false) : javaTrim w = w := by
  have hdrop : w.dropWhile isBlank = w := by
    cases w with
    | nil => rfl
    | cons c w => rw [List.dropWhile_cons, hhead c rfl]; simp
  rw [javaTrim, hdrop, List.rdropWhile_eq_self_iff]
  intro hne
  simp [hlast _ (List.getLast?_eq_some_getLast hne)]

/-- A text that starts with no blank keeps its first character. -/
lemma javaTrim_cons {c : Char} (hc : isBlank c = false) (cs : List Char) :
    ∃ ds, javaTrim (c :: cs) = c :: ds := by
  have hdrop : (c :: cs).dropWhile isBlank = c :: cs := by
    rw [List.dropWhile_cons, hc]; simp
  rw [javaTrim, hdrop]
  have hne : (c :: cs).rdropWhile isBlank ≠ [] := by
    rw [Ne, List.rdropWhile_eq_nil_iff]
    exact fun h => absurd (h c List.mem_cons_self) (by simp [hc])
  obtain ⟨d, ds, hds⟩ := List.exists_cons_of_ne_nil hne
  have hpre := List.rdropWhile_prefix isBlank (c :: cs)
  rw [hds] at hpre ⊢
  rw [(List.cons_prefix_cons.mp hpre).1]
  exact ⟨ds, rfl⟩

/-- A printed line loses its line end and nothing else. -/
lemma trim_line {w : List Char} (hplain : ∀ c ∈ w, plainSpace c = c)
    (hhead : ∀ c ∈ w.head?, isBlank c = false) (hlast : ∀ c ∈ w.getLast?, isBlank c = false) :
    trim (w ++ ['\r', '\n']) = w := by
  have hmap : (w ++ ['\r', '\n']).map plainSpace = w ++ ['\r', '\n'] := by
    rw [List.map_append, List.map_congr_left hplain, List.map_id']
    rfl
  cases w with
  | nil => decide
  | cons c w =>
      have hdrop : (c :: w ++ ['\r', '\n']).dropWhile isBlank = (c :: w ++ ['\r']) ++ ['\n'] := by
        rw [List.cons_append, List.dropWhile_cons, hhead c rfl]
        simp
      have hend : (c :: w).rdropWhile isBlank = c :: w := by
        rw [List.rdropWhile_eq_self_iff]
        intro hne
        simp [hlast _ (List.getLast?_eq_some_getLast hne)]
      rw [trim, hmap, javaTrim, hdrop, List.rdropWhile_concat_pos _ _ _ (by decide),
        List.rdropWhile_concat_pos _ _ _ (by decide), hend]

/-- A character that trimming leaves alone wherever it stands. -/
def IsGraphic (c : Char) : Prop := plainSpace c = c ∧ isBlank c = false

instance (c : Char) : Decidable (IsGraphic c) := inferInstanceAs (Decidable (_ ∧ _))

/-- A printed line without blanks loses its line end and nothing else. -/
lemma trim_graphic_line {w : List Char} (h : ∀ c ∈ w, IsGraphic c) :
    trim (w ++ ['\r', '\n']) = w :=
  trim_line (fun c hc => (h c hc).1) (fun c hc => (h c (List.mem_of_mem_head? hc)).2)
    fun c hc => (h c (List.mem_of_getLast? hc)).2

/-- A text whose first character differs does not start with the head. -/
lemma startsWith_cons_eq_false {c d : Char} (h : d ≠ c) {head : String} {ds : List Char}
    (hhead : head.toList = d :: ds) (cs : List Char) : startsWith (c :: cs) head = false := by
  rw [startsWith, hhead, List.isPrefixOf, beq_eq_false_iff_ne.mpr h, Bool.false_and]

/-- Trimming keeps a first character that is no blank. -/
lemma trim_cons {c : Char} (hplain : plainSpace c = c) (hblank : isBlank c = false)
    (cs : List Char) : ∃ ds, trim (c :: cs) = c :: ds := by
  rw [trim, List.map_cons, hplain]
  exact javaTrim_cons hblank _

/-- Trimming drops a first character that is a blank. -/
lemma trim_cons_blank {c : Char} (h : isBlank (plainSpace c) = true) (cs : List Char) :
    trim (c :: cs) = trim cs := by
  rw [trim, trim, javaTrim, javaTrim, List.map_cons, List.dropWhile_cons, h]
  rfl

/-- A text without the delimiter is a single field. -/
lemma split_of_notMem {cs : List Char} {delim : Char} (h : delim ∉ cs) :
    split cs delim = [cs] :=
  List.splitOn_eq_singleton h

/-- The first delimiter ends the first field. -/
lemma split_append_cons {cs : List Char} {delim : Char} (h : delim ∉ cs) (rest : List Char) :
    split (cs ++ delim :: rest) delim = cs :: split rest delim :=
  List.splitOn_append_cons_self_of_not_mem h rest

/-- Two fields. -/
lemma split_pair {value0 value1 : List Char} {delim : Char} (h0 : delim ∉ value0)
    (h1 : delim ∉ value1) : split (value0 ++ delim :: value1) delim = [value0, value1] := by
  rw [split_append_cons h0, split_of_notMem h1]

/-- There is one field more than there are delimiters. -/
lemma length_split (cs : List Char) (delim : Char) :
    (split cs delim).length = cs.count delim + 1 := by
  induction cs with
  | nil => rfl
  | cons c cs ih =>
      rw [split, List.splitOn] at ih ⊢
      rw [List.splitOnP_cons_eq_if_modifyHead, List.count_cons]
      split_ifs with h
      · rw [List.length_cons, ih]
      · rw [List.length_modifyHead, ih]

/-- Trimming takes blanks only. -/
lemma count_javaTrim {c : Char} (hc : isBlank c = false) (cs : List Char) :
    (javaTrim cs).count c = cs.count c := by
  have hdrop : ∀ ds : List Char, (ds.dropWhile isBlank).count c = ds.count c := by
    intro ds
    have hblank : c ∉ ds.takeWhile isBlank := fun hmem =>
      absurd (List.mem_takeWhile_imp hmem) (by simp [hc])
    conv_rhs => rw [← List.takeWhile_append_dropWhile (p := isBlank) (l := ds)]
    rw [List.count_append, List.count_eq_zero.mpr hblank, zero_add]
  rw [javaTrim, List.rdropWhile, List.count_reverse, hdrop, List.count_reverse, hdrop]

lemma count_trim {c : Char} (hc : isBlank c = false) (hspace : ∀ d, plainSpace d = c ↔ d = c)
    (cs : List Char) : (trim cs).count c = cs.count c := by
  rw [trim, count_javaTrim hc]
  induction cs with
  | nil => rfl
  | cons d cs ih => simp [List.count_cons, ih, hspace]

/-! ### Numbers from text -/

/-- The type suffix a Java float literal may end in. -/
def isTypeSuffix : List Char → Bool
  | [] => true
  | [c] => c = 'f' || c = 'F' || c = 'd' || c = 'D'
  | _ => false

/-- An unsigned numeral of Java, up to what it leaves unread. -/
def readNumeral : List Char → Option (ℚ × List Char)
  | '0' :: x :: rest =>
      if x = 'x' ∨ x = 'X' then hexadecimal rest else decimal ('0' :: x :: rest)
  | cs => decimal cs

/-- An unsigned numeral of Java, read to the end of the text. -/
def readUnsigned (cs : List Char) : Option ℚ :=
  match readNumeral cs with
  | some (q, rest) => if isTypeSuffix rest then some q else none
  | none => none

/-- `Float.parseFloat`, before rounding: `none` where it throws. -/
def parseFloat (cs : List Char) : Option (ExtNum ℚ) :=
  let (neg, body) := readSign (javaTrim cs)
  if body = "NaN".toList then some .nan
  else if body = "Infinity".toList then some (if neg then .negInf else .posInf)
  else (readUnsigned body).map fun q => .fin (if neg then -q else q)

/-- Off the hexadecimal prefix a numeral is decimal. -/
lemma readNumeral_of_notMem {cs : List Char} (hx : 'x' ∉ cs) (hX : 'X' ∉ cs) :
    readNumeral cs = decimal cs := by
  rw [readNumeral.eq_def]
  split
  · next x rest =>
      have h : ¬ (x = 'x' ∨ x = 'X') := by
        rintro (rfl | rfl)
        · exact hx (by simp)
        · exact hX (by simp)
      rw [if_neg h]
  · rfl

/-- No digit is blank. -/
lemma isBlank_of_isDigit {c : Char} (hc : c.isDigit = true) : isBlank c = false := by
  simp only [Char.isDigit, Bool.and_eq_true, decide_eq_true_eq] at hc
  refine decide_eq_false fun hle => ?_
  have h : (48 : UInt32) ≤ 32 := UInt32.le_trans hc.1 hle
  exact absurd h (by decide)

lemma isGraphic_of_isDigit {c : Char} (hc : c.isDigit = true) : IsGraphic c := by
  have hne : ∀ d, d.isDigit = false → c ≠ d := fun d hd h => by simp [← h, hc] at hd
  refine ⟨?_, isBlank_of_isDigit hc⟩
  rw [plainSpace, if_neg (not_or.mpr ⟨hne _ (by decide), hne _ (by decide)⟩)]

/-- A text whose first character is a digit carries neither a sign nor a name. -/
lemma parseFloat_of_isDigit {c : Char} {cs : List Char} (hc : c.isDigit = true)
    (hlast : ∀ d ∈ (c :: cs).getLast?, isBlank d = false) :
    parseFloat (c :: cs) = (readUnsigned (c :: cs)).map .fin := by
  have hblank := isBlank_of_isDigit hc
  have hne : ∀ d, d.isDigit = false → c ≠ d := fun d hd h => by simp [← h, hc] at hd
  rw [parseFloat, javaTrim_eq_self (by simpa using hblank) hlast,
    readSign_cons (hne _ (by decide)) (hne _ (by decide))]
  have hN : c :: cs ≠ "NaN".toList := fun h => hne 'N' (by decide) (List.cons.inj h).1
  have hI : c :: cs ≠ "Infinity".toList := fun h => hne 'I' (by decide) (List.cons.inj h).1
  simp only [if_neg hN, if_neg hI]
  rfl

/-- No digit is a letter of a hexadecimal prefix. -/
lemma notMem_of_isDigit {cs : List Char} (h : ∀ c ∈ cs, c.isDigit = true ∨ c = '.')
    {d : Char} (hd : d.isDigit = false) (hpt : d ≠ '.') : d ∉ cs :=
  fun hmem => (h d hmem).elim (fun h1 => by simp [hd] at h1) hpt

/-- A digit string denotes the number it reads as. -/
lemma parseFloat_digits {ds : List Char} (h : ∀ c ∈ ds, c.isDigit = true) (hne : ds ≠ []) :
    parseFloat ds = some (.fin (ten.value ds)) := by
  have hpt : ∀ c ∈ ds, c.isDigit = true ∨ c = '.' := fun c hc => Or.inl (h c hc)
  have hread : readUnsigned ds = some (ten.value ds : ℚ) := by
    rw [readUnsigned, readNumeral_of_notMem (notMem_of_isDigit hpt (by decide) (by decide))
      (notMem_of_isDigit hpt (by decide) (by decide)), decimal_digits h hne]
    rfl
  cases ds with
  | nil => exact absurd rfl hne
  | cons c cs =>
      rw [parseFloat_of_isDigit (h c List.mem_cons_self) fun d hd =>
        isBlank_of_isDigit (h d (List.mem_of_getLast? hd)), hread]
      rfl

/-- A digit string with a point inside denotes the decimal fraction it reads as. -/
lemma parseFloat_point {ds fs : List Char} (hd : ∀ c ∈ ds, c.isDigit = true)
    (hf : ∀ c ∈ fs, c.isDigit = true) (hdne : ds ≠ []) (hfne : fs ≠ []) :
    parseFloat (ds ++ '.' :: fs) = some (.fin (ten.value (ds ++ fs) / 10 ^ fs.length)) := by
  have hpt : ∀ c ∈ ds ++ '.' :: fs, c.isDigit = true ∨ c = '.' := by
    intro c hc
    rcases List.mem_append.mp hc with hc | hc
    · exact Or.inl (hd c hc)
    · rcases List.mem_cons.mp hc with rfl | hc
      · exact Or.inr rfl
      · exact Or.inl (hf c hc)
  have hread : readUnsigned (ds ++ '.' :: fs)
      = some ((ten.value (ds ++ fs) : ℚ) / 10 ^ fs.length) := by
    rw [readUnsigned, readNumeral_of_notMem (notMem_of_isDigit hpt (by decide) (by decide))
      (notMem_of_isDigit hpt (by decide) (by decide)), decimal_point hd hf (by simp [hdne])]
    rfl
  have hlast : ∀ c ∈ (ds ++ '.' :: fs).getLast?, isBlank c = false := by
    intro c hc
    rw [List.getLast?_append, List.getLast?_cons] at hc
    obtain ⟨f, hfl⟩ := Option.isSome_iff_exists.mp (by simpa using hfne : fs.getLast?.isSome)
    rw [hfl] at hc
    obtain rfl : f = c := by simpa using hc
    exact isBlank_of_isDigit (hf f (List.mem_of_getLast? hfl))
  cases ds with
  | nil => exact absurd rfl hdne
  | cons c cs =>
      rw [List.cons_append] at hlast hread ⊢
      rw [parseFloat_of_isDigit (hd c List.mem_cons_self) hlast, hread]
      rfl

/-- A text that starts like no number, no sign and no name of a number is not a number. -/
lemma parseFloat_cons_eq_none {c : Char} (hblank : isBlank c = false)
    (hdigit : c.isDigit = false) (hc : c ∉ ['-', '+', '.', 'N', 'I']) (cs : List Char) :
    parseFloat (c :: cs) = none := by
  simp only [List.mem_cons, List.not_mem_nil, or_false, not_or] at hc
  obtain ⟨hminus, hplus, hpt, hN, hI⟩ := hc
  obtain ⟨ds, hds⟩ := javaTrim_cons hblank cs
  have h0 : c ≠ '0' := by rintro rfl; exact absurd hdigit (by decide)
  have hread : readUnsigned (c :: ds) = none := by
    have hnum : readNumeral (c :: ds) = decimal (c :: ds) := by
      rw [readNumeral]
      intro x rest h
      exact h0 (List.cons.inj h).1
    rw [readUnsigned, hnum, decimal_cons_eq_none hdigit hpt]
  rw [parseFloat, hds, readSign_cons hminus hplus]
  have hN' : c :: ds ≠ "NaN".toList := fun h => hN (List.cons.inj h).1
  have hI' : c :: ds ≠ "Infinity".toList := fun h => hI (List.cons.inj h).1
  simp only [if_neg hN', if_neg hI', hread]
  rfl

/-! ### Floats -/

section Numbers

variable {K : Type*} [Field K] [LinearOrder K] (A : FloatArith K)

/-- A number of a text, rounded to a float. -/
def roundText : ExtNum ℚ → ExtNum K
  | .nan => .nan
  | .negInf => .negInf
  | .fin q => A.round q
  | .posInf => .posInf

/-- `float(str)`: NaN where the text is not a number. -/
def float (cs : List Char) : ExtNum K :=
  match parseFloat cs with
  | some x => roundText A x
  | none => .nan

/-- A float constant of a sketch, which need not be a float itself. -/
def literal (q : ℚ) : ExtNum K := A.round (q : K)

/-- `map(value, start1, stop1, start2, stop2)`. -/
def map (value start1 stop1 start2 stop2 : ExtNum K) : ExtNum K :=
  A.add start2
    (A.mul (A.sub stop2 start2) (A.div (A.sub value start1) (A.sub stop1 start1)))

/-- `constrain(amt, low, high)`. -/
def constrain (amt low high : ExtNum K) : ExtNum K := ExtNum.clamp amt low high

/-- `min(a, b)`. -/
def min (a b : ExtNum K) : ExtNum K := if a < b then a else b

/-- `max(a, b)`. -/
def max (a b : ExtNum K) : ExtNum K := if a > b then a else b

omit [Field K] in
lemma min_fin (x y : K) : min (.fin x) (.fin y) = .fin (Min.min x y) := by
  rw [min]
  split_ifs with h
  · rw [min_eq_left (ExtNum.fin_lt_fin.mp h).le]
  · rw [min_eq_right (not_lt.mp (mt ExtNum.fin_lt_fin.mpr h))]

omit [Field K] in
lemma max_fin (x y : K) : max (.fin x) (.fin y) = .fin (Max.max x y) := by
  rw [max]
  split_ifs with h
  · rw [max_eq_left (ExtNum.fin_lt_fin.mp h).le]
  · rw [max_eq_right (not_lt.mp (mt ExtNum.fin_lt_fin.mpr h))]

lemma float_digits {ds : List Char} (h : ∀ c ∈ ds, c.isDigit = true) (hne : ds ≠ []) :
    float A ds = A.round ((ten.value ds : ℚ) : K) := by
  rw [float, parseFloat_digits h hne]; rfl

lemma float_point {ds fs : List Char} (hd : ∀ c ∈ ds, c.isDigit = true)
    (hf : ∀ c ∈ fs, c.isDigit = true) (hdne : ds ≠ []) (hfne : fs ≠ []) :
    float A (ds ++ '.' :: fs)
      = A.round (((ten.value (ds ++ fs) : ℚ) / 10 ^ fs.length : ℚ) : K) := by
  rw [float, parseFloat_point hd hf hdne hfne]; rfl

lemma float_cons_eq_nan {c : Char} (hblank : isBlank c = false) (hdigit : c.isDigit = false)
    (hc : c ∉ ['-', '+', '.', 'N', 'I']) (cs : List Char) : float A (c :: cs) = .nan := by
  rw [float, parseFloat_cons_eq_none hblank hdigit hc]

end Numbers

end Processing
