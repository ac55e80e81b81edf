/-
Reading numerals.

* `Radix`: a base with its digits; `Radix.value` is the number a digit string denotes.
* `Radix.significand`: digits with an optional point, at least one digit; `readExponent`:
  a signed decimal exponent.  Both return what they leave unread.
* `decimal`, `hexadecimal`: an unsigned numeral, the exponent optional in base ten and
  required in base sixteen.
* `decimal_digits`, `decimal_point`: what is read back from a digit string and from a digit
  string with a point; `decimal_cons_eq_none`: a text that starts with neither a digit nor a
  point is no numeral.
-/
import Mathlib.Tactic
import Mathlib.Data.List.TakeWhile
import Mathlib.Data.Rat.Defs

namespace Numeral

/-! ### Digit strings -/

/-- A base together with its digit characters and their values. -/
structure Radix where
  base : ℕ
  isDigit : Char → Bool
  digit : Char → ℕ

/-- The decimal digits. -/
def ten : Radix where
  base := 10
  isDigit := Char.isDigit
  digit c := c.toNat - '0'.toNat

/-- The hexadecimal digits, in both cases. -/
def sixteen : Radix where
  base := 16
  isDigit c := c.isDigit || ('a' ≤ c && c ≤ 'f') || ('A' ≤ c && c ≤ 'F')
  digit c :=
    if c.isDigit then c.toNat - '0'.toNat
    else if 'a' ≤ c then c.toNat - 'a'.toNat + 10 else c.toNat - 'A'.toNat + 10

namespace Radix

variable (R : Radix)

/-- The number a digit string denotes. -/
def value (ds : List Char) : ℕ := ds.foldl (fun n c => R.base * n + R.digit c) 0

/-- A further digit shifts the number and adds itself. -/
lemma value_concat (ds : List Char) (c : Char) :
    R.value (ds ++ [c]) = R.base * R.value ds + R.digit c := by
  rw [value, value, List.foldl_append]; rfl

/-- Digits with an optional point, at least one digit in all: the number and the text left
unread. -/
def significand (cs : List Char) : Option (ℚ × List Char) :=
  let whole := cs.takeWhile R.isDigit
  match cs.dropWhile R.isDigit with
  | '.' :: rest =>
      let frac := rest.takeWhile R.isDigit
      if whole ++ frac = [] then none
      else some (R.value (whole ++ frac) / R.base ^ frac.length, rest.dropWhile R.isDigit)
  | rest => if whole = [] then none else some (R.value whole, rest)

variable {R}

/-- A nonempty digit string is read whole. -/
lemma significand_digits {ds : List Char} (h : ∀ c ∈ ds, R.isDigit c = true) (hne : ds ≠ []) :
    R.significand ds = some ((R.value ds : ℚ), []) := by
  have htake : ds.takeWhile R.isDigit = ds := List.takeWhile_eq_self_iff.mpr h
  have hdrop : ds.dropWhile R.isDigit = [] := List.dropWhile_eq_nil_iff.mpr h
  rw [significand, htake, hdrop]
  simp [hne]

/-- A digit string with a point is read whole. -/
lemma significand_point {ds fs : List Char} (hd : ∀ c ∈ ds, R.isDigit c = true)
    (hf : ∀ c ∈ fs, R.isDigit c = true) (hne : ds ++ fs ≠ []) (hpt : R.isDigit '.' = false) :
    R.significand (ds ++ '.' :: fs)
      = some ((R.value (ds ++ fs) / R.base ^ fs.length : ℚ), []) := by
  have htake : (ds ++ '.' :: fs).takeWhile R.isDigit = ds := by
    rw [List.takeWhile_append_of_pos hd, List.takeWhile_cons, hpt]
    simp
  have hdrop : (ds ++ '.' :: fs).dropWhile R.isDigit = '.' :: fs := by
    rw [List.dropWhile_append_of_pos hd, List.dropWhile_cons, hpt]
    simp
  have htake' : fs.takeWhile R.isDigit = fs := List.takeWhile_eq_self_iff.mpr hf
  have hdrop' : fs.dropWhile R.isDigit = [] := List.dropWhile_eq_nil_iff.mpr hf
  rw [significand, htake, hdrop]
  simp only [htake', hdrop', if_neg hne]

/-- Without a digit or a point in front there is nothing to read. -/
lemma significand_cons_eq_none {c : Char} (hc : R.isDigit c = false) (hpt : c ≠ '.')
    (cs : List Char) : R.significand (c :: cs) = none := by
  have htake : (c :: cs).takeWhile R.isDigit = [] := by rw [List.takeWhile_cons, hc]; simp
  have hdrop : (c :: cs).dropWhile R.isDigit = c :: cs := by rw [List.dropWhile_cons, hc]; simp
  rw [significand, htake, hdrop]
  simp only [↓reduceIte]
  split
  · next h => exact absurd (List.cons.inj h).1 hpt
  · rfl

end Radix

/-! ### Numerals -/

/-- An optional sign: whether it is a minus, and the text after it. -/
def readSign : List Char → Bool × List Char
  | '-' :: cs => (true, cs)
  | '+' :: cs => (false, cs)
  | cs => (false, cs)

/-- A text that starts with no sign is read as it is. -/
lemma readSign_cons {c : Char} (hm : c ≠ '-') (hp : c ≠ '+') (cs : List Char) :
    readSign (c :: cs) = (false, c :: cs) := by
  rw [readSign]
  · exact fun ds h => hm (List.cons.inj h).1
  · exact fun ds h => hp (List.cons.inj h).1

/-- A signed decimal exponent, at least one digit. -/
def readExponent (cs : List Char) : Option (ℤ × List Char) :=
  let (neg, body) := readSign cs
  let ds := body.takeWhile ten.isDigit
  if ds = [] then none
  else some (if neg then -(ten.value ds : ℤ) else ten.value ds, body.dropWhile ten.isDigit)

/-- An unsigned decimal numeral with an optional exponent. -/
def decimal (cs : List Char) : Option (ℚ × List Char) :=
  match ten.significand cs with
  | none => none
  | some (m, []) => some (m, [])
  | some (m, c :: rest) =>
      if c = 'e' ∨ c = 'E' then (readExponent rest).map fun er => (m * 10 ^ er.1, er.2)
      else some (m, c :: rest)

/-- An unsigned hexadecimal numeral, after its `0x`; the binary exponent is required. -/
def hexadecimal (cs : List Char) : Option (ℚ × List Char) :=
  match sixteen.significand cs with
  | some (m, c :: rest) =>
      if c = 'p' ∨ c = 'P' then (readExponent rest).map fun er => (m * 2 ^ er.1, er.2) else none
  | _ => none

/-- A nonempty digit string reads as the number it denotes. -/
lemma decimal_digits {ds : List Char} (h : ∀ c ∈ ds, c.isDigit = true) (hne : ds ≠ []) :
    decimal ds = some ((ten.value ds : ℚ), []) := by
  rw [decimal, Radix.significand_digits (R := ten) h hne]

/-- A digit string with a point reads as the decimal fraction it denotes. -/
lemma decimal_point {ds fs : List Char} (hd : ∀ c ∈ ds, c.isDigit = true)
    (hf : ∀ c ∈ fs, c.isDigit = true) (hne : ds ++ fs ≠ []) :
    decimal (ds ++ '.' :: fs) = some ((ten.value (ds ++ fs) / 10 ^ fs.length : ℚ), []) := by
  rw [decimal, Radix.significand_point (R := ten) hd hf hne (by decide)]
  simp [ten]

/-- A text that starts with neither a digit nor a point is no numeral. -/
lemma decimal_cons_eq_none {c : Char} (hc : c.isDigit = false) (hpt : c ≠ '.')
    (cs : List Char) : decimal (c :: cs) = none := by
  rw [decimal, Radix.significand_cons_eq_none (R := ten) hc hpt]

lemma decimal_nil : decimal [] = none := rfl

/-! ### The digits of a natural number -/

/-- The decimal digits of a natural number denote it. -/
@[simp] lemma value_toDigits (n : ℕ) : ten.value (Nat.toDigits 10 n) = n :=
  Nat.ofDigitChars_ten_toDigits

lemma isDigit_of_mem_toDigits {n : ℕ} {c : Char} (h : c ∈ Nat.toDigits 10 n) :
    c.isDigit = true :=
  Nat.isDigit_of_mem_toDigits (by norm_num) le_rfl h

/-- The character of a digit is a digit, of that value. -/
lemma digitChar_spec {d : ℕ} (h : d < 10) :
    d.digitChar.isDigit = true ∧ ten.digit d.digitChar = d := by
  interval_cases d <;> decide

end Numeral
