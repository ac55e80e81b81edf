/-
Printing on a board: what the `print` and `println` of the Arduino core write.

* `printInt`: a nonnegative int in decimal.
* `printFloat`: a float with two digits after the point; its digits are produced one by one
  from the remainder (`printFraction`).  The digits are computed exactly.
* `fixed`: the text of a number of hundredths.  `printFloat_eq` says that `printFloat` writes
  the nearest number of hundredths, and `float_fixed` that Processing reads it back.
-/
import EmbodiedSynth.Processing.Api
import Mathlib.Algebra.Order.Floor.Semifield

namespace Arduino

open Numeral

/-! ### The printed texts -/

/-- The end of a line. -/
def crlf : List Char := ['\r', '\n']

/-- `print(n)` for an int that is not negative. -/
def printInt (n : ℕ) : List Char := Nat.toDigits 10 n

section Float

variable {K : Type*} [Field K] [LinearOrder K] [IsStrictOrderedRing K] [FloorRing K]

/-- The digits after the point. -/
def printFraction : ℕ → K → List Char
  | 0, _ => []
  | digits + 1, remainder =>
      let toPrint := ⌊remainder * 10⌋₊
      printInt toPrint ++ printFraction digits (remainder * 10 - toPrint)

/-- `print(number)` for a finite float. -/
def printFloat (number : K) : List Char :=
  if number > 4294967040 then "ovf".toList
  else if number < -4294967040 then "ovf".toList
  else
    let sign := if number < 0 then ['-'] else []
    let rounding : ℚ := 1 / 2 / 10 / 10
    let number := (if number < 0 then -number else number) + rounding
    sign ++ printInt ⌊number⌋₊ ++ '.' :: printFraction 2 (number - ⌊number⌋₊)

/-- The nearest number of hundredths. -/
def hundredths (x : K) : ℕ := ⌊(100 : ℚ) * x + (1 / 2 : ℚ)⌋₊

end Float

/-- The text of a number of hundredths. -/
def fixed (h : ℕ) : List Char :=
  printInt (h / 100) ++ '.' :: [(h / 10 % 10).digitChar, (h % 10).digitChar]

/-! ### Digits -/

lemma isDigit_of_mem_printInt {n : ℕ} {c : Char} (h : c ∈ printInt n) : c.isDigit = true :=
  isDigit_of_mem_toDigits h

lemma printInt_ne_nil (n : ℕ) : printInt n ≠ [] := Nat.toDigits_ne_nil

/-- A decimal digit of a number is written as a digit. -/
lemma isDigit_digitChar_mod (n : ℕ) : (n % 10).digitChar.isDigit = true :=
  (digitChar_spec (Nat.mod_lt n (by norm_num))).1

/-- A single digit. -/
lemma printInt_of_lt {d : ℕ} (h : d < 10) : printInt d = [d.digitChar] :=
  Nat.toDigits_of_lt_base h

/-- The characters of a number of hundredths. -/
lemma isDigit_or_point_of_mem_fixed {h : ℕ} {c : Char} (hc : c ∈ fixed h) :
    c.isDigit = true ∨ c = '.' := by
  rw [fixed, List.mem_append, List.mem_cons] at hc
  rcases hc with hc | rfl | hc
  · exact Or.inl (isDigit_of_mem_printInt hc)
  · exact Or.inr rfl
  · refine Or.inl ?_
    rcases List.mem_pair.mp hc with rfl | rfl
    · exact isDigit_digitChar_mod _
    · exact isDigit_digitChar_mod _

lemma isGraphic_of_mem_printInt {n : ℕ} {c : Char} (hc : c ∈ printInt n) :
    Processing.IsGraphic c :=
  Processing.isGraphic_of_isDigit (isDigit_of_mem_printInt hc)

lemma isGraphic_of_mem_fixed {h : ℕ} {c : Char} (hc : c ∈ fixed h) : Processing.IsGraphic c := by
  rcases isDigit_or_point_of_mem_fixed hc with hc | rfl
  · exact Processing.isGraphic_of_isDigit hc
  · decide

/-- No printed int holds another character than digits. -/
lemma notMem_printInt {c : Char} (hc : c.isDigit = false) (n : ℕ) : c ∉ printInt n := by
  intro hmem
  rw [isDigit_of_mem_printInt hmem] at hc
  exact absurd hc (by simp)

lemma notMem_fixed {c : Char} (hc : c.isDigit = false) (hpoint : c ≠ '.') (h : ℕ) : c ∉ fixed h :=
  Processing.notMem_of_isDigit (fun _ hmem => isDigit_or_point_of_mem_fixed hmem) hc hpoint

lemma fixed_ne_nil (h : ℕ) : fixed h ≠ [] := by simp [fixed]

/-- A number of hundredths ends in a digit. -/
lemma isDigit_of_mem_getLast_fixed {h : ℕ} {c : Char} (hc : c ∈ (fixed h).getLast?) :
    c.isDigit = true := by
  have hlast : (fixed h).getLast? = some (h % 10).digitChar := by
    rw [fixed, List.getLast?_append_cons]
    rfl
  rw [hlast] at hc
  obtain rfl := Option.some.inj hc
  exact isDigit_digitChar_mod _

/-- The digits of a number of hundredths, without the point. -/
lemma value_fixed (h : ℕ) :
    ten.value (printInt (h / 100) ++ [(h / 10 % 10).digitChar, (h % 10).digitChar]) = h := by
  have hten : ∀ d, d < 10 → ten.digit d.digitChar = d := fun d hd => (digitChar_spec hd).2
  rw [show [(h / 10 % 10).digitChar, (h % 10).digitChar]
      = [(h / 10 % 10).digitChar] ++ [(h % 10).digitChar] from rfl, ← List.append_assoc,
    Radix.value_concat, Radix.value_concat, printInt, value_toDigits,
    hten _ (Nat.mod_lt _ (by norm_num)), hten _ (Nat.mod_lt _ (by norm_num))]
  show 10 * (10 * (h / 100) + h / 10 % 10) + h % 10 = h
  omega

/-! ### What is read back -/

section Read

variable {K : Type*} [Field K] [LinearOrder K] (A : FloatArith K)

/-- A printed int is read back. -/
lemma float_printInt (n : ℕ) : Processing.float A (printInt n) = A.round (n : K) := by
  rw [Processing.float_digits A (fun c hc => isDigit_of_mem_printInt hc) (printInt_ne_nil n),
    printInt, value_toDigits, Rat.cast_natCast]

/-- A printed number of hundredths is read back. -/
lemma float_fixed (h : ℕ) :
    Processing.float A (fixed h) = A.round ((h / 100 : ℚ) : K) := by
  have hdigits : ∀ c ∈ [(h / 10 % 10).digitChar, (h % 10).digitChar], c.isDigit = true := by
    intro c hc
    rcases List.mem_pair.mp hc with rfl | rfl
    · exact isDigit_digitChar_mod _
    · exact isDigit_digitChar_mod _
  rw [fixed, Processing.float_point A (fun c hc => isDigit_of_mem_printInt hc) hdigits
    (printInt_ne_nil _) (by simp), value_fixed]
  norm_num

end Read

/-! ### The digits of a float -/

section Float

variable {K : Type*} [Field K] [LinearOrder K] [IsStrictOrderedRing K] [FloorRing K]

/-- One digit of the fraction: what is printed and what remains. -/
lemma printFraction_succ (digits : ℕ) (x : K) :
    printFraction (digits + 1) (x - ⌊x⌋₊)
      = (⌊x * 10⌋₊ % 10).digitChar :: printFraction digits (x * 10 - ⌊x * 10⌋₊) := by
  have hten : ⌊x⌋₊ = ⌊x * 10⌋₊ / 10 := by
    have h := Nat.floor_div_natCast (x * 10) 10
    rwa [Nat.cast_ofNat, mul_div_cancel_right₀ x (by norm_num)] at h
  have hshift : (x - ⌊x⌋₊) * 10 = x * 10 - (⌊x⌋₊ * 10 : ℕ) := by push_cast; ring
  have hdigit : ⌊(x - ⌊x⌋₊) * 10⌋₊ = ⌊x * 10⌋₊ % 10 := by
    rw [hshift, Nat.floor_sub_natCast, hten]
    omega
  have hrest : (x - ⌊x⌋₊) * 10 - (⌊x * 10⌋₊ % 10 : ℕ) = x * 10 - ⌊x * 10⌋₊ := by
    have hsplit : (⌊x * 10⌋₊ : K) = (⌊x⌋₊ * 10 : ℕ) + (⌊x * 10⌋₊ % 10 : ℕ) := by
      rw [hten]
      exact_mod_cast (Nat.div_add_mod' _ 10).symm
    rw [hshift, hsplit]
    ring
  simp only [printFraction, hdigit, hrest, printInt_of_lt (Nat.mod_lt _ (by norm_num))]
  rfl

/-- **A float is printed as its nearest number of hundredths.** -/
theorem printFloat_eq {x : K} (h0 : 0 ≤ x) (hx : x ≤ 4294967040) :
    printFloat x = fixed (hundredths x) := by
  have hover : ¬ x > 4294967040 := not_lt.mpr hx
  have hunder : ¬ x < -4294967040 := not_lt.mpr (by linarith)
  have hneg : ¬ x < 0 := not_lt.mpr h0
  have hhund : hundredths x = ⌊(x + (1 / 2 / 10 / 10 : ℚ)) * 10 * 10⌋₊ := by
    rw [hundredths]
    congr 1
    push_cast
    ring
  generalize hydef : x + ((1 / 2 / 10 / 10 : ℚ) : K) = y at hhund
  have hdiv10 : ⌊y * 10⌋₊ = ⌊y * 10 * 10⌋₊ / 10 := by
    have h := Nat.floor_div_natCast (y * 10 * 10) 10
    rwa [Nat.cast_ofNat, mul_div_cancel_right₀ _ (by norm_num)] at h
  have hdiv : ⌊y⌋₊ = ⌊y * 10 * 10⌋₊ / 100 := by
    have h := Nat.floor_div_natCast (y * 10) 10
    rw [Nat.cast_ofNat, mul_div_cancel_right₀ _ (by norm_num)] at h
    omega
  simp only [printFloat, if_neg hover, if_neg hunder, if_neg hneg, hydef, List.nil_append]
  rw [printFraction_succ 1, printFraction_succ 0, hdiv10, hdiv, fixed, hhund]
  rfl

end Float

end Arduino
