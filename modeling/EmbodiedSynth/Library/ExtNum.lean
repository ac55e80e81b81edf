/-
Numbers of floating-point shape over an ordered field.

* `ExtNum`: the finite numbers of `K`, the two infinities and NaN.  The sign of a zero is
  not recorded.  A numeral is a finite number (`ofNat_eq`).
* `<` and `≤` are the ordered comparisons of IEEE arithmetic: both are false as soon as one
  side is NaN (`not_nan_lt`, `not_lt_nan`, `not_nan_le`, `not_le_nan`).
* `FloatArith`: an arithmetic on these numbers, given by how a finite result is rounded.
  `FloatArith.exact` rounds nothing.
* `clamp`: the two-comparison clamp `(x < lo) ? lo : ((x > hi) ? hi : x)`.
  `clamp_mem` bounds it on every number but NaN, which it lets through (`clamp_nan`).
-/
import Mathlib.Tactic
import Mathlib.Algebra.Order.Field.Basic

/-- A number of floating-point shape: finite, infinite, or not a number. -/
inductive ExtNum (K : Type*) where
  | nan
  | negInf
  | fin (x : K)
  | posInf
  deriving DecidableEq

namespace ExtNum

variable {K : Type*}

/-! ### Numerals -/

instance [Zero K] : Zero (ExtNum K) := ⟨fin 0⟩

instance [One K] : One (ExtNum K) := ⟨fin 1⟩

instance (priority := low) [NatCast K] (n : ℕ) : OfNat (ExtNum K) n := ⟨fin n⟩

@[simp] lemma zero_eq [Zero K] : (0 : ExtNum K) = fin 0 := rfl

@[simp] lemma ofNat_eq [NatCast K] (n : ℕ) [n.AtLeastTwo] :
    (OfNat.ofNat n : ExtNum K) = fin (OfNat.ofNat n) := rfl

/-! ### Comparisons -/

section Order

variable [LinearOrder K]

/-- The ordered comparison `<`, false on NaN. -/
protected def lt : ExtNum K → ExtNum K → Bool
  | fin x, fin y => x < y
  | negInf, fin _ => true
  | negInf, posInf => true
  | fin _, posInf => true
  | _, _ => false

/-- The ordered comparison `<=`, false on NaN. -/
protected def le : ExtNum K → ExtNum K → Bool
  | fin x, fin y => x ≤ y
  | negInf, negInf => true
  | negInf, fin _ => true
  | negInf, posInf => true
  | fin _, posInf => true
  | posInf, posInf => true
  | _, _ => false

instance : LT (ExtNum K) := ⟨fun a b => ExtNum.lt a b = true⟩

instance : LE (ExtNum K) := ⟨fun a b => ExtNum.le a b = true⟩

instance (a b : ExtNum K) : Decidable (a < b) := inferInstanceAs (Decidable (ExtNum.lt a b = true))

instance (a b : ExtNum K) : Decidable (a ≤ b) := inferInstanceAs (Decidable (ExtNum.le a b = true))

@[simp] lemma fin_lt_fin {x y : K} : fin x < fin y ↔ x < y := by
  show ExtNum.lt (fin x) (fin y) = true ↔ x < y
  simp [ExtNum.lt]

@[simp] lemma fin_le_fin {x y : K} : fin x ≤ fin y ↔ x ≤ y := by
  show ExtNum.le (fin x) (fin y) = true ↔ x ≤ y
  simp [ExtNum.le]

@[simp] lemma not_nan_lt (a : ExtNum K) : ¬ nan < a := by
  cases a <;> exact Bool.false_ne_true

@[simp] lemma not_lt_nan (a : ExtNum K) : ¬ a < nan := by
  cases a <;> exact Bool.false_ne_true

@[simp] lemma not_nan_le (a : ExtNum K) : ¬ nan ≤ a := by
  cases a <;> exact Bool.false_ne_true

@[simp] lemma not_le_nan (a : ExtNum K) : ¬ a ≤ nan := by
  cases a <;> exact Bool.false_ne_true

@[simp] lemma negInf_lt_fin (x : K) : negInf < fin x := rfl

@[simp] lemma negInf_le_fin (x : K) : negInf ≤ fin x := rfl

@[simp] lemma fin_lt_posInf (x : K) : fin x < posInf := rfl

@[simp] lemma fin_le_posInf (x : K) : fin x ≤ posInf := rfl

@[simp] lemma not_posInf_lt (a : ExtNum K) : ¬ posInf < a := by
  cases a <;> exact Bool.false_ne_true

@[simp] lemma not_lt_negInf (a : ExtNum K) : ¬ a < negInf := by
  cases a <;> exact Bool.false_ne_true

@[simp] lemma not_posInf_le_fin (x : K) : ¬ posInf ≤ fin x := Bool.false_ne_true

@[simp] lemma not_fin_le_negInf (x : K) : ¬ fin x ≤ negInf := Bool.false_ne_true

lemma lt_irrefl (a : ExtNum K) : ¬ a < a := by
  cases a <;> simp

/-- Off NaN the two comparisons are complementary. -/
lemma not_lt_iff {a b : ExtNum K} (ha : a ≠ nan) (hb : b ≠ nan) : ¬ a < b ↔ b ≤ a := by
  cases a with
  | nan => exact absurd rfl ha
  | negInf => cases b with
    | nan => exact absurd rfl hb
    | negInf => exact ⟨fun _ => rfl, fun _ => not_lt_negInf _⟩
    | fin y => simp
    | posInf => exact ⟨fun h => absurd rfl h, fun h => absurd h Bool.false_ne_true⟩
  | fin x => cases b with
    | nan => exact absurd rfl hb
    | negInf => simp
    | fin y => simp
    | posInf => simp
  | posInf => cases b with
    | nan => exact absurd rfl hb
    | negInf => exact ⟨fun _ => rfl, fun _ => not_posInf_lt _⟩
    | fin y => simp
    | posInf => exact ⟨fun _ => rfl, fun _ => not_posInf_lt _⟩

lemma lt_trans {a b c : ExtNum K} (hab : a < b) (hbc : b < c) : a < c := by
  cases b with
  | nan => exact absurd hbc (not_nan_lt c)
  | negInf => exact absurd hab (not_lt_negInf a)
  | posInf => exact absurd hbc (not_posInf_lt c)
  | fin y =>
      cases a <;> cases c <;> simp at hab hbc ⊢
      · rfl
      · exact hab.trans hbc

lemma not_lt_of_lt {a b : ExtNum K} (h : a < b) : ¬ b < a := fun hba =>
  lt_irrefl a (lt_trans h hba)

lemma not_lt_of_le {a b : ExtNum K} (h : a ≤ b) : ¬ b < a := by
  have ha : a ≠ nan := by rintro rfl; exact not_nan_le _ h
  have hb : b ≠ nan := by rintro rfl; exact not_le_nan _ h
  exact (not_lt_iff hb ha).mpr h

/-! ### Clamping -/

/-- The two-comparison clamp. -/
def clamp (x lo hi : ExtNum K) : ExtNum K := if x < lo then lo else if x > hi then hi else x

/-- Both comparisons fail on NaN, so the clamp lets it through. -/
@[simp] lemma clamp_nan (lo hi : ExtNum K) : clamp nan lo hi = nan := by simp [clamp]

/-- On a finite number and finite bounds it is the clamp of `K`. -/
lemma clamp_fin {x lo hi : K} (h : lo ≤ hi) :
    clamp (fin x) (fin lo) (fin hi) = fin (max lo (min hi x)) := by
  by_cases h₁ : x < lo
  · simp [clamp, h₁, min_eq_right (h₁.le.trans h), max_eq_left h₁.le]
  · by_cases h₂ : hi < x
    · simp [clamp, h₁, h₂, min_eq_left h₂.le, h]
    · simp [clamp, h₁, h₂, min_eq_right (not_lt.mp h₂), max_eq_right (not_lt.mp h₁)]

/-- **The clamp bounds every number but NaN**, the infinities included. -/
theorem clamp_mem {x lo hi : ExtNum K} (h : lo ≤ hi) (hx : x ≠ nan) :
    lo ≤ clamp x lo hi ∧ clamp x lo hi ≤ hi := by
  have hlo : lo ≠ nan := by rintro rfl; exact not_nan_le _ h
  have hhi : hi ≠ nan := by rintro rfl; exact not_le_nan _ h
  rw [clamp]
  split_ifs with h₁ h₂
  · exact ⟨(not_lt_iff hlo hlo).mp (lt_irrefl lo), h⟩
  · exact ⟨h, (not_lt_iff hhi hhi).mp (lt_irrefl hi)⟩
  · exact ⟨(not_lt_iff hx hlo).mp h₁, (not_lt_iff hhi hx).mp h₂⟩

end Order

/-! ### Exact operations -/

section Field

variable [Field K] [LinearOrder K]

/-- Negation is exact. -/
protected def neg : ExtNum K → ExtNum K
  | nan => nan
  | negInf => posInf
  | fin x => fin (-x)
  | posInf => negInf

/-- The absolute value is exact. -/
protected def abs : ExtNum K → ExtNum K
  | nan => nan
  | negInf => posInf
  | fin x => fin |x|
  | posInf => posInf

/-- The infinity of the sign of `x`, NaN for a zero. -/
def infOfSign (x : K) : ExtNum K := if 0 < x then posInf else if x < 0 then negInf else nan

end Field

end ExtNum

/-! ### Arithmetic with rounding -/

/-- An arithmetic on `ExtNum K`: the rounding of a finite exact result, which never makes a
number into NaN and leaves the integers of a 24-bit significand alone, and the power
function of its library. -/
structure FloatArith (K : Type*) [Field K] [LinearOrder K] where
  round : K → ExtNum K
  round_ne_nan : ∀ x, round x ≠ .nan
  round_intCast : ∀ n : ℤ, |n| ≤ 2 ^ 24 → round (n : K) = .fin (n : K)
  pow : ExtNum K → ExtNum K → ExtNum K

namespace FloatArith

open ExtNum

variable {K : Type*} [Field K] [LinearOrder K]

/-- The arithmetic that rounds nothing, over a power function. -/
def exact (pow : ExtNum K → ExtNum K → ExtNum K) : FloatArith K where
  round := fin
  round_ne_nan := by simp
  round_intCast := by simp
  pow := pow

@[simp] lemma exact_round (pow : ExtNum K → ExtNum K → ExtNum K) (x : K) :
    (exact pow).round x = fin x := rfl

/-- Powers of a rational with an integer exponent. -/
def ratPow : ExtNum ℚ → ExtNum ℚ → ExtNum ℚ
  | fin x, fin y => if y.den = 1 then fin (x ^ y.num) else nan
  | _, _ => nan

/-- What a power function is documented to do with the exponents 0 and 1. -/
structure LawfulPow (pow : ExtNum K → ExtNum K → ExtNum K) : Prop where
  pow_zero : ∀ x : K, pow (fin x) (fin 0) = fin 1
  pow_one : ∀ x : K, pow (fin x) (fin 1) = fin x

lemma lawfulPow_ratPow : LawfulPow ratPow where
  pow_zero x := by simp [ratPow]
  pow_one x := by simp [ratPow]

/-- Exact arithmetic on the rationals. -/
def exactRat : FloatArith ℚ := exact ratPow

variable (A : FloatArith K)

/-- An integer converted to floating point. -/
def ofInt (n : ℤ) : ExtNum K := A.round n

/-- Addition. -/
def add : ExtNum K → ExtNum K → ExtNum K
  | fin x, fin y => A.round (x + y)
  | nan, _ => nan
  | _, nan => nan
  | posInf, negInf => nan
  | negInf, posInf => nan
  | posInf, _ => posInf
  | _, posInf => posInf
  | negInf, _ => negInf
  | _, negInf => negInf

/-- Subtraction. -/
def sub (a b : ExtNum K) : ExtNum K := A.add a b.neg

/-- Multiplication. -/
def mul : ExtNum K → ExtNum K → ExtNum K
  | fin x, fin y => A.round (x * y)
  | nan, _ => nan
  | _, nan => nan
  | posInf, fin y => infOfSign y
  | fin x, posInf => infOfSign x
  | negInf, fin y => infOfSign (-y)
  | fin x, negInf => infOfSign (-x)
  | posInf, posInf => posInf
  | negInf, negInf => posInf
  | posInf, negInf => negInf
  | negInf, posInf => negInf

/-- Division.  A zero divisor counts as a positive zero. -/
def div : ExtNum K → ExtNum K → ExtNum K
  | fin x, fin y => if y = 0 then infOfSign x else A.round (x / y)
  | nan, _ => nan
  | _, nan => nan
  | fin _, posInf => fin 0
  | fin _, negInf => fin 0
  | posInf, fin y => if y < 0 then negInf else posInf
  | negInf, fin y => if y < 0 then posInf else negInf
  | _, _ => nan

@[simp] lemma add_fin (x y : K) : A.add (fin x) (fin y) = A.round (x + y) := rfl

@[simp] lemma sub_fin (x y : K) : A.sub (fin x) (fin y) = A.round (x - y) := by
  rw [sub, ExtNum.neg, add_fin, sub_eq_add_neg]

@[simp] lemma mul_fin (x y : K) : A.mul (fin x) (fin y) = A.round (x * y) := rfl

lemma div_fin (x : K) {y : K} (hy : y ≠ 0) : A.div (fin x) (fin y) = A.round (x / y) := by
  simp [div, hy]

@[simp] lemma nan_add (a : ExtNum K) : A.add nan a = nan := by cases a <;> rfl

@[simp] lemma add_nan (a : ExtNum K) : A.add a nan = nan := by cases a <;> rfl

@[simp] lemma nan_sub (a : ExtNum K) : A.sub nan a = nan := nan_add A _

@[simp] lemma mul_nan (a : ExtNum K) : A.mul a nan = nan := by cases a <;> rfl

@[simp] lemma nan_div (a : ExtNum K) : A.div nan a = nan := by cases a <;> rfl

/-- Adding a finite number makes no NaN. -/
lemma add_fin_ne_nan {a : ExtNum K} (ha : a ≠ nan) (x : K) : A.add a (fin x) ≠ nan := by
  cases a with
  | nan => exact absurd rfl ha
  | negInf => simp [add]
  | fin y => exact A.round_ne_nan _
  | posInf => simp [add]

lemma fin_add_ne_nan {a : ExtNum K} (ha : a ≠ nan) (x : K) : A.add (fin x) a ≠ nan := by
  cases a with
  | nan => exact absurd rfl ha
  | negInf => simp [add]
  | fin y => exact A.round_ne_nan _
  | posInf => simp [add]

lemma sub_fin_ne_nan {a : ExtNum K} (ha : a ≠ nan) (x : K) : A.sub a (fin x) ≠ nan :=
  A.add_fin_ne_nan ha (-x)

/-- Scaling by a positive number makes no NaN. -/
lemma fin_mul_ne_nan [IsStrictOrderedRing K] {a : ExtNum K} (ha : a ≠ nan) {x : K} (hx : 0 < x) :
    A.mul (fin x) a ≠ nan := by
  cases a with
  | nan => exact absurd rfl ha
  | negInf => simp [mul, infOfSign, hx, not_lt.mpr hx.le]
  | fin y => exact A.round_ne_nan _
  | posInf => simp [mul, infOfSign, hx]

lemma mul_fin_ne_nan [IsStrictOrderedRing K] {a : ExtNum K} (ha : a ≠ nan) {x : K} (hx : 0 < x) :
    A.mul a (fin x) ≠ nan := by
  cases a with
  | nan => exact absurd rfl ha
  | negInf => simp [mul, infOfSign, hx, not_lt.mpr hx.le]
  | fin y => exact A.round_ne_nan _
  | posInf => simp [mul, infOfSign, hx]

lemma div_fin_ne_nan {a : ExtNum K} (ha : a ≠ nan) {x : K} (hx : 0 < x) :
    A.div a (fin x) ≠ nan := by
  cases a with
  | nan => exact absurd rfl ha
  | negInf => simp [div, not_lt.mpr hx.le]
  | fin y => rw [div_fin A y hx.ne']; exact A.round_ne_nan _
  | posInf => simp [div, not_lt.mpr hx.le]

end FloatArith
