/-
Decimal fields of a fixed width, and the lexicographic order of texts made of them.

* `append_lt_append_iff`: texts whose first parts have the same length are compared part by
  part.
* `digits`: a number in exactly `w` digits; `digits_lt_iff`: on the numbers that fit, their
  order is the lexicographic order of the digits.
* `toDigits_eq_digits`: a number that needs all its digits is written without padding.
-/
import Mathlib.Data.List.Basic
import Mathlib.Data.Nat.Basic
import Mathlib.Tactic

namespace FixedWidth

/-- Texts with first parts of one length are compared by these, and then by the rest. -/
lemma append_lt_append_iff {α : Type*} [LT α] {xs xs' ys ys' : List α}
    (h : xs.length = xs'.length) : xs ++ ys < xs' ++ ys' ↔ xs < xs' ∨ xs = xs' ∧ ys < ys' := by
  induction xs generalizing xs' with
  | nil =>
      obtain rfl : xs' = [] := List.length_eq_zero_iff.mp h.symm
      simp
  | cons x xs ih =>
      cases xs' with
      | nil => exact absurd h (by simp)
      | cons x' xs' =>
          have hlen : xs.length = xs'.length := by simpa using h
          rw [List.cons_append, List.cons_append, List.cons_lt_cons_iff, List.cons_lt_cons_iff,
            ih hlen, List.cons.injEq]
          tauto

/-- A common first part does not matter. -/
lemma append_left_lt_iff {α : Type*} [LT α] [Std.Irrefl (α := α) (· < ·)] (xs : List α)
    {ys ys' : List α} : xs ++ ys < xs ++ ys' ↔ ys < ys' := by
  rw [append_lt_append_iff rfl]
  simp

/-- The last `w` decimal digits of a number. -/
def digits : ℕ → ℕ → List Char
  | 0, _ => []
  | w + 1, n => digits w (n / 10) ++ [Nat.digitChar (n % 10)]

@[simp] lemma length_digits (w n : ℕ) : (digits w n).length = w := by
  induction w generalizing n with
  | zero => rfl
  | succ w ih => rw [digits, List.length_append, ih, List.length_singleton]

lemma digitChar_lt_iff : ∀ m < 10, ∀ n < 10,
    ([Nat.digitChar m] < [Nat.digitChar n] ↔ m < n) := by
  decide +kernel

lemma digitChar_inj : ∀ m < 10, ∀ n < 10, [Nat.digitChar m] = [Nat.digitChar n] → m = n := by
  decide +kernel

lemma digits_inj {w m n : ℕ} (hm : m < 10 ^ w) (hn : n < 10 ^ w) (h : digits w m = digits w n) :
    m = n := by
  induction w generalizing m n with
  | zero => omega
  | succ w ih =>
      rw [pow_succ] at hm hn
      obtain ⟨hhead, hlast⟩ := List.append_inj h (by simp)
      have hdiv := ih (by omega) (by omega) hhead
      have hmod := digitChar_inj _ (Nat.mod_lt m (by norm_num)) _ (Nat.mod_lt n (by norm_num)) hlast
      omega

/-- **The order of numbers is that of their digits**, where they fit the width. -/
theorem digits_lt_iff {w m n : ℕ} (hm : m < 10 ^ w) (hn : n < 10 ^ w) :
    digits w m < digits w n ↔ m < n := by
  induction w generalizing m n with
  | zero => exact iff_of_false (List.not_lt_nil _) (by omega)
  | succ w ih =>
      rw [pow_succ] at hm hn
      have hdigit := digitChar_lt_iff _ (Nat.mod_lt m (by norm_num)) _ (Nat.mod_lt n (by norm_num))
      have hhead : digits w (m / 10) = digits w (n / 10) ↔ m / 10 = n / 10 :=
        ⟨digits_inj (by omega) (by omega), fun h => by rw [h]⟩
      rw [digits, digits, append_lt_append_iff (by rw [length_digits, length_digits]),
        ih (by omega) (by omega), hhead, hdigit]
      omega

/-- A field and what follows it. -/
lemma digits_append_lt_iff {w m n : ℕ} (hm : m < 10 ^ w) (hn : n < 10 ^ w) (xs ys : List Char) :
    digits w m ++ xs < digits w n ++ ys ↔ m < n ∨ m = n ∧ xs < ys := by
  rw [append_lt_append_iff (by rw [length_digits, length_digits]), digits_lt_iff hm hn]
  exact or_congr_right (and_congr_left' ⟨digits_inj hm hn, fun h => by rw [h]⟩)

lemma digits_append_inj {w m n : ℕ} (hm : m < 10 ^ w) (hn : n < 10 ^ w) {xs ys : List Char}
    (h : digits w m ++ xs = digits w n ++ ys) : m = n ∧ xs = ys := by
  obtain ⟨hhead, hrest⟩ := List.append_inj h (by rw [length_digits, length_digits])
  exact ⟨digits_inj hm hn hhead, hrest⟩

/-- A number that fills the width is written in it without padding. -/
lemma toDigits_eq_digits {w n : ℕ} (hlow : 10 ^ w ≤ n) (hhigh : n < 10 ^ (w + 1)) :
    Nat.toDigits 10 n = digits (w + 1) n := by
  induction w generalizing n with
  | zero =>
      have hlt : n < 10 := by omega
      rw [Nat.toDigits_of_lt_base hlt, digits, Nat.mod_eq_of_lt hlt]
      rfl
  | succ w ih =>
      rw [pow_succ] at hlow
      rw [pow_succ] at hhigh
      have hpos : 0 < 10 ^ w := by positivity
      rw [Nat.toDigits_of_base_le (by norm_num) (by omega), ih (by omega) (by omega)]
      rfl

end FixedWidth
