/-
Exponential averages.

* `average`: the average of a first value and the values after it, each taken in with weight `a`.
* `average_eq_sum`: its closed form.
* `Between`, `between_average`: it lies between the least and the greatest of its values.
* `average_sub_average`: two averages over the same values forget their first ones geometrically.
-/
import Mathlib.Algebra.BigOperators.Group.Finset.Basic
import Mathlib.Analysis.Convex.Segment
import Mathlib.Data.List.GetD
import Mathlib.Data.List.Induction
import Mathlib.Tactic

namespace Averaging

variable {K : Type*} [Field K]

/-- The average of `x` and then `xs`, each of which is taken in with weight `a`. -/
def average (a x : K) (xs : List K) : K := xs.foldl (fun s y => s * (1 - a) + y * a) x

@[simp] lemma average_nil (a x : K) : average a x [] = x := rfl

lemma average_append (a x : K) (xs ys : List K) :
    average a x (xs ++ ys) = average a (average a x xs) ys := List.foldl_append

lemma average_concat (a x : K) (xs : List K) (y : K) :
    average a x (xs ++ [y]) = average a x xs * (1 - a) + y * a := average_append a x xs [y]

/-- **The closed form**: the weight of a value falls by `1 - a` with each one after it. -/
theorem average_eq_sum (a x : K) (xs : List K) :
    average a x xs = (1 - a) ^ xs.length * x
      + ∑ i ∈ Finset.range xs.length, a * (1 - a) ^ (xs.length - (i + 1)) * xs.getD i 0 := by
  induction xs using List.reverseRecOn with
  | nil => simp
  | append_singleton xs y ih =>
      have hstep : ∀ i ∈ Finset.range xs.length,
          a * (1 - a) ^ (xs.length + 1 - (i + 1)) * (xs ++ [y]).getD i 0
            = (1 - a) * (a * (1 - a) ^ (xs.length - (i + 1)) * xs.getD i 0) := by
        intro i hi
        have hlt := Finset.mem_range.mp hi
        have hexp : xs.length + 1 - (i + 1) = xs.length - (i + 1) + 1 := by omega
        rw [hexp, pow_succ, List.getD_append _ _ _ _ hlt]
        ring
      rw [average_concat, ih, List.length_append, List.length_singleton, Finset.sum_range_succ,
        Finset.sum_congr rfl hstep, ← Finset.mul_sum, List.getD_append_right _ _ _ _ le_rfl]
      simp only [Nat.sub_self, pow_zero, mul_one, List.getD_cons_zero]
      ring

/-- Two averages over the same values differ by their first ones, scaled down by each value. -/
theorem average_sub_average (a x y : K) (zs : List K) :
    average a x zs - average a y zs = (1 - a) ^ zs.length * (x - y) := by
  induction zs using List.reverseRecOn with
  | nil => simp
  | append_singleton zs z ih =>
      rw [average_concat, average_concat, List.length_append, List.length_singleton]
      calc average a x zs * (1 - a) + z * a - (average a y zs * (1 - a) + z * a)
          = (average a x zs - average a y zs) * (1 - a) := by ring
        _ = (1 - a) ^ (zs.length + 1) * (x - y) := by rw [ih, pow_succ]; ring

/-! ### Bounds -/

section Order

variable [LinearOrder K] [IsStrictOrderedRing K]

/-- A number lies between the least and the greatest of some values. -/
def Between (ys : List K) (s : K) : Prop := (∃ y ∈ ys, y ≤ s) ∧ ∃ y ∈ ys, s ≤ y

/-- One step of an average stays between the average before it and the value taken in. -/
lemma step_mem {a : K} (h0 : 0 ≤ a) (h1 : a ≤ 1) (s y : K) :
    min s y ≤ s * (1 - a) + y * a ∧ s * (1 - a) + y * a ≤ max s y := by
  have hstep : s * (1 - a) + y * a = (1 - a) • s + a • y := by
    rw [smul_eq_mul, smul_eq_mul, mul_comm s, mul_comm y]
  rw [hstep]
  exact ⟨Convex.min_le_combo s y (sub_nonneg.mpr h1) h0 (sub_add_cancel 1 a),
    Convex.combo_le_max s y (sub_nonneg.mpr h1) h0 (sub_add_cancel 1 a)⟩

/-- **An average lies between its values.** -/
theorem between_average {a : K} (h0 : 0 ≤ a) (h1 : a ≤ 1) (x : K) (xs : List K) :
    Between (x :: xs) (average a x xs) := by
  induction xs using List.reverseRecOn with
  | nil => exact ⟨⟨x, List.mem_singleton_self x, le_rfl⟩, ⟨x, List.mem_singleton_self x, le_rfl⟩⟩
  | append_singleton xs y ih =>
      obtain ⟨⟨l, hl, hls⟩, u, hu, hsu⟩ := ih
      obtain ⟨hlow, hhigh⟩ := step_mem h0 h1 (average a x xs) y
      have hy : y ∈ x :: (xs ++ [y]) := by simp
      have hold : ∀ z ∈ x :: xs, z ∈ x :: (xs ++ [y]) := fun z hz =>
        List.mem_append_left [y] hz
      rw [average_concat]
      constructor
      · rcases min_le_iff.mp hlow with h | h
        · exact ⟨l, hold l hl, hls.trans h⟩
        · exact ⟨y, hy, h⟩
      · rcases le_max_iff.mp hhigh with h | h
        · exact ⟨u, hold u hu, h.trans hsu⟩
        · exact ⟨y, hy, h⟩

end Order

end Averaging
