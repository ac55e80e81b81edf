/-
A reading that is mapped to a parameter and then constrained.

* `Rising`: two constants whose difference is positive.
* `map_ne_nan_iff`, `map_le_map`: between such constants the map makes no NaN and keeps the
  order, in every arithmetic that is regular.
* `mapped`: the two statements; `mapped_mem_iff` and `mapped_le_mapped` are the same for both.
* `mapped_exact`: in exact arithmetic the parameter is a ramp, from the reading that is mapped
  to the low bound to the one that is mapped to the high bound.
-/
import EmbodiedSynth.Library.MonotoneArith
import EmbodiedSynth.Library.Ramp
import EmbodiedSynth.Processing.Api

namespace Processing

open ExtNum FloatArith

variable {K : Type*} [Field K] [LinearOrder K] (A : FloatArith K)

/-- Two constants, the first finite, with a positive difference. -/
def Rising (start stop : ExtNum K) : Prop :=
  ∃ a w, start = .fin a ∧ A.sub stop start = .fin w ∧ 0 < w

/-- `map`, then `constrain`. -/
def mapped (value start1 stop1 start2 stop2 low high : ExtNum K) : ExtNum K :=
  constrain (map A value start1 stop1 start2 stop2) low high

/-- NaN goes through both. -/
@[simp] lemma mapped_nan (start1 stop1 start2 stop2 low high : ExtNum K) :
    mapped A .nan start1 stop1 start2 stop2 low high = .nan := by
  simp [mapped, map, constrain]

variable [IsStrictOrderedRing K] {A}

lemma rising_natCast {m n : ℕ} (hmn : m < n) (h : n - m ≤ 2 ^ 24) :
    Rising A (.fin (m : K)) (.fin (n : K)) := by
  refine ⟨m, ((n - m : ℕ) : K), rfl, ?_, Nat.cast_pos.mpr (Nat.sub_pos_of_lt hmn)⟩
  rw [FloatArith.sub_fin, ← Nat.cast_sub hmn.le, A.round_natCast h]

/-- Two fractions that are not too close. -/
lemma rising_literal (hA : A.Precise) {p q : ℚ} (hp : 0 ≤ p) (hpq : p + 1 / 100 ≤ q)
    (hq : q ≤ 9 / 10) : Rising A (literal A p) (literal A q) := by
  have hp' : (0 : K) ≤ p := by exact_mod_cast hp
  have hpq' : (p : K) + ((1 / 100 : ℚ) : K) ≤ q := by exact_mod_cast hpq
  have hq' : (q : K) ≤ ((9 / 10 : ℚ) : K) := by exact_mod_cast hq
  push_cast at hpq' hq'
  obtain ⟨x, hx, hxp⟩ := hA.nearby (p : K) (by rw [abs_of_nonneg hp']; linarith)
  obtain ⟨y, hy, hyq⟩ := hA.nearby (q : K) (by rw [abs_of_nonneg (by linarith)]; linarith)
  rw [abs_le] at hxp hyq
  push_cast at hxp hyq
  obtain ⟨w, hw, hwd⟩ := hA.nearby (y - x) (by
    rw [abs_le]
    constructor <;> linarith)
  rw [abs_le] at hwd
  push_cast at hwd
  refine ⟨x, w, hx, ?_, by linarith⟩
  rw [literal, literal, hx, hy, FloatArith.sub_fin, hw]

/-! ### The map -/

section

variable {start1 stop1 start2 stop2 : ExtNum K} (h1 : Rising A start1 stop1)
  (h2 : Rising A start2 stop2)

include h1 h2

/-- Between constants that rise the map is made of four rounded operations. -/
lemma map_eq_rounded : ∃ a w s w', 0 < w ∧ 0 < w' ∧ ∀ v, map A v start1 stop1 start2 stop2
    = A.rounded (s + ·) (A.rounded (w' * ·) (A.rounded (· / w) (A.rounded (· - a) v))) := by
  obtain ⟨a, w, rfl, hw, hpos⟩ := h1
  obtain ⟨s, w', rfl, hw', hpos'⟩ := h2
  refine ⟨a, w, s, w', hpos, hpos', fun v => ?_⟩
  rw [map, hw, hw', sub_fin_eq, div_fin_eq A hpos, fin_mul_eq A hpos', fin_add_eq]

lemma map_ne_nan {v : ExtNum K} (hv : v ≠ .nan) : map A v start1 stop1 start2 stop2 ≠ .nan := by
  obtain ⟨a, w, s, w', -, -, hmap⟩ := map_eq_rounded h1 h2
  rw [hmap]
  exact A.rounded_ne_nan _ (A.rounded_ne_nan _ (A.rounded_ne_nan _ (A.rounded_ne_nan _ hv)))

lemma map_le_map (hA : A.Regular) {v v' : ExtNum K} (h : v ≤ v') :
    map A v start1 stop1 start2 stop2 ≤ map A v' start1 stop1 start2 stop2 := by
  obtain ⟨a, w, s, w', hw, hw', hmap⟩ := map_eq_rounded h1 h2
  rw [hmap, hmap]
  have hsub := hA.rounded_le_rounded (fun _ _ hxy => sub_le_sub_right hxy a) h
  have hdiv := hA.rounded_le_rounded (fun _ _ hxy => div_le_div_of_nonneg_right hxy hw.le) hsub
  have hmul := hA.rounded_le_rounded (fun _ _ hxy => mul_le_mul_of_nonneg_left hxy hw'.le) hdiv
  exact hA.rounded_le_rounded (fun _ _ hxy => add_le_add_right hxy s) hmul

/-! ### The map and its bounds -/

variable {low high : ExtNum K} (hlow : low ≤ high)

include hlow

lemma mapped_mem {v : ExtNum K} (hv : v ≠ .nan) :
    low ≤ mapped A v start1 stop1 start2 stop2 low high
      ∧ mapped A v start1 stop1 start2 stop2 low high ≤ high :=
  clamp_mem hlow (map_ne_nan h1 h2 hv)

lemma mapped_ne_nan_iff (v : ExtNum K) :
    mapped A v start1 stop1 start2 stop2 low high ≠ .nan ↔ v ≠ .nan := by
  constructor
  · rintro h rfl
    exact h (mapped_nan A _ _ _ _ _ _)
  · intro hv
    exact (ne_nan_of_le (mapped_mem h1 h2 hlow hv).1).2

/-- **The bounds hold of every value but NaN.** -/
theorem mapped_mem_iff (v : ExtNum K) : (low ≤ mapped A v start1 stop1 start2 stop2 low high
    ∧ mapped A v start1 stop1 start2 stop2 low high ≤ high) ↔ v ≠ .nan := by
  rw [← mapped_ne_nan_iff h1 h2 hlow v]
  constructor
  · exact fun h => (ne_nan_of_le h.1).2
  · exact fun h => mapped_mem h1 h2 hlow ((mapped_ne_nan_iff h1 h2 hlow v).mp h)

/-- **A larger value makes no smaller parameter.** -/
theorem mapped_le_mapped (hA : A.Regular) {v v' : ExtNum K} (h : v ≤ v') :
    mapped A v start1 stop1 start2 stop2 low high
      ≤ mapped A v' start1 stop1 start2 stop2 low high :=
  clamp_le_clamp hlow (map_le_map h1 h2 hA h)

end

/-! ### Exact arithmetic -/

/-- **In exact arithmetic the parameter is a ramp** between the readings that are mapped to the
bounds. -/
theorem mapped_exact (pow : ExtNum K → ExtNum K → ExtNum K) {a b s t low high : K} (hab : a < b)
    (hst : s < t) (hlow : low < high) (v : K) :
    mapped (.exact pow) (.fin v) (.fin a) (.fin b) (.fin s) (.fin t) (.fin low) (.fin high)
      = .fin (ramp (a + (b - a) * ((low - s) / (t - s))) (a + (b - a) * ((high - s) / (t - s)))
          low high v) := by
  have hne : b - a ≠ 0 := (sub_pos.mpr hab).ne'
  have hne' : t - s ≠ 0 := (sub_pos.mpr hst).ne'
  have hmap : map (.exact pow) (.fin v) (.fin a) (.fin b) (.fin s) (.fin t)
      = .fin (s + (t - s) * ((v - a) / (b - a))) := by
    simp [map, FloatArith.div_fin _ _ hne]
  have hwidth : high - low ≠ 0 := (sub_pos.mpr hlow).ne'
  have hslope : a + (b - a) * ((high - s) / (t - s)) - (a + (b - a) * ((low - s) / (t - s)))
      = (b - a) * (high - low) / (t - s) := by
    field_simp
    ring
  have hline : low + (high - low) * ((v - (a + (b - a) * ((low - s) / (t - s))))
        / ((b - a) * (high - low) / (t - s))) = s + (t - s) * ((v - a) / (b - a)) := by
    field_simp
    ring
  rw [mapped, hmap, constrain, clamp_fin hlow.le, ramp, hslope, hline]

end Processing
