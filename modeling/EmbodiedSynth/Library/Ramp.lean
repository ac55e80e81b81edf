/-
Clamped affine maps.

* `ramp`: the affine map that takes `a` to `lo` and `b` to `hi`, clamped to `[lo, hi]`.
* `ramp_of_le`, `ramp_of_ge`, `ramp_of_mem`: its three pieces.
* `ramp_lt_ramp`: moving the foot of the slope towards its top lowers the slope.
* `ramp_eq_iff`: two ramps with the same top agree exactly off the open slope of the longer.
* `ramp_unit`: the ramp from 0 to 1, whose slope may run in either direction:
  `ramp_unit_mono`, `ramp_unit_lt` along the slope, `ramp_unit_swap` against it.
-/
import Mathlib.Tactic
import Mathlib.Algebra.Order.Field.Basic
import Mathlib.Order.Interval.Set.UnorderedInterval

variable {K : Type*} [Field K] [LinearOrder K] [IsStrictOrderedRing K]

omit [IsStrictOrderedRing K] in
/-- The affine map that takes `a` to `lo` and `b` to `hi`, clamped between them. -/
def ramp (a b lo hi v : K) : K := max lo (min hi (lo + (hi - lo) * ((v - a) / (b - a))))

namespace Ramp

variable {a a' b lo hi v w : K}

/-- Before the slope the ramp is low. -/
lemma ramp_of_le (hab : a < b) (hlh : lo ≤ hi) (hv : v ≤ a) : ramp a b lo hi v = lo := by
  have hratio : (v - a) / (b - a) ≤ 0 :=
    div_nonpos_of_nonpos_of_nonneg (sub_nonpos.mpr hv) (sub_pos.mpr hab).le
  have hline : lo + (hi - lo) * ((v - a) / (b - a)) ≤ lo :=
    add_le_of_nonpos_right (mul_nonpos_of_nonneg_of_nonpos (sub_nonneg.mpr hlh) hratio)
  rw [ramp, max_eq_left ((min_le_right _ _).trans hline)]

/-- Behind the slope it is high. -/
lemma ramp_of_ge (hab : a < b) (hlh : lo ≤ hi) (hv : b ≤ v) : ramp a b lo hi v = hi := by
  have hratio : 1 ≤ (v - a) / (b - a) := (one_le_div (sub_pos.mpr hab)).mpr (by linarith)
  have hline : hi ≤ lo + (hi - lo) * ((v - a) / (b - a)) := by
    have := mul_le_mul_of_nonneg_left hratio (sub_nonneg.mpr hlh)
    linarith
  rw [ramp, min_eq_left hline, max_eq_right hlh]

/-- On the slope it is the affine map. -/
lemma ramp_of_mem (hab : a < b) (hlh : lo ≤ hi) (ha : a ≤ v) (hb : v ≤ b) :
    ramp a b lo hi v = lo + (hi - lo) * ((v - a) / (b - a)) := by
  have hratio0 : 0 ≤ (v - a) / (b - a) :=
    div_nonneg (sub_nonneg.mpr ha) (sub_pos.mpr hab).le
  have hratio1 : (v - a) / (b - a) ≤ 1 := (div_le_one (sub_pos.mpr hab)).mpr (by linarith)
  have hlow : lo ≤ lo + (hi - lo) * ((v - a) / (b - a)) :=
    le_add_of_nonneg_right (mul_nonneg (sub_nonneg.mpr hlh) hratio0)
  have hhigh : lo + (hi - lo) * ((v - a) / (b - a)) ≤ hi := by
    have := mul_le_mul_of_nonneg_left hratio1 (sub_nonneg.mpr hlh)
    linarith
  rw [ramp, min_eq_right hhigh, max_eq_right hlow]

/-- On the open slope, moving its foot towards its top lowers it. -/
lemma ramp_lt_ramp (haa' : a < a') (hab' : a' < b) (hlh : lo < hi) (ha : a < v) (hb : v < b) :
    ramp a' b lo hi v < ramp a b lo hi v := by
  have hpos : 0 < b - a := by linarith
  have hpos' : 0 < b - a' := by linarith
  rw [ramp_of_mem (haa'.trans hab') hlh.le ha.le hb.le]
  rcases le_or_gt v a' with hv | hv
  · rw [ramp_of_le hab' hlh.le hv]
    exact lt_add_of_pos_right _ (mul_pos (sub_pos.mpr hlh) (div_pos (sub_pos.mpr ha) hpos))
  · rw [ramp_of_mem hab' hlh.le hv.le hb.le]
    have hratio : (v - a') / (b - a') < (v - a) / (b - a) := by
      rw [div_lt_div_iff₀ hpos' hpos]
      nlinarith [mul_pos (sub_pos.mpr haa') (sub_pos.mpr hb)]
    have := mul_lt_mul_of_pos_left hratio (sub_pos.mpr hlh)
    linarith

/-- **Two ramps with the same top** agree exactly off the open slope of the longer. -/
theorem ramp_eq_iff (haa' : a < a') (hab' : a' < b) (hlh : lo < hi) :
    ramp a' b lo hi v = ramp a b lo hi v ↔ v ≤ a ∨ b ≤ v := by
  constructor
  · intro h
    by_contra hv
    rw [not_or, not_le, not_le] at hv
    exact (ramp_lt_ramp haa' hab' hlh hv.1 hv.2).ne h
  · rintro (hv | hv)
    · rw [ramp_of_le hab' hlh.le (hv.trans haa'.le), ramp_of_le (haa'.trans hab') hlh.le hv]
    · rw [ramp_of_ge hab' hlh.le hv, ramp_of_ge (haa'.trans hab') hlh.le hv]

/-! ### The unit ramp, in either direction -/

omit [IsStrictOrderedRing K] in
/-- A ramp from 0 to 1 is the clamped fraction of the way from `a` to `b`. -/
lemma ramp_unit (a b v : K) : ramp a b 0 1 v = max 0 (min 1 ((v - a) / (b - a))) := by
  rw [ramp, zero_add, sub_zero, one_mul]

omit [LinearOrder K] [IsStrictOrderedRing K] in
/-- The sign of a fraction of the way. -/
lemma div_eq_mul_div_sq (x : K) {d : K} (hd : d ≠ 0) : x / d = x * d / d ^ 2 := by
  field_simp

lemma ramp_unit_mem (a b v : K) : 0 ≤ ramp a b 0 1 v ∧ ramp a b 0 1 v ≤ 1 := by
  rw [ramp_unit]
  exact ⟨le_max_left _ _, max_le zero_le_one (min_le_left _ _)⟩

/-- Further along the way the fraction is no smaller. -/
lemma fraction_mono (hab : a ≠ b) (h : 0 ≤ (w - v) * (b - a)) :
    (v - a) / (b - a) ≤ (w - a) / (b - a) := by
  have hne : b - a ≠ 0 := sub_ne_zero.mpr hab.symm
  have hdiff : (w - a) / (b - a) - (v - a) / (b - a) = (w - v) * (b - a) / (b - a) ^ 2 := by
    rw [← sub_div, ← div_eq_mul_div_sq _ hne]
    ring
  have hnonneg : 0 ≤ (w - a) / (b - a) - (v - a) / (b - a) := hdiff ▸ by positivity
  linarith

lemma ramp_unit_mono (hab : a ≠ b) (h : 0 ≤ (w - v) * (b - a)) :
    ramp a b 0 1 v ≤ ramp a b 0 1 w := by
  rw [ramp_unit, ramp_unit]
  exact max_le_max le_rfl (min_le_min le_rfl (fraction_mono hab h))

/-- Before the way begins. -/
lemma ramp_unit_eq_zero (hab : a ≠ b) (h : 0 ≤ (a - v) * (b - a)) : ramp a b 0 1 v = 0 := by
  have hle := fraction_mono hab h
  rw [sub_self, zero_div] at hle
  rw [ramp_unit, max_eq_left ((min_le_right _ _).trans hle)]

/-- After it ends. -/
lemma ramp_unit_eq_one (hab : a ≠ b) (h : 0 ≤ (v - b) * (b - a)) : ramp a b 0 1 v = 1 := by
  have hle := fraction_mono hab h
  rw [div_self (sub_ne_zero.mpr hab.symm)] at hle
  rw [ramp_unit, min_eq_left hle, max_eq_right zero_le_one]

/-- Between its ends the fraction is not clamped. -/
lemma ramp_unit_of_mem (hab : a ≠ b) (hv : v ∈ Set.uIcc a b) :
    ramp a b 0 1 v = (v - a) / (b - a) := by
  have hends : 0 ≤ (v - a) * (b - a) ∧ 0 ≤ (b - v) * (b - a) := by
    rcases Set.mem_uIcc.mp hv with ⟨h1, h2⟩ | ⟨h1, h2⟩
    · exact ⟨mul_nonneg (by linarith) (by linarith), mul_nonneg (by linarith) (by linarith)⟩
    · exact ⟨mul_nonneg_of_nonpos_of_nonpos (by linarith) (by linarith),
        mul_nonneg_of_nonpos_of_nonpos (by linarith) (by linarith)⟩
  have hlow := fraction_mono hab hends.1
  have hhigh := fraction_mono hab hends.2
  rw [sub_self, zero_div] at hlow
  rw [div_self (sub_ne_zero.mpr hab.symm)] at hhigh
  rw [ramp_unit, min_eq_right hhigh, max_eq_right hlow]

/-- Between its ends the ramp is strict. -/
lemma ramp_unit_lt (hv : v ∈ Set.uIcc a b) (hw : w ∈ Set.uIcc a b)
    (h : 0 < (w - v) * (b - a)) : ramp a b 0 1 v < ramp a b 0 1 w := by
  have hab : a ≠ b := by
    rintro rfl
    simp at h
  have hne : b - a ≠ 0 := sub_ne_zero.mpr hab.symm
  rw [ramp_unit_of_mem hab hv, ramp_unit_of_mem hab hw, ← sub_pos, ← sub_div,
    div_eq_mul_div_sq _ hne]
  have hdiff : w - a - (v - a) = w - v := by ring
  rw [hdiff]
  positivity

/-- The way back is the complement. -/
lemma ramp_unit_swap (hab : a ≠ b) (v : K) : ramp b a 0 1 v = 1 - ramp a b 0 1 v := by
  have hne : b - a ≠ 0 := sub_ne_zero.mpr hab.symm
  have hne' : a - b ≠ 0 := sub_ne_zero.mpr hab
  have hfraction : (v - b) / (a - b) = 1 - (v - a) / (b - a) := by
    field_simp
    ring
  rw [ramp_unit, ramp_unit, hfraction]
  generalize (v - a) / (b - a) = x
  rcases le_total x 0 with h0 | h0
  · rw [min_eq_left (by linarith), min_eq_right (by linarith), max_eq_right zero_le_one,
      max_eq_left h0, sub_zero]
  rcases le_total x 1 with h1 | h1
  · rw [min_eq_right (by linarith), max_eq_right (by linarith), min_eq_right h1, max_eq_right h0]
  · rw [min_eq_right (by linarith), max_eq_left (by linarith), min_eq_left h1,
      max_eq_right zero_le_one, sub_self]

end Ramp
