/-
Operations of an arithmetic that keep the order.

* `FloatArith.rounded`: an operation of the field with rounding, the infinities left alone;
  `Regular.rounded_le_rounded`: it keeps the order where the operation does.
* `sub_fin_eq`, `fin_sub_eq`, `div_fin_eq`, `fin_mul_eq`, `mul_fin_eq`, `fin_add_eq`: the
  operations with one fixed side are of this shape.
* `ExtNum.clamp_le_clamp`: so is the clamp monotone.
* `FloatArith.Precise`: a regular arithmetic that rounds the fractions closely;
  `precise_exact` for exact arithmetic, `precise_toArith` for every binary format.
-/
import EmbodiedSynth.Library.RegularArith

namespace ExtNum

variable {K : Type*} [LinearOrder K]

lemma negInf_le {a : ExtNum K} (ha : a ≠ nan) : negInf ≤ a := by
  cases a with
  | nan => exact absurd rfl ha
  | _ => rfl

lemma le_posInf {a : ExtNum K} (ha : a ≠ nan) : a ≤ posInf := by
  cases a with
  | nan => exact absurd rfl ha
  | _ => rfl

lemma ne_nan_of_le {a b : ExtNum K} (h : a ≤ b) : a ≠ nan ∧ b ≠ nan :=
  ⟨fun ha => not_nan_le b (ha ▸ h), fun hb => not_le_nan a (hb ▸ h)⟩

lemma le_trans {a b c : ExtNum K} (hab : a ≤ b) (hbc : b ≤ c) : a ≤ c := by
  cases b with
  | nan => exact absurd hab (not_le_nan a)
  | negInf =>
      cases a with
      | negInf => exact hbc
      | _ => exact absurd hab Bool.false_ne_true
  | fin y =>
      cases a with
      | nan => exact absurd hab (not_nan_le _)
      | negInf => exact negInf_le (ne_nan_of_le hbc).2
      | posInf => exact absurd hab (not_posInf_le_fin y)
      | fin x =>
          cases c with
          | fin z => exact fin_le_fin.mpr ((fin_le_fin.mp hab).trans (fin_le_fin.mp hbc))
          | posInf => rfl
          | _ => exact absurd hbc Bool.false_ne_true
  | posInf =>
      cases c with
      | posInf => exact hab
      | _ => exact absurd hbc Bool.false_ne_true

lemma le_antisymm {a b : ExtNum K} (hab : a ≤ b) (hba : b ≤ a) : a = b := by
  cases a with
  | nan => exact absurd hab (not_nan_le b)
  | negInf =>
      cases b with
      | negInf => rfl
      | _ => exact absurd hba Bool.false_ne_true
  | fin x =>
      cases b with
      | fin y => exact congrArg fin ((fin_le_fin.mp hab).antisymm (fin_le_fin.mp hba))
      | posInf => exact absurd hba Bool.false_ne_true
      | _ => exact absurd hab Bool.false_ne_true
  | posInf =>
      cases b with
      | posInf => rfl
      | _ => exact absurd hab Bool.false_ne_true

/-- The clamp keeps the order. -/
theorem clamp_le_clamp {a b lo hi : ExtNum K} (hlohi : lo ≤ hi) (h : a ≤ b) :
    clamp a lo hi ≤ clamp b lo hi := by
  obtain ⟨ha, hb⟩ := ne_nan_of_le h
  obtain ⟨hlo, hhi⟩ := ne_nan_of_le hlohi
  have hmem := clamp_mem hlohi hb
  by_cases h₁ : a < lo
  · rw [clamp, if_pos h₁]
    exact hmem.1
  have hlob : ¬ b < lo := (not_lt_iff hb hlo).mpr (le_trans ((not_lt_iff ha hlo).mp h₁) h)
  by_cases h₂ : hi < b
  · rw [clamp.eq_def b, if_neg hlob, if_pos h₂]
    exact (clamp_mem hlohi ha).2
  · have hhia : ¬ hi < a := (not_lt_iff hhi ha).mpr (le_trans h ((not_lt_iff hhi hb).mp h₂))
    rw [clamp, if_neg h₁, if_neg hhia, clamp, if_neg hlob, if_neg h₂]
    exact h

end ExtNum

namespace Rounding.BinaryFormat

variable {K : Type*} [Field K] [LinearOrder K] [IsStrictOrderedRing K] [FloorRing K]
  (F : BinaryFormat)

omit [IsStrictOrderedRing K] in
lemma roundTo_of_roundExt {p x : K} (h : F.roundExt p = .fin x) : F.roundTo p = x := by
  rw [roundExt] at h
  split_ifs at h
  exact ExtNum.fin.inj h

/-- From a power of two on the rounded numbers are multiples of its unit. -/
lemma exists_roundTo_eq_of_le {p : K} {L : ℤ} (hmin : F.minExp ≤ L - ((F.prec : ℤ) - 1))
    (h : 2 ^ L ≤ F.roundTo p) : ∃ z : ℤ, F.roundTo p = z * 2 ^ (L - ((F.prec : ℤ) - 1)) := by
  have hprec := F.le_prec
  have hpos : (0 : K) < 2 ^ L := by positivity
  have hlog : Int.log 2 ((2 : K) ^ L) = L := by
    exact_mod_cast Int.log_zpow (R := K) (b := 2) (by norm_num) L
  rcases le_or_gt p (2 ^ L) with hle | hlt
  · have hunit : F.unitExp ((2 : K) ^ L) ≤ L := by
      rw [unitExp, abs_of_pos hpos, hlog]
      omega
    have heq : F.roundTo p = 2 ^ L :=
      ((F.roundTo_mono hle).trans (F.roundTo_le_zpow le_rfl hunit)).antisymm h
    refine ⟨2 ^ (F.prec - 1), ?_⟩
    have hsplit : L = ((F.prec - 1 : ℕ) : ℤ) + (L - ((F.prec : ℤ) - 1)) := by omega
    rw [heq]
    conv_lhs => rw [hsplit, zpow_add₀ two_ne_zero, zpow_natCast]
    push_cast
    rfl
  · have hunit : L - ((F.prec : ℤ) - 1) ≤ F.unitExp p := by
      have hmono := Int.log_mono_right (b := 2) hpos hlt.le
      rw [hlog] at hmono
      rw [unitExp, abs_of_pos (hpos.trans hlt)]
      exact (by omega : _ ≤ _).trans (le_max_left _ _)
    obtain ⟨k, hk⟩ := Int.le.dest hunit
    refine ⟨halfEven (p / 2 ^ F.unitExp p) * 2 ^ k, ?_⟩
    rw [roundTo, ← hk, zpow_add₀ two_ne_zero, zpow_natCast]
    push_cast
    ring

end Rounding.BinaryFormat

namespace FloatArith

open ExtNum Rounding

variable {K : Type*} [Field K] [LinearOrder K] (A : FloatArith K)

/-- An operation of the field, rounded.  The infinities stay. -/
def rounded (f : K → K) : ExtNum K → ExtNum K
  | nan => nan
  | negInf => negInf
  | fin x => A.round (f x)
  | posInf => posInf

lemma rounded_ne_nan (f : K → K) {a : ExtNum K} (ha : a ≠ nan) : A.rounded f a ≠ nan := by
  cases a with
  | nan => exact absurd rfl ha
  | negInf => exact fun h => by cases h
  | fin x => exact A.round_ne_nan _
  | posInf => exact fun h => by cases h

/-- A rounded operation keeps the order where the operation does. -/
lemma Regular.rounded_le_rounded {A : FloatArith K} (hA : A.Regular) {f : K → K}
    (hf : Monotone f) {a b : ExtNum K} (h : a ≤ b) : A.rounded f a ≤ A.rounded f b := by
  obtain ⟨ha, hb⟩ := ne_nan_of_le h
  cases a with
  | nan => exact absurd rfl ha
  | negInf => exact negInf_le (A.rounded_ne_nan f hb)
  | fin x =>
      cases b with
      | nan => exact absurd rfl hb
      | negInf => exact absurd h (not_fin_le_negInf x)
      | fin y => exact hA.round_mono _ _ (hf (fin_le_fin.mp h))
      | posInf => exact le_posInf (A.round_ne_nan _)
  | posInf =>
      cases b with
      | nan => exact absurd rfl hb
      | negInf => exact absurd h Bool.false_ne_true
      | fin y => exact absurd h (not_posInf_le_fin y)
      | posInf => exact h

lemma round_natCast {n : ℕ} (h : n ≤ 2 ^ 24) : A.round (n : K) = fin (n : K) := by
  have hround := A.round_intCast (n : ℤ) (by rw [Nat.abs_cast]; exact_mod_cast h)
  rwa [Int.cast_natCast] at hround

lemma ofInt_succ {i : ℕ} (h : i + 1 ≤ 2 ^ 24) : A.ofInt (i + 1) = fin ((i + 1 : ℕ) : K) := by
  rw [ofInt, ← A.round_natCast h]
  push_cast
  rfl

/-! ### The operations with a fixed side -/

lemma sub_fin_eq (a : ExtNum K) (c : K) : A.sub a (fin c) = A.rounded (· - c) a := by
  cases a with
  | fin x => exact sub_fin A x c
  | _ => rfl

lemma fin_add_eq (c : K) (a : ExtNum K) : A.add (fin c) a = A.rounded (c + ·) a := by
  cases a <;> rfl

lemma fin_sub_eq (c : K) (a : ExtNum K) : A.sub (fin c) a = A.rounded (c + ·) a.neg :=
  A.fin_add_eq c a.neg

lemma fin_sub_ne_nan_iff (c : K) (a : ExtNum K) : A.sub (fin c) a ≠ nan ↔ a ≠ nan := by
  cases a with
  | nan => exact iff_of_false (fun h => h rfl) fun h => h rfl
  | negInf => exact iff_of_true (fun h => by cases h) fun h => by cases h
  | fin x => exact iff_of_true (A.round_ne_nan _) fun h => by cases h
  | posInf => exact iff_of_true (fun h => by cases h) fun h => by cases h

section

variable {c : K} (hc : 0 < c)

include hc

lemma div_fin_eq (a : ExtNum K) : A.div a (fin c) = A.rounded (· / c) a := by
  cases a with
  | nan => rfl
  | negInf => exact if_neg (not_lt.mpr hc.le)
  | fin x => exact div_fin A x hc.ne'
  | posInf => exact if_neg (not_lt.mpr hc.le)

variable [IsStrictOrderedRing K]

lemma fin_mul_eq (a : ExtNum K) : A.mul (fin c) a = A.rounded (c * ·) a := by
  cases a with
  | nan => rfl
  | negInf => simp [mul, rounded, infOfSign, hc, not_lt.mpr hc.le]
  | fin x => rfl
  | posInf => simp [mul, rounded, infOfSign, hc]

lemma mul_fin_eq (a : ExtNum K) : A.mul a (fin c) = A.rounded (· * c) a := by
  cases a with
  | nan => rfl
  | negInf => simp [mul, rounded, infOfSign, hc, not_lt.mpr hc.le]
  | fin x => rfl
  | posInf => simp [mul, rounded, infOfSign, hc]

end

/-- Negation turns the order around. -/
lemma neg_le_neg [IsStrictOrderedRing K] {a b : ExtNum K} (h : a ≤ b) : b.neg ≤ a.neg := by
  cases a <;> cases b <;> simp [ExtNum.neg] at h ⊢ <;> first | rfl | exact h

/-! ### Fractions -/

/-- A regular arithmetic that rounds the fractions to within a thousandth. -/
structure Precise : Prop extends A.Regular where
  nearby : ∀ x, |x| ≤ 1 → ∃ y, A.round x = .fin y ∧ |y - x| ≤ ((1 / 1000 : ℚ) : K)

variable [IsStrictOrderedRing K]

lemma precise_exact (pow : ExtNum K → ExtNum K → ExtNum K) : (exact pow).Precise where
  toRegular := regular_exact pow
  nearby x _ := by
    refine ⟨x, rfl, ?_⟩
    rw [sub_self, abs_zero]
    exact_mod_cast (show (0 : ℚ) ≤ 1 / 1000 by norm_num)

/-- Every binary format has more digits than that. -/
theorem precise_toArith [FloorRing K] (F : BinaryFormat)
    (pow : ExtNum K → ExtNum K → ExtNum K) : (F.toArith pow).Precise where
  toRegular := regular_toArith F pow
  nearby x hx := by
    have herror := F.nearby_roundTo.error x
    rw [max_eq_right hx] at herror
    have hbound : |F.roundTo x| < 2 ^ F.maxExp := by
      have hlt : |F.roundTo x| < 2 ^ (64 : ℤ) := by
        have htriangle := abs_sub_abs_le_abs_sub (F.roundTo x) x
        norm_num at herror ⊢
        linarith
      exact hlt.trans_le (zpow_le_zpow_right₀ (by norm_num) F.le_maxExp)
    refine ⟨F.roundTo x, if_pos hbound, herror.trans ?_⟩
    push_cast
    norm_num

end FloatArith
