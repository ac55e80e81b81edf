/-
Arithmetics whose rounding keeps the order.

* `halfEven_mono`, `BinaryFormat.roundTo_mono`: rounding to an integer and to a format is
  monotone; between two units in the last place lies a power of two that both sides keep.
* `FloatArith.IsFloat`: the numbers a float variable can hold.
* `FloatArith.Regular`: rounding is monotone, and no difference of two floats vanishes;
  `regular_exact` for exact arithmetic, `regular_toArith` for every binary format, which has
  subnormal numbers.
* `Regular.sub_pos`, `Regular.sub_nonpos`: the sign of a difference.
-/
import EmbodiedSynth.Library.Rounding

namespace Rounding

variable {K : Type*} [Field K] [LinearOrder K] [IsStrictOrderedRing K] [FloorRing K]

/-! ### Rounding is monotone -/

omit [IsStrictOrderedRing K] in
/-- The nearest integer is one of the two around the number. -/
lemma floor_le_halfEven (x : K) : ⌊x⌋ ≤ halfEven x ∧ halfEven x ≤ ⌊x⌋ + 1 := by
  rw [halfEven]
  split_ifs <;> omega

lemma halfEven_mono {x y : K} (h : x ≤ y) : halfEven x ≤ halfEven y := by
  rcases (Int.floor_le_floor h).lt_or_eq with hlt | heq
  · exact (floor_le_halfEven x).2.trans (hlt.trans_le (floor_le_halfEven y).1)
  · have hx := Int.floor_add_fract x
    have hy := Int.floor_add_fract y
    have hfract : Int.fract x ≤ Int.fract y := by
      rw [heq] at hx
      linarith
    rw [halfEven, halfEven, heq]
    split_ifs <;> first | omega | (exfalso; linarith)

/-- Ties go to the even side of either sign. -/
lemma halfEven_neg (x : K) : halfEven (-x) = -halfEven x := by
  by_cases h0 : Int.fract x = 0
  · obtain ⟨n, rfl⟩ := Int.fract_eq_zero_iff.mp h0
    rw [← Int.cast_neg, halfEven_intCast, halfEven_intCast]
  · have hfract := Int.fract_neg h0
    have hfloor : ⌊-x⌋ = -⌊x⌋ - 1 := by
      have hx := Int.floor_add_fract x
      have hneg := Int.floor_add_fract (-x)
      have hcast : ((⌊-x⌋ : ℤ) : K) = ((-⌊x⌋ - 1 : ℤ) : K) := by
        push_cast
        linarith
      exact_mod_cast hcast
    have heven : Even (-⌊x⌋ - 1) ↔ ¬ Even ⌊x⌋ := by
      rw [Int.even_sub, even_neg]
      simp
    simp only [halfEven, hfract, hfloor, heven]
    split_ifs <;> first | omega | (exfalso; linarith)

namespace BinaryFormat

variable (F : BinaryFormat)

lemma roundTo_neg (x : K) : F.roundTo (-x) = -F.roundTo x := by
  rw [roundTo, roundTo, unitExp, unitExp, abs_neg, neg_div, halfEven_neg]
  push_cast
  ring

omit [IsStrictOrderedRing K] in
/-- A power of two no smaller than the unit in the last place. -/
lemma zpow_div_unit {e L : ℤ} (h : e ≤ L) :
    (2 : K) ^ L / 2 ^ e = ((2 ^ (L - e).toNat : ℤ) : K) := by
  obtain ⟨k, hk⟩ := Int.le.dest h
  have htoNat : (L - e).toNat = k := by omega
  rw [htoNat, ← hk, zpow_add₀ two_ne_zero, mul_div_cancel_left₀ _ (zpow_ne_zero _ two_ne_zero),
    zpow_natCast]
  push_cast
  rfl

/-- Rounding does not cross a power of two that is a multiple of the unit, from below. -/
lemma roundTo_le_zpow {x : K} {L : ℤ} (h : x ≤ 2 ^ L) (hu : F.unitExp x ≤ L) :
    F.roundTo x ≤ 2 ^ L := by
  have hpos : (0 : K) < 2 ^ F.unitExp x := by positivity
  have hquot : x / 2 ^ F.unitExp x ≤ ((2 ^ (L - F.unitExp x).toNat : ℤ) : K) :=
    (div_le_div_of_nonneg_right h hpos.le).trans_eq (zpow_div_unit hu)
  have hround := halfEven_mono hquot
  rw [halfEven_intCast] at hround
  calc F.roundTo x ≤ ((2 ^ (L - F.unitExp x).toNat : ℤ) : K) * 2 ^ F.unitExp x :=
        mul_le_mul_of_nonneg_right (Int.cast_le.mpr hround) hpos.le
    _ = 2 ^ L := by rw [← zpow_div_unit hu, div_mul_cancel₀ _ hpos.ne']

/-- Nor from above. -/
lemma zpow_le_roundTo {x : K} {L : ℤ} (h : 2 ^ L ≤ x) (hu : F.unitExp x ≤ L) :
    2 ^ L ≤ F.roundTo x := by
  have hpos : (0 : K) < 2 ^ F.unitExp x := by positivity
  have hquot : ((2 ^ (L - F.unitExp x).toNat : ℤ) : K) ≤ x / 2 ^ F.unitExp x :=
    (zpow_div_unit hu).symm.trans_le (div_le_div_of_nonneg_right h hpos.le)
  have hround := halfEven_mono hquot
  rw [halfEven_intCast] at hround
  calc (2 : K) ^ L = ((2 ^ (L - F.unitExp x).toNat : ℤ) : K) * 2 ^ F.unitExp x := by
        rw [← zpow_div_unit hu, div_mul_cancel₀ _ hpos.ne']
    _ ≤ F.roundTo x := mul_le_mul_of_nonneg_right (Int.cast_le.mpr hround) hpos.le

/-- With one unit for both numbers the quotients are rounded; else a power of two lies
between the numbers. -/
lemma roundTo_mono_of_pos {x y : K} (hx : 0 < x) (hxy : x ≤ y) : F.roundTo x ≤ F.roundTo y := by
  have hy : 0 < y := hx.trans_le hxy
  have hlog : Int.log 2 |x| ≤ Int.log 2 |y| := by
    rw [abs_of_pos hx, abs_of_pos hy]
    exact Int.log_mono_right hx hxy
  have hprec := F.le_prec
  by_cases hunit : F.unitExp x = F.unitExp y
  · rw [roundTo, roundTo, hunit]
    gcongr
    exact halfEven_mono (by gcongr)
  · have hlt : Int.log 2 |x| < Int.log 2 |y| ∧ F.unitExp x ≤ Int.log 2 |y|
        ∧ F.unitExp y ≤ Int.log 2 |y| := by
      rw [unitExp, unitExp] at hunit ⊢
      omega
    have hbelow : x ≤ 2 ^ Int.log 2 |y| := by
      calc x = |x| := (abs_of_pos hx).symm
        _ ≤ 2 ^ (Int.log 2 |x| + 1) := (abs_lt_zpow_log x).le
        _ ≤ 2 ^ Int.log 2 |y| := zpow_le_zpow_right₀ (by norm_num) hlt.1
    have habove : (2 : K) ^ Int.log 2 |y| ≤ y := by
      have hlog := Int.zpow_log_le_self (b := 2) (by norm_num) (abs_pos.mpr hy.ne')
      rw [abs_of_pos hy] at hlog ⊢
      exact_mod_cast hlog
    exact (F.roundTo_le_zpow hbelow hlt.2.1).trans (F.zpow_le_roundTo habove hlt.2.2)

/-- **Rounding to a format is monotone.** -/
theorem roundTo_mono {x y : K} (h : x ≤ y) : F.roundTo x ≤ F.roundTo y := by
  have hnonneg : ∀ z : K, 0 ≤ z → 0 ≤ F.roundTo z := F.nearby_roundTo.nonneg
  rcases lt_or_ge 0 x with hx | hx
  · exact F.roundTo_mono_of_pos hx h
  rcases lt_or_ge y 0 with hy | hy
  · have hneg := F.roundTo_mono_of_pos (neg_pos.mpr hy) (neg_le_neg h)
    rw [roundTo_neg, roundTo_neg] at hneg
    exact neg_le_neg_iff.mp hneg
  · have hx' := hnonneg (-x) (neg_nonneg.mpr hx)
    rw [roundTo_neg] at hx'
    exact (neg_nonneg.mp hx').trans (hnonneg y hy)

/-- Overflow keeps the order. -/
theorem roundExt_mono {x y : K} (h : x ≤ y) : F.roundExt x ≤ F.roundExt y := by
  have hround := F.roundTo_mono h
  have hM : (0 : K) < 2 ^ F.maxExp := by positivity
  rw [roundExt, roundExt]
  simp only [abs_lt]
  split_ifs with hx hy hneg hneg' hy hneg'' hy
  · exact ExtNum.fin_le_fin.mpr hround
  · exact absurd ⟨by linarith, by linarith⟩ hy
  · exact ExtNum.fin_le_posInf _
  · exact ExtNum.negInf_le_fin _
  · rfl
  · rfl
  · exact absurd ⟨by linarith, by linarith⟩ hx
  · exact absurd (hround.trans_lt ‹_›) hneg'
  · rfl

omit [IsStrictOrderedRing K] in
/-- A rounded number is a multiple of the smallest unit. -/
lemma exists_roundTo_eq (x : K) : ∃ z : ℤ, F.roundTo x = z * 2 ^ F.minExp := by
  obtain ⟨k, hk⟩ := Int.le.dest (le_max_right (Int.log 2 |x| - ((F.prec : ℤ) - 1)) F.minExp)
  refine ⟨halfEven (x / 2 ^ F.unitExp x) * 2 ^ k, ?_⟩
  rw [roundTo, unitExp, ← hk, zpow_add₀ two_ne_zero, zpow_natCast]
  push_cast
  ring

/-- So the difference of two rounded numbers does not vanish in rounding. -/
lemma roundTo_sub_pos {p q : K} (h : F.roundTo p < F.roundTo q) :
    0 < F.roundTo (F.roundTo q - F.roundTo p) := by
  obtain ⟨m, hm⟩ := F.exists_roundTo_eq p
  obtain ⟨n, hn⟩ := F.exists_roundTo_eq q
  have hunit : (0 : K) < 2 ^ F.minExp := by positivity
  rw [hm, hn] at h ⊢
  have hmn : m + 1 ≤ n := by
    exact_mod_cast lt_of_mul_lt_mul_right h hunit.le
  have hstep : (2 : K) ^ F.minExp ≤ n * 2 ^ F.minExp - m * 2 ^ F.minExp := by
    have hcast : (m : K) + 1 ≤ n := by exact_mod_cast hmn
    rw [← sub_mul]
    exact le_mul_of_one_le_left hunit.le (by linarith)
  have hexp : F.unitExp ((2 : K) ^ F.minExp) ≤ F.minExp := by
    have hprec := F.le_prec
    have hlog : Int.log 2 ((2 : K) ^ F.minExp) = F.minExp := by
      exact_mod_cast Int.log_zpow (R := K) (b := 2) (by norm_num) F.minExp
    rw [unitExp, abs_of_pos hunit, hlog]
    omega
  calc (0 : K) < 2 ^ F.minExp := hunit
    _ ≤ F.roundTo ((2 : K) ^ F.minExp) := F.zpow_le_roundTo le_rfl hexp
    _ ≤ F.roundTo ((n : K) * 2 ^ F.minExp - m * 2 ^ F.minExp) := F.roundTo_mono hstep

end BinaryFormat

end Rounding

namespace FloatArith

open ExtNum Rounding

variable {K : Type*} [Field K] [LinearOrder K] (A : FloatArith K)

/-- A value a float variable can hold: a rounded number, an infinity or NaN. -/
def IsFloat (a : ExtNum K) : Prop := ∀ x, a = .fin x → ∃ p, A.round p = .fin x

lemma isFloat_round (x : K) : A.IsFloat (A.round x) := fun _ h => ⟨x, h⟩

lemma isFloat_intCast {n : ℤ} (h : |n| ≤ 2 ^ 24) : A.IsFloat (.fin (n : K)) := by
  rintro x ⟨⟩
  exact ⟨n, A.round_intCast n h⟩

lemma isFloat_add (a b : ExtNum K) : A.IsFloat (A.add a b) := by
  cases a <;> cases b <;> first | exact A.isFloat_round _ | (rintro x ⟨⟩)

lemma isFloat_sub (a b : ExtNum K) : A.IsFloat (A.sub a b) := A.isFloat_add a b.neg

/-- What a program can rely on when it compares and subtracts rounded numbers. -/
structure Regular : Prop where
  round_mono : ∀ x y, x ≤ y → A.round x ≤ A.round y
  round_sub_pos : ∀ x y p q, A.round p = .fin x → A.round q = .fin y → x < y →
    0 < A.round (y - x)

lemma regular_exact [IsStrictOrderedRing K] (pow : ExtNum K → ExtNum K → ExtNum K) :
    (exact pow).Regular where
  round_mono _ _ h := fin_le_fin.mpr h
  round_sub_pos _ _ _ _ _ _ h := fin_lt_fin.mpr (sub_pos.mpr h)

/-- Subnormal numbers make every binary format regular. -/
theorem regular_toArith [IsStrictOrderedRing K] [FloorRing K] (F : BinaryFormat)
    (pow : ExtNum K → ExtNum K → ExtNum K) : (F.toArith pow).Regular where
  round_mono _ _ h := F.roundExt_mono h
  round_sub_pos := by
    have hround : ∀ p x : K, F.roundExt p = .fin x → F.roundTo p = x := by
      intro p x hp
      rw [BinaryFormat.roundExt] at hp
      split_ifs at hp
      exact fin.inj hp
    intro x y p q hp hq hxy
    rw [← hround p x hp, ← hround q y hq] at hxy ⊢
    have hpos := F.roundTo_sub_pos hxy
    show 0 < F.roundExt _
    rw [BinaryFormat.roundExt]
    split_ifs with hfin hneg
    · exact fin_lt_fin.mpr hpos
    · exact absurd hneg hpos.not_gt
    · exact fin_lt_posInf _

variable {A}

lemma round_zero : A.round 0 = .fin 0 := by
  exact_mod_cast A.round_intCast 0 (by norm_num)

namespace Regular

variable (hA : A.Regular)

include hA

/-- The difference of two floats in order is positive. -/
lemma sub_pos {a b : ExtNum K} (ha : A.IsFloat a) (hb : A.IsFloat b) (h : a < b) :
    0 < A.sub b a := by
  cases a with
  | nan => exact absurd h (not_nan_lt b)
  | posInf => exact absurd h (not_posInf_lt b)
  | negInf =>
      cases b with
      | nan => exact absurd h (not_lt_nan _)
      | negInf => exact absurd h (not_lt_negInf _)
      | fin y => exact fin_lt_posInf _
      | posInf => exact fin_lt_posInf _
  | fin x =>
      cases b with
      | nan => exact absurd h (not_lt_nan _)
      | negInf => exact absurd h (not_lt_negInf _)
      | posInf => exact fin_lt_posInf _
      | fin y =>
          obtain ⟨p, hp⟩ := ha x rfl
          obtain ⟨q, hq⟩ := hb y rfl
          rw [sub_fin]
          exact hA.round_sub_pos x y p q hp hq (fin_lt_fin.mp h)

/-- Against their order it is not, where it is a number. -/
lemma sub_nonpos [IsStrictOrderedRing K] {a b : ExtNum K} (h : ¬ a < b)
    (hne : A.sub b a ≠ nan) : A.sub b a ≤ 0 := by
  cases a with
  | nan => exact absurd (add_nan A b) hne
  | posInf =>
      cases b with
      | nan => exact absurd rfl hne
      | negInf => exact negInf_le_fin _
      | fin y => exact negInf_le_fin _
      | posInf => exact absurd rfl hne
  | negInf =>
      cases b with
      | nan => exact absurd rfl hne
      | negInf => exact absurd rfl hne
      | fin y => exact absurd (negInf_lt_fin y) h
      | posInf => exact absurd rfl h
  | fin x =>
      cases b with
      | nan => exact absurd rfl hne
      | negInf => exact negInf_le_fin _
      | fin y =>
          have hyx : y - x ≤ 0 := by
            have hle := not_lt.mp (mt fin_lt_fin.mpr h)
            linarith
          rw [sub_fin, zero_eq, ← round_zero (A := A)]
          exact hA.round_mono _ _ hyx
      | posInf => exact absurd (fin_lt_posInf x) h

/-- Widening two numbers in order keeps them in order. -/
lemma not_add_lt_sub [IsStrictOrderedRing K] {a b : ExtNum K} (h : ¬ b < a) {c : K}
    (hc : 0 ≤ c) : ¬ A.add b (fin c) < A.sub a (fin c) := by
  cases a with
  | nan => exact not_lt_nan _
  | negInf => exact not_lt_negInf _
  | posInf =>
      cases b with
      | nan => exact not_nan_lt _
      | negInf => exact absurd rfl h
      | fin y => exact absurd (fin_lt_posInf y) h
      | posInf => exact not_posInf_lt _
  | fin x =>
      cases b with
      | nan => exact not_nan_lt _
      | negInf => exact absurd (negInf_lt_fin x) h
      | posInf => exact not_posInf_lt _
      | fin y =>
          have hle : x - c ≤ y + c := by
            have hxy := not_lt.mp (mt fin_lt_fin.mpr h)
            linarith
          rw [add_fin, sub_fin]
          exact not_lt_of_le (hA.round_mono _ _ hle)

end Regular

end FloatArith
