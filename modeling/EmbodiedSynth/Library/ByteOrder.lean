/-
Numbers in memory.

* `Endian`: the two orders in which a machine keeps the bytes of a number.
* `memory`, `load`: the bytes of a number of a given width, and the number some bytes hold;
  `load_memory` and `memory_load` are the round trips.
* `reverse_memory`: the bytes in the other order.
* `load_zeros_append`: the number that zeros and the first bytes of another number hold.
-/
import Mathlib.Data.Nat.Digits.Lemmas
import Mathlib.Tactic

namespace ByteOrder

/-- The order of the bytes of a number in memory. -/
inductive Endian where
  | little
  | big
deriving DecidableEq

namespace Endian

/-- The other order. -/
def other : Endian → Endian
  | little => big
  | big => little

end Endian

/-! ### Least significant byte first -/

/-- The last `n` bytes of a number, the least significant first. -/
def littleEndian : ℕ → ℕ → List UInt8
  | 0, _ => []
  | n + 1, x => UInt8.ofNat x :: littleEndian n (x / 256)

/-- The number with these bytes, the least significant first. -/
def value (bs : List UInt8) : ℕ := Nat.ofDigits 256 (bs.map UInt8.toNat)

@[simp] lemma value_nil : value [] = 0 := rfl

@[simp] lemma value_cons (b : UInt8) (bs : List UInt8) :
    value (b :: bs) = b.toNat + 256 * value bs := by
  simp [value, Nat.ofDigits_cons]

@[simp] lemma length_littleEndian (n x : ℕ) : (littleEndian n x).length = n := by
  induction n generalizing x with
  | zero => rfl
  | succ n ih => rw [littleEndian, List.length_cons, ih]

lemma value_lt (bs : List UInt8) : value bs < 256 ^ bs.length := by
  induction bs with
  | nil => simp
  | cons b bs ih =>
      have hb := b.toNat_lt
      rw [value_cons, List.length_cons, pow_succ]
      omega

lemma value_littleEndian (n x : ℕ) : value (littleEndian n x) = x % 256 ^ n := by
  induction n generalizing x with
  | zero => rw [littleEndian, value_nil, pow_zero, Nat.mod_one]
  | succ n ih =>
      have hbyte : (UInt8.ofNat x).toNat = x % 256 := UInt8.toNat_ofNat'
      rw [littleEndian, value_cons, ih, hbyte, pow_succ', Nat.mod_mul]

lemma littleEndian_value (bs : List UInt8) : littleEndian bs.length (value bs) = bs := by
  induction bs with
  | nil => rfl
  | cons b bs ih =>
      have hb := b.toNat_lt
      have hdiv : (b.toNat + 256 * value bs) / 256 = value bs := by omega
      have hbyte : UInt8.ofNat (b.toNat + 256 * value bs) = b := by
        refine UInt8.toNat_inj.mp ?_
        rw [UInt8.toNat_ofNat']
        omega
      rw [List.length_cons, littleEndian, value_cons, hdiv, hbyte, ih]

/-! ### Memory -/

/-- The `n` bytes of a number in memory. -/
def memory (e : Endian) (n x : ℕ) : List UInt8 :=
  match e with
  | .little => littleEndian n x
  | .big => (littleEndian n x).reverse

/-- The number that bytes in memory hold. -/
def load (e : Endian) (bs : List UInt8) : ℕ :=
  match e with
  | .little => value bs
  | .big => value bs.reverse

@[simp] lemma length_memory (e : Endian) (n x : ℕ) : (memory e n x).length = n := by
  cases e <;> simp [memory]

lemma load_lt (e : Endian) (bs : List UInt8) : load e bs < 256 ^ bs.length := by
  cases e with
  | little => exact value_lt bs
  | big => simpa [load] using value_lt bs.reverse

/-- **What is stored is loaded**, up to the width. -/
theorem load_memory (e : Endian) (n x : ℕ) : load e (memory e n x) = x % 256 ^ n := by
  cases e with
  | little => exact value_littleEndian n x
  | big => rw [load, memory, List.reverse_reverse, value_littleEndian]

/-- **What is loaded is stored.** -/
theorem memory_load (e : Endian) (bs : List UInt8) : memory e bs.length (load e bs) = bs := by
  cases e with
  | little => exact littleEndian_value bs
  | big =>
      have h := littleEndian_value bs.reverse
      rw [List.length_reverse] at h
      rw [load, memory, h, List.reverse_reverse]

/-- The bytes of a number are those of its part of their width. -/
lemma memory_mod (e : Endian) (n x : ℕ) : memory e n (x % 256 ^ n) = memory e n x := by
  have h := memory_load e (memory e n x)
  rwa [length_memory, load_memory] at h

lemma reverse_memory (e : Endian) (n x : ℕ) : (memory e n x).reverse = memory e.other n x := by
  cases e with
  | little => rfl
  | big => rw [memory, List.reverse_reverse]; rfl

lemma load_reverse (e : Endian) (bs : List UInt8) : load e bs.reverse = load e.other bs := by
  cases e with
  | little => rfl
  | big => rw [load, List.reverse_reverse]; rfl

lemma memory_inj {e : Endian} {n x y : ℕ} (hx : x < 256 ^ n) (hy : y < 256 ^ n)
    (h : memory e n x = memory e n y) : x = y := by
  have hload := congrArg (load e) h
  rwa [load_memory, load_memory, Nat.mod_eq_of_lt hx, Nat.mod_eq_of_lt hy] at hload

/-! ### Shifted bytes -/

lemma drop_littleEndian (p n x : ℕ) :
    (littleEndian (p + n) x).drop p = littleEndian n (x / 256 ^ p) := by
  induction p generalizing x with
  | zero => simp
  | succ p ih =>
      rw [show p + 1 + n = p + n + 1 by omega, littleEndian, List.drop_succ_cons, ih,
        Nat.div_div_eq_div_mul, pow_succ']

lemma value_append_zeros (bs : List UInt8) (p : ℕ) :
    value (bs ++ List.replicate p 0) = value bs := by
  induction bs with
  | nil =>
      induction p with
      | zero => rfl
      | succ p ih => rw [List.nil_append] at ih ⊢; rw [List.replicate_succ, value_cons, ih]; rfl
  | cons b bs ih => rw [List.cons_append, value_cons, ih, value_cons]

/-- Zeros before the bytes of a number push its last bytes out: the number is shifted. -/
theorem load_zeros_append (p n x : ℕ) :
    load .big (List.replicate p 0 ++ (memory .big (p + n) x).take n)
      = x / 256 ^ p % 256 ^ n := by
  have htake : (memory .big (p + n) x).take n = (littleEndian n (x / 256 ^ p)).reverse := by
    rw [memory, List.take_reverse, length_littleEndian, Nat.add_sub_cancel, drop_littleEndian]
  rw [htake, load, List.reverse_append, List.reverse_reverse, List.reverse_replicate,
    value_append_zeros, value_littleEndian]

end ByteOrder
