/-
Fields of a binary format: alignment, and texts that end with a null.

* `padding`: the bytes that take a length to the next multiple of the alignment.
* `align`: a field with its padding; `dvd_length_align`.
* `ascii`: a character as a byte.
* `CString`: a text without nulls; `cstring` reads one from memory, up to the first null, and
  `cstring_append` is what it reads from a terminated text.
* `terminated_inj`: a terminated text is not a beginning of another.
-/
import Mathlib.Data.List.Basic
import Mathlib.Data.List.TakeWhile
import Mathlib.Tactic

namespace Aligned

/-! ### Padding -/

/-- The length of the padding after `n` bytes, for the alignment `a`. -/
def padding (a n : ℕ) : ℕ := (a - n % a) % a

lemma padding_lt {a : ℕ} (ha : 0 < a) (n : ℕ) : padding a n < a := Nat.mod_lt _ ha

/-- A length with its padding is a multiple of the alignment. -/
lemma dvd_add_padding {a : ℕ} (ha : 0 < a) (n : ℕ) : a ∣ n + padding a n := by
  have hlt := Nat.mod_lt n ha
  have hn := Nat.div_add_mod n a
  rcases Nat.eq_zero_or_pos (n % a) with hzero | hpos
  · rw [padding, hzero, Nat.sub_zero, Nat.mod_self, Nat.add_zero]
    exact Nat.dvd_of_mod_eq_zero hzero
  · rw [padding, Nat.mod_eq_of_lt (by omega)]
    refine ⟨n / a + 1, ?_⟩
    rw [mul_add, mul_one]
    omega

/-- A field and its padding. -/
def align (a : ℕ) (bs : List UInt8) : List UInt8 := bs ++ List.replicate (padding a bs.length) 0

lemma length_align (a : ℕ) (bs : List UInt8) :
    (align a bs).length = bs.length + padding a bs.length := by
  simp [align]

lemma dvd_length_align {a : ℕ} (ha : 0 < a) (bs : List UInt8) : a ∣ (align a bs).length := by
  rw [length_align]
  exact dvd_add_padding ha _

/-! ### Texts that end with a null -/

/-- A character as a byte. -/
def ascii (c : Char) : UInt8 := UInt8.ofNat c.toNat

/-- A text without nulls. -/
@[ext] structure CString where
  chars : List UInt8
  noNull : 0 ∉ chars
deriving DecidableEq

/-- The text at the beginning of `bs`, up to the first null. -/
def cstring (bs : List UInt8) : CString where
  chars := bs.takeWhile (· ≠ 0)
  noNull := fun h => by simpa using List.mem_takeWhile_imp h

namespace CString

/-- The text with the null that ends it. -/
def terminated (s : CString) : List UInt8 := s.chars ++ [0]

@[simp] lemma length_terminated (s : CString) : s.terminated.length = s.chars.length + 1 := by
  simp [terminated]

end CString

/-- A terminated text is read up to its null, whatever follows. -/
lemma cstring_append (s : CString) (bs : List UInt8) : cstring (s.terminated ++ bs) = s := by
  have hchars : ∀ c ∈ s.chars, decide (c ≠ 0) = true := by
    intro c hc
    simpa using fun h : c = 0 => s.noNull (h ▸ hc)
  refine CString.ext ?_
  change (s.terminated ++ bs).takeWhile (· ≠ 0) = s.chars
  rw [CString.terminated, List.append_assoc, List.takeWhile_append_of_pos hchars]
  simp

@[simp] lemma cstring_terminated (s : CString) : cstring s.terminated = s := by
  simpa using cstring_append s []

/-- Terminated texts that begin in one place are the same, and end in one place. -/
lemma terminated_inj {s t : CString} {xs ys : List UInt8}
    (h : s.terminated ++ xs = t.terminated ++ ys) : s = t ∧ xs = ys := by
  have hst : s = t := by
    have hread := congrArg cstring h
    rwa [cstring_append, cstring_append] at hread
  subst hst
  exact ⟨rfl, List.append_cancel_left h⟩

end Aligned
