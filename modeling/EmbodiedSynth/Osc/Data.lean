/-
The data of a message of the OSC library, `OSCData.h` and `OSCData.cpp`.

* `OSCData`: a datum, as its constructors leave it: a value of one of the types, or a type
  without a value while a message is being decoded.
* `BigEndian`: the bytes of a word, reversed on a machine that keeps the least significant
  first; `memory_bigEndian` and `bigEndian_load` are what it is for.
* `getInt`, …: the getters, over what they give for a datum of another type.

Numbers of floating point are their bits.  Allocation does not fail here.
-/
import EmbodiedSynth.Library.Aligned
import EmbodiedSynth.Library.ByteOrder

namespace EmbodiedSynth.Osc

open Aligned ByteOrder

inductive OSCErrorCode where
  | ok
  | bufferFull
  | invalidOsc
  | allocFailed
  | indexOutOfBounds
deriving DecidableEq

/-- `osctime_t`. -/
structure OscTime where
  seconds : BitVec 32
  fractionofseconds : BitVec 32
deriving DecidableEq

def zerotime : OscTime := ⟨0, 0⟩

/-- The content of a blob.  Its length and the four bytes of its size are counted by an `int`. -/
@[ext] structure Blob where
  content : List UInt8
  fits : content.length + 4 < 2147483648
deriving DecidableEq

/-- The types that carry their value: nothing follows them. -/
def isFlag (t : UInt8) : Bool := t = ascii 'T' || t = ascii 'F'

/-- A datum.  A `placeholder` has a type and no value yet. -/
inductive OSCData where
  | string (s : CString)
  | int (i : BitVec 32)
  | float (f : BitVec 32)
  | double (d : BitVec 64)
  | time (t : OscTime)
  | boolean (b : Bool)
  | blob (b : Blob)
  | placeholder (t : UInt8) (noFlag : isFlag t = false)
deriving DecidableEq

/-! ### The order of the bytes -/

/-- `BigEndian`, on a machine with the order `e`. -/
def BigEndian (e : Endian) {w : ℕ} (x : BitVec w) : BitVec w :=
  match e with
  | .big => x
  | .little => BitVec.ofNat w (load .little (memory .little (w / 8) x.toNat).reverse)

lemma four_bytes : 8 ∣ 32 := by norm_num

lemma eight_bytes : 8 ∣ 64 := by norm_num

section

variable {w : ℕ}

lemma two_pow_eq (hw : 8 ∣ w) : 2 ^ w = 256 ^ (w / 8) := by
  rw [show 256 = 2 ^ 8 from rfl, ← pow_mul, Nat.mul_div_cancel' hw]

/-- In memory the result of `BigEndian` has its most significant byte first. -/
lemma memory_bigEndian (e : Endian) (hw : 8 ∣ w) (x : BitVec w) :
    memory e (w / 8) (BigEndian e x).toNat = memory .big (w / 8) x.toNat := by
  cases e with
  | big => rfl
  | little =>
      have hlt := load_lt .little (memory .little (w / 8) x.toNat).reverse
      rw [List.length_reverse, length_memory, ← two_pow_eq hw] at hlt
      have hload := memory_load .little (memory .little (w / 8) x.toNat).reverse
      rw [List.length_reverse, length_memory] at hload
      rw [BigEndian, BitVec.toNat_ofNat, Nat.mod_eq_of_lt hlt, hload, reverse_memory]
      rfl

/-- `BigEndian` of a word that was received most significant byte first is the word. -/
lemma bigEndian_load (e : Endian) (hw : 8 ∣ w) {bs : List UInt8} (hbs : bs.length = w / 8) :
    BigEndian e (BitVec.ofNat w (load e bs)) = BitVec.ofNat w (load .big bs) := by
  cases e with
  | big => rfl
  | little =>
      have hlt := load_lt .little bs
      rw [hbs, ← two_pow_eq hw] at hlt
      have hload := memory_load .little bs
      rw [hbs] at hload
      rw [BigEndian, BitVec.toNat_ofNat, Nat.mod_eq_of_lt hlt, hload, load_reverse]
      rfl

/-- A word is back after it was stored on one machine and loaded on another. -/
lemma bigEndian_memory (e e' : Endian) (hw : 8 ∣ w) (x : BitVec w) :
    BigEndian e' (BitVec.ofNat w (load e' (memory e (w / 8) (BigEndian e x).toNat))) = x := by
  rw [bigEndian_load e' hw (length_memory _ _ _), memory_bigEndian e hw, load_memory,
    ← two_pow_eq hw, Nat.mod_eq_of_lt x.isLt, BitVec.ofNat_toNat, BitVec.setWidth_eq]

/-- `BigEndian` undoes itself. -/
lemma bigEndian_bigEndian (e : Endian) (hw : 8 ∣ w) (x : BitVec w) :
    BigEndian e (BigEndian e x) = x := by
  have h := bigEndian_memory e e hw x
  rwa [load_memory, ← two_pow_eq hw, Nat.mod_eq_of_lt (BigEndian e x).isLt, BitVec.ofNat_toNat,
    BitVec.setWidth_eq] at h

end

namespace OSCData

/-- `OSCData(char)`. -/
def ofType (t : UInt8) : OSCData :=
  if h : isFlag t = false then placeholder t h else boolean (t = ascii 'T')

def type : OSCData → UInt8
  | string _ => ascii 's'
  | int _ => ascii 'i'
  | float _ => ascii 'f'
  | double _ => ascii 'd'
  | time _ => ascii 't'
  | boolean b => if b then ascii 'T' else ascii 'F'
  | blob _ => ascii 'b'
  | placeholder t _ => t

/-- The size of the value. -/
def bytes : OSCData → ℕ
  | string s => s.chars.length + 1
  | int _ => 4
  | float _ => 4
  | double _ => 8
  | time _ => 8
  | boolean _ => 0
  | blob b => b.content.length + 4
  | placeholder _ _ => 0

def error : OSCData → OSCErrorCode
  | placeholder _ _ => .invalidOsc
  | _ => .ok

/-! ### Getters

The value where the datum has the type asked for, and a fixed one elsewhere: minus one where
`ESPxx` is defined, zero on the other boards. -/

section

variable (espxx : Bool)

def getInt : OSCData → BitVec 32
  | int i => i
  | _ => if espxx then -1 else 0

def getTime : OSCData → OscTime
  | time t => t
  | _ => zerotime

def getFloat : OSCData → BitVec 32
  | float f => f
  | _ => if espxx then 0xBF800000 else 0

def getDouble : OSCData → BitVec 64
  | double d => d
  | _ => if espxx then 0xBFF0000000000000 else 0

/-- Minus one is true as a `bool`. -/
def getBoolean : OSCData → Bool
  | boolean b => b
  | _ => espxx

end

/-! ### Types and errors -/

/-- A datum is a value or a type that waits for one. -/
lemma error_eq_invalidOsc_iff (d : OSCData) :
    d.error = .invalidOsc ↔ ∃ t h, d = placeholder t h := by
  cases d with
  | placeholder t h => exact iff_of_true rfl ⟨t, h, rfl⟩
  | _ => exact iff_of_false (by simp [error]) (by simp)

@[simp] lemma type_ofType (t : UInt8) : (ofType t).type = t := by
  unfold ofType
  split_ifs with h
  · rfl
  · simp only [isFlag, Bool.or_eq_false_iff, decide_eq_false_iff_not, not_and_or,
      not_not] at h
    rcases h with rfl | rfl
    · rfl
    · rfl

/-- The flags are complete when their type is read, and the others wait for their value. -/
lemma error_ofType (t : UInt8) :
    (ofType t).error = if isFlag t then .ok else .invalidOsc := by
  unfold ofType
  split_ifs with h h' h'
  · exact absurd h (by simp [h'])
  · rfl
  · rfl
  · exact absurd (Bool.eq_false_iff.mpr h') h

/-- A flag is the datum that its type makes. -/
lemma ofType_type_of_boolean (b : Bool) : ofType (boolean b).type = boolean b := by
  cases b <;> rfl

end OSCData

end EmbodiedSynth.Osc
