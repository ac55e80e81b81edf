/-
What the decoder of the OSC library makes of the bytes of one datum.

* `OSCData.content`: the bytes of a datum, without padding; `send_eq_content`.
* `received_of_prefix`: a part of them is no value yet.
* `received_content`: all of them are the datum, whichever machines write and read them; a
  blob without content is the exception.
-/
import EmbodiedSynth.Osc.Encoding

namespace EmbodiedSynth.Osc

open Aligned ByteOrder

namespace OSCData

/-- The bytes of a datum without their padding. -/
def content (e : Endian) : OSCData → List UInt8
  | string s => s.terminated
  | blob b => memory e 4 (BigEndian e (BitVec.ofNat 32 b.content.length)).toNat ++ b.content
  | d => d.send e

/-- The types whose bytes are padded. -/
def isPadded : OSCData → Bool
  | string _ => true
  | blob _ => true
  | _ => false

lemma send_eq_content (e : Endian) (d : OSCData) :
    d.send e = d.content e ++ List.replicate (if d.isPadded then padSize d.bytes else 0) 0 := by
  cases d with
  | string s => rfl
  | blob b => rfl
  | _ => simp [content, isPadded]

lemma isPadded_iff {d : OSCData} (h : d.error = .ok) :
    d.isPadded = true ↔ d.type = ascii 's' ∨ d.type = ascii 'b' := by
  cases d with
  | placeholder t noFlag => cases h
  | boolean b => cases b <;> simp [isPadded, type, ascii]
  | _ => simp [isPadded, type, ascii]

/-- The text without characters. -/
def emptyString : OSCData := string ⟨[], List.not_mem_nil⟩

/-- The blob without content. -/
def emptyBlob : OSCData := blob ⟨[], by norm_num⟩

end OSCData

namespace OSCMessage

variable (e e' : Endian)

/-! ### The buffer -/

/-- A word that was written on one machine is read on another. -/
lemma word_append {n : ℕ} (x : BitVec (8 * n)) (bs : List UInt8) :
    word e' n (memory e n (BigEndian e x).toNat ++ bs) = x := by
  have h := bigEndian_memory e e' (dvd_mul_right 8 n) x
  rw [Nat.mul_div_cancel_left n (by norm_num)] at h
  rw [word, List.take_left' (length_memory _ _ _), h]

lemma word_memory {n : ℕ} (x : BitVec (8 * n)) :
    word e' n (memory e n (BigEndian e x).toNat) = x := by
  have h := word_append e e' x []
  rwa [List.append_nil] at h

/-- A beginning of the bytes is shorter, or all of them. -/
lemma length_lt_of_prefix {pre w : List UInt8} (h : pre <+: w) (hne : pre ≠ w) :
    pre.length < w.length :=
  lt_of_le_of_ne h.length_le fun hlen => hne (h.eq_of_length hlen)

/-- The size of a blob is a positive `int`. -/
lemma toInt_length (c : Blob) :
    (BitVec.ofNat 32 c.content.length + 4).toInt = (c.content.length : ℤ) + 4 := by
  have hfits := c.fits
  have hnat : (BitVec.ofNat 32 c.content.length + 4).toNat = c.content.length + 4 := by
    rw [BitVec.toNat_add, BitVec.toNat_ofNat]
    change (c.content.length % 2 ^ 32 + 4) % 2 ^ 32 = _
    omega
  rw [BitVec.toInt_eq_toNat_of_lt (by omega), hnat]
  rfl

/-! ### A part of the bytes -/

lemma received_of_prefix {d : OSCData} (h : d.error = .ok) {pre : List UInt8} {b : UInt8}
    (hpre : pre ++ [b] <+: d.content e) (hne : pre ++ [b] ≠ d.content e) :
    received e' d.type (pre ++ [b]) b = none := by
  have hlt := length_lt_of_prefix hpre hne
  cases d with
  | placeholder t noFlag => cases h
  | boolean b => exact absurd hlt (by simp [OSCData.content, OSCData.send])
  | int i =>
      have hlen : (pre ++ [b]).length ≠ 4 := by
        simp only [OSCData.content, OSCData.send, length_memory] at hlt
        omega
      exact if_neg hlen
  | float f =>
      have hlen : (pre ++ [b]).length ≠ 4 := by
        simp only [OSCData.content, OSCData.send, length_memory] at hlt
        omega
      exact if_neg hlen
  | double x =>
      have hlen : (pre ++ [b]).length ≠ 8 := by
        simp only [OSCData.content, OSCData.send, length_memory] at hlt
        omega
      exact if_neg hlen
  | time t =>
      have hlen : (pre ++ [b]).length ≠ 8 := by
        simp only [OSCData.content, OSCData.send, List.length_append, length_memory] at hlt
        rw [List.length_append]
        omega
      exact if_neg hlen
  | string s =>
      have hchars : pre ++ [b] <+: s.chars := by
        refine List.prefix_of_prefix_length_le hpre (List.prefix_append s.chars [0]) ?_
        simp only [OSCData.content, CString.length_terminated] at hlt
        omega
      have hb : b ≠ 0 := by
        rintro rfl
        exact s.noNull (hchars.subset (by simp))
      exact if_neg hb
  | blob c =>
      have hfits := c.fits
      simp only [OSCData.content, List.length_append, length_memory] at hlt
      have hreceived : ∀ buffer : List UInt8, buffer <+: (OSCData.blob c).content e →
          buffer.length < c.content.length + 4 →
          received e' (OSCData.blob c).type buffer b = none := by
        intro buffer hbuffer hshort
        by_cases hfour : buffer.length > 4
        · obtain ⟨rest, hrest⟩ : memory e 4 (BigEndian e (BitVec.ofNat 32 c.content.length)).toNat
              <+: buffer :=
            List.prefix_of_prefix_length_le (List.prefix_append _ _) hbuffer
              (by rw [length_memory]; omega)
          have hlen : ¬ (buffer.length : ℤ) = (word e' 4 buffer + 4).toInt := by
            rw [← hrest, word_append, hrest, toInt_length c]
            omega
          exact (if_pos hfour).trans (dif_neg hlen)
        · exact if_neg hfour
      exact hreceived _ hpre (by simp only [List.length_append]; omega)

/-! ### All of the bytes -/

/-- **The bytes of a datum are read as the datum**, whichever machines write and read them. -/
lemma received_content {d : OSCData} (h : d.error = .ok) (hblob : d ≠ OSCData.emptyBlob)
    {pre : List UInt8} {b : UInt8} (hpre : pre ++ [b] = d.content e) :
    received e' d.type (pre ++ [b]) b = some d := by
  cases d with
  | placeholder t noFlag => cases h
  | boolean b => exact absurd hpre (by simp [OSCData.content, OSCData.send])
  | int i =>
      have hlen : (pre ++ [b]).length = 4 := by rw [hpre]; exact length_memory _ _ _
      refine (if_pos hlen).trans ?_
      rw [hpre]
      exact congrArg (some ∘ OSCData.int) (word_memory e e' (n := 4) i)
  | float f =>
      have hlen : (pre ++ [b]).length = 4 := by rw [hpre]; exact length_memory _ _ _
      refine (if_pos hlen).trans ?_
      rw [hpre]
      exact congrArg (some ∘ OSCData.float) (word_memory e e' (n := 4) f)
  | double x =>
      have hlen : (pre ++ [b]).length = 8 := by rw [hpre]; exact length_memory _ _ _
      refine (if_pos hlen).trans ?_
      rw [hpre]
      exact congrArg (some ∘ OSCData.double) (word_memory e e' (n := 8) x)
  | time t =>
      have hlen : (pre ++ [b]).length = 8 := by
        rw [hpre]
        simp [OSCData.content, OSCData.send]
      have hseconds := word_append e e' (n := 4) t.seconds
        (memory e 4 (BigEndian e t.fractionofseconds).toNat)
      have hfraction := word_memory e e' (n := 4) t.fractionofseconds
      have htime : pre ++ [b] = memory e 4 (BigEndian e t.seconds).toNat
          ++ memory e 4 (BigEndian e t.fractionofseconds).toNat := hpre
      refine (if_pos hlen).trans ?_
      rw [htime, List.drop_left' (length_memory _ _ _), hseconds, hfraction]
  | string s =>
      have hb : b = 0 := by
        have hlast := congrArg List.getLast? hpre
        simpa [OSCData.content, CString.terminated] using hlast
      refine (if_pos hb).trans ?_
      rw [hpre]
      exact congrArg (some ∘ OSCData.string) (cstring_terminated s)
  | blob c =>
      have hlen : (pre ++ [b]).length = c.content.length + 4 := by
        rw [hpre]
        simp [OSCData.content, Nat.add_comm]
      have hpos : c.content ≠ [] := by
        rintro hnil
        obtain ⟨content, fits⟩ := c
        cases hnil
        exact hblob rfl
      have hfour : (pre ++ [b]).length > 4 := by
        have := List.length_pos_iff.mpr hpos
        omega
      have hword : word e' 4 (pre ++ [b]) = BitVec.ofNat 32 c.content.length := by
        rw [hpre]
        exact word_append e e' (n := 4) _ _
      have hint : ((pre ++ [b]).length : ℤ) = (word e' 4 (pre ++ [b]) + 4).toInt := by
        rw [hword, hlen, toInt_length c]
        rfl
      have htake : ((pre ++ [b]).drop 4).take (word e' 4 (pre ++ [b])).toNat = c.content := by
        have hfits := c.fits
        rw [hword, hpre, OSCData.content, List.drop_left' (length_memory _ _ _),
          BitVec.toNat_ofNat, Nat.mod_eq_of_lt (by omega), List.take_length]
      refine (if_pos hfour).trans ((dif_pos hint).trans ?_)
      rw [Option.some.injEq, OSCData.blob.injEq]
      exact Blob.ext htake

end OSCMessage

end EmbodiedSynth.Osc
