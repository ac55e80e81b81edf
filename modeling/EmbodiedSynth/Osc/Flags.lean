/-
A flag between a padded text and a number, in a message of the OSC library.

* `fill_int`: an int is read as soon as the buffer has four bytes.
* `fill_send_of_flags`: the padding of the text is taken for the first bytes of the int.
-/
import EmbodiedSynth.Osc.RoundTrip

namespace EmbodiedSynth.Osc.OSCMessage

open Aligned ByteOrder OSCData

variable (e e' : Endian)

/-- The type of an int. -/
def waitingInt : OSCData := placeholder (ascii 'i') (by decide)

/-- An int is read as soon as the buffer has four bytes. -/
lemma fill_int {done : List OSCData} (h : ∀ d ∈ done, d.error = .ok) (address : CString)
    {buffer w : List UInt8} (hw : buffer.length + w.length = 4) (hnil : w ≠ []) :
    (decoding address (done ++ [waitingInt]) .data buffer).fill e w
      = decoding address (done ++ [int (word e 4 (buffer ++ w))]) .data [] := by
  obtain ⟨pre, b, rfl⟩ : ∃ pre b, w = pre ++ [b] :=
    ⟨_, _, (List.dropLast_append_getLast hnil).symm⟩
  rw [List.length_append, List.length_singleton] at hw
  have hbefore : (decoding address (done ++ [waitingInt]) .data buffer).fill e pre
      = decoding address (done ++ [waitingInt]) .data (buffer ++ pre) := by
    have hcollect : Machine.run (decode e)
        (decoding address (done ++ [waitingInt]) .data (buffer ++ [])) pre = _ :=
      Machine.run_collect (fun p => decoding address (done ++ [waitingInt]) .data (buffer ++ p))
        fun p c hp => ?_
    · simpa [fill] using hcollect
    · have hlen := hp.length_le
      simp only [List.length_append, List.length_singleton] at hlen
      have hshort : (buffer ++ p ++ [c]).length ≠ 4 := by
        simp only [List.length_append, List.length_singleton]
        omega
      have hdecode := decodeData_decoding e h address (ascii 'i') (by decide) []
        (buffer ++ p ++ [c]) c
      rw [show received e (ascii 'i') (buffer ++ p ++ [c]) c = none from if_neg hshort] at hdecode
      rw [← List.append_assoc]
      exact hdecode
  have hfour : (buffer ++ pre ++ [b]).length = 4 := by
    simp only [List.length_append, List.length_singleton]
    omega
  have hdecode := decodeData_decoding e h address (ascii 'i') (by decide) []
    (buffer ++ pre ++ [b]) b
  rw [show received e (ascii 'i') (buffer ++ pre ++ [b]) b
    = some (int (word e 4 (buffer ++ pre ++ [b]))) from if_pos hfour] at hdecode
  rw [fill_append, hbefore, ← List.append_assoc]
  exact hdecode

/-- The word that zeros and the first bytes of another word make. -/
lemma word_zeros_append (i : BitVec 32) {p : ℕ} (hp : p ≤ 4) :
    word e' 4 (List.replicate p 0 ++ (memory .big 4 i.toNat).take (4 - p)) = i >>> (8 * p) := by
  have hlen : (List.replicate p 0 ++ (memory .big 4 i.toNat).take (4 - p)).length = 32 / 8 := by
    rw [List.length_append, List.length_replicate, List.length_take, length_memory]
    omega
  have hload : load .big (List.replicate p 0 ++ (memory .big 4 i.toNat).take (4 - p))
      = i.toNat / 256 ^ p := by
    have hshift := load_zeros_append p (4 - p) i.toNat
    have hlt : i.toNat / 256 ^ p < 256 ^ (4 - p) := by
      rw [Nat.div_lt_iff_lt_mul (by positivity), ← pow_add, Nat.sub_add_cancel hp]
      exact i.isLt
    rwa [Nat.add_sub_cancel' hp, Nat.mod_eq_of_lt hlt] at hshift
  have htake : (List.replicate p 0 ++ (memory .big 4 i.toNat).take (4 - p)).take 4
      = List.replicate p 0 ++ (memory .big 4 i.toNat).take (4 - p) :=
    List.take_of_length_le (by rw [hlen])
  have hword := bigEndian_load e' four_bytes hlen
  rw [hload] at hword
  rw [word, htake]
  refine hword.trans (BitVec.eq_of_toNat_eq ?_)
  have hpow : 2 ^ (8 * p) = 256 ^ p := by rw [pow_mul]; norm_num
  have hle : i.toNat / 256 ^ p < 2 ^ 32 := lt_of_le_of_lt (Nat.div_le_self _ _) i.isLt
  rw [BitVec.toNat_ofNat, BitVec.toNat_ushiftRight, Nat.shiftRight_eq_div_pow, hpow,
    Nat.mod_eq_of_lt hle]

/-- The padding and the int, where the last value is a flag. -/
lemma fill_of_flag {done : List OSCData} {b : Bool} (h : ∀ d ∈ done, d.error = .ok)
    (address : CString) {p : ℕ} (hpos : p ≠ 0) (hp : p < 4) (i : BitVec 32) :
    Complete address (done ++ [boolean b] ++ [int (i >>> (8 * p))])
      ((decoding address (done ++ [boolean b] ++ [waitingInt]) .dataPadding []).fill e'
        (List.replicate p 0 ++ memory .big 4 i.toNat)) := by
  have hdone : ∀ d ∈ done ++ [boolean b], d.error = .ok := by
    rw [List.forall_mem_append, List.forall_mem_singleton]
    exact ⟨h, rfl⟩
  have hvalue : lastValue (done ++ [boolean b] ++ [waitingInt]) = some (boolean b) := by
    rw [lastValue_concat, if_neg (by simp [waitingInt, OSCData.error]), lastValue_concat]
    exact if_pos rfl
  obtain ⟨n, rfl⟩ := Nat.exists_eq_succ_of_ne_zero hpos
  -- the first null of the padding ends it
  have hzero : (decoding address (done ++ [boolean b] ++ [waitingInt]) .dataPadding []).fill e' [0]
      = decoding address (done ++ [boolean b] ++ [waitingInt]) .data [0] :=
    (decode_dataPadding e' address hvalue [] 0).trans
      (if_pos (by simp [OSCData.bytes, padSize]))
  have hlen : (List.replicate n (0 : UInt8)
      ++ (memory .big 4 i.toNat).take (4 - (n + 1))).length = 3 := by
    rw [List.length_append, List.length_replicate, List.length_take, length_memory]
    omega
  have hfour : [(0 : UInt8)].length + (List.replicate n 0
      ++ (memory .big 4 i.toNat).take (4 - (n + 1))).length = 4 := by rw [hlen]; rfl
  have hint := fill_int e' hdone address hfour (fun hnil => by rw [hnil] at hlen; cases hlen)
  have hword := word_zeros_append e' i (p := n + 1) (by omega)
  have hsplit : List.replicate (n + 1) 0 ++ memory .big 4 i.toNat
      = [0] ++ ((List.replicate n 0 ++ (memory .big 4 i.toNat).take (4 - (n + 1)))
        ++ (memory .big 4 i.toNat).drop (4 - (n + 1))) := by
    rw [List.append_assoc, List.take_append_drop]
    rfl
  rw [← List.append_assoc, List.singleton_append, ← List.replicate_succ, hword] at hint
  rw [hsplit, fill_append, fill_append, hzero, hint]
  refine fill_of_complete e' ?_ ⟨_, _, rfl, Or.inl rfl⟩ _
  rw [List.forall_mem_append, List.forall_mem_singleton]
  exact ⟨hdone, rfl⟩

/-- A text, flags and an int. -/
def textFlagsInt (s : CString) (flags : List Bool) (b : Bool) (i : BitVec 32) : List OSCData :=
  string s :: flags.map boolean ++ [boolean b] ++ [int i]

section

variable (s : CString) (flags : List Bool) (b : Bool) (i : BitVec 32)

lemma error_text_flags : ∀ d ∈ string s :: flags.map boolean, d.error = .ok := by
  rw [List.forall_mem_cons, List.forall_mem_map]
  exact ⟨rfl, fun _ _ => rfl⟩

lemma error_textFlagsInt : ∀ d ∈ textFlagsInt s flags b i, d.error = .ok := by
  rw [textFlagsInt, List.forall_mem_append, List.forall_mem_append, List.forall_mem_singleton,
    List.forall_mem_singleton]
  exact ⟨⟨error_text_flags s flags, rfl⟩, rfl⟩

/-- Before the bytes the flags are there. -/
lemma map_pending_textFlagsInt : (textFlagsInt s flags b i).map pending
    = [] ++ (string s).pending :: (flags.map boolean ++ [boolean b] ++ [waitingInt]) := by
  have hflags : (flags.map boolean).map pending = flags.map boolean := by
    rw [List.map_map]
    exact List.map_congr_left fun c _ => pending_boolean c
  rw [textFlagsInt, List.map_append, List.map_append, List.map_cons, hflags]
  simp only [List.map_cons, List.map_nil, pending_boolean]
  rfl

lemma flatMap_send_textFlagsInt : (textFlagsInt s flags b i).flatMap (OSCData.send e)
    = (string s).content e
      ++ (List.replicate (padSize (s.chars.length + 1)) 0 ++ memory .big 4 i.toNat) := by
  have hflags : (flags.map boolean).flatMap (OSCData.send e) = [] := by
    rw [List.flatMap_eq_nil_iff]
    intro d hd
    obtain ⟨c, -, rfl⟩ := List.mem_map.mp hd
    rfl
  have hint : (int i).send e = memory .big 4 i.toNat := memory_bigEndian e four_bytes i
  rw [textFlagsInt, List.flatMap_append, List.flatMap_append, List.flatMap_cons, hflags,
    List.flatMap_singleton, List.flatMap_singleton, hint, List.append_nil, send_eq_content]
  simp [OSCData.send, isPadded, OSCData.bytes]

variable {s}

/-- **A flag behind a padded text shifts an int that follows**: the padding of the text is
taken for its first bytes.  The message that is read has no error. -/
theorem fill_send_of_flags (hpad : padSize (s.chars.length + 1) ≠ 0) {address : CString}
    (hslash : ascii '/' ∈ address.chars) {m m₀ : OSCMessage} (hm₀ : Fresh m₀)
    (haddress : m.address = some address) (herror : m.error = .ok)
    (hdata : m.data = textFlagsInt s flags b i) :
    ∃ bs, m.send e = some bs ∧ (m₀.fill e' bs).hasError = false ∧ (m₀.fill e' bs).data
      = textFlagsInt s flags b (i >>> (8 * padSize (s.chars.length + 1))) := by
  have hlt : padSize (s.chars.length + 1) < 4 := by
    rw [padSize_eq]
    exact padding_lt (by norm_num) _
  have hok := error_textFlagsInt s flags b i
  have herr : m.hasError = false :=
    (hasError_eq_false_iff m).mpr ⟨herror, hdata ▸ hok⟩
  refine ⟨written e address m.data, by rw [send, herr, haddress]; rfl, ?_⟩
  -- the text is read, and the decoder expects its padding
  have htext := fill_content e e' (List.forall_mem_nil _) address (d := string s) rfl rfl
    (by simp [emptyBlob]) (flags.map boolean ++ [boolean b] ++ [waitingInt])
  rw [if_pos (show (string s).isPadded = true from rfl)] at htext
  obtain ⟨decodeState, buffer, hrest, -⟩ :=
    fill_of_flag e' (b := b) (error_text_flags s flags) address hpad hlt i
  rw [hdata, written_eq_header, fill_append, fill_header e' hm₀ hslash (zero_notMem_types hok),
    flatMap_send_textFlagsInt, fill_append, List.map_map]
  have hread : fill e' (fill e' (decoding address ((textFlagsInt s flags b i).map pending) .data [])
      ((string s).content e)) (List.replicate (padSize (s.chars.length + 1)) 0
        ++ memory .big 4 i.toNat)
      = decoding address (textFlagsInt s flags b (i >>> (8 * padSize (s.chars.length + 1))))
          decodeState buffer := by
    rw [map_pending_textFlagsInt, htext]
    exact hrest
  refine ⟨?_, congrArg OSCMessage.data hread⟩
  refine (congrArg hasError hread).trans ?_
  rw [hasError_eq_false_iff]
  exact ⟨rfl, error_textFlagsInt s flags b _⟩

end

/-- A letter, a flag and the largest `int`. -/
theorem fill_send_of_flags_letter :
    ∃ bs, { ofAddress ⟨[47], by decide⟩ with
        data := textFlagsInt ⟨[97], by decide⟩ [] true 2147483647 }.send .little = some bs
      ∧ (new.fill .big bs).hasError = false ∧ (new.fill .big bs).data
        = textFlagsInt ⟨[97], by decide⟩ [] true (2147483647 >>> (8 * padSize 2)) :=
  fill_send_of_flags .little .big [] true 2147483647 (by decide) (by decide)
    fresh_new rfl rfl rfl

end EmbodiedSynth.Osc.OSCMessage
