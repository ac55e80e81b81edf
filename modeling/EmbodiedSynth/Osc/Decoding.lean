/-
The decoder of the OSC library, state by state.

* `Fresh`: a message that waits for its address, new or emptied.
* `decoding`: a message whose address is decoded.
* `fill_address`, `fill_types`, `fill_typePad`, …: what each part of a message does;
  `fill_header` is the way to the data.
* `decodeData_decoding`: the first datum without a value is the one that is set.
-/
import EmbodiedSynth.Osc.Encoding

namespace EmbodiedSynth.Osc.OSCMessage

open Aligned ByteOrder

variable (e : Endian)

lemma fill_append (m : OSCMessage) (bs bs' : List UInt8) :
    m.fill e (bs ++ bs') = (m.fill e bs).fill e bs' := Machine.run_append _ _ _ _

/-- A message that waits for its address. -/
structure Fresh (m : OSCMessage) : Prop where
  decodeState : m.decodeState = .standby
  data : m.data = []
  incomingBuffer : m.incomingBuffer = []

lemma fresh_new : Fresh new := ⟨rfl, rfl, rfl⟩

lemma fresh_empty (m : OSCMessage) : Fresh m.empty := ⟨rfl, rfl, rfl⟩

/-- A message whose address is decoded. -/
def decoding (address : CString) (data : List OSCData) (decodeState : DecodeState)
    (incomingBuffer : List UInt8) : OSCMessage where
  address := some address
  data := data
  error := .ok
  decodeState := decodeState
  incomingBuffer := incomingBuffer

/-! ### The address -/

/-- Up to the null the buffer holds what has come, and a slash is what starts the address. -/
lemma fill_chars {m : OSCMessage} (hm : Fresh m) {chars : List UInt8} (h : 0 ∉ chars) :
    m.fill e chars
      = { m with
          decodeState := if ascii '/' ∈ chars then .address else .standby
          incomingBuffer := chars } := by
  have hstart : m = { m with
      decodeState := if ascii '/' ∈ ([] : List UInt8) then .address else .standby
      incomingBuffer := [] } := by
    obtain ⟨address, data, error, decodeState, incomingBuffer⟩ := m
    obtain ⟨rfl, rfl, rfl⟩ := hm
    simp
  conv_lhs => rw [hstart]
  refine Machine.run_collect (fun pre => { m with
      decodeState := if ascii '/' ∈ pre then .address else .standby
      incomingBuffer := pre }) fun pre b hpre => ?_
  have hb : b ≠ 0 := by
    rintro rfl
    exact h (hpre.subset (by simp))
  by_cases hslash : ascii '/' ∈ pre
  · simp [decode, addToIncomingBuffer, decodeByte, hslash, hb]
  · by_cases hbslash : b = ascii '/'
    · simp [decode, addToIncomingBuffer, decodeByte, hslash, hbslash]
    · simp [decode, addToIncomingBuffer, decodeByte, hslash, hbslash, Ne.symm hbslash]

lemma fill_address {m : OSCMessage} (hm : Fresh m) {address : CString}
    (hslash : ascii '/' ∈ address.chars) :
    m.fill e address.terminated = decoding address [] .addressPadding [] := by
  have hread : cstring (address.chars ++ [0]) = address := cstring_terminated address
  rw [CString.terminated, fill_append, fill_chars e hm address.noNull, if_pos hslash]
  simp [fill, decode, addToIncomingBuffer, decodeByte, decodeAddress, setAddress,
    clearIncomingBuffer, decoding, hread, hm.data]

lemma fill_addressPadding (address : CString) (n : ℕ) (incomingBuffer : List UInt8) :
    (decoding address [] .addressPadding incomingBuffer).fill e (List.replicate n 0)
      = decoding address [] .addressPadding (incomingBuffer ++ List.replicate n 0) := by
  induction n generalizing incomingBuffer with
  | zero => simp [fill]
  | succ n ih =>
      have hstep : decode e (decoding address [] .addressPadding incomingBuffer) 0
          = decoding address [] .addressPadding (incomingBuffer ++ [0]) := by
        have hcomma : (0 : UInt8) ≠ ascii ',' := by decide
        simp [decode, decodeByte, addToIncomingBuffer, decoding, hcomma]
      rw [List.replicate_succ, fill, Machine.run_cons, hstep, ← fill, ih, List.append_assoc]
      rfl

lemma decode_comma (address : CString) (incomingBuffer : List UInt8) :
    decode e (decoding address [] .addressPadding incomingBuffer) (ascii ',')
      = decoding address [] .types [] := by
  simp [decode, decodeByte, addToIncomingBuffer, clearIncomingBuffer, decoding]

/-! ### The types -/

lemma typePad_pos (dataCount : ℕ) : 0 < typePad dataCount := by
  rw [typePad_eq]
  omega

/-- Each type adds a datum. -/
lemma fill_types (address : CString) {types : List UInt8} (h : 0 ∉ types) :
    (decoding address [] .types []).fill e types
      = decoding address (types.map OSCData.ofType) .types types := by
  refine Machine.run_collect (fun pre =>
      decoding address (pre.map OSCData.ofType) .types pre) fun pre b hpre => ?_
  have hb : b ≠ 0 := by
    rintro rfl
    exact h (hpre.subset (by simp))
  have hlen : typePad (pre.length + 1) ≠ 0 := (typePad_pos _).ne'
  simp [decode, decodeByte, addToIncomingBuffer, decodeType, add, testTypes, decoding, hb, hlen]

/-- The padding of the types ends where it is complete. -/
lemma fill_typePad (address : CString) {data : List OSCData} {types : List UInt8}
    (h : types.length = data.length) :
    (decoding address data .types types).fill e (List.replicate (typePad data.length) 0)
      = decoding address data .data [] := by
  obtain ⟨n, hn⟩ : ∃ n, typePad data.length = n + 1 :=
    ⟨typePad data.length - 1, by have := typePad_pos data.length; omega⟩
  have hbefore : (decoding address data .types types).fill e (List.replicate n 0)
      = decoding address data (if n = 0 then .types else .typesPadding)
          (types ++ List.replicate n 0) := by
    have hcollect : Machine.run (decode e) (decoding address data .types (types ++ []))
        (List.replicate n 0) = _ :=
      Machine.run_collect (fun pre => decoding address data
        (if pre.length = 0 then .types else .typesPadding) (types ++ pre)) fun pre b hpre => ?_
    · simpa [fill] using hcollect
    · obtain ⟨hlen, hpre⟩ := List.prefix_replicate_iff.mp hpre
      rw [List.length_append, List.length_singleton] at hlen
      obtain rfl : b = 0 := by
        have hmem : b ∈ pre ++ [b] := by simp
        rw [hpre] at hmem
        exact List.eq_of_mem_replicate hmem
      have hshort : ¬ types.length + (pre.length + 1) = typePad data.length + data.length := by
        omega
      by_cases hnil : pre = []
      · subst hnil
        rw [List.length_nil] at hshort
        simp [decode, decodeByte, addToIncomingBuffer, testTypes, decoding, hshort]
      · simp [decode, decodeByte, addToIncomingBuffer, testTypes, decoding, hnil, hshort]
  have hlast : types.length + (n + 1) = typePad data.length + data.length := by omega
  rw [hn, List.replicate_succ', fill_append, hbefore]
  by_cases hzero : n = 0
  · subst hzero
    simp [fill, decode, decodeByte, addToIncomingBuffer, clearIncomingBuffer, testTypes, decoding,
      hlast]
  · simp [fill, decode, decodeByte, addToIncomingBuffer, clearIncomingBuffer, testTypes, decoding,
      hlast, hzero]

/-- The address and the types of a message, with their padding. -/
def header (address : CString) (types : List UInt8) : List UInt8 :=
  address.terminated ++ List.replicate (padSize (address.chars.length + 1)) 0 ++ [ascii ',']
    ++ types ++ List.replicate (typePad types.length) 0

lemma fill_header {m : OSCMessage} (hm : Fresh m) {address : CString}
    (hslash : ascii '/' ∈ address.chars) {types : List UInt8} (htypes : 0 ∉ types) :
    m.fill e (header address types)
      = decoding address (types.map OSCData.ofType) .data [] := by
  have hcomma : (decoding address [] .addressPadding
      (List.replicate (padSize (address.chars.length + 1)) 0)).fill e [ascii ',']
        = decoding address [] .types [] := decode_comma e address _
  have hlen : types.length = (types.map OSCData.ofType).length := by simp
  have hpad := fill_typePad e address hlen
  rw [List.length_map] at hpad
  rw [header, fill_append, fill_append, fill_append, fill_append, fill_address e hm hslash,
    fill_addressPadding, List.nil_append, hcomma, fill_types e address htypes, hpad]

end EmbodiedSynth.Osc.OSCMessage
