/-
What a message of the OSC library is on the wire.

* `OSCData.argument`, `arguments`: the data with a value, as arguments of the format.
* `send_eq_message`: a message without an error writes the bytes of the format, and `bytes()`
  counts them.
* `eq_of_send_eq`: messages that write the same have the same address and the same data.
-/
import EmbodiedSynth.Library.OscFormat
import EmbodiedSynth.Osc.Message

namespace EmbodiedSynth.Osc

open Aligned ByteOrder OscFormat

/-! ### The data as arguments -/

/-- The argument of the format that a datum is. -/
def OSCData.argument : OSCData → Option Argument
  | .string s => some (.string s)
  | .int i => some (.int32 i)
  | .float f => some (.float32 f)
  | .double d => some (.float64 d)
  | .time t => some (.timeTag t.seconds t.fractionofseconds)
  | .boolean b => some (.bool b)
  | .blob b => some (.blob b.content (lt_trans (Nat.lt_of_add_right_lt b.fits) (by norm_num)))
  | .placeholder _ _ => none

/-- The arguments of a message. -/
def arguments (data : List OSCData) : List Argument := data.filterMap OSCData.argument

lemma padSize_eq (n : ℕ) : padSize n = padding 4 n := by
  rw [padSize, padding, show 3 = 2 ^ 2 - 1 from rfl, Nat.and_two_pow_sub_one_eq_mod,
    Nat.and_two_pow_sub_one_eq_mod]

/-- The nulls after the types end their text and align it. -/
lemma typePad_eq (dataCount : ℕ) : typePad dataCount = 1 + padding 4 (dataCount + 2) := by
  simp only [typePad, padSize_eq, padding]
  split_ifs <;> omega

namespace OSCData

lemma exists_argument {d : OSCData} (h : d.error = .ok) : ∃ x, d.argument = some x := by
  cases d with
  | placeholder t noFlag => cases h
  | _ => exact ⟨_, rfl⟩

lemma type_eq_tag {d : OSCData} {x : Argument} (h : d.argument = some x) : d.type = x.tag := by
  cases d with
  | placeholder t noFlag => cases h
  | boolean b => cases b <;> cases h <;> rfl
  | _ => cases h; rfl

/-- A datum is written as the payload of its argument, whatever the machine. -/
lemma send_eq_payload (e : Endian) {d : OSCData} {x : Argument} (h : d.argument = some x) :
    d.send e = x.payload := by
  cases d with
  | placeholder t noFlag => cases h
  | string s =>
      cases h
      rw [send, Argument.payload, text, align, padSize_eq, CString.length_terminated]
      rfl
  | blob b =>
      cases h
      have hfits := b.fits
      have hlen : (BitVec.ofNat 32 b.content.length).toNat = b.content.length := by
        rw [BitVec.toNat_ofNat, Nat.mod_eq_of_lt (by omega)]
      have hmemory := memory_bigEndian e four_bytes (BitVec.ofNat 32 b.content.length)
      rw [hlen] at hmemory
      rw [send, hmemory, padSize_eq, Argument.payload, align, List.length_append, length_memory,
        bytes, Nat.add_comm]
  | time t =>
      cases h
      exact congrArg₂ _ (memory_bigEndian e four_bytes _) (memory_bigEndian e four_bytes _)
  | double d => cases h; exact memory_bigEndian e eight_bytes d
  | int i => cases h; exact memory_bigEndian e four_bytes i
  | float f => cases h; exact memory_bigEndian e four_bytes f
  | boolean b => cases h; rfl

lemma bytes_eq_length {d : OSCData} {x : Argument} (h : d.argument = some x) :
    d.bytes + padSize d.bytes = x.payload.length := by
  rw [padSize_eq]
  cases d with
  | placeholder t noFlag => cases h
  | string s =>
      cases h
      rw [Argument.payload, text, length_align, CString.length_terminated, bytes]
  | blob b =>
      cases h
      rw [Argument.payload, length_align, List.length_append, length_memory, bytes,
        Nat.add_comm 4]
  | _ => cases h; simp [bytes, padding, Argument.payload]

/-- The datum of an argument, if an `int` counts its bytes. -/
def ofArgument : Argument → Option OSCData
  | .string s => some (string s)
  | .int32 n => some (int n)
  | .float32 x => some (float x)
  | .float64 x => some (double x)
  | .timeTag seconds fraction => some (time ⟨seconds, fraction⟩)
  | .bool b => some (boolean b)
  | .blob content _ =>
      if h : content.length + 4 < 2147483648 then some (blob ⟨content, h⟩) else none

lemma ofArgument_eq {d : OSCData} {x : Argument} (h : d.argument = some x) :
    ofArgument x = some d := by
  cases d with
  | placeholder t noFlag => cases h
  | blob b => cases h; exact dif_pos b.fits
  | _ => cases h; rfl

end OSCData

/-- What is the same for a datum and its argument is the same for the data and the arguments. -/
lemma map_arguments {α : Type*} {f : OSCData → α} {g : Argument → α}
    (hfg : ∀ d x, d.argument = some x → f d = g x) {data : List OSCData}
    (h : ∀ d ∈ data, d.error = .ok) : data.map f = (arguments data).map g := by
  induction data with
  | nil => rfl
  | cons d data ih =>
      rw [List.forall_mem_cons] at h
      obtain ⟨x, hx⟩ := OSCData.exists_argument h.1
      rw [arguments, List.filterMap_cons_some hx, List.map_cons, List.map_cons, hfg d x hx, ih h.2]
      rfl

lemma arguments_inj {data data' : List OSCData} (h : ∀ d ∈ data, d.error = .ok)
    (h' : ∀ d ∈ data', d.error = .ok) (heq : arguments data = arguments data') :
    data = data' := by
  have hback : ∀ d x, OSCData.argument d = some x → some d = OSCData.ofArgument x :=
    fun d x hd => (OSCData.ofArgument_eq hd).symm
  have hmap := map_arguments hback h
  rw [heq, ← map_arguments hback h'] at hmap
  exact List.map_injective_iff.mpr (Option.some_injective _) hmap

namespace OSCMessage

lemma hasError_eq_false_iff (m : OSCMessage) :
    m.hasError = false ↔ m.error = .ok ∧ ∀ d ∈ m.data, d.error = .ok := by
  simp [hasError]

/-! ### The bytes of a message -/

lemma written_eq_message (e : Endian) (address : CString) {data : List OSCData}
    (h : ∀ d ∈ data, d.error = .ok) :
    written e address data = message address (arguments data) := by
  have htypes := map_arguments (fun d x => OSCData.type_eq_tag) h
  have hsend := map_arguments (fun d x => OSCData.send_eq_payload e) h
  have hlen : data.length = (arguments data).length := by
    simpa using congrArg List.length htypes
  rw [written, message, text, text, align, align, tags, List.flatMap_def, hsend, ← List.flatMap_def,
    htypes, typePad_eq, padSize_eq, hlen, List.replicate_add]
  simp [CString.terminated]

lemma size_eq_length (address : CString) {data : List OSCData}
    (h : ∀ d ∈ data, d.error = .ok) :
    size address data = (message address (arguments data)).length := by
  have hbytes := map_arguments (fun d x => OSCData.bytes_eq_length) h
  have hlen : data.length = (arguments data).length := by
    simpa using congrArg List.length hbytes
  rw [size, hbytes, typePad_eq, padSize_eq, hlen, message, List.length_append, List.length_append,
    text, text, length_align, length_align, List.length_flatMap, CString.length_terminated,
    CString.length_terminated, tags, List.length_cons, List.length_map, Nat.add_assoc _ 1 1]
  omega

/-- **A message without an error writes the bytes of the format**, the same on every machine;
`bytes()` counts them, and they are words of four. -/
theorem send_eq_message (e : Endian) {m : OSCMessage} {address : CString}
    (haddress : m.address = some address) (h : m.hasError = false) :
    m.send e = some (message address (arguments m.data))
      ∧ m.bytes = some (message address (arguments m.data)).length
      ∧ 4 ∣ (message address (arguments m.data)).length := by
  have hdata := ((hasError_eq_false_iff m).mp h).2
  refine ⟨?_, ?_, four_dvd_length_message _ _⟩
  · rw [send, h, haddress, ← written_eq_message e address hdata]
    rfl
  · rw [bytes, haddress, ← size_eq_length address hdata]
    rfl

/-- The message with the address `/` and the number five. -/
def five : OSCMessage := (ofAddress ⟨[47], by decide⟩).add (.int 5)

theorem send_eq_message_five :
    five.send .little = some (message ⟨[47], by decide⟩ [.int32 5])
      ∧ five.bytes = some (message ⟨[47], by decide⟩ [.int32 5]).length
      ∧ 4 ∣ (message ⟨[47], by decide⟩ [.int32 5]).length :=
  send_eq_message .little rfl (by decide)

/-- **Messages that write the same are the same**: neither an address nor a datum can be taken
for another. -/
theorem eq_of_send_eq (e e' : Endian) {m m' : OSCMessage} {address address' : CString}
    (haddress : m.address = some address) (haddress' : m'.address = some address')
    (h : m.hasError = false) (h' : m'.hasError = false) (hsend : m.send e = m'.send e') :
    m.address = m'.address ∧ m.data = m'.data := by
  have hdata := ((hasError_eq_false_iff m).mp h).2
  have hdata' := ((hasError_eq_false_iff m').mp h').2
  simp only [send, h, h', haddress, haddress', Option.map_some, Bool.false_eq_true, if_false,
    Option.some.injEq] at hsend
  rw [written_eq_message e address hdata, written_eq_message e' address' hdata'] at hsend
  obtain ⟨rfl, harguments⟩ := message_inj hsend
  exact ⟨haddress.trans haddress'.symm, arguments_inj hdata hdata' harguments⟩

/-- A message that is emptied and filled again, on another machine. -/
theorem eq_of_send_eq_five :
    five.address = (five.empty.add (.int 5)).address
      ∧ five.data = (five.empty.add (.int 5)).data :=
  eq_of_send_eq .little .big rfl rfl (by decide) (by decide) (by decide +kernel)

end OSCMessage

end EmbodiedSynth.Osc
