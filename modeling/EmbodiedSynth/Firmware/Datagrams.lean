/-
The datagrams of the OSC sender, `sketch_embodied_synth_esp32_wifi_osc.ino`, in the bytes of
the OSC library.

* `OscMessage.build`: the message that the sketch builds, argument by argument.
* `datagram_read`: what is read from a datagram of a run is what the run sent in it.

The bits of a float are a parameter.
-/
import EmbodiedSynth.Firmware.OscSender
import EmbodiedSynth.Osc.RoundTrip

namespace EmbodiedSynth.Firmware

open Arduino Aligned ByteOrder Osc

variable {K : Type*} (bits : K → BitVec 32)

/-- The datum that `add` makes of an argument. -/
def OscArg.datum : OscArg K → OSCData
  | .int32 n => .int n
  | .float x => .float (bits x)

/-- `OSCMessage msg(address)` and an `add` for each argument. -/
def OscMessage.build (m : OscMessage K) : OSCMessage :=
  (m.arguments.map (OscArg.datum bits)).foldl OSCMessage.add
    (OSCMessage.ofAddress (cstring (m.address.toList.map ascii)))

/-- The address of the sketch. -/
def stretchAddress : CString := cstring ("/stretch".toList.map ascii)

lemma chars_stretchAddress :
    stretchAddress.chars = [47, 115, 116, 114, 101, 116, 99, 104] := by decide +kernel

namespace OscSender

/-- The data of a datagram. -/
def sentData (t r : BitVec 32) (x : K) : List OSCData := [.int t, .int r, .float (bits x)]

section

variable (t r : BitVec 32) (x : K)

lemma error_sentData : ∀ d ∈ sentData bits t r x, d.error = .ok := by
  simp [sentData, OSCData.error]

/-- Nothing in a datagram is padded. -/
lemma clean_sentData : OSCData.Clean (sentData bits t r x) := by
  simp [sentData, OSCData.Clean, OSCData.Follows, OSCData.emptyBlob, OSCData.isPadded]

lemma send_build (e : Endian) :
    (OscMessage.build bits ⟨"/stretch", [.int32 t, .int32 r, .float x]⟩).send e
      = some (OSCMessage.written e stretchAddress (sentData bits t r x)) := rfl

lemma length_written (e : Endian) :
    (OSCMessage.written e stretchAddress (sentData bits t r x)).length = 32 := by
  have hok := error_sentData bits t r x
  rw [OSCMessage.written_eq_message e _ hok, ← OSCMessage.size_eq_length _ hok, OSCMessage.size,
    chars_stretchAddress]
  simp [sentData, padSize, typePad, OSCData.bytes]

end

variable [Field K] [LinearOrder K] [IsStrictOrderedRing K] (B : BoardFloat K) (smoothing : K)

/-- **What is read from a datagram of a run is what the run sent in it**: the time, the reading
and the bits of the smoothed value, whichever machines write and read the thirty-two bytes. -/
theorem datagram_read (e e' : Endian) (espxx : Bool) {inputs : List LoopInput} {i : LoopInput}
    {m : OscMessage K} (h : Sends B smoothing inputs i m) {m₀ : OSCMessage}
    (hm₀ : m₀.Fresh) :
    ∃ bs pre post, inputs = pre ++ i :: post ∧ (m.build bits).send e = some bs ∧ bs.length = 32
      ∧ (m₀.fill e' bs).address = some stretchAddress
      ∧ (m₀.fill e' bs).hasError = false
      ∧ ((m₀.fill e' bs).getInt espxx 0).2 = millis i.timestamp
      ∧ ((m₀.fill e' bs).getInt espxx 1).2 = BitVec.ofNat 32 i.rawValue
      ∧ ((m₀.fill e' bs).getFloat espxx 2).2
        = bits (loop B smoothing (run B smoothing pre) i).1.smoothedValue := by
  obtain ⟨pre, post, hinputs, hloop⟩ := h
  obtain ⟨-, rfl⟩ := (loop_eq_some_iff B smoothing).mp hloop
  have hok := error_sentData bits (millis i.timestamp) (BitVec.ofNat 32 i.rawValue)
    (loop B smoothing (run B smoothing pre) i).1.smoothedValue
  have hslash : ascii '/' ∈ stretchAddress.chars := by
    rw [chars_stretchAddress]
    decide
  obtain ⟨decodeState, buffer, hfill, -⟩ :=
    OSCMessage.fill_written e e' hm₀ hslash hok (clean_sentData bits _ _ _)
  refine ⟨_, pre, post, hinputs, send_build bits _ _ _ e, length_written bits _ _ _ e, ?_⟩
  rw [hfill]
  exact ⟨rfl, rfl, rfl, rfl, rfl⟩

/-- The bits of 2000 as a 32-bit float. -/
def bitsOf2000 (x : ℚ) : BitVec 32 := if x = 2000 then 0x44FA0000 else 0

/-- The first datagram, of a reading of 4000 with half of it kept. -/
theorem datagram_read_first :
    ∃ bs, (OscMessage.build bitsOf2000
        ⟨"/stretch", [.int32 12, .int32 4000, .float 2000]⟩).send .little = some bs ∧ bs.length = 32
      ∧ (OSCMessage.new.fill .big bs).address = some stretchAddress
      ∧ (OSCMessage.new.fill .big bs).hasError = false
      ∧ ((OSCMessage.new.fill .big bs).getInt true 0).2 = 12
      ∧ ((OSCMessage.new.fill .big bs).getInt true 1).2 = 4000
      ∧ ((OSCMessage.new.fill .big bs).getFloat true 2).2 = 0x44FA0000 := by
  have hsmooth : smooth BoardFloat.exact (1 / 2 : ℚ) 0 4000 = 2000 := by
    norm_num [smooth, BoardFloat.exact]
  have hsends : Sends BoardFloat.exact (1 / 2 : ℚ) [⟨10, 4000, 12⟩] ⟨10, 4000, 12⟩
      ⟨"/stretch", [.int32 12, .int32 4000, .float 2000]⟩ := by
    refine ⟨[], [], rfl, ?_⟩
    rw [← hsmooth]
    rfl
  obtain ⟨bs, pre, post, hinputs, hsend, hlen, haddress, herror, htime, hraw, hvalue⟩ :=
    datagram_read bitsOf2000 BoardFloat.exact (1 / 2) .little .big true hsends OSCMessage.fresh_new
  obtain rfl : pre = [] := by
    have hlength := congrArg List.length hinputs
    simp only [List.length_append, List.length_cons, List.length_nil] at hlength
    exact List.length_eq_zero_iff.mp (by omega)
  refine ⟨bs, hsend, hlen, haddress, herror, htime, hraw, hvalue.trans ?_⟩
  show bitsOf2000 (smooth BoardFloat.exact (1 / 2 : ℚ) 0 4000) = 0x44FA0000
  rw [hsmooth]
  rfl

end OscSender

end EmbodiedSynth.Firmware
