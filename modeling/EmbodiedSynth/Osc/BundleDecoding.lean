/-
The decoder of a bundle of the OSC library.

* `copied`: a time tag as it is copied from the wire.
* `AtSize`: a decoder that waits for the size of the next message, with what it has decoded.
* `fill_bundle`: on a bundle the decoder is that of a message on each part, and whatever follows
  changes nothing in it.
* `fill_send_bundle`: a bundle is read as it was sent, but for the bytes of its time tag.
* `refill_hasError`: a bundle that was filled, then emptied, never decodes a bundle again.
-/
import EmbodiedSynth.Osc.BundleEncoding
import EmbodiedSynth.Osc.RoundTrip

namespace EmbodiedSynth.Osc

open Aligned ByteOrder OscFormat

/-- A time tag as a machine with the order `e` copies it from the wire. -/
def OscTime.copied (e : Endian) (t : OscTime) : OscTime :=
  ⟨BigEndian e t.seconds, BigEndian e t.fractionofseconds⟩

namespace OSCBundle

variable (e : Endian)

lemma fill_append (b : OSCBundle) (bs bs' : List UInt8) :
    b.fill e (bs ++ bs') = (b.fill e bs).fill e bs' := Machine.run_append _ _ _ _

/-! ### The header and the time tag -/

/-- A decoder that waits for `n` bytes keeps those that come before the last. -/
lemma fill_of_length_lt {b : OSCBundle} {n : ℕ}
    (hstep : ∀ buffer byte, buffer.length + 1 < n →
      decode e { b with incomingBuffer := buffer } byte
        = { b with incomingBuffer := buffer ++ [byte] })
    (hnil : b.incomingBuffer = []) {pre : List UInt8} (hpre : pre.length < n) :
    b.fill e pre = { b with incomingBuffer := pre } := by
  have hstart : b = { b with incomingBuffer := [] } := by rw [← hnil]
  conv_lhs => rw [hstart]
  refine Machine.run_collect (fun buffer => { b with incomingBuffer := buffer })
    fun buffer byte hbuffer => hstep buffer byte ?_
  have hle := hbuffer.length_le
  rw [List.length_append, List.length_singleton] at hle
  omega

lemma exists_concat_of_length {n : ℕ} {bs : List UInt8} (h : bs.length = n + 1) :
    ∃ pre byte, bs = pre ++ [byte] ∧ pre.length = n := by
  rcases List.eq_nil_or_concat bs with rfl | ⟨pre, byte, rfl⟩
  · cases h
  · rw [List.concat_eq_append] at h ⊢
    exact ⟨pre, byte, rfl, by simpa using h⟩

/-- A number on the wire, copied to memory. -/
lemma load_memory_big (x : BitVec 32) :
    BitVec.ofNat 32 (load e (memory .big 4 x.toNat)) = BigEndian e x := by
  have hload := bigEndian_load e four_bytes (length_memory .big 4 x.toNat)
  have hback := bigEndian_memory .big .big four_bytes x
  rw [← bigEndian_bigEndian e four_bytes (BitVec.ofNat 32 _), hload]
  exact congrArg _ hback

/-- A decoder that waits for the size of a message, and what it has decoded. -/
structure AtSize (timetag : OscTime) (done : List OSCMessage) (b : OSCBundle) : Prop where
  messages : b.messages = done
  timetag_eq : b.timetag = timetag
  error : b.error = .ok
  decodeState : b.decodeState = .messageSize
  incomingBuffer : b.incomingBuffer = []

lemma fill_header (timetag : OscTime) (size : BitVec 32) :
    (new timetag size).fill e bundleHeader
      = { new timetag size with decodeState := .timetag } := by
  simp [fill, bundleHeader, Machine.run, decode, addToIncomingBuffer, decodeByte, decodeHeader,
    clearIncomingBuffer, new]

/-- The start of a bundle. -/
lemma fill_start (timetag : OscTime) (size : BitVec 32) (t : OscTime) :
    AtSize (t.copied e) [] ((new timetag size).fill e
      (text bundleName ++ (Argument.timeTag t.seconds t.fractionofseconds).payload)) := by
  have hlen : (Argument.timeTag t.seconds t.fractionofseconds).payload.length = 7 + 1 := by
    simp [Argument.payload]
  obtain ⟨pre, byte, hbytes, hpre⟩ := exists_concat_of_length hlen
  have hwait : ({ new timetag size with decodeState := .timetag } : OSCBundle).fill e pre
      = { new timetag size with decodeState := .timetag, incomingBuffer := pre } := by
    refine fill_of_length_lt e (n := 8) (fun buffer b hb => ?_) rfl (by omega)
    have hne : ¬ buffer.length + 1 = 8 := by omega
    simp [decode, addToIncomingBuffer, decodeByte, hne]
  have htake : (pre ++ [byte]).take 4 = memory .big 4 t.seconds.toNat := by
    rw [← hbytes, Argument.payload, List.take_left' (length_memory _ _ _)]
  have hdrop : ((pre ++ [byte]).drop 4).take 4 = memory .big 4 t.fractionofseconds.toNat := by
    rw [← hbytes, Argument.payload, List.drop_left' (length_memory _ _ _), List.take_of_length_le
      (length_memory _ _ _).le]
  have hlast : ({ new timetag size with
      decodeState := .timetag, incomingBuffer := pre } : OSCBundle).fill e [byte]
        = { new timetag size with decodeState := .messageSize, timetag := t.copied e } := by
    simp [fill, decode, addToIncomingBuffer, decodeByte, decodeTimetag, clearIncomingBuffer, new,
      hpre, htake, hdrop, load_memory_big, OscTime.copied]
  rw [fill_append, ← bundleHeader_eq, fill_header, hbytes, fill_append, hwait, hlast]
  exact ⟨rfl, rfl, rfl, rfl, rfl⟩

/-! ### The messages -/

lemma word_memory_big (n : ℕ) : OSCMessage.word e 4 (memory .big 4 n) = BitVec.ofNat 32 n := by
  have hlen : (memory .big 4 n).length = 32 / 8 := length_memory _ _ _
  rw [OSCMessage.word, List.take_of_length_le (length_memory _ _ _).le,
    bigEndian_load e four_bytes hlen, load_memory]
  refine BitVec.eq_of_toNat_eq ?_
  rw [BitVec.toNat_ofNat, BitVec.toNat_ofNat]
  omega

/-- The parts that the decoder takes: words of four bytes, at least one, counted by an `int`. -/
structure Fits (part : List UInt8) : Prop where
  four : 4 ∣ part.length
  pos : 0 < part.length
  lt : part.length < 2147483648

lemma Fits.toInt {part : List UInt8} (h : Fits part) :
    (BitVec.ofNat 32 part.length).toInt = part.length := by
  have hlt := h.lt
  rw [BitVec.toInt_eq_toNat_of_lt (by rw [BitVec.toNat_ofNat]; omega), BitVec.toNat_ofNat,
    Nat.mod_eq_of_lt (by omega)]

/-- A decoder that has read the size of a message. -/
def reading (timetag : OscTime) (done : List OSCMessage) (size : ℕ) (m : OSCMessage)
    (incomingBuffer : List UInt8) : OSCBundle where
  messages := done ++ [m]
  timetag := timetag
  error := .ok
  decodeState := .message
  incomingBuffer := incomingBuffer
  incomingMessageSize := BitVec.ofNat 32 size

variable {timetag : OscTime} {done : List OSCMessage} {b : OSCBundle}

/-- After the size a message is new. -/
lemma fill_size (hb : AtSize timetag done b) {part : List UInt8} (hpart : Fits part) :
    b.fill e (memory .big 4 part.length) = reading timetag done part.length .new [] := by
  obtain ⟨pre, byte, hbytes, hpre⟩ := exists_concat_of_length (length_memory .big 4 part.length)
  have hwait : b.fill e pre = { b with incomingBuffer := pre } := by
    refine fill_of_length_lt e (n := 4) (fun buffer byte hbuffer => ?_) hb.incomingBuffer (by omega)
    have hne : ¬ buffer.length + 1 = 4 := by omega
    simp [decode, addToIncomingBuffer, decodeByte, hb.decodeState, hne]
  have hsize : OSCMessage.word e 4 (pre ++ [byte]) = BitVec.ofNat 32 part.length := by
    rw [← hbytes, word_memory_big]
  have hfour : (part.length : ℤ) % 4 = 0 := by
    have hdvd := hpart.four
    omega
  have hne : BitVec.ofNat 32 part.length ≠ 0#32 := by
    intro hzero
    have htoInt := hpart.toInt
    have hpos := hpart.pos
    rw [hzero] at htoInt
    have hlen : (0 : ℤ) = part.length := htoInt
    omega
  obtain ⟨messages, timetag', error, decodeState, incomingBuffer, size⟩ := b
  obtain ⟨rfl, rfl, rfl, rfl, rfl⟩ := hb
  rw [hbytes, fill_append, hwait]
  simp [fill, decode, addToIncomingBuffer, decodeByte, decodeMessageSize, clearIncomingBuffer,
    addNew, reading, hpre, hsize, hpart.toInt, hfour, hne]

/-- A byte of a message, before the last. -/
lemma decode_reading (m : OSCMessage) {size : ℕ} (hsize : (BitVec.ofNat 32 size).toInt = size)
    {buffer : List UInt8} (byte : UInt8) (hlt : buffer.length + 1 < size) :
    decode e (reading timetag done size m buffer) byte
      = reading timetag done size (m.decode e byte) (buffer ++ [byte]) := by
  have hne : ¬ (buffer.length : ℤ) + 1 = size := by omega
  have hgt : ¬ (size : ℤ) < (buffer.length : ℤ) + 1 := by omega
  simp [decode, addToIncomingBuffer, decodeByte, decodeMessage, reading, hsize, hne, hgt]

/-- **A part of a bundle is a message by itself.** -/
lemma fill_element (hb : AtSize timetag done b) {part : List UInt8} (hpart : Fits part) :
    AtSize timetag (done ++ [OSCMessage.new.fill e part]) (b.fill e (element part)) := by
  obtain ⟨n, hn⟩ := Nat.exists_eq_succ_of_ne_zero hpart.pos.ne'
  obtain ⟨pre, byte, rfl, hpre⟩ := exists_concat_of_length hn
  have hlen : (pre ++ [byte]).length = pre.length + 1 := List.length_append
  have hbefore : (reading timetag done (pre ++ [byte]).length .new []).fill e pre
      = reading timetag done (pre ++ [byte]).length (OSCMessage.new.fill e pre) pre := by
    refine Machine.run_collect (fun buffer => reading timetag done (pre ++ [byte]).length
      (OSCMessage.new.fill e buffer) buffer) fun buffer x hx => ?_
    have hle := hx.length_le
    rw [List.length_append, List.length_singleton] at hle
    rw [decode_reading e _ hpart.toInt x (by omega), OSCMessage.fill_append]
    rfl
  have hsize : (BitVec.ofNat 32 (pre.length + 1)).toInt = (pre.length : ℤ) + 1 := by
    have htoInt := hpart.toInt
    rwa [hlen, Nat.cast_add, Nat.cast_one] at htoInt
  rw [element, fill_append, fill_size e hb hpart, fill_append, hbefore, OSCMessage.fill_append]
  constructor <;>
    simp [fill, decode, addToIncomingBuffer, decodeByte, decodeMessage, clearIncomingBuffer,
      reading, OSCMessage.fill, hlen, hsize]

lemma fill_elements (hb : AtSize timetag done b) {parts : List (List UInt8)}
    (hparts : ∀ p ∈ parts, Fits p) :
    AtSize timetag (done ++ parts.map (OSCMessage.new.fill e))
      (b.fill e (parts.flatMap element)) := by
  induction parts generalizing done b with
  | nil => simpa [fill] using hb
  | cons part parts ih =>
      rw [List.forall_mem_cons] at hparts
      have hrest := ih (fill_element e hb hparts.1) hparts.2
      rw [List.flatMap_cons, fill_append, List.map_cons]
      simpa using hrest

/-- The bytes of a bundle, to a new one. -/
lemma atSize_bundle (timetag : OscTime) (size : BitVec 32) (t : OscTime)
    {parts : List (List UInt8)} (hparts : ∀ p ∈ parts, Fits p) :
    AtSize (t.copied e) (parts.map (OSCMessage.new.fill e))
      ((new timetag size).fill e (bundle t.seconds t.fractionofseconds parts)) := by
  rw [bundle, fill_append]
  exact fill_elements e (fill_start e timetag size t) hparts

/-- What a decoder behind its time tag keeps: the time tag, and messages that are complete. -/
structure Keeps (timetag : OscTime) (done : List OSCMessage) (b : OSCBundle) : Prop where
  timetag_eq : b.timetag = timetag
  messages : b.decodeState = .messageSize ∧ done <+: b.messages
    ∨ b.decodeState = .message ∧ done <+: b.messages.dropLast

lemma Keeps.decode (h : Keeps timetag done b) (byte : UInt8) :
    Keeps timetag done (b.decode e byte) := by
  obtain ⟨htimetag, ⟨hstate, hdone⟩ | ⟨hstate, hdone⟩⟩ := h
  · have hdecode : b.decode e byte = if b.incomingBuffer.length + 1 = 4 then
        (b.addToIncomingBuffer byte).decodeMessageSize e else b.addToIncomingBuffer byte := by
      simp [OSCBundle.decode, addToIncomingBuffer, decodeByte, hstate]
    rw [hdecode]
    split_ifs
    · rw [decodeMessageSize]
      split_ifs
      · exact ⟨htimetag, Or.inl ⟨hstate, hdone⟩⟩
      · refine ⟨htimetag, Or.inr ⟨rfl, ?_⟩⟩
        simpa [addNew, clearIncomingBuffer, addToIncomingBuffer] using hdone
    · exact ⟨htimetag, Or.inl ⟨hstate, hdone⟩⟩
  · have hdecode : b.decode e byte = (b.addToIncomingBuffer byte).decodeMessage e byte := by
      simp [OSCBundle.decode, addToIncomingBuffer, decodeByte, hstate]
    rw [hdecode, decodeMessage]
    cases hlast : (b.addToIncomingBuffer byte).messages.getLast? with
    | none => exact ⟨htimetag, Or.inr ⟨hstate, hdone⟩⟩
    | some lastMessage =>
        dsimp only
        split_ifs
        · exact ⟨htimetag, Or.inl ⟨rfl, hdone.trans (List.prefix_append _ _)⟩⟩
        · exact ⟨htimetag, Or.inr ⟨hstate, by simpa [addToIncomingBuffer] using hdone⟩⟩
        · exact ⟨htimetag, Or.inr ⟨hstate, by simpa [addToIncomingBuffer] using hdone⟩⟩

/-- **On a bundle the decoder is that of a message on each part**, whatever the parts hold.
Whatever bytes follow, the messages stay, and the time tag. -/
theorem fill_bundle (timetag : OscTime) (size : BitVec 32) (t : OscTime)
    {parts : List (List UInt8)} (hparts : ∀ p ∈ parts, Fits p) (bs : List UInt8) :
    ((new timetag size).fill e (bundle t.seconds t.fractionofseconds parts)).messages
        = parts.map (OSCMessage.new.fill e)
      ∧ ((new timetag size).fill e (bundle t.seconds t.fractionofseconds parts)).error = .ok
      ∧ parts.map (OSCMessage.new.fill e) <+:
        ((new timetag size).fill e (bundle t.seconds t.fractionofseconds parts ++ bs)).messages
      ∧ ((new timetag size).fill e (bundle t.seconds t.fractionofseconds parts ++ bs)).timetag
        = t.copied e := by
  have hbundle := atSize_bundle e timetag size t hparts
  have hkeeps : Keeps (t.copied e) (parts.map (OSCMessage.new.fill e))
      ((new timetag size).fill e (bundle t.seconds t.fractionofseconds parts ++ bs)) := by
    rw [fill_append]
    refine Machine.run_invariant (fun b hb byte _ => hb.decode e byte) ?_
    exact ⟨hbundle.timetag_eq, Or.inl ⟨hbundle.decodeState, hbundle.messages ▸ List.prefix_rfl⟩⟩
  refine ⟨hbundle.messages, hbundle.error, ?_, hkeeps.timetag_eq⟩
  rcases hkeeps.messages with ⟨-, hdone⟩ | ⟨-, hdone⟩
  · exact hdone
  · exact hdone.trans (List.dropLast_prefix _)

/-- A bundle of four nulls, which are no message, and what follows it. -/
theorem fill_bundle_nulls :
    ((new zerotime 0).fill .little (bundle 1 0 [[0, 0, 0, 0]])).messages
        = [[0, 0, 0, 0]].map (OSCMessage.new.fill .little)
      ∧ ((new zerotime 0).fill .little (bundle 1 0 [[0, 0, 0, 0]])).error = .ok
      ∧ [[0, 0, 0, 0]].map (OSCMessage.new.fill .little) <+:
        ((new zerotime 0).fill .little (bundle 1 0 [[0, 0, 0, 0]] ++ [7])).messages
      ∧ ((new zerotime 0).fill .little (bundle 1 0 [[0, 0, 0, 0]] ++ [7])).timetag
        = OscTime.copied .little ⟨1, 0⟩ :=
  fill_bundle .little zerotime 0 ⟨1, 0⟩
    (List.forall_mem_singleton.mpr ⟨by decide, by decide, by decide⟩) [7]

/-! ### The round trip -/

/-- A message on the wire is read as it was sent. -/
lemma fill_wire (e' : Endian) {m : OSCMessage} {address : CString}
    (haddress : m.address = some address) (hslash : ascii '/' ∈ address.chars)
    (h : m.hasError = false) (hclean : OSCData.Clean m.data) :
    content (OSCMessage.new.fill e' m.wire) = content m
      ∧ (OSCMessage.new.fill e' m.wire).hasError = false := by
  have hdata := ((OSCMessage.hasError_eq_false_iff m).mp h).2
  have hwire : m.wire = OSCMessage.written .big address m.data := by
    rw [OSCMessage.written_eq_message .big address hdata, OSCMessage.wire, haddress]
    rfl
  obtain ⟨decodeState, buffer, hm, -⟩ := OSCMessage.fill_written .big e' OSCMessage.fresh_new
    hslash hdata hclean
  rw [hwire, hm]
  refine ⟨Prod.ext haddress.symm rfl, (OSCMessage.hasError_eq_false_iff _).mpr ⟨rfl, hdata⟩⟩

/-- A message that is read as it was sent, of a size that an `int` counts. -/
structure Sendable (m : OSCMessage) : Prop where
  address : ∃ address, m.address = some address ∧ ascii '/' ∈ address.chars
  clean : OSCData.Clean m.data
  lt : m.wire.length < 2147483648

lemma Sendable.fits {m : OSCMessage} (h : Sendable m) : Fits m.wire := by
  obtain ⟨address, haddress, -⟩ := h.address
  refine ⟨four_dvd_length_wire m, ?_, h.lt⟩
  have hterminated : 0 < address.terminated.length := by simp
  rw [OSCMessage.wire, haddress, Option.map_some, Option.getD_some, message, text, align]
  simp only [List.length_append]
  omega

lemma wire_eq_of_content {m m' : OSCMessage} (h : content m = content m') : m.wire = m'.wire := by
  obtain ⟨haddress, hdata⟩ := Prod.mk.inj h
  rw [OSCMessage.wire, OSCMessage.wire, haddress, hdata]

/-- The messages of a bundle on the wire are read as they were sent. -/
lemma fill_wires (e' : Endian) {ms : List OSCMessage}
    (h : ∀ m ∈ ms, Sendable m ∧ m.hasError = false) :
    ((ms.map OSCMessage.wire).map (OSCMessage.new.fill e')).map content = ms.map content
      ∧ (∀ m ∈ (ms.map OSCMessage.wire).map (OSCMessage.new.fill e'),
        m.address ≠ none ∧ m.hasError = false) := by
  have hread : ∀ m ∈ ms, content (OSCMessage.new.fill e' m.wire) = content m
      ∧ (OSCMessage.new.fill e' m.wire).hasError = false := by
    intro m hm
    obtain ⟨address, haddress, hslash⟩ := (h m hm).1.address
    exact fill_wire e' haddress hslash (h m hm).2 (h m hm).1.clean
  constructor
  · rw [List.map_map, List.map_map]
    exact List.map_congr_left fun m hm => (hread m hm).1
  · rw [List.map_map]
    refine List.forall_mem_map.mpr fun m hm => ⟨?_, (hread m hm).2⟩
    obtain ⟨address, haddress, -⟩ := (h m hm).1.address
    have heq : (OSCMessage.new.fill e' m.wire).address = m.address :=
      congrArg Prod.fst (hread m hm).1
    exact (heq.trans haddress) ▸ Option.some_ne_none address

/-- A bundle that is read as it was sent. -/
structure Readable (b : OSCBundle) : Prop where
  hasError : b.hasError = false
  sendable : ∀ m ∈ b.messages, Sendable m

lemma Readable.send_eq {b : OSCBundle} (h : Readable b) (e : Endian) :
    b.send e = some (bundle b.timetag.seconds b.timetag.fractionofseconds
      (b.messages.map OSCMessage.wire)) := by
  refine OSCBundle.send_eq e (fun m hm => ?_) h.hasError
  obtain ⟨address, haddress, -⟩ := (h.sendable m hm).address
  exact haddress ▸ Option.some_ne_none address

/-- What a new bundle makes of the bytes of a bundle. -/
lemma Readable.fill {b : OSCBundle} (h : Readable b) (e e' : Endian) (timetag : OscTime)
    (size : BitVec 32) {bs : List UInt8} (hsend : b.send e = some bs) :
    ((new timetag size).fill e' bs).messages.map content = b.messages.map content
      ∧ ((new timetag size).fill e' bs).timetag = b.timetag.copied e'
      ∧ ((new timetag size).fill e' bs).error = .ok
      ∧ ∀ m ∈ ((new timetag size).fill e' bs).messages, m.address ≠ none ∧ m.hasError = false := by
  have hmessages := ((hasError_eq_false_iff b).mp h.hasError).2
  rw [h.send_eq e, Option.some.injEq] at hsend
  subst hsend
  obtain ⟨hdone, htimetag, herror, -, -⟩ := atSize_bundle e' timetag size b.timetag
    (List.forall_mem_map.mpr fun m hm => (h.sendable m hm).fits)
  obtain ⟨hcontent, hok⟩ := fill_wires e' fun m hm => ⟨h.sendable m hm, hmessages m hm⟩
  rw [← hdone] at hcontent hok
  exact ⟨hcontent, htimetag, herror, hok⟩

/-- **A bundle is read as it was sent**, by a new bundle on any machine: the same addresses and
data, and no error.  The time tag is copied, and so what is read is sent with the time tag as it
is in memory. -/
theorem fill_send_bundle (e e' : Endian) {b : OSCBundle} (h : Readable b) (timetag : OscTime)
    (size : BitVec 32) {bs : List UInt8} (hsend : b.send e = some bs) :
    ((new timetag size).fill e' bs).messages.map content = b.messages.map content
      ∧ ((new timetag size).fill e' bs).timetag = b.timetag.copied e'
      ∧ ((new timetag size).fill e' bs).hasError = false
      ∧ ((new timetag size).fill e' bs).send e' = (b.setTimetag (b.timetag.copied e')).send e := by
  obtain ⟨hcontent, htimetag, herror, hok⟩ := h.fill e e' timetag size hsend
  have hasError_read := (hasError_eq_false_iff _).mpr ⟨herror, fun m hm => (hok m hm).2⟩
  have hset : Readable (b.setTimetag (b.timetag.copied e')) := ⟨h.hasError, h.sendable⟩
  have hwire := map_eq_map_of_forall (fun _ _ _ _ => wire_eq_of_content) hcontent
  refine ⟨hcontent, htimetag, hasError_read, ?_⟩
  rw [OSCBundle.send_eq e' (fun m hm => (hok m hm).1) hasError_read, htimetag, hwire,
    hset.send_eq e]
  rfl

lemma sendable_five : Sendable .five :=
  ⟨⟨_, rfl, by decide⟩, by decide, by decide +kernel⟩

/-- Two messages, read on a machine that keeps the most significant byte first. -/
theorem fill_send_bundle_fives :
    ((new zerotime 0).fill .big (bundle 1 0 ([.five, .five].map OSCMessage.wire))).messages.map
        content = [content .five, content .five]
      ∧ ((new zerotime 0).fill .big (bundle 1 0 ([.five, .five].map OSCMessage.wire))).timetag
        = OscTime.copied .big ⟨1, 0⟩
      ∧ ((new zerotime 0).fill .big (bundle 1 0 ([.five, .five].map OSCMessage.wire))).hasError
        = false
      ∧ ((new zerotime 0).fill .big (bundle 1 0 ([.five, .five].map OSCMessage.wire))).send .big
        = (fives.setTimetag (OscTime.copied .big ⟨1, 0⟩)).send .little :=
  fill_send_bundle .little .big (b := fives) ⟨by decide, by simp [fives, sendable_five]⟩ zerotime 0
    (by decide +kernel)

/-! ### Emptied bundles -/

/-- A decoder that is stuck: a size was refused, and stays in the buffer. -/
structure Stuck (b : OSCBundle) : Prop where
  error : b.error = .invalidOsc
  messages : b.messages = []
  decodeState : b.decodeState = .messageSize
  length : 4 ≤ b.incomingBuffer.length

lemma Stuck.fill {b : OSCBundle} (h : Stuck b) (bs : List UInt8) : Stuck (b.fill e bs) := by
  refine Machine.run_invariant (fun b hb byte _ => ?_) h
  have hne : ¬ b.incomingBuffer.length + 1 = 4 := by
    have hlen := hb.length
    omega
  have hdecode : b.decode e byte = b.addToIncomingBuffer byte := by
    simp [decode, addToIncomingBuffer, decodeByte, hb.decodeState, hne]
  rw [hdecode]
  refine ⟨hb.error, hb.messages, hb.decodeState, ?_⟩
  rw [addToIncomingBuffer, List.length_append]
  exact hb.length.trans (Nat.le_add_right _ _)

/-- The header of a bundle is refused as a size. -/
lemma stuck_of_header {b : OSCBundle} (h : b.decodeState = .messageSize) (bs : List UInt8) :
    Stuck (b.empty.fill e (bundleHeader ++ bs)) := by
  have hword : (OSCMessage.word e 4 (bundleHeader.take 4)).toInt % 4 ≠ 0 := by
    cases e <;> decide +kernel
  have htake : bundleHeader.take 4 = [35, 98, 117, 110] := by decide
  rw [htake] at hword
  have hheader : bundleHeader ++ bs = [35, 98, 117, 110] ++ ([100, 108, 101, 0] ++ bs) := rfl
  have hfour : Stuck (b.empty.fill e [35, 98, 117, 110]) := by
    obtain ⟨messages, timetag, error, decodeState, incomingBuffer, size⟩ := b
    obtain rfl : decodeState = .messageSize := h
    constructor <;>
      simp [OSCBundle.fill, decode, addToIncomingBuffer, decodeByte, decodeMessageSize, empty,
        clearIncomingBuffer, hword]
  rw [hheader, fill_append]
  exact hfour.fill e _

/-- **A bundle that was filled is never filled again**: however often it is emptied and filled
with what begins as a bundle, it has an error and no messages. -/
theorem refill_hasError (timetag : OscTime) (size : BitVec 32) (t : OscTime)
    {parts : List (List UInt8)} (hparts : ∀ p ∈ parts, Fits p) {rounds : List (List UInt8)}
    (hne : rounds ≠ []) :
    (rounds.foldl (fun b bs => b.empty.fill e (bundleHeader ++ bs))
        ((new timetag size).fill e (bundle t.seconds t.fractionofseconds parts))).hasError = true
      ∧ (rounds.foldl (fun b bs => b.empty.fill e (bundleHeader ++ bs))
        ((new timetag size).fill e (bundle t.seconds t.fractionofseconds parts))).messages
        = [] := by
  have hstuck : ∀ rounds : List (List UInt8), rounds ≠ [] → ∀ b : OSCBundle,
      b.decodeState = .messageSize →
      Stuck (rounds.foldl (fun b bs => b.empty.fill e (bundleHeader ++ bs)) b) := by
    intro rounds
    induction rounds with
    | nil => exact fun h => absurd rfl h
    | cons bs rounds ih =>
        intro _ b hb
        have hfirst := stuck_of_header e hb bs
        rcases eq_or_ne rounds [] with rfl | hrounds
        · exact hfirst
        · exact ih hrounds _ hfirst.decodeState
  have hlast := hstuck rounds hne _ (atSize_bundle e timetag size t hparts).decodeState
  refine ⟨?_, hlast.messages⟩
  rw [hasError, hlast.error]
  rfl

/-- The bytes of a bundle of two messages. -/
def fivesBytes : List UInt8 := bundle 1 0 ([.five, .five].map OSCMessage.wire)

/-- The same bundle three times: two rounds after it was read. -/
theorem refill_hasError_twice :
    ([fivesBytes.drop 8, fivesBytes.drop 8].foldl
        (fun b bs => b.empty.fill .little (bundleHeader ++ bs))
        ((new zerotime 0).fill .little fivesBytes)).hasError = true
      ∧ ([fivesBytes.drop 8, fivesBytes.drop 8].foldl
        (fun b bs => b.empty.fill .little (bundleHeader ++ bs))
        ((new zerotime 0).fill .little fivesBytes)).messages = [] :=
  refill_hasError .little zerotime 0 ⟨1, 0⟩ (by simp [sendable_five.fits]) (by simp)

end OSCBundle

end EmbodiedSynth.Osc
