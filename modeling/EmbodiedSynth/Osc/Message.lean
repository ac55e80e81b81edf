/-
A message of the OSC library, `OSCMessage.h` and `OSCMessage.cpp`.

* `OSCMessage`: an address, the data, the error of the message and the state of its decoder.
* `add`, `set`, `getOSCData`, `empty`: the operations on the data; `read` is what the getters
  share.
* `bytes`, `send`: the size of a message, and the bytes that it writes.
* `decode`, `fill`: the decoder, byte by byte.

The pointer of the address may be null, and what the code does then is undefined: `none`.
-/
import EmbodiedSynth.Library.Machine
import EmbodiedSynth.Osc.Data

namespace EmbodiedSynth.Osc

open Aligned ByteOrder

inductive DecodeState where
  | standby
  | address
  | addressPadding
  | types
  | typesPadding
  | data
  | dataPadding
  | done
deriving DecidableEq

structure OSCMessage where
  address : Option CString
  data : List OSCData
  error : OSCErrorCode
  decodeState : DecodeState
  incomingBuffer : List UInt8
deriving DecidableEq

/-- `padSize`. -/
def padSize (bytes : ℕ) : ℕ := (4 - (bytes &&& 3)) &&& 3

/-- The nulls after `dataCount` types: at least one. -/
def typePad (dataCount : ℕ) : ℕ :=
  if padSize (dataCount + 1) = 0 then 4 else padSize (dataCount + 1)

/-- The bytes that `send` writes for a datum.  A placeholder has no bytes to write. -/
def OSCData.send (e : Endian) : OSCData → List UInt8
  | .string s => s.terminated ++ List.replicate (padSize (OSCData.string s).bytes) 0
  | .blob b =>
      memory e 4 (BigEndian e (BitVec.ofNat 32 b.content.length)).toNat ++ b.content
        ++ List.replicate (padSize (OSCData.blob b).bytes) 0
  | .double d => memory e 8 (BigEndian e d).toNat
  | .time t =>
      memory e 4 (BigEndian e t.seconds).toNat ++ memory e 4 (BigEndian e t.fractionofseconds).toNat
  | .boolean _ => []
  | .int i => memory e 4 (BigEndian e i).toNat
  | .float f => memory e 4 (BigEndian e f).toNat
  | .placeholder _ _ => []

namespace OSCMessage

/-! ### Building a message -/

/-- `OSCMessage()`. -/
def new : OSCMessage where
  address := none
  data := []
  error := .invalidOsc
  decodeState := .standby
  incomingBuffer := []

/-- `OSCMessage(const char *)`. -/
def ofAddress (address : CString) : OSCMessage where
  address := some address
  data := []
  error := .ok
  decodeState := .standby
  incomingBuffer := []

def setAddress (m : OSCMessage) (address : CString) : OSCMessage :=
  { m with address := some address }

def add (m : OSCMessage) (datum : OSCData) : OSCMessage := { m with data := m.data ++ [datum] }

def set (m : OSCMessage) (position : ℕ) (datum : OSCData) : OSCMessage :=
  if position < m.data.length then { m with data := m.data.set position datum }
  else if position = m.data.length then m.add datum
  else { m with error := .indexOutOfBounds }

/-- `empty()`: the address stays. -/
def empty (m : OSCMessage) : OSCMessage where
  address := m.address
  data := []
  error := .ok
  decodeState := .standby
  incomingBuffer := []

/-! ### Reading a message -/

/-- A position behind the data is an error of the message from then on. -/
def getOSCData (m : OSCMessage) (position : ℕ) : OSCMessage × Option OSCData :=
  match m.data[position]? with
  | some datum => (m, some datum)
  | none => ({ m with error := .indexOutOfBounds }, none)

def hasError (m : OSCMessage) : Bool := m.error ≠ .ok || m.data.any (·.error ≠ .ok)

/-- A getter: the datum at the position, if the message has no error after the look at it. -/
def read {α : Type*} (f : OSCData → α) (miss : α) (m : OSCMessage) (position : ℕ) :
    OSCMessage × α :=
  ((m.getOSCData position).1,
    if (m.getOSCData position).1.hasError then miss
    else ((m.getOSCData position).2.map f).getD miss)

def getInt (espxx : Bool) : OSCMessage → ℕ → OSCMessage × BitVec 32 :=
  read (OSCData.getInt espxx) 0

def getTime : OSCMessage → ℕ → OSCMessage × OscTime := read OSCData.getTime zerotime

def getFloat (espxx : Bool) : OSCMessage → ℕ → OSCMessage × BitVec 32 :=
  read (OSCData.getFloat espxx) 0

def getDouble (espxx : Bool) : OSCMessage → ℕ → OSCMessage × BitVec 64 :=
  read (OSCData.getDouble espxx) 0

def getBoolean (espxx : Bool) : OSCMessage → ℕ → OSCMessage × Bool :=
  read (OSCData.getBoolean espxx) false

def getType : OSCMessage → ℕ → OSCMessage × UInt8 := read OSCData.type 0

def getDataLength : OSCMessage → ℕ → OSCMessage × ℕ := read OSCData.bytes 0

def testType (type : UInt8) : OSCMessage → ℕ → OSCMessage × Bool :=
  read (fun datum => decide (datum.type = type)) false

def isInt : OSCMessage → ℕ → OSCMessage × Bool := testType (ascii 'i')

def isTime : OSCMessage → ℕ → OSCMessage × Bool := testType (ascii 't')

def isFloat : OSCMessage → ℕ → OSCMessage × Bool := testType (ascii 'f')

def isBlob : OSCMessage → ℕ → OSCMessage × Bool := testType (ascii 'b')

def isChar : OSCMessage → ℕ → OSCMessage × Bool := testType (ascii 'c')

def isString : OSCMessage → ℕ → OSCMessage × Bool := testType (ascii 's')

def isDouble : OSCMessage → ℕ → OSCMessage × Bool := testType (ascii 'd')

/-- The second test is made where the first fails. -/
def isBoolean (m : OSCMessage) (position : ℕ) : OSCMessage × Bool :=
  let first := testType (ascii 'T') m position
  if first.2 then first else testType (ascii 'F') first.1 position

/-! ### Sending -/

/-- The size of a message with the address `address`. -/
def size (address : CString) (data : List OSCData) : ℕ :=
  let addrLen := address.chars.length + 1
  addrLen + padSize addrLen + 1 + data.length + typePad data.length
    + (data.map fun datum => datum.bytes + padSize datum.bytes).sum

def bytes (m : OSCMessage) : Option ℕ := m.address.map fun address => size address m.data

/-- What `send` writes for a message without an error. -/
def written (e : Endian) (address : CString) (data : List OSCData) : List UInt8 :=
  let addrLen := address.chars.length + 1
  address.terminated ++ List.replicate (padSize addrLen) 0 ++ [ascii ',']
    ++ data.map OSCData.type ++ List.replicate (typePad data.length) 0
    ++ data.flatMap (OSCData.send e)

/-- `send`: a message with an error writes nothing. -/
def send (e : Endian) (m : OSCMessage) : Option (List UInt8) :=
  if m.hasError then some [] else m.address.map fun address => written e address m.data

/-! ### Decoding -/

def addToIncomingBuffer (m : OSCMessage) (incomingByte : UInt8) : OSCMessage :=
  { m with incomingBuffer := m.incomingBuffer ++ [incomingByte] }

def clearIncomingBuffer (m : OSCMessage) : OSCMessage := { m with incomingBuffer := [] }

def decodeAddress (m : OSCMessage) : OSCMessage :=
  { m.setAddress (cstring m.incomingBuffer) with error := .ok }.clearIncomingBuffer

def decodeType (m : OSCMessage) (incomingByte : UInt8) : OSCMessage :=
  m.add (OSCData.ofType incomingByte)

/-- The number in the first `n` bytes of the buffer. -/
def word (e : Endian) (n : ℕ) (incomingBuffer : List UInt8) : BitVec (8 * n) :=
  BigEndian e (BitVec.ofNat (8 * n) (load e (incomingBuffer.take n)))

/-- The `switch` of `decodeData`: the value of a datum of the type `t`, if the buffer has all of
it. -/
def received (e : Endian) (t : UInt8) (incomingBuffer : List UInt8) (incomingByte : UInt8) :
    Option OSCData :=
  if t = ascii 'i' then
    if incomingBuffer.length = 4 then some (.int (word e 4 incomingBuffer)) else none
  else if t = ascii 'f' then
    if incomingBuffer.length = 4 then some (.float (word e 4 incomingBuffer)) else none
  else if t = ascii 'd' then
    if incomingBuffer.length = 8 then some (.double (word e 8 incomingBuffer)) else none
  else if t = ascii 't' then
    if incomingBuffer.length = 8 then
      some (.time ⟨word e 4 incomingBuffer, word e 4 (incomingBuffer.drop 4)⟩)
    else none
  else if t = ascii 's' then
    if incomingByte = 0 then some (.string (cstring incomingBuffer)) else none
  else if t = ascii 'b' then
    if incomingBuffer.length > 4 then
      if h : (incomingBuffer.length : ℤ) = (word e 4 incomingBuffer + 4).toInt then
        some (.blob
          ⟨(incomingBuffer.drop 4).take (word e 4 incomingBuffer).toNat, by
            have hint := BitVec.toInt_lt (x := word e 4 incomingBuffer + 4)
            simp only [List.length_take, List.length_drop]
            omega⟩)
      else none
    else none
  else none

/-- The first datum without a value is set when the buffer has it. -/
def decodeData (e : Endian) (m : OSCMessage) (incomingByte : UInt8) : OSCMessage :=
  match m.data.findIdx? (fun datum => datum.error = .invalidOsc) with
  | none => m
  | some i =>
      match (m.data[i]?).bind fun datum => received e datum.type m.incomingBuffer incomingByte with
      | none => m
      | some datum =>
          { (m.set i datum).clearIncomingBuffer with
            decodeState :=
              if datum.type = ascii 's' ∨ datum.type = ascii 'b' then .dataPadding
              else m.decodeState }

/-- The end of the types: the data begin after their padding. -/
def testTypes (m : OSCMessage) : OSCMessage :=
  if m.incomingBuffer.length = typePad m.data.length + m.data.length then
    { m.clearIncomingBuffer with decodeState := .data }
  else m

/-- The last datum that has a value. -/
def lastValue (data : List OSCData) : Option OSCData :=
  data.reverse.find? fun datum => datum.error = .ok

/-- The padding of the last datum that has a value. -/
def skipPadding (m : OSCMessage) : OSCMessage :=
  match lastValue m.data with
  | none => m
  | some datum =>
      -- without padding the byte in the buffer is the first of the next datum
      if padSize datum.bytes = 0 then { m with decodeState := .data }
      else if m.incomingBuffer.length = padSize datum.bytes then
        { m.clearIncomingBuffer with decodeState := .data }
      else m

/-- `decode`, after the byte was added to the buffer. -/
def decodeByte (e : Endian) (m : OSCMessage) (incomingByte : UInt8) : OSCMessage :=
  match m.decodeState with
  | .standby => if incomingByte = ascii '/' then { m with decodeState := .address } else m
  | .address =>
      if incomingByte = 0 then { m.decodeAddress with decodeState := .addressPadding } else m
  | .addressPadding =>
      if incomingByte = ascii ',' then
        { m with decodeState := .types }.clearIncomingBuffer
      else m
  | .types =>
      if incomingByte ≠ 0 then (m.decodeType incomingByte).testTypes
      else { m with decodeState := .typesPadding }.testTypes
  | .typesPadding => m.testTypes
  | .data => m.decodeData e incomingByte
  | .dataPadding => m.skipPadding
  | .done => m

def decode (e : Endian) (m : OSCMessage) (incomingByte : UInt8) : OSCMessage :=
  (m.addToIncomingBuffer incomingByte).decodeByte e incomingByte

/-- `fill`, of some bytes. -/
def fill (e : Endian) (m : OSCMessage) (incomingBytes : List UInt8) : OSCMessage :=
  Machine.run (decode e) m incomingBytes

end OSCMessage

end EmbodiedSynth.Osc
