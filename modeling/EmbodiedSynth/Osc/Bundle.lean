/-
A bundle of the OSC library, `OSCBundle.h` and `OSCBundle.cpp`.

* `OSCBundle`: the messages, the time tag, the error of the bundle and the state of its decoder.
* `add`, `addMessage`, `setTimetag`, `empty`: the operations on the messages.
* `send`: the bytes that a bundle writes.
* `decode`, `fill`: the decoder, byte by byte.

The size of the message that is being decoded has no value before the first: `new` takes one.
-/
import EmbodiedSynth.Osc.Message

namespace EmbodiedSynth.Osc

open Aligned ByteOrder

/-- A copy of a datum with a value.  A placeholder has none to copy. -/
def OSCMessage.copy (m : OSCMessage) : Option OSCMessage :=
  match m.address with
  | none => none
  | some address =>
      if m.data.all (·.error = .ok) then some { ofAddress address with data := m.data } else none

inductive BundleState where
  | standby
  | header
  | timetag
  | messageSize
  | message
deriving DecidableEq

structure OSCBundle where
  messages : List OSCMessage
  timetag : OscTime
  error : OSCErrorCode
  decodeState : BundleState
  incomingBuffer : List UInt8
  incomingMessageSize : BitVec 32
deriving DecidableEq

namespace OSCBundle

/-! ### Building a bundle -/

/-- `OSCBundle(osctime_t)`. -/
def new (timetag : OscTime) (incomingMessageSize : BitVec 32) : OSCBundle where
  messages := []
  timetag := timetag
  error := .ok
  decodeState := .standby
  incomingBuffer := []
  incomingMessageSize := incomingMessageSize

def setTimetag (b : OSCBundle) (timetag : OscTime) : OSCBundle := { b with timetag := timetag }

/-- `add(const char *)`. -/
def add (b : OSCBundle) (address : CString) : OSCBundle :=
  { b with messages := b.messages ++ [.ofAddress address] }

/-- `add(OSCMessage &)`: a copy. -/
def addMessage (b : OSCBundle) (m : OSCMessage) : Option OSCBundle :=
  m.copy.map fun msg => { b with messages := b.messages ++ [msg] }

/-- `add()`. -/
def addNew (b : OSCBundle) : OSCBundle := { b with messages := b.messages ++ [.new] }

def clearIncomingBuffer (b : OSCBundle) : OSCBundle := { b with incomingBuffer := [] }

/-- `empty()`: the state of the decoder stays. -/
def empty (b : OSCBundle) : OSCBundle := { b with error := .ok, messages := [] }.clearIncomingBuffer

def getOSCMessage (b : OSCBundle) (pos : ℕ) : Option OSCMessage := b.messages[pos]?

def size (b : OSCBundle) : ℕ := b.messages.length

def hasError (b : OSCBundle) : Bool := b.error ≠ .ok || b.messages.any OSCMessage.hasError

/-! ### Sending -/

/-- What `send` writes before the time tag. -/
def bundleHeader : List UInt8 := ['#', 'b', 'u', 'n', 'd', 'l', 'e'].map ascii ++ [0]

/-- A message, with its size before it. -/
def sendMessage (e : Endian) (m : OSCMessage) : Option (List UInt8) := do
  let msgSize ← m.bytes
  let bs ← m.send e
  return memory e 4 (BigEndian e (BitVec.ofNat 32 msgSize)).toNat ++ bs

/-- `send`: a bundle with an error writes nothing. -/
def send (e : Endian) (b : OSCBundle) : Option (List UInt8) :=
  if b.hasError then some []
  else (b.messages.mapM (sendMessage e)).map fun messages =>
    bundleHeader ++ memory e 4 (BigEndian e b.timetag.seconds).toNat
      ++ memory e 4 (BigEndian e b.timetag.fractionofseconds).toNat ++ messages.flatten

/-! ### Decoding -/

def addToIncomingBuffer (b : OSCBundle) (incomingByte : UInt8) : OSCBundle :=
  { b with incomingBuffer := b.incomingBuffer ++ [incomingByte] }

/-- A buffer of eight bytes is compared with the header. -/
def decodeHeader (b : OSCBundle) : OSCBundle :=
  if b.incomingBuffer ≠ bundleHeader then
    { b with decodeState := .standby, error := .invalidOsc }.clearIncomingBuffer
  else { b with decodeState := .timetag }.clearIncomingBuffer

/-- The time tag is copied as it is in memory. -/
def decodeTimetag (e : Endian) (b : OSCBundle) : OSCBundle :=
  { b with
    timetag := ⟨BitVec.ofNat 32 (load e (b.incomingBuffer.take 4)),
      BitVec.ofNat 32 (load e ((b.incomingBuffer.drop 4).take 4))⟩
    decodeState := .messageSize }.clearIncomingBuffer

/-- The last message takes the byte. -/
def decodeMessage (e : Endian) (b : OSCBundle) (incomingByte : UInt8) : OSCBundle :=
  match b.messages.getLast? with
  | none => b
  | some lastMessage =>
      let filled :=
        { b with messages := b.messages.dropLast ++ [lastMessage.decode e incomingByte] }
      if (b.incomingBuffer.length : ℤ) = b.incomingMessageSize.toInt then
        { filled with decodeState := .messageSize }.clearIncomingBuffer
      else if (b.incomingBuffer.length : ℤ) > b.incomingMessageSize.toInt then
        { filled with error := .invalidOsc }
      else filled

/-- The size of the next message: a size that is refused stays in the buffer. -/
def decodeMessageSize (e : Endian) (b : OSCBundle) : OSCBundle :=
  let msgSize : BitVec 32 := OSCMessage.word e 4 b.incomingBuffer
  if msgSize.toInt % 4 ≠ 0 ∨ msgSize = 0 then { b with error := .invalidOsc }
  else
    { b with
      decodeState := .message
      incomingMessageSize := msgSize }.clearIncomingBuffer.addNew

/-- `decode`, after the byte was added to the buffer.  A header that was refused is passed all
the same. -/
def decodeByte (e : Endian) (b : OSCBundle) (incomingByte : UInt8) : OSCBundle :=
  match b.decodeState with
  | .standby =>
      if incomingByte = ascii '#' then { b with decodeState := .header }
      else if incomingByte = ascii '/' then
        { b.addNew.decodeMessage e incomingByte with decodeState := .message }
      else b
  | .header =>
      if b.incomingBuffer.length = 8 then { b.decodeHeader with decodeState := .timetag } else b
  | .timetag =>
      if b.incomingBuffer.length = 8 then
        { b.decodeTimetag e with decodeState := .messageSize }
      else b
  | .messageSize => if b.incomingBuffer.length = 4 then b.decodeMessageSize e else b
  | .message => b.decodeMessage e incomingByte

def decode (e : Endian) (b : OSCBundle) (incomingByte : UInt8) : OSCBundle :=
  (b.addToIncomingBuffer incomingByte).decodeByte e incomingByte

/-- `fill`, of some bytes. -/
def fill (e : Endian) (b : OSCBundle) (incomingBytes : List UInt8) : OSCBundle :=
  Machine.run (decode e) b incomingBytes

end OSCBundle

end EmbodiedSynth.Osc
