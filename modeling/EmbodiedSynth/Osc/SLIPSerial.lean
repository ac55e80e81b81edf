/-
The serial port of the OSC library, `SLIPEncodedSerial.h`.

* `SLIPSerial`: the state of the escapes, and the bytes that have arrived and are not read.
* `endofPacket`, `available`, `read`: what a receiver calls.
* `available_cases`: what a call of `available` can do.
* `write`, `beginPacket`, `endPacket`: what a sender calls, as the bytes that are written.
* `sentPacket_eq`: a packet is written as the framing has it.

A port without bytes gives -1, which is 255 as a byte.  Its buffer has no end here.
-/
import EmbodiedSynth.Library.Slip

namespace EmbodiedSynth.Osc

/-- The state machine for the escapes. -/
inductive Erstate where
  | char
  | firsteot
  | secondeot
  | slipesc
deriving DecidableEq

structure SLIPSerial where
  rstate : Erstate
  serial : List UInt8
deriving DecidableEq

namespace SLIPSerial

def eot : UInt8 := 0o300

def slipesc : UInt8 := 0o333

def slipescend : UInt8 := 0o334

def slipescesc : UInt8 := 0o335

/-- `_SLIPSerial(T &)`. -/
def new : SLIPSerial where
  rstate := .char
  serial := []

/-- `endofPacket()`: a second delimiter that is there already is thrown away. -/
def endofPacket (s : SLIPSerial) : Bool × SLIPSerial :=
  match s.rstate with
  | .secondeot => (true, { s with rstate := .char })
  | .firsteot =>
      (true, { rstate := .char
               serial := if s.serial.head? = some eot then s.serial.tail else s.serial })
  | _ => (false, s)

/-- `available()`, which goes back after a byte that it throws away.  The number of bytes that
have arrived is cut to eight bits. -/
def availableFrom : Erstate → List UInt8 → ℕ × SLIPSerial
  | rstate, [] => (0, ⟨rstate, []⟩)
  | rstate, c :: serial =>
      if (serial.length + 1) % 256 = 0 then (0, ⟨rstate, c :: serial⟩)
      else match rstate with
        | .char =>
            if c = slipesc then availableFrom .slipesc serial
            else if c = eot then availableFrom .firsteot serial
            else (1, ⟨.char, c :: serial⟩)
        | .slipesc => (1, ⟨.slipesc, c :: serial⟩)
        | .firsteot =>
            if c = eot then (0, ⟨.secondeot, serial⟩) else (0, ⟨.char, c :: serial⟩)
        | .secondeot => (0, ⟨.char, c :: serial⟩)

def available (s : SLIPSerial) : ℕ × SLIPSerial := availableFrom s.rstate s.serial

/-- `read()`, which goes back after an escape.  `none` is -1. -/
def readFrom : Erstate → List UInt8 → Option UInt8 × SLIPSerial
  | .char, [] => (some 255, ⟨.char, []⟩)
  | .char, c :: serial =>
      if c = slipesc then readFrom .slipesc serial
      else if c = eot then (none, ⟨.char, serial⟩)
      else (some c, ⟨.char, serial⟩)
  | .slipesc, [] => (none, ⟨.char, []⟩)
  | .slipesc, c :: serial =>
      (if c = slipescend then some eot else if c = slipescesc then some slipesc else none,
        ⟨.char, serial⟩)
  | rstate, serial => (none, ⟨rstate, serial.tail⟩)

def read (s : SLIPSerial) : Option UInt8 × SLIPSerial := readFrom s.rstate s.serial

/-- What `available` does between packets or behind an escape. -/
inductive Available : Erstate → List UInt8 → ℕ → SLIPSerial → Prop where
  | none (rstate : Erstate) (serial : List UInt8) (h : serial.length % 256 = 0) :
      Available rstate serial 0 ⟨rstate, serial⟩
  | byte (c : UInt8) (serial : List UInt8) (heot : c ≠ eot) (hesc : c ≠ slipesc) :
      Available .char (c :: serial) 1 ⟨.char, c :: serial⟩
  | escaped (c : UInt8) (serial : List UInt8) :
      Available .slipesc (c :: serial) 1 ⟨.slipesc, c :: serial⟩
  | escNone (serial : List UInt8) : Available .char (slipesc :: serial) 0 ⟨.slipesc, serial⟩
  | escByte (c : UInt8) (serial : List UInt8) :
      Available .char (slipesc :: c :: serial) 1 ⟨.slipesc, c :: serial⟩
  | eotNone (serial : List UInt8) : Available .char (eot :: serial) 0 ⟨.firsteot, serial⟩
  | eotTwice (serial : List UInt8) :
      Available .char (eot :: eot :: serial) 0 ⟨.secondeot, serial⟩
  | eotByte (c : UInt8) (serial : List UInt8) (h : c ≠ eot) :
      Available .char (eot :: c :: serial) 0 ⟨.char, c :: serial⟩

lemma available_slipesc (serial : List UInt8) :
    Available .slipesc serial (availableFrom .slipesc serial).1
      (availableFrom .slipesc serial).2 := by
  cases serial with
  | nil => exact .none _ _ rfl
  | cons c serial =>
      rw [availableFrom]
      split_ifs with hcut
      · exact .none _ _ hcut
      · exact .escaped c serial

/-- **What `available` can do**, where no delimiter was seen. -/
theorem available_cases {rstate : Erstate} (h : rstate = .char ∨ rstate = .slipesc)
    (serial : List UInt8) :
    Available rstate serial (availableFrom rstate serial).1 (availableFrom rstate serial).2 := by
  rcases h with rfl | rfl
  · cases serial with
    | nil => exact .none _ _ rfl
    | cons c serial =>
        rw [availableFrom]
        by_cases hcut : (serial.length + 1) % 256 = 0
        · rw [if_pos hcut]
          exact .none _ _ hcut
        rw [if_neg hcut]
        by_cases hesc : c = slipesc
        · subst hesc
          cases serial with
          | nil => exact .escNone []
          | cons d serial =>
              simp only [if_true, availableFrom]
              split_ifs
              · exact .escNone _
              · exact .escByte d serial
        by_cases heot : c = eot
        · subst heot
          cases serial with
          | nil => exact .eotNone []
          | cons d serial =>
              simp only [if_neg hesc, if_true, availableFrom]
              split_ifs with hcut' hd
              · exact .eotNone _
              · subst hd
                exact .eotTwice serial
              · exact .eotByte d serial hd
        simp only [if_neg hesc, if_neg heot]
        exact .byte c serial heot hesc
  · exact available_slipesc serial

/-! ### Sending -/

/-- `write(uint8_t)`. -/
def write (b : UInt8) : List UInt8 :=
  if b = eot then [slipesc, slipescend]
  else if b = slipesc then [slipesc, slipescesc]
  else [b]

def beginPacket : List UInt8 := [eot]

def endPacket : List UInt8 := [eot]

/-- What is written for a packet. -/
def sentPacket (packet : List UInt8) : List UInt8 :=
  beginPacket ++ packet.flatMap write ++ endPacket

lemma sentPacket_eq (packet : List UInt8) : sentPacket packet = Slip.frame packet := rfl

end SLIPSerial

end EmbodiedSynth.Osc
