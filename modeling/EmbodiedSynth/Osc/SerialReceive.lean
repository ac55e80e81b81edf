/-
The receiver of the OSC library at a serial port, the loop of `SerialReceive.ino`.

A pass of the loop fills a message or a bundle, byte by byte, until the port tells the end of a
packet, and the next pass begins with a new one.  Bytes arrive while it runs, in pieces of any
size and between any two of its calls.

* `Receiver`, `loopStep`: the loop, one call of the port at a time; `Event`, `step`: its calls
  and the arrivals, in any order.
* `Phase`, `Invariant`: what has been received, what the pass has so far and what is still to
  come are, empty packets aside, the packets that were sent.
* `packets_delivered`: so the packets received are a first part of those sent, and once all has
  arrived and fewer than 256 bytes are left, all are received.
* `stalls_iff`: a loop to which nothing arrives stands still exactly when a multiple of 256
  bytes waits.
-/
import EmbodiedSynth.Library.Machine
import EmbodiedSynth.Osc.SLIPSerial

namespace EmbodiedSynth.Osc

open Slip

/-- The place of the loop: before a call, or inside the `while` with some bytes to read. -/
inductive Place where
  | endofPacket
  | available
  | read (size : ℕ)
deriving DecidableEq

/-- The loop: the port, its place, the bytes that the pass was filled with, and those of the
passes before. -/
structure Receiver where
  port : SLIPSerial
  place : Place
  filled : List UInt8
  packets : List (List UInt8)
deriving DecidableEq

namespace Receiver

def new : Receiver where
  port := .new
  place := .endofPacket
  filled := []
  packets := []

/-- The loop, up to its next call. -/
def loopStep (s : Receiver) : Receiver :=
  match s.place with
  | .endofPacket =>
      if s.port.endofPacket.1 then
        { port := s.port.endofPacket.2, place := .endofPacket, filled := [],
          packets := s.packets ++ [s.filled] }
      else { s with port := s.port.endofPacket.2, place := .available }
  | .available =>
      { s with
        port := s.port.available.2
        place := if 0 < s.port.available.1 then .read s.port.available.1 else .endofPacket }
  | .read 0 => { s with place := .endofPacket }
  | .read (size + 1) =>
      -- -1 is filled as a byte
      { s with
        port := s.port.read.2
        place := .read size
        filled := s.filled ++ [s.port.read.1.getD 255] }

def arrive (s : Receiver) (bs : List UInt8) : Receiver :=
  { s with port := { s.port with serial := s.port.serial ++ bs } }

/-- What can happen: bytes arrive, or the loop goes on. -/
inductive Event where
  | arrive (bs : List UInt8)
  | loop

def step (s : Receiver) : Event → Receiver
  | .arrive bs => s.arrive bs
  | .loop => s.loopStep

/-- The receiver after the events `es`. -/
def run (es : List Event) : Receiver := Machine.run step new es

/-- The bytes that arrive in a run. -/
def arrived (es : List Event) : List UInt8 :=
  es.flatMap fun
    | .arrive bs => bs
    | .loop => []

lemma arrived_append (es es' : List Event) : arrived (es ++ es') = arrived es ++ arrived es' :=
  List.flatMap_append

/-! ### What is to come -/

/-- The packets that there are, where `rest` is to come of the packet that has begun, and
`later` are the packets after it.  A delimiter that was seen ends what the pass was filled
with. -/
def total (rstate : Erstate) (filled : List UInt8) (packets : List (List UInt8))
    (rest : Option (List UInt8)) (later : List (List UInt8)) : List (List UInt8) :=
  match rstate with
  | .char => packets ++ (rest.map (filled ++ ·)).toList ++ later
  | .slipesc => packets ++ (rest.map (filled ++ ·)).toList ++ later
  | .firsteot => packets ++ [filled] ++ rest.toList ++ later
  | .secondeot => packets ++ [filled] ++ rest.toList ++ later

/-- The bytes to come: behind an escape, the byte that stands for the first of the packet. -/
def ToCome (rstate : Erstate) (rest : Option (List UInt8)) (later : List (List UInt8))
    (w : List UInt8) : Prop :=
  match rstate with
  | .slipesc => ∃ b q d, rest = some (b :: q) ∧ unescape d = some b
      ∧ w = d :: remaining (some q) later
  | _ => w = remaining rest later

/-- Empty packets aside, what the receiver has, and the bytes `w`, are the packets `sent`. -/
def Phase (sent : List (List UInt8)) (w : List UInt8) (rstate : Erstate)
    (filled : List UInt8) (packets : List (List UInt8)) : Prop :=
  ∃ rest later, ToCome rstate rest later w
    ∧ (rest = none → rstate = .char → filled = [])
    ∧ (rest ≠ none → rstate = .firsteot → filled = [])
    ∧ kept (total rstate filled packets rest later) = kept sent

variable {sent packets : List (List UInt8)} {w filled : List UInt8} {c : UInt8}

/-- A first delimiter. -/
lemma Phase.eot_char (h : Phase sent (Slip.eot :: w) .char filled packets) :
    Phase sent w .firsteot filled packets := by
  obtain ⟨rest, later, hcome, hnone, -, htotal⟩ := h
  rcases remaining_cons_cases hcome with ⟨-, rfl, packet, later, rfl, rfl⟩ | ⟨-, rfl, rfl⟩
    | ⟨q, rfl, hne, -, -⟩ | ⟨heq, -⟩
  · -- it begins a packet: nothing was filled
    obtain rfl := hnone rfl rfl
    refine ⟨some packet, later, rfl, nofun, fun _ _ => rfl, ?_⟩
    simpa [total] using htotal
  · refine ⟨none, later, rfl, nofun, fun h => absurd rfl h, ?_⟩
    simpa [total] using htotal
  · exact absurd rfl hne
  · exact absurd heq (by decide)

/-- A second delimiter. -/
lemma Phase.eot_firsteot (h : Phase sent (Slip.eot :: w) .firsteot filled packets) :
    Phase sent w .secondeot filled packets := by
  obtain ⟨rest, later, hcome, -, -, htotal⟩ := h
  rcases remaining_cons_cases hcome with ⟨-, rfl, packet, later, rfl, rfl⟩ | ⟨-, rfl, rfl⟩
    | ⟨q, rfl, hne, -, -⟩ | ⟨heq, -⟩
  · refine ⟨some packet, later, rfl, nofun, nofun, ?_⟩
    simpa [total] using htotal
  · -- the packet that ends is empty
    have hempty : kept (filled :: [] :: later) = kept (filled :: later) :=
      (kept_append [filled] ([] :: later)).trans (kept_append [filled] later).symm
    refine ⟨none, later, rfl, nofun, fun h => absurd rfl h, ?_⟩
    simpa [total, hempty] using htotal
  · exact absurd rfl hne
  · exact absurd heq (by decide)

/-- Behind one delimiter a byte that is none begins a packet. -/
lemma Phase.char_of_firsteot (h : Phase sent (c :: w) .firsteot filled packets)
    (hc : c ≠ Slip.eot) : Phase sent (c :: w) .char filled packets := by
  obtain ⟨rest, later, hcome, -, hsome, htotal⟩ := h
  have hrest : rest ≠ none := by
    rintro rfl
    rcases remaining_cons_cases hcome with ⟨heq, -⟩ | ⟨heq, -⟩ | ⟨q, hq, -⟩ | ⟨-, b, q, d, hq, -⟩
    · exact hc heq
    · exact hc heq
    · cases hq
    · cases hq
  obtain rfl := hsome hrest rfl
  obtain ⟨q, rfl⟩ := Option.ne_none_iff_exists'.mp hrest
  refine ⟨some q, later, hcome, nofun, nofun, ?_⟩
  simpa [total] using htotal

/-- An escape. -/
lemma Phase.esc (h : Phase sent (Slip.esc :: w) .char filled packets) :
    Phase sent w .slipesc filled packets := by
  obtain ⟨rest, later, hcome, -, -, htotal⟩ := h
  rcases remaining_cons_cases hcome with ⟨heq, -⟩ | ⟨heq, -⟩ | ⟨q, rfl, -, hne, -⟩
    | ⟨-, b, q, d, rfl, hd, rfl⟩
  · exact absurd heq (by decide)
  · exact absurd heq (by decide)
  · exact absurd rfl hne
  · exact ⟨some (b :: q), later, ⟨b, q, d, rfl, hd, rfl⟩, nofun, nofun, htotal⟩

/-- A byte that is read. -/
lemma Phase.read_char (h : Phase sent (c :: w) .char filled packets) (heot : c ≠ Slip.eot)
    (hesc : c ≠ Slip.esc) : Phase sent w .char (filled ++ [c]) packets := by
  obtain ⟨rest, later, hcome, -, -, htotal⟩ := h
  rcases remaining_cons_cases hcome with ⟨heq, -⟩ | ⟨heq, -⟩ | ⟨q, rfl, -, -, rfl⟩ | ⟨heq, -⟩
  · exact absurd heq heot
  · exact absurd heq heot
  · refine ⟨some q, later, rfl, nofun, nofun, ?_⟩
    simpa [total] using htotal
  · exact absurd heq hesc

/-- A byte that is read behind an escape. -/
lemma Phase.read_slipesc (h : Phase sent (c :: w) .slipesc filled packets) :
    ∃ b, unescape c = some b ∧ Phase sent w .char (filled ++ [b]) packets := by
  obtain ⟨rest, later, ⟨b, q, d, rfl, hd, hw⟩, -, -, htotal⟩ := h
  obtain ⟨rfl, rfl⟩ := List.cons.inj hw
  refine ⟨b, hd, some q, later, rfl, nofun, nofun, ?_⟩
  simpa [total] using htotal

/-- The end of a packet. -/
lemma Phase.deliver {rstate : Erstate} (heot : rstate = .firsteot ∨ rstate = .secondeot)
    (h : Phase sent w rstate filled packets) : Phase sent w .char [] (packets ++ [filled]) := by
  obtain ⟨rest, later, hcome, -, -, htotal⟩ := h
  have hbytes : w = remaining rest later := by
    rcases heot with rfl | rfl
    · exact hcome
    · exact hcome
  refine ⟨rest, later, hbytes, fun _ _ => rfl, nofun, ?_⟩
  rcases heot with rfl | rfl <;> cases rest <;> simpa [total] using htotal

/-! ### The steps -/

/-- What holds at the place of the loop: a byte that is read is there, and no delimiter, and only
`endofPacket` finds a delimiter that was seen. -/
def AtPlace (place : Place) (port : SLIPSerial) : Prop :=
  match place with
  | .endofPacket => True
  | .available => port.rstate = .char ∨ port.rstate = .slipesc
  | .read 0 => port.rstate = .char
  | .read 1 => ∃ c serial, port.serial = c :: serial ∧ (port.rstate = .slipesc
      ∨ port.rstate = .char ∧ c ≠ Slip.eot ∧ c ≠ Slip.esc)
  | .read _ => False

/-- Of the packets `sent` the bytes `w` are to come, some of which have arrived. -/
structure Invariant (sent : List (List UInt8)) (w : List UInt8) (s : Receiver) : Prop where
  arrived : s.port.serial <+: w
  atPlace : AtPlace s.place s.port
  phase : Phase sent w s.port.rstate s.filled s.packets

/-- What there is to do at a place. -/
def weight : Place → ℕ
  | .endofPacket => 4
  | .available => 3
  | .read 0 => 5
  | .read _ => 2

/-- What there is to do with the bytes that have arrived. -/
def work (s : Receiver) : ℕ :=
  6 * s.port.serial.length + weight s.place
    + if s.port.rstate = .firsteot ∨ s.port.rstate = .secondeot then 1 else 0

/-- What a step of the loop does: it takes bytes off the port and keeps the invariant, and there
is less to do, unless the port finds a multiple of 256 bytes. -/
def Steps (sent : List (List UInt8)) (w : List UInt8) (s : Receiver) : Prop :=
  ∃ bs w', w = bs ++ w' ∧ s.port.serial = bs ++ s.loopStep.port.serial
    ∧ Invariant sent w' s.loopStep
    ∧ ((s.place = .available → s.port.serial.length % 256 ≠ 0) → s.loopStep.work < s.work)

/-- Bytes that arrive disturb nothing. -/
lemma Invariant.arrive {s : Receiver} (h : Invariant sent w s) {bs : List UInt8}
    (hbs : s.port.serial ++ bs <+: w) : Invariant sent w (s.arrive bs) := by
  refine ⟨hbs, ?_, h.phase⟩
  have hplace := h.atPlace
  obtain ⟨⟨rstate, serial⟩, place, filled, packets⟩ := s
  match place with
  | .endofPacket => trivial
  | .available => exact hplace
  | .read 0 => exact hplace
  | .read 1 =>
      obtain ⟨c, serial, rfl, hc⟩ := hplace
      exact ⟨c, serial ++ bs, rfl, hc⟩
  | .read (size + 2) => exact hplace

/-- A prefix that begins with a byte. -/
lemma exists_of_cons_prefix {serial : List UInt8} (h : c :: serial <+: w) :
    ∃ w', w = c :: w' ∧ serial <+: w' := by
  obtain ⟨t, rfl⟩ := h
  exact ⟨serial ++ t, rfl, List.prefix_append serial t⟩

/-- The call of `endofPacket`. -/
lemma Invariant.endofPacket {port : SLIPSerial}
    (h : Invariant sent w ⟨port, .endofPacket, filled, packets⟩) :
    Steps sent w ⟨port, .endofPacket, filled, packets⟩ := by
  obtain ⟨rstate, serial⟩ := port
  obtain ⟨harrived, -, hphase⟩ := h
  cases rstate with
  | char =>
      exact ⟨[], w, rfl, rfl, ⟨harrived, Or.inl rfl, hphase⟩, fun _ => Nat.lt_succ_self _⟩
  | slipesc =>
      exact ⟨[], w, rfl, rfl, ⟨harrived, Or.inr rfl, hphase⟩, fun _ => Nat.lt_succ_self _⟩
  | secondeot =>
      exact ⟨[], w, rfl, rfl, ⟨harrived, trivial, hphase.deliver (Or.inr rfl)⟩,
        fun _ => Nat.lt_succ_self _⟩
  | firsteot =>
      cases serial with
      | nil =>
          exact ⟨[], w, rfl, rfl, ⟨harrived, trivial, hphase.deliver (Or.inl rfl)⟩,
            fun _ => Nat.lt_succ_self _⟩
      | cons c serial =>
          by_cases hc : c = Slip.eot
          · subst hc
            obtain ⟨w', rfl, hw'⟩ := exists_of_cons_prefix harrived
            refine ⟨[Slip.eot], w', rfl, rfl, ⟨hw', trivial,
              hphase.eot_firsteot.deliver (Or.inr rfl)⟩, fun _ => ?_⟩
            show 6 * serial.length + 4 + 0 < 6 * (serial.length + 1) + 4 + 1
            omega
          · have hstep : Receiver.loopStep ⟨⟨.firsteot, c :: serial⟩, .endofPacket, filled, packets⟩
                = ⟨⟨.char, c :: serial⟩, .endofPacket, [], packets ++ [filled]⟩ := by
              have hne : c ≠ SLIPSerial.eot := hc
              simp [Receiver.loopStep, SLIPSerial.endofPacket, hne]
            rw [Steps, hstep]
            exact ⟨[], w, rfl, rfl, ⟨harrived, trivial, hphase.deliver (Or.inl rfl)⟩,
              fun _ => Nat.lt_succ_self _⟩

/-- The call of `available`. -/
lemma Invariant.available {port : SLIPSerial}
    (h : Invariant sent w ⟨port, .available, filled, packets⟩) :
    Steps sent w ⟨port, .available, filled, packets⟩ := by
  obtain ⟨rstate, serial⟩ := port
  obtain ⟨harrived, hplace, hphase⟩ := h
  have hcases := SLIPSerial.available_cases hplace serial
  have hstep : Receiver.loopStep ⟨⟨rstate, serial⟩, .available, filled, packets⟩
      = ⟨(SLIPSerial.availableFrom rstate serial).2,
          if 0 < (SLIPSerial.availableFrom rstate serial).1 then
            .read (SLIPSerial.availableFrom rstate serial).1 else .endofPacket,
          filled, packets⟩ := rfl
  rw [Steps, hstep]
  generalize (SLIPSerial.availableFrom rstate serial).1 = n at hcases
  generalize (SLIPSerial.availableFrom rstate serial).2 = port at hcases
  cases hcases with
  | none _ _ hcut =>
      exact ⟨[], w, rfl, rfl, ⟨harrived, trivial, hphase⟩, fun h => absurd hcut (h rfl)⟩
  | byte c serial heot hesc =>
      exact ⟨[], w, rfl, rfl, ⟨harrived, ⟨c, serial, rfl, Or.inr ⟨rfl, heot, hesc⟩⟩, hphase⟩,
        fun _ => Nat.lt_succ_self _⟩
  | escaped c serial =>
      exact ⟨[], w, rfl, rfl, ⟨harrived, ⟨c, serial, rfl, Or.inl rfl⟩, hphase⟩,
        fun _ => Nat.lt_succ_self _⟩
  | escNone serial =>
      obtain ⟨w', rfl, hw'⟩ := exists_of_cons_prefix harrived
      refine ⟨[Slip.esc], w', rfl, rfl, ⟨hw', trivial, Phase.esc hphase⟩, fun _ => ?_⟩
      show 6 * serial.length + 4 + 0 < 6 * (serial.length + 1) + 3 + 0
      omega
  | escByte c serial =>
      obtain ⟨w', rfl, hw'⟩ := exists_of_cons_prefix harrived
      refine ⟨[Slip.esc], w', rfl, rfl, ⟨hw', ⟨c, serial, rfl, Or.inl rfl⟩, Phase.esc hphase⟩,
        fun _ => ?_⟩
      show 6 * (serial.length + 1) + 2 + 0 < 6 * (serial.length + 1 + 1) + 3 + 0
      omega
  | eotNone serial =>
      obtain ⟨w', rfl, hw'⟩ := exists_of_cons_prefix harrived
      refine ⟨[Slip.eot], w', rfl, rfl, ⟨hw', trivial, Phase.eot_char hphase⟩, fun _ => ?_⟩
      show 6 * serial.length + 4 + 1 < 6 * (serial.length + 1) + 3 + 0
      omega
  | eotTwice serial =>
      obtain ⟨w', rfl, hw'⟩ := exists_of_cons_prefix harrived
      obtain ⟨w'', rfl, hw''⟩ := exists_of_cons_prefix hw'
      refine ⟨[Slip.eot, Slip.eot], w'', rfl, rfl, ⟨hw'', trivial,
        (Phase.eot_char hphase).eot_firsteot⟩, fun _ => ?_⟩
      show 6 * serial.length + 4 + 1 < 6 * (serial.length + 1 + 1) + 3 + 0
      omega
  | eotByte c serial hc =>
      obtain ⟨w', rfl, hw'⟩ := exists_of_cons_prefix harrived
      obtain ⟨w'', rfl, -⟩ := exists_of_cons_prefix hw'
      refine ⟨[Slip.eot], c :: w'', rfl, rfl, ⟨hw', trivial,
        (Phase.eot_char hphase).char_of_firsteot hc⟩, fun _ => ?_⟩
      show 6 * (serial.length + 1) + 4 + 0 < 6 * (serial.length + 1 + 1) + 3 + 0
      omega

/-- The call of `read`. -/
lemma Invariant.read {port : SLIPSerial} (h : Invariant sent w ⟨port, .read 1, filled, packets⟩) :
    Steps sent w ⟨port, .read 1, filled, packets⟩ := by
  obtain ⟨rstate, serial⟩ := port
  obtain ⟨harrived, ⟨c, serial, rfl, hc⟩, hphase⟩ := h
  obtain ⟨w', rfl, hw'⟩ := exists_of_cons_prefix harrived
  have hless : 6 * serial.length + 5 + 0 < 6 * (serial.length + 1) + 2 + 0 := by omega
  rcases hc with rfl | ⟨rfl, heot, hesc⟩
  · obtain ⟨b, hb, hphase⟩ := Phase.read_slipesc hphase
    have hread : SLIPSerial.read ⟨.slipesc, c :: serial⟩ = (some b, ⟨.char, serial⟩) :=
      Prod.ext hb rfl
    have hstep : Receiver.loopStep ⟨⟨.slipesc, c :: serial⟩, .read 1, filled, packets⟩
        = ⟨⟨.char, serial⟩, .read 0, filled ++ [b], packets⟩ := by
      simp [Receiver.loopStep, hread]
    rw [Steps, hstep]
    exact ⟨[c], w', rfl, rfl, ⟨hw', rfl, hphase⟩, fun _ => hless⟩
  · have hread : SLIPSerial.read ⟨.char, c :: serial⟩ = (some c, ⟨.char, serial⟩) := by
      have hne : c ≠ SLIPSerial.slipesc := hesc
      have hne' : c ≠ SLIPSerial.eot := heot
      simp [SLIPSerial.read, SLIPSerial.readFrom, hne, hne']
    have hstep : Receiver.loopStep ⟨⟨.char, c :: serial⟩, .read 1, filled, packets⟩
        = ⟨⟨.char, serial⟩, .read 0, filled ++ [c], packets⟩ := by
      simp [Receiver.loopStep, hread]
    rw [Steps, hstep]
    exact ⟨[c], w', rfl, rfl, ⟨hw', rfl, Phase.read_char hphase heot hesc⟩, fun _ => hless⟩

/-- **A step of the loop** keeps the invariant, with less to do. -/
theorem Invariant.steps {s : Receiver} (h : Invariant sent w s) : Steps sent w s := by
  obtain ⟨port, place, filled, packets⟩ := s
  match place with
  | .endofPacket => exact h.endofPacket
  | .available => exact h.available
  | .read 0 =>
      exact ⟨[], w, rfl, rfl, ⟨h.arrived, trivial, h.phase⟩,
        fun _ => Nat.add_lt_add_right (Nat.lt_succ_self _) _⟩
  | .read 1 => exact h.read
  | .read (size + 2) => exact absurd h.atPlace id

/-- The invariant of a run: some bytes are taken, and the others are to come. -/
lemma invariant_run {es : List Event} (h : arrived es <+: frames sent) :
    ∃ bs w, frames sent = bs ++ w ∧ arrived es = bs ++ (run es).port.serial
      ∧ Invariant sent w (run es) := by
  induction es using List.reverseRecOn with
  | nil =>
      refine ⟨[], frames sent, rfl, rfl, List.nil_prefix, trivial, none, sent, rfl,
        fun _ _ => rfl, nofun, ?_⟩
      rfl
  | append_singleton es e ih =>
      rw [arrived_append] at h
      obtain ⟨bs, w, hsent, harrived, hinv⟩ := ih ((List.prefix_append _ _).trans h)
      rw [run, Machine.run_concat, ← run, arrived_append, harrived]
      cases e with
      | arrive new =>
          rw [harrived, hsent, List.append_assoc, List.prefix_append_right_inj] at h
          have hnew : (run es).port.serial ++ new <+: w := by simpa [arrived] using h
          refine ⟨bs, w, hsent, ?_, hinv.arrive hnew⟩
          simp [arrived, step, arrive]
      | loop =>
          obtain ⟨taken, w', rfl, hserial, hinv', -⟩ := hinv.steps
          refine ⟨bs ++ taken, w', by rw [hsent, List.append_assoc], ?_, hinv'⟩
          rw [hserial]
          simp [arrived, step]

/-- The packets that a receiver has are a first part of those that were sent. -/
lemma received_isPrefix {es : List Event} (h : arrived es <+: frames sent) :
    kept (run es).packets <+: kept sent := by
  obtain ⟨bs, w, -, -, hinv⟩ := invariant_run h
  obtain ⟨rest, later, -, -, -, htotal⟩ := hinv.phase
  have hbegin : ∃ ps, total (run es).port.rstate (run es).filled (run es).packets rest later
      = (run es).packets ++ ps := by
    cases (run es).port.rstate <;>
      simp only [total, List.append_assoc] <;> exact ⟨_, rfl⟩
  obtain ⟨ps, hps⟩ := hbegin
  rw [hps, kept_append] at htotal
  exact ⟨kept ps, htotal⟩

/-! ### The end of a run -/

lemma run_replicate (es : List Event) (n : ℕ) :
    run (es ++ List.replicate n .loop) = loopStep^[n] (run es) := by
  induction n with
  | zero => rw [List.replicate_zero, List.append_nil]; rfl
  | succ n ih =>
      rw [List.replicate_succ', ← List.append_assoc, run, Machine.run_concat, ← run, ih,
        Function.iterate_succ_apply']
      rfl

/-- A loop that has taken all there is. -/
lemma Invariant.steps_of_nil {s : Receiver} (h : Invariant sent [] s)
    (hchar : s.port.rstate = .char) :
    Invariant sent [] s.loopStep ∧ s.loopStep.port.rstate = .char := by
  obtain ⟨bs, w, hw, hserial, hinv, -⟩ := h.steps
  obtain ⟨rfl, rfl⟩ := List.append_eq_nil_iff.mp hw.symm
  refine ⟨hinv, ?_⟩
  have hnil : s.port.serial = [] := List.prefix_nil.mp h.arrived
  have hplace := h.atPlace
  obtain ⟨⟨rstate, serial⟩, place, filled, packets⟩ := s
  obtain rfl : rstate = .char := hchar
  obtain rfl : serial = [] := hnil
  match place with
  | .endofPacket => rfl
  | .available => rfl
  | .read 0 => rfl
  | .read 1 =>
      obtain ⟨c, serial, hcons, -⟩ := hplace
      cases hcons
  | .read (size + 2) => exact absurd hplace id

/-- What a loop with nothing to come has received. -/
lemma Phase.kept_eq (h : Phase sent [] .char filled packets) : kept packets = kept sent := by
  obtain ⟨rest, later, hcome, hnone, -, htotal⟩ := h
  have hnil : remaining rest later = [] := hcome.symm
  cases rest with
  | some q => exact absurd hnil (remaining_some_ne_nil q later)
  | none =>
      cases later with
      | nil => simpa [total] using htotal
      | cons packet later => cases hnil

/-- Fewer than 256 bytes are taken one after the other. -/
lemma exists_iterate {s : Receiver} (h : Invariant sent s.port.serial s)
    (hlen : s.port.serial.length < 256) :
    ∃ n, Invariant sent [] (loopStep^[n] s) ∧ (loopStep^[n] s).port.rstate = .char := by
  induction hn : s.work using Nat.strong_induction_on generalizing s with
  | _ n ih =>
      by_cases hdone : s.port.serial = [] ∧ s.port.rstate = .char
      · exact ⟨0, hdone.1 ▸ h, hdone.2⟩
      · obtain ⟨bs, w, hw, hserial, hinv, hless⟩ := h.steps
        obtain rfl : w = s.loopStep.port.serial := List.append_cancel_left (hw.symm.trans hserial)
        have hshort : s.loopStep.port.serial.length < 256 := by
          have hle := congrArg List.length hserial
          rw [List.length_append] at hle
          omega
        have hprogress : s.loopStep.work < n := by
          refine hn ▸ hless fun hplace hcut => hdone ?_
          -- 'available' finds nothing, and no escape waits for its byte
          have hnil : s.port.serial = [] := List.eq_nil_of_length_eq_zero (by omega)
          have hat := h.atPlace
          rw [hplace] at hat
          refine ⟨hnil, hat.resolve_right fun hesc => ?_⟩
          have hphase := h.phase
          rw [hnil, hesc] at hphase
          obtain ⟨_, _, ⟨_, _, _, -, -, hcons⟩, -⟩ := hphase
          cases hcons
        obtain ⟨m, hm⟩ := ih _ hprogress hinv hshort rfl
        exact ⟨m + 1, hm⟩

/-- In the end the packets that a receiver has are those that were sent. -/
lemma received_all {es : List Event} (h : arrived es = frames sent)
    (hlen : (run es).port.serial.length < 256) :
    ∃ n, ∀ m ≥ n, kept (run (es ++ List.replicate m .loop)).packets = kept sent := by
  obtain ⟨bs, w, hsent, harrived, hinv⟩ := invariant_run (by rw [h])
  obtain rfl : w = (run es).port.serial :=
    List.append_cancel_left (hsent.symm.trans (h.symm.trans harrived))
  obtain ⟨n, hn⟩ := exists_iterate hinv hlen
  refine ⟨n, fun m hm => ?_⟩
  obtain ⟨k, rfl⟩ := Nat.exists_eq_add_of_le hm
  have hlast : Invariant sent [] (loopStep^[n + k] (run es))
      ∧ (loopStep^[n + k] (run es)).port.rstate = .char := by
    induction k with
    | zero => exact hn
    | succ k ih =>
        have hk := ih (Nat.le_add_right n k)
        rw [← Nat.add_assoc, Function.iterate_succ_apply']
        exact hk.1.steps_of_nil hk.2
  have hphase := hlast.1.phase
  rw [hlast.2] at hphase
  rw [run_replicate]
  exact hphase.kept_eq

/-- **Packets are received as they were sent**, empty packets aside.  However the bytes arrive
between the calls of the loop, the packets that it has are a first part of those that were sent.
Once all has arrived, and the loop has taken all but fewer than 256 bytes, it goes on to receive
them all, and no others. -/
theorem packets_delivered {es : List Event} (h : arrived es <+: frames sent) :
    kept (run es).packets <+: kept sent
      ∧ (arrived es = frames sent → (run es).port.serial.length < 256 →
        ∃ n, ∀ m ≥ n, kept (run (es ++ List.replicate m .loop)).packets = kept sent) :=
  ⟨received_isPrefix h, received_all⟩

/-- An escaped delimiter, in two pieces with a step of the loop between them. -/
theorem packets_delivered_pieces :
    kept (run [.arrive [192, 219], .loop, .arrive [220, 192]]).packets <+: kept [[192]]
      ∧ (arrived [.arrive [192, 219], .loop, .arrive [220, 192]] = frames [[192]] →
        (run [.arrive [192, 219], .loop, .arrive [220, 192]]).port.serial.length < 256 →
        ∃ n, ∀ m ≥ n, kept (run ([.arrive [192, 219], .loop, .arrive [220, 192]]
          ++ List.replicate m .loop)).packets = kept [[192]]) :=
  packets_delivered (by decide)

/-- `available` finds nothing in a multiple of 256 bytes. -/
lemma availableFrom_of_cut (rstate : Erstate) {serial : List UInt8}
    (h : serial.length % 256 = 0) :
    SLIPSerial.availableFrom rstate serial = (0, ⟨rstate, serial⟩) := by
  cases serial with
  | nil => rfl
  | cons c serial =>
      rw [List.length_cons] at h
      rw [SLIPSerial.availableFrom.eq_def]
      exact if_pos h

/-- **The loop stands still**, at a port without a delimiter that was seen and without arrivals,
exactly when a multiple of 256 bytes waits. -/
theorem stalls_iff {s : Receiver} (hplace : s.place = .endofPacket)
    (hrstate : s.port.rstate = .char ∨ s.port.rstate = .slipesc) :
    (∀ n, (loopStep^[n] s).port.serial = s.port.serial) ↔ s.port.serial.length % 256 = 0 := by
  obtain ⟨⟨rstate, serial⟩, place, filled, packets⟩ := s
  obtain rfl : place = .endofPacket := hplace
  have hfirst : loopStep ⟨⟨rstate, serial⟩, .endofPacket, filled, packets⟩
      = ⟨⟨rstate, serial⟩, .available, filled, packets⟩ := by
    rcases hrstate with h | h
    · obtain rfl : rstate = .char := h
      rfl
    · obtain rfl : rstate = .slipesc := h
      rfl
  have hsecond : loopStep ⟨⟨rstate, serial⟩, .available, filled, packets⟩
      = ⟨(SLIPSerial.availableFrom rstate serial).2,
          if 0 < (SLIPSerial.availableFrom rstate serial).1 then
            .read (SLIPSerial.availableFrom rstate serial).1 else .endofPacket,
          filled, packets⟩ := rfl
  constructor
  · intro h
    by_contra hcut
    have htwo := h 2
    have hthree := h 3
    simp only [Function.iterate_succ_apply, Function.iterate_zero_apply, hfirst, hsecond]
      at htwo hthree
    have hcases := SLIPSerial.available_cases hrstate serial
    generalize (SLIPSerial.availableFrom rstate serial).1 = n at hcases hthree
    generalize (SLIPSerial.availableFrom rstate serial).2 = port at hcases htwo hthree
    cases hcases with
    | none _ _ h => exact hcut h
    | byte c serial heot hesc =>
        have hread : SLIPSerial.read ⟨.char, c :: serial⟩ = (some c, ⟨.char, serial⟩) := by
          simp [SLIPSerial.read, SLIPSerial.readFrom, heot, hesc]
        simp [loopStep, hread] at hthree
    | escaped c serial => simp [loopStep, SLIPSerial.read, SLIPSerial.readFrom] at hthree
    | escNone serial => simp at htwo
    | escByte c serial => simp at htwo
    | eotNone serial => simp at htwo
    | eotTwice serial =>
        have hlen := congrArg List.length htwo
        simp only [List.length_cons] at hlen
        omega
    | eotByte c serial hc => simpa using congrArg List.length htwo
  · intro hcut n
    have hback : loopStep ⟨⟨rstate, serial⟩, .available, filled, packets⟩
        = ⟨⟨rstate, serial⟩, .endofPacket, filled, packets⟩ := by
      rw [hsecond, availableFrom_of_cut rstate hcut]
      rfl
    have hloop : loopStep^[n] ⟨⟨rstate, serial⟩, .endofPacket, filled, packets⟩
          = ⟨⟨rstate, serial⟩, .endofPacket, filled, packets⟩
        ∨ loopStep^[n] ⟨⟨rstate, serial⟩, .endofPacket, filled, packets⟩
          = ⟨⟨rstate, serial⟩, .available, filled, packets⟩ := by
      induction n with
      | zero => exact Or.inl rfl
      | succ n ih =>
          rw [Function.iterate_succ_apply']
          rcases ih with ih | ih
          · rw [ih, hfirst]
            exact Or.inr rfl
          · rw [ih, hback]
            exact Or.inl rfl
    rcases hloop with hloop | hloop <;> rw [hloop]

/-- A port with one byte, which is read. -/
theorem stalls_iff_byte :
    (∀ n, (loopStep^[n] ⟨⟨.char, [7]⟩, .endofPacket, [], []⟩).port.serial = [7])
      ↔ [(7 : UInt8)].length % 256 = 0 :=
  stalls_iff (s := ⟨⟨.char, [7]⟩, .endofPacket, [], []⟩) rfl (Or.inl rfl)

end Receiver

end EmbodiedSynth.Osc
