/-
The OSC sender, `sketch_embodied_synth_esp32_wifi_osc.ino`.

* `millis`: the clock of the board, a 32-bit count of milliseconds.
* `OscMessage`: a message as it is built, argument by argument.
* `loop`: one iteration; it sends a message where ten milliseconds have passed since the last.
* `sends`, `sending`: the iterations that send; `loop_of_sends` is what they write.
* `Sends`: the messages of a run, each with the iteration it was sent from.

The network is left out.
-/
import EmbodiedSynth.Library.Machine
import EmbodiedSynth.Arduino.Smoothing

namespace EmbodiedSynth.Firmware

open Arduino

/-- `millis()` at the time `t` since boot. -/
def millis (t : ℕ) : BitVec 32 := BitVec.ofNat 32 t

/-- An argument added to a message. -/
inductive OscArg (K : Type*) where
  | int32 (n : BitVec 32)
  | float (x : K)

/-- A message with its address. -/
structure OscMessage (K : Type*) where
  address : String
  arguments : List (OscArg K)

namespace OscSender

/-- The variables of the sketch. -/
structure State (K : Type*) where
  lastSendTime : BitVec 32
  smoothedValue : K

/-- What an iteration finds: the time of its first look at the clock, the reading of the
converter, and the time of its second look. -/
structure LoopInput where
  now : ℕ
  rawValue : Adc
  timestamp : ℕ

def sendInterval : BitVec 32 := 10

/-- The startup values. -/
def init (K : Type*) [Field K] : State K where
  lastSendTime := 0
  smoothedValue := 0

variable {K : Type*} [Field K] [LinearOrder K] [IsStrictOrderedRing K]
  (B : BoardFloat K) (smoothing : K)

/-- `loop()`, over the smoothing factor. -/
def loop (s : State K) (i : LoopInput) : State K × Option (OscMessage K) :=
  let now := millis i.now
  if now - s.lastSendTime ≥ sendInterval then
    let smoothedValue := smooth B smoothing s.smoothedValue i.rawValue
    let timestamp := millis i.timestamp
    ({ lastSendTime := now, smoothedValue := smoothedValue },
      some
        { address := "/stretch"
          arguments := [.int32 timestamp, .int32 (BitVec.ofNat 32 i.rawValue),
            .float smoothedValue] })
  else (s, none)

/-- The smoothing factor of the sketch. -/
def smoothingFactor : K := floatLiteral B (8 / 100)

/-- The variables of the sketch after the iterations `inputs`. -/
def run (inputs : List LoopInput) : State K :=
  Machine.run (Machine.next (loop B smoothing)) (init K) inputs

/-- The last iteration of a run. -/
lemma run_concat (inputs : List LoopInput) (i : LoopInput) :
    run B smoothing (inputs ++ [i]) = (loop B smoothing (run B smoothing inputs) i).1 :=
  Machine.run_concat _ _ _ _

/-- Whether an iteration sends a message. -/
def sends (s : State K) (i : LoopInput) : Bool := (loop B smoothing s i).2.isSome

/-- The test of `loop`. -/
lemma sends_iff (s : State K) (i : LoopInput) :
    sends B smoothing s i = true ↔ millis i.now - s.lastSendTime ≥ sendInterval := by
  simp only [sends, loop]
  split_ifs with h
  · exact ⟨fun _ => h, fun _ => rfl⟩
  · exact ⟨fun hsend => absurd hsend Bool.false_ne_true, fun hdue => absurd hdue h⟩

/-- An iteration that sends writes both variables. -/
lemma loop_of_sends {s : State K} {i : LoopInput} (h : sends B smoothing s i = true) :
    (loop B smoothing s i).1
      = ⟨millis i.now, smooth B smoothing s.smoothedValue i.rawValue⟩ := by
  simp only [loop]
  rw [if_pos ((sends_iff B smoothing s i).mp h)]

/-- Any other writes none. -/
lemma loop_of_not_sends {s : State K} {i : LoopInput} (h : ¬ sends B smoothing s i = true) :
    (loop B smoothing s i).1 = s := by
  simp only [loop]
  rw [if_neg (mt (sends_iff B smoothing s i).mpr h)]

/-- What an iteration sends, if it sends. -/
lemma loop_eq_some_iff {s : State K} {i : LoopInput} {m : OscMessage K} :
    (loop B smoothing s i).2 = some m ↔ sends B smoothing s i = true ∧ m =
      { address := "/stretch"
        arguments := [.int32 (millis i.timestamp), .int32 (BitVec.ofNat 32 i.rawValue),
          .float (loop B smoothing s i).1.smoothedValue] } := by
  rw [sends_iff]
  simp only [loop]
  split_ifs with h
  · exact ⟨fun hm => ⟨h, (Option.some.inj hm).symm⟩, fun hm => congrArg some hm.2.symm⟩
  · exact ⟨fun hm => absurd hm (by simp), fun hm => absurd hm.1 h⟩

/-- The iterations of a run that send. -/
def sending (inputs : List LoopInput) : List LoopInput :=
  Machine.selected (Machine.next (loop B smoothing)) (sends B smoothing) (init K) inputs

lemma sending_concat (inputs : List LoopInput) (i : LoopInput) :
    sending B smoothing (inputs ++ [i]) = sending B smoothing inputs
      ++ if sends B smoothing (run B smoothing inputs) i then [i] else [] :=
  Machine.selected_concat _ _ _ _ _

/-- A run on `inputs` sends the message `m` from the iteration `i`. -/
def Sends (inputs : List LoopInput) (i : LoopInput) (m : OscMessage K) : Prop :=
  ∃ pre post, inputs = pre ++ i :: post ∧ (loop B smoothing (run B smoothing pre) i).2 = some m

/-- What a sent message holds. -/
lemma Sends.eq {inputs : List LoopInput} {i : LoopInput} {m : OscMessage K}
    (h : Sends B smoothing inputs i m) : ∃ x, m =
      { address := "/stretch"
        arguments := [.int32 (millis i.timestamp), .int32 (BitVec.ofNat 32 i.rawValue),
          .float x] } := by
  obtain ⟨pre, post, -, hloop⟩ := h
  exact ⟨_, ((loop_eq_some_iff B smoothing).mp hloop).2⟩

/-- An iteration that sends is one of the run. -/
lemma Sends.mem {inputs : List LoopInput} {i : LoopInput} {m : OscMessage K}
    (h : Sends B smoothing inputs i m) : i ∈ inputs := by
  obtain ⟨pre, post, rfl, -⟩ := h
  simp

/-- As a signed number the clock counts up to `2 ^ 31`. -/
lemma toInt_millis {t : ℕ} (h : t < 2 ^ 31) : (millis t).toInt = t := by
  have hmod : t % 2 ^ 32 = t := Nat.mod_eq_of_lt (h.trans (by norm_num))
  rw [millis, BitVec.toInt_eq_toNat_of_lt, BitVec.toNat_ofNat, hmod]
  rw [BitVec.toNat_ofNat, hmod]
  omega

end OscSender

end EmbodiedSynth.Firmware
