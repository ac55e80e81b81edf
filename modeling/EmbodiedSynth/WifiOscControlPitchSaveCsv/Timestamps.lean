/-
Sensor timestamps on their way from the board to the CSV.

The board counts milliseconds in 32 bits, sends the count as a signed 32-bit integer, and the
recorder keeps it in a float.  The first two steps lose nothing below `2 ^ 31`.  The float has
a 24-bit significand, so from `2 ^ 24` on only the multiples of a power of two survive.

* `Carries`: the message the recorder receives is the one that was sent.
* `TimestampsSurvive`: the recorded sensor times of a run are those of the board.
* `timestamps_survive_iff`: they are exactly when every timestamp sent is an odd part below
  `2 ^ 24` times a power of two.
-/
import EmbodiedSynth.WifiOscControlPitchSaveCsv.Sketch
import EmbodiedSynth.Firmware.OscSender
import EmbodiedSynth.Library.Rounding

namespace EmbodiedSynth.WifiOscControlPitchSaveCsv

open Arduino Firmware.OscSender Rounding

/-- An argument is carried unchanged. -/
def CarriesArg {K : Type*} : Firmware.OscArg K → OscArgument K → Prop
  | .int32 n, a => a.intValue = n.toInt
  | .float x, a => a.floatValue = .fin x

/-- A message is carried unchanged. -/
def Carries {K : Type*} (m : Firmware.OscMessage K) (msg : OscMessage K) : Prop :=
  msg.addrPattern = m.address ∧ List.Forall₂ CarriesArg m.arguments msg.arguments

variable (B : BoardFloat ℚ) (smoothing : ℚ)

/-- The sensor time the recorder stores when it receives a sent message. -/
lemma sensorTimestamp_oscEvent {inputs : List LoopInput} {i : LoopInput}
    {m : Firmware.OscMessage ℚ} (h : Sends B smoothing inputs i m) (ht : i.timestamp < 2 ^ 31)
    {msg : OscMessage ℚ} (hmsg : Carries m msg) (r : State ℚ) :
    (oscEvent float32 r msg).sensorTimestamp = binary32.roundExt ((i.timestamp : ℤ) : ℚ) := by
  obtain ⟨x, rfl⟩ := h.eq
  obtain ⟨addrPattern, arguments⟩ := msg
  obtain ⟨haddr, hargs⟩ := hmsg
  obtain rfl : addrPattern = "/stretch" := haddr
  cases hargs with
  | cons h0 hargs =>
      cases hargs with
      | cons h1 hargs =>
          cases hargs with
          | cons h2 hargs =>
              rw [oscEvent, if_pos rfl]
              show float32.ofInt _ = _
              rw [show _ = _ from h0, toInt_millis ht]
              rfl

/-- The recorded sensor times of a run are the times of the board: what is stored on receipt
and written by the next `draw` is exact, and later samples have later times. -/
structure TimestampsSurvive (inputs : List LoopInput) : Prop where
  stored : ∀ i m, Sends B smoothing inputs i m → ∀ msg, Carries m msg → ∀ r : State ℚ,
    (oscEvent float32 r msg).sensorTimestamp = .fin i.timestamp
  written : ∀ i m, Sends B smoothing inputs i m → ∀ msg, Carries m msg → ∀ (r : State ℚ) now,
    ((draw float32 (oscEvent float32 r msg) now).csv.getLast?).map Row.sensorTimeMs
      = some (.fin i.timestamp)
  ordered : ∀ i m, Sends B smoothing inputs i m → ∀ msg, Carries m msg →
    ∀ j n, Sends B smoothing inputs j n → ∀ msg', Carries n msg' → ∀ r r' : State ℚ,
    i.timestamp < j.timestamp →
      (oscEvent float32 r msg).sensorTimestamp < (oscEvent float32 r' msg').sensorTimestamp

/-- A sent message can be received. -/
lemma exists_carries {inputs : List LoopInput} {i : LoopInput} {m : Firmware.OscMessage ℚ}
    (h : Sends B smoothing inputs i m) : ∃ msg, Carries m msg := by
  obtain ⟨x, rfl⟩ := h.eq
  exact ⟨⟨"/stretch", [⟨(Firmware.millis i.timestamp).toInt, .nan⟩,
    ⟨(BitVec.ofNat 32 i.rawValue).toInt, .nan⟩, ⟨0, .fin x⟩]⟩, rfl,
    .cons rfl (.cons rfl (.cons rfl .nil))⟩

/-- A time that a float keeps: an odd part below `2 ^ 24` times a power of two. -/
def Kept (t : ℕ) : Prop := ∃ n k : ℕ, n < 2 ^ 24 ∧ t = n * 2 ^ k

/-- These are the integers of a 24-bit significand. -/
lemma roundExt_eq_self_iff {t : ℕ} (ht : t < 2 ^ 31) :
    binary32.roundExt ((t : ℤ) : ℚ) = .fin ((t : ℤ) : ℚ) ↔ Kept t := by
  rw [binary32.roundExt_intCast_eq_self_iff (by rw [Nat.abs_cast]; omega)]
  constructor
  · rintro ⟨m, k, hm, hmk⟩
    refine ⟨m.natAbs, k, ?_, ?_⟩
    · zify
      exact hm
    · have habs := congrArg Int.natAbs hmk
      rwa [Int.natAbs_mul, Int.natAbs_pow, Int.natAbs_natCast] at habs
  · rintro ⟨n, k, hn, rfl⟩
    refine ⟨n, k, ?_, by push_cast; rfl⟩
    rw [Nat.abs_cast]
    exact_mod_cast hn

/-- **Timestamps on the way to the CSV**: over a run within `2 ^ 31` milliseconds of boot they
survive exactly when a float keeps every one of them. -/
theorem timestamps_survive_iff {inputs : List LoopInput}
    (htime : ∀ i ∈ inputs, i.timestamp < 2 ^ 31) :
    TimestampsSurvive B smoothing inputs
      ↔ ∀ i m, Sends B smoothing inputs i m → Kept i.timestamp := by
  constructor
  · intro h i m hsend
    have ht := htime i hsend.mem
    obtain ⟨msg, hmsg⟩ := exists_carries B smoothing hsend
    rw [← roundExt_eq_self_iff ht, ← sensorTimestamp_oscEvent B smoothing hsend ht hmsg (init ℚ)]
    exact_mod_cast h.stored i m hsend msg hmsg (init ℚ)
  · intro h
    have hstored : ∀ i m, Sends B smoothing inputs i m → ∀ msg, Carries m msg → ∀ r : State ℚ,
        (oscEvent float32 r msg).sensorTimestamp = .fin i.timestamp := by
      intro i m hsend msg hmsg r
      have ht := htime i hsend.mem
      rw [sensorTimestamp_oscEvent B smoothing hsend ht hmsg,
        (roundExt_eq_self_iff ht).mpr (h i m hsend)]
      norm_cast
    refine ⟨hstored, fun i m hsend msg hmsg r now => ?_, ?_⟩
    · simp [draw, hstored i m hsend msg hmsg r]
    · intro i m hsend msg hmsg j n hsend' msg' hmsg' r r' hlt
      rw [hstored i m hsend msg hmsg, hstored j n hsend' msg' hmsg', ExtNum.fin_lt_fin]
      exact_mod_cast hlt

/-- A run of one iteration, ten milliseconds after boot, meets the condition. -/
theorem timestamps_survive_iff_tenMs :
    TimestampsSurvive .exact (smoothingFactor .exact) [⟨10, 2600, 10⟩] :=
  (timestamps_survive_iff _ _ (by decide)).mpr fun i m hsend => by
    obtain rfl := List.mem_singleton.mp hsend.mem
    exact ⟨10, 0, by norm_num, by norm_num⟩

/-- A sample sent a millisecond after `2 ^ 24`: the odd count does not fit the float. -/
theorem timestamp_lost :
    ¬ TimestampsSurvive .exact (smoothingFactor .exact) [⟨16777217, 2600, 16777217⟩] := by
  intro h
  have hsend : Sends .exact (smoothingFactor .exact)
      [⟨16777217, 2600, 16777217⟩] ⟨16777217, 2600, 16777217⟩
      { address := "/stretch"
        arguments := [.int32 16777217, .int32 2600,
          .float (smooth .exact (smoothingFactor .exact) (0 : ℚ) 2600)] } :=
    ⟨[], [], rfl, rfl⟩
  obtain ⟨msg, hmsg⟩ := exists_carries _ _ hsend
  have hround := sensorTimestamp_oscEvent _ _ hsend (by norm_num) hmsg (init ℚ)
  rw [h.stored _ _ hsend msg hmsg (init ℚ)] at hround
  obtain ⟨n, k, hn, hnk⟩ := (roundExt_eq_self_iff (t := 16777217) (by norm_num)).mp
    (by exact_mod_cast hround.symm)
  cases k with
  | zero => omega
  | succ k =>
      have hdvd : 2 ∣ 16777217 := ⟨n * 2 ^ k, by rw [hnk]; ring⟩
      exact absurd hdvd (by decide)

end EmbodiedSynth.WifiOscControlPitchSaveCsv
