/-
The rate of the messages of the OSC sender.

The sender compares the residues of a 32-bit clock, which goes round after 49 days.

* `Clocked`: the looks at the clock of a run, each after the one before and less than
  `2 ^ 32 - 10` milliseconds later.
* `sendTimes`, `lastSent`: when a run sends, in true time.
* `sends_iff_due`: over such looks an iteration sends exactly when ten milliseconds have passed
  since the last that did.
-/
import EmbodiedSynth.Library.RateLimiter
import EmbodiedSynth.Firmware.OscSender

namespace EmbodiedSynth.Firmware.OscSender

open Arduino Machine

variable {K : Type*} [Field K] [LinearOrder K] [IsStrictOrderedRing K]
  (B : BoardFloat K) (smoothing : K)

/-- The first looks at the clock go forward from boot, by less than `2 ^ 32 - 10` each. -/
def Clocked (inputs : List LoopInput) : Prop :=
  (0 :: inputs.map LoopInput.now).IsChain fun t u => t ≤ u ∧ u - t < 2 ^ 32 - 10

/-- The true times at which a run sends. -/
def sendTimes (inputs : List LoopInput) : List ℕ :=
  (sending B smoothing inputs).map LoopInput.now

/-- The true time of the last message of a run, and boot where it sent none. -/
def lastSent (inputs : List LoopInput) : ℕ := (sendTimes B smoothing inputs).getLast?.getD 0

/-! ### The sender is a limiter -/

/-- The test of `loop` is that of a limiter on the clock of the board. -/
lemma sends_eq (s : State K) (i : LoopInput) :
    sends B smoothing s i = RateLimiter.wrappedPasses sendInterval s.lastSendTime i.now :=
  Bool.eq_iff_iff.mpr ((sends_iff B smoothing s i).trans decide_eq_true_iff.symm)

/-- And so is what it stores. -/
lemma lastSendTime_loop (s : State K) (i : LoopInput) :
    (loop B smoothing s i).1.lastSendTime
      = RateLimiter.wrappedRecord sendInterval s.lastSendTime i.now := by
  rw [RateLimiter.wrappedRecord, ← sends_eq B smoothing]
  by_cases h : sends B smoothing s i = true
  · rw [loop_of_sends B smoothing h, if_pos h]; rfl
  · rw [loop_of_not_sends B smoothing h, if_neg h]

/-- The variable of a run is that of the limiter at the same times. -/
lemma lastSendTime_run (inputs : List LoopInput) :
    (run B smoothing inputs).lastSendTime
      = Machine.run (RateLimiter.wrappedRecord sendInterval) 0 (inputs.map LoopInput.now) := by
  induction inputs using List.reverseRecOn with
  | nil => rfl
  | append_singleton inputs i ih =>
      rw [run_concat, List.map_append, List.map_singleton, Machine.run_concat, ← ih]
      exact lastSendTime_loop B smoothing _ i

lemma clocked_iff_spaced (inputs : List LoopInput) :
    Clocked inputs ↔ RateLimiter.Spaced 32 sendInterval.toNat (inputs.map LoopInput.now) := by
  have hgap : ∀ t u : ℕ, (t ≤ u ∧ u - t < 2 ^ 32 - 10)
      ↔ t ≤ u ∧ u + sendInterval.toNat < t + 2 ^ 32 := by
    intro t u
    have hten : sendInterval.toNat = 10 := rfl
    omega
  exact List.IsChain.iff hgap

lemma Clocked.of_append {pre post : List LoopInput} (h : Clocked (pre ++ post)) : Clocked pre := by
  rw [Clocked, List.map_append, ← List.cons_append] at h
  exact h.left_of_append

/-- **The sender passes what the limiter on true time passes.** -/
theorem sends_iff_passes {pre : List LoopInput} {i : LoopInput} (h : Clocked (pre ++ [i])) :
    sends B smoothing (run B smoothing pre) i
      = RateLimiter.passes 10 (RateLimiter.lastPassed 10 (pre.map LoopInput.now)) i.now := by
  have hpos : 0 < sendInterval.toNat := by decide
  have hpre := (clocked_iff_spaced pre).mp h.of_append
  have hlast := (clocked_iff_spaced (pre ++ [i])).mp h
  rw [List.map_append] at hlast
  rw [sends_eq, lastSendTime_run, RateLimiter.wrappedRecord_run hpos hpre]
  exact RateLimiter.wrappedPasses_iff hpos hlast

lemma sendTimes_eq {inputs : List LoopInput} (h : Clocked inputs) :
    sendTimes B smoothing inputs = RateLimiter.passed 10 (inputs.map LoopInput.now) := by
  induction inputs using List.reverseRecOn with
  | nil => rfl
  | append_singleton inputs i ih =>
      have hsend := sends_iff_passes B smoothing h
      rw [List.map_append, List.map_singleton, RateLimiter.passed_concat, ← ih h.of_append,
        ← hsend, sendTimes, sending_concat, List.map_append]
      split_ifs <;> rfl

lemma lastSent_eq {inputs : List LoopInput} (h : Clocked inputs) :
    lastSent B smoothing inputs = RateLimiter.lastPassed 10 (inputs.map LoopInput.now) := by
  rw [lastSent, sendTimes_eq B smoothing h, RateLimiter.getLast?_passed]

/-- **The rate limiter is exact across the wrap of its clock**: an iteration sends exactly when ten
milliseconds of true time have passed since the last that sent, or since boot; so two messages are
ten milliseconds apart, and the first iteration at which a message is due sends it. -/
theorem sends_iff_due {inputs : List LoopInput} (hclock : Clocked inputs) :
    EveryStep (fun pre i => sends B smoothing (run B smoothing pre) i = true
        ↔ lastSent B smoothing pre + 10 ≤ i.now) inputs
      ∧ (sendTimes B smoothing inputs).Pairwise (fun t u => t + 10 ≤ u)
      ∧ EveryStep (fun pre i => lastSent B smoothing (pre ++ [i])
          = if lastSent B smoothing pre + 10 ≤ i.now then i.now else lastSent B smoothing pre)
        inputs := by
  have hsplit : ∀ pre i post, inputs = pre ++ i :: post → Clocked (pre ++ [i]) := by
    rintro pre i post rfl
    rw [List.append_cons] at hclock
    exact hclock.of_append
  refine ⟨fun pre i post h => ?_, ?_, fun pre i post h => ?_⟩
  · have hlast := hsplit pre i post h
    beta_reduce
    rw [sends_iff_passes B smoothing hlast, RateLimiter.passes_iff,
      lastSent_eq B smoothing hlast.of_append]
  · rw [sendTimes_eq B smoothing hclock]
    exact RateLimiter.passed_pairwise 10 _
  · have hlast := hsplit pre i post h
    beta_reduce
    rw [lastSent_eq B smoothing hlast, lastSent_eq B smoothing hlast.of_append, List.map_append,
      List.map_singleton, RateLimiter.lastPassed_concat, RateLimiter.record]
    simp only [RateLimiter.passes_iff]

/-- Across the wrap: sixteen milliseconds before it a message is sent, eight before it none is
due, and three after it the next is. -/
theorem sends_iff_due_wrap :
    let inputs : List LoopInput := [⟨2 ^ 32 - 16, 0, 2 ^ 32 - 16⟩, ⟨2 ^ 32 - 8, 0, 2 ^ 32 - 8⟩,
      ⟨2 ^ 32 + 3, 0, 2 ^ 32 + 3⟩]
    EveryStep (fun pre i => sends BoardFloat.exact (1 / 2 : ℚ) (run BoardFloat.exact (1 / 2) pre) i
        = true ↔ lastSent BoardFloat.exact (1 / 2 : ℚ) pre + 10 ≤ i.now) inputs :=
  (sends_iff_due BoardFloat.exact (1 / 2 : ℚ) (by simp [Clocked])).1

example : sendTimes BoardFloat.exact (1 / 2 : ℚ)
    [⟨2 ^ 32 - 16, 0, 2 ^ 32 - 16⟩, ⟨2 ^ 32 - 8, 0, 2 ^ 32 - 8⟩, ⟨2 ^ 32 + 3, 0, 2 ^ 32 + 3⟩]
      = [2 ^ 32 - 16, 2 ^ 32 + 3] := by decide

end EmbodiedSynth.Firmware.OscSender
