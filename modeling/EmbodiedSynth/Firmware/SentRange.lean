/-
The smoothed values the OSC sender sends.

The filter of the sender starts from zero and not from a reading, as the dual sketch does.

* `sentReadings`: the readings a run has sent; `smoothedValue_run_eq_average`: the filter is
  the average of zero and them.
* `InSentRange`: every smoothed value sent lies between the least and the greatest of the
  readings sent so far.
* `firstDue`: the first iteration at which a message is due.
* `inSentRange_iff`: the values of a run are in range exactly when it reads zero there.
-/
import EmbodiedSynth.Library.Averaging
import EmbodiedSynth.Firmware.OscSender

namespace EmbodiedSynth.Firmware.OscSender

open Arduino Machine Averaging

variable {K : Type*} [Field K] [LinearOrder K] [IsStrictOrderedRing K]

/-- The readings a run sends. -/
def sentReadings (B : BoardFloat K) (smoothing : K) (inputs : List LoopInput) : List K :=
  (sending B smoothing inputs).map fun i => ((i.rawValue : ℕ) : K)

/-- Every smoothed value a run sends lies between the least and the greatest of the readings
sent so far, the current one included. -/
def InSentRange (B : BoardFloat K) (smoothing : K) (inputs : List LoopInput) : Prop :=
  EveryStep (fun pre i => ∀ m x, (loop B smoothing (run B smoothing pre) i).2 = some m →
    m.arguments[2]? = some (.float x) → Between (sentReadings B smoothing (pre ++ [i])) x) inputs

/-- The first iteration at which a message is due. -/
def firstDue (inputs : List LoopInput) : Option LoopInput :=
  inputs.find? fun i => millis i.now ≥ sendInterval

/-! ### The filter of the sender -/

section

variable (B : BoardFloat K) (smoothing : K)

/-- The first message of a run is sent where the first is due. -/
lemma head?_sending (inputs : List LoopInput) :
    (sending B smoothing inputs).head? = firstDue inputs := by
  have hdue : sends B smoothing (init K) = fun i => decide (millis i.now ≥ sendInterval) := by
    funext i
    have h := sends_iff B smoothing (init K) i
    rw [show millis i.now - (init K).lastSendTime = millis i.now from BitVec.sub_zero _] at h
    exact Bool.eq_iff_iff.mpr (h.trans decide_eq_true_iff.symm)
  rw [sending, head?_selected, hdue]
  · rfl
  · exact fun i h => loop_of_not_sends B smoothing (Bool.not_eq_true _ ▸ h)

/-- Where the first message is due it is sent, and is the only one so far. -/
lemma sends_of_firstDue {pre : List LoopInput} {i : LoopInput} (hpre : firstDue pre = none)
    (hi : firstDue (pre ++ [i]) = some i) :
    sends B smoothing (run B smoothing pre) i = true ∧ sending B smoothing (pre ++ [i]) = [i] := by
  rw [← head?_sending B smoothing, List.head?_eq_none_iff] at hpre
  rw [← head?_sending B smoothing, sending_concat, hpre, List.nil_append] at hi
  rw [sending_concat, hpre, List.nil_append]
  split_ifs at hi ⊢ with hsend
  · exact ⟨hsend, rfl⟩
  · exact absurd hi (by simp)

/-- The first reading a run sends is that of the first iteration at which a message is due. -/
lemma exists_sentReadings_eq_cons {inputs : List LoopInput} {i : LoopInput}
    (h : sends B smoothing (run B smoothing inputs) i = true) :
    ∃ j rs, firstDue (inputs ++ [i]) = some j
      ∧ sentReadings B smoothing (inputs ++ [i]) = ((j.rawValue : ℕ) : K) :: rs := by
  have hmem : i ∈ sending B smoothing (inputs ++ [i]) := by
    rw [sending_concat, if_pos h]
    exact List.mem_append_right _ (List.mem_singleton_self i)
  obtain ⟨j, js, hjs⟩ := List.exists_cons_of_ne_nil (List.ne_nil_of_mem hmem)
  refine ⟨j, js.map fun i => ((i.rawValue : ℕ) : K), ?_, ?_⟩
  · rw [← head?_sending B smoothing, hjs, List.head?_cons]
  · rw [sentReadings, hjs, List.map_cons]

end

/-- **The filter of the sender is the average of zero and the readings sent.** -/
theorem smoothedValue_run_eq_average (a : K) (inputs : List LoopInput) :
    (run BoardFloat.exact a inputs).smoothedValue
      = average a 0 (sentReadings BoardFloat.exact a inputs) := by
  rw [run, view_run (fun s y => s * (1 - a) + y * a) (sends BoardFloat.exact a)
    State.smoothedValue (fun i => ((i.rawValue : ℕ) : K))]
  · rfl
  · intro s i h
    rw [next, loop_of_sends BoardFloat.exact a h]
    rfl
  · intro s i h
    rw [next, loop_of_not_sends BoardFloat.exact a (Bool.not_eq_true _ ▸ h)]

/-- It falls short of the average of the readings by the first of them, scaled down by each
message. -/
theorem smoothedValue_run_lag (a : K) {inputs : List LoopInput} {r : K} {rs : List K}
    (h : sentReadings BoardFloat.exact a inputs = r :: rs) :
    average a r rs - (run BoardFloat.exact a inputs).smoothedValue
      = (1 - a) ^ (rs.length + 1) * r := by
  have hfirst : average a 0 (r :: rs) = average a (0 * (1 - a) + r * a) rs := rfl
  rw [smoothedValue_run_eq_average, h, hfirst, average_sub_average, pow_succ]
  ring

/-! ### The values in range -/

/-- The value an iteration sends is that of the filter after it. -/
lemma inSentRange_eq (B : BoardFloat K) (a : K) (inputs : List LoopInput) :
    InSentRange B a inputs ↔ EveryStep (fun pre i => sends B a (run B a pre) i = true →
      Between (sentReadings B a (pre ++ [i])) (run B a (pre ++ [i])).smoothedValue) inputs := by
  constructor
  · intro h pre i post hin hsend
    rw [run_concat]
    exact h pre i post hin _ _ ((loop_eq_some_iff B a).mpr ⟨hsend, rfl⟩) rfl
  · intro h pre i post hin m x hm hx
    obtain ⟨hsend, rfl⟩ := (loop_eq_some_iff B a).mp hm
    obtain rfl := OscArg.float.inj (Option.some.inj hx)
    rw [← run_concat]
    exact h pre i post hin hsend

/-- **The values sent are in range exactly when the first reading sent is zero**, or nothing is
sent: any other reading is the only one there is, and the filter has gone but a part of the way
to it from zero. -/
theorem inSentRange_iff {a : K} (h0 : 0 < a) (h1 : a < 1) (inputs : List LoopInput) :
    InSentRange BoardFloat.exact a inputs
      ↔ ∀ i, firstDue inputs = some i → (i.rawValue : ℕ) = 0 := by
  rw [inSentRange_eq]
  constructor
  · intro h i hi
    obtain ⟨hdue, pre, post, rfl, hpre⟩ := List.find?_eq_some_iff_append.mp hi
    have hnone : firstDue pre = none := List.find?_eq_none.mpr fun j hj => by simpa using hpre j hj
    have hfirst : firstDue (pre ++ [i]) = some i :=
      List.find?_eq_some_iff_append.mpr ⟨hdue, pre, [], rfl, hpre⟩
    obtain ⟨hsend, hsending⟩ := sends_of_firstDue BoardFloat.exact a hnone hfirst
    obtain ⟨⟨r, hr, hle⟩, -⟩ := h pre i post rfl hsend
    -- the average of zero and one reading is that reading times the factor
    rw [smoothedValue_run_eq_average, sentReadings, hsending] at hle
    rw [sentReadings, hsending] at hr
    obtain rfl := List.mem_singleton.mp hr
    have hpart : average a 0 [((i.rawValue : ℕ) : K)] = (i.rawValue : ℕ) * a := by
      rw [average, List.foldl_cons, List.foldl_nil]
      ring
    rw [List.map_singleton, hpart] at hle
    have hscaled : ((i.rawValue : ℕ) : K) * (1 - a) ≤ 0 := by linarith
    have hnonpos := nonpos_of_mul_nonpos_left hscaled (sub_pos.mpr h1)
    exact Nat.cast_eq_zero.mp (le_antisymm hnonpos (Nat.cast_nonneg _))
  · rintro h pre i post rfl hsend
    obtain ⟨j, rs, hj, hreadings⟩ := exists_sentReadings_eq_cons BoardFloat.exact a hsend
    have hfirst : firstDue (pre ++ i :: post) = some j := by
      rw [List.append_cons, firstDue, List.find?_append, ← firstDue, hj, Option.some_or]
    have hzero : ((j.rawValue : ℕ) : K) = 0 := by rw [h j hfirst, Nat.cast_zero]
    have hsame : average a 0 (0 :: rs) = average a (0 * (1 - a) + 0 * a) rs := rfl
    rw [smoothedValue_run_eq_average, hreadings, hzero, hsame, zero_mul, zero_mul, add_zero]
    exact between_average h0.le h1.le 0 rs

/-- A sensor at rest reads zero, and then a stretch is sent in range. -/
theorem inSentRange_at_rest :
    InSentRange BoardFloat.exact (1 / 2 : ℚ) [⟨10, 0, 10⟩, ⟨20, 4000, 20⟩] :=
  (inSentRange_iff (by norm_num) (by norm_num) _).mpr (by
    rintro i ⟨⟩
    rfl)

/-- The first reading is 4000, and 320 is sent for it. -/
theorem not_inSentRange :
    ¬ InSentRange BoardFloat.exact (smoothingFactor BoardFloat.exact : ℚ) [⟨10, 4000, 10⟩] := by
  intro h
  obtain ⟨⟨r, hr, hle⟩, -⟩ := h [] ⟨10, 4000, 10⟩ [] rfl _ _ rfl rfl
  obtain rfl : r = (4000 : ℕ) := List.mem_singleton.mp hr
  norm_num [smooth, smoothingFactor, floatLiteral, BoardFloat.exact, run, init] at hle

end EmbodiedSynth.Firmware.OscSender
