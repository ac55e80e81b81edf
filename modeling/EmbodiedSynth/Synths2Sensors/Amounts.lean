/-
How far the reading lies outside the calibrated range.

`updateSensorStatus` compares the reading with two thresholds and writes the distance on the
side where it lies outside.  It never takes a distance back.

* `Side`: the two sides of the range, with their distance, their comparison and their amount.
* `checked`: the state in which an event runs `updateSensorStatus` on a reading;
  `checked_cases` lists these events.
* `AmountsDescribe`: the amounts are the distances of the current reading.
* `amount_run_iff`: an amount is zero exactly when no check of the run found the reading outside
  on its side.
* `amounts_describe_iff`: the amounts describe the reading after every check of a run exactly
  when no check misses an excess that an earlier one found.
-/
import EmbodiedSynth.Library.RegularArith
import EmbodiedSynth.Synths2Sensors.Malformed

namespace EmbodiedSynth.Synths2Sensors

open ExtNum Machine Rounding

variable {K : Type*} [Field K] [LinearOrder K] (A : FloatArith K)

/-! ### The two sides -/

/-- The sides on which a reading can lie outside the range. -/
inductive Side where
  | below
  | above
  deriving DecidableEq

/-- The amount the sketch keeps for a side. -/
def State.amount (s : State K) : Side → ExtNum K
  | .below => s.amountBelow
  | .above => s.amountAbove

/-- What `updateSensorStatus` compares for a side: the first is the smaller where the reading
lies outside. -/
def compared (s : State K) : Side → ExtNum K × ExtNum K
  | .below => (s.smoothedValue, calibratedMin A s)
  | .above => (calibratedMax A s, s.smoothedValue)

/-- Whether the reading lies outside on a side. -/
def Outside (s : State K) (side : Side) : Prop := (compared A s side).1 < (compared A s side).2

/-- How far the reading lies past the threshold of a side. -/
def distance (s : State K) (side : Side) : ExtNum K :=
  A.sub (compared A s side).2 (compared A s side).1

/-- The amounts are the distances of the current reading, and tell whether it is in range. -/
def AmountsDescribe (s : State K) : Prop :=
  s.amountBelow = Processing.max 0 (A.sub (calibratedMin A s) s.smoothedValue)
    ∧ s.amountAbove = Processing.max 0 (A.sub s.smoothedValue (calibratedMax A s))
    ∧ ¬ (0 < s.amountBelow ∧ 0 < s.amountAbove)
    ∧ (s.amountBelow = 0 ∧ s.amountAbove = 0 ↔ s.sensorStatus = .ok)

/-! ### Checks -/

/-- The state in which an event runs `updateSensorStatus` on a reading, if it does. -/
def checked (s : State K) : Event → Option (State K)
  | .serialEvent (some line) =>
      (reading A line).map fun r => updateObservedRange
        { s with rawValue := r.1, smoothedValue := r.2, sensorDataReceived := true }
  | .draw millis => if s.sensorDataReceived then some (updateCalibration A s millis) else none
  | _ => none

variable {A} in
/-- An event checks the reading it stores, or the calibration it updates. -/
lemma checked_cases {s u : State K} {e : Event} (h : checked A s e = some u) :
    (∃ line newRaw newSmoothed, e = .serialEvent (some line)
        ∧ reading A line = some (newRaw, newSmoothed)
        ∧ u = updateObservedRange { s with
            rawValue := newRaw, smoothedValue := newSmoothed, sensorDataReceived := true })
      ∨ ∃ millis, e = .draw millis ∧ s.sensorDataReceived = true
        ∧ u = updateCalibration A s millis := by
  cases e with
  | serialEvent incoming =>
      cases incoming with
      | none => exact absurd h (by simp [checked])
      | some line =>
          obtain ⟨r, hr, rfl⟩ := Option.map_eq_some_iff.mp h
          exact Or.inl ⟨line, r.1, r.2, rfl, hr, rfl⟩
  | keyPressed key millis => exact absurd h (by simp [checked])
  | draw millis =>
      rw [checked] at h
      split_ifs at h with hrec
      exact Or.inr ⟨millis, rfl, hrec, (Option.some.inj h).symm⟩

lemma updateCalibration_amount (s : State K) (millis : ℤ) (side : Side) :
    (updateCalibration A s millis).amount side = s.amount side := by
  cases side <;> (simp only [updateCalibration, State.amount]; split_ifs <;> rfl)

/-- A check is run on the amounts the event finds, with data received. -/
lemma amount_checked {s u : State K} {e : Event} (h : checked A s e = some u) :
    u.sensorDataReceived = true ∧ ∀ side, u.amount side = s.amount side := by
  rcases checked_cases h with ⟨line, newRaw, newSmoothed, -, -, rfl⟩ | ⟨millis, -, hrec, rfl⟩
  · obtain ⟨-, -, hrec, hbelow, habove⟩ := updateObservedRange_fields
      { s with rawValue := newRaw, smoothedValue := newSmoothed, sensorDataReceived := true }
    exact ⟨hrec, fun side => by cases side <;> assumption⟩
  · exact ⟨(congrArg Readings.sensorDataReceived (readings_updateCalibration A s millis)).trans
      hrec, updateCalibration_amount A s millis⟩

/-- After a check the event touches neither the amounts nor what they are about. -/
lemma describe_step {s u : State K} {e : Event} (h : checked A s e = some u) :
    (AmountsDescribe A (step A s e) ↔ AmountsDescribe A (updateSensorStatus A u))
      ∧ ∀ side, (step A s e).amount side = (updateSensorStatus A u).amount side := by
  rcases checked_cases h with ⟨line, newRaw, newSmoothed, rfl, hr, rfl⟩ | ⟨millis, rfl, -, rfl⟩
  · have hstep : step A s (.serialEvent (some line)) = store A s newRaw newSmoothed := by
      rw [step, serialEvent, hr]
    rw [hstep, store, collectSample]
    split_ifs <;> exact ⟨Iff.rfl, fun side => by cases side <;> rfl⟩
  · exact ⟨Iff.rfl, fun side => by cases side <;> rfl⟩

/-- An event without a check leaves the amounts. -/
lemma amount_step_of_not_checked {s : State K} {e : Event} (h : checked A s e = none)
    (side : Side) : (step A s e).amount side = s.amount side := by
  cases e with
  | serialEvent incoming =>
      rcases serialEvent_cases A incoming with ⟨-, hs⟩ | ⟨line, _, _, rfl, hr, -⟩
      · rw [hs]
      · rw [checked, hr] at h
        exact absurd h (by simp)
  | keyPressed key millis =>
      show (keyPressed s key millis).amount side = _
      rcases keyPressed_cases s key millis with ⟨p, -, -, hk⟩ | ⟨-, -, hk⟩ | ⟨-, -, hk | hk | hk⟩
      · rw [hk, startCalibration]
        cases p <;> cases side <;> (simp only [State.amount]; split_ifs <;> rfl)
      · rw [hk]; cases side <;> rfl
      · rw [hk]; cases side <;> rfl
      · rw [hk, resetObservedRange]
        cases side <;> (simp only [State.amount]; split_ifs <;> rfl)
      · rw [hk]
  | draw millis =>
      rw [checked] at h
      split_ifs at h with hrec
      have hkeep : (updateCalibration A s millis).sensorDataReceived = s.sensorDataReceived :=
        congrArg Readings.sensorDataReceived (readings_updateCalibration A s millis)
      have hrec' : (!(updateCalibration A s millis).sensorDataReceived) = true := by
        rw [hkeep]
        simpa using hrec
      have hstatus : (updateSensorStatus A (updateCalibration A s millis)).amount side
          = (updateCalibration A s millis).amount side := by
        rw [updateSensorStatus, if_pos hrec']; cases side <;> rfl
      exact (show (step A s (.draw millis)).amount side = _ by cases side <;> rfl).trans
        (hstatus.trans (updateCalibration_amount A s millis side))

/-! ### One check -/

/-- The status of a check is OK exactly where the reading lies outside on neither side. -/
lemma sensorStatus_eq_ok_iff {u : State K} (hrec : u.sensorDataReceived = true) :
    (updateSensorStatus A u).sensorStatus = .ok ↔ ∀ side, ¬ Outside A u side := by
  have hsides : (∀ side, ¬ Outside A u side)
      ↔ ¬ u.smoothedValue < calibratedMin A u ∧ ¬ u.smoothedValue > calibratedMax A u :=
    ⟨fun h => ⟨h .below, h .above⟩, fun h side => by cases side; exacts [h.1, h.2]⟩
  rw [hsides, updateSensorStatus, if_neg (by simp [hrec])]
  split_ifs with hbelow habove
  · exact iff_of_false (by simp) fun h => h.1 hbelow
  · exact iff_of_false (by simp) fun h => h.2 habove
  · exact iff_of_true rfl ⟨hbelow, habove⟩

section Regular

variable {A} [IsStrictOrderedRing K] (hA : A.Regular)

include hA

/-- The reading lies outside on one side at most. -/
lemma not_outside_both (s : State K) (h : Outside A s .below) : ¬ Outside A s .above := by
  have hends : ¬ Processing.max s.relaxedSensor s.stretchedSensor
      < Processing.min s.relaxedSensor s.stretchedSensor := by
    rw [Processing.max, Processing.min]
    split_ifs with h1 h2 h2
    · exact absurd h2 (not_lt_of_lt h1)
    · exact not_lt_of_lt h1
    · exact not_lt_of_lt h2
    · exact lt_irrefl _
  intro habove
  exact hA.not_add_lt_sub hends (c := 3) (by norm_num) (lt_trans habove h)

/-- A check writes the amount of the side the reading lies on, and leaves the other. -/
lemma amount_updateSensorStatus {u : State K} (hrec : u.sensorDataReceived = true)
    (side : Side) :
    (Outside A u side → (updateSensorStatus A u).amount side = distance A u side)
      ∧ (¬ Outside A u side → (updateSensorStatus A u).amount side = u.amount side) := by
  have hboth := not_outside_both hA u
  rw [updateSensorStatus, if_neg (by simp [hrec])]
  cases side with
  | below =>
      refine ⟨fun h => ?_, fun h => ?_⟩
      · rw [if_pos (show u.smoothedValue < calibratedMin A u from h)]; rfl
      · rw [if_neg (show ¬ u.smoothedValue < calibratedMin A u from h)]
        split_ifs <;> rfl
  | above =>
      refine ⟨fun h => ?_, fun h => ?_⟩
      · rw [if_neg (show ¬ u.smoothedValue < calibratedMin A u from fun hb => hboth hb h),
          if_pos (show u.smoothedValue > calibratedMax A u from h)]
        rfl
      · rw [if_neg (show ¬ u.smoothedValue > calibratedMax A u from h)]
        split_ifs <;> rfl

omit [IsStrictOrderedRing K] in
/-- The thresholds are floats: they are results of the arithmetic. -/
lemma distance_pos {u : State K} (hu : A.IsFloat u.smoothedValue) {side : Side}
    (h : Outside A u side) : 0 < distance A u side := by
  cases side with
  | below => exact hA.sub_pos hu (A.isFloat_sub _ _) h
  | above => exact hA.sub_pos (A.isFloat_add _ _) hu h

/-- Where the distance is a number, its positive part is zero inside. -/
lemma max_distance {u : State K} {side : Side} (h : ¬ Outside A u side)
    (hne : distance A u side ≠ nan) : Processing.max 0 (distance A u side) = 0 := by
  have hle : distance A u side ≤ 0 := hA.sub_nonpos h hne
  rw [Processing.max]
  split_ifs with hlt
  · rfl
  · cases hd : distance A u side with
    | nan => exact absurd hd hne
    | negInf => rw [hd] at hlt; exact absurd (negInf_lt_fin 0) hlt
    | fin x =>
        rw [hd, zero_eq] at hle hlt
        exact congrArg fin (le_antisymm (fin_le_fin.mp hle) (not_lt.mp (mt fin_lt_fin.mpr hlt)))
    | posInf => rw [hd] at hle; exact absurd hle (not_posInf_le_fin 0)

/-- After a check the amount of a side is its distance exactly when that is a number and either
it was written or nothing was there before. -/
lemma amount_eq_max_iff {u : State K} (hrec : u.sensorDataReceived = true)
    (hu : A.IsFloat u.smoothedValue) {side : Side}
    (hamount : u.amount side = 0 ∨ 0 < u.amount side) :
    (updateSensorStatus A u).amount side = Processing.max 0 (distance A u side)
      ↔ distance A u side ≠ nan ∧ (Outside A u side ∨ u.amount side = 0) := by
  obtain ⟨hwritten, hkept⟩ := amount_updateSensorStatus hA hrec side
  by_cases hout : Outside A u side
  · have hpos := distance_pos hA hu hout
    have hne : distance A u side ≠ nan := by
      intro hnan
      rw [hnan] at hpos
      exact not_lt_nan 0 hpos
    rw [hwritten hout, Processing.max, if_neg (not_lt_of_lt hpos)]
    exact iff_of_true rfl ⟨hne, Or.inl hout⟩
  · rw [hkept hout]
    constructor
    · intro heq
      have hne : distance A u side ≠ nan := by
        intro hnan
        rw [hnan, Processing.max, if_neg (not_nan_lt 0)] at heq
        rcases hamount with hzero | hpos
        · exact absurd (hzero.symm.trans heq) (by simp)
        · rw [heq] at hpos
          exact not_lt_nan 0 hpos
      exact ⟨hne, Or.inr (heq.trans (max_distance hA hout hne))⟩
    · rintro ⟨hne, hside⟩
      rw [max_distance hA hout hne]
      exact hside.resolve_left hout

/-- And then it is zero exactly where the reading is not outside. -/
lemma amount_eq_zero_iff {u : State K} (hrec : u.sensorDataReceived = true)
    (hu : A.IsFloat u.smoothedValue) {side : Side}
    (hside : Outside A u side ∨ u.amount side = 0) :
    (updateSensorStatus A u).amount side = 0 ↔ ¬ Outside A u side := by
  obtain ⟨hwritten, hkept⟩ := amount_updateSensorStatus hA hrec side
  constructor
  · intro hzero hout
    have hpos := distance_pos hA hu hout
    rw [← hwritten hout, hzero] at hpos
    exact lt_irrefl 0 hpos
  · intro hin
    exact (hkept hin).trans (hside.resolve_left hin)

/-- **One check**: afterwards the amounts describe the reading exactly when both distances are
numbers and the reading lies outside on every side that still holds an amount. -/
theorem describe_updateSensorStatus_iff {u : State K} (hrec : u.sensorDataReceived = true)
    (hu : A.IsFloat u.smoothedValue) (hamount : ∀ side, u.amount side = 0 ∨ 0 < u.amount side) :
    AmountsDescribe A (updateSensorStatus A u)
      ↔ ∀ side, distance A u side ≠ nan ∧ (Outside A u side ∨ u.amount side = 0) := by
  have hsame : compared A (updateSensorStatus A u) = compared A u := by
    rw [updateSensorStatus]
    split_ifs <;> rfl
  constructor
  · rintro ⟨hbelow, habove, -, -⟩ side
    refine (amount_eq_max_iff hA hrec hu (hamount side)).mp ?_
    rw [distance, ← hsame]
    cases side <;> assumption
  · intro h
    have hmax : ∀ side, (updateSensorStatus A u).amount side
        = Processing.max 0 (distance A u side) :=
      fun side => (amount_eq_max_iff hA hrec hu (hamount side)).mpr (h side)
    have hzero : ∀ side, (updateSensorStatus A u).amount side = 0 ↔ ¬ Outside A u side :=
      fun side => amount_eq_zero_iff hA hrec hu (h side).2
    have hout : ∀ side, 0 < (updateSensorStatus A u).amount side → Outside A u side := by
      intro side hpos
      by_contra hin
      rw [(hzero side).mpr hin] at hpos
      exact lt_irrefl 0 hpos
    simp only [distance, ← hsame] at hmax
    refine ⟨hmax .below, hmax .above,
      fun hpos => not_outside_both hA u (hout .below hpos.1) (hout .above hpos.2), ?_⟩
    rw [sensorStatus_eq_ok_iff A hrec]
    constructor
    · rintro ⟨hbelow, habove⟩ side
      cases side with
      | below => exact (hzero .below).mp hbelow
      | above => exact (hzero .above).mp habove
    · exact fun hin => ⟨(hzero .below).mpr (hin .below), (hzero .above).mpr (hin .above)⟩

end Regular

/-! ### Runs of checks -/

/-- No check of a run found the reading outside on a side. -/
def NeverOutside (side : Side) (es : List Event) : Prop :=
  EveryStep (fun pre e => ∀ u, checked A (run A pre) e = some u → ¬ Outside A u side) es

/-- A number read from a text is a float. -/
lemma isFloat_float (cs : List Char) : A.IsFloat (Processing.float A cs) := by
  rw [Processing.float]
  split
  · next q _ =>
      cases q with
      | fin q => exact A.isFloat_round _
      | _ => rintro x ⟨⟩
  · rintro x ⟨⟩

/-- The reading is always a float. -/
lemma isFloat_smoothedValue (es : List Event) : A.IsFloat (run A es).smoothedValue := by
  refine run_invariant (P := fun s : State K => A.IsFloat s.smoothedValue) (fun s hs e _ => ?_) ?_
  · rw [smoothedValue_step]
    cases hacc : accepted A e with
    | none => exact hs
    | some v =>
        obtain ⟨line, newRaw, rfl, hr⟩ := exists_reading_of_accepted hacc
        obtain ⟨_, value1, -, -, hsmooth⟩ := fields_of_reading A hr
        exact hsmooth ▸ isFloat_float A _
  · exact_mod_cast A.isFloat_intCast (n := 1780) (by norm_num)

/-- A check looks at the reading the event leaves. -/
lemma smoothedValue_checked {s u : State K} {e : Event} (h : checked A s e = some u) :
    u.smoothedValue = (step A s e).smoothedValue := by
  rw [smoothedValue_step]
  rcases checked_cases h with ⟨line, newRaw, newSmoothed, rfl, hr, rfl⟩ | ⟨millis, rfl, -, rfl⟩
  · rw [(updateObservedRange_fields _).2.1, accepted, hr]
    rfl
  · exact congrArg Readings.smoothedValue (readings_updateCalibration A s millis)

lemma isFloat_checked {es : List Event} {u : State K} {e : Event}
    (h : checked A (run A es) e = some u) : A.IsFloat u.smoothedValue := by
  have hlast := isFloat_smoothedValue A (es ++ [e])
  rwa [run_concat, ← smoothedValue_checked A h] at hlast

section Runs

variable {A} [IsStrictOrderedRing K] (hA : A.Regular)

include hA

/-- An amount of a run is never negative, and is zero exactly when no check found the reading
outside on its side. -/
lemma amount_run_iff (side : Side) (es : List Event) :
    ((run A es).amount side = 0 ∨ 0 < (run A es).amount side)
      ∧ ((run A es).amount side = 0 ↔ NeverOutside A side es) := by
  induction es using List.reverseRecOn with
  | nil =>
      have hzero : (run A []).amount side = 0 := by cases side <;> rfl
      exact ⟨Or.inl hzero, iff_of_true hzero (everyStep_nil _)⟩
  | append_singleton es e ih =>
      rw [NeverOutside, everyStep_concat, ← NeverOutside, run_concat]
      cases hc : checked A (run A es) e with
      | none =>
          rw [amount_step_of_not_checked A hc]
          simpa using ih
      | some u =>
          obtain ⟨hrec, hbefore⟩ := amount_checked A hc
          have hu := isFloat_checked A hc
          rw [(describe_step A hc).2]
          by_cases hout : Outside A u side
          · have hpos := distance_pos hA hu hout
            rw [(amount_updateSensorStatus hA hrec side).1 hout]
            refine ⟨Or.inr hpos, iff_of_false (fun hzero => ?_) fun h => h.2 u rfl hout⟩
            rw [hzero] at hpos
            exact lt_irrefl 0 hpos
          · rw [(amount_updateSensorStatus hA hrec side).2 hout, hbefore]
            refine ⟨ih.1, ih.2.trans ⟨fun h => ⟨h, ?_⟩, fun h => h.1⟩⟩
            rintro v ⟨⟩
            exact hout

/-- **The amounts of a run**: after every check they describe the reading exactly when every
check finds two distances that are numbers, and finds the reading outside on each side where an
earlier check did. -/
theorem amounts_describe_iff (es : List Event) :
    EveryStep (fun pre e => ∀ u, checked A (run A pre) e = some u →
        AmountsDescribe A (run A (pre ++ [e]))) es
      ↔ EveryStep (fun pre e => ∀ u, checked A (run A pre) e = some u →
        ∀ side, distance A u side ≠ nan ∧ (Outside A u side ∨ NeverOutside A side pre)) es := by
  refine forall_congr' fun pre => forall_congr' fun e => forall_congr' fun post =>
    forall_congr' fun _ => forall_congr' fun u => forall_congr' fun hc => ?_
  obtain ⟨hrec, hbefore⟩ := amount_checked A hc
  have hamount : ∀ side, u.amount side = 0 ∨ 0 < u.amount side := by
    intro side
    rw [hbefore]
    exact (amount_run_iff hA side pre).1
  rw [run_concat, (describe_step A hc).1,
    describe_updateSensorStatus_iff hA hrec (isFloat_checked A hc) hamount]
  refine forall_congr' fun side => and_congr_right' (or_congr_right ?_)
  rw [hbefore, (amount_run_iff hA side pre).2]

end Runs

/-- A reading below the range, and then one inside it. -/
def backInRange : List Event :=
  [.serialEvent (some "1700,1700\r\n".toList), .serialEvent (some "1800,1800\r\n".toList)]

theorem amounts_describe_iff_float32 :
    EveryStep (fun pre e => ∀ u, checked float32 (run float32 pre) e = some u →
        AmountsDescribe float32 (run float32 (pre ++ [e]))) backInRange
      ↔ EveryStep (fun pre e => ∀ u, checked float32 (run float32 pre) e = some u →
        ∀ side, distance float32 u side ≠ nan
          ∧ (Outside float32 u side ∨ NeverOutside float32 side pre)) backInRange :=
  amounts_describe_iff (FloatArith.regular_toArith binary32 FloatArith.ratPow) backInRange

/-- The second reading is in range, and the amount of the first is still there. -/
theorem amounts_stale :
    ¬ EveryStep (fun pre e => ∀ u, checked float32 (run float32 pre) e = some u →
      AmountsDescribe float32 (run float32 (pre ++ [e]))) backInRange := by
  intro h
  obtain ⟨u, hu⟩ := Option.isSome_iff_exists.mp
    (show (checked float32 (run float32 [.serialEvent (some "1700,1700\r\n".toList)])
      (.serialEvent (some "1800,1800\r\n".toList))).isSome = true by decide +kernel)
  obtain ⟨hbelow, -⟩ := h _ _ [] rfl u hu
  exact absurd hbelow (by decide +kernel)

end EmbodiedSynth.Synths2Sensors
