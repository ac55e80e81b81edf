/-
The observed range over a run.

The two bounds start from opposite sentinels, every accepted line widens them, and the key `x`
takes them back to the current reading.

* `observed`: the readings the range is about: those accepted since the last `x`, after the one
  that was current at it.
* `Spans`: two bounds are the least and the greatest of some readings, or the sentinels where
  there are none; `Spans.concat` is one more reading.
* `Observes`, `observes_run`: the bounds of a run span its observed readings.
* `observed_range`: the range of a run, before and after the first accepted line.
-/
import EmbodiedSynth.Library.Rounding
import EmbodiedSynth.Synths2Sensors.Windows

namespace EmbodiedSynth.Synths2Sensors

open ExtNum Rounding

variable {K : Type*} [Field K] [LinearOrder K] (A : FloatArith K)

/-! ### The observed readings -/

/-- A press of the key that resets the observed range. -/
def Event.isReset : Event → Bool
  | .keyPressed key _ => key = 'x' || key = 'X'
  | _ => false

/-- The readings of a run, in order. -/
def readingsOf (es : List Event) : List (ExtNum K) := es.filterMap (accepted A)

/-- The reading current at the last reset, if there were both, and the readings since. -/
def observed (es : List Event) : List (ExtNum K) :=
  (readingsOf A (es.rdropWhile fun e => !e.isReset)).getLast?.toList
    ++ readingsOf A (es.rtakeWhile fun e => !e.isReset)

/-- A line that carries a float: a finite number that does not overflow. -/
def FiniteFloat (e : Event) : Prop :=
  ∀ v, accepted A e = some v → ∃ x, v = .fin x ∧ |x| ≤ floatMax K

variable {A} in
lemma finiteFloat_of_accepted {e : Event} {x : K} (h : accepted A e = some (.fin x))
    (hx : |x| ≤ floatMax K) : FiniteFloat A e := by
  intro v hv
  exact ⟨x, Option.some.inj (hv.symm.trans h), hx⟩

lemma readingsOf_concat (es : List Event) (e : Event) :
    readingsOf A (es ++ [e]) = readingsOf A es ++ (accepted A e).toList := by
  rw [readingsOf, List.filterMap_append, List.filterMap_cons]
  cases accepted A e <;> rfl

/-- A reset is no line. -/
lemma accepted_of_reset {e : Event} (h : e.isReset = true) : accepted A e = none := by
  cases e with
  | serialEvent incoming => exact absurd h Bool.false_ne_true
  | keyPressed key millis => rfl
  | draw millis => rfl

/-- A reset leaves the reading current at it. -/
lemma observed_concat_of_reset (es : List Event) {e : Event} (h : e.isReset = true) :
    observed A (es ++ [e]) = (readingsOf A es).getLast?.toList := by
  rw [observed, List.rdropWhile_concat_neg _ _ _ (by simp [h]),
    List.rtakeWhile_concat_neg _ _ _ (by simp [h]), readingsOf_concat, accepted_of_reset A h]
  simp [readingsOf]

/-- Any other event adds its reading. -/
lemma observed_concat_of_not_reset (es : List Event) {e : Event} (h : e.isReset = false) :
    observed A (es ++ [e]) = observed A es ++ (accepted A e).toList := by
  rw [observed, List.rdropWhile_concat_pos _ _ _ (by simp [h]),
    List.rtakeWhile_concat_pos _ _ _ (by simp [h]), readingsOf_concat, ← List.append_assoc]
  rfl

/-- The observed readings are readings, and the last reading is one of them. -/
lemma observed_subset (es : List Event) : (∀ v ∈ observed A es, v ∈ readingsOf A es)
    ∧ ∀ v ∈ (readingsOf A es).getLast?, v ∈ observed A es := by
  induction es using List.reverseRecOn with
  | nil => simp [observed, readingsOf]
  | append_singleton es e ih =>
      rw [readingsOf_concat]
      cases hreset : e.isReset with
      | true =>
          have hacc := accepted_of_reset A hreset
          rw [observed_concat_of_reset A es hreset, hacc, Option.toList_none, List.append_nil]
          refine ⟨fun v hv => ?_, fun v hv => Option.mem_toList.mpr hv⟩
          exact List.mem_of_getLast? (Option.mem_toList.mp hv)
      | false =>
          rw [observed_concat_of_not_reset A es hreset]
          cases accepted A e with
          | none => simpa using ih
          | some w =>
              refine ⟨fun v hv => ?_, fun v hv => ?_⟩
              · rcases List.mem_append.mp hv with hv | hv
                · exact List.mem_append_left _ (ih.1 v hv)
                · exact List.mem_append_right _ hv
              · obtain rfl : w = v := by simpa using hv
                exact List.mem_append_right _ (by simp)

/-! ### Bounds of readings -/

/-- Two bounds are the least and the greatest of the numbers among some readings, and the
sentinels where there is no reading. -/
def Spans (lo hi : ExtNum K) (vs : List (ExtNum K)) : Prop :=
  vs = [] ∧ lo = .fin (floatMax K) ∧ hi = .fin (-floatMax K)
    ∨ ∃ l h, lo = .fin l ∧ hi = .fin h ∧ IsLeast {x | .fin x ∈ vs} l
      ∧ IsGreatest {x | .fin x ∈ vs} h

omit [Field K] [LinearOrder K] in
lemma setOf_mem_concat (vs : List (ExtNum K)) (x : K) :
    {y | .fin y ∈ vs ++ [.fin x]} = {y | .fin y ∈ vs} ∪ {x} := by
  ext y
  simp [or_comm]

/-- One reading spans itself. -/
lemma spans_singleton (x : K) : Spans (.fin x) (.fin x) [.fin x] := by
  have hset : {y | ExtNum.fin y ∈ [ExtNum.fin x]} = {x} := by
    ext y
    simp
  refine Or.inr ⟨x, x, rfl, rfl, ?_, ?_⟩
  · rw [hset]
    exact isLeast_singleton
  · rw [hset]
    exact isGreatest_singleton

/-- **One more reading**, the first of which sets both bounds. -/
lemma Spans.concat [IsStrictOrderedRing K] {lo hi : ExtNum K} {vs : List (ExtNum K)}
    (h : Spans lo hi vs) {x : K} (hx : |x| ≤ floatMax K) :
    Spans (Processing.min (.fin x) lo) (Processing.max (.fin x) hi) (vs ++ [.fin x]) := by
  rcases h with ⟨rfl, rfl, rfl⟩ | ⟨l, h, rfl, rfl, hl, hh⟩
  · obtain ⟨hlow, hhigh⟩ := abs_le.mp hx
    rw [Processing.min_fin, Processing.max_fin, min_eq_left hhigh, max_eq_left hlow]
    exact spans_singleton x
  · rw [Processing.min_fin, Processing.max_fin]
    refine Or.inr ⟨_, _, rfl, rfl, ?_, ?_⟩
    · rw [setOf_mem_concat, min_comm]
      exact hl.union isLeast_singleton
    · rw [setOf_mem_concat, max_comm]
      exact hh.union isGreatest_singleton

/-! ### The bounds of a run -/

omit [Field K] in
/-- The two comparisons do not disturb each other. -/
lemma updateObservedRange_bounds (s : State K) :
    (updateObservedRange s).observedMin = Processing.min s.smoothedValue s.observedMin
      ∧ (updateObservedRange s).observedMax = Processing.max s.smoothedValue s.observedMax := by
  rw [Processing.min, Processing.max]
  by_cases hmin : s.smoothedValue < s.observedMin <;>
    by_cases hmax : s.smoothedValue > s.observedMax <;>
      simp [updateObservedRange, hmin, hmax]

/-- An accepted line widens the bounds. -/
lemma observed_store (s : State K) (newRaw newSmoothed : ExtNum K) :
    (store A s newRaw newSmoothed).observedMin = Processing.min newSmoothed s.observedMin
      ∧ (store A s newRaw newSmoothed).observedMax = Processing.max newSmoothed s.observedMax := by
  have hreadings : (store A s newRaw newSmoothed).readings
      = (updateObservedRange
          { s with rawValue := newRaw, smoothedValue := newSmoothed,
                   sensorDataReceived := true }).readings := by
    rw [store, readings_collectSample, readings_updateSensorStatus]
  obtain ⟨hmin, hmax⟩ := updateObservedRange_bounds
    { s with rawValue := newRaw, smoothedValue := newSmoothed, sensorDataReceived := true }
  exact ⟨(congrArg Readings.observedMin hreadings).trans hmin,
    (congrArg Readings.observedMax hreadings).trans hmax⟩

omit [LinearOrder K] in
/-- A key other than the resetting one leaves the readings. -/
lemma readings_keyPressed {key : Char} {millis : ℤ}
    (h : (Event.keyPressed key millis).isReset = false) (s : State K) :
    (keyPressed s key millis).readings = s.readings := by
  have hx : ¬ (key = 'x' ∨ key = 'X') := by simpa [Event.isReset] using h
  by_cases hr : key = 'r' ∨ key = 'R'
  · rcases hr with rfl | rfl <;> exact readings_startCalibration .relaxed s millis
  by_cases hs : key = 's' ∨ key = 'S'
  · rcases hs with rfl | rfl <;> exact readings_startCalibration .stretched s millis
  simp only [keyPressed, if_neg hr, if_neg hs, if_neg hx]
  split_ifs <;> rfl

/-- What is known after a run: its bounds span its observed readings, data has been received
once a line was accepted, and the last accepted reading is the current one. -/
structure Observes (s : State K) (es : List Event) : Prop where
  spans : Spans s.observedMin s.observedMax (observed A es)
  received : s.sensorDataReceived = true ↔ readingsOf A es ≠ []
  current : ∀ v ∈ (readingsOf A es).getLast?, s.smoothedValue = v

variable {A}

/-- An event that changes no reading and resets nothing. -/
lemma Observes.of_readings {s t : State K} {es : List Event} (h : Observes A s es)
    (hread : t.readings = s.readings) {e : Event} (hacc : accepted A e = none)
    (hreset : e.isReset = false) : Observes A t (es ++ [e]) := by
  have hmin : t.observedMin = s.observedMin := congrArg Readings.observedMin hread
  have hmax : t.observedMax = s.observedMax := congrArg Readings.observedMax hread
  have hrec : t.sensorDataReceived = s.sensorDataReceived :=
    congrArg Readings.sensorDataReceived hread
  have hsmooth : t.smoothedValue = s.smoothedValue := congrArg Readings.smoothedValue hread
  refine ⟨?_, ?_, ?_⟩
  · rw [hmin, hmax, observed_concat_of_not_reset A es hreset, hacc, Option.toList_none,
      List.append_nil]
    exact h.spans
  · rw [hrec, readingsOf_concat, hacc, Option.toList_none, List.append_nil]
    exact h.received
  · rw [hsmooth, readingsOf_concat, hacc, Option.toList_none, List.append_nil]
    exact h.current

/-- A reset takes both bounds back to the current reading, or to the sentinels before any. -/
lemma Observes.reset {s : State K} {es : List Event} (h : Observes A s es)
    (hfin : ∀ v ∈ readingsOf A es, ∃ x, v = .fin x) {e : Event} (hacc : accepted A e = none)
    (hreset : e.isReset = true) : Observes A (resetObservedRange s) (es ++ [e]) := by
  have hfields : (resetObservedRange s).sensorDataReceived = s.sensorDataReceived
      ∧ (resetObservedRange s).smoothedValue = s.smoothedValue := by
    rw [resetObservedRange]
    split_ifs <;> exact ⟨rfl, rfl⟩
  refine ⟨?_, ?_, ?_⟩
  · rw [observed_concat_of_reset A es hreset, resetObservedRange]
    cases hlast : (readingsOf A es).getLast? with
    | none =>
        have hnil := List.getLast?_eq_none_iff.mp hlast
        rw [if_neg fun hrec => h.received.mp hrec hnil]
        exact Or.inl ⟨rfl, rfl, rfl⟩
    | some v =>
        have hmem := List.mem_of_getLast? hlast
        obtain ⟨x, rfl⟩ := hfin v hmem
        rw [if_pos (h.received.mpr (List.ne_nil_of_mem hmem))]
        have hcur : s.smoothedValue = .fin x := h.current _ hlast
        show Spans s.smoothedValue s.smoothedValue [.fin x]
        rw [hcur]
        exact spans_singleton x
  · rw [hfields.1, readingsOf_concat, hacc, Option.toList_none, List.append_nil]
    exact h.received
  · rw [hfields.2, readingsOf_concat, hacc, Option.toList_none, List.append_nil]
    exact h.current

/-- An accepted line widens the bounds by its reading. -/
lemma Observes.store [IsStrictOrderedRing K] {s : State K} {es : List Event}
    (h : Observes A s es) {e : Event} (newRaw : ExtNum K) {x : K}
    (hacc : accepted A e = some (.fin x))
    (hx : |x| ≤ floatMax K) (hreset : e.isReset = false) :
    Observes A (store A s newRaw (.fin x)) (es ++ [e]) := by
  obtain ⟨-, hsmooth, hrec⟩ := store_reading A s newRaw (.fin x)
  obtain ⟨hmin, hmax⟩ := observed_store A s newRaw (.fin x)
  refine ⟨?_, ?_, ?_⟩
  · rw [hmin, hmax, observed_concat_of_not_reset A es hreset, hacc]
    exact h.spans.concat hx
  · rw [hrec, readingsOf_concat, hacc]
    simp
  · rw [hsmooth, readingsOf_concat, hacc]
    simp

/-- **Every event keeps it.** -/
theorem Observes.step [IsStrictOrderedRing K] {s : State K} {es : List Event}
    (h : Observes A s es) (hfin : ∀ v ∈ readingsOf A es, ∃ x, v = .fin x) {e : Event}
    (he : FiniteFloat A e) : Observes A (Synths2Sensors.step A s e) (es ++ [e]) := by
  cases e with
  | serialEvent incoming =>
      rcases serialEvent_cases A incoming with ⟨hacc, hs⟩ | ⟨line, newRaw, newSmoothed, rfl, hr, hs⟩
      · rw [hs]; exact h.of_readings rfl hacc rfl
      · have hacc : accepted A (.serialEvent (some line)) = some newSmoothed := by
          rw [accepted, hr]; rfl
        obtain ⟨x, rfl, hx⟩ := he newSmoothed hacc
        rw [hs]; exact h.store newRaw hacc hx rfl
  | keyPressed key millis =>
      cases hreset : (Event.keyPressed key millis).isReset with
      | false => exact h.of_readings (readings_keyPressed hreset s) rfl hreset
      | true =>
          have hstep : Synths2Sensors.step A s (.keyPressed key millis) = resetObservedRange s := by
            have hx : key = 'x' ∨ key = 'X' := by simpa [Event.isReset] using hreset
            rcases hx with rfl | rfl <;> rfl
          rw [hstep]
          exact h.reset hfin rfl hreset
  | draw millis => exact h.of_readings (readings_draw A s millis) rfl rfl

/-- And so it holds of every run. -/
lemma observes_run [IsStrictOrderedRing K] {es : List Event} (hfin : ∀ e ∈ es, FiniteFloat A e) :
    Observes A (run A es) es := by
  induction es using List.reverseRecOn with
  | nil => exact ⟨Or.inl ⟨rfl, rfl, rfl⟩, by simp [run, init, readingsOf], by simp [readingsOf]⟩
  | append_singleton es e ih =>
      have hes : ∀ e' ∈ es, FiniteFloat A e' := fun e' he' => hfin e' (List.mem_append_left _ he')
      rw [run_concat]
      refine (ih hes).step (fun v hv => ?_) (hfin e (by simp))
      obtain ⟨e', he', hacc⟩ := List.mem_filterMap.mp hv
      obtain ⟨x, hx, -⟩ := hes e' he' v hacc
      exact ⟨x, hx⟩

/-- **The observed range**: after any run of finite lines, once a line was accepted, the two bounds
are the least and the greatest of the observed readings, and the current reading lies between
them; before, they are the sentinels. -/
theorem observed_range [IsStrictOrderedRing K] {es : List Event}
    (hfin : ∀ e ∈ es, FiniteFloat A e) :
    (readingsOf A es ≠ [] → ∃ lo hi, (run A es).observedMin = .fin lo
        ∧ (run A es).observedMax = .fin hi ∧ IsLeast {x | .fin x ∈ observed A es} lo
        ∧ IsGreatest {x | .fin x ∈ observed A es} hi
        ∧ (run A es).observedMin ≤ (run A es).smoothedValue
        ∧ (run A es).smoothedValue ≤ (run A es).observedMax)
      ∧ (readingsOf A es = [] → (run A es).observedMin = .fin (floatMax K)
        ∧ (run A es).observedMax = .fin (-floatMax K)) := by
  have h := observes_run hfin
  obtain ⟨hsub, hlastmem⟩ := observed_subset A es
  refine ⟨fun hne => ?_, fun hnil => ?_⟩
  · obtain ⟨v, hv⟩ : ∃ v, v ∈ (readingsOf A es).getLast? :=
      ⟨_, List.getLast?_eq_some_getLast hne⟩
    have hmem := hlastmem v hv
    rcases h.spans with ⟨hempty, -⟩ | ⟨lo, hi, hlo, hhi, hleast, hgreatest⟩
    · rw [hempty] at hmem
      exact absurd hmem List.not_mem_nil
    · obtain ⟨e, he, hacc⟩ := List.mem_filterMap.mp (hsub v hmem)
      obtain ⟨x, rfl, -⟩ := hfin e he v hacc
      refine ⟨lo, hi, hlo, hhi, hleast, hgreatest, ?_, ?_⟩
      · rw [hlo, h.current _ hv, fin_le_fin]
        exact hleast.2 hmem
      · rw [hhi, h.current _ hv, fin_le_fin]
        exact hgreatest.2 hmem
  · rcases h.spans with ⟨-, hlo, hhi⟩ | ⟨lo, hi, -, -, hleast, -⟩
    · exact ⟨hlo, hhi⟩
    · have hmem := hsub _ hleast.1
      rw [hnil] at hmem
      exact absurd hmem List.not_mem_nil

/-- Two readings, a reset and a third. -/
def resetRun : List Event :=
  [.serialEvent (some "1800,1790.50\r\n".toList), .serialEvent (some "1802,1791.50\r\n".toList),
    .keyPressed 'x' 0, .serialEvent (some "1804,1792.50\r\n".toList)]

theorem observed_range_resetRun :
    readingsOf float32 resetRun ≠ [] ∧ ∃ lo hi, (run float32 resetRun).observedMin = .fin lo
      ∧ (run float32 resetRun).observedMax = .fin hi
      ∧ IsLeast {x | .fin x ∈ observed float32 resetRun} lo
      ∧ IsGreatest {x | .fin x ∈ observed float32 resetRun} hi := by
  have hne : readingsOf float32 resetRun ≠ [] := by decide +kernel
  have hfin : ∀ e ∈ resetRun, FiniteFloat float32 e := by
    simp only [resetRun, List.forall_mem_cons, List.not_mem_nil, false_implies, implies_true,
      and_true]
    refine ⟨finiteFloat_of_accepted (x := 3581 / 2) (by decide +kernel) ?_,
      finiteFloat_of_accepted (x := 3583 / 2) (by decide +kernel) ?_, fun v hv => ?_,
      finiteFloat_of_accepted (x := 3585 / 2) (by decide +kernel) ?_⟩
    · norm_num [floatMax]
    · norm_num [floatMax]
    · exact absurd hv (by simp [accepted])
    · norm_num [floatMax]
  obtain ⟨lo, hi, hlo, hhi, hleast, hgreatest, -⟩ := (observed_range hfin).1 hne
  exact ⟨hne, lo, hi, hlo, hhi, hleast, hgreatest⟩

example : observed float32 resetRun = [.fin (3583 / 2), .fin (3585 / 2)] := by decide +kernel

end EmbodiedSynth.Synths2Sensors
