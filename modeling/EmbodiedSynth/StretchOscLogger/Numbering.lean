/-
The rows of the Max logger and their numbers.

* `rows`: the rows among what a run writes, with the files they go to; `logged`: the `list`
  messages whose file opened.
* `rows_step`: the row a step appends; `rows_emitted`: while no `start` comes, the rows of a
  run are those messages, numbered on from the counter.
* `listOutcome`: each `list` appends one row and sends it out, or reports one error and
  changes nothing.
* `logFreq_inBand`: the frequency of a number lies in the band.
* `rows_numbered`: the three together, over whole runs.
-/
import EmbodiedSynth.StretchOscLogger.Script

namespace EmbodiedSynth.StretchOscLogger

open Machine Processing

/-! ### Rows -/

/-- The row an output appends, with the name of its file. -/
def Output.row {K : Type*} : Output K → Option (List Char × Row K)
  | .writeline filename (.row row) => some (filename, row)
  | _ => none

/-- The rows among the outputs of a run. -/
def rows {K : Type*} (os : List (Output K)) : List (List Char × Row K) := os.filterMap Output.row

/-- A `list` message whose file opened, with the time it was handled at. -/
def Event.logged {K : Type*} : Event K → Option (Reading K × ℤ)
  | .list r now true => some (r, now)
  | _ => none

/-- Whether a message is `start`. -/
def Event.isStart {K : Type*} : Event K → Bool
  | .start _ _ _ => true
  | _ => false

variable {K : Type*} [Field K] [LinearOrder K] (A : FloatArith K)

omit [Field K] [LinearOrder K] in
lemma rows_append (os os' : List (Output K)) : rows (os ++ os') = rows os ++ rows os' :=
  List.filterMap_append

/-- The row a step appends: that of a `list` message that finds the file open. -/
lemma rows_step (s : State) (e : Event K) :
    rows (step A s e).2 = (s.file.bind fun file => e.logged.map fun m =>
      (file, makeRow A s.sample s.startTime m.1 m.2)).toList := by
  obtain ⟨file, filename, sample, startTime⟩ := s
  cases e with
  | start now d isopen => cases isopen <;> cases file <;> rfl
  | stop => cases file <;> rfl
  | list r now isopen => cases isopen <;> cases file <;> rfl

/-- Apart from `start`, a step counts the row it appends and changes nothing else. -/
lemma step_of_not_start (s : State) {e : Event K} (he : e.isStart = false) :
    (step A s e).1 = { s with sample := s.sample + (rows (step A s e).2).length } := by
  cases e with
  | start now d isopen => exact absurd he (by simp [Event.isStart])
  | stop => rfl
  | list r now isopen =>
      rcases list_cases A s r now isopen with ⟨file, -, -, h⟩ | ⟨-, text, h⟩
      · rw [step, h]; rfl
      · rw [step, h]; rfl

/-- While no `start` comes and there is a file, each `list` that finds it open appends a row,
and the rows are numbered on from the counter. -/
lemma rows_emitted {s : State} {file : List Char} (hfile : s.file = some file)
    {es : List (Event K)} (hes : ∀ e ∈ es, e.isStart = false) :
    rows (emitted (step A) s es) = (es.filterMap Event.logged).mapIdx fun n m =>
      (file, makeRow A (s.sample + n) s.startTime m.1 m.2) := by
  induction es generalizing s with
  | nil => rfl
  | cons e es ih =>
      have hrest : ∀ e ∈ es, e.isStart = false := fun e he => hes e (List.mem_cons_of_mem _ he)
      have hrow := rows_step A s e
      rw [hfile, Option.bind_some] at hrow
      have hnext := ih (s := { s with sample := s.sample + (rows (step A s e).2).length })
        hfile hrest
      rw [emitted_cons, rows_append, step_of_not_start A s (hes e List.mem_cons_self), hnext, hrow]
      cases hlog : e.logged with
      | none =>
          rw [List.filterMap_cons_none hlog]
          rfl
      | some m =>
          rw [List.filterMap_cons_some hlog, List.mapIdx_cons]
          simp [Nat.add_assoc, Nat.add_comm 1]

/-! ### Frequencies -/

section Band

variable [IsStrictOrderedRing K]

/-- The clamp with `Math.min` and `Math.max` bounds every number. -/
lemma inBand_clamp {x : ExtNum K} (hx : x ≠ .nan) :
    InBand (mathMax minFreq (mathMin maxFreq x)) := by
  have hband : ∀ y : K, y ≤ 1000 → InBand (.fin (max 100 y)) := fun y hy =>
    inBand_fin.mpr ⟨le_max_left _ _, max_le (by norm_num) hy⟩
  rw [minFreq, maxFreq, ExtNum.ofNat_eq, ExtNum.ofNat_eq]
  cases x with
  | nan => exact absurd rfl hx
  | negInf =>
      have hmax : mathMax (.fin (100 : K)) (mathMin (.fin 1000) .negInf) = .fin 100 := by
        simp [mathMin, mathMax]
      rw [hmax]
      exact inBand_fin.mpr ⟨le_rfl, by norm_num⟩
  | fin x =>
      rw [mathMin_fin, mathMax_fin]
      exact hband _ (min_le_left _ _)
  | posInf =>
      have hmin : mathMin (.fin (1000 : K)) .posInf = .fin 1000 := by simp [mathMin]
      rw [hmin, mathMax_fin]
      exact hband _ le_rfl

/-- **The logged frequency of a number lies in the band.** -/
theorem logFreq_inBand {v : ExtNum K} (hv : v ≠ .nan) : InBand (logFreq A v) := by
  have hrange : A.sub 3240 2500 = .fin ((740 : ℕ) : K) :=
    sub_natCast A (by norm_num) (by norm_num)
  refine inBand_clamp ?_
  rw [scale, maxFreq, minFreq, maxSensor, minSensor, band_width, hrange]
  refine A.fin_add_ne_nan (A.div_fin_ne_nan ?_ (by norm_num)) _
  exact A.mul_fin_ne_nan (A.sub_fin_ne_nan hv _) (by norm_num)

end Band

/-! ### Whole runs -/

/-- What a `list` message does in the state `s`: it appends one row and sends it out, or,
without a file or with one that does not open, it reports one error and changes nothing. -/
def ListOutcome (s : State) (r : Reading K) (now : ℤ) (isopen : Bool) : Prop :=
  (∃ file row, s.file = some file
      ∧ (list A s r now isopen).2 = [.writeline file (.row row), .outlet (.logged row)])
    ∨ ((s.file = none ∨ isopen = false)
      ∧ (list A s r now isopen).1 = s ∧ ∃ text, (list A s r now isopen).2 = [.outlet (.error text)])

lemma listOutcome (s : State) (r : Reading K) (now : ℤ) (isopen : Bool) :
    ListOutcome A s r now isopen := by
  rcases list_cases A s r now isopen with ⟨file, hfile, -, h⟩ | ⟨hclosed, text, h⟩
  · exact Or.inl ⟨file, _, hfile, by rw [h]⟩
  · exact Or.inr ⟨hclosed, by rw [h], text, by rw [h]⟩

/-- What is asked of the rows of a run of the script, loaded at the time `now₀`. -/
structure RowsNumbered (now₀ : ℤ) (es : List (Event K)) : Prop where
  /-- After a successful `start` and until the next, the rows are the `list` messages whose
  file opened, in order, to the file of that `start`: the row `n` has the number `n`, the time since
  the `start`, and what its message has. -/
  numbered : ∀ pre now d mid post, es = pre ++ .start now d true :: (mid ++ post) →
    (∀ e ∈ mid, e.isStart = false) →
    rows (emitted (step A) (run A now₀ (pre ++ [.start now d true])) mid)
      = (mid.filterMap Event.logged).mapIdx fun n m => (fileName d,
        { sample := n, maxTimeMs := m.2 - now, sensorTimeMs := m.1.sensorTime, raw := m.1.raw
          smoothed := m.1.smoothed, frequency := logFreq A m.1.smoothed })
  outcome : ∀ pre r now isopen post, es = pre ++ .list r now isopen :: post →
    ListOutcome A (run A now₀ pre) r now isopen
  /-- Every row with a finite smoothed value has a frequency of the band. -/
  inBand : ∀ file row, (file, row) ∈ rows (emitted (step A) (init now₀) es) →
    ∀ v, row.smoothed = .fin v → InBand row.frequency

/-- A row of a run is made by a `list` message. -/
lemma exists_makeRow_of_mem_rows {s : State} {es : List (Event K)} {file : List Char} {row : Row K}
    (h : (file, row) ∈ rows (emitted (step A) s es)) :
    ∃ n t r now, row = makeRow A n t r now := by
  obtain ⟨o, ho, hrow⟩ := List.mem_filterMap.mp h
  obtain ⟨pre, e, post, -, he⟩ := (mem_emitted_iff _ _ _ _).mp ho
  have hmem : (file, row) ∈ rows (step A (Machine.run (next (step A)) s pre) e).2 :=
    List.mem_filterMap.mpr ⟨o, he, hrow⟩
  rw [rows_step, Option.mem_toList, Option.bind_eq_some_iff] at hmem
  obtain ⟨file', -, hmap⟩ := hmem
  obtain ⟨⟨r, now⟩, -, heq⟩ := Option.map_eq_some_iff.mp hmap
  exact ⟨_, _, r, now, (congrArg Prod.snd heq).symm⟩

/-- Whether or not its file could be created, `start` writes its three variables. -/
lemma run_start (now₀ : ℤ) (pre : List (Event K)) (now : ℤ) (d : Date) (isopen : Bool) :
    run A now₀ (pre ++ [.start now d isopen])
      = { run A now₀ pre with sample := 0, startTime := now, file := some (fileName d) } := by
  rw [run, run, Machine.run_concat]
  cases isopen <;> rfl

/-- **The rows of the logger**: over every run, whichever attempts to open a file fail. -/
theorem rows_numbered [IsStrictOrderedRing K] (now₀ : ℤ) (es : List (Event K)) :
    RowsNumbered A now₀ es where
  numbered pre now d mid post _ hmid := by
    have hrun := run_start A now₀ pre now d true
    have hfile : (run A now₀ (pre ++ [.start now d true])).file = some (fileName d) := by rw [hrun]
    rw [rows_emitted A hfile hmid, hrun]
    simp [makeRow]
  outcome pre r now isopen post _ := listOutcome A _ r now isopen
  inBand file row h v hv := by
    obtain ⟨n, t, r, now, rfl⟩ := exists_makeRow_of_mem_rows A h
    exact logFreq_inBand A (by rw [show r.smoothed = .fin v from hv]; simp)

/-- A recording of two messages, the second of which finds the file locked. -/
theorem rows_numbered_locked : RowsNumbered FloatArith.exactRat 0
    [.start 5 ⟨5, 2026, 5, 7, 18, 8, 32⟩ true,
      .list ⟨.fin 10, .fin 2600, .fin 2590⟩ 20 true,
      .list ⟨.fin 20, .fin 2610, .fin 2592⟩ 30 false] :=
  rows_numbered _ _ _

end EmbodiedSynth.StretchOscLogger
