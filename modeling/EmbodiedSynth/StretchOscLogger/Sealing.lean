/-
What `stop` does to a recording of the Max logger.

`start` keeps the name of its file in a local variable, so the variable that `stop` announces
is always empty, and `stop` leaves the file as it is.

* `lastRecording`: the name announced by the last successful `start` of a run.
* `Seals`: a `stop` announces that name, and until the next `start` no row goes to the file.
* `allSealed_iff`: every `stop` of a run does so exactly when none follows a successful
  `start`.
* `unwritten_iff`: no row goes to the open file exactly when no `list` finds it open, `stop` or
  not.
-/
import EmbodiedSynth.StretchOscLogger.Numbering

namespace EmbodiedSynth.StretchOscLogger

open Machine

/-- The name an output announces a recording under. -/
def Output.recordingTo {K : Type*} : Output K → Option (List Char)
  | .outlet (.recordingTo filename) => some filename
  | _ => none

/-- Whether a message is a `start` whose file could be created. -/
def Event.isRecording {K : Type*} : Event K → Bool
  | .start _ _ isopen => isopen
  | _ => false

variable {K : Type*} [Field K] [LinearOrder K] (A : FloatArith K)

/-- The name announced by the last successful `start` of a run. -/
def lastRecording (now₀ : ℤ) (es : List (Event K)) : Option (List Char) :=
  ((emitted (step A) (init now₀) es).filterMap Output.recordingTo).getLast?

/-- The `stop` between `pre` and `post` announces the name, and until the next `start` no row
goes to the file of that name. -/
structure Seals (now₀ : ℤ) (pre post : List (Event K)) (name : List Char) : Prop where
  announced : (step A (run A now₀ pre) .stop).2 = [.outlet (.saved name)]
  closed : ∀ mid rest, post = mid ++ rest → (∀ e ∈ mid, e.isStart = false) →
    ∀ row, (name, row) ∉ rows (emitted (step A) (run A now₀ (pre ++ [.stop])) mid)

/-- Every `stop` of a run seals the recording last announced before it, if there is one. -/
def AllSealed (now₀ : ℤ) (es : List (Event K)) : Prop :=
  ∀ pre post, es = pre ++ .stop :: post →
    ∀ name, lastRecording A now₀ pre = some name → Seals A now₀ pre post name

/-- The recording a message announces, if it is a `start` that succeeds. -/
def Event.recordingTo {K : Type*} : Event K → Option (List Char)
  | .start _ d true => some (fileName d)
  | _ => none

/-- A step announces the recording of its message, in any state. -/
lemma recordingTo_step (s : State) (e : Event K) :
    (step A s e).2.filterMap Output.recordingTo = e.recordingTo.toList := by
  cases e with
  | start now d isopen => cases isopen <;> rfl
  | stop => rfl
  | list r now isopen =>
      rcases list_cases A s r now isopen with ⟨file, -, -, h⟩ | ⟨-, text, h⟩
      · rw [step, h]; rfl
      · rw [step, h]; rfl

/-- The recordings a run announces are those of its messages. -/
lemma recordingTo_emitted (s : State) (es : List (Event K)) :
    (emitted (step A) s es).filterMap Output.recordingTo = es.filterMap Event.recordingTo := by
  induction es generalizing s with
  | nil => rfl
  | cons e es ih =>
      rw [emitted_cons, List.filterMap_append, recordingTo_step, ih, List.filterMap_cons]
      cases e.recordingTo <;> rfl

omit [Field K] [LinearOrder K] in
/-- A message announces a recording exactly when it is a successful `start`. -/
lemma recordingTo_eq_none_iff (e : Event K) : e.recordingTo = none ↔ e.isRecording = false := by
  cases e with
  | start now d isopen => cases isopen <;> simp [Event.recordingTo, Event.isRecording]
  | stop => simp [Event.recordingTo, Event.isRecording]
  | list r now isopen => simp [Event.recordingTo, Event.isRecording]

/-- A recording is announced once a `start` has succeeded. -/
lemma lastRecording_eq_none_iff (now₀ : ℤ) (es : List (Event K)) :
    lastRecording A now₀ es = none ↔ ∀ e ∈ es, e.isRecording = false := by
  rw [lastRecording, recordingTo_emitted, List.getLast?_eq_none_iff, List.filterMap_eq_nil_iff]
  simp only [recordingTo_eq_none_iff]

/-- No recording is announced under the empty name. -/
lemma ne_nil_of_lastRecording {now₀ : ℤ} {es : List (Event K)} {name : List Char}
    (h : lastRecording A now₀ es = some name) : name ≠ [] := by
  rw [lastRecording, recordingTo_emitted] at h
  obtain ⟨e, -, he⟩ := List.mem_filterMap.mp (List.mem_of_getLast? h)
  cases e with
  | start now d isopen =>
      cases isopen with
      | false => exact absurd he (by simp [Event.recordingTo])
      | true =>
          rw [← Option.some.inj he]
          exact List.append_ne_nil_of_right_ne_nil _ (by decide)
  | stop => exact absurd he (by simp [Event.recordingTo])
  | list r now isopen => exact absurd he (by simp [Event.recordingTo])

/-- **What `stop` seals**: every `stop` of a run announces the recording last started and
closes it, exactly when no `stop` of the run follows a successful `start`. -/
theorem allSealed_iff (now₀ : ℤ) (es : List (Event K)) :
    AllSealed A now₀ es
      ↔ ∀ pre post, es = pre ++ .stop :: post → ∀ e ∈ pre, e.isRecording = false := by
  constructor
  · intro h pre post hes
    rw [← lastRecording_eq_none_iff A now₀]
    by_contra hne
    obtain ⟨name, hname⟩ := Option.ne_none_iff_exists'.mp hne
    -- the name announced is the variable of the script, which nothing has assigned
    have hsaved := (h pre post hes name hname).announced
    rw [step, stop, filename_run] at hsaved
    obtain rfl : [] = name := by simpa using hsaved
    exact ne_nil_of_lastRecording A hname rfl
  · intro h pre post hes name hname
    rw [(lastRecording_eq_none_iff A now₀ pre).mpr (h pre post hes)] at hname
    exact absurd hname (by simp)

/-- While no `start` comes, no row goes to the file exactly when no `list` finds it open; a
`stop` makes no difference. -/
theorem unwritten_iff {s : State} {file : List Char} (hfile : s.file = some file)
    {es : List (Event K)} (hes : ∀ e ∈ es, e.isStart = false) :
    (∀ row, (file, row) ∉ rows (emitted (step A) s es)) ↔ ∀ e ∈ es, e.logged = none := by
  rw [← List.filterMap_eq_nil_iff, rows_emitted A hfile hes]
  constructor
  · intro h
    cases hlog : es.filterMap Event.logged with
    | nil => rfl
    | cons m ms =>
        rw [hlog, List.mapIdx_cons] at h
        exact absurd List.mem_cons_self (h _)
  · intro h row
    rw [h]
    exact List.not_mem_nil

/-- A recording stopped at once: the name announced is empty. -/
theorem stop_announces_nothing :
    ¬ AllSealed FloatArith.exactRat 0 [.start 5 ⟨5, 2026, 5, 7, 18, 8, 32⟩ true, .stop] := by
  intro h
  have hseals := h [.start 5 ⟨5, 2026, 5, 7, 18, 8, 32⟩ true] [] rfl
    "data/stretch_dataset_osc_20260607_180832.csv".toList (by decide +kernel)
  have hsaved : (step FloatArith.exactRat (run FloatArith.exactRat 0
      [.start 5 ⟨5, 2026, 5, 7, 18, 8, 32⟩ true]) .stop).2 = [.outlet (.saved [])] := rfl
  rw [hseals.announced] at hsaved
  exact absurd hsaved (by simp)

end EmbodiedSynth.StretchOscLogger
