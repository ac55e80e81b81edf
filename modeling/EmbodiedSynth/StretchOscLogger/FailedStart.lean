/-
What a failed `start` does to the recording before it.

`start` writes its three variables before it looks whether its file could be created.

* `Intact`: a failed `start` leaves the variables, and every later row is as without it.
* `RepeatsStart`: the last `start` before it came at the same time with the same name, and no row
  has been written since.
* `later_rows_iff`: the later rows alone already tell whether the variables are left.
* `failed_start_intact_iff`: over a run, every failed `start` leaves the recording intact exactly
  when each repeats the last `start`.
-/
import EmbodiedSynth.StretchOscLogger.Sealing

namespace EmbodiedSynth.StretchOscLogger

open Machine

variable {K : Type*} [Field K] [LinearOrder K] (A : FloatArith K)

/-- A failed `start` after the messages `pre` leaves the variables of the recording, and until the
next `start` the rows are those of the recording. -/
structure Intact (now₀ : ℤ) (pre : List (Event K)) (now : ℤ) (d : Date) : Prop where
  file : (run A now₀ (pre ++ [.start now d false])).file = (run A now₀ pre).file
  sample : (run A now₀ (pre ++ [.start now d false])).sample = (run A now₀ pre).sample
  startTime : (run A now₀ (pre ++ [.start now d false])).startTime = (run A now₀ pre).startTime
  rows : ∀ mid : List (Event K), (∀ e ∈ mid, e.isStart = false) →
    rows (emitted (step A) (run A now₀ (pre ++ [.start now d false])) mid)
      = rows (emitted (step A) (run A now₀ pre) mid)

/-- A `start` at the time `now` and the date `d` repeats the last one of the messages `pre`: the
time and the name are the same, and no row was written in between. -/
def RepeatsStart (pre : List (Event K)) (now : ℤ) (d : Date) : Prop :=
  ∀ before now' d' isopen mid, pre = before ++ .start now' d' isopen :: mid →
    (∀ e ∈ mid, e.isStart = false) →
    now' = now ∧ fileName d' = fileName d ∧ ∀ e ∈ mid, e.logged = none

/-- Apart from `start` a run only counts its rows. -/
lemma run_of_not_start (s : State) {es : List (Event K)} (hes : ∀ e ∈ es, e.isStart = false) :
    Machine.run (next (step A)) s es
      = { s with sample := s.sample + (rows (emitted (step A) s es)).length } := by
  induction es generalizing s with
  | nil => rfl
  | cons e es ih =>
      have hrest : ∀ e ∈ es, e.isStart = false := fun e he => hes e (List.mem_cons_of_mem _ he)
      have hstep := step_of_not_start A s (hes e List.mem_cons_self)
      rw [run_cons, emitted_cons, rows_append, List.length_append, next, hstep, ih _ hrest]
      simp [Nat.add_assoc]

/-- The variables after a `start` and messages without another: the counter is the number of rows
since. -/
lemma run_since_start (now₀ : ℤ) (before : List (Event K)) (now : ℤ) (d : Date) (isopen : Bool)
    {mid : List (Event K)} (hmid : ∀ e ∈ mid, e.isStart = false) :
    run A now₀ (before ++ .start now d isopen :: mid)
      = { run A now₀ before with
          file := some (fileName d)
          sample := (mid.filterMap Event.logged).length
          startTime := now } := by
  rw [List.append_cons, run, Machine.run_append, ← run, run_of_not_start A _ hmid, run_start,
    rows_emitted A rfl hmid, List.length_mapIdx, Nat.zero_add]

omit [Field K] [LinearOrder K] in
/-- Messages with a `start` among them have a last one. -/
lemma exists_last_start {es : List (Event K)} (h : ∃ e ∈ es, e.isStart = true) :
    ∃ before now d isopen mid, es = before ++ .start now d isopen :: mid
      ∧ ∀ e ∈ mid, e.isStart = false := by
  induction es using List.reverseRecOn with
  | nil => exact absurd h (by simp)
  | append_singleton es e ih =>
      cases hstart : e.isStart with
      | true =>
          cases e with
          | start now d isopen => exact ⟨es, now, d, isopen, [], rfl, by simp⟩
          | list r now isopen => exact absurd hstart (by simp [Event.isStart])
          | stop => exact absurd hstart (by simp [Event.isStart])
      | false =>
          have hes : ∃ e ∈ es, e.isStart = true := by
            obtain ⟨e', he', hstart'⟩ := h
            rcases List.mem_append.mp he' with he' | he'
            · exact ⟨e', he', hstart'⟩
            · rw [List.mem_singleton.mp he', hstart] at hstart'
              exact absurd hstart' Bool.false_ne_true
          obtain ⟨before, now, d, isopen, mid, rfl, hmid⟩ := ih hes
          refine ⟨before, now, d, isopen, mid ++ [e], by simp, fun e' he' => ?_⟩
          rcases List.mem_append.mp he' with he' | he'
          · exact hmid e' he'
          · rw [List.mem_singleton.mp he', hstart]

omit [Field K] [LinearOrder K] in
lemma isStart_of_isRecording {e : Event K} (h : e.isRecording = true) : e.isStart = true := by
  cases e with
  | start now d isopen => rfl
  | list r now isopen => exact absurd h Bool.false_ne_true
  | stop => exact absurd h Bool.false_ne_true

/-- **The later rows tell the variables**: two states with a file write the same rows on all
messages without `start` exactly when their three variables are the same. -/
theorem later_rows_iff {s t : State} {file file' : List Char} (hs : s.file = some file)
    (ht : t.file = some file') :
    (∀ mid : List (Event K), (∀ e ∈ mid, e.isStart = false) →
      rows (emitted (step A) t mid) = rows (emitted (step A) s mid))
      ↔ file' = file ∧ t.sample = s.sample ∧ t.startTime = s.startTime := by
  constructor
  · intro h
    have hone : ∀ e ∈ [Event.list (⟨.nan, .nan, .nan⟩ : Reading K) 0 true],
        e.isStart = false := by
      intro e he
      rw [List.mem_singleton.mp he]
      rfl
    have hrows := h _ hone
    have hlogged : [Event.list (⟨.nan, .nan, .nan⟩ : Reading K) 0 true].filterMap Event.logged
        = [(⟨.nan, .nan, .nan⟩, 0)] := rfl
    rw [rows_emitted A ht hone, rows_emitted A hs hone, hlogged, List.mapIdx_cons,
      List.mapIdx_cons] at hrows
    obtain ⟨hfile, hmake⟩ := Prod.mk.inj (List.cons.inj hrows).1
    have htime : (0 : ℤ) - t.startTime = 0 - s.startTime := congrArg Row.maxTimeMs hmake
    exact ⟨hfile, congrArg Row.sample hmake, by omega⟩
  · rintro ⟨rfl, hsample, htime⟩ mid hmid
    rw [rows_emitted A ht hmid, rows_emitted A hs hmid, hsample, htime]

/-- One failed `start`. -/
lemma intact_iff (now₀ : ℤ) {pre : List (Event K)} (h : ∃ e ∈ pre, e.isRecording = true)
    (now : ℤ) (d : Date) : Intact A now₀ pre now d ↔ RepeatsStart pre now d := by
  constructor
  · rintro ⟨hfile, hsample, htime, -⟩ before now' d' isopen mid rfl hmid
    rw [run_start, run_since_start A now₀ before now' d' isopen hmid] at hfile hsample htime
    refine ⟨htime.symm, (Option.some.inj hfile).symm, ?_⟩
    exact List.filterMap_eq_nil_iff.mp (List.length_eq_zero_iff.mp hsample.symm)
  · intro hrepeats
    obtain ⟨e, he, hrec⟩ := h
    obtain ⟨before, now', d', isopen, mid, rfl, hmid⟩ :=
      exists_last_start ⟨e, he, isStart_of_isRecording hrec⟩
    obtain ⟨rfl, hname, hlogged⟩ := hrepeats before now' d' isopen mid rfl hmid
    have hempty := List.filterMap_eq_nil_iff.mpr hlogged
    have hrun := run_since_start A now₀ before now' d' isopen hmid
    rw [hempty] at hrun
    have hsame : run A now₀ ((before ++ .start now' d' isopen :: mid) ++ [.start now' d false])
        = run A now₀ (before ++ .start now' d' isopen :: mid) := by
      rw [run_start, hrun, hname]
      rfl
    exact ⟨by rw [hsame], by rw [hsame], by rw [hsame], fun _ _ => by rw [hsame]⟩

/-- **A failed `start` and the recording before it**: over a run, every failed `start` after a
successful one leaves the recording intact exactly when each comes at the same time and with the
same name as the last `start`, and no row has been written since. -/
theorem failed_start_intact_iff (now₀ : ℤ) (es : List (Event K)) :
    EveryStep (fun pre e => (∃ e' ∈ pre, e'.isRecording = true) →
        ∀ now d, e = .start now d false → Intact A now₀ pre now d) es
      ↔ EveryStep (fun pre e => (∃ e' ∈ pre, e'.isRecording = true) →
        ∀ now d, e = .start now d false → RepeatsStart pre now d) es := by
  refine forall_congr' fun pre => forall_congr' fun e => forall_congr' fun post =>
    forall_congr' fun _ => forall_congr' fun hpre => forall_congr' fun now =>
    forall_congr' fun d => forall_congr' fun _ => ?_
  exact intact_iff A now₀ hpre now d

/-- A recording of one row, and a `start` a second later that cannot create its file. -/
def lostRecording : List (Event ℚ) :=
  [.start 5 ⟨5, 2026, 5, 7, 18, 8, 32⟩ true, .list ⟨.fin 10, .fin 2600, .fin 2590⟩ 20 true,
    .start 1005 ⟨1005, 2026, 5, 7, 18, 8, 33⟩ false]

/-- The rows that follow go elsewhere. -/
theorem failed_start_resets :
    ¬ EveryStep (fun pre e => (∃ e' ∈ pre, e'.isRecording = true) →
      ∀ now d, e = .start now d false → Intact FloatArith.exactRat 0 pre now d) lostRecording := by
  intro h
  have hintact := h
    [.start 5 ⟨5, 2026, 5, 7, 18, 8, 32⟩ true, .list ⟨.fin 10, .fin 2600, .fin 2590⟩ 20 true]
    _ [] rfl ⟨_, List.mem_cons_self, rfl⟩ 1005 ⟨1005, 2026, 5, 7, 18, 8, 33⟩ rfl
  exact absurd hintact.sample (by decide)

end EmbodiedSynth.StretchOscLogger
