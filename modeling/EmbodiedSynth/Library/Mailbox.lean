/-
A mailbox that is sampled.

A writer overwrites a cell, a sampler appends what it finds in the cell to a log, and the two
run at their own pace.  A value that is overwritten before it is sampled is lost, and one that
is sampled again is duplicated.

* `Mailbox`: a machine with a cell and a log that its steps treat in this way.  What is
  written passes through `store` on its way into the cell.
* `sinceSample`: what was written after the last sample; `cell_run`: the cell holds the last
  value written.
* `log_eq_iff`: after every sample the log is what was written so far, read as `read`, exactly
  when before every sample one value was written since the last, and `store` keeps it.
-/
import EmbodiedSynth.Library.Machine
import Mathlib.Data.List.DropRight

/-- A machine with a cell its steps write to and a log they sample the cell into. -/
structure Mailbox {σ ι : Type*} (step : σ → ι → σ) (α β : Type*) where
  cell : σ → β
  log : σ → List β
  written : ι → Option α
  store : α → β
  isSample : ι → Bool
  written_sample : ∀ i, isSample i = true → written i = none
  cell_step : ∀ s i, cell (step s i) = ((written i).map store).getD (cell s)
  log_step : ∀ s i, log (step s i) = log s ++ if isSample i then [cell s] else []

namespace Mailbox

open Machine

variable {σ ι α β : Type*} {step : σ → ι → σ} (M : Mailbox step α β)

/-- The values written in a run. -/
def writes (is : List ι) : List α := is.filterMap M.written

/-- The values written after the last sample of a run. -/
def sinceSample (is : List ι) : List α := M.writes (is.rtakeWhile fun i => !M.isSample i)

/-- The values written before the last sample of a run. -/
def untilSample (is : List ι) : List α := M.writes (is.rdropWhile fun i => !M.isSample i)

lemma writes_append (is js : List ι) : M.writes (is ++ js) = M.writes is ++ M.writes js :=
  List.filterMap_append

/-- The last sample splits the written values. -/
lemma untilSample_append_sinceSample (is : List ι) :
    M.untilSample is ++ M.sinceSample is = M.writes is := by
  rw [untilSample, sinceSample, ← writes_append, List.rdropWhile_append_rtakeWhile]

/-- The cell holds the last value written, or what it held at the start. -/
theorem cell_run (s : σ) (is : List ι) :
    M.cell (run step s is) = ((M.writes is).getLast?.map M.store).getD (M.cell s) := by
  induction is using List.reverseRecOn with
  | nil => rfl
  | append_singleton is i ih =>
      rw [run_concat, M.cell_step, ih, writes_append]
      cases hi : M.written i with
      | none =>
          have hnone : M.writes [i] = [] := List.filterMap_cons_none hi
          rw [hnone, List.append_nil]
          rfl
      | some a =>
          have hsome : M.writes [i] = [a] := List.filterMap_cons_some hi
          rw [hsome, List.getLast?_concat]
          rfl

/-- A sampling step, after a log that is right: the log stays right exactly when one value was
written since the last sample and the cell keeps it. -/
lemma log_concat_eq_iff {read : α → β} {s : σ} {is : List ι}
    (h : M.log (run step s is) = (M.untilSample is).map read) :
    M.log (run step s is) ++ [M.cell (run step s is)] = (M.writes is).map read
      ↔ ∃ a, M.sinceSample is = [a] ∧ M.store a = read a := by
  have hcell : ∀ a, M.sinceSample is = [a] → M.cell (run step s is) = M.store a := by
    intro a ha
    rw [cell_run, ← untilSample_append_sinceSample, ha, List.getLast?_concat]
    rfl
  rw [h, ← untilSample_append_sinceSample, List.map_append, List.append_cancel_left_eq]
  constructor
  · intro heq
    obtain ⟨a, ha, hread⟩ := List.map_eq_singleton_iff.mp heq.symm
    exact ⟨a, ha, (hcell a ha).symm.trans hread.symm⟩
  · rintro ⟨a, ha, hstore⟩
    rw [ha, List.map_singleton, ← hstore, hcell a ha]

/-- If the step is a sample, the log after it is what was written so far, read as `read`. -/
def LogsAll (read : α → β) (s₀ : σ) (pre : List ι) (i : ι) : Prop :=
  M.isSample i = true → M.log (run step s₀ (pre ++ [i])) = (M.writes (pre ++ [i])).map read

/-- If the step is a sample, one value was written since the last, and it is kept. -/
def OneWritten (read : α → β) (pre : List ι) (i : ι) : Prop :=
  M.isSample i = true → ∃ a, M.sinceSample pre = [a] ∧ M.store a = read a

/-- A run whose samples were right has a right log at its end. -/
lemma log_run {read : α → β} {s₀ : σ} (h₀ : M.log s₀ = []) {is : List ι}
    (h : EveryStep (M.LogsAll read s₀) is) :
    M.log (run step s₀ is) = (M.untilSample is).map read := by
  induction is using List.reverseRecOn with
  | nil => simp [h₀, untilSample, writes]
  | append_singleton is i ih =>
      rw [everyStep_concat] at h
      cases hi : M.isSample i with
      | false =>
          have hsame : M.untilSample (is ++ [i]) = M.untilSample is := by
            rw [untilSample, List.rdropWhile_concat_pos _ _ _ (by simp [hi]), untilSample]
          rw [run_concat, M.log_step, hi, hsame, ih h.1]
          simp
      | true =>
          have hall : M.untilSample (is ++ [i]) = M.writes (is ++ [i]) := by
            rw [untilSample, List.rdropWhile_concat_neg _ _ _ (by simp [hi])]
          rw [h.2 hi, hall]

/-- **A sampled mailbox**: after every sample the log is what was written so far, read as
`read`, exactly when before every sample one value was written since the last one and `store`
keeps it. -/
theorem log_eq_iff (read : α → β) {s₀ : σ} (h₀ : M.log s₀ = []) (is : List ι) :
    EveryStep (M.LogsAll read s₀) is ↔ EveryStep (M.OneWritten read) is := by
  induction is using List.reverseRecOn with
  | nil => simp
  | append_singleton is i ih =>
      rw [everyStep_concat, everyStep_concat, ← ih]
      refine and_congr_right fun h => ?_
      refine imp_congr_right fun hi => ?_
      have hwrites : M.writes (is ++ [i]) = M.writes is := by
        rw [writes_append]
        simp [writes, M.written_sample i hi]
      rw [← M.log_concat_eq_iff (M.log_run h₀ h), hwrites, run_concat,
        M.log_step, hi, if_pos rfl]

end Mailbox
