/-
A rate limiter and its clock.

A limiter is called at some times and lets a call through where `interval` has gone by since the
last call it let through.

* `passes`, `record`: the limiter on true time; `lastPassed` is what it remembers after a run,
  `passed` the calls it let through, and `passed_pairwise` keeps these apart.
* `wrappedPasses`, `wrappedRecord`: the same comparison on a clock of `w` bits, as a program
  stores it.
* `Spaced`: the calls go forward in time, and none of the gaps spans the clock less `interval`.
* `wrappedRecord_run`, `wrappedPasses_iff`: over such calls, through every wrap of its clock, the
  second limiter remembers the time of the first and lets the same calls through.
-/
import EmbodiedSynth.Library.Machine
import Mathlib.Data.List.Chain
import Mathlib.Tactic

namespace RateLimiter

/-! ### On true time -/

/-- Whether a call at `now` goes through, the last one having done so at `last`. -/
def passes (interval last now : ℕ) : Bool := last + interval ≤ now

lemma passes_iff {interval last now : ℕ} :
    passes interval last now = true ↔ last + interval ≤ now := decide_eq_true_iff

/-- The time of the last call that went through, after a call at `now`. -/
def record (interval last now : ℕ) : ℕ := if passes interval last now then now else last

/-- The time of the last call that went through, after the calls at `times`, and 0 where none
did. -/
def lastPassed (interval : ℕ) (times : List ℕ) : ℕ := Machine.run (record interval) 0 times

lemma lastPassed_concat (interval : ℕ) (times : List ℕ) (now : ℕ) :
    lastPassed interval (times ++ [now]) = record interval (lastPassed interval times) now :=
  Machine.run_concat _ _ _ _

/-- The calls that go through, in order. -/
def passed (interval : ℕ) (times : List ℕ) : List ℕ :=
  Machine.selected (record interval) (passes interval) 0 times

lemma passed_concat (interval : ℕ) (times : List ℕ) (now : ℕ) :
    passed interval (times ++ [now]) = passed interval times
      ++ if passes interval (lastPassed interval times) now then [now] else [] :=
  Machine.selected_concat _ _ _ _ _

/-- What a limiter remembers is the last of them. -/
lemma getLast?_passed (interval : ℕ) (times : List ℕ) :
    (passed interval times).getLast?.getD 0 = lastPassed interval times := by
  induction times using List.reverseRecOn with
  | nil => rfl
  | append_singleton times now ih =>
      rw [passed_concat, lastPassed_concat, record]
      split_ifs
      · rw [List.getLast?_concat, Option.getD_some]
      · rw [List.append_nil, ih]

lemma le_lastPassed {interval : ℕ} {times : List ℕ} :
    ∀ t ∈ passed interval times, t ≤ lastPassed interval times := by
  induction times using List.reverseRecOn with
  | nil => exact fun t ht => absurd ht List.not_mem_nil
  | append_singleton times now ih =>
      intro t ht
      rw [passed_concat] at ht
      rw [lastPassed_concat, record]
      split_ifs at ht ⊢ with hp
      · rcases List.mem_append.mp ht with ht | ht
        · have hbefore := ih t ht
          have hdue := passes_iff.mp hp
          omega
        · exact (List.mem_singleton.mp ht).le
      · exact ih t (by simpa using ht)

/-- **Calls that go through are `interval` apart.** -/
theorem passed_pairwise (interval : ℕ) (times : List ℕ) :
    (passed interval times).Pairwise fun t u => t + interval ≤ u := by
  induction times using List.reverseRecOn with
  | nil => exact List.Pairwise.nil
  | append_singleton times now ih =>
      rw [passed_concat]
      split_ifs with hp
      · refine List.pairwise_append.mpr ⟨ih, List.pairwise_singleton _ _, fun t ht u hu => ?_⟩
        have hbefore := le_lastPassed t ht
        have hdue := passes_iff.mp hp
        rw [List.mem_singleton.mp hu]
        omega
      · rwa [List.append_nil]

/-! ### On a clock of `w` bits -/

variable {w : ℕ}

/-- The comparison of a program: the residues are subtracted. -/
def wrappedPasses (interval last : BitVec w) (now : ℕ) : Bool :=
  BitVec.ofNat w now - last ≥ interval

/-- The variable of a program after a call at `now`. -/
def wrappedRecord (interval last : BitVec w) (now : ℕ) : BitVec w :=
  if wrappedPasses interval last now then BitVec.ofNat w now else last

/-- The difference of two residues is the time between them, where the clock has not gone round
in between. -/
lemma toNat_sub_ofNat {last now : ℕ} (hle : last ≤ now) (hlt : now < last + 2 ^ w) :
    (BitVec.ofNat w now - BitVec.ofNat w last).toNat = now - last := by
  have hsplit : BitVec.ofNat w now = BitVec.ofNat w last + BitVec.ofNat w (now - last) := by
    rw [← BitVec.ofNat_add, Nat.add_sub_cancel' hle]
  rw [hsplit, BitVec.add_comm, BitVec.add_sub_cancel, BitVec.toNat_ofNat,
    Nat.mod_eq_of_lt (by omega)]

/-- The calls go forward in time from 0, by less than `2 ^ w - interval` each. -/
def Spaced (w interval : ℕ) (times : List ℕ) : Prop :=
  (0 :: times).IsChain fun t u => t ≤ u ∧ u + interval < t + 2 ^ w

/-- The time of the last call, and 0 before any. -/
def lastCall (times : List ℕ) : ℕ := times.getLast?.getD 0

@[simp] lemma lastCall_concat (times : List ℕ) (now : ℕ) : lastCall (times ++ [now]) = now := by
  simp [lastCall]

lemma spaced_concat {interval : ℕ} {times : List ℕ} {now : ℕ} :
    Spaced w interval (times ++ [now]) ↔ Spaced w interval times
      ∧ lastCall times ≤ now ∧ now + interval < lastCall times + 2 ^ w := by
  have hlast : (0 :: times).getLast? = some (lastCall times) := by
    rcases List.eq_nil_or_concat times with rfl | ⟨times, t, rfl⟩
    · rfl
    · rw [List.concat_eq_append, lastCall_concat, ← List.cons_append, List.getLast?_concat]
  rw [Spaced, ← List.cons_append, List.isChain_append, hlast]
  simp [Spaced]

/-- The limiter let the last call of a run through or it was not due: either way the time it
remembers is less than `interval` before that call. -/
lemma lastPassed_near {interval : ℕ} (hpos : 0 < interval) {times : List ℕ}
    (h : Spaced w interval times) :
    lastPassed interval times ≤ lastCall times
      ∧ lastCall times < lastPassed interval times + interval := by
  induction times using List.reverseRecOn with
  | nil => exact ⟨le_rfl, Nat.lt_add_of_pos_right hpos⟩
  | append_singleton times now ih =>
      obtain ⟨htimes, hle, -⟩ := spaced_concat.mp h
      obtain ⟨hbefore, -⟩ := ih htimes
      rw [lastPassed_concat, lastCall_concat, record]
      by_cases hp : lastPassed interval times + interval ≤ now
      · rw [if_pos (passes_iff.mpr hp)]
        omega
      · rw [if_neg (mt passes_iff.mp hp)]
        omega

/-- **The wrapped comparison of the next call is the true one.** -/
theorem wrappedPasses_iff {interval : BitVec w} (hpos : 0 < interval.toNat) {times : List ℕ}
    {now : ℕ} (h : Spaced w interval.toNat (times ++ [now])) :
    wrappedPasses interval (BitVec.ofNat w (lastPassed interval.toNat times)) now
      = passes interval.toNat (lastPassed interval.toNat times) now := by
  obtain ⟨htimes, hle, hgap⟩ := spaced_concat.mp h
  obtain ⟨hbefore, hnear⟩ := lastPassed_near hpos htimes
  have hdiff := toNat_sub_ofNat (w := w) (hbefore.trans hle) (by omega)
  rw [wrappedPasses, passes, decide_eq_decide, ge_iff_le, BitVec.le_def, hdiff]
  omega

/-- The variable of a program holds the residue of the true time. -/
theorem wrappedRecord_run {interval : BitVec w} (hpos : 0 < interval.toNat) {times : List ℕ}
    (h : Spaced w interval.toNat times) :
    Machine.run (wrappedRecord interval) 0 times
      = BitVec.ofNat w (lastPassed interval.toNat times) := by
  induction times using List.reverseRecOn with
  | nil => rfl
  | append_singleton times now ih =>
      rw [Machine.run_concat, ih (spaced_concat.mp h).1, lastPassed_concat, wrappedRecord,
        wrappedPasses_iff hpos h, record]
      split_ifs <;> rfl

end RateLimiter
