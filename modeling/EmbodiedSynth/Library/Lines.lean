/-
Cutting a stream of lines at an arbitrary offset.

A stream is the concatenation of lines, each ended by its only `'\n'`.  A reader that
attaches `k` characters into the stream sees the tail of the line it fell into and then
every later line whole.

* `completeLines`: the lines of a text that are ended by `'\n'`, terminator included; an
  unfinished last line is left out.
* `IsLine`: a text ending in its only `'\n'`; `IsLine.drop`: so does each nonempty tail.
* `cutLines`: the lines of a stream with the first `k` characters gone.
* `completeLines_drop`: reading the stream from offset `k` yields exactly `cutLines k`.
-/
import Mathlib.Data.List.Basic
import Mathlib.Tactic

namespace Lines

/-- The complete lines of a text, each with its terminator; what follows the last
terminator is left out. -/
def completeLines : List Char → List (List Char)
  | [] => []
  | c :: cs =>
      if c = '\n' then ['\n'] :: completeLines cs
      else match completeLines cs with
        | [] => []
        | l :: ls => (c :: l) :: ls

/-- A text ended by its only line feed. -/
def IsLine (l : List Char) : Prop := ∃ t : List Char, l = t ++ ['\n'] ∧ '\n' ∉ t

lemma isLine_append {t : List Char} (h : '\n' ∉ t) : IsLine (t ++ ['\n']) := ⟨t, rfl, h⟩

/-- A nonempty tail of a line is a line. -/
lemma IsLine.drop {l : List Char} (h : IsLine l) {j : ℕ} (hj : j < l.length) :
    IsLine (l.drop j) := by
  obtain ⟨t, rfl, ht⟩ := h
  have hle : j ≤ t.length := by simpa [Nat.lt_succ_iff] using hj
  exact ⟨t.drop j, List.drop_append_of_le_length hle, fun hmem => ht (List.mem_of_mem_drop hmem)⟩

/-- A line at the head of a text is its first complete line. -/
lemma completeLines_append {l : List Char} (h : IsLine l) (rest : List Char) :
    completeLines (l ++ rest) = l :: completeLines rest := by
  obtain ⟨t, rfl, ht⟩ := h
  induction t with
  | nil => rfl
  | cons c t ih =>
      have hc : c ≠ '\n' := fun hc => ht (hc ▸ List.mem_cons_self)
      have ih' := ih fun hmem => ht (List.mem_cons_of_mem c hmem)
      rw [List.cons_append, List.cons_append, completeLines, if_neg hc, ih']

/-- The complete lines of a stream of lines are its lines. -/
lemma completeLines_flatten {ls : List (List Char)} (h : ∀ l ∈ ls, IsLine l) :
    completeLines ls.flatten = ls := by
  induction ls with
  | nil => rfl
  | cons l ls ih =>
      rw [List.flatten_cons, completeLines_append (h l List.mem_cons_self),
        ih fun m hm => h m (List.mem_cons_of_mem l hm)]

/-- The lines of a stream with its first `k` characters gone: lines that lie before the cut
disappear, the line the cut falls into keeps its tail. -/
def cutLines : ℕ → List (List Char) → List (List Char)
  | _, [] => []
  | k, l :: ls => if k < l.length then l.drop k :: ls else cutLines (k - l.length) ls

@[simp] lemma cutLines_nil (k : ℕ) : cutLines k [] = [] := rfl

lemma cutLines_of_lt {k : ℕ} {l : List Char} (h : k < l.length) (ls : List (List Char)) :
    cutLines k (l :: ls) = l.drop k :: ls := by rw [cutLines, if_pos h]

lemma cutLines_of_le {k : ℕ} {l : List Char} (h : l.length ≤ k) (ls : List (List Char)) :
    cutLines k (l :: ls) = cutLines (k - l.length) ls := by rw [cutLines, if_neg (not_lt.mpr h)]

/-- A line of a cut stream is a tail of one of its lines. -/
lemma exists_drop_of_mem_cutLines {l : List Char} {k : ℕ} {ls : List (List Char)}
    (h : l ∈ cutLines k ls) : ∃ l' ∈ ls, ∃ j, l = l'.drop j := by
  induction ls generalizing k with
  | nil => exact absurd h List.not_mem_nil
  | cons m ls ih =>
      rcases lt_or_ge k m.length with hk | hk
      · rw [cutLines_of_lt hk] at h
        rcases List.mem_cons.mp h with rfl | h
        · exact ⟨m, List.mem_cons_self, k, rfl⟩
        · exact ⟨l, List.mem_cons_of_mem m h, 0, rfl⟩
      · rw [cutLines_of_le hk] at h
        obtain ⟨l', hl', hdrop⟩ := ih h
        exact ⟨l', List.mem_cons_of_mem m hl', hdrop⟩

/-- All lines of a cut stream but its first are whole. -/
lemma mem_of_mem_tail_cutLines {l : List Char} {k : ℕ} {ls : List (List Char)}
    (h : l ∈ (cutLines k ls).tail) : l ∈ ls := by
  induction ls generalizing k with
  | nil => exact absurd h List.not_mem_nil
  | cons m ls ih =>
      rcases lt_or_ge k m.length with hk | hk
      · rw [cutLines_of_lt hk] at h
        exact List.mem_cons_of_mem m h
      · rw [cutLines_of_le hk] at h
        exact List.mem_cons_of_mem m (ih h)

/-- **Reading a stream of lines from offset `k`** yields the tail of the line at `k` and the
lines after it. -/
theorem completeLines_drop {ls : List (List Char)} (h : ∀ l ∈ ls, IsLine l) (k : ℕ) :
    completeLines (ls.flatten.drop k) = cutLines k ls := by
  induction ls generalizing k with
  | nil => simp [completeLines]
  | cons l ls ih =>
      have hls : ∀ m ∈ ls, IsLine m := fun m hm => h m (List.mem_cons_of_mem l hm)
      rw [List.flatten_cons]
      rcases lt_or_ge k l.length with hk | hk
      · rw [List.drop_append_of_le_length hk.le, cutLines_of_lt hk,
          completeLines_append ((h l List.mem_cons_self).drop hk), completeLines_flatten hls]
      · rw [cutLines_of_le hk, ← ih hls, List.drop_append, List.drop_of_length_le hk,
          List.nil_append]

/-- Nothing is cut at offset 0. -/
lemma cutLines_zero {ls : List (List Char)} (h : ∀ l ∈ ls, IsLine l) : cutLines 0 ls = ls :=
  (completeLines_drop h 0).symm.trans (completeLines_flatten h)

end Lines
