/-
Packets on a serial line: the framing of SLIP.

A packet is sent between two delimiters, and a byte that would be taken for a delimiter is sent
as two.

* `escape`, `unescape`: a byte on the line, and what the second byte of an escaped one stands for.
* `frame`, `frames`: a packet on the line, and packets.
* `remaining`: what is still to come of a stream, in a packet or between two.
* `remaining_cons_cases`: the first byte of it is a delimiter, an escape, or a byte of the packet.
* `kept`: the packets that are not empty.
-/
import Mathlib.Data.List.Basic
import Mathlib.Tactic

namespace Slip

/-- The delimiter. -/
def eot : UInt8 := 192

/-- What starts an escaped byte. -/
def esc : UInt8 := 219

/-- An escaped delimiter. -/
def escEot : UInt8 := 220

/-- An escaped escape. -/
def escEsc : UInt8 := 221

/-- A byte on the line. -/
def escape (b : UInt8) : List UInt8 :=
  if b = eot then [esc, escEot] else if b = esc then [esc, escEsc] else [b]

/-- What a byte after an escape stands for. -/
def unescape (b : UInt8) : Option UInt8 :=
  if b = escEot then some eot else if b = escEsc then some esc else none

/-- A packet on the line. -/
def frame (packet : List UInt8) : List UInt8 := eot :: (packet.flatMap escape ++ [eot])

/-- Packets on the line. -/
def frames (packets : List (List UInt8)) : List UInt8 := packets.flatMap frame

/-- What is still to come: the rest of a packet, if one has begun, and packets. -/
def remaining : Option (List UInt8) → List (List UInt8) → List UInt8
  | none, packets => frames packets
  | some rest, packets => rest.flatMap escape ++ eot :: frames packets

lemma remaining_none_cons (packet : List UInt8) (packets : List (List UInt8)) :
    remaining none (packet :: packets) = eot :: remaining (some packet) packets := by
  simp [remaining, frames, frame]

lemma remaining_some_nil (packets : List (List UInt8)) :
    remaining (some []) packets = eot :: remaining none packets := rfl

lemma remaining_some_cons (b : UInt8) (rest : List UInt8) (packets : List (List UInt8)) :
    remaining (some (b :: rest)) packets = escape b ++ remaining (some rest) packets := by
  simp [remaining]

lemma remaining_some_ne_nil (rest : List UInt8) (packets : List (List UInt8)) :
    remaining (some rest) packets ≠ [] := by
  simp [remaining]

/-- A byte on the line is one byte, or an escape and a byte that stands for it. -/
lemma escape_cases (b : UInt8) :
    (escape b = [b] ∧ b ≠ eot ∧ b ≠ esc) ∨ ∃ c, escape b = [esc, c] ∧ unescape c = some b := by
  by_cases heot : b = eot
  · exact Or.inr ⟨escEot, by rw [escape, if_pos heot], by rw [heot]; rfl⟩
  · by_cases hesc : b = esc
    · exact Or.inr ⟨escEsc, by rw [escape, if_neg heot, if_pos hesc], by rw [hesc]; rfl⟩
    · exact Or.inl ⟨by rw [escape, if_neg heot, if_neg hesc], heot, hesc⟩

/-- **The first byte of what is to come** begins or ends a packet, or it is the first byte of
the rest of one, by itself or with an escape before it. -/
theorem remaining_cons_cases {c : UInt8} {w : List UInt8} {rest : Option (List UInt8)}
    {packets : List (List UInt8)} (h : c :: w = remaining rest packets) :
    (c = eot ∧ rest = none ∧ ∃ packet packets', packets = packet :: packets'
        ∧ w = remaining (some packet) packets')
      ∨ (c = eot ∧ rest = some [] ∧ w = remaining none packets)
      ∨ (∃ q, rest = some (c :: q) ∧ c ≠ eot ∧ c ≠ esc ∧ w = remaining (some q) packets)
      ∨ (c = esc ∧ ∃ b q d, rest = some (b :: q) ∧ unescape d = some b
        ∧ w = d :: remaining (some q) packets) := by
  match rest, packets with
  | none, [] => cases h
  | none, packet :: packets =>
      rw [remaining_none_cons] at h
      obtain ⟨rfl, rfl⟩ := List.cons.inj h
      exact Or.inl ⟨rfl, rfl, packet, packets, rfl, rfl⟩
  | some [], packets =>
      rw [remaining_some_nil] at h
      obtain ⟨rfl, rfl⟩ := List.cons.inj h
      exact Or.inr (Or.inl ⟨rfl, rfl, rfl⟩)
  | some (b :: q), packets =>
      rw [remaining_some_cons] at h
      rcases escape_cases b with ⟨hb, heot, hesc⟩ | ⟨d, hb, hd⟩
      · rw [hb] at h
        obtain ⟨rfl, rfl⟩ := List.cons.inj h
        exact Or.inr (Or.inr (Or.inl ⟨q, rfl, heot, hesc, rfl⟩))
      · rw [hb] at h
        obtain ⟨rfl, rfl⟩ := List.cons.inj h
        exact Or.inr (Or.inr (Or.inr ⟨rfl, b, q, d, rfl, hd, rfl⟩))

/-- The packets that are not empty. -/
def kept (packets : List (List UInt8)) : List (List UInt8) := packets.filter (· ≠ [])

@[simp] lemma kept_append (ps qs : List (List UInt8)) : kept (ps ++ qs) = kept ps ++ kept qs :=
  List.filter_append _ _

@[simp] lemma kept_nil : kept [] = [] := rfl

@[simp] lemma kept_nil_cons (ps : List (List UInt8)) : kept ([] :: ps) = kept ps := rfl

end Slip
