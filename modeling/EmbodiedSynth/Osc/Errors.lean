/-
The error of a message of the OSC library.

* `Operation`: what a program does with a message, apart from emptying it.
* `error_apply`: an error of the message outlasts each of them.
* `silent_of_look`: after a look behind the data nothing is read and nothing is sent.
-/
import EmbodiedSynth.Osc.Stream

namespace EmbodiedSynth.Osc.OSCMessage

open Aligned ByteOrder

variable (e : Endian)

/-- What a program does with a message.  A getter leaves it as `look` does. -/
inductive Operation where
  | add (datum : OSCData)
  | set (position : ℕ) (datum : OSCData)
  | setAddress (address : CString)
  | look (position : ℕ)
  | fill (incomingBytes : List UInt8)

def apply (m : OSCMessage) : Operation → OSCMessage
  | .add datum => m.add datum
  | .set position datum => m.set position datum
  | .setAddress address => m.setAddress address
  | .look position => (m.getOSCData position).1
  | .fill incomingBytes => m.fill e incomingBytes

/-- A look leaves the message or makes its error. -/
lemma getOSCData_fst (m : OSCMessage) (position : ℕ) :
    (m.getOSCData position).1
      = if position < m.data.length then m else { m with error := .indexOutOfBounds } := by
  unfold getOSCData
  split
  · rename_i datum hget
    rw [if_pos (List.getElem?_eq_some_iff.mp hget).1]
  · rename_i hget
    rw [if_neg (List.getElem?_eq_none_iff.mp hget).not_gt]

/-- A step keeps the error of a message whose address has come. -/
lemma Step.error_eq {m m' : OSCMessage} {b : UInt8} (h : Step m b m')
    (hm : 2 ≤ m.decodeState.rank) : m'.error = m.error := by
  cases h with
  | addressed a hstate =>
      rw [hstate] at hm
      exact absurd hm (by simp [DecodeState.rank])
  | _ => rfl

lemma error_fill {m : OSCMessage} (hm : 2 ≤ m.decodeState.rank) (bs : List UInt8) :
    (m.fill e bs).error = m.error := by
  have hrun : (Machine.run (decode e) m bs).error = m.error
      ∧ 2 ≤ (Machine.run (decode e) m bs).decodeState.rank := by
    refine Machine.run_invariant
      (P := fun m' : OSCMessage => m'.error = m.error ∧ 2 ≤ m'.decodeState.rank)
      (fun m' hm' b _ => ?_) ⟨rfl, hm⟩
    have hstep := step_decode e m' b
    exact ⟨(hstep.error_eq hm'.2).trans hm'.1, hm'.2.trans hstep.extends.decodeState⟩
  exact hrun.1

/-- The states of the decoder are not left backwards. -/
lemma rank_apply (m : OSCMessage) (op : Operation) :
    m.decodeState.rank ≤ (m.apply e op).decodeState.rank := by
  cases op with
  | add datum => exact le_refl _
  | set position datum =>
      simp only [apply, set]
      split_ifs <;> exact le_refl _
  | setAddress address => exact le_refl _
  | look position =>
      rw [apply, getOSCData_fst]
      split_ifs <;> exact le_refl _
  | fill bs => exact (fill_extends e m bs).decodeState

/-- **An error of the message outlasts every operation** but `empty()`. -/
lemma error_apply {m : OSCMessage} {op : Operation} (h : m.error ≠ .ok)
    (hfill : ∀ bs, op = .fill bs → 2 ≤ m.decodeState.rank) : (m.apply e op).error ≠ .ok := by
  cases op with
  | add datum => exact h
  | set position datum =>
      simp only [apply, set]
      split_ifs
      · exact h
      · exact h
      · exact fun herror => by cases herror
  | setAddress address => exact h
  | look position =>
      rw [apply, getOSCData_fst]
      split_ifs
      · exact h
      · exact fun herror => by cases herror
  | fill bs =>
      rw [apply, error_fill e (hfill bs rfl)]
      exact h

lemma error_run {m : OSCMessage} {ops : List Operation} (h : m.error ≠ .ok)
    (hfill : ∀ bs, .fill bs ∈ ops → 2 ≤ m.decodeState.rank) :
    (Machine.run (apply e) m ops).error ≠ .ok := by
  have hrun : (Machine.run (apply e) m ops).error ≠ .ok
      ∧ m.decodeState.rank ≤ (Machine.run (apply e) m ops).decodeState.rank := by
    refine Machine.run_invariant
      (P := fun m' : OSCMessage => m'.error ≠ .ok ∧ m.decodeState.rank ≤ m'.decodeState.rank)
      (fun m' hm' op hop => ⟨error_apply e hm'.1 fun bs hbs => ?_, ?_⟩) ⟨h, le_refl _⟩
    · exact (hfill bs (hbs ▸ hop)).trans hm'.2
    · exact hm'.2.trans (rank_apply e m' op)
  exact hrun.1

lemma hasError_of_error {m : OSCMessage} (h : m.error ≠ .ok) : m.hasError = true := by
  simp [hasError, h]

/-- **A look behind the data silences the message**: until it is emptied, every getter gives its
default at every position, and `send` writes nothing. -/
theorem silent_of_look {m : OSCMessage} {position : ℕ} (h : m.data.length ≤ position)
    {ops : List Operation} (hfill : ∀ bs, .fill bs ∈ ops → 2 ≤ m.decodeState.rank) :
    (Machine.run (apply e) (m.getOSCData position).1 ops).send e = some []
      ∧ ∀ {α : Type} (f : OSCData → α) (miss : α) (position' : ℕ),
        (read f miss (Machine.run (apply e) (m.getOSCData position).1 ops) position').2 = miss := by
  have hlook : (m.getOSCData position).1 = { m with error := .indexOutOfBounds } := by
    rw [getOSCData_fst, if_neg h.not_gt]
  have herror : (Machine.run (apply e) (m.getOSCData position).1 ops).error ≠ .ok := by
    rw [hlook]
    exact error_run e (fun h => by cases h) hfill
  refine ⟨if_pos (hasError_of_error herror), fun f miss position' => if_pos ?_⟩
  refine hasError_of_error ?_
  rw [getOSCData_fst]
  split_ifs
  · exact herror
  · exact fun h => by cases h

/-- The number that is there is not read after the look. -/
theorem silent_of_look_five :
    (Machine.run (apply .little) (five.getOSCData 1).1 [.add (.int 6)]).send .little = some []
      ∧ (read (OSCData.getInt true) 0
        (Machine.run (apply .little) (five.getOSCData 1).1 [.add (.int 6)]) 0).2 = 0 :=
  have hfill : ∀ bs, .fill bs ∈ [Operation.add (.int 6)] → 2 ≤ five.decodeState.rank := by simp
  have hbehind : five.data.length ≤ 1 := le_refl 1
  have hsilent := silent_of_look .little (m := five) hbehind hfill
  ⟨hsilent.1, hsilent.2 _ _ _⟩

end EmbodiedSynth.Osc.OSCMessage
