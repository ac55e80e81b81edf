/-
The decoder of the OSC library on any bytes whatever.

* `Step`: what one byte can do; `step_decode`.
* `Extends`: what of a message is there to stay; `extends_fill`: it stays, whatever follows.
* `held`: the bytes that a message holds; `held_fill_le`: never more than have come.
-/
import EmbodiedSynth.Osc.Decoding

namespace EmbodiedSynth.Osc

open Aligned ByteOrder

/-- The states in the order in which a message goes through them. -/
def DecodeState.rank : DecodeState → ℕ
  | standby => 0
  | address => 1
  | addressPadding => 2
  | types => 3
  | typesPadding => 4
  | data => 5
  | dataPadding => 5
  | done => 6

namespace OSCMessage

variable (e : Endian)

/-! ### One byte -/

/-- A text that ends with the last byte of the buffer. -/
lemma length_cstring_lt (buffer : List UInt8) :
    (cstring (buffer ++ [0])).chars.length < buffer.length + 1 := by
  have hle : (cstring (buffer ++ [0])).chars.length ≤ (buffer ++ [0]).length :=
    (List.takeWhile_prefix _).length_le
  rw [List.length_append, List.length_singleton] at hle
  refine lt_of_le_of_ne hle fun heq => ?_
  have hall : (cstring (buffer ++ [0])).chars = buffer ++ [0] :=
    (List.takeWhile_prefix _).eq_of_length (heq.trans (by simp))
  exact (cstring (buffer ++ [0])).noNull (by rw [hall]; simp)

/-- A value has the type that waited for it, and no more bytes than the buffer. -/
lemma received_eq_some {t b : UInt8} {buffer : List UInt8} {d : OSCData}
    (h : received e t (buffer ++ [b]) b = some d) :
    d.type = t ∧ d.error = .ok ∧ d.bytes ≤ buffer.length + 1 := by
  have hbuffer : (buffer ++ [b]).length = buffer.length + 1 := by simp
  unfold received at h
  by_cases hi : t = ascii 'i'
  · rw [if_pos hi, Option.ite_none_right_eq_some] at h
    obtain ⟨hlen, hd⟩ := h
    cases hd
    exact ⟨hi.symm, rfl, by rw [OSCData.bytes]; omega⟩
  rw [if_neg hi] at h
  by_cases hf : t = ascii 'f'
  · rw [if_pos hf, Option.ite_none_right_eq_some] at h
    obtain ⟨hlen, hd⟩ := h
    cases hd
    exact ⟨hf.symm, rfl, by rw [OSCData.bytes]; omega⟩
  rw [if_neg hf] at h
  by_cases hdouble : t = ascii 'd'
  · rw [if_pos hdouble, Option.ite_none_right_eq_some] at h
    obtain ⟨hlen, hd⟩ := h
    cases hd
    exact ⟨hdouble.symm, rfl, by rw [OSCData.bytes]; omega⟩
  rw [if_neg hdouble] at h
  by_cases ht : t = ascii 't'
  · rw [if_pos ht, Option.ite_none_right_eq_some] at h
    obtain ⟨hlen, hd⟩ := h
    cases hd
    exact ⟨ht.symm, rfl, by rw [OSCData.bytes]; omega⟩
  rw [if_neg ht] at h
  by_cases hs : t = ascii 's'
  · rw [if_pos hs, Option.ite_none_right_eq_some] at h
    obtain ⟨rfl, hd⟩ := h
    cases hd
    have hshort := length_cstring_lt buffer
    exact ⟨hs.symm, rfl, by rw [OSCData.bytes]; omega⟩
  rw [if_neg hs] at h
  by_cases hblob : t = ascii 'b'
  · rw [if_pos hblob, Option.ite_none_right_eq_some] at h
    obtain ⟨hlen, h⟩ := h
    split at h
    · cases h
      refine ⟨hblob.symm, rfl, ?_⟩
      simp only [OSCData.bytes, List.length_take, List.length_drop]
      omega
    · exact absurd h (by simp)
  · rw [if_neg hblob] at h
    exact absurd h (by simp)

/-- What one byte does: it goes to the buffer, or ends the address, or is a type, or is the
last of a value. -/
inductive Step (m : OSCMessage) (b : UInt8) : OSCMessage → Prop where
  | kept (s : DecodeState) (buffer : List UInt8) (hs : m.decodeState.rank ≤ s.rank)
      (hbuffer : buffer.length ≤ m.incomingBuffer.length + 1) :
      Step m b { m with decodeState := s, incomingBuffer := buffer }
  | addressed (a : CString) (hm : m.decodeState = .address) :
      Step m b { address := some a, data := m.data, error := .ok, decodeState := .addressPadding,
                 incomingBuffer := [] }
  | typed (s : DecodeState) (buffer : List UInt8) (hm : m.decodeState = .types)
      (hs : 3 ≤ s.rank) (hbuffer : buffer.length ≤ m.incomingBuffer.length + 1) :
      Step m b { m with data := m.data ++ [OSCData.ofType b], decodeState := s,
                        incomingBuffer := buffer }
  | valued (i : ℕ) (waiting d : OSCData) (s : DecodeState) (hm : m.decodeState = .data)
      (hget : m.data[i]? = some waiting) (hwaiting : waiting.error = .invalidOsc)
      (htype : d.type = waiting.type) (hok : d.error = .ok)
      (hbytes : d.bytes ≤ m.incomingBuffer.length + 1) (hs : s.rank = 5) :
      Step m b { m with data := m.data.set i d, decodeState := s, incomingBuffer := [] }

/-- The test for the end of the types leaves the data alone. -/
lemma testTypes_eq (m : OSCMessage) (hm : m.decodeState.rank ≤ 5) :
    ∃ s buffer, m.testTypes = { m with decodeState := s, incomingBuffer := buffer }
      ∧ m.decodeState.rank ≤ s.rank ∧ buffer.length ≤ m.incomingBuffer.length := by
  unfold testTypes
  split_ifs
  · exact ⟨.data, [], rfl, hm, Nat.zero_le _⟩
  · exact ⟨m.decodeState, m.incomingBuffer, rfl, le_refl _, le_refl _⟩

/-- So does the padding of a value. -/
lemma skipPadding_eq (m : OSCMessage) (hm : m.decodeState.rank ≤ 5) :
    ∃ s buffer, m.skipPadding = { m with decodeState := s, incomingBuffer := buffer }
      ∧ m.decodeState.rank ≤ s.rank ∧ buffer.length ≤ m.incomingBuffer.length := by
  unfold skipPadding
  split
  · exact ⟨m.decodeState, m.incomingBuffer, rfl, le_refl _, le_refl _⟩
  · split_ifs
    · exact ⟨.data, m.incomingBuffer, rfl, hm, le_refl _⟩
    · exact ⟨.data, [], rfl, hm, Nat.zero_le _⟩
    · exact ⟨m.decodeState, m.incomingBuffer, rfl, le_refl _, le_refl _⟩

lemma step_decodeData {m : OSCMessage} (hm : m.decodeState = .data) (b : UInt8) :
    Step m b ((m.addToIncomingBuffer b).decodeData e b) := by
  have hlen : (m.incomingBuffer ++ [b]).length ≤ m.incomingBuffer.length + 1 := by simp
  have hkept : Step m b (m.addToIncomingBuffer b) := .kept m.decodeState _ (le_refl _) hlen
  unfold decodeData
  split
  · exact hkept
  · rename_i i hfirst
    split
    · exact hkept
    · rename_i d hd
      obtain ⟨waiting, hget, hreceived⟩ := Option.bind_eq_some_iff.mp hd
      obtain ⟨htype, hok, hbytes⟩ := received_eq_some e hreceived
      obtain ⟨hi, hwaiting, -⟩ := List.findIdx?_eq_some_iff_getElem.mp hfirst
      rw [List.getElem?_eq_getElem hi, Option.some.injEq] at hget
      rw [hget, decide_eq_true_eq] at hwaiting
      have hset : (m.addToIncomingBuffer b).set i d
          = { m.addToIncomingBuffer b with data := m.data.set i d } := if_pos hi
      rw [hset]
      refine .valued i waiting d _ hm ?_ hwaiting htype hok hbytes ?_
      · exact (List.getElem?_eq_getElem hi).trans (congrArg some hget)
      · split_ifs
        · rfl
        · rw [addToIncomingBuffer, hm]
          rfl

/-- **Every byte is such a step.** -/
lemma step_decode (m : OSCMessage) (b : UInt8) : Step m b (m.decode e b) := by
  have hlen : (m.incomingBuffer ++ [b]).length ≤ m.incomingBuffer.length + 1 := by simp
  obtain ⟨address, data, error, decodeState, buffer⟩ := m
  cases decodeState with
  | standby =>
      change Step _ _ (if b = ascii '/' then _ else _)
      split_ifs
      · exact .kept .address _ (Nat.zero_le _) hlen
      · exact .kept .standby _ (Nat.zero_le _) hlen
  | address =>
      change Step _ _ (if b = 0 then _ else _)
      split_ifs
      · exact .addressed _ rfl
      · exact .kept .address _ (le_refl _) hlen
  | addressPadding =>
      change Step _ _ (if b = ascii ',' then _ else _)
      split_ifs
      · exact .kept .types [] (Nat.le_succ 2) (Nat.zero_le _)
      · exact .kept .addressPadding _ (le_refl _) hlen
  | types =>
      change Step _ _ (if b ≠ 0 then testTypes _ else testTypes _)
      split_ifs
      · obtain ⟨s, buffer', heq, hs, hbuffer⟩ := testTypes_eq
          ⟨address, data ++ [OSCData.ofType b], error, .types, buffer ++ [b]⟩
          (by simp [DecodeState.rank])
        exact heq ▸ .typed s buffer' rfl hs (hbuffer.trans hlen)
      · obtain ⟨s, buffer', heq, hs, hbuffer⟩ := testTypes_eq
          ⟨address, data, error, .typesPadding, buffer ++ [b]⟩ (by simp [DecodeState.rank])
        exact heq ▸ .kept s buffer' (le_trans (Nat.le_succ 3) hs) (hbuffer.trans hlen)
  | typesPadding =>
      obtain ⟨s, buffer', heq, hs, hbuffer⟩ := testTypes_eq
        ⟨address, data, error, .typesPadding, buffer ++ [b]⟩ (by simp [DecodeState.rank])
      change Step _ _ (testTypes _)
      exact heq ▸ .kept s buffer' hs (hbuffer.trans hlen)
  | data => exact step_decodeData e rfl b
  | dataPadding =>
      obtain ⟨s, buffer', heq, hs, hbuffer⟩ := skipPadding_eq
        ⟨address, data, error, .dataPadding, buffer ++ [b]⟩ (by simp [DecodeState.rank])
      change Step _ _ (skipPadding _)
      exact heq ▸ .kept s buffer' hs (hbuffer.trans hlen)
  | done => exact .kept .done _ (le_refl _) hlen

/-! ### What is there to stay -/

/-- What of the message `m` is still there in `m'`. -/
structure Extends (m m' : OSCMessage) : Prop where
  decodeState : m.decodeState.rank ≤ m'.decodeState.rank
  address : 2 ≤ m.decodeState.rank → m'.address = m.address
  types : m.data.map OSCData.type <+: m'.data.map OSCData.type
  length : 4 ≤ m.decodeState.rank → m'.data.length = m.data.length
  values : ∀ (i : ℕ) (d : OSCData), m.data[i]? = some d → d.error = .ok → m'.data[i]? = some d

namespace Extends

lemma refl (m : OSCMessage) : Extends m m :=
  ⟨le_refl _, fun _ => rfl, List.prefix_refl _, fun _ => rfl, fun _ _ h _ => h⟩

lemma trans {m m' m'' : OSCMessage} (h : Extends m m') (h' : Extends m' m'') :
    Extends m m'' where
  decodeState := h.decodeState.trans h'.decodeState
  address := fun hm => (h'.address (hm.trans h.decodeState)).trans (h.address hm)
  types := h.types.trans h'.types
  length := fun hm => (h'.length (hm.trans h.decodeState)).trans (h.length hm)
  values := fun i d hd hok => h'.values i d (h.values i d hd hok) hok

end Extends

/-- A value takes the place of the type that waited for it. -/
lemma map_type_set {data : List OSCData} {i : ℕ} {waiting d : OSCData}
    (hget : data[i]? = some waiting) (htype : d.type = waiting.type) :
    (data.set i d).map OSCData.type = data.map OSCData.type := by
  refine List.ext_getElem? fun j => ?_
  rcases eq_or_ne i j with rfl | hne
  · obtain ⟨hi, -⟩ := List.getElem?_eq_some_iff.mp hget
    rw [List.getElem?_map, List.getElem?_map, List.getElem?_set_self hi, hget, Option.map_some,
      Option.map_some, htype]
  · rw [List.getElem?_map, List.getElem?_map, List.getElem?_set_ne hne]

/-- What is there stays under a step. -/
lemma Step.extends {m m' : OSCMessage} {b : UInt8} (h : Step m b m') : Extends m m' := by
  cases h with
  | kept s buffer hs hbuffer =>
      exact ⟨hs, fun _ => rfl, List.prefix_refl _, fun _ => rfl, fun _ _ hd _ => hd⟩
  | addressed a hm =>
      refine ⟨by rw [hm]; exact Nat.le_succ 1, fun h => ?_, List.prefix_refl _, fun _ => rfl,
        fun _ _ hd _ => hd⟩
      rw [hm] at h
      exact absurd h (by simp [DecodeState.rank])
  | typed s buffer hm hs hbuffer =>
      refine ⟨by rw [hm]; exact hs, fun _ => rfl, ?_, fun h => ?_, fun i d hd _ => ?_⟩
      · rw [List.map_append]
        exact List.prefix_append _ _
      · rw [hm] at h
        exact absurd h (by simp [DecodeState.rank])
      · exact List.getElem?_append_left (List.getElem?_eq_some_iff.mp hd).1 |>.trans hd
  | valued i waiting d s hm hget hwaiting htype hok hbytes hs =>
      refine ⟨by rw [hm, hs]; rfl, fun _ => rfl, ?_, fun _ => by simp, fun j x hx hxok => ?_⟩
      · rw [map_type_set hget htype]
      · rcases eq_or_ne i j with rfl | hne
        · obtain rfl : waiting = x := Option.some.inj (hget.symm.trans hx)
          exact absurd hxok (by simp [hwaiting])
        · exact (List.getElem?_set_ne hne).trans hx

lemma fill_extends (m : OSCMessage) (bs : List UInt8) : Extends m (m.fill e bs) :=
  Machine.run_invariant (P := Extends m)
    (fun m' h b _ => h.trans (step_decode e m' b).extends) (Extends.refl m)

/-- **What the decoder has read stays**: whatever bytes have come and whatever bytes follow, the
address, the types and the values of a message are not changed, and no state is left
backwards. -/
theorem extends_fill (m : OSCMessage) (bs bs' : List UInt8) :
    Extends (m.fill e bs) (m.fill e (bs ++ bs')) := by
  rw [fill_append]
  exact fill_extends e _ bs'

/-! ### How much a message holds -/

/-- The bytes that the values and the buffer of a message hold. -/
def held (m : OSCMessage) : ℕ := m.incomingBuffer.length + (m.data.map OSCData.bytes).sum

lemma bytes_eq_zero {d : OSCData} (h : d.error = .invalidOsc) : d.bytes = 0 := by
  obtain ⟨t, noFlag, rfl⟩ := (OSCData.error_eq_invalidOsc_iff d).mp h
  rfl

lemma bytes_ofType (t : UInt8) : (OSCData.ofType t).bytes = 0 := by
  unfold OSCData.ofType
  split_ifs
  · rfl
  · rfl

/-- A value takes the place of a datum without bytes. -/
lemma sum_set {data : List OSCData} {i : ℕ} {waiting : OSCData} (d : OSCData)
    (hget : data[i]? = some waiting) (hwaiting : waiting.bytes = 0) :
    ((data.set i d).map OSCData.bytes).sum = (data.map OSCData.bytes).sum + d.bytes := by
  induction data generalizing i with
  | nil => exact absurd hget (by simp)
  | cons x data ih =>
      cases i with
      | zero =>
          obtain rfl : x = waiting := by simpa using hget
          simp [hwaiting, Nat.add_comm]
      | succ i =>
          have hrest := ih (i := i) (by simpa using hget)
          simp only [List.set_cons_succ, List.map_cons, List.sum_cons, hrest]
          omega

lemma Step.held_le {m m' : OSCMessage} {b : UInt8} (h : Step m b m') : m'.held ≤ m.held + 1 := by
  unfold held
  cases h with
  | kept s buffer hs hbuffer =>
      exact (Nat.add_le_add_right hbuffer _).trans (Nat.add_right_comm _ _ _).le
  | addressed a hm => simp only [List.length_nil]; omega
  | typed s buffer hm hs hbuffer =>
      simp only [List.map_append, List.map_singleton, List.sum_append, List.sum_singleton,
        bytes_ofType]
      omega
  | valued i waiting d s hm hget hwaiting htype hok hbytes hs =>
      simp only [sum_set d hget (bytes_eq_zero hwaiting), List.length_nil]
      omega

/-- **A message never holds more bytes than have come.** -/
theorem held_fill_le (m : OSCMessage) (bs : List UInt8) :
    (m.fill e bs).held ≤ m.held + bs.length := by
  induction bs using List.reverseRecOn with
  | nil => exact le_refl _
  | append_singleton bs b ih =>
      rw [fill_append, List.length_append, List.length_singleton]
      exact (step_decode e (m.fill e bs) b).held_le.trans (by omega)

end OSCMessage

end EmbodiedSynth.Osc
