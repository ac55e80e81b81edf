/-
A message of the OSC library of which not all bytes have come.

* `lastPadding`: the nulls behind the last value of a message.
* `Between.hasError_fill`: among the data an error is reported until the last value is there.
* `hasError_fill_iff`: so it is for a message, from the end of its types on.
-/
import EmbodiedSynth.Osc.RoundTrip

namespace EmbodiedSynth.Osc

open Aligned ByteOrder OSCData

namespace OSCMessage

variable (e e' : Endian)

/-- The padding of the last datum that has bytes. -/
def lastPadding : List OSCData → ℕ
  | [] => 0
  | d :: rest =>
      if rest.any waits then lastPadding rest
      else if d.isPadded then padSize d.bytes else 0

lemma hasError_decoding (address : CString) (data : List OSCData) (decodeState : DecodeState)
    (buffer : List UInt8) :
    (decoding address data decodeState buffer).hasError = data.any (·.error ≠ .ok) := by
  simp [hasError, decoding]

lemma Complete.hasError {address : CString} {data : List OSCData} {m : OSCMessage}
    (hm : Complete address data m) (h : ∀ d ∈ data, d.error = .ok) : m.hasError = false := by
  obtain ⟨decodeState, buffer, rfl, -⟩ := hm
  exact (hasError_eq_false_iff _).mpr ⟨rfl, h⟩

/-- A datum that waits is an error. -/
lemma hasError_of_waits (address : CString) {done rest : List OSCData}
    (hwaits : rest.any waits = true) (decodeState : DecodeState) (buffer : List UInt8) :
    (decoding address (done ++ rest.map pending) decodeState buffer).hasError = true := by
  obtain ⟨d, hd, hdwaits⟩ := List.any_eq_true.mp hwaits
  rw [hasError_decoding, List.any_eq_true]
  refine ⟨d.pending, List.mem_append_right _ (List.mem_map_of_mem hd), ?_⟩
  simp [error_pending, hdwaits]

lemma flatMap_send_of_flags {data : List OSCData} (h : ∀ d ∈ data, d.error = .ok)
    (hflags : ¬ data.any waits = true) : data.flatMap (OSCData.send e) = [] := by
  rw [List.flatMap_eq_nil_iff]
  intro d hd
  have hwaits : d.waits = false := by
    by_contra hne
    exact hflags (List.any_eq_true.mpr ⟨d, hd, by simpa using hne⟩)
  obtain ⟨b, rfl⟩ := (isFlag_type_of_ok (h d hd)).mp (by simpa [waits] using hwaits)
  rfl

lemma lastPadding_le (data : List OSCData) :
    lastPadding data ≤ (data.flatMap (OSCData.send e)).length := by
  induction data with
  | nil => exact le_refl 0
  | cons d data ih =>
      rw [List.flatMap_cons, List.length_append, lastPadding]
      split_ifs with hany hpadded
      · omega
      · rw [send_eq_content, if_pos hpadded, List.length_append, List.length_replicate]
        omega
      · omega

/-- A part of the bytes of a datum. -/
lemma Between.hasError_of_prefix {address : CString} {done : List OSCData} {d : OSCData}
    {rest : List OSCData} {m : OSCMessage} (hm : Between address done (d :: rest) m)
    (h : ∀ d ∈ done, d.error = .ok) (hd : d.error = .ok) (hwaits : d.waits = true)
    {pre : List UInt8} (hpre : pre <+: d.content e) (hne : pre ≠ d.content e) :
    (m.fill e' pre).hasError = true := by
  have hany : (d :: rest).any waits = true := by simp [hwaits]
  by_cases hnil : pre = []
  · subst hnil
    rcases hm with rfl | ⟨rfl, -⟩
    · exact hasError_of_waits address hany _ _
    · exact hasError_of_waits address hany _ _
  · rw [hm.fill_eq e e' h hd hwaits hpre hnil,
      fill_of_prefix e e' h address hd hwaits _ hpre hne]
    exact hasError_of_waits address hany _ _

/-- The bytes of a datum, and what has come of its padding. -/
lemma Between.hasError_of_padding {address : CString} {done : List OSCData} {d : OSCData}
    {rest : List OSCData} {m : OSCMessage} (hm : Between address done (d :: rest) m)
    (h : ∀ d ∈ done, d.error = .ok) (hd : d.error = .ok) (hrest : ∀ d ∈ rest, d.error = .ok)
    (hwaits : d.waits = true) (hfollows : d.Follows rest) {n : ℕ}
    (hn : n < padSize d.bytes ∧ d.isPadded = true ∨ rest.any waits = false) :
    (m.fill e' (d.content e ++ List.replicate n 0)).hasError = rest.any waits := by
  have hcontent := hm.fill_eq e e' h hd hwaits (List.prefix_refl _)
    (content_ne_nil e hd hwaits)
  rw [fill_content e e' h address hd hwaits hfollows.1] at hcontent
  rw [fill_append, hcontent]
  by_cases hany : rest.any waits = true
  · obtain ⟨hlt, hpadded⟩ : n < padSize d.bytes ∧ d.isPadded = true :=
      hn.resolve_right (by simp [hany])
    have hall : ∀ x ∈ rest, x.waits = true := by
      rcases hfollows.2 hpadded with hflags | ⟨-, hall⟩ | ⟨hzero, -⟩
      · obtain ⟨x, hx, hxwaits⟩ := List.any_eq_true.mp hany
        exact absurd (hflags x hx) (by simp [hxwaits])
      · exact hall
      · omega
    rw [if_pos hpadded, fill_of_lt_padding e' done address hd hlt hall, hany]
    have heq : done ++ d :: rest.map pending = done ++ [d] ++ rest.map pending := by simp
    rw [heq]
    exact hasError_of_waits address hany _ _
  · have hflags : ∀ x ∈ rest, x.waits = false := by
      simpa using hany
    have hok : ∀ x ∈ done ++ d :: rest, x.error = .ok := by
      rw [List.forall_mem_append, List.forall_mem_cons]
      exact ⟨h, hd, hrest⟩
    rw [map_pending_of_flags hrest hflags, Bool.eq_false_iff.mpr hany]
    refine (fill_of_complete e' hok ⟨_, _, rfl, ?_⟩ _).hasError hok
    split_ifs
    · exact Or.inr rfl
    · exact Or.inl rfl

/-- Among the data an error is reported until the last value is there. -/
lemma Between.hasError_fill {address : CString} {done rest : List OSCData} {m : OSCMessage}
    (hm : Between address done rest m) (h : ∀ d ∈ done, d.error = .ok)
    (hrest : ∀ d ∈ rest, d.error = .ok) (hclean : Clean rest) {p q : List UInt8}
    (hpq : rest.flatMap (OSCData.send e) = p ++ q) :
    (m.fill e' p).hasError = decide (lastPadding rest < q.length) := by
  induction rest generalizing done m p with
  | nil =>
      obtain ⟨rfl, rfl⟩ := List.append_eq_nil_iff.mp hpq.symm
      have hend := hm.fill_payloads e e' h hrest hclean
      rw [List.append_nil] at hend
      exact hend.hasError h
  | cons d rest ih =>
      rw [List.forall_mem_cons] at hrest
      have hdone : ∀ x ∈ done ++ [d], x.error = .ok := by
        rw [List.forall_mem_append, List.forall_mem_singleton]
        exact ⟨h, hrest.1⟩
      by_cases hwaits : d.waits = true
      · rw [List.flatMap_cons] at hpq
        have hlen := congrArg List.length hpq
        have hlast := lastPadding_le e rest
        have hsend := congrArg List.length (send_eq_content e d)
        simp only [List.length_append, List.length_replicate] at hlen hsend
        have hp : p <+: d.send e ++ rest.flatMap (OSCData.send e) := ⟨q, hpq.symm⟩
        have hcontent : d.content e <+: d.send e ++ rest.flatMap (OSCData.send e) := by
          rw [send_eq_content, List.append_assoc]
          exact List.prefix_append _ _
        rw [lastPadding]
        rcases Nat.lt_or_ge p.length (d.content e).length with hlt | hge
        · -- a part of the value has come
          have hpre := List.prefix_of_prefix_length_le hp hcontent hlt.le
          rw [hm.hasError_of_prefix e e' h hrest.1 hwaits hpre (fun heq => by simp [heq] at hlt),
            eq_comm, decide_eq_true_eq]
          split_ifs at hsend ⊢ <;> omega
        · rcases Nat.lt_or_ge p.length (d.send e).length with hlt | hge'
          · -- a part of the padding has come
            obtain ⟨r, rfl⟩ := List.prefix_of_prefix_length_le hcontent hp hge
            have hpre := List.prefix_of_prefix_length_le hp (List.prefix_append _ _) hlt.le
            rw [send_eq_content, List.prefix_append_right_inj, List.prefix_replicate_iff] at hpre
            rw [List.length_append] at hlt hlen
            have hpadded : d.isPadded = true := by
              by_contra hne
              rw [if_neg hne] at hsend
              omega
            rw [if_pos hpadded] at hsend
            rw [hpre.2, hm.hasError_of_padding e e' h hrest.1 hrest.2 hwaits hclean.1
              (Or.inl ⟨by omega, hpadded⟩)]
            by_cases hany : rest.any waits = true
            · rw [hany, if_pos rfl, eq_comm, decide_eq_true_eq]
              omega
            · rw [flatMap_send_of_flags e hrest.2 hany, List.length_nil] at hlen
              rw [if_neg hany, if_pos hpadded, Bool.eq_false_iff.mpr hany, eq_comm,
                decide_eq_false_iff_not]
              omega
          · obtain ⟨p', rfl⟩ := List.prefix_of_prefix_length_le (List.prefix_append _ _) hp hge'
            rw [List.append_assoc] at hpq
            have hpq' := List.append_cancel_left hpq
            by_cases hany : rest.any waits = true
            · rw [if_pos hany, fill_append]
              rcases hm.fill_datum e e' h hrest.1 hrest.2 hwaits hclean.1 with hnext | ⟨hflags, -⟩
              · exact ih hnext hdone hrest.2 hclean.2 hpq'
              · obtain ⟨x, hx, hxwaits⟩ := List.any_eq_true.mp hany
                exact absurd (hflags x hx) (by simp [hxwaits])
            · rw [flatMap_send_of_flags e hrest.2 hany] at hpq'
              obtain ⟨rfl, rfl⟩ := List.append_eq_nil_iff.mp hpq'.symm
              rw [List.append_nil, send_eq_content, hm.hasError_of_padding e e' h hrest.1 hrest.2
                hwaits hclean.1 (Or.inr (Bool.eq_false_iff.mpr hany)), Bool.eq_false_iff.mpr hany]
              simp
      · obtain ⟨b, rfl⟩ := (isFlag_type_of_ok hrest.1).mp (by simpa [waits] using hwaits)
        rw [List.flatMap_cons, OSCData.send, List.nil_append] at hpq
        rw [ih hm.flag hdone hrest.2 hclean.2 hpq, lastPadding]
        by_cases hany : rest.any waits = true
        · rw [if_pos hany]
        · rw [flatMap_send_of_flags e hrest.2 hany] at hpq
          obtain ⟨-, rfl⟩ := List.append_eq_nil_iff.mp hpq.symm
          simp

/-- **A message that is cut off among its data has an error exactly until its last value is
there**: only the padding behind that value can be missing unnoticed. -/
theorem hasError_fill_iff {m m₀ : OSCMessage} {address : CString}
    (haddress : m.address = some address) (hslash : ascii '/' ∈ address.chars)
    (h : m.hasError = false) (hclean : Clean m.data) (hm₀ : Fresh m₀) {p q : List UInt8}
    (hsend : m.send e = some (p ++ q))
    (hp : (header address (m.data.map OSCData.type)).length ≤ p.length) :
    (m₀.fill e' p).hasError = true ↔ lastPadding m.data < q.length := by
  have hdata := ((hasError_eq_false_iff m).mp h).2
  simp only [send, h, haddress, Option.map_some, Bool.false_eq_true, if_false,
    Option.some.injEq] at hsend
  rw [written_eq_header] at hsend
  obtain ⟨p', rfl⟩ := List.prefix_of_prefix_length_le (List.prefix_append _ _)
    ⟨q, hsend.symm⟩ hp
  rw [List.append_assoc] at hsend
  rw [fill_append, (between_header e' hm₀ hslash hdata).hasError_fill e e' (by simp) hdata hclean
    (List.append_cancel_left hsend), decide_eq_true_eq]

/-- Of the three nulls behind the last text one belongs to it. -/
theorem hasError_fill_iff_mixed :
    (new.fill .big (mixedBytes.take 25)).hasError = true
      ↔ lastPadding mixed.data < (mixedBytes.drop 25).length :=
  hasError_fill_iff .little .big rfl (by decide) (by decide) (by decide) fresh_new
    (by decide +kernel) (by decide +kernel)

end OSCMessage

end EmbodiedSynth.Osc
