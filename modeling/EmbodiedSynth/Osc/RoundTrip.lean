/-
The round trip of a message of the OSC library.

* `Follows`, `Clean`: the data that can stand behind a padded datum, and the messages that the
  decoder reads.
* `fill_content`: the bytes of a datum set it; `fill_padding` and `fill_of_aligned` are what
  the padding does.
* `fill_of_complete`: bytes behind a complete message change nothing in it.
* `fill_payloads`: the data of a message, one after the other.
* `fill_send`: a message is read as it was sent.
-/
import EmbodiedSynth.Osc.Decoding
import EmbodiedSynth.Osc.Received

namespace EmbodiedSynth.Osc

open Aligned ByteOrder

/-! ### The messages that are read -/

namespace OSCData

/-- A datum before its bytes have come. -/
def pending (d : OSCData) : OSCData := ofType d.type

@[simp] lemma pending_boolean (b : Bool) : (boolean b).pending = boolean b :=
  ofType_type_of_boolean b

/-- The data that follow their type on the wire. -/
def waits (d : OSCData) : Bool := !isFlag d.type

lemma isFlag_type_of_ok {d : OSCData} (h : d.error = .ok) :
    isFlag d.type = true ↔ ∃ b, d = boolean b := by
  cases d with
  | placeholder t noFlag => cases h
  | boolean b => exact iff_of_true (by cases b <;> decide) ⟨b, rfl⟩
  | _ => exact iff_of_false Bool.false_ne_true (by simp)

lemma pending_of_waits {d : OSCData} (h : d.waits = true) :
    ∃ noFlag, d.pending = placeholder d.type noFlag := by
  have hflag : isFlag d.type = false := by simpa [waits] using h
  exact ⟨hflag, by rw [pending, ofType, dif_pos hflag]⟩

lemma error_pending (d : OSCData) : d.pending.error = if d.waits then .invalidOsc else .ok := by
  rw [pending, error_ofType, waits]
  cases isFlag d.type <;> rfl

/-- What may stand behind a datum: behind a padded one either nothing waits, or no flag is
mistaken for it, or without padding no text ends with its first byte. -/
def Follows (d : OSCData) (rest : List OSCData) : Prop :=
  d ≠ emptyBlob ∧ (d.isPadded = true →
    (∀ x ∈ rest, x.waits = false) ∨ (padSize d.bytes ≠ 0 ∧ ∀ x ∈ rest, x.waits = true) ∨
      (padSize d.bytes = 0 ∧ rest.find? waits ≠ some emptyString))

instance (d : OSCData) (rest : List OSCData) : Decidable (Follows d rest) :=
  inferInstanceAs (Decidable (_ ∧ _))

/-- The data that the decoder reads. -/
def Clean : List OSCData → Prop
  | [] => True
  | d :: rest => Follows d rest ∧ Clean rest

instance decidableClean : ∀ data, Decidable (Clean data)
  | [] => isTrue trivial
  | d :: rest =>
      have := decidableClean rest
      inferInstanceAs (Decidable (Follows d rest ∧ Clean rest))

end OSCData

open OSCData

namespace OSCMessage

variable (e e' : Endian)

/-! ### One datum -/

lemma findIdx?_pending {done : List OSCData} (h : ∀ d ∈ done, d.error = .ok) (t : UInt8)
    (noFlag : isFlag t = false) (rest : List OSCData) :
    (done ++ placeholder t noFlag :: rest).findIdx? (fun d => d.error = .invalidOsc)
      = some done.length := by
  induction done with
  | nil => simp [List.findIdx?_cons, OSCData.error]
  | cons d done ih =>
      rw [List.forall_mem_cons] at h
      rw [List.cons_append, List.findIdx?_cons, ih h.2]
      simp [h.1]

/-- The first datum without a value is the one that is set. -/
lemma decodeData_decoding {done : List OSCData} (h : ∀ d ∈ done, d.error = .ok)
    (address : CString) (t : UInt8) (noFlag : isFlag t = false) (rest : List OSCData)
    (buffer : List UInt8) (b : UInt8) :
    (decoding address (done ++ placeholder t noFlag :: rest) .data buffer).decodeData e b
      = match received e t buffer b with
        | none => decoding address (done ++ placeholder t noFlag :: rest) .data buffer
        | some d => decoding address (done ++ d :: rest)
            (if d.type = ascii 's' ∨ d.type = ascii 'b' then .dataPadding else .data) [] := by
  have hget : (done ++ placeholder t noFlag :: rest)[done.length]?
      = some (placeholder t noFlag) := by simp
  simp only [decodeData, decoding, findIdx?_pending h, hget, Option.bind_some, OSCData.type]
  cases received e t buffer b with
  | none => rfl
  | some d => simp [set, clearIncomingBuffer]

/-- A datum and what has come of its bytes. -/
lemma fill_of_prefix {done : List OSCData} (h : ∀ d ∈ done, d.error = .ok) (address : CString)
    {d : OSCData} (hd : d.error = .ok) (hwaits : d.waits = true) (rest : List OSCData)
    {pre : List UInt8} (hpre : pre <+: d.content e) (hne : pre ≠ d.content e) :
    (decoding address (done ++ d.pending :: rest) .data []).fill e' pre
      = decoding address (done ++ d.pending :: rest) .data pre := by
  obtain ⟨noFlag, hpending⟩ := pending_of_waits hwaits
  rw [hpending]
  refine Machine.run_collect (fun buffer =>
    decoding address (done ++ placeholder d.type noFlag :: rest) .data buffer) fun buffer b hb => ?_
  have hnone : received e' d.type (buffer ++ [b]) b = none := by
    refine received_of_prefix e e' hd (hb.trans hpre) fun heq => ?_
    have hlen := length_lt_of_prefix hpre hne
    have hle := hb.length_le
    rw [heq] at hle
    omega
  have hdecode := decodeData_decoding e' h address d.type noFlag rest (buffer ++ [b]) b
  rw [hnone] at hdecode
  exact hdecode

lemma content_ne_nil {d : OSCData} (hd : d.error = .ok) (hwaits : d.waits = true) :
    d.content e ≠ [] := by
  cases d with
  | placeholder t noFlag => cases hd
  | boolean b => cases b <;> cases hwaits
  | string s => simp [content, CString.terminated]
  | _ => exact fun h => absurd (congrArg List.length h) (by simp [content, OSCData.send])

/-- The bytes of a datum set it. -/
lemma fill_content {done : List OSCData} (h : ∀ d ∈ done, d.error = .ok) (address : CString)
    {d : OSCData} (hd : d.error = .ok) (hwaits : d.waits = true) (hblob : d ≠ emptyBlob)
    (rest : List OSCData) :
    (decoding address (done ++ d.pending :: rest) .data []).fill e' (d.content e)
      = decoding address (done ++ d :: rest) (if d.isPadded then .dataPadding else .data) [] := by
  obtain ⟨pre, b, hcontent⟩ : ∃ pre b, d.content e = pre ++ [b] :=
    ⟨_, _, (List.dropLast_append_getLast (content_ne_nil e hd hwaits)).symm⟩
  have hbefore := fill_of_prefix e e' h address hd hwaits rest
    (hcontent ▸ List.prefix_append pre [b]) (by rw [hcontent]; simp)
  have hreceived := received_content e e' hd hblob hcontent.symm
  obtain ⟨noFlag, hpending⟩ := pending_of_waits hwaits
  have hdecode := decodeData_decoding e' h address d.type noFlag rest (pre ++ [b]) b
  rw [hreceived, ← hpending] at hdecode
  simp only [← isPadded_iff hd] at hdecode
  rw [hcontent, fill_append, hbefore]
  exact hdecode

/-! ### Padding -/

lemma lastValue_concat (data : List OSCData) (d : OSCData) :
    lastValue (data ++ [d]) = if d.error = .ok then some d else lastValue data := by
  by_cases hd : d.error = .ok
  · simp [lastValue, hd]
  · simp [lastValue, hd]

/-- The last value, where nothing with a value follows it. -/
lemma lastValue_append {done rest : List OSCData} {d : OSCData} (hd : d.error = .ok)
    (hrest : ∀ x ∈ rest, x.waits = true) :
    lastValue (done ++ d :: rest.map pending) = some d := by
  induction rest using List.reverseRecOn with
  | nil => rw [List.map_nil, lastValue_concat, if_pos hd]
  | append_singleton rest x ih =>
      have hx : x.pending.error ≠ .ok := by simp [error_pending, hrest x (by simp)]
      rw [List.map_append, List.map_singleton, ← List.cons_append, ← List.append_assoc,
        lastValue_concat, if_neg hx]
      exact ih fun y hy => hrest y (List.mem_append_left _ hy)

/-- A byte of padding. -/
lemma decode_dataPadding (address : CString) {data : List OSCData} {d : OSCData}
    (hlast : lastValue data = some d) (buffer : List UInt8) (b : UInt8) :
    decode e (decoding address data .dataPadding buffer) b
      = if padSize d.bytes = 0 then decoding address data .data (buffer ++ [b])
        else if buffer.length + 1 = padSize d.bytes then decoding address data .data []
        else decoding address data .dataPadding (buffer ++ [b]) := by
  simp [decode, decodeByte, addToIncomingBuffer, clearIncomingBuffer, skipPadding, decoding, hlast]

/-- A part of the padding is kept in the buffer. -/
lemma fill_of_lt_padding (done : List OSCData) {rest : List OSCData} (address : CString)
    {d : OSCData} (hd : d.error = .ok) {n : ℕ} (hn : n < padSize d.bytes)
    (hrest : ∀ x ∈ rest, x.waits = true) :
    (decoding address (done ++ d :: rest.map pending) .dataPadding []).fill e
        (List.replicate n 0)
      = decoding address (done ++ d :: rest.map pending) .dataPadding (List.replicate n 0) := by
  refine Machine.run_collect (fun pre =>
    decoding address (done ++ d :: rest.map pending) .dataPadding pre) fun pre b hpre => ?_
  have hlen := hpre.length_le
  simp only [List.length_append, List.length_singleton, List.length_replicate] at hlen
  rw [decode_dataPadding e address (lastValue_append hd hrest), if_neg (by omega),
    if_neg (by omega)]

/-- The padding of a datum is skipped, where no flag is taken for it. -/
lemma fill_padding {done rest : List OSCData} (address : CString) {d : OSCData}
    (hd : d.error = .ok) (hpad : padSize d.bytes ≠ 0) (hrest : ∀ x ∈ rest, x.waits = true) :
    (decoding address (done ++ d :: rest.map pending) .dataPadding []).fill e
        (List.replicate (padSize d.bytes) 0)
      = decoding address (done ++ d :: rest.map pending) .data [] := by
  obtain ⟨n, hn⟩ := Nat.exists_eq_succ_of_ne_zero hpad
  have hbefore := fill_of_lt_padding e done address hd (n := n) (by omega) hrest
  rw [hn, List.replicate_succ', fill_append, hbefore]
  refine (decode_dataPadding e address (lastValue_append hd hrest) _ 0).trans ?_
  rw [if_neg hpad, List.length_replicate, if_pos (by omega)]

/-- The last value needs no padding. -/
def Aligned (data : List OSCData) : Prop := ∃ d, lastValue data = some d ∧ padSize d.bytes = 0

/-- Behind a value without padding the flags need none. -/
lemma aligned_append {done : List OSCData} {d : OSCData} (hd : d.error = .ok)
    (hpad : padSize d.bytes = 0) (rest : List OSCData) :
    Aligned (done ++ d :: rest.map pending) := by
  induction rest using List.reverseRecOn with
  | nil => exact ⟨d, by rw [List.map_nil, lastValue_concat, if_pos hd], hpad⟩
  | append_singleton rest x ih =>
      rw [List.map_append, List.map_singleton, ← List.cons_append, ← List.append_assoc]
      by_cases hx : x.waits = true
      · obtain ⟨last, hlast, hzero⟩ := ih
        refine ⟨last, ?_, hzero⟩
        rw [lastValue_concat, if_neg (by simp [error_pending, hx]), hlast]
      · have hflag : isFlag x.type = true := by simpa [waits] using hx
        refine ⟨x.pending, by rw [lastValue_concat, if_pos (by simp [error_pending, hx])], ?_⟩
        rw [pending, ofType, dif_neg (by simp [hflag])]
        simp [OSCData.bytes, padSize]

lemma content_ne_singleton {d : OSCData} (hd : d.error = .ok) (hne : d ≠ emptyString)
    (b : UInt8) : d.content e ≠ [b] := by
  intro h
  have hlen := congrArg List.length h
  cases d with
  | placeholder t noFlag => cases hd
  | boolean c => cases h
  | string s =>
      simp only [content, CString.length_terminated, List.length_singleton] at hlen
      obtain ⟨chars, noNull⟩ := s
      obtain rfl : chars = [] := List.length_eq_zero_iff.mp (by simpa using hlen)
      exact hne rfl
  | blob c =>
      simp only [content, List.length_append, length_memory, List.length_singleton] at hlen
      omega
  | _ => simp [content, OSCData.send] at hlen

/-- Where no padding is due, the next byte is one of the next datum. -/
lemma fill_of_aligned {done : List OSCData} (h : ∀ d ∈ done, d.error = .ok) (address : CString)
    {d : OSCData} (hd : d.error = .ok) (hwaits : d.waits = true) (hne : d ≠ emptyString)
    {rest : List OSCData} (haligned : Aligned (done ++ d.pending :: rest)) {pre : List UInt8}
    (hpre : pre <+: d.content e) (hnil : pre ≠ []) :
    (decoding address (done ++ d.pending :: rest) .dataPadding []).fill e' pre
      = (decoding address (done ++ d.pending :: rest) .data []).fill e' pre := by
  obtain ⟨last, hlast, hzero⟩ := haligned
  obtain ⟨noFlag, hpending⟩ := pending_of_waits hwaits
  cases pre with
  | nil => exact absurd rfl hnil
  | cons b pre =>
      have hfirst : [] ++ [b] <+: d.content e :=
        (List.prefix_append [b] pre).trans hpre
      have hreceived := received_of_prefix e e' hd hfirst
        (content_ne_singleton e hd hne b).symm
      have hdata := decodeData_decoding e' h address d.type noFlag rest [b] b
      rw [List.nil_append] at hreceived
      rw [hreceived, ← hpending] at hdata
      have hpadding := decode_dataPadding e' address hlast [] b
      rw [if_pos hzero] at hpadding
      rw [fill, Machine.run_cons, hpadding, fill, Machine.run_cons]
      exact congrArg (fun m => Machine.run (decode e') m pre) hdata.symm

/-! ### The data of a message -/

/-- A message all of whose data have come. -/
def Complete (address : CString) (data : List OSCData) (m : OSCMessage) : Prop :=
  ∃ decodeState buffer, m = decoding address data decodeState buffer
    ∧ (decodeState = .data ∨ decodeState = .dataPadding)

/-- **Bytes behind a complete message change nothing in it.** -/
lemma fill_of_complete {data : List OSCData} (h : ∀ d ∈ data, d.error = .ok) {address : CString}
    {m : OSCMessage} (hm : Complete address data m) (bs : List UInt8) :
    Complete address data (m.fill e bs) := by
  refine Machine.run_invariant (fun m hm b _ => ?_) hm
  obtain ⟨decodeState, buffer, rfl, rfl | rfl⟩ := hm
  · have hnone : data.findIdx? (fun d => d.error = .invalidOsc) = none := by
      rw [List.findIdx?_eq_none_iff]
      intro d hd
      simp [h d hd]
    refine ⟨.data, buffer ++ [b], ?_, Or.inl rfl⟩
    simp [decode, decodeByte, decodeData, addToIncomingBuffer, decoding, hnone]
  · cases hlast : lastValue data with
    | none =>
        refine ⟨.dataPadding, buffer ++ [b], ?_, Or.inr rfl⟩
        simp [decode, decodeByte, skipPadding, addToIncomingBuffer, decoding, hlast]
    | some d =>
        rw [decode_dataPadding e address hlast]
        split_ifs
        · exact ⟨_, _, rfl, Or.inl rfl⟩
        · exact ⟨_, _, rfl, Or.inl rfl⟩
        · exact ⟨_, _, rfl, Or.inr rfl⟩

lemma map_pending_of_flags {data : List OSCData} (h : ∀ d ∈ data, d.error = .ok)
    (hflags : ∀ d ∈ data, d.waits = false) : data.map pending = data := by
  refine (List.map_congr_left fun d hd => ?_).trans (List.map_id data)
  obtain ⟨b, rfl⟩ := (isFlag_type_of_ok (h d hd)).mp (by simpa [waits] using hflags d hd)
  exact pending_boolean b

/-- The decoder between two data: `done` has come, and the bytes of `rest` are next. -/
def Between (address : CString) (done rest : List OSCData) (m : OSCMessage) : Prop :=
  m = decoding address (done ++ rest.map pending) .data []
    ∨ m = decoding address (done ++ rest.map pending) .dataPadding []
      ∧ Aligned (done ++ rest.map pending) ∧ rest.find? waits ≠ some emptyString

/-- Between two data the bytes of the next are read as such. -/
lemma Between.fill_eq {address : CString} {done : List OSCData} {d : OSCData}
    {rest : List OSCData} {m : OSCMessage} (hm : Between address done (d :: rest) m)
    (h : ∀ d ∈ done, d.error = .ok) (hd : d.error = .ok) (hwaits : d.waits = true)
    {pre : List UInt8} (hpre : pre <+: d.content e) (hnil : pre ≠ []) :
    m.fill e' pre
      = (decoding address (done ++ d.pending :: rest.map pending) .data []).fill e' pre := by
  rcases hm with rfl | ⟨rfl, haligned, hne⟩
  · rfl
  · rw [List.find?_cons_of_pos hwaits] at hne
    exact fill_of_aligned e e' h address hd hwaits (fun heq => hne (congrArg some heq))
      haligned hpre hnil

/-- A flag has no bytes. -/
lemma Between.flag {address : CString} {done rest : List OSCData} {b : Bool} {m : OSCMessage}
    (hm : Between address done (boolean b :: rest) m) :
    Between address (done ++ [boolean b]) rest m := by
  have hwaits : ¬ (boolean b).waits = true := by cases b <;> decide
  have heq : done ++ (boolean b :: rest).map pending
      = done ++ [boolean b] ++ rest.map pending := by simp
  rw [Between, heq, List.find?_cons_of_neg hwaits] at hm
  exact hm

/-- The bytes and the padding of one datum. -/
lemma Between.fill_datum {address : CString} {done : List OSCData} {d : OSCData}
    {rest : List OSCData} {m : OSCMessage} (hm : Between address done (d :: rest) m)
    (h : ∀ d ∈ done, d.error = .ok) (hd : d.error = .ok) (hrest : ∀ x ∈ rest, x.error = .ok)
    (hwaits : d.waits = true) (hfollows : d.Follows rest) :
    Between address (done ++ [d]) rest (m.fill e' (d.send e))
      ∨ (∀ x ∈ rest, x.waits = false)
        ∧ Complete address (done ++ d :: rest) (m.fill e' (d.send e)) := by
  have hcontent := hm.fill_eq e e' h hd hwaits (List.prefix_refl _)
    (content_ne_nil e hd hwaits)
  rw [fill_content e e' h address hd hwaits hfollows.1] at hcontent
  rw [send_eq_content, fill_append, hcontent]
  have heq : done ++ d :: rest.map pending = done ++ [d] ++ rest.map pending := by simp
  by_cases hpadded : d.isPadded = true
  · simp only [hpadded, if_true]
    rcases hfollows.2 hpadded with hflags | ⟨hpad, hall⟩ | ⟨hzero, hne⟩
    · -- only flags are left: the message is complete
      rw [map_pending_of_flags hrest hflags]
      refine Or.inr ⟨hflags, fill_of_complete e' ?_ ⟨_, _, rfl, Or.inr rfl⟩ _⟩
      rw [List.forall_mem_append, List.forall_mem_cons]
      exact ⟨h, hd, hrest⟩
    · rw [fill_padding e' address hd hpad hall, heq]
      exact Or.inl (Or.inl rfl)
    · rw [hzero, heq]
      refine Or.inl (Or.inr ⟨rfl, ?_, hne⟩)
      rw [← heq]
      exact aligned_append hd hzero rest
  · simp only [hpadded, if_false, Bool.false_eq_true, List.replicate_zero]
    rw [heq]
    exact Or.inl (Or.inl rfl)

/-- **The data of a message are read one after the other.** -/
lemma Between.fill_payloads {address : CString} {done rest : List OSCData} {m : OSCMessage}
    (hm : Between address done rest m) (h : ∀ d ∈ done, d.error = .ok)
    (hrest : ∀ d ∈ rest, d.error = .ok) (hclean : Clean rest) :
    Complete address (done ++ rest) (m.fill e' (rest.flatMap (OSCData.send e))) := by
  induction rest generalizing done m with
  | nil =>
      rcases hm with rfl | ⟨rfl, -⟩
      · exact ⟨_, _, rfl, Or.inl rfl⟩
      · exact ⟨_, _, rfl, Or.inr rfl⟩
  | cons d rest ih =>
      rw [List.forall_mem_cons] at hrest
      have hdone : ∀ x ∈ done ++ [d], x.error = .ok := by
        rw [List.forall_mem_append, List.forall_mem_singleton]
        exact ⟨h, hrest.1⟩
      rw [List.flatMap_cons, fill_append]
      by_cases hwaits : d.waits = true
      · rcases hm.fill_datum e e' h hrest.1 hrest.2 hwaits hclean.1 with hnext | ⟨hflags, hend⟩
        · have hfill := ih hnext hdone hrest.2 hclean.2
          rwa [List.append_assoc, List.singleton_append] at hfill
        · refine fill_of_complete e' ?_ hend _
          rw [List.forall_mem_append, List.forall_mem_cons]
          exact ⟨h, hrest⟩
      · obtain ⟨b, rfl⟩ := (isFlag_type_of_ok hrest.1).mp (by simpa [waits] using hwaits)
        have hfill := ih hm.flag hdone hrest.2 hclean.2
        rwa [List.append_assoc, List.singleton_append] at hfill

/-! ### The round trip -/

lemma type_ne_zero {d : OSCData} (h : d.error = .ok) : d.type ≠ 0 := by
  cases d with
  | placeholder t noFlag => cases h
  | boolean b => cases b <;> decide
  | _ => simp [OSCData.type, ascii]

lemma zero_notMem_types {data : List OSCData} (h : ∀ d ∈ data, d.error = .ok) :
    0 ∉ data.map OSCData.type := by
  intro hzero
  obtain ⟨d, hd, htype⟩ := List.mem_map.mp hzero
  exact type_ne_zero (h d hd) htype

lemma written_eq_header (address : CString) (data : List OSCData) :
    written e address data
      = header address (data.map OSCData.type) ++ data.flatMap (OSCData.send e) := by
  rw [written, header, List.length_map]

/-- After the types the decoder waits for the data. -/
lemma between_header {m : OSCMessage} (hm : Fresh m) {address : CString}
    (hslash : ascii '/' ∈ address.chars) {data : List OSCData}
    (h : ∀ d ∈ data, d.error = .ok) :
    Between address [] data (m.fill e (header address (data.map OSCData.type))) := by
  rw [fill_header e hm hslash (zero_notMem_types h), List.map_map]
  exact Or.inl rfl

lemma fill_written {m : OSCMessage} (hm : Fresh m) {address : CString}
    (hslash : ascii '/' ∈ address.chars) {data : List OSCData}
    (h : ∀ d ∈ data, d.error = .ok) (hclean : Clean data) :
    Complete address data (m.fill e' (written e address data)) := by
  rw [written_eq_header, fill_append]
  exact (between_header e' hm hslash h).fill_payloads e e' (by simp) h hclean

/-- **A message is read as it was sent**, by a new or emptied message on any machine, if its
address has a slash and its data are `Clean`.  What is read has no error, and is sent with the
same bytes again. -/
theorem fill_send {m m₀ : OSCMessage} {address : CString} (haddress : m.address = some address)
    (hslash : ascii '/' ∈ address.chars) (h : m.hasError = false) (hclean : Clean m.data)
    (hm₀ : Fresh m₀) {bs : List UInt8} (hsend : m.send e = some bs) :
    (m₀.fill e' bs).address = m.address ∧ (m₀.fill e' bs).data = m.data
      ∧ (m₀.fill e' bs).hasError = false ∧ (m₀.fill e' bs).send e' = some bs := by
  have hdata := ((hasError_eq_false_iff m).mp h).2
  simp only [send, h, haddress, Option.map_some, Bool.false_eq_true, if_false,
    Option.some.injEq] at hsend
  obtain ⟨decodeState, buffer, hfill, -⟩ := fill_written e e' hm₀ hslash hdata hclean
  have hok : (decoding address m.data decodeState buffer).hasError = false :=
    (hasError_eq_false_iff _).mpr ⟨rfl, hdata⟩
  rw [← hsend, hfill, haddress]
  refine ⟨rfl, rfl, hok, ?_⟩
  rw [send, hok, written_eq_message e address hdata]
  exact congrArg some (written_eq_message e' address hdata)

/-- Texts with and without padding, a blob, and flags. -/
def mixed : OSCMessage :=
  { five with
    data := [.boolean true, .string ⟨[108, 101, 100], by decide⟩, .boolean false,
      .blob ⟨[1, 2], by decide⟩, .string ⟨[97], by decide⟩] }

/-- What it writes. -/
def mixedBytes : List UInt8 :=
  [47, 0, 0, 0, 44, 84, 115, 70, 98, 115, 0, 0, 108, 101, 100, 0, 0, 0, 0, 2, 1, 2, 0, 0, 97, 0, 0,
    0]

theorem fill_send_mixed :
    (new.fill .big mixedBytes).address = mixed.address
      ∧ (new.fill .big mixedBytes).data = mixed.data
      ∧ (new.fill .big mixedBytes).hasError = false
      ∧ (new.fill .big mixedBytes).send .big = some mixedBytes :=
  fill_send .little .big rfl (by decide) (by decide) (by decide) fresh_new (by decide +kernel)

end OSCMessage

end EmbodiedSynth.Osc
