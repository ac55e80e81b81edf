/-
What a bundle of the OSC library is on the wire.

* `wire`: the bytes of a message; `send_eq_bundle`: a bundle without an error writes the bytes of
  the format, and `eq_of_send_eq_bundle`: bundles that write the same are the same.
-/
import EmbodiedSynth.Osc.Bundle
import EmbodiedSynth.Osc.Encoding

namespace EmbodiedSynth.Osc

open Aligned ByteOrder OscFormat

/-- The bytes of a message that has an address. -/
def OSCMessage.wire (m : OSCMessage) : List UInt8 :=
  (m.address.map fun address => message address (arguments m.data)).getD []

namespace OSCBundle

/-! ### Sending -/

lemma hasError_eq_false_iff (b : OSCBundle) :
    b.hasError = false ↔ b.error = .ok ∧ ∀ m ∈ b.messages, m.hasError = false := by
  simp [hasError]

lemma bundleHeader_eq : bundleHeader = text bundleName := by decide

/-- The size of a message, and its bytes. -/
lemma sendMessage_eq (e : Endian) {m : OSCMessage} (haddress : m.address ≠ none)
    (h : m.hasError = false) : sendMessage e m = some (element m.wire) := by
  obtain ⟨address, haddress⟩ := Option.ne_none_iff_exists'.mp haddress
  have hdata := ((OSCMessage.hasError_eq_false_iff m).mp h).2
  have hbytes : m.bytes = some m.wire.length := by
    rw [OSCMessage.bytes, haddress, OSCMessage.wire, haddress, Option.map_some, Option.map_some,
      Option.getD_some, OSCMessage.size_eq_length address hdata]
  have hsend : m.send e = some m.wire := by
    rw [OSCMessage.send, h, haddress, OSCMessage.wire, haddress, Option.map_some,
      Option.map_some, Option.getD_some, OSCMessage.written_eq_message e address hdata]
    rfl
  have hsize : memory e 4 (BigEndian e (BitVec.ofNat 32 m.wire.length)).toNat
      = memory .big 4 m.wire.length := by
    rw [memory_bigEndian e four_bytes, BitVec.toNat_ofNat]
    exact memory_mod .big 4 _
  rw [sendMessage, hbytes, hsend, element, ← hsize]
  rfl

lemma send_eq (e : Endian) {b : OSCBundle} (haddress : ∀ m ∈ b.messages, m.address ≠ none)
    (h : b.hasError = false) :
    b.send e = some (bundle b.timetag.seconds b.timetag.fractionofseconds
      (b.messages.map OSCMessage.wire)) := by
  have hmessages := ((hasError_eq_false_iff b).mp h).2
  have hparts : ∀ ms : List OSCMessage, (∀ m ∈ ms, m.address ≠ none ∧ m.hasError = false) →
      ms.mapM (sendMessage e) = some ((ms.map OSCMessage.wire).map element) := by
    intro ms hms
    induction ms with
    | nil => rfl
    | cons m ms ih =>
        rw [List.forall_mem_cons] at hms
        rw [List.mapM_cons, sendMessage_eq e hms.1.1 hms.1.2, ih hms.2]
        rfl
  rw [send, h, hparts _ fun m hm => ⟨haddress m hm, hmessages m hm⟩, bundle, ← bundleHeader_eq,
    List.flatMap_def, Argument.payload, memory_bigEndian e four_bytes,
    memory_bigEndian e four_bytes]
  simp

lemma four_dvd_length_wire (m : OSCMessage) : 4 ∣ m.wire.length := by
  rw [OSCMessage.wire]
  cases m.address with
  | none => exact dvd_zero 4
  | some address => exact four_dvd_length_message _ _

/-- **A bundle without an error writes the bytes of the format**, the same on every machine, in
words of four. -/
theorem send_eq_bundle (e : Endian) {b : OSCBundle}
    (haddress : ∀ m ∈ b.messages, m.address ≠ none) (h : b.hasError = false) :
    b.send e = some (bundle b.timetag.seconds b.timetag.fractionofseconds
        (b.messages.map OSCMessage.wire))
      ∧ 4 ∣ (bundle b.timetag.seconds b.timetag.fractionofseconds
        (b.messages.map OSCMessage.wire)).length := by
  refine ⟨send_eq e haddress h, ?_⟩
  have hparts : 4 ∣ ((b.messages.map OSCMessage.wire).flatMap element).length := by
    rw [List.length_flatMap]
    refine List.dvd_sum fun n hn => ?_
    obtain ⟨part, hpart, rfl⟩ := List.mem_map.mp hn
    obtain ⟨m, -, rfl⟩ := List.mem_map.mp hpart
    rw [element, List.length_append, length_memory]
    exact dvd_add (dvd_refl 4) (four_dvd_length_wire m)
  rw [bundle, List.length_append, List.length_append]
  exact dvd_add (dvd_add (dvd_length_align (by norm_num) _) (four_dvd_length_payload _)) hparts

/-- Two messages under the time tag of one second. -/
def fives : OSCBundle := { new ⟨1, 0⟩ 0 with messages := [.five, .five] }

theorem send_eq_bundle_fives :
    fives.send .little = some (bundle 1 0 ([.five, .five].map OSCMessage.wire))
      ∧ 4 ∣ (bundle 1 0 ([.five, .five].map OSCMessage.wire)).length :=
  send_eq_bundle .little (b := fives) (by decide) (by decide)

/-- Addresses and data tell two messages apart on the wire. -/
lemma wire_inj {m m' : OSCMessage} (haddress : m.address ≠ none) (haddress' : m'.address ≠ none)
    (h : m.hasError = false) (h' : m'.hasError = false) (hwire : m.wire = m'.wire) :
    m.address = m'.address ∧ m.data = m'.data := by
  obtain ⟨address, haddress⟩ := Option.ne_none_iff_exists'.mp haddress
  obtain ⟨address', haddress'⟩ := Option.ne_none_iff_exists'.mp haddress'
  have hdata := ((OSCMessage.hasError_eq_false_iff m).mp h).2
  have hdata' := ((OSCMessage.hasError_eq_false_iff m').mp h').2
  rw [OSCMessage.wire, OSCMessage.wire, haddress, haddress'] at hwire
  obtain ⟨rfl, harguments⟩ := message_inj hwire
  exact ⟨haddress.trans haddress'.symm, arguments_inj hdata hdata' harguments⟩

/-- What is told by `f` is told by `g`, over lists. -/
lemma map_eq_map_of_forall {α β γ : Type*} {f : α → β} {g : α → γ} {xs ys : List α}
    (h : ∀ x ∈ xs, ∀ y ∈ ys, f x = f y → g x = g y) (heq : xs.map f = ys.map f) :
    xs.map g = ys.map g := by
  induction xs generalizing ys with
  | nil => rw [List.map_eq_nil_iff.mp heq.symm]
  | cons x xs ih =>
      cases ys with
      | nil => cases heq
      | cons y ys =>
          obtain ⟨hxy, htail⟩ := List.cons.inj heq
          have hrest := ih (fun x hx y hy => h x (List.mem_cons_of_mem _ hx) y
            (List.mem_cons_of_mem _ hy)) htail
          rw [List.map_cons, List.map_cons, hrest,
            h x List.mem_cons_self y List.mem_cons_self hxy]

/-- The address and the data of a message. -/
def content (m : OSCMessage) : Option CString × List OSCData := (m.address, m.data)

/-- **Bundles that write the same are the same**: the same time tag and, in the same order, the
same addresses and data. -/
theorem eq_of_send_eq_bundle (e e' : Endian) {b b' : OSCBundle}
    (haddress : ∀ m ∈ b.messages, m.address ≠ none)
    (haddress' : ∀ m ∈ b'.messages, m.address ≠ none)
    (hsize : ∀ m ∈ b.messages, m.wire.length < 256 ^ 4)
    (hsize' : ∀ m ∈ b'.messages, m.wire.length < 256 ^ 4)
    (h : b.hasError = false) (h' : b'.hasError = false) (hsend : b.send e = b'.send e') :
    b.timetag = b'.timetag ∧ b.messages.map content = b'.messages.map content := by
  have hmessages := ((hasError_eq_false_iff b).mp h).2
  have hmessages' := ((hasError_eq_false_iff b').mp h').2
  rw [send_eq e haddress h, send_eq e' haddress' h', Option.some.injEq] at hsend
  obtain ⟨hseconds, hfraction, hwire⟩ := bundle_inj (List.forall_mem_map.mpr hsize)
    (List.forall_mem_map.mpr hsize') hsend
  refine ⟨?_, map_eq_map_of_forall (fun m hm m' hm' hw => ?_) hwire⟩
  · obtain ⟨messages, ⟨seconds, fraction⟩, _⟩ := b
    obtain rfl : seconds = _ := hseconds
    obtain rfl : fraction = _ := hfraction
    rfl
  · obtain ⟨heq, hdata⟩ := wire_inj (haddress m hm) (haddress' m' hm') (hmessages m hm)
      (hmessages' m' hm') hw
    rw [content, content, heq, hdata]

/-- A bundle that is emptied and filled with messages again, on another machine. -/
theorem eq_of_send_eq_bundle_fives :
    fives.timetag = ({ fives.empty with messages := [.five, .five] } : OSCBundle).timetag
      ∧ fives.messages.map content
        = ({ fives.empty with messages := [.five, .five] } : OSCBundle).messages.map content :=
  eq_of_send_eq_bundle .little .big (by decide) (by decide) (by decide +kernel)
    (by decide +kernel) (by decide) (by decide) (by decide +kernel)

end OSCBundle

end EmbodiedSynth.Osc
