/-
Bundles over a serial line: `SerialSendBundle.ino` and `SerialReceive.ino`.

* `sentBytes`: what a sender writes for its bundles.
* `Filled`, `offered`: what a pass of the receiver makes of a packet, and the messages that the
  passes without an error offer to `dispatch`.
* `bundles_offered`: however the bytes arrive, these are a first part of the messages sent, and
  in the end all of them.
* `passBundles`: what a pass of `SerialSendBundle.ino` sends; `serialSendBundle_offered`: the
  receiver offers what any run of it sends.
-/
import EmbodiedSynth.Osc.BundleDecoding
import EmbodiedSynth.Osc.SerialReceive

namespace EmbodiedSynth.Osc.SerialLink

open Aligned ByteOrder Slip OSCBundle Receiver

variable (e e' : Endian)

/-- The bytes of a bundle. -/
def packet (b : OSCBundle) : List UInt8 := (b.send e).getD []

/-- `beginPacket`, `send` and `endPacket`, for each bundle. -/
def sentBytes (bundles : List OSCBundle) : List UInt8 :=
  bundles.flatMap fun b => SLIPSerial.sentPacket (packet e b)

/-- A pass fills a new bundle with the bytes of a packet. -/
def Filled (bs : List UInt8) (bundleIN : OSCBundle) : Prop :=
  ∃ size, bundleIN = (OSCBundle.new zerotime size).fill e bs

/-- The messages that are offered to `dispatch`. -/
def offered (bundlesIN : List OSCBundle) : List OSCMessage :=
  (bundlesIN.filter fun b => !b.hasError).flatMap OSCBundle.messages

lemma sentBytes_eq (bundles : List OSCBundle) :
    sentBytes e bundles = frames (bundles.map (packet e)) := by
  simp only [sentBytes, SLIPSerial.sentPacket_eq, frames, List.flatMap_map]

lemma packet_ne_nil {b : OSCBundle} (h : Readable b) : packet e b ≠ [] := by
  rw [packet, h.send_eq e]
  exact List.cons_ne_nil (ascii '#') _

/-- Nothing is lost where empty packets are left out. -/
lemma kept_packets {bundles : List OSCBundle} (h : ∀ b ∈ bundles, Readable b) :
    kept (bundles.map (packet e)) = bundles.map (packet e) := by
  refine List.filter_eq_self.mpr fun p hp => ?_
  obtain ⟨b, hb, rfl⟩ := List.mem_map.mp hp
  exact decide_eq_true (packet_ne_nil e (h b hb))

/-- The messages of a packet, read on any machine. -/
lemma offered_packet {b bundleIN : OSCBundle} (h : Readable b)
    (hfilled : Filled e' (packet e b) bundleIN) (bundlesIN : List OSCBundle) :
    (offered (bundleIN :: bundlesIN)).map content
      = b.messages.map content ++ (offered bundlesIN).map content := by
  obtain ⟨size, rfl⟩ := hfilled
  have hsend : b.send e = some (packet e b) := by
    rw [packet, h.send_eq e]
    rfl
  obtain ⟨hcontent, -, herror, hok⟩ := h.fill e e' zerotime size hsend
  have hasError_read := (hasError_eq_false_iff _).mpr ⟨herror, fun m hm => (hok m hm).2⟩
  rw [offered, List.filter_cons_of_pos (by rw [hasError_read]; rfl), List.flatMap_cons,
    List.map_append, hcontent]
  rfl

/-- An empty packet offers nothing. -/
lemma offered_nil {bundleIN : OSCBundle} (hfilled : Filled e' [] bundleIN)
    (bundlesIN : List OSCBundle) : offered (bundleIN :: bundlesIN) = offered bundlesIN := by
  obtain ⟨size, rfl⟩ := hfilled
  rfl

/-- The messages of the packets that are not empty are offered, in order. -/
lemma map_content_offered {packets : List (List UInt8)} {bundles bundlesIN : List OSCBundle}
    (h : ∀ b ∈ bundles, Readable b) (hkept : kept packets = bundles.map (packet e))
    (hfilled : List.Forall₂ (Filled e') packets bundlesIN) :
    (offered bundlesIN).map content = (bundles.flatMap OSCBundle.messages).map content := by
  induction hfilled generalizing bundles with
  | nil =>
      rw [List.map_eq_nil_iff.mp hkept.symm]
      rfl
  | @cons p bundleIN packets bundlesIN hp _ ih =>
      rcases eq_or_ne p [] with rfl | hne
      · rw [offered_nil e' hp]
        exact ih h hkept
      · have hcons : kept (p :: packets) = p :: kept packets :=
          List.filter_cons_of_pos (decide_eq_true hne)
        rw [hcons] at hkept
        cases bundles with
        | nil => cases hkept
        | cons b bundles =>
            rw [List.forall_mem_cons] at h
            obtain ⟨rfl, hrest⟩ := List.cons.inj hkept
            rw [offered_packet e e' h.1 hp, ih h.2 hrest, List.flatMap_cons, List.map_append]

/-- The messages that are offered are a first part of those that were sent. -/
lemma offered_isPrefix {bundles : List OSCBundle} (h : ∀ b ∈ bundles, Readable b)
    {es : List Event} (hes : arrived es <+: sentBytes e bundles) {bundlesIN : List OSCBundle}
    (hfilled : List.Forall₂ (Filled e') (Receiver.run es).packets bundlesIN) :
    (offered bundlesIN).map content <+: (bundles.flatMap OSCBundle.messages).map content := by
  rw [sentBytes_eq] at hes
  have hkept := received_isPrefix hes
  rw [kept_packets e h] at hkept
  obtain ⟨k, hk⟩ : ∃ k, kept (Receiver.run es).packets = (bundles.take k).map (packet e) :=
    ⟨_, (List.prefix_iff_eq_take.mp hkept).trans (List.map_take ..).symm⟩
  have hcontent := map_content_offered e e' (fun b hb => h b (List.mem_of_mem_take hb)) hk hfilled
  rw [hcontent, ← List.take_append_drop k bundles, List.flatMap_append, List.map_append,
    List.take_append_drop]
  exact List.prefix_append _ _

/-- **A bundle is offered as it was sent.**  However the bytes of some bundles arrive, the
messages that are offered are a first part of those that were sent: none is lost on the way,
changed, or offered twice.  Once all has arrived, and the loop has taken all but fewer than 256
bytes, it goes on to offer them all. -/
theorem bundles_offered {bundles : List OSCBundle} (h : ∀ b ∈ bundles, Readable b)
    {es : List Event} (hes : arrived es <+: sentBytes e bundles) :
    (∀ bundlesIN, List.Forall₂ (Filled e') (Receiver.run es).packets bundlesIN →
      (offered bundlesIN).map content <+: (bundles.flatMap OSCBundle.messages).map content)
    ∧ (arrived es = sentBytes e bundles → (Receiver.run es).port.serial.length < 256 →
      ∃ n, ∀ m ≥ n, ∀ bundlesIN, List.Forall₂ (Filled e')
          (Receiver.run (es ++ List.replicate m .loop)).packets bundlesIN →
        (offered bundlesIN).map content = (bundles.flatMap OSCBundle.messages).map content) := by
  refine ⟨fun bundlesIN => offered_isPrefix e e' h hes, fun hall hlen => ?_⟩
  rw [sentBytes_eq] at hall
  obtain ⟨n, hn⟩ := received_all hall hlen
  refine ⟨n, fun m hm bundlesIN hfilled => ?_⟩
  have hkept := hn m hm
  rw [kept_packets e h] at hkept
  exact map_content_offered e e' h hkept hfilled

/-- A bundle of two messages, read on the other kind of machine. -/
theorem bundles_offered_fives :
    ∃ n, ∀ m ≥ n, ∀ bundlesIN, List.Forall₂ (Filled .big)
        (Receiver.run ([.arrive (sentBytes .little [fives])] ++ List.replicate m .loop)).packets
        bundlesIN →
      (offered bundlesIN).map content = [content .five, content .five] := by
  have hfives : ∀ b ∈ [fives], Readable b :=
    List.forall_mem_singleton.mpr ⟨by decide, by simp [fives, sendable_five]⟩
  have harrived : arrived [.arrive (sentBytes .little [fives])] = sentBytes .little [fives] :=
    List.append_nil _
  exact (bundles_offered .little .big hfives (harrived ▸ List.prefix_rfl)).2 harrived
    (by decide +kernel)

/-! ### A sender -/

/-- What a pass of `SerialSendBundle.ino` reads. -/
structure Inputs where
  analog0 : BitVec 32
  analog1 : BitVec 32
  digital5 : Bool
  step0 : BitVec 32
  step1 : BitVec 32

/-- `add(const char *)`, and what is called on the message that it gives. -/
def addThen (b : OSCBundle) (address : CString) (f : OSCMessage → OSCMessage) : OSCBundle :=
  { b with messages := b.messages ++ [f (.ofAddress address)] }

def analog0 : CString := ⟨"/analog/0".toList.map ascii, by decide⟩

def analog1 : CString := ⟨"/analog/1".toList.map ascii, by decide⟩

def digital5 : CString := ⟨"/digital/5".toList.map ascii, by decide⟩

def mouseStep : CString := ⟨"/mouse/step".toList.map ascii, by decide⟩

def units : CString := ⟨"/units".toList.map ascii, by decide⟩

def level (high : Bool) : CString :=
  if high then ⟨"HIGH".toList.map ascii, by decide⟩ else ⟨"LOW".toList.map ascii, by decide⟩

def pixels : CString := ⟨"pixels".toList.map ascii, by decide⟩

/-- The first bundle of a pass. -/
def inputBundle (size : BitVec 32) (i : Inputs) : OSCBundle :=
  addThen (addThen (addThen (.new zerotime size) analog0 (·.add (.int i.analog0)))
    analog1 (·.add (.int i.analog1))) digital5 (·.add (.string (level i.digital5)))

/-- The second, which is the first, emptied. -/
def mouseBundle (size : BitVec 32) (i : Inputs) : OSCBundle :=
  addThen (addThen (inputBundle size i).empty mouseStep
    fun m => (m.add (.int i.step0)).add (.int i.step1)) units (·.add (.string pixels))

/-- The bundles that a pass sends. -/
def passBundles (size : BitVec 32) (i : Inputs) : List OSCBundle :=
  [inputBundle size i, mouseBundle size i]

lemma sendable_ofAddress {address : CString} (hslash : ascii '/' ∈ address.chars)
    {data : List OSCData} (hok : ∀ d ∈ data, d.error = .ok) (hclean : OSCData.Clean data)
    (hlt : OSCMessage.size address data < 2147483648) :
    Sendable { OSCMessage.ofAddress address with data := data } := by
  refine ⟨⟨address, rfl, hslash⟩, hclean, ?_⟩
  rwa [OSCMessage.size_eq_length address hok] at hlt

/-- A number by itself. -/
lemma clean_int (n : BitVec 32) : OSCData.Clean [.int n] :=
  ⟨⟨nofun, nofun⟩, trivial⟩

/-- A text by itself: nothing stands behind it. -/
lemma clean_string (s : CString) : OSCData.Clean [.string s] :=
  ⟨⟨nofun, fun _ => Or.inl nofun⟩, trivial⟩

lemma readable_inputBundle (size : BitVec 32) (i : Inputs) : Readable (inputBundle size i) := by
  -- the size is that of any other number
  have hsize (address : CString) (n : BitVec 32) :
      OSCMessage.size address [.int n] = OSCMessage.size address [.int 0] := rfl
  have h0 : Sendable { OSCMessage.ofAddress analog0 with data := [.int i.analog0] } :=
    sendable_ofAddress (by decide) (by simp [OSCData.error]) (clean_int _)
      (by rw [hsize]; decide)
  have h1 : Sendable { OSCMessage.ofAddress analog1 with data := [.int i.analog1] } :=
    sendable_ofAddress (by decide) (by simp [OSCData.error]) (clean_int _)
      (by rw [hsize]; decide)
  have h5 : Sendable { OSCMessage.ofAddress digital5 with data := [.string (level i.digital5)] } :=
    sendable_ofAddress (by decide) (by simp [OSCData.error]) (clean_string _)
      (by cases i.digital5 <;> decide)
  exact ⟨rfl, List.forall_mem_cons.mpr
    ⟨h0, List.forall_mem_cons.mpr ⟨h1, List.forall_mem_singleton.mpr h5⟩⟩⟩

lemma readable_mouseBundle (size : BitVec 32) (i : Inputs) : Readable (mouseBundle size i) := by
  have hclean : OSCData.Clean [.int i.step0, .int i.step1] := ⟨⟨nofun, nofun⟩, clean_int _⟩
  have hsize : OSCMessage.size mouseStep [.int i.step0, .int i.step1]
      = OSCMessage.size mouseStep [.int 0, .int 0] := rfl
  have hstep : Sendable { OSCMessage.ofAddress mouseStep with
      data := [.int i.step0, .int i.step1] } :=
    sendable_ofAddress (by decide) (by simp [OSCData.error]) hclean
      (by rw [hsize]; decide)
  have hunits : Sendable { OSCMessage.ofAddress units with data := [.string pixels] } :=
    sendable_ofAddress (by decide) (by simp [OSCData.error]) (clean_string _) (by decide)
  exact ⟨rfl, List.forall_mem_cons.mpr ⟨hstep, List.forall_mem_singleton.mpr hunits⟩⟩

/-- **What `SerialSendBundle.ino` sends, `SerialReceive.ino` offers to `dispatch`**, in every run
of the two, as far as it has arrived. -/
theorem serialSendBundle_offered (size : BitVec 32) (inputs : List Inputs) {es : List Event}
    (hes : arrived es <+: sentBytes e (inputs.flatMap (passBundles size)))
    {bundlesIN : List OSCBundle}
    (hfilled : List.Forall₂ (Filled e') (Receiver.run es).packets bundlesIN) :
    (offered bundlesIN).map content <+: (inputs.flatMap fun i =>
      (inputBundle size i).messages ++ (mouseBundle size i).messages).map content := by
  have hreadable : ∀ b ∈ inputs.flatMap (passBundles size), Readable b := by
    intro b hb
    obtain ⟨i, -, hi⟩ := List.mem_flatMap.mp hb
    rcases List.mem_cons.mp hi with rfl | hi
    · exact readable_inputBundle size i
    · rw [List.mem_singleton.mp hi]
      exact readable_mouseBundle size i
  have hoffered := offered_isPrefix e e' hreadable hes hfilled
  rw [List.flatMap_assoc] at hoffered
  simpa [passBundles] using hoffered

end EmbodiedSynth.Osc.SerialLink
