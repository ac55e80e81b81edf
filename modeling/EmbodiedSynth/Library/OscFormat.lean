/-
The messages and the bundles of Open Sound Control, as bytes.

* `Argument`: an argument of a message; `kind` and `payload` are its type and its bytes, and
  `tag` is the letter of its type.
* `text`: a text with the nulls that end and align it.
* `message`: the address, the types after a comma, and the payloads.
* `four_dvd_length_message`: a message is made of words of four bytes.
* `message_inj`: no two messages have the same bytes.
* `element`, `bundle`: a part of a bundle with its size before it, and a time tag with parts.
* `bundle_inj`: no two bundles have the same bytes.
-/
import EmbodiedSynth.Library.Aligned
import EmbodiedSynth.Library.ByteOrder
import Mathlib.Tactic.DeriveFintype

namespace OscFormat

open Aligned ByteOrder

/-- An argument.  Numbers of floating point are their bits. -/
inductive Argument where
  | int32 (n : BitVec 32)
  | float32 (x : BitVec 32)
  | float64 (x : BitVec 64)
  | timeTag (seconds fraction : BitVec 32)
  | string (s : CString)
  | blob (content : List UInt8) (fits : content.length < 256 ^ 4)
  | bool (b : Bool)

/-- The types of arguments.  A boolean is all type. -/
inductive Kind where
  | int32
  | float32
  | float64
  | timeTag
  | string
  | blob
  | bool (b : Bool)
deriving DecidableEq, Fintype

/-- The letter of a type. -/
def Kind.letter : Kind → UInt8
  | int32 => ascii 'i'
  | float32 => ascii 'f'
  | float64 => ascii 'd'
  | timeTag => ascii 't'
  | string => ascii 's'
  | blob => ascii 'b'
  | bool true => ascii 'T'
  | bool false => ascii 'F'

lemma Kind.letter_ne_zero : ∀ k : Kind, k.letter ≠ 0 := by decide

lemma Kind.letter_injective : Function.Injective Kind.letter := by
  unfold Function.Injective
  decide

/-- A text, its null, and nulls up to a multiple of four. -/
def text (s : CString) : List UInt8 := align 4 s.terminated

namespace Argument

def kind : Argument → Kind
  | int32 _ => .int32
  | float32 _ => .float32
  | float64 _ => .float64
  | timeTag _ _ => .timeTag
  | string _ => .string
  | blob _ _ => .blob
  | bool b => .bool b

def tag (x : Argument) : UInt8 := x.kind.letter

def payload : Argument → List UInt8
  | int32 n => memory .big 4 n.toNat
  | float32 x => memory .big 4 x.toNat
  | float64 x => memory .big 8 x.toNat
  | timeTag seconds fraction => memory .big 4 seconds.toNat ++ memory .big 4 fraction.toNat
  | string s => text s
  | blob content _ => align 4 (memory .big 4 content.length ++ content)
  | bool _ => []

end Argument

open Argument

/-- The types of the arguments. -/
def tags (xs : List Argument) : CString where
  chars := ascii ',' :: xs.map tag
  noNull := by
    rw [List.mem_cons, List.mem_map, not_or]
    exact ⟨by decide, fun ⟨x, _, hx⟩ => x.kind.letter_ne_zero hx⟩

/-- The bytes of a message. -/
def message (address : CString) (xs : List Argument) : List UInt8 :=
  text address ++ text (tags xs) ++ xs.flatMap payload

/-! ### Words of four bytes -/

lemma four_dvd_length_payload (x : Argument) : 4 ∣ x.payload.length := by
  cases x with
  | string s => exact dvd_length_align (by norm_num) _
  | blob content fits => exact dvd_length_align (by norm_num) _
  | _ => simp [payload]

/-- **A message is a sequence of words of four bytes.** -/
theorem four_dvd_length_message (address : CString) (xs : List Argument) :
    4 ∣ (message address xs).length := by
  have hpayload : 4 ∣ (xs.flatMap payload).length := by
    rw [List.length_flatMap]
    refine List.dvd_sum fun n hn => ?_
    obtain ⟨x, -, rfl⟩ := List.mem_map.mp hn
    exact four_dvd_length_payload x
  rw [message, List.length_append, List.length_append]
  exact dvd_add (dvd_add (dvd_length_align (by norm_num) _) (dvd_length_align (by norm_num) _))
    hpayload

/-! ### No two messages have the same bytes -/

lemma text_inj {s t : CString} {xs ys : List UInt8} (h : text s ++ xs = text t ++ ys) :
    s = t ∧ xs = ys := by
  rw [text, text, align, align, List.append_assoc, List.append_assoc] at h
  obtain ⟨rfl, hrest⟩ := terminated_inj h
  exact ⟨rfl, List.append_cancel_left hrest⟩

/-- Numbers of one width. -/
lemma number_inj {n x y : ℕ} {xs ys : List UInt8} (hx : x < 256 ^ n) (hy : y < 256 ^ n)
    (h : memory .big n x ++ xs = memory .big n y ++ ys) : x = y ∧ xs = ys := by
  obtain ⟨hmemory, hrest⟩ := List.append_inj h (by simp)
  exact ⟨memory_inj hx hy hmemory, hrest⟩

lemma word_inj {n : ℕ} {x y : BitVec (8 * n)} {xs ys : List UInt8}
    (h : memory .big n x.toNat ++ xs = memory .big n y.toNat ++ ys) : x = y ∧ xs = ys := by
  have hpow : 2 ^ (8 * n) = 256 ^ n := by rw [pow_mul]; norm_num
  obtain ⟨hxy, hrest⟩ := number_inj (hpow ▸ x.isLt) (hpow ▸ y.isLt) h
  exact ⟨BitVec.eq_of_toNat_eq hxy, hrest⟩

lemma blob_inj {content content' xs ys : List UInt8} (hfits : content.length < 256 ^ 4)
    (hfits' : content'.length < 256 ^ 4)
    (h : align 4 (memory .big 4 content.length ++ content) ++ xs
      = align 4 (memory .big 4 content'.length ++ content') ++ ys) :
    content = content' ∧ xs = ys := by
  simp only [align, List.append_assoc] at h
  obtain ⟨hlen, hrest⟩ := number_inj hfits hfits' h
  obtain ⟨rfl, hpad⟩ := List.append_inj hrest hlen
  exact ⟨rfl, List.append_cancel_left hpad⟩

/-- Payloads of one type that begin in one place. -/
lemma payload_inj {x y : Argument} {xs ys : List UInt8} (hkind : x.kind = y.kind)
    (h : x.payload ++ xs = y.payload ++ ys) : x = y ∧ xs = ys := by
  cases x with
  | int32 n =>
      cases y with
      | int32 n' =>
          obtain ⟨rfl, hrest⟩ := word_inj (n := 4) h
          exact ⟨rfl, hrest⟩
      | _ => cases hkind
  | float32 x =>
      cases y with
      | float32 x' =>
          obtain ⟨rfl, hrest⟩ := word_inj (n := 4) h
          exact ⟨rfl, hrest⟩
      | _ => cases hkind
  | float64 x =>
      cases y with
      | float64 x' =>
          obtain ⟨rfl, hrest⟩ := word_inj (n := 8) h
          exact ⟨rfl, hrest⟩
      | _ => cases hkind
  | timeTag seconds fraction =>
      cases y with
      | timeTag seconds' fraction' =>
          simp only [payload, List.append_assoc] at h
          obtain ⟨rfl, hfraction⟩ := word_inj (n := 4) h
          obtain ⟨rfl, hrest⟩ := word_inj (n := 4) hfraction
          exact ⟨rfl, hrest⟩
      | _ => cases hkind
  | string s =>
      cases y with
      | string s' =>
          obtain ⟨rfl, hrest⟩ := text_inj h
          exact ⟨rfl, hrest⟩
      | _ => cases hkind
  | blob content fits =>
      cases y with
      | blob content' fits' =>
          obtain ⟨rfl, hrest⟩ := blob_inj fits fits' h
          exact ⟨rfl, hrest⟩
      | _ => cases hkind
  | bool b =>
      cases y with
      | bool b' =>
          cases hkind
          exact ⟨rfl, h⟩
      | _ => cases hkind

lemma payloads_inj {xs ys : List Argument} (htags : xs.map tag = ys.map tag)
    (h : xs.flatMap payload = ys.flatMap payload) : xs = ys := by
  induction xs generalizing ys with
  | nil => exact (List.map_eq_nil_iff.mp htags.symm).symm
  | cons x xs ih =>
      cases ys with
      | nil => exact absurd htags (by simp)
      | cons y ys =>
          rw [List.map_cons, List.map_cons, List.cons.injEq] at htags
          rw [List.flatMap_cons, List.flatMap_cons] at h
          obtain ⟨rfl, hrest⟩ := payload_inj (Kind.letter_injective htags.1) h
          rw [ih htags.2 hrest]

/-- **The bytes of a message tell its address and its arguments.** -/
theorem message_inj {s t : CString} {xs ys : List Argument} (h : message s xs = message t ys) :
    s = t ∧ xs = ys := by
  rw [message, message, List.append_assoc, List.append_assoc] at h
  obtain ⟨rfl, hrest⟩ := text_inj h
  obtain ⟨htags, hpayloads⟩ := text_inj hrest
  have hmap : xs.map tag = ys.map tag := (List.cons.inj (congrArg CString.chars htags)).2
  exact ⟨rfl, payloads_inj hmap hpayloads⟩

/-! ### Bundles -/

/-- A part of a bundle, with its size before it. -/
def element (part : List UInt8) : List UInt8 := memory .big 4 part.length ++ part

/-- What a bundle starts with. -/
def bundleName : CString where
  chars := ['#', 'b', 'u', 'n', 'd', 'l', 'e'].map ascii
  noNull := by decide

/-- The bytes of a bundle. -/
def bundle (seconds fraction : BitVec 32) (parts : List (List UInt8)) : List UInt8 :=
  text bundleName ++ (timeTag seconds fraction).payload ++ parts.flatMap element

lemma elements_inj {parts parts' : List (List UInt8)} (h : ∀ p ∈ parts, p.length < 256 ^ 4)
    (h' : ∀ p ∈ parts', p.length < 256 ^ 4)
    (heq : parts.flatMap element = parts'.flatMap element) : parts = parts' := by
  have hne : ∀ p ps, (p :: ps).flatMap element ≠ [] := by
    intro p ps hnil
    have hlen := congrArg List.length hnil
    simp [element] at hlen
  induction parts generalizing parts' with
  | nil =>
      cases parts' with
      | nil => rfl
      | cons p ps => exact absurd heq.symm (hne p ps)
  | cons p ps ih =>
      cases parts' with
      | nil => exact absurd heq (hne p ps)
      | cons q qs =>
          rw [List.forall_mem_cons] at h h'
          rw [List.flatMap_cons, List.flatMap_cons, element, element, List.append_assoc,
            List.append_assoc] at heq
          obtain ⟨hlen, hrest⟩ := number_inj h.1 h'.1 heq
          obtain ⟨rfl, htail⟩ := List.append_inj hrest hlen
          rw [ih h.2 h'.2 htail]

/-- **The bytes of a bundle tell its time tag and its parts.** -/
theorem bundle_inj {seconds fraction seconds' fraction' : BitVec 32}
    {parts parts' : List (List UInt8)} (h : ∀ p ∈ parts, p.length < 256 ^ 4)
    (h' : ∀ p ∈ parts', p.length < 256 ^ 4)
    (heq : bundle seconds fraction parts = bundle seconds' fraction' parts') :
    seconds = seconds' ∧ fraction = fraction' ∧ parts = parts' := by
  rw [bundle, bundle, List.append_assoc, List.append_assoc] at heq
  obtain ⟨htime, hparts⟩ := payload_inj (x := timeTag seconds fraction)
    (y := timeTag seconds' fraction') rfl (List.append_cancel_left heq)
  obtain ⟨hseconds, hfraction⟩ := Argument.timeTag.inj htime
  exact ⟨hseconds, hfraction, elements_inj h h' hparts⟩

end OscFormat
