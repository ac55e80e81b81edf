/-
The names of the files of the Max logger.

A name renders the local date and time to the second; the clock of the script goes by
milliseconds.

* `Date.Valid`: the ranges of the local fields, with a year of four digits.
* `secondKey`, `clockKey`: a reading of the clock, to the second and to the millisecond, most
  significant field first.
* `fileName_lt_iff`, `fileName_inj`: names are ordered and told apart as the seconds they render.
* `names_increasing_iff`: at increasing readings of the clock the names are different and
  increase exactly when no two readings lie in one second; `recordings_pairwise` is what that
  means for the recordings a run announces.
-/
import EmbodiedSynth.Library.FixedWidth
import EmbodiedSynth.StretchOscLogger.Sealing

namespace EmbodiedSynth.StretchOscLogger

open FixedWidth

/-! ### Readings of the clock -/

/-- The ranges of the local fields of a date with a year of four digits. -/
structure Date.Valid (d : Date) : Prop where
  getFullYear : 1000 ≤ d.getFullYear ∧ d.getFullYear < 10000
  getMonth : d.getMonth < 12
  getDate : d.getDate ≤ 31
  getHours : d.getHours < 24
  getMinutes : d.getMinutes < 60
  getSeconds : d.getSeconds < 60

/-- The fields of a date down to the second. -/
def secondKey (d : Date) : List ℕ :=
  [d.getFullYear, d.getMonth, d.getDate, d.getHours, d.getMinutes, d.getSeconds]

/-- The fields of a date down to the millisecond. -/
def clockKey (d : Date) : List ℕ := secondKey d ++ [(d.getTime % 1000).toNat]

/-- One reading before another: in an earlier second, or earlier in the same. -/
lemma clockKey_lt_iff (d d' : Date) : clockKey d < clockKey d'
    ↔ secondKey d < secondKey d'
      ∨ secondKey d = secondKey d' ∧ d.getTime % 1000 < d'.getTime % 1000 := by
  have hlen : (secondKey d).length = (secondKey d').length := rfl
  have hms : [(d.getTime % 1000).toNat] < [(d'.getTime % 1000).toNat]
      ↔ d.getTime % 1000 < d'.getTime % 1000 := by
    rw [List.cons_lt_cons_iff]
    simp only [List.not_lt_nil, and_false, or_false]
    omega
  rw [clockKey, clockKey, append_lt_append_iff hlen, hms]

/-! ### Names -/

/-- A padded number is one of two digits. -/
lemma pad_eq_digits : ∀ n < 100, pad n = digits 2 n := by
  decide +kernel

/-- The name of a valid date as fields of fixed widths. -/
lemma fileName_eq {d : Date} (h : d.Valid) : fileName d
    = "data/stretch_dataset_osc_".toList ++ (digits 4 d.getFullYear ++ (digits 2 (d.getMonth + 1)
      ++ (digits 2 d.getDate ++ ("_".toList ++ (digits 2 d.getHours ++ (digits 2 d.getMinutes
      ++ (digits 2 d.getSeconds ++ ".csv".toList))))))) := by
  obtain ⟨⟨hyear, hyear'⟩, hmonth, hdate, hhours, hminutes, hseconds⟩ := h
  have hfields : ∀ a b c d e f g i j : List Char, a ++ b ++ c ++ d ++ e ++ f ++ g ++ i ++ j
      = a ++ (b ++ (c ++ (d ++ (e ++ (f ++ (g ++ (i ++ j))))))) := by
    intros
    simp only [List.append_assoc]
  rw [← toDigits_eq_digits (w := 3) hyear hyear', ← pad_eq_digits (d.getMonth + 1) (by omega),
    ← pad_eq_digits d.getDate (by omega), ← pad_eq_digits d.getHours (by omega),
    ← pad_eq_digits d.getMinutes (by omega), ← pad_eq_digits d.getSeconds (by omega)]
  exact hfields _ _ _ _ _ _ _ _ _

/-- **Names are ordered as the seconds they render.** -/
theorem fileName_lt_iff {d d' : Date} (h : d.Valid) (h' : d'.Valid) :
    fileName d < fileName d' ↔ secondKey d < secondKey d' := by
  rw [fileName_eq h, fileName_eq h', append_left_lt_iff]
  obtain ⟨⟨-, hyear⟩, hmonth, hdate, hhours, hminutes, hseconds⟩ := h
  obtain ⟨⟨-, hyear'⟩, hmonth', hdate', hhours', hminutes', hseconds'⟩ := h'
  rw [digits_append_lt_iff (by omega) (by omega), digits_append_lt_iff (by omega) (by omega),
    digits_append_lt_iff (by omega) (by omega), append_left_lt_iff,
    digits_append_lt_iff (by omega) (by omega), digits_append_lt_iff (by omega) (by omega),
    digits_append_lt_iff (by omega) (by omega)]
  simp only [secondKey, List.cons_lt_cons_iff, Nat.add_lt_add_iff_right,
    Nat.add_right_cancel_iff, List.lt_irrefl]

/-- Two dates have one name exactly where they lie in one second. -/
theorem fileName_inj {d d' : Date} (h : d.Valid) (h' : d'.Valid) :
    fileName d = fileName d' ↔ secondKey d = secondKey d' := by
  rw [fileName_eq h, fileName_eq h']
  obtain ⟨⟨-, hyear⟩, hmonth, hdate, hhours, hminutes, hseconds⟩ := h
  obtain ⟨⟨-, hyear'⟩, hmonth', hdate', hhours', hminutes', hseconds'⟩ := h'
  constructor
  · intro heq
    obtain ⟨hy, h1⟩ := digits_append_inj (by omega) (by omega) (List.append_cancel_left heq)
    obtain ⟨hmo, h2⟩ := digits_append_inj (by omega) (by omega) h1
    obtain ⟨hda, h3⟩ := digits_append_inj (by omega) (by omega) h2
    obtain ⟨hho, h4⟩ := digits_append_inj (by omega) (by omega) (List.append_cancel_left h3)
    obtain ⟨hmi, h5⟩ := digits_append_inj (by omega) (by omega) h4
    obtain ⟨hse, -⟩ := digits_append_inj (by omega) (by omega) h5
    rw [secondKey, secondKey, hy, Nat.add_right_cancel hmo, hda, hho, hmi, hse]
  · intro heq
    obtain ⟨hy, hmo, hda, hho, hmi, hse, -⟩ : d.getFullYear = d'.getFullYear
        ∧ d.getMonth = d'.getMonth ∧ d.getDate = d'.getDate ∧ d.getHours = d'.getHours
        ∧ d.getMinutes = d'.getMinutes ∧ d.getSeconds = d'.getSeconds ∧ True := by
      simpa [secondKey] using heq
    rw [hy, hmo, hda, hho, hmi, hse]

/-! ### The names of a run -/

/-- The date a `start` renders in its name. -/
def Event.startDate {K : Type*} : Event K → Option Date
  | .start _ d _ => some d
  | _ => none

/-- The dates of the `start` messages of a run. -/
def startDates {K : Type*} (es : List (Event K)) : List Date := es.filterMap Event.startDate

/-- Off shared seconds the names increase with the clock. -/
lemma names_pairwise {ds : List Date} (hvalid : ∀ d ∈ ds, d.Valid)
    (hclock : ds.Pairwise fun d d' => clockKey d < clockKey d')
    (hkeys : ds.Pairwise fun d d' => secondKey d ≠ secondKey d') :
    (ds.map fileName).Pairwise fun name name' => name ≠ name' ∧ name < name' := by
  rw [List.pairwise_map]
  refine (hkeys.and hclock).imp_of_mem fun hd hd' h => ?_
  refine ⟨mt (fileName_inj (hvalid _ hd) (hvalid _ hd')).mp h.1, ?_⟩
  rw [fileName_lt_iff (hvalid _ hd) (hvalid _ hd')]
  exact ((clockKey_lt_iff _ _).mp h.2).resolve_right fun heq => h.1 heq.1

/-- **The names of the recordings**: at increasing readings of the clock they are different and
increase exactly when no two readings lie in one second. -/
theorem names_increasing_iff {K : Type*} {es : List (Event K)}
    (hvalid : ∀ d ∈ startDates es, d.Valid)
    (hclock : (startDates es).Pairwise fun d d' => clockKey d < clockKey d') :
    ((startDates es).map fileName).Pairwise (fun name name' => name ≠ name' ∧ name < name')
      ↔ (startDates es).Pairwise fun d d' => secondKey d ≠ secondKey d' := by
  refine ⟨fun h => ?_, names_pairwise hvalid hclock⟩
  rw [List.pairwise_map] at h
  refine h.imp_of_mem fun hd hd' hname => ?_
  exact mt (fileName_inj (hvalid _ hd) (hvalid _ hd')).mpr hname.1

/-- The recordings a run announces are among the names of its `start` messages, in order. -/
lemma recordingTo_sublist {K : Type*} (es : List (Event K)) :
    (es.filterMap Event.recordingTo).Sublist ((startDates es).map fileName) := by
  induction es with
  | nil => exact List.Sublist.refl _
  | cons e es ih =>
      cases e with
      | start now d isopen =>
          cases isopen with
          | true => exact ih.cons_cons _
          | false => exact ih.cons _
      | list r now isopen => exact ih
      | stop => exact ih

/-- So off shared seconds no recording of a run takes the file of an earlier one. -/
theorem recordings_pairwise {K : Type*} [Field K] [LinearOrder K] (A : FloatArith K) (now₀ : ℤ)
    {es : List (Event K)} (hvalid : ∀ d ∈ startDates es, d.Valid)
    (hclock : (startDates es).Pairwise fun d d' => clockKey d < clockKey d')
    (hkeys : (startDates es).Pairwise fun d d' => secondKey d ≠ secondKey d') :
    ((Machine.emitted (step A) (init now₀) es).filterMap Output.recordingTo).Pairwise
      fun name name' => name ≠ name' ∧ name < name' := by
  rw [recordingTo_emitted]
  exact (names_pairwise hvalid hclock hkeys).sublist (recordingTo_sublist es)

/-- Half a second before the turn of a minute, and at the turn. -/
theorem names_increasing_iff_minute :
    ((startDates (K := ℚ) [.start 0 ⟨1780855739500, 2026, 5, 7, 18, 8, 59⟩ true,
        .start 0 ⟨1780855740000, 2026, 5, 7, 18, 9, 0⟩ true]).map fileName).Pairwise
        (fun name name' => name ≠ name' ∧ name < name')
      ↔ (startDates (K := ℚ) [.start 0 ⟨1780855739500, 2026, 5, 7, 18, 8, 59⟩ true,
        .start 0 ⟨1780855740000, 2026, 5, 7, 18, 9, 0⟩ true]).Pairwise
        fun d d' => secondKey d ≠ secondKey d' := by
  refine names_increasing_iff (fun d hd => ?_) (by decide)
  have hmem : d = ⟨1780855739500, 2026, 5, 7, 18, 8, 59⟩
      ∨ d = ⟨1780855740000, 2026, 5, 7, 18, 9, 0⟩ := by simpa [startDates, Event.startDate] using hd
  rcases hmem with rfl | rfl <;> constructor <;> decide

/-- Two edges of the toggle, half a second apart. -/
def toggledTwice : List (Event ℚ) :=
  [.start 0 ⟨1780855712100, 2026, 5, 7, 18, 8, 32⟩ true,
    .start 0 ⟨1780855712600, 2026, 5, 7, 18, 8, 32⟩ true]

/-- The second recording takes the file of the first. -/
theorem names_repeated :
    (∀ d ∈ startDates toggledTwice, d.Valid)
      ∧ (startDates toggledTwice).Pairwise (fun d d' => clockKey d < clockKey d')
      ∧ ¬ ((startDates toggledTwice).map fileName).Pairwise
        fun name name' => name ≠ name' ∧ name < name' := by
  refine ⟨fun d hd => ?_, by decide, fun hnames => ?_⟩
  · have hmem : d = ⟨1780855712100, 2026, 5, 7, 18, 8, 32⟩
        ∨ d = ⟨1780855712600, 2026, 5, 7, 18, 8, 32⟩ := by
      simpa [toggledTwice, startDates, Event.startDate] using hd
    rcases hmem with rfl | rfl <;> constructor <;> decide
  · exact absurd rfl ((List.pairwise_cons.mp hnames).1 _ List.mem_cons_self).1

end EmbodiedSynth.StretchOscLogger
