/-
The Max logger, `stretch_osc_logger.js`.

* `Date`: what `new Date()` gives, the time and the local fields.
* `fileName`: the name `start` makes of a date.
* `State`: the variables of the script.  A `File` object is given by the name it was made
  with; the variable `filename` of the script is another than the one `start` declares.
* `start`, `list`, `stop`: the message handlers, with what they write and send out; `Event`,
  `step`: the handlers as the steps of one machine.  Whether a file opens is part of the event.
* `list_cases`: what `list` can do.

The `post` output to the console is left out.
-/
import EmbodiedSynth.Library.Machine
import EmbodiedSynth.Processing.Pitch

namespace EmbodiedSynth.StretchOscLogger

open ExtNum

/-! ### Numbers and names -/

/-- What `new Date()` gives; months count from zero. -/
structure Date where
  getTime : ℤ
  getFullYear : ℕ
  getMonth : ℕ
  getDate : ℕ
  getHours : ℕ
  getMinutes : ℕ
  getSeconds : ℕ

/-- `pad(n)`. -/
def pad (n : ℕ) : List Char := if n < 10 then '0' :: Nat.toDigits 10 n else Nat.toDigits 10 n

/-- The name of the file `start` creates. -/
def fileName (d : Date) : List Char :=
  "data/stretch_dataset_osc_".toList ++ Nat.toDigits 10 d.getFullYear ++ pad (d.getMonth + 1)
    ++ pad d.getDate ++ "_".toList ++ pad d.getHours ++ pad d.getMinutes ++ pad d.getSeconds
    ++ ".csv".toList

section Numbers

variable {K : Type*} [Field K] [LinearOrder K] (A : FloatArith K)

/-- `Math.min(a, b)`, NaN as soon as one side is. -/
def mathMin : ExtNum K → ExtNum K → ExtNum K
  | nan, _ => nan
  | _, nan => nan
  | a, b => if a < b then a else b

/-- `Math.max(a, b)`, NaN as soon as one side is. -/
def mathMax : ExtNum K → ExtNum K → ExtNum K
  | nan, _ => nan
  | _, nan => nan
  | a, b => if a > b then a else b

omit [Field K] in
@[simp] lemma mathMin_fin (x y : K) : mathMin (fin x) (fin y) = fin (min x y) := by
  rcases lt_or_ge x y with h | h
  · simp [mathMin, h, min_eq_left h.le]
  · simp [mathMin, not_lt.mpr h, min_eq_right h]

omit [Field K] in
@[simp] lemma mathMax_fin (x y : K) : mathMax (fin x) (fin y) = fin (max x y) := by
  rcases lt_or_ge y x with h | h
  · simp [mathMax, h, max_eq_left h.le]
  · simp [mathMax, not_lt.mpr h, max_eq_right h]

def minSensor : ExtNum K := 2500

def maxSensor : ExtNum K := 3240

def minFreq : ExtNum K := 100

def maxFreq : ExtNum K := 1000

/-- `scale(v, inMin, inMax, outMin, outMax)`. -/
def scale (v inMin inMax outMin outMax : ExtNum K) : ExtNum K :=
  A.add outMin (A.div (A.mul (A.sub v inMin) (A.sub outMax outMin)) (A.sub inMax inMin))

/-- The frequency `list` computes. -/
def logFreq (smoothed : ExtNum K) : ExtNum K :=
  let freq := scale A smoothed minSensor maxSensor minFreq maxFreq
  mathMax minFreq (mathMin maxFreq freq)

end Numbers

/-! ### The script -/

/-- A row of the CSV, `sample, max_time_ms, sensor_time_ms, raw, smoothed, frequency`. -/
structure Row (K : Type*) where
  sample : ℕ
  maxTimeMs : ℤ
  sensorTimeMs : ExtNum K
  raw : ExtNum K
  smoothed : ExtNum K
  frequency : ExtNum K

/-- A line written to a file. -/
inductive Line (K : Type*) where
  | header
  | row (row : Row K)

/-- A message out of the script. -/
inductive Message (K : Type*) where
  | error (text : String)
  | recordingTo (filename : List Char)
  | logged (row : Row K)
  | saved (filename : List Char)

/-- What a handler does outside the script: a line to the file of a name, or a message. -/
inductive Output (K : Type*) where
  | writeline (filename : List Char) (line : Line K)
  | outlet (message : Message K)

/-- The variables of the script. -/
structure State where
  file : Option (List Char)
  filename : List Char
  sample : ℕ
  startTime : ℤ

/-- The variables when the script is loaded at the time `now`. -/
def init (now : ℤ) : State where
  file := none
  filename := []
  sample := 0
  startTime := now

/-- The arguments of a `list` message. -/
structure Reading (K : Type*) where
  sensorTime : ExtNum K
  raw : ExtNum K
  smoothed : ExtNum K

/-- The messages the script handles, with the dates it reads and whether its file opens. -/
inductive Event (K : Type*) where
  | start (now : ℤ) (d : Date) (isopen : Bool)
  | list (reading : Reading K) (now : ℤ) (isopen : Bool)
  | stop

variable {K : Type*} [Field K] [LinearOrder K] (A : FloatArith K)

/-- `start()`.  Its `filename` is a local variable. -/
def start (s : State) (now : ℤ) (d : Date) (isopen : Bool) : State × List (Output K) :=
  let filename := fileName d
  let s := { s with sample := 0, startTime := now, file := some filename }
  if !isopen then (s, [.outlet (.error "ERROR could_not_create_csv")])
  else (s, [.writeline filename .header, .outlet (.recordingTo filename)])

/-- The row `list` makes. -/
def makeRow (sample : ℕ) (startTime : ℤ) (r : Reading K) (now : ℤ) : Row K where
  sample := sample
  maxTimeMs := now - startTime
  sensorTimeMs := r.sensorTime
  raw := r.raw
  smoothed := r.smoothed
  frequency := logFreq A r.smoothed

/-- `list(sensorTime, raw, smoothed)`. -/
def list (s : State) (r : Reading K) (now : ℤ) (isopen : Bool) : State × List (Output K) :=
  match s.file with
  | none => (s, [.outlet (.error "ERROR no_file")])
  | some file =>
      let row := makeRow A s.sample s.startTime r now
      if !isopen then (s, [.outlet (.error "ERROR could_not_reopen_csv")])
      else ({ s with sample := s.sample + 1 }, [.writeline file (.row row), .outlet (.logged row)])

/-- `stop()`.  Its `filename` is the variable of the script, and the file is left as it is. -/
def stop (s : State) : State × List (Output K) := (s, [.outlet (.saved s.filename)])

/-- One handler, run to its end. -/
def step (s : State) : Event K → State × List (Output K)
  | .start now d isopen => start s now d isopen
  | .list r now isopen => list A s r now isopen
  | .stop => stop s

/-- The variables after the messages `es`, the script being loaded at `now`. -/
def run (now : ℤ) (es : List (Event K)) : State := Machine.run (Machine.next (step A)) (init now) es

/-! ### What the handlers do -/

/-- `list` appends a row and counts it, or reports one error and changes nothing. -/
lemma list_cases (s : State) (r : Reading K) (now : ℤ) (isopen : Bool) :
    (∃ file, s.file = some file ∧ isopen = true ∧ list A s r now isopen
        = ({ s with sample := s.sample + 1 },
          [.writeline file (.row (makeRow A s.sample s.startTime r now)),
            .outlet (.logged (makeRow A s.sample s.startTime r now))]))
      ∨ ((s.file = none ∨ isopen = false)
        ∧ ∃ text, list A s r now isopen = (s, [.outlet (.error text)])) := by
  cases hfile : s.file with
  | none => exact Or.inr ⟨Or.inl rfl, _, by rw [list, hfile]⟩
  | some file =>
      cases isopen with
      | false => exact Or.inr ⟨Or.inr rfl, _, by rw [list, hfile]; rfl⟩
      | true => exact Or.inl ⟨file, rfl, rfl, by rw [list, hfile]; rfl⟩

/-- No handler assigns the variable `filename` of the script. -/
lemma filename_run (now : ℤ) (es : List (Event K)) : (run A now es).filename = [] := by
  refine Machine.run_invariant (P := fun s : State => s.filename = []) (fun s hs e _ => ?_) rfl
  cases e with
  | start now d isopen => cases isopen <;> exact hs
  | stop => exact hs
  | list r now isopen =>
      rcases list_cases A s r now isopen with ⟨file, -, -, h⟩ | ⟨-, text, h⟩
      · rw [Machine.next, step, h]; exact hs
      · rw [Machine.next, step, h]; exact hs

end EmbodiedSynth.StretchOscLogger
