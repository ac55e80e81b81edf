/-
Runs of a deterministic machine.

A machine is a step function: it takes a state and an input and returns the next
state, with or without an output.  A run is the list of inputs it is fed.

* `run`, `Reachable`: the state after a list of inputs, and the states some list leads
  to; `run_append` splits a run at any point.
* `run_collect`: a run through a family of known states.
* `run_invariant`: a property kept by every step the run takes holds at its end, and
  `Reachable.invariant` at every reachable state.
* `mem_log_run_iff`: what is in a log that the steps extend.
* `EveryStep`: a property of every step of a run, given the inputs before it.
* `selected`: the inputs of a run that the states they meet select; `view_run` and
  `filter_emitted` erase the others from what only these change and emit.
* `outputs`, `emitted`: the outputs of a run in order; `mem_outputs_iff` traces an output to
  its step, and `map_emitted` compares what two machines emit.
* `run_rel`: two machines stepped side by side.
-/
import Mathlib.Data.List.Basic
import Mathlib.Data.List.Induction

namespace Machine

variable {σ τ ι κ ο ο' β : Type*}

/-! ### Runs -/

/-- The state a machine is in after the inputs `is`, started in `s`. -/
def run (step : σ → ι → σ) (s : σ) (is : List ι) : σ := is.foldl step s

@[simp] lemma run_nil (step : σ → ι → σ) (s : σ) : run step s [] = s := rfl

@[simp] lemma run_cons (step : σ → ι → σ) (s : σ) (i : ι) (is : List ι) :
    run step s (i :: is) = run step (step s i) is := rfl

@[simp] lemma run_append (step : σ → ι → σ) (s : σ) (is js : List ι) :
    run step s (is ++ js) = run step (run step s is) js := by
  rw [run, List.foldl_append]; rfl

/-- The last step of a run. -/
lemma run_concat (step : σ → ι → σ) (s : σ) (is : List ι) (i : ι) :
    run step s (is ++ [i]) = step (run step s is) i := run_append step s is [i]

/-- A property kept by every step the run takes holds at its end. -/
theorem run_invariant {step : σ → ι → σ} {P : σ → Prop} {is : List ι}
    (hstep : ∀ s, P s → ∀ i ∈ is, P (step s i)) {s : σ} (hs : P s) : P (run step s is) := by
  induction is generalizing s with
  | nil => exact hs
  | cons i is ih =>
      rw [run_cons]
      exact ih (fun t ht j hj => hstep t ht j (List.mem_cons_of_mem i hj))
        (hstep s hs i List.mem_cons_self)

/-- A relation kept by every step two machines take on the same input holds at the end of
the run. -/
theorem run_rel {step : σ → ι → σ} {step' : τ → ι → τ} {R : σ → τ → Prop} {is : List ι}
    (hstep : ∀ s t, R s t → ∀ i ∈ is, R (step s i) (step' t i)) {s : σ} {t : τ} (h : R s t) :
    R (run step s is) (run step' t is) := by
  induction is generalizing s t with
  | nil => exact h
  | cons i is ih =>
      rw [run_cons, run_cons]
      exact ih (fun u v huv j hj => hstep u v huv j (List.mem_cons_of_mem i hj))
        (hstep s t h i List.mem_cons_self)

/-- A run through states that are known: `st is` is the state after the inputs `is`. -/
theorem run_collect {step : σ → ι → σ} (st : List ι → σ) {is : List ι}
    (hstep : ∀ pre i, pre ++ [i] <+: is → step (st pre) i = st (pre ++ [i])) :
    run step (st []) is = st is := by
  induction is using List.reverseRecOn with
  | nil => rfl
  | append_singleton is i ih =>
      have hbefore : run step (st []) is = st is :=
        ih fun pre j hpre => hstep pre j (hpre.trans (List.prefix_append is [i]))
      rw [run_concat, hbefore, hstep is i (List.prefix_refl _)]

/-- A step of a run is its last, or one of those before. -/
lemma eq_concat_cases {is pre post : List ι} {i j : ι} (h : is ++ [i] = pre ++ j :: post) :
    (pre = is ∧ j = i) ∨ ∃ post', is = pre ++ j :: post' := by
  rcases List.eq_nil_or_concat post with rfl | ⟨post', k, rfl⟩
  · obtain ⟨rfl, hij⟩ := List.append_inj' h rfl
    exact Or.inl ⟨rfl, (List.cons.inj hij).1.symm⟩
  · rw [List.concat_eq_append, ← List.cons_append, ← List.append_assoc] at h
    exact Or.inr ⟨post', (List.append_inj' h rfl).1⟩

/-! ### Logs -/

/-- A log that each step extends by `g` holds what was in it at the start and what the steps
of the run added, each from the state it was taken in. -/
theorem mem_log_run_iff {α : Type*} {step : σ → ι → σ} {log : σ → List α} {g : σ → ι → List α}
    (hlog : ∀ s i, log (step s i) = log s ++ g s i) (s : σ) (is : List ι) (x : α) :
    x ∈ log (run step s is)
      ↔ x ∈ log s ∨ ∃ pre i post, is = pre ++ i :: post ∧ x ∈ g (run step s pre) i := by
  induction is using List.reverseRecOn with
  | nil => simp
  | append_singleton is i ih =>
      rw [run_concat, hlog, List.mem_append, ih, or_assoc]
      refine or_congr_right ⟨?_, ?_⟩
      · rintro (⟨pre, j, post, rfl, hx⟩ | hx)
        · exact ⟨pre, j, post ++ [i], by simp, hx⟩
        · exact ⟨is, i, [], rfl, hx⟩
      · rintro ⟨pre, j, post, heq, hx⟩
        rcases eq_concat_cases heq with ⟨rfl, rfl⟩ | ⟨post, rfl⟩
        · exact Or.inr hx
        · exact Or.inl ⟨pre, j, post, rfl, hx⟩

/-! ### Every step of a run -/

/-- `Q` holds of every step of a run: of the inputs before it and its own. -/
def EveryStep (Q : List ι → ι → Prop) (is : List ι) : Prop :=
  ∀ pre i post, is = pre ++ i :: post → Q pre i

@[simp] lemma everyStep_nil (Q : List ι → ι → Prop) : EveryStep Q [] :=
  fun _ _ _ h => absurd h (by simp)

/-- The steps of a run are those of its beginning and the last one. -/
lemma everyStep_concat (Q : List ι → ι → Prop) (is : List ι) (i : ι) :
    EveryStep Q (is ++ [i]) ↔ EveryStep Q is ∧ Q is i := by
  constructor
  · intro h
    refine ⟨fun pre j post his => h pre j (post ++ [i]) ?_, h is i [] rfl⟩
    rw [his, List.append_assoc, List.cons_append]
  · rintro ⟨h, hlast⟩ pre j post his
    rcases eq_concat_cases his with ⟨rfl, rfl⟩ | ⟨post, his⟩
    · exact hlast
    · exact h pre j post his

/-! ### Selected inputs -/

/-- The inputs of a run that `p` selects from the states they meet, in order. -/
def selected (step : σ → ι → σ) (p : σ → ι → Bool) : σ → List ι → List ι
  | _, [] => []
  | s, i :: is => (if p s i then [i] else []) ++ selected step p (step s i) is

@[simp] lemma selected_nil (step : σ → ι → σ) (p : σ → ι → Bool) (s : σ) :
    selected step p s [] = [] := rfl

@[simp] lemma selected_cons (step : σ → ι → σ) (p : σ → ι → Bool) (s : σ) (i : ι)
    (is : List ι) :
    selected step p s (i :: is)
      = (if p s i then [i] else []) ++ selected step p (step s i) is := rfl

/-- What a run selects is selected before and after any of its points. -/
lemma selected_append (step : σ → ι → σ) (p : σ → ι → Bool) (s : σ) (is js : List ι) :
    selected step p s (is ++ js)
      = selected step p s is ++ selected step p (run step s is) js := by
  induction is generalizing s with
  | nil => rfl
  | cons i is ih => rw [List.cons_append, selected_cons, ih, selected_cons, List.append_assoc]; rfl

/-- The last input of a run. -/
lemma selected_concat (step : σ → ι → σ) (p : σ → ι → Bool) (s : σ) (is : List ι) (i : ι) :
    selected step p s (is ++ [i])
      = selected step p s is ++ if p (run step s is) i then [i] else [] := by
  rw [selected_append, selected_cons, selected_nil, List.append_nil]

/-- A view of a machine that only the selected inputs change is, after a run, the state of the
machine that takes these inputs alone. -/
theorem view_run {step : σ → ι → σ} (step' : τ → κ → τ) (p : σ → ι → Bool) (view : σ → τ)
    (label : ι → κ) (hsel : ∀ s i, p s i = true → view (step s i) = step' (view s) (label i))
    (hskip : ∀ s i, p s i = false → view (step s i) = view s) (s : σ) (is : List ι) :
    view (run step s is) = run step' (view s) ((selected step p s is).map label) := by
  induction is generalizing s with
  | nil => rfl
  | cons i is ih =>
      rw [run_cons, ih, selected_cons, List.map_append, run_append]
      cases h : p s i with
      | true => rw [hsel s i h]; rfl
      | false => rw [hskip s i h]; rfl

/-- Where only the selected inputs change a machine, the first one is selected at the start. -/
lemma head?_selected {step : σ → ι → σ} {p : σ → ι → Bool} {s : σ}
    (hskip : ∀ i, p s i = false → step s i = s) (is : List ι) :
    (selected step p s is).head? = is.find? (p s) := by
  induction is with
  | nil => rfl
  | cons i is ih =>
      rw [selected_cons]
      cases h : p s i with
      | true => rw [List.find?_cons_of_pos h]; rfl
      | false =>
          rw [hskip i h, List.find?_cons_of_neg (Bool.not_eq_true _ ▸ h), ← ih]
          rfl

/-- Inputs selected by a view are selected by the machine of the view. -/
lemma selected_eq_of_view {step : σ → ι → σ} {step' : τ → ι → τ} {p : σ → ι → Bool}
    {q : τ → ι → Bool} (view : σ → τ) (hview : ∀ s i, view (step s i) = step' (view s) i)
    (hpq : ∀ s i, p s i = q (view s) i) (s : σ) (is : List ι) :
    selected step p s is = selected step' q (view s) is := by
  induction is generalizing s with
  | nil => rfl
  | cons i is ih => rw [selected_cons, selected_cons, ih, hview, hpq]

/-! ### Reachable states -/

/-- The states some list of inputs leads to from `s₀`. -/
def Reachable (step : σ → ι → σ) (s₀ s : σ) : Prop := ∃ is, run step s₀ is = s

lemma Reachable.refl (step : σ → ι → σ) (s₀ : σ) : Reachable step s₀ s₀ := ⟨[], rfl⟩

lemma Reachable.step {step : σ → ι → σ} {s₀ s : σ} (h : Reachable step s₀ s) (i : ι) :
    Reachable step s₀ (step s i) := by
  obtain ⟨is, rfl⟩ := h
  exact ⟨is ++ [i], by rw [run_append]; rfl⟩

/-- An inductive invariant holds in every reachable state. -/
theorem Reachable.invariant {step : σ → ι → σ} {P : σ → Prop} {s₀ s : σ}
    (h : Reachable step s₀ s) (h₀ : P s₀) (hstep : ∀ t i, P t → P (step t i)) : P s := by
  obtain ⟨is, rfl⟩ := h
  exact run_invariant (fun t ht i _ => hstep t i ht) h₀

/-! ### Outputs -/

/-- The state part of a step with an output. -/
def next (step : σ → ι → σ × ο) (s : σ) (i : ι) : σ := (step s i).1

/-- The outputs of a run, one for each input. -/
def outputs (step : σ → ι → σ × ο) : σ → List ι → List ο
  | _, [] => []
  | s, i :: is => (step s i).2 :: outputs step (step s i).1 is

@[simp] lemma outputs_nil (step : σ → ι → σ × ο) (s : σ) : outputs step s [] = [] := rfl

@[simp] lemma outputs_cons (step : σ → ι → σ × ο) (s : σ) (i : ι) (is : List ι) :
    outputs step s (i :: is) = (step s i).2 :: outputs step (step s i).1 is := rfl

/-- An output of a run is the output of one of its steps. -/
lemma mem_outputs_iff (step : σ → ι → σ × ο) (s : σ) (is : List ι) (o : ο) :
    o ∈ outputs step s is ↔ ∃ pre i post, is = pre ++ i :: post
      ∧ o = (step (run (next step) s pre) i).2 := by
  induction is generalizing s with
  | nil => simp
  | cons i is ih =>
      rw [outputs_cons, List.mem_cons, ih]
      constructor
      · rintro (rfl | ⟨pre, j, post, rfl, rfl⟩)
        · exact ⟨[], i, is, rfl, rfl⟩
        · exact ⟨i :: pre, j, post, rfl, rfl⟩
      · rintro ⟨pre, j, post, his, rfl⟩
        cases pre with
        | nil =>
            obtain ⟨rfl, -⟩ := List.cons.inj his
            exact Or.inl rfl
        | cons k pre =>
            obtain ⟨rfl, rfl⟩ := List.cons.inj his
            exact Or.inr ⟨pre, j, post, rfl, rfl⟩

/-- What a run emits, where each step outputs a list. -/
def emitted (step : σ → ι → σ × List ο) (s : σ) (is : List ι) : List ο :=
  (outputs step s is).flatten

@[simp] lemma emitted_cons (step : σ → ι → σ × List ο) (s : σ) (i : ι) (is : List ι) :
    emitted step s (i :: is) = (step s i).2 ++ emitted step (step s i).1 is := rfl

/-- What a run emits is emitted by one of its steps. -/
lemma mem_emitted_iff (step : σ → ι → σ × List ο) (s : σ) (is : List ι) (o : ο) :
    o ∈ emitted step s is ↔ ∃ pre i post, is = pre ++ i :: post
      ∧ o ∈ (step (run (next step) s pre) i).2 := by
  rw [emitted, List.mem_flatten]
  constructor
  · rintro ⟨os, hos, ho⟩
    obtain ⟨pre, i, post, his, rfl⟩ := (mem_outputs_iff _ _ _ _).mp hos
    exact ⟨pre, i, post, his, ho⟩
  · rintro ⟨pre, i, post, his, ho⟩
    exact ⟨_, (mem_outputs_iff _ _ _ _).mpr ⟨pre, i, post, his, rfl⟩, ho⟩

/-- Two machines that emit alike at every step, in states that are views of each other, emit
alike over a run. -/
theorem map_emitted {step : σ → ι → σ × List ο} (step' : τ → κ → τ × List ο') (view : σ → τ)
    (label : ι → κ) (f : ο → β) (g : ο' → β)
    (hstep : ∀ s i, view (step s i).1 = (step' (view s) (label i)).1
      ∧ (step s i).2.map f = (step' (view s) (label i)).2.map g)
    (s : σ) (is : List ι) :
    (emitted step s is).map f = (emitted step' (view s) (is.map label)).map g := by
  induction is generalizing s with
  | nil => rfl
  | cons i is ih =>
      obtain ⟨hview, hout⟩ := hstep s i
      rw [emitted_cons, List.map_cons, emitted_cons, List.map_append, List.map_append, hout, ih,
        hview]

/-- What a run emits of the kind `q` is what the machine on the selected inputs emits. -/
theorem filter_emitted {step : σ → ι → σ × List ο} (step' : τ → κ → τ × List ο)
    (p : σ → ι → Bool) (view : σ → τ) (label : ι → κ) {q : ο → Bool}
    (hsel : ∀ s i, p s i = true → view (step s i).1 = (step' (view s) (label i)).1
      ∧ (step s i).2.filter q = (step' (view s) (label i)).2)
    (hskip : ∀ s i, p s i = false → view (step s i).1 = view s ∧ (step s i).2.filter q = [])
    (s : σ) (is : List ι) :
    (emitted step s is).filter q
      = emitted step' (view s) ((selected (next step) p s is).map label) := by
  induction is generalizing s with
  | nil => rfl
  | cons i is ih =>
      rw [emitted_cons, List.filter_append, ih, selected_cons]
      cases h : p s i with
      | true =>
          obtain ⟨hview, hout⟩ := hsel s i h
          rw [hview, hout]; rfl
      | false =>
          obtain ⟨hview, hout⟩ := hskip s i h
          rw [hview, hout]; rfl

end Machine
