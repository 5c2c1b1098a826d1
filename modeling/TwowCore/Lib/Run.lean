import Mathlib.Order.Basic

/-!
# Runs of a deterministic state machine

A system is a step function `step : σ → α → σ`; a run feeds it a list of inputs. `Along P` says
that every step of a run starts from a state and with an input that meet `P`, and
`run_invariant` is the induction rule every safety result of the development is an instance
of: an invariant that holds at the start and is kept by each admissible step holds wherever an
admissible run ends. `along_of_run` turns the same induction into a statement about every step
of the run.
-/

namespace TwowCore.Lib

variable {σ α : Type*}

/-- The state after feeding the inputs to the machine, first input first. -/
def run (step : σ → α → σ) (start : σ) (inputs : List α) : σ :=
  inputs.foldl step start

/-- Every step of the run from `start` meets `P` of the state before it and its input. -/
def Along (P : σ → α → Prop) (step : σ → α → σ) : σ → List α → Prop
  | _, [] => True
  | state, input :: rest => P state input ∧ Along P step (step state input) rest

@[simp] theorem run_nil (step : σ → α → σ) (start : σ) : run step start [] = start := rfl

@[simp] theorem run_cons (step : σ → α → σ) (start : σ) (input : α) (rest : List α) :
    run step start (input :: rest) = run step (step start input) rest := rfl

@[simp] theorem along_nil (P : σ → α → Prop) (step : σ → α → σ) (start : σ) :
    Along P step start [] := trivial

@[simp] theorem along_cons (P : σ → α → Prop) (step : σ → α → σ) (start : σ) (input : α)
    (rest : List α) :
    Along P step start (input :: rest) ↔ P start input ∧ Along P step (step start input) rest :=
  Iff.rfl

/-- The steps of two lists are those of the first and then those of the second. -/
theorem along_append {P : σ → α → Prop} {step : σ → α → σ} {start : σ} {first second : List α} :
    Along P step start (first ++ second) ↔
      Along P step start first ∧ Along P step (run step start first) second := by
  induction first generalizing start with
  | nil => simp
  | cons input rest ih =>
      rw [List.cons_append, along_cons, along_cons, run_cons, ih, and_assoc]

/-- What every step satisfies, every step of a run satisfies. -/
theorem along_of_forall {step : σ → α → σ} {P : σ → α → Prop} (h : ∀ state input, P state input)
    (start : σ) (inputs : List α) : Along P step start inputs := by
  induction inputs generalizing start with
  | nil => trivial
  | cons input rest ih => exact ⟨h start input, ih _⟩

/-- What the inputs satisfy in every state, every step of a run satisfies. -/
theorem along_of_mem {step : σ → α → σ} {P : σ → α → Prop} {inputs : List α}
    (h : ∀ input ∈ inputs, ∀ state, P state input) (start : σ) : Along P step start inputs := by
  induction inputs generalizing start with
  | nil => trivial
  | cons input rest ih =>
      exact ⟨h input List.mem_cons_self start, ih (fun a ha => h a (List.mem_cons_of_mem _ ha)) _⟩

/-- An invariant kept by every admissible step holds at the end of an admissible run. -/
theorem run_invariant {step : σ → α → σ} {Ok : σ → α → Prop} (Inv : σ → Prop)
    (hstep : ∀ state input, Ok state input → Inv state → Inv (step state input))
    {start : σ} {inputs : List α} (hstart : Inv start) (hok : Along Ok step start inputs) :
    Inv (run step start inputs) := by
  induction inputs generalizing start with
  | nil => exact hstart
  | cons input rest ih => exact ih (hstep start input hok.1 hstart) hok.2

/-- What an admissible step from an invariant state always satisfies, every step of an
admissible run satisfies. -/
theorem along_of_run {step : σ → α → σ} {Ok Q : σ → α → Prop} {Inv : σ → Prop}
    (hstep : ∀ state input, Ok state input → Inv state → Inv (step state input))
    (hQ : ∀ state input, Ok state input → Inv state → Q state input)
    {start : σ} {inputs : List α} (hstart : Inv start) (hok : Along Ok step start inputs) :
    Along Q step start inputs := by
  induction inputs generalizing start with
  | nil => trivial
  | cons input rest ih =>
      exact ⟨hQ start input hok.1 hstart, ih (hstep start input hok.1 hstart) hok.2⟩

/-- A relation between two machines kept by each admissible step of the first and the same step of the
second holds at the end of an admissible run. -/
theorem run_simulates {τ : Type*} {step : σ → α → σ} {step' : τ → α → τ} {Ok : σ → α → Prop} {R : σ → τ → Prop}
    (hstep : ∀ state state' input, Ok state input → R state state' → R (step state input) (step' state' input))
    {start : σ} {start' : τ} {inputs : List α} (hstart : R start start') (hok : Along Ok step start inputs) :
    R (run step start inputs) (run step' start' inputs) := by
  induction inputs generalizing start start' with
  | nil => exact hstart
  | cons input rest ih => exact ih (hstep start start' input hok.1 hstart) hok.2

/-- A condition on steps may be replaced by a weaker one. -/
theorem Along.mono {step : σ → α → σ} {P Q : σ → α → Prop}
    (h : ∀ state input, P state input → Q state input)
    {start : σ} {inputs : List α} (hP : Along P step start inputs) :
    Along Q step start inputs := by
  induction inputs generalizing start with
  | nil => trivial
  | cons input rest ih => exact ⟨h start input hP.1, ih hP.2⟩

section Crossing

/-- At most one step of the run meets `P`. -/
def AtMostOnce (P : σ → α → Prop) (step : σ → α → σ) : σ → List α → Prop
  | _, [] => True
  | state, input :: rest =>
      (P state input → Along (fun state input => ¬P state input) step (step state input) rest) ∧
        AtMostOnce P step (step state input) rest

variable {P : σ → α → Prop} {step : σ → α → σ} {start : σ} {inputs : List α}
  (measure : σ → ℕ) (level : ℕ)

/-- Above the level that a step with `P` has to cross, no step has `P`. -/
theorem along_not_of_above
    (h : Along (fun state input => measure state ≤ measure (step state input) ∧
      (P state input → measure state < level)) step start inputs)
    (habove : level ≤ measure start) :
    Along (fun state input => ¬P state input) step start inputs := by
  induction inputs generalizing start with
  | nil => trivial
  | cons input rest ih =>
      obtain ⟨⟨hmono, hcross⟩, hrest⟩ := h
      refine ⟨fun hP => ?_, ih hrest (Nat.le_trans habove hmono)⟩
      have hbelow := hcross hP
      omega

/-- A step that crosses a level of something that never sinks is taken at most once. -/
theorem atMostOnce_of_crossing
    (h : Along (fun state input => measure state ≤ measure (step state input) ∧
      (P state input → measure state < level ∧ level ≤ measure (step state input)))
      step start inputs) :
    AtMostOnce P step start inputs := by
  induction inputs generalizing start with
  | nil => trivial
  | cons input rest ih =>
      refine ⟨fun hP => ?_, ih h.2⟩
      have hweak := h.2.mono fun state input hstep =>
        And.intro hstep.1 fun hP => (hstep.2 hP).1
      exact along_not_of_above measure level hweak (h.1.2 hP).2

end Crossing

end TwowCore.Lib
