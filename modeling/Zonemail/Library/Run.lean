import Mathlib.Data.List.Basic

/-!
# Runs of a partial step function

A labelled machine is a function `step` that takes a state and a label and gives, when the label
is enabled, the events it emits and the next state. `Run` is a finite execution all of whose steps
meet a side condition on the state before the step and the label taken, with the events it
emitted. `Run.invariant` and `Run.invariant_trace` are the induction rules: what one step keeps, a
run keeps. `Run.rest_of_stuck` is the rule for machines in which no state allows two labels.
`execute` computes a run from a list of labels, so that a concrete run can be evaluated.
-/

namespace Library

variable {State Label Event : Type}

/-- Finitely many steps from `start`, each meeting `allowed`, with the concatenation of the events
they emitted. -/
inductive Run (step : State → Label → Option (List Event × State))
    (allowed : State → Label → Prop) (start : State) : List Event → State → Prop where
  | refl : Run step allowed start [] start
  | snoc {trace events : List Event} {middle finish : State} (label : Label) :
      Run step allowed start trace middle → allowed middle label →
      step middle label = some (events, finish) →
      Run step allowed start (trace ++ events) finish

variable {step : State → Label → Option (List Event × State)}
  {allowed weaker : State → Label → Prop} {start middle finish : State}
  {trace first second : List Event}

/-- A property of the trace and the state that every allowed step keeps holds after every run. -/
theorem Run.invariant_trace (property : List Event → State → Prop)
    (hrun : Run step allowed start trace finish) (hstart : property [] start)
    (hstep : ∀ trace state label events next, property trace state → allowed state label →
      step state label = some (events, next) → property (trace ++ events) next) :
    property trace finish := by
  induction hrun with
  | refl => exact hstart
  | snoc label _ hallowed h ih => exact hstep _ _ label _ _ ih hallowed h

/-- A property of the state that every allowed step keeps holds after every run. -/
theorem Run.invariant (property : State → Prop)
    (hrun : Run step allowed start trace finish) (hstart : property start)
    (hstep : ∀ state label events next, property state → allowed state label →
      step state label = some (events, next) → property next) : property finish :=
  hrun.invariant_trace (fun _ state => property state) hstart
    (fun _ state label events next h => hstep state label events next h)

/-- A run is also a run under any weaker side condition. -/
theorem Run.mono (hrun : Run step allowed start trace finish)
    (hle : ∀ state label, allowed state label → weaker state label) :
    Run step weaker start trace finish := by
  induction hrun with
  | refl => exact .refl
  | snoc label _ hallowed h ih => exact .snoc label ih (hle _ _ hallowed) h

/-- Two runs one after the other are one run. -/
theorem Run.append (hfirst : Run step allowed start first middle)
    (hsecond : Run step allowed middle second finish) :
    Run step allowed start (first ++ second) finish := by
  induction hsecond with
  | refl => simpa using hfirst
  | snoc label _ hallowed h ih =>
      rw [← List.append_assoc]
      exact .snoc label ih hallowed h

/-- A run is empty or begins with an allowed step. -/
theorem Run.cases_head (hrun : Run step allowed start trace finish) :
    (trace = [] ∧ finish = start) ∨ ∃ label events next rest, allowed start label ∧
      step start label = some (events, next) ∧ Run step allowed next rest finish ∧
      trace = events ++ rest := by
  induction hrun with
  | refl => exact .inl ⟨rfl, rfl⟩
  | snoc label _ hallowed h ih =>
      rcases ih with ⟨rfl, rfl⟩ | ⟨first, head, next, rest, hfirst, hhead, hrest, rfl⟩
      · exact .inr ⟨label, _, _, [], hallowed, h, .refl, by simp⟩
      · exact .inr ⟨first, head, next, _, hfirst, hhead, .snoc label hrest hallowed h,
          List.append_assoc ..⟩

/-- When no state allows two labels, a run to a state that allows none goes on from wherever another
run has led. -/
theorem Run.rest_of_stuck (hrun : Run step allowed start first middle)
    (htotal : Run step allowed start trace finish)
    (hone : ∀ state label other, allowed state label → allowed state other → label = other)
    (hstuck : ∀ label, ¬ allowed finish label) :
    ∃ rest, Run step allowed middle rest finish ∧ trace = first ++ rest := by
  induction hrun with
  | refl => exact ⟨trace, htotal, rfl⟩
  | snoc label _ hallowed h ih =>
      obtain ⟨rest, hrest, rfl⟩ := ih
      rcases hrest.cases_head with ⟨-, rfl⟩ | ⟨other, events, next, rest, hother, hstep, hnext, rfl⟩
      · exact absurd hallowed (hstuck label)
      · cases hone _ _ _ hallowed hother
        cases h.symm.trans hstep
        exact ⟨rest, hnext, (List.append_assoc ..).symm⟩

/-- Where every step emits one event, a run splits at each of them: into a run up to it, the step
that emitted it, and a run from there on. -/
theorem Run.split {earlier later : List Event} {event : Event}
    (hrun : Run step allowed start trace finish)
    (hone : ∀ state label events next, step state label = some (events, next) →
      ∃ event, events = [event]) (htrace : trace = earlier ++ event :: later) :
    ∃ middle label next, Run step allowed start earlier middle ∧
      step middle label = some ([event], next) ∧ Run step allowed next later finish := by
  induction hrun generalizing later with
  | refl => simp at htrace
  | snoc label hrun hallowed h ih =>
      obtain ⟨last, rfl⟩ := hone _ _ _ _ h
      rcases List.eq_nil_or_concat later with rfl | ⟨front, other, rfl⟩
      · obtain ⟨rfl, hlast⟩ := List.append_inj' htrace rfl
        cases hlast
        exact ⟨_, label, _, hrun, h, .refl⟩
      · rw [List.concat_eq_append, ← List.cons_append, ← List.append_assoc] at htrace
        obtain ⟨hfront, hlast⟩ := List.append_inj' htrace rfl
        cases hlast
        obtain ⟨middle, first, next, hbefore, hstep, hafter⟩ := ih hfront
        rw [List.concat_eq_append]
        exact ⟨middle, first, next, hbefore, hstep, .snoc label hafter hallowed h⟩

/-- The events and the last state of the run that takes these labels in order, or `none` when one
of them is not enabled. -/
def execute (step : State → Label → Option (List Event × State)) :
    State → List Label → Option (List Event × State)
  | state, [] => some ([], state)
  | state, label :: labels =>
      match step state label with
      | none => none
      | some (events, next) =>
          match execute step next labels with
          | none => none
          | some (trace, finish) => some (events ++ trace, finish)

/-- Every step that takes these labels in order meets the side condition. -/
def AllowedAlong (step : State → Label → Option (List Event × State))
    (allowed : State → Label → Prop) : State → List Label → Prop
  | _, [] => True
  | state, label :: labels =>
      allowed state label ∧
        match step state label with
        | none => True
        | some (_, next) => AllowedAlong step allowed next labels

/-- A computed run whose steps meet the side condition is a run under it. -/
theorem execute_run_of_allowed {labels : List Label}
    (h : execute step start labels = some (trace, finish))
    (hallowed : AllowedAlong step allowed start labels) :
    Run step allowed start trace finish := by
  induction labels generalizing start trace with
  | nil =>
      cases h
      exact .refl
  | cons label labels ih =>
      cases hs : step start label with
      | none => simp [execute, hs] at h
      | some result =>
          obtain ⟨events, next⟩ := result
          cases hr : execute step next labels with
          | none => simp [execute, hs, hr] at h
          | some rest =>
              obtain ⟨tail, last⟩ := rest
              simp only [execute, hs, hr, Option.some.injEq, Prod.mk.injEq] at h
              obtain ⟨rfl, rfl⟩ := h
              simp only [AllowedAlong, hs] at hallowed
              have hhead : Run step allowed start ([] ++ events) next :=
                .snoc label .refl hallowed.1 hs
              exact Run.append hhead (ih hr hallowed.2)

/-- When nothing is asked of the steps, every computed run is allowed. -/
theorem allowedAlong_of_forall {labels : List Label} (h : ∀ state label, allowed state label) :
    AllowedAlong step allowed start labels := by
  induction labels generalizing start with
  | nil => trivial
  | cons label labels ih =>
      refine ⟨h start label, ?_⟩
      split
      · trivial
      · exact ih

/-- A computed run is a run, when no side condition is asked of its steps. -/
theorem execute_run {labels : List Label}
    (h : execute step start labels = some (trace, finish)) :
    Run step (fun _ _ => True) start trace finish :=
  execute_run_of_allowed h (allowedAlong_of_forall (fun _ _ => trivial))

end Library
