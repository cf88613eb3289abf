import Neo3App.Lib.Transition

/-!
# Systems in lockstep

Two systems with the same inputs whose states stay related: what is observed
of their answers is the same, or one of them writes the answers of the other
into a record.  A system that can be set back forgets what came before where
the state it is set back to is related to its first one.
-/

namespace Neo3App.Lib

variable {σ τ ι ο π ρ : Type}

/-- An input takes related states to related states, and the same is observed
of the two answers, where the turn of the first system is allowed. -/
structure Lockstep (first : Transition σ ι ο) (second : Transition τ ι π)
    (allowed : Turn σ ι → Prop) (related : σ → τ → Prop)
    (observe : ο → ρ) (observe' : π → ρ) : Prop where
  states : ∀ {state : σ} {other : τ} {input : ι},
    related state other → allowed ⟨state, input⟩ →
      related (first.step state input).1 (second.step other input).1
  answers : ∀ {state : σ} {other : τ} {input : ι},
    related state other → allowed ⟨state, input⟩ →
      observe (first.step state input).2 =
        observe' (second.step other input).2

namespace Lockstep

variable {first : Transition σ ι ο} {second : Transition τ ι π}
  {allowed : Turn σ ι → Prop} {related : σ → τ → Prop}
  {observe : ο → ρ} {observe' : π → ρ}

/-- The same is observed of two runs from related states. -/
theorem runFrom
    (lockstep : Lockstep first second allowed related observe observe')
    {state : σ} {other : τ} (start : related state other) {inputs : List ι}
    (every : ∀ turn ∈ first.traceFrom state inputs, allowed turn) :
    related (first.runFrom state inputs).1 (second.runFrom other inputs).1 ∧
      (first.runFrom state inputs).2.map observe =
        (second.runFrom other inputs).2.map observe' := by
  induction inputs generalizing state other with
  | nil =>
      exact ⟨start, rfl⟩
  | cons input inputs ih =>
      rw [Transition.traceFrom, List.forall_mem_cons] at every
      obtain ⟨now, later⟩ := every
      obtain ⟨states, answers⟩ := ih (lockstep.states start now) later
      refine ⟨states, ?_⟩
      rw [Transition.runFrom, Transition.runFrom, List.map_cons,
        List.map_cons, lockstep.answers start now, answers]

/-- Two systems that start in related states. -/
theorem run
    (lockstep : Lockstep first second allowed related observe observe')
    (start : related first.start second.start) {inputs : List ι}
    (every : ∀ turn ∈ first.trace inputs, allowed turn) :
    related (first.after inputs) (second.after inputs) ∧
      (first.runFrom first.start inputs).2.map observe =
        (second.runFrom second.start inputs).2.map observe' := by
  rw [first.after_eq_runFrom, second.after_eq_runFrom]
  exact lockstep.runFrom start every

end Lockstep

/-- An allowed turn takes related states to related states and adds the
answers of `spec` to the record of `impl`. -/
structure Recording (impl : Transition σ ι ο) (spec : Transition τ ι π)
    (allowed : Turn σ ι → Prop) (related : σ → τ → Prop)
    (record : σ → List ρ) (answers : π → List ρ) : Prop where
  states : ∀ {state : σ} {other : τ} {input : ι},
    related state other → allowed ⟨state, input⟩ →
      related (impl.step state input).1 (spec.step other input).1
  adds : ∀ {state : σ} {other : τ} {input : ι},
    related state other → allowed ⟨state, input⟩ →
      record (impl.step state input).1 =
        record state ++ answers (spec.step other input).2

/-- A run adds what the other system answers, in its order. -/
theorem Recording.runFrom
    {impl : Transition σ ι ο} {spec : Transition τ ι π}
    {allowed : Turn σ ι → Prop} {related : σ → τ → Prop}
    {record : σ → List ρ} {answers : π → List ρ}
    (recording : Recording impl spec allowed related record answers)
    {state : σ} {other : τ} (start : related state other) {inputs : List ι}
    (every : ∀ turn ∈ impl.traceFrom state inputs, allowed turn) :
    related (impl.runFrom state inputs).1 (spec.runFrom other inputs).1 ∧
      record (impl.runFrom state inputs).1 =
        record state ++ (spec.runFrom other inputs).2.flatMap answers := by
  induction inputs generalizing state other with
  | nil =>
      exact ⟨start, (List.append_nil _).symm⟩
  | cons input inputs ih =>
      rw [Transition.traceFrom, List.forall_mem_cons] at every
      obtain ⟨now, later⟩ := every
      obtain ⟨states, records⟩ := ih (recording.states start now) later
      refine ⟨states, ?_⟩
      rw [Transition.runFrom, Transition.runFrom, records,
        recording.adds start now, List.flatMap_cons, List.append_assoc]

namespace Transition

/-- The system with a restart, the input `none`, which sets it back. -/
def restarting (system : Transition σ ι ο) (setBack : σ → σ) :
    Transition σ (Option ι) (Option ο) where
  start := system.start
  step := fun state input =>
    match input with
    | none => (setBack state, none)
    | some input =>
        ((system.step state input).1, some (system.step state input).2)

variable {system : Transition σ ι ο} {setBack : σ → σ}

/-- Between two restarts the system is the one without restarts. -/
theorem restarting_runFrom (state : σ) (inputs : List ι) :
    (system.restarting setBack).runFrom state (inputs.map some) =
      ((system.runFrom state inputs).1,
        (system.runFrom state inputs).2.map some) := by
  induction inputs generalizing state with
  | nil =>
      rfl
  | cons input inputs ih =>
      have step : (system.restarting setBack).step state (some input) =
          ((system.step state input).1, some (system.step state input).2) :=
        rfl
      rw [List.map_cons, runFrom_cons _ step, ih]
      rfl

/-- After a restart the system is a new one, whatever came before. -/
theorem restarting_forgets
    {related : σ → σ → Prop} {observe : ο → ρ}
    (lockstep :
      Lockstep system system (fun _ => True) related observe observe)
    (fresh : ∀ state, related (setBack state) system.start)
    (before : List (Option ι)) (inputs : List ι) :
    let state := (system.restarting setBack).after (before ++ [none])
    related (system.runFrom state inputs).1 (system.after inputs) ∧
      (system.runFrom state inputs).2.map observe =
        (system.runFrom system.start inputs).2.map observe := by
  rw [after_append_singleton, system.after_eq_runFrom]
  exact lockstep.runFrom (fresh _) fun _ _ => trivial

end Transition

end Neo3App.Lib
