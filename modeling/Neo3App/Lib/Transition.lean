import Mathlib.Data.List.Induction

/-!
# Runs of a deterministic system

A system starts in one state and answers each input.  A run is a list of
inputs; its trace remembers the state in which each input arrived.  A
property of one turn, given the trace before it, holds throughout a run when
an invariant of traces and states implies it.
-/

namespace Neo3App.Lib

variable {σ ι ο : Type}

/-- A system that answers each input. -/
structure Transition (σ ι ο : Type) where
  start : σ
  step : σ → ι → σ × ο

/-- An input and the state in which it arrives. -/
structure Turn (σ ι : Type) where
  state : σ
  input : ι
  deriving DecidableEq

namespace Transition

variable (system : Transition σ ι ο)

def after (inputs : List ι) : σ :=
  inputs.foldl (fun state input => (system.step state input).1) system.start

/-- The turns from a state on. -/
def traceFrom (state : σ) : List ι → List (Turn σ ι)
  | [] => []
  | input :: inputs =>
      ⟨state, input⟩ :: traceFrom (system.step state input).1 inputs

def trace (inputs : List ι) : List (Turn σ ι) :=
  system.traceFrom system.start inputs

/-- Every turn of a run satisfies `property`, given the turns before. -/
def Throughout (property : List (Turn σ ι) → Turn σ ι → Prop)
    (inputs : List ι) : Prop :=
  ∀ before input later, inputs = before ++ input :: later →
    property (system.trace before) ⟨system.after before, input⟩

theorem after_append_singleton (inputs : List ι) (input : ι) :
    system.after (inputs ++ [input]) =
      (system.step (system.after inputs) input).1 := by
  simp [after]

theorem traceFrom_append_singleton
    (state : σ) (inputs : List ι) (input : ι) :
    system.traceFrom state (inputs ++ [input]) =
      system.traceFrom state inputs ++
        [⟨inputs.foldl (fun state input => (system.step state input).1)
          state, input⟩] := by
  induction inputs generalizing state with
  | nil =>
      rfl
  | cons first inputs ih =>
      rw [List.cons_append, traceFrom, traceFrom, ih, List.foldl_cons,
        List.cons_append]

theorem trace_append_singleton (inputs : List ι) (input : ι) :
    system.trace (inputs ++ [input]) =
      system.trace inputs ++ [⟨system.after inputs, input⟩] :=
  system.traceFrom_append_singleton system.start inputs input

/-- The state and the answers after some inputs from a state on. -/
def runFrom (state : σ) : List ι → σ × List ο
  | [] => (state, [])
  | input :: inputs =>
      ((runFrom (system.step state input).1 inputs).1,
        (system.step state input).2 ::
          (runFrom (system.step state input).1 inputs).2)

theorem runFrom_cons
    {state next : σ} {input : ι} {output : ο}
    (step : system.step state input = (next, output)) (inputs : List ι) :
    system.runFrom state (input :: inputs) =
      ((system.runFrom next inputs).1,
        output :: (system.runFrom next inputs).2) := by
  rw [runFrom, step]

theorem runFrom_append
    {state middle final : σ} {inputs more : List ι} {outputs others : List ο}
    (first : system.runFrom state inputs = (middle, outputs))
    (second : system.runFrom middle more = (final, others)) :
    system.runFrom state (inputs ++ more) = (final, outputs ++ others) := by
  induction inputs generalizing state outputs with
  | nil =>
      cases first
      exact second
  | cons input inputs ih =>
      cases first
      rw [List.cons_append, runFrom, ih rfl, List.cons_append]

/-- The answers are those of the turns. -/
theorem runFrom_snd (state : σ) (inputs : List ι) :
    (system.runFrom state inputs).2 =
      (system.traceFrom state inputs).map fun turn =>
        (system.step turn.state turn.input).2 := by
  induction inputs generalizing state with
  | nil => rfl
  | cons input inputs ih =>
      rw [runFrom, traceFrom, List.map_cons, ih]

theorem after_append (first second : List ι) :
    system.after (first ++ second) =
      (system.runFrom (system.after first) second).1 := by
  induction second generalizing first with
  | nil =>
      rw [List.append_nil]
      rfl
  | cons input inputs ih =>
      rw [List.append_cons, ih, after_append_singleton]
      rfl

theorem after_eq_runFrom (inputs : List ι) :
    system.after inputs = (system.runFrom system.start inputs).1 :=
  system.after_append [] inputs

variable {system}

/-- Turns of a part of a run are turns of the run. -/
theorem trace_subset (inputs more : List ι) :
    system.trace inputs ⊆ system.trace (inputs ++ more) := by
  induction more using List.reverseRecOn with
  | nil =>
      rw [List.append_nil]
      exact List.Subset.refl _
  | append_singleton more input ih =>
      rw [← List.append_assoc, trace_append_singleton]
      exact List.Subset.trans ih (List.subset_append_left _ _)

theorem Throughout.before
    {property : List (Turn σ ι) → Turn σ ι → Prop} {inputs more : List ι}
    (throughout : system.Throughout property (inputs ++ more)) :
    system.Throughout property inputs := by
  intro before input later split
  apply throughout before input (later ++ more)
  rw [split, List.append_assoc, List.cons_append]

/-- An invariant of traces and states. -/
structure Invariant (system : Transition σ ι ο)
    (allowed : List (Turn σ ι) → Turn σ ι → Prop)
    (holds : List (Turn σ ι) → σ → Prop) : Prop where
  initial : holds [] system.start
  preserved : ∀ {history : List (Turn σ ι)} {turn : Turn σ ι},
    holds history turn.state → allowed history turn →
      holds (history ++ [turn]) (system.step turn.state turn.input).1

/-- An invariant holds after every run whose turns are allowed. -/
theorem Invariant.run
    {allowed : List (Turn σ ι) → Turn σ ι → Prop}
    {holds : List (Turn σ ι) → σ → Prop}
    (invariant : system.Invariant allowed holds) (inputs : List ι)
    (throughout : system.Throughout allowed inputs) :
    holds (system.trace inputs) (system.after inputs) := by
  induction inputs using List.reverseRecOn with
  | nil =>
      exact invariant.initial
  | append_singleton inputs input ih =>
      rw [trace_append_singleton, after_append_singleton]
      exact
        invariant.preserved (ih throughout.before)
          (throughout inputs input [] rfl)

/-- Two invariants hold together. -/
theorem Invariant.and
    {allowed : List (Turn σ ι) → Turn σ ι → Prop}
    {holds others : List (Turn σ ι) → σ → Prop}
    (invariant : system.Invariant allowed holds)
    (other : system.Invariant allowed others) :
    system.Invariant allowed
      fun history state => holds history state ∧ others history state where
  initial := ⟨invariant.initial, other.initial⟩
  preserved := by
    rintro history turn ⟨first, second⟩ isAllowed
    exact
      ⟨invariant.preserved first isAllowed, other.preserved second isAllowed⟩

/-- An invariant that needs no condition holds under any. -/
theorem Invariant.under
    {holds : List (Turn σ ι) → σ → Prop}
    (invariant : system.Invariant (fun _ _ => True) holds)
    (allowed : List (Turn σ ι) → Turn σ ι → Prop) :
    system.Invariant allowed holds where
  initial := invariant.initial
  preserved := fun before _ => invariant.preserved before trivial

/-- An invariant of the states holds in every state of the history. -/
theorem Invariant.recorded
    {allowed : List (Turn σ ι) → Turn σ ι → Prop} {property : σ → Prop}
    (invariant : system.Invariant allowed fun _ state => property state) :
    system.Invariant allowed
      fun history state =>
        property state ∧ ∀ turn ∈ history, property turn.state where
  initial := ⟨invariant.initial, fun _ member => (by cases member)⟩
  preserved := by
    rintro history turn ⟨now, before⟩ isAllowed
    refine ⟨invariant.preserved now isAllowed, fun other member => ?_⟩
    rcases List.mem_append.mp member with earlier | last
    · exact before other earlier
    · rw [List.mem_singleton.mp last]
      exact now

/-- A property of turns that follows from an invariant holds throughout. -/
theorem Invariant.throughout
    {allowed property : List (Turn σ ι) → Turn σ ι → Prop}
    {holds : List (Turn σ ι) → σ → Prop}
    (invariant : system.Invariant allowed holds)
    (implies : ∀ {history : List (Turn σ ι)} {turn : Turn σ ι},
      holds history turn.state → allowed history turn →
        property history turn)
    {inputs : List ι} (throughout : system.Throughout allowed inputs) :
    system.Throughout property inputs := by
  intro before input later split
  have reached : holds (system.trace before) (system.after before) := by
    apply invariant.run before
    rw [split] at throughout
    exact throughout.before
  exact implies reached (throughout before input later split)

/-- A property that ignores the history is one of the turns of the trace. -/
theorem throughout_iff_trace
    {property : Turn σ ι → Prop} {inputs : List ι} :
    system.Throughout (fun _ turn => property turn) inputs ↔
      ∀ turn ∈ system.trace inputs, property turn := by
  induction inputs using List.reverseRecOn with
  | nil =>
      constructor
      · intro _ turn member
        cases member
      · intro _ before input later split
        exact absurd split (by simp)
  | append_singleton inputs input ih =>
      rw [trace_append_singleton]
      constructor
      · intro throughout turn member
        rcases List.mem_append.mp member with earlier | last
        · exact ih.mp throughout.before turn earlier
        · rw [List.mem_singleton.mp last]
          exact throughout inputs input [] rfl
      · intro every before input' later split
        rcases List.eq_nil_or_concat later with rfl | ⟨rest, last, rfl⟩
        · obtain ⟨rfl, same⟩ := List.append_inj' split rfl
          cases same
          exact every _ (List.mem_append_right _ (List.mem_singleton_self _))
        · have earlier :=
            ih.mpr fun turn member =>
              every turn (List.mem_append_left _ member)
          rw [List.concat_eq_append, ← List.cons_append,
            ← List.append_assoc] at split
          obtain ⟨rfl, _⟩ := List.append_inj' split rfl
          exact earlier before input' rest rfl

end Transition

/-- The last turn of a kind in a history, with what came before and after
it. -/
structure LastTurn (kind : Turn σ ι → Prop)
    (earlier : List (Turn σ ι)) (turn : Turn σ ι)
    (later history : List (Turn σ ι)) : Prop where
  split : history = earlier ++ turn :: later
  isKind : kind turn
  isLast : ∀ next ∈ later, ¬ kind next

theorem LastTurn.append
    {kind : Turn σ ι → Prop} {earlier later history : List (Turn σ ι)}
    {turn next : Turn σ ι} (last : LastTurn kind earlier turn later history)
    (other : ¬ kind next) :
    LastTurn kind earlier turn (later ++ [next]) (history ++ [next]) where
  split := by
    rw [last.split, List.append_assoc, List.cons_append]
  isKind := last.isKind
  isLast := by
    intro turn member
    rcases List.mem_append.mp member with before | now
    · exact last.isLast turn before
    · rw [List.mem_singleton.mp now]
      exact other

theorem LastTurn.new
    {kind : Turn σ ι → Prop} (history : List (Turn σ ι))
    {turn : Turn σ ι} (isKind : kind turn) :
    LastTurn kind history turn [] (history ++ [turn]) where
  split := rfl
  isKind := isKind
  isLast := by
    intro next member
    cases member

/-- The kind matters only on the turns of the history. -/
theorem LastTurn.congr
    {kind other : Turn σ ι → Prop} {earlier later history : List (Turn σ ι)}
    {turn : Turn σ ι} (last : LastTurn kind earlier turn later history)
    (same : ∀ next ∈ history, kind next ↔ other next) :
    LastTurn other earlier turn later history where
  split := last.split
  isKind := by
    refine (same turn ?_).mp last.isKind
    rw [last.split]
    exact List.mem_append_right _ (List.mem_cons_self ..)
  isLast := by
    intro next member isOther
    refine last.isLast next member ((same next ?_).mpr isOther)
    rw [last.split]
    exact List.mem_append_right _ (List.mem_cons_of_mem _ member)

theorem LastTurn.mem
    {kind : Turn σ ι → Prop} {earlier later history : List (Turn σ ι)}
    {turn : Turn σ ι} (last : LastTurn kind earlier turn later history) :
    turn ∈ history := by
  rw [last.split]
  exact List.mem_append_right _ (List.mem_cons_self ..)

/-- The last turn of a kind after one more turn is this one or the earlier
one. -/
theorem LastTurn.of_append_singleton
    {kind : Turn σ ι → Prop} {earlier later history : List (Turn σ ι)}
    {turn next : Turn σ ι}
    (last : LastTurn kind earlier turn later (history ++ [next])) :
    (earlier = history ∧ turn = next ∧ later = []) ∨
      ∃ rest, later = rest ++ [next] ∧ ¬ kind next ∧
        LastTurn kind earlier turn rest history := by
  have split := last.split
  rcases List.eq_nil_or_concat later with rfl | ⟨rest, final, rfl⟩
  · obtain ⟨same, single⟩ := List.append_inj' split rfl
    cases single
    exact .inl ⟨same.symm, rfl, rfl⟩
  · rw [List.concat_eq_append] at split last ⊢
    rw [← List.cons_append, ← List.append_assoc] at split
    obtain ⟨same, single⟩ := List.append_inj' split rfl
    cases single
    refine .inr ⟨rest, rfl, last.isLast _ (by simp), same, last.isKind, ?_⟩
    intro other member
    exact last.isLast other (List.mem_append_left _ member)

/-- Turns of another kind do not change the last turn of a kind. -/
theorem LastTurn.restrict
    {kind : Turn σ ι → Prop} {earlier later history more : List (Turn σ ι)}
    {turn : Turn σ ι}
    (last : LastTurn kind earlier turn later (history ++ more))
    (others : ∀ next ∈ more, ¬ kind next) :
    ∃ rest, later = rest ++ more ∧
      LastTurn kind earlier turn rest history := by
  induction more using List.reverseRecOn generalizing later with
  | nil =>
      rw [List.append_nil] at last
      exact ⟨later, (List.append_nil _).symm, last⟩
  | append_singleton more next ih =>
      rw [← List.append_assoc] at last
      rcases last.of_append_singleton with
        ⟨_, rfl, _⟩ | ⟨rest, rfl, _, before⟩
      · exact absurd last.isKind (others _ (by simp))
      · obtain ⟨shorter, rfl, restricted⟩ :=
          ih before fun other member =>
            others other (List.mem_append_left _ member)
        exact ⟨shorter, List.append_assoc .., restricted⟩

/-- A history has one last turn of a kind. -/
theorem LastTurn.unique
    {kind : Turn σ ι → Prop} {history : List (Turn σ ι)}
    {earlier later before between : List (Turn σ ι)} {turn other : Turn σ ι}
    (last : LastTurn kind earlier turn later history)
    (also : LastTurn kind before other between history) :
    before = earlier ∧ other = turn ∧ between = later := by
  have split : history = (earlier ++ [turn]) ++ later := by
    rw [last.split, List.append_assoc, List.singleton_append]
  rw [split] at also
  obtain ⟨rest, rfl, restricted⟩ := also.restrict last.isLast
  rcases restricted.of_append_singleton with
    ⟨rfl, rfl, rfl⟩ | ⟨_, _, notKind, _⟩
  · exact ⟨rfl, rfl, rfl⟩
  · exact absurd last.isKind notKind

/-- An element that does not occur before the end of a list occurs there
only. -/
theorem eq_of_append_singleton_eq
    {α : Type} {items before later : List α} {item : α}
    (split : items ++ [item] = before ++ item :: later)
    (fresh : item ∉ items) : before = items ∧ later = [] := by
  rcases List.eq_nil_or_concat later with rfl | ⟨rest, final, rfl⟩
  · exact ⟨(List.append_inj' split rfl).1.symm, rfl⟩
  · rw [List.concat_eq_append, ← List.cons_append,
      ← List.append_assoc] at split
    have same := (List.append_inj' split rfl).1
    rw [same] at fresh
    exact absurd (by simp) fresh

end Neo3App.Lib
