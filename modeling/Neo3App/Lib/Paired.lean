import Neo3App.Lib.EarlyExit

/-!
# Two runs of a computation

Two computations with early exit agree when, started in related states, they
leave with one code or succeed with one value, and end in related states.
The rules compose agreement along a sequence; what the relation does not
mention cannot influence the outcome.
-/

namespace Neo3App.Lib.EarlyExit

variable {σ τ ε α β : Type}

/-- Two results with the same outcome and related states. -/
inductive SameOutcome (left : σ → τ → Prop) (after : α → σ → τ → Prop) :
    Except ε α × σ → Except ε α × τ → Prop where
  | ok {value : α} {first : σ} {second : τ}
      (related : after value first second) :
      SameOutcome left after (.ok value, first) (.ok value, second)
  | error {code : ε} {first : σ} {second : τ}
      (related : left first second) :
      SameOutcome left after (.error code, first) (.error code, second)

/-- The computations agree on states related by `before`: they exit in states
related by `left` and succeed in states related by `after`. -/
structure Agree (before : σ → τ → Prop) (left : σ → τ → Prop)
    (after : α → σ → τ → Prop) (first : EarlyExit σ ε α)
    (second : EarlyExit τ ε α) : Prop where
  run : ∀ {s : σ} {t : τ}, before s t →
    SameOutcome left after (first s) (second t)

variable {before left : σ → τ → Prop}

theorem Agree.bind
    {after : β → σ → τ → Prop} (middle : α → σ → τ → Prop)
    {first : EarlyExit σ ε α} {second : EarlyExit τ ε α}
    {next : α → EarlyExit σ ε β} {other : α → EarlyExit τ ε β}
    (head : Agree before left middle first second)
    (tail : ∀ value, Agree (middle value) left after (next value)
      (other value)) :
    Agree before left after (first >>= next) (second >>= other) := by
  refine ⟨fun {s t} related => ?_⟩
  have outcome := head.run related
  rcases firstRun : first s with ⟨code | value, s'⟩ <;>
    rcases secondRun : second t with ⟨code' | value', t'⟩ <;>
      rw [firstRun, secondRun] at outcome
  · cases outcome with
    | error related =>
        rw [bind_of_error firstRun, bind_of_error secondRun]
        exact .error related
  · cases outcome
  · cases outcome
  · cases outcome with
    | ok related =>
        rw [bind_of_ok firstRun, bind_of_ok secondRun]
        exact (tail value).run related

theorem Agree.pure
    {after : α → σ → τ → Prop} (value : α)
    (related : ∀ {s t}, before s t → after value s t) :
    Agree before left after (pure value : EarlyExit σ ε α)
      (pure value : EarlyExit τ ε α) :=
  ⟨fun same => .ok (related same)⟩

theorem Agree.assign
    {after : Unit → σ → τ → Prop} {change : σ → σ} {other : τ → τ}
    (related : ∀ {s t}, before s t → after () (change s) (other t)) :
    Agree before left after (assign change : EarlyExit σ ε Unit)
      (assign other : EarlyExit τ ε Unit) :=
  ⟨fun same => .ok (related same)⟩

/-- A look that shows the same value in both states. -/
theorem Agree.inspect
    {view : σ → α} {other : τ → α}
    (equal : ∀ {s t}, before s t → view s = other t) :
    Agree before left (fun _ => before) (inspect view : EarlyExit σ ε α)
      (inspect other) := by
  refine ⟨fun {s t} same => ?_⟩
  rw [inspect_apply, inspect_apply, ← equal same]
  exact .ok same

/-- A condition on values that do not depend on the states; what follows may
assume that it fails. -/
theorem Agree.guard
    {after : α → σ → τ → Prop} (condition : Prop) [Decidable condition]
    (code : ε) {next : Unit → EarlyExit σ ε α}
    {other : Unit → EarlyExit τ ε α}
    (leaves : ∀ {s t}, before s t → left s t)
    (tail : ¬ condition → Agree before left after (next ()) (other ())) :
    Agree before left after (exitIf condition code >>= next)
      (exitIf condition code >>= other) := by
  refine ⟨fun {s t} same => ?_⟩
  rw [exitIf_bind, exitIf_bind]
  by_cases refusal : condition
  · rw [if_pos refusal, if_pos refusal]
    exact .error (leaves same)
  · rw [if_neg refusal, if_neg refusal]
    exact (tail refusal).run same

/-- A condition that holds in both states or in neither. -/
theorem Agree.exitWhen
    {after : Unit → σ → τ → Prop} {condition : σ → Bool}
    {other : τ → Bool} (code : ε)
    (equal : ∀ {s t}, before s t → condition s = other t)
    (leaves : ∀ {s t}, before s t → left s t)
    (stays : ∀ {s t}, condition s = false → before s t → after () s t) :
    Agree before left after (exitWhen condition code)
      (exitWhen other code) := by
  refine ⟨fun {s t} same => ?_⟩
  unfold EarlyExit.exitWhen
  rw [← equal same]
  by_cases refusal : condition s = true
  · rw [if_pos refusal, if_pos refusal]
    exact .error (leaves same)
  · rw [if_neg refusal, if_neg refusal]
    exact .ok (stays (by simpa using refusal) same)

theorem Agree.exitIf
    (condition : Prop) [Decidable condition] (code : ε)
    {after : Unit → σ → τ → Prop}
    (leaves : ∀ {s t}, before s t → left s t)
    (stays : ∀ {s t}, before s t → after () s t) :
    Agree before left after (exitIf condition code)
      (exitIf condition code) := by
  refine ⟨fun {s t} same => ?_⟩
  unfold EarlyExit.exitIf
  split
  · exact .error (leaves same)
  · exact .ok (stays same)

theorem Agree.runIf
    (condition : Prop) [Decidable condition] {after : Unit → σ → τ → Prop}
    {first : EarlyExit σ ε Unit} {second : EarlyExit τ ε Unit}
    (body : Agree before left after first second)
    (skips : ∀ {s t}, before s t → after () s t) :
    Agree before left after (runIf condition first)
      (runIf condition second) := by
  unfold EarlyExit.runIf
  split
  · exact body
  · exact Agree.pure () skips

end Neo3App.Lib.EarlyExit
