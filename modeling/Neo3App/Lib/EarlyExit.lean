import Mathlib.Tactic.Common

/-!
# Computations with early exit

A C function that updates a structure in place and returns a status at many
points: the state written before a return is kept.  `EarlyExit` is the monad
of such functions; the lemmas say how a sequence succeeds or leaves.
-/

namespace Neo3App.Lib

universe u

variable {σ ε α β : Type}

/-- A computation on a state that may leave early with a code. -/
def EarlyExit (σ ε α : Type) : Type :=
  σ → Except ε α × σ

namespace EarlyExit

instance : Monad (EarlyExit σ ε) where
  pure value := fun state => (.ok value, state)
  bind first next := fun state =>
    match first state with
    | (.ok value, state) => next value state
    | (.error code, state) => (.error code, state)

/-- Leave with `code` when `condition` holds. -/
def exitIf (condition : Prop) [Decidable condition] (code : ε) :
    EarlyExit σ ε Unit :=
  fun state => if condition then (.error code, state) else (.ok (), state)

def exitWhen (condition : σ → Bool) (code : ε) : EarlyExit σ ε Unit :=
  fun state =>
    if condition state then (.error code, state) else (.ok (), state)

def runIf (condition : Prop) [Decidable condition]
    (body : EarlyExit σ ε Unit) : EarlyExit σ ε Unit :=
  if condition then body else pure ()

def assign (change : σ → σ) : EarlyExit σ ε Unit :=
  fun state => (.ok (), change state)

def inspect (view : σ → α) : EarlyExit σ ε α :=
  fun state => (.ok (view state), state)

@[simp]
theorem pure_apply (value : α) (state : σ) :
    (pure value : EarlyExit σ ε α) state = (.ok value, state) :=
  rfl

@[simp]
theorem assign_apply (change : σ → σ) (state : σ) :
    (assign change : EarlyExit σ ε Unit) state = (.ok (), change state) :=
  rfl

@[simp]
theorem inspect_apply (view : σ → α) (state : σ) :
    (inspect view : EarlyExit σ ε α) state = (.ok (view state), state) :=
  rfl

theorem exitWhen_eq_ok_iff
    {condition : σ → Bool} {code : ε} {state final : σ} {result : Unit} :
    exitWhen condition code state = (.ok result, final) ↔
      condition state = false ∧ final = state := by
  unfold exitWhen
  by_cases refusal : condition state = true
  · simp [refusal]
  · simp [refusal, eq_comm]

theorem exitIf_eq_ok_iff
    {condition : Prop} [Decidable condition] {code : ε} {state final : σ}
    {result : Unit} :
    exitIf condition code state = (.ok result, final) ↔
      ¬ condition ∧ final = state := by
  unfold exitIf
  by_cases refusal : condition
  · simp [refusal]
  · simp [refusal, eq_comm]

theorem bind_of_ok
    {first : EarlyExit σ ε α} {next : α → EarlyExit σ ε β}
    {state middle : σ} {value : α}
    (run : first state = (.ok value, middle)) :
    (first >>= next) state = next value middle := by
  change (match first state with
    | (.ok value, state) => next value state
    | (.error code, state) => (.error code, state)) = _
  rw [run]

theorem bind_of_error
    {first : EarlyExit σ ε α} {next : α → EarlyExit σ ε β}
    {state final : σ} {code : ε}
    (run : first state = (.error code, final)) :
    (first >>= next) state = (.error code, final) := by
  change (match first state with
    | (.ok value, state) => next value state
    | (.error code, state) => (.error code, state)) = _
  rw [run]

theorem exitIf_bind
    (condition : Prop) [Decidable condition] (code : ε)
    (next : Unit → EarlyExit σ ε β) (state : σ) :
    (exitIf condition code >>= next) state =
      if condition then (.error code, state) else next () state := by
  by_cases refusal : condition
  · rw [if_pos refusal]
    exact bind_of_error (by rw [exitIf, if_pos refusal])
  · rw [if_neg refusal]
    exact bind_of_ok (by rw [exitIf, if_neg refusal])

theorem exitWhen_bind
    (condition : σ → Bool) (code : ε) (next : Unit → EarlyExit σ ε β)
    (state : σ) :
    (exitWhen condition code >>= next) state =
      if condition state = true then (.error code, state)
      else next () state :=
  exitIf_bind (condition state = true) code next state

theorem assign_bind
    (change : σ → σ) (next : Unit → EarlyExit σ ε β) (state : σ) :
    ((assign change : EarlyExit σ ε Unit) >>= next) state =
      next () (change state) :=
  bind_of_ok (assign_apply change state)

theorem bind_assoc {γ : Type}
    (first : EarlyExit σ ε α) (second : α → EarlyExit σ ε β)
    (third : β → EarlyExit σ ε γ) :
    (first >>= second) >>= third =
      first >>= fun value => second value >>= third := by
  funext state
  rcases run : first state with ⟨code | value, middle⟩
  · rw [bind_of_error (bind_of_error run), bind_of_error run]
  · rw [bind_of_ok run]
    rcases rerun : second value middle with ⟨code | result, last⟩
    · rw [bind_of_error ((bind_of_ok run).trans rerun), bind_of_error rerun]
    · rw [bind_of_ok ((bind_of_ok run).trans rerun), bind_of_ok rerun]

/-- A sequence succeeds when both halves do. -/
theorem bind_eq_ok_iff
    {first : EarlyExit σ ε α} {next : α → EarlyExit σ ε β}
    {state final : σ} {result : β} :
    (first >>= next) state = (.ok result, final) ↔
      ∃ value middle, first state = (.ok value, middle) ∧
        next value middle = (.ok result, final) := by
  rcases run : first state with ⟨code | value, middle⟩
  · rw [bind_of_error run]
    simp
  · rw [bind_of_ok run]
    simp

/-- A sequence leaves where one of its halves does. -/
theorem bind_eq_error_iff
    {first : EarlyExit σ ε α} {next : α → EarlyExit σ ε β}
    {state final : σ} {code : ε} :
    (first >>= next) state = (.error code, final) ↔
      first state = (.error code, final) ∨
        ∃ value middle, first state = (.ok value, middle) ∧
          next value middle = (.error code, final) := by
  rcases run : first state with ⟨left | value, middle⟩
  · rw [bind_of_error run]
    simp
  · rw [bind_of_ok run]
    simp

/-- The computation does not change `view`, whether it succeeds or leaves. -/
def Keeps (view : σ → β) (body : EarlyExit σ ε α) : Prop :=
  ∀ state, view (body state).2 = view state

/-- Every code that the computation leaves with is an allowed one. -/
def Exits (allowed : ε → Prop) (body : EarlyExit σ ε α) : Prop :=
  ∀ state final code, body state = (.error code, final) → allowed code

theorem Keeps.bind
    {γ : Type} {view : σ → γ} {first : EarlyExit σ ε α}
    {next : α → EarlyExit σ ε β}
    (firstKeeps : first.Keeps view)
    (nextKeeps : ∀ value, (next value).Keeps view) :
    (first >>= next).Keeps view := by
  intro state
  have kept := firstKeeps state
  rcases run : first state with ⟨code | value, middle⟩
  · rw [bind_of_error run, ← kept, run]
  · rw [bind_of_ok run, nextKeeps value middle, ← kept, run]

/-- A second half that keeps `view` leaves it as the first half did. -/
theorem view_bind
    {γ : Type} {view : σ → γ} (first : EarlyExit σ ε α)
    {next : α → EarlyExit σ ε β}
    (nextKeeps : ∀ value, (next value).Keeps view) (state : σ) :
    view ((first >>= next) state).2 = view (first state).2 := by
  rcases run : first state with ⟨code | value, middle⟩
  · rw [bind_of_error run]
  · rw [bind_of_ok run, nextKeeps value middle]

theorem Keeps.assign
    {view : σ → β} {change : σ → σ}
    (kept : ∀ state, view (change state) = view state) :
    (assign change : EarlyExit σ ε Unit).Keeps view :=
  kept

theorem Keeps.inspect {γ : Type} {view : σ → γ} (look : σ → α) :
    (inspect look : EarlyExit σ ε α).Keeps view :=
  fun _ => rfl

theorem Keeps.exitIf
    {view : σ → β} (condition : Prop) [Decidable condition] (code : ε) :
    (exitIf condition code).Keeps view := by
  intro state
  unfold EarlyExit.exitIf
  split <;> rfl

theorem Keeps.exitWhen
    {view : σ → β} (condition : σ → Bool) (code : ε) :
    (exitWhen condition code).Keeps view := by
  intro state
  unfold EarlyExit.exitWhen
  split <;> rfl

theorem Keeps.pure {view : σ → β} (value : α) :
    (pure value : EarlyExit σ ε α).Keeps view :=
  fun _ => rfl

theorem Keeps.runIf
    {view : σ → β} (condition : Prop) [Decidable condition]
    {body : EarlyExit σ ε Unit} (bodyKeeps : body.Keeps view) :
    (runIf condition body).Keeps view := by
  unfold EarlyExit.runIf
  split
  · exact bodyKeeps
  · exact Keeps.pure ()

theorem Exits.bind
    {allowed : ε → Prop} {first : EarlyExit σ ε α}
    {next : α → EarlyExit σ ε β}
    (firstExits : first.Exits allowed)
    (nextExits : ∀ value, (next value).Exits allowed) :
    (first >>= next).Exits allowed := by
  intro state final code run
  rcases bind_eq_error_iff.mp run with
    firstRun | ⟨value, middle, _, nextRun⟩
  · exact firstExits _ _ _ firstRun
  · exact nextExits value _ _ _ nextRun

theorem Exits.pure {allowed : ε → Prop} (value : α) :
    (pure value : EarlyExit σ ε α).Exits allowed := by
  intro state final code run
  cases run

theorem Exits.assign {allowed : ε → Prop} (change : σ → σ) :
    (assign change : EarlyExit σ ε Unit).Exits allowed := by
  intro state final code run
  cases run

theorem Exits.exitWhen
    {allowed : ε → Prop} (condition : σ → Bool) {code : ε}
    (isAllowed : allowed code) :
    (exitWhen condition code).Exits allowed := by
  intro state final left run
  unfold EarlyExit.exitWhen at run
  split at run
  · cases run
    exact isAllowed
  · cases run

theorem Exits.exitIf
    {allowed : ε → Prop} (condition : Prop) [Decidable condition] {code : ε}
    (isAllowed : allowed code) :
    (exitIf condition code : EarlyExit σ ε Unit).Exits allowed := by
  intro state final left run
  unfold EarlyExit.exitIf at run
  split at run
  · cases run
    exact isAllowed
  · cases run

theorem Exits.runIf
    {allowed : ε → Prop} (condition : Prop) [Decidable condition]
    {body : EarlyExit σ ε Unit} (bodyExits : body.Exits allowed) :
    (runIf condition body).Exits allowed := by
  unfold EarlyExit.runIf
  split
  · exact bodyExits
  · exact Exits.pure ()

end EarlyExit

end Neo3App.Lib
