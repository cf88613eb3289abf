import Neo3App.Lib.Paired

/-!
# Guarded computations

A computation with early exit, written with a check before every access that
could go wrong; a failed check leaves with a fault.  `Guards` says that no
check fails, and that the computation is otherwise the one without checks.
-/

namespace Neo3App.Lib.EarlyExit

variable {σ ε φ α β : Type}

def fail (fault : φ) : EarlyExit σ (φ ⊕ ε) α :=
  fun state => (.error (.inl fault), state)

/-- Leave with a fault unless the state satisfies `condition`. -/
def demand (condition : σ → Bool) (fault : φ) : EarlyExit σ (φ ⊕ ε) Unit :=
  exitWhen (fun state => !condition state) (.inl fault)

/-- A part of the state that may be missing, for a fault. -/
def lookUp (view : σ → Except φ α) : EarlyExit σ (φ ⊕ ε) α :=
  fun state =>
    match view state with
    | .ok value => (.ok value, state)
    | .error fault => (.error (.inl fault), state)

/-- The computation as one that could leave with a fault, but does not. -/
def faultless (body : EarlyExit σ ε α) : EarlyExit σ (φ ⊕ ε) α :=
  fun state =>
    match body state with
    | (.ok value, final) => (.ok value, final)
    | (.error code, final) => (.error (.inr code), final)

theorem faultless_of_ok
    {body : EarlyExit σ ε α} {state final : σ} {value : α}
    (run : body state = (.ok value, final)) :
    (faultless body : EarlyExit σ (φ ⊕ ε) α) state = (.ok value, final) := by
  rw [faultless, run]

theorem faultless_of_error
    {body : EarlyExit σ ε α} {state final : σ} {code : ε}
    (run : body state = (.error code, final)) :
    (faultless body : EarlyExit σ (φ ⊕ ε) α) state =
      (.error (.inr code), final) := by
  rw [faultless, run]

theorem faultless_bind
    (first : EarlyExit σ ε α) (next : α → EarlyExit σ ε β) :
    (faultless (first >>= next) : EarlyExit σ (φ ⊕ ε) β) =
      faultless first >>= fun value => faultless (next value) := by
  funext state
  rcases run : first state with ⟨code | value, middle⟩
  · rw [faultless_of_error (bind_of_error run),
      bind_of_error (faultless_of_error run)]
  · rw [bind_of_ok (faultless_of_ok run), faultless, bind_of_ok run]
    rfl

theorem faultless_exitIf
    (condition : Prop) [Decidable condition] (code : ε) :
    (faultless (exitIf condition code) : EarlyExit σ (φ ⊕ ε) Unit) =
      exitIf condition (.inr code) := by
  funext state
  by_cases refusal : condition
  · simp only [faultless, exitIf, refusal, if_true]
  · simp only [faultless, exitIf, refusal, if_false]

theorem faultless_exitWhen (condition : σ → Bool) (code : ε) :
    (faultless (exitWhen condition code) : EarlyExit σ (φ ⊕ ε) Unit) =
      exitWhen condition (.inr code) := by
  funext state
  cases refusal : condition state with
  | true => simp only [faultless, exitWhen, refusal, if_true]
  | false =>
      simp only [faultless, exitWhen, refusal, Bool.false_eq_true, if_false]

def Both (property : σ → Prop) (first second : σ) : Prop :=
  first = second ∧ property first

/-- Where `before` holds no check of `guarded` fails: it is `body`, and a
success leaves `after`. -/
abbrev Guards (before : σ → Prop) (after : α → σ → Prop)
    (guarded : EarlyExit σ (φ ⊕ ε) α) (body : EarlyExit σ ε α) : Prop :=
  Agree (Both before) Eq (fun value => Both (after value)) guarded
    (faultless body)

variable {before : σ → Prop}

/-- A guarded computation is the one without checks. -/
theorem Guards.eq
    {after : α → σ → Prop} {guarded : EarlyExit σ (φ ⊕ ε) α}
    {body : EarlyExit σ ε α} (guards : Guards before after guarded body)
    {state : σ} (holds : before state) :
    guarded state = faultless body state := by
  have outcome := guards.run (show Both before state state from ⟨rfl, holds⟩)
  generalize guarded state = result at outcome ⊢
  generalize (faultless body : EarlyExit σ (φ ⊕ ε) α) state = other
    at outcome ⊢
  cases outcome with
  | ok related => rw [related.1]
  | error related => rw [related]

/-- A success of the computation without checks leaves what is promised. -/
theorem Guards.leaves
    {after : α → σ → Prop} {guarded : EarlyExit σ (φ ⊕ ε) α}
    {body : EarlyExit σ ε α} (guards : Guards before after guarded body)
    {state final : σ} {value : α} (holds : before state)
    (run : body state = (.ok value, final)) : after value final := by
  have outcome := guards.run (show Both before state state from ⟨rfl, holds⟩)
  rw [guards.eq holds, faultless_of_ok run] at outcome
  cases outcome with
  | ok related => exact related.2

theorem Guards.of_eq
    {after : α → σ → Prop} {guarded : EarlyExit σ (φ ⊕ ε) α}
    {body : EarlyExit σ ε α}
    (equal : ∀ {state}, before state → guarded state = faultless body state)
    (leaves : ∀ {state final value}, before state →
      body state = (.ok value, final) → after value final) :
    Guards before after guarded body := by
  refine ⟨?_⟩
  rintro state _ ⟨rfl, holds⟩
  rw [equal holds]
  rcases run : body state with ⟨code | value, final⟩
  · rw [faultless_of_error run]
    exact .error rfl
  · rw [faultless_of_ok run]
    exact .ok ⟨rfl, leaves holds run⟩

theorem Guards.bind
    {after : β → σ → Prop} (middle : α → σ → Prop)
    {guarded : EarlyExit σ (φ ⊕ ε) α} {body : EarlyExit σ ε α}
    {guardedNext : α → EarlyExit σ (φ ⊕ ε) β} {next : α → EarlyExit σ ε β}
    (head : Guards before middle guarded body)
    (tail : ∀ value,
      Guards (middle value) after (guardedNext value) (next value)) :
    Guards before after (guarded >>= guardedNext) (body >>= next) := by
  unfold Guards
  rw [faultless_bind]
  exact Agree.bind _ head tail

theorem Guards.pure
    {after : α → σ → Prop} (value : α)
    (holds : ∀ {state}, before state → after value state) :
    Guards before after (pure value : EarlyExit σ (φ ⊕ ε) α)
      (pure value : EarlyExit σ ε α) :=
  Agree.pure value fun both => ⟨both.1, holds both.2⟩

theorem Guards.assign
    {after : Unit → σ → Prop} {change : σ → σ}
    (holds : ∀ {state}, before state → after () (change state)) :
    Guards before after (assign change : EarlyExit σ (φ ⊕ ε) Unit)
      (assign change : EarlyExit σ ε Unit) :=
  Agree.assign fun both => ⟨congrArg change both.1, holds both.2⟩

/-- A check of the source; what follows may assume that it fails. -/
theorem Guards.exitIf
    {after : α → σ → Prop} (condition : Prop) [Decidable condition]
    (code : ε) {guardedNext : Unit → EarlyExit σ (φ ⊕ ε) α}
    {next : Unit → EarlyExit σ ε α}
    (tail : ¬ condition → Guards before after (guardedNext ()) (next ())) :
    Guards before after (exitIf condition (.inr code) >>= guardedNext)
      (EarlyExit.exitIf condition code >>= next) := by
  unfold Guards
  rw [faultless_bind, faultless_exitIf]
  exact Agree.guard condition _ (fun both => both.1) tail

theorem Guards.exitWhen
    {after : Unit → σ → Prop} (condition : σ → Bool) (code : ε)
    (holds : ∀ {state}, condition state = false → before state →
      after () state) :
    Guards before after
      (EarlyExit.exitWhen condition (.inr code) :
        EarlyExit σ (φ ⊕ ε) Unit)
      (EarlyExit.exitWhen condition code) := by
  unfold Guards
  rw [faultless_exitWhen]
  exact
    Agree.exitWhen _ (fun both => congrArg condition both.1)
      (fun both => both.1) fun passed both =>
        ⟨both.1, holds passed both.2⟩

theorem Guards.runIf
    (condition : Prop) [Decidable condition] {after : Unit → σ → Prop}
    {guarded : EarlyExit σ (φ ⊕ ε) Unit} {body : EarlyExit σ ε Unit}
    (guards : Guards before after guarded body)
    (skips : ∀ {state}, before state → after () state) :
    Guards before after (runIf condition guarded)
      (EarlyExit.runIf condition body) := by
  unfold EarlyExit.runIf
  split
  · exact guards
  · exact Guards.pure () skips

theorem demand_of_true
    {condition : σ → Bool} {fault : φ} {state : σ}
    (holds : condition state = true) :
    (demand condition fault : EarlyExit σ (φ ⊕ ε) Unit) state =
      (.ok (), state) := by
  rw [demand, EarlyExit.exitWhen, holds]
  rfl

theorem lookUp_of_ok
    {view : σ → Except φ α} {state : σ} {value : α}
    (found : view state = .ok value) :
    (lookUp view : EarlyExit σ (φ ⊕ ε) α) state = (.ok value, state) := by
  rw [lookUp, found]

theorem inspect_bind
    (view : σ → α) (next : α → EarlyExit σ ε β) (state : σ) :
    ((inspect view : EarlyExit σ ε α) >>= next) state =
      next (view state) state :=
  bind_of_ok (inspect_apply view state)

end Neo3App.Lib.EarlyExit
