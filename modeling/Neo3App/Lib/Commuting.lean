import Neo3App.Lib.EarlyExit

/-!
# Computations that commute with a change of the state

Changing the state before a computation with early exit comes to the same as
changing it afterwards, unless the computation leaves with a code that the
change may turn into something else.  The other codes are final.
-/

namespace Neo3App.Lib.EarlyExit

variable {σ ε α β : Type}

/-- From the `good` states the computation commutes with `change`, except
where it leaves with a code that is not `final`. -/
structure Commutes (good : σ → Prop) (change : σ → σ) (final : ε → Prop)
    (body : EarlyExit σ ε α) : Prop where
  ok : ∀ {state after : σ} {value : α}, good state →
    body state = (.ok value, after) →
      good after ∧ body (change state) = (.ok value, change after)
  error : ∀ {state after : σ} {code : ε}, good state →
    body state = (.error code, after) → final code →
      body (change state) = (.error code, change after)

variable {good : σ → Prop} {change : σ → σ} {final : ε → Prop}

theorem Commutes.bind
    {first : EarlyExit σ ε α} {next : α → EarlyExit σ ε β}
    (head : first.Commutes good change final)
    (tail : ∀ value, (next value).Commutes good change final) :
    (first >>= next).Commutes good change final := by
  constructor
  · intro state after value isGood run
    obtain ⟨middleValue, middle, firstRun, nextRun⟩ :=
      bind_eq_ok_iff.mp run
    obtain ⟨middleGood, moved⟩ := head.ok isGood firstRun
    rw [bind_of_ok moved]
    exact (tail middleValue).ok middleGood nextRun
  · intro state after code isGood run isFinal
    rcases bind_eq_error_iff.mp run with
      firstRun | ⟨middleValue, middle, firstRun, nextRun⟩
    · exact bind_of_error (head.error isGood firstRun isFinal)
    · obtain ⟨middleGood, moved⟩ := head.ok isGood firstRun
      rw [bind_of_ok moved]
      exact (tail middleValue).error middleGood nextRun isFinal

theorem Commutes.pure (value : α) :
    (pure value : EarlyExit σ ε α).Commutes good change final := by
  constructor
  · intro state after result isGood run
    cases run
    exact ⟨isGood, rfl⟩
  · intro state after code _ run
    cases run

theorem Commutes.assign
    {other : σ → σ} (stays : ∀ {state}, good state → good (other state))
    (same : ∀ {state}, good state →
      other (change state) = change (other state)) :
    (assign other : EarlyExit σ ε Unit).Commutes good change final := by
  constructor
  · intro state after value isGood run
    cases run
    rw [assign_apply, same isGood]
    exact ⟨stays isGood, rfl⟩
  · intro state after code _ run
    cases run

/-- A condition that the change does not affect. -/
theorem Commutes.exitWhen
    {condition : σ → Bool} (code : ε)
    (same : ∀ {state}, good state →
      condition (change state) = condition state) :
    (exitWhen condition code).Commutes good change final := by
  constructor
  · intro state after value isGood run
    obtain ⟨passes, rfl⟩ := exitWhen_eq_ok_iff.mp run
    exact ⟨isGood, exitWhen_eq_ok_iff.mpr ⟨(same isGood).trans passes, rfl⟩⟩
  · intro state after left isGood run _
    unfold EarlyExit.exitWhen at run ⊢
    rw [same isGood]
    split at run
    next refused =>
      cases run
      rw [if_pos refused]
    next => cases run

theorem Commutes.exitIf (condition : Prop) [Decidable condition] (code : ε) :
    (exitIf condition code).Commutes good change final := by
  constructor
  · intro state after value isGood run
    obtain ⟨passes, rfl⟩ := exitIf_eq_ok_iff.mp run
    exact ⟨isGood, exitIf_eq_ok_iff.mpr ⟨passes, rfl⟩⟩
  · intro state after left _ run _
    unfold EarlyExit.exitIf at run ⊢
    split at run
    next refused =>
      cases run
      rw [if_pos refused]
    next => cases run

theorem Commutes.runIf
    (condition : Prop) [Decidable condition] {body : EarlyExit σ ε Unit}
    (commutes : body.Commutes good change final) :
    (runIf condition body).Commutes good change final := by
  unfold EarlyExit.runIf
  split
  · exact commutes
  · exact Commutes.pure ()

end Neo3App.Lib.EarlyExit
