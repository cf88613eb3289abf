import Neo3App.Session.Browsing
import Neo3App.Session.ReviewIndices
import Neo3App.Ui.SignerWalk

/-!
# Every review can be answered

From any step of a review the user reaches its last step with the right
button and answers with both; the Approve step, where there is one, is to its
left.  The review of a transfer must not have been disturbed for this.
-/

namespace Neo3App

open Neo3App.Lib

/-- The most presses that lead from a screen of a review to the last one. -/
def maxReviewPresses : Nat :=
  10 + maxSignerScreens - 1

/-- The review on the screen can be refused, and approved where it has an
Approve step, and the menu follows. -/
structure Answerable (sdk : Sdk) (app : App) : Prop where
  refuses :
    let run := (device sdk).runFrom app
      (List.replicate maxReviewPresses (.press .right) ++ [.confirm])
    run.1.ui.flow = .menu ∧
      run.2 = List.replicate maxReviewPresses [] ++ [ioSendSw swDeny]
  approves : .approve ∈ app.ui.steps →
    let run := (device sdk).runFrom app
      (List.replicate maxReviewPresses (.press .right) ++
        [.press .left, .confirm])
    run.1.ui.flow = .menu ∧
      run.2 = List.replicate (maxReviewPresses + 1) [] ++
        [(gValidateCallback sdk true app).2]

/-- Since the review with signers that is on the screen started, no path and
no data have come. -/
def ReviewKept (sdk : Sdk) (history : List DeviceTurn) (ui : Ui) : Prop :=
  .generic ∈ ui.steps → ∀ earlier review later,
    LastTurn (Turn.StartsReview sdk) earlier review later history →
      ∀ next ∈ later, ¬ next.CarriesPath ∧ ¬ next.TakesData

variable {sdk : Sdk} {context : GlobalCtx}

/-- What follows some presses and both buttons. -/
theorem runFrom_answer (app : App) (presses : List Press) :
    let pressed : App :=
      ⟨app.context, pressAll (uiPress app.context) app.ui presses⟩
    (device sdk).runFrom app (presses.map Event.press ++ [.confirm]) =
      ((uiConfirm sdk pressed).1,
        List.replicate presses.length [] ++ [(uiConfirm sdk pressed).2]) := by
  have browsed := @runFrom_presses sdk app presses
  exact (device sdk).runFrom_append browsed rfl

/-- The callback of a review refuses with one word. -/
theorem gValidateCallback_false
    {app : App} {action : ActionValidate}
    (callback : app.ui.validateCallback = some action) :
    (gValidateCallback sdk false app).1.ui.flow = .menu ∧
      (gValidateCallback sdk false app).2 = ioSendSw swDeny := by
  unfold gValidateCallback
  rw [callback]
  cases action <;> exact ⟨rfl, rfl⟩

/-- The approval depends on the context and the callback only. -/
theorem gValidateCallback_true
    {app : App} {ui : Ui} {action : ActionValidate}
    (callback : app.ui.validateCallback = some action)
    (same : ui.validateCallback = app.ui.validateCallback) :
    (gValidateCallback sdk true ⟨app.context, ui⟩).1.ui.flow = .menu ∧
      (gValidateCallback sdk true ⟨app.context, ui⟩).2 =
        (gValidateCallback sdk true app).2 := by
  unfold gValidateCallback
  dsimp only
  rw [same, callback]
  cases action with
  | pubkey => exact ⟨rfl, rfl⟩
  | transaction => exact ⟨rfl, rfl⟩

section Answers

variable {app : App} {action : ActionValidate} {presses : List Press}

theorem callback_of_presses :
    (pressAll (uiPress app.context) app.ui presses).validateCallback =
      app.ui.validateCallback :=
  Ui.callback_of_review (pressAll_review _ _ presses)

/-- Both buttons on a step that refuses. -/
theorem runFrom_refuse
    (callback : app.ui.validateCallback = some action)
    (step : (pressAll (uiPress app.context) app.ui presses).step =
        some .reject ∨
      (pressAll (uiPress app.context) app.ui presses).step = some .abort) :
    let run :=
      (device sdk).runFrom app (presses.map Event.press ++ [.confirm])
    run.1.ui.flow = .menu ∧
      run.2 = List.replicate presses.length [] ++ [ioSendSw swDeny] := by
  have refuses :=
    @uiConfirm_refused sdk
      ⟨app.context, pressAll (uiPress app.context) app.ui presses⟩ step
  obtain ⟨menu, effects⟩ :=
    @gValidateCallback_false sdk
      ⟨app.context, pressAll (uiPress app.context) app.ui presses⟩ _
      (callback_of_presses.trans callback)
  dsimp only
  rw [runFrom_answer, refuses, effects]
  exact ⟨menu, rfl⟩

/-- Both buttons on the Approve step. -/
theorem runFrom_approve
    (callback : app.ui.validateCallback = some action)
    (step : (pressAll (uiPress app.context) app.ui presses).step =
      some .approve) :
    let run :=
      (device sdk).runFrom app (presses.map Event.press ++ [.confirm])
    run.1.ui.flow = .menu ∧
      run.2 = List.replicate presses.length [] ++
        [(gValidateCallback sdk true app).2] := by
  have approves :
      uiConfirm sdk
          ⟨app.context, pressAll (uiPress app.context) app.ui presses⟩ =
        gValidateCallback sdk true
          ⟨app.context, pressAll (uiPress app.context) app.ui presses⟩ := by
    simp only [uiConfirm, step]
  obtain ⟨menu, effects⟩ :=
    @gValidateCallback_true sdk app
      (pressAll (uiPress app.context) app.ui presses) _ callback
      callback_of_presses
  dsimp only
  rw [runFrom_answer, approves, effects]
  exact ⟨menu, rfl⟩

/-- A review is answerable where the right button leads to a step that
refuses, and the left one from there to the Approve step. -/
theorem Answerable.of_steps
    (callback : app.ui.validateCallback = some action)
    (isPresses : presses = List.replicate maxReviewPresses .right)
    (last : (pressAll (uiPress app.context) app.ui presses).step =
        some .reject ∨
      (pressAll (uiPress app.context) app.ui presses).step = some .abort)
    (before : .approve ∈ app.ui.steps →
      (pressAll (uiPress app.context) app.ui (presses ++ [.left])).step =
        some .approve) :
    Answerable sdk app := by
  have events : presses.map Event.press =
      List.replicate maxReviewPresses (.press .right) := by
    rw [isPresses, List.map_replicate]
  have length : presses.length = maxReviewPresses := by
    rw [isPresses, List.length_replicate]
  constructor
  · rw [← events, ← length]
    exact runFrom_refuse callback last
  · intro hasApprove
    have run := @runFrom_approve sdk _ _ _ callback (before hasApprove)
    rw [List.map_append, List.append_assoc, List.length_append, events,
      length, List.length_singleton, List.map_singleton,
      List.singleton_append] at run
    exact run

end Answers

theorem Ui.steps_of_review
    {before after : Ui} (same : after.review = before.review) :
    after.steps = before.steps := by
  have flows := congrArg Ui.steps same
  exact flows

theorem FlowMove.index_lt
    (move : FlowMove) {ui : Ui} (inside : ui.index < ui.steps.length) :
    move.index ui < ui.steps.length := by
  cases move with
  | next =>
      rw [FlowMove.index]
      split
      next more => exact more
      next => exact inside
  | prev | edgecase => exact Nat.lt_of_le_of_lt (Nat.sub_le _ _) inside

theorem uxFlowRelayout_inside
    (depth : Nat) {ui : Ui} (inside : ui.index < ui.steps.length) :
    (uxFlowRelayout context depth ui).index <
      (uxFlowRelayout context depth ui).steps.length := by
  induction depth generalizing ui with
  | zero => exact inside
  | succ depth ih =>
      have moved (isUpper : Bool) :
          (displayNextState context isUpper ui).2.index
              (displayNextState context isUpper ui).1 <
            (displayNextState context isUpper ui).1.steps.length := by
        apply FlowMove.index_lt
        rw [displayNextState_index,
          Ui.steps_of_review (displayNextState_review context isUpper ui)]
        exact inside
      rw [uxFlowRelayout]
      dsimp only
      split
      next => exact ih (moved true)
      next => exact ih (moved false)
      next => exact inside

theorem uiPress_inside
    (button : Press) {ui : Ui} (inside : ui.index < ui.steps.length) :
    (uiPress context button ui).index <
      (uiPress context button ui).steps.length := by
  cases button with
  | left =>
      rw [uiPress, uxFlowPrev]
      split
      next =>
        apply uxFlowRelayout_inside
        exact Nat.lt_of_le_of_lt (Nat.sub_le _ _) inside
      next => exact inside
  | right =>
      rw [uiPress, uxFlowNext]
      split
      next more =>
        apply uxFlowRelayout_inside
        exact more
      next => exact inside

theorem length_createTransactionFlow_pos (tx : Transaction) :
    0 < (createTransactionFlow tx).length := by
  rw [createTransactionFlow]
  split <;> decide

/-- The index of a review is that of one of its steps. -/
theorem inside_invariant (sdk : Sdk) :
    (device sdk).Invariant (fun _ _ => True)
      fun _ app => app.context.Wf ∧
        (app.ui.flow ≠ .menu → app.ui.index < app.ui.steps.length) := by
  apply device_invariant
  · exact fun review => absurd rfl review
  intro history app after event effects wf inside _ _ outcome
  cases outcome with
  | answered | magicGuarded | chunkGuarded | chunkTooLong | ignored
  | pathRefused | pathAccepted | keyRefused | keySent | magicMissing
  | magicRead | chunkTaken | parseFailed =>
      exact inside
  | keyShown =>
      exact fun _ => Nat.zero_lt_succ 3
  | reviewStarted =>
      exact fun _ => length_createTransactionFlow_pos _
  | pressed button =>
      intro review
      have same := uiPress_review app.context button app.ui
      exact uiPress_inside button (inside (Ui.flow_of_review same ▸ review))
  | keyApproved | keyDenied | signed | signFailed | denied =>
      exact fun review => absurd rfl review

section Reviews

variable {app : App} {action : ActionValidate}

/-- A review whose steps are all displayed. -/
theorem Answerable.of_plain
    (callback : app.ui.validateCallback = some action)
    (plain : PlainFlow app.ui.steps)
    (inside : app.ui.index < app.ui.steps.length)
    (few : app.ui.steps.length ≤ maxReviewPresses + 1)
    (isLast : app.ui.steps[app.ui.steps.length - 1]? = some .reject ∨
      app.ui.steps[app.ui.steps.length - 1]? = some .abort)
    (isBefore : .approve ∈ app.ui.steps →
      app.ui.steps[app.ui.steps.length - 1 - 1]? = some .approve) :
    Answerable sdk app := by
  have step (presses : List Press) :
      (pressAll (uiPress app.context) app.ui presses).step =
        app.ui.steps[cursorFrom app.ui.steps.length app.ui.index presses]? := by
    rw [plain.pressAll_from]
    rfl
  have atEnd := cursorFrom_replicate_right inside
    (show app.ui.steps.length ≤ app.ui.index + maxReviewPresses + 1 by omega)
  refine .of_steps callback rfl ?_ fun hasApprove => ?_
  · rw [step, atEnd]
    exact isLast
  · rw [step, cursorFrom_append_singleton, atEnd]
    exact isBefore hasApprove

theorem length_reviewScreens_le
    (sizes : ReviewSizes context.transaction) :
    (reviewScreens context.transaction).length ≤ maxReviewPresses + 1 := by
  have few := sizes.few
  have signers := length_signers sizes (Nat.le_refl _)
  rw [reviewScreens, List.length_append, List.length_append]
  change 8 + (_ + 2) ≤ 24
  omega

/-- The review of a transfer on any of its screens. -/
theorem Answerable.of_shows
    (callback : app.ui.validateCallback = some action)
    (sizes : ReviewSizes app.context.transaction) {screen : Screen}
    (isThere : screen ∈ reviewScreens app.context.transaction)
    (shows : Shows app.context app.ui screen) : Answerable sdk app := by
  obtain ⟨cursor, inside, here⟩ := List.getElem_of_mem isThere
  have few := length_reviewScreens_le sizes
  obtain ⟨count, length, approveAt, rejectAt⟩ :=
    getElem?_reviewScreens_end app.context.transaction
  have run (presses : List Press) :=
    (review_followsCursor sizes).runFrom (reviewScreens_isChain sizes.some)
      rfl (getLast?_reviewScreens _)
      (List.getElem?_eq_some_iff.mpr ⟨inside, here⟩) shows presses
  have atEnd := cursorFrom_replicate_right inside
    (show _ ≤ cursor + maxReviewPresses + 1 by omega)
  refine .of_steps callback rfl (.inl ?_) fun _ => ?_
  · obtain ⟨next, there, shown⟩ :=
      run (List.replicate maxReviewPresses .right)
    rw [atEnd, length, Nat.add_succ_sub_one, rejectAt] at there
    cases there
    exact shown.step_eq
  · obtain ⟨next, there, shown⟩ :=
      run (List.replicate maxReviewPresses .right ++ [.left])
    rw [cursorFrom_append_singleton, atEnd, length, Nat.add_succ_sub_one,
      Press.move, Nat.add_sub_cancel, approveAt] at there
    cases there
    exact shown.step_eq

end Reviews

/-- **No review is a dead end.** -/
theorem review_answerable
    (sdk : Sdk) (events : List Event)
    (review : ((device sdk).after events).ui.flow ≠ .menu)
    (kept : ReviewKept sdk ((device sdk).trace events)
      ((device sdk).after events).ui) :
    Answerable sdk ((device sdk).after events) := by
  obtain ⟨⟨_, onScreen⟩, _, since⟩ :=
    (sinceStart_invariant sdk).run events fun _ _ _ _ => trivial
  have inside :=
    ((inside_invariant sdk).run events fun _ _ _ _ => trivial).2 review
  generalize (device sdk).after events = app at *
  generalize (device sdk).trace events = history at *
  cases flow : app.ui.flow with
  | menu => exact absurd flow review
  | pubkey =>
      obtain ⟨_, start, _, _, _, isStart, display⟩ := onScreen.address flow
      have callback := Ui.callback_of_review display
      rw [isStart.result] at callback
      have steps : app.ui.steps = displayPubkeyFlow := by
        rw [Ui.steps, flow]
      apply Answerable.of_plain callback _ inside <;> rw [steps]
      · decide
      · exact .inl rfl
      · exact fun _ => rfl
      · decide
  | transaction =>
      obtain ⟨earlier, start, later, _, tx, last, _, isStart, display⟩ :=
        onScreen.transaction flow
      have callback := Ui.callback_of_review display
      have steps : app.ui.steps = createTransactionFlow tx := by
        rw [Ui.steps, flow]
        dsimp only
        rw [Ui.transactionFlow_of_review display, isStart.result]
        rfl
      rw [isStart.result] at callback
      by_cases transfer : tx.isSystemAssetTransfer = true
      · have hasSigners : .generic ∈ app.ui.steps := by
          rw [steps, createTransactionFlow, if_neg (not_not.mpr transfer)]
          decide
        obtain ⟨data, other, alsoStart, reviewing⟩ :=
          since.keeps last (kept hasSigners earlier start later last)
        have same : other = tx := by
          have contexts :=
            congrArg (fun result => result.1.context.transaction)
              (alsoStart.result.symm.trans isStart.result)
          exact contexts
        rw [same] at reviewing
        obtain ⟨screen, isThere, shows⟩ := reviewing.shows flow transfer
        have sizes := reviewing.sizes
        rw [← reviewing.transaction] at sizes isThere
        exact .of_shows callback sizes isThere shows
      · rw [createTransactionFlow, if_pos transfer] at steps
        apply Answerable.of_plain callback _ inside <;> rw [steps]
        · decide
        · exact .inr rfl
        · exact fun hasApprove => absurd hasApprove (by decide)
        · decide

/-- The buttons bring no path and no data. -/
theorem quiet_of_no_request
    {turn : DeviceTurn} (silent : turn.request = none) :
    ¬ turn.CarriesPath ∧ ¬ turn.TakesData := by
  constructor
  · rintro (⟨_, request⟩ | ⟨_, _, request⟩) <;>
      cases silent.symm.trans request
  · rintro ⟨_, _, request, _⟩
    cases silent.symm.trans request

/-- The review of one NEO on its last static step. -/
theorem review_answerable_beforeSigners :
    Answerable Sdk.constant ((device Sdk.constant).after beforeSigners) := by
  refine review_answerable _ beforeSigners (by decide +kernel) ?_
  intro _ earlier review later last
  have noRequest :
      ∀ turn ∈ ((device Sdk.constant).trace beforeSigners).drop 3,
        turn.request = none := by
    decide +kernel
  have starts :
      ∀ review ∈ ((device Sdk.constant).trace beforeSigners)[2]?,
        review.request = some (.chunk false oneNeoTransaction) ∧
          (review.result Sdk.constant).2 = [] := by
    decide +kernel
  obtain ⟨start, known⟩ :=
    lastTurn_of_third (by decide +kernel) starts noRequest
  obtain ⟨_, _, rfl⟩ := known.unique last
  exact fun next member => quiet_of_no_request (noRequest next member)

end Neo3App
