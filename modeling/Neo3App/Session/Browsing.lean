import Neo3App.Session.Received
import Neo3App.Ui.ReviewScreens

/-!
# Browsing

A user who presses single buttons moves through the flow on the screen and
sends nothing; where the presses end decides what both buttons do.
-/

namespace Neo3App

open Neo3App.Lib

variable {sdk : Sdk} {context : GlobalCtx}

/-- Single presses send nothing. -/
theorem runFrom_presses (app : App) (presses : List Press) :
    (device sdk).runFrom app (presses.map Event.press) =
      (⟨app.context, pressAll (uiPress app.context) app.ui presses⟩,
        List.replicate presses.length []) := by
  induction presses generalizing app with
  | nil => rfl
  | cons button presses ih =>
      have step : (device sdk).step app (.press button) =
          (⟨app.context, uiPress app.context button app.ui⟩, []) := rfl
      rw [List.map_cons, (device sdk).runFrom_cons step, ih]
      rfl

theorem pressAll_review
    (context : GlobalCtx) (ui : Ui) (presses : List Press) :
    (pressAll (uiPress context) ui presses).review = ui.review := by
  induction presses using List.reverseRecOn with
  | nil => rfl
  | append_singleton presses button ih =>
      rw [pressAll_append_singleton, uiPress_review, ih]

/-- A flow all of whose steps are displayed. -/
def PlainFlow (steps : List Step) : Prop :=
  .upperDelimiter ∉ steps ∧ .lowerDelimiter ∉ steps

instance (steps : List Step) : Decidable (PlainFlow steps) :=
  inferInstanceAs (Decidable (_ ∧ _))

theorem PlainFlow.relayout
    {ui : Ui} (plain : PlainFlow ui.steps) (depth : Nat) :
    uxFlowRelayout context depth ui = ui := by
  cases depth with
  | zero => rfl
  | succ depth =>
      rw [uxFlowRelayout]
      split
      next isUpper =>
        exact absurd (List.mem_of_getElem? isUpper) plain.1
      next isLower =>
        exact absurd (List.mem_of_getElem? isLower) plain.2
      next => rfl

theorem PlainFlow.press
    {ui : Ui} (plain : PlainFlow ui.steps) (button : Press) :
    uiPress context button ui =
      { ui with index := button.move ui.steps.length ui.index } := by
  have moved (index : Nat) : PlainFlow { ui with index := index }.steps :=
    plain
  cases button with
  | left =>
      rw [uiPress, uxFlowPrev, (moved _).relayout, Press.move]
      split
      next => rfl
      next atStart =>
        have same : ui.index - 1 = ui.index := by omega
        rw [same]
  | right =>
      rw [uiPress, uxFlowNext, (moved _).relayout, Press.move]
      split <;> rfl

/-- The buttons move a cursor over the steps. -/
theorem PlainFlow.pressAll_from
    {ui : Ui} (plain : PlainFlow ui.steps) (presses : List Press) :
    pressAll (uiPress context) ui presses =
      { ui with index := cursorFrom ui.steps.length ui.index presses } := by
  induction presses using List.reverseRecOn with
  | nil => rfl
  | append_singleton presses button ih =>
      have moved :
          PlainFlow { ui with
            index := cursorFrom ui.steps.length ui.index presses }.steps :=
        plain
      rw [pressAll_append_singleton, ih, moved.press,
        cursorFrom_append_singleton]
      rfl

theorem PlainFlow.pressAll
    {ui : Ui} (plain : PlainFlow ui.steps) (first : ui.index = 0)
    (presses : List Press) :
    pressAll (uiPress context) ui presses =
      { ui with index := cursorAfter ui.steps.length presses } := by
  rw [plain.pressAll_from, first]
  rfl

/-- The review of an accepted transfer starts on its first screen. -/
theorem shows_reviewUi
    (ui : Ui)
    (isTransfer : context.transaction.isSystemAssetTransfer = true) :
    Shows context (reviewUi context ui) (.static .review) := by
  refine ⟨⟨rfl, ?_⟩, rfl, rfl, printed_static⟩
  change createTransactionFlow context.transaction = reviewFlow
  rw [createTransactionFlow, isTransfer]
  rfl

theorem Shows.step_eq
    {ui : Ui} {screen : Screen} (shows : Shows context ui screen) :
    ui.step = reviewFlow[screen.index]? := by
  rw [Ui.step, shows.review.steps, shows.index]

/-- The last two screens are the Approve and the Reject steps, and no other
screen is one of them. -/
theorem ends_of_reviewScreens
    {tx : Transaction} {cursor : Nat} {screen : Screen}
    (here : (reviewScreens tx)[cursor]? = some screen) :
    (cursor + 2 = (reviewScreens tx).length ↔ screen = .static .approve) ∧
      (cursor + 1 = (reviewScreens tx).length ↔
        screen = .static .reject) := by
  obtain ⟨count, length, approveAt, rejectAt⟩ :=
    getElem?_reviewScreens_end tx
  have distinct := reviewScreens_nodup tx
  rw [length]
  constructor
  · constructor
    · intro atEnd
      have same : cursor = count := by omega
      rw [same, approveAt] at here
      exact (Option.some.inj here).symm
    · rintro rfl
      have same : cursor = count :=
        (List.getElem?_inj (List.getElem?_eq_some_iff.mp here).1
          distinct).mp (here.trans approveAt.symm)
      omega
  · constructor
    · intro atEnd
      have same : cursor = count + 1 := by omega
      rw [same, rejectAt] at here
      exact (Option.some.inj here).symm
    · rintro rfl
      have same : cursor = count + 1 :=
        (List.getElem?_inj (List.getElem?_eq_some_iff.mp here).1
          distinct).mp (here.trans rejectAt.symm)
      omega

/-- The step of an existing screen tells whether it is one of the last
two. -/
theorem step_of_exists
    {tx : Transaction} {screen : Screen} (isThere : screen.Exists tx) :
    (reviewFlow[screen.index]? = some .approve ↔
        screen = .static .approve) ∧
      (reviewFlow[screen.index]? = some .reject ↔
        screen = .static .reject) ∧
      reviewFlow[screen.index]? ≠ some .abort := by
  cases screen with
  | signer i screen =>
      refine ⟨⟨?_, ?_⟩, ⟨?_, ?_⟩, ?_⟩ <;> intro same <;> cases same
  | static step =>
      have table : ∀ step ∈ reviewFlow.take 8 ++ [.approve, .reject],
          (reviewFlow[(Screen.static step).index]? = some .approve ↔
              Screen.static step = .static .approve) ∧
            (reviewFlow[(Screen.static step).index]? = some .reject ↔
              Screen.static step = .static .reject) ∧
            reviewFlow[(Screen.static step).index]? ≠ some .abort := by
        decide
      exact table step isThere

/-- Where the presses end on a review tells which of the last steps, if any,
is on the screen. -/
theorem step_after_presses
    (sizes : ReviewSizes context.transaction) {start : Ui}
    (shown : Shows context start (.static .review)) (presses : List Press) :
    let count := (reviewScreens context.transaction).length
    let ui := pressAll (uiPress context) start presses
    (ui.step = some .approve ↔ cursorAfter count presses + 2 = count) ∧
      (ui.step = some .reject ↔ cursorAfter count presses + 1 = count) ∧
      ui.step ≠ some .abort := by
  obtain ⟨screen, here, shows⟩ := shown.after_presses sizes presses
  have isThere := exists_of_mem_reviewScreens (List.mem_of_getElem? here)
  obtain ⟨isApprove, isReject, notAbort⟩ := step_of_exists isThere
  obtain ⟨atApprove, atReject⟩ := ends_of_reviewScreens here
  dsimp only
  rw [shows.step_eq]
  exact
    ⟨isApprove.trans atApprove.symm, isReject.trans atReject.symm, notAbort⟩

end Neo3App
