import Mathlib.Tactic.IntervalCases
import Neo3App.Ui.ReviewWalk

/-!
# The buttons on a review

What the display holds while a screen of a review is shown, and that the
buttons take it to the neighbouring screens.  A delimiter that fetches a
screen of a signer prints it on the generic step; one that finds none leaves
the signers.
-/

namespace Neo3App

open Neo3App.Lib

/-- The step of the flow that shows a screen. -/
def Screen.index : Screen → Nat
  | .static step => reviewFlow.idxOf step
  | .signer _ _ => 9

/-- The indices of `display_ctx` while a screen is shown. -/
def Screen.ctx (tx : Transaction) : Screen → DisplayCtx
  | .static .approve => endCtx tx
  | .static .reject => endCtx tx
  | .static _ => resetSignerDisplayState
  | .signer i screen => screen.ctx (slot tx.signers i) i

/-- The generic step holds what `get_next_data` prints for a screen of signer
`i`. -/
def SignerScreen.Printed (context : GlobalCtx) (ui : Ui) (i : Nat)
    (screen : SignerScreen) : Prop :=
  ui.title =
      snprintf 64 (screen.title (slot context.transaction.signers i)) ∧
    ∃ gScope, ui.text = snprintf 64 (screen.text context i gScope)

/-- The flow and the indices are at a screen of the review of the transaction
in `context`.  Nothing is said of the buffers that the static steps print. -/
structure Shows (context : GlobalCtx) (ui : Ui) (screen : Screen) :
    Prop where
  review : OnReview ui
  index : ui.index = screen.index
  ctx : ui.displayCtx = screen.ctx context.transaction
  printed : ∀ i signerScreen, screen = .signer i signerScreen →
    signerScreen.Printed context ui i

/-- Nothing is asked of a static screen. -/
theorem printed_static
    {context : GlobalCtx} {ui : Ui} {step : Step} (i : Nat)
    (signerScreen : SignerScreen)
    (isSigner : Screen.static step = .signer i signerScreen) :
    signerScreen.Printed context ui i := by
  cases isSigner

def fetchDirection (isUpper : Bool) (state : ScreenState) : Direction :=
  match isUpper, state with
  | true, .staticScreen => .forward
  | true, .dynamicScreen => .backward
  | false, .staticScreen => .backward
  | false, .dynamicScreen => .forward

/-- A delimiter that fetches a screen shows the generic step. -/
theorem displayNextState_found
    {context : GlobalCtx} {isUpper : Bool} (ui : Ui) {after : Ui}
    (found :
      getNextData context
          (fetchDirection isUpper ui.displayCtx.currentState) ui =
        (true, after)) :
    ∃ state move,
      displayNextState context isUpper ui =
          (after.setScreenState state, move) ∧
        (after.displayCtx.currentState = ui.displayCtx.currentState →
          state = .dynamicScreen) ∧
        ∀ shown, OnReview shown →
          shown.index = (if isUpper then 8 else 10) →
            move.index shown = 9 := by
  have toNext (shown : Ui) (review : OnReview shown)
      (index : shown.index = 8) : FlowMove.next.index shown = 9 := by
    rw [FlowMove.index, review.steps, index]
    rfl
  have toPrev (move : FlowMove) (back : move ≠ .next) (shown : Ui)
      (index : shown.index = 10) : move.index shown = 9 := by
    cases move with
    | next => exact absurd rfl back
    | prev | edgecase => rw [FlowMove.index, index]
  rcases stateEq : ui.displayCtx.currentState with _ | _
  · rw [stateEq] at found
    refine ⟨.dynamicScreen, if isUpper then .next else .prev, ?_,
      fun _ => rfl, ?_⟩
    · cases isUpper with
      | true =>
          change getNextData context .forward ui = _ at found
          simp only [displayNextState, if_true, stateEq, found]
      | false =>
          change getNextData context .backward ui = _ at found
          simp only [displayNextState, Bool.false_eq_true, if_false, if_true,
            stateEq, found]
    · cases isUpper with
      | true => exact toNext
      | false => exact fun shown _ => toPrev .prev (by decide) shown
  · rw [stateEq] at found
    refine ⟨after.displayCtx.currentState,
      if isUpper then .next else .edgecase, ?_, fun same => same, ?_⟩
    · cases isUpper with
      | true =>
          change getNextData context .backward ui = _ at found
          simp [displayNextState, stateEq, found, Ui.setScreenState]
      | false =>
          change getNextData context .forward ui = _ at found
          simp [displayNextState, stateEq, found, Ui.setScreenState]
    · cases isUpper with
      | true => exact toNext
      | false => exact fun shown _ => toPrev .edgecase (by decide) shown

/-- A delimiter that fetches nothing leaves the signers. -/
theorem displayNextState_missing
    {context : GlobalCtx} {isUpper : Bool} (ui : Ui) {after : Ui}
    (isDynamic : ui.displayCtx.currentState = .dynamicScreen)
    (missing :
      getNextData context (fetchDirection isUpper .dynamicScreen) ui =
        (false, after)) :
    displayNextState context isUpper ui =
      (after.setScreenState .staticScreen,
        if isUpper then .prev else .next) := by
  cases isUpper with
  | true =>
      change getNextData context .backward ui = _ at missing
      simp [displayNextState, isDynamic, missing]
  | false =>
      change getNextData context .forward ui = _ at missing
      simp [displayNextState, isDynamic, missing]

/-- A press to the left that reaches a delimiter starts behind the first
step. -/
theorem Press.left_inside
    {index : Nat} {isUpper : Bool}
    (target : Press.left.move 13 index = if isUpper then 8 else 10) :
    0 < index := by
  change index - 1 = _ at target
  split at target <;> omega

/-- A press to the right that reaches a delimiter does move. -/
theorem Press.right_inside
    {index : Nat} {isUpper : Bool}
    (target : Press.right.move 13 index = if isUpper then 8 else 10) :
    Press.right.move 13 index = index + 1 ∧ index + 1 < 13 := by
  rw [Press.move] at target ⊢
  split
  · exact ⟨rfl, by assumption⟩
  · split at target <;> split at target <;> omega

/-- A press that meets a delimiter. -/
theorem OnReview.press_delimiter
    {ui after : Ui} (review : OnReview ui) (context : GlobalCtx)
    {press : Press} {isUpper : Bool} {move : FlowMove}
    (target : press.move 13 ui.index = if isUpper then 8 else 10)
    (result :
      displayNextState context isUpper
          { ui with index := if isUpper then 8 else 10 } =
        (after, move))
    (afterReview : OnReview after)
    (notUpper : move.index after ≠ 8) (notLower : move.index after ≠ 10) :
    uiPress context press ui = { after with index := move.index after } := by
  rw [← target] at result
  cases press with
  | left =>
      exact
        review.prev_delimiter context (Press.left_inside target) target result
          afterReview notUpper notLower
  | right =>
      obtain ⟨moved, -⟩ := Press.right_inside target
      rw [moved] at target result
      exact
        review.next_delimiter context target result afterReview notUpper
          notLower

section

variable {context : GlobalCtx} (sizes : ReviewSizes context.transaction)
  {i : Nat} (inside : i < context.transaction.signersSize.toNat)

include sizes inside

/-- A press that fetches a screen of a signer shows it. -/
theorem OnReview.press_signer
    {ui : Ui} (review : OnReview ui) (press : Press) (isUpper : Bool)
    (state : ScreenState) (screen : SignerScreen)
    (isThere : screen.Exists (slot context.transaction.signers i))
    (target : press.move 13 ui.index = if isUpper then 8 else 10)
    (before : ui.displayCtx.currentState = state)
    (moves :
      moveCtx context.transaction (fetchDirection isUpper state)
          ui.displayCtx =
        (screen.ctx (slot context.transaction.signers i) i).setState
          state) :
    Shows context (uiPress context press ui) (.signer i screen) := by
  subst before
  have fetched :=
    getNextData_signer sizes inside isThere _
      { ui with index := if isUpper then 8 else 10 } _ moves
  obtain ⟨shown, move, result, dynamic, index⟩ :=
    displayNextState_found { ui with index := if isUpper then 8 else 10 }
      fetched
  obtain rfl := dynamic rfl
  have arrived := index
    ((screen.render context i
      { ui with
        displayCtx :=
          (screen.ctx (slot context.transaction.signers i) i).setState
            ui.displayCtx.currentState
        index := if isUpper then 8 else 10 }).setScreenState .dynamicScreen)
    ⟨review.flow, review.transactionFlow⟩ rfl
  rw [review.press_delimiter context target result
    ⟨review.flow, review.transactionFlow⟩ (by rw [arrived]; decide)
    (by rw [arrived]; decide), arrived]
  refine ⟨⟨review.flow, review.transactionFlow⟩, rfl, ?_, ?_⟩
  · cases screen <;> rfl
  · intro i screen isSigner
    cases isSigner
    exact ⟨rfl, _, rfl⟩

end

/-- A press that fetches nothing shows the step beyond the delimiter. -/
theorem OnReview.press_outside
    {ui : Ui} (review : OnReview ui) (context : GlobalCtx) (press : Press)
    (isUpper : Bool) {ctx : DisplayCtx}
    (target : press.move 13 ui.index = if isUpper then 8 else 10)
    (isDynamic : ui.displayCtx.currentState = .dynamicScreen)
    (moves :
      moveCtx context.transaction (fetchDirection isUpper .dynamicScreen)
          ui.displayCtx = ctx)
    (outside : ctx.property = .start ∨ ctx.property = .stop) :
    uiPress context press ui =
      { ui with
        displayCtx := ctx.setState .staticScreen
        index := if isUpper then 7 else 11 } := by
  have missing :=
    getNextData_static { ui with index := if isUpper then 8 else 10 }
      moves outside
  have result :=
    displayNextState_missing { ui with index := if isUpper then 8 else 10 }
      isDynamic missing
  have beyond (shown : Ui) (onReview : OnReview shown)
      (index : shown.index = if isUpper then 8 else 10) :
      (if isUpper then FlowMove.prev else FlowMove.next).index shown =
        if isUpper then 7 else 11 := by
    cases isUpper with
    | true =>
        rw [if_pos rfl, FlowMove.index, index]
        rfl
    | false =>
        rw [if_neg Bool.false_ne_true, FlowMove.index, onReview.steps, index]
        rfl
  have arrived :=
    beyond
      (Ui.setScreenState
        { ui with
          displayCtx := ctx, index := if isUpper then 8 else 10 }
        .staticScreen)
      ⟨review.flow, review.transactionFlow⟩ rfl
  rw [review.press_delimiter context target result
    ⟨review.flow, review.transactionFlow⟩
    (by rw [arrived]; cases isUpper <;> decide)
    (by rw [arrived]; cases isUpper <;> decide), arrived]
  rfl

theorem lastContract_exists (signer : Signer) :
    (lastContract signer).Exists signer := by
  unfold lastContract
  split
  · trivial
  · rename_i count sizeEq
    change count < _
    omega

theorem lastScreen_exists (signer : Signer) :
    (lastScreen signer).Exists signer := by
  unfold lastScreen
  split
  · exact lastContract_exists signer
  · rename_i count sizeEq
    change count < _
    omega

theorem SignerScreen.Adjacent.exists_left
    {signer : Signer} {screen next : SignerScreen}
    (adjacent : SignerScreen.Adjacent signer screen next) :
    screen.Exists signer := by
  cases adjacent with
  | account | scope | firstContract =>
      trivial
  | nextContract j more =>
      exact Nat.lt_of_succ_lt more
  | firstGroup =>
      exact lastContract_exists signer
  | nextGroup j more =>
      exact Nat.lt_of_succ_lt more

theorem SignerScreen.Adjacent.exists_right
    {signer : Signer} {screen next : SignerScreen}
    (adjacent : SignerScreen.Adjacent signer screen next) :
    next.Exists signer := by
  cases adjacent with
  | account | scope =>
      trivial
  | firstContract some =>
      exact some
  | nextContract j more =>
      exact more
  | firstGroup some =>
      exact some
  | nextGroup j more =>
      exact more

/-- The static screens before the signers. -/
theorem staticScreen_flow
    {k : Nat} {step : Step} (early : k < 8)
    (here : reviewFlow[k]? = some step) :
    (Screen.static step).index = k ∧
      ∀ tx, (Screen.static step).ctx tx = resetSignerDisplayState := by
  interval_cases k <;> cases here <;> exact ⟨rfl, fun _ => rfl⟩

theorem endCtx_eq
    {tx : Transaction} {i : Nat} (last : i + 1 = tx.signersSize.toNat) :
    endCtx tx =
      ⟨.staticScreen, passed (i + 1), 6,
        passed ((slot tx.signers i).allowedContractsSize.toNat + 1),
        passed ((slot tx.signers i).allowedGroupsSize.toNat + 1)⟩ := by
  rw [endCtx, ← last, Nat.add_sub_cancel]

section

variable {context : GlobalCtx} (sizes : ReviewSizes context.transaction)

include sizes

/-- The right button shows the next screen. -/
theorem Shows.right
    {ui : Ui} {screen next : Screen} (shows : Shows context ui screen)
    (adjacent : Screen.Adjacent context.transaction screen next) :
    Shows context (uiPress context .right ui) next := by
  obtain ⟨review, index, ctx, _⟩ := shows
  cases adjacent with
  | @first k step next more here there =>
      obtain ⟨position, start⟩ := staticScreen_flow (by omega) here
      obtain ⟨nextPosition, nextStart⟩ := staticScreen_flow more there
      rw [position] at index
      have moved :=
        review.next_plain context (by omega) (by omega) (by omega)
      rw [uiPress, moved]
      refine ⟨review.withIndex _, ?_, ?_, printed_static⟩
      · rw [nextPosition, index]
      · rw [nextStart, ← start context.transaction, ← ctx]
  | enter =>
      apply review.press_signer sizes sizes.some .right true .staticScreen
        .index trivial
      · rw [index]
        rfl
      · rw [ctx]
        rfl
      · rw [ctx]
        exact (nextProp_before_contracts _ 1 _ _ _ _).1
  | @within i screen next inside adjacent =>
      apply review.press_signer sizes inside .right false .dynamicScreen next
        adjacent.exists_right
      · rw [index]
        rfl
      · rw [ctx, Screen.ctx, SignerScreen.ctx_currentState]
      · rw [ctx, Screen.ctx, ← screen.ctx_setState]
        exact nextProp_adjacent sizes inside adjacent _
  | @nextSigner i more =>
      apply review.press_signer sizes more .right false .dynamicScreen .index
        trivial
      · rw [index]
        rfl
      · rw [ctx, Screen.ctx, SignerScreen.ctx_currentState]
      · rw [ctx, Screen.ctx, ← (lastScreen _).ctx_setState]
        refine
          (nextProp_lastScreen sizes (Nat.lt_of_succ_lt more) _).trans ?_
        rw [if_pos more]
        rfl
  | @leave i last =>
      have moves :
          nextProp context.transaction 2 ui.displayCtx =
            (endCtx context.transaction).setState .dynamicScreen := by
        rw [ctx, Screen.ctx, ← (lastScreen _).ctx_setState, endCtx_eq last,
          nextProp_lastScreen sizes (by omega), if_neg (by omega)]
        rfl
      have moved :=
        review.press_outside context .right false (by rw [index]; rfl)
          (by rw [ctx, Screen.ctx, SignerScreen.ctx_currentState]) moves
          (.inr rfl)
      rw [moved]
      exact ⟨⟨review.flow, review.transactionFlow⟩, rfl, rfl, printed_static⟩
  | last =>
      have position : ui.index = 11 :=
        index
      have moved :=
        review.next_plain context (by omega) (by omega) (by omega)
      rw [uiPress, moved]
      refine ⟨review.withIndex _, ?_, ctx, printed_static⟩
      rw [position]
      rfl

/-- The left button shows the screen before. -/
theorem Shows.left
    {ui : Ui} {screen next : Screen} (shows : Shows context ui next)
    (adjacent : Screen.Adjacent context.transaction screen next) :
    Shows context (uiPress context .left ui) screen := by
  obtain ⟨review, index, ctx, _⟩ := shows
  cases adjacent with
  | @first k step next more here there =>
      obtain ⟨position, start⟩ := staticScreen_flow (by omega) here
      obtain ⟨nextPosition, nextStart⟩ := staticScreen_flow more there
      rw [nextPosition] at index
      have moved :=
        review.prev_plain context (by omega) (by omega) (by omega)
      rw [uiPress, moved]
      refine ⟨review.withIndex _, ?_, ?_, printed_static⟩
      · rw [position, index, Nat.add_sub_cancel]
      · rw [start, ← nextStart context.transaction, ← ctx]
  | enter =>
      have moves :
          prevProp context.transaction 2 ui.displayCtx =
            resetSignerDisplayState.setState .dynamicScreen := by
        rw [ctx]
        rfl
      have moved :=
        review.press_outside context .left true (by rw [index]; rfl)
          (by rw [ctx]; rfl) moves (.inl rfl)
      rw [moved]
      exact ⟨⟨review.flow, review.transactionFlow⟩, rfl, rfl, printed_static⟩
  | @within i screen next inside adjacent =>
      apply review.press_signer sizes inside .left true .dynamicScreen screen
        adjacent.exists_left
      · rw [index]
        rfl
      · rw [ctx, Screen.ctx, SignerScreen.ctx_currentState]
      · rw [ctx, Screen.ctx, ← next.ctx_setState]
        exact prevProp_adjacent sizes inside adjacent _
  | @nextSigner i more =>
      apply review.press_signer sizes (Nat.lt_of_succ_lt more) .left true
        .dynamicScreen _ (lastScreen_exists _)
      · rw [index]
        rfl
      · rw [ctx]
        rfl
      · rw [ctx]
        exact prevProp_index sizes more _
  | @leave i last =>
      have inside : i < context.transaction.signersSize.toNat := by
        omega
      apply review.press_signer sizes inside .left false .staticScreen _
        (lastScreen_exists _)
      · rw [index]
        rfl
      · rw [ctx]
        rfl
      · rw [ctx]
        exact
          (congrArg (prevProp _ 2) (endCtx_eq last)).trans
            (prevProp_end _ _ i _ (sizes.contracts i inside)
              (sizes.groups i inside) 1)
  | last =>
      have position : ui.index = 12 :=
        index
      have moved :=
        review.prev_plain context (by omega) (by omega) (by omega)
      rw [uiPress, moved]
      refine ⟨review.withIndex _, ?_, ctx, printed_static⟩
      rw [position]
      rfl

/-- The review follows the cursor over its screens. -/
theorem review_followsCursor :
    FollowsCursor (uiPress context) (Shows context)
      (Screen.Adjacent context.transaction) (.static .review)
      (.static .reject) where
  right := Shows.right sizes
  left := Shows.left sizes
  stays_first := by
    intro ui shows
    have atStart : ui.index = 0 :=
      shows.index
    rw [uiPress, uxFlowPrev, if_neg (by omega)]
    exact shows
  stays_last := by
    intro ui shows
    have atEnd : ui.index = 12 :=
      shows.index
    rw [uiPress, uxFlowNext, shows.review.steps,
      if_neg (by rw [atEnd]; decide)]
    exact shows

end

end Neo3App
