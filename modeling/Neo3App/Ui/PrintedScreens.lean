import Neo3App.Ui.ReviewScreens

/-!
# The signer screens that a press prints

`get_next_data` prints a signer screen when the flow passes a delimiter.
While a review of the transaction in the context is shown, the indices that
it prints with are inside that transaction.
-/

namespace Neo3App

open Neo3App.Lib

/-- The displays that `get_next_data` prints while the flow passes
delimiters, as `ux_flow_relayout` does. -/
def relayoutPrinted (context : GlobalCtx) : Nat → Ui → List Ui
  | 0, _ => []
  | depth + 1, ui =>
      let pass (isUpper : Bool) : List Ui :=
        let fetched :=
          getNextData context
            (fetchDirection isUpper ui.displayCtx.currentState) ui
        let moved := displayNextState context isUpper ui
        (if fetched.1 then [fetched.2] else []) ++
          relayoutPrinted context depth
            { moved.1 with index := moved.2.index moved.1 }
      match ui.step with
      | some .upperDelimiter => pass true
      | some .lowerDelimiter => pass false
      | _ => []

def printedAt (context : GlobalCtx) (button : Press) (ui : Ui) : List Ui :=
  match button with
  | .left =>
      if 0 < ui.index then
        relayoutPrinted context 2 { ui with index := ui.index - 1 }
      else []
  | .right =>
      if ui.index + 1 < ui.steps.length then
        relayoutPrinted context 2 { ui with index := ui.index + 1 }
      else []

/-- The step that a press comes to is a delimiter. -/
def Ui.MeetsDelimiter (ui : Ui) (button : Press) : Prop :=
  ui.steps[button.move ui.steps.length ui.index]? ∈
    [some .upperDelimiter, some .lowerDelimiter]

instance (ui : Ui) (button : Press) : Decidable (ui.MeetsDelimiter button) :=
  inferInstanceAs (Decidable (_ ∈ _))

variable {context : GlobalCtx} {ui : Ui} {button : Press}

theorem relayoutPrinted_plain
    (plain : ui.step ∉ [some .upperDelimiter, some .lowerDelimiter])
    (depth : Nat) : relayoutPrinted context depth ui = [] := by
  cases depth with
  | zero => rfl
  | succ depth =>
      rw [relayoutPrinted]
      split
      · rename_i isUpper
        exact absurd (isUpper ▸ List.mem_cons_self ..) plain
      · rename_i isLower
        rw [isLower] at plain
        exact absurd (by simp) plain
      · rfl

/-- Nothing is printed at a press that meets no delimiter. -/
theorem meetsDelimiter_of_printed
    {shown : Ui} (member : shown ∈ printedAt context button ui) :
    ui.MeetsDelimiter button := by
  have ofIndex {index : Nat}
      (printed : shown ∈ relayoutPrinted context 2 { ui with index := index })
      (moved : button.move ui.steps.length ui.index = index) :
      ui.MeetsDelimiter button := by
    rw [Ui.MeetsDelimiter, moved]
    by_contra plain
    have here : Ui.step { ui with index := index } ∉
        [some .upperDelimiter, some .lowerDelimiter] := plain
    rw [relayoutPrinted_plain here] at printed
    cases printed
  cases button with
  | left =>
      rw [printedAt] at member
      split at member
      · exact ofIndex member rfl
      · cases member
  | right =>
      rw [printedAt] at member
      split at member
      · rename_i more
        exact ofIndex member (if_pos more)
      · cases member

/-- On a review the delimiters are the steps 8 and 10. -/
theorem OnReview.delimiter
    (review : OnReview ui) (meets : ui.MeetsDelimiter button) :
    ∃ isUpper : Bool, button.move 13 ui.index = if isUpper then 8 else 10 := by
  rw [Ui.MeetsDelimiter, review.steps] at meets
  change reviewFlow[button.move 13 ui.index]? ∈ _ at meets
  rcases List.mem_cons.mp meets with isUpper | isLower
  · exact ⟨true, reviewFlow_upper isUpper⟩
  · exact ⟨false, reviewFlow_lower (List.mem_singleton.mp isLower)⟩

theorem OnReview.printedAt_eq
    (review : OnReview ui) {isUpper : Bool}
    (target : button.move 13 ui.index = if isUpper then 8 else 10) :
    printedAt context button ui =
      relayoutPrinted context 2
        { ui with index := if isUpper then 8 else 10 } := by
  cases button with
  | left =>
      rw [printedAt, if_pos (Press.left_inside target), ← target]
      rfl
  | right =>
      obtain ⟨moved, inside⟩ := Press.right_inside target
      have inFlow : ui.index + 1 < reviewFlow.length := inside
      rw [printedAt, review.steps, if_pos inFlow, ← target, moved]

theorem OnReview.of_review
    {after : Ui} (review : OnReview ui) (same : after.review = ui.review) :
    OnReview after := by
  have flows := congrArg Ui.flow same
  have transactionFlows := congrArg Ui.transactionFlow same
  exact ⟨flows.trans review.flow, transactionFlows.trans review.transactionFlow⟩

theorem getNextData_index
    (context : GlobalCtx) (direction : Direction) (ui : Ui) :
    (getNextData context direction ui).2.index = ui.index := by
  rw [getNextData_eq]
  dsimp only
  split
  · rfl
  · unfold renderProperty
    dsimp only
    split <;> rfl

theorem displayNextState_index
    (context : GlobalCtx) (isUpper : Bool) (ui : Ui) :
    (displayNextState context isUpper ui).1.index = ui.index := by
  have forward := getNextData_index context .forward ui
  have backward := getNextData_index context .backward ui
  unfold displayNextState
  generalize getNextData context .forward ui = ahead at forward ⊢
  generalize getNextData context .backward ui = behind at backward ⊢
  rcases ahead with ⟨_ | _, ahead⟩ <;>
    rcases behind with ⟨_ | _, behind⟩ <;>
      (split_ifs <;> first | exact forward | exact backward)

/-- The flow goes from a delimiter to a step that is none. -/
theorem OnReview.leaves_delimiter
    {isUpper : Bool} (review : OnReview ui)
    (index : ui.index = if isUpper then 8 else 10) (move : FlowMove) :
    move.index ui ≠ 8 ∧ move.index ui ≠ 10 := by
  have length : ui.steps.length = 13 := congrArg List.length review.steps
  cases isUpper with
  | true =>
      cases move <;> simp [FlowMove.index, length, index]
  | false =>
      cases move <;> simp [FlowMove.index, length, index]

theorem OnReview.plain
    (review : OnReview ui) (notUpper : ui.index ≠ 8)
    (notLower : ui.index ≠ 10) :
    ui.step ∉ [some .upperDelimiter, some .lowerDelimiter] := by
  rw [Ui.step, review.steps]
  intro isDelimiter
  rcases List.mem_cons.mp isDelimiter with isUpper | isLower
  · exact notUpper (reviewFlow_upper isUpper)
  · exact notLower (reviewFlow_lower (List.mem_singleton.mp isLower))

/-- A delimiter prints what it fetches. -/
theorem OnReview.relayoutPrinted_eq
    {isUpper : Bool} (review : OnReview ui)
    (index : ui.index = if isUpper then 8 else 10) :
    relayoutPrinted context 2 ui =
      let fetched :=
        getNextData context
          (fetchDirection isUpper ui.displayCtx.currentState) ui
      if fetched.1 then [fetched.2] else [] := by
  have rest :
      relayoutPrinted context 1
        { (displayNextState context isUpper ui).1 with
          index :=
            (displayNextState context isUpper ui).2.index
              (displayNextState context isUpper ui).1 } = [] := by
    have after : OnReview (displayNextState context isUpper ui).1 :=
      review.of_review (displayNextState_review context isUpper ui)
    obtain ⟨notUpper, notLower⟩ :=
      after.leaves_delimiter
        ((displayNextState_index context isUpper ui).trans index)
        (displayNextState context isUpper ui).2
    exact
      relayoutPrinted_plain ((after.withIndex _).plain notUpper notLower) 1
  have step : ui.step = reviewFlow[ui.index]? := by
    rw [Ui.step, review.steps]
  rw [relayoutPrinted, step, index]
  cases isUpper with
  | true =>
      change (if _ then _ else _) ++ relayoutPrinted context 1 _ = _
      rw [rest, List.append_nil]
  | false =>
      change (if _ then _ else _) ++ relayoutPrinted context 1 _ = _
      rw [rest, List.append_nil]

theorem OnReview.fetched_of_printed
    {isUpper : Bool} (review : OnReview ui)
    (index : ui.index = if isUpper then 8 else 10) {shown : Ui}
    (member : shown ∈ relayoutPrinted context 2 ui) :
    getNextData context
        (fetchDirection isUpper ui.displayCtx.currentState) ui =
      (true, shown) := by
  rw [review.relayoutPrinted_eq index] at member
  dsimp only at member
  split at member
  · rename_i fetched
    exact Prod.ext fetched (List.mem_singleton.mp member).symm
  · cases member

/-- A press that prints a signer screen shows it. -/
theorem OnReview.shows_printed
    (review : OnReview ui) {shown : Ui}
    (member : shown ∈ printedAt context button ui) :
    ∃ state,
      uiPress context button ui =
        { shown.setScreenState state with index := 9 } := by
  obtain ⟨isUpper, target⟩ :=
    review.delimiter (meetsDelimiter_of_printed member)
  rw [review.printedAt_eq target] at member
  have atDelimiter :=
    review.withIndex (if isUpper then 8 else 10)
  have fetched := atDelimiter.fetched_of_printed rfl member
  obtain ⟨state, move, result, _, index⟩ := displayNextState_found _ fetched
  have sameIndex := getNextData_index context
    (fetchDirection isUpper ui.displayCtx.currentState)
    { ui with index := if isUpper then 8 else 10 }
  have sameReview := getNextData_review context
    (fetchDirection isUpper ui.displayCtx.currentState)
    { ui with index := if isUpper then 8 else 10 }
  rw [fetched] at sameIndex sameReview
  have after : OnReview (shown.setScreenState state) :=
    atDelimiter.of_review sameReview
  have arrived := index _ after sameIndex
  refine ⟨state, ?_⟩
  rw [review.press_delimiter context target result after
    (by rw [arrived]; decide) (by rw [arrived]; decide), arrived]

theorem DisplayCtx.InRange.setState
    {ctx : DisplayCtx} {tx : Transaction} {state : ScreenState}
    (inRange : (ctx.setState state).InRange tx) : ctx.InRange tx :=
  ⟨inRange.signer, inRange.contract, inRange.group⟩

section

variable (sizes : ReviewSizes context.transaction)

include sizes

/-- The buttons go from a screen of the review to a screen of the review. -/
theorem Shows.press
    {screen : Screen} (shows : Shows context ui screen)
    (isThere : screen ∈ reviewScreens context.transaction)
    (button : Press) :
    ∃ next ∈ reviewScreens context.transaction,
      Shows context (uiPress context button ui) next := by
  obtain ⟨cursor, here⟩ := List.mem_iff_getElem?.mp isThere
  obtain ⟨next, there, showsNext⟩ :=
    (review_followsCursor sizes).step (reviewScreens_isChain sizes.some) rfl
      (getLast?_reviewScreens context.transaction) here shows button
  exact ⟨next, List.mem_of_getElem? there, showsNext⟩

/-- What a press on a review prints is inside the transaction. -/
theorem Shows.printed_inRange
    {screen : Screen} (shows : Shows context ui screen)
    (isThere : screen ∈ reviewScreens context.transaction)
    {shown : Ui} (member : shown ∈ printedAt context button ui) :
    shown.displayCtx.InRange context.transaction := by
  obtain ⟨next, isNext, showsNext⟩ := shows.press sizes isThere button
  obtain ⟨state, pressed⟩ := shows.review.shows_printed member
  have generic : (uiPress context button ui).step = some .generic := by
    rw [Ui.step, showsNext.review.steps, pressed]
    rfl
  have inRange :=
    showsNext.inRange sizes (exists_of_mem_reviewScreens isNext) generic
  rw [pressed] at inRange
  exact DisplayCtx.InRange.setState inRange

end

end Neo3App
