import Neo3App.Transaction.Accepted
import Neo3App.Ui.Review
import Neo3App.Ui.SignerScreens

/-!
# The review as a linear cursor

The screens of a review form a list, and the two buttons move along it.  A
screen is known by its step and, on the generic step, by the signer and the
item that the indices of `display_ctx` designate.
-/

namespace Neo3App

open Neo3App.Lib

def SignerScreen.title (signer : Signer) : SignerScreen → List Char
  | .index => "Signer".toList
  | .account => "Account".toList
  | .scope => "Scope".toList
  | .contract j =>
      "Contract ".toList ++ countText (j + 1) signer.allowedContractsSize
  | .group j =>
      "Group ".toList ++ countText (j + 1) signer.allowedGroupsSize

/-- The text of a signer screen, when `g_scope` holds `gScope`. -/
def SignerScreen.text (context : GlobalCtx) (i : Nat) (gScope : List Char) :
    SignerScreen → List Char
  | .index => countText (i + 1) context.transaction.signersSize
  | .account =>
      percentH
        (deref context.rawTx uint160Len
          (slot context.transaction.signers i).account)
  | .scope =>
      let name :=
        parseScopeName (slot context.transaction.signers i).scope gScope
      percentS name.2 name.1
  | .contract j =>
      percentH
        (deref context.rawTx uint160Len
          (slot (slot context.transaction.signers i).allowedContracts j))
  | .group j =>
      percentH
        (deref context.rawTx ecpointLen
          (slot (slot context.transaction.signers i).allowedGroups j))

/-- What rendering leaves in `g_scope`. -/
def SignerScreen.scopeAfter (signer : Signer) (gScope : List Char) :
    SignerScreen → List Char
  | .scope => (parseScopeName signer.scope gScope).1
  | _ => gScope

def SignerScreen.render (context : GlobalCtx) (i : Nat)
    (screen : SignerScreen) (ui : Ui) : Ui :=
  { ui with
    scope := screen.scopeAfter (slot context.transaction.signers i) ui.scope
    title :=
      snprintf 64 (screen.title (slot context.transaction.signers i))
    text := snprintf 64 (screen.text context i ui.scope) }

def SignerScreen.Exists (signer : Signer) : SignerScreen → Prop
  | .contract j => j < signer.allowedContractsSize.toNat
  | .group j => j < signer.allowedGroupsSize.toNat
  | _ => True

/-- What `get_next_data` does to the indices. -/
def moveCtx (tx : Transaction) : Direction → DisplayCtx → DisplayCtx
  | .forward => nextProp tx 2
  | .backward => prevProp tx 2

theorem getNextData_eq
    (context : GlobalCtx) (direction : Direction) (ui : Ui) :
    getNextData context direction ui =
      let ctx := moveCtx context.transaction direction ui.displayCtx
      if ctx.sIndex.toInt = (context.transaction.signersSize.toNat : Int) ∧
          ctx.property = .stop then
        (false, { ui with displayCtx := ctx })
      else
        renderProperty context { ui with displayCtx := ctx } := by
  cases direction <;> rfl

/-- Moving off the signer screens renders nothing. -/
theorem getNextData_static
    {context : GlobalCtx} {direction : Direction} (ui : Ui)
    {ctx : DisplayCtx}
    (moves : moveCtx context.transaction direction ui.displayCtx = ctx)
    (outside : ctx.property = .start ∨ ctx.property = .stop) :
    getNextData context direction ui =
      (false, { ui with displayCtx := ctx }) := by
  rw [getNextData_eq, moves]
  dsimp only
  split
  · rfl
  · unfold renderProperty
    rcases outside with start | stop
    · simp only [start]
    · simp only [stop]

section

variable {context : GlobalCtx} (sizes : ReviewSizes context.transaction)
  {i : Nat} (inside : i < context.transaction.signersSize.toNat)

include sizes inside

theorem renderProperty_eq
    {screen : SignerScreen}
    (isThere : screen.Exists (slot context.transaction.signers i))
    (ui : Ui) (state : ScreenState) :
    let shown :=
      { ui with
        displayCtx :=
          (screen.ctx (slot context.transaction.signers i) i).setState state }
    renderProperty context shown = (true, screen.render context i shown) := by
  have few := sizes.few
  have fewContracts := sizes.contracts i inside
  have fewGroups := sizes.groups i inside
  have position {count : Nat} (small : count ≤ 126) :
      (passed (count + 1)).toInt + 1 = (count : Int) + 1 := by
    rw [toInt_passed (by omega)]
    push_cast
    ring
  have signer (p : UInt8) (c g : Int8) :=
    signer_passed sizes inside state p c g
  cases screen with
  | index =>
      have here := position (show i ≤ 126 by omega)
      simp only [renderProperty, SignerScreen.ctx, DisplayCtx.setState,
        DisplayCtx.property_mk, here]
      rfl
  | account =>
      simp only [renderProperty, SignerScreen.ctx, DisplayCtx.setState,
        DisplayCtx.property_mk, signer]
      rfl
  | scope =>
      simp only [renderProperty, SignerScreen.ctx, DisplayCtx.setState,
        DisplayCtx.property_mk, signer]
      rfl
  | contract j =>
      have bound : j < _ := isThere
      have here := position (show j ≤ 126 by omega)
      simp only [renderProperty, SignerScreen.ctx, DisplayCtx.setState,
        DisplayCtx.property_mk, signer, here,
        signedSlot_passed _ (show j ≤ 126 by omega)]
      rfl
  | group j =>
      have bound : j < _ := isThere
      have here := position (show j ≤ 126 by omega)
      simp only [renderProperty, SignerScreen.ctx, DisplayCtx.setState,
        DisplayCtx.property_mk, signer, here,
        signedSlot_passed _ (show j ≤ 126 by omega)]
      rfl

/-- Moving onto a signer screen renders it. -/
theorem getNextData_signer
    {screen : SignerScreen}
    (isThere : screen.Exists (slot context.transaction.signers i))
    (direction : Direction) (ui : Ui) (state : ScreenState)
    (moves :
      moveCtx context.transaction direction ui.displayCtx =
        (screen.ctx (slot context.transaction.signers i) i).setState state) :
    getNextData context direction ui =
      (true,
        screen.render context i
          { ui with
            displayCtx :=
              (screen.ctx (slot context.transaction.signers i) i).setState
                state }) := by
  have notStop :
      ((screen.ctx (slot context.transaction.signers i) i).setState
        state).property ≠ .stop := by
    cases screen <;> simp [SignerScreen.ctx, DisplayCtx.setState]
  rw [getNextData_eq, moves, if_neg fun both => notStop both.2]
  exact renderProperty_eq sizes inside isThere ui state

end

def reviewFlow : List Step :=
  [.review, .dstAddress, .tokenAmount, .network, .systemFee, .networkFee,
    .totalFee, .validUntilBlock, .upperDelimiter, .generic, .lowerDelimiter,
    .approve, .reject]

structure OnReview (ui : Ui) : Prop where
  flow : ui.flow = .transaction
  transactionFlow : ui.transactionFlow = reviewFlow

theorem OnReview.steps {ui : Ui} (review : OnReview ui) :
    ui.steps = reviewFlow := by
  rw [Ui.steps, review.flow]
  exact review.transactionFlow

theorem OnReview.withIndex {ui : Ui} (review : OnReview ui) (index : Nat) :
    OnReview { ui with index := index } :=
  ⟨review.flow, review.transactionFlow⟩

theorem reviewFlow_upper {index : Nat}
    (isUpper : reviewFlow[index]? = some .upperDelimiter) : index = 8 := by
  have table : ∀ k : Fin 13, reviewFlow[k.val]? = some .upperDelimiter →
      k.val = 8 := by
    decide
  exact table ⟨index, (List.getElem?_eq_some_iff.mp isUpper).1⟩ isUpper

theorem reviewFlow_lower {index : Nat}
    (isLower : reviewFlow[index]? = some .lowerDelimiter) : index = 10 := by
  have table : ∀ k : Fin 13, reviewFlow[k.val]? = some .lowerDelimiter →
      k.val = 10 := by
    decide
  exact table ⟨index, (List.getElem?_eq_some_iff.mp isLower).1⟩ isLower

/-- A step that is no delimiter stays on the screen. -/
theorem OnReview.relayout_stays
    {ui : Ui} (review : OnReview ui) (context : GlobalCtx) (depth : Nat)
    (notUpper : ui.index ≠ 8) (notLower : ui.index ≠ 10) :
    uxFlowRelayout context depth ui = ui := by
  have step : ui.step = reviewFlow[ui.index]? := by
    rw [Ui.step, review.steps]
  cases depth with
  | zero =>
      rfl
  | succ depth =>
      rw [uxFlowRelayout]
      split
      · rename_i isUpper
        exact absurd (reviewFlow_upper (step ▸ isUpper)) notUpper
      · rename_i isLower
        exact absurd (reviewFlow_lower (step ▸ isLower)) notLower
      · rfl

/-- A delimiter moves on to a step that is none. -/
theorem OnReview.relayout_delimiter
    {ui after : Ui} (review : OnReview ui) (context : GlobalCtx)
    {isUpper : Bool} {move : FlowMove}
    (index : ui.index = if isUpper then 8 else 10)
    (result : displayNextState context isUpper ui = (after, move))
    (afterReview : OnReview after)
    (notUpper : move.index after ≠ 8) (notLower : move.index after ≠ 10) :
    uxFlowRelayout context 2 ui = { after with index := move.index after } := by
  have step : ui.step = reviewFlow[ui.index]? := by
    rw [Ui.step, review.steps]
  have follow :
      uxFlowRelayout context 1
          { (displayNextState context isUpper ui).1 with
            index :=
              (displayNextState context isUpper ui).2.index
                (displayNextState context isUpper ui).1 } =
        { after with index := move.index after } := by
    rw [result]
    exact (afterReview.withIndex _).relayout_stays context 1 notUpper notLower
  rw [uxFlowRelayout, step, index]
  cases isUpper with
  | true =>
      exact follow
  | false =>
      exact follow

theorem OnReview.next_plain
    {ui : Ui} (review : OnReview ui) (context : GlobalCtx)
    (inside : ui.index + 1 < 13) (notUpper : ui.index + 1 ≠ 8)
    (notLower : ui.index + 1 ≠ 10) :
    uxFlowNext context ui = { ui with index := ui.index + 1 } := by
  rw [uxFlowNext, review.steps, if_pos (by exact inside)]
  exact (review.withIndex _).relayout_stays context 2 notUpper notLower

theorem OnReview.prev_plain
    {ui : Ui} (review : OnReview ui) (context : GlobalCtx)
    (inside : 0 < ui.index) (notUpper : ui.index - 1 ≠ 8)
    (notLower : ui.index - 1 ≠ 10) :
    uxFlowPrev context ui = { ui with index := ui.index - 1 } := by
  rw [uxFlowPrev, if_pos inside]
  exact (review.withIndex _).relayout_stays context 2 notUpper notLower

/-- Pressing right before a delimiter. -/
theorem OnReview.next_delimiter
    {ui after : Ui} (review : OnReview ui) (context : GlobalCtx)
    {isUpper : Bool} {move : FlowMove}
    (index : ui.index + 1 = if isUpper then 8 else 10)
    (result :
      displayNextState context isUpper { ui with index := ui.index + 1 } =
        (after, move))
    (afterReview : OnReview after)
    (notUpper : move.index after ≠ 8) (notLower : move.index after ≠ 10) :
    uxFlowNext context ui = { after with index := move.index after } := by
  have inside : ui.index + 1 < reviewFlow.length := by
    change ui.index + 1 < 13
    cases isUpper <;> simp at index <;> omega
  rw [uxFlowNext, review.steps, if_pos inside]
  exact
    (review.withIndex _).relayout_delimiter context index result afterReview
      notUpper notLower

/-- Pressing left after a delimiter. -/
theorem OnReview.prev_delimiter
    {ui after : Ui} (review : OnReview ui) (context : GlobalCtx)
    {isUpper : Bool} {move : FlowMove}
    (inside : 0 < ui.index)
    (index : ui.index - 1 = if isUpper then 8 else 10)
    (result :
      displayNextState context isUpper { ui with index := ui.index - 1 } =
        (after, move))
    (afterReview : OnReview after)
    (notUpper : move.index after ≠ 8) (notLower : move.index after ≠ 10) :
    uxFlowPrev context ui = { after with index := move.index after } := by
  rw [uxFlowPrev, if_pos inside]
  exact
    (review.withIndex _).relayout_delimiter context index result afterReview
      notUpper notLower

end Neo3App
