import Neo3App.Lib.Cursor
import Neo3App.Ui.Display

/-!
# Moving through a review

`next_prop`, `prev_prop`, `get_next_data` and `display_next_state` of
`ui/display.c`, and the moves of the flow on the screen.  The two delimiter
steps of the flow run code when they are reached and move on at once.
-/

namespace Neo3App

open Neo3App.Lib

def signerProperties : Vector SignerState 7 :=
  #v[.start, .index, .account, .scope, .contracts, .groups, .stop]

/-- `signer_property[display_ctx.p_index]`. -/
def DisplayCtx.property (ctx : DisplayCtx) : SignerState :=
  slot signerProperties ctx.pIndex.toNat

@[simp]
theorem DisplayCtx.property_mk
    (state : ScreenState) (s : Int8) (p : UInt8) (c g : Int8) :
    (⟨state, s, p, c, g⟩ : DisplayCtx).property =
      slot signerProperties p.toNat :=
  rfl

@[simp]
theorem slot_signerProperties :
    slot signerProperties 0 = .start ∧ slot signerProperties 1 = .index ∧
      slot signerProperties 2 = .account ∧
      slot signerProperties 3 = .scope ∧
      slot signerProperties 4 = .contracts ∧
      slot signerProperties 5 = .groups ∧
      slot signerProperties 6 = .stop := by
  decide

/-- A cell of an array at a signed index. -/
def signedSlot {α : Type} [Inhabited α] {count : Nat}
    (array : Vector α count) (index : Int8) : α :=
  if index < 0 then default else slot array index.toInt.toNat

/-- `G_context.tx_info.transaction.signers[display_ctx.s_index]`. -/
def DisplayCtx.signer (ctx : DisplayCtx) (tx : Transaction) : Signer :=
  signedSlot tx.signers ctx.sIndex

/-- The contracts are passed one by one; `rest` is the code after them. -/
def nextContract (signer : Signer) (rest : DisplayCtx → DisplayCtx)
    (ctx : DisplayCtx) : DisplayCtx :=
  if ctx.property = .contracts then
    if ctx.cIndex.toInt + 1 < signer.allowedContractsSize.toNat then
      { ctx with cIndex := ctx.cIndex + 1 }
    else
      rest { ctx with cIndex := ctx.cIndex + 1, pIndex := ctx.pIndex + 1 }
  else
    rest ctx

def nextGroup (signer : Signer) (rest : DisplayCtx → DisplayCtx)
    (ctx : DisplayCtx) : DisplayCtx :=
  if ctx.property = .groups then
    if ctx.gIndex.toInt + 1 < signer.allowedGroupsSize.toNat then
      { ctx with gIndex := ctx.gIndex + 1 }
    else
      rest { ctx with gIndex := ctx.gIndex + 1, pIndex := ctx.pIndex + 1 }
  else
    rest ctx

/-- After the last property comes the next signer, if there is one; `again`
is the recursive call. -/
def nextSigner (tx : Transaction) (again : DisplayCtx → DisplayCtx)
    (ctx : DisplayCtx) : DisplayCtx :=
  if ctx.property = .stop then
    if ctx.sIndex.toInt + 1 = tx.signersSize.toNat then ctx
    else
      again
        { ctx with
          sIndex := ctx.sIndex + 1
          cIndex := -1
          gIndex := -1
          pIndex := 0 }
  else
    ctx

/-- `next_prop`; the first argument bounds the depth of the recursion. -/
def nextProp (tx : Transaction) : Nat → DisplayCtx → DisplayCtx
  | 0, ctx => ctx
  | depth + 1, ctx =>
      nextContract (ctx.signer tx)
        (nextGroup (ctx.signer tx) (nextSigner tx (nextProp tx depth)))
        (if ctx.pIndex < 4 then { ctx with pIndex := ctx.pIndex + 1 }
          else ctx)

def prevGroup (rest : DisplayCtx → DisplayCtx) (ctx : DisplayCtx) :
    DisplayCtx :=
  if ctx.property = .groups then
    if 0 < ctx.gIndex then { ctx with gIndex := ctx.gIndex - 1 }
    else rest { ctx with gIndex := ctx.gIndex - 1, pIndex := ctx.pIndex - 1 }
  else
    rest ctx

def prevContract (rest : DisplayCtx → DisplayCtx) (ctx : DisplayCtx) :
    DisplayCtx :=
  if ctx.property = .contracts then
    if 0 < ctx.cIndex then { ctx with cIndex := ctx.cIndex - 1 }
    else rest { ctx with cIndex := ctx.cIndex - 1 }
  else
    rest ctx

/-- `(*idx)--;`, and before the first property the end of the previous
signer. -/
def prevSigner (tx : Transaction) (again : DisplayCtx → DisplayCtx)
    (ctx : DisplayCtx) : DisplayCtx :=
  let ctx := { ctx with pIndex := ctx.pIndex - 1 }
  if ctx.property = .start then
    if 0 < ctx.sIndex then
      let ctx := { ctx with sIndex := ctx.sIndex - 1 }
      let signer := ctx.signer tx
      again
        { ctx with
          pIndex := 6
          gIndex := signer.allowedGroupsSize.toInt8
          cIndex := signer.allowedContractsSize.toInt8 }
    else ctx
  else
    ctx

/-- `prev_prop`; the first argument bounds the depth of the recursion. -/
def prevProp (tx : Transaction) : Nat → DisplayCtx → DisplayCtx
  | 0, ctx => ctx
  | depth + 1, ctx =>
      if ctx.sIndex = 0 ∧ ctx.property = .index then { ctx with pIndex := 0 }
      else
        prevGroup (prevContract (prevSigner tx (prevProp tx depth)))
          (if ctx.property = .stop then { ctx with pIndex := ctx.pIndex - 1 }
            else ctx)

def hexDigit (value : UInt8) : Char :=
  Nat.digitChar value.toNat |>.toUpper

/-- `%.*H`. -/
def percentH (bytes : List UInt8) : List Char :=
  bytes.flatMap fun byte => [hexDigit (byte / 16), hexDigit (byte % 16)]

/-- `%d of %d`. -/
def countText (position : Int) (size : UInt8) : List Char :=
  signedDecimal position ++ " of ".toList ++ signedDecimal size.toNat

/-- `snprintf(&g_scope[len], sizeof(g_scope), "%s", name)`: the string in
`g_scope` and what is returned. -/
def printScope (scope : List Char) (len : Nat) (name : List Char) :
    List Char × Nat :=
  (scope.take len ++ snprintf 28 name, name.length)

def appendScope (condition : Bool) (name : String)
    (scope : List Char × Nat) : List Char × Nat :=
  if condition then
    let printed := printScope scope.1 scope.2 name.toList
    (printed.1, scope.2 + printed.2)
  else
    scope

/-- `parse_scope_name`: the string in `g_scope` and the returned length. -/
def parseScopeName (scope : UInt8) (gScope : List Char) :
    List Char × Int :=
  if scope = scopeNone then
    let printed := printScope gScope 0 "None".toList
    (printed.1, printed.2)
  else if scope = scopeGlobal then
    let printed := printScope gScope 0 "Global".toList
    (printed.1, printed.2)
  else
    let names :=
      appendScope (scope &&& scopeCustomGroups != 0) "Groups,"
        (appendScope (scope &&& scopeCustomContracts != 0) "Contracts,"
          (appendScope (scope &&& scopeCalledByEntry != 0) "By Entry,"
            (gScope, 0)))
    (names.1, names.2 - 1)

/-- `%.*s`: a negative precision is as if there were none. -/
def percentS (precision : Int) (text : List Char) : List Char :=
  if precision < 0 then text else text.take precision.toNat

def Ui.show (ui : Ui) (title text : List Char) : Ui :=
  { ui with title := snprintf 64 title, text := snprintf 64 text }

/-- The `switch` of `get_next_data`. -/
def renderProperty (context : GlobalCtx) (ui : Ui) : Bool × Ui :=
  let tx := context.transaction
  let ctx := ui.displayCtx
  let s := ctx.signer tx
  match ctx.property with
  | .start => (false, ui)
  | .index =>
      (true,
        ui.show "Signer".toList
          (countText (ctx.sIndex.toInt + 1) tx.signersSize))
  | .account =>
      (true,
        ui.show "Account".toList
          (percentH (deref context.rawTx uint160Len s.account)))
  | .scope =>
      let name := parseScopeName s.scope ui.scope
      (true,
        { ui with scope := name.1 }.show "Scope".toList
          (percentS name.2 name.1))
  | .contracts =>
      (true,
        ui.show
          ("Contract ".toList ++
            countText (ctx.cIndex.toInt + 1) s.allowedContractsSize)
          (percentH
            (deref context.rawTx uint160Len
              (signedSlot s.allowedContracts ctx.cIndex))))
  | .groups =>
      (true,
        ui.show
          ("Group ".toList ++
            countText (ctx.gIndex.toInt + 1) s.allowedGroupsSize)
          (percentH
            (deref context.rawTx ecpointLen
              (signedSlot s.allowedGroups ctx.gIndex))))
  | .stop => (false, ui)

def getNextData (context : GlobalCtx) (direction : Direction) (ui : Ui) :
    Bool × Ui :=
  let tx := context.transaction
  let ctx :=
    match direction with
    | .forward => nextProp tx 2 ui.displayCtx
    | .backward => prevProp tx 2 ui.displayCtx
  let ui := { ui with displayCtx := ctx }
  if ctx.sIndex.toInt = (tx.signersSize.toNat : Int) ∧
      ctx.property = .stop then
    (false, ui)
  else
    renderProperty context ui

/-! ## `display_next_state` and the flow -/

/-- The move with which `display_next_state` ends. -/
inductive FlowMove where
  /-- `ux_flow_next`. -/
  | next
  /-- `ux_flow_prev`. -/
  | prev
  /-- `bnnn_paging_edgecase`. -/
  | edgecase
  deriving DecidableEq, Repr

def Ui.setScreenState (ui : Ui) (state : ScreenState) : Ui :=
  { ui with displayCtx := { ui.displayCtx with currentState := state } }

/-- `display_next_state`: the display and the move that follows. -/
def displayNextState (context : GlobalCtx) (isUpperDelimiter : Bool)
    (ui : Ui) : Ui × FlowMove :=
  if isUpperDelimiter then
    if ui.displayCtx.currentState = .staticScreen then
      match getNextData context .forward ui with
      | (true, ui) => (ui.setScreenState .dynamicScreen, .next)
      | (false, ui) => (ui, .next)
    else
      match getNextData context .backward ui with
      | (true, ui) => (ui, .next)
      | (false, ui) => (ui.setScreenState .staticScreen, .prev)
  else
    if ui.displayCtx.currentState = .staticScreen then
      match getNextData context .backward ui with
      | (true, ui) => (ui.setScreenState .dynamicScreen, .prev)
      | (false, ui) => (ui, .prev)
    else
      match getNextData context .forward ui with
      | (true, ui) => (ui, .edgecase)
      | (false, ui) => (ui.setScreenState .staticScreen, .next)

/-- The index after a move; `ux_flow_next` and `ux_flow_prev` stay inside the
flow. -/
def FlowMove.index (move : FlowMove) (ui : Ui) : Nat :=
  match move with
  | .next =>
      if ui.index + 1 < ui.steps.length then ui.index + 1 else ui.index
  | .prev => ui.index - 1
  | .edgecase => ui.index - 1

/-- `ux_flow_relayout`: a delimiter runs its code and moves on; any other
step is displayed.  The first argument bounds the delimiters met. -/
def uxFlowRelayout (context : GlobalCtx) : Nat → Ui → Ui
  | 0, ui => ui
  | depth + 1, ui =>
      let follow (result : Ui × FlowMove) : Ui :=
        uxFlowRelayout context depth
          { result.1 with index := result.2.index result.1 }
      match ui.step with
      | some .upperDelimiter => follow (displayNextState context true ui)
      | some .lowerDelimiter => follow (displayNextState context false ui)
      | _ => ui

def uxFlowNext (context : GlobalCtx) (ui : Ui) : Ui :=
  if ui.index + 1 < ui.steps.length then
    uxFlowRelayout context 2 { ui with index := ui.index + 1 }
  else
    ui

def uxFlowPrev (context : GlobalCtx) (ui : Ui) : Ui :=
  if 0 < ui.index then
    uxFlowRelayout context 2 { ui with index := ui.index - 1 }
  else
    ui

def uiPress (context : GlobalCtx) : Press → Ui → Ui
  | .left => uxFlowPrev context
  | .right => uxFlowNext context

/-- The display without what the buttons change: the position and the signer
screens. -/
def Ui.review (ui : Ui) : Ui :=
  { ui with
    title := []
    text := []
    scope := []
    displayCtx := ⟨.staticScreen, 0, 0, 0, 0⟩
    index := 0 }

theorem renderProperty_review (context : GlobalCtx) (ui : Ui) :
    (renderProperty context ui).2.review = ui.review := by
  unfold renderProperty
  dsimp only
  cases ui.displayCtx.property <;> rfl

theorem getNextData_review
    (context : GlobalCtx) (direction : Direction) (ui : Ui) :
    (getNextData context direction ui).2.review = ui.review := by
  unfold getNextData
  cases direction with
  | forward =>
      dsimp only
      split
      · rfl
      · exact renderProperty_review context _
  | backward =>
      dsimp only
      split
      · rfl
      · exact renderProperty_review context _

theorem displayNextState_review
    (context : GlobalCtx) (isUpperDelimiter : Bool) (ui : Ui) :
    (displayNextState context isUpperDelimiter ui).1.review = ui.review := by
  have forward := getNextData_review context .forward ui
  have backward := getNextData_review context .backward ui
  unfold displayNextState
  generalize getNextData context .forward ui = ahead at forward ⊢
  generalize getNextData context .backward ui = behind at backward ⊢
  rcases ahead with ⟨_ | _, ahead⟩ <;>
    rcases behind with ⟨_ | _, behind⟩ <;>
      (split_ifs <;> first | exact forward | exact backward)

theorem uxFlowRelayout_review (context : GlobalCtx) (depth : Nat) (ui : Ui) :
    (uxFlowRelayout context depth ui).review = ui.review := by
  induction depth generalizing ui with
  | zero =>
      rfl
  | succ depth ih =>
      unfold uxFlowRelayout
      dsimp only
      split
      · rw [ih]
        exact displayNextState_review context true ui
      · rw [ih]
        exact displayNextState_review context false ui
      · rfl

/-- The buttons do not change which review is on the screen, nor its static
texts. -/
theorem uiPress_review (context : GlobalCtx) (button : Press) (ui : Ui) :
    (uiPress context button ui).review = ui.review := by
  cases button with
  | left =>
      simp only [uiPress, uxFlowPrev]
      split
      · exact uxFlowRelayout_review context 2 _
      · rfl
  | right =>
      simp only [uiPress, uxFlowNext]
      split
      · exact uxFlowRelayout_review context 2 _
      · rfl

end Neo3App
