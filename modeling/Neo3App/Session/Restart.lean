import Neo3App.Lib.Lockstep
import Neo3App.Session.Browsing

/-!
# Restarts

A reset of the channel makes `main` clear `G_ux`, show the menu and enter
`app_main` again, which clears `G_context`; the static variables of the
display stay as they are.  What is sent afterwards does not depend on them.
-/

namespace Neo3App

open Neo3App.Lib

/-- The display without its texts and without what the flow on the screen
does not use. -/
def Ui.view (ui : Ui) : Ui :=
  match ui.flow with
  | .menu => Ui.initial
  | .pubkey =>
      { Ui.initial with
        flow := .pubkey
        index := ui.index
        validateCallback := ui.validateCallback }
  | .transaction =>
      { Ui.initial with
        flow := .transaction
        index := ui.index
        validateCallback := ui.validateCallback
        displayCtx := ui.displayCtx
        transactionFlow := ui.transactionFlow }

def App.view (app : App) : App :=
  { app with ui := app.ui.view }

variable {sdk : Sdk} {context : GlobalCtx}

theorem Ui.view_menu {ui : Ui} (flow : ui.flow = .menu) :
    ui.view = Ui.initial := by
  rw [view, flow]

theorem Ui.view_pubkey {ui : Ui} (flow : ui.flow = .pubkey) :
    ui.view =
      { Ui.initial with
        flow := .pubkey
        index := ui.index
        validateCallback := ui.validateCallback } := by
  rw [view, flow]

theorem Ui.view_transaction {ui : Ui} (flow : ui.flow = .transaction) :
    ui.view =
      { Ui.initial with
        flow := .transaction
        index := ui.index
        validateCallback := ui.validateCallback
        displayCtx := ui.displayCtx
        transactionFlow := ui.transactionFlow } := by
  rw [view, flow]

theorem Ui.flow_view (ui : Ui) : ui.view.flow = ui.flow := by
  cases flow : ui.flow with
  | menu => rw [ui.view_menu flow]; rfl
  | pubkey => rw [ui.view_pubkey flow]
  | transaction => rw [ui.view_transaction flow]

theorem Ui.step_view (ui : Ui) : ui.view.step = ui.step := by
  change ui.view.steps[ui.view.index]? = ui.steps[ui.index]?
  cases flow : ui.flow with
  | menu =>
      rw [ui.view_menu flow, steps, steps, flow]
      rfl
  | pubkey =>
      rw [ui.view_pubkey flow, steps, steps, flow]
  | transaction =>
      rw [ui.view_transaction flow, steps, steps, flow]

def Ui.core (ui : Ui) : Ui :=
  { ui with
    systemFee := []
    networkFee := []
    totalFees := []
    network := []
    validUntilBlock := []
    scope := []
    title := []
    text := []
    address := [] }

theorem renderProperty_core (context : GlobalCtx) (ui : Ui) :
    (renderProperty context ui).1 = (renderProperty context ui.core).1 ∧
      (renderProperty context ui).2.core =
        (renderProperty context ui.core).2.core := by
  unfold renderProperty
  have same : ui.core.displayCtx = ui.displayCtx := rfl
  dsimp only
  rw [same]
  cases ui.displayCtx.property <;> exact ⟨rfl, rfl⟩

theorem getNextData_core
    (context : GlobalCtx) (direction : Direction) (ui : Ui) :
    (getNextData context direction ui).1 =
        (getNextData context direction ui.core).1 ∧
      (getNextData context direction ui).2.core =
        (getNextData context direction ui.core).2.core := by
  unfold getNextData
  have same : ui.core.displayCtx = ui.displayCtx := rfl
  cases direction with
  | forward =>
      dsimp only
      rw [same]
      split
      · exact ⟨rfl, rfl⟩
      · exact renderProperty_core context { ui with displayCtx := _ }
  | backward =>
      dsimp only
      rw [same]
      split
      · exact ⟨rfl, rfl⟩
      · exact renderProperty_core context { ui with displayCtx := _ }

theorem setScreenState_core
    {ui other : Ui} (state : ScreenState) (same : ui.core = other.core) :
    (ui.setScreenState state).core = (other.setScreenState state).core :=
  congrArg (·.setScreenState state) same

theorem displayNextState_core
    (context : GlobalCtx) (isUpperDelimiter : Bool) (ui : Ui) :
    (displayNextState context isUpperDelimiter ui).1.core =
        (displayNextState context isUpperDelimiter ui.core).1.core ∧
      (displayNextState context isUpperDelimiter ui).2 =
        (displayNextState context isUpperDelimiter ui.core).2 := by
  have forward := getNextData_core context .forward ui
  have backward := getNextData_core context .backward ui
  unfold displayNextState
  have same : ui.core.displayCtx = ui.displayCtx := rfl
  rw [same]
  generalize getNextData context .forward ui = ahead at forward ⊢
  generalize getNextData context .backward ui = behind at backward ⊢
  generalize getNextData context .forward ui.core = ahead' at forward ⊢
  generalize getNextData context .backward ui.core = behind' at backward ⊢
  rcases ahead with ⟨renders, ahead⟩
  rcases behind with ⟨renders', behind⟩
  rcases ahead' with ⟨_, ahead'⟩
  rcases behind' with ⟨_, behind'⟩
  obtain ⟨rfl, ahead⟩ := forward
  obtain ⟨rfl, behind⟩ := backward
  by_cases static : ui.displayCtx.currentState = .staticScreen
  · simp only [if_pos static]
    cases isUpperDelimiter with
    | true =>
        cases renders with
        | true => exact ⟨setScreenState_core .dynamicScreen ahead, rfl⟩
        | false => exact ⟨ahead, rfl⟩
    | false =>
        cases renders' with
        | true => exact ⟨setScreenState_core .dynamicScreen behind, rfl⟩
        | false => exact ⟨behind, rfl⟩
  · simp only [if_neg static]
    cases isUpperDelimiter with
    | true =>
        cases renders' with
        | true => exact ⟨behind, rfl⟩
        | false => exact ⟨setScreenState_core .staticScreen behind, rfl⟩
    | false =>
        cases renders with
        | true => exact ⟨ahead, rfl⟩
        | false => exact ⟨setScreenState_core .staticScreen ahead, rfl⟩

/-- A move leads to the same index on two displays that differ in their
texts. -/
theorem index_core
    {ui other : Ui} (move : FlowMove) (same : ui.core = other.core) :
    ({ ui with index := move.index ui } : Ui).core =
      ({ other with index := move.index other } : Ui).core :=
  congrArg (fun ui => { ui with index := move.index ui }) same

theorem displayNextState_congr
    {ui other : Ui} (isUpperDelimiter : Bool) (same : ui.core = other.core) :
    (displayNextState context isUpperDelimiter ui).1.core =
        (displayNextState context isUpperDelimiter other).1.core ∧
      (displayNextState context isUpperDelimiter ui).2 =
        (displayNextState context isUpperDelimiter other).2 := by
  have first := displayNextState_core context isUpperDelimiter ui
  have second := displayNextState_core context isUpperDelimiter other
  rw [same] at first
  exact
    ⟨first.1.trans second.1.symm, first.2.trans second.2.symm⟩

theorem uxFlowRelayout_congr
    {ui other : Ui} (depth : Nat) (same : ui.core = other.core) :
    (uxFlowRelayout context depth ui).core =
      (uxFlowRelayout context depth other).core := by
  induction depth generalizing ui other with
  | zero => exact same
  | succ depth ih =>
      have step : other.core.step = ui.core.step :=
        congrArg Ui.step same.symm
      change other.step = ui.step at step
      unfold uxFlowRelayout
      dsimp only
      rw [step]
      split
      next =>
        obtain ⟨cores, moves⟩ :=
          @displayNextState_congr context _ _ true same
        rw [moves]
        exact ih (index_core _ cores)
      next =>
        obtain ⟨cores, moves⟩ :=
          @displayNextState_congr context _ _ false same
        rw [moves]
        exact ih (index_core _ cores)
      next => exact same

theorem uiPress_congr
    {ui other : Ui} (button : Press) (same : ui.core = other.core) :
    (uiPress context button ui).core = (uiPress context button other).core := by
  have index : other.core.index = ui.core.index :=
    congrArg Ui.index same.symm
  have steps : other.core.steps = ui.core.steps :=
    congrArg Ui.steps same.symm
  change other.index = ui.index at index
  change other.steps = ui.steps at steps
  have moved (position : Nat) :
      ({ ui with index := position } : Ui).core =
        ({ other with index := position } : Ui).core :=
    congrArg (fun ui => { ui with index := position }) same
  cases button with
  | left =>
      rw [uiPress, uxFlowPrev, uxFlowPrev, index]
      split
      next => exact uxFlowRelayout_congr 2 (moved _)
      next => exact same
  | right =>
      rw [uiPress, uxFlowNext, uxFlowNext, index, steps]
      split
      next => exact uxFlowRelayout_congr 2 (moved _)
      next => exact same

theorem core_of_view
    {ui other : Ui} (same : ui.view = other.view)
    (flow : ui.flow = .transaction) : ui.core = other.core := by
  have otherFlow : other.flow = .transaction := by
    rw [← other.flow_view, ← same, ui.flow_view, flow]
  rw [ui.view_transaction flow, other.view_transaction otherFlow] at same
  have index := congrArg Ui.index same
  have callback := congrArg Ui.validateCallback same
  have ctx := congrArg Ui.displayCtx same
  have steps := congrArg Ui.transactionFlow same
  dsimp only at index callback ctx steps
  rw [Ui.core, Ui.core, index, callback, ctx, steps, flow, otherFlow]

theorem view_of_core
    {ui other : Ui} (same : ui.core = other.core) :
    ui.view = other.view := by
  have views : ui.core.view = other.core.view := congrArg Ui.view same
  exact views

theorem uiPress_flow (button : Press) (ui : Ui) :
    (uiPress context button ui).flow = ui.flow := by
  have same : (uiPress context button ui).review.flow = ui.review.flow :=
    congrArg Ui.flow (uiPress_review context button ui)
  exact same

/-- The buttons keep displays with one view together. -/
theorem uiPress_view
    {ui other : Ui} (button : Press) (same : ui.view = other.view) :
    (uiPress context button ui).view = (uiPress context button other).view := by
  have otherFlow : other.flow = ui.flow := by
    rw [← other.flow_view, ← same, ui.flow_view]
  cases flow : ui.flow with
  | menu =>
      rw [flow] at otherFlow
      rw [Ui.view_menu ((uiPress_flow button ui).trans flow),
        Ui.view_menu ((uiPress_flow button other).trans otherFlow)]
  | pubkey =>
      have plain {ui : Ui} (flow : ui.flow = .pubkey) :
          PlainFlow ui.steps ∧ ui.steps.length = 4 := by
        rw [Ui.steps, flow]
        change PlainFlow displayPubkeyFlow ∧ displayPubkeyFlow.length = 4
        decide
      rw [flow] at otherFlow
      have index := congrArg Ui.index same
      have callback := congrArg Ui.validateCallback same
      rw [ui.view_pubkey flow, other.view_pubkey otherFlow] at index callback
      dsimp only at index callback
      rw [(plain flow).1.press, (plain otherFlow).1.press, (plain flow).2,
        (plain otherFlow).2, index,
        @Ui.view_pubkey { ui with index := button.move 4 other.index } flow,
        @Ui.view_pubkey { other with index := button.move 4 other.index }
          otherFlow,
        callback]
  | transaction =>
      exact view_of_core (uiPress_congr button (core_of_view same flow))

/-- Two applications with one context and one view of the display. -/
structure SameView (app other : App) : Prop where
  context : app.context = other.context
  view : app.ui.view = other.ui.view

/-- What happens to two applications with one view: the same effects, and
they still have one view. -/
def AlikeSteps (first second : App × List Effect) : Prop :=
  SameView first.1 second.1 ∧ first.2 = second.2

variable {app other : App}

theorem uiDisplayAddress_view (same : SameView app other) :
    AlikeSteps (uiDisplayAddress sdk app) (uiDisplayAddress sdk other) := by
  obtain ⟨context, ui⟩ := app
  obtain ⟨_, other⟩ := other
  obtain ⟨rfl, view⟩ := same
  unfold uiDisplayAddress
  dsimp only
  split
  next => exact ⟨⟨rfl, view⟩, rfl⟩
  next => exact ⟨⟨rfl, rfl⟩, rfl⟩

theorem handlerGetPublicKey_view
    (cdata : Buffer) (showOnScreen : Bool) (same : SameView app other) :
    AlikeSteps (handlerGetPublicKey sdk cdata showOnScreen app)
      (handlerGetPublicKey sdk cdata showOnScreen other) := by
  unfold handlerGetPublicKey
  rcases readBip44Path cdata addressRequest with ⟨_ | _, context⟩
  · exact ⟨⟨rfl, same.view⟩, rfl⟩
  · cases showOnScreen with
    | false => exact ⟨⟨rfl, same.view⟩, rfl⟩
    | true =>
        obtain ⟨views, effects⟩ :=
          @uiDisplayAddress_view sdk
            ⟨cryptoInitPublicKey sdk
              (cryptoDerivePrivateKey sdk context.bip44Path).1 context,
              app.ui⟩ ⟨_, other.ui⟩ ⟨rfl, same.view⟩
        exact
          ⟨views,
            congrArg
              ((cryptoDerivePrivateKey sdk context.bip44Path).2 ++ ·)
              effects⟩

theorem signTxPath_view (cdata : Buffer) (same : SameView app other) :
    AlikeSteps (signTxPath cdata app) (signTxPath cdata other) := by
  unfold signTxPath
  rcases readBip44Path cdata transactionRequest with ⟨_ | _, context⟩
  · exact ⟨⟨rfl, same.view⟩, rfl⟩
  · exact ⟨⟨rfl, same.view⟩, rfl⟩

theorem signTxMagic_view (cdata : Buffer) (same : SameView app other) :
    AlikeSteps (signTxMagic cdata app) (signTxMagic cdata other) := by
  obtain ⟨context, ui⟩ := app
  obtain ⟨_, other⟩ := other
  obtain ⟨rfl, view⟩ := same
  unfold signTxMagic
  dsimp only
  split
  next => exact ⟨⟨rfl, view⟩, rfl⟩
  next =>
    split
    next => exact ⟨⟨rfl, view⟩, rfl⟩
    next => exact ⟨⟨rfl, view⟩, rfl⟩

theorem uiDisplayTransaction_view (same : SameView app other) :
    AlikeSteps (uiDisplayTransaction app) (uiDisplayTransaction other) := by
  obtain ⟨context, ui⟩ := app
  obtain ⟨_, other⟩ := other
  obtain ⟨rfl, view⟩ := same
  unfold uiDisplayTransaction
  dsimp only
  rw [displayReview_eq, displayReview_eq]
  split
  next => exact ⟨⟨rfl, view⟩, rfl⟩
  next => exact ⟨⟨rfl, rfl⟩, rfl⟩

theorem signTxParse_view (same : SameView app other) :
    AlikeSteps (signTxParse sdk app) (signTxParse sdk other) := by
  obtain ⟨context, ui⟩ := app
  obtain ⟨_, other⟩ := other
  obtain ⟨rfl, view⟩ := same
  unfold signTxParse
  dsimp only
  split
  next => exact uiDisplayTransaction_view ⟨rfl, view⟩
  next => exact ⟨⟨rfl, view⟩, rfl⟩

theorem signTxData_view
    (cdata : Buffer) (more : Bool) (same : SameView app other) :
    AlikeSteps (signTxData sdk cdata more app)
      (signTxData sdk cdata more other) := by
  obtain ⟨context, ui⟩ := app
  obtain ⟨_, other⟩ := other
  obtain ⟨rfl, view⟩ := same
  unfold signTxData
  dsimp only
  split
  next => exact ⟨⟨rfl, view⟩, rfl⟩
  next =>
    cases appendRawTx cdata context with
    | none => exact ⟨⟨rfl, view⟩, rfl⟩
    | some appended =>
        cases more with
        | true => exact ⟨⟨rfl, view⟩, rfl⟩
        | false => exact signTxParse_view ⟨rfl, view⟩

theorem Request.handle_view (request : Request) (same : SameView app other) :
    AlikeSteps (request.handle sdk app) (request.handle sdk other) := by
  cases request with
  | answered data sw => exact ⟨same, rfl⟩
  | publicKey showOnScreen data => exact handlerGetPublicKey_view _ _ same
  | path data => exact signTxPath_view _ same
  | magic data => exact signTxMagic_view _ same
  | chunk more data => exact signTxData_view _ _ same

theorem uiActionValidateTransaction_view
    (approved : Bool) (same : SameView app other) :
    AlikeSteps (uiActionValidateTransaction sdk approved app)
      (uiActionValidateTransaction sdk approved other) := by
  obtain ⟨context, ui⟩ := app
  obtain ⟨_, other⟩ := other
  obtain ⟨rfl, view⟩ := same
  exact ⟨⟨rfl, rfl⟩, rfl⟩

theorem gValidateCallback_view
    (approved : Bool) (same : SameView app other)
    (callback : app.ui.validateCallback = other.ui.validateCallback) :
    AlikeSteps (gValidateCallback sdk approved app)
      (gValidateCallback sdk approved other) := by
  unfold gValidateCallback
  rw [← callback]
  split
  next => exact ⟨same, rfl⟩
  next =>
    obtain ⟨context, ui⟩ := app
    obtain ⟨_, other⟩ := other
    obtain ⟨rfl, view⟩ := same
    exact ⟨⟨rfl, rfl⟩, rfl⟩
  next => exact uiActionValidateTransaction_view approved same

theorem SameView.step (same : SameView app other) :
    app.ui.step = other.ui.step := by
  rw [← app.ui.step_view, same.view, other.ui.step_view]

/-- Outside the menu the callback belongs to the view. -/
theorem SameView.callback
    (same : SameView app other) (step : app.ui.step ≠ none) :
    app.ui.validateCallback = other.ui.validateCallback := by
  have view := congrArg Ui.validateCallback same.view
  have otherFlow : other.ui.flow = app.ui.flow := by
    rw [← other.ui.flow_view, ← same.view, app.ui.flow_view]
  cases flow : app.ui.flow with
  | menu =>
      refine absurd ?_ step
      rw [Ui.step, Ui.steps, flow]
      rfl
  | pubkey =>
      rw [flow] at otherFlow
      rwa [Ui.view_pubkey flow, Ui.view_pubkey otherFlow] at view
  | transaction =>
      rw [flow] at otherFlow
      rwa [Ui.view_transaction flow, Ui.view_transaction otherFlow] at view

theorem uiConfirm_view (same : SameView app other) :
    AlikeSteps (uiConfirm sdk app) (uiConfirm sdk other) := by
  have callback := same.callback
  unfold uiConfirm
  rw [← same.step]
  cases step : app.ui.step with
  | none => exact ⟨same, rfl⟩
  | some current =>
      have present : app.ui.step ≠ none := by
        rw [step]
        exact Option.some_ne_none _
      cases current with
      | approve => exact gValidateCallback_view true same (callback present)
      | reject | abort =>
          exact gValidateCallback_view false same (callback present)
      | confirmAddr | address | review | dstAddress | tokenAmount
      | systemFee | network | networkFee | totalFee | validUntilBlock
      | noArbitraryScript | upperDelimiter | generic | lowerDelimiter =>
          exact ⟨same, rfl⟩

theorem deviceStep_view (event : Event) (same : SameView app other) :
    AlikeSteps (deviceStep sdk app event) (deviceStep sdk other event) := by
  cases event with
  | apdu bytes =>
      rw [deviceStep, deviceStep, appMainTurn_eq, appMainTurn_eq]
      exact Request.handle_view _ same
  | press button =>
      refine ⟨⟨same.context, ?_⟩, rfl⟩
      change (uiPress app.context button app.ui).view =
        (uiPress other.context button other.ui).view
      rw [same.context]
      exact uiPress_view button same.view
  | confirm => exact uiConfirm_view same

/-- What is sent depends on the view only. -/
theorem view_lockstep (sdk : Sdk) :
    Lockstep (device sdk) (device sdk) (fun _ => True) SameView id id where
  states := fun same _ => (deviceStep_view _ same).1
  answers := fun same _ => (deviceStep_view _ same).2

/-! ## Resets -/

/-- The loop of `main`: a reset of the channel is the input `none`. -/
def mainLoop (sdk : Sdk) : Transition App (Option Event)
    (Option (List Effect)) :=
  (device sdk).restarting App.reset

/-- After a reset the device does what it does when it is switched on,
whatever came before. -/
theorem mainLoop_forgets
    (sdk : Sdk) (before : List (Option Event)) (events : List Event) :
    let run :=
      (mainLoop sdk).runFrom ((mainLoop sdk).after (before ++ [none]))
        (events.map some)
    let fresh := (device sdk).runFrom App.initial events
    run.1.context = fresh.1.context ∧ run.1.ui.step = fresh.1.ui.step ∧
      run.2 = fresh.2.map some := by
  obtain ⟨same, effects⟩ :=
    @Transition.restarting_forgets _ _ _ _ (device sdk) App.reset _ _
      (view_lockstep sdk) (fun _ => ⟨rfl, rfl⟩) before events
  rw [(device sdk).after_eq_runFrom] at same
  rw [List.map_id, List.map_id] at effects
  dsimp only
  rw [mainLoop, Transition.restarting_runFrom]
  exact ⟨same.context, same.step, congrArg (List.map some) effects⟩

end Neo3App
