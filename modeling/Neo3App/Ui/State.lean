import Neo3App.Globals

/-!
# The state of the user interface

The static variables of `ui/display.c` and the part of `G_ux` that the
application uses: which flow is on the screen and the index of its step.  The
static buffers are represented by the strings they hold.
-/

namespace Neo3App

inductive Step where
  | confirmAddr
  | address
  | approve
  | reject
  | review
  | dstAddress
  | tokenAmount
  | systemFee
  | network
  | networkFee
  | totalFee
  | validUntilBlock
  | noArbitraryScript
  | abort
  | upperDelimiter
  | generic
  | lowerDelimiter
  deriving DecidableEq, Repr

/-- The functions `g_validate_callback` may point to. -/
inductive ActionValidate where
  | pubkey
  | transaction
  deriving DecidableEq, Repr

/-- The flow given to `ux_flow_init`.  The menus are one flow here: their
steps change nothing that is modelled. -/
inductive Flow where
  | menu
  | pubkey
  | transaction
  deriving DecidableEq, Repr

inductive ScreenState where
  | staticScreen
  | dynamicScreen
  deriving DecidableEq, Repr

inductive Direction where
  | forward
  | backward
  deriving DecidableEq, Repr

inductive SignerState where
  | start
  | index
  | account
  | scope
  | contracts
  | groups
  | stop
  deriving DecidableEq, Repr

instance : Inhabited SignerState :=
  ⟨.start⟩

structure DisplayCtx where
  currentState : ScreenState
  sIndex : Int8
  pIndex : UInt8
  cIndex : Int8
  gIndex : Int8
  deriving DecidableEq, Repr

/-- The static variables of the display and the flow on the screen. -/
structure Ui where
  validateCallback : Option ActionValidate
  systemFee : List Char
  networkFee : List Char
  totalFees : List Char
  network : List Char
  validUntilBlock : List Char
  scope : List Char
  title : List Char
  text : List Char
  address : List Char
  displayCtx : DisplayCtx
  transactionFlow : List Step
  flow : Flow
  index : Nat
  deriving DecidableEq

def Ui.initial : Ui where
  validateCallback := none
  systemFee := []
  networkFee := []
  totalFees := []
  network := []
  validUntilBlock := []
  scope := []
  title := []
  text := []
  address := []
  displayCtx := ⟨.staticScreen, 0, 0, 0, 0⟩
  transactionFlow := []
  flow := .menu
  index := 0

/-- `ux_flow_init(0, flow, NULL)`. -/
def Ui.flowInit (ui : Ui) (flow : Flow) : Ui :=
  { ui with flow := flow, index := 0 }

def uiMenuMain (ui : Ui) : Ui :=
  ui.flowInit .menu

def displayPubkeyFlow : List Step :=
  [.confirmAddr, .address, .approve, .reject]

def Ui.steps (ui : Ui) : List Step :=
  match ui.flow with
  | .menu => []
  | .pubkey => displayPubkeyFlow
  | .transaction => ui.transactionFlow

def Ui.step (ui : Ui) : Option Step :=
  ui.steps[ui.index]?

/-- The application: `G_context` and the display. -/
structure App where
  context : GlobalCtx
  ui : Ui
  deriving DecidableEq

/-- The application after `app_main` has cleared the context. -/
def App.initial : App where
  context := GlobalCtx.zero
  ui := Ui.initial

end Neo3App
