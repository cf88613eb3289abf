import Neo3App.Apdu.Request
import Neo3App.Lib.Transition
import Neo3App.Ui.Action

/-!
# The device

The application as a system that answers events: a command of the host, a
press of one button, a press of both.  A command may come while a review is
on the screen.
-/

namespace Neo3App

open Neo3App.Lib

inductive Event where
  /-- The bytes of a command arrive. -/
  | apdu (bytes : List UInt8)
  /-- One button moves through the flow. -/
  | press (button : Press)
  /-- Both buttons run the step on the screen. -/
  | confirm
  deriving DecidableEq

/-- What the application does at an event. -/
def deviceStep (sdk : Sdk) (app : App) : Event → App × List Effect
  | .apdu bytes => appMainTurn sdk bytes app
  | .press button =>
      ({ app with ui := uiPress app.context button app.ui }, [])
  | .confirm => uiConfirm sdk app

/-- The application from the start of `app_main` on. -/
def device (sdk : Sdk) : Transition App Event (List Effect) where
  start := App.initial
  step := deviceStep sdk

/-- The application after a reset of the channel: `main` shows the menu and
`app_main` clears the context. -/
def App.reset (app : App) : App where
  context := GlobalCtx.zero
  ui := uiMenuMain app.ui

abbrev DeviceTurn : Type :=
  Turn App Event

def Event.request : Event → Option Request
  | .apdu bytes => some (apduRequest bytes)
  | _ => none

/-- What the device does at a turn. -/
def Lib.Turn.result (sdk : Sdk) (turn : DeviceTurn) : App × List Effect :=
  deviceStep sdk turn.state turn.input

def Lib.Turn.request (turn : DeviceTurn) : Option Request :=
  turn.input.request

/-- Chunk 0 reaches its handler. -/
def Lib.Turn.IsPath (turn : DeviceTurn) : Prop :=
  ∃ data, turn.request = some (.path data)

/-- GET_PUBLIC_KEY reaches its handler. -/
def Lib.Turn.IsKey (turn : DeviceTurn) : Prop :=
  ∃ showOnScreen data, turn.request = some (.publicKey showOnScreen data)

/-- Chunk 1 reaches its handler. -/
def Lib.Turn.IsMagic (turn : DeviceTurn) : Prop :=
  ∃ data, turn.request = some (.magic data)

/-- A later chunk reaches its handler. -/
def Lib.Turn.IsChunk (turn : DeviceTurn) : Prop :=
  ∃ more data, turn.request = some (.chunk more data)

/-- The command is answered `SW_OK` at once, without data. -/
def Lib.Turn.AnsweredOk (sdk : Sdk) (turn : DeviceTurn) : Prop :=
  (turn.result sdk).2 = ioSendSw swOk

instance (sdk : Sdk) (turn : DeviceTurn) : Decidable (turn.AnsweredOk sdk) :=
  inferInstanceAs (Decidable (_ = _))

/-- The command is answered `SW_BAD_STATE` and nothing changes. -/
def Lib.Turn.Refused (sdk : Sdk) (turn : DeviceTurn) : Prop :=
  turn.result sdk = (turn.state, ioSendSw swBadState)

instance (sdk : Sdk) (turn : DeviceTurn) : Decidable (turn.Refused sdk) :=
  inferInstanceAs (Decidable (_ = _))

/-- The last chunk is not answered: the review of a transaction starts. -/
def Lib.Turn.StartsReview (sdk : Sdk) (turn : DeviceTurn) : Prop :=
  (∃ data, turn.request = some (.chunk false data)) ∧
    (turn.result sdk).2 = []

end Neo3App
