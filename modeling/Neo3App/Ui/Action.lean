import Neo3App.Crypto
import Neo3App.Ui.Navigation

/-!
# The buttons

`ui/action/validate.c`, and the steps of the flows that call it: both
buttons on the Approve, Reject and abort steps run the callback of the
review.
-/

namespace Neo3App

def uiActionValidatePubkey (approved : Bool) (app : App) :
    App × List Effect :=
  let effects :=
    if approved then helperSendResponsePubkey app.context
    else ioSendSw swDeny
  ({ app with ui := uiMenuMain app.ui }, effects)

def uiActionValidateTransaction (sdk : Sdk) (approved : Bool) (app : App) :
    App × List Effect :=
  let (context, effects) :=
    if approved then
      match cryptoSignTx sdk { app.context with state := .approved } with
      | (false, context, effects) =>
          ({ context with state := .none }, effects ++ ioSendSw swSignFail)
      | (true, context, effects) =>
          (context,
            effects ++
              [.response
                (context.signature.take context.signatureLen.toNat) swOk])
    else
      ({ app.context with state := .none }, ioSendSw swDeny)
  (⟨context, uiMenuMain app.ui⟩, effects)

/-- `(*g_validate_callback)(approved)`. -/
def gValidateCallback (sdk : Sdk) (approved : Bool) (app : App) :
    App × List Effect :=
  match app.ui.validateCallback with
  | none => (app, [])
  | some .pubkey => uiActionValidatePubkey approved app
  | some .transaction => uiActionValidateTransaction sdk approved app

/-- Both buttons on the step of the screen. -/
def uiConfirm (sdk : Sdk) (app : App) : App × List Effect :=
  match app.ui.step with
  | some .approve => gValidateCallback sdk true app
  | some .reject | some .abort => gValidateCallback sdk false app
  | _ => (app, [])

end Neo3App
