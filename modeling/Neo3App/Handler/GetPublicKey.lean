import Neo3App.Common.Bip44
import Neo3App.Crypto
import Neo3App.Ui.Display

/-!
# GET_PUBLIC_KEY and the two information commands

`handler/get_public_key.c`, `handler/get_version.c` and
`handler/get_app_name.c`.
-/

namespace Neo3App

/-- `buffer_read_and_validate_bip44(cdata, G_context.bip44_path, &status)`:
the outcome, and the context with the components that were stored. -/
def readBip44Path (cdata : Buffer) (context : GlobalCtx) :
    Except UInt16 Unit × GlobalCtx :=
  let result := bufferReadAndValidateBip44 ⟨cdata, context.bip44Path⟩
  (result.1, { context with bip44Path := result.2.store })

/-- The context that `handler_get_public_key` starts from.  The number of
`CONFIRM_ADDRESS` is that of `STATE_NONE`. -/
def addressRequest : GlobalCtx :=
  { GlobalCtx.zero with state := .none }

def handlerGetPublicKey (sdk : Sdk) (cdata : Buffer) (showOnScreen : Bool)
    (app : App) : App × List Effect :=
  match readBip44Path cdata addressRequest with
  | (.error status, context) => ({ app with context }, ioSendSw status)
  | (.ok (), context) =>
      let (privateKey, derived) :=
        cryptoDerivePrivateKey sdk context.bip44Path
      let app :=
        { app with context := cryptoInitPublicKey sdk privateKey context }
      if showOnScreen then
        let (app, effects) := uiDisplayAddress sdk app
        (app, derived ++ effects)
      else
        (app, derived ++ helperSendResponsePubkey app.context)

/-- `APPNAME` of the Makefile. -/
def appName : List UInt8 :=
  "NEO N3".toList.map fun c => UInt8.ofNat c.toNat

/-- `MAJOR_VERSION`, `MINOR_VERSION` and `PATCH_VERSION` of the Makefile. -/
def appVersion : List UInt8 :=
  [0, 1, 0]

def handlerGetVersion : List Effect :=
  [.response appVersion swOk]

def handlerGetAppName : List Effect :=
  [.response appName swOk]

end Neo3App
