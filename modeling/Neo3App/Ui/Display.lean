import Neo3App.Common.Format
import Neo3App.Lib.EarlyExit
import Neo3App.Ui.State
import Neo3App.Ui.Utils

/-!
# Building the reviews

`ui_display_address`, `ui_display_transaction` and `create_transaction_flow`
of `ui/display.c`.  The review of a transaction is a sequence of strings
printed from the context, which it does not change; a failed conversion
leaves it early with a status word.
-/

namespace Neo3App

open Neo3App.Lib
open Neo3App.Lib.EarlyExit

/-- The string that `snprintf` leaves in a buffer of `size` characters. -/
def snprintf (size : Nat) (text : List Char) : List Char :=
  text.take (size - 1)

/-- `%d` of an unsigned 32-bit value. -/
def percentD (value : UInt32) : List Char :=
  signedDecimal value.toInt32.toInt

def uiDisplayAddress (sdk : Sdk) (app : App) : App × List Effect :=
  if app.context.reqType ≠ .confirmAddress ∨ app.context.state ≠ .none then
    ({ app with context := { app.context with state := .none } },
      ioSendSw swBadState)
  else
    let address :=
      addressFromPubkey sdk app.context.rawPublicKey (zeros addressLen)
        addressLen
    let ui :=
      { app.ui with
        address := snprintf 35 (cString address)
        validateCallback := some .pubkey }
    ({ app with ui := ui.flowInit .pubkey }, [])

def resetSignerDisplayState : DisplayCtx where
  currentState := .staticScreen
  sIndex := 0
  gIndex := -1
  cIndex := -1
  pIndex := 0

def createTransactionFlow (tx : Transaction) : List Step :=
  if ¬ tx.isSystemAssetTransfer then
    [.noArbitraryScript, .abort]
  else
    [.review, .dstAddress, .tokenAmount, .network, .systemFee, .networkFee,
      .totalFee, .validUntilBlock, .upperDelimiter, .generic, .lowerDelimiter,
      .approve, .reject]

/-- The sections of a review change the display and exit with a status
word. -/
abbrev Screens (α : Type) : Type :=
  EarlyExit Ui UInt16 α

def displayTransfer (tx : Transaction) : Screens Unit := do
  EarlyExit.assign fun ui =>
    { ui with address := snprintf 35 (cString tx.dstAddress), text := [] }
  let tokenAmount :=
    formatFpu64 (zeros 30) 30 tx.amount.toUInt64 (if tx.isNeo then 0 else 8)
  exitIf (tokenAmount.1 = false) swDisplayTokenTransferAmountFail
  EarlyExit.assign fun ui =>
    { ui with
      text :=
        snprintf 64
          ((if tx.isNeo then "NEO" else "GAS").toList ++ ' ' ::
            (cString tokenAmount.2).take 30) }

def networkName (magic : UInt32) : List Char :=
  if magic = networkMainnet then snprintf 11 "MainNet".toList
  else if magic = networkTestnet then snprintf 11 "TestNet".toList
  else snprintf 11 (percentD magic)

/-- One of the three fees: its buffer is cleared, then printed. -/
def displayFee (put : List Char → Ui → Ui) (value : UInt64) (sw : UInt16) :
    Screens Unit := do
  EarlyExit.assign (put [])
  let fee := formatFpu64 (zeros 30) 30 value 8
  exitIf (fee.1 = false) sw
  EarlyExit.assign
    (put (snprintf 30 ("GAS ".toList ++ (cString fee.2).take 30)))

/-- `ui_display_transaction` after its check of the state. -/
def displayReview (context : GlobalCtx) : Screens Unit := do
  let tx := context.transaction
  runIf (tx.isSystemAssetTransfer = true) (displayTransfer tx)
  EarlyExit.assign fun ui =>
    { ui with network := networkName context.networkMagic }
  displayFee (fun text ui => { ui with systemFee := text })
    tx.systemFee.toUInt64 swDisplaySystemFeeFail
  displayFee (fun text ui => { ui with networkFee := text })
    tx.networkFee.toUInt64 swDisplayNetworkFeeFail
  displayFee (fun text ui => { ui with totalFees := text })
    (tx.networkFee.toUInt64 + tx.systemFee.toUInt64) swDisplayTotalFeeFail
  EarlyExit.assign fun ui =>
    { ui with validUntilBlock := snprintf 11 (percentD tx.validUntilBlock) }
  EarlyExit.assign fun ui =>
    { ui with
      validateCallback := some .transaction
      displayCtx := resetSignerDisplayState
      transactionFlow := createTransactionFlow tx }
  EarlyExit.assign fun ui => ui.flowInit .transaction

def uiDisplayTransaction (app : App) : App × List Effect :=
  if app.context.reqType ≠ .confirmTransaction ∨
      app.context.state ≠ .parsed then
    ({ app with context := { app.context with state := .none } },
      ioSendSw swBadState)
  else
    match displayReview app.context app.ui with
    | (.ok (), ui) => ({ app with ui := ui }, [])
    | (.error sw, ui) => ({ app with ui := ui }, ioSendSw sw)

end Neo3App
