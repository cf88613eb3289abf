import Neo3App.Handler.GetPublicKey
import Neo3App.Transaction.Deserialize

/-!
# SIGN_TX

`handler/sign_tx.c`, one definition for each kind of chunk: the key path, the
network magic, and the transaction data with its last chunk.
-/

namespace Neo3App

/-- The context that chunk 0 starts from. -/
def transactionRequest : GlobalCtx :=
  { GlobalCtx.zero with reqType := .confirmTransaction, state := .none }

/-- Chunk 0. -/
def signTxPath (cdata : Buffer) (app : App) : App × List Effect :=
  match readBip44Path cdata transactionRequest with
  | (.error status, context) => ({ app with context }, ioSendSw status)
  | (.ok (), context) =>
      ({ app with context := { context with state := .bip44Ok } },
        ioSendSw swOk)

/-- The guard of the chunks after the first, which also lets a request for a
transaction pass in a wrong state. -/
def GlobalCtx.refusesIn (context : GlobalCtx) (required : State) : Bool :=
  decide
    (context.reqType ≠ .confirmTransaction ∧ context.state ≠ required)

/-- Chunk 1. -/
def signTxMagic (cdata : Buffer) (app : App) : App × List Effect :=
  if app.context.refusesIn .bip44Ok then
    (app, ioSendSw swBadState)
  else
    let magic := bufferReadU32 cdata .le
    let context := { app.context with networkMagic := magic.value }
    if magic.ok = false then
      ({ app with context }, ioSendSw swMagicParsingFail)
    else
      ({ app with context := { context with state := .magicOk } },
        ioSendSw swOk)

/-- The data of a chunk behind those already received, if there is room. -/
def appendRawTx (cdata : Buffer) (context : GlobalCtx) : Option GlobalCtx :=
  if maxTransactionLen < sizeAdd context.rawTxLen cdata.size then
    none
  else
    match bufferMove cdata context.rawTx context.rawTxLen cdata.size with
    | (false, _) => none
    | (true, rawTx, _) =>
        some
          { context with
            rawTx := rawTx
            rawTxLen := sizeAdd context.rawTxLen cdata.size }

def GlobalCtx.rawBuffer (context : GlobalCtx) : Buffer :=
  ⟨context.rawTx, context.rawTxLen, 0⟩

def rawTxHash (sdk : Sdk) (context : GlobalCtx) : Vector UInt8 32 :=
  sdk.sha256 (context.rawTx.take context.rawTxLen)

/-- What follows the last chunk: the transaction is parsed into the record
of the earlier attempts, and a review starts. -/
def signTxParse (sdk : Sdk) (app : App) : App × List Effect :=
  match
      transactionDeserialize sdk app.context.rawBuffer
        app.context.transaction with
  | (.parsingOk, transaction) =>
      let context :=
        { app.context with transaction := transaction, state := .parsed }
      uiDisplayTransaction
        { app with context := { context with hash := rawTxHash sdk context } }
  | (status, transaction) =>
      ({ app with context := { app.context with transaction := transaction } },
        [.response [UInt8.ofInt status.code] swTxParsingFail])

/-- The chunks after chunk 1. -/
def signTxData (sdk : Sdk) (cdata : Buffer) (more : Bool) (app : App) :
    App × List Effect :=
  if app.context.refusesIn .magicOk then
    (app, ioSendSw swBadState)
  else
    match appendRawTx cdata app.context with
    | none => (app, ioSendSw swWrongTxLength)
    | some context =>
        if more then
          ({ app with context }, ioSendSw swOk)
        else
          signTxParse sdk { app with context }

def handlerSignTx (sdk : Sdk) (cdata : Buffer) (chunk : UInt8) (more : Bool)
    (app : App) : App × List Effect :=
  if chunk = 0 then
    signTxPath cdata app
  else if chunk = 1 then
    signTxMagic cdata app
  else
    signTxData sdk cdata more app

end Neo3App
