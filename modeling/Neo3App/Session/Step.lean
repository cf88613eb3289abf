import Neo3App.Device
import Neo3App.Transaction.Parse
import Neo3App.Ui.Review

/-!
# What the device does at an event

Every event has one of a few outcomes; `deviceStep_outcome` lists them with
what is known of the state and the event in each.  What is proved of all runs
is proved by cases on the outcome.
-/

namespace Neo3App

open Neo3App.Lib

def GlobalCtx.received (context : GlobalCtx) : List UInt8 :=
  context.rawTx.take context.rawTxLen

/-- The received bytes fit, and a request for an address has no progress. -/
structure GlobalCtx.Wf (context : GlobalCtx) : Prop where
  length_rawTx : context.rawTx.length = maxTransactionLen
  rawTxLen_le : context.rawTxLen ≤ maxTransactionLen
  idle : context.reqType = .confirmAddress →
    context.state = .none ∨ context.state = .approved

def GlobalCtx.append (context : GlobalCtx) (data : List UInt8) : GlobalCtx :=
  { context with
    rawTx := memmove context.rawTx context.rawTxLen data
    rawTxLen := context.rawTxLen + data.length }

/-- The context that chunk 0 leaves. -/
def pathContext (path : Bip44Path) (state : State) : GlobalCtx :=
  { transactionRequest with bip44Path := path, state := state }

def refusedKeyContext (path : Bip44Path) : GlobalCtx :=
  { addressRequest with bip44Path := path }

def keyContext (sdk : Sdk) (path : Bip44Path) : GlobalCtx :=
  cryptoInitPublicKey sdk (sdk.deriveNodeBip32 path) (refusedKeyContext path)

/-- The context after the transaction `tx` has been parsed and hashed. -/
def reviewContext (sdk : Sdk) (context : GlobalCtx) (tx : Transaction) :
    GlobalCtx :=
  { context with
    transaction := tx
    state := .parsed
    hash := sdk.sha256 context.received }

def addressUi (sdk : Sdk) (context : GlobalCtx) (ui : Ui) : Ui :=
  { ui with
    address :=
      snprintf 35
        (cString
          (addressFromPubkey sdk context.rawPublicKey (zeros addressLen)
            addressLen))
    validateCallback := some .pubkey
    flow := .pubkey
    index := 0 }

/-- What a signature uses: the key of the path, and the hash of the data. -/
def signingEffects (sdk : Sdk) (context : GlobalCtx) : List Effect :=
  [.derivePrivateKey context.bip44Path,
    .ecdsaSign (sdk.deriveNodeBip32 context.bip44Path)
      (sdk.sha256 (signedData context)).toList]

def GlobalCtx.sign (context : GlobalCtx) (signature : List UInt8) :
    GlobalCtx :=
  { context with
    state := .approved
    signature := memmove context.signature 0 signature
    signatureLen := UInt8.ofNat signature.length }

/-! ## Outcomes -/

/-- The outcomes of an event: the application and the effects it leads to. -/
inductive Outcome (sdk : Sdk) (app : App) :
    Event → App → List Effect → Prop where
  /-- Answered by the dispatcher. -/
  | answered {event : Event} {data : List UInt8} {sw : UInt16}
      (request : event.request = some (.answered data sw)) :
      Outcome sdk app event app [.response data sw]
  /-- Chunk 0 with a path that is refused. -/
  | pathRefused {event : Event} {data : List UInt8} {status : UInt16}
      {path : Bip44Path}
      (request : event.request = some (.path data))
      (refused :
        validatePath data GlobalCtx.zero.bip44Path = (.error status, path)) :
      Outcome sdk app event { app with context := pathContext path .none }
        (ioSendSw status)
  /-- Chunk 0 with a path of the application. -/
  | pathAccepted {event : Event} {data : List UInt8}
      (request : event.request = some (.path data))
      (long : 20 ≤ data.length) (valid : ValidPath (pathWords data)) :
      Outcome sdk app event
        { app with context := pathContext (pathWords data) .bip44Ok }
        (ioSendSw swOk)
  /-- GET_PUBLIC_KEY with a path that is refused. -/
  | keyRefused {event : Event} {showOnScreen : Bool} {data : List UInt8}
      {status : UInt16} {path : Bip44Path}
      (request : event.request = some (.publicKey showOnScreen data))
      (refused :
        validatePath data GlobalCtx.zero.bip44Path = (.error status, path)) :
      Outcome sdk app event { app with context := refusedKeyContext path }
        (ioSendSw status)
  /-- GET_PUBLIC_KEY without a review. -/
  | keySent {event : Event} {data : List UInt8}
      (request : event.request = some (.publicKey false data))
      (long : 20 ≤ data.length) (valid : ValidPath (pathWords data)) :
      Outcome sdk app event
        { app with context := keyContext sdk (pathWords data) }
        (.derivePrivateKey (pathWords data) ::
          helperSendResponsePubkey (keyContext sdk (pathWords data)))
  /-- GET_PUBLIC_KEY with a review of the address. -/
  | keyShown {event : Event} {data : List UInt8}
      (request : event.request = some (.publicKey true data))
      (long : 20 ≤ data.length) (valid : ValidPath (pathWords data)) :
      Outcome sdk app event
        ⟨keyContext sdk (pathWords data),
          addressUi sdk (keyContext sdk (pathWords data)) app.ui⟩
        [.derivePrivateKey (pathWords data)]
  /-- Chunk 1 outside a request for a transaction. -/
  | magicGuarded {event : Event} {data : List UInt8}
      (request : event.request = some (.magic data))
      (guarded : app.context.reqType = .confirmAddress) :
      Outcome sdk app event app (ioSendSw swBadState)
  /-- Chunk 1 with less than four bytes. -/
  | magicMissing {event : Event} {data : List UInt8}
      (request : event.request = some (.magic data))
      (passes : app.context.reqType = .confirmTransaction)
      (short : data.length < 4) :
      Outcome sdk app event
        { app with context := { app.context with networkMagic := 0 } }
        (ioSendSw swMagicParsingFail)
  /-- Chunk 1 with a magic. -/
  | magicRead {event : Event} {data : List UInt8}
      (request : event.request = some (.magic data))
      (passes : app.context.reqType = .confirmTransaction)
      (long : 4 ≤ data.length) :
      Outcome sdk app event
        { app with
          context :=
            { app.context with
              networkMagic := readU32Le data 0
              state := .magicOk } }
        (ioSendSw swOk)
  /-- A later chunk outside a request for a transaction. -/
  | chunkGuarded {event : Event} {more : Bool} {data : List UInt8}
      (request : event.request = some (.chunk more data))
      (guarded : app.context.reqType = .confirmAddress) :
      Outcome sdk app event app (ioSendSw swBadState)
  /-- A later chunk for which there is no room. -/
  | chunkTooLong {event : Event} {more : Bool} {data : List UInt8}
      (request : event.request = some (.chunk more data))
      (passes : app.context.reqType = .confirmTransaction)
      (long : maxTransactionLen < app.context.rawTxLen + data.length) :
      Outcome sdk app event app (ioSendSw swWrongTxLength)
  /-- A later chunk that is not the last. -/
  | chunkTaken {event : Event} {data : List UInt8}
      (request : event.request = some (.chunk true data))
      (passes : app.context.reqType = .confirmTransaction)
      (fits : app.context.rawTxLen + data.length ≤ maxTransactionLen) :
      Outcome sdk app event { app with context := app.context.append data }
        (ioSendSw swOk)
  /-- The last chunk of bytes that are refused. -/
  | parseFailed {event : Event} {data : List UInt8} {status : ParserStatus}
      {tx : Transaction}
      (request : event.request = some (.chunk false data))
      (passes : app.context.reqType = .confirmTransaction)
      (fits : app.context.rawTxLen + data.length ≤ maxTransactionLen)
      (parsed :
        transactionDeserialize sdk (app.context.append data).rawBuffer
          app.context.transaction = (status, tx))
      (failed : status ≠ .parsingOk) :
      Outcome sdk app event
        { app with
          context := { app.context.append data with transaction := tx } }
        [.response [UInt8.ofInt status.code] swTxParsingFail]
  /-- The last chunk of an accepted transaction. -/
  | reviewStarted {event : Event} {data : List UInt8} {tx : Transaction}
      (request : event.request = some (.chunk false data))
      (passes : app.context.reqType = .confirmTransaction)
      (fits : app.context.rawTxLen + data.length ≤ maxTransactionLen)
      (parsed :
        transactionDeserialize sdk (app.context.append data).rawBuffer
          app.context.transaction = (.parsingOk, tx)) :
      Outcome sdk app event
        ⟨reviewContext sdk (app.context.append data) tx,
          reviewUi (reviewContext sdk (app.context.append data) tx) app.ui⟩
        []
  /-- One button. -/
  | pressed (button : Press) :
      Outcome sdk app (.press button)
        { app with ui := uiPress app.context button app.ui } []
  /-- Both buttons where they do nothing. -/
  | ignored
      (nothing : app.ui.step ∉ [some .approve, some .reject, some .abort] ∨
        app.ui.validateCallback = none) :
      Outcome sdk app .confirm app []
  /-- An address is approved. -/
  | keyApproved (step : app.ui.step = some .approve)
      (callback : app.ui.validateCallback = some .pubkey) :
      Outcome sdk app .confirm { app with ui := uiMenuMain app.ui }
        (helperSendResponsePubkey app.context)
  /-- An address is rejected. -/
  | keyDenied (step : app.ui.step = some .reject ∨ app.ui.step = some .abort)
      (callback : app.ui.validateCallback = some .pubkey) :
      Outcome sdk app .confirm { app with ui := uiMenuMain app.ui }
        (ioSendSw swDeny)
  /-- A transaction is approved and signed. -/
  | signed {signature : List UInt8} (step : app.ui.step = some .approve)
      (callback : app.ui.validateCallback = some .transaction)
      (signs :
        sdk.ecdsaSign (sdk.deriveNodeBip32 app.context.bip44Path)
          (sdk.sha256 (signedData app.context)).toList = some signature) :
      Outcome sdk app .confirm
        ⟨app.context.sign signature, uiMenuMain app.ui⟩
        (signingEffects sdk app.context ++
          [.response
            ((app.context.sign signature).signature.take
              (app.context.sign signature).signatureLen.toNat) swOk])
  /-- A transaction is approved and the signature fails. -/
  | signFailed (step : app.ui.step = some .approve)
      (callback : app.ui.validateCallback = some .transaction)
      (fails :
        sdk.ecdsaSign (sdk.deriveNodeBip32 app.context.bip44Path)
          (sdk.sha256 (signedData app.context)).toList = none) :
      Outcome sdk app .confirm
        ⟨{ app.context with state := .none }, uiMenuMain app.ui⟩
        (signingEffects sdk app.context ++ ioSendSw swSignFail)
  /-- A transaction is rejected. -/
  | denied (step : app.ui.step = some .reject ∨ app.ui.step = some .abort)
      (callback : app.ui.validateCallback = some .transaction) :
      Outcome sdk app .confirm
        ⟨{ app.context with state := .none }, uiMenuMain app.ui⟩
        (ioSendSw swDeny)

/-! ## The handlers -/

section Handlers

variable (sdk : Sdk) {app : App} {event : Event} {data : List UInt8}

theorem lt_sizeModulus_of_short (short : data.length ≤ 255) :
    data.length < sizeModulus := by
  unfold sizeModulus
  omega

theorem signTxPath_outcome
    (request : event.request = some (.path data))
    (short : data.length ≤ 255) :
    Outcome sdk app event (signTxPath (wholeBuffer data) app).1
      (signTxPath (wholeBuffer data) app).2 := by
  rcases validated : validatePath data GlobalCtx.zero.bip44Path with
    ⟨status | _, path⟩
  · have read :
        readBip44Path (wholeBuffer data) transactionRequest =
          (.error status, pathContext path .none) := by
      obtain ⟨refused, stored⟩ := Prod.mk.inj validated
      exact
        Prod.ext refused
          (congrArg (fun path => pathContext path State.none) stored)
    simp only [signTxPath, read]
    exact .pathRefused request validated
  · have read :
        readBip44Path (wholeBuffer data) transactionRequest =
          (.ok (), pathContext path .none) := by
      obtain ⟨accepted, stored⟩ := Prod.mk.inj validated
      exact
        Prod.ext accepted
          (congrArg (fun path => pathContext path State.none) stored)
    obtain ⟨long, valid, rfl⟩ :=
      (validatePath_eq_ok_iff (lt_sizeModulus_of_short short) _ _).mp
        validated
    simp only [signTxPath, read]
    exact .pathAccepted request long valid

theorem handlerGetPublicKey_outcome {showOnScreen : Bool}
    (request : event.request = some (.publicKey showOnScreen data))
    (short : data.length ≤ 255) :
    Outcome sdk app event
      (handlerGetPublicKey sdk (wholeBuffer data) showOnScreen app).1
      (handlerGetPublicKey sdk (wholeBuffer data) showOnScreen app).2 := by
  rcases validated : validatePath data GlobalCtx.zero.bip44Path with
    ⟨status | _, path⟩
  · have read :
        readBip44Path (wholeBuffer data) addressRequest =
          (.error status, refusedKeyContext path) := by
      obtain ⟨refused, stored⟩ := Prod.mk.inj validated
      exact Prod.ext refused (congrArg refusedKeyContext stored)
    simp only [handlerGetPublicKey, read]
    exact .keyRefused request validated
  · have read :
        readBip44Path (wholeBuffer data) addressRequest =
          (.ok (), refusedKeyContext path) := by
      obtain ⟨accepted, stored⟩ := Prod.mk.inj validated
      exact Prod.ext accepted (congrArg refusedKeyContext stored)
    obtain ⟨long, valid, rfl⟩ :=
      (validatePath_eq_ok_iff (lt_sizeModulus_of_short short) _ _).mp
        validated
    simp only [handlerGetPublicKey, read]
    cases showOnScreen with
    | false =>
        exact .keySent request long valid
    | true =>
        exact .keyShown request long valid

theorem GlobalCtx.Wf.refusesIn_iff
    {context : GlobalCtx} (wf : context.Wf) {required : State}
    (isProgress : required = .bip44Ok ∨ required = .magicOk) :
    context.refusesIn required = true ↔
      context.reqType = .confirmAddress := by
  unfold GlobalCtx.refusesIn
  rw [decide_eq_true_iff]
  constructor
  · rintro ⟨notTransaction, _⟩
    cases isAddress : context.reqType with
    | confirmAddress => rfl
    | confirmTransaction => exact absurd isAddress notTransaction
  · intro isAddress
    refine ⟨by simp [isAddress], ?_⟩
    intro inState
    rcases wf.idle isAddress with idle | idle <;>
      rcases isProgress with progress | progress <;>
        simp [idle, progress] at inState

theorem confirmTransaction_of_ne
    {context : GlobalCtx} (other : context.reqType ≠ .confirmAddress) :
    context.reqType = .confirmTransaction := by
  cases isAddress : context.reqType with
  | confirmAddress => exact absurd isAddress other
  | confirmTransaction => rfl

theorem wholeBuffer_wf (short : data.length ≤ 255) :
    (wholeBuffer data).Wf :=
  ⟨Nat.zero_le _, Nat.le_refl _, lt_sizeModulus_of_short short⟩

theorem rest_wholeBuffer (data : List UInt8) :
    (wholeBuffer data).rest = data :=
  rest_whole data

/-- Chunk 1 once its data have been read. -/
theorem signTxMagic_of_read
    {cdata : Buffer} (passes : app.context.refusesIn .bip44Ok = false)
    {magic : Read UInt32} (read : bufferReadU32 cdata .le = magic) :
    signTxMagic cdata app =
      if magic.ok = false then
        ({ app with
            context := { app.context with networkMagic := magic.value } },
          ioSendSw swMagicParsingFail)
      else
        ({ app with
            context :=
              { app.context with
                networkMagic := magic.value
                state := .magicOk } },
          ioSendSw swOk) := by
  subst read
  rw [signTxMagic, passes, if_neg Bool.false_ne_true]

theorem signTxMagic_of_long
    (passes : app.context.refusesIn .bip44Ok = false)
    (short : data.length ≤ 255) (long : 4 ≤ data.length) :
    signTxMagic (wholeBuffer data) app =
      ({ app with
          context :=
            { app.context with
              networkMagic := readU32Le data 0
              state := .magicOk } },
        ioSendSw swOk) := by
  have read : bufferReadU32 (wholeBuffer data) .le =
      ⟨true, readU32Le data 0, (wholeBuffer data).advance 4⟩ := by
    rw [bufferReadU32,
      (wholeBuffer_wf short).read_of_le _ _ (by rwa [rest_wholeBuffer])]
    rfl
  rw [signTxMagic_of_read passes read, if_neg (show ¬ true = false by decide)]

theorem signTxMagic_of_short
    (passes : app.context.refusesIn .bip44Ok = false)
    (short : data.length < 4) :
    signTxMagic (wholeBuffer data) app =
      ({ app with context := { app.context with networkMagic := 0 } },
        ioSendSw swMagicParsingFail) := by
  have read : bufferReadU32 (wholeBuffer data) .le =
      ⟨false, 0, wholeBuffer data⟩ := by
    rw [bufferReadU32,
      (wholeBuffer_wf (by omega)).read_of_lt _ _
        (by rwa [rest_wholeBuffer])]
  rw [signTxMagic_of_read passes read, if_pos rfl]

theorem signTxMagic_outcome (wf : app.context.Wf)
    (request : event.request = some (.magic data))
    (short : data.length ≤ 255) :
    Outcome sdk app event (signTxMagic (wholeBuffer data) app).1
      (signTxMagic (wholeBuffer data) app).2 := by
  by_cases isAddress : app.context.reqType = .confirmAddress
  · have guarded : signTxMagic (wholeBuffer data) app =
        (app, ioSendSw swBadState) := by
      rw [signTxMagic, if_pos ((wf.refusesIn_iff (.inl rfl)).mpr isAddress)]
    rw [guarded]
    exact .magicGuarded request isAddress
  have passes : app.context.refusesIn .bip44Ok = false := by
    rwa [← Bool.not_eq_true, wf.refusesIn_iff (.inl rfl)]
  by_cases long : 4 ≤ data.length
  · rw [signTxMagic_of_long passes short long]
    exact .magicRead request (confirmTransaction_of_ne isAddress) long
  · rw [signTxMagic_of_short passes (Nat.lt_of_not_le long)]
    exact
      .magicMissing request (confirmTransaction_of_ne isAddress)
        (Nat.lt_of_not_le long)

theorem appendRawTx_of_copied
    {cdata : Buffer} {context : GlobalCtx} {total : Nat} {rawTx : List UInt8}
    (isTotal : sizeAdd context.rawTxLen cdata.size = total)
    (copied :
      bufferCopy cdata context.rawTx context.rawTxLen cdata.size =
        (true, rawTx)) :
    appendRawTx cdata context =
      if maxTransactionLen < total then none
      else some { context with rawTx := rawTx, rawTxLen := total } := by
  subst isTotal
  rw [appendRawTx, bufferMove, copied]

theorem appendRawTx_eq
    {context : GlobalCtx} (wf : context.Wf) (short : data.length ≤ 255) :
    appendRawTx (wholeBuffer data) context =
      if maxTransactionLen < context.rawTxLen + data.length then none
      else some (context.append data) := by
  have few : context.rawTxLen ≤ 1024 := wf.rawTxLen_le
  have total : sizeAdd context.rawTxLen data.length =
      context.rawTxLen + data.length :=
    sizeAdd_of_lt (by unfold sizeModulus; omega)
  have all : sizeSub data.length 0 = data.length :=
    sizeSub_of_le (Nat.zero_le _) (lt_sizeModulus_of_short short)
  have copied :
      bufferCopy (wholeBuffer data) context.rawTx context.rawTxLen
          data.length =
        (true, memmove context.rawTx context.rawTxLen data) := by
    rw [bufferCopy, wholeBuffer, all, if_neg (Nat.lt_irrefl _),
      List.drop_zero, List.take_length]
  exact appendRawTx_of_copied total copied

/-- What follows the last chunk. -/
theorem signTxParse_eq
    (app : App) (passes : app.context.reqType = .confirmTransaction)
    {tx : Transaction}
    (parsed :
      transactionDeserialize sdk app.context.rawBuffer
        app.context.transaction = (.parsingOk, tx)) :
    signTxParse sdk app =
      (⟨reviewContext sdk app.context tx,
        reviewUi (reviewContext sdk app.context tx) app.ui⟩, []) := by
  rw [signTxParse, parsed]
  exact uiDisplayTransaction_eq passes rfl

theorem signTxParse_of_failed
    (app : App) {status : ParserStatus} {tx : Transaction}
    (parsed :
      transactionDeserialize sdk app.context.rawBuffer
        app.context.transaction = (status, tx))
    (failed : status ≠ .parsingOk) :
    signTxParse sdk app =
      ({ app with context := { app.context with transaction := tx } },
        [.response [UInt8.ofInt status.code] swTxParsingFail]) := by
  rw [signTxParse, parsed]
  cases status with
  | parsingOk => exact absurd rfl failed
  | _ => rfl

theorem signTxData_outcome (wf : app.context.Wf) {more : Bool}
    (request : event.request = some (.chunk more data))
    (short : data.length ≤ 255) :
    Outcome sdk app event (signTxData sdk (wholeBuffer data) more app).1
      (signTxData sdk (wholeBuffer data) more app).2 := by
  unfold signTxData
  by_cases isAddress : app.context.reqType = .confirmAddress
  · rw [if_pos ((wf.refusesIn_iff (.inr rfl)).mpr isAddress)]
    exact .chunkGuarded request isAddress
  rw [if_neg (by rwa [wf.refusesIn_iff (.inr rfl)]),
    appendRawTx_eq wf short]
  have passes := confirmTransaction_of_ne isAddress
  by_cases long : maxTransactionLen < app.context.rawTxLen + data.length
  · rw [if_pos long]
    exact .chunkTooLong request passes long
  rw [if_neg long]
  have fits := Nat.le_of_not_lt long
  cases more with
  | true =>
      exact .chunkTaken request passes fits
  | false =>
      let appended : App := { app with context := app.context.append data }
      change
        Outcome sdk app event (signTxParse sdk appended).1
          (signTxParse sdk appended).2
      rcases parsed : transactionDeserialize sdk appended.context.rawBuffer
          appended.context.transaction with ⟨status, tx⟩
      by_cases accepted : status = .parsingOk
      · subst accepted
        rw [signTxParse_eq sdk appended passes parsed]
        exact .reviewStarted request passes fits parsed
      · rw [signTxParse_of_failed sdk appended parsed accepted]
        exact .parseFailed request passes fits parsed accepted

theorem Request.handle_outcome
    (wf : app.context.Wf) {request : Request}
    (isRequest : event.request = some request)
    (short : request.data.length ≤ 255) :
    Outcome sdk app event (request.handle sdk app).1
      (request.handle sdk app).2 := by
  cases request with
  | answered data sw => exact .answered isRequest
  | publicKey showOnScreen data =>
      exact handlerGetPublicKey_outcome sdk isRequest short
  | path data => exact signTxPath_outcome sdk isRequest short
  | magic data => exact signTxMagic_outcome sdk wf isRequest short
  | chunk more data => exact signTxData_outcome sdk wf isRequest short

end Handlers

/-! ## The buttons -/

/-- An approval once the signature is known. -/
theorem uiActionValidateTransaction_of_sign
    (sdk : Sdk) {app : App} {result : Option (List UInt8)}
    (signs :
      sdk.ecdsaSign (sdk.deriveNodeBip32 app.context.bip44Path)
        (sdk.sha256 (signedData app.context)).toList = result) :
    uiActionValidateTransaction sdk true app =
      match result with
      | none =>
          (⟨{ app.context with state := .none }, uiMenuMain app.ui⟩,
            signingEffects sdk app.context ++ ioSendSw swSignFail)
      | some signature =>
          (⟨app.context.sign signature, uiMenuMain app.ui⟩,
            signingEffects sdk app.context ++
              [.response
                ((app.context.sign signature).signature.take
                  (app.context.sign signature).signatureLen.toNat)
                swOk]) := by
  have data :
      signedData { app.context with state := .approved } =
        signedData app.context := rfl
  cases result with
  | none =>
      have crypto :
          cryptoSignTx sdk { app.context with state := .approved } =
            (false, { app.context with state := .approved },
              signingEffects sdk app.context) := by
        simp only [cryptoSignTx, cryptoDerivePrivateKey, data, signs]
        rfl
      rw [uiActionValidateTransaction, crypto]
      rfl
  | some signature =>
      have crypto :
          cryptoSignTx sdk { app.context with state := .approved } =
            (true, app.context.sign signature,
              signingEffects sdk app.context) := by
        simp only [cryptoSignTx, cryptoDerivePrivateKey, data, signs]
        rfl
      rw [uiActionValidateTransaction, crypto]
      rfl

theorem uiConfirm_transaction_approved
    (sdk : Sdk) {app : App} (step : app.ui.step = some .approve)
    (callback : app.ui.validateCallback = some .transaction) :
    uiConfirm sdk app = uiActionValidateTransaction sdk true app := by
  rw [uiConfirm, step]
  simp only [gValidateCallback, callback]

theorem uiConfirm_refused
    (sdk : Sdk) {app : App}
    (step : app.ui.step = some .reject ∨ app.ui.step = some .abort) :
    uiConfirm sdk app = gValidateCallback sdk false app := by
  rcases step with step | step <;> rw [uiConfirm, step]

theorem uiConfirm_of_no_step
    (sdk : Sdk) {app : App}
    (other : app.ui.step ∉ [some .approve, some .reject, some .abort]) :
    uiConfirm sdk app = (app, []) := by
  unfold uiConfirm
  split
  next step => exact absurd step (by rintro same; simp [same] at other)
  next step => exact absurd step (by rintro same; simp [same] at other)
  next step => exact absurd step (by rintro same; simp [same] at other)
  next => rfl

theorem uiConfirm_outcome (sdk : Sdk) (app : App) :
    Outcome sdk app .confirm (uiConfirm sdk app).1 (uiConfirm sdk app).2 := by
  by_cases other : app.ui.step ∉ [some .approve, some .reject, some .abort]
  · rw [uiConfirm_of_no_step sdk other]
    exact .ignored (.inl other)
  have step : app.ui.step = some .approve ∨
      app.ui.step = some .reject ∨ app.ui.step = some .abort := by
    simpa using not_not.mp other
  rcases step with approve | refuse
  · cases callback : app.ui.validateCallback with
    | none =>
        have nothing : uiConfirm sdk app = (app, []) := by
          rw [uiConfirm, approve]
          simp only [gValidateCallback, callback]
        rw [nothing]
        exact .ignored (.inr callback)
    | some action =>
        cases action with
        | pubkey =>
            have sends : uiConfirm sdk app =
                uiActionValidatePubkey true app := by
              rw [uiConfirm, approve]
              simp only [gValidateCallback, callback]
            rw [sends]
            exact .keyApproved approve callback
        | transaction =>
            rw [uiConfirm_transaction_approved sdk approve callback]
            cases signs : sdk.ecdsaSign
                (sdk.deriveNodeBip32 app.context.bip44Path)
                (sdk.sha256 (signedData app.context)).toList with
            | none =>
                rw [uiActionValidateTransaction_of_sign sdk signs]
                exact .signFailed approve callback signs
            | some signature =>
                rw [uiActionValidateTransaction_of_sign sdk signs]
                exact .signed approve callback signs
  · rw [uiConfirm_refused sdk refuse]
    cases callback : app.ui.validateCallback with
    | none =>
        simp only [gValidateCallback, callback]
        exact .ignored (.inr callback)
    | some action =>
        cases action with
        | pubkey =>
            simp only [gValidateCallback, callback]
            exact .keyDenied refuse callback
        | transaction =>
            simp only [gValidateCallback, callback]
            exact .denied refuse callback

/-- What the device does at an event is one of the outcomes. -/
theorem deviceStep_outcome
    (sdk : Sdk) {app : App} (wf : app.context.Wf) (event : Event) :
    Outcome sdk app event (deviceStep sdk app event).1
      (deviceStep sdk app event).2 := by
  cases event with
  | apdu bytes =>
      rw [deviceStep, appMainTurn_eq]
      exact
        Request.handle_outcome sdk wf (by rfl)
          (length_apduRequest_data_le bytes)
  | press button => exact .pressed button
  | confirm => exact uiConfirm_outcome sdk app

theorem GlobalCtx.length_received
    {context : GlobalCtx} (wf : context.Wf) :
    context.received.length = context.rawTxLen := by
  have few := wf.rawTxLen_le
  rw [received, List.length_take, wf.length_rawTx]
  omega

theorem GlobalCtx.received_append
    {context : GlobalCtx} (wf : context.Wf) (data : List UInt8) :
    (context.append data).received = context.received ++ data := by
  have length : (context.rawTx.take context.rawTxLen).length =
      context.rawTxLen := GlobalCtx.length_received wf
  change (memmove context.rawTx context.rawTxLen data).take
    (context.rawTxLen + data.length) = context.received ++ data
  rw [memmove]
  exact List.take_left' (by rw [List.length_append, length])

theorem GlobalCtx.Wf.append
    {context : GlobalCtx} (wf : context.Wf) {data : List UInt8}
    (fits : context.rawTxLen + data.length ≤ maxTransactionLen) :
    (context.append data).Wf where
  length_rawTx := by
    have same : (memmove context.rawTx context.rawTxLen data).length =
        context.rawTx.length := length_memmove (wf.length_rawTx ▸ fits)
    exact same.trans wf.length_rawTx
  rawTxLen_le := fits
  idle := wf.idle

theorem pathContext_wf (path : Bip44Path) (state : State) :
    (pathContext path state).Wf where
  length_rawTx := List.length_replicate
  rawTxLen_le := Nat.zero_le _
  idle := fun isAddress => by cases isAddress

theorem refusedKeyContext_wf (path : Bip44Path) :
    (refusedKeyContext path).Wf where
  length_rawTx := List.length_replicate
  rawTxLen_le := Nat.zero_le _
  idle := fun _ => .inl rfl

theorem keyContext_wf (sdk : Sdk) (path : Bip44Path) :
    (keyContext sdk path).Wf where
  length_rawTx := by
    have inside :
        0 + (sdk.generatePair (sdk.deriveNodeBip32 path)).toList.length ≤
          (refusedKeyContext path).rawTx.length := by
      rw [Vector.length_toList, (refusedKeyContext_wf path).length_rawTx]
      decide
    exact (length_memmove inside).trans (refusedKeyContext_wf path).length_rawTx
  rawTxLen_le := Nat.zero_le _
  idle := fun _ => .inl rfl

/-- An outcome of a well-formed context leaves one. -/
theorem Outcome.wf
    {sdk : Sdk} {app after : App} {event : Event} {effects : List Effect}
    (outcome : Outcome sdk app event after effects)
    (wf : app.context.Wf) : after.context.Wf := by
  cases outcome with
  | answered | magicGuarded | chunkGuarded | chunkTooLong | pressed | ignored
  | keyApproved | keyDenied =>
      exact wf
  | pathRefused | pathAccepted =>
      exact pathContext_wf _ _
  | keyRefused =>
      exact refusedKeyContext_wf _
  | keySent | keyShown =>
      exact keyContext_wf sdk _
  | magicMissing =>
      exact ⟨wf.length_rawTx, wf.rawTxLen_le, wf.idle⟩
  | magicRead _ passes =>
      refine ⟨wf.length_rawTx, wf.rawTxLen_le, fun isAddress => ?_⟩
      cases passes.symm.trans isAddress
  | chunkTaken _ _ fits =>
      exact wf.append fits
  | parseFailed _ _ fits =>
      have appended := wf.append fits
      exact ⟨appended.length_rawTx, appended.rawTxLen_le, appended.idle⟩
  | reviewStarted _ passes fits =>
      have appended := wf.append fits
      refine
        ⟨appended.length_rawTx, appended.rawTxLen_le, fun isAddress => ?_⟩
      cases passes.symm.trans isAddress
  | signed =>
      exact ⟨wf.length_rawTx, wf.rawTxLen_le, fun _ => .inr rfl⟩
  | signFailed | denied =>
      exact ⟨wf.length_rawTx, wf.rawTxLen_le, fun _ => .inl rfl⟩

theorem initial_wf : App.initial.context.Wf where
  length_rawTx := List.length_replicate
  rawTxLen_le := Nat.zero_le _
  idle := fun _ => .inl rfl

/-- Every context that is reached is well formed. -/
theorem wf_invariant (sdk : Sdk) :
    (device sdk).Invariant (fun _ _ => True)
      fun _ app => app.context.Wf where
  initial := initial_wf
  preserved := fun wf _ => (deviceStep_outcome sdk wf _).wf wf

/-- An invariant of the device is preserved by every outcome. -/
theorem device_invariant
    {sdk : Sdk} {allowed : List DeviceTurn → DeviceTurn → Prop}
    {holds : List DeviceTurn → App → Prop} (initial : holds [] App.initial)
    (preserved : ∀ {history : List DeviceTurn} {app after : App}
      {event : Event} {effects : List Effect},
      app.context.Wf → holds history app → allowed history ⟨app, event⟩ →
        deviceStep sdk app event = (after, effects) →
          Outcome sdk app event after effects →
            holds (history ++ [⟨app, event⟩]) after) :
    (device sdk).Invariant allowed
      fun history app => app.context.Wf ∧ holds history app where
  initial := ⟨initial_wf, initial⟩
  preserved := by
    rintro history ⟨app, event⟩ ⟨wf, before⟩ isAllowed
    have outcome := deviceStep_outcome sdk wf event
    exact ⟨outcome.wf wf, preserved wf before isAllowed rfl outcome⟩

end Neo3App
