import Neo3App.Session.ClientSigning
import Neo3App.Ui.Addresses

/-!
# The public key of a path

GET_PUBLIC_KEY after any run: without a review the client gets the key of the
path it asked for, unless the review before it was overtaken, and with a
review the user reads the address of that key and decides whether the key is
sent.
-/

namespace Neo3App

open Neo3App.Lib
open Neo3App.Host

variable {sdk : Sdk}

def publicKeyOf (sdk : Sdk) (path : Bip44Path) : List UInt8 :=
  (sdk.generatePair (sdk.deriveNodeBip32 path)).toList

theorem rawPublicKey_keyContext (path : Bip44Path) :
    (keyContext sdk path).rawPublicKey = publicKeyOf sdk path := by
  have length : (publicKeyOf sdk path).length = pubkeyLen :=
    Vector.length_toList
  change (memmove GlobalCtx.zero.rawTx 0 (publicKeyOf sdk path)).take
    pubkeyLen = _
  rw [memmove, List.take_zero, List.nil_append, List.take_left' length]

theorem request_getPublicKeyEvent
    {p2 : UInt8} {data : List UInt8} (nonempty : data ≠ [])
    (short : data.length ≤ 255) (flag : p2 = 0 ∨ p2 = 1) :
    (getPublicKeyEvent p2 data).request =
      some (.publicKey (p2 ≠ 0) data) := by
  have count : (UInt8.ofNat data.length).toNat = data.length := by
    rw [UInt8.toNat_ofNat']
    omega
  obtain ⟨cmd, parsed, isCla, isIns, isP1, isP2, isData⟩ :=
    @apduParser_of_length
      ([claNeo, insGetPublicKey, 0, p2, UInt8.ofNat data.length] ++ data)
      (by simp [offsetCdata]) (by
        change _ = (UInt8.ofNat data.length).toNat
        rw [count]
        simp [offsetCdata])
  have present : cmd.data = some data := by
    have positive : UInt8.ofNat data.length > 0 := by
      rw [gt_iff_lt, UInt8.lt_iff_toNat_lt, count]
      exact List.length_pos_iff.mpr nonempty
    rw [isData, commandData]
    exact if_pos positive
  change cmd.cla = claNeo at isCla
  change cmd.ins = insGetPublicKey at isIns
  change cmd.p1 = 0 at isP1
  change cmd.p2 = p2 at isP2
  have parameters : ¬ ((0 : UInt8) > 0 ∨ p2 > 1) := by
    rcases flag with rfl | rfl <;> decide
  change some (apduRequest _) = _
  rw [apduRequest, parsed]
  dsimp only
  rw [Command.request, isCla, isIns, isP1, isP2, present,
    if_neg (by decide), if_neg (by decide), if_neg (by decide), if_pos rfl,
    if_neg parameters]

/-- What GET_PUBLIC_KEY does for bytes that start with a path of the
application. -/
theorem deviceStep_keyData
    (app : App) {data : List UInt8} (long : 20 ≤ data.length)
    (short : data.length ≤ 255)
    (valid : pathOffence 0x80000010 4999 (pathWords data) = none)
    {p2 : UInt8} (flag : p2 = 0 ∨ p2 = 1) :
    deviceStep sdk app (getPublicKeyEvent p2 data) =
      if p2 ≠ 0 then
        (⟨keyContext sdk (pathWords data),
            addressUi sdk (keyContext sdk (pathWords data)) app.ui⟩,
          [.derivePrivateKey (pathWords data)])
      else
        ({ app with context := keyContext sdk (pathWords data) },
          [.derivePrivateKey (pathWords data),
            .response (0x04 :: publicKeyOf sdk (pathWords data)) swOk]) := by
  have accepted :=
    (validatePath_eq_ok_iff
      (show data.length < sizeModulus by
        unfold sizeModulus; omega) GlobalCtx.zero.bip44Path _).mpr
      ⟨long, validPath_of_offence valid, rfl⟩
  have read :
      readBip44Path (wholeBuffer data) addressRequest =
        (.ok (), refusedKeyContext (pathWords data)) := by
    obtain ⟨good, stored⟩ := Prod.mk.inj accepted
    exact Prod.ext good (congrArg refusedKeyContext stored)
  rw [deviceStep_of_request
      (request_getPublicKeyEvent (List.length_pos_iff.mp (by omega)) short
        flag),
    ← rawPublicKey_keyContext]
  change handlerGetPublicKey sdk _ _ app = _
  simp only [handlerGetPublicKey, read]
  rcases flag with rfl | rfl <;> rfl

theorem deviceStep_key
    (app : App) {path : Bip44Path}
    (valid : pathOffence 0x80000010 4999 path = none) {p2 : UInt8}
    (flag : p2 = 0 ∨ p2 = 1) :
    deviceStep sdk app (getPublicKeyEvent p2 (pathBytes path)) =
      if p2 ≠ 0 then
        (⟨keyContext sdk path, addressUi sdk (keyContext sdk path) app.ui⟩,
          [.derivePrivateKey path])
      else
        ({ app with context := keyContext sdk path },
          [.derivePrivateKey path,
            .response (0x04 :: publicKeyOf sdk path) swOk]) := by
  have length := length_pathBytes path
  have step :=
    @deviceStep_keyData sdk app (pathBytes path) (by omega) (by omega)
      (by rwa [pathWords_pathBytes]) p2 flag
  rwa [pathWords_pathBytes] at step

/-- GET_PUBLIC_KEY refuses a path with an offence. -/
theorem deviceStep_keyOffence
    (app : App) {data : List UInt8} (long : 20 ≤ data.length)
    (short : data.length ≤ 255) {status : UInt16}
    (offends : pathOffence 0x80000010 4999 (pathWords data) = some status)
    {p2 : UInt8} (flag : p2 = 0 ∨ p2 = 1) :
    (deviceStep sdk app (getPublicKeyEvent p2 data)).2 =
      ioSendSw status := by
  have result :=
    @validatePath_fst data
      (by unfold sizeModulus; omega) GlobalCtx.zero.bip44Path
  rw [if_neg (by omega), offends] at result
  have read :
      readBip44Path (wholeBuffer data) addressRequest =
        (.error status,
          (readBip44Path (wholeBuffer data) addressRequest).2) :=
    Prod.ext result rfl
  rw [deviceStep_of_request
    (request_getPublicKeyEvent (List.length_pos_iff.mp (by omega)) short flag)]
  change (handlerGetPublicKey sdk _ _ app).2 = _
  unfold handlerGetPublicKey
  rw [read]

/-- What `get_public_key` of the client comes to when it is answered. -/
def publicKeyReply (sdk : Sdk) (path : Bip44Path) : Reply (List UInt8) :=
  match pathOffence 0x80000010 4999 path with
  | some status => some (.error (deviceException status))
  | none => some (.ok (0x04 :: publicKeyOf sdk path))

/-- The calls of the client that need no button. -/
structure CallsAnswered (sdk : Sdk) (io : IoApp) : Prop where
  version : (getVersion sdk io).2 =
    if io.Overtaken then none else some (.ok appVersion)
  name : (getAppName sdk io).2 =
    if io.Overtaken then none else some (.ok appName)
  publicKey : ∀ path, (getPublicKey sdk path io).2 =
    if io.Overtaken then none else publicKeyReply sdk path
  /-- A review stays on the screen when the version or the name is asked
  for. -/
  unchanged : ¬ io.Overtaken →
    (getVersion sdk io).1.app = io.app ∧ (getAppName sdk io).1.app = io.app

theorem asserting_ok
    {α : Type} {holds : α → Bool} {value : α} (passes : holds value = true) :
    asserting holds (some (.ok value)) = some (.ok value) :=
  if_pos passes

/-- What the client makes of the answer to GET_PUBLIC_KEY. -/
theorem exchangeRaw_keyData
    {io : IoApp} (waits : Attending io ∨ Stuck io) {data : List UInt8}
    (long : 20 ≤ data.length) (short : data.length ≤ 255) :
    asserting (fun response => response.length = 65)
        (exchangeRaw sdk (serialize 0x80 0x04 0x00 0x00 data) io).2 =
      if io.Overtaken then none
      else publicKeyReply sdk (pathWords data) := by
  have request : (getPublicKeyEvent 0 data).request =
      some (.publicKey false data) :=
    request_getPublicKeyEvent (List.length_pos_iff.mp (by omega)) short
      (.inl rfl)
  have parsed : (apduParser (serialize 0x80 0x04 0x00 0x00 data)).isSome =
      true :=
    isSome_of_request request (by nofun)
  rw [publicKeyReply]
  cases offends : pathOffence 0x80000010 4999 (pathWords data) with
  | some status =>
      have effects :=
        @deviceStep_keyOffence sdk io.app _ long short _ offends 0 (.inl rfl)
      have step : deviceStep sdk io.app
          (.apdu (serialize 0x80 0x04 0x00 0x00 data)) =
            (_, ioSendSw status) :=
        Prod.ext rfl effects
      have reply :=
        @exchangeRaw_reply sdk io [] status waits _ _ _ step rfl
          (Nat.zero_le _) parsed
      rw [reply]
      split
      · rfl
      · rw [checkSw_of_refused (pathOffence_ne_swOk offends)]
        rfl
  | none =>
      have length : (publicKeyOf sdk (pathWords data)).length = 64 :=
        Vector.length_toList
      have step : deviceStep sdk io.app
          (.apdu (serialize 0x80 0x04 0x00 0x00 data)) = _ :=
        @deviceStep_keyData sdk io.app _ long short offends 0 (.inl rfl)
      rw [if_neg (by decide)] at step
      rw [exchangeRaw_reply waits step rfl
        (by rw [List.length_cons, length]; decide) parsed]
      split
      · rfl
      · exact asserting_ok (by simp [length])

/-- What `get_public_key` of the client comes to. -/
theorem getPublicKey_eq
    {io : IoApp} (waits : Attending io ∨ Stuck io) (path : Bip44Path) :
    (getPublicKey sdk path io).2 =
      if io.Overtaken then none else publicKeyReply sdk path := by
  have length := length_pathBytes path
  have reply :=
    @exchangeRaw_keyData sdk io waits (pathBytes path) (by omega) (by omega)
  rwa [pathWords_pathBytes] at reply

/-- What both buttons send after some presses on the review of an
address. -/
def addressAnswer (key : List UInt8) (presses : List Press) : List Effect :=
  if cursorAfter 4 presses = 2 then [.response (0x04 :: key) swOk]
  else if cursorAfter 4 presses = 3 then ioSendSw swDeny
  else []

/-- The review of the address of a path, for a user who presses some
buttons. -/
structure AddressReviewed (sdk : Sdk) (path : Bip44Path) (app : App)
    (presses : List Press) : Prop where
  /-- The text of the address step is the address of the key. -/
  address :
    ((device sdk).runFrom app
        (getPublicKeyEvent 1 (pathBytes path) ::
          presses.map Event.press)).1.ui.address =
      addressText sdk
        (publicKeyHash160 sdk
          (createSignatureRedeemScript (publicKeyOf sdk path)))
  /-- The buttons move a cursor over the four steps. -/
  step :
    ((device sdk).runFrom app
        (getPublicKeyEvent 1 (pathBytes path) ::
          presses.map Event.press)).1.ui.step =
      displayPubkeyFlow[cursorAfter 4 presses]?
  /-- Nothing is sent before both buttons are pressed. -/
  answers :
    ((device sdk).runFrom app
        (getPublicKeyEvent 1 (pathBytes path) ::
          (presses.map Event.press ++ [.confirm]))).2 =
      [.derivePrivateKey path] ::
        (List.replicate presses.length [] ++
          [addressAnswer (publicKeyOf sdk path) presses])

/-- The screen that GET_PUBLIC_KEY leaves shows the address of its key. -/
theorem address_addressUi (path : Bip44Path) (ui : Ui) :
    (addressUi sdk (keyContext sdk path) ui).address =
      addressText sdk
        (publicKeyHash160 sdk
          (createSignatureRedeemScript (publicKeyOf sdk path))) := by
  have length :
      (publicKeyHash160 sdk
        (createSignatureRedeemScript (publicKeyOf sdk path))).length =
          uint160Len :=
    Vector.length_toList
  change snprintf 35
    (cString (scriptHashToAddress sdk (zeros addressLen) addressLen
      (publicKeyHash160 sdk
        (createSignatureRedeemScript
          (keyContext sdk path).rawPublicKey)))) = _
  rw [rawPublicKey_keyContext,
    scriptHashToAddress_eq sdk length (length_zeros _)]
  exact snprintf_addressText sdk length

/-- Both buttons answer on the Approve and the Reject steps only. -/
theorem uiConfirm_address
    {app : App} {cursor : Nat} (inside : cursor < 4)
    (step : app.ui.step = displayPubkeyFlow[cursor]?)
    (callback : app.ui.validateCallback = some .pubkey) :
    (uiConfirm sdk app).2 =
      if cursor = 2 then
        [.response (0x04 :: app.context.rawPublicKey) swOk]
      else if cursor = 3 then ioSendSw swDeny
      else [] := by
  match cursor, inside with
  | 0, _ => rw [uiConfirm_of_no_step sdk (by rw [step]; decide)]; rfl
  | 1, _ => rw [uiConfirm_of_no_step sdk (by rw [step]; decide)]; rfl
  | 2, _ =>
      rw [uiConfirm, step]
      change (gValidateCallback sdk true app).2 = _
      rw [gValidateCallback, callback]
      rfl
  | 3, _ =>
      rw [uiConfirm, step]
      change (gValidateCallback sdk false app).2 = _
      rw [gValidateCallback, callback]
      rfl

/-- The display after some presses on the review of an address. -/
theorem runFrom_addressReview
    (app : App) {path : Bip44Path}
    (valid : pathOffence 0x80000010 4999 path = none)
    (presses : List Press) :
    (device sdk).runFrom app
        (getPublicKeyEvent 1 (pathBytes path) ::
          presses.map Event.press) =
      (⟨keyContext sdk path,
          { addressUi sdk (keyContext sdk path) app.ui with
            index := cursorAfter 4 presses }⟩,
        [.derivePrivateKey path] :: List.replicate presses.length []) := by
  have shown : (device sdk).step app
      (getPublicKeyEvent 1 (pathBytes path)) =
        (⟨keyContext sdk path,
          addressUi sdk (keyContext sdk path) app.ui⟩,
          [.derivePrivateKey path]) :=
    (deviceStep_key app valid (.inr rfl)).trans (if_pos (by decide))
  have steps : (addressUi sdk (keyContext sdk path) app.ui).steps =
      displayPubkeyFlow := rfl
  have first : (addressUi sdk (keyContext sdk path) app.ui).index = 0 := rfl
  generalize addressUi sdk (keyContext sdk path) app.ui = start
    at shown steps first ⊢
  have plain : PlainFlow start.steps := by
    rw [steps]
    decide
  have browsed := @runFrom_presses sdk ⟨keyContext sdk path, start⟩ presses
  rw [plain.pressAll first presses, steps] at browsed
  rw [(device sdk).runFrom_cons shown, browsed]
  rfl

theorem address_of_review
    (app : App) {path : Bip44Path}
    (valid : pathOffence 0x80000010 4999 path = none)
    (presses : List Press) :
    ((device sdk).runFrom app
        (getPublicKeyEvent 1 (pathBytes path) ::
          presses.map Event.press)).1.ui.address =
      addressText sdk
        (publicKeyHash160 sdk
          (createSignatureRedeemScript (publicKeyOf sdk path))) := by
  rw [runFrom_addressReview app valid]
  exact address_addressUi path app.ui

/-- The user reads the address of the key that is sent. -/
theorem addressReviewed
    (sdk : Sdk) (before : List Event) {path : Bip44Path}
    (valid : pathOffence 0x80000010 4999 path = none)
    (presses : List Press) :
    AddressReviewed sdk path ((device sdk).after before) presses := by
  generalize (device sdk).after before = app
  have walked := @runFrom_addressReview sdk app _ valid presses
  have address := @address_of_review sdk app _ valid presses
  have callback :
      (addressUi sdk (keyContext sdk path) app.ui).validateCallback =
        some .pubkey := rfl
  have steps : (addressUi sdk (keyContext sdk path) app.ui).steps =
      displayPubkeyFlow := rfl
  have key := @rawPublicKey_keyContext sdk path
  generalize addressUi sdk (keyContext sdk path) app.ui = start
    at walked callback steps
  have onStep (cursor : Nat) :
      ({ start with index := cursor } : Ui).step =
        displayPubkeyFlow[cursor]? :=
    congrArg (·[cursor]?) steps
  constructor
  · exact address
  · rw [walked]
    exact onStep _
  · have answers := @uiConfirm_address sdk
      ⟨keyContext sdk path, { start with index := cursorAfter 4 presses }⟩
      _ (cursorAfter_lt (by decide) presses) (onStep _) callback
    rw [← List.cons_append,
      (device sdk).runFrom_append walked
        ((device sdk).runFrom_cons (Prod.mk.eta).symm [])]
    change _ :: (_ ++ [(uiConfirm sdk _).2]) = _
    rw [answers, key]
    rfl

/-- Two presses of the right button lead to the Approve step. -/
theorem addressReviewed_firstPath :
    AddressReviewed twoByteSigner firstPath
        ((device twoByteSigner).after [.confirm]) [.right, .right] ∧
      addressAnswer (publicKeyOf twoByteSigner firstPath)
          [.right, .right] =
        [.response (0x04 :: publicKeyOf twoByteSigner firstPath) swOk] :=
  ⟨addressReviewed twoByteSigner [.confirm] (by decide) [.right, .right],
    rfl⟩

end Neo3App
