import Neo3App.Session.Signing

/-!
# The approved address

The address on the screen is printed once, when its review starts; the key of
the response is read at the approval, from the memory that the transaction
shares.  It is the key of the address wherever no request with another path
has reached its handler in between.
-/

namespace Neo3App

open Neo3App.Lib

variable {sdk : Sdk}

/-- `ui_action_validate_pubkey(true)` runs at this turn. -/
def Lib.Turn.ApprovesAddress (turn : DeviceTurn) : Prop :=
  turn.input = .confirm ∧ turn.state.ui.step = some .approve ∧
    turn.state.ui.validateCallback = some .pubkey

/-- What `ui_display_address` puts on the screen for a key. -/
def shownAddress (sdk : Sdk) (key : List UInt8) : List Char :=
  snprintf 35
    (cString (addressFromPubkey sdk key (zeros addressLen) addressLen))

/-- The response at `turn` holds the key of the address whose review started
at `review`. -/
structure SendsShownKey (sdk : Sdk) (turn review : DeviceTurn)
    (key : List UInt8) : Prop where
  onScreen : turn.state.ui.review = (review.result sdk).1.ui.review
  address : turn.state.ui.address = shownAddress sdk key
  ofReview : (review.result sdk).1.context.rawPublicKey = key
  length_key : key.length = pubkeyLen
  sent : (turn.result sdk).2 = [.response (0x04 :: key) swOk]

/-- Every approved address belongs to the key that is sent. -/
def ApprovedIsSent (sdk : Sdk) (history : List DeviceTurn)
    (turn : DeviceTurn) : Prop :=
  turn.ApprovesAddress → ∃ earlier review later key,
    LastTurn (Turn.StartsAddressReview sdk) earlier review later history ∧
      SendsShownKey sdk turn review key

/-- The turn asks for a key with the path of the review. -/
def Lib.Turn.RepeatsKey (turn review : DeviceTurn) : Prop :=
  turn.IsKey ∧ ∃ path, turn.AcceptsPath path ∧ review.AcceptsPath path

/-- At the approval of an address every path that a request has brought since
its review started is an accepted one of GET_PUBLIC_KEY and the same. -/
def AddressUndisturbed (sdk : Sdk) (history : List DeviceTurn)
    (turn : DeviceTurn) : Prop :=
  turn.ApprovesAddress → ∀ earlier review later,
    LastTurn (Turn.StartsAddressReview sdk) earlier review later history →
      ∀ next ∈ later, next.CarriesPath → next.RepeatsKey review

/-- The shared memory of an address review: no chunk is taken into it. -/
structure HoldsKey (sdk : Sdk) (path : Bip44Path) (context : GlobalCtx) :
    Prop where
  rawTx : context.rawTx = (keyContext sdk path).rawTx
  reqType : context.reqType = .confirmAddress

theorem holdsKey_keyContext (path : Bip44Path) :
    HoldsKey sdk path (keyContext sdk path) :=
  ⟨rfl, rfl⟩

/-- A turn without a path leaves the key in its place. -/
theorem HoldsKey.of_no_path
    {turn : DeviceTurn} {path : Bip44Path} (wf : turn.state.context.Wf)
    (noPath : ¬ turn.CarriesPath)
    (holds : HoldsKey sdk path turn.state.context) :
    HoldsKey sdk path (turn.result sdk).1.context := by
  have outcome := deviceStep_outcome sdk wf turn.input
  rcases turn with ⟨app, event⟩
  rcases result : deviceStep sdk app event with ⟨after, effects⟩
  simp only [result] at outcome
  rw [Turn.result, result]
  cases outcome with
  | pathRefused request | pathAccepted request =>
      exact absurd (.inl ⟨_, request⟩) noPath
  | keyRefused request | keySent request | keyShown request =>
      exact absurd (.inr ⟨_, _, request⟩) noPath
  | magicMissing _ passes | magicRead _ passes | chunkTooLong _ passes
  | chunkTaken _ passes | parseFailed _ passes | reviewStarted _ passes =>
      cases holds.reqType.symm.trans passes
  | answered | magicGuarded | chunkGuarded | pressed | ignored
  | keyApproved | keyDenied | signed | signFailed | denied =>
      exact ⟨holds.rawTx, holds.reqType⟩

theorem Lib.Turn.AcceptsPath.words
    {turn : DeviceTurn} {data : List UInt8} {path : Bip44Path}
    (accepts : turn.AcceptsPath path) (carried : data ∈ turn.pathData) :
    20 ≤ data.length ∧ ValidPath (pathWords data) ∧ path = pathWords data := by
  obtain ⟨other, isCarried, validated⟩ := accepts
  cases carried.symm.trans isCarried
  exact
    (validatePath_eq_ok_iff (length_pathData_lt carried) _ _).mp validated

theorem Lib.Turn.AcceptsPath.unique
    {turn : DeviceTurn} {path other : Bip44Path}
    (accepts : turn.AcceptsPath path) (also : turn.AcceptsPath other) :
    path = other := by
  obtain ⟨data, carried, _⟩ := id accepts
  rw [(accepts.words carried).2.2, (also.words carried).2.2]

/-- A request for a key with an accepted path leaves that key. -/
theorem HoldsKey.of_key
    {turn : DeviceTurn} {path : Bip44Path} (wf : turn.state.context.Wf)
    (isKey : turn.IsKey) (accepts : turn.AcceptsPath path) :
    HoldsKey sdk path (turn.result sdk).1.context := by
  obtain ⟨showOnScreen, data, request⟩ := isKey
  have carried : turn.pathData = some data := by
    rw [Turn.pathData, request]
    rfl
  obtain ⟨long, valid, rfl⟩ := accepts.words carried
  have outcome := deviceStep_outcome sdk wf turn.input
  have small := length_pathData_lt carried
  rcases turn with ⟨app, event⟩
  change event.request = some (.publicKey showOnScreen data) at request
  rcases result : deviceStep sdk app event with ⟨after, effects⟩
  simp only [result] at outcome
  rw [Turn.result, result]
  cases outcome with
  | keySent other | keyShown other =>
      cases request.symm.trans other
      exact holdsKey_keyContext _
  | keyRefused other refused =>
      cases request.symm.trans other
      have accepted :=
        (validatePath_eq_ok_iff small GlobalCtx.zero.bip44Path _).mpr
          ⟨long, valid, rfl⟩
      cases refused.symm.trans accepted
  | answered other | pathRefused other | pathAccepted other
  | magicGuarded other | magicMissing other | magicRead other
  | chunkGuarded other | chunkTooLong other | chunkTaken other
  | parseFailed other | reviewStarted other =>
      cases request.symm.trans other
  | pressed | ignored | keyApproved | keyDenied | signed | signFailed
  | denied =>
      cases request

theorem AddressStart.acceptsPath
    {turn : DeviceTurn} {data : List UInt8}
    (start : AddressStart sdk turn data) :
    turn.AcceptsPath (pathWords data) := by
  have carried : turn.pathData = some data := by
    rw [Turn.pathData, start.request]
    rfl
  refine ⟨data, carried, ?_⟩
  exact
    (validatePath_eq_ok_iff (length_pathData_lt carried) _ _).mpr
      ⟨start.long, start.valid, rfl⟩

/-- The key of the last address review, while no other path comes. -/
structure KeySinceReview (sdk : Sdk) (history : List DeviceTurn)
    (context : GlobalCtx) : Prop where
  keeps : ∀ {earlier later : List DeviceTurn} {review : DeviceTurn},
    LastTurn (Turn.StartsAddressReview sdk) earlier review later history →
      (∀ next ∈ later, next.CarriesPath → next.RepeatsKey review) →
        ∀ path, review.AcceptsPath path → HoldsKey sdk path context

theorem KeySinceReview.append
    {history : List DeviceTurn} {turn : DeviceTurn}
    (wf : turn.state.context.Wf)
    (since : KeySinceReview sdk history turn.state.context) :
    KeySinceReview sdk (history ++ [turn]) (turn.result sdk).1.context where
  keeps := by
    intro earlier later review last repeats path accepted
    rcases last.of_append_singleton with
      ⟨_, rfl, rfl⟩ | ⟨rest, rfl, _, before⟩
    · obtain ⟨⟨data, request⟩, _⟩ := last.isKind
      exact .of_key wf ⟨_, data, request⟩ accepted
    · have held :=
        since.keeps before
          (fun next member => repeats next (List.mem_append_left _ member))
          path accepted
      by_cases carries : turn.CarriesPath
      · obtain ⟨isKey, other, accepts, ofReview⟩ :=
          repeats turn (by simp) carries
        rw [accepted.unique ofReview]
        exact .of_key wf isKey accepts
      · exact held.of_no_path wf carries

/-- The invariants of the screen and of the last address review. -/
theorem keySinceReview_invariant (sdk : Sdk) :
    (device sdk).Invariant (fun _ _ => True)
      fun history app =>
        (app.context.Wf ∧ OnScreen sdk history app.ui) ∧
          app.context.Wf ∧ KeySinceReview sdk history app.context := by
  refine (onScreen_invariant sdk).and (device_invariant ?_ ?_)
  · exact ⟨fun last => absurd last.mem List.not_mem_nil⟩
  · intro history app after event effects wf since _ result _
    have next := @KeySinceReview.append sdk _ ⟨app, event⟩ wf since
    rw [Turn.result, result] at next
    exact next

/-- The Approve step with the callback for addresses belongs to the review of
an address. -/
theorem OnScreen.flow_of_address
    {history : List DeviceTurn} {ui : Ui} (shown : OnScreen sdk history ui)
    (step : ui.step = some .approve)
    (callback : ui.validateCallback = some .pubkey) : ui.flow = .pubkey := by
  cases flow : ui.flow with
  | pubkey => rfl
  | menu =>
      rw [Ui.step, Ui.steps, flow] at step
      cases step
  | transaction =>
      obtain ⟨_, review, _, _, _, _, _, start, display⟩ :=
        shown.transaction flow
      have other := Ui.callback_of_review display
      rw [start.result, callback] at other
      cases other

theorem Lib.Turn.ApprovesAddress.result
    {turn : DeviceTurn} (approves : turn.ApprovesAddress)
    (wf : turn.state.context.Wf) :
    (turn.result sdk).2 = helperSendResponsePubkey turn.state.context := by
  obtain ⟨confirms, step, callback⟩ := approves
  have outcome := deviceStep_outcome sdk wf turn.input
  rcases turn with ⟨app, event⟩
  rcases result : deviceStep sdk app event with ⟨after, effects⟩
  simp only [result] at outcome
  rw [Turn.result, result]
  change app.ui.step = some .approve at step
  change app.ui.validateCallback = some .pubkey at callback
  cases outcome with
  | keyApproved => rfl
  | keyDenied other =>
      rw [step] at other
      exact absurd other (by decide)
  | ignored nothing =>
      rw [step, callback] at nothing
      exact absurd nothing (by decide)
  | signed _ other | signFailed _ other | denied _ other =>
      cases callback.symm.trans other
  | pressed => cases confirms
  | answered request | pathRefused request | pathAccepted request
  | keyRefused request | keySent request | keyShown request
  | magicGuarded request | magicMissing request | magicRead request
  | chunkGuarded request | chunkTooLong request | chunkTaken request
  | parseFailed request | reviewStarted request =>
      cases confirms
      cases request

/-- **The approved address belongs to the key that is sent** in a run whose
address reviews are not disturbed before they are approved. -/
theorem approvedIsSent_of_undisturbed
    (sdk : Sdk) (events : List Event)
    (undisturbed :
      (device sdk).Throughout (AddressUndisturbed sdk) events) :
    (device sdk).Throughout (ApprovedIsSent sdk) events := by
  refine
    ((keySinceReview_invariant sdk).under (AddressUndisturbed sdk)).throughout
      ?_ undisturbed
  rintro history turn ⟨⟨wf, shown⟩, _, since⟩ undisturbed approves
  obtain ⟨_, step, callback⟩ := id approves
  obtain ⟨earlier, review, later, data, last, start, onScreen⟩ :=
    shown.address (shown.flow_of_address step callback)
  have holds :=
    since.keeps last (undisturbed approves earlier review later last)
      (pathWords data) start.acceptsPath
  have sameKey : turn.state.context.rawPublicKey =
      (review.result sdk).1.context.rawPublicKey := by
    rw [start.result]
    exact congrArg (List.take pubkeyLen) holds.rawTx
  refine
    ⟨earlier, review, later, turn.state.context.rawPublicKey, last,
      onScreen, ?_, sameKey.symm, ?_, approves.result wf⟩
  · have shownText := congrArg Ui.address onScreen
    rw [sameKey]
    rw [start.result] at shownText ⊢
    exact shownText
  · rw [GlobalCtx.rawPublicKey, List.length_take, wf.length_rawTx]
    rfl

/-- The review of the address of the first key, up to the Approve step. -/
def addressReview : List Event :=
  [getPublicKeyEvent 1 firstKeyPath, .press .right, .press .right]

theorem addressUndisturbed_addressReview :
    (device Sdk.constant).Throughout (AddressUndisturbed Sdk.constant)
      (addressReview ++ [.confirm]) := by
  rintro before input later split ⟨confirms, _⟩ earlier review rest last
  cases confirms
  obtain ⟨rfl, rfl⟩ := eq_of_append_singleton_eq split (by decide)
  have known : ∀ turn ∈ (device Sdk.constant).trace addressReview,
      turn.request = none ∨
        turn.request = some (.publicKey true firstKeyPath) ∧
          (turn.result Sdk.constant).2 =
            [.derivePrivateKey (pathWords firstKeyPath)] := by
    decide +kernel
  intro next member carries
  have inTrace : next ∈ (device Sdk.constant).trace addressReview := by
    rw [last.split]
    exact List.mem_append_right _ (List.mem_cons_of_mem _ member)
  rcases known next inTrace with silent | ⟨request, effects⟩
  · rcases carries with ⟨_, request⟩ | ⟨_, _, request⟩ <;>
      cases silent.symm.trans request
  · refine absurd ⟨⟨_, request⟩, fun data sw isResponse => ?_⟩
      (last.isLast next member)
    rw [effects] at isResponse
    cases List.mem_singleton.mp isResponse

theorem approvedIsSent_addressReview :
    (device Sdk.constant).Throughout (ApprovedIsSent Sdk.constant)
      (addressReview ++ [.confirm]) :=
  approvedIsSent_of_undisturbed Sdk.constant (addressReview ++ [.confirm])
    addressUndisturbed_addressReview

/-- The same review, with two chunks of SIGN_TX before the approval. -/
def overwrittenReview : List Event :=
  [getPublicKeyEvent 1 firstKeyPath, signTxEvent 0 p2More firstKeyPath,
    signTxEvent 2 p2More [1], .press .right, .press .right]

/-- Another key than that of the address on the screen can be sent. -/
theorem not_approvedIsSent_overwritten :
    ¬ (device Sdk.constant).Throughout (ApprovedIsSent Sdk.constant)
      (overwrittenReview ++ [.confirm]) := by
  intro sent
  have turn := sent overwrittenReview .confirm [] rfl
  obtain ⟨_, review, _, key, last, sends⟩ :=
    turn ⟨rfl, by decide +kernel, by decide +kernel⟩
  have otherKey :
      ∀ review ∈ (device Sdk.constant).trace overwrittenReview,
        review.pathData.isSome = true →
          ((device Sdk.constant).step
            ((device Sdk.constant).after overwrittenReview) .confirm).2 ≠
            [.response
              (0x04 :: (review.result Sdk.constant).1.context.rawPublicKey)
              swOk] := by
    decide +kernel
  obtain ⟨⟨data, request⟩, _⟩ := last.isKind
  exact
    otherKey review last.mem (by rw [Turn.pathData, request]; rfl)
      (sends.ofReview ▸ sends.sent)

end Neo3App
