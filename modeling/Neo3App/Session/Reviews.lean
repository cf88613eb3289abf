import Neo3App.Session.Step

/-!
# Reviews and the history

Which turns start a review, and what the later turns leave alone: the review
on the screen is the last one that was started, and only a request with a key
path or a new review changes the path and the hash of the context.
-/

namespace Neo3App

open Neo3App.Lib

def Lib.Turn.CarriesPath (turn : DeviceTurn) : Prop :=
  turn.IsPath ∨ turn.IsKey

/-- GET_PUBLIC_KEY is not answered: the review of an address starts. -/
def Lib.Turn.StartsAddressReview (sdk : Sdk) (turn : DeviceTurn) : Prop :=
  (∃ data, turn.request = some (.publicKey true data)) ∧
    ∀ data sw, .response data sw ∉ (turn.result sdk).2

structure ReviewStart (sdk : Sdk) (turn : DeviceTurn) (data : List UInt8)
    (tx : Transaction) : Prop where
  request : turn.request = some (.chunk false data)
  passes : turn.state.context.reqType = .confirmTransaction
  fits : turn.state.context.rawTxLen + data.length ≤ maxTransactionLen
  parsed :
    transactionDeserialize sdk (turn.state.context.append data).rawBuffer
      turn.state.context.transaction = (.parsingOk, tx)
  result :
    turn.result sdk =
      (⟨reviewContext sdk (turn.state.context.append data) tx,
        reviewUi (reviewContext sdk (turn.state.context.append data) tx)
          turn.state.ui⟩, [])

structure AddressStart (sdk : Sdk) (turn : DeviceTurn)
    (data : List UInt8) : Prop where
  request : turn.request = some (.publicKey true data)
  long : 20 ≤ data.length
  valid : ValidPath (pathWords data)
  result :
    turn.result sdk =
      (⟨keyContext sdk (pathWords data),
        addressUi sdk (keyContext sdk (pathWords data)) turn.state.ui⟩,
        [.derivePrivateKey (pathWords data)])

variable {sdk : Sdk} {turn : DeviceTurn}

theorem ReviewStart.startsReview
    {data : List UInt8} {tx : Transaction}
    (start : ReviewStart sdk turn data tx) : turn.StartsReview sdk :=
  ⟨⟨data, start.request⟩, congrArg Prod.snd start.result⟩

theorem AddressStart.startsAddressReview
    {data : List UInt8} (start : AddressStart sdk turn data) :
    turn.StartsAddressReview sdk := by
  refine ⟨⟨data, start.request⟩, fun data sw member => ?_⟩
  rw [start.result] at member
  cases List.mem_singleton.mp member

theorem Lib.Turn.StartsReview.start
    (starts : turn.StartsReview sdk) (wf : turn.state.context.Wf) :
    ∃ data tx, ReviewStart sdk turn data tx := by
  obtain ⟨⟨data, request⟩, silent⟩ := starts
  have outcome := deviceStep_outcome sdk wf turn.input
  rcases turn with ⟨app, event⟩
  rcases result : deviceStep sdk app event with ⟨after, effects⟩
  rw [Turn.result, result] at silent
  change effects = [] at silent
  change event.request = some (.chunk false data) at request
  simp only [result] at outcome
  cases outcome with
  | reviewStarted chunk passes fits parsed =>
      exact ⟨_, _, chunk, passes, fits, parsed, result⟩
  | answered other | pathRefused other | pathAccepted other
  | keyRefused other | keySent other | keyShown other
  | magicGuarded other | magicMissing other | magicRead other
  | chunkTaken other =>
      cases request.symm.trans other
  | chunkGuarded | chunkTooLong | parseFailed =>
      cases silent
  | pressed | ignored | keyApproved | keyDenied | signed | signFailed
  | denied =>
      cases request

theorem Lib.Turn.StartsAddressReview.start
    (starts : turn.StartsAddressReview sdk) (wf : turn.state.context.Wf) :
    ∃ data, AddressStart sdk turn data := by
  obtain ⟨⟨data, request⟩, silent⟩ := starts
  have outcome := deviceStep_outcome sdk wf turn.input
  rcases turn with ⟨app, event⟩
  rcases result : deviceStep sdk app event with ⟨after, effects⟩
  rw [Turn.result, result] at silent
  change ∀ data sw, .response data sw ∉ effects at silent
  change event.request = some (.publicKey true data) at request
  simp only [result] at outcome
  cases outcome with
  | keyShown isKey long valid =>
      exact ⟨_, isKey, long, valid, result⟩
  | keyRefused =>
      exact absurd (List.mem_singleton_self _) (silent _ _)
  | answered other | pathRefused other | pathAccepted other | keySent other
  | magicGuarded other | magicMissing other | magicRead other
  | chunkGuarded other | chunkTooLong other | chunkTaken other
  | parseFailed other | reviewStarted other =>
      cases request.symm.trans other
  | pressed | ignored | keyApproved | keyDenied | signed | signFailed
  | denied =>
      cases request

/-- A turn that starts no review keeps the one on the screen or returns to
the menu. -/
theorem display_of_no_start
    (wf : turn.state.context.Wf) (noReview : ¬ turn.StartsReview sdk)
    (noAddress : ¬ turn.StartsAddressReview sdk) :
    (turn.result sdk).1.ui.review = turn.state.ui.review ∨
      (turn.result sdk).1.ui.flow = .menu := by
  have outcome := deviceStep_outcome sdk wf turn.input
  rcases turn with ⟨app, event⟩
  rcases result : deviceStep sdk app event with ⟨after, effects⟩
  simp only [result] at outcome
  rw [Turn.result, result]
  change after.ui.review = app.ui.review ∨ after.ui.flow = .menu
  cases outcome with
  | reviewStarted request passes fits parsed =>
      have start : ReviewStart sdk ⟨app, event⟩ _ _ :=
        ⟨request, passes, fits, parsed, result⟩
      exact absurd start.startsReview noReview
  | keyShown request long valid =>
      have start : AddressStart sdk ⟨app, event⟩ _ :=
        ⟨request, long, valid, result⟩
      exact absurd start.startsAddressReview noAddress
  | pressed button =>
      exact .inl (uiPress_review app.context button app.ui)
  | keyApproved | keyDenied | signed | signFailed | denied =>
      exact .inr rfl
  | answered | pathRefused | pathAccepted | keyRefused | keySent
  | magicGuarded | magicMissing | magicRead | chunkGuarded | chunkTooLong
  | chunkTaken | parseFailed | ignored =>
      exact .inl rfl

/-- The review on the screen is the last one that was started. -/
structure OnScreen (sdk : Sdk) (history : List DeviceTurn) (ui : Ui) :
    Prop where
  transaction : ui.flow = .transaction → ∃ earlier review later data tx,
    LastTurn (Turn.StartsReview sdk) earlier review later history ∧
      review.state.context.Wf ∧ ReviewStart sdk review data tx ∧
        ui.review = (review.result sdk).1.ui.review
  address : ui.flow = .pubkey → ∃ earlier review later data,
    LastTurn (Turn.StartsAddressReview sdk) earlier review later history ∧
      AddressStart sdk review data ∧
        ui.review = (review.result sdk).1.ui.review

theorem Ui.flow_of_review
    {before after : Ui} (same : after.review = before.review) :
    after.flow = before.flow := by
  have flows := congrArg Ui.flow same
  exact flows

theorem OnScreen.append
    {history : List DeviceTurn} (wf : turn.state.context.Wf)
    (shown : OnScreen sdk history turn.state.ui) :
    OnScreen sdk (history ++ [turn]) (turn.result sdk).1.ui := by
  by_cases startsReview : turn.StartsReview sdk
  · obtain ⟨data, tx, start⟩ := startsReview.start wf
    constructor
    · intro _
      exact
        ⟨history, turn, [], data, tx, .new history startsReview, wf, start,
          rfl⟩
    · intro isAddress
      rw [start.result] at isAddress
      cases isAddress
  by_cases startsAddress : turn.StartsAddressReview sdk
  · obtain ⟨data, start⟩ := startsAddress.start wf
    constructor
    · intro isTransaction
      rw [start.result] at isTransaction
      cases isTransaction
    · intro _
      exact ⟨history, turn, [], data, .new history startsAddress, start, rfl⟩
  rcases display_of_no_start wf startsReview startsAddress with same | menu
  · constructor
    · intro isTransaction
      rw [Ui.flow_of_review same] at isTransaction
      obtain ⟨earlier, review, later, data, tx, last, reviewWf, start,
        display⟩ := shown.transaction isTransaction
      exact
        ⟨earlier, review, later ++ [turn], data, tx,
          last.append startsReview, reviewWf, start, same.trans display⟩
    · intro isAddress
      rw [Ui.flow_of_review same] at isAddress
      obtain ⟨earlier, review, later, data, last, start, display⟩ :=
        shown.address isAddress
      exact
        ⟨earlier, review, later ++ [turn], data,
          last.append startsAddress, start, same.trans display⟩
  · constructor
    · intro isTransaction
      cases menu.symm.trans isTransaction
    · intro isAddress
      cases menu.symm.trans isAddress

/-- The invariant of the screen holds in every run. -/
theorem onScreen_invariant (sdk : Sdk) :
    (device sdk).Invariant (fun _ _ => True)
      fun history app => app.context.Wf ∧ OnScreen sdk history app.ui := by
  apply device_invariant
  · exact ⟨fun flow => (by cases flow), fun flow => (by cases flow)⟩
  intro history app after event effects wf shown _ result _
  have next := @OnScreen.append sdk ⟨app, event⟩ _ wf shown
  rw [Turn.result, result] at next
  exact next

theorem Ui.callback_of_review
    {before after : Ui} (same : after.review = before.review) :
    after.validateCallback = before.validateCallback := by
  have callbacks := congrArg Ui.validateCallback same
  exact callbacks

theorem Ui.transactionFlow_of_review
    {before after : Ui} (same : after.review = before.review) :
    after.transactionFlow = before.transactionFlow := by
  have flows := congrArg Ui.transactionFlow same
  exact flows

/-- The Approve step with the callback for transactions belongs to the review
of a transaction. -/
theorem OnScreen.flow_of_approve
    {history : List DeviceTurn} {ui : Ui} (shown : OnScreen sdk history ui)
    (step : ui.step = some .approve)
    (callback : ui.validateCallback = some .transaction) :
    ui.flow = .transaction := by
  cases flow : ui.flow with
  | transaction => rfl
  | menu =>
      rw [Ui.step, Ui.steps, flow] at step
      cases step
  | pubkey =>
      obtain ⟨_, review, _, _, _, start, display⟩ := shown.address flow
      have other := Ui.callback_of_review display
      rw [start.result, callback] at other
      cases other

/-- The value that chunk 1 stores as the network magic. -/
def magicValue (data : List UInt8) : UInt32 :=
  if 4 ≤ data.length then readU32Le data 0 else 0

/-- A turn whose request carries no path keeps the path and the kind of the
request. -/
theorem path_of_no_path
    (wf : turn.state.context.Wf) (noPath : ¬ turn.CarriesPath) :
    (turn.result sdk).1.context.bip44Path = turn.state.context.bip44Path ∧
      (turn.result sdk).1.context.reqType = turn.state.context.reqType := by
  have outcome := deviceStep_outcome sdk wf turn.input
  rcases turn with ⟨app, event⟩
  rcases result : deviceStep sdk app event with ⟨after, effects⟩
  simp only [result] at outcome
  rw [Turn.result, result]
  cases outcome with
  | pathRefused request | pathAccepted request =>
      exact absurd (.inl ⟨_, request⟩) noPath
  | keyRefused request | keySent request | keyShown request =>
      exact absurd (.inr ⟨_, _, request⟩) noPath
  | answered | magicGuarded | magicMissing | magicRead | chunkGuarded
  | chunkTooLong | chunkTaken | parseFailed | reviewStarted | pressed
  | ignored | keyApproved | keyDenied | signed | signFailed | denied =>
      exact ⟨rfl, rfl⟩

/-- A turn that carries no path and starts no review keeps the hash. -/
theorem hash_of_no_start
    (wf : turn.state.context.Wf) (noPath : ¬ turn.CarriesPath)
    (noReview : ¬ turn.StartsReview sdk) :
    (turn.result sdk).1.context.hash = turn.state.context.hash := by
  have outcome := deviceStep_outcome sdk wf turn.input
  rcases turn with ⟨app, event⟩
  rcases result : deviceStep sdk app event with ⟨after, effects⟩
  simp only [result] at outcome
  rw [Turn.result, result]
  cases outcome with
  | pathRefused request | pathAccepted request =>
      exact absurd (.inl ⟨_, request⟩) noPath
  | keyRefused request | keySent request | keyShown request =>
      exact absurd (.inr ⟨_, _, request⟩) noPath
  | reviewStarted request passes fits parsed =>
      have start : ReviewStart sdk ⟨app, event⟩ _ _ :=
        ⟨request, passes, fits, parsed, result⟩
      exact absurd start.startsReview noReview
  | answered | magicGuarded | magicMissing | magicRead | chunkGuarded
  | chunkTooLong | chunkTaken | parseFailed | pressed | ignored
  | keyApproved | keyDenied | signed | signFailed | denied =>
      rfl

/-- Only chunk 1 and a request with a path change the magic. -/
theorem magic_of_no_magic
    (wf : turn.state.context.Wf) (noPath : ¬ turn.CarriesPath)
    (noMagic : ¬ turn.IsMagic) :
    (turn.result sdk).1.context.networkMagic =
      turn.state.context.networkMagic := by
  have outcome := deviceStep_outcome sdk wf turn.input
  rcases turn with ⟨app, event⟩
  rcases result : deviceStep sdk app event with ⟨after, effects⟩
  simp only [result] at outcome
  rw [Turn.result, result]
  cases outcome with
  | pathRefused request | pathAccepted request =>
      exact absurd (.inl ⟨_, request⟩) noPath
  | keyRefused request | keySent request | keyShown request =>
      exact absurd (.inr ⟨_, _, request⟩) noPath
  | magicMissing request | magicRead request =>
      exact absurd ⟨_, request⟩ noMagic
  | answered | magicGuarded | chunkGuarded | chunkTooLong | chunkTaken
  | parseFailed | reviewStarted | pressed | ignored | keyApproved
  | keyDenied | signed | signFailed | denied =>
      rfl

/-- Chunk 1 of a request for a transaction stores its magic. -/
theorem magic_of_magic
    (wf : turn.state.context.Wf)
    (passes : turn.state.context.reqType = .confirmTransaction)
    {data : List UInt8} (isMagic : turn.request = some (.magic data)) :
    (turn.result sdk).1.context.networkMagic = magicValue data := by
  have outcome := deviceStep_outcome sdk wf turn.input
  rcases turn with ⟨app, event⟩
  change event.request = some (.magic data) at isMagic
  rcases result : deviceStep sdk app event with ⟨after, effects⟩
  simp only [result] at outcome
  rw [Turn.result, result]
  cases outcome with
  | magicGuarded _ guarded =>
      cases guarded.symm.trans passes
  | magicMissing request _ short =>
      cases isMagic.symm.trans request
      exact (if_neg (Nat.not_le.mpr short)).symm
  | magicRead request _ long =>
      cases isMagic.symm.trans request
      exact (if_pos long).symm
  | answered other | pathRefused other | pathAccepted other
  | keyRefused other | keySent other | keyShown other
  | chunkGuarded other | chunkTooLong other | chunkTaken other
  | parseFailed other | reviewStarted other =>
      cases isMagic.symm.trans other
  | pressed | ignored | keyApproved | keyDenied | signed | signFailed
  | denied =>
      cases isMagic

/-- `crypto_sign_tx` runs at this turn. -/
def Lib.Turn.Signs (sdk : Sdk) (turn : DeviceTurn) : Prop :=
  ∃ privateKey digest, .ecdsaSign privateKey digest ∈ (turn.result sdk).2

/-- A signature is made on the Approve step of a transaction, with the
context of that moment. -/
theorem Lib.Turn.Signs.approves
    (signs : turn.Signs sdk) (wf : turn.state.context.Wf) :
    turn.input = .confirm ∧ turn.state.ui.step = some .approve ∧
      turn.state.ui.validateCallback = some .transaction ∧
        signingEffects sdk turn.state.context <+: (turn.result sdk).2 := by
  obtain ⟨privateKey, digest, member⟩ := signs
  have outcome := deviceStep_outcome sdk wf turn.input
  rcases turn with ⟨app, event⟩
  rcases result : deviceStep sdk app event with ⟨after, effects⟩
  simp only [result] at outcome
  rw [Turn.result, result] at member ⊢
  cases outcome with
  | signed step callback signs =>
      exact ⟨rfl, step, callback, List.prefix_append _ _⟩
  | signFailed step callback fails =>
      exact ⟨rfl, step, callback, List.prefix_append _ _⟩
  | answered | pathRefused | pathAccepted | keyRefused | keySent | keyShown
  | magicGuarded | magicMissing | magicRead | chunkGuarded
  | chunkTooLong | chunkTaken | parseFailed | reviewStarted | pressed
  | ignored | keyApproved | keyDenied | denied =>
      simp [ioSendSw, helperSendResponsePubkey] at member

end Neo3App
