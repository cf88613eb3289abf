import Neo3App.Session.NoBlindSigning
import Neo3App.Ui.PrintedScreens
import Neo3App.Ui.SignersShown

/-!
# The indices of a review on the screen

The indices of `display_ctx` are reset when a review starts, and the array of
the signers that they index belongs to the context.  They fit together while
no request replaces the bytes or the transaction of the review.
-/

namespace Neo3App

open Neo3App.Lib

variable {sdk : Sdk} {turn : DeviceTurn}

/-- A press comes to a delimiter of the flow. -/
def Lib.Turn.MeetsDelimiter (turn : DeviceTurn) : Prop :=
  ∃ button, turn.input = .press button ∧
    turn.state.ui.MeetsDelimiter button

/-- The data of a chunk are taken into `raw_tx`. -/
def Lib.Turn.TakesData (turn : DeviceTurn) : Prop :=
  ∃ more data, turn.request = some (.chunk more data) ∧
    turn.state.context.rawTxLen + data.length ≤ maxTransactionLen

/-- What a signer screen is printed with: indices inside the transaction of
the context, which was parsed from the bytes in `raw_tx`. -/
structure PrintedFrom (sdk : Sdk) (history : List DeviceTurn)
    (context : GlobalCtx) (shown : Ui) : Prop where
  inRange : shown.displayCtx.InRange context.transaction
  accepted : AcceptedContext sdk context.received context
  parsed : ∃ review ∈ history,
    review.Hashes sdk context.received context.transaction

def PrintsCurrent (sdk : Sdk) (history : List DeviceTurn)
    (turn : DeviceTurn) : Prop :=
  ∀ button, turn.input = .press button →
    ∀ shown ∈ printedAt turn.state.context button turn.state.ui,
      PrintedFrom sdk history turn.state.context shown

/-- When the signer screens are reached, no path and no data have come since
the review started. -/
def SignersUndisturbed (sdk : Sdk) (history : List DeviceTurn)
    (turn : DeviceTurn) : Prop :=
  turn.MeetsDelimiter → ∀ earlier review later,
    LastTurn (Turn.StartsReview sdk) earlier review later history →
      ∀ next ∈ later, ¬ next.CarriesPath ∧ ¬ next.TakesData

/-- The transaction `tx` of a review of `b` is in the context, and a transfer
on the screen. -/
structure Reviewing (sdk : Sdk) (b : List UInt8) (tx : Transaction)
    (app : App) : Prop where
  parsed :
    transactionDeserialize sdk ⟨b, b.length, 0⟩ Transaction.zero =
      (.parsingOk, tx)
  transaction : app.context.transaction = tx
  received : app.context.received = b
  shows : app.ui.flow = .transaction → tx.isSystemAssetTransfer = true →
    ∃ screen ∈ reviewScreens tx, Shows app.context app.ui screen

theorem Reviewing.sizes
    {b : List UInt8} {tx : Transaction} {app : App}
    (reviewing : Reviewing sdk b tx app) : ReviewSizes tx := by
  obtain ⟨contents, encodes, decoded⟩ := decoded_of_parsed reviewing.parsed
  exact .of_decoded encodes decoded

theorem SignerScreen.text_congr
    {context other : GlobalCtx}
    (sameTransaction : other.transaction = context.transaction)
    (sameBytes : other.rawTx = context.rawTx) (i : Nat)
    (gScope : List Char) (screen : SignerScreen) :
    screen.text other i gScope = screen.text context i gScope := by
  cases screen <;>
    simp only [SignerScreen.text, sameTransaction, sameBytes]

/-- What a screen shows depends on the transaction and its bytes only. -/
theorem Shows.congr
    {context other : GlobalCtx} {ui : Ui} {screen : Screen}
    (shows : Shows context ui screen)
    (sameTransaction : other.transaction = context.transaction)
    (sameBytes : other.rawTx = context.rawTx) : Shows other ui screen where
  review := shows.review
  index := shows.index
  ctx := by
    rw [sameTransaction]
    exact shows.ctx
  printed := by
    intro i signerScreen isSigner
    obtain ⟨title, gScope, text⟩ := shows.printed i signerScreen isSigner
    refine ⟨?_, gScope, ?_⟩
    · rw [sameTransaction]
      exact title
    · rw [signerScreen.text_congr sameTransaction sameBytes]
      exact text

structure SameTransaction (before after : GlobalCtx) : Prop where
  transaction : after.transaction = before.transaction
  rawTx : after.rawTx = before.rawTx
  rawTxLen : after.rawTxLen = before.rawTxLen

theorem SameTransaction.received
    {before after : GlobalCtx} (same : SameTransaction before after) :
    after.received = before.received := by
  rw [GlobalCtx.received, GlobalCtx.received, same.rawTx, same.rawTxLen]

theorem Reviewing.keep
    {b : List UInt8} {tx : Transaction} {app after : App}
    (reviewing : Reviewing sdk b tx app)
    (same : SameTransaction app.context after.context)
    (display : after.ui = app.ui ∨ after.ui.flow = .menu) :
    Reviewing sdk b tx after where
  parsed := reviewing.parsed
  transaction := same.transaction.trans reviewing.transaction
  received := same.received.trans reviewing.received
  shows := by
    intro flow isTransfer
    rcases display with sameUi | menu
    · rw [sameUi] at flow ⊢
      obtain ⟨screen, isThere, shows⟩ := reviewing.shows flow isTransfer
      exact ⟨screen, isThere, shows.congr same.transaction same.rawTx⟩
    · cases menu.symm.trans flow

theorem Reviewing.press
    {b : List UInt8} {tx : Transaction} {app : App}
    (reviewing : Reviewing sdk b tx app) (button : Press) :
    Reviewing sdk b tx
      { app with ui := uiPress app.context button app.ui } where
  parsed := reviewing.parsed
  transaction := reviewing.transaction
  received := reviewing.received
  shows := by
    intro flow isTransfer
    have before : app.ui.flow = .transaction := by
      rwa [← Ui.flow_of_review (uiPress_review app.context button app.ui)]
    obtain ⟨screen, isThere, shows⟩ := reviewing.shows before isTransfer
    have sizes := reviewing.sizes
    have sameTx := reviewing.transaction
    rw [← sameTx] at sizes isThere ⊢
    exact shows.press sizes isThere button

/-- A turn without a path or data keeps the review in place. -/
theorem Reviewing.append
    {b : List UInt8} {tx : Transaction} (wf : turn.state.context.Wf)
    (noPath : ¬ turn.CarriesPath) (noData : ¬ turn.TakesData)
    (reviewing : Reviewing sdk b tx turn.state) :
    Reviewing sdk b tx (turn.result sdk).1 := by
  have outcome := deviceStep_outcome sdk wf turn.input
  rcases turn with ⟨app, event⟩
  rcases result : deviceStep sdk app event with ⟨after, effects⟩
  simp only [result] at outcome
  rw [Turn.result, result]
  cases outcome with
  | pathRefused request | pathAccepted request =>
      exact absurd (.inl ⟨_, request⟩) noPath
  | keyRefused request | keySent request | keyShown request =>
      exact absurd (.inr ⟨_, _, request⟩) noPath
  | chunkTaken request _ fits | parseFailed request _ fits
  | reviewStarted request _ fits =>
      exact absurd ⟨_, _, request, fits⟩ noData
  | pressed button => exact reviewing.press button
  | answered | magicGuarded | magicMissing | magicRead | chunkGuarded
  | chunkTooLong | ignored =>
      exact reviewing.keep ⟨rfl, rfl, rfl⟩ (.inl rfl)
  | keyApproved | keyDenied | signed | signFailed | denied =>
      exact reviewing.keep ⟨rfl, rfl, rfl⟩ (.inr rfl)

/-- A review that starts is in place. -/
theorem ReviewStart.reviewing
    {data : List UInt8} {tx : Transaction} (wf : turn.state.context.Wf)
    (resumable : turn.state.context.Resumable)
    (start : ReviewStart sdk turn data tx) :
    Reviewing sdk (turn.state.context.received ++ data) tx
      (turn.result sdk).1 := by
  rw [start.result]
  refine
    ⟨start.accepted wf resumable, rfl, GlobalCtx.received_append wf data, ?_⟩
  intro _ isTransfer
  refine ⟨.static .review, ?_, ⟨rfl, ?_⟩, rfl, rfl, printed_static⟩
  · exact List.mem_append_left _ (by decide)
  · change createTransactionFlow tx = reviewFlow
    rw [createTransactionFlow, isTransfer]
    rfl

/-- The last review, while no path and no data come. -/
structure SinceStart (sdk : Sdk) (history : List DeviceTurn) (app : App) :
    Prop where
  keeps : ∀ {earlier later : List DeviceTurn} {review : DeviceTurn},
    LastTurn (Turn.StartsReview sdk) earlier review later history →
      (∀ next ∈ later, ¬ next.CarriesPath ∧ ¬ next.TakesData) →
        ∃ data tx, ReviewStart sdk review data tx ∧
          Reviewing sdk (review.state.context.received ++ data) tx app

theorem SinceStart.append
    {history : List DeviceTurn} (wf : turn.state.context.Wf)
    (resumable : turn.state.context.Resumable)
    (since : SinceStart sdk history turn.state) :
    SinceStart sdk (history ++ [turn]) (turn.result sdk).1 where
  keeps := by
    intro earlier later review last undisturbed
    rcases last.of_append_singleton with
      ⟨_, rfl, rfl⟩ | ⟨rest, rfl, _, before⟩
    · obtain ⟨data, tx, start⟩ := last.isKind.start wf
      exact ⟨data, tx, start, start.reviewing wf resumable⟩
    · obtain ⟨data, tx, start, reviewing⟩ :=
        since.keeps before fun next member =>
          undisturbed next (List.mem_append_left _ member)
      obtain ⟨noPath, noData⟩ := undisturbed turn (by simp)
      exact ⟨data, tx, start, reviewing.append wf noPath noData⟩

theorem sinceStart_invariant (sdk : Sdk) :
    (device sdk).Invariant (fun _ _ => True)
      fun history app =>
        (app.context.Wf ∧ OnScreen sdk history app.ui) ∧
          (app.context.Wf ∧ app.context.Resumable) ∧
            SinceStart sdk history app where
  initial :=
    ⟨(onScreen_invariant sdk).initial, (resumable_invariant sdk).initial,
      ⟨fun last => absurd last.mem List.not_mem_nil⟩⟩
  preserved := by
    rintro history turn ⟨shown, resumable, since⟩ _
    have nextResumable :=
      @Transition.Invariant.preserved _ _ _ _ _ _ (resumable_invariant sdk)
        history turn resumable trivial
    exact
      ⟨(onScreen_invariant sdk).preserved shown trivial, nextResumable,
        since.append resumable.1 resumable.2⟩

theorem mem_steps_of_meetsDelimiter
    {ui : Ui} {button : Press} (meets : ui.MeetsDelimiter button) :
    .upperDelimiter ∈ ui.steps ∨ .lowerDelimiter ∈ ui.steps := by
  rcases List.mem_cons.mp meets with isUpper | isLower
  · exact .inl (List.mem_of_getElem? isUpper)
  · exact .inr (List.mem_of_getElem? (List.mem_singleton.mp isLower))

/-- Only the review of a transfer has delimiters. -/
theorem isTransfer_of_meetsDelimiter
    {ui : Ui} {button : Press} {tx : Transaction}
    (meets : ui.MeetsDelimiter button) (flow : ui.flow = .transaction)
    (steps : ui.transactionFlow = createTransactionFlow tx) :
    tx.isSystemAssetTransfer = true := by
  by_contra other
  have ofFlow : ui.steps = createTransactionFlow tx := by
    rw [Ui.steps, flow]
    exact steps
  have member := mem_steps_of_meetsDelimiter meets
  rw [ofFlow, createTransactionFlow, if_pos other] at member
  exact absurd member (by decide)

theorem flow_of_meetsDelimiter
    {ui : Ui} {button : Press} (meets : ui.MeetsDelimiter button) :
    ui.flow = .transaction := by
  have member := mem_steps_of_meetsDelimiter meets
  cases flow : ui.flow with
  | transaction => rfl
  | menu =>
      have steps : ui.steps = [] := by
        rw [Ui.steps, flow]
      rw [steps] at member
      exact absurd member (by decide)
  | pubkey =>
      have steps : ui.steps = displayPubkeyFlow := by
        rw [Ui.steps, flow]
      rw [steps] at member
      exact absurd member (by decide)

/-- **The signer screens are printed from the transaction in the context** in
a run whose reviews are not disturbed before the screens are reached. -/
theorem printsCurrent_of_undisturbed
    (sdk : Sdk) (events : List Event)
    (undisturbed :
      (device sdk).Throughout (SignersUndisturbed sdk) events) :
    (device sdk).Throughout (PrintsCurrent sdk) events := by
  refine
    ((sinceStart_invariant sdk).under (SignersUndisturbed sdk)).throughout
      ?_ undisturbed
  rintro history turn ⟨⟨_, shown⟩, _, since⟩ undisturbed button isPress
    printed member
  have meets := meetsDelimiter_of_printed member
  have flow := flow_of_meetsDelimiter meets
  obtain ⟨earlier, review, later, _, _, last, reviewWf, _, display⟩ :=
    shown.transaction flow
  obtain ⟨data, tx, start, reviewing⟩ :=
    since.keeps last
      (undisturbed ⟨button, isPress, meets⟩ earlier review later last)
  have steps : turn.state.ui.transactionFlow = createTransactionFlow tx := by
    rw [Ui.transactionFlow_of_review display, start.result]
    rfl
  obtain ⟨screen, isThere, shows⟩ :=
    reviewing.shows flow (isTransfer_of_meetsDelimiter meets flow steps)
  have sizes := reviewing.sizes
  have hashes := start.hashes reviewWf
  have parsed := reviewing.parsed
  rw [← reviewing.transaction] at sizes isThere
  rw [← reviewing.received, ← reviewing.transaction] at hashes parsed
  refine
    ⟨shows.printed_inRange sizes isThere member,
      ⟨parsed, List.take_prefix _ _⟩, review, last.mem, hashes⟩

instance (turn : DeviceTurn) : Decidable turn.MeetsDelimiter :=
  match turn with
  | ⟨app, .press button⟩ =>
      decidable_of_iff (app.ui.MeetsDelimiter button)
        ⟨fun meets => ⟨button, rfl, meets⟩, fun ⟨_, same, meets⟩ => by
          cases same
          exact meets⟩
  | ⟨_, .apdu _⟩ => .isFalse fun ⟨_, same, _⟩ => nomatch same
  | ⟨_, .confirm⟩ => .isFalse fun ⟨_, same, _⟩ => nomatch same

/-- The review of a transfer, up to the step before its signers. -/
def beforeSigners : List Event :=
  [signTxEvent 0 p2More firstKeyPath, signTxEvent 1 p2More [1, 2, 3, 4],
    signTxEvent 2 p2Last oneNeoTransaction] ++
      List.replicate 7 (.press .right)

/-- The first signer screen is reached with the last press. -/
theorem signersUndisturbed_beforeSigners :
    (device Sdk.constant).Throughout (SignersUndisturbed Sdk.constant)
      (beforeSigners ++ [.press .right]) := by
  intro before input later split meets earlier review rest last
  have early : ∀ turn ∈ (device Sdk.constant).trace beforeSigners,
      ¬ turn.MeetsDelimiter := by
    decide +kernel
  rcases List.eq_nil_or_concat later with rfl | ⟨others, final, rfl⟩
  · obtain ⟨rfl, _⟩ := List.append_inj' split rfl
    have noRequest :
        ∀ turn ∈ ((device Sdk.constant).trace beforeSigners).drop 3,
          turn.request = none := by
      decide +kernel
    have starts :
        ∀ review ∈ ((device Sdk.constant).trace beforeSigners)[2]?,
          review.request = some (.chunk false oneNeoTransaction) ∧
            (review.result Sdk.constant).2 = [] := by
      decide +kernel
    obtain ⟨start, known⟩ :=
      lastTurn_of_third (by decide +kernel) starts noRequest
    obtain ⟨_, _, rfl⟩ := known.unique last
    intro next member
    have silent := noRequest next member
    constructor
    · rintro (⟨_, request⟩ | ⟨_, _, request⟩) <;>
        cases silent.symm.trans request
    · rintro ⟨_, _, request, _⟩
      cases silent.symm.trans request
  · rw [List.concat_eq_append, ← List.cons_append,
      ← List.append_assoc] at split
    obtain ⟨same, _⟩ := List.append_inj' split rfl
    exact
      absurd meets
        (Transition.throughout_iff_trace.mpr early before input others same)

theorem printsCurrent_beforeSigners :
    (device Sdk.constant).Throughout (PrintsCurrent Sdk.constant)
      (beforeSigners ++ [.press .right]) :=
  printsCurrent_of_undisturbed Sdk.constant (beforeSigners ++ [.press .right])
    signersUndisturbed_beforeSigners

/-- The same review, with a new chunk 0 before its signers. -/
def clearedReview : List Event :=
  beforeSigners ++ [signTxEvent 0 p2More firstKeyPath]

/-- A signer screen is printed of a transaction without signers. -/
theorem not_printsCurrent_clearedReview :
    (¬ (device Sdk.constant).Throughout (PrintsCurrent Sdk.constant)
        (clearedReview ++ [.press .right])) ∧
      ∃ shown,
        printedAt ((device Sdk.constant).after clearedReview).context .right
            ((device Sdk.constant).after clearedReview).ui = [shown] ∧
          shown.displayCtx.sIndex = 0 ∧
          ((device Sdk.constant).after
            clearedReview).context.transaction.signersSize = 0 := by
  have indices :
      (printedAt ((device Sdk.constant).after clearedReview).context .right
        ((device Sdk.constant).after clearedReview).ui).map
          (fun shown => shown.displayCtx.sIndex) = [0] := by
    decide +kernel
  have none : ((device Sdk.constant).after
      clearedReview).context.transaction.signersSize = 0 := by
    decide +kernel
  obtain ⟨shown, printed, first⟩ := List.map_eq_singleton_iff.mp indices
  refine ⟨fun prints => ?_, shown, printed, first, none⟩
  have inRange :=
    (prints clearedReview (.press .right) [] rfl .right rfl shown
      (printed ▸ List.mem_singleton_self _)).inRange
  have inside := inRange.signer.2
  rw [first, none] at inside
  exact absurd inside (by decide)

end Neo3App
