import Neo3App.Session.KeyPaths

/-!
# What is signed

A signature is made with the path, the magic and the hash of the context at
the moment of the approval.  They are those of the review wherever no request
has changed them since it started.
-/

namespace Neo3App

open Neo3App.Lib

variable {sdk : Sdk}

/-- The magic that the context holds some turns after `magic`. -/
def MagicSince (magic : UInt32) (later : List DeviceTurn)
    (current : UInt32) : Prop :=
  ((∀ turn ∈ later, ¬ turn.IsMagic) ∧ current = magic) ∨
    ∃ before turn between data,
      LastTurn Turn.IsMagic before turn between later ∧
      turn.request = some (.magic data) ∧ current = magicValue data

/-- What the context keeps of the last review while no request with a path
comes. -/
structure SinceReview (sdk : Sdk) (history : List DeviceTurn)
    (context : GlobalCtx) : Prop where
  keeps : ∀ {earlier later : List DeviceTurn} {review : DeviceTurn},
    LastTurn (Turn.StartsReview sdk) earlier review later history →
      (∀ turn ∈ later, ¬ turn.CarriesPath) →
        context.bip44Path = review.state.context.bip44Path ∧
          context.hash = (review.result sdk).1.context.hash ∧
            context.reqType = .confirmTransaction ∧
              MagicSince review.state.context.networkMagic later
                context.networkMagic

theorem MagicSince.start (magic : UInt32) : MagicSince magic [] magic :=
  .inl ⟨fun _ member => (by cases member), rfl⟩

theorem MagicSince.append
    {magic : UInt32} {later : List DeviceTurn} {turn : DeviceTurn}
    (wf : turn.state.context.Wf) (noPath : ¬ turn.CarriesPath)
    (passes : turn.state.context.reqType = .confirmTransaction)
    (since : MagicSince magic later turn.state.context.networkMagic) :
    MagicSince magic (later ++ [turn])
      (turn.result sdk).1.context.networkMagic := by
  by_cases isMagic : turn.IsMagic
  · have isNow := isMagic
    obtain ⟨data, request⟩ := isMagic
    exact
      .inr
        ⟨later, turn, [], data, .new later isNow, request,
          magic_of_magic wf passes request⟩
  rw [magic_of_no_magic wf noPath isMagic]
  rcases since with ⟨none, same⟩ | ⟨before, last, between, data, isLast,
    request, current⟩
  · refine .inl ⟨fun next member => ?_, same⟩
    rcases List.mem_append.mp member with earlier | now
    · exact none next earlier
    · rw [List.mem_singleton.mp now]
      exact isMagic
  · exact
      .inr
        ⟨before, last, between ++ [turn], data, isLast.append isMagic,
          request, current⟩

theorem SinceReview.append
    {history : List DeviceTurn} {turn : DeviceTurn}
    (wf : turn.state.context.Wf)
    (since : SinceReview sdk history turn.state.context) :
    SinceReview sdk (history ++ [turn]) (turn.result sdk).1.context where
  keeps := by
    intro earlier later review last noPath
    rcases last.of_append_singleton with
      ⟨_, rfl, rfl⟩ | ⟨rest, rfl, noReview, before⟩
    · obtain ⟨data, tx, start⟩ := last.isKind.start wf
      rw [start.result]
      exact ⟨rfl, rfl, start.passes, .start _⟩
    · have noPathBefore : ∀ next ∈ rest, ¬ next.CarriesPath :=
        fun next member => noPath next (List.mem_append_left _ member)
      have noPathNow : ¬ turn.CarriesPath := noPath turn (by simp)
      obtain ⟨path, hash, isTransaction, magic⟩ :=
        since.keeps before noPathBefore
      obtain ⟨samePath, sameKind⟩ :=
        @path_of_no_path sdk _ wf noPathNow
      rw [samePath, sameKind, hash_of_no_start wf noPathNow noReview]
      exact
        ⟨path, hash, isTransaction,
          magic.append wf noPathNow isTransaction⟩

/-- The invariants of the screen, of the path and of the last review. -/
theorem signing_invariant (sdk : Sdk) :
    (device sdk).Invariant (fun _ _ => True)
      fun history app =>
        ((app.context.Wf ∧ OnScreen sdk history app.ui) ∧
          app.context.Wf ∧ PathOrigin sdk history app) ∧
            app.context.Wf ∧ SinceReview sdk history app.context := by
  refine (screenAndPath_invariant sdk).and (device_invariant ?_ ?_)
  · exact ⟨fun last => absurd last.mem List.not_mem_nil⟩
  · intro history app after event effects wf since _ result _
    have next := @SinceReview.append sdk _ ⟨app, event⟩ wf since
    rw [Turn.result, result] at next
    exact next

/-! ## What is displayed is what is signed -/

/-- The data that a review stands for: the magic, then the hash of the bytes
whose parse is shown. -/
def reviewedData (sdk : Sdk) (review : DeviceTurn) (data : List UInt8) :
    List UInt8 :=
  leBytes 4 review.state.context.networkMagic.toNat ++
    (sdk.sha256 (review.state.context.received ++ data)).toList

/-- A signature at `turn` belongs to the review that started at `review` with
the last bytes `data`. -/
structure SignsReview (sdk : Sdk) (turn : DeviceTurn)
    (earlier : List DeviceTurn) (review : DeviceTurn) (data : List UInt8)
    (tx : Transaction) : Prop where
  start : ReviewStart sdk review data tx
  onScreen : turn.state.ui.review = (review.result sdk).1.ui.review
  bip44Path :
    turn.state.context.bip44Path =
      (review.result sdk).1.context.bip44Path
  networkMagic :
    turn.state.context.networkMagic =
      (review.result sdk).1.context.networkMagic
  hash : turn.state.context.hash = (review.result sdk).1.context.hash
  session : ∃ before path between,
    LastTurn Turn.CarriesPath before path between earlier ∧ path.IsPath ∧
      path.AcceptsPath turn.state.context.bip44Path
  signs :
    [.derivePrivateKey turn.state.context.bip44Path,
      .ecdsaSign (sdk.deriveNodeBip32 turn.state.context.bip44Path)
        (sdk.sha256 (reviewedData sdk review data)).toList] <+:
      (turn.result sdk).2

/-- Every signature belongs to the review on the screen. -/
def DisplayedIsSigned (sdk : Sdk) (history : List DeviceTurn)
    (turn : DeviceTurn) : Prop :=
  turn.Signs sdk → ∃ earlier review later data tx,
    LastTurn (Turn.StartsReview sdk) earlier review later history ∧
      SignsReview sdk turn earlier review data tx

/-- At an approval no request has touched the path, the magic or the hash of
the review: since it started no request brought a path and the last chunk 1,
if any, the same magic, and its own chunk 0 was accepted. -/
def ReviewUndisturbed (sdk : Sdk) (history : List DeviceTurn)
    (turn : DeviceTurn) : Prop :=
  turn.ApprovesTransaction → ∀ earlier review later,
    LastTurn (Turn.StartsReview sdk) earlier review later history →
      (∀ next ∈ later, ¬ next.CarriesPath) ∧
        (∀ before magic between data,
          LastTurn Turn.IsMagic before magic between later →
            magic.request = some (.magic data) →
              magicValue data = review.state.context.networkMagic) ∧
          ∀ before path between,
            LastTurn Turn.CarriesPath before path between earlier →
              ∃ accepted, path.AcceptsPath accepted

theorem MagicSince.eq
    {magic current : UInt32} {later : List DeviceTurn}
    (since : MagicSince magic later current)
    (same : ∀ before turn between data,
      LastTurn Turn.IsMagic before turn between later →
        turn.request = some (.magic data) → magicValue data = magic) :
    current = magic := by
  rcases since with ⟨_, unchanged⟩ | ⟨before, turn, between, data, last,
    request, current⟩
  · exact unchanged
  · rw [current]
    exact same before turn between data last request

theorem Lib.Turn.AcceptsPath.eq
    {turn : DeviceTurn} {data : List UInt8} {path : Bip44Path}
    (accepts : turn.AcceptsPath path) (carried : data ∈ turn.pathData) :
    (validatePath data GlobalCtx.zero.bip44Path).2 = path := by
  obtain ⟨other, isCarried, validated⟩ := accepts
  cases carried.symm.trans isCarried
  rw [validated]

/-- The last request with a path before a review is its chunk 0. -/
theorem PathOrigin.session
    {earlier later : List DeviceTurn} {review : DeviceTurn} {app : App}
    (origin : PathOrigin sdk (earlier ++ review :: later) app)
    (isTransaction : app.context.reqType = .confirmTransaction)
    (noPath : ∀ next ∈ review :: later, ¬ next.CarriesPath)
    (accepted : ∀ before path between,
      LastTurn Turn.CarriesPath before path between earlier →
        ∃ accepted, path.AcceptsPath accepted) :
    ∃ before path between,
      LastTurn Turn.CarriesPath before path between earlier ∧ path.IsPath ∧
        path.AcceptsPath app.context.bip44Path := by
  obtain ⟨before, path, between, last⟩ :=
    origin.exists_last (.inl isTransaction)
  obtain ⟨data, carried, stored, kind⟩ := origin.ofLast last
  obtain ⟨rest, _, restricted⟩ := last.restrict noPath
  obtain ⟨_, accepts⟩ := accepted before path rest restricted
  refine
    ⟨before, path, rest, restricted, kind.mp isTransaction, ?_⟩
  rw [stored, accepts.eq carried]
  exact accepts

theorem ReviewStart.not_carriesPath
    {turn : DeviceTurn} {data : List UInt8} {tx : Transaction}
    (start : ReviewStart sdk turn data tx) : ¬ turn.CarriesPath := by
  rintro (⟨_, other⟩ | ⟨_, _, other⟩) <;>
    cases start.request.symm.trans other

/-- **What is displayed is what is signed** in a run whose reviews are not
disturbed before they are approved. -/
theorem displayedIsSigned_of_undisturbed
    (sdk : Sdk) (events : List Event)
    (undisturbed :
      (device sdk).Throughout (ReviewUndisturbed sdk) events) :
    (device sdk).Throughout (DisplayedIsSigned sdk) events := by
  refine
    ((signing_invariant sdk).under (ReviewUndisturbed sdk)).throughout ?_
      undisturbed
  rintro history turn ⟨⟨⟨wf, shown⟩, _, origin⟩, _, since⟩ undisturbed signs
  obtain ⟨confirms, step, callback, effects⟩ := signs.approves wf
  obtain ⟨earlier, review, later, data, tx, last, reviewWf, start, display⟩ :=
    shown.transaction (shown.flow_of_approve step callback)
  obtain ⟨noPath, sameMagic, accepted⟩ :=
    undisturbed ⟨confirms, step, callback⟩ earlier review later last
  obtain ⟨path, hash, isTransaction, magicSince⟩ := since.keeps last noPath
  have magic := magicSince.eq sameMagic
  have session :=
    (last.split ▸ origin).session isTransaction
      (fun next member => by
        rcases List.mem_cons.mp member with rfl | member
        · exact start.not_carriesPath
        · exact noPath next member)
      accepted
  have reviewed :
      signedData turn.state.context = reviewedData sdk review data := by
    rw [signedData, magic, hash, start.result, reviewedData,
      ← GlobalCtx.received_append reviewWf]
    rfl
  refine
    ⟨earlier, review, later, data, tx, last, start, display, ?_, ?_, hash,
      session, ?_⟩
  · rw [path, start.result]
    rfl
  · rw [magic, start.result]
    rfl
  · rw [← reviewed]
    exact effects

def transferReview : List Event :=
  [signTxEvent 0 p2More firstKeyPath, signTxEvent 1 p2More [1, 2, 3, 4],
    signTxEvent 2 p2Last oneNeoTransaction] ++
      List.replicate 11 (.press .right)

/-- A review that starts at the third turn, when no request follows. -/
theorem lastTurn_of_third
    {sdk : Sdk} {turns : List DeviceTurn} {data : List UInt8}
    (long : 2 < turns.length)
    (starts : ∀ review ∈ turns[2]?,
      review.request = some (.chunk false data) ∧
        (review.result sdk).2 = [])
    (noRequest : ∀ turn ∈ turns.drop 3, turn.request = none) :
    ∃ review, LastTurn (Turn.StartsReview sdk) (turns.take 2) review
      (turns.drop 3) turns := by
  obtain ⟨request, silent⟩ := starts _ (List.getElem?_eq_getElem long)
  refine ⟨turns[2], ?_, ⟨⟨data, request⟩, silent⟩, ?_⟩
  · simp
  · rintro turn member ⟨⟨_, request⟩, _⟩
    cases (noRequest turn member).symm.trans request

/-- The turns of that run around the start of the review. -/
theorem lastTurn_transferReview :
    let turns := (device Sdk.constant).trace transferReview
    ∃ review, LastTurn (Turn.StartsReview Sdk.constant) (turns.take 2) review
      (turns.drop 3) turns := by
  intro turns
  have starts : ∀ review ∈ turns[2]?,
      review.request = some (.chunk false oneNeoTransaction) ∧
        (review.result Sdk.constant).2 = [] := by
    decide +kernel
  have noRequest : ∀ turn ∈ turns.drop 3, turn.request = none := by
    decide +kernel
  exact lastTurn_of_third (by decide +kernel) starts noRequest

theorem reviewUndisturbed_transferRun :
    (device Sdk.constant).Throughout (ReviewUndisturbed Sdk.constant)
      (transferRun firstKeyPath) := by
  rintro before input later split ⟨confirms, _⟩ earlier review rest last
  cases confirms
  obtain ⟨rfl, rfl⟩ :=
    eq_of_append_singleton_eq
      (show transferReview ++ [Event.confirm] = before ++ .confirm :: later
        from split) (by decide)
  obtain ⟨start, known⟩ := lastTurn_transferReview
  obtain ⟨rfl, rfl, rfl⟩ := known.unique last
  have noRequest :
      ∀ turn ∈ ((device Sdk.constant).trace transferReview).drop 3,
        turn.request = none := by
    decide +kernel
  refine ⟨?_, ?_, ?_⟩
  · rintro next member (⟨_, request⟩ | ⟨_, _, request⟩) <;>
      cases (noRequest next member).symm.trans request
  · intro before magic between data lastMagic request
    cases (noRequest magic lastMagic.mem).symm.trans request
  · intro before path between lastPath
    have accepted : ∀ turn ∈ (device Sdk.constant).trace transferReview,
        ∀ data ∈ turn.pathData,
          (validatePath data GlobalCtx.zero.bip44Path).1.isOk = true := by
      decide +kernel
    exact
      acceptsPath_of_isOk lastPath.isKind
        (accepted path (List.mem_of_mem_take lastPath.mem))

theorem displayedIsSigned_transferRun :
    (device Sdk.constant).Throughout (DisplayedIsSigned Sdk.constant)
      (transferRun firstKeyPath) :=
  displayedIsSigned_of_undisturbed Sdk.constant (transferRun firstKeyPath)
    reviewUndisturbed_transferRun

/-- The transfer, with another magic before it is approved. -/
def otherMagicReview : List Event :=
  [signTxEvent 0 p2More firstKeyPath, signTxEvent 1 p2More [1, 2, 3, 4],
    signTxEvent 2 p2Last oneNeoTransaction,
    signTxEvent 1 p2More [5, 6, 7, 8]] ++
      List.replicate 11 (.press .right)

/-- Another magic than the one on the screen can be signed. -/
theorem not_displayedIsSigned_otherMagic :
    ¬ (device Sdk.constant).Throughout (DisplayedIsSigned Sdk.constant)
      (otherMagicReview ++ [.confirm]) := by
  intro displayed
  have turn := displayed otherMagicReview .confirm [] rfl
  obtain ⟨_, review, _, _, _, last, signs⟩ :=
    turn ⟨[], List.replicate 32 0, by decide +kernel⟩
  have otherMagic :
      ∀ review ∈ (device Sdk.constant).trace otherMagicReview,
        (review.result Sdk.constant).2 = [] → review.request.isSome = true →
          ((device Sdk.constant).after
              otherMagicReview).context.networkMagic ≠
            (review.result Sdk.constant).1.context.networkMagic := by
    decide +kernel
  obtain ⟨⟨_, request⟩, silent⟩ := last.isKind
  exact
    otherMagic review last.mem silent (by rw [request]; rfl)
      signs.networkMagic

end Neo3App
