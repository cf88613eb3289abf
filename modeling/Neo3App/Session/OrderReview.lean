import Neo3App.Session.ClientSigning
import Neo3App.Transaction.Orders
import Neo3App.Ui.Addresses
import Neo3App.Ui.SignersDetermined
import Neo3App.Ui.TokenAmount
import Neo3App.Ui.Transcript

/-!
# What the user reads of an order

The pages of an order are written down from the order alone.  After the
commands of `sign_tx` for its bytes the device shows these pages, after any
run in which the last review was not overtaken and however the user browses;
only the page of the amount changes once a signer has been shown.
-/

namespace Neo3App

open Neo3App.Lib
open Neo3App.Host

def gasLine (fee : Nat) : List Char :=
  "GAS ".toList ++ fixedDecimal 8 fee

namespace TransferOrder

variable (order : TransferOrder)

def amountLine : List Char :=
  if order.isNeo then "NEO ".toList ++ fixedDecimal 0 order.amount
  else gasLine order.amount

/-- The pages of a review, given the line under `Token amount`. -/
def pagesWith (sdk : Sdk) (magic : UInt32) (amount : List Char) :
    List (List (List Char)) :=
  [["Review".toList, "Transaction".toList],
    ["Destination addr".toList, addressText sdk order.destination],
    ["Token amount".toList, amount],
    ["Target network".toList, networkName magic],
    ["System fee".toList, gasLine order.systemFee],
    ["Network fee".toList, gasLine order.networkFee],
    ["Total fees".toList, gasLine (order.networkFee + order.systemFee)],
    ["Valid until height".toList,
      signedDecimal (shownInt order.validUntilBlock)]] ++
    ((allCaptions order.signers).flatten.map fun shown =>
        [shown.1, shown.2]) ++
      [["Approve".toList], ["Reject".toList]]

def pageCount : Nat :=
  10 + (allCaptions order.signers).flatten.length

/-- The pages while the user browses. -/
def pages (sdk : Sdk) (magic : UInt32) (presses : List Press) :
    List (List (List Char)) :=
  order.pagesWith sdk magic
    (if SignersReached order.pageCount presses then
      positionText 0 order.signers.length
    else order.amountLine)

structure Reviewed (sdk : Sdk) (magic : UInt32) (context : GlobalCtx) :
    Prop where
  held : order.Held sdk context.transaction
  isMagic : context.networkMagic = magic
  inMemory : order.bytes <+: context.rawTx

variable {order} {sdk : Sdk} {magic : UInt32} {context : GlobalCtx}

theorem Reviewed.signers_eq (reviewed : order.Reviewed sdk magic context) :
    context.signers = order.signers := by
  have decoded := reviewed.held.decoded
  have size : context.transaction.signersSize.toNat =
      order.signers.length := decoded.signersSize
  apply List.ext_getElem
  · rw [GlobalCtx.signers, List.length_map, List.length_range, size]
  · intro i _ inside
    have valid :=
      (order.writable _ (List.getElem_mem inside)).encodes.valid
    simp only [GlobalCtx.signers, List.getElem_map, List.getElem_range]
    exact
      (decoded.signers i inside).contents_eq reviewed.inMemory valid

/-- The lines of the screens of the signers are those of the order. -/
theorem Reviewed.signerLines_eq
    (reviewed : order.Reviewed sdk magic context) (presses : List Press) :
    ((List.range context.transaction.signersSize.toNat).flatMap
        (screensOf context.transaction)).map (reviewLines context presses) =
      (allCaptions order.signers).flatten.map
        fun shown => [shown.1, shown.2] := by
  have size : context.transaction.signersSize.toNat =
      order.signers.length := reviewed.held.decoded.signersSize
  have each (i : Nat) :
      (screensOf context.transaction i).map (reviewLines context presses) =
        ((screensOf context.transaction i).map (Screen.caption context)).map
          fun shown => [shown.1, shown.2] := by
    rw [screensOf, List.map_map, List.map_map, List.map_map]
    rfl
  rw [List.map_flatMap, List.flatMap_congr fun i _ => each i,
    ← List.map_flatMap]
  congr 1
  rw [← reviewed.signers_eq, List.flatMap_def]
  congr 1
  apply List.ext_getElem
  · simp [allCaptions, GlobalCtx.signers]
  · intro i _ inside
    simp [allCaptions, GlobalCtx.signers, map_caption_screensOf]

theorem Reviewed.pageCount_eq
    (reviewed : order.Reviewed sdk magic context) :
    (reviewScreens context.transaction).length = order.pageCount := by
  have lengths := congrArg List.length (reviewed.signerLines_eq [])
  rw [List.length_map, List.length_map] at lengths
  rw [reviewScreens, List.length_append, List.length_append, lengths,
    pageCount]
  change 8 + (_ + 2) = _
  omega

theorem toNat_fee {fee : Nat} (fits : fee < 2 ^ 63) :
    (Int64.ofNat fee).toUInt64.toNat = fee := by
  have value := toInt_ofNat_fee fits
  have bits :=
    toNat_toUInt64_of_nonneg (by rw [value]; exact Int.natCast_nonneg fee)
  omega

theorem feeText_fee {fee : Nat} (fits : fee < 2 ^ 63) :
    feeText (Int64.ofNat fee).toUInt64 = gasLine fee := by
  rw [feeText, toNat_fee fits, gasLine]

/-- The sum of the fees does not wrap. -/
theorem feeText_total (order : TransferOrder) :
    feeText
        ((Int64.ofNat order.networkFee).toUInt64 +
          (Int64.ofNat order.systemFee).toUInt64) =
      gasLine (order.networkFee + order.systemFee) := by
  have network := order.networkFeeFits
  have system := order.systemFeeFits
  rw [feeText, UInt64.toNat_add, toNat_fee network, toNat_fee system,
    Nat.mod_eq_of_lt (by omega), gasLine]

theorem Reviewed.amountLine_eq
    (reviewed : order.Reviewed sdk magic context) (presses : List Press) :
    Neo3App.amountLine context.transaction presses =
      if SignersReached order.pageCount presses then
        positionText 0 order.signers.length
      else order.amountLine := by
  have size : context.transaction.signersSize.toNat =
      order.signers.length := reviewed.held.decoded.signersSize
  have recorded : context.transaction.amount.toInt = order.amount := by
    rw [reviewed.held.amount, Push.amount_toInt, order.pushes]
    rw [order.pushes]
    exact Int.natCast_nonneg _
  have value := toNat_toUInt64_of_nonneg
    (show 0 ≤ context.transaction.amount.toInt by
      rw [recorded]
      exact Int.natCast_nonneg _)
  have units : context.transaction.amount.toUInt64.toNat = order.amount := by
    omega
  rw [Neo3App.amountLine, reviewed.pageCount_eq]
  split
  · rw [countText, size]
    rfl
  · rw [tokenAmountText, units, Transaction.decimals, reviewed.held.isNeo,
      TransferOrder.amountLine]
    cases order.isNeo <;> rfl

/-- The screens of the review show the pages of the order. -/
theorem Reviewed.pages_eq
    (reviewed : order.Reviewed sdk magic context) (presses : List Press) :
    (reviewScreens context.transaction).map (reviewLines context presses) =
      order.pages sdk magic presses := by
  have decoded := reviewed.held.decoded
  have systemFee : context.transaction.systemFee =
      Int64.ofNat order.systemFee := decoded.systemFee
  have networkFee : context.transaction.networkFee =
      Int64.ofNat order.networkFee := decoded.networkFee
  have validUntilBlock : context.transaction.validUntilBlock =
      order.validUntilBlock := decoded.validUntilBlock
  have address : snprintf 35 (cString context.transaction.dstAddress) =
      addressText sdk order.destination := by
    rw [reviewed.held.dstAddress,
      scriptHashToAddress_eq sdk order.destinationLength (by rfl)]
    exact snprintf_addressText sdk order.destinationLength
  rw [reviewScreens, List.map_append, List.map_append,
    reviewed.signerLines_eq presses, pages, ← reviewed.amountLine_eq,
    pagesWith, List.append_assoc, ← feeText_fee order.systemFeeFits,
    ← feeText_fee order.networkFeeFits, ← feeText_total order, ← systemFee,
    ← networkFee, ← validUntilBlock, ← address, ← reviewed.isMagic,
    ← snprintf_percentD]
  rfl

/-- The lines of the review of an order. -/
theorem Reviewed.lines_eq
    (reviewed : order.Reviewed sdk magic context)
    (named : ∀ signer ∈ order.signers, ¬ UnnamedScope signer.scope)
    (ui : Ui) (presses : List Press) :
    (pressAll (uiPress context) (reviewUi context ui) presses).lines =
      (order.pages sdk magic presses)[cursorAfter order.pageCount
        presses]? := by
  have accepted := reviewed.held.accepted
  have sizes := accepted.reviewSizes
  obtain ⟨screen, here, _⟩ :=
    (shows_reviewUi ui accepted.isTransfer).after_presses sizes presses
  rw [← reviewed.pages_eq, ← reviewed.pageCount_eq, List.getElem?_map, here]
  refine lines_after_presses accepted ui presses here ?_
  rintro i rfl
  obtain ⟨inside, _⟩ :=
    exists_of_mem_reviewScreens (List.mem_of_getElem? here)
  have decoded := reviewed.held.decoded
  have size : context.transaction.signersSize.toNat =
      order.signers.length := decoded.signersSize
  rw [size] at inside
  rw [(decoded.signers i inside).scope]
  exact named _ (List.getElem_mem inside)

end TransferOrder

variable {sdk : Sdk}

/-- Whatever comes of the last command, the user has pressed the buttons. -/
theorem signTxLoop_last_fst
    (user : List Event) (seen : Nat) (io : IoApp)
    (response chunk : List UInt8) :
    (signTxLoop sdk user seen io response [(true, chunk)]).1 =
      ioRun sdk io (.apdu chunk :: user) := by
  rw [signTxLoop]
  simp only [if_true]
  rcases recv seen (ioRun sdk io (.apdu chunk :: user)) with
    _ | error | value
  · rfl
  · rfl
  · rfl

/-- The display after all the bytes have been sent and some presses. -/
theorem signTxWith_review
    {io : IoApp} (attending : Attending io) {path : Bip44Path}
    (valid : ValidPath path) (magic : UInt32) {b : List UInt8}
    (some : 1 ≤ b.length) (few : b.length ≤ maxTransactionLen)
    (flagged : ¬ UnflaggedSize b.length) {context : GlobalCtx}
    (starts : submitted sdk ⟨readyContext path magic, io.app.ui⟩ b =
      (⟨context, reviewUi context io.app.ui⟩, []))
    (presses : List Press) :
    (signTxWith sdk (presses.map Event.press) path b magic io).1.app =
      ⟨context,
        pressAll (uiPress context) (reviewUi context io.app.ui) presses⟩ := by
  obtain ⟨whole, last, pieces, commands⟩ :=
    signTx_pieces path magic some few flagged
  have total := congrArg List.length pieces.bytes
  rw [List.length_append] at total
  obtain ⟨waits, still, isReady, loop⟩ :=
    @signTxLoop_pieces sdk _ valid magic io attending
      (presses.map Event.press) _ pieces.areWhole (by omega)
      [pieceCommand true last]
  have awaits := readyContext_awaitsData path magic
  generalize readyContext path magic = ready at awaits isReady starts
  have final : deviceStep sdk waits.app (.apdu (pieceCommand true last).2) =
      (⟨context, reviewUi context io.app.ui⟩, []) := by
    rw [isReady, ← starts]
    exact step_lastPiece awaits io.app.ui pieces few
  obtain ⟨reviewing, isContext, _⟩ := still.review_started final rfl
  obtain ⟨browsed, _⟩ := @Attending.presses sdk _ reviewing presses
  have shown : (ioRun sdk waits
      ([.apdu (pieceCommand true last).2] ++
        presses.map Event.press)).app = _ :=
    congrArg IoApp.app ((ioRun_append waits _ _).trans browsed)
  rw [signTxWith, commands, loop]
  refine (congrArg IoApp.app (signTxLoop_last_fst _ _ waits [] _)).trans ?_
  refine shown.trans ?_
  rw [isContext]

/-- The bytes of an order start its review. -/
theorem submitted_order
    {ready : GlobalCtx} (awaits : AwaitsData ready) (ui : Ui)
    (order : TransferOrder) :
    ∃ context, order.Reviewed sdk ready.networkMagic context ∧
      submitted sdk ⟨ready, ui⟩ order.bytes =
        (⟨context, reviewUi context ui⟩, []) := by
  obtain ⟨tx, held⟩ := order.exists_held sdk
  have received := GlobalCtx.received_append awaits.wf order.bytes
  have nothing : ready.received = [] := by
    rw [GlobalCtx.received, awaits.empty, List.take_zero]
  rw [nothing, List.nil_append] at received
  have inMemory : order.bytes <+: (ready.append order.bytes).rawTx := by
    have taken : (ready.append order.bytes).received <+:
        (ready.append order.bytes).rawTx := List.take_prefix _ _
    rwa [received] at taken
  rw [submitted, held.accepted.parsed]
  refine ⟨_, ?_, rfl⟩
  exact ⟨held, rfl, inMemory⟩

end Neo3App
