import Neo3App.Ui.Display

/-!
# What a review shows

Building a review never fails, and what it prints is never cut off except the
numbers printed with `%d`.
-/

namespace Neo3App

open Neo3App.Lib
open Neo3App.Lib.EarlyExit

def Transaction.decimals (tx : Transaction) : Nat :=
  if tx.isNeo then 0 else 8

def tokenAmountText (tx : Transaction) : List Char :=
  (if tx.isNeo then "NEO" else "GAS").toList ++ ' ' ::
    fixedDecimal tx.decimals tx.amount.toUInt64.toNat

def feeText (value : UInt64) : List Char :=
  "GAS ".toList ++ fixedDecimal 8 value.toNat

/-- The display after a transfer has been printed. -/
def transferUi (tx : Transaction) (ui : Ui) : Ui :=
  { ui with
    address := snprintf 35 (cString tx.dstAddress)
    text := tokenAmountText tx }

/-- The display after the screens that every transaction has. -/
def reviewUi (context : GlobalCtx) (ui : Ui) : Ui :=
  let tx := context.transaction
  { (if tx.isSystemAssetTransfer then transferUi tx ui else ui) with
    network := networkName context.networkMagic
    systemFee := feeText tx.systemFee.toUInt64
    networkFee := feeText tx.networkFee.toUInt64
    totalFees := feeText (tx.networkFee.toUInt64 + tx.systemFee.toUInt64)
    validUntilBlock := snprintf 11 (percentD tx.validUntilBlock)
    validateCallback := some .transaction
    displayCtx := resetSignerDisplayState
    transactionFlow := createTransactionFlow tx
    flow := .transaction
    index := 0 }

theorem length_fixedDecimal_uint64 {decimals : Nat} (value : UInt64)
    (few : decimals ≤ 8) :
    (fixedDecimal decimals value.toNat).length ≤ 22 :=
  length_fixedDecimal_le (toDigits_length_le value) (by omega)

/-- The token amount is printed in full. -/
theorem displayTransfer_eq (tx : Transaction) (ui : Ui) :
    displayTransfer tx ui = (.ok (), transferUi tx ui) := by
  have few : tx.decimals ≤ 8 := by
    unfold Transaction.decimals
    split <;> omega
  obtain ⟨printed, text⟩ :=
    formatFpu64_eq tx.amount.toUInt64 (show 22 + tx.decimals ≤ 30 by omega)
  have short := length_fixedDecimal_uint64 tx.amount.toUInt64 few
  have asset :
      (if tx.isNeo then "NEO" else "GAS").toList.length = 3 := by
    split <;> rfl
  have whole :
      snprintf 64
          ((if tx.isNeo then "NEO" else "GAS").toList ++ ' ' ::
            (fixedDecimal tx.decimals tx.amount.toUInt64.toNat).take 30) =
        tokenAmountText tx := by
    rw [List.take_of_length_le (by omega), snprintf,
      List.take_of_length_le]
    · rfl
    · rw [List.length_append, List.length_cons, asset]
      omega
  unfold Transaction.decimals at printed text whole
  simp only [displayTransfer, bind, assign_apply, EarlyExit.exitIf, printed,
    text, whole, Bool.true_eq_false, if_false]
  rfl

/-- A fee is printed in full. -/
theorem displayFee_eq (put : List Char → Ui → Ui) (value : UInt64)
    (sw : UInt16) (ui : Ui) :
    displayFee put value sw ui = (.ok (), put (feeText value) (put [] ui)) := by
  obtain ⟨printed, text⟩ :=
    formatFpu64_eq value (show 22 + 8 ≤ 30 by omega)
  have short := length_fixedDecimal_uint64 value (Nat.le_refl 8)
  have whole :
      snprintf 30 ("GAS ".toList ++ (fixedDecimal 8 value.toNat).take 30) =
        feeText value := by
    rw [List.take_of_length_le (by omega), snprintf,
      List.take_of_length_le]
    · rfl
    · rw [List.length_append]
      change 4 + _ ≤ _
      omega
  simp only [displayFee, bind, assign_apply, EarlyExit.exitIf, printed, text,
    whole, Bool.true_eq_false, if_false]

/-- Building a review always succeeds. -/
theorem displayReview_eq (context : GlobalCtx) (ui : Ui) :
    displayReview context ui = (.ok (), reviewUi context ui) := by
  have transfer :
      runIf (context.transaction.isSystemAssetTransfer = true)
          (displayTransfer context.transaction) ui =
        (.ok (),
          if context.transaction.isSystemAssetTransfer then
            transferUi context.transaction ui
          else ui) := by
    by_cases isTransfer :
      context.transaction.isSystemAssetTransfer = true
    · rw [runIf, if_pos isTransfer, if_pos isTransfer, displayTransfer_eq]
    · rw [runIf, if_neg isTransfer, if_neg isTransfer]
      rfl
  unfold displayReview
  rw [bind_of_ok transfer, bind_of_ok (assign_apply _ _),
    bind_of_ok (displayFee_eq _ _ _ _), bind_of_ok (displayFee_eq _ _ _ _),
    bind_of_ok (displayFee_eq _ _ _ _), bind_of_ok (assign_apply _ _),
    bind_of_ok (assign_apply _ _)]
  rfl

/-- The transaction review, once its check of the state has passed. -/
theorem uiDisplayTransaction_eq {app : App}
    (isTransaction : app.context.reqType = .confirmTransaction)
    (isParsed : app.context.state = .parsed) :
    uiDisplayTransaction app =
      ({ app with ui := reviewUi app.context app.ui }, []) := by
  unfold uiDisplayTransaction
  rw [if_neg (by simp [isTransaction, isParsed]), displayReview_eq]

theorem reviewUi_text {context : GlobalCtx} (ui : Ui)
    (isTransfer : context.transaction.isSystemAssetTransfer = true) :
    (reviewUi context ui).text = tokenAmountText context.transaction := by
  simp only [reviewUi, isTransfer, if_true]
  rfl

theorem reviewUi_address {context : GlobalCtx} (ui : Ui)
    (isTransfer : context.transaction.isSystemAssetTransfer = true) :
    (reviewUi context ui).address =
      snprintf 35 (cString context.transaction.dstAddress) := by
  simp only [reviewUi, isTransfer, if_true]
  rfl

end Neo3App
