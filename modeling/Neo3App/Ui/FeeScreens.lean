import Neo3App.Ui.StaticScreens
import Neo3App.Ui.TokenAmount

/-!
# The fee screens

The fees of an accepted transaction are not negative, so that they and their
sum are printed exactly.  Each string is shorter than its buffer.
-/

namespace Neo3App

open Neo3App.Lib

/-- An amount of GAS: the quotient by 10^8, then the remainder on eight
digits. -/
def gasText (value : Nat) : List Char :=
  "GAS ".toList ++
    (Nat.toDigits 10 (value / 10 ^ 8) ++ '.' ::
      lastDigits 8 (value % 10 ^ 8))

/-- The string `shown` is the whole of `text` and ends inside a buffer of
`size` characters. -/
structure PrintedInFull (size : Nat) (text shown : List Char) : Prop where
  whole : shown = text
  room : shown.length < size
  noZero : '\x00' ∉ shown

/-- The three fee strings are those of the transaction. -/
structure FeesShown (tx : Transaction) (ui : Ui) : Prop where
  systemFee : ∃ value : Nat, tx.systemFee.toInt = value ∧
    PrintedInFull 30 (gasText value) ui.systemFee
  networkFee : ∃ value : Nat, tx.networkFee.toInt = value ∧
    PrintedInFull 30 (gasText value) ui.networkFee
  totalFees : ∃ value : Nat,
    tx.systemFee.toInt + tx.networkFee.toInt = value ∧
      PrintedInFull 30 (gasText value) ui.totalFees

def displayFailures : List UInt16 :=
  [swDisplayTokenTransferAmountFail, swDisplaySystemFeeFail,
    swDisplayNetworkFeeFail, swDisplayTotalFeeFail]

theorem feeText_eq (value : UInt64) : feeText value = gasText value.toNat := by
  rw [feeText, gasText, fixedDecimal_eq_quotient (by decide)]

theorem feeText_printedInFull (value : UInt64) :
    PrintedInFull 30 (gasText value.toNat) (feeText value) where
  whole := feeText_eq value
  room := by
    have short := length_fixedDecimal_uint64 value (Nat.le_refl 8)
    rw [feeText, List.length_append]
    change 4 + _ < _
    omega
  noZero := by
    rw [feeText, List.mem_append]
    exact not_or.mpr ⟨by decide, zero_not_mem_fixedDecimal 8 value.toNat⟩

theorem fees_writeFields (layout : TransactionLayout) (tx : Transaction) :
    (writeFields layout tx).systemFee = layout.header.systemFee ∧
      (writeFields layout tx).networkFee = layout.header.networkFee := by
  rw [writeFields, writeSigners, writeSignersFrom_eq, writeAttributes]
  split <;> exact ⟨rfl, rfl⟩

/-- The parser accepts no negative fee. -/
theorem fees_nonneg
    {sdk : Sdk} {buf : Buffer} (input : InputBuffer buf)
    {before tx : Transaction}
    (parsed : transactionDeserialize sdk buf before = (.parsingOk, tx)) :
    0 ≤ tx.systemFee ∧ 0 ≤ tx.networkFee := by
  obtain ⟨layout, format, stored⟩ :=
    transactionDeserialize_eq_ok sdk input parsed
  obtain ⟨_, _, _, _, _, ⟨systemFee, networkFee, _⟩, _⟩ := format
  have fields := tryParseTransferScript_fields sdk
    (scriptBuffer ⟨buf.advance buf.rest.length, writeFields layout before⟩)
    (writeFields layout before)
  rw [← stored] at fields
  obtain ⟨ofSystem, ofNetwork⟩ := fees_writeFields layout before
  have sameSystem : tx.systemFee = layout.header.systemFee :=
    (congrArg Transaction.systemFee fields).trans ofSystem
  have sameNetwork : tx.networkFee = layout.header.networkFee :=
    (congrArg Transaction.networkFee fields).trans ofNetwork
  rw [sameSystem, sameNetwork]
  exact ⟨systemFee, networkFee⟩

/-- The answer to a transaction is a review or a bad state. -/
theorem uiDisplayTransaction_answer (app : App) :
    (uiDisplayTransaction app).2 ∈ [[], ioSendSw swBadState] := by
  by_cases ready : app.context.reqType = .confirmTransaction ∧
    app.context.state = .parsed
  · rw [uiDisplayTransaction_eq ready.1 ready.2]
    exact List.mem_cons_self ..
  · rw [uiDisplayTransaction, if_pos (not_and_or.mp ready)]
    exact List.mem_cons_of_mem _ (List.mem_singleton_self _)

/-- **Every fee of an accepted transaction is printed exactly.** -/
theorem fees_exact
    (sdk : Sdk) {buf : Buffer} (input : InputBuffer buf)
    {before : Transaction} {app : App}
    (parsed :
      transactionDeserialize sdk buf before =
        (.parsingOk, app.context.transaction)) :
    (∀ sw ∈ displayFailures, (uiDisplayTransaction app).2 ≠ ioSendSw sw) ∧
      (app.context.reqType = .confirmTransaction →
        app.context.state = .parsed →
          (uiDisplayTransaction app).2 = [] ∧
            FeesShown app.context.transaction
              (uiDisplayTransaction app).1.ui) := by
  obtain ⟨systemFee, networkFee⟩ := fees_nonneg input parsed
  constructor
  · intro sw isFailure answer
    have notBadState : swBadState ∉ displayFailures := by decide
    have answers := uiDisplayTransaction_answer app
    rw [answer, List.mem_pair] at answers
    rcases answers with silent | isBadState
    · cases silent
    · have same : sw = swBadState := by simpa [ioSendSw] using isBadState
      exact notBadState (same ▸ isFailure)
  · intro isTransaction isParsed
    rw [uiDisplayTransaction_eq isTransaction isParsed]
    have systemValue :=
      toNat_toUInt64_of_nonneg (Int64.le_iff_toInt_le.mp systemFee)
    have networkValue :=
      toNat_toUInt64_of_nonneg (Int64.le_iff_toInt_le.mp networkFee)
    have systemSmall := app.context.transaction.systemFee.toInt_lt
    have networkSmall := app.context.transaction.networkFee.toInt_lt
    refine ⟨rfl, ⟨_, systemValue.symm, feeText_printedInFull _⟩,
      ⟨_, networkValue.symm, feeText_printedInFull _⟩,
      ⟨_, ?_, feeText_printedInFull _⟩⟩
    rw [UInt64.toNat_add, Nat.mod_eq_of_lt (by omega), Nat.cast_add,
      systemValue, networkValue, Int.add_comm]

/-- A transaction with the largest system and network fee. -/
def costlyTransaction : List UInt8 :=
  List.replicate 5 0 ++ leBytes 8 (2 ^ 63 - 1) ++ leBytes 8 (2 ^ 63 - 1) ++
    List.replicate 4 0 ++ [1] ++ List.replicate 20 0x02 ++ [1] ++ [0] ++
      [1, 0x40]

def costlyApp : App :=
  reviewApp (parsedTransaction costlyTransaction).2 networkMainnet

theorem fees_exact_costly :
    (∀ sw ∈ displayFailures,
      (uiDisplayTransaction costlyApp).2 ≠ ioSendSw sw) ∧
      (uiDisplayTransaction costlyApp).2 = [] ∧
        FeesShown costlyApp.context.transaction
          (uiDisplayTransaction costlyApp).1.ui := by
  have accepted : (parsedTransaction costlyTransaction).1 = .parsingOk := by
    decide +kernel
  have shown :=
    fees_exact Sdk.constant (InputBuffer.whole (by decide))
      (Prod.ext accepted rfl :
        parsedTransaction costlyTransaction =
          (.parsingOk, costlyApp.context.transaction))
  exact ⟨shown.1, shown.2 rfl rfl⟩

example : gasText (2 * (2 ^ 63 - 1)) = "GAS 184467440737.09551614".toList := by
  decide +kernel

end Neo3App
