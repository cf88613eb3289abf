import Neo3App.Transaction.Contents
import Neo3App.Transaction.Template

/-!
# Accepted transfers

What is known of a transaction that the parser accepts and recognises as a
transfer: its layout, the layout of its script, and the record they leave.
-/

namespace Neo3App

open Neo3App.Lib

/-- The bytes `b` are accepted as the transfer `tx`. -/
structure AcceptedTransfer (sdk : Sdk) (b : List UInt8) (tx : Transaction) :
    Prop where
  parsed :
    transactionDeserialize sdk ⟨b, b.length, 0⟩ Transaction.zero =
      (.parsingOk, tx)
  isTransfer : tx.isSystemAssetTransfer = true

/-- A record that agrees with a cleared one outside the transfer fields is
not a transfer. -/
theorem writeFields_zero_isSystemAssetTransfer (layout : TransactionLayout) :
    (writeFields layout Transaction.zero).isSystemAssetTransfer = false := by
  rw [writeFields_zero]

/-- The layouts of an accepted transfer. -/
theorem AcceptedTransfer.layouts
    {sdk : Sdk} {b : List UInt8} {tx : Transaction}
    (accepted : AcceptedTransfer sdk b tx) :
    ∃ layout transfer, FieldsFormat 0 layout b ∧
      TransferFormat 0 transfer layout.script.bytes ∧
      tx =
        { writeTransfer sdk transfer (writeFields layout Transaction.zero) with
          isSystemAssetTransfer := true } := by
  have input := InputBuffer.whole (size_le_of_parsed accepted.parsed)
  obtain ⟨layout, format, stored⟩ :=
    transactionDeserialize_eq_ok sdk input accepted.parsed
  rw [rest_whole] at format stored
  obtain ⟨script, scriptRest⟩ :=
    scriptBuffer_of_fields Transaction.zero
      (show FieldsFormat (Buffer.offset ⟨b, b.length, 0⟩) layout b from format)
      (by simp only [rest_whole, List.prefix_refl])
  refine ⟨layout, ?_⟩
  by_cases recognised : ∃ transfer, TransferFormat 0 transfer
    layout.script.bytes
  · rcases recognised with ⟨transfer, isTransfer⟩
    rw [← scriptRest] at isTransfer
    have records := tryParseTransferScript_of_format sdk script isTransfer
    rw [scriptRest] at isTransfer
    exact ⟨transfer, format, isTransfer, stored.trans records⟩
  · rw [← scriptRest] at recognised
    have unchanged :=
      tryParseTransferScript_of_not_format sdk script recognised
    have verdict := congrArg Transaction.isSystemAssetTransfer unchanged
    rw [Transaction.eraseTransfer_isSystemAssetTransfer,
      Transaction.eraseTransfer_isSystemAssetTransfer, ← stored,
      accepted.isTransfer,
      writeFields_zero_isSystemAssetTransfer] at verdict
    cases verdict

/-- The fields of an accepted transfer hold the contents of its bytes. -/
theorem AcceptedTransfer.decoded
    {sdk : Sdk} {b : List UInt8} {tx : Transaction}
    (accepted : AcceptedTransfer sdk b tx) :
    ∃ layout transfer, FieldsFormat 0 layout b ∧
      TransferFormat 0 transfer layout.script.bytes ∧
      Decoded b layout.contents tx ∧ tx.amount = transfer.push.amount ∧
      tx.isNeo = transfer.isNeo ∧
      tx.dstAddress =
        scriptHashToAddress sdk Transaction.zero.dstAddress addressLen
          transfer.destination := by
  rcases accepted.layouts with ⟨layout, transfer, format, isTransfer, stored⟩
  refine ⟨layout, transfer, format, isTransfer, ?_, ?_⟩
  · rw [← decoded_fields_iff]
    have fields :
        tx.fields = (writeFields layout Transaction.zero).fields := by
      rw [stored]
      obtain ⟨_, _, _, _ | _⟩ := transfer <;> rfl
    rw [fields, decoded_fields_iff]
    exact writeFields_decoded format
  · rw [stored, writeFields_zero]
    obtain ⟨_, _, _, _ | _⟩ := transfer <;> exact ⟨rfl, rfl, rfl⟩

/-- A transaction without fees whose single signer has the scope
`CALLED_BY_ENTRY`. -/
def plainTransaction (script : List UInt8) : List UInt8 :=
  [0] ++ List.replicate 24 0 ++ [1] ++ List.replicate 20 0x02 ++ [1] ++ [0] ++
    UInt8.ofNat script.length :: script

def oneNeoTransaction : List UInt8 :=
  plainTransaction oneNeoScript

def parsedTransaction (b : List UInt8) : ParserStatus × Transaction :=
  transactionDeserialize Sdk.constant ⟨b, b.length, 0⟩ Transaction.zero

theorem AcceptedTransfer.of_parsed
    {b : List UInt8} (accepted : (parsedTransaction b).1 = .parsingOk)
    (isTransfer : (parsedTransaction b).2.isSystemAssetTransfer = true) :
    AcceptedTransfer Sdk.constant b (parsedTransaction b).2 :=
  ⟨Prod.ext accepted rfl, isTransfer⟩

def oneNeo : Transaction :=
  (parsedTransaction oneNeoTransaction).2

theorem acceptedTransfer_oneNeo :
    AcceptedTransfer Sdk.constant oneNeoTransaction oneNeo :=
  .of_parsed (by decide +kernel) (by decide +kernel)

end Neo3App
