import Neo3App.Transaction.Transfer

/-!
# The transfer template

The recogniser accepts exactly one template, described here on raw bytes.
-/

namespace Neo3App

open Neo3App.Lib

/-- One integer push: an opcode from `PUSH0` to `PUSH16`, or one of the four
opcodes that are followed by an operand. -/
inductive IntegerPush : List UInt8 → Prop where
  | small (op : UInt8) (low : 0x10 ≤ op) (high : op ≤ 0x20) :
      IntegerPush [op]
  | int8 (operand : List UInt8) (length : operand.length = 1) :
      IntegerPush (0x00 :: operand)
  | int16 (operand : List UInt8) (length : operand.length = 2) :
      IntegerPush (0x01 :: operand)
  | int32 (operand : List UInt8) (length : operand.length = 4) :
      IntegerPush (0x02 :: operand)
  | int64 (operand : List UInt8) (length : operand.length = 8) :
      IntegerPush (0x03 :: operand)

/-- The bytes of a script that calls `transfer` on the contract `contract`
with the amount pushed by `push`, the receiver `destination` and the sender
`source`. -/
def transferScript (push destination source contract : List UInt8) :
    List UInt8 :=
  [0x0B] ++ push ++ [0x0C, 0x14] ++ destination ++ [0x0C, 0x14] ++ source ++
    [0x14, 0xC0, 0x1F, 0x0C, 0x08] ++
    [0x74, 0x72, 0x61, 0x6E, 0x73, 0x66, 0x65, 0x72] ++ [0x0C, 0x14] ++
    contract ++ [0x41, 0x62, 0x7D, 0x5B, 0x52]

structure IsTransferScript
    (push destination source contract script : List UInt8) : Prop where
  integerPush : IntegerPush push
  destinationLength : destination.length = 20
  sourceLength : source.length = 20
  isContract : contract = neoScriptHash ∨ contract = gasScriptHash
  script_eq : script = transferScript push destination source contract

theorem IntegerPush.encode (push : Push) : IntegerPush push.encode := by
  cases push with
  | small value =>
      exact .small _ (smallOp_range value).1 (smallOp_range value).2
  | int8 value =>
      exact .int8 _ rfl
  | int16 value =>
      exact .int16 _ (length_leBytes 2 _)
  | int32 value =>
      exact .int32 _ (length_leBytes 4 _)
  | int64 value =>
      exact .int64 _ (length_leBytes 8 _)

/-- Every integer push is the encoding of an instruction. -/
theorem IntegerPush.exists_encode
    {bytes : List UInt8} (isPush : IntegerPush bytes) :
    ∃ push : Push, push.encode = bytes := by
  cases isPush with
  | small op low high =>
      obtain ⟨value, rfl⟩ := smallOp_of_range ⟨low, high⟩
      exact ⟨.small value, rfl⟩
  | int8 operand length =>
      match operand, length with
      | [byte], _ =>
          exact ⟨.int8 byte.toInt8, by simp [Push.encode]⟩
  | int16 operand length =>
      have bound : leNat operand < 2 ^ 16 :=
        (leNat_lt operand).trans_eq (by rw [length]; rfl)
      have whole := leBytes_leNat operand
      rw [length] at whole
      refine ⟨.int16 (UInt16.ofNat (leNat operand)).toInt16, ?_⟩
      rw [Push.encode, UInt16.toUInt16_toInt16, UInt16.toNat_ofNat',
        Nat.mod_eq_of_lt bound, whole]
  | int32 operand length =>
      have bound : leNat operand < 2 ^ 32 :=
        (leNat_lt operand).trans_eq (by rw [length]; rfl)
      have whole := leBytes_leNat operand
      rw [length] at whole
      refine ⟨.int32 (UInt32.ofNat (leNat operand)).toInt32, ?_⟩
      rw [Push.encode, UInt32.toUInt32_toInt32, UInt32.toNat_ofNat',
        Nat.mod_eq_of_lt bound, whole]
  | int64 operand length =>
      have bound : leNat operand < 2 ^ 64 :=
        (leNat_lt operand).trans_eq (by rw [length]; rfl)
      have whole := leBytes_leNat operand
      rw [length] at whole
      refine ⟨.int64 (UInt64.ofNat (leNat operand)).toInt64, ?_⟩
      rw [Push.encode, UInt64.toUInt64_toInt64, UInt64.toNat_ofNat',
        Nat.mod_eq_of_lt bound, whole]

theorem TransferLayout.encode_eq (layout : TransferLayout) :
    layout.encode =
      transferScript layout.push.encode layout.destination layout.source
        (contractHash layout.isNeo) := by
  simp [TransferLayout.encode, transferScript]

/-- The template is the format of the recogniser. -/
theorem isTransferScript_iff
    {push destination source contract script : List UInt8} :
    IsTransferScript push destination source contract script ↔
      ∃ layout : TransferLayout, TransferFormat 0 layout script ∧
        layout.push.encode = push ∧ layout.destination = destination ∧
        layout.source = source ∧ contractHash layout.isNeo = contract := by
  constructor
  · rintro ⟨integerPush, destinationLength, sourceLength, isContract, rfl⟩
    obtain ⟨instruction, rfl⟩ := integerPush.exists_encode
    have isHash : ∃ isNeo, contractHash isNeo = contract := by
      rcases isContract with rfl | rfl
      · exact ⟨true, rfl⟩
      · exact ⟨false, rfl⟩
    obtain ⟨isNeo, rfl⟩ := isHash
    let layout : TransferLayout := ⟨instruction, destination, source, isNeo⟩
    exact ⟨layout, ⟨destinationLength, sourceLength, layout.encode_eq.symm⟩,
      rfl, rfl, rfl, rfl⟩
  · rintro ⟨layout, ⟨destinationLength, sourceLength, rfl⟩, rfl, rfl, rfl,
      rfl⟩
    refine ⟨IntegerPush.encode layout.push, destinationLength, sourceLength,
      ?_, layout.encode_eq⟩
    cases layout.isNeo
    · exact Or.inr rfl
    · exact Or.inl rfl

def oneNeoScript : List UInt8 :=
  transferScript [0x11] (List.replicate 20 0x01) (List.replicate 20 0x02)
    neoScriptHash

theorem isTransferScript_oneNeoScript :
    IsTransferScript [0x11] (List.replicate 20 0x01) (List.replicate 20 0x02)
      neoScriptHash oneNeoScript where
  integerPush := .small 0x11 (by decide) (by decide)
  destinationLength := rfl
  sourceLength := rfl
  isContract := Or.inl rfl
  script_eq := rfl

/-- `try_parse_transfer_script` on a cleared record recognises exactly the
template, and records the receiver and the contract. -/
theorem tryParseTransferScript_recognises_template
    (sdk : Sdk) (script beyond : List UInt8)
    (nonempty : 1 ≤ script.length) (bounded : script.length ≤ 65535) :
    let cleared :=
      { Transaction.zero with scriptSize := UInt16.ofNat script.length }
    let after :=
      tryParseTransferScript sdk ⟨script ++ beyond, script.length, 0⟩ cleared
    (after.isSystemAssetTransfer = true ↔
      ∃ push destination source contract,
        IsTransferScript push destination source contract script) ∧
    ∀ push destination source contract,
      IsTransferScript push destination source contract script →
        after.dstAddress =
          scriptHashToAddress sdk cleared.dstAddress addressLen destination ∧
        (after.isNeo = true ↔ contract = neoScriptHash) := by
  intro cleared after
  have whole :
      ScriptBuffer ⟨script ++ beyond, script.length, 0⟩ cleared :=
    { wf :=
        { offset_le := Nat.zero_le _
          size_le := by simp
          size_lt := by
            change script.length < sizeModulus
            unfold sizeModulus
            omega }
      atStart := rfl
      size_eq := by
        change (UInt16.ofNat script.length).toNat = script.length
        rw [UInt16.toNat_ofNat']
        omega }
  have rest :
      Buffer.rest ⟨script ++ beyond, script.length, 0⟩ = script := by
    simp [Buffer.rest]
  have records {layout : TransferLayout}
      (format : TransferFormat 0 layout script) :
      after =
        { writeTransfer sdk layout cleared with
          isSystemAssetTransfer := true } :=
    tryParseTransferScript_of_format sdk whole (by rwa [rest])
  refine ⟨⟨?_, ?_⟩, ?_⟩
  · intro recognised
    by_contra noTemplate
    have noLayout : ¬ ∃ layout, TransferFormat 0 layout script := by
      rintro ⟨layout, format⟩
      exact noTemplate
        ⟨_, _, _, _, isTransferScript_iff.mpr
          ⟨layout, format, rfl, rfl, rfl, rfl⟩⟩
    have unchanged :=
      tryParseTransferScript_of_not_format sdk whole (by rwa [rest])
    have verdict := congrArg Transaction.isSystemAssetTransfer unchanged
    rw [Transaction.eraseTransfer_isSystemAssetTransfer,
      Transaction.eraseTransfer_isSystemAssetTransfer, recognised] at verdict
    cases verdict
  · rintro ⟨push, destination, source, contract, isTemplate⟩
    obtain ⟨layout, format, _⟩ := isTransferScript_iff.mp isTemplate
    have verdict := congrArg Transaction.isSystemAssetTransfer (records format)
    rw [verdict]
  · intro push destination source contract isTemplate
    obtain ⟨layout, format, -, rfl, -, rfl⟩ :=
      isTransferScript_iff.mp isTemplate
    have address := congrArg Transaction.dstAddress (records format)
    have isNeo := congrArg Transaction.isNeo (records format)
    rw [address, isNeo]
    obtain ⟨instruction, destination, source, _ | _⟩ := layout
    · exact ⟨rfl, by
        change false = true ↔ gasScriptHash = neoScriptHash
        decide⟩
    · exact ⟨rfl, by
        change true = true ↔ neoScriptHash = neoScriptHash
        decide⟩

theorem tryParseTransferScript_recognises_oneNeoScript :
    let after :=
      tryParseTransferScript Sdk.constant
        ⟨oneNeoScript ++ [], oneNeoScript.length, 0⟩
        { Transaction.zero with
          scriptSize := UInt16.ofNat oneNeoScript.length }
    after.isSystemAssetTransfer = true ∧ after.isNeo = true := by
  obtain ⟨verdict, stored⟩ :=
    tryParseTransferScript_recognises_template Sdk.constant oneNeoScript []
      (by decide) (by decide)
  exact ⟨verdict.mpr ⟨_, _, _, _, isTransferScript_oneNeoScript⟩,
    (stored _ _ _ _ isTransferScript_oneNeoScript).2.mpr rfl⟩

end Neo3App
