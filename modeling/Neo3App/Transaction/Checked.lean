import Neo3App.Common.Checked
import Neo3App.Transaction.Deserialize

/-!
# The parser with checks

`transaction_deserialize` and `try_parse_transfer_script` once more, section
by section, over the checked steps.  A run that would read outside a buffer,
index outside an array, move an offset past its size or lose a bit of a
narrowed integer ends in a fault.
-/

namespace Neo3App

open Neo3App.Lib
open Neo3App.Lib.EarlyExit

abbrev CheckedSection (α : Type) : Type :=
  Checked Transaction ParserStatus α

def checkedHeader : CheckedSection Unit := do
  let version ←
    checkedField checkedU8 (fun value tx => { tx with version := value })
      .versionParsingError
  exitIf (version > 0) (.inr .versionValueError)
  let _ ←
    checkedField checkedU32Le (fun value tx => { tx with nonce := value })
      .nonceParsingError
  let systemFee ←
    checkedField checkedS64Le
      (fun value tx => { tx with systemFee := value })
      .systemFeeParsingError
  exitIf (systemFee < 0) (.inr .systemFeeValueError)
  let networkFee ←
    checkedField checkedS64Le
      (fun value tx => { tx with networkFee := value })
      .networkFeeParsingError
  exitIf (networkFee < 0) (.inr .networkFeeValueError)
  let _ ←
    checkedField checkedU32Le
      (fun value tx => { tx with validUntilBlock := value })
      .validUntilBlockParsingError
  pure ()

def Transaction.setSigner (i : Nat) (change : Signer → Except Fault Signer)
    (tx : Transaction) : Except Fault Transaction := do
  let signers ← setCell tx.signers i change
  pure { tx with signers := signers }

def checkedItems (itemLen : Nat)
    (put : Nat → Ptr → Transaction → Except Fault Transaction)
    (code : ParserStatus) : (remaining j : Nat) → CheckedSection Unit
  | 0, _ => pure ()
  | remaining + 1, j => do
      checkedMark (put j)
      checkedSeek itemLen code
      checkedItems itemLen put code remaining (j + 1)

/-- The count is kept in a byte, and a `size_t` runs up to it. -/
def checkedSubItems (itemLen : Nat)
    (putSize : UInt8 → Transaction → Except Fault Transaction)
    (put : Nat → Ptr → Transaction → Except Fault Transaction)
    (lengthCode valueCode itemCode : ParserStatus) :
    CheckedSection Unit := do
  let length ← checkedLocal checkedVarint lengthCode
  exitIf (length > UInt64.ofNat maxSignerSubItems) (.inr valueCode)
  let size ← narrow (2 ^ 8) length
  checkedAssign (putSize (UInt8.ofNat size))
  let count ← narrow sizeModulus length
  checkedItems itemLen put itemCode count 0

def checkedAllowedContracts (i : Nat) : CheckedSection Unit :=
  checkedSubItems uint160Len
    (fun size =>
      Transaction.setSigner i fun signer =>
        pure { signer with allowedContractsSize := size })
    (fun j item =>
      Transaction.setSigner i fun signer => do
        let cells ← setCell signer.allowedContracts j fun _ => pure item
        pure { signer with allowedContracts := cells })
    .signerAllowedContractsLengthParsingError
    .signerAllowedContractsLengthValueError
    .signerAllowedContractParsingError

def checkedAllowedGroups (i : Nat) : CheckedSection Unit :=
  checkedSubItems ecpointLen
    (fun size =>
      Transaction.setSigner i fun signer =>
        pure { signer with allowedGroupsSize := size })
    (fun j item =>
      Transaction.setSigner i fun signer => do
        let cells ← setCell signer.allowedGroups j fun _ => pure item
        pure { signer with allowedGroups := cells })
    .signerAllowedGroupsLengthParsingError
    .signerAllowedGroupsLengthValueError
    .signerAllowedContractParsingError

def checkedAccount (s : Nat) : CheckedSection (List UInt8) := do
  let signer ← lookUp fun scan => cell scan.store.signers s
  fetchAt uint160Len signer.account

/-- The comparisons of signer `i` with the signers from `s` on. -/
def checkedDuplicates (sdk : Sdk) (i : Nat) :
    (remaining s : Nat) → CheckedSection Unit
  | 0, _ => pure ()
  | remaining + 1, s => do
      let earlier ← checkedAccount s
      let account ← checkedAccount i
      exitIf (sdk.secureMemcmp earlier account uint160Len = 0)
        (.inr .signerAccountDuplicateError)
      checkedDuplicates sdk i remaining (s + 1)

def checkedSigner (sdk : Sdk) (i : Nat) : CheckedSection Unit := do
  checkedMark fun position =>
    Transaction.setSigner i fun signer =>
      pure { signer with account := position }
  checkedSeek uint160Len .signerAccountParsingError
  checkedDuplicates sdk i i 0
  let value ← checkedLocal checkedU8 .signerScopeParsingError
  checkedAssign
    (Transaction.setSigner i fun signer => pure { signer with scope := value })
  exitIf (value &&& scopeGlobal = scopeGlobal ∧ value ≠ scopeGlobal)
    (.inr .signerScopeValueErrorGlobalFlag)
  runIf (value &&& scopeCustomContracts = scopeCustomContracts)
    (checkedAllowedContracts i)
  runIf (value &&& scopeCustomGroups = scopeCustomGroups)
    (checkedAllowedGroups i)

def checkedSignersFrom (sdk : Sdk) :
    (remaining i : Nat) → CheckedSection Unit
  | 0, _ => pure ()
  | remaining + 1, i => do
      checkedSigner sdk i
      checkedSignersFrom sdk remaining (i + 1)

def checkedSigners (sdk : Sdk) : CheckedSection Unit := do
  let length ← checkedLocal checkedVarint .signerLengthParsingError
  exitIf (length < UInt64.ofNat minTxSigners ∨
    length > UInt64.ofNat maxTxSigners) (.inr .signerLengthValueError)
  let size ← narrow (2 ^ 8) length
  checkedAssign fun tx => pure { tx with signersSize := UInt8.ofNat size }
  checkedSignersFrom sdk size 0

def checkedDuplicateTypes (type : UInt8) :
    (remaining j : Nat) → CheckedSection Unit
  | 0, _ => pure ()
  | remaining + 1, j => do
      let other ← lookUp fun scan => cell scan.store.attributes j
      exitIf (other = type) (.inr .attributesDuplicateType)
      checkedDuplicateTypes type remaining (j + 1)

def checkedDuplicateAttribute (type : UInt8) : CheckedSection Unit := do
  let size ← inspect fun scan => scan.store.attributesSize
  checkedDuplicateTypes type size.toNat 0

def checkedAttributesFrom : (remaining i : Nat) → CheckedSection Unit
  | 0, _ => pure ()
  | remaining + 1, i => do
      let type ← checkedLocal checkedU8 .attributesUnsupportedType
      exitIf (type ≠ highPriority) (.inr .attributesUnsupportedType)
      checkedDuplicateAttribute type
      checkedAssign fun tx => do
        let cells ← setCell tx.attributes i fun _ => pure type
        pure { tx with attributes := cells }
      checkedAttributesFrom remaining (i + 1)

def checkedAttributes : CheckedSection Unit := do
  let length ← checkedLocal checkedVarint .attributesLengthParsingError
  exitIf (length > UInt64.ofNat maxAttributes ∨ length > 2)
    (.inr .attributesLengthValueError)
  let size ← narrow (2 ^ 8) length
  checkedAssign fun tx => pure { tx with attributesSize := UInt8.ofNat size }
  checkedAttributesFrom size 0

/-- The length is a `size_t` in the seek and two bytes in the record. -/
def checkedScript : CheckedSection Unit := do
  let length ← checkedLocal checkedVarint .scriptLengthParsingError
  checkedMark fun position tx => pure { tx with script := position }
  exitIf (length > 0xFFFF ∨ length = 0) (.inr .scriptLengthValueError)
  let count ← narrow sizeModulus length
  checkedSeek count .scriptLengthValueError
  let size ← narrow (2 ^ 16) length
  checkedAssign fun tx => pure { tx with scriptSize := UInt16.ofNat size }

def checkedFields (sdk : Sdk) : CheckedSection Unit := do
  checkedHeader
  checkedSigners sdk
  checkedAttributes
  checkedScript

abbrev CheckedRecogniser (α : Type) : Type :=
  Checked Transaction Unit α

def checkedAmount (op : UInt8) : CheckedRecogniser Unit :=
  let put (amount : Int64) : CheckedRecogniser Unit :=
    checkedAssign fun tx => pure { tx with amount := amount }
  if 0x10 ≤ op ∧ op ≤ 0x20 then
    put (op.toUInt64.toInt64 - 0x10)
  else if op = 0x00 then do
    let operand ← checkedLocal checkedS8 ()
    put operand.toUInt8.toUInt64.toInt64
  else if op = 0x01 then do
    let operand ← checkedLocal checkedS16Le ()
    put operand.toInt64
  else if op = 0x02 then do
    let operand ← checkedLocal checkedS32Le ()
    put operand.toInt64
  else if op = 0x03 then do
    let operand ← checkedLocal checkedS64Le ()
    put operand
  else
    exitIf True (.inr ())

def checkedPush : CheckedRecogniser Unit := do
  let op ← checkedLocal checkedU8 ()
  checkedAmount op

def checkedPushData20 : CheckedRecogniser Unit := do
  let word ← checkedLocal checkedU16Be ()
  exitIf (word ≠ 0x0C14) (.inr ())

/-- A pointer to the next `length` bytes, which are looked at after they have
been skipped. -/
def checkedTake (length : Nat) : CheckedRecogniser (List UInt8) := do
  let position ← inspect fun scan => scan.buf.offset
  checkedSeek length ()
  fetchBytes length position

def checkedPeek (length : Nat) : CheckedRecogniser (List UInt8) := do
  let left ← unread
  exitIf (left < length) (.inr ())
  let position ← inspect fun scan => scan.buf.offset
  fetchBytes length position

def checkedBytes (sdk : Sdk) (expected : List UInt8) :
    CheckedRecogniser Unit := do
  let bytes ← checkedPeek expected.length
  exitIf (sdk.secureMemcmp bytes expected expected.length ≠ 0) (.inr ())
  let _ ← skip expected.length
  pure ()

def checkedMatch (sdk : Sdk) (hash : List UInt8) : CheckedRecogniser Unit :=
  if sdk.secureMemcmp hash neoScriptHash uint160Len = 0 then
    checkedAssign fun tx => pure tx.setNeo
  else
    exitIf (sdk.secureMemcmp hash gasScriptHash uint160Len ≠ 0) (.inr ())

def checkedContract (sdk : Sdk) : CheckedRecogniser Unit := do
  let hash ← checkedPeek uint160Len
  checkedMatch sdk hash
  let _ ← skip uint160Len
  pure ()

def checkedCall (sdk : Sdk) : CheckedRecogniser Unit := do
  let pushNull ← checkedLocal checkedU8 ()
  exitIf (pushNull ≠ 0x0B) (.inr ())
  checkedPush
  checkedPushData20
  let destination ← checkedTake uint160Len
  checkedAssign fun tx => pure (tx.setDestination sdk destination)
  checkedPushData20
  checkedSeek uint160Len ()
  checkedBytes sdk callSequence
  checkedContract sdk
  checkedBytes sdk syscallSequence

def checkedTransfer (sdk : Sdk) : CheckedRecogniser Unit := do
  checkedCall sdk
  exitWhen (fun scan => scan.buf.offset != scan.store.scriptSize.toNat)
    (.inr ())
  checkedAssign fun tx => pure { tx with isSystemAssetTransfer := true }

/-- `try_parse_transfer_script`: the transaction afterwards. -/
def checkedTransferScript (sdk : Sdk) (script : Buffer) (tx : Transaction) :
    Except Fault Transaction :=
  match checkedTransfer sdk ⟨script, tx⟩ with
  | (.error (.inl fault), _) => .error fault
  | (_, scan) => .ok scan.store

/-- The buffer over the script slice, which is inside the bytes. -/
def checkedScriptBuffer (scan : Scan Transaction) : Except Fault Buffer :=
  match scan.store.script with
  | none => .error .null
  | some position =>
      if position + scan.store.scriptSize.toNat ≤ scan.buf.size then
        .ok ⟨scan.buf.ptr.drop position, scan.store.scriptSize.toNat, 0⟩
      else
        .error .byte

def checkedBody (sdk : Sdk) : CheckedSection Unit := do
  exitWhen (fun scan => maxTransactionLen < scan.buf.size)
    (.inr .invalidLengthError)
  checkedFields sdk
  let script ← lookUp checkedScriptBuffer
  checkedAssign (checkedTransferScript sdk script)
  exitWhen (fun scan => scan.buf.offset != scan.buf.size)
    (.inr .invalidLengthError)

/-- `transaction_deserialize`: the status and the transaction, or the first
access that goes wrong. -/
def checkedDeserialize (sdk : Sdk) (buf : Buffer) (tx : Transaction) :
    Except Fault (ParserStatus × Transaction) :=
  match checkedBody sdk ⟨buf, tx⟩ with
  | (.ok (), scan) => .ok (.parsingOk, scan.store)
  | (.error (.inr status), scan) => .ok (status, scan.store)
  | (.error (.inl fault), _) => .error fault

end Neo3App
