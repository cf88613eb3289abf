import Neo3App.Transaction.TxUtils

/-!
# Parsing a transaction

`transaction_deserialize` of `transaction/deserialize.c`, one definition for
each of its sections and loops.  Every return with an error is an exit with
that status; the fields stored before it stay in the record.
-/

namespace Neo3App

open Neo3App.Lib
open Neo3App.Lib.EarlyExit

/-- The sections of the parser fill a transaction and exit with a status. -/
abbrev Section (α : Type) : Type :=
  Parser Transaction ParserStatus α

def parseHeader : Section Unit := do
  let version ←
    readField bufferReadU8 (fun value tx => { tx with version := value })
      .versionParsingError
  exitIf (version > 0) .versionValueError
  let _ ←
    readField (bufferReadU32 · .le)
      (fun value tx => { tx with nonce := value }) .nonceParsingError
  let systemFee ←
    readField (bufferReadS64 · .le)
      (fun value tx => { tx with systemFee := value })
      .systemFeeParsingError
  exitIf (systemFee < 0) .systemFeeValueError
  let networkFee ←
    readField (bufferReadS64 · .le)
      (fun value tx => { tx with networkFee := value })
      .networkFeeParsingError
  exitIf (networkFee < 0) .networkFeeValueError
  let _ ←
    readField (bufferReadU32 · .le)
      (fun value tx => { tx with validUntilBlock := value })
      .validUntilBlockParsingError
  pure ()

def Transaction.modifySigner (tx : Transaction) (i : Nat)
    (change : Signer → Signer) : Transaction :=
  { tx with signers := modifySlot tx.signers i change }

/-- The loop over the items of an allowed list: `remaining` items are left
and the next one is stored at `j`. -/
def parseItems (itemLen : Nat) (put : Nat → Ptr → Transaction → Transaction)
    (code : ParserStatus) : (remaining j : Nat) → Section Unit
  | 0, _ => pure ()
  | remaining + 1, j => do
      markField (put j)
      seekCur itemLen code
      parseItems itemLen put code remaining (j + 1)

/-- An allowed list of a signer: a length, then that many items. -/
def parseSubItems (itemLen : Nat) (putSize : UInt8 → Transaction → Transaction)
    (put : Nat → Ptr → Transaction → Transaction)
    (lengthCode valueCode itemCode : ParserStatus) : Section Unit := do
  let length ← readLocal bufferReadVarint lengthCode
  exitIf (length > UInt64.ofNat maxSignerSubItems) valueCode
  assignField (putSize length.toUInt8)
  parseItems itemLen put itemCode length.toNat 0

def parseAllowedContracts (i : Nat) : Section Unit :=
  parseSubItems uint160Len
    (fun size tx =>
      tx.modifySigner i fun signer =>
        { signer with allowedContractsSize := size })
    (fun j item tx =>
      tx.modifySigner i fun signer =>
        { signer with
          allowedContracts :=
            modifySlot signer.allowedContracts j fun _ => item })
    .signerAllowedContractsLengthParsingError
    .signerAllowedContractsLengthValueError
    .signerAllowedContractParsingError

/-- An unreadable group is reported with the status of a contract. -/
def parseAllowedGroups (i : Nat) : Section Unit :=
  parseSubItems ecpointLen
    (fun size tx =>
      tx.modifySigner i fun signer =>
        { signer with allowedGroupsSize := size })
    (fun j item tx =>
      tx.modifySigner i fun signer =>
        { signer with
          allowedGroups :=
            modifySlot signer.allowedGroups j fun _ => item })
    .signerAllowedGroupsLengthParsingError
    .signerAllowedGroupsLengthValueError
    .signerAllowedContractParsingError

/-- The account bytes of signer `i`, as its pointer sees them. -/
def accountAt (scan : Scan Transaction) (i : Nat) : List UInt8 :=
  deref scan.buf.ptr uint160Len (slot scan.store.signers i).account

/-- One of the signers before `i` has the account of signer `i`. -/
def duplicateAccount (sdk : Sdk) (i : Nat) (scan : Scan Transaction) :
    Bool :=
  (List.range i).any fun s =>
    sdk.secureMemcmp (accountAt scan s) (accountAt scan i) uint160Len == 0

def parseSigner (sdk : Sdk) (i : Nat) : Section Unit := do
  markField fun position tx =>
    tx.modifySigner i fun signer => { signer with account := position }
  seekCur uint160Len .signerAccountParsingError
  exitWhen (duplicateAccount sdk i) .signerAccountDuplicateError
  let value ← readLocal bufferReadU8 .signerScopeParsingError
  assignField fun tx =>
    tx.modifySigner i fun signer => { signer with scope := value }
  exitIf (value &&& scopeGlobal = scopeGlobal ∧ value ≠ scopeGlobal)
    .signerScopeValueErrorGlobalFlag
  runIf (value &&& scopeCustomContracts = scopeCustomContracts)
    (parseAllowedContracts i)
  runIf (value &&& scopeCustomGroups = scopeCustomGroups)
    (parseAllowedGroups i)

/-- The loop over the signers: `remaining` are left, `i` is the next one. -/
def parseSignersFrom (sdk : Sdk) : (remaining i : Nat) → Section Unit
  | 0, _ => pure ()
  | remaining + 1, i => do
      parseSigner sdk i
      parseSignersFrom sdk remaining (i + 1)

def parseSigners (sdk : Sdk) : Section Unit := do
  let length ← readLocal bufferReadVarint .signerLengthParsingError
  exitIf (length < UInt64.ofNat minTxSigners ∨
    length > UInt64.ofNat maxTxSigners) .signerLengthValueError
  assignField fun tx => { tx with signersSize := length.toUInt8 }
  parseSignersFrom sdk length.toUInt8.toNat 0

/-- One of the first `attributes_size` attributes has this type.  They are
compared whether or not this call has filled them. -/
def duplicateAttribute (type : UInt8) (scan : Scan Transaction) : Bool :=
  (List.range scan.store.attributesSize.toNat).any fun j =>
    slot scan.store.attributes j == type

/-- The loop over the attributes: `remaining` are left, `i` is the next. -/
def parseAttributesFrom : (remaining i : Nat) → Section Unit
  | 0, _ => pure ()
  | remaining + 1, i => do
      let type ← readLocal bufferReadU8 .attributesUnsupportedType
      exitIf (type ≠ highPriority) .attributesUnsupportedType
      exitWhen (duplicateAttribute type) .attributesDuplicateType
      assignField fun tx =>
        { tx with attributes := modifySlot tx.attributes i fun _ => type }
      parseAttributesFrom remaining (i + 1)

def parseAttributes : Section Unit := do
  let length ← readLocal bufferReadVarint .attributesLengthParsingError
  exitIf (length > UInt64.ofNat maxAttributes ∨ length > 2)
    .attributesLengthValueError
  assignField fun tx => { tx with attributesSize := length.toUInt8 }
  parseAttributesFrom length.toUInt8.toNat 0

def parseScript : Section Unit := do
  let length ← readLocal bufferReadVarint .scriptLengthParsingError
  markField fun position tx => { tx with script := position }
  exitIf (length > 0xFFFF ∨ length = 0) .scriptLengthValueError
  seekCur (length.toNat % sizeModulus) .scriptLengthValueError
  assignField fun tx => { tx with scriptSize := length.toUInt16 }

def parseFields (sdk : Sdk) : Section Unit := do
  parseHeader
  parseSigners sdk
  parseAttributes
  parseScript

def scriptBuffer (scan : Scan Transaction) : Buffer where
  ptr := scan.buf.ptr.drop (scan.store.script.getD 0)
  size := scan.store.scriptSize.toNat
  offset := 0

def deserialize (sdk : Sdk) : Section Unit := do
  exitWhen (fun scan => maxTransactionLen < scan.buf.size)
    .invalidLengthError
  parseFields sdk
  EarlyExit.assign fun scan =>
    { scan with
      store := tryParseTransferScript sdk (scriptBuffer scan) scan.store }
  exitWhen (fun scan => scan.buf.offset != scan.buf.size)
    .invalidLengthError

/-- `transaction_deserialize`: the status and the transaction. -/
def transactionDeserialize (sdk : Sdk) (buf : Buffer) (tx : Transaction) :
    ParserStatus × Transaction :=
  match deserialize sdk ⟨buf, tx⟩ with
  | (.ok (), scan) => (.parsingOk, scan.store)
  | (.error status, scan) => (status, scan.store)

end Neo3App
