import Neo3App.Common.Truncation
import Neo3App.Transaction.Accepted
import Neo3App.Transaction.Attempts
import Neo3App.Transaction.Slices
import Neo3App.Transaction.Written

/-!
# Truncated transactions

An accepted transaction that is cut short is refused with the status of the
field that the first missing byte belongs to.  The walk through the fields
follows the parser section by section.
-/

namespace Neo3App

open Neo3App.Lib

/-- The status that the enumeration has for an unreadable field. -/
def Field.provided : Field → ParserStatus
  | .version => .versionParsingError
  | .nonce => .nonceParsingError
  | .systemFee => .systemFeeParsingError
  | .networkFee => .networkFeeParsingError
  | .validUntilBlock => .validUntilBlockParsingError
  | .signerCount => .signerLengthParsingError
  | .account => .signerAccountParsingError
  | .scope => .signerScopeParsingError
  | .contractCount => .signerAllowedContractsLengthParsingError
  | .contract => .signerAllowedContractParsingError
  | .groupCount => .signerAllowedGroupsLengthParsingError
  | .group => .signerAllowedGroupsParsingError
  | .attributeCount => .attributesLengthParsingError
  | .attribute => .attributesUnsupportedType
  | .scriptLength => .scriptLengthParsingError
  | .script => .scriptLengthValueError

/-- The status that the parser reports: a group has that of a contract. -/
def Field.reported (field : Field) : ParserStatus :=
  if field = .group then .signerAllowedContractParsingError
  else field.provided

theorem Field.reported_eq_provided_iff (field : Field) :
    field.reported = field.provided ↔ field ≠ .group := by
  cases field <;> decide

abbrev Passes {α : Type} (known : List UInt8 → Transaction → Prop)
    (body : Section α) (text : FieldText) (value : α)
    (next : List UInt8 → Transaction → Prop) : Prop :=
  Walks Field.reported known body text value next

def NoAttribute (_ : List UInt8) (tx : Transaction) : Prop :=
  AttributesClear tx

theorem readField_passes
    {α : Type} {read : Buffer → Read α} {format : α → List UInt8 → Prop}
    (reads : Reads read format) {put : α → Transaction → Transaction}
    {code : ParserStatus} {name : Field} {value : α} {encoding : List UInt8}
    (isValue : format value encoding) (isCode : name.reported = code)
    (keeps : ∀ tx, (put value tx).attributes = tx.attributes) :
    Passes NoAttribute (readField read put code) (label name encoding) value
      NoAttribute := by
  refine Walks.readField reads isValue isCode ?_
  intro memory tx isKnown j
  rw [keeps]
  exact isKnown j

theorem parseHeader_passes
    {written : WrittenTransaction} (valid : written.Valid) :
    Passes NoAttribute parseHeader written.headerText () NoAttribute := by
  unfold parseHeader WrittenTransaction.headerText
  refine Walks.bind (readField_passes reads_u8 rfl rfl fun _ => rfl) ?_
  refine Walks.afterSilent (Walks.exitIf (by decide) _) ?_
  refine Walks.bind (readField_passes reads_u32_le rfl rfl fun _ => rfl) ?_
  refine Walks.bind (readField_passes reads_s64_le rfl rfl fun _ => rfl) ?_
  refine
    Walks.afterSilent (Walks.exitIf (Int64.not_lt.mpr valid.systemFee) _) ?_
  refine Walks.bind (readField_passes reads_s64_le rfl rfl fun _ => rfl) ?_
  refine
    Walks.afterSilent (Walks.exitIf (Int64.not_lt.mpr valid.networkFee) _) ?_
  refine
    Walks.thenSilent (readField_passes reads_u32_le rfl rfl fun _ => rfl) ?_
  exact Walks.pure ()

theorem parseItems_passes
    {known : List UInt8 → Transaction → Prop} {itemLen : Nat}
    (fits : itemLen < sizeModulus)
    {put : Nat → Ptr → Transaction → Transaction}
    (keeps : ∀ j position {memory tx}, known memory tx →
      known memory (put j position tx))
    {code : ParserStatus} {item : Field} (isCode : item.reported = code)
    {items : List (List UInt8)}
    (lengths : ∀ item ∈ items, item.length = itemLen) (j : Nat) :
    Passes known (parseItems itemLen put code items.length j)
      (items.flatMap (label item)) () known := by
  induction items generalizing j with
  | nil =>
      exact Walks.pure ()
  | cons first rest ih =>
      exact
        Walks.sliceThen fits (lengths first (List.mem_cons_self ..)) isCode
          (fun isKnown _ => keeps j _ isKnown)
          (ih (fun other member =>
            lengths other (List.mem_cons_of_mem _ member)) (j + 1))

theorem toNat_ofNat_of_varint
    {number : Nat} {encoding : List UInt8}
    (format : VarintFormat number encoding) :
    (UInt64.ofNat number).toNat = number := by
  rw [UInt64.toNat_ofNat', Nat.mod_eq_of_lt format.lt]

/-- A count is read. -/
theorem readCount_passes
    {known : List UInt8 → Transaction → Prop} {number : Nat}
    {encoding : List UInt8} (format : VarintFormat number encoding)
    {code : ParserStatus} {count : Field} (isCode : count.reported = code) :
    Passes known (readLocal bufferReadVarint code) (label count encoding)
      (UInt64.ofNat number) known := by
  have isValue : VarintFormat (UInt64.ofNat number).toNat encoding := by
    rwa [toNat_ofNat_of_varint format]
  exact Walks.readLocal reads_varint isValue isCode

theorem parseSubItems_passes
    {known : List UInt8 → Transaction → Prop} {itemLen : Nat}
    (fits : itemLen < sizeModulus)
    {putSize : UInt8 → Transaction → Transaction}
    (keepsSize : ∀ size {memory tx}, known memory tx →
      known memory (putSize size tx))
    {put : Nat → Ptr → Transaction → Transaction}
    (keeps : ∀ j position {memory tx}, known memory tx →
      known memory (put j position tx))
    {lengthCode valueCode itemCode : ParserStatus} {count item : Field}
    (isLengthCode : count.reported = lengthCode)
    (isItemCode : item.reported = itemCode) {list : WrittenList}
    (valid : list.Valid itemLen) :
    Passes known
      (parseSubItems itemLen putSize put lengthCode valueCode itemCode)
      (list.text count item) () known := by
  have value := toNat_ofNat_of_varint valid.count
  have small :
      ¬ UInt64.ofNat list.items.length >
        UInt64.ofNat maxSignerSubItems := by
    have few := valid.few
    rw [gt_iff_lt, UInt64.lt_iff_toNat_lt, value]
    exact Nat.not_lt.mpr few
  refine Walks.bind (readCount_passes valid.count isLengthCode) ?_
  refine Walks.afterSilent (Walks.exitIf small _) ?_
  refine
    Walks.afterSilent (Walks.assignField fun isKnown => keepsSize _ isKnown) ?_
  rw [value]
  exact parseItems_passes fits keeps isItemCode valid.items 0

/-- The accounts of the first signers are stored, and no attribute is. -/
def AccountsStored (number : Nat) (accounts : List (List UInt8))
    (memory : List UInt8) (tx : Transaction) : Prop :=
  accountsBefore number memory tx = accounts ∧ AttributesClear tx

/-- Fields of a signer other than the account. -/
theorem AccountsStored.modifySigner
    {number : Nat} {accounts : List (List UInt8)} {memory : List UInt8}
    {tx : Transaction} (stored : AccountsStored number accounts memory tx)
    (i : Nat) {change : Signer → Signer}
    (keeps : ∀ signer, (change signer).account = signer.account) :
    AccountsStored number accounts memory (tx.modifySigner i change) := by
  refine ⟨?_, stored.2⟩
  rw [← stored.1, accountsBefore, accountsBefore]
  refine List.map_congr_left fun s _ => ?_
  rw [account_modifySigner tx i keeps s]

theorem accountsBefore_add_one
    (i : Nat) (memory : List UInt8) (tx : Transaction) :
    accountsBefore (i + 1) memory tx =
      accountsBefore i memory tx ++
        [deref memory uint160Len (slot tx.signers i).account] := by
  simp [accountsBefore, List.range_succ]

/-- The account of the next signer. -/
theorem AccountsStored.setAccount
    {i : Nat} (few : i < maxTxSigners) {accounts : List (List UInt8)}
    {memory bytes : List UInt8} {tx : Transaction} {position : Nat}
    (stored : AccountsStored i accounts memory tx)
    (sees : deref memory uint160Len (some position) = bytes) :
    AccountsStored (i + 1) (accounts ++ [bytes]) memory
      (tx.modifySigner i fun signer =>
        { signer with account := some position }) := by
  refine ⟨?_, stored.2⟩
  rw [accountsBefore_add_one, accountsBefore_modifySigner, stored.1,
    Transaction.modifySigner, slot_modifySlot_self _ _ few]
  exact congrArg (fun item => accounts ++ [item]) sees

/-- An account that is none of the earlier ones is no duplicate. -/
theorem AccountsStored.not_duplicate
    (sdk : Sdk) {i : Nat} {accounts : List (List UInt8)} {bytes : List UInt8}
    (isNew : bytes ∉ accounts) {scan : Scan Transaction}
    (stored :
      AccountsStored (i + 1) (accounts ++ [bytes]) scan.buf.ptr
        scan.store) :
    duplicateAccount sdk i scan = false := by
  have split := stored.1
  rw [accountsBefore_add_one] at split
  obtain ⟨before, last⟩ := List.append_inj' split rfl
  rw [Bool.eq_false_iff, ne_eq, duplicateAccount_iff, before, accountAt,
    List.singleton_inj.mp last]
  exact isNew

theorem runIf_passes
    {known : List UInt8 → Transaction → Prop} {announced : Prop}
    [Decidable announced] {body : Section Unit} {count item : Field}
    {itemLen : Nat} {list : Option WrittenList}
    (valid : ListValid announced itemLen list)
    (passes : ∀ {list : WrittenList}, list.Valid itemLen →
      Passes known body (list.text count item) () known) :
    Passes known (EarlyExit.runIf announced body)
      (listText count item list) () known := by
  match list with
  | none =>
      rw [EarlyExit.runIf, if_neg valid]
      exact Walks.pure ()
  | some list =>
      rw [EarlyExit.runIf, if_pos valid.1]
      exact passes valid.2

theorem parseSigner_passes
    (sdk : Sdk) {i : Nat} (few : i < maxTxSigners)
    {accounts : List (List UInt8)} {signer : WrittenSigner}
    (valid : signer.Valid) (isNew : signer.account ∉ accounts) :
    Passes (AccountsStored i accounts) (parseSigner sdk i) signer.text ()
      (AccountsStored (i + 1) (accounts ++ [signer.account])) := by
  have contracts {list : WrittenList} (isValid : list.Valid uint160Len) :
      Passes (AccountsStored (i + 1) (accounts ++ [signer.account]))
        (parseAllowedContracts i) (list.text .contractCount .contract) ()
        (AccountsStored (i + 1) (accounts ++ [signer.account])) := by
    apply parseSubItems_passes
    · decide
    · exact fun _ _ _ stored => stored.modifySigner i (by intros; rfl)
    · exact fun _ _ _ _ stored => stored.modifySigner i (by intros; rfl)
    · rfl
    · rfl
    · exact isValid
  have groups {list : WrittenList} (isValid : list.Valid ecpointLen) :
      Passes (AccountsStored (i + 1) (accounts ++ [signer.account]))
        (parseAllowedGroups i) (list.text .groupCount .group) ()
        (AccountsStored (i + 1) (accounts ++ [signer.account])) := by
    apply parseSubItems_passes
    · decide
    · exact fun _ _ _ stored => stored.modifySigner i (by intros; rfl)
    · exact fun _ _ _ _ stored => stored.modifySigner i (by intros; rfl)
    · rfl
    · rfl
    · exact isValid
  have setsScope :
      Passes (AccountsStored (i + 1) (accounts ++ [signer.account]))
        (assignField fun tx =>
          tx.modifySigner i fun stored => { stored with scope := signer.scope })
        [] () (AccountsStored (i + 1) (accounts ++ [signer.account])) :=
    Walks.assignField fun stored => stored.modifySigner i (by intros; rfl)
  have allowed :
      ¬ (signer.scope &&& scopeGlobal = scopeGlobal ∧
        signer.scope ≠ scopeGlobal) :=
    fun refused => refused.2 (valid.scope refused.1)
  unfold parseSigner WrittenSigner.text
  refine
    Walks.sliceThen (by decide) valid.account rfl
      (fun stored sees => stored.setAccount few sees) ?_
  refine
    Walks.afterSilent
      (Walks.exitWhen _ fun scan stored => stored.not_duplicate sdk isNew) ?_
  refine Walks.bind (Walks.readLocal reads_u8 rfl rfl) ?_
  refine Walks.afterSilent setsScope ?_
  refine Walks.afterSilent (Walks.exitIf allowed _) ?_
  refine Walks.bind (runIf_passes valid.contracts contracts) ?_
  exact runIf_passes valid.groups groups

theorem parseSignersFrom_passes
    (sdk : Sdk) {i : Nat} {signers : List WrittenSigner}
    (few : i + signers.length ≤ maxTxSigners)
    (valid : ∀ signer ∈ signers, signer.Valid)
    {accounts : List (List UInt8)}
    (distinct : (accounts ++ signers.map WrittenSigner.account).Nodup) :
    Passes (AccountsStored i accounts)
      (parseSignersFrom sdk signers.length i)
      (signers.flatMap WrittenSigner.text) () NoAttribute := by
  induction signers generalizing i accounts with
  | nil =>
      exact (Walks.pure ()).mono (fun stored => stored) fun stored => stored.2
  | cons signer rest ih =>
      have isNew : signer.account ∉ accounts := by
        intro isEarlier
        exact (List.nodup_append.mp distinct).2.2 _ isEarlier _
          (List.mem_cons_self ..) rfl
      rw [List.length_cons] at few
      refine
        Walks.bind
          (parseSigner_passes sdk (by omega)
            (valid signer (List.mem_cons_self ..)) isNew) ?_
      refine ih (by omega) ?_ ?_
      · exact fun other member => valid other (List.mem_cons_of_mem _ member)
      · rwa [List.append_assoc]

theorem parseSigners_passes
    (sdk : Sdk) {written : WrittenTransaction} (valid : written.Valid) :
    Passes NoAttribute (parseSigners sdk) written.signersText ()
      NoAttribute := by
  have value := toNat_ofNat_of_varint valid.signersCount
  have fewSigners := valid.fewSigners
  have two : maxTxSigners = 2 := rfl
  have inside :
      ¬ (UInt64.ofNat written.signers.length < UInt64.ofNat minTxSigners ∨
        UInt64.ofNat written.signers.length > UInt64.ofNat maxTxSigners) := by
    rw [gt_iff_lt, UInt64.lt_iff_toNat_lt, UInt64.lt_iff_toNat_lt, value,
      not_or, Nat.not_lt, Nat.not_lt]
    exact ⟨valid.someSigners, fewSigners⟩
  have number :
      (UInt64.ofNat written.signers.length).toUInt8.toNat =
        written.signers.length := by
    rw [UInt64.toNat_toUInt8, value]
    omega
  unfold parseSigners WrittenTransaction.signersText
  refine Walks.bind (readCount_passes valid.signersCount rfl) ?_
  refine Walks.afterSilent (Walks.exitIf inside _) ?_
  have started {memory : List UInt8} {tx : Transaction}
      (isKnown : NoAttribute memory tx) :
      AccountsStored 0 [] memory
        { tx with
          signersSize := (UInt64.ofNat written.signers.length).toUInt8 } :=
    ⟨rfl, isKnown⟩
  refine Walks.afterSilent (Walks.assignField started) ?_
  rw [number]
  exact
    parseSignersFrom_passes sdk (by omega) valid.signers valid.distinct

def Anything (_ : List UInt8) (_ : Transaction) : Prop :=
  True

theorem parseAttributes_passes
    {written : WrittenTransaction} (valid : written.Valid) :
    Passes NoAttribute parseAttributes written.attributesText ()
      Anything := by
  have value := toNat_ofNat_of_varint valid.attributesCount
  have few := valid.fewAttributes
  have inside :
      ¬ (UInt64.ofNat written.attributes.length >
          UInt64.ofNat maxAttributes ∨
        UInt64.ofNat written.attributes.length > 2) := by
    rw [gt_iff_lt, gt_iff_lt, UInt64.lt_iff_toNat_lt, UInt64.lt_iff_toNat_lt,
      value]
    have bound : ¬ (2 < written.attributes.length ∨
        2 < written.attributes.length) := by
      omega
    exact bound
  have number :
      (UInt64.ofNat written.attributes.length).toUInt8.toNat =
        written.attributes.length := by
    rw [UInt64.toNat_toUInt8, value]
    omega
  unfold parseAttributes WrittenTransaction.attributesText
  refine Walks.bind (readCount_passes valid.attributesCount rfl) ?_
  refine Walks.afterSilent (Walks.exitIf inside _) ?_
  have counted {memory : List UInt8} {tx : Transaction}
      (isKnown : NoAttribute memory tx) :
      NoAttribute memory
        { tx with
          attributesSize :=
            (UInt64.ofNat written.attributes.length).toUInt8 } :=
    isKnown
  refine Walks.afterSilent (Walks.assignField counted) ?_
  rw [number]
  have types := valid.attributes
  match isList : written.attributes, few with
  | [], _ =>
      exact (Walks.pure ()).mono (fun isKnown => isKnown) fun _ => trivial
  | [type], _ =>
      rw [isList] at types
      have isHigh : type = highPriority := types type (List.mem_cons_self ..)
      subst isHigh
      refine Walks.thenSilent (Walks.readLocal reads_u8 rfl rfl) ?_
      refine Walks.afterSilent (Walks.exitIf (by decide) _) ?_
      refine
        Walks.afterSilent
          (Walks.exitWhen _ fun scan (isKnown : NoAttribute _ _) => ?_) ?_
      · rw [Bool.eq_false_iff, ne_eq, duplicateAttribute_iff]
        rintro ⟨j, _, isThere⟩
        exact isKnown j isThere
      · refine
          Walks.afterSilent
            (Walks.assignField fun _ => trivial : Passes _ _ _ _ Anything) ?_
        exact Walks.pure ()

theorem parseScript_passes
    {written : WrittenTransaction} (valid : written.Valid) :
    Passes Anything parseScript written.scriptText () Anything := by
  have value := toNat_ofNat_of_varint valid.scriptCount
  have some := valid.someScript
  have short := valid.shortScript
  have inside :
      ¬ (UInt64.ofNat written.script.length > 0xFFFF ∨
        UInt64.ofNat written.script.length = 0) := by
    rw [← UInt64.toNat_inj, gt_iff_lt, UInt64.lt_iff_toNat_lt, value]
    have bound : ¬ (0xFFFF < written.script.length ∨
        written.script.length = 0) := by
      omega
    exact bound
  have long :
      written.script.length =
        (UInt64.ofNat written.script.length).toNat % sizeModulus := by
    rw [value, Nat.mod_eq_of_lt (by unfold sizeModulus; omega)]
  unfold parseScript WrittenTransaction.scriptText
  refine Walks.bind (readCount_passes valid.scriptCount rfl) ?_
  refine
    Walks.afterSilent
      (Walks.markField fun _ _ => trivial : Passes _ _ _ _ Anything) ?_
  refine Walks.afterSilent (Walks.exitIf inside _) ?_
  refine
    Walks.thenSilent
      (Walks.seekCur (Nat.mod_lt _ (by decide)) long rfl) ?_
  exact Walks.assignField fun _ => trivial

theorem parseFields_passes
    (sdk : Sdk) {written : WrittenTransaction} (valid : written.Valid) :
    Passes NoAttribute (parseFields sdk) written.text () Anything := by
  unfold parseFields WrittenTransaction.text
  refine Walks.bind (parseHeader_passes valid) ?_
  refine Walks.bind (parseSigners_passes sdk valid) ?_
  refine Walks.bind (parseAttributes_passes valid) ?_
  exact parseScript_passes valid

/-! ## Truncation -/

/-- A transaction cut before its byte `n` is refused with the status that is
reported for the field of that byte. -/
theorem status_of_truncated
    (sdk : Sdk) {written : WrittenTransaction} (valid : written.Valid)
    (short : written.bytes.length ≤ maxTransactionLen) {n : Nat}
    (inside : n < written.text.length) (beyond : List UInt8) :
    let status :=
      (transactionDeserialize sdk
        (bufferOver (written.bytes.take n) beyond) .zero).1
    status = written.text[n].1.reported ∧ status ≠ .parsingOk := by
  have input : InputBuffer (bufferOver (written.bytes.take n) beyond) := by
    refine .over ?_ beyond
    rw [List.length_take]
    omega
  obtain ⟨final, failed⟩ :=
    (parseFields_passes sdk valid).cut inside
      (show (⟨bufferOver (written.bytes.take n) beyond, .zero⟩ :
        Scan Transaction).buf.Wf from input.wf)
      attributesClear_zero (rest_bufferOver _ beyond)
  have status := transactionDeserialize_of_error sdk input failed
  refine ⟨status, ?_⟩
  rw [status]
  exact parseFields_exits sdk _ _ _ failed

/-- **A truncated transaction is refused at the right field, except inside a
group.** Every accepted byte string is the text of a transaction; cut before
any of its bytes it is refused, and with the status that the enumeration has
for the field of this byte exactly when the field is not a group. -/
theorem truncated_iff
    (sdk : Sdk) {b beyond : List UInt8} {tx : Transaction}
    (parsed :
      transactionDeserialize sdk (bufferOver b beyond) .zero =
        (.parsingOk, tx)) :
    (∃ written : WrittenTransaction, written.Valid ∧ written.bytes = b) ∧
      ∀ written : WrittenTransaction, written.Valid → written.bytes = b →
        ∀ (n : Nat) (inside : n < written.text.length)
          (other : List UInt8),
          let status :=
            (transactionDeserialize sdk (bufferOver (b.take n) other) .zero).1
          status ≠ .parsingOk ∧
            (status = written.text[n].1.provided ↔
              written.text[n].1 ≠ .group) := by
  have short : b.length ≤ maxTransactionLen := size_le_of_parsed parsed
  constructor
  · obtain ⟨layout, format, _⟩ :=
      transactionDeserialize_eq_ok sdk (.over short beyond) parsed
    rw [rest_bufferOver] at format
    obtain ⟨written, _, valid, same⟩ :=
      (contents_encodes_iff.mpr ⟨layout, rfl, format⟩).written
    exact ⟨written, valid, same.symm⟩
  · rintro written valid rfl n inside other
    obtain ⟨status, isError⟩ :=
      status_of_truncated sdk valid short inside other
    refine ⟨isError, ?_⟩
    rw [status]
    exact Field.reported_eq_provided_iff _

/-- A small transaction whose signer allows one group. -/
def oneGroup : WrittenTransaction where
  nonce := 0
  systemFee := 0
  networkFee := 0
  validUntilBlock := 0
  signersForm := .one
  signers :=
    [{ account := List.replicate 20 0x02
       scope := scopeCustomGroups
       contracts := none
       groups := some ⟨.one, [List.replicate 33 0x03]⟩ }]
  attributesForm := .one
  attributes := []
  scriptForm := .one
  script := [0x40]

theorem valid_oneGroup : oneGroup.Valid where
  systemFee := by decide
  networkFee := by decide
  someSigners := by decide
  fewSigners := by decide
  signersCount := VarintFormat.one 1 (by decide)
  signers := by
    intro signer member
    rw [List.mem_singleton.mp member]
    exact
      { account := rfl
        scope := fun isGlobal => absurd isGlobal (by decide)
        contracts := fun announced => absurd announced (by decide)
        groups :=
          ⟨by decide, by decide, VarintFormat.one 1 (by decide), by
            intro item isItem
            rw [List.mem_singleton.mp isItem]
            rfl⟩ }
  distinct := List.nodup_singleton _
  fewAttributes := by decide
  attributesCount := VarintFormat.one 0 (by decide)
  attributes := by simp [oneGroup]
  someScript := by decide
  shortScript := by decide
  scriptCount := VarintFormat.one 1 (by decide)

theorem truncated_iff_oneGroup :
    (∃ written : WrittenTransaction,
      written.Valid ∧ written.bytes = oneGroup.bytes) ∧
      ∀ written : WrittenTransaction, written.Valid →
        written.bytes = oneGroup.bytes →
        ∀ (n : Nat) (inside : n < written.text.length)
          (other : List UInt8),
          let status :=
            (transactionDeserialize Sdk.constant
              (bufferOver (oneGroup.bytes.take n) other) .zero).1
          status ≠ .parsingOk ∧
            (status = written.text[n].1.provided ↔
              written.text[n].1 ≠ .group) :=
  truncated_iff Sdk.constant
    (Prod.ext
      (by decide +kernel :
        (transactionDeserialize Sdk.constant (bufferOver oneGroup.bytes [])
          .zero).1 = .parsingOk)
      rfl)

/-- Cut inside its group the transaction is refused with the status of a
contract. -/
theorem not_provided_oneGroup :
    oneGroup.Valid ∧ (parsedTransaction oneGroup.bytes).1 = .parsingOk ∧
      oneGroup.text[60]?.map Prod.fst = some .group ∧
      (parsedTransaction (oneGroup.bytes.take 60)).1 =
        .signerAllowedContractParsingError ∧
      (parsedTransaction (oneGroup.bytes.take 60)).1 ≠
        Field.group.provided :=
  ⟨valid_oneGroup, by decide +kernel, by decide +kernel, by decide +kernel,
    by decide +kernel⟩

end Neo3App
