import Neo3App.Common.Varint
import Neo3App.Lib.Labelled
import Neo3App.Transaction.Contents

/-!
# Written transactions

The contents of a transaction together with the forms in which its counts
are written determine its bytes, and each byte belongs to one field.  Every
accepted byte string is written so in exactly one way.
-/

namespace Neo3App

open Neo3App.Lib

/-- The fields of the bytes of a transaction. -/
inductive Field where
  | version
  | nonce
  | systemFee
  | networkFee
  | validUntilBlock
  | signerCount
  | account
  | scope
  | contractCount
  | contract
  | groupCount
  | group
  | attributeCount
  | attribute
  | scriptLength
  | script
  deriving DecidableEq, Repr

/-- The bytes of a transaction with the fields they belong to. -/
abbrev FieldText : Type :=
  List (Field × UInt8)

/-- An allowed list with the form of its count. -/
structure WrittenList where
  form : VarintForm
  items : List (List UInt8)
  deriving DecidableEq, Repr

structure WrittenSigner where
  account : List UInt8
  scope : UInt8
  contracts : Option WrittenList
  groups : Option WrittenList
  deriving DecidableEq, Repr

structure WrittenTransaction where
  nonce : UInt32
  systemFee : Int64
  networkFee : Int64
  validUntilBlock : UInt32
  signersForm : VarintForm
  signers : List WrittenSigner
  attributesForm : VarintForm
  attributes : List UInt8
  scriptForm : VarintForm
  script : List UInt8
  deriving DecidableEq, Repr

def WrittenList.text (count item : Field) (list : WrittenList) : FieldText :=
  label count (list.form.encode list.items.length) ++
    list.items.flatMap (label item)

def listText (count item : Field) (list : Option WrittenList) : FieldText :=
  list.elim [] (WrittenList.text count item)

def WrittenSigner.text (signer : WrittenSigner) : FieldText :=
  label .account signer.account ++
    (label .scope [signer.scope] ++
      (listText .contractCount .contract signer.contracts ++
        listText .groupCount .group signer.groups))

def WrittenTransaction.headerText (written : WrittenTransaction) :
    FieldText :=
  label .version [0] ++
    (label .nonce (leBytes 4 written.nonce.toNat) ++
      (label .systemFee (leBytes 8 written.systemFee.toUInt64.toNat) ++
        (label .networkFee (leBytes 8 written.networkFee.toUInt64.toNat) ++
          label .validUntilBlock
            (leBytes 4 written.validUntilBlock.toNat))))

def WrittenTransaction.signersText (written : WrittenTransaction) :
    FieldText :=
  label .signerCount (written.signersForm.encode written.signers.length) ++
    written.signers.flatMap WrittenSigner.text

def WrittenTransaction.attributesText (written : WrittenTransaction) :
    FieldText :=
  label .attributeCount
      (written.attributesForm.encode written.attributes.length) ++
    label .attribute written.attributes

def WrittenTransaction.scriptText (written : WrittenTransaction) :
    FieldText :=
  label .scriptLength (written.scriptForm.encode written.script.length) ++
    label .script written.script

def WrittenTransaction.text (written : WrittenTransaction) : FieldText :=
  written.headerText ++
    (written.signersText ++ (written.attributesText ++ written.scriptText))

def WrittenTransaction.bytes (written : WrittenTransaction) : List UInt8 :=
  plain written.text

structure WrittenList.Valid (length : Nat) (list : WrittenList) : Prop where
  few : list.items.length ≤ maxSignerSubItems
  count : VarintFormat list.items.length (list.form.encode list.items.length)
  items : ∀ item ∈ list.items, item.length = length

/-- A list that is there when it is announced. -/
def ListValid (announced : Prop) (length : Nat) :
    Option WrittenList → Prop
  | none => ¬ announced
  | some list => announced ∧ list.Valid length

structure WrittenSigner.Valid (signer : WrittenSigner) : Prop where
  account : signer.account.length = uint160Len
  scope : ScopeAllowed signer.scope
  contracts :
    ListValid (signer.scope &&& scopeCustomContracts = scopeCustomContracts)
      uint160Len signer.contracts
  groups :
    ListValid (signer.scope &&& scopeCustomGroups = scopeCustomGroups)
      ecpointLen signer.groups

structure WrittenTransaction.Valid (written : WrittenTransaction) : Prop where
  systemFee : 0 ≤ written.systemFee
  networkFee : 0 ≤ written.networkFee
  someSigners : minTxSigners ≤ written.signers.length
  fewSigners : written.signers.length ≤ maxTxSigners
  signersCount :
    VarintFormat written.signers.length
      (written.signersForm.encode written.signers.length)
  signers : ∀ signer ∈ written.signers, signer.Valid
  distinct : (written.signers.map WrittenSigner.account).Nodup
  fewAttributes : written.attributes.length ≤ 1
  attributesCount :
    VarintFormat written.attributes.length
      (written.attributesForm.encode written.attributes.length)
  attributes : ∀ type ∈ written.attributes, type = highPriority
  someScript : 1 ≤ written.script.length
  shortScript : written.script.length ≤ 0xFFFF
  scriptCount :
    VarintFormat written.script.length
      (written.scriptForm.encode written.script.length)

def writtenItems (list : Option WrittenList) : List (List UInt8) :=
  list.elim [] WrittenList.items

def WrittenSigner.contents (signer : WrittenSigner) : SignerContents where
  account := signer.account
  scope := signer.scope
  contracts := writtenItems signer.contracts
  groups := writtenItems signer.groups

def WrittenTransaction.contents (written : WrittenTransaction) :
    TransactionContents where
  nonce := written.nonce
  systemFee := written.systemFee
  networkFee := written.networkFee
  validUntilBlock := written.validUntilBlock
  signers := written.signers.map WrittenSigner.contents
  attributes := written.attributes
  script := written.script

theorem WrittenList.plain_text (count item : Field) (list : WrittenList) :
    plain (list.text count item) =
      list.form.encode list.items.length ++ list.items.flatten := by
  simp only [text, plain_append, plain_label, plain_flatMap,
    List.flatMap_id']

theorem Counted.written
    {length : Nat} {items : List (List UInt8)} {encoding : List UInt8}
    (few : items.length ≤ 2)
    (counted : Counted (FixedBytes length) items encoding)
    (count item : Field) :
    ∃ list : WrittenList, list.items = items ∧ list.Valid length ∧
      encoding = plain (list.text count item) := by
  obtain ⟨number, texts, format, each, rfl⟩ := counted
  obtain ⟨form, rfl⟩ := format.exists_form
  have same : texts = items ∧ ∀ item ∈ items, item.length = length := by
    clear few format
    induction each with
    | nil =>
        exact ⟨rfl, by simp⟩
    | cons fixed _ ih =>
        obtain ⟨rfl, long⟩ := fixed
        refine ⟨by rw [ih.1], ?_⟩
        intro item member
        rcases List.mem_cons.mp member with rfl | later
        · exact long
        · exact ih.2 item later
  obtain ⟨rfl, lengths⟩ := same
  refine ⟨⟨form, texts⟩, rfl, ⟨few, format, lengths⟩, ?_⟩
  rw [WrittenList.plain_text]

theorem AllowedList.written
    {announced : Prop} {length : Nat} {items : List (List UInt8)}
    {encoding : List UInt8}
    (allowed : AllowedList announced length items encoding)
    (count item : Field) :
    ∃ list : Option WrittenList, writtenItems list = items ∧
      ListValid announced length list ∧
      encoding = plain (listText count item list) := by
  by_cases isAnnounced : announced
  · obtain ⟨few, counted⟩ := allowed.1 isAnnounced
    obtain ⟨list, rfl, valid, rfl⟩ := counted.written few count item
    exact ⟨some list, rfl, ⟨isAnnounced, valid⟩, rfl⟩
  · obtain ⟨rfl, rfl⟩ := allowed.2 isAnnounced
    exact ⟨none, rfl, isAnnounced, rfl⟩

theorem SignerContents.Encodes.written
    {contents : SignerContents} {encoding : List UInt8}
    (encodes : contents.Encodes encoding) :
    ∃ signer : WrittenSigner, signer.contents = contents ∧ signer.Valid ∧
      encoding = plain signer.text := by
  obtain ⟨contractsText, groupsText, rfl, long, isAllowed, contracts,
    groups⟩ := encodes
  obtain ⟨contractList, sameContracts, contractsValid, rfl⟩ :=
    contracts.written .contractCount .contract
  obtain ⟨groupList, sameGroups, groupsValid, rfl⟩ :=
    groups.written .groupCount .group
  have scope : ScopeAllowed contents.scope := by
    intro isGlobal
    exact isAllowed.resolve_right fun other => other isGlobal
  refine ⟨⟨contents.account, contents.scope, contractList, groupList⟩, ?_,
    ⟨long, scope, contractsValid, groupsValid⟩, ?_⟩
  · rw [WrittenSigner.contents, sameContracts, sameGroups]
  · simp [WrittenSigner.text]

theorem WrittenTransaction.bytes_eq (written : WrittenTransaction) :
    written.bytes =
      [0] ++ leBytes 4 written.nonce.toNat ++
        leBytes 8 written.systemFee.toUInt64.toNat ++
        leBytes 8 written.networkFee.toUInt64.toNat ++
        leBytes 4 written.validUntilBlock.toNat ++
        plain written.signersText ++ plain written.attributesText ++
        written.scriptForm.encode written.script.length ++
        written.script := by
  simp [bytes, text, headerText, scriptText]

theorem written_of_forall₂
    {signers : List SignerContents} {texts : List (List UInt8)}
    (each : List.Forall₂ SignerContents.Encodes signers texts) :
    ∃ written : List WrittenSigner,
      written.map WrittenSigner.contents = signers ∧
        (∀ signer ∈ written, signer.Valid) ∧
        texts.flatten = plain (written.flatMap WrittenSigner.text) := by
  induction each with
  | nil =>
      exact ⟨[], rfl, by simp, rfl⟩
  | cons encodes _ ih =>
      obtain ⟨signer, rfl, valid, rfl⟩ := encodes.written
      obtain ⟨written, rfl, allValid, same⟩ := ih
      refine ⟨signer :: written, rfl, ?_, ?_⟩
      · intro other member
        rcases List.mem_cons.mp member with rfl | later
        · exact valid
        · exact allValid other later
      · rw [List.flatten_cons, List.flatMap_cons, plain_append, same]

/-- Every encoding is a valid written transaction. -/
theorem TransactionContents.Encodes.written
    {contents : TransactionContents} {encoding : List UInt8}
    (encodes : contents.Encodes encoding) :
    ∃ written : WrittenTransaction, written.contents = contents ∧
      written.Valid ∧ encoding = written.bytes := by
  obtain ⟨signersText, attributesText, scriptCount, rfl, systemFee,
    networkFee, some, few, ⟨signerCount, texts, signerFormat, each, rfl⟩,
    distinct, fewAttributes, attributesEncoded, someScript, shortScript,
    scriptFormat⟩ := encodes
  obtain ⟨signersForm, rfl⟩ := signerFormat.exists_form
  obtain ⟨scriptForm, rfl⟩ := scriptFormat.exists_form
  obtain ⟨written, sameSigners, valid, sameTexts⟩ := written_of_forall₂ each
  obtain ⟨attributeCount, types, attributeFormat, areHigh, rfl⟩ :=
    attributesEncoded
  obtain ⟨attributesForm, rfl⟩ := attributeFormat.exists_form
  have attributes : types.flatten = contents.attributes ∧
      ∀ type ∈ contents.attributes, type = highPriority := by
    clear fewAttributes attributeFormat
    generalize contents.attributes = attributes at areHigh ⊢
    induction areHigh with
    | nil =>
        exact ⟨rfl, by simp⟩
    | cons isHigh _ ih =>
        obtain ⟨rfl, rfl⟩ := isHigh
        refine ⟨by rw [List.flatten_cons, ih.1]; rfl, ?_⟩
        intro type member
        rcases List.mem_cons.mp member with rfl | later
        · rfl
        · exact ih.2 type later
  let whole : WrittenTransaction :=
    { nonce := contents.nonce
      systemFee := contents.systemFee
      networkFee := contents.networkFee
      validUntilBlock := contents.validUntilBlock
      signersForm := signersForm
      signers := written
      attributesForm := attributesForm
      attributes := contents.attributes
      scriptForm := scriptForm
      script := contents.script }
  have number : written.length = contents.signers.length := by
    rw [← sameSigners, List.length_map]
  have accounts :
      written.map WrittenSigner.account =
        contents.signers.map SignerContents.account := by
    rw [← sameSigners, List.map_map]
    rfl
  refine ⟨whole, ?_, ?_, ?_⟩
  · rw [WrittenTransaction.contents, sameSigners]
  · exact
      { systemFee := systemFee
        networkFee := networkFee
        someSigners := number ▸ some
        fewSigners := number ▸ few
        signersCount := number ▸ signerFormat
        signers := valid
        distinct := accounts ▸ distinct
        fewAttributes := fewAttributes
        attributesCount := attributeFormat
        attributes := attributes.2
        someScript := someScript
        shortScript := shortScript
        scriptCount := scriptFormat }
  · rw [WrittenTransaction.bytes_eq, sameTexts, attributes.1,
      WrittenTransaction.signersText, WrittenTransaction.attributesText,
      plain_append, plain_append, plain_label, plain_label, plain_label,
      number]

theorem WrittenList.append_inj
    {length : Nat} {first second : WrittenList}
    (firstValid : first.Valid length) (secondValid : second.Valid length)
    (count item : Field)
    {rest other : List UInt8}
    (equal : plain (first.text count item) ++ rest =
      plain (second.text count item) ++ other) :
    first = second ∧ rest = other := by
  rw [plain_text, plain_text, List.append_assoc, List.append_assoc] at equal
  obtain ⟨forms, numbers, texts⟩ :=
    VarintForm.append_inj firstValid.count secondValid.count equal
  obtain ⟨items, rests⟩ :=
    flatten_append_inj firstValid.items secondValid.items numbers texts
  obtain ⟨form, firstItems⟩ := first
  cases forms
  cases items
  exact ⟨rfl, rests⟩

theorem listText_append_inj
    {announced : Prop} {length : Nat} {first second : Option WrittenList}
    (firstValid : ListValid announced length first)
    (secondValid : ListValid announced length second) (count item : Field)
    {rest other : List UInt8}
    (equal : plain (listText count item first) ++ rest =
      plain (listText count item second) ++ other) :
    first = second ∧ rest = other := by
  match first, second with
  | none, none => exact ⟨rfl, equal⟩
  | none, some _ => exact absurd secondValid.1 firstValid
  | some _, none => exact absurd firstValid.1 secondValid
  | some _, some _ =>
      obtain ⟨rfl, rests⟩ :=
        WrittenList.append_inj firstValid.2 secondValid.2 count item equal
      exact ⟨rfl, rests⟩

theorem WrittenSigner.append_inj
    {first second : WrittenSigner} (firstValid : first.Valid)
    (secondValid : second.Valid) {rest other : List UInt8}
    (equal : plain first.text ++ rest = plain second.text ++ other) :
    first = second ∧ rest = other := by
  obtain ⟨account, scope, contracts, groups⟩ := first
  obtain ⟨otherAccount, otherScope, otherContracts, otherGroups⟩ := second
  simp only [text, plain_append, plain_label, List.append_assoc,
    List.cons_append, List.nil_append] at equal
  obtain ⟨rfl, afterAccount⟩ :=
    List.append_inj equal
      (firstValid.account.trans secondValid.account.symm)
  obtain ⟨rfl, afterScope⟩ := List.cons.inj afterAccount
  obtain ⟨rfl, afterContracts⟩ :=
    listText_append_inj firstValid.contracts secondValid.contracts _ _
      afterScope
  obtain ⟨rfl, rests⟩ :=
    listText_append_inj firstValid.groups secondValid.groups _ _
      afterContracts
  exact ⟨rfl, rests⟩

theorem writtenSigners_append_inj
    {first second : List WrittenSigner}
    (firstValid : ∀ signer ∈ first, signer.Valid)
    (secondValid : ∀ signer ∈ second, signer.Valid)
    (number : first.length = second.length) {rest other : List UInt8}
    (equal : plain (first.flatMap WrittenSigner.text) ++ rest =
      plain (second.flatMap WrittenSigner.text) ++ other) :
    first = second ∧ rest = other := by
  induction first generalizing second with
  | nil =>
      cases second with
      | nil => exact ⟨rfl, equal⟩
      | cons signer second => cases number
  | cons signer first ih =>
      cases second with
      | nil => cases number
      | cons otherSigner second =>
          simp only [List.flatMap_cons, plain_append, List.append_assoc]
            at equal
          obtain ⟨rfl, tails⟩ :=
            WrittenSigner.append_inj (firstValid _ (List.mem_cons_self ..))
              (secondValid _ (List.mem_cons_self ..)) equal
          obtain ⟨rfl, rests⟩ :=
            ih (fun other member =>
                firstValid other (List.mem_cons_of_mem _ member))
              (fun other member =>
                secondValid other (List.mem_cons_of_mem _ member))
              (Nat.succ.inj number) tails
          exact ⟨rfl, rests⟩

/-- Integers of a fixed width in front of two texts. -/
theorem leBytes_append_inj
    {count value number : Nat} {rest other : List UInt8}
    (bound : value < 256 ^ count) (otherBound : number < 256 ^ count)
    (equal : leBytes count value ++ rest = leBytes count number ++ other) :
    value = number ∧ rest = other := by
  obtain ⟨texts, rests⟩ :=
    List.append_inj equal (by simp only [length_leBytes])
  exact ⟨eq_of_leBytes bound otherBound texts, rests⟩

/-- Bytes are written in one way only. -/
theorem WrittenTransaction.eq_of_bytes
    {first second : WrittenTransaction} (firstValid : first.Valid)
    (secondValid : second.Valid) (equal : first.bytes = second.bytes) :
    first = second := by
  simp only [bytes, text, plain_append, headerText, signersText,
    attributesText, scriptText, plain_label, List.append_assoc] at equal
  obtain ⟨nonces, afterNonce⟩ :=
    leBytes_append_inj (UInt32.toNat_lt _) (UInt32.toNat_lt _)
      (List.append_cancel_left equal)
  obtain ⟨systemFees, afterSystem⟩ :=
    leBytes_append_inj (UInt64.toNat_lt _) (UInt64.toNat_lt _) afterNonce
  obtain ⟨networkFees, afterNetwork⟩ :=
    leBytes_append_inj (UInt64.toNat_lt _) (UInt64.toNat_lt _) afterSystem
  obtain ⟨blocks, afterBlock⟩ :=
    leBytes_append_inj (UInt32.toNat_lt _) (UInt32.toNat_lt _) afterNetwork
  obtain ⟨signersForms, signersNumber, afterCount⟩ :=
    VarintForm.append_inj firstValid.signersCount secondValid.signersCount
      afterBlock
  obtain ⟨signers, afterSigners⟩ :=
    writtenSigners_append_inj firstValid.signers secondValid.signers
      signersNumber afterCount
  obtain ⟨attributesForms, attributesNumber, afterNumber⟩ :=
    VarintForm.append_inj firstValid.attributesCount
      secondValid.attributesCount afterSigners
  obtain ⟨attributes, afterAttributes⟩ :=
    List.append_inj afterNumber attributesNumber
  obtain ⟨scriptForms, _, scripts⟩ :=
    VarintForm.append_inj firstValid.scriptCount secondValid.scriptCount
      afterAttributes
  rw [UInt32.toNat_inj] at nonces blocks
  have fees {fee other : Int64}
      (same : fee.toUInt64.toNat = other.toUInt64.toNat) : fee = other :=
    congrArg UInt64.toInt64 (UInt64.toNat_inj.mp same)
  obtain ⟨_, _, _, _, _, _, _, _, _, _⟩ := first
  obtain ⟨_, _, _, _, _, _, _, _, _, _⟩ := second
  simp only [WrittenTransaction.mk.injEq]
  exact ⟨nonces, fees systemFees, fees networkFees, blocks, signersForms,
    signers, attributesForms, attributes, scriptForms, scripts⟩

end Neo3App
