import Mathlib.Tactic.MkIffOfInductiveProp
import Neo3App.Transaction.Accepted
import Neo3App.Transaction.Written

/-!
# The bytes of a parsed transaction

The bytes of a transaction are determined by what was parsed and by the forms
of its counts.  The parser takes every form of a count, so the bytes need not
be the canonical ones, in which every count has its shortest form.
-/

namespace Neo3App

open Neo3App.Lib

/-- The signers have equal fields and see equal bytes. -/
@[mk_iff]
structure SignersAgree (b other : List UInt8) (first second : Signer) :
    Prop where
  account :
    deref b uint160Len first.account =
      deref other uint160Len second.account
  scope : first.scope = second.scope
  contractsSize : first.allowedContractsSize = second.allowedContractsSize
  contracts : ∀ j < first.allowedContractsSize.toNat,
    deref b uint160Len (slot first.allowedContracts j) =
      deref other uint160Len (slot second.allowedContracts j)
  groupsSize : first.allowedGroupsSize = second.allowedGroupsSize
  groups : ∀ j < first.allowedGroupsSize.toNat,
    deref b ecpointLen (slot first.allowedGroups j) =
      deref other ecpointLen (slot second.allowedGroups j)

/-- The records over `b` and `other` agree on every field. -/
@[mk_iff]
structure FieldsAgree (b other : List UInt8) (first second : Transaction) :
    Prop where
  version : first.version = second.version
  nonce : first.nonce = second.nonce
  systemFee : first.systemFee = second.systemFee
  networkFee : first.networkFee = second.networkFee
  validUntilBlock : first.validUntilBlock = second.validUntilBlock
  signersSize : first.signersSize = second.signersSize
  signers : ∀ i < first.signersSize.toNat,
    SignersAgree b other (slot first.signers i) (slot second.signers i)
  attributesSize : first.attributesSize = second.attributesSize
  attributes : ∀ j < first.attributesSize.toNat,
    slot first.attributes j = slot second.attributes j
  scriptSize : first.scriptSize = second.scriptSize
  script :
    deref b first.scriptSize.toNat first.script =
      deref other second.scriptSize.toNat second.script
  isSystemAssetTransfer :
    first.isSystemAssetTransfer = second.isSystemAssetTransfer
  isNeo : first.isNeo = second.isNeo
  amount : first.amount = second.amount
  dstAddress : first.dstAddress = second.dstAddress

instance (b other : List UInt8) (first second : Signer) :
    Decidable (SignersAgree b other first second) :=
  decidable_of_iff' _ (signersAgree_iff b other first second)

instance (b other : List UInt8) (first second : Transaction) :
    Decidable (FieldsAgree b other first second) :=
  decidable_of_iff' _ (fieldsAgree_iff b other first second)

theorem SignersAgree.contents_eq
    {b other : List UInt8} {first second : Signer}
    {contents otherContents : SignerContents}
    (agree : SignersAgree b other first second)
    (decoded : SignerDecoded b contents first)
    (otherDecoded : SignerDecoded other otherContents second) :
    contents = otherContents := by
  have contractsNumber :
      contents.contracts.length = otherContents.contracts.length := by
    rw [← decoded.contractsSize, ← otherDecoded.contractsSize,
      agree.contractsSize]
  have groupsNumber :
      contents.groups.length = otherContents.groups.length := by
    rw [← decoded.groupsSize, ← otherDecoded.groupsSize, agree.groupsSize]
  have contracts : contents.contracts = otherContents.contracts := by
    refine List.ext_getElem contractsNumber fun j inside otherInside => ?_
    rw [← decoded.contracts j inside,
      ← otherDecoded.contracts j otherInside]
    exact agree.contracts j (by rw [decoded.contractsSize]; exact inside)
  have groups : contents.groups = otherContents.groups := by
    refine List.ext_getElem groupsNumber fun j inside otherInside => ?_
    rw [← decoded.groups j inside, ← otherDecoded.groups j otherInside]
    exact agree.groups j (by rw [decoded.groupsSize]; exact inside)
  have account : contents.account = otherContents.account := by
    rw [← decoded.account, ← otherDecoded.account, agree.account]
  have scope : contents.scope = otherContents.scope := by
    rw [← decoded.scope, ← otherDecoded.scope, agree.scope]
  obtain ⟨_, _, _, _⟩ := contents
  cases account
  cases scope
  cases contracts
  cases groups
  rfl

theorem FieldsAgree.contents_eq
    {b other : List UInt8} {first second : Transaction}
    {contents otherContents : TransactionContents}
    (agree : FieldsAgree b other first second)
    (decoded : Decoded b contents first)
    (otherDecoded : Decoded other otherContents second) :
    contents = otherContents := by
  have signersNumber :
      contents.signers.length = otherContents.signers.length := by
    rw [← decoded.signersSize, ← otherDecoded.signersSize,
      agree.signersSize]
  have attributesNumber :
      contents.attributes.length = otherContents.attributes.length := by
    rw [← decoded.attributesSize, ← otherDecoded.attributesSize,
      agree.attributesSize]
  have signers : contents.signers = otherContents.signers := by
    refine List.ext_getElem signersNumber fun i inside otherInside => ?_
    have both := agree.signers i (by rw [decoded.signersSize]; exact inside)
    exact
      both.contents_eq (decoded.signers i inside)
        (otherDecoded.signers i otherInside)
  have attributes : contents.attributes = otherContents.attributes := by
    refine List.ext_getElem attributesNumber fun j inside otherInside => ?_
    rw [← decoded.attributes j inside,
      ← otherDecoded.attributes j otherInside]
    exact agree.attributes j (by rw [decoded.attributesSize]; exact inside)
  have script : contents.script = otherContents.script := by
    rw [← decoded.script, ← otherDecoded.script, agree.script]
  have nonce : contents.nonce = otherContents.nonce := by
    rw [← decoded.nonce, ← otherDecoded.nonce, agree.nonce]
  have systemFee : contents.systemFee = otherContents.systemFee := by
    rw [← decoded.systemFee, ← otherDecoded.systemFee, agree.systemFee]
  have networkFee : contents.networkFee = otherContents.networkFee := by
    rw [← decoded.networkFee, ← otherDecoded.networkFee, agree.networkFee]
  have validUntilBlock :
      contents.validUntilBlock = otherContents.validUntilBlock := by
    rw [← decoded.validUntilBlock, ← otherDecoded.validUntilBlock,
      agree.validUntilBlock]
  obtain ⟨_, _, _, _, _, _, _⟩ := contents
  obtain ⟨_, _, _, _, _, _, _⟩ := otherContents
  simp only [TransactionContents.mk.injEq]
  exact ⟨nonce, systemFee, networkFee, validUntilBlock, signers, attributes,
    script⟩

def WrittenSigner.forms (signer : WrittenSigner) :
    Option VarintForm × Option VarintForm :=
  (signer.contracts.map WrittenList.form, signer.groups.map WrittenList.form)

def WrittenTransaction.forms (written : WrittenTransaction) :
    VarintForm × List (Option VarintForm × Option VarintForm) ×
      VarintForm × VarintForm :=
  (written.signersForm, written.signers.map WrittenSigner.forms,
    written.attributesForm, written.scriptForm)

theorem writtenList_eq
    {first second : Option WrittenList}
    (items : writtenItems first = writtenItems second)
    (forms : first.map WrittenList.form = second.map WrittenList.form) :
    first = second := by
  match first, second with
  | none, none => rfl
  | none, some _ => cases forms
  | some _, none => cases forms
  | some ⟨_, _⟩, some ⟨_, _⟩ =>
      cases forms
      cases items
      rfl

theorem WrittenSigner.eq_of_contents
    {first second : WrittenSigner}
    (contents : first.contents = second.contents)
    (forms : first.forms = second.forms) : first = second := by
  obtain ⟨account, scope, contracts, groups⟩ := first
  obtain ⟨otherAccount, otherScope, otherContracts, otherGroups⟩ := second
  rw [WrittenSigner.contents, WrittenSigner.contents,
    SignerContents.mk.injEq] at contents
  rw [WrittenSigner.forms, WrittenSigner.forms, Prod.mk.injEq] at forms
  obtain ⟨rfl, rfl, contractItems, groupItems⟩ := contents
  obtain ⟨contractForms, groupForms⟩ := forms
  have sameContracts := writtenList_eq contractItems contractForms
  have sameGroups := writtenList_eq groupItems groupForms
  cases sameContracts
  cases sameGroups
  rfl

/-- Contents and forms determine what is written. -/
theorem WrittenTransaction.eq_of_contents
    {first second : WrittenTransaction}
    (contents : first.contents = second.contents)
    (forms : first.forms = second.forms) : first = second := by
  rw [WrittenTransaction.contents, WrittenTransaction.contents,
    TransactionContents.mk.injEq] at contents
  rw [WrittenTransaction.forms, WrittenTransaction.forms, Prod.mk.injEq,
    Prod.mk.injEq, Prod.mk.injEq] at forms
  obtain ⟨nonce, systemFee, networkFee, validUntilBlock, signers,
    attributes, script⟩ := contents
  obtain ⟨signersForm, signerForms, attributesForm, scriptForm⟩ := forms
  have sameSigners : first.signers = second.signers := by
    have number := congrArg List.length signers
    rw [List.length_map, List.length_map] at number
    refine List.ext_getElem number fun i inside otherInside => ?_
    have here := List.getElem_of_eq signers (by simpa using inside)
    have form := List.getElem_of_eq signerForms (by simpa using inside)
    rw [List.getElem_map, List.getElem_map] at here form
    exact WrittenSigner.eq_of_contents here form
  obtain ⟨_, _, _, _, _, _, _, _, _, _⟩ := first
  obtain ⟨_, _, _, _, _, _, _, _, _, _⟩ := second
  simp only [WrittenTransaction.mk.injEq]
  exact ⟨nonce, systemFee, networkFee, validUntilBlock, signersForm,
    sameSigners, attributesForm, attributes, scriptForm, script⟩

def lengthBytes {α : Type} (items : List α) : List UInt8 :=
  varintBytes (UInt64.ofNat items.length)

def SignerContents.serialize (signer : SignerContents) : List UInt8 :=
  signer.account ++ [signer.scope] ++
    (if signer.scope &&& scopeCustomContracts = scopeCustomContracts then
      lengthBytes signer.contracts ++ signer.contracts.flatten
    else []) ++
    (if signer.scope &&& scopeCustomGroups = scopeCustomGroups then
      lengthBytes signer.groups ++ signer.groups.flatten
    else [])

/-- The bytes of a transaction in which every count has its shortest form. -/
def TransactionContents.serialize (contents : TransactionContents) :
    List UInt8 :=
  [0] ++ leBytes 4 contents.nonce.toNat ++
    leBytes 8 contents.systemFee.toUInt64.toNat ++
    leBytes 8 contents.networkFee.toUInt64.toNat ++
    leBytes 4 contents.validUntilBlock.toNat ++
    (lengthBytes contents.signers ++
      contents.signers.flatMap SignerContents.serialize) ++
    (lengthBytes contents.attributes ++ contents.attributes) ++
    lengthBytes contents.script ++ contents.script

theorem lengthBytes_eq
    {α : Type} {items : List α} (short : items.length < 2 ^ 64) :
    lengthBytes items =
      (VarintForm.shortest items.length).encode items.length := by
  have value : (UInt64.ofNat items.length).toNat = items.length := by
    rw [UInt64.toNat_ofNat', Nat.mod_eq_of_lt short]
  rw [lengthBytes, ← VarintForm.encode_shortest, value]

theorem varintFormat_shortest {number : Nat} (short : number < 2 ^ 64) :
    VarintFormat number
      ((VarintForm.shortest number).encode number) := by
  have value : (UInt64.ofNat number).toNat = number := by
    rw [UInt64.toNat_ofNat', Nat.mod_eq_of_lt short]
  have format := varintFormat_varintBytes (UInt64.ofNat number)
  rwa [← VarintForm.encode_shortest, value] at format

def WrittenList.shorten (list : WrittenList) : WrittenList :=
  { list with form := .shortest list.items.length }

def WrittenSigner.shorten (signer : WrittenSigner) : WrittenSigner :=
  { signer with
    contracts := signer.contracts.map WrittenList.shorten
    groups := signer.groups.map WrittenList.shorten }

def WrittenTransaction.shorten (written : WrittenTransaction) :
    WrittenTransaction :=
  { written with
    signersForm := .shortest written.signers.length
    signers := written.signers.map WrittenSigner.shorten
    attributesForm := .shortest written.attributes.length
    scriptForm := .shortest written.script.length }

theorem ListValid.shorten
    {announced : Prop} {length : Nat} {list : Option WrittenList}
    (valid : ListValid announced length list) :
    ListValid announced length (list.map WrittenList.shorten) := by
  match list with
  | none => exact valid
  | some list =>
      obtain ⟨isAnnounced, few, count, items⟩ := valid
      exact ⟨isAnnounced, few, varintFormat_shortest count.lt, items⟩

theorem ListValid.bytes_shorten
    {announced : Prop} [Decidable announced] {length : Nat}
    {list : Option WrittenList} (valid : ListValid announced length list)
    (count item : Field) :
    plain (listText count item (list.map WrittenList.shorten)) =
      if announced then
        lengthBytes (writtenItems list) ++ (writtenItems list).flatten
      else [] := by
  match list with
  | none => exact (if_neg valid).symm
  | some list =>
      obtain ⟨isAnnounced, _, format, _⟩ := valid
      rw [if_pos isAnnounced, writtenItems, Option.elim_some,
        lengthBytes_eq format.lt]
      exact WrittenList.plain_text count item list.shorten

theorem WrittenSigner.Valid.shorten
    {signer : WrittenSigner} (valid : signer.Valid) : signer.shorten.Valid :=
  ⟨valid.account, valid.scope, valid.contracts.shorten, valid.groups.shorten⟩

theorem WrittenSigner.Valid.bytes_shorten
    {signer : WrittenSigner} (valid : signer.Valid) :
    plain signer.shorten.text = signer.contents.serialize := by
  rw [WrittenSigner.text, plain_append, plain_append, plain_append,
    plain_label, plain_label]
  have contracts := valid.contracts.bytes_shorten .contractCount .contract
  have groups := valid.groups.bytes_shorten .groupCount .group
  change signer.account ++ ([signer.scope] ++
    (plain (listText _ _ (signer.contracts.map WrittenList.shorten)) ++
      plain (listText _ _ (signer.groups.map WrittenList.shorten)))) = _
  rw [contracts, groups, SignerContents.serialize]
  simp only [List.append_assoc]
  rfl

theorem WrittenTransaction.Valid.shorten
    {written : WrittenTransaction} (valid : written.Valid) :
    written.shorten.Valid := by
  have number : written.shorten.signers.length = written.signers.length :=
    List.length_map _
  have accounts :
      written.shorten.signers.map WrittenSigner.account =
        written.signers.map WrittenSigner.account :=
    List.map_map
  exact
    { systemFee := valid.systemFee
      networkFee := valid.networkFee
      someSigners := number ▸ valid.someSigners
      fewSigners := number ▸ valid.fewSigners
      signersCount := by
        rw [number]
        exact varintFormat_shortest valid.signersCount.lt
      signers := by
        intro signer member
        obtain ⟨long, longMember, rfl⟩ := List.mem_map.mp member
        exact (valid.signers long longMember).shorten
      distinct := accounts ▸ valid.distinct
      fewAttributes := valid.fewAttributes
      attributesCount := varintFormat_shortest valid.attributesCount.lt
      attributes := valid.attributes
      someScript := valid.someScript
      shortScript := valid.shortScript
      scriptCount := varintFormat_shortest valid.scriptCount.lt }

/-- With the shortest forms the bytes are the canonical ones. -/
theorem WrittenTransaction.Valid.bytes_shorten
    {written : WrittenTransaction} (valid : written.Valid) :
    written.shorten.bytes = written.contents.serialize := by
  have signers :
      plain (written.shorten.signers.flatMap WrittenSigner.text) =
        written.contents.signers.flatMap SignerContents.serialize := by
    rw [plain_flatMap, WrittenTransaction.shorten,
      WrittenTransaction.contents, List.flatMap_map, List.flatMap_map]
    exact
      List.flatMap_congr fun signer member =>
        (valid.signers signer member).bytes_shorten
  have signersNumber :
      lengthBytes written.contents.signers =
        written.shorten.signersForm.encode written.shorten.signers.length := by
    have few : written.contents.signers.length < 2 ^ 64 := by
      rw [WrittenTransaction.contents, List.length_map]
      exact valid.signersCount.lt
    rw [lengthBytes_eq few, WrittenTransaction.shorten,
      WrittenTransaction.contents, List.length_map, List.length_map]
  have attributesNumber :
      lengthBytes written.contents.attributes =
        written.shorten.attributesForm.encode
          written.shorten.attributes.length :=
    lengthBytes_eq valid.attributesCount.lt
  have scriptNumber :
      lengthBytes written.contents.script =
        written.shorten.scriptForm.encode written.shorten.script.length :=
    lengthBytes_eq valid.scriptCount.lt
  rw [bytes_eq, TransactionContents.serialize, signersNumber,
    attributesNumber, scriptNumber, signersText, attributesText, plain_append,
    plain_append, plain_label, plain_label, plain_label, signers]
  rfl

/-! ## The bytes that are signed -/

/-- The bytes `b` are written so, and the record holds the contents. -/
structure WrittenTransaction.Writes (written : WrittenTransaction)
    (b : List UInt8) (tx : Transaction) : Prop where
  valid : written.Valid
  bytes : written.bytes = b
  decoded : Decoded b written.contents tx

theorem writes_of_parsed
    {sdk : Sdk} {b : List UInt8} {tx : Transaction}
    (parsed :
      transactionDeserialize sdk ⟨b, b.length, 0⟩ Transaction.zero =
        (.parsingOk, tx)) :
    ∃ written : WrittenTransaction, written.Writes b tx := by
  obtain ⟨contents, encodes, decoded⟩ := decoded_of_parsed parsed
  obtain ⟨written, rfl, valid, same⟩ := encodes.written
  exact ⟨written, valid, same.symm, decoded⟩

/-- The bytes are canonical exactly when every count is as short as it can
be. -/
theorem WrittenTransaction.Writes.canonical_iff
    {written : WrittenTransaction} {b : List UInt8} {tx : Transaction}
    (writes : written.Writes b tx) :
    b = written.contents.serialize ↔ written.shorten = written := by
  rw [← writes.valid.bytes_shorten, ← writes.bytes]
  constructor
  · intro same
    exact
      WrittenTransaction.eq_of_bytes writes.valid.shorten writes.valid
        same.symm
  · intro same
    rw [same]

/-- **The forms of the counts are the only freedom.** Two accepted byte
strings whose records agree on every field have the same contents, and they
are equal exactly when they write every count in the same form; each is
canonical exactly when it writes every count in its shortest form. -/
theorem bytes_determined
    (sdk : Sdk) {b other : List UInt8} {tx otherTx : Transaction}
    (parsed :
      transactionDeserialize sdk ⟨b, b.length, 0⟩ Transaction.zero =
        (.parsingOk, tx))
    (otherParsed :
      transactionDeserialize sdk ⟨other, other.length, 0⟩ Transaction.zero =
        (.parsingOk, otherTx))
    (agree : FieldsAgree b other tx otherTx) :
    ∃ written otherWritten : WrittenTransaction,
      written.Writes b tx ∧ otherWritten.Writes other otherTx ∧
        written.contents = otherWritten.contents ∧
        (b = other ↔ written.forms = otherWritten.forms) ∧
        (b = written.contents.serialize ↔ written.shorten = written) ∧
        (other = written.contents.serialize ↔
          otherWritten.shorten = otherWritten) := by
  obtain ⟨written, writes⟩ := writes_of_parsed parsed
  obtain ⟨otherWritten, otherWrites⟩ := writes_of_parsed otherParsed
  have contents := agree.contents_eq writes.decoded otherWrites.decoded
  refine ⟨written, otherWritten, writes, otherWrites, contents, ?_,
    writes.canonical_iff, ?_⟩
  · constructor
    · intro same
      have equal : written = otherWritten :=
        WrittenTransaction.eq_of_bytes writes.valid otherWrites.valid
          (writes.bytes.trans (same.trans otherWrites.bytes.symm))
      rw [equal]
    · intro forms
      rw [← writes.bytes, ← otherWrites.bytes,
        WrittenTransaction.eq_of_contents contents forms]
  · rw [contents]
    exact otherWrites.canonical_iff

/-- A small transaction that counts its signers in three bytes. -/
def longCountTransaction : List UInt8 :=
  [0] ++ List.replicate 24 0 ++ [0xFD, 1, 0] ++ List.replicate 20 0x02 ++
    [1] ++ [0] ++ [1, 0x40]

theorem fieldsAgree_longCount :
    FieldsAgree longCountTransaction (plainTransaction [0x40])
      (parsedTransaction longCountTransaction).2
      (parsedTransaction (plainTransaction [0x40])).2 := by
  decide +kernel

/-- The parser accepts both forms of the count and fills equal fields. -/
theorem not_one_encoding :
    (parsedTransaction longCountTransaction).1 = .parsingOk ∧
      (parsedTransaction (plainTransaction [0x40])).1 = .parsingOk ∧
      FieldsAgree longCountTransaction (plainTransaction [0x40])
        (parsedTransaction longCountTransaction).2
        (parsedTransaction (plainTransaction [0x40])).2 ∧
      longCountTransaction ≠ plainTransaction [0x40] :=
  ⟨by decide +kernel, by decide +kernel, fieldsAgree_longCount, by decide⟩

theorem bytes_determined_longCount :
    ∃ written otherWritten : WrittenTransaction,
      written.Writes longCountTransaction
          (parsedTransaction longCountTransaction).2 ∧
        otherWritten.Writes (plainTransaction [0x40])
          (parsedTransaction (plainTransaction [0x40])).2 ∧
        written.contents = otherWritten.contents ∧
        (longCountTransaction = plainTransaction [0x40] ↔
          written.forms = otherWritten.forms) ∧
        (longCountTransaction = written.contents.serialize ↔
          written.shorten = written) ∧
        (plainTransaction [0x40] = written.contents.serialize ↔
          otherWritten.shorten = otherWritten) :=
  bytes_determined Sdk.constant
    (Prod.ext (by decide +kernel : (parsedTransaction _).1 = _) rfl)
    (Prod.ext (by decide +kernel : (parsedTransaction _).1 = _) rfl)
    fieldsAgree_longCount

end Neo3App
