import Neo3App.Transaction.Canonical

/-!
# Transfer orders

What a wallet wants to be signed, its canonical bytes, and that the parser
gives the order back.  An order carries what makes it expressible, so that
every order has bytes that the device takes.
-/

namespace Neo3App

open Neo3App.Lib

def SubItemsAllowed (announced : Prop) (length : Nat)
    (items : List (List UInt8)) : Prop :=
  (announced →
    items.length ≤ maxSignerSubItems ∧
      ∀ item ∈ items, item.length = length) ∧
  (¬ announced → items = [])

/-- A signer that has an encoding. -/
structure SignerContents.Writable (signer : SignerContents) : Prop where
  account : signer.account.length = uint160Len
  scope : ScopeAllowed signer.scope
  contracts :
    SubItemsAllowed
      (signer.scope &&& scopeCustomContracts = scopeCustomContracts)
      uint160Len signer.contracts
  groups :
    SubItemsAllowed (signer.scope &&& scopeCustomGroups = scopeCustomGroups)
      ecpointLen signer.groups

/-- An order to transfer `amount` of the smallest units of a token.  The
wallet is free in the choice of the instruction that pushes the amount. -/
structure TransferOrder where
  isNeo : Bool
  amount : Nat
  push : Push
  pushes : push.value = amount
  destination : List UInt8
  source : List UInt8
  destinationLength : destination.length = uint160Len
  sourceLength : source.length = uint160Len
  nonce : UInt32
  systemFee : Nat
  networkFee : Nat
  systemFeeFits : systemFee < 2 ^ 63
  networkFeeFits : networkFee < 2 ^ 63
  validUntilBlock : UInt32
  isHighPriority : Bool
  signers : List SignerContents
  someSigners : minTxSigners ≤ signers.length
  fewSigners : signers.length ≤ maxTxSigners
  writable : ∀ signer ∈ signers, signer.Writable
  distinct : (signers.map SignerContents.account).Nodup

namespace TransferOrder

def transfer (order : TransferOrder) : TransferLayout :=
  ⟨order.push, order.destination, order.source, order.isNeo⟩

def contents (order : TransferOrder) : TransactionContents where
  nonce := order.nonce
  systemFee := Int64.ofNat order.systemFee
  networkFee := Int64.ofNat order.networkFee
  validUntilBlock := order.validUntilBlock
  signers := order.signers
  attributes := if order.isHighPriority then [highPriority] else []
  script := order.transfer.encode

def bytes (order : TransferOrder) : List UInt8 :=
  order.contents.serialize

end TransferOrder

/-- The count of a short list takes one byte. -/
theorem length_lengthBytes
    {α : Type} {items : List α} (few : items.length ≤ 0xFC) :
    (lengthBytes items).length = 1 := by
  rw [lengthBytes_eq (by omega), VarintForm.shortest, if_pos few]
  rfl

theorem varintFormat_lengthBytes
    {α : Type} {items : List α} (few : items.length < 2 ^ 64) :
    VarintFormat items.length (lengthBytes items) := by
  rw [lengthBytes_eq few]
  exact varintFormat_shortest few

/-- A list is counted by its shortest count. -/
theorem counted_lengthBytes
    {α : Type} {item : α → List UInt8 → Prop} {text : α → List UInt8}
    {items : List α} (few : items.length < 2 ^ 64)
    (each : ∀ element ∈ items, item element (text element)) :
    Counted item items (lengthBytes items ++ items.flatMap text) := by
  refine ⟨lengthBytes items, items.map text,
    varintFormat_lengthBytes few, ?_, ?_⟩
  · rw [List.forall₂_map_right_iff, List.forall₂_same]
    exact each
  · rw [List.flatMap_def]

theorem length_flatMap_le
    {α : Type} {text : α → List UInt8} {items : List α} {bound : Nat}
    (each : ∀ element ∈ items, (text element).length ≤ bound) :
    (items.flatMap text).length ≤ items.length * bound := by
  induction items with
  | nil => exact Nat.zero_le _
  | cons element items inductionHypothesis =>
      rw [List.forall_mem_cons] at each
      have rest := inductionHypothesis each.2
      rw [List.flatMap_cons, List.length_append, List.length_cons,
        Nat.succ_mul]
      omega

theorem SubItemsAllowed.encodes
    {announced : Prop} [Decidable announced] {length : Nat}
    {items : List (List UInt8)}
    (allowed : SubItemsAllowed announced length items) :
    AllowedList announced length items
      (if announced then lengthBytes items ++ items.flatten else []) := by
  constructor
  · intro isAnnounced
    obtain ⟨few, lengths⟩ := allowed.1 isAnnounced
    have count : items.length ≤ 2 := few
    refine ⟨count, ?_⟩
    rw [if_pos isAnnounced, ← List.flatMap_id]
    exact
      counted_lengthBytes (by omega) fun item member =>
        ⟨rfl, lengths item member⟩
  · intro notAnnounced
    exact ⟨allowed.2 notAnnounced, if_neg notAnnounced⟩

theorem SubItemsAllowed.length_le
    {announced : Prop} [Decidable announced] {length : Nat}
    {items : List (List UInt8)}
    (allowed : SubItemsAllowed announced length items) :
    (if announced then lengthBytes items ++ items.flatten else []).length ≤
      1 + 2 * length := by
  by_cases isAnnounced : announced
  · obtain ⟨few, lengths⟩ := allowed.1 isAnnounced
    have count : items.length ≤ 2 := few
    have total : (items.flatMap id).length ≤ items.length * length :=
      length_flatMap_le fun item member => (lengths item member).le
    have bound := Nat.mul_le_mul_right length count
    rw [if_pos isAnnounced, List.length_append,
      length_lengthBytes (by omega), ← List.flatMap_id]
    omega
  · rw [if_neg isAnnounced]
    exact Nat.zero_le _

theorem scopeAllowed_iff (scope : UInt8) :
    ScopeAllowed scope ↔ scope = 0x80 ∨ scope &&& 0x80 ≠ 0x80 := by
  rw [ScopeAllowed, or_comm, or_iff_not_imp_left, not_not]
  rfl

theorem SignerContents.Writable.encodes
    {signer : SignerContents} (writable : signer.Writable) :
    signer.Encodes signer.serialize :=
  ⟨_, _, rfl, writable.account, (scopeAllowed_iff _).mp writable.scope,
    writable.contracts.encodes, writable.groups.encodes⟩

theorem SignerContents.Writable.length_le
    {signer : SignerContents} (writable : signer.Writable) :
    signer.serialize.length ≤ 129 := by
  have account := writable.account
  have contracts := writable.contracts.length_le
  have groups := writable.groups.length_le
  unfold uint160Len at account contracts
  unfold ecpointLen at groups
  rw [SignerContents.serialize]
  simp only [List.length_append, List.length_singleton] at *
  omega

namespace TransferOrder

variable (order : TransferOrder)

theorem length_script :
    1 ≤ order.contents.script.length ∧
      order.contents.script.length ≤ 94 := by
  have push : order.push.encode.length ≤ 9 := by
    cases order.push <;> simp [Push.encode]
  have contract : (contractHash order.isNeo).length = 20 := by
    cases order.isNeo <;> rfl
  have destination := order.destinationLength
  have source := order.sourceLength
  unfold uint160Len at destination source
  change 1 ≤ order.transfer.encode.length ∧
    order.transfer.encode.length ≤ 94
  simp only [TransferLayout.encode, transfer, List.length_append,
    List.length_cons, List.length_nil]
  omega

theorem length_signers :
    (order.signers.flatMap SignerContents.serialize).length ≤ 258 := by
  have few : order.signers.length ≤ 2 := order.fewSigners
  have bound :
      (order.signers.flatMap SignerContents.serialize).length ≤
        order.signers.length * 129 :=
    length_flatMap_le fun signer member =>
      (order.writable signer member).length_le
  omega

theorem length_attributes : order.contents.attributes.length ≤ 1 := by
  rw [contents]
  split
  · exact Nat.le_refl 1
  · exact Nat.zero_le 1

theorem length_bytes :
    1 ≤ order.bytes.length ∧ order.bytes.length ≤ 381 := by
  have script := order.length_script
  have signers : (order.contents.signers.flatMap
      SignerContents.serialize).length ≤ 258 := order.length_signers
  have attributes := order.length_attributes
  have few : order.contents.signers.length ≤ 2 := order.fewSigners
  have signersCount :=
    length_lengthBytes (show order.contents.signers.length ≤ 0xFC by omega)
  have attributesCount :=
    length_lengthBytes (show order.contents.attributes.length ≤ 0xFC by omega)
  have scriptCount :=
    length_lengthBytes (show order.contents.script.length ≤ 0xFC by omega)
  rw [bytes, TransactionContents.serialize]
  simp only [List.length_append, List.length_singleton, length_leBytes]
  omega

/-- A fee that fits is stored as it is. -/
theorem toInt_ofNat_fee {fee : Nat} (fits : fee < 2 ^ 63) :
    (Int64.ofNat fee).toInt = fee :=
  Int64.toInt_ofNat_of_lt fits

theorem fee_nonneg {fee : Nat} (fits : fee < 2 ^ 63) :
    0 ≤ Int64.ofNat fee := by
  rw [Int64.le_iff_toInt_le, toInt_ofNat_fee fits]
  exact Int.natCast_nonneg fee

/-- Every order has an encoding. -/
theorem encodes : order.contents.Encodes order.bytes := by
  have script := order.length_script
  have attributes := order.length_attributes
  have few : order.signers.length ≤ 2 := order.fewSigners
  refine ⟨_, _, _, rfl, fee_nonneg order.systemFeeFits,
    fee_nonneg order.networkFeeFits, order.someSigners, few, ?_,
    order.distinct, attributes, ?_, script.1, ?_,
    varintFormat_lengthBytes (by omega)⟩
  · exact
      counted_lengthBytes (show order.signers.length < 2 ^ 64 by omega)
        fun signer member => (order.writable signer member).encodes
  · have isKnown : ∀ type ∈ order.contents.attributes,
        [type] = [type] ∧ type = 0x01 := by
      intro type member
      rw [contents] at member
      split at member
      · exact ⟨rfl, List.mem_singleton.mp member⟩
      · cases member
    have counted :=
      @counted_lengthBytes _ (fun type text => text = [type] ∧ type = 0x01)
        (fun type => [type]) order.contents.attributes (by omega) isKnown
    rwa [List.flatMap_singleton'] at counted
  · omega

/-- The record `tx` holds the order. -/
structure Held (sdk : Sdk) (tx : Transaction) : Prop where
  accepted : AcceptedTransfer sdk order.bytes tx
  decoded : Decoded order.bytes order.contents tx
  isNeo : tx.isNeo = order.isNeo
  amount : tx.amount = order.push.amount
  dstAddress :
    tx.dstAddress =
      scriptHashToAddress sdk Transaction.zero.dstAddress addressLen
        order.destination

/-- The parser gives the order back. -/
theorem exists_held (sdk : Sdk) : ∃ tx, order.Held sdk tx := by
  obtain ⟨layout, same, format⟩ := contents_encodes_iff.mp order.encodes
  have short : order.bytes.length ≤ 1024 := by
    have length := order.length_bytes
    omega
  have rest := rest_whole order.bytes
  have parsed :=
    transactionDeserialize_of_format sdk (.whole short)
      attributesClear_zero (by rwa [rest])
  obtain ⟨script, scriptRest⟩ :=
    scriptBuffer_of_fields Transaction.zero
      (show FieldsFormat
        (Buffer.offset ⟨order.bytes, order.bytes.length, 0⟩) layout
          order.bytes from format)
      (by rw [rest])
  have isScript : layout.script.bytes = order.transfer.encode :=
    congrArg TransactionContents.script same
  have records :=
    tryParseTransferScript_of_format sdk script
      (show TransferFormat 0 order.transfer _ from
        ⟨order.destinationLength, order.sourceLength,
          scriptRest.trans isScript⟩)
  rw [rest, records] at parsed
  have decoded := writeFields_decoded format
  rw [same, ← decoded_fields_iff] at decoded
  have fields :
      Transaction.fields
          { writeTransfer sdk order.transfer
              (writeFields layout Transaction.zero) with
            isSystemAssetTransfer := true } =
        (writeFields layout Transaction.zero).fields := by
    rw [writeTransfer]
    cases order.transfer.isNeo <;> rfl
  refine ⟨_, ⟨parsed, rfl⟩, ?_, ?_, ?_, ?_⟩
  · rwa [← decoded_fields_iff, fields]
  all_goals
    rw [writeFields_zero, writeTransfer, transfer]
    cases order.isNeo <;> rfl

end TransferOrder

def oneNeoOrder : TransferOrder where
  isNeo := true
  amount := 1
  push := .small 1
  pushes := rfl
  destination := List.replicate 20 0x01
  source := List.replicate 20 0x02
  destinationLength := rfl
  sourceLength := rfl
  nonce := 0
  systemFee := 0
  networkFee := 0
  systemFeeFits := by decide
  networkFeeFits := by decide
  validUntilBlock := 0
  isHighPriority := false
  signers := [⟨List.replicate 20 0x02, 0x01, [], []⟩]
  someSigners := by decide
  fewSigners := by decide
  writable := by
    intro signer member
    cases List.mem_singleton.mp member
    exact
      ⟨rfl, by unfold ScopeAllowed; decide, by unfold SubItemsAllowed; decide,
        by unfold SubItemsAllowed; decide⟩
  distinct := List.nodup_singleton _

example : oneNeoOrder.bytes = oneNeoTransaction := by decide +kernel

end Neo3App
