import Neo3App.Transaction.Parse

/-!
# The contents of a transaction

What the bytes of a transaction encode, without positions, and what it means
that a record holds these contents.  The parser accepts a byte string exactly
when it encodes some contents, and then stores them.
-/

namespace Neo3App

open Neo3App.Lib

structure SignerContents where
  account : List UInt8
  scope : UInt8
  contracts : List (List UInt8)
  groups : List (List UInt8)
  deriving DecidableEq, Repr

structure TransactionContents where
  nonce : UInt32
  systemFee : Int64
  networkFee : Int64
  validUntilBlock : UInt32
  signers : List SignerContents
  attributes : List UInt8
  script : List UInt8
  deriving DecidableEq, Repr

/-- A count in any form, then that many items. -/
def Counted {α : Type} (item : α → List UInt8 → Prop) (items : List α)
    (encoding : List UInt8) : Prop :=
  ∃ count texts, VarintFormat items.length count ∧
    List.Forall₂ item items texts ∧ encoding = count ++ texts.flatten

def FixedBytes (length : Nat) (item encoding : List UInt8) : Prop :=
  encoding = item ∧ item.length = length

/-- A list of at most two strings that is there when it is announced. -/
def AllowedList (announced : Prop) (length : Nat) (items : List (List UInt8))
    (encoding : List UInt8) : Prop :=
  (announced →
    items.length ≤ 2 ∧ Counted (FixedBytes length) items encoding) ∧
  (¬ announced → items = [] ∧ encoding = [])

def SignerContents.Encodes (signer : SignerContents)
    (encoding : List UInt8) : Prop :=
  ∃ contracts groups,
    encoding = signer.account ++ [signer.scope] ++ contracts ++ groups ∧
    signer.account.length = 20 ∧
    (signer.scope = 0x80 ∨ signer.scope &&& 0x80 ≠ 0x80) ∧
    AllowedList (signer.scope &&& 0x10 = 0x10) 20 signer.contracts contracts ∧
    AllowedList (signer.scope &&& 0x20 = 0x20) 33 signer.groups groups

def TransactionContents.Encodes (contents : TransactionContents)
    (encoding : List UInt8) : Prop :=
  ∃ signers attributes count,
    encoding =
      [0] ++ leBytes 4 contents.nonce.toNat ++
        leBytes 8 contents.systemFee.toUInt64.toNat ++
        leBytes 8 contents.networkFee.toUInt64.toNat ++
        leBytes 4 contents.validUntilBlock.toNat ++
        signers ++ attributes ++ count ++ contents.script ∧
    0 ≤ contents.systemFee ∧ 0 ≤ contents.networkFee ∧
    1 ≤ contents.signers.length ∧ contents.signers.length ≤ 2 ∧
    Counted SignerContents.Encodes contents.signers signers ∧
    (contents.signers.map SignerContents.account).Nodup ∧
    contents.attributes.length ≤ 1 ∧
    Counted (fun type text => text = [type] ∧ type = 0x01)
      contents.attributes attributes ∧
    1 ≤ contents.script.length ∧ contents.script.length ≤ 0xFFFF ∧
    VarintFormat contents.script.length count

structure SignerDecoded (memory : List UInt8) (contents : SignerContents)
    (signer : Signer) : Prop where
  account : deref memory uint160Len signer.account = contents.account
  scope : signer.scope = contents.scope
  contractsSize :
    signer.allowedContractsSize.toNat = contents.contracts.length
  contracts : ∀ (j : Nat) (inside : j < contents.contracts.length),
    deref memory uint160Len (slot signer.allowedContracts j) =
      contents.contracts[j]
  groupsSize : signer.allowedGroupsSize.toNat = contents.groups.length
  groups : ∀ (j : Nat) (inside : j < contents.groups.length),
    deref memory ecpointLen (slot signer.allowedGroups j) =
      contents.groups[j]

structure Decoded (memory : List UInt8) (contents : TransactionContents)
    (tx : Transaction) : Prop where
  version : tx.version = 0
  nonce : tx.nonce = contents.nonce
  systemFee : tx.systemFee = contents.systemFee
  networkFee : tx.networkFee = contents.networkFee
  validUntilBlock : tx.validUntilBlock = contents.validUntilBlock
  signersSize : tx.signersSize.toNat = contents.signers.length
  signers : ∀ (i : Nat) (inside : i < contents.signers.length),
    SignerDecoded memory contents.signers[i] (slot tx.signers i)
  attributesSize : tx.attributesSize.toNat = contents.attributes.length
  attributes : ∀ (j : Nat) (inside : j < contents.attributes.length),
    slot tx.attributes j = contents.attributes[j]
  scriptSize : tx.scriptSize.toNat = contents.script.length
  script : deref memory tx.scriptSize.toNat tx.script = contents.script

/-! ## Layouts and contents -/

def SignerLayout.contents (layout : SignerLayout) : SignerContents where
  account := layout.account.bytes
  scope := layout.scope
  contracts := (layout.contracts.getD []).map Slice.bytes
  groups := (layout.groups.getD []).map Slice.bytes

def TransactionLayout.contents (layout : TransactionLayout) :
    TransactionContents where
  nonce := layout.header.nonce
  systemFee := layout.header.systemFee
  networkFee := layout.header.networkFee
  validUntilBlock := layout.header.validUntilBlock
  signers := layout.signers.map SignerLayout.contents
  attributes := List.replicate layout.attributes highPriority
  script := layout.script.bytes

theorem SlicesFormat.forall₂
    {length offset : Nat} {slices : List Slice} {encoding : List UInt8}
    (format : SlicesFormat length offset slices encoding) :
    ∃ texts, List.Forall₂ (FixedBytes length) (slices.map Slice.bytes) texts ∧
      encoding = texts.flatten := by
  induction slices generalizing offset encoding with
  | nil =>
      exact ⟨[], List.Forall₂.nil, format⟩
  | cons slice rest inductionHypothesis =>
      obtain ⟨head, tail, rfl, ⟨_, same, long⟩, tailFormat⟩ := format
      obtain ⟨texts, each, rfl⟩ := inductionHypothesis tailFormat
      exact ⟨head :: texts, List.Forall₂.cons ⟨same, long⟩ each, rfl⟩

theorem SlicesFormat.of_forall₂
    {length : Nat} {items texts : List (List UInt8)}
    (each : List.Forall₂ (FixedBytes length) items texts) (offset : Nat) :
    ∃ slices, slices.map Slice.bytes = items ∧
      SlicesFormat length offset slices texts.flatten := by
  induction each generalizing offset with
  | nil =>
      exact ⟨[], rfl, rfl⟩
  | @cons item text items texts fixed _ inductionHypothesis =>
      obtain ⟨rest, sameItems, tailFormat⟩ :=
        inductionHypothesis (offset + text.length)
      exact ⟨⟨offset, item⟩ :: rest, by rw [List.map_cons, sameItems],
        text, texts.flatten, rfl, ⟨rfl, fixed⟩, tailFormat⟩

theorem allowedList_iff
    {announced : Prop} {length : Nat} {items : List (List UInt8)}
    {encoding : List UInt8} (offset : Nat) :
    AllowedList announced length items encoding ↔
      ∃ slices : Option (List Slice),
        (slices.getD []).map Slice.bytes = items ∧
        Format.optional announced (SubItemsFormat length) offset slices
          encoding := by
  constructor
  · rintro ⟨present, missing⟩
    by_cases isAnnounced : announced
    · obtain ⟨few, count, texts, countFormat, each, rfl⟩ :=
        present isAnnounced
      obtain ⟨slices, rfl, format⟩ :=
        SlicesFormat.of_forall₂ each (offset + count.length)
      rw [List.length_map] at few countFormat
      exact ⟨some slices, rfl, isAnnounced, few, count, _, rfl, countFormat,
        format⟩
    · obtain ⟨rfl, rfl⟩ := missing isAnnounced
      exact ⟨none, rfl, isAnnounced, rfl⟩
  · rintro ⟨_ | slices, rfl, format⟩
    · exact ⟨fun isAnnounced => absurd isAnnounced format.1,
        fun _ => ⟨rfl, format.2⟩⟩
    · obtain ⟨isAnnounced, few, count, _, rfl, countFormat, slicesFormat⟩ :=
        format
      obtain ⟨texts, each, rfl⟩ := slicesFormat.forall₂
      refine ⟨fun _ => ⟨?_, count, texts, ?_, each, rfl⟩,
        fun missing => absurd isAnnounced missing⟩
      · rw [Option.getD_some, List.length_map]
        exact few
      · rw [Option.getD_some, List.length_map]
        exact countFormat

theorem signerContents_encodes_iff
    {contents : SignerContents} {encoding : List UInt8} (offset : Nat)
    (earlier : List (List UInt8)) :
    contents.Encodes encoding ∧ contents.account ∉ earlier ↔
      ∃ layout : SignerLayout, layout.contents = contents ∧
        SignerFormat earlier offset layout encoding := by
  have scopes (scope : UInt8) :
      (scope = 0x80 ∨ scope &&& 0x80 ≠ 0x80) ↔ ScopeAllowed scope := by
    rw [ScopeAllowed, or_comm, or_iff_not_imp_left, not_not]
    rfl
  constructor
  · rintro ⟨⟨contractsText, groupsText, rfl, long, isAllowed, contractsFormat,
      groupsFormat⟩, isNew⟩
    obtain ⟨contracts, sameContracts, contractsFormat⟩ :=
      (allowedList_iff (offset + uint160Len + 1)).mp contractsFormat
    obtain ⟨groups, sameGroups, groupsFormat⟩ :=
      (allowedList_iff
        (offset + uint160Len + 1 + contractsText.length)).mp groupsFormat
    refine
      ⟨⟨⟨offset, contents.account⟩, contents.scope, contracts, groups⟩,
        ?_, contractsText, groupsText, ?_, ⟨rfl, rfl, long⟩, isNew,
        (scopes _).mp isAllowed, contractsFormat, groupsFormat⟩
    · rw [SignerLayout.contents, sameContracts, sameGroups]
    · simp only [List.append_assoc, List.cons_append, List.nil_append]
  · rintro ⟨layout, rfl, contractsText, groupsText, rfl, ⟨_, _, long⟩, isNew,
      isAllowed, contractsFormat, groupsFormat⟩
    refine ⟨⟨contractsText, groupsText, ?_, long, (scopes _).mpr isAllowed,
      (allowedList_iff _).mpr ⟨layout.contracts, rfl, contractsFormat⟩,
      (allowedList_iff _).mpr ⟨layout.groups, rfl, groupsFormat⟩⟩, isNew⟩
    simp only [SignerLayout.contents, List.append_assoc, List.cons_append,
      List.nil_append]

theorem SignersFormat.forall₂
    {earlier : List (List UInt8)} {offset : Nat}
    {signers : List SignerLayout} {encoding : List UInt8}
    (format : SignersFormat earlier offset signers encoding) :
    (∃ texts,
      List.Forall₂ SignerContents.Encodes
        (signers.map SignerLayout.contents) texts ∧
      encoding = texts.flatten) ∧
    (signers.map fun signer => signer.account.bytes).Nodup ∧
    ∀ signer ∈ signers, signer.account.bytes ∉ earlier := by
  induction signers generalizing earlier offset encoding with
  | nil =>
      exact ⟨⟨[], List.Forall₂.nil, format⟩, List.nodup_nil, by simp⟩
  | cons signer rest inductionHypothesis =>
      obtain ⟨head, tail, rfl, headFormat, tailFormat⟩ := format
      obtain ⟨⟨texts, each, rfl⟩, nodup, areNew⟩ :=
        inductionHypothesis tailFormat
      obtain ⟨encodes, isNew⟩ :=
        (signerContents_encodes_iff offset earlier).mpr
          ⟨signer, rfl, headFormat⟩
      refine ⟨⟨head :: texts, List.Forall₂.cons encodes each, rfl⟩, ?_, ?_⟩
      · rw [List.map_cons, List.nodup_cons]
        refine ⟨?_, nodup⟩
        intro isThere
        obtain ⟨other, otherMember, same⟩ := List.mem_map.mp isThere
        exact areNew other otherMember (by simp [same])
      · intro other otherMember
        rcases List.mem_cons.mp otherMember with rfl | otherMember
        · exact isNew
        · exact fun isEarlier =>
            areNew other otherMember (List.mem_append_left _ isEarlier)

theorem SignersFormat.of_forall₂
    {signers : List SignerContents} {texts : List (List UInt8)}
    (each : List.Forall₂ SignerContents.Encodes signers texts)
    (earlier : List (List UInt8)) (offset : Nat)
    (nodup : (earlier ++ signers.map SignerContents.account).Nodup) :
    ∃ layouts : List SignerLayout,
      layouts.map SignerLayout.contents = signers ∧
        SignersFormat earlier offset layouts texts.flatten := by
  induction each generalizing earlier offset with
  | nil =>
      exact ⟨[], rfl, rfl⟩
  | @cons signer text signers texts encodes _ inductionHypothesis =>
      have isNew : signer.account ∉ earlier := by
        intro isEarlier
        exact (List.nodup_append.mp nodup).2.2 _ isEarlier _
          (List.mem_cons_self) rfl
      obtain ⟨layout, rfl, format⟩ :=
        (signerContents_encodes_iff offset earlier).mp ⟨encodes, isNew⟩
      obtain ⟨layouts, rfl, restFormat⟩ :=
        inductionHypothesis (earlier ++ [layout.account.bytes])
          (offset + text.length)
          (by simpa [SignerLayout.contents] using nodup)
      exact ⟨layout :: layouts, rfl, text, texts.flatten, rfl, format,
        restFormat⟩

/-- Attributes of the supported type. -/
theorem attributes_encodes_iff
    {types : List UInt8} {encoding : List UInt8} :
    types.length ≤ 1 ∧
        Counted (fun type text => text = [type] ∧ type = 0x01) types
          encoding ↔
      ∃ number, List.replicate number highPriority = types ∧
        ∀ offset, AttributesFormat offset number encoding := by
  constructor
  · rintro ⟨few, count, texts, countFormat, each, rfl⟩
    match types, few with
    | [], _ =>
        cases each
        exact ⟨0, rfl, fun _ => ⟨Nat.zero_le 1, count, countFormat, rfl⟩⟩
    | [type], _ =>
        cases each with
        | cons isType rest =>
            cases rest
            obtain ⟨rfl, rfl⟩ := isType
            exact ⟨1, rfl, fun _ => ⟨Nat.le_refl 1, count, countFormat, rfl⟩⟩
  · rintro ⟨number, rfl, format⟩
    obtain ⟨few, count, countFormat, rfl⟩ := format 0
    rw [List.length_replicate]
    match number, few with
    | 0, _ =>
        exact ⟨Nat.zero_le 1, count, [], countFormat, List.Forall₂.nil, rfl⟩
    | 1, _ =>
        exact ⟨Nat.le_refl 1, count, [[highPriority]], countFormat,
          List.Forall₂.cons ⟨rfl, rfl⟩ List.Forall₂.nil, rfl⟩

/-- Contents and layouts describe the same byte strings. -/
theorem contents_encodes_iff
    {contents : TransactionContents} {encoding : List UInt8} :
    contents.Encodes encoding ↔
      ∃ layout : TransactionLayout, layout.contents = contents ∧
        FieldsFormat 0 layout encoding := by
  constructor
  · rintro ⟨signersText, attributesText, scriptCount, rfl, systemFeeValue,
      networkFeeValue, some, few, ⟨signerCount, texts, signerCountFormat,
      each, rfl⟩, nodup, fewAttributes, attributesFormat, nonempty, bounded,
      scriptCountFormat⟩
    obtain ⟨number, sameAttributes, attributesFormat⟩ :=
      attributes_encodes_iff.mp ⟨fewAttributes, attributesFormat⟩
    let header : HeaderLayout :=
      ⟨contents.nonce, contents.systemFee, contents.networkFee,
        contents.validUntilBlock⟩
    let headerText : List UInt8 :=
      [0] ++ (leBytes 4 header.nonce.toNat ++
        (leBytes 8 header.systemFee.toUInt64.toNat ++
          (leBytes 8 header.networkFee.toUInt64.toNat ++
            leBytes 4 header.validUntilBlock.toNat)))
    obtain ⟨signers, sameSigners, signersFormat⟩ :=
      SignersFormat.of_forall₂ each []
        (0 + headerText.length + signerCount.length) (by simpa using nodup)
    rw [← sameSigners, List.length_map] at some few signerCountFormat
    let script : Slice :=
      ⟨0 + headerText.length + (signerCount ++ texts.flatten).length +
        attributesText.length + scriptCount.length, contents.script⟩
    refine ⟨⟨header, signers, number, script⟩, ?_, headerText,
      signerCount ++ texts.flatten, attributesText,
      scriptCount ++ contents.script, ?_,
      ⟨systemFeeValue, networkFeeValue, rfl⟩,
      ⟨some, few, signerCount, texts.flatten, rfl, signerCountFormat,
        signersFormat⟩, attributesFormat _,
      ⟨nonempty, bounded, scriptCount, scriptCountFormat, rfl, rfl⟩⟩
    · rw [TransactionLayout.contents, sameSigners, sameAttributes]
    · simp only [headerText, header, List.append_assoc]
  · rintro ⟨layout, rfl, headerText, _, attributesText, _, rfl,
      ⟨systemFeeValue, networkFeeValue, rfl⟩,
      ⟨some, few, signerCount, _, rfl, signerCountFormat, signersFormat⟩,
      attributesFormat,
      ⟨nonempty, bounded, scriptCount, scriptCountFormat, rfl, _⟩⟩
    obtain ⟨⟨texts, each, rfl⟩, nodup, _⟩ := signersFormat.forall₂
    obtain ⟨fewAttributes, attributesFormat⟩ :=
      attributes_encodes_iff.mpr
        ⟨layout.attributes, rfl, fun _ => attributesFormat⟩
    refine ⟨signerCount ++ texts.flatten, attributesText, scriptCount, ?_,
      systemFeeValue, networkFeeValue, ?_, ?_,
      ⟨signerCount, texts, ?_, each, rfl⟩, ?_, fewAttributes,
      attributesFormat, nonempty, bounded, scriptCountFormat⟩
    · simp only [TransactionLayout.contents, List.append_assoc]
    · simpa [TransactionLayout.contents, minTxSigners] using some
    · simpa [TransactionLayout.contents, maxTxSigners] using few
    · simpa [TransactionLayout.contents] using signerCountFormat
    · simpa [TransactionLayout.contents, SignerLayout.contents,
        Function.comp_def] using nodup

/-! ## What the parser stores -/

/-- Cells before `k` are left alone. -/
theorem slot_storeSlices_of_lt
    (slices : List Slice) {i k : Nat} (before : i < k)
    (cells : Vector Ptr maxSignerSubItems) :
    slot (storeSlices k slices cells) i = slot cells i := by
  induction slices generalizing k cells with
  | nil =>
      rfl
  | cons slice rest inductionHypothesis =>
      have later := inductionHypothesis (k := k + 1) (by omega)
        (modifySlot cells k fun _ => some slice.position)
      rw [slot_modifySlot_of_ne _ _ (Nat.ne_of_lt before)] at later
      exact later

theorem slot_storeSlices
    (slices : List Slice) (k : Nat) (cells : Vector Ptr maxSignerSubItems)
    (j : Nat) (member : j < slices.length)
    (inside : k + j < maxSignerSubItems) :
    slot (storeSlices k slices cells) (k + j) =
      some slices[j].position := by
  induction slices generalizing k j cells with
  | nil =>
      cases member
  | cons slice rest inductionHypothesis =>
      cases j with
      | zero =>
          rw [Nat.add_zero] at inside ⊢
          have first := slot_storeSlices_of_lt rest (Nat.lt_succ_self k)
            (modifySlot cells k fun _ => some slice.position)
          rw [slot_modifySlot_self _ _ inside] at first
          exact first
      | succ j =>
          have shifted := inductionHypothesis (k + 1)
            (modifySlot cells k fun _ => some slice.position) j
            (Nat.lt_of_succ_lt_succ member) (by omega)
          rw [Nat.add_right_comm] at shifted
          exact shifted

theorem slot_writeSignersFrom_of_lt
    (signers : List SignerLayout) {i k : Nat} (before : i < k)
    (tx : Transaction) :
    slot (writeSignersFrom k signers tx).signers i = slot tx.signers i := by
  induction signers generalizing k tx with
  | nil =>
      rfl
  | cons signer rest inductionHypothesis =>
      rw [writeSignersFrom, inductionHypothesis (by omega),
        Transaction.modifySigner,
        slot_modifySlot_of_ne _ _ (Nat.ne_of_lt before)]

theorem slot_writeSignersFrom
    (signers : List SignerLayout) (k : Nat) (tx : Transaction)
    (i : Nat) (member : i < signers.length)
    (inside : k + i < maxTxSigners) :
    slot (writeSignersFrom k signers tx).signers (k + i) =
      writeSigner signers[i] (slot tx.signers (k + i)) := by
  induction signers generalizing k i tx with
  | nil =>
      cases member
  | cons signer rest inductionHypothesis =>
      cases i with
      | zero =>
          rw [Nat.add_zero] at inside ⊢
          rw [writeSignersFrom,
            slot_writeSignersFrom_of_lt rest (Nat.lt_succ_self k),
            Transaction.modifySigner, slot_modifySlot_self _ _ inside]
          rfl
      | succ i =>
          have shifted := inductionHypothesis (k + 1)
            (tx.modifySigner k (writeSigner signer)) i
            (Nat.lt_of_succ_lt_succ member) (by omega)
          rw [Nat.add_right_comm, Transaction.modifySigner,
            slot_modifySlot_of_ne _ _ (by omega)] at shifted
          exact shifted

/-- The pointers of a list see its items. -/
theorem SlicesFormat.deref_eq
    {length offset : Nat} {slices : List Slice}
    {encoding memory : List UInt8}
    (format : SlicesFormat length offset slices encoding)
    (isPrefix : encoding <+: memory.drop offset) :
    ∀ slice ∈ slices,
      deref memory length (some slice.position) = slice.bytes := by
  induction slices generalizing offset encoding with
  | nil =>
      simp
  | cons slice rest inductionHypothesis =>
      obtain ⟨head, tail, rfl, headFormat, tailFormat⟩ := format
      intro other otherMember
      rcases List.mem_cons.mp otherMember with rfl | otherMember
      · exact headFormat.deref_eq ((List.prefix_append _ _).trans isPrefix)
      · refine inductionHypothesis tailFormat ?_ other otherMember
        rw [← List.drop_drop]
        obtain ⟨beyond, memorySplit⟩ := isPrefix
        rw [← memorySplit, List.append_assoc, List.drop_left]
        exact List.prefix_append _ _

/-- The size and the cells of an allowed list, from an empty one. -/
theorem optionalList_decoded
    {announced : Prop} {length offset : Nat} {slices : Option (List Slice)}
    {encoding memory : List UInt8}
    (format :
      Format.optional announced (SubItemsFormat length) offset slices encoding)
    (isPrefix : encoding <+: memory.drop offset)
    (cells : Vector Ptr maxSignerSubItems) :
    (slices.elim 0 fun list => UInt8.ofNat list.length).toNat =
        ((slices.getD []).map Slice.bytes).length ∧
      ∀ (j : Nat) (inside : j < ((slices.getD []).map Slice.bytes).length),
        deref memory length
            (slot (slices.elim cells fun list => storeSlices 0 list cells) j) =
          ((slices.getD []).map Slice.bytes)[j] := by
  cases slices with
  | none =>
      exact ⟨rfl, fun j inside => absurd inside (Nat.not_lt_zero j)⟩
  | some list =>
      obtain ⟨_, few, count, tail, rfl, _, slicesFormat⟩ := format
      have tailPrefix : tail <+: memory.drop (offset + count.length) := by
        rw [← List.drop_drop]
        obtain ⟨beyond, memorySplit⟩ := isPrefix
        rw [← memorySplit, List.append_assoc, List.drop_left]
        exact List.prefix_append _ _
      have seen := slicesFormat.deref_eq tailPrefix
      simp only [maxSignerSubItems] at few
      refine ⟨?_, ?_⟩
      · rw [Option.elim_some, UInt8.toNat_ofNat', Option.getD_some,
          List.length_map]
        omega
      · intro j inside
        simp only [Option.getD_some, List.length_map] at inside
        have cell := slot_storeSlices list 0 cells j inside
          (by simp only [maxSignerSubItems]; omega)
        rw [Nat.zero_add] at cell
        rw [Option.elim_some, cell, seen _ (List.getElem_mem inside)]
        simp

/-- The fields of a stored signer. -/
theorem writeSigner_eq (layout : SignerLayout) (signer : Signer) :
    writeSigner layout signer =
      { account := some layout.account.position
        scope := layout.scope
        allowedContracts :=
          layout.contracts.elim signer.allowedContracts fun slices =>
            storeSlices 0 slices signer.allowedContracts
        allowedContractsSize :=
          layout.contracts.elim signer.allowedContractsSize fun slices =>
            UInt8.ofNat slices.length
        allowedGroups :=
          layout.groups.elim signer.allowedGroups fun slices =>
            storeSlices 0 slices signer.allowedGroups
        allowedGroupsSize :=
          layout.groups.elim signer.allowedGroupsSize fun slices =>
            UInt8.ofNat slices.length } := by
  rcases layout with ⟨_, _, _ | _, _ | _⟩ <;> rfl

/-- A signer stored into a cleared record. -/
theorem writeSigner_decoded
    {earlier : List (List UInt8)} {offset : Nat} {layout : SignerLayout}
    {encoding memory : List UInt8}
    (format : SignerFormat earlier offset layout encoding)
    (isPrefix : encoding <+: memory.drop offset) :
    SignerDecoded memory layout.contents (writeSigner layout Signer.zero) := by
  obtain ⟨contractsText, groupsText, rfl, accountFormat, _, _,
    contractsFormat, groupsFormat⟩ := format
  obtain ⟨beyond, memorySplit⟩ := isPrefix
  have long := accountFormat.2.2
  have atContracts : contractsText <+:
      memory.drop (offset + uint160Len + 1) := by
    rw [Nat.add_assoc, ← List.drop_drop, ← memorySplit, ← long]
    simp
  have atGroups : groupsText <+:
      memory.drop (offset + uint160Len + 1 + contractsText.length) := by
    rw [Nat.add_assoc, Nat.add_assoc, ← List.drop_drop, ← memorySplit, ← long]
    simp [Nat.add_comm 1]
  have atAccount : layout.account.bytes <+: memory.drop offset :=
    ⟨_, by rw [← memorySplit, List.append_assoc]⟩
  obtain ⟨contractsSize, contracts⟩ :=
    optionalList_decoded contractsFormat atContracts
      Signer.zero.allowedContracts
  obtain ⟨groupsSize, groups⟩ :=
    optionalList_decoded groupsFormat atGroups Signer.zero.allowedGroups
  rw [writeSigner_eq]
  exact
    { account := accountFormat.deref_eq atAccount
      scope := rfl
      contractsSize := contractsSize
      contracts := contracts
      groupsSize := groupsSize
      groups := groups }

theorem SignersFormat.decoded
    {earlier : List (List UInt8)} {offset : Nat}
    {signers : List SignerLayout} {encoding memory : List UInt8}
    (format : SignersFormat earlier offset signers encoding)
    (isPrefix : encoding <+: memory.drop offset) :
    ∀ signer ∈ signers,
      SignerDecoded memory signer.contents
        (writeSigner signer Signer.zero) := by
  induction signers generalizing earlier offset encoding with
  | nil =>
      simp
  | cons signer rest inductionHypothesis =>
      obtain ⟨head, tail, rfl, headFormat, tailFormat⟩ := format
      intro other otherMember
      rcases List.mem_cons.mp otherMember with rfl | otherMember
      · exact writeSigner_decoded headFormat
          ((List.prefix_append _ _).trans isPrefix)
      · refine inductionHypothesis tailFormat ?_ other otherMember
        rw [← List.drop_drop]
        obtain ⟨beyond, memorySplit⟩ := isPrefix
        rw [← memorySplit, List.append_assoc, List.drop_left]
        exact List.prefix_append _ _

/-- Recognising a transfer leaves the fields of the transaction alone. -/
def Transaction.fields (tx : Transaction) : Transaction :=
  { tx.eraseTransfer with isSystemAssetTransfer := false }

theorem tryParseTransferScript_fields
    (sdk : Sdk) (script : Buffer) (tx : Transaction) :
    (tryParseTransferScript sdk script tx).fields = tx.fields := by
  have call : (recogniseCall sdk).Keeps fun scan => scan.store.fields := by
    intro scan
    exact
      congrArg
        (fun tx : Transaction => { tx with isSystemAssetTransfer := false })
        (recogniseCall_keeps sdk scan)
  have whole :
      (recogniseTransfer sdk).Keeps fun scan => scan.store.fields :=
    call.bind fun _ =>
      (EarlyExit.Keeps.exitWhen _ _).bind fun _ =>
        EarlyExit.Keeps.assign fun _ => rfl
  exact whole ⟨script, tx⟩

theorem decoded_fields_iff
    {memory : List UInt8} {contents : TransactionContents}
    {tx : Transaction} :
    Decoded memory contents tx.fields ↔ Decoded memory contents tx :=
  ⟨fun decoded => { decoded with }, fun decoded => { decoded with }⟩

/-- Storing signers changes nothing but the signers. -/
theorem writeSignersFrom_eq
    (k : Nat) (signers : List SignerLayout) (tx : Transaction) :
    writeSignersFrom k signers tx =
      { tx with signers := (writeSignersFrom k signers tx).signers } := by
  induction signers generalizing k tx with
  | nil =>
      rfl
  | cons signer rest inductionHypothesis =>
      rw [writeSignersFrom, inductionHypothesis]
      rfl

/-- The record of a layout stored into a cleared one. -/
theorem writeFields_zero (layout : TransactionLayout) :
    writeFields layout Transaction.zero =
      { version := 0
        nonce := layout.header.nonce
        systemFee := layout.header.systemFee
        networkFee := layout.header.networkFee
        validUntilBlock := layout.header.validUntilBlock
        signers :=
          (writeSigners layout.signers
            (writeHeader layout.header Transaction.zero)).signers
        signersSize := UInt8.ofNat layout.signers.length
        attributes :=
          if layout.attributes = 1 then
            modifySlot Transaction.zero.attributes 0 fun _ => highPriority
          else
            Transaction.zero.attributes
        attributesSize := UInt8.ofNat layout.attributes
        script := some layout.script.position
        scriptSize := UInt16.ofNat layout.script.bytes.length
        isSystemAssetTransfer := false
        isNeo := false
        amount := 0
        dstAddress := Transaction.zero.dstAddress } := by
  rw [writeFields, writeSigners, writeSignersFrom_eq, writeAttributes,
    writeScript]
  by_cases single : layout.attributes = 1
  · simp only [single, if_true]
    rfl
  · simp only [single, if_false]
    rfl

/-- The fields of a layout stored into a cleared record. -/
theorem writeFields_decoded
    {layout : TransactionLayout} {encoding : List UInt8}
    (format : FieldsFormat 0 layout encoding) :
    Decoded encoding layout.contents
      (writeFields layout Transaction.zero) := by
  rw [writeFields_zero]
  obtain ⟨⟨_, bounded⟩, head, scriptSplit, here⟩ := format.script_suffix
  obtain ⟨headerText, signersText, attributesText, scriptText, rfl, _,
    ⟨_, fewSigners, count, tail, rfl, _, signersFormat⟩,
    ⟨fewAttributes, _⟩, _⟩ := format
  have tailPrefix :
      tail <+: (headerText ++ (count ++ tail ++
        (attributesText ++ scriptText))).drop
          (0 + headerText.length + count.length) := by
    rw [Nat.zero_add, ← List.drop_drop, List.drop_left, List.append_assoc,
      List.drop_left]
    exact List.prefix_append _ _
  have signersDecoded := signersFormat.decoded tailPrefix
  simp only [maxTxSigners] at fewSigners
  have scriptSize :
      (UInt16.ofNat layout.script.bytes.length).toNat =
        layout.script.bytes.length := by
    rw [UInt16.toNat_ofNat']
    omega
  exact
    { version := rfl
      nonce := rfl
      systemFee := rfl
      networkFee := rfl
      validUntilBlock := rfl
      signersSize := by
        simp only [TransactionLayout.contents, List.length_map,
          UInt8.toNat_ofNat']
        omega
      signers := by
        intro i member
        have inside : i < layout.signers.length := by
          simpa [TransactionLayout.contents] using member
        have item :
            layout.contents.signers[i] = layout.signers[i].contents :=
          List.getElem_map _
        have stored :=
          slot_writeSignersFrom layout.signers 0
            { writeHeader layout.header Transaction.zero with
              signersSize := UInt8.ofNat layout.signers.length }
            i inside (by simp only [maxTxSigners]; omega)
        have cleared : slot Transaction.zero.signers i = Signer.zero := by
          rw [slot_of_lt _ (by simp only [maxTxSigners]; omega)]
          exact Vector.getElem_replicate _
        rw [Nat.zero_add] at stored
        change SignerDecoded _ _
          (slot (writeSignersFrom 0 layout.signers _).signers i)
        rw [item, stored]
        change SignerDecoded _ _
          (writeSigner _ (slot Transaction.zero.signers i))
        rw [cleared]
        exact signersDecoded _ (List.getElem_mem inside)
      attributesSize := by
        simp only [TransactionLayout.contents, List.length_replicate,
          UInt8.toNat_ofNat']
        omega
      attributes := by
        intro j inside
        simp only [TransactionLayout.contents, List.length_replicate] at inside
        obtain ⟨single, rfl⟩ : layout.attributes = 1 ∧ j = 0 := by omega
        have item : layout.contents.attributes[0] = highPriority :=
          List.getElem_replicate _
        rw [item, if_pos single]
        exact slot_modifySlot_self _ _ Nat.two_pos
      scriptSize := scriptSize
      script := by
        rw [scriptSize, here, scriptSplit, Nat.zero_add]
        simp [deref, TransactionLayout.contents] }

/-- What is accepted is an encoding, and its contents are stored. -/
theorem decoded_of_parsed
    {sdk : Sdk} {b : List UInt8} {tx : Transaction}
    (parsed :
      transactionDeserialize sdk ⟨b, b.length, 0⟩ Transaction.zero =
        (.parsingOk, tx)) :
    ∃ contents : TransactionContents, contents.Encodes b ∧
      Decoded b contents tx := by
  have input := InputBuffer.whole (size_le_of_parsed parsed)
  obtain ⟨layout, format, stored⟩ :=
    transactionDeserialize_eq_ok sdk input parsed
  rw [rest_whole] at format
  refine
    ⟨layout.contents, contents_encodes_iff.mpr ⟨layout, rfl, format⟩, ?_⟩
  rw [← decoded_fields_iff, stored, tryParseTransferScript_fields,
    decoded_fields_iff]
  exact writeFields_decoded format

/-- `transaction_deserialize` on a cleared record accepts exactly the
encodings of at most 1024 bytes, and stores what they encode. -/
theorem transactionDeserialize_accepts_format (sdk : Sdk) (b : List UInt8) :
    let result :=
      transactionDeserialize sdk ⟨b, b.length, 0⟩ Transaction.zero
    (result.1 = .parsingOk ↔
      b.length ≤ 1024 ∧ ∃ contents : TransactionContents,
        contents.Encodes b) ∧
    (result.1 = .parsingOk → ∀ contents : TransactionContents,
      contents.Encodes b → Decoded b contents result.2) := by
  intro result
  have rest := rest_whole b
  have stores (short : b.length ≤ 1024) {layout : TransactionLayout}
      (format : FieldsFormat 0 layout b) :
      result.1 = .parsingOk ∧
        Decoded b layout.contents result.2 := by
    have run :=
      transactionDeserialize_of_format sdk
        (InputBuffer.whole short)
        attributesClear_zero (by rwa [rest])
    refine ⟨congrArg Prod.fst run, ?_⟩
    rw [← decoded_fields_iff, congrArg Prod.snd run,
      tryParseTransferScript_fields, decoded_fields_iff]
    exact writeFields_decoded format
  have shortEnough (accepted : result.1 = .parsingOk) : b.length ≤ 1024 :=
    size_le_of_parsed (Prod.ext accepted rfl)
  refine ⟨⟨?_, ?_⟩, ?_⟩
  · intro accepted
    have short := shortEnough accepted
    obtain ⟨layout, format, _⟩ :=
      transactionDeserialize_eq_ok sdk
        (InputBuffer.whole short)
        (Prod.ext accepted rfl)
    rw [rest] at format
    exact ⟨short, layout.contents,
      contents_encodes_iff.mpr ⟨layout, rfl, format⟩⟩
  · rintro ⟨short, contents, encodes⟩
    obtain ⟨layout, rfl, format⟩ := contents_encodes_iff.mp encodes
    exact (stores short format).1
  · intro accepted contents encodes
    obtain ⟨layout, rfl, format⟩ := contents_encodes_iff.mp encodes
    exact (stores (shortEnough accepted) format).2

end Neo3App
