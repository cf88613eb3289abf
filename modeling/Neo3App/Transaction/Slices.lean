import Neo3App.Transaction.Bounds
import Neo3App.Transaction.Contents

/-!
# The slices of a transaction

The pointers that an accepted transaction holds, in the order in which they
are stored, designate slices that follow each other inside the bytes.
-/

namespace Neo3App

open Neo3App.Lib

/-- The slices follow each other between `start` and `stop`. -/
def Spans : Nat → List (Ptr × Nat) → Nat → Prop
  | start, [], stop => start ≤ stop
  | start, (pointer, length) :: rest, stop =>
      ∃ position, pointer = some position ∧ start ≤ position ∧
        Spans (position + length) rest stop

theorem Spans.earlier
    {start stop earlier : Nat} {slices : List (Ptr × Nat)}
    (spans : Spans start slices stop) (before : earlier ≤ start) :
    Spans earlier slices stop := by
  cases slices with
  | nil =>
      exact before.trans spans
  | cons slice rest =>
      obtain ⟨position, pointer, later, tail⟩ := spans
      exact ⟨position, pointer, before.trans later, tail⟩

theorem Spans.append
    {start middle stop : Nat} {first second : List (Ptr × Nat)}
    (head : Spans start first middle) (tail : Spans middle second stop) :
    Spans start (first ++ second) stop := by
  induction first generalizing start with
  | nil =>
      exact tail.earlier head
  | cons slice rest ih =>
      obtain ⟨position, pointer, later, spans⟩ := head
      exact ⟨position, pointer, later, ih spans⟩

/-- One slice that stands at the start. -/
theorem Spans.cons
    {start length stop : Nat} {rest : List (Ptr × Nat)}
    (tail : Spans (start + length) rest stop) :
    Spans start ((some start, length) :: rest) stop :=
  ⟨start, rfl, Nat.le_refl start, tail⟩

/-- The pointers and the length of the items of a list. -/
def sliceCells (length : Nat) (slices : List Slice) : List (Ptr × Nat) :=
  slices.map fun slice => (some slice.position, length)

def SignerLayout.slices (layout : SignerLayout) : List (Ptr × Nat) :=
  (some layout.account.position, uint160Len) ::
    (sliceCells uint160Len (layout.contracts.getD []) ++
      sliceCells ecpointLen (layout.groups.getD []))

def TransactionLayout.slices (layout : TransactionLayout) :
    List (Ptr × Nat) :=
  layout.signers.flatMap SignerLayout.slices ++
    [(some layout.script.position, layout.script.bytes.length)]

theorem SlicesFormat.spans
    {length offset : Nat} {slices : List Slice} {encoding : List UInt8}
    (format : SlicesFormat length offset slices encoding) :
    Spans offset (sliceCells length slices) (offset + encoding.length) := by
  induction slices generalizing offset encoding with
  | nil =>
      exact Nat.le_add_right _ _
  | cons slice rest ih =>
      obtain ⟨head, tail, rfl, ⟨here, rfl, long⟩, tailFormat⟩ := format
      have spans := ih tailFormat
      rw [long, Nat.add_assoc, ← long, ← List.length_append] at spans
      change Spans offset ((some slice.position, length) :: _) _
      rw [here]
      exact Spans.cons (long ▸ spans)

theorem optionalList_spans
    {announced : Prop} {length offset : Nat} {slices : Option (List Slice)}
    {encoding : List UInt8}
    (format :
      Format.optional announced (SubItemsFormat length) offset slices
        encoding) :
    Spans offset (sliceCells length (slices.getD []))
      (offset + encoding.length) := by
  cases slices with
  | none =>
      exact Nat.le_add_right _ _
  | some list =>
      obtain ⟨_, _, count, tail, rfl, _, slicesFormat⟩ := format
      rw [List.length_append, ← Nat.add_assoc]
      exact slicesFormat.spans.earlier (Nat.le_add_right _ _)

theorem SignerFormat.spans
    {earlier : List (List UInt8)} {offset : Nat} {layout : SignerLayout}
    {encoding : List UInt8}
    (format : SignerFormat earlier offset layout encoding) :
    Spans offset layout.slices (offset + encoding.length) := by
  obtain ⟨contracts, groups, rfl, ⟨here, _, long⟩, _, _, contractsFormat,
    groupsFormat⟩ := format
  have length :
      offset +
          (layout.account.bytes ++
            layout.scope :: (contracts ++ groups)).length =
        offset + uint160Len + 1 + contracts.length + groups.length := by
    rw [List.length_append, List.length_cons, List.length_append, long]
    omega
  rw [length, SignerLayout.slices, here]
  apply Spans.cons
  exact
    ((optionalList_spans contractsFormat).earlier
      (Nat.le_add_right _ 1)).append (optionalList_spans groupsFormat)

theorem SignersFormat.spans
    {earlier : List (List UInt8)} {offset : Nat}
    {signers : List SignerLayout} {encoding : List UInt8}
    (format : SignersFormat earlier offset signers encoding) :
    Spans offset (signers.flatMap SignerLayout.slices)
      (offset + encoding.length) := by
  induction signers generalizing earlier offset encoding with
  | nil =>
      exact Nat.le_add_right _ _
  | cons signer rest ih =>
      obtain ⟨head, tail, rfl, headFormat, tailFormat⟩ := format
      rw [List.flatMap_cons, List.length_append, ← Nat.add_assoc]
      exact headFormat.spans.append (ih tailFormat)

theorem FieldsFormat.spans
    {offset : Nat} {layout : TransactionLayout} {encoding : List UInt8}
    (format : FieldsFormat offset layout encoding) :
    Spans offset layout.slices (offset + encoding.length) := by
  obtain ⟨header, _, attributes, _, rfl, _, ⟨_, _, count, tail, rfl, _,
    signersFormat⟩, _, ⟨_, _, scriptCount, _, rfl, here⟩⟩ := format
  refine
    (signersFormat.spans.earlier (by omega)).append ?_
  rw [here]
  refine ⟨_, rfl, ?_, ?_⟩
  · simp only [List.length_append]
    omega
  · change _ + _ ≤ _
    simp only [List.length_append]
    omega

/-- The pointers of a list of items and their length, in order. -/
def cellSlices (length : Nat) (cells : Vector Ptr maxSignerSubItems)
    (count : UInt8) : List (Ptr × Nat) :=
  (List.range count.toNat).map fun j => (slot cells j, length)

/-- The slices of a signer.  A list that the scope does not announce is not
parsed, and has none. -/
def Signer.slices (signer : Signer) : List (Ptr × Nat) :=
  (signer.account, uint160Len) ::
    ((if signer.scope &&& scopeCustomContracts = scopeCustomContracts then
        cellSlices uint160Len signer.allowedContracts
          signer.allowedContractsSize
      else []) ++
      if signer.scope &&& scopeCustomGroups = scopeCustomGroups then
        cellSlices ecpointLen signer.allowedGroups signer.allowedGroupsSize
      else [])

/-- The slices of a transaction in parse order. -/
def Transaction.slices (tx : Transaction) : List (Ptr × Nat) :=
  (List.range tx.signersSize.toNat).flatMap
      (fun i => (slot tx.signers i).slices) ++
    [(tx.script, tx.scriptSize.toNat)]

theorem cellSlices_storeSlices
    {slices : List Slice} (few : slices.length ≤ maxSignerSubItems)
    (length : Nat) (cells : Vector Ptr maxSignerSubItems) :
    cellSlices length (storeSlices 0 slices cells)
        (UInt8.ofNat slices.length) =
      sliceCells length slices := by
  have two : maxSignerSubItems = 2 := rfl
  have count : (UInt8.ofNat slices.length).toNat = slices.length := by
    rw [UInt8.toNat_ofNat']
    omega
  rw [cellSlices, sliceCells, count]
  refine List.ext_getElem (by simp) fun j inside _ => ?_
  have member : j < slices.length := by simpa using inside
  have stored := slot_storeSlices slices 0 cells j member (by omega)
  rw [Nat.zero_add] at stored
  rw [List.getElem_map, List.getElem_map, List.getElem_range, stored]

/-- An announced list is the one that was stored. -/
theorem optionalList_slices
    {announced : Prop} [Decidable announced] {length offset : Nat}
    {slices : Option (List Slice)} {encoding : List UInt8}
    (format :
      Format.optional announced (SubItemsFormat length) offset slices
        encoding)
    (cells : Vector Ptr maxSignerSubItems) (count : UInt8) :
    (if announced then
        cellSlices length
          (slices.elim cells fun list => storeSlices 0 list cells)
          (slices.elim count fun list => UInt8.ofNat list.length)
      else []) =
      sliceCells length (slices.getD []) := by
  cases slices with
  | none =>
      rw [if_neg format.1]
      rfl
  | some list =>
      rw [if_pos format.1]
      exact cellSlices_storeSlices format.2.1 length cells

theorem SignerFormat.slices_writeSigner
    {earlier : List (List UInt8)} {offset : Nat} {layout : SignerLayout}
    {encoding : List UInt8}
    (format : SignerFormat earlier offset layout encoding) (signer : Signer) :
    (writeSigner layout signer).slices = layout.slices := by
  obtain ⟨contracts, groups, _, _, _, _, contractsFormat, groupsFormat⟩ :=
    format
  rw [writeSigner_eq, Signer.slices, SignerLayout.slices]
  dsimp only
  rw [optionalList_slices contractsFormat, optionalList_slices groupsFormat]

theorem SignersFormat.mem
    {earlier : List (List UInt8)} {offset : Nat}
    {signers : List SignerLayout} {encoding : List UInt8}
    (format : SignersFormat earlier offset signers encoding) :
    ∀ signer ∈ signers, ∃ earlier offset encoding,
      SignerFormat earlier offset signer encoding := by
  induction signers generalizing earlier offset encoding with
  | nil =>
      intro signer member
      cases member
  | cons first rest ih =>
      obtain ⟨head, tail, rfl, headFormat, tailFormat⟩ := format
      intro signer member
      rcases List.mem_cons.mp member with rfl | later
      · exact ⟨_, _, _, headFormat⟩
      · exact ih tailFormat signer later

theorem FieldsFormat.slices_writeFields
    {offset : Nat} {layout : TransactionLayout} {encoding : List UInt8}
    (format : FieldsFormat offset layout encoding) (tx : Transaction) :
    (writeFields layout tx).slices = layout.slices := by
  obtain ⟨_, _, _, _, _, _, ⟨_, fewSigners, _, _, _, _, signersFormat⟩, _,
    ⟨_, fewBytes, _⟩⟩ := format
  have two : maxTxSigners = 2 := rfl
  let started : Transaction :=
    { writeHeader layout.header tx with
      signersSize := UInt8.ofNat layout.signers.length }
  obtain ⟨signersSize, signers⟩ :
      (writeFields layout tx).signersSize =
          UInt8.ofNat layout.signers.length ∧
        (writeFields layout tx).signers =
          (writeSignersFrom 0 layout.signers started).signers := by
    rw [writeFields, writeSigners, writeSignersFrom_eq, writeAttributes,
      writeScript]
    split <;> exact ⟨rfl, rfl⟩
  have count :
      (UInt8.ofNat layout.signers.length).toNat = layout.signers.length := by
    rw [UInt8.toNat_ofNat']
    omega
  have scriptSize :
      (UInt16.ofNat layout.script.bytes.length).toNat =
        layout.script.bytes.length := by
    rw [UInt16.toNat_ofNat']
    omega
  have each :
      (List.range layout.signers.length).map
          (fun i => (slot (writeFields layout tx).signers i).slices) =
        layout.signers.map SignerLayout.slices := by
    refine List.ext_getElem (by simp) fun i inside _ => ?_
    have member : i < layout.signers.length := by simpa using inside
    have stored :=
      slot_writeSignersFrom layout.signers 0 started i member (by omega)
    obtain ⟨_, _, _, signerFormat⟩ :=
      signersFormat.mem _ (List.getElem_mem member)
    rw [Nat.zero_add] at stored
    rw [List.getElem_map, List.getElem_map, List.getElem_range, signers,
      stored, signerFormat.slices_writeSigner]
  rw [Transaction.slices, TransactionLayout.slices, signersSize, count,
    List.flatMap_def, each, ← List.flatMap_def]
  change _ ++ [(some layout.script.position,
    (UInt16.ofNat layout.script.bytes.length).toNat)] = _
  rw [scriptSize]

/-- A buffer over `b` with any memory behind it. -/
def bufferOver (b beyond : List UInt8) : Buffer :=
  ⟨b ++ beyond, b.length, 0⟩

theorem rest_bufferOver (b beyond : List UInt8) :
    (bufferOver b beyond).rest = b := by
  simp [bufferOver, Buffer.rest]

theorem InputBuffer.over
    {b : List UInt8} (short : b.length ≤ maxTransactionLen)
    (beyond : List UInt8) : InputBuffer (bufferOver b beyond) where
  atStart := rfl
  size_le := by
    change b.length ≤ (b ++ beyond).length
    rw [List.length_append]
    exact Nat.le_add_right _ _
  short := short

/-- No access of the parser goes wrong. -/
theorem checkedDeserialize_eq
    (sdk : Sdk) (b beyond : List UInt8) (tx : Transaction) :
    checkedDeserialize sdk (bufferOver b beyond) tx =
      .ok (transactionDeserialize sdk (bufferOver b beyond) tx) := by
  have body : checkedBody sdk ⟨bufferOver b beyond, tx⟩ =
      EarlyExit.faultless (deserialize sdk) ⟨bufferOver b beyond, tx⟩ := by
    by_cases short : b.length ≤ maxTransactionLen
    · exact
        checkedBody_eq sdk
          (show InsideAny b.length ⟨bufferOver b beyond, tx⟩ from
            ⟨(InputBuffer.over short beyond).wf, rfl, trivial⟩)
    · have long : decide (maxTransactionLen < (bufferOver b beyond).size) =
          true := decide_eq_true (Nat.lt_of_not_le short)
      unfold checkedBody deserialize
      rw [EarlyExit.faultless_bind, EarlyExit.faultless_exitWhen,
        EarlyExit.exitWhen_bind, EarlyExit.exitWhen_bind, if_pos long,
        if_pos long]
  rw [checkedDeserialize, transactionDeserialize, body, EarlyExit.faultless]
  rcases deserialize sdk ⟨bufferOver b beyond, tx⟩ with ⟨status | value, scan⟩
  · rfl
  · rfl

/-- The memory behind the bytes does not matter. -/
theorem transactionDeserialize_beyond
    (sdk : Sdk) (b beyond other : List UInt8) (tx : Transaction) :
    transactionDeserialize sdk (bufferOver b beyond) tx =
      transactionDeserialize sdk (bufferOver b other) tx := by
  by_cases short : b.length ≤ maxTransactionLen
  · exact
      transactionDeserialize_same sdk (.over short beyond)
        (.over short other)
        ((rest_bufferOver b beyond).trans (rest_bufferOver b other).symm) tx
  · have refused (memory : List UInt8) :
        transactionDeserialize sdk (bufferOver b memory) tx =
          (.invalidLengthError, tx) := by
      rcases transactionDeserialize_cases sdk (bufferOver b memory) tx with
        ⟨_, left⟩ | ⟨few, _⟩
      · exact left
      · exact absurd few short
    rw [refused, refused]

/-- The slices of an accepted transaction. -/
theorem slices_of_parsed
    (sdk : Sdk) {b beyond : List UInt8} {tx after : Transaction}
    (parsed :
      transactionDeserialize sdk (bufferOver b beyond) tx =
        (.parsingOk, after)) :
    Spans 0 after.slices b.length := by
  have short : b.length ≤ maxTransactionLen := size_le_of_parsed parsed
  obtain ⟨layout, format, stored⟩ :=
    transactionDeserialize_eq_ok sdk (.over short beyond) parsed
  rw [rest_bufferOver] at format stored
  have spans := format.spans
  rw [Nat.zero_add, ← format.slices_writeFields tx] at spans
  have fields : after.fields = (writeFields layout tx).fields := by
    rw [stored, tryParseTransferScript_fields]
  change Spans 0 after.fields.slices b.length
  rw [fields]
  exact spans

/-- **The parser stays inside its buffer.** For all bytes, all memory behind
them and every record: the parser with a check at each access, each offset,
each index and each narrowed integer is the parser; the memory behind the
bytes does not matter; and the slices of an accepted transaction follow each
other inside the bytes. -/
theorem transactionDeserialize_stays_inside
    (sdk : Sdk) (b beyond : List UInt8) (tx : Transaction) :
    let result := transactionDeserialize sdk (bufferOver b beyond) tx
    checkedDeserialize sdk (bufferOver b beyond) tx = .ok result ∧
      (∀ other,
        transactionDeserialize sdk (bufferOver b other) tx = result) ∧
      (result.1 = .parsingOk → Spans 0 result.2.slices b.length) :=
  ⟨checkedDeserialize_eq sdk b beyond tx,
    fun other => transactionDeserialize_beyond sdk b other beyond tx,
    fun accepted => slices_of_parsed sdk (Prod.ext accepted rfl)⟩

end Neo3App
