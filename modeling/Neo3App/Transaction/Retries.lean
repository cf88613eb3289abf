import Neo3App.Transaction.Slices

/-!
# A second attempt

A refused attempt leaves a record that the next attempt starts from.  The
next attempt gives what it would give on a cleared record, except where the
refused one has stored an attribute.
-/

namespace Neo3App

open Neo3App.Lib
open Neo3App.Lib.EarlyExit

theorem readLocal_of_encoding
    {ε α : Type} {read : Buffer → Read α} {format : α → List UInt8 → Prop}
    (reads : Reads read format) (code : ε) {buf : Buffer} (wf : buf.Wf)
    (tx : Transaction) {value : α} {encoding : List UInt8}
    (isValue : format value encoding) (isPrefix : encoding <+: buf.rest) :
    (readLocal read code : Parser Transaction ε α) ⟨buf, tx⟩ =
      (.ok value, ⟨buf.advance encoding.length, tx⟩) := by
  rw [readLocal, readField, reads.complete wf isValue isPrefix]
  rfl

theorem readLocal_of_missing
    {ε α : Type} {read : Buffer → Read α} {format : α → List UInt8 → Prop}
    {zero : α} (reads : ReadsBytes read format zero) (code : ε)
    {buf : Buffer} (wf : buf.Wf) (tx : Transaction)
    (missing : ∀ value encoding, format value encoding →
      ¬ encoding <+: buf.rest) :
    (readLocal read code : Parser Transaction ε α) ⟨buf, tx⟩ =
      (.error code, ⟨buf, tx⟩) := by
  cases ok : (read buf).ok with
  | true =>
      obtain ⟨encoding, isValue, isPrefix, _⟩ := reads.reads.sound wf ok
      exact absurd isPrefix (missing _ _ isValue)
  | false =>
      rw [readLocal, readField, reads.fails ok]
      rfl

/-! ## The attributes -/

/-- One of the counted cells holds the supported type. -/
def HoldsType (tx : Transaction) : Prop :=
  ∃ j < tx.attributesSize.toNat, slot tx.attributes j = highPriority

instance (tx : Transaction) : Decidable (HoldsType tx) :=
  inferInstanceAs (Decidable (∃ j < _, _))

theorem parseAttributesFrom_nil
    (remaining i : Nat) {buf : Buffer} (wf : buf.Wf) (tx : Transaction)
    (empty : buf.rest = []) :
    parseAttributesFrom (remaining + 1) i ⟨buf, tx⟩ =
      (.error .attributesUnsupportedType, ⟨buf, tx⟩) := by
  unfold parseAttributesFrom
  refine bind_of_error (readLocal_of_missing readsBytes_u8 _ wf tx ?_)
  rintro value _ rfl isPrefix
  rw [empty] at isPrefix
  cases List.prefix_nil.mp isPrefix

theorem parseAttributesFrom_cons
    (remaining i : Nat) {buf : Buffer} (wf : buf.Wf) (tx : Transaction)
    {type : UInt8} {tail : List UInt8} (here : buf.rest = type :: tail) :
    parseAttributesFrom (remaining + 1) i ⟨buf, tx⟩ =
      if type ≠ highPriority then
        (.error .attributesUnsupportedType, ⟨buf.advance 1, tx⟩)
      else if HoldsType tx then
        (.error .attributesDuplicateType, ⟨buf.advance 1, tx⟩)
      else
        parseAttributesFrom remaining (i + 1)
          ⟨buf.advance 1, storeAttribute i tx⟩ := by
  have isPrefix : [type] <+: buf.rest := by
    rw [here]
    exact ⟨tail, rfl⟩
  have read :
      (readLocal bufferReadU8 .attributesUnsupportedType : Section UInt8)
          ⟨buf, tx⟩ =
        (.ok type, ⟨buf.advance 1, tx⟩) :=
    readLocal_of_encoding reads_u8 _ wf tx rfl isPrefix
  rw [parseAttributesFrom, bind_of_ok read, exitIf_bind]
  by_cases unsupported : type ≠ highPriority
  · rw [if_pos unsupported, if_pos unsupported]
  have isHigh := not_ne_iff.mp unsupported
  subst isHigh
  rw [if_neg unsupported, if_neg unsupported, exitWhen_bind]
  have duplicate : duplicateAttribute highPriority ⟨buf.advance 1, tx⟩ = true ↔
      HoldsType tx := duplicateAttribute_iff _ _
  by_cases held : HoldsType tx
  · rw [if_pos held, if_pos (duplicate.mpr held)]
  · rw [if_neg held, if_neg (duplicate.not.mpr held)]
    exact bind_of_ok rfl

def setNumber (number : Nat) (tx : Transaction) : Transaction :=
  { tx with attributesSize := UInt8.ofNat number }

theorem parseAttributes_of_count
    {buf : Buffer} (wf : buf.Wf) (tx : Transaction) {number : Nat}
    {count : List UInt8} (format : VarintFormat number count)
    (isPrefix : count <+: buf.rest) :
    parseAttributes ⟨buf, tx⟩ =
      if 2 < number then
        (.error .attributesLengthValueError,
          ⟨buf.advance count.length, tx⟩)
      else
        parseAttributesFrom number 0
          ⟨buf.advance count.length, setNumber number tx⟩ := by
  have value : (UInt64.ofNat number).toNat = number := by
    rw [UInt64.toNat_ofNat', Nat.mod_eq_of_lt format.lt]
  have isValue : VarintFormat (UInt64.ofNat number).toNat count := by
    rwa [value]
  rw [parseAttributes,
    bind_of_ok (readLocal_of_encoding reads_varint _ wf tx isValue isPrefix),
    exitIf_bind]
  have many : (UInt64.ofNat number > UInt64.ofNat maxAttributes ∨
      UInt64.ofNat number > 2) ↔ 2 < number := by
    rw [gt_iff_lt, gt_iff_lt, UInt64.lt_iff_toNat_lt, UInt64.lt_iff_toNat_lt,
      value]
    exact or_self_iff
  by_cases tooMany : 2 < number
  · rw [if_pos tooMany, if_pos (many.mpr tooMany)]
  · have small : (UInt64.ofNat number).toUInt8 = UInt8.ofNat number := by
      rw [← UInt8.ofNat_uInt64ToNat, value]
    have same : (UInt8.ofNat number).toNat = number := by
      rw [UInt8.toNat_ofNat']
      omega
    rw [if_neg tooMany, if_neg (many.not.mpr tooMany), small, same]
    exact bind_of_ok rfl

theorem parseAttributes_of_none
    {buf : Buffer} (wf : buf.Wf) (tx : Transaction)
    (missing : ∀ number count, VarintFormat number count →
      ¬ count <+: buf.rest) :
    parseAttributes ⟨buf, tx⟩ =
      (.error .attributesLengthParsingError, ⟨buf, tx⟩) := by
  unfold parseAttributes
  exact
    bind_of_error
      (readLocal_of_missing readsBytes_varint _ wf tx
        fun value encoding isValue => missing _ encoding isValue)

/-- The first attribute is there: it is refused if the record holds its type
already, and stored otherwise. -/
theorem parseAttributes_of_high
    {buf : Buffer} (wf : buf.Wf) (tx : Transaction) {number : Nat}
    (few : number + 1 ≤ 2) {count tail : List UInt8}
    (format : VarintFormat (number + 1) count)
    (here : buf.rest = count ++ highPriority :: tail) :
    parseAttributes ⟨buf, tx⟩ =
      if HoldsType (setNumber (number + 1) tx) then
        (.error .attributesDuplicateType,
          ⟨buf.advance (count.length + 1), setNumber (number + 1) tx⟩)
      else
        parseAttributesFrom number 1
          ⟨buf.advance (count.length + 1),
            storeAttribute 0 (setNumber (number + 1) tx)⟩ := by
  have isPrefix : count <+: buf.rest := ⟨_, here.symm⟩
  have next : (buf.advance count.length).rest = highPriority :: tail := by
    rw [Buffer.rest_advance, here, List.drop_left]
  rw [parseAttributes_of_count wf tx format isPrefix, if_neg (by omega),
    parseAttributesFrom_cons _ _ (wf.advance isPrefix.length_le) _ next,
    if_neg (not_not.mpr rfl), Buffer.advance_advance]

/-- A second attribute is always refused. -/
theorem parseAttributesFrom_second
    {buf : Buffer} (wf : buf.Wf) (tx : Transaction) :
    ∃ after : Buffer,
      parseAttributesFrom 1 1 ⟨buf, storeAttribute 0 (setNumber 2 tx)⟩ =
        (.error
          (if [highPriority] <+: buf.rest then .attributesDuplicateType
            else .attributesUnsupportedType),
          ⟨after, storeAttribute 0 (setNumber 2 tx)⟩) := by
  have held : HoldsType (storeAttribute 0 (setNumber 2 tx)) := by
    refine ⟨0, Nat.two_pos, ?_⟩
    exact slot_modifySlot_self _ _ Nat.two_pos
  cases here : buf.rest with
  | nil =>
      refine ⟨buf, ?_⟩
      rw [parseAttributesFrom_nil _ _ wf _ here, if_neg (by simp)]
  | cons type tail =>
      refine ⟨buf.advance 1, ?_⟩
      rw [parseAttributesFrom_cons _ _ wf _ here]
      by_cases isHigh : type = highPriority
      · rw [if_neg (not_not.mpr isHigh), if_pos held,
          if_pos ⟨tail, by rw [isHigh]; rfl⟩]
      · rw [if_pos isHigh, if_neg]
        intro isPrefix
        exact isHigh (List.cons_prefix_cons.mp isPrefix).1.symm

/-- The bytes announce one or two attributes and the first one is there. -/
def AnnouncesType (number : Nat) (count text : List UInt8) : Prop :=
  (number = 1 ∨ number = 2) ∧ VarintFormat number count ∧
    count ++ [highPriority] <+: text

theorem not_holdsType_of_clear
    {tx : Transaction} (isClear : AttributesClear tx) (number : Nat) :
    ¬ HoldsType (setNumber number tx) := by
  rintro ⟨j, _, held⟩
  exact isClear j held

theorem attributes_of_announced
    {buf : Buffer} (wf : buf.Wf) {tx : Transaction}
    (isClear : AttributesClear tx) {number : Nat} {count : List UInt8}
    (announces : AnnouncesType number count buf.rest) :
    (parseAttributes ⟨buf, tx⟩).2.store.attributes =
      (storeAttribute 0 tx).attributes := by
  obtain ⟨few, format, tail, here⟩ := announces
  rw [List.append_assoc] at here
  have available : count.length + 1 ≤ buf.rest.length := by
    rw [← here]
    simp
  rcases few with rfl | rfl
  · rw [parseAttributes_of_high wf tx (by omega) format here.symm,
      if_neg (not_holdsType_of_clear isClear 1)]
    rfl
  · obtain ⟨after, run⟩ :=
      parseAttributesFrom_second (wf.advance available) tx
    rw [parseAttributes_of_high wf tx (by omega) format here.symm,
      if_neg (not_holdsType_of_clear isClear 2), run]
    rfl

theorem attributes_of_not_announced
    {buf : Buffer} (wf : buf.Wf) {tx : Transaction}
    (missing : ∀ number count, ¬ AnnouncesType number count buf.rest) :
    (parseAttributes ⟨buf, tx⟩).2.store.attributes = tx.attributes := by
  by_cases counted : ∃ number count, VarintFormat number count ∧
    count <+: buf.rest
  · obtain ⟨number, count, format, isPrefix⟩ := counted
    rw [parseAttributes_of_count wf tx format isPrefix]
    split
    · rfl
    have next := wf.advance isPrefix.length_le
    match number with
    | 0 => rfl
    | remaining + 1 =>
        cases here : (buf.advance count.length).rest with
        | nil => rw [parseAttributesFrom_nil _ _ next _ here]; rfl
        | cons type tail =>
            rw [parseAttributesFrom_cons _ _ next _ here, if_pos]
            · rfl
            rintro rfl
            refine missing (remaining + 1) count ⟨by omega, format, tail, ?_⟩
            rw [Buffer.rest_advance] at here
            rw [List.append_assoc, List.singleton_append, ← here]
            exact List.prefix_iff_eq_append.mp isPrefix
  · rw [parseAttributes_of_none wf tx fun number count format isPrefix =>
      counted ⟨number, count, format, isPrefix⟩]

/-- The section does not change the cells of the attributes. -/
abbrev KeepsAttributes {α : Type} (body : Section α) : Prop :=
  body.Keeps fun scan => scan.store.attributes

theorem parseHeader_keeps : KeepsAttributes parseHeader := by
  unfold parseHeader
  refine EarlyExit.Keeps.bind (Keeps.readField _ _ fun _ _ => rfl) fun _ => ?_
  refine (EarlyExit.Keeps.exitIf _ _).bind fun _ => ?_
  refine EarlyExit.Keeps.bind (Keeps.readField _ _ fun _ _ => rfl) fun _ => ?_
  refine EarlyExit.Keeps.bind (Keeps.readField _ _ fun _ _ => rfl) fun _ => ?_
  refine (EarlyExit.Keeps.exitIf _ _).bind fun _ => ?_
  refine EarlyExit.Keeps.bind (Keeps.readField _ _ fun _ _ => rfl) fun _ => ?_
  refine (EarlyExit.Keeps.exitIf _ _).bind fun _ => ?_
  refine EarlyExit.Keeps.bind (Keeps.readField _ _ fun _ _ => rfl) fun _ => ?_
  exact EarlyExit.Keeps.pure ()

theorem parseSubItems_keeps
    (itemLen : Nat) {putSize : UInt8 → Transaction → Transaction}
    {put : Nat → Ptr → Transaction → Transaction}
    (keepsSize : ∀ size tx, (putSize size tx).attributes = tx.attributes)
    (keeps : ∀ j item tx, (put j item tx).attributes = tx.attributes)
    (lengthCode valueCode itemCode : ParserStatus) :
    KeepsAttributes
      (parseSubItems itemLen putSize put lengthCode valueCode itemCode) := by
  have items (remaining j : Nat) :
      KeepsAttributes (parseItems itemLen put itemCode remaining j) := by
    induction remaining generalizing j with
    | zero =>
        exact EarlyExit.Keeps.pure ()
    | succ remaining ih =>
        refine EarlyExit.Keeps.bind (fun scan => keeps j _ scan.store) ?_
        exact fun _ => (Keeps.seekCur _ _ _).bind fun _ => ih (j + 1)
  refine (Keeps.readLocal _ _ _).bind fun length => ?_
  refine (EarlyExit.Keeps.exitIf _ _).bind fun _ => ?_
  refine EarlyExit.Keeps.bind (fun scan => keepsSize _ scan.store) ?_
  exact fun _ => items _ 0

theorem parseSigner_keeps (sdk : Sdk) (i : Nat) :
    KeepsAttributes (parseSigner sdk i) := by
  have contracts : KeepsAttributes (parseAllowedContracts i) := by
    apply parseSubItems_keeps <;> intros <;> rfl
  have groups : KeepsAttributes (parseAllowedGroups i) := by
    apply parseSubItems_keeps <;> intros <;> rfl
  unfold parseSigner
  refine EarlyExit.Keeps.bind (fun _ => rfl) fun _ => ?_
  refine (Keeps.seekCur _ _ _).bind fun _ => ?_
  refine (EarlyExit.Keeps.exitWhen _ _).bind fun _ => ?_
  refine (Keeps.readLocal _ _ _).bind fun scope => ?_
  refine EarlyExit.Keeps.bind (fun _ => rfl) fun _ => ?_
  refine (EarlyExit.Keeps.exitIf _ _).bind fun _ => ?_
  refine (EarlyExit.Keeps.runIf _ contracts).bind fun _ => ?_
  exact EarlyExit.Keeps.runIf _ groups

theorem parseSigners_keeps (sdk : Sdk) :
    KeepsAttributes (parseSigners sdk) := by
  have signers (remaining i : Nat) :
      KeepsAttributes (parseSignersFrom sdk remaining i) := by
    induction remaining generalizing i with
    | zero =>
        exact EarlyExit.Keeps.pure ()
    | succ remaining ih =>
        exact (parseSigner_keeps sdk i).bind fun _ => ih (i + 1)
  unfold parseSigners
  refine (Keeps.readLocal _ _ _).bind fun length => ?_
  refine (EarlyExit.Keeps.exitIf _ _).bind fun _ => ?_
  refine EarlyExit.Keeps.bind (fun _ => rfl) fun _ => ?_
  exact signers _ 0

theorem parseScript_keeps : KeepsAttributes parseScript := by
  unfold parseScript
  refine (Keeps.readLocal _ _ _).bind fun length => ?_
  refine EarlyExit.Keeps.bind (fun _ => rfl) fun _ => ?_
  refine (EarlyExit.Keeps.exitIf _ _).bind fun _ => ?_
  refine (Keeps.seekCur _ _ _).bind fun _ => ?_
  exact fun _ => rfl

def parseStart (sdk : Sdk) : Section Unit := do
  parseHeader
  parseSigners sdk

def StartFormat : Format (HeaderLayout × List SignerLayout) :=
  HeaderFormat.seq fun _ => SignerListFormat

theorem parseStart_accepts (sdk : Sdk) :
    Accepts (parseStart sdk) StartFormat (fun _ => ())
      (fun start tx => writeSigners start.2 (writeHeader start.1 tx))
      (fun _ _ => True) (fun _ => True) := by
  have commute (header : HeaderLayout) (signers : List SignerLayout)
      (tx : Transaction) :
      writeHeader header (writeSigners signers tx) =
        writeSigners signers (writeHeader header tx) :=
    writeSigners_comm (writeHeader header) (fun _ _ _ => rfl)
      (fun _ _ => rfl) signers tx
  have sequence :
      Accepts (parseStart sdk) _ _ _ (fun _ _ => True) (fun _ => True) :=
    Accepts.seq parseHeader_accepts (fun _ => parseSigners_accepts sdk)
      commute
  exact sequence

theorem parseFields_eq (sdk : Sdk) :
    parseFields sdk =
      parseStart sdk >>= fun _ => parseAttributes >>= fun _ => parseScript :=
  (bind_assoc _ _ _).symm

theorem parseStart_keeps (sdk : Sdk) : KeepsAttributes (parseStart sdk) :=
  parseHeader_keeps.bind fun _ => parseSigners_keeps sdk

theorem Transaction.fields_attributes (tx : Transaction) :
    tx.fields.attributes = tx.attributes :=
  rfl

theorem transactionDeserialize_attributes
    (sdk : Sdk) {buf : Buffer} (input : InputBuffer buf) (tx : Transaction) :
    (transactionDeserialize sdk buf tx).2.attributes =
      (parseFields sdk ⟨buf, tx⟩).2.store.attributes := by
  rcases transactionDeserialize_cases sdk buf tx with
    ⟨long, _⟩ | ⟨_, ⟨_, _, failed, _, left⟩ | ⟨_, filled, ran, left⟩⟩
  · exact absurd input.short (Nat.not_le.mpr long)
  · rw [left, failed]
  · rw [left, ran, ← Transaction.fields_attributes,
      tryParseTransferScript_fields, Transaction.fields_attributes]

/-- The fields after the header and the signers. -/
theorem parseFields_of_start
    (sdk : Sdk) {buf : Buffer} (input : InputBuffer buf) (tx : Transaction)
    {start : HeaderLayout × List SignerLayout} {head : List UInt8}
    (format : StartFormat 0 start head) (isPrefix : head <+: buf.rest) :
    ∃ filled, filled.attributes = tx.attributes ∧
      parseFields sdk ⟨buf, tx⟩ =
        (parseAttributes >>= fun _ => parseScript)
          ⟨buf.advance head.length, filled⟩ := by
  have run :=
    (parseStart_accepts sdk).complete
      (show (⟨buf, tx⟩ : Scan Transaction).buf.Wf from input.wf)
      trivial trivial (by rwa [input.atStart]) isPrefix
  refine ⟨writeSigners start.2 (writeHeader start.1 tx), ?_, ?_⟩
  · exact attributes_writeSigners start.2 (writeHeader start.1 tx)
  · rw [parseFields_eq, bind_of_ok run]

/-- The bytes `before` announce one or two attributes, and an attribute
stands behind them. -/
def ReachesType (number : Nat) (before text : List UInt8) : Prop :=
  ∃ start head count, before = head ++ count ∧ StartFormat 0 start head ∧
    head <+: text ∧ AnnouncesType number count (text.drop head.length)

theorem ReachesType.extend
    {number : Nat} {before text longer : List UInt8}
    (reaches : ReachesType number before text) (isPrefix : text <+: longer) :
    ReachesType number before longer := by
  obtain ⟨start, head, count, rfl, format, headPrefix, few, countFormat,
    here⟩ := reaches
  exact ⟨start, head, count, rfl, format, headPrefix.trans isPrefix, few,
    countFormat, here.trans (isPrefix.drop head.length)⟩

theorem attributes_thenScript (scan : Scan Transaction) :
    ((parseAttributes >>= fun _ => parseScript) scan).2.store.attributes =
      (parseAttributes scan).2.store.attributes :=
  view_bind parseAttributes (fun _ => parseScript_keeps) scan

/-- An attempt leaves the first attribute in the record. -/
theorem attributes_left
    (sdk : Sdk) {buf : Buffer} (input : InputBuffer buf) {tx : Transaction}
    (isClear : AttributesClear tx) {number : Nat} {before : List UInt8}
    (reaches : ReachesType number before buf.rest) :
    (transactionDeserialize sdk buf tx).2.attributes =
      (storeAttribute 0 tx).attributes := by
  obtain ⟨start, head, count, rfl, format, isPrefix, announces⟩ := reaches
  obtain ⟨filled, same, fields⟩ :=
    parseFields_of_start sdk input tx format isPrefix
  have clear : AttributesClear filled := by
    intro j
    rw [same]
    exact isClear j
  rw [← Buffer.rest_advance] at announces
  have stored :=
    attributes_of_announced (input.wf.advance isPrefix.length_le) clear
      announces
  rw [transactionDeserialize_attributes sdk input, fields,
    attributes_thenScript, stored, storeAttribute, storeAttribute, same]

/-- An attempt that reaches no attribute leaves the cells alone. -/
theorem attributes_not_left
    (sdk : Sdk) {buf : Buffer} (input : InputBuffer buf) {tx : Transaction}
    (missing : ∀ number before, ¬ ReachesType number before buf.rest) :
    (transactionDeserialize sdk buf tx).2.attributes = tx.attributes := by
  rw [transactionDeserialize_attributes sdk input, parseFields_eq]
  have kept := parseStart_keeps sdk ⟨buf, tx⟩
  rcases run : parseStart sdk ⟨buf, tx⟩ with ⟨code | _, middle⟩
  · rw [run] at kept
    rw [bind_of_error run]
    exact kept
  · obtain ⟨start, head, format, isPrefix, _, rfl⟩ :=
      (parseStart_accepts sdk).sound
        (show (⟨buf, tx⟩ : Scan Transaction).buf.Wf from input.wf)
        trivial run
    have announcesNone (number : Nat) (count : List UInt8) :
        ¬ AnnouncesType number count (buf.advance head.length).rest := by
      intro announces
      rw [Buffer.rest_advance] at announces
      rw [input.atStart] at format
      exact
        missing number (head ++ count)
          ⟨start, head, count, rfl, format, isPrefix, announces⟩
    rw [run] at kept
    rw [bind_of_ok run, attributes_thenScript]
    exact
      (attributes_of_not_announced (input.wf.advance isPrefix.length_le)
        announcesNone).trans kept

/-- The attributes of a record that reaches the first one. -/
theorem parseFields_of_reaches
    (sdk : Sdk) {buf : Buffer} (input : InputBuffer buf) (tx : Transaction)
    {number : Nat} {before : List UInt8}
    (reaches : ReachesType number before buf.rest) :
    ∃ (next : Buffer) (filled : Transaction) (count : List UInt8),
      next.Wf ∧ filled.attributes = tx.attributes ∧
        AnnouncesType number count next.rest ∧
        (∀ tail, before ++ tail <+: buf.rest ↔ count ++ tail <+: next.rest) ∧
        parseFields sdk ⟨buf, tx⟩ =
          (parseAttributes >>= fun _ => parseScript) ⟨next, filled⟩ := by
  obtain ⟨start, head, count, rfl, format, isPrefix, announces⟩ := reaches
  obtain ⟨filled, same, fields⟩ :=
    parseFields_of_start sdk input tx format isPrefix
  rw [← Buffer.rest_advance] at announces
  refine ⟨buf.advance head.length, filled, count,
    input.wf.advance isPrefix.length_le, same, announces, ?_, fields⟩
  intro tail
  obtain ⟨rest, split⟩ := isPrefix
  rw [Buffer.rest_advance, ← split, List.drop_left, List.append_assoc,
    List.prefix_append_right_inj]

/-- The first attribute of a record that holds one is a duplicate. -/
theorem status_of_held
    (sdk : Sdk) {buf : Buffer} (input : InputBuffer buf) {tx : Transaction}
    (held : slot tx.attributes 0 = highPriority)
    {number : Nat} {before : List UInt8}
    (reaches : ReachesType number before buf.rest) :
    (transactionDeserialize sdk buf tx).1 = .attributesDuplicateType := by
  obtain ⟨next, filled, count, wf, same, ⟨few, format, tail, here⟩, _,
    fields⟩ := parseFields_of_reaches sdk input tx reaches
  have holds : HoldsType (setNumber number filled) := by
    refine ⟨0, ?_, ?_⟩
    · rcases few with rfl | rfl
      · exact Nat.one_pos
      · exact Nat.two_pos
    · exact (congrArg (fun cells => slot cells 0) same).trans held
  rw [List.append_assoc] at here
  obtain ⟨remaining, rfl⟩ : ∃ remaining, number = remaining + 1 :=
    ⟨number - 1, by omega⟩
  have run := parseAttributes_of_high wf filled (by omega) format here.symm
  rw [if_pos holds] at run
  exact
    transactionDeserialize_of_error sdk input
      (fields.trans (bind_of_error run))

theorem parseScript_exits :
    parseScript.Exits (· ≠ .attributesDuplicateType) :=
  Exits.bind (Exits.readField _ _ (by decide)) fun _ =>
    Exits.bind (Exits.assign _) fun _ =>
      Exits.bind (Exits.exitIf _ (by decide)) fun _ =>
        Exits.bind (Exits.seekCur _ (by decide)) fun _ =>
          Exits.assign _

/-- On a cleared record the only announced attribute is no duplicate. -/
theorem status_of_one
    (sdk : Sdk) {buf : Buffer} (input : InputBuffer buf) {tx : Transaction}
    (isClear : AttributesClear tx) {before : List UInt8}
    (reaches : ReachesType 1 before buf.rest) :
    (transactionDeserialize sdk buf tx).1 ≠ .attributesDuplicateType := by
  obtain ⟨next, filled, count, wf, same, ⟨_, format, tail, here⟩, _,
    fields⟩ := parseFields_of_reaches sdk input tx reaches
  have clear : AttributesClear filled := by
    intro j
    rw [same]
    exact isClear j
  rw [List.append_assoc] at here
  have run := parseAttributes_of_high wf filled (by omega) format here.symm
  rw [if_neg (not_holdsType_of_clear clear 1)] at run
  have rest := fields.trans (bind_of_ok run)
  rcases transactionDeserialize_cases sdk buf tx with
    ⟨long, _⟩ | ⟨_, ⟨_, _, failed, _, left⟩ | ⟨_, _, _, left⟩⟩
  · exact absurd input.short (Nat.not_le.mpr long)
  · rw [left]
    exact parseScript_exits _ _ _ (rest.symm.trans failed)
  · rw [left]
    dsimp only
    split <;> decide

/-- Of two announced attributes the second one is refused. -/
theorem status_of_two
    (sdk : Sdk) {buf : Buffer} (input : InputBuffer buf) {tx : Transaction}
    (isClear : AttributesClear tx) {before : List UInt8}
    (reaches : ReachesType 2 before buf.rest) :
    (transactionDeserialize sdk buf tx).1 =
      if before ++ [highPriority, highPriority] <+: buf.rest then
        .attributesDuplicateType
      else .attributesUnsupportedType := by
  obtain ⟨next, filled, count, wf, same, ⟨_, format, tail, here⟩, beyond,
    fields⟩ := parseFields_of_reaches sdk input tx reaches
  have clear : AttributesClear filled := by
    intro j
    rw [same]
    exact isClear j
  have second :
      before ++ [highPriority, highPriority] <+: buf.rest ↔
        [highPriority] <+: (next.advance (count.length + 1)).rest := by
    have split : count ++ [highPriority, highPriority] =
        (count ++ [highPriority]) ++ [highPriority] := by
      simp
    have long : (count ++ [highPriority]).length = count.length + 1 := by
      simp
    rw [beyond, Buffer.rest_advance, ← here, ← long, List.drop_left, split,
      List.prefix_append_right_inj]
  rw [List.append_assoc] at here
  have run := parseAttributes_of_high wf filled (by omega) format here.symm
  rw [if_neg (not_holdsType_of_clear clear 2)] at run
  obtain ⟨after, refused⟩ :=
    parseAttributesFrom_second
      (wf.advance (show count.length + 1 ≤ next.rest.length by
        rw [← here]
        simp)) filled
  simp only [second]
  exact
    transactionDeserialize_of_error sdk input
      (fields.trans (bind_of_error (run.trans refused)))

/-! ## No trace -/

/-- Parsing `b` after an attempt on `p` returns the status of parsing it at
once, and in case of success leaves the same record. -/
def Traceless (sdk : Sdk) (p b beyondP beyondB : List UInt8) : Prop :=
  let left := (transactionDeserialize sdk (bufferOver p beyondP) .zero).2
  let again := transactionDeserialize sdk (bufferOver b beyondB) left
  let atOnce := transactionDeserialize sdk (bufferOver b beyondB) .zero
  again.1 = atOnce.1 ∧ (atOnce.1 = .parsingOk → again.2 = atOnce.2)

/-- The attempt on `p` stores an attribute that parsing `b` then meets as a
duplicate, where `b` itself has none. -/
def LeavesAttribute (p b : List UInt8) : Prop :=
  b.length ≤ maxTransactionLen ∧ ∃ number before,
    ReachesType number before p ∧
      (number = 1 ∨ ¬ before ++ [highPriority, highPriority] <+: b)

theorem ReachesType.number
    {number : Nat} {before text : List UInt8}
    (reaches : ReachesType number before text) : number = 1 ∨ number = 2 := by
  obtain ⟨_, _, _, _, _, _, few, _⟩ := reaches
  exact few

theorem traceless_of_long
    (sdk : Sdk) {p b beyondP beyondB : List UInt8}
    (long : maxTransactionLen < b.length) :
    Traceless sdk p b beyondP beyondB := by
  have size : maxTransactionLen < (bufferOver b beyondB).size := long
  rw [Traceless, transactionDeserialize_of_long sdk size,
    transactionDeserialize_of_long sdk size]
  exact ⟨rfl, nofun⟩

/-- An attempt that reaches no attribute leaves no trace. -/
theorem traceless_of_missing
    (sdk : Sdk) {p more beyondP beyondB : List UInt8} (nonempty : p ≠ [])
    (proper : more ≠ [])
    (short : (p ++ more).length ≤ maxTransactionLen)
    (missing : ∀ number before, ¬ ReachesType number before p) :
    Traceless sdk p (p ++ more) beyondP beyondB := by
  have shorter : p.length ≤ maxTransactionLen := by
    rw [List.length_append] at short
    omega
  have inputP := InputBuffer.over shorter beyondP
  have inputB := InputBuffer.over short beyondB
  have restP := rest_bufferOver p beyondP
  have restB := rest_bufferOver (p ++ more) beyondB
  rw [← restP] at missing
  let left := (transactionDeserialize sdk (bufferOver p beyondP) .zero).2
  have cells : left.attributes = Transaction.zero.attributes :=
    attributes_not_left sdk inputP missing
  have status :
      (transactionDeserialize sdk (bufferOver (p ++ more) beyondB) left).1 =
        (transactionDeserialize sdk (bufferOver (p ++ more) beyondB) .zero).1 :=
    transactionDeserialize_status sdk inputB fun j => by rw [cells]
  have resumable : Resumable p left := by
    have after : Resumable (bufferOver p beyondP).rest left :=
      Resumable.transactionDeserialize sdk inputP (Resumable.zero [])
        nonempty restP
    rwa [restP] at after
  refine ⟨status, fun accepted => ?_⟩
  have parsed :
      transactionDeserialize sdk (bufferOver (p ++ more) beyondB) left =
        (.parsingOk, _) :=
    Prod.ext (status.trans accepted) rfl
  have same :=
    resumable.transactionDeserialize_ok sdk inputB proper restB parsed
  exact (congrArg Prod.snd same).symm

/-- After an attempt that reaches an attribute only the refusal of a
duplicate is possible. -/
theorem traceless_iff_of_reaches
    (sdk : Sdk) {p more beyondP beyondB : List UInt8}
    (short : (p ++ more).length ≤ maxTransactionLen)
    {number : Nat} {before : List UInt8}
    (reaches : ReachesType number before p) :
    Traceless sdk p (p ++ more) beyondP beyondB ↔
      number = 2 ∧ before ++ [highPriority, highPriority] <+: p ++ more := by
  have shorter : p.length ≤ maxTransactionLen := by
    rw [List.length_append] at short
    omega
  have inputP := InputBuffer.over shorter beyondP
  have inputB := InputBuffer.over short beyondB
  have reachesP : ReachesType number before (bufferOver p beyondP).rest := by
    rwa [rest_bufferOver]
  have reachesB :
      ReachesType number before (bufferOver (p ++ more) beyondB).rest := by
    rw [rest_bufferOver]
    exact reaches.extend (List.prefix_append p more)
  let left := (transactionDeserialize sdk (bufferOver p beyondP) .zero).2
  have held : slot left.attributes 0 = highPriority := by
    have cells : left.attributes = (storeAttribute 0 .zero).attributes :=
      attributes_left sdk inputP attributesClear_zero reachesP
    rw [cells]
    exact slot_modifySlot_self _ _ Nat.two_pos
  have again :
      (transactionDeserialize sdk (bufferOver (p ++ more) beyondB) left).1 =
        .attributesDuplicateType :=
    status_of_held sdk inputB held reachesB
  rcases reaches.number with rfl | rfl
  · have atOnce := status_of_one sdk inputB attributesClear_zero reachesB
    constructor
    · intro traceless
      exact absurd (traceless.1.symm.trans again) atOnce
    · rintro ⟨isTwo, _⟩
      cases isTwo
  · have atOnce := status_of_two sdk inputB attributesClear_zero reachesB
    rw [rest_bufferOver] at atOnce
    constructor
    · intro traceless
      refine ⟨rfl, ?_⟩
      by_contra other
      rw [if_neg other] at atOnce
      have same := again.symm.trans (traceless.1.trans atOnce)
      cases same
    · rintro ⟨_, isPrefix⟩
      rw [if_pos isPrefix] at atOnce
      refine ⟨again.trans atOnce.symm, fun accepted => ?_⟩
      have same := atOnce.symm.trans accepted
      cases same

/-- **Only an attribute leaves a trace.** For every proper prefix of every
byte string: the attempt on the prefix leaves no trace in the parse of the
whole exactly when it does not store an attribute that the whole has once. -/
theorem traceless_iff
    (sdk : Sdk) {p more : List UInt8} (nonempty : p ≠ [])
    (proper : more ≠ []) (beyondP beyondB : List UInt8) :
    Traceless sdk p (p ++ more) beyondP beyondB ↔
      ¬ LeavesAttribute p (p ++ more) := by
  by_cases short : (p ++ more).length ≤ maxTransactionLen
  · by_cases reached : ∃ number before, ReachesType number before p
    · constructor
      · rintro traceless ⟨_, number, before, reaches, once⟩
        obtain ⟨isTwo, isPrefix⟩ :=
          (traceless_iff_of_reaches sdk short reaches).mp traceless
        rcases once with isOne | other
        · omega
        · exact other isPrefix
      · intro leavesNone
        obtain ⟨number, before, reaches⟩ := reached
        refine (traceless_iff_of_reaches sdk short reaches).mpr ?_
        have notOnce := not_and.mp leavesNone short
        have twice :
            ¬ (number = 1 ∨
              ¬ before ++ [highPriority, highPriority] <+: p ++ more) :=
          fun once => notOnce ⟨number, before, reaches, once⟩
        rw [not_or, not_not] at twice
        exact ⟨reaches.number.resolve_left twice.1, twice.2⟩
    · have missing (number : Nat) (before : List UInt8) :
          ¬ ReachesType number before p :=
        fun reaches => reached ⟨number, before, reaches⟩
      refine iff_of_true ?_ ?_
      · exact traceless_of_missing sdk nonempty proper short missing
      · rintro ⟨_, number, before, reaches, _⟩
        exact missing number before reaches
  · refine iff_of_true ?_ fun leaves => short leaves.1
    exact traceless_of_long sdk (Nat.lt_of_not_le short)

/-- The bytes of a transaction up to its only attribute. -/
def cutAfterAttribute : List UInt8 :=
  [0] ++ List.replicate 24 0 ++ [1] ++ List.replicate 20 0x02 ++ [1] ++ [1, 1]

theorem traceless_iff_cutAfterAttribute :
    Traceless Sdk.constant cutAfterAttribute (cutAfterAttribute ++ [1, 0x40])
        [] [] ↔
      ¬ LeavesAttribute cutAfterAttribute
        (cutAfterAttribute ++ [1, 0x40]) :=
  traceless_iff Sdk.constant (by decide) (by decide) [] []

/-- The refused first attempt has stored the attribute that the second one
takes for a duplicate; parsed at once the bytes are accepted. -/
theorem not_traceless_cutAfterAttribute :
    (transactionDeserialize Sdk.constant (bufferOver cutAfterAttribute [])
        .zero).1 = .scriptLengthParsingError ∧
      (transactionDeserialize Sdk.constant
        (bufferOver (cutAfterAttribute ++ [1, 0x40]) []) .zero).1 =
          .parsingOk ∧
      ¬ Traceless Sdk.constant cutAfterAttribute
        (cutAfterAttribute ++ [1, 0x40]) [] [] := by
  refine ⟨by decide +kernel, by decide +kernel, fun traceless => ?_⟩
  have status := traceless.1
  revert status
  decide +kernel

end Neo3App
