import Neo3App.Lib.Blocks
import Neo3App.Ui.SignerWalk

/-!
# What the signer screens say of the signers

The captions of the screens of a signer, as a function of its contents, and
what of the contents they determine.  The name of a scope shows three of its
flags, and the screen of a group has room for 63 of the 66 digits of its key.
-/

namespace Neo3App

open Neo3App.Lib

/-- The contents of a signer whose pointers go into `memory`. -/
def signerContents (memory : List UInt8) (signer : Signer) :
    SignerContents where
  account := deref memory uint160Len signer.account
  scope := signer.scope
  contracts :=
    (List.range signer.allowedContractsSize.toNat).map fun j =>
      deref memory uint160Len (slot signer.allowedContracts j)
  groups :=
    (List.range signer.allowedGroupsSize.toNat).map fun j =>
      deref memory ecpointLen (slot signer.allowedGroups j)

def GlobalCtx.signers (context : GlobalCtx) : List SignerContents :=
  (List.range context.transaction.signersSize.toNat).map fun i =>
    signerContents context.rawTx (slot context.transaction.signers i)

structure AcceptedContext (sdk : Sdk) (b : List UInt8)
    (context : GlobalCtx) : Prop where
  parsed :
    transactionDeserialize sdk ⟨b, b.length, 0⟩ Transaction.zero =
      (.parsingOk, context.transaction)
  held : b <+: context.rawTx

/-- Bytes that are there are also there in a longer memory. -/
theorem deref_of_prefix
    {b memory : List UInt8} (isPrefix : b <+: memory) {length : Nat}
    {pointer : Ptr} (full : (deref b length pointer).length = length) :
    deref memory length pointer = deref b length pointer := by
  obtain ⟨rest, rfl⟩ := isPrefix
  cases pointer with
  | none =>
      rfl
  | some position =>
      simp only [deref, List.length_take, List.length_drop] at full ⊢
      by_cases inside : position ≤ b.length
      · rw [List.drop_append_of_le_length inside,
          List.take_append_of_le_length (by rw [List.length_drop]; omega)]
      · have empty : length = 0 := by
          omega
        rw [empty, List.take_zero, List.take_zero]

/-- What the parser ensures of each signer. -/
structure SignerContents.Valid (signer : SignerContents) : Prop where
  account : signer.account.length = uint160Len
  scope : signer.scope = 0x80 ∨ signer.scope &&& 0x80 ≠ 0x80
  contracts : ∀ contract ∈ signer.contracts, contract.length = uint160Len
  groups : ∀ group ∈ signer.groups, group.length = ecpointLen

theorem Counted.length_eq
    {length : Nat} {items : List (List UInt8)} {encoding : List UInt8}
    (counted : Counted (FixedBytes length) items encoding) :
    ∀ item ∈ items, item.length = length := by
  obtain ⟨_, texts, _, each, _⟩ := counted
  intro item member
  obtain ⟨k, inside, rfl⟩ := List.mem_iff_getElem.mp member
  exact (each.get inside (each.length_eq ▸ inside)).2

theorem AllowedList.length_eq
    {announced : Prop} {length : Nat} {items : List (List UInt8)}
    {encoding : List UInt8}
    (allowed : AllowedList announced length items encoding) :
    ∀ item ∈ items, item.length = length := by
  by_cases isAnnounced : announced
  · exact (allowed.1 isAnnounced).2.length_eq
  · rw [(allowed.2 isAnnounced).1]
    intro item member
    cases member

theorem SignerContents.Encodes.valid
    {signer : SignerContents} {encoding : List UInt8}
    (encodes : signer.Encodes encoding) : signer.Valid := by
  obtain ⟨_, _, _, account, scope, contracts, groups⟩ := encodes
  exact ⟨account, scope, contracts.length_eq, groups.length_eq⟩

/-- A list of pointers to strings of one length, read back. -/
theorem map_deref_eq
    {b memory : List UInt8} (isPrefix : b <+: memory) {length : Nat}
    {items : List (List UInt8)} (pointer : Nat → Ptr)
    (lengths : ∀ item ∈ items, item.length = length)
    (reads : ∀ (j : Nat) (inside : j < items.length),
      deref b length (pointer j) = items[j]) :
    ((List.range items.length).map fun j =>
      deref memory length (pointer j)) = items := by
  apply List.ext_getElem
  · rw [List.length_map, List.length_range]
  · intro j _ inside
    have here := reads j inside
    have full : (deref b length (pointer j)).length = length := by
      rw [here]
      exact lengths _ (List.getElem_mem inside)
    rw [List.getElem_map, List.getElem_range, deref_of_prefix isPrefix full,
      here]

theorem SignerDecoded.contents_eq
    {b memory : List UInt8} (isPrefix : b <+: memory)
    {contents : SignerContents} {signer : Signer} (valid : contents.Valid)
    (decoded : SignerDecoded b contents signer) :
    signerContents memory signer = contents := by
  have account : (deref b uint160Len signer.account).length = uint160Len := by
    rw [decoded.account]
    exact valid.account
  have contracts :=
    map_deref_eq isPrefix _ valid.contracts decoded.contracts
  have groups := map_deref_eq isPrefix _ valid.groups decoded.groups
  rw [signerContents, deref_of_prefix isPrefix account, decoded.account,
    decoded.scope, decoded.contractsSize, decoded.groupsSize, contracts,
    groups]

/-- The signers of an accepted transaction are those that its bytes
encode. -/
theorem AcceptedContext.signers_eq
    {sdk : Sdk} {b : List UInt8} {context : GlobalCtx}
    (accepted : AcceptedContext sdk b context) :
    ∃ contents : TransactionContents, contents.Encodes b ∧
      Decoded b contents context.transaction ∧
        context.signers = contents.signers ∧
          ∀ signer ∈ contents.signers, signer.Valid := by
  obtain ⟨contents, encodes, decoded⟩ := decoded_of_parsed accepted.parsed
  have valid : ∀ signer ∈ contents.signers, signer.Valid := by
    obtain ⟨_, _, _, _, _, _, _, _, ⟨_, _, _, each, _⟩, _⟩ := encodes
    intro signer member
    obtain ⟨k, inside, rfl⟩ := List.mem_iff_getElem.mp member
    exact (each.get inside (each.length_eq ▸ inside)).valid
  refine ⟨contents, encodes, decoded, ?_, valid⟩
  apply List.ext_getElem
  · rw [GlobalCtx.signers, List.length_map, List.length_range,
      decoded.signersSize]
  · intro i _ inside
    simp only [GlobalCtx.signers, List.getElem_map, List.getElem_range]
    exact
      (decoded.signers i inside).contents_eq accepted.held
        (valid _ (List.getElem_mem inside))

/-- What `snprintf` leaves of a title and a text. -/
def caption (title text : List Char) : List Char × List Char :=
  (snprintf 64 title, snprintf 64 text)

/-- `%d of %d`, for the item after `position` others. -/
def positionText (position count : Nat) : List Char :=
  signedDecimal (position + 1) ++ " of ".toList ++ signedDecimal count

/-- The captions of a numbered list of strings. -/
def numbered (word : List Char) (items : List (List UInt8)) :
    List (List Char × List Char) :=
  items.mapIdx fun j item =>
    caption (word ++ positionText j items.length) (percentH item)

/-- The captions of the screens of the signer after `i` others. -/
def SignerContents.captions (signer : SignerContents) (i count : Nat) :
    List (List Char × List Char) :=
  caption "Signer".toList (positionText i count) ::
    (caption "Account".toList (percentH signer.account) ::
      caption "Scope".toList (scopeText signer.scope) ::
      (numbered "Contract ".toList signer.contracts ++
        numbered "Group ".toList signer.groups))

theorem numbered_map_range
    (word : List Char) (size : UInt8) (item : Nat → List UInt8) :
    ((List.range size.toNat).map fun j : Nat =>
        caption (word ++ countText (j + 1) size) (percentH (item j))) =
      numbered word ((List.range size.toNat).map item) := by
  apply List.ext_getElem
  · simp [numbered]
  · intro j _ inside
    simp [numbered, positionText, countText]

/-- The captions of the screens of a signer, from its contents. -/
theorem map_caption_screensOf (context : GlobalCtx) (i : Nat) :
    (screensOf context.transaction i).map (Screen.caption context) =
      (signerContents context.rawTx
        (slot context.transaction.signers i)).captions i
          context.transaction.signersSize.toNat := by
  have contracts :=
    numbered_map_range "Contract ".toList
      (slot context.transaction.signers i).allowedContractsSize fun j =>
        deref context.rawTx uint160Len
          (slot (slot context.transaction.signers i).allowedContracts j)
  have groups :=
    numbered_map_range "Group ".toList
      (slot context.transaction.signers i).allowedGroupsSize fun j =>
        deref context.rawTx ecpointLen
          (slot (slot context.transaction.signers i).allowedGroups j)
  simp only [screensOf, signerScreens, List.map_append, List.map_map,
    List.map_cons, List.cons_append, List.nil_append,
    SignerContents.captions, signerContents]
  rw [← contracts, ← groups]
  rfl

theorem hexDigit_injective
    {first second : UInt8} (firstSmall : first < 16)
    (secondSmall : second < 16)
    (equal : hexDigit first = hexDigit second) : first = second := by
  have table : ∀ a b : Fin 16,
      hexDigit (UInt8.ofNat a) = hexDigit (UInt8.ofNat b) → a = b := by
    decide +kernel
  have bounds (value : UInt8) (small : value < 16) : value.toNat < 16 :=
    UInt8.lt_iff_toNat_lt.mp small
  have indices :=
    table ⟨first.toNat, bounds first firstSmall⟩
      ⟨second.toNat, bounds second secondSmall⟩
      (by simpa only [UInt8.ofNat_toNat] using equal)
  exact UInt8.toNat_inj.mp (Fin.mk.inj indices)

theorem halves_small (byte : UInt8) : byte / 16 < 16 ∧ byte % 16 < 16 := by
  have bound := byte.toNat_lt
  constructor
  · apply UInt8.lt_iff_toNat_lt.mpr
    rw [UInt8.toNat_div]
    change byte.toNat / 16 < 16
    omega
  · apply UInt8.lt_iff_toNat_lt.mpr
    rw [UInt8.toNat_mod]
    change byte.toNat % 16 < 16
    omega

theorem eq_of_halves
    {first second : UInt8} (high : first / 16 = second / 16)
    (low : first % 16 = second % 16) : first = second := by
  have highNat := congrArg UInt8.toNat high
  have lowNat := congrArg UInt8.toNat low
  rw [UInt8.toNat_div, UInt8.toNat_div] at highNat
  rw [UInt8.toNat_mod, UInt8.toNat_mod] at lowNat
  change first.toNat / 16 = second.toNat / 16 at highNat
  change first.toNat % 16 = second.toNat % 16 at lowNat
  apply UInt8.toNat_inj.mp
  omega

theorem percentH_cons (byte : UInt8) (bytes : List UInt8) :
    percentH (byte :: bytes) =
      hexDigit (byte / 16) :: hexDigit (byte % 16) :: percentH bytes :=
  rfl

theorem length_percentH (bytes : List UInt8) :
    (percentH bytes).length = 2 * bytes.length := by
  induction bytes with
  | nil =>
      rfl
  | cons byte bytes ih =>
      rw [percentH_cons, List.length_cons, List.length_cons, ih,
        List.length_cons]
      omega

theorem percentH_injective {first second : List UInt8}
    (equal : percentH first = percentH second) : first = second := by
  induction first generalizing second with
  | nil =>
      cases second with
      | nil =>
          rfl
      | cons byte bytes =>
          cases equal
  | cons byte bytes ih =>
      cases second with
      | nil =>
          cases equal
      | cons other others =>
          rw [percentH_cons, percentH_cons] at equal
          obtain ⟨high, rest⟩ := List.cons.inj equal
          obtain ⟨low, rest⟩ := List.cons.inj rest
          have sameHigh :=
            hexDigit_injective (halves_small byte).1 (halves_small other).1
              high
          have sameLow :=
            hexDigit_injective (halves_small byte).2 (halves_small other).2
              low
          rw [eq_of_halves sameHigh sameLow, ih rest]

/-- Twenty bytes are printed in full. -/
theorem snprintf_percentH {bytes : List UInt8}
    (length : bytes.length = uint160Len) :
    snprintf 64 (percentH bytes) = percentH bytes := by
  apply List.take_of_length_le
  rw [length_percentH, length]
  decide

/-- The flags of a scope that are printed. -/
def visibleScope (scope : UInt8) : UInt8 :=
  if scope = scopeGlobal then scope else scope &&& 0x31

/-- The digits of a group that are printed: 31 bytes and half a byte. -/
def visibleGroup (group : List UInt8) : List UInt8 :=
  group.take 31 ++ [group.getD 31 0 / 16]

/-- The part of a signer that its screens show. -/
def SignerContents.visible (signer : SignerContents) : SignerContents :=
  { signer with
    scope := visibleScope signer.scope
    groups := signer.groups.map visibleGroup }

/-- The scope that a text names. -/
def namedScope (text : List Char) : Option UInt8 :=
  [0x00, 0x80, 0x01, 0x10, 0x20, 0x11, 0x21, 0x30, 0x31].find? fun scope =>
    scopeText scope = text

theorem scopeText_visible
    {scope : UInt8} (valid : scope = 0x80 ∨ scope &&& 0x80 ≠ 0x80)
    (named : ¬ UnnamedScope scope) :
    scopeText (visibleScope scope) = scopeText scope ∧
      namedScope (scopeText scope) = some (visibleScope scope) := by
  revert scope
  apply forall_uint8
  decide +kernel

theorem scopeText_eq_iff
    {first second : UInt8}
    (firstValid : first = 0x80 ∨ first &&& 0x80 ≠ 0x80)
    (secondValid : second = 0x80 ∨ second &&& 0x80 ≠ 0x80)
    (firstNamed : ¬ UnnamedScope first)
    (secondNamed : ¬ UnnamedScope second) :
    snprintf 64 (scopeText first) = snprintf 64 (scopeText second) ↔
      visibleScope first = visibleScope second := by
  have short {scope : UInt8} : snprintf 64 (scopeText scope) =
      scopeText scope := by
    revert scope
    apply forall_uint8
    decide +kernel
  obtain ⟨firstText, firstName⟩ := scopeText_visible firstValid firstNamed
  obtain ⟨secondText, secondName⟩ :=
    scopeText_visible secondValid secondNamed
  rw [short, short]
  constructor
  · intro equal
    rw [equal, secondName] at firstName
    exact (Option.some.inj firstName).symm
  · intro equal
    rw [← firstText, ← secondText, equal]

theorem snprintf_percentH_group {group : List UInt8}
    (length : group.length = ecpointLen) :
    snprintf 64 (percentH group) =
      percentH (group.take 31) ++ [hexDigit (group.getD 31 0 / 16)] := by
  have split :
      group = group.take 31 ++ group.getD 31 0 :: group.drop 32 := by
    have inside : 31 < group.length := by
      rw [length]
      decide
    rw [List.getD_eq_getElem _ _ inside, ← List.drop_eq_getElem_cons inside,
      List.take_append_drop]
  have long : (percentH (group.take 31)).length = 62 := by
    rw [length_percentH, List.length_take, length]
    decide
  have digits :
      percentH group =
        percentH (group.take 31) ++
          hexDigit (group.getD 31 0 / 16) ::
            hexDigit (group.getD 31 0 % 16) :: percentH (group.drop 32) := by
    conv_lhs => rw [split]
    rw [percentH, List.flatMap_append]
    rfl
  rw [digits, snprintf, List.take_append, long]
  rw [List.take_of_length_le (by rw [long]; decide)]
  rfl

theorem snprintf_group_eq_iff
    {first second : List UInt8} (firstLength : first.length = ecpointLen)
    (secondLength : second.length = ecpointLen) :
    snprintf 64 (percentH first) = snprintf 64 (percentH second) ↔
      visibleGroup first = visibleGroup second := by
  rw [snprintf_percentH_group firstLength,
    snprintf_percentH_group secondLength, visibleGroup, visibleGroup]
  constructor
  · intro equal
    obtain ⟨bytes, digit⟩ := List.append_inj' equal rfl
    have half :=
      hexDigit_injective (halves_small _).1 (halves_small _).1
        (List.cons.inj digit).1
    rw [percentH_injective bytes, half]
  · intro equal
    obtain ⟨bytes, half⟩ := List.append_inj' equal rfl
    rw [bytes, (List.cons.inj half).1]

end Neo3App
