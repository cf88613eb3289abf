import Neo3App.Transaction.Deserialize

/-!
# What the sections of a transaction read and store

For every section of the parser: the layouts it reads, with the positions of
their slices, and what storing a layout does to the record.  The rules of
`Accepts` follow the parser section by section.
-/

namespace Neo3App

open Neo3App.Lib

/-- Slices of one length, one after the other. -/
def SlicesFormat (length : Nat) : Format (List Slice)
  | _, [], encoding => encoding = []
  | offset, slice :: rest, encoding =>
      ∃ head tail, encoding = head ++ tail ∧
        SliceFormat length offset slice head ∧
        SlicesFormat length (offset + head.length) rest tail

def writeSlices {τ : Type} (put : Nat → Ptr → τ → τ) :
    Nat → List Slice → τ → τ
  | _, [], store => store
  | j, slice :: rest, store =>
      writeSlices put (j + 1) rest (put j (some slice.position) store)

/-- A family of stores into the cells of a list. -/
structure CellWrites (put : Nat → Ptr → Transaction → Transaction) : Prop
    where
  overwrite : ∀ j value other tx,
    put j value (put j other tx) = put j value tx
  commute : ∀ {j k}, j ≠ k → ∀ value other tx,
    put j value (put k other tx) = put k other (put j value tx)

theorem writeSlices_comm
    {τ : Type} {change : τ → τ} {put : Nat → Ptr → τ → τ} (j : Nat)
    (commute : ∀ k, j ≤ k → ∀ value store,
      change (put k value store) = put k value (change store))
    (slices : List Slice) (store : τ) :
    change (writeSlices put j slices store) =
      writeSlices put j slices (change store) := by
  induction slices generalizing j store with
  | nil =>
      rfl
  | cons slice rest inductionHypothesis =>
      rw [writeSlices, writeSlices,
        inductionHypothesis (j + 1) fun k later =>
          commute k (Nat.le_of_succ_le later),
        commute j (Nat.le_refl j)]

theorem parseItems_accepts
    {put : Nat → Ptr → Transaction → Transaction}
    (cells : CellWrites put) {itemLen : Nat}
    (fits : itemLen < sizeModulus) (code : ParserStatus)
    (remaining j : Nat) :
    Accepts (parseItems itemLen put code remaining j)
      (fun offset slices encoding =>
        slices.length = remaining ∧
          SlicesFormat itemLen offset slices encoding)
      (fun _ => ()) (writeSlices put j) (fun _ _ => True)
      (fun _ => True) := by
  induction remaining generalizing j with
  | zero =>
      refine (Accepts.pure ()).reshape (fun _ => []) ?_ (fun _ => rfl)
        (fun _ _ => rfl)
      rintro offset (_ | ⟨slice, rest⟩) encoding
      · simp [SlicesFormat]
      · simp
  | succ remaining inductionHypothesis =>
      have sequence :
          Accepts (parseItems itemLen put code (remaining + 1) j)
            _ _ _ (fun _ _ => True) (fun _ => True) :=
        Accepts.sliceThen _ (fun _ _ _ => True) (fun _ => True)
          (cells.overwrite j) fits
          (fun _ => inductionHypothesis (j + 1))
          (fun _ _ => trivial) (fun _ _ => trivial)
          (fun slice rest tx =>
            writeSlices_comm (j + 1)
              (fun k later => cells.commute (Nat.ne_of_lt later) _) rest tx)
      refine sequence.reshape (fun layout => layout.1 :: layout.2) ?_
        (fun _ => rfl) (fun _ _ => rfl)
      rintro offset (_ | ⟨slice, rest⟩) encoding
      · simp
      · constructor
        · rintro ⟨long, head, tail, rfl, headFormat, tailFormat⟩
          exact ⟨(slice, rest), rfl, head, tail, rfl, headFormat,
            Nat.succ.inj long, tailFormat⟩
        · rintro ⟨⟨_, _⟩, equality, head, tail, rfl, headFormat, rfl,
            tailFormat⟩
          cases equality
          exact ⟨rfl, head, tail, rfl, headFormat, tailFormat⟩

/-- A counted list of at most two slices. -/
def SubItemsFormat (itemLen : Nat) : Format (List Slice) :=
  fun offset slices encoding =>
    slices.length ≤ maxSignerSubItems ∧
      ∃ count tail, encoding = count ++ tail ∧
        VarintFormat slices.length count ∧
        SlicesFormat itemLen (offset + count.length) slices tail

def writeSubItems (putSize : UInt8 → Transaction → Transaction)
    (put : Nat → Ptr → Transaction → Transaction) (slices : List Slice)
    (tx : Transaction) : Transaction :=
  writeSlices put 0 slices (putSize (UInt8.ofNat slices.length) tx)

private theorem length_gt_iff
    {length : UInt64} {count : Nat} (same : count = length.toNat) :
    length > UInt64.ofNat maxSignerSubItems ↔
      maxSignerSubItems < count := by
  rw [same, gt_iff_lt, UInt64.lt_iff_toNat_lt]
  rfl

theorem parseSubItems_accepts
    {putSize : UInt8 → Transaction → Transaction}
    {put : Nat → Ptr → Transaction → Transaction}
    (cells : CellWrites put)
    (sizeOverwrite : ∀ size other tx,
      putSize size (putSize other tx) = putSize size tx)
    (sizeCommute : ∀ size j value tx,
      putSize size (put j value tx) = put j value (putSize size tx))
    {itemLen : Nat} (fits : itemLen < sizeModulus)
    (lengthCode valueCode itemCode : ParserStatus) :
    Accepts
      (parseSubItems itemLen putSize put lengthCode valueCode itemCode)
      (SubItemsFormat itemLen) (fun _ => ()) (writeSubItems putSize put)
      (fun _ _ => True) (fun _ => True) := by
  have sequence :
      Accepts
        (parseSubItems itemLen putSize put lengthCode valueCode itemCode)
        _ _ _ (fun _ _ => True) (fun _ => True) :=
    Accepts.seq (Accepts.readLocal reads_varint lengthCode)
      (fun _ =>
        Accepts.andThen (Accepts.exitIf _ valueCode)
          (fun _ => Accepts.andThen
            (Accepts.assignField _ (sizeOverwrite _ _))
            (fun _ => parseItems_accepts cells fits itemCode _ 0)
            (writeSlices_comm 0 fun k _ => sizeCommute _ k))
          (fun _ _ => rfl))
      (fun _ _ _ => rfl)
  refine sequence.reshape Prod.snd ?_ (fun _ => rfl) ?_
  · intro offset slices encoding
    constructor
    · rintro ⟨small, count, tail, rfl, countFormat, tailFormat⟩
      have value : (UInt64.ofNat slices.length).toNat = slices.length := by
        simp only [maxSignerSubItems] at small
        simp only [UInt64.toNat_ofNat']
        omega
      refine ⟨(UInt64.ofNat slices.length, slices), rfl, count, tail, rfl,
        ?_, ?_, trivial, value.symm, tailFormat⟩
      · change VarintFormat (UInt64.ofNat slices.length).toNat count
        rwa [value]
      · rw [length_gt_iff value.symm]
        omega
    · rintro ⟨⟨length, _⟩, rfl, count, tail, rfl, countFormat, small, _,
        long, tailFormat⟩
      dsimp only at countFormat small long tailFormat ⊢
      rw [length_gt_iff long] at small
      exact ⟨by omega, count, tail, rfl, by rwa [long], tailFormat⟩
  · rintro offset ⟨length, slices⟩ encoding
      ⟨count, tail, rfl, countFormat, small, _, long, tailFormat⟩ tx
    dsimp only at long ⊢
    rw [writeSubItems, long, UInt8.ofNat_uInt64ToNat]

theorem Transaction.modifySigner_modifySigner
    (tx : Transaction) (i : Nat) (first second : Signer → Signer) :
    (tx.modifySigner i first).modifySigner i second =
      tx.modifySigner i (second ∘ first) := by
  simp only [Transaction.modifySigner, modifySlot_modifySlot]

theorem Transaction.modifySigner_comm
    (tx : Transaction) {i k : Nat} (different : i ≠ k)
    (first second : Signer → Signer) :
    (tx.modifySigner i first).modifySigner k second =
      (tx.modifySigner k second).modifySigner i first := by
  simp only [Transaction.modifySigner,
    modifySlot_comm tx.signers first second different]

theorem Transaction.modifySigner_id (tx : Transaction) (i : Nat) :
    tx.modifySigner i id = tx := by
  simp only [Transaction.modifySigner, modifySlot_id]

/-- The cells of an allowed list after storing slices from `j` on. -/
def storeSlices (j : Nat) (slices : List Slice)
    (cells : Vector Ptr maxSignerSubItems) : Vector Ptr maxSignerSubItems :=
  writeSlices (fun k value cells => modifySlot cells k fun _ => value)
    j slices cells

def Signer.onContracts
    (change : Vector Ptr maxSignerSubItems → Vector Ptr maxSignerSubItems)
    (signer : Signer) : Signer :=
  { signer with allowedContracts := change signer.allowedContracts }

def Signer.onGroups
    (change : Vector Ptr maxSignerSubItems → Vector Ptr maxSignerSubItems)
    (signer : Signer) : Signer :=
  { signer with allowedGroups := change signer.allowedGroups }

def writeContracts (slices : List Slice) (signer : Signer) : Signer :=
  { signer with
    allowedContracts := storeSlices 0 slices signer.allowedContracts
    allowedContractsSize := UInt8.ofNat slices.length }

def writeGroups (slices : List Slice) (signer : Signer) : Signer :=
  { signer with
    allowedGroups := storeSlices 0 slices signer.allowedGroups
    allowedGroupsSize := UInt8.ofNat slices.length }

/-- Storing slices into the cells of a field of signer `i`. -/
theorem writeSlices_modifySigner
    (i : Nat)
    (place : (Vector Ptr maxSignerSubItems → Vector Ptr maxSignerSubItems) →
      Signer → Signer)
    (place_id : place id = id)
    (place_comp : ∀ first second,
      place second ∘ place first = place (second ∘ first))
    (j : Nat) (slices : List Slice) (tx : Transaction) :
    writeSlices
        (fun k value tx =>
          tx.modifySigner i
            (place fun cells => modifySlot cells k fun _ => value))
        j slices tx =
      tx.modifySigner i (place (storeSlices j slices)) := by
  induction slices generalizing j tx with
  | nil =>
      have nothing : place (storeSlices j []) = id := place_id
      rw [nothing, Transaction.modifySigner_id]
      rfl
  | cons slice rest inductionHypothesis =>
      rw [writeSlices, inductionHypothesis,
        Transaction.modifySigner_modifySigner, place_comp]
      rfl

/-- A store into one cell of a field of signer `i`. -/
theorem cellWrites_modifySigner
    (i : Nat)
    (place : (Vector Ptr maxSignerSubItems → Vector Ptr maxSignerSubItems) →
      Signer → Signer)
    (place_comp : ∀ first second,
      place second ∘ place first = place (second ∘ first)) :
    CellWrites fun k value tx =>
      tx.modifySigner i
        (place fun cells => modifySlot cells k fun _ => value) where
  overwrite j value other tx := by
    rw [Transaction.modifySigner_modifySigner, place_comp]
    congr 2
    funext cells
    exact modifySlot_modifySlot cells j _ _
  commute := by
    intro j k different value other tx
    rw [Transaction.modifySigner_modifySigner,
      Transaction.modifySigner_modifySigner, place_comp, place_comp]
    congr 2
    funext cells
    exact modifySlot_comm cells _ _ different.symm

theorem parseAllowedContracts_accepts (i : Nat) :
    Accepts (parseAllowedContracts i) (SubItemsFormat uint160Len)
      (fun _ => ())
      (fun slices tx => tx.modifySigner i (writeContracts slices))
      (fun _ _ => True) (fun _ => True) := by
  have list :
      Accepts (parseAllowedContracts i) _ _ _ (fun _ _ => True)
        (fun _ => True) :=
    parseSubItems_accepts
      (cellWrites_modifySigner i Signer.onContracts fun _ _ => rfl)
      (fun size other tx => by
        rw [Transaction.modifySigner_modifySigner]
        rfl)
      (fun size j value tx => by
        rw [Transaction.modifySigner_modifySigner,
          Transaction.modifySigner_modifySigner]
        rfl)
      (by decide) _ _ _
  refine list.reshape id (by simp) (fun _ => rfl) ?_
  intro offset slices encoding _ tx
  rw [writeSubItems,
    writeSlices_modifySigner i Signer.onContracts rfl fun _ _ => rfl,
    Transaction.modifySigner_modifySigner]
  rfl

theorem parseAllowedGroups_accepts (i : Nat) :
    Accepts (parseAllowedGroups i) (SubItemsFormat ecpointLen)
      (fun _ => ())
      (fun slices tx => tx.modifySigner i (writeGroups slices))
      (fun _ _ => True) (fun _ => True) := by
  have list :
      Accepts (parseAllowedGroups i) _ _ _ (fun _ _ => True)
        (fun _ => True) :=
    parseSubItems_accepts
      (cellWrites_modifySigner i Signer.onGroups fun _ _ => rfl)
      (fun size other tx => by
        rw [Transaction.modifySigner_modifySigner]
        rfl)
      (fun size j value tx => by
        rw [Transaction.modifySigner_modifySigner,
          Transaction.modifySigner_modifySigner]
        rfl)
      (by decide) _ _ _
  refine list.reshape id (by simp) (fun _ => rfl) ?_
  intro offset slices encoding _ tx
  rw [writeSubItems,
    writeSlices_modifySigner i Signer.onGroups rfl fun _ _ => rfl,
    Transaction.modifySigner_modifySigner]
  rfl

/-! ## One signer -/

structure SignerLayout where
  account : Slice
  scope : UInt8
  contracts : Option (List Slice)
  groups : Option (List Slice)
  deriving DecidableEq, Repr

/-- A scope byte is the global scope or lacks its flag. -/
def ScopeAllowed (scope : UInt8) : Prop :=
  scope &&& scopeGlobal = scopeGlobal → scope = scopeGlobal

/-- A signer whose account is none of the `earlier` ones. -/
def SignerFormat (earlier : List (List UInt8)) : Format SignerLayout :=
  fun offset signer encoding =>
    ∃ contracts groups,
      encoding =
        signer.account.bytes ++ signer.scope :: (contracts ++ groups) ∧
      SliceFormat uint160Len offset signer.account signer.account.bytes ∧
      signer.account.bytes ∉ earlier ∧ ScopeAllowed signer.scope ∧
      Format.optional
        (signer.scope &&& scopeCustomContracts = scopeCustomContracts)
        (SubItemsFormat uint160Len) (offset + uint160Len + 1)
        signer.contracts contracts ∧
      Format.optional
        (signer.scope &&& scopeCustomGroups = scopeCustomGroups)
        (SubItemsFormat ecpointLen)
        (offset + uint160Len + 1 + contracts.length) signer.groups groups

def writeSigner (layout : SignerLayout) (signer : Signer) : Signer :=
  writeOptional writeGroups layout.groups
    (writeOptional writeContracts layout.contracts
      { signer with
        account := some layout.account.position
        scope := layout.scope })

def accountsBefore (i : Nat) (memory : List UInt8) (tx : Transaction) :
    List (List UInt8) :=
  (List.range i).map fun k =>
    deref memory uint160Len (slot tx.signers k).account

theorem take_deref (memory : List UInt8) (length : Nat) (position : Ptr) :
    (deref memory length position).take length =
      deref memory length position := by
  cases position <;> simp [deref, List.take_take]

theorem duplicateAccount_iff
    (sdk : Sdk) (i : Nat) (scan : Scan Transaction) :
    duplicateAccount sdk i scan = true ↔
      accountAt scan i ∈ accountsBefore i scan.buf.ptr scan.store := by
  simp [duplicateAccount, accountsBefore, accountAt, take_deref,
    sdk.secureMemcmp_eq_zero]

theorem writeOptional_modifySigner
    {ℓ : Type} (i : Nat) (write : ℓ → Signer → Signer) (layout : Option ℓ)
    (tx : Transaction) :
    writeOptional (fun part tx => tx.modifySigner i (write part)) layout tx =
      tx.modifySigner i (writeOptional write layout) := by
  cases layout with
  | none =>
      exact (Transaction.modifySigner_id tx i).symm
  | some part =>
      rfl

/-- Storing an account leaves the earlier ones alone. -/
theorem accountsBefore_modifySigner
    (i : Nat) (memory : List UInt8) (tx : Transaction)
    (change : Signer → Signer) :
    accountsBefore i memory (tx.modifySigner i change) =
      accountsBefore i memory tx := by
  refine List.map_congr_left fun k before => ?_
  rw [Transaction.modifySigner,
    slot_modifySlot_of_ne _ _ (Nat.ne_of_lt (List.mem_range.mp before))]

theorem parseSigner_accepts
    (sdk : Sdk) {i : Nat} (inside : i < maxTxSigners)
    (earlier : List (List UInt8)) :
    Accepts (parseSigner sdk i) (SignerFormat earlier) (fun _ => ())
      (fun layout tx => tx.modifySigner i (writeSigner layout))
      (fun memory tx => accountsBefore i memory tx = earlier)
      (fun _ => True) := by
  have sequence :
      Accepts (parseSigner sdk i) _ _ _
        (fun memory tx => accountsBefore i memory tx = earlier)
        (fun _ => True) :=
    Accepts.sliceThen _
      (fun slice memory tx =>
        accountsBefore i memory tx = earlier ∧
          deref memory uint160Len (slot tx.signers i).account =
            slice.bytes)
      (fun _ => True)
      (by
        intro value other tx
        rw [Transaction.modifySigner_modifySigner]
        rfl)
      (by decide)
      (fun slice =>
        Accepts.andThen
          (Accepts.exitWhen (slice.bytes ∈ earlier) _
            (fun scan isKnown => by
              rw [duplicateAccount_iff, accountAt, isKnown.1, isKnown.2]))
          (fun _ => Accepts.seq (Accepts.readLocal reads_u8 _)
            (fun scope =>
              Accepts.andThen
                (Accepts.assignField _ (fun tx => by
                  rw [Transaction.modifySigner_modifySigner]
                  rfl))
                (fun _ => Accepts.andThen (Accepts.exitIf _ _)
                  (fun _ => Accepts.seq
                    (Accepts.optional _ (parseAllowedContracts_accepts i))
                    (fun _ =>
                      Accepts.optional _ (parseAllowedGroups_accepts i))
                    (fun contracts groups tx => by
                      simp only [writeOptional_modifySigner,
                        Transaction.modifySigner_modifySigner]
                      congr 1
                      cases contracts <;> cases groups <;> rfl))
                  (fun _ _ => rfl))
                (fun layout tx => by
                  simp only [writeOptional_modifySigner,
                    Transaction.modifySigner_modifySigner]
                  congr 1
                  rcases layout with ⟨_ | _, _ | _⟩ <;> rfl))
            (fun _ _ _ => rfl))
          (fun _ _ => rfl))
      (fun {memory tx slice} isKnown sees => by
        refine ⟨(accountsBefore_modifySigner i memory tx _).trans isKnown, ?_⟩
        rw [Transaction.modifySigner, slot_modifySlot_self _ _ inside]
        exact sees)
      (fun _ _ => trivial)
      (fun slice layout tx => by
        simp only [writeOptional_modifySigner,
          Transaction.modifySigner_modifySigner]
        congr 1
        rcases layout with ⟨_, _ | _, _ | _⟩ <;> rfl)
  refine
    sequence.reshape
      (fun layout => ⟨layout.1, layout.2.1, layout.2.2.1, layout.2.2.2⟩)
      ?_ (fun _ => rfl) ?_
  · rintro offset ⟨account, scope, contracts, groups⟩ encoding
    constructor
    · rintro ⟨contractsText, groupsText, rfl, accountFormat, isNew, isAllowed,
        contractsFormat, groupsFormat⟩
      refine ⟨(account, scope, contracts, groups), rfl, account.bytes,
        scope :: (contractsText ++ groupsText), rfl, accountFormat, isNew,
        [scope], contractsText ++ groupsText, rfl, rfl, trivial, ?_,
        contractsText, groupsText, rfl, ?_, ?_⟩
      · exact fun refused => refused.2 (isAllowed refused.1)
      · rw [accountFormat.2.2]
        exact contractsFormat
      · rw [accountFormat.2.2]
        exact groupsFormat
    · rintro ⟨⟨_, _, _, _⟩, equality, _, _, rfl, accountFormat, isNew, _, _,
        rfl, rfl, _, isAllowed, contractsText, groupsText, rfl,
        contractsFormat, groupsFormat⟩
      cases equality
      obtain ⟨isHere, rfl, long⟩ := accountFormat
      rw [long] at contractsFormat groupsFormat
      refine ⟨contractsText, groupsText, rfl, ⟨isHere, rfl, long⟩, isNew, ?_,
        contractsFormat, groupsFormat⟩
      exact fun isGlobal => by_contra fun other => isAllowed ⟨isGlobal, other⟩
  · rintro offset ⟨account, scope, contracts, groups⟩ encoding _ tx
    simp only [writeOptional_modifySigner,
      Transaction.modifySigner_modifySigner]
    congr 1

/-- Signers in a row, with pairwise different accounts. -/
def SignersFormat : List (List UInt8) → Format (List SignerLayout)
  | _, _, [], encoding => encoding = []
  | earlier, offset, signer :: rest, encoding =>
      ∃ head tail, encoding = head ++ tail ∧
        SignerFormat earlier offset signer head ∧
        SignersFormat (earlier ++ [signer.account.bytes])
          (offset + head.length) rest tail

def writeSignersFrom :
    Nat → List SignerLayout → Transaction → Transaction
  | _, [], tx => tx
  | i, signer :: rest, tx =>
      writeSignersFrom (i + 1) rest (tx.modifySigner i (writeSigner signer))

theorem writeSignersFrom_comm
    (change : Transaction → Transaction) (i : Nat)
    (commute : ∀ k, i ≤ k → ∀ store tx,
      change (tx.modifySigner k store) = (change tx).modifySigner k store)
    (signers : List SignerLayout) (tx : Transaction) :
    change (writeSignersFrom i signers tx) =
      writeSignersFrom i signers (change tx) := by
  induction signers generalizing i tx with
  | nil =>
      rfl
  | cons signer rest inductionHypothesis =>
      rw [writeSignersFrom, writeSignersFrom,
        inductionHypothesis (i + 1) fun k later =>
          commute k (Nat.le_of_succ_le later),
        commute i (Nat.le_refl i)]

/-- After signer `i` its account is known too. -/
theorem accountsBefore_succ
    {i : Nat} (inside : i < maxTxSigners) {earlier : List (List UInt8)}
    {memory encoding : List UInt8} {offset : Nat} {signer : SignerLayout}
    {tx : Transaction}
    (isKnown : accountsBefore i memory tx = earlier)
    (format : SignerFormat earlier offset signer encoding)
    (isPrefix : encoding <+: memory.drop offset) :
    accountsBefore (i + 1) memory (tx.modifySigner i (writeSigner signer)) =
      earlier ++ [signer.account.bytes] := by
  obtain ⟨contracts, groups, rfl, accountFormat, _⟩ := format
  have account : (writeSigner signer (slot tx.signers i)).account =
      some signer.account.position := by
    rcases signer with ⟨_, _, _ | _, _ | _⟩ <;> rfl
  have seen :=
    accountFormat.deref_eq ((List.prefix_append _ _).trans isPrefix)
  have unchanged :=
    accountsBefore_modifySigner i memory tx (writeSigner signer)
  rw [isKnown] at unchanged
  rw [← unchanged]
  simp only [accountsBefore, List.range_succ, List.map_append,
    List.map_cons, List.map_nil]
  rw [Transaction.modifySigner, slot_modifySlot_self _ _ inside, account,
    seen]

theorem parseSignersFrom_accepts
    (sdk : Sdk) {remaining i : Nat} (inside : i + remaining ≤ maxTxSigners)
    (earlier : List (List UInt8)) :
    Accepts (parseSignersFrom sdk remaining i)
      (fun offset signers encoding =>
        signers.length = remaining ∧
          SignersFormat earlier offset signers encoding)
      (fun _ => ()) (writeSignersFrom i)
      (fun memory tx => accountsBefore i memory tx = earlier)
      (fun _ => True) := by
  induction remaining generalizing i earlier with
  | zero =>
      refine (Accepts.pure ()).reshape (fun _ => []) ?_ (fun _ => rfl)
        (fun _ _ => rfl)
      rintro offset (_ | ⟨signer, rest⟩) encoding
      · simp [SignersFormat]
      · simp
  | succ remaining inductionHypothesis =>
      have here : i < maxTxSigners := by omega
      have sequence :
          Accepts (parseSignersFrom sdk (remaining + 1) i) _ _ _
            (fun memory tx => accountsBefore i memory tx = earlier)
            (fun _ => True) :=
        Accepts.bind _
          (fun signer memory tx =>
            accountsBefore (i + 1) memory tx =
              earlier ++ [signer.account.bytes])
          (fun _ => True) (parseSigner_accepts sdk here earlier)
          (fun {signer _ _} _ =>
            inductionHypothesis (by omega)
              (earlier ++ [signer.account.bytes]))
          (fun isKnown format isPrefix =>
            accountsBefore_succ here isKnown format isPrefix)
          (fun _ _ => trivial)
          (fun signer rest tx =>
            writeSignersFrom_comm
              (fun tx => tx.modifySigner i (writeSigner signer)) (i + 1)
              (fun k later store tx =>
                tx.modifySigner_comm (Nat.ne_of_gt later) store _) rest tx)
      refine sequence.reshape (fun layout => layout.1 :: layout.2) ?_
        (fun _ => rfl) (fun _ _ => rfl)
      rintro offset (_ | ⟨signer, rest⟩) encoding
      · simp
      · constructor
        · rintro ⟨long, head, tail, rfl, headFormat, tailFormat⟩
          exact ⟨(signer, rest), rfl, head, tail, rfl, headFormat,
            Nat.succ.inj long, tailFormat⟩
        · rintro ⟨⟨_, _⟩, equality, head, tail, rfl, headFormat, rfl,
            tailFormat⟩
          cases equality
          exact ⟨rfl, head, tail, rfl, headFormat, tailFormat⟩

def SignerListFormat : Format (List SignerLayout) :=
  fun offset signers encoding =>
    minTxSigners ≤ signers.length ∧ signers.length ≤ maxTxSigners ∧
      ∃ count tail, encoding = count ++ tail ∧
        VarintFormat signers.length count ∧
        SignersFormat [] (offset + count.length) signers tail

def writeSigners (signers : List SignerLayout) (tx : Transaction) :
    Transaction :=
  writeSignersFrom 0 signers
    { tx with signersSize := UInt8.ofNat signers.length }

private theorem signersSize_bounds
    {length : UInt64}
    (isAllowed : ¬ (length < UInt64.ofNat minTxSigners ∨
      length > UInt64.ofNat maxTxSigners)) :
    length.toUInt8.toNat = length.toNat ∧
      minTxSigners ≤ length.toUInt8.toNat ∧
      length.toUInt8.toNat ≤ maxTxSigners := by
  have bounds : ¬ (length.toNat < 1 ∨ 2 < length.toNat) := isAllowed
  have truncated : length.toUInt8.toNat = length.toNat % 2 ^ 8 :=
    UInt64.toNat_toUInt8 length
  simp only [minTxSigners, maxTxSigners]
  omega

theorem parseSigners_accepts (sdk : Sdk) :
    Accepts (parseSigners sdk) SignerListFormat (fun _ => ()) writeSigners
      (fun _ _ => True) (fun _ => True) := by
  have sequence :
      Accepts (parseSigners sdk) _ _ _ (fun _ _ => True) (fun _ => True) :=
    Accepts.seq (Accepts.readLocal reads_varint _)
      (fun length =>
        Accepts.andThen (Accepts.exitIf _ _)
          (fun isAllowed =>
            Accepts.andThen (Accepts.assignField _ (fun _ => rfl))
              (fun _ =>
                (parseSignersFrom_accepts sdk
                  (by
                    rw [Nat.zero_add]
                    exact (signersSize_bounds isAllowed).2.2) []).mono
                  (fun _ => rfl) (fun _ => trivial))
              (writeSignersFrom_comm
                (fun tx => { tx with signersSize := length.toUInt8 }) 0
                (fun _ _ _ _ => rfl)))
          (fun _ _ => rfl))
      (fun _ _ _ => rfl)
  refine sequence.reshape Prod.snd ?_ (fun _ => rfl) ?_
  · intro offset signers encoding
    constructor
    · rintro ⟨some, few, count, tail, rfl, countFormat, tailFormat⟩
      simp only [minTxSigners, maxTxSigners] at some few
      have value : (UInt64.ofNat signers.length).toNat = signers.length := by
        simp only [UInt64.toNat_ofNat']
        omega
      have isAllowed : ¬ (UInt64.ofNat signers.length < 1 ∨
          UInt64.ofNat signers.length > 2) := by
        simp only [gt_iff_lt, UInt64.lt_iff_toNat_lt, value,
          UInt64.reduceToNat]
        omega
      refine ⟨(UInt64.ofNat signers.length, signers), rfl, count, tail, rfl,
        ?_, isAllowed, trivial, ?_, tailFormat⟩
      · change VarintFormat (UInt64.ofNat signers.length).toNat count
        rwa [value]
      · exact value.symm.trans (signersSize_bounds isAllowed).1.symm
    · rintro ⟨⟨length, _⟩, rfl, count, tail, rfl, countFormat, isAllowed, _,
        long, tailFormat⟩
      dsimp only at countFormat isAllowed long tailFormat ⊢
      obtain ⟨value, some, few⟩ := signersSize_bounds isAllowed
      rw [← long] at value some few
      exact ⟨some, few, count, tail, rfl, by rwa [value], tailFormat⟩
  · rintro offset ⟨length, signers⟩ encoding
      ⟨count, tail, rfl, countFormat, isAllowed, _, long, tailFormat⟩ tx
    dsimp only at isAllowed long ⊢
    rw [writeSigners, long, UInt8.ofNat_toNat]

/-! ## The fields before the signers -/

structure HeaderLayout where
  nonce : UInt32
  systemFee : Int64
  networkFee : Int64
  validUntilBlock : UInt32
  deriving DecidableEq, Repr

def HeaderFormat : Format HeaderLayout :=
  fun _ header encoding =>
    0 ≤ header.systemFee ∧ 0 ≤ header.networkFee ∧
      encoding =
        [0] ++ (leBytes 4 header.nonce.toNat ++
          (leBytes 8 header.systemFee.toUInt64.toNat ++
            (leBytes 8 header.networkFee.toUInt64.toNat ++
              leBytes 4 header.validUntilBlock.toNat)))

def writeHeader (header : HeaderLayout) (tx : Transaction) : Transaction :=
  { tx with
    version := 0
    nonce := header.nonce
    systemFee := header.systemFee
    networkFee := header.networkFee
    validUntilBlock := header.validUntilBlock }

theorem parseHeader_accepts :
    Accepts parseHeader HeaderFormat (fun _ => ()) writeHeader
      (fun _ _ => True) (fun _ => True) := by
  have sequence :
      Accepts parseHeader _ _ _ (fun _ _ => True) (fun _ => True) :=
    Accepts.seq (Accepts.readField reads_u8 _ _ (fun _ _ _ => rfl))
      (fun _ => Accepts.andThen (Accepts.exitIf _ _)
        (fun _ => Accepts.seq
          (Accepts.readField reads_u32_le _ _ (fun _ _ _ => rfl))
          (fun _ => Accepts.seq
            (Accepts.readField reads_s64_le _ _ (fun _ _ _ => rfl))
            (fun _ => Accepts.andThen (Accepts.exitIf _ _)
              (fun _ => Accepts.seq
                (Accepts.readField reads_s64_le _ _ (fun _ _ _ => rfl))
                (fun _ => Accepts.andThen (Accepts.exitIf _ _)
                  (fun _ => Accepts.thenPure
                    (Accepts.readField reads_u32_le _ _
                      (by intros; rfl)) ())
                  (fun _ _ => rfl))
                (fun _ _ _ => rfl))
              (fun _ _ => rfl))
            (fun _ _ _ => rfl))
          (fun _ _ _ => rfl))
        (fun _ _ => rfl))
      (fun _ _ _ => rfl)
  refine
    sequence.reshape
      (fun layout =>
        ⟨layout.2.1, layout.2.2.1, layout.2.2.2.1, layout.2.2.2.2⟩)
      ?_ (fun _ => rfl) ?_
  · rintro offset ⟨nonce, systemFee, networkFee, validUntilBlock⟩ encoding
    constructor
    · rintro ⟨systemFeeValue, networkFeeValue, rfl⟩
      exact ⟨(0, nonce, systemFee, networkFee, validUntilBlock), rfl, [0], _,
        rfl, rfl, UInt8.lt_irrefl 0, leBytes 4 nonce.toNat, _, rfl, rfl,
        leBytes 8 systemFee.toUInt64.toNat, _, rfl, rfl,
        Int64.not_lt.mpr systemFeeValue,
        leBytes 8 networkFee.toUInt64.toNat, _, rfl, rfl,
        Int64.not_lt.mpr networkFeeValue, rfl⟩
    · rintro ⟨⟨version, _, _, _, _⟩, equality, _, _, rfl, rfl, versionValue,
        _, _, rfl, rfl, _, _, rfl, rfl, systemFeeValue, _, _, rfl, rfl,
        networkFeeValue, rfl⟩
      cases equality
      have isZero : version = 0 :=
        UInt8.le_zero_iff.mp (UInt8.not_lt.mp versionValue)
      subst isZero
      exact ⟨Int64.not_lt.mp systemFeeValue, Int64.not_lt.mp networkFeeValue,
        rfl⟩
  · rintro offset ⟨version, nonce, systemFee, networkFee, validUntilBlock⟩
      encoding ⟨_, _, _, _, versionValue, _⟩ tx
    have isZero : version = 0 :=
      UInt8.le_zero_iff.mp (UInt8.not_lt.mp versionValue)
    subst isZero
    rfl

/-- At most one attribute, of the only supported type. -/
def AttributesFormat : Format Nat :=
  fun _ number encoding =>
    number ≤ 1 ∧ ∃ count, VarintFormat number count ∧
      encoding = count ++ List.replicate number highPriority

/-- No cell already holds the supported type. -/
def AttributesClear (tx : Transaction) : Prop :=
  ∀ j, slot tx.attributes j ≠ highPriority

def storeAttribute (i : Nat) (tx : Transaction) : Transaction :=
  { tx with attributes := modifySlot tx.attributes i fun _ => highPriority }

def writeAttributes (number : Nat) (tx : Transaction) : Transaction :=
  let tx := { tx with attributesSize := UInt8.ofNat number }
  if number = 1 then storeAttribute 0 tx else tx

theorem duplicateAttribute_iff (type : UInt8) (scan : Scan Transaction) :
    duplicateAttribute type scan = true ↔
      ∃ j < scan.store.attributesSize.toNat,
        slot scan.store.attributes j = type := by
  simp [duplicateAttribute]

/-- One turn of the loop that does not leave. -/
theorem parseAttributesFrom_succ_ok
    {remaining i : Nat} {scan final : Scan Transaction} {result : Unit}
    (run : parseAttributesFrom (remaining + 1) i scan = (.ok result, final)) :
    ∃ buf, parseAttributesFrom remaining (i + 1)
          ⟨buf, storeAttribute i scan.store⟩ = (.ok result, final) ∧
        ¬ ∃ j < scan.store.attributesSize.toNat,
          slot scan.store.attributes j = highPriority := by
  obtain ⟨type, _, readType, checks⟩ := EarlyExit.bind_eq_ok_iff.mp run
  obtain ⟨_, _, supported, search⟩ := EarlyExit.bind_eq_ok_iff.mp checks
  obtain ⟨_, middle, notDuplicate, next⟩ :=
    EarlyExit.bind_eq_ok_iff.mp search
  obtain ⟨isSupported, rfl⟩ := EarlyExit.exitIf_eq_ok_iff.mp supported
  obtain ⟨isNew, rfl⟩ := EarlyExit.exitWhen_eq_ok_iff.mp notDuplicate
  have sameType : type = highPriority := Decidable.not_not.mp isSupported
  subst sameType
  have sameStore : middle.store = scan.store := by
    rw [← readLocal_store bufferReadU8 ParserStatus.attributesUnsupportedType
      scan, readType]
  rw [← sameStore, ← duplicateAttribute_iff]
  exact ⟨middle.buf, next, Bool.eq_false_iff.mp isNew⟩

/-- What the loop over `number` attributes reads. -/
theorem parseAttributesFrom_accepts {number : Nat} (few : number ≤ 2) :
    Accepts (parseAttributesFrom number 0)
      (fun _ (_ : Unit) encoding =>
        number ≤ 1 ∧ encoding = List.replicate number highPriority)
      (fun _ => ())
      (fun _ tx => if number = 1 then storeAttribute 0 tx else tx)
      (fun _ tx => tx.attributesSize.toNat = number) AttributesClear := by
  match number, few with
  | 0, _ =>
      refine (Accepts.pure ()).reshape id ?_ (fun _ => rfl) (fun _ _ => rfl)
      intro offset _ encoding
      simp
  | 1, _ =>
      have sequence :
          Accepts (parseAttributesFrom 1 0) _ _ _
            (fun _ tx => tx.attributesSize.toNat = 1) AttributesClear :=
        Accepts.bind _ (fun _ _ _ => True) AttributesClear
          (Accepts.readLocal reads_u8 _)
          (fun _ =>
            Accepts.stepThen (fun _ _ => True) AttributesClear
              (Accepts.exitIf _ _)
              (fun isSupported =>
                Accepts.andThen
                  (Accepts.exitUnlessReady _ fun scan isClear => by
                    rw [Bool.eq_false_iff, ne_eq, duplicateAttribute_iff]
                    rintro ⟨j, _, isThere⟩
                    rw [Decidable.not_not.mp isSupported] at isThere
                    exact isClear j isThere)
                  (fun _ =>
                    Accepts.thenPure
                      (Accepts.assignField _ fun tx => by
                        simp only [modifySlot_modifySlot]
                        rfl) ())
                  (by intros; rfl))
              (fun _ => trivial) (fun isClear => isClear)
              (by intros; rfl))
          (fun _ _ _ => trivial) (fun _ isClear => isClear)
          (by intros; rfl)
      refine sequence.reshape (fun _ => ()) ?_ (fun _ => rfl) ?_
      · intro offset _ encoding
        constructor
        · rintro ⟨_, rfl⟩
          exact ⟨(highPriority, ()), rfl, [highPriority], [], rfl, rfl,
            fun other => other rfl, trivial, rfl, trivial⟩
        · rintro ⟨⟨type, _⟩, _, _, _, rfl, rfl, isSupported, _, rfl, _⟩
          have sameType : type = highPriority :=
            Decidable.not_not.mp isSupported
          subst sameType
          exact ⟨Nat.le_refl 1, rfl⟩
      · rintro offset ⟨type, _⟩ encoding ⟨_, _, _, _, isSupported, _⟩ tx
        have sameType : type = highPriority :=
          Decidable.not_not.mp isSupported
        subst sameType
        rfl
  | 2, _ =>
      refine Accepts.never ?_ (fun isFormat => absurd isFormat.1 (by decide))
      intro scan final result isTwo run
      obtain ⟨buf, next, _⟩ := parseAttributesFrom_succ_ok run
      obtain ⟨_, _, isNew⟩ := parseAttributesFrom_succ_ok next
      refine isNew ⟨0, ?_, ?_⟩
      · change 0 < scan.store.attributesSize.toNat
        rw [isTwo]
        exact Nat.two_pos
      · exact slot_modifySlot_self _ _ Nat.two_pos

private theorem attributesSize_bounds
    {length : UInt64}
    (isAllowed : ¬ (length > UInt64.ofNat maxAttributes ∨ length > 2)) :
    length.toUInt8.toNat = length.toNat ∧ length.toUInt8.toNat ≤ 2 := by
  have bounds : ¬ (2 < length.toNat ∨ 2 < length.toNat) := isAllowed
  have truncated : length.toUInt8.toNat = length.toNat % 2 ^ 8 :=
    UInt64.toNat_toUInt8 length
  omega

theorem parseAttributes_accepts :
    Accepts parseAttributes AttributesFormat (fun _ => ()) writeAttributes
      (fun _ _ => True) AttributesClear := by
  have sequence :
      Accepts parseAttributes _ _ _ (fun _ _ => True) AttributesClear :=
    Accepts.bind _ (fun _ _ _ => True) AttributesClear
      (Accepts.readLocal reads_varint _)
      (fun {length _ _} _ =>
        Accepts.stepThen (fun _ _ => True) AttributesClear
          (Accepts.exitIf _ _)
          (fun isAllowed =>
            Accepts.stepThen
              (fun _ tx =>
                tx.attributesSize.toNat = length.toUInt8.toNat)
              AttributesClear (Accepts.assignField _ fun _ => rfl)
              (fun _ =>
                parseAttributesFrom_accepts
                  (attributesSize_bounds isAllowed).2)
              (fun _ => rfl) (fun isClear => isClear)
              (fun _ tx => by
                split <;> rfl))
          (fun _ => trivial) (fun isClear => isClear) (by intros; rfl))
      (fun _ _ _ => trivial) (fun _ isClear => isClear) (by intros; rfl)
  refine sequence.reshape (fun layout => layout.1.toNat) ?_ (fun _ => rfl) ?_
  · intro offset number encoding
    constructor
    · rintro ⟨few, count, countFormat, rfl⟩
      have value : (UInt64.ofNat number).toNat = number := by
        simp only [UInt64.toNat_ofNat']
        omega
      have isAllowed : ¬ (UInt64.ofNat number > UInt64.ofNat maxAttributes ∨
          UInt64.ofNat number > 2) := by
        simp only [gt_iff_lt, UInt64.lt_iff_toNat_lt, value, maxAttributes,
          UInt64.reduceToNat, UInt64.reduceOfNat]
        omega
      have size := (attributesSize_bounds isAllowed).1
      rw [value] at size
      refine ⟨(UInt64.ofNat number, ()), value, count, _, rfl, ?_, isAllowed,
        trivial, ?_, ?_⟩
      · change VarintFormat (UInt64.ofNat number).toNat count
        rwa [value]
      · rwa [size]
      · rw [size]
    · rintro ⟨⟨length, _⟩, rfl, count, _, rfl, countFormat, isAllowed, _,
        few, rfl⟩
      dsimp only at countFormat isAllowed few ⊢
      rw [(attributesSize_bounds isAllowed).1] at few ⊢
      exact ⟨few, count, countFormat, rfl⟩
  · rintro offset ⟨length, _⟩ encoding ⟨_, _, _, _, isAllowed, _⟩ tx
    dsimp only at isAllowed ⊢
    rw [writeAttributes, (attributesSize_bounds isAllowed).1,
      UInt8.ofNat_uInt64ToNat]

def ScriptFormat : Format Slice :=
  fun offset script encoding =>
    1 ≤ script.bytes.length ∧ script.bytes.length ≤ 0xFFFF ∧
      ∃ count, VarintFormat script.bytes.length count ∧
        encoding = count ++ script.bytes ∧
        script.position = offset + count.length

def writeScript (script : Slice) (tx : Transaction) : Transaction :=
  { tx with
    script := some script.position
    scriptSize := UInt16.ofNat script.bytes.length }

private theorem scriptSize_bounds
    {length : UInt64} (isAllowed : ¬ (length > 0xFFFF ∨ length = 0)) :
    1 ≤ length.toNat ∧ length.toNat ≤ 0xFFFF := by
  rw [← UInt64.toNat_inj] at isAllowed
  have bounds : ¬ (0xFFFF < length.toNat ∨ length.toNat = 0) := isAllowed
  omega

private theorem scriptSize_mod
    {length : UInt64} (isAllowed : ¬ (length > 0xFFFF ∨ length = 0)) :
    length.toNat % sizeModulus = length.toNat := by
  have bounds := scriptSize_bounds isAllowed
  exact Nat.mod_eq_of_lt (by unfold sizeModulus; omega)

theorem parseScript_accepts :
    Accepts parseScript ScriptFormat (fun _ => ()) writeScript
      (fun _ _ => True) (fun _ => True) := by
  have sequence :
      Accepts parseScript _ _ _ (fun _ _ => True) (fun _ => True) :=
    Accepts.seq (Accepts.readLocal reads_varint _)
      (fun length =>
        Accepts.seq (Accepts.markField _ fun _ _ _ => rfl)
          (fun _ =>
            Accepts.andThen (Accepts.exitIf _ _)
              (fun _ =>
                Accepts.seq
                  (Accepts.seekCur
                    (Nat.mod_lt length.toNat (by decide)) _)
                  (fun _ => Accepts.assignField _ fun _ => rfl)
                  (by intros; rfl))
              (by intros; rfl))
          (by intros; rfl))
      (by intros; rfl)
  refine sequence.reshape (fun layout => ⟨layout.2.1, layout.2.2.1⟩) ?_
    (fun _ => rfl) ?_
  · rintro offset ⟨position, bytes⟩ encoding
    constructor
    · rintro ⟨some, few, count, countFormat, rfl, here⟩
      dsimp only at some few countFormat here ⊢
      have value : (UInt64.ofNat bytes.length).toNat = bytes.length := by
        simp only [UInt64.toNat_ofNat']
        omega
      have isAllowed : ¬ (UInt64.ofNat bytes.length > 0xFFFF ∨
          UInt64.ofNat bytes.length = 0) := by
        rw [← UInt64.toNat_inj, gt_iff_lt, UInt64.lt_iff_toNat_lt, value]
        simp only [UInt64.reduceToNat]
        omega
      have long :
          bytes.length =
            (UInt64.ofNat bytes.length).toNat % sizeModulus := by
        rw [value, Nat.mod_eq_of_lt (by unfold sizeModulus; omega)]
      refine ⟨(UInt64.ofNat bytes.length, position, bytes, ()), rfl, count,
        bytes, rfl, ?_, [], bytes, rfl, ⟨rfl, here⟩, isAllowed, bytes, [],
        (List.append_nil bytes).symm, ⟨rfl, long⟩, rfl, trivial⟩
      change VarintFormat (UInt64.ofNat bytes.length).toNat count
      rwa [value]
    · rintro ⟨⟨length, _, _, _⟩, equality, count, _, rfl, countFormat, _, _,
        rfl, ⟨rfl, here⟩, isAllowed, _, _, rfl, ⟨rfl, long⟩, rfl, _⟩
      cases equality
      dsimp only at countFormat here isAllowed long ⊢
      rw [scriptSize_mod isAllowed] at long
      have bounds := scriptSize_bounds isAllowed
      rw [← long] at bounds
      refine ⟨bounds.1, bounds.2, count, by rwa [long], ?_, here⟩
      rw [List.nil_append, List.append_nil]
  · rintro offset ⟨length, position, bytes, _⟩ encoding
      ⟨_, _, _, _, _, _, _, _, isAllowed, _, _, _, ⟨_, long⟩, _⟩ tx
    dsimp only at isAllowed long ⊢
    rw [scriptSize_mod isAllowed] at long
    rw [writeScript, long, UInt16.ofNat_uInt64ToNat]

/-! ## The whole transaction -/

structure TransactionLayout where
  header : HeaderLayout
  signers : List SignerLayout
  attributes : Nat
  script : Slice
  deriving DecidableEq, Repr

def FieldsFormat : Format TransactionLayout :=
  fun offset layout encoding =>
    ∃ header signers attributes script,
      encoding = header ++ (signers ++ (attributes ++ script)) ∧
      HeaderFormat offset layout.header header ∧
      SignerListFormat (offset + header.length) layout.signers signers ∧
      AttributesFormat (offset + header.length + signers.length)
        layout.attributes attributes ∧
      ScriptFormat
        (offset + header.length + signers.length + attributes.length)
        layout.script script

def writeFields (layout : TransactionLayout) (tx : Transaction) :
    Transaction :=
  writeScript layout.script
    (writeAttributes layout.attributes
      (writeSigners layout.signers (writeHeader layout.header tx)))

theorem writeSigners_comm
    (change : Transaction → Transaction)
    (commute : ∀ k store tx,
      change (tx.modifySigner k store) = (change tx).modifySigner k store)
    (sizeCommute : ∀ size tx,
      change { tx with signersSize := size } =
        { change tx with signersSize := size })
    (signers : List SignerLayout) (tx : Transaction) :
    change (writeSigners signers tx) = writeSigners signers (change tx) := by
  rw [writeSigners, writeSigners,
    writeSignersFrom_comm change 0 fun k _ => commute k, sizeCommute]

/-- Storing signers leaves the attributes alone. -/
theorem attributes_writeSigners
    (signers : List SignerLayout) (tx : Transaction) :
    (writeSigners signers tx).attributes = tx.attributes := by
  have general : ∀ i tx,
      (writeSignersFrom i signers tx).attributes = tx.attributes := by
    induction signers with
    | nil =>
        intro i tx
        rfl
    | cons signer rest inductionHypothesis =>
        intro i tx
        rw [writeSignersFrom, inductionHypothesis]
        rfl
  rw [writeSigners, general]

theorem parseFields_accepts (sdk : Sdk) :
    Accepts (parseFields sdk) FieldsFormat (fun _ => ()) writeFields
      (fun _ _ => True) AttributesClear := by
  have sequence :
      Accepts (parseFields sdk) _ _ _ (fun _ _ => True) AttributesClear :=
    Accepts.bind _ (fun _ _ _ => True) AttributesClear
      (parseHeader_accepts.mono (fun _ => trivial) (fun _ => trivial))
      (fun _ =>
        Accepts.bind _ (fun _ _ _ => True) AttributesClear
          ((parseSigners_accepts sdk).mono (fun _ => trivial)
            (fun _ => trivial))
          (fun _ =>
            Accepts.seq parseAttributes_accepts
              (fun _ => parseScript_accepts)
              (fun number script tx => by
                unfold writeAttributes
                split <;> rfl))
          (fun _ _ _ => trivial)
          (fun signers isClear j => by
            rw [attributes_writeSigners]
            exact isClear j)
          (fun signers rest tx => by
            refine
              (writeSigners_comm
                (fun tx => writeScript rest.2 (writeAttributes rest.1 tx))
                ?_ ?_ signers tx).symm
            · intro k store tx
              unfold writeAttributes
              split <;> rfl
            · intro size tx
              unfold writeAttributes
              split <;> rfl))
      (fun _ _ _ => trivial) (fun _ isClear => isClear)
      (fun header rest tx => by
        rw [← writeSigners_comm (writeHeader header) (fun _ _ _ => rfl)
          (fun _ _ => rfl)]
        unfold writeAttributes
        split <;> rfl)
  refine
    sequence.reshape
      (fun layout =>
        ⟨layout.1, layout.2.1, layout.2.2.1, layout.2.2.2⟩)
      ?_ (fun _ => rfl) (fun _ _ => rfl)
  rintro offset ⟨header, signers, attributes, script⟩ encoding
  constructor
  · rintro ⟨headerText, signersText, attributesText, scriptText, rfl,
      headerFormat, signersFormat, attributesFormat, scriptFormat⟩
    exact ⟨(header, signers, attributes, script), rfl, headerText, _, rfl,
      headerFormat, signersText, _, rfl, signersFormat, attributesText,
      scriptText, rfl, attributesFormat, scriptFormat⟩
  · rintro ⟨⟨_, _, _, _⟩, equality, headerText, _, rfl, headerFormat,
      signersText, _, rfl, signersFormat, attributesText, scriptText, rfl,
      attributesFormat, scriptFormat⟩
    cases equality
    exact ⟨headerText, signersText, attributesText, scriptText, rfl,
      headerFormat, signersFormat, attributesFormat, scriptFormat⟩

end Neo3App
