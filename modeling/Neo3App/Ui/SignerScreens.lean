import Neo3App.Ui.Navigation

/-!
# The screens of the signers

Every signer has an index, an account and a scope screen, one screen for each
allowed contract and one for each allowed group.  Each screen fixes the values
of the indices in `display_ctx`: an index that is counted up holds one less
than the number of items passed.  `next_prop` and `prev_prop` move between
neighbouring screens.
-/

namespace Neo3App

open Neo3App.Lib

/-- The index of the last of `count` items. -/
def passed (count : Nat) : Int8 :=
  Int8.ofInt (count - 1)

theorem passed_succ (count : Nat) : passed count + 1 = passed (count + 1) := by
  unfold passed
  rw [show (1 : Int8) = Int8.ofInt 1 from rfl, ← Int8.ofInt_add]
  congr 1
  push_cast
  ring

theorem passed_pred (count : Nat) : passed (count + 1) - 1 = passed count := by
  unfold passed
  rw [show (1 : Int8) = Int8.ofInt 1 from rfl, ← Int8.ofInt_sub]
  congr 1
  push_cast
  ring

theorem toInt_passed {count : Nat} (small : count ≤ 127) :
    (passed count).toInt = count - 1 :=
  Int8.toInt_ofInt_of_le (by omega) (by omega)

theorem passed_pos_iff {count : Nat} (small : count ≤ 127) :
    0 < passed count ↔ 2 ≤ count := by
  rw [Int8.lt_iff_toInt_lt, toInt_passed small]
  change (0 : Int) < _ ↔ _
  omega

theorem passed_neg_iff {count : Nat} (small : count ≤ 127) :
    passed count < 0 ↔ count = 0 := by
  rw [Int8.lt_iff_toInt_lt, toInt_passed small]
  change _ < (0 : Int) ↔ _
  omega

theorem toInt8_eq_passed {size : UInt8} (small : size.toNat ≤ 126) :
    size.toInt8 = passed (size.toNat + 1) := by
  apply Int8.toInt_inj.mp
  have signed := BitVec.toInt_eq_toNat_cond size.toInt8.toBitVec
  change size.toInt8.toInt =
    if 2 * size.toNat < 2 ^ 8 then (size.toNat : Int) else _ at signed
  rw [toInt_passed (by omega), signed, if_pos (by omega)]
  push_cast
  ring

theorem signedSlot_passed
    {α : Type} [Inhabited α] {count : Nat} (array : Vector α count)
    {index : Nat} (small : index ≤ 126) :
    signedSlot array (passed (index + 1)) = slot array index := by
  have nonneg : ¬ passed (index + 1) < 0 := by
    rw [passed_neg_iff (by omega)]
    omega
  rw [signedSlot, if_neg nonneg, toInt_passed (by omega)]
  congr 1
  omega

/-- A screen of one signer. -/
inductive SignerScreen where
  | index
  | account
  | scope
  | contract (j : Nat)
  | group (j : Nat)
  deriving DecidableEq, Repr

structure ReviewSizes (tx : Transaction) : Prop where
  some : 1 ≤ tx.signersSize.toNat
  few : tx.signersSize.toNat ≤ 2
  contracts : ∀ i, i < tx.signersSize.toNat →
    (slot tx.signers i).allowedContractsSize.toNat ≤ 2
  groups : ∀ i, i < tx.signersSize.toNat →
    (slot tx.signers i).allowedGroupsSize.toNat ≤ 2

/-- The indices while a screen of signer `i` is shown. -/
def SignerScreen.ctx (signer : Signer) (i : Nat) : SignerScreen → DisplayCtx
  | .index => ⟨.dynamicScreen, passed (i + 1), 1, passed 0, passed 0⟩
  | .account => ⟨.dynamicScreen, passed (i + 1), 2, passed 0, passed 0⟩
  | .scope => ⟨.dynamicScreen, passed (i + 1), 3, passed 0, passed 0⟩
  | .contract j =>
      ⟨.dynamicScreen, passed (i + 1), 4, passed (j + 1), passed 0⟩
  | .group j =>
      ⟨.dynamicScreen, passed (i + 1), 5,
        passed (signer.allowedContractsSize.toNat + 1), passed (j + 1)⟩

/-- The indices on the screens after the signers. -/
def endCtx (tx : Transaction) : DisplayCtx :=
  let i := tx.signersSize.toNat - 1
  ⟨.staticScreen, passed (i + 1), 6,
    passed ((slot tx.signers i).allowedContractsSize.toNat + 1),
    passed ((slot tx.signers i).allowedGroupsSize.toNat + 1)⟩

def DisplayCtx.setState (ctx : DisplayCtx) (state : ScreenState) :
    DisplayCtx :=
  { ctx with currentState := state }

def lastContract (signer : Signer) : SignerScreen :=
  match signer.allowedContractsSize.toNat with
  | 0 => .scope
  | count + 1 => .contract count

def lastScreen (signer : Signer) : SignerScreen :=
  match signer.allowedGroupsSize.toNat with
  | 0 => lastContract signer
  | count + 1 => .group count

inductive SignerScreen.Adjacent (signer : Signer) :
    SignerScreen → SignerScreen → Prop where
  | account : Adjacent signer .index .account
  | scope : Adjacent signer .account .scope
  | firstContract (some : 0 < signer.allowedContractsSize.toNat) :
      Adjacent signer .scope (.contract 0)
  | nextContract (j : Nat)
      (more : j + 1 < signer.allowedContractsSize.toNat) :
      Adjacent signer (.contract j) (.contract (j + 1))
  | firstGroup (some : 0 < signer.allowedGroupsSize.toNat) :
      Adjacent signer (lastContract signer) (.group 0)
  | nextGroup (j : Nat) (more : j + 1 < signer.allowedGroupsSize.toNat) :
      Adjacent signer (.group j) (.group (j + 1))

@[simp]
theorem SignerScreen.ctx_setState
    (signer : Signer) (i : Nat) (screen : SignerScreen) :
    (screen.ctx signer i).setState .dynamicScreen = screen.ctx signer i := by
  cases screen <;> rfl

theorem SignerScreen.ctx_currentState
    (screen : SignerScreen) (signer : Signer) (i : Nat) :
    (screen.ctx signer i).currentState = .dynamicScreen := by
  cases screen <;> rfl

/-! ## `next_prop` -/

/-- What `next_prop` does after `count` contracts. -/
theorem nextContract_eq
    {signer : Signer} {rest : DisplayCtx → DisplayCtx} {state : ScreenState}
    {s g : Int8} {count : Nat} (small : count ≤ 126) :
    nextContract signer rest ⟨state, s, 4, passed count, g⟩ =
      if count < signer.allowedContractsSize.toNat then
        ⟨state, s, 4, passed (count + 1), g⟩
      else
        rest ⟨state, s, 5, passed (count + 1), g⟩ := by
  have contracts :
      (⟨state, s, 4, passed count, g⟩ : DisplayCtx).property = .contracts :=
    rfl
  rw [nextContract, if_pos contracts]
  dsimp only
  rw [toInt_passed (by omega), passed_succ]
  by_cases more : count < signer.allowedContractsSize.toNat
  · rw [if_pos more, if_pos (by omega)]
  · rw [if_neg more, if_neg (by omega)]
    rfl

/-- What `next_prop` does after `count` groups. -/
theorem nextGroup_eq
    {signer : Signer} {rest : DisplayCtx → DisplayCtx} {state : ScreenState}
    {s c : Int8} {count : Nat} (small : count ≤ 126) :
    nextGroup signer rest ⟨state, s, 5, c, passed count⟩ =
      if count < signer.allowedGroupsSize.toNat then
        ⟨state, s, 5, c, passed (count + 1)⟩
      else
        rest ⟨state, s, 6, c, passed (count + 1)⟩ := by
  have groups :
      (⟨state, s, 5, c, passed count⟩ : DisplayCtx).property = .groups :=
    rfl
  rw [nextGroup, if_pos groups]
  dsimp only
  rw [toInt_passed (by omega), passed_succ]
  by_cases more : count < signer.allowedGroupsSize.toNat
  · rw [if_pos more, if_pos (by omega)]
  · rw [if_neg more, if_neg (by omega)]
    rfl

/-- The first screens of a signer follow each other. -/
theorem nextProp_before_contracts
    (tx : Transaction) (depth : Nat) (state : ScreenState) (s c g : Int8) :
    nextProp tx (depth + 1) ⟨state, s, 0, c, g⟩ = ⟨state, s, 1, c, g⟩ ∧
      nextProp tx (depth + 1) ⟨state, s, 1, c, g⟩ = ⟨state, s, 2, c, g⟩ ∧
      nextProp tx (depth + 1) ⟨state, s, 2, c, g⟩ = ⟨state, s, 3, c, g⟩ :=
  ⟨rfl, rfl, rfl⟩

section

variable {tx : Transaction} (sizes : ReviewSizes tx) {i : Nat}
  (inside : i < tx.signersSize.toNat)

include sizes inside

theorem signer_passed (state : ScreenState) (p : UInt8) (c g : Int8) :
    DisplayCtx.signer ⟨state, passed (i + 1), p, c, g⟩ tx =
      slot tx.signers i := by
  have few := sizes.few
  rw [DisplayCtx.signer, signedSlot_passed _ (by omega)]

/-- What `next_prop` does at the end of a signer. -/
theorem nextSigner_eq
    (depth : Nat) (state : ScreenState) (c g : Int8) :
    nextSigner tx (nextProp tx (depth + 1))
        ⟨state, passed (i + 1), 6, c, g⟩ =
      if i + 1 < tx.signersSize.toNat then
        ⟨state, passed (i + 2), 1, passed 0, passed 0⟩
      else
        ⟨state, passed (i + 1), 6, c, g⟩ := by
  have few := sizes.few
  have stop :
      (⟨state, passed (i + 1), 6, c, g⟩ : DisplayCtx).property = .stop :=
    rfl
  rw [nextSigner, if_pos stop]
  dsimp only
  rw [toInt_passed (by omega), passed_succ]
  by_cases more : i + 1 < tx.signersSize.toNat
  · rw [if_pos more, if_neg (by omega)]
    exact (nextProp_before_contracts tx depth state _ _ _).1
  · rw [if_neg more, if_pos (by omega)]

/-- After the scope or `count - 1` contracts. -/
theorem nextProp_contract
    (count : Nat)
    (fits : count ≤ (slot tx.signers i).allowedContractsSize.toNat)
    (state : ScreenState) (g : Int8) {p : UInt8}
    (here : p = 3 ∧ count = 0 ∨ p = 4) (depth : Nat) :
    nextProp tx (depth + 1) ⟨state, passed (i + 1), p, passed count, g⟩ =
      if count < (slot tx.signers i).allowedContractsSize.toNat then
        ⟨state, passed (i + 1), 4, passed (count + 1), g⟩
      else
        nextGroup (slot tx.signers i) (nextSigner tx (nextProp tx depth))
          ⟨state, passed (i + 1), 5, passed (count + 1), g⟩ := by
  have few := sizes.contracts i inside
  rw [nextProp, signer_passed sizes inside]
  have reached :
      (if p < 4 then
          { (⟨state, passed (i + 1), p, passed count, g⟩ : DisplayCtx) with
            pIndex := p + 1 }
        else ⟨state, passed (i + 1), p, passed count, g⟩) =
        ⟨state, passed (i + 1), 4, passed count, g⟩ := by
    rcases here with ⟨rfl, _⟩ | rfl <;> rfl
  rw [reached, nextContract_eq (by omega)]

/-- After `count - 1` groups. -/
theorem nextProp_group
    (count : Nat)
    (fits : count ≤ (slot tx.signers i).allowedGroupsSize.toNat)
    (state : ScreenState) (c : Int8) (depth : Nat) :
    nextProp tx (depth + 1) ⟨state, passed (i + 1), 5, c, passed count⟩ =
      if count < (slot tx.signers i).allowedGroupsSize.toNat then
        ⟨state, passed (i + 1), 5, c, passed (count + 1)⟩
      else
        nextSigner tx (nextProp tx depth)
          ⟨state, passed (i + 1), 6, c, passed (count + 1)⟩ := by
  have few := sizes.groups i inside
  rw [nextProp, signer_passed sizes inside]
  have skips :
      (if (5 : UInt8) < 4 then
          { (⟨state, passed (i + 1), 5, c, passed count⟩ : DisplayCtx) with
            pIndex := 5 + 1 }
        else ⟨state, passed (i + 1), 5, c, passed count⟩) =
        ⟨state, passed (i + 1), 5, c, passed count⟩ :=
    rfl
  have notContracts :
      (⟨state, passed (i + 1), 5, c, passed count⟩ :
        DisplayCtx).property ≠ .contracts := by
    change SignerState.groups ≠ .contracts
    decide
  rw [skips, nextContract, if_neg notContracts, nextGroup_eq (by omega)]

/-- After the last contract. -/
theorem nextProp_lastContract (state : ScreenState) (depth : Nat) :
    nextProp tx (depth + 1)
        (((lastContract (slot tx.signers i)).ctx (slot tx.signers i)
          i).setState state) =
      nextGroup (slot tx.signers i) (nextSigner tx (nextProp tx depth))
        ⟨state, passed (i + 1), 5,
          passed ((slot tx.signers i).allowedContractsSize.toNat + 1),
          passed 0⟩ := by
  rcases sizeEq : (slot tx.signers i).allowedContractsSize.toNat with _ | count
  · have last : lastContract (slot tx.signers i) = .scope := by
      rw [lastContract, sizeEq]
    rw [last]
    refine
      (nextProp_contract sizes inside 0 (Nat.zero_le _) state (passed 0)
        (Or.inl ⟨rfl, rfl⟩) depth).trans ?_
    rw [if_neg (by omega)]
  · have last : lastContract (slot tx.signers i) = .contract count := by
      rw [lastContract, sizeEq]
    rw [last]
    refine
      (nextProp_contract sizes inside (count + 1) (by omega) state
        (passed 0) (Or.inr rfl) depth).trans ?_
    rw [if_neg (by omega)]

/-- After the last screen of a signer comes the next signer or the end. -/
theorem nextProp_lastScreen (state : ScreenState) :
    nextProp tx 2
        (((lastScreen (slot tx.signers i)).ctx (slot tx.signers i)
          i).setState state) =
      if i + 1 < tx.signersSize.toNat then
        ⟨state, passed (i + 2), 1, passed 0, passed 0⟩
      else
        ⟨state, passed (i + 1), 6,
          passed ((slot tx.signers i).allowedContractsSize.toNat + 1),
          passed ((slot tx.signers i).allowedGroupsSize.toNat + 1)⟩ := by
  have few := sizes.groups i inside
  rcases sizeEq : (slot tx.signers i).allowedGroupsSize.toNat with _ | count
  · have last :
        lastScreen (slot tx.signers i) = lastContract (slot tx.signers i) := by
      rw [lastScreen, sizeEq]
    rw [last, nextProp_lastContract sizes inside, nextGroup_eq (by omega),
      if_neg (by omega), nextSigner_eq sizes inside]
  · have last : lastScreen (slot tx.signers i) = .group count := by
      rw [lastScreen, sizeEq]
    rw [last]
    refine
      (nextProp_group sizes inside (count + 1) (by omega) state _
        1).trans ?_
    rw [if_neg (by omega), nextSigner_eq sizes inside]
    rfl

/-- `next_prop` moves to the neighbouring screen of the signer. -/
theorem nextProp_adjacent
    {screen next : SignerScreen}
    (adjacent : SignerScreen.Adjacent (slot tx.signers i) screen next)
    (state : ScreenState) :
    nextProp tx 2 ((screen.ctx (slot tx.signers i) i).setState state) =
      (next.ctx (slot tx.signers i) i).setState state := by
  have few := sizes.contracts i inside
  cases adjacent with
  | account =>
      exact (nextProp_before_contracts tx 1 state _ _ _).2.1
  | scope =>
      exact (nextProp_before_contracts tx 1 state _ _ _).2.2
  | firstContract some =>
      refine
        (nextProp_contract sizes inside 0 (Nat.zero_le _) state (passed 0)
          (Or.inl ⟨rfl, rfl⟩) 1).trans ?_
      rw [if_pos some]
      rfl
  | nextContract j more =>
      refine
        (nextProp_contract sizes inside (j + 1) (by omega) state
          (passed 0) (Or.inr rfl) 1).trans ?_
      rw [if_pos more]
      rfl
  | firstGroup some =>
      rw [nextProp_lastContract sizes inside, nextGroup_eq (by omega),
        if_pos some]
      rfl
  | nextGroup j more =>
      refine
        (nextProp_group sizes inside (j + 1) (by omega) state _
          1).trans ?_
      rw [if_pos more]
      rfl

end

/-! ## `prev_prop` -/

/-- What `prev_prop` does with the group after `count` groups. -/
theorem prevGroup_eq
    {rest : DisplayCtx → DisplayCtx} {state : ScreenState} {s c : Int8}
    {count : Nat} (small : count ≤ 126) :
    prevGroup rest ⟨state, s, 5, c, passed (count + 1)⟩ =
      if 1 ≤ count then ⟨state, s, 5, c, passed count⟩
      else rest ⟨state, s, 4, c, passed count⟩ := by
  have groups :
      (⟨state, s, 5, c, passed (count + 1)⟩ : DisplayCtx).property =
        .groups :=
    rfl
  rw [prevGroup, if_pos groups]
  dsimp only
  rw [passed_pred]
  by_cases more : 1 ≤ count
  · rw [if_pos more, if_pos ((passed_pos_iff (by omega)).mpr (by omega))]
  · rw [if_neg more,
      if_neg fun positive => by
        have bound := (passed_pos_iff (by omega)).mp positive
        omega]
    rfl

/-- What `prev_prop` does with the contract after `count` contracts. -/
theorem prevContract_eq
    {rest : DisplayCtx → DisplayCtx} {state : ScreenState} {s g : Int8}
    {count : Nat} (small : count ≤ 126) :
    prevContract rest ⟨state, s, 4, passed (count + 1), g⟩ =
      if 1 ≤ count then ⟨state, s, 4, passed count, g⟩
      else rest ⟨state, s, 4, passed count, g⟩ := by
  have contracts :
      (⟨state, s, 4, passed (count + 1), g⟩ : DisplayCtx).property =
        .contracts :=
    rfl
  rw [prevContract, if_pos contracts]
  dsimp only
  rw [passed_pred]
  by_cases more : 1 ≤ count
  · rw [if_pos more, if_pos ((passed_pos_iff (by omega)).mpr (by omega))]
  · rw [if_neg more,
      if_neg fun positive => by
        have bound := (passed_pos_iff (by omega)).mp positive
        omega]

theorem prevSigner_before_contracts
    (tx : Transaction) (again : DisplayCtx → DisplayCtx)
    (state : ScreenState) (s c g : Int8) :
    prevSigner tx again ⟨state, s, 4, c, g⟩ = ⟨state, s, 3, c, g⟩ ∧
      prevSigner tx again ⟨state, s, 3, c, g⟩ = ⟨state, s, 2, c, g⟩ ∧
      prevSigner tx again ⟨state, s, 2, c, g⟩ = ⟨state, s, 1, c, g⟩ := by
  simp [prevSigner]

/-- From the contract after `count` contracts, or from the scope. -/
theorem prevContract_prevSigner
    (tx : Transaction) (again : DisplayCtx → DisplayCtx) (signer : Signer)
    (i : Nat) (state : ScreenState)
    (few : signer.allowedContractsSize.toNat ≤ 2) :
    prevContract (prevSigner tx again)
        ⟨state, passed (i + 1), 4,
          passed (signer.allowedContractsSize.toNat + 1), passed 0⟩ =
      ((lastContract signer).ctx signer i).setState state := by
  rw [prevContract_eq (by omega)]
  rcases sizeEq : signer.allowedContractsSize.toNat with _ | count
  · rw [lastContract, sizeEq]
    exact (prevSigner_before_contracts tx again state _ _ _).1
  · rw [lastContract, sizeEq, if_pos (by omega)]
    rfl

/-- The entry of `prev_prop`, by the property it starts from. -/
theorem prevProp_entry
    (tx : Transaction) (depth : Nat) (state : ScreenState) (s c g : Int8) :
    let before := prevSigner tx (prevProp tx depth)
    prevProp tx (depth + 1) ⟨state, s, 6, c, g⟩ =
        prevGroup (prevContract before) ⟨state, s, 5, c, g⟩ ∧
      prevProp tx (depth + 1) ⟨state, s, 5, c, g⟩ =
        prevGroup (prevContract before) ⟨state, s, 5, c, g⟩ ∧
      prevProp tx (depth + 1) ⟨state, s, 4, c, g⟩ =
        prevContract before ⟨state, s, 4, c, g⟩ ∧
      prevProp tx (depth + 1) ⟨state, s, 3, c, g⟩ =
        before ⟨state, s, 3, c, g⟩ ∧
      prevProp tx (depth + 1) ⟨state, s, 2, c, g⟩ =
        before ⟨state, s, 2, c, g⟩ := by
  simp [prevProp, prevGroup, prevContract]

/-- From the screens after a signer. -/
theorem prevProp_end
    (tx : Transaction) (signer : Signer) (i : Nat) (state : ScreenState)
    (fewContracts : signer.allowedContractsSize.toNat ≤ 2)
    (fewGroups : signer.allowedGroupsSize.toNat ≤ 2) (depth : Nat) :
    prevProp tx (depth + 1)
        ⟨state, passed (i + 1), 6,
          passed (signer.allowedContractsSize.toNat + 1),
          passed (signer.allowedGroupsSize.toNat + 1)⟩ =
      ((lastScreen signer).ctx signer i).setState state := by
  rw [(prevProp_entry tx depth state _ _ _).1, prevGroup_eq (by omega)]
  rcases sizeEq : signer.allowedGroupsSize.toNat with _ | count
  · rw [lastScreen, sizeEq, if_neg (by omega)]
    exact prevContract_prevSigner tx _ signer i state fewContracts
  · rw [lastScreen, sizeEq, if_pos (by omega)]
    rfl

section

variable {tx : Transaction} (sizes : ReviewSizes tx) {i : Nat}
  (inside : i < tx.signersSize.toNat)

include sizes inside

/-- `prev_prop` moves back to the neighbouring screen of the signer. -/
theorem prevProp_adjacent
    {screen next : SignerScreen}
    (adjacent : SignerScreen.Adjacent (slot tx.signers i) screen next)
    (state : ScreenState) :
    prevProp tx 2 ((next.ctx (slot tx.signers i) i).setState state) =
      (screen.ctx (slot tx.signers i) i).setState state := by
  have fewContracts := sizes.contracts i inside
  have fewGroups := sizes.groups i inside
  have entry := prevProp_entry tx 1 state (passed (i + 1))
  cases adjacent with
  | account =>
      exact
        ((entry _ _).2.2.2.2).trans
          (prevSigner_before_contracts tx _ state _ _ _).2.2
  | scope =>
      exact
        ((entry _ _).2.2.2.1).trans
          (prevSigner_before_contracts tx _ state _ _ _).2.1
  | firstContract some =>
      refine ((entry _ _).2.2.1).trans ?_
      refine (prevContract_eq (show 0 ≤ 126 by omega)).trans ?_
      exact (prevSigner_before_contracts tx _ state _ _ _).1
  | nextContract j more =>
      refine ((entry _ _).2.2.1).trans ?_
      refine (prevContract_eq (show j + 1 ≤ 126 by omega)).trans ?_
      rw [if_pos (by omega)]
      rfl
  | firstGroup some =>
      refine ((entry _ _).2.1).trans ?_
      refine (prevGroup_eq (show 0 ≤ 126 by omega)).trans ?_
      exact
        prevContract_prevSigner tx _ (slot tx.signers i) i state fewContracts
  | nextGroup j more =>
      refine ((entry _ _).2.1).trans ?_
      refine (prevGroup_eq (show j + 1 ≤ 126 by omega)).trans ?_
      rw [if_pos (by omega)]
      rfl

omit inside in
/-- Before the first screen of a signer comes the last one of the signer
before it. -/
theorem prevProp_index
    (inside : i + 1 < tx.signersSize.toNat) (state : ScreenState) :
    prevProp tx 2 ⟨state, passed (i + 2), 1, passed 0, passed 0⟩ =
      ((lastScreen (slot tx.signers i)).ctx (slot tx.signers i)
        i).setState state := by
  have few := sizes.few
  have fewContracts := sizes.contracts i (by omega)
  have fewGroups := sizes.groups i (by omega)
  have later : passed (i + 2) ≠ 0 := by
    intro first
    have value := congrArg Int8.toInt first
    rw [toInt_passed (by omega)] at value
    change (_ : Int) = 0 at value
    omega
  have positive : 0 < passed (i + 2) :=
    (passed_pos_iff (by omega)).mpr (by omega)
  have previous :
      prevProp tx 2 ⟨state, passed (i + 2), 1, passed 0, passed 0⟩ =
        prevProp tx 1
          ⟨state, passed (i + 1), 6,
            (slot tx.signers i).allowedContractsSize.toInt8,
            (slot tx.signers i).allowedGroupsSize.toInt8⟩ := by
    rw [prevProp]
    simp [prevGroup, prevContract, prevSigner, later, positive, passed_pred,
      signer_passed sizes (show i < tx.signersSize.toNat by omega)]
  rw [previous, toInt8_eq_passed (by omega), toInt8_eq_passed (by omega)]
  exact prevProp_end tx (slot tx.signers i) i state fewContracts fewGroups 0

end

end Neo3App
