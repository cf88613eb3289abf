import Neo3App.Ui.ReviewNavigation
import Neo3App.Ui.StaticScreens

/-!
# The screens of a review

The screen that the step and the indices of `display_ctx` designate, that the
indices are inside the transaction, and the list of all screens.
-/

namespace Neo3App

open Neo3App.Lib

theorem SignerContents.Encodes.sizes
    {signer : SignerContents} {encoding : List UInt8}
    (encodes : signer.Encodes encoding) :
    signer.contracts.length ≤ 2 ∧ signer.groups.length ≤ 2 := by
  obtain ⟨contracts, groups, _, _, _, contractsList, groupsList⟩ := encodes
  constructor
  · by_cases announced : signer.scope &&& 0x10 = 0x10
    · exact (contractsList.1 announced).1
    · rw [(contractsList.2 announced).1]
      exact Nat.zero_le _
  · by_cases announced : signer.scope &&& 0x20 = 0x20
    · exact (groupsList.1 announced).1
    · rw [(groupsList.2 announced).1]
      exact Nat.zero_le _

theorem ReviewSizes.of_decoded
    {b : List UInt8} {contents : TransactionContents} {tx : Transaction}
    (encodes : contents.Encodes b) (decoded : Decoded b contents tx) :
    ReviewSizes tx := by
  obtain ⟨_, _, _, _, _, _, some, few, ⟨_, _, _, each, _⟩, _⟩ := encodes
  have lists (i : Nat) (inside : i < tx.signersSize.toNat) :
      (slot tx.signers i).allowedContractsSize.toNat ≤ 2 ∧
        (slot tx.signers i).allowedGroupsSize.toNat ≤ 2 := by
    rw [decoded.signersSize] at inside
    have signer := decoded.signers i inside
    rw [signer.contractsSize, signer.groupsSize]
    exact
      (each.get inside (each.length_eq ▸ inside)).sizes
  exact
    { some := decoded.signersSize ▸ some
      few := decoded.signersSize ▸ few
      contracts := fun i inside => (lists i inside).1
      groups := fun i inside => (lists i inside).2 }

theorem AcceptedTransfer.reviewSizes
    {sdk : Sdk} {b : List UInt8} {tx : Transaction}
    (accepted : AcceptedTransfer sdk b tx) : ReviewSizes tx := by
  obtain ⟨contents, encodes, decoded⟩ := decoded_of_parsed accepted.parsed
  exact .of_decoded encodes decoded

/-- The screen that the step and the indices designate. -/
def Ui.screen (ui : Ui) : Option Screen :=
  match ui.step with
  | some .generic =>
      let i := ui.displayCtx.sIndex.toInt.toNat
      match ui.displayCtx.property with
      | .index => some (.signer i .index)
      | .account => some (.signer i .account)
      | .scope => some (.signer i .scope)
      | .contracts =>
          some (.signer i (.contract ui.displayCtx.cIndex.toInt.toNat))
      | .groups =>
          some (.signer i (.group ui.displayCtx.gIndex.toInt.toNat))
      | .start => none
      | .stop => none
  | step => step.map .static

/-- The indices designate a signer, and the item that is shown of it. -/
structure DisplayCtx.InRange (ctx : DisplayCtx) (tx : Transaction) :
    Prop where
  signer : 0 ≤ ctx.sIndex.toInt ∧ ctx.sIndex.toInt < tx.signersSize.toNat
  contract : ctx.property = .contracts →
    0 ≤ ctx.cIndex.toInt ∧
      ctx.cIndex.toInt < (ctx.signer tx).allowedContractsSize.toNat
  group : ctx.property = .groups →
    0 ≤ ctx.gIndex.toInt ∧
      ctx.gIndex.toInt < (ctx.signer tx).allowedGroupsSize.toNat

def Screen.Exists (tx : Transaction) : Screen → Prop
  | .static step => step ∈ reviewFlow.take 8 ++ [.approve, .reject]
  | .signer i screen =>
      i < tx.signersSize.toNat ∧ screen.Exists (slot tx.signers i)

theorem mem_signerScreens {signer : Signer} {screen : SignerScreen} :
    screen ∈ signerScreens signer ↔ screen.Exists signer := by
  cases screen <;> simp [signerScreens, SignerScreen.Exists]

theorem exists_of_mem_reviewScreens
    {tx : Transaction} {screen : Screen}
    (member : screen ∈ reviewScreens tx) : screen.Exists tx := by
  rcases List.mem_append.mp member with first | later
  · rcases List.mem_map.mp first with ⟨step, inSteps, rfl⟩
    exact List.mem_append_left _ inSteps
  rcases List.mem_append.mp later with signers | last
  · rcases List.mem_flatMap.mp signers with ⟨i, inside, ofSigner⟩
    rcases List.mem_map.mp ofSigner with ⟨signerScreen, isThere, rfl⟩
    exact ⟨List.mem_range.mp inside, mem_signerScreens.mp isThere⟩
  · rcases List.mem_cons.mp last with rfl | last
    · exact List.mem_append_right _ (List.mem_cons_self ..)
    · cases List.mem_singleton.mp last
      exact List.mem_append_right _ (by decide)

theorem toNat_toInt_passed {count : Nat} (small : count ≤ 126) :
    (passed (count + 1)).toInt.toNat = count := by
  rw [toInt_passed (by omega)]
  omega

section

variable {context : GlobalCtx} (sizes : ReviewSizes context.transaction)

include sizes

/-- The step and the indices designate the screen that is shown. -/
theorem Shows.screen_eq
    {ui : Ui} {screen : Screen} (shows : Shows context ui screen)
    (isThere : screen.Exists context.transaction) :
    ui.screen = some screen := by
  have few := sizes.few
  have step : ui.step = reviewFlow[screen.index]? := by
    rw [Ui.step, shows.review.steps, shows.index]
  cases screen with
  | static shown =>
      have table :
          ∀ step ∈ reviewFlow.take 8 ++ [.approve, .reject],
            step ∈ reviewFlow ∧ step ≠ .generic := by
        decide
      obtain ⟨member, notGeneric⟩ := table shown isThere
      have here : ui.step = some shown := by
        rw [step, Screen.index, List.getElem?_idxOf member]
      rw [Ui.screen, here]
      simp [notGeneric]
  | signer i screen =>
      obtain ⟨inside, isThere⟩ := isThere
      have generic : ui.step = some .generic :=
        step
      have position := toNat_toInt_passed (show i ≤ 126 by omega)
      rw [Ui.screen, generic, shows.ctx]
      cases screen with
      | index | account | scope =>
          simp [Screen.ctx, SignerScreen.ctx, position]
      | contract j =>
          have bound : j < _ := isThere
          have few := sizes.contracts i inside
          have item := toNat_toInt_passed (show j ≤ 126 by omega)
          simp [Screen.ctx, SignerScreen.ctx, position, item]
      | group j =>
          have bound : j < _ := isThere
          have few := sizes.groups i inside
          have item := toNat_toInt_passed (show j ≤ 126 by omega)
          simp [Screen.ctx, SignerScreen.ctx, position, item]

/-- The indices are inside the transaction when they are used. -/
theorem Shows.inRange
    {ui : Ui} {screen : Screen} (shows : Shows context ui screen)
    (isThere : screen.Exists context.transaction)
    (isGeneric : ui.step = some .generic) :
    ui.displayCtx.InRange context.transaction := by
  have few := sizes.few
  have shown := shows.screen_eq sizes isThere
  cases screen with
  | static shownStep =>
      rw [Ui.screen, isGeneric] at shown
      dsimp only at shown
      split at shown <;> cases shown
  | signer i screen =>
      obtain ⟨inside, isThere⟩ := isThere
      have contracts := sizes.contracts i inside
      have groups := sizes.groups i inside
      have signer (p : UInt8) (c g : Int8) :=
        signer_passed sizes inside .dynamicScreen p c g
      have atSigner : (passed (i + 1)).toInt = i := by
        rw [toInt_passed (by omega)]
        omega
      rw [shows.ctx]
      cases screen with
      | index | account | scope =>
          constructor <;>
            simp [Screen.ctx, SignerScreen.ctx, atSigner, inside]
      | contract j =>
          have bound : j < _ := isThere
          have item : (passed (j + 1)).toInt = j := by
            rw [toInt_passed (by omega)]
            omega
          constructor <;>
            simp [Screen.ctx, SignerScreen.ctx, atSigner, inside, signer,
              item, bound]
      | group j =>
          have bound : j < _ := isThere
          have item : (passed (j + 1)).toInt = j := by
            rw [toInt_passed (by omega)]
            omega
          constructor <;>
            simp [Screen.ctx, SignerScreen.ctx, atSigner, inside, signer,
              item, bound]

end

theorem signerScreens_nodup (signer : Signer) :
    (signerScreens signer).Nodup := by
  have contracts (count : Nat) :
      ((List.range count).map SignerScreen.contract).Nodup :=
    List.nodup_range.map fun _ _ => SignerScreen.contract.inj
  have groups (count : Nat) :
      ((List.range count).map SignerScreen.group).Nodup :=
    List.nodup_range.map fun _ _ => SignerScreen.group.inj
  simp [signerScreens, List.nodup_append, contracts, groups]

theorem screensOf_nodup (tx : Transaction) (i : Nat) :
    (screensOf tx i).Nodup :=
  (signerScreens_nodup _).map fun _ _ equal => (Screen.signer.inj equal).2

/-- No screen of a review comes twice. -/
theorem reviewScreens_nodup (tx : Transaction) :
    (reviewScreens tx).Nodup := by
  have signers :
      ((List.range tx.signersSize.toNat).flatMap (screensOf tx)).Nodup := by
    refine List.nodup_flatMap.mpr
      ⟨fun i _ => screensOf_nodup tx i, List.nodup_range.imp ?_⟩
    intro i j distinct screen inFirst inSecond
    rcases List.mem_map.mp inFirst with ⟨_, _, rfl⟩
    rcases List.mem_map.mp inSecond with ⟨_, _, equal⟩
    exact distinct (Screen.signer.inj equal).1.symm
  have notStatic (step : Step) :
      .static step ∉
        (List.range tx.signersSize.toNat).flatMap (screensOf tx) := by
    simp [screensOf]
  refine List.nodup_append.mpr ⟨by decide, ?_, ?_⟩
  · refine List.nodup_append.mpr ⟨signers, by decide, ?_⟩
    rintro screen member last isLast rfl
    rcases List.mem_cons.mp isLast with rfl | isLast
    · exact notStatic _ member
    · cases List.mem_singleton.mp isLast
      exact notStatic _ member
  · rintro screen first later isLater rfl
    rcases List.mem_map.mp first with ⟨step, early, rfl⟩
    rcases List.mem_append.mp isLater with member | last
    · exact notStatic _ member
    · clear first isLater
      revert step
      decide

theorem getElem?_reviewScreens_end (tx : Transaction) :
    ∃ count, (reviewScreens tx).length = count + 2 ∧
      (reviewScreens tx)[count]? = some (.static .approve) ∧
      (reviewScreens tx)[count + 1]? = some (.static .reject) := by
  have split :
      reviewScreens tx =
        ((reviewFlow.take 8).map .static ++
            (List.range tx.signersSize.toNat).flatMap (screensOf tx)) ++
          [.static .approve, .static .reject] := by
    rw [reviewScreens, List.append_assoc]
  rw [split]
  refine ⟨_, List.length_append, ?_, ?_⟩
  · rw [List.getElem?_append_right (Nat.le_refl _), Nat.sub_self]
    rfl
  · rw [List.getElem?_append_right (Nat.le_add_right _ _),
      Nat.add_sub_cancel_left]
    rfl

theorem getLast?_reviewScreens (tx : Transaction) :
    (reviewScreens tx).getLast? = some (.static .reject) := by
  rw [reviewScreens, List.getLast?_append, List.getLast?_append]
  rfl

/-- After any presses the screen under the cursor is shown. -/
theorem Shows.after_presses
    {context : GlobalCtx} {ui : Ui}
    (shown : Shows context ui (.static .review))
    (sizes : ReviewSizes context.transaction) (presses : List Press) :
    ∃ screen,
      (reviewScreens context.transaction)[cursorAfter
          (reviewScreens context.transaction).length presses]? =
        some screen ∧
      Shows context (pressAll (uiPress context) ui presses) screen :=
  (review_followsCursor sizes).run (reviewScreens_isChain sizes.some) rfl
    (getLast?_reviewScreens context.transaction) shown presses

end Neo3App
