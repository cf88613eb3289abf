import Neo3App.Ui.ReviewCursor

/-!
# Walking through a review

The list of the screens of a review and the proof that the buttons move along
it one by one.
-/

namespace Neo3App

open Neo3App.Lib

inductive Screen where
  | static (step : Step)
  | signer (i : Nat) (screen : SignerScreen)
  deriving DecidableEq, Repr

def signerScreens (signer : Signer) : List SignerScreen :=
  [.index, .account, .scope] ++
    (List.range signer.allowedContractsSize.toNat).map .contract ++
    (List.range signer.allowedGroupsSize.toNat).map .group

def screensOf (tx : Transaction) (i : Nat) : List Screen :=
  (signerScreens (slot tx.signers i)).map (.signer i)

def reviewScreens (tx : Transaction) : List Screen :=
  (reviewFlow.take 8).map .static ++
    ((List.range tx.signersSize.toNat).flatMap (screensOf tx) ++
      [.static .approve, .static .reject])

inductive Screen.Adjacent (tx : Transaction) : Screen → Screen → Prop where
  | first {k : Nat} {step next : Step} (more : k + 1 < 8)
      (here : reviewFlow[k]? = some step)
      (there : reviewFlow[k + 1]? = some next) :
      Adjacent tx (.static step) (.static next)
  | enter : Adjacent tx (.static .validUntilBlock) (.signer 0 .index)
  | within {i : Nat} {screen next : SignerScreen}
      (inside : i < tx.signersSize.toNat)
      (adjacent : SignerScreen.Adjacent (slot tx.signers i) screen next) :
      Adjacent tx (.signer i screen) (.signer i next)
  | nextSigner {i : Nat} (more : i + 1 < tx.signersSize.toNat) :
      Adjacent tx (.signer i (lastScreen (slot tx.signers i)))
        (.signer (i + 1) .index)
  | leave {i : Nat} (last : i + 1 = tx.signersSize.toNat) :
      Adjacent tx (.signer i (lastScreen (slot tx.signers i)))
        (.static .approve)
  | last : Adjacent tx (.static .approve) (.static .reject)

theorem isChain_map_range
    {α : Type} {adjacent : α → α → Prop} {item : Nat → α} {count : Nat}
    (neighbours : ∀ k, k + 1 < count → adjacent (item k) (item (k + 1))) :
    ((List.range count).map item).IsChain adjacent := by
  rw [List.isChain_iff_getElem]
  intro k inside
  rw [List.length_map, List.length_range] at inside
  simpa using neighbours k inside

theorem getLast?_map_range
    {α : Type} (item : Nat → α) (count : Nat) :
    ((List.range (count + 1)).map item).getLast? = some (item count) := by
  rw [List.range_succ, List.map_append, List.map_singleton,
    List.getLast?_concat]

theorem getLast?_beforeGroups (signer : Signer) :
    ([SignerScreen.index, .account, .scope] ++
      (List.range signer.allowedContractsSize.toNat).map
        SignerScreen.contract).getLast? = some (lastContract signer) := by
  rcases sizeEq : signer.allowedContractsSize.toNat with _ | count
  · rw [lastContract, sizeEq]
    rfl
  · rw [lastContract, sizeEq, List.getLast?_append, getLast?_map_range]
    rfl

theorem getLast?_signerScreens (signer : Signer) :
    (signerScreens signer).getLast? = some (lastScreen signer) := by
  unfold signerScreens
  rcases sizeEq : signer.allowedGroupsSize.toNat with _ | count
  · rw [lastScreen, sizeEq, List.range_zero, List.map_nil, List.append_nil]
    exact getLast?_beforeGroups signer
  · rw [lastScreen, sizeEq, List.getLast?_append, getLast?_map_range]
    rfl

theorem signerScreens_isChain (signer : Signer) :
    (signerScreens signer).IsChain (SignerScreen.Adjacent signer) := by
  have start :
      [SignerScreen.index, .account, .scope].IsChain
        (SignerScreen.Adjacent signer) :=
    .cons_cons .account (.cons_cons .scope (.singleton _))
  have contracts :
      ([SignerScreen.index, .account, .scope] ++
        (List.range signer.allowedContractsSize.toNat).map
          SignerScreen.contract).IsChain (SignerScreen.Adjacent signer) := by
    refine List.isChain_append.mpr
      ⟨start, isChain_map_range fun k more => .nextContract k more, ?_⟩
    intro screen isLast next isHead
    rcases sizeEq : signer.allowedContractsSize.toNat with _ | count
    · rw [sizeEq] at isHead
      cases isHead
    · rw [sizeEq, List.range_succ_eq_map] at isHead
      cases isLast
      cases isHead
      exact .firstContract (by omega)
  refine List.isChain_append.mpr
    ⟨contracts, isChain_map_range fun k more => .nextGroup k more, ?_⟩
  intro screen isLast next isHead
  rw [getLast?_beforeGroups] at isLast
  rcases sizeEq : signer.allowedGroupsSize.toNat with _ | count
  · rw [sizeEq] at isHead
    cases isHead
  · rw [sizeEq, List.range_succ_eq_map] at isHead
    cases isLast
    cases isHead
    exact .firstGroup (by omega)

theorem screensOf_isChain
    {tx : Transaction} {i : Nat} (inside : i < tx.signersSize.toNat) :
    (screensOf tx i).IsChain (Screen.Adjacent tx) :=
  List.isChain_map_of_isChain _
    (fun _ _ adjacent => .within inside adjacent)
    (signerScreens_isChain (slot tx.signers i))

theorem getLast?_screensOf (tx : Transaction) (i : Nat) :
    (screensOf tx i).getLast? =
      some (.signer i (lastScreen (slot tx.signers i))) := by
  rw [screensOf, List.getLast?_map, getLast?_signerScreens]
  rfl

/-- The screens of the first `count` signers. -/
theorem signers_isChain
    (tx : Transaction) {count : Nat} (bound : count ≤ tx.signersSize.toNat) :
    ((List.range count).flatMap (screensOf tx)).IsChain
      (Screen.Adjacent tx) := by
  induction count with
  | zero =>
      exact .nil
  | succ count ih =>
      rw [List.range_succ, List.flatMap_append, List.flatMap_singleton]
      refine List.isChain_append.mpr
        ⟨ih (by omega), screensOf_isChain (by omega), ?_⟩
      intro screen isLast next isHead
      cases isHead
      cases count with
      | zero =>
          cases isLast
      | succ count =>
          rw [List.range_succ, List.flatMap_append, List.flatMap_singleton,
            List.getLast?_append, getLast?_screensOf] at isLast
          cases isLast
          exact .nextSigner (by omega)

/-- Each screen of a review is followed by its neighbour. -/
theorem reviewScreens_isChain
    {tx : Transaction} (some : 1 ≤ tx.signersSize.toNat) :
    (reviewScreens tx).IsChain (Screen.Adjacent tx) := by
  rcases sizeEq : tx.signersSize.toNat with _ | count
  · omega
  have first :
      ((reviewFlow.take 8).map Screen.static).IsChain
        (Screen.Adjacent tx) := by
    rw [List.isChain_iff_getElem]
    intro k more
    have inside : k + 1 < 8 := more
    simp only [List.getElem_map, List.getElem_take]
    exact
      .first inside (List.getElem?_eq_getElem _) (List.getElem?_eq_getElem _)
  have ends :
      [Screen.static .approve, .static .reject].IsChain
        (Screen.Adjacent tx) :=
    .cons_cons .last (.singleton _)
  have leaving :
      ((List.range (count + 1)).flatMap (screensOf tx) ++
        [Screen.static .approve, .static .reject]).IsChain
          (Screen.Adjacent tx) := by
    refine List.isChain_append.mpr
      ⟨signers_isChain tx (by omega), ends, ?_⟩
    intro screen isLast next isHead
    cases isHead
    rw [List.range_succ, List.flatMap_append, List.flatMap_singleton,
      List.getLast?_append, getLast?_screensOf] at isLast
    cases isLast
    exact .leave sizeEq.symm
  rw [reviewScreens, sizeEq]
  refine List.isChain_append.mpr ⟨first, leaving, ?_⟩
  intro screen isLast next isHead
  cases isLast
  rw [List.range_succ_eq_map] at isHead
  cases isHead
  exact .enter

end Neo3App
