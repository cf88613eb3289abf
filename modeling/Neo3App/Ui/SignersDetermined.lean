import Neo3App.Ui.SignersShown

/-!
# What the signer screens determine

The signer screens determine the visible part of the signers and nothing
more.  They do not depend on what was shown before as long as every scope has
a name.
-/

namespace Neo3App

open Neo3App.Lib

theorem numbered_map_snd (word : List Char) (items : List (List UInt8)) :
    (numbered word items).map Prod.snd =
      items.map fun item => snprintf 64 (percentH item) := by
  apply List.ext_getElem
  · simp [numbered]
  · intro j _ inside
    simp [numbered, caption]

/-- A numbered list shows the texts of its items. -/
theorem numbered_eq_iff
    (word : List Char) {first second : List (List UInt8)} :
    numbered word first = numbered word second ↔
      first.map (fun item => snprintf 64 (percentH item)) =
        second.map fun item => snprintf 64 (percentH item) := by
  constructor
  · intro equal
    rw [← numbered_map_snd word, ← numbered_map_snd word, equal]
  · intro equal
    have lengths := congrArg List.length equal
    rw [List.length_map, List.length_map] at lengths
    apply List.ext_getElem
    · simpa [numbered] using lengths
    · intro j inside otherInside
      have text := congrArg (fun texts => texts[j]?) equal
      simp only [numbered, List.length_mapIdx] at inside otherInside
      simp [inside, otherInside] at text
      simp [numbered, caption, text, lengths]

theorem map_eq_map_iff
    {α β γ : Type} {render : α → β} {view : α → γ} {good : α → Prop}
    (agree : ∀ first second, good first → good second →
      (render first = render second ↔ view first = view second))
    {first second : List α} (firstGood : ∀ item ∈ first, good item)
    (secondGood : ∀ item ∈ second, good item) :
    first.map render = second.map render ↔
      first.map view = second.map view := by
  induction first generalizing second with
  | nil =>
      cases second <;> simp
  | cons item first ih =>
      cases second with
      | nil =>
          simp
      | cons other second =>
          rw [List.forall_mem_cons] at firstGood secondGood
          simp only [List.map_cons, List.cons.injEq]
          rw [agree item other firstGood.1 secondGood.1,
            ih firstGood.2 secondGood.2]

theorem contracts_eq_iff
    {first second : List (List UInt8)}
    (firstLengths : ∀ item ∈ first, item.length = uint160Len)
    (secondLengths : ∀ item ∈ second, item.length = uint160Len) :
    numbered "Contract ".toList first =
        numbered "Contract ".toList second ↔ first = second := by
  have views :
      first.map (fun item => snprintf 64 (percentH item)) =
          second.map (fun item => snprintf 64 (percentH item)) ↔
        first.map id = second.map id := by
    apply map_eq_map_iff _ firstLengths secondLengths
    intro first second firstLength secondLength
    rw [snprintf_percentH firstLength, snprintf_percentH secondLength]
    exact ⟨percentH_injective, congrArg percentH⟩
  rw [numbered_eq_iff, views, List.map_id, List.map_id]

theorem groups_eq_iff
    {first second : List (List UInt8)}
    (firstLengths : ∀ item ∈ first, item.length = ecpointLen)
    (secondLengths : ∀ item ∈ second, item.length = ecpointLen) :
    numbered "Group ".toList first = numbered "Group ".toList second ↔
      first.map visibleGroup = second.map visibleGroup := by
  rw [numbered_eq_iff]
  apply map_eq_map_iff _ firstLengths secondLengths
  intro first second firstLength secondLength
  exact snprintf_group_eq_iff firstLength secondLength

/-- A title that begins with `G`. -/
def OfGroup (shown : List Char × List Char) : Prop :=
  shown.1.head? = some 'G'

theorem mem_numbered
    {word : List Char} {items : List (List UInt8)}
    {shown : List Char × List Char} (member : shown ∈ numbered word items) :
    ∃ rest, shown.1 = snprintf 64 (word ++ rest) := by
  obtain ⟨j, inside, rfl⟩ := List.mem_iff_getElem.mp member
  exact
    ⟨positionText j items.length, by
      simp only [numbered, List.getElem_mapIdx, caption]⟩

theorem numbered_contracts_not_ofGroup
    {items : List (List UInt8)} :
    ∀ shown ∈ numbered "Contract ".toList items, ¬ OfGroup shown := by
  intro shown member
  obtain ⟨rest, title⟩ := mem_numbered member
  rw [OfGroup, title]
  change ¬ some 'C' = some 'G'
  decide

theorem numbered_groups_ofGroup
    {items : List (List UInt8)} :
    ∀ shown ∈ (numbered "Group ".toList items).head?, OfGroup shown := by
  intro shown isHead
  obtain ⟨rest, title⟩ := mem_numbered (List.mem_of_mem_head? isHead)
  rw [OfGroup, title]
  rfl

/-- The lists of a signer can be told apart in its captions. -/
theorem numbered_append_eq_iff
    {first second firstGroups secondGroups : List (List UInt8)} :
    numbered "Contract ".toList first ++
          numbered "Group ".toList firstGroups =
        numbered "Contract ".toList second ++
          numbered "Group ".toList secondGroups ↔
      numbered "Contract ".toList first =
          numbered "Contract ".toList second ∧
        numbered "Group ".toList firstGroups =
          numbered "Group ".toList secondGroups := by
  constructor
  · exact
      append_inj_of_marked numbered_contracts_not_ofGroup
        numbered_contracts_not_ofGroup numbered_groups_ofGroup
        numbered_groups_ofGroup
  · rintro ⟨contracts, groups⟩
    rw [contracts, groups]

/-- The captions of one signer show its visible part. -/
theorem captions_eq_iff
    {first second : SignerContents} (firstValid : first.Valid)
    (secondValid : second.Valid) (firstNamed : ¬ UnnamedScope first.scope)
    (secondNamed : ¬ UnnamedScope second.scope) (i count : Nat) :
    first.captions i count = second.captions i count ↔
      first.visible = second.visible := by
  have account :
      snprintf 64 (percentH first.account) =
          snprintf 64 (percentH second.account) ↔
        first.account = second.account := by
    rw [snprintf_percentH firstValid.account,
      snprintf_percentH secondValid.account]
    exact ⟨percentH_injective, congrArg percentH⟩
  have scope :=
    scopeText_eq_iff firstValid.scope secondValid.scope firstNamed
      secondNamed
  have contracts :=
    contracts_eq_iff firstValid.contracts secondValid.contracts
  have groups := groups_eq_iff firstValid.groups secondValid.groups
  simp only [SignerContents.captions, caption, List.cons.injEq,
    Prod.mk.injEq, true_and, numbered_append_eq_iff, account, scope,
    contracts, groups, SignerContents.visible, SignerContents.mk.injEq]

/-! ## The whole walk -/

/-- A title that begins with `S` and `i`. -/
def OfIndex (shown : List Char × List Char) : Prop :=
  shown.1.take 2 = "Si".toList

theorem captions_isBlock (signer : SignerContents) (i count : Nat) :
    IsBlock OfIndex (signer.captions i count) := by
  refine ⟨_, _, rfl, rfl, ?_⟩
  have lists (word : List Char) (notIndex : word.take 2 ≠ "Si".toList)
      (long : 2 ≤ word.length) (items : List (List UInt8)) :
      ∀ shown ∈ numbered word items, ¬ OfIndex shown := by
    intro shown member
    obtain ⟨rest, title⟩ := mem_numbered member
    rw [OfIndex, title, snprintf, List.take_take,
      List.take_append_of_le_length (by omega)]
    exact notIndex
  intro shown member
  rcases List.mem_cons.mp member with rfl | member
  · change ¬ "Ac".toList = "Si".toList
    decide
  rcases List.mem_cons.mp member with rfl | member
  · change ¬ "Sc".toList = "Si".toList
    decide
  rcases List.mem_append.mp member with contract | group
  · exact lists "Contract ".toList (by decide) (by decide) _ shown contract
  · exact lists "Group ".toList (by decide) (by decide) _ shown group

def allCaptions (signers : List SignerContents) :
    List (List (List Char × List Char)) :=
  signers.mapIdx fun i signer => signer.captions i signers.length

/-- The walk over signers with named scopes. -/
theorem AcceptedContext.signerWalk_eq
    {sdk : Sdk} {b : List UInt8} {context : GlobalCtx}
    (accepted : AcceptedContext sdk b context)
    (named : NamedScopes context.transaction) (ui : Ui) :
    signerWalk context ui = (allCaptions context.signers).flatten := by
  obtain ⟨contents, encodes, decoded, _⟩ := accepted.signers_eq
  rw [Neo3App.signerWalk_eq (.of_decoded encodes decoded) named,
    List.flatMap_def, List.map_flatten, List.map_map]
  congr 1
  apply List.ext_getElem
  · simp [allCaptions, GlobalCtx.signers]
  · intro i _ inside
    simp [allCaptions, GlobalCtx.signers, map_caption_screensOf]

/-- The walk shows the visible parts of the signers. -/
theorem allCaptions_eq_iff
    {first second : List SignerContents}
    (firstGood : ∀ signer ∈ first,
      signer.Valid ∧ ¬ UnnamedScope signer.scope)
    (secondGood : ∀ signer ∈ second,
      signer.Valid ∧ ¬ UnnamedScope signer.scope) :
    (allCaptions first).flatten = (allCaptions second).flatten ↔
      first.map SignerContents.visible =
        second.map SignerContents.visible := by
  have blocks (signers : List SignerContents) :
      ∀ block ∈ allCaptions signers, IsBlock OfIndex block := by
    intro block member
    obtain ⟨i, inside, rfl⟩ := List.mem_iff_getElem.mp member
    simp only [allCaptions, List.getElem_mapIdx]
    exact captions_isBlock _ _ _
  have same :
      allCaptions first = allCaptions second ↔
        first.map SignerContents.visible =
          second.map SignerContents.visible := by
    have one (i count : Nat) (inside : i < first.length)
        (otherInside : i < second.length) :
        first[i].captions i count = second[i].captions i count ↔
          first[i].visible = second[i].visible := by
      have good := firstGood _ (List.getElem_mem inside)
      have otherGood := secondGood _ (List.getElem_mem otherInside)
      exact captions_eq_iff good.1 otherGood.1 good.2 otherGood.2 i count
    constructor
    · intro equal
      have lengths := congrArg List.length equal
      rw [allCaptions, allCaptions, List.length_mapIdx,
        List.length_mapIdx] at lengths
      apply List.ext_getElem
      · rw [List.length_map, List.length_map, lengths]
      · intro i inside otherInside
        rw [List.length_map] at inside otherInside
        have block := congrArg (fun blocks => blocks[i]?) equal
        simp [allCaptions, otherInside, lengths] at block
        rw [List.getElem_map, List.getElem_map]
        exact (one i _ inside otherInside).mp block
    · intro equal
      have lengths := congrArg List.length equal
      rw [List.length_map, List.length_map] at lengths
      apply List.ext_getElem
      · simpa [allCaptions] using lengths
      · intro i inside otherInside
        simp only [allCaptions, List.length_mapIdx] at inside otherInside
        have view := congrArg (fun views => views[i]?) equal
        simp [inside, otherInside] at view
        simp only [allCaptions, List.getElem_mapIdx, lengths]
        exact (one i _ inside otherInside).mpr view
  rw [← same]
  exact
    ⟨flatten_blocks_injective (blocks first) (blocks second),
      congrArg List.flatten⟩

theorem forall_signers_iff {context : GlobalCtx} :
    (∀ signer ∈ context.signers, ¬ UnnamedScope signer.scope) ↔
      NamedScopes context.transaction := by
  simp [GlobalCtx.signers, NamedScopes, signerContents]

/-- Two transactions whose scopes have names have the same signer screens
when their signers look alike. -/
theorem signerWalk_eq_iff
    {sdk : Sdk} {firstBytes secondBytes : List UInt8}
    {first second : GlobalCtx}
    (firstAccepted : AcceptedContext sdk firstBytes first)
    (secondAccepted : AcceptedContext sdk secondBytes second)
    (named : NamedScopes first.transaction)
    (otherNamed : NamedScopes second.transaction) (firstUi secondUi : Ui) :
    signerWalk first firstUi = signerWalk second secondUi ↔
      first.signers.map SignerContents.visible =
        second.signers.map SignerContents.visible := by
  obtain ⟨_, _, _, signers, valid⟩ := firstAccepted.signers_eq
  obtain ⟨_, _, _, otherSigners, otherValid⟩ := secondAccepted.signers_eq
  rw [← signers] at valid
  rw [← otherSigners] at otherValid
  rw [firstAccepted.signerWalk_eq named,
    secondAccepted.signerWalk_eq otherNamed]
  apply allCaptions_eq_iff
  · intro signer member
    exact ⟨valid signer member, forall_signers_iff.mpr named _ member⟩
  · intro signer member
    exact
      ⟨otherValid signer member, forall_signers_iff.mpr otherNamed _ member⟩

def scopeDisplay (context : GlobalCtx) (i : Nat) (gScope : List Char) :
    Ui :=
  { Ui.initial with
    scope := gScope
    displayCtx :=
      SignerScreen.scope.ctx (slot context.transaction.signers i) i }

/-- The texts are independent of what was shown before exactly when every
scope has a name. -/
theorem textsIndependent_iff
    {context : GlobalCtx} (sizes : ReviewSizes context.transaction) :
    TextsIndependent context ↔ NamedScopes context.transaction := by
  have shown {i : Nat} (inside : i < context.transaction.signersSize.toNat)
      {screen : SignerScreen}
      (isThere : screen.Exists (slot context.transaction.signers i))
      (ui : Ui)
      (here :
        ui.displayCtx =
          screen.ctx (slot context.transaction.signers i) i) :
      (renderProperty context ui).2.text =
        snprintf 64 (screen.text context i ui.scope) := by
    have rendered :=
      renderProperty_eq sizes inside isThere ui .dynamicScreen
    rw [SignerScreen.ctx_setState, ← here] at rendered
    rw [rendered]
    rfl
  constructor
  · intro independent i inside unnamed
    have printed (gScope : List Char) :=
      shown inside (show SignerScreen.scope.Exists _ from trivial)
        (scopeDisplay context i gScope) rfl
    simp only [SignerScreen.text, parseScopeName_unnamed unnamed] at printed
    have noneShown : ScopeBuffer "None".toList := by
      have valid : scopeNone = 0x80 ∨ scopeNone &&& 0x80 ≠ 0x80 :=
        .inr (by decide)
      exact .shown .cleared valid
    have equal :=
      independent i inside .scope trivial (scopeDisplay context i [])
        (scopeDisplay context i "None".toList) .cleared noneShown rfl rfl
    rw [printed, printed] at equal
    change
      snprintf 64 (percentS (-1) []) =
        snprintf 64 (percentS (-1) "None".toList) at equal
    exact absurd equal (by decide)
  · intro named i inside screen isThere first second _ _ firstHere secondHere
    rw [shown inside isThere first firstHere,
      shown inside isThere second secondHere,
      SignerScreen.text_named (named i inside) screen first.scope,
      SignerScreen.text_named (named i inside) screen second.scope]

/-- The signer screens determine the signers, and each text depends on the
signer alone. -/
structure SignersDetermined (first second : GlobalCtx)
    (firstUi secondUi : Ui) : Prop where
  determined :
    signerWalk first firstUi = signerWalk second secondUi →
      first.signers = second.signers
  firstIndependent : TextsIndependent first
  secondIndependent : TextsIndependent second

/-- The signer screens determine the signers when all scopes have names and
the signers do not differ in the hidden parts of scopes and groups alone. -/
theorem signerScreens_determine_iff
    {sdk : Sdk} {firstBytes secondBytes : List UInt8}
    {first second : GlobalCtx}
    (firstAccepted : AcceptedContext sdk firstBytes first)
    (secondAccepted : AcceptedContext sdk secondBytes second)
    (firstUi secondUi : Ui) :
    SignersDetermined first second firstUi secondUi ↔
      (∀ signer ∈ first.signers, ¬ UnnamedScope signer.scope) ∧
        (∀ signer ∈ second.signers, ¬ UnnamedScope signer.scope) ∧
          ¬ (first.signers ≠ second.signers ∧
            first.signers.map SignerContents.visible =
              second.signers.map SignerContents.visible) := by
  obtain ⟨contents, encodes, decoded, _⟩ := firstAccepted.signers_eq
  obtain ⟨other, otherEncodes, otherDecoded, _⟩ := secondAccepted.signers_eq
  have independent :=
    textsIndependent_iff (ReviewSizes.of_decoded encodes decoded)
  have otherIndependent :=
    textsIndependent_iff
      (ReviewSizes.of_decoded otherEncodes otherDecoded)
  rw [forall_signers_iff, forall_signers_iff]
  have walks (named : NamedScopes first.transaction)
      (otherNamed : NamedScopes second.transaction) :=
    signerWalk_eq_iff firstAccepted secondAccepted named otherNamed firstUi
      secondUi
  constructor
  · intro result
    have named := independent.mp result.firstIndependent
    have otherNamed := otherIndependent.mp result.secondIndependent
    refine ⟨named, otherNamed, ?_⟩
    rintro ⟨different, sameView⟩
    exact
      different
        (result.determined ((walks named otherNamed).mpr sameView))
  · rintro ⟨named, otherNamed, onlyVisible⟩
    refine
      ⟨?_, independent.mpr named, otherIndependent.mpr otherNamed⟩
    intro sameWalk
    by_contra different
    exact
      onlyVisible ⟨different, (walks named otherNamed).mp sameWalk⟩

/-- The context in which the transaction `b` is reviewed. -/
def heldContext (b : List UInt8) : GlobalCtx :=
  { parsedContext (parsedTransaction b).2 with
    rawTx := b ++ List.replicate (maxTransactionLen - b.length) 0
    rawTxLen := b.length }

theorem heldContext_accepted
    {b : List UInt8} (accepted : (parsedTransaction b).1 = .parsingOk) :
    AcceptedContext Sdk.constant b (heldContext b) :=
  ⟨Prod.ext accepted rfl, List.prefix_append _ _⟩

/-- The transfer of one NEO with one signer of a given scope. -/
def scopedTransaction (scope : UInt8) : List UInt8 :=
  [0] ++ List.replicate 24 0 ++ [1] ++ List.replicate 20 0x02 ++ [scope] ++
    [0] ++ UInt8.ofNat oneNeoScript.length :: oneNeoScript

theorem signerScreens_determine_iff_global :
    SignersDetermined (heldContext (scopedTransaction 0x01))
        (heldContext (scopedTransaction 0x80)) Ui.initial Ui.initial ↔
      (∀ signer ∈ (heldContext (scopedTransaction 0x01)).signers,
          ¬ UnnamedScope signer.scope) ∧
        (∀ signer ∈ (heldContext (scopedTransaction 0x80)).signers,
            ¬ UnnamedScope signer.scope) ∧
          ¬ ((heldContext (scopedTransaction 0x01)).signers ≠
                (heldContext (scopedTransaction 0x80)).signers ∧
            (heldContext (scopedTransaction 0x01)).signers.map
                SignerContents.visible =
              (heldContext (scopedTransaction 0x80)).signers.map
                SignerContents.visible) :=
  signerScreens_determine_iff
    (heldContext_accepted (by decide +kernel))
    (heldContext_accepted (by decide +kernel)) Ui.initial Ui.initial

/-- The scopes `0x01` and `0x03` are shown alike. -/
theorem signerScreens_collision :
    (AcceptedContext Sdk.constant (scopedTransaction 0x01)
          (heldContext (scopedTransaction 0x01)) ∧
        AcceptedContext Sdk.constant (scopedTransaction 0x03)
          (heldContext (scopedTransaction 0x03))) ∧
      ¬ (signerWalk (heldContext (scopedTransaction 0x01)) Ui.initial =
            signerWalk (heldContext (scopedTransaction 0x03)) Ui.initial →
          (heldContext (scopedTransaction 0x01)).signers =
            (heldContext (scopedTransaction 0x03)).signers) := by
  refine ⟨⟨heldContext_accepted (by decide +kernel),
    heldContext_accepted (by decide +kernel)⟩, ?_⟩
  intro determines
  have different :
      (heldContext (scopedTransaction 0x01)).signers ≠
        (heldContext (scopedTransaction 0x03)).signers := by
    decide +kernel
  exact different (determines (by decide +kernel))

/-! ## The walk with the buttons -/

/-- The title and the text of the generic step, when it is shown. -/
def Ui.generic? (ui : Ui) : Option (List Char × List Char) :=
  if ui.step = some .generic then some (ui.title, ui.text) else none

/-- The titles and texts of the generic step while the right button is
pressed to the end of a review. -/
def reviewWalk (context : GlobalCtx) (start : Ui) :
    List (List Char × List Char) :=
  (List.range (reviewScreens context.transaction).length).filterMap fun k =>
    (pressAll (uiPress context) start (List.replicate k .right)).generic?

theorem cursorAfter_right {count k : Nat} (inside : k < count) :
    cursorAfter count (List.replicate k .right) = k := by
  induction k with
  | zero =>
      rfl
  | succ k ih =>
      rw [List.replicate_succ', cursorAfter_append_singleton,
        ih (by omega), Press.move, if_pos inside]

def Screen.caption? (context : GlobalCtx) :
    Screen → Option (List Char × List Char)
  | .static _ => none
  | .signer i screen => some (Screen.caption context (.signer i screen))

theorem filterMap_caption?_reviewScreens (context : GlobalCtx) :
    (reviewScreens context.transaction).filterMap
        (Screen.caption? context) =
      ((List.range context.transaction.signersSize.toNat).flatMap
        (screensOf context.transaction)).map (Screen.caption context) := by
  have signers :
      ((List.range context.transaction.signersSize.toNat).flatMap
          (screensOf context.transaction)).filterMap
            (Screen.caption? context) =
        ((List.range context.transaction.signersSize.toNat).flatMap
          (screensOf context.transaction)).map
            (Screen.caption context) := by
    rw [signers_map_pairs, List.filterMap_map, List.map_map,
      ← List.filterMap_eq_map]
    rfl
  rw [reviewScreens, List.filterMap_append, List.filterMap_append, signers]
  exact List.append_nil _

theorem Shows.generic?_eq
    {context : GlobalCtx} (sizes : ReviewSizes context.transaction)
    (named : NamedScopes context.transaction) {ui : Ui} {screen : Screen}
    (shows : Shows context ui screen)
    (isThere : screen.Exists context.transaction) :
    ui.generic? = Screen.caption? context screen := by
  have shown := shows.screen_eq sizes isThere
  unfold Ui.screen at shown
  unfold Ui.generic?
  by_cases isGeneric : ui.step = some .generic
  · rw [if_pos isGeneric]
    cases screen with
    | static step =>
        rw [isGeneric] at shown
        dsimp only at shown
        split at shown <;> cases shown
    | signer i screen =>
        obtain ⟨title, gScope, text⟩ := shows.printed i screen rfl
        rw [title, text,
          SignerScreen.text_named (named i isThere.1) screen gScope]
        rfl
  · rw [if_neg isGeneric]
    cases screen with
    | static step =>
        rfl
    | signer i screen =>
        split at shown
        · rename_i generic
          exact absurd generic isGeneric
        · obtain ⟨step, _, isStatic⟩ := Option.map_eq_some_iff.mp shown
          cases isStatic

theorem filterMap_range_getElem?
    {α β : Type} (items : List α) (view : α → Option β) :
    ((List.range items.length).filterMap fun k => items[k]?.bind view) =
      items.filterMap view := by
  induction items with
  | nil =>
      rfl
  | cons item items ih =>
      rw [List.length_cons, List.range_succ_eq_map, List.filterMap_cons,
        List.filterMap_map, List.filterMap_cons, ← ih]
      rfl

/-- On the screen, the right button walks over the same signer screens. -/
theorem reviewWalk_eq
    {context : GlobalCtx} {start : Ui}
    (sizes : ReviewSizes context.transaction)
    (named : NamedScopes context.transaction)
    (shown : Shows context start (.static .review)) (ui : Ui) :
    reviewWalk context start = signerWalk context ui := by
  have captions (k : Nat)
      (inside : k < (reviewScreens context.transaction).length) :
      (pressAll (uiPress context) start
          (List.replicate k .right)).generic? =
        Screen.caption? context
          (reviewScreens context.transaction)[k] := by
    obtain ⟨screen, here, shows⟩ :=
      shown.after_presses sizes (List.replicate k .right)
    rw [cursorAfter_right inside, List.getElem?_eq_getElem inside] at here
    have isThere :=
      exists_of_mem_reviewScreens (List.getElem_mem inside)
    rw [Option.some.inj here] at isThere ⊢
    exact shows.generic?_eq sizes named isThere
  rw [signerWalk_eq sizes named, ← filterMap_caption?_reviewScreens]
  have positions :
      (List.range (reviewScreens context.transaction).length).filterMap
          (fun k =>
            (pressAll (uiPress context) start
              (List.replicate k .right)).generic?) =
        (List.range (reviewScreens context.transaction).length).filterMap
          fun k =>
            (reviewScreens context.transaction)[k]?.bind
              (Screen.caption? context) := by
    apply List.filterMap_congr
    intro k member
    have inside := List.mem_range.mp member
    rw [captions k inside, List.getElem?_eq_getElem inside]
    rfl
  rw [reviewWalk, positions, filterMap_range_getElem?]

/-- The same for the screens that a user reads: pressing the right button
through two reviews determines the signers up to what is hidden. -/
theorem reviewWalk_determines_iff
    {sdk : Sdk} {firstBytes secondBytes : List UInt8}
    {first second : GlobalCtx}
    (firstAccepted : AcceptedContext sdk firstBytes first)
    (secondAccepted : AcceptedContext sdk secondBytes second)
    (named : NamedScopes first.transaction)
    (otherNamed : NamedScopes second.transaction) {firstStart secondStart : Ui}
    (firstShown : Shows first firstStart (.static .review))
    (secondShown : Shows second secondStart (.static .review)) :
    (reviewWalk first firstStart = reviewWalk second secondStart →
        first.signers = second.signers) ↔
      ¬ (first.signers ≠ second.signers ∧
        first.signers.map SignerContents.visible =
          second.signers.map SignerContents.visible) := by
  obtain ⟨_, encodes, decoded, _⟩ := firstAccepted.signers_eq
  obtain ⟨_, otherEncodes, otherDecoded, _⟩ := secondAccepted.signers_eq
  rw [reviewWalk_eq (.of_decoded encodes decoded) named firstShown firstStart,
    reviewWalk_eq (.of_decoded otherEncodes otherDecoded) otherNamed
      secondShown secondStart,
    signerWalk_eq_iff firstAccepted secondAccepted named otherNamed]
  constructor
  · rintro determines ⟨different, alike⟩
    exact different (determines alike)
  · intro nothingHidden alike
    by_contra different
    exact nothingHidden ⟨different, alike⟩

end Neo3App
