import Neo3App.Session.Browsing
import Neo3App.Ui.SignersShown

/-!
# What the user reads

The lines of every step, as `ui/display.c` declares them, and what they say
along a review.  The Token amount step and the signer screens share one
buffer: once a signer has been shown, the Token amount step no longer shows
the amount.
-/

namespace Neo3App

open Neo3App.Lib

/-- The lines of a step; the delimiters are never displayed. -/
def Ui.stepLines (ui : Ui) : Step → List (List Char)
  | .confirmAddr => ["Confirm Address".toList]
  | .address => ["Address".toList, ui.address]
  | .approve => ["Approve".toList]
  | .reject => ["Reject".toList]
  | .review => ["Review".toList, "Transaction".toList]
  | .dstAddress => ["Destination addr".toList, ui.address]
  | .tokenAmount => ["Token amount".toList, ui.text]
  | .systemFee => ["System fee".toList, ui.systemFee]
  | .network => ["Target network".toList, ui.network]
  | .networkFee => ["Network fee".toList, ui.networkFee]
  | .totalFee => ["Total fees".toList, ui.totalFees]
  | .validUntilBlock => ["Valid until height".toList, ui.validUntilBlock]
  | .noArbitraryScript =>
      ["Error".toList,
        "Only NEO or GAS transfer scripts are supported.".toList]
  | .abort => ["Understood, abort..".toList]
  | .upperDelimiter => []
  | .generic => [ui.title, ui.text]
  | .lowerDelimiter => []

def Ui.lines (ui : Ui) : Option (List (List Char)) :=
  ui.step.map ui.stepLines

/-- Some of the presses led to a signer. -/
def SignersReached (count : Nat) (presses : List Press) : Prop :=
  ∃ before ∈ presses.inits, 8 ≤ cursorAfter count before

instance (count : Nat) (presses : List Press) :
    Decidable (SignersReached count presses) :=
  inferInstanceAs (Decidable (∃ before ∈ presses.inits, _))

/-- The text of the Token amount step after some presses. -/
def amountLine (tx : Transaction) (presses : List Press) : List Char :=
  if SignersReached (reviewScreens tx).length presses then
    countText 1 tx.signersSize
  else tokenAmountText tx

def reviewLines (context : GlobalCtx) (presses : List Press) :
    Screen → List (List Char)
  | .static .review => ["Review".toList, "Transaction".toList]
  | .static .dstAddress =>
      ["Destination addr".toList,
        snprintf 35 (cString context.transaction.dstAddress)]
  | .static .tokenAmount =>
      ["Token amount".toList, amountLine context.transaction presses]
  | .static .network =>
      ["Target network".toList, networkName context.networkMagic]
  | .static .systemFee =>
      ["System fee".toList,
        feeText context.transaction.systemFee.toUInt64]
  | .static .networkFee =>
      ["Network fee".toList,
        feeText context.transaction.networkFee.toUInt64]
  | .static .totalFee =>
      ["Total fees".toList,
        feeText
          (context.transaction.networkFee.toUInt64 +
            context.transaction.systemFee.toUInt64)]
  | .static .validUntilBlock =>
      ["Valid until height".toList,
        snprintf 11 (percentD context.transaction.validUntilBlock)]
  | .static .approve => ["Approve".toList]
  | .static .reject => ["Reject".toList]
  | .static _ => []
  | .signer i screen =>
      [(Screen.caption context (.signer i screen)).1,
        (Screen.caption context (.signer i screen)).2]

theorem signersReached_append_singleton
    (count : Nat) (presses : List Press) (button : Press) :
    SignersReached count (presses ++ [button]) ↔
      SignersReached count presses ∨
        8 ≤ cursorAfter count (presses ++ [button]) := by
  simp only [SignersReached, List.mem_inits, List.prefix_concat_iff]
  constructor
  · rintro ⟨before, rfl | earlier, reached⟩
    · exact .inr reached
    · exact .inl ⟨before, earlier, reached⟩
  · rintro (⟨before, earlier, reached⟩ | now)
    · exact ⟨before, .inr earlier, reached⟩
    · exact ⟨_, .inl rfl, now⟩

variable {context : GlobalCtx}

/-- Between two static steps before the signers the buttons print nothing. -/
theorem OnReview.text_early
    {ui : Ui} (review : OnReview ui) {button : Press} {count : Nat}
    (many : 8 < count) (early : ui.index < 8)
    (still : button.move count ui.index < 8) :
    (uiPress context button ui).text = ui.text := by
  cases button with
  | left =>
      by_cases inside : 0 < ui.index
      · rw [uiPress, review.prev_plain context inside (by omega) (by omega)]
      · rw [uiPress, uxFlowPrev, if_neg inside]
  | right =>
      have moves : ui.index + 1 < 8 := by
        rw [Press.move] at still
        split at still <;> omega
      rw [uiPress,
        review.next_plain context (by omega) (by omega) (by omega)]

/-- Going back from the first signer prints nothing. -/
theorem OnReview.text_leave
    {ui : Ui} (review : OnReview ui) (index : ui.index = 9)
    (ctx : ui.displayCtx =
      (Screen.signer 0 .index).ctx context.transaction) :
    (uiPress context .left ui).text = ui.text := by
  have moves :
      prevProp context.transaction 2 ui.displayCtx =
        resetSignerDisplayState.setState .dynamicScreen := by
    rw [ctx]
    rfl
  rw [review.press_outside context .left true (by rw [index]; rfl)
    (by rw [ctx]; rfl) moves (.inl rfl)]

theorem getElem?_reviewScreens_early
    {tx : Transaction} {k : Nat} {screen : Screen} (early : k < 8)
    (here : (reviewScreens tx)[k]? = some screen) :
    ∃ step, screen = .static step ∧ reviewFlow[k]? = some step := by
  rw [reviewScreens, List.getElem?_append_left (by exact early),
    List.getElem?_map, List.getElem?_take_of_lt early] at here
  obtain ⟨step, isStep, rfl⟩ := Option.map_eq_some_iff.mp here
  exact ⟨step, rfl, isStep⟩

section

variable (sizes : ReviewSizes context.transaction)

include sizes

theorem getElem?_reviewScreens_signer :
    (reviewScreens context.transaction)[8]? =
      some (.signer 0 .index) := by
  have inside := sizes.some
  obtain ⟨more, count⟩ :
      ∃ more, context.transaction.signersSize.toNat = more + 1 :=
    ⟨_, (Nat.succ_pred_eq_of_pos inside).symm⟩
  rw [reviewScreens, count, List.range_succ_eq_map, List.flatMap_cons]
  rfl

theorem eight_lt_length_reviewScreens :
    8 < (reviewScreens context.transaction).length :=
  (List.getElem?_eq_some_iff.mp (getElem?_reviewScreens_signer sizes)).1

theorem snprintf_countText :
    snprintf 64 (countText 1 context.transaction.signersSize) =
      countText 1 context.transaction.signersSize := by
  have few := sizes.few
  have some := sizes.some
  have either : context.transaction.signersSize = 1 ∨
      context.transaction.signersSize = 2 := by
    rw [← UInt8.toNat_inj, ← UInt8.toNat_inj]
    change _ = 1 ∨ _ = 2
    omega
  rcases either with one | two
  · rw [one]
    rfl
  · rw [two]
    rfl

/-- What the shared buffer holds on the steps before the signers. -/
theorem text_after_presses
    {start : Ui} (shown : Shows context start (.static .review))
    (amount : start.text = tokenAmountText context.transaction)
    (presses : List Press)
    (early :
      cursorAfter (reviewScreens context.transaction).length presses < 8) :
    (pressAll (uiPress context) start presses).text =
      amountLine context.transaction presses := by
  have many := eight_lt_length_reviewScreens sizes
  induction presses using List.reverseRecOn with
  | nil =>
      have none :
          ¬ SignersReached (reviewScreens context.transaction).length [] := by
        simp [SignersReached, cursorAfter]
      rw [amountLine, if_neg none]
      exact amount
  | append_singleton presses button ih =>
      obtain ⟨screen, here, shows⟩ := shown.after_presses sizes presses
      have reached :=
        signersReached_append_singleton
          (reviewScreens context.transaction).length presses button
      rw [or_iff_left (Nat.not_le.mpr early)] at reached
      have same : amountLine context.transaction (presses ++ [button]) =
          amountLine context.transaction presses := by
        simp only [amountLine, reached]
      rw [same, pressAll_append_singleton]
      rw [cursorAfter_append_singleton] at early
      by_cases before :
          cursorAfter (reviewScreens context.transaction).length presses < 8
      · obtain ⟨step, rfl, isStep⟩ :=
          getElem?_reviewScreens_early before here
        have index := shows.index
        rw [(staticScreen_flow before isStep).1] at index
        rw [shows.review.text_early many (by rwa [index])
          (by rwa [index])]
        exact ih before
      · obtain ⟨rfl, atSigner⟩ : button = .left ∧
            cursorAfter (reviewScreens context.transaction).length presses =
              8 := by
          cases button with
          | left =>
              rw [Press.move] at early
              exact ⟨rfl, by omega⟩
          | right =>
              rw [Press.move] at early
              split at early <;> omega
        rw [atSigner, getElem?_reviewScreens_signer sizes] at here
        cases here
        obtain ⟨_, gScope, text⟩ := shows.printed 0 .index rfl
        have reached :
            SignersReached (reviewScreens context.transaction).length
              presses :=
          ⟨presses, (List.mem_inits _ _).mpr (List.prefix_refl _),
            Nat.le_of_not_lt before⟩
        rw [shows.review.text_leave shows.index shows.ctx, text, amountLine,
          if_pos reached]
        exact snprintf_countText sizes

end

/-- What a user reads along a review. -/
structure Transcript (context : GlobalCtx) (start : Ui)
    (presses : List Press) : Prop where
  /-- The steps before and after the signers. -/
  static : ∀ step,
    (reviewScreens context.transaction)[cursorAfter
        (reviewScreens context.transaction).length presses]? =
      some (.static step) →
    (pressAll (uiPress context) start presses).lines =
      some (reviewLines context presses (.static step))
  /-- The signers; the screen of a scope without a name is left out. -/
  signer : ∀ (i : Nat) (screen : SignerScreen),
    (reviewScreens context.transaction)[cursorAfter
        (reviewScreens context.transaction).length presses]? =
      some (.signer i screen) →
    (screen = .scope →
      ¬ UnnamedScope (slot context.transaction.signers i).scope) →
    (pressAll (uiPress context) start presses).lines =
      some (reviewLines context presses (.signer i screen))

/-- What the buttons leave alone is the same on displays with one review. -/
theorem Ui.field_of_review
    {α : Type} (field : Ui → α) (kept : ∀ ui : Ui, field ui.review = field ui)
    {ui other : Ui} (same : ui.review = other.review) :
    field ui = field other := by
  rw [← kept ui, same, kept other]

/-- The lines of a static step that is on the screen. -/
theorem stepLines_eq
    {start ui : Ui} {presses : List Press}
    (display : start.review = (reviewUi context ui).review)
    (isTransfer : context.transaction.isSystemAssetTransfer = true)
    {step : Step} (isThere : (Screen.static step).Exists context.transaction)
    (text : step = .tokenAmount →
      start.text = amountLine context.transaction presses) :
    start.stepLines step = reviewLines context presses (.static step) := by
  have address := Ui.field_of_review Ui.address (fun _ => rfl) display
  have network := Ui.field_of_review Ui.network (fun _ => rfl) display
  have systemFee := Ui.field_of_review Ui.systemFee (fun _ => rfl) display
  have networkFee := Ui.field_of_review Ui.networkFee (fun _ => rfl) display
  have totalFees := Ui.field_of_review Ui.totalFees (fun _ => rfl) display
  have validUntilBlock :=
    Ui.field_of_review Ui.validUntilBlock (fun _ => rfl) display
  rw [reviewUi_address ui isTransfer] at address
  cases step with
  | review | approve | reject => rfl
  | dstAddress => exact congrArg (["Destination addr".toList, ·]) address
  | tokenAmount => exact congrArg (["Token amount".toList, ·]) (text rfl)
  | network => exact congrArg (["Target network".toList, ·]) network
  | systemFee => exact congrArg (["System fee".toList, ·]) systemFee
  | networkFee => exact congrArg (["Network fee".toList, ·]) networkFee
  | totalFee => exact congrArg (["Total fees".toList, ·]) totalFees
  | validUntilBlock =>
      exact congrArg (["Valid until height".toList, ·]) validUntilBlock
  | confirmAddr | address | noArbitraryScript | abort | upperDelimiter
  | generic | lowerDelimiter =>
      change _ ∈ reviewFlow.take 8 ++ [.approve, .reject] at isThere
      exact absurd isThere (by decide)

theorem SignerScreen.text_of_named
    {i : Nat} {screen : SignerScreen}
    (named : screen = .scope →
      ¬ UnnamedScope (slot context.transaction.signers i).scope)
    (gScope : List Char) :
    screen.text context i gScope = screen.text context i [] := by
  cases screen with
  | scope => exact SignerScreen.text_named (named rfl) .scope gScope
  | index | account | contract | group => rfl

/-- The lines after some presses. -/
theorem lines_after_presses
    {sdk : Sdk} {b : List UInt8}
    (accepted : AcceptedTransfer sdk b context.transaction) (ui : Ui)
    (presses : List Press) {screen : Screen}
    (here : (reviewScreens context.transaction)[cursorAfter
        (reviewScreens context.transaction).length presses]? = some screen)
    (named : ∀ i, screen = .signer i .scope →
      ¬ UnnamedScope (slot context.transaction.signers i).scope) :
    (pressAll (uiPress context) (reviewUi context ui) presses).lines =
      some (reviewLines context presses screen) := by
  have sizes := accepted.reviewSizes
  have isTransfer := accepted.isTransfer
  have shown := shows_reviewUi ui isTransfer
  obtain ⟨current, isCurrent, shows⟩ := shown.after_presses sizes presses
  cases isCurrent.symm.trans here
  have isThere := exists_of_mem_reviewScreens (List.mem_of_getElem? here)
  have step := shows.step_eq
  cases screen with
  | static static =>
      have table : ∀ step ∈ reviewFlow.take 8 ++ [.approve, .reject],
          reviewFlow[(Screen.static step).index]? = some step := by
        decide
      rw [table static isThere] at step
      have same := pressAll_review context (reviewUi context ui) presses
      rw [Ui.lines, step]
      refine congrArg some (stepLines_eq same isTransfer isThere ?_)
      rintro rfl
      have position : cursorAfter (reviewScreens context.transaction).length
          presses = 2 :=
        (List.getElem?_inj (List.getElem?_eq_some_iff.mp here).1
          (reviewScreens_nodup _)).mp (here.trans rfl)
      exact
        text_after_presses sizes shown (reviewUi_text ui isTransfer) presses
          (by omega)
  | signer i screen =>
      obtain ⟨title, gScope, text⟩ := shows.printed i screen rfl
      rw [SignerScreen.text_of_named
        (fun isScope => named i (congrArg _ isScope))] at text
      rw [Ui.lines, step]
      change some [Ui.title _, Ui.text _] = _
      rw [title, text]
      rfl

/-- The lines along the review of an accepted transfer. -/
theorem review_transcript
    {sdk : Sdk} {b : List UInt8} {app : App}
    (reviewed : ReviewedTransfer sdk b app) (presses : List Press) :
    Transcript app.context (uiDisplayTransaction app).1.ui presses := by
  rw [uiDisplayTransaction_eq reviewed.isTransaction reviewed.isParsed]
  constructor
  · intro step here
    refine lines_after_presses reviewed.accepted app.ui presses here ?_
    intro i isScope
    cases isScope
  · intro i screen here named
    refine lines_after_presses reviewed.accepted app.ui presses here ?_
    intro j isScope
    cases isScope
    exact named rfl

/-- A user who goes back from the first signer to the Token amount step reads
the position of the signer there. -/
theorem review_transcript_oneNeo :
    (pressAll (uiPress (reviewApp oneNeo networkMainnet).context)
        (uiDisplayTransaction (reviewApp oneNeo networkMainnet)).1.ui
        (List.replicate 8 .right ++ List.replicate 6 .left)).lines =
      some ["Token amount".toList, "1 of 1".toList] :=
  ((review_transcript (acceptedTransfer_oneNeo.reviewed networkMainnet)
    _).static .tokenAmount (by decide +kernel)).trans (by decide +kernel)

end Neo3App
