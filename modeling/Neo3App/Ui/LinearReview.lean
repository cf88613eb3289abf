import Neo3App.Ui.Transcript

/-!
# A review is a linear list of screens

The screen that the step and the indices of `display_ctx` designate is always
the one under a cursor that the buttons move by one, and the approval comes
after all other screens.  What is read there is the screen's own text unless a
shared buffer was written in between: `g_text` on the Token amount step, and
`g_scope` where a scope has no printed name.
-/

namespace Neo3App

open Neo3App.Lib

/-- The lines that belong to a screen, when `g_scope` holds `gScope`.  Before
the first press `g_text` holds the amount. -/
def Screen.ownLines (context : GlobalCtx) (gScope : List Char) :
    Screen → List (List Char)
  | .static step => reviewLines context [] (.static step)
  | .signer i screen =>
      [snprintf 64 (screen.title (slot context.transaction.signers i)),
        snprintf 64 (screen.text context i gScope)]

/-- The screen is shown with its own lines, whatever was shown before. -/
def Ui.Displays (context : GlobalCtx) (ui : Ui) (screen : Screen) : Prop :=
  ui.screen = some screen ∧
    ∀ gScope, ui.lines = some (screen.ownLines context gScope)

/-- The review that starts with the display `start` is, after some presses,
where a cursor on the list of its screens is. -/
structure LinearReview (context : GlobalCtx) (start : Ui)
    (presses : List Press) : Prop where
  distinct : (reviewScreens context.transaction).Nodup
  /-- The screen under the cursor is shown. -/
  cursor : ∃ screen,
    (reviewScreens context.transaction)[cursorAfter
        (reviewScreens context.transaction).length presses]? = some screen ∧
      (pressAll (uiPress context) start presses).Displays context screen
  inRange : (pressAll (uiPress context) start presses).step = some .generic →
    (pressAll (uiPress context) start presses).displayCtx.InRange
      context.transaction
  /-- All screens but the last have been shown before the approval. -/
  approve : (pressAll (uiPress context) start presses).screen =
      some (.static .approve) →
    ∀ earlier ∈ reviewScreens context.transaction,
      earlier ≠ .static .reject →
        ∃ before, before <+: presses ∧
          (pressAll (uiPress context) start before).screen = some earlier

/-- The buffer that a screen shows was written for another one: `g_text` by a
signer screen, or `g_scope` by any earlier scope. -/
def Screen.OldText (tx : Transaction) (presses : List Press) : Screen → Prop
  | .static .tokenAmount => SignersReached (reviewScreens tx).length presses
  | .signer i .scope => UnnamedScope (slot tx.signers i).scope
  | _ => False

/-- The cursor has come to such a screen. -/
def ShowsOldText (tx : Transaction) (presses : List Press) : Prop :=
  ∃ screen ∈ (reviewScreens tx)[cursorAfter (reviewScreens tx).length
      presses]?, screen.OldText tx presses

variable {context : GlobalCtx} {presses : List Press}

/-- The position of a signer is no amount. -/
theorem countText_ne_tokenAmountText (tx : Transaction) :
    countText 1 tx.signersSize ≠ tokenAmountText tx := by
  intro same
  have heads := congrArg List.head? same
  rw [tokenAmountText] at heads
  cases isNeo : tx.isNeo with
  | true =>
      rw [isNeo] at heads
      have digit : '1' = 'N' := Option.some.inj heads
      exact absurd digit (by decide)
  | false =>
      rw [isNeo] at heads
      have digit : '1' = 'G' := Option.some.inj heads
      exact absurd digit (by decide)

theorem not_signersReached_nil (count : Nat) : ¬ SignersReached count [] := by
  simp [SignersReached, cursorAfter]

/-- Only the line of the Token amount step depends on the presses. -/
theorem reviewLines_eq_iff (step : Step) :
    reviewLines context presses (.static step) =
        reviewLines context [] (.static step) ↔
      ¬ (Screen.static step).OldText context.transaction presses := by
  by_cases isAmount : step = .tokenAmount
  · subst isAmount
    have fresh : amountLine context.transaction [] =
        tokenAmountText context.transaction :=
      if_neg (not_signersReached_nil _)
    simp only [reviewLines, List.cons.injEq, true_and, and_true, fresh,
      Screen.OldText]
    by_cases reached :
        SignersReached (reviewScreens context.transaction).length presses
    · rw [amountLine, if_pos reached]
      exact
        iff_of_false (countText_ne_tokenAmountText _) (not_not_intro reached)
    · rw [amountLine, if_neg reached]
      exact iff_of_true rfl reached
  · cases step with
    | tokenAmount => exact absurd rfl isAmount
    | _ => exact iff_of_true rfl not_false

/-- The name of a scope without one is what `g_scope` held before. -/
theorem SignerScreen.text_unnamed
    {i : Nat}
    (unnamed : UnnamedScope (slot context.transaction.signers i).scope)
    (gScope : List Char) :
    SignerScreen.scope.text context i gScope = percentS (-1) gScope := by
  simp only [SignerScreen.text, parseScopeName_unnamed unnamed]

/-- The text of a signer screen is its own exactly when it is no scope without
a name. -/
theorem SignerScreen.text_independent_iff (i : Nat) (screen : SignerScreen)
    (shown : List Char) :
    (∀ gScope, snprintf 64 (screen.text context i shown) =
        snprintf 64 (screen.text context i gScope)) ↔
      ¬ (Screen.signer i screen).OldText context.transaction presses := by
  by_cases isScope : screen = .scope
  · subst isScope
    change _ ↔ ¬ UnnamedScope _
    constructor
    · intro independent unnamed
      have first := independent []
      have second := independent "None".toList
      rw [SignerScreen.text_unnamed unnamed] at first second
      rw [SignerScreen.text_unnamed unnamed] at first second
      exact absurd (first.symm.trans second) (by decide)
    · intro named gScope
      rw [SignerScreen.text_named named .scope shown,
        SignerScreen.text_named named .scope gScope]
  · cases screen with
    | scope => exact absurd rfl isScope
    | index | account | contract | group =>
        exact iff_of_true (fun _ => rfl) not_false

/-- The screen under the cursor shows its own lines unless a buffer was
written for another one. -/
theorem ownLines_after_presses
    {sdk : Sdk} {b : List UInt8}
    (accepted : AcceptedTransfer sdk b context.transaction) (ui : Ui)
    {screen : Screen}
    (here : (reviewScreens context.transaction)[cursorAfter
        (reviewScreens context.transaction).length presses]? = some screen) :
    (∀ gScope,
      (pressAll (uiPress context) (reviewUi context ui) presses).lines =
        some (screen.ownLines context gScope)) ↔
      ¬ screen.OldText context.transaction presses := by
  cases screen with
  | static step =>
      have lines :=
        lines_after_presses accepted ui presses here (by nofun)
      rw [← reviewLines_eq_iff, lines]
      simp only [Screen.ownLines, Option.some.injEq, forall_const]
  | signer i screen =>
      have sizes := accepted.reviewSizes
      obtain ⟨current, isCurrent, shows⟩ :=
        (shows_reviewUi ui accepted.isTransfer).after_presses sizes presses
      cases isCurrent.symm.trans here
      have generic := shows.step_eq
      obtain ⟨title, gScope, text⟩ := shows.printed i screen rfl
      rw [← screen.text_independent_iff i gScope]
      have lines :
          (pressAll (uiPress context) (reviewUi context ui) presses).lines =
            some ((Screen.signer i screen).ownLines context gScope) := by
        rw [Ui.lines, generic]
        change some [Ui.title _, Ui.text _] = _
        rw [title, text]
        rfl
      rw [lines]
      simp only [Screen.ownLines, Option.some.injEq, List.cons.injEq,
        true_and, and_true]

/-- The first screen of a review. -/
theorem ReviewedTransfer.shows_review
    {sdk : Sdk} {b : List UInt8} {app : App}
    (reviewed : ReviewedTransfer sdk b app) :
    Shows app.context (uiDisplayTransaction app).1.ui
      (.static .review) := by
  rw [uiDisplayTransaction_eq reviewed.isTransaction reviewed.isParsed]
  exact shows_reviewUi app.ui reviewed.accepted.isTransfer

section

variable (sizes : ReviewSizes context.transaction) {start : Ui}
  (shown : Shows context start (.static .review))

include sizes shown

/-- The screen under the cursor is designated after any presses. -/
theorem screen_after_presses (presses : List Press) :
    ∃ screen,
      (reviewScreens context.transaction)[cursorAfter
          (reviewScreens context.transaction).length presses]? =
        some screen ∧
      (pressAll (uiPress context) start presses).screen = some screen ∧
      ((pressAll (uiPress context) start presses).step = some .generic →
        (pressAll (uiPress context) start presses).displayCtx.InRange
          context.transaction) := by
  obtain ⟨screen, here, shows⟩ := shown.after_presses sizes presses
  have isThere := exists_of_mem_reviewScreens (List.mem_of_getElem? here)
  exact
    ⟨screen, here, shows.screen_eq sizes isThere, shows.inRange sizes isThere⟩

/-- The Approve step comes after all screens before it. -/
theorem shown_before_approve
    (approves : (pressAll (uiPress context) start presses).screen =
      some (.static .approve))
    {earlier : Screen} (member : earlier ∈ reviewScreens context.transaction)
    (notLast : earlier ≠ .static .reject) :
    ∃ before, before <+: presses ∧
      (pressAll (uiPress context) start before).screen = some earlier := by
  have distinct := reviewScreens_nodup context.transaction
  obtain ⟨count, length, approveAt, rejectAt⟩ :=
    getElem?_reviewScreens_end context.transaction
  obtain ⟨screen, here, shows, _⟩ := screen_after_presses sizes shown presses
  cases approves.symm.trans shows
  have atApprove :
      count =
        cursorAfter (reviewScreens context.transaction).length presses :=
    (List.getElem?_inj (by omega) distinct).mp (approveAt.trans here.symm)
  obtain ⟨position, inside, atPosition⟩ := List.mem_iff_getElem.mp member
  have notReject : position ≠ count + 1 := by
    rintro rfl
    rw [List.getElem?_eq_getElem inside, atPosition] at rejectAt
    exact notLast (Option.some.inj rejectAt)
  have already :
      position ≤
        cursorAfter (reviewScreens context.transaction).length presses := by
    omega
  obtain ⟨before, isPrefix, visited⟩ := cursorAfter_visits _ _ already
  obtain ⟨shownBefore, atBefore, showsBefore, _⟩ :=
    screen_after_presses sizes shown before
  rw [visited, List.getElem?_eq_getElem inside, atPosition] at atBefore
  cases atBefore
  exact ⟨before, isPrefix, showsBefore⟩

end

/-- The buttons move a cursor over the screens of an accepted transfer, and
the lines read are those of the screen under it, except on screens whose
buffer was written for another one. -/
theorem review_refines_cursor_iff
    {sdk : Sdk} {b : List UInt8} {app : App}
    (reviewed : ReviewedTransfer sdk b app) (presses : List Press) :
    LinearReview app.context (uiDisplayTransaction app).1.ui presses ↔
      ¬ ShowsOldText app.context.transaction presses := by
  have sizes := reviewed.accepted.reviewSizes
  have shown := reviewed.shows_review
  have started :=
    uiDisplayTransaction_eq reviewed.isTransaction reviewed.isParsed
  obtain ⟨screen, here, shows, inRange⟩ :=
    screen_after_presses sizes shown presses
  have lines :=
    ownLines_after_presses reviewed.accepted app.ui here
  have old : ShowsOldText app.context.transaction presses ↔
      screen.OldText app.context.transaction presses := by
    rw [ShowsOldText, here]
    simp only [Option.mem_def, Option.some.injEq, exists_eq_left']
  rw [old, ← lines]
  rw [started] at shown shows inRange ⊢
  constructor
  · rintro ⟨_, ⟨other, isOther, _, own⟩, _⟩
    cases isOther.symm.trans here
    exact own
  · intro own
    exact
      ⟨reviewScreens_nodup _, ⟨screen, here, shows, own⟩, inRange,
        fun approves _ member notLast =>
          shown_before_approve sizes shown approves member notLast⟩

/-- On the first signer of a transfer of one NEO. -/
theorem review_refines_cursor_iff_oneNeo :
    LinearReview (reviewApp oneNeo networkMainnet).context
      (uiDisplayTransaction (reviewApp oneNeo networkMainnet)).1.ui
      (List.replicate 8 .right) := by
  refine
    (review_refines_cursor_iff (acceptedTransfer_oneNeo.reviewed
      networkMainnet) _).mpr ?_
  rintro ⟨screen, here, old⟩
  have atSigner :
      (reviewScreens (reviewApp oneNeo
          networkMainnet).context.transaction)[cursorAfter
        (reviewScreens (reviewApp oneNeo
          networkMainnet).context.transaction).length
        (List.replicate 8 .right)]? = some (.signer 0 .index) := by
    decide +kernel
  cases atSigner.symm.trans here
  exact old

/-- Eight presses to the right and six to the left come back to the Token
amount step, which shows the position of the signer. -/
theorem not_linearReview_backToAmount :
    (ReviewedTransfer Sdk.constant oneNeoTransaction
        (reviewApp oneNeo networkMainnet) ∧
      (pressAll (uiPress (reviewApp oneNeo networkMainnet).context)
          (uiDisplayTransaction (reviewApp oneNeo networkMainnet)).1.ui
          (List.replicate 8 .right ++ List.replicate 6 .left)).lines =
        some ["Token amount".toList, "1 of 1".toList]) ∧
      ¬ LinearReview (reviewApp oneNeo networkMainnet).context
        (uiDisplayTransaction (reviewApp oneNeo networkMainnet)).1.ui
        (List.replicate 8 .right ++ List.replicate 6 .left) := by
  have lines :
      (pressAll (uiPress (reviewApp oneNeo networkMainnet).context)
          (uiDisplayTransaction (reviewApp oneNeo networkMainnet)).1.ui
          (List.replicate 8 .right ++ List.replicate 6 .left)).lines =
        some ["Token amount".toList, "1 of 1".toList] := by
    decide +kernel
  refine ⟨⟨acceptedTransfer_oneNeo.reviewed networkMainnet, lines⟩, ?_⟩
  intro linear
  obtain ⟨screen, here, _, own⟩ := linear.cursor
  have atAmount :
      (reviewScreens (reviewApp oneNeo
          networkMainnet).context.transaction)[cursorAfter
        (reviewScreens (reviewApp oneNeo
          networkMainnet).context.transaction).length
        (List.replicate 8 .right ++ List.replicate 6 .left)]? =
          some (.static .tokenAmount) := by
    decide +kernel
  cases atAmount.symm.trans here
  have amount := lines.symm.trans (own [])
  exact absurd amount (by decide +kernel)

end Neo3App
