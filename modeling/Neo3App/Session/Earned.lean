import Neo3App.Session.Reviews
import Neo3App.Ui.PrintedScreens

/-!
# Signatures are earned

Every signature has a review of its own: since that review started nothing
was answered, and each of its static steps was on the screen.  Commands may
come in between.
-/

namespace Neo3App

open Neo3App.Lib

variable {sdk : Sdk} {turn : DeviceTurn}

/-- The buttons pass no static step of a review. -/
theorem OnReview.index_uiPress
    {ui : Ui} (review : OnReview ui) (context : GlobalCtx) (button : Press) :
    (uiPress context button ui).index ≤ ui.index + 1 ∨ 7 ≤ ui.index := by
  by_cases late : 7 ≤ ui.index
  · exact .inr late
  · refine .inl ?_
    cases button with
    | left =>
        by_cases inside : 0 < ui.index
        · rw [uiPress,
            review.prev_plain context inside (by omega) (by omega)]
          exact Nat.le_succ_of_le (Nat.sub_le _ _)
        · rw [uiPress, uxFlowPrev, if_neg inside]
          exact Nat.le_succ _
    | right =>
        rw [uiPress,
          review.next_plain context (by omega) (by omega) (by omega)]

/-- Outside the buttons a turn that stays in its review stays on its step. -/
theorem index_of_no_start
    (wf : turn.state.context.Wf) (noReview : ¬ turn.StartsReview sdk)
    (review : OnReview turn.state.ui)
    (stays : (turn.result sdk).1.ui.flow = .transaction) :
    ((turn.result sdk).1.ui.index ≤ turn.state.ui.index + 1 ∨
        7 ≤ turn.state.ui.index) ∧
      (turn.input = .confirm → (turn.result sdk).2 = []) := by
  have outcome := deviceStep_outcome sdk wf turn.input
  rcases turn with ⟨app, event⟩
  rcases result : deviceStep sdk app event with ⟨after, effects⟩
  simp only [result] at outcome
  rw [Turn.result, result] at stays ⊢
  change after.ui.flow = .transaction at stays
  change (after.ui.index ≤ app.ui.index + 1 ∨ 7 ≤ app.ui.index) ∧
    (event = .confirm → effects = [])
  cases outcome with
  | reviewStarted request passes fits parsed =>
      have start : ReviewStart sdk ⟨app, event⟩ _ _ :=
        ⟨request, passes, fits, parsed, result⟩
      exact absurd start.startsReview noReview
  | keyShown | keyApproved | keyDenied | signed | signFailed | denied =>
      cases stays
  | pressed button =>
      exact
        ⟨review.index_uiPress app.context button,
          fun isConfirm => (by cases isConfirm)⟩
  | ignored => exact ⟨.inl (Nat.le_succ _), fun _ => rfl⟩
  | answered request | pathRefused request | pathAccepted request
  | keyRefused request | keySent request | magicGuarded request
  | magicMissing request | magicRead request | chunkGuarded request
  | chunkTooLong request | chunkTaken request | parseFailed request =>
      refine ⟨.inl (Nat.le_succ _), ?_⟩
      rintro rfl
      cases request

def Unanswered (sdk : Sdk) (later : List DeviceTurn) : Prop :=
  ∀ turn ∈ later, turn.input = .confirm → (turn.result sdk).2 = []

/-- A step of the review was on the screen at one of these turns. -/
def WasShown (later : List DeviceTurn) (k : Nat) : Prop :=
  ∃ turn ∈ later, turn.state.ui.step = reviewFlow[k]?

/-- What the turns since the last review have in common while it is on the
screen. -/
structure ReviewProgress (sdk : Sdk) (history : List DeviceTurn) (ui : Ui) :
    Prop where
  keeps : OnReview ui → ∀ {earlier later : List DeviceTurn}
    {review : DeviceTurn},
    LastTurn (Turn.StartsReview sdk) earlier review later history →
      Unanswered sdk later ∧
        ∀ k < 8, k ≤ ui.index → ui.index = k ∨ WasShown later k

theorem WasShown.append
    {later : List DeviceTurn} {k : Nat} (shown : WasShown later k)
    (turn : DeviceTurn) : WasShown (later ++ [turn]) k := by
  obtain ⟨other, member, step⟩ := shown
  exact ⟨other, List.mem_append_left _ member, step⟩

theorem ReviewProgress.append
    {history : List DeviceTurn} (wf : turn.state.context.Wf)
    (progress : ReviewProgress sdk history turn.state.ui) :
    ReviewProgress sdk (history ++ [turn]) (turn.result sdk).1.ui where
  keeps := by
    intro onReview earlier later review last
    rcases last.of_append_singleton with
      ⟨_, rfl, rfl⟩ | ⟨rest, rfl, noReview, before⟩
    · obtain ⟨data, tx, start⟩ := last.isKind.start wf
      refine ⟨fun other member => (by cases member), fun k _ few => .inl ?_⟩
      rw [start.result] at few ⊢
      exact (Nat.le_zero.mp few).symm
    · have onBefore : OnReview turn.state.ui := by
        by_cases noAddress : turn.StartsAddressReview sdk
        · obtain ⟨data, start⟩ := noAddress.start wf
          have flow := onReview.flow
          rw [start.result] at flow
          cases flow
        rcases display_of_no_start wf noReview noAddress with same | menu
        · exact onReview.of_review same.symm
        · cases menu.symm.trans onReview.flow
      obtain ⟨unanswered, shown⟩ := progress.keeps onBefore before
      obtain ⟨near, silent⟩ :=
        index_of_no_start wf noReview onBefore onReview.flow
      constructor
      · intro other member
        rcases List.mem_append.mp member with earlier | now
        · exact unanswered other earlier
        · rw [List.mem_singleton.mp now]
          exact silent
      · intro k static few
        rcases Nat.lt_or_ge turn.state.ui.index k with ahead | passed
        · exact .inl (by omega)
        · rcases shown k static passed with here | earlier
          · refine .inr ⟨turn, by simp, ?_⟩
            rw [Ui.step, onBefore.steps, here]
          · exact .inr (earlier.append turn)

theorem reviewProgress_invariant (sdk : Sdk) :
    (device sdk).Invariant (fun _ _ => True)
      fun history app =>
        (app.context.Wf ∧ OnScreen sdk history app.ui) ∧
          app.context.Wf ∧ ReviewProgress sdk history app.ui := by
  refine (onScreen_invariant sdk).and (device_invariant ?_ ?_)
  · exact ⟨fun _ _ _ _ last => absurd last.mem List.not_mem_nil⟩
  · intro history app after event effects wf progress _ result _
    have next := @ReviewProgress.append sdk ⟨app, event⟩ _ wf progress
    rw [Turn.result, result] at next
    exact next

theorem reviewFlow_approve {index : Nat}
    (isApprove : reviewFlow[index]? = some .approve) : index = 11 := by
  have table : ∀ k : Fin 13, reviewFlow[k.val]? = some .approve →
      k.val = 11 := by
    decide
  exact table ⟨index, (List.getElem?_eq_some_iff.mp isApprove).1⟩ isApprove

/-- The Approve step of a transaction belongs to the review of a
transfer. -/
theorem OnScreen.onReview_of_approve
    {history : List DeviceTurn} {ui : Ui} (shown : OnScreen sdk history ui)
    (step : ui.step = some .approve)
    (callback : ui.validateCallback = some .transaction) :
    OnReview ui := by
  have flow := shown.flow_of_approve step callback
  refine ⟨flow, ?_⟩
  obtain ⟨_, review, _, data, tx, _, _, start, display⟩ :=
    shown.transaction flow
  have steps : ui.transactionFlow = createTransactionFlow tx := by
    rw [Ui.transactionFlow_of_review display, start.result]
    rfl
  by_cases transfer : tx.isSystemAssetTransfer = true
  · rw [steps, createTransactionFlow, if_neg (not_not.mpr transfer)]
    rfl
  · rw [createTransactionFlow, if_pos transfer] at steps
    rw [Ui.step, Ui.steps, flow] at step
    dsimp only at step
    rw [steps] at step
    have member := List.mem_of_getElem? step
    exact absurd member (by decide)

/-- A signature at a turn is earned: since the last review started no
signature was made and nothing else was answered by the buttons, and each of
its static steps was on the screen. -/
structure Earned (sdk : Sdk) (later : List DeviceTurn) : Prop where
  unsigned : ∀ turn ∈ later, ¬ turn.Signs sdk
  unanswered : Unanswered sdk later
  shown : ∀ step ∈ reviewFlow.take 8,
    ∃ turn ∈ later, turn.state.ui.step = some step

/-- Every signature of a run has a review of its own. -/
theorem signatures_earned (sdk : Sdk) (events : List Event) :
    (device sdk).Throughout
      (fun history turn => turn.Signs sdk → ∃ earlier review later,
        LastTurn (Turn.StartsReview sdk) earlier review later history ∧
          Earned sdk later) events := by
  refine
    ((reviewProgress_invariant sdk).and
      (wf_invariant sdk).recorded).throughout ?_ fun _ _ _ _ => trivial
  rintro history turn ⟨⟨⟨wf, onScreen⟩, _, progress⟩, _, recorded⟩ _ signs
  obtain ⟨_, approve, callback, _⟩ := signs.approves wf
  have review := onScreen.onReview_of_approve approve callback
  obtain ⟨earlier, start, later, _, _, last, _⟩ :=
    onScreen.transaction review.flow
  obtain ⟨unanswered, shown⟩ := progress.keeps review last
  have index : turn.state.ui.index = 11 := by
    rw [Ui.step, review.steps] at approve
    exact reviewFlow_approve approve
  refine ⟨earlier, start, later, last, ?_, unanswered, ?_⟩
  · intro other member otherSigns
    have otherWf : other.state.context.Wf := by
      apply recorded
      rw [last.split]
      exact List.mem_append_right _ (List.mem_cons_of_mem _ member)
    obtain ⟨confirms, _, _, prefixed⟩ := otherSigns.approves otherWf
    rw [unanswered other member confirms] at prefixed
    cases List.prefix_nil.mp prefixed
  · intro step member
    obtain ⟨k, static, rfl⟩ := List.getElem_of_mem member
    rw [List.getElem_take]
    rw [List.length_take, Nat.min_eq_left (by decide)] at static
    rcases shown k static (by omega) with here | ⟨other, member, step⟩
    · omega
    · refine ⟨other, member, ?_⟩
      rw [step, List.getElem?_eq_getElem]

end Neo3App
