import Neo3App.Session.Channel
import Neo3App.Session.Restart

/-!
# What goes over the wire

The loop of `main` around the channel: a reset of the channel and a return of
`app_main` start the application again, with an empty response.  Between two
starts the bytes that are transmitted are the responses of the device, in
their order, as long as each review is answered while the device waits for
it.
-/

namespace Neo3App

open Neo3App.Lib

/-- The application is started again at this turn. -/
def Lib.Turn.Restarts (sdk : Sdk) (turn : Turn IoApp (Option Event)) : Prop :=
  ∀ event, turn.input = some event →
    (ioStep sdk turn.state event).running = false

/-- Nothing has happened, or the application has just been started again. -/
def JustStarted (sdk : Sdk) (inputs : List (Option Event)) : Prop :=
  ∀ input ∈ inputs.getLast?,
    Turn.Restarts sdk ⟨(ioMain sdk).after inputs.dropLast, input⟩

variable {sdk : Sdk} {io : IoApp}

/-- The channel records what the loop of `main` around the device
answers. -/
theorem ioMain_recording (sdk : Sdk) :
    Recording (ioMain sdk) (mainLoop sdk)
      (fun turn => ∀ event, turn.input = some event →
        OneReview sdk turn.state event)
      (fun io app => Attending io ∧ SameView io.app app)
      IoApp.transmitted (fun answer => answer.toList.flatMap sentBytes) where
  states := by
    rintro io app input ⟨attending, same⟩ one
    cases input with
    | none => exact ⟨attending_restart io, rfl, rfl⟩
    | some event =>
        have served :=
          @Attending.step sdk _ _ attending (one event rfl).answered
        have alike := (@deviceStep_view sdk _ _ event same).1
        rw [← served.app] at alike
        dsimp only [ioMain]
        rw [if_pos served.attending.running]
        exact ⟨served.attending, alike⟩
  adds := by
    rintro io app input ⟨attending, same⟩ one
    cases input with
    | none => exact (List.append_nil _).symm
    | some event =>
        have served :=
          @Attending.step sdk _ _ attending (one event rfl).answered
        have effects := (@deviceStep_view sdk _ _ event same).2
        dsimp only [ioMain]
        rw [if_pos served.attending.running, served.transmitted, effects]
        exact congrArg _ (List.append_nil _).symm

theorem JustStarted.related
    {inputs : List (Option Event)} (started : JustStarted sdk inputs) :
    Attending ((ioMain sdk).after inputs) ∧
      SameView ((ioMain sdk).after inputs).app App.initial := by
  rcases List.eq_nil_or_concat inputs with rfl | ⟨before, input, rfl⟩
  · exact ⟨attending_initial, rfl, rfl⟩
  · rw [List.concat_eq_append] at started ⊢
    have restarts := started input (by simp)
    rw [List.dropLast_concat] at restarts
    rw [Transition.after_append_singleton]
    cases input with
    | none => exact ⟨attending_restart _, rfl, rfl⟩
    | some event =>
        dsimp only [ioMain] at restarts ⊢
        rw [if_neg (by rw [restarts event rfl]; exact Bool.false_ne_true)]
        exact ⟨attending_restart _, rfl, rfl⟩

/-- From any start on the wire carries the responses of a new device. -/
theorem wire_afterStart
    (sdk : Sdk) {before : List (Option Event)}
    (started : JustStarted sdk before) (inputs : List (Option Event))
    (one : ∀ turn ∈ (ioMain sdk).traceFrom ((ioMain sdk).after before) inputs,
      ∀ event, turn.input = some event → OneReview sdk turn.state event) :
    ((ioMain sdk).after (before ++ inputs)).transmitted =
      ((ioMain sdk).after before).transmitted ++
        ((mainLoop sdk).runFrom App.initial inputs).2.flatMap
          fun answer => answer.toList.flatMap sentBytes := by
  rw [(ioMain sdk).after_append]
  exact ((ioMain_recording sdk).runFrom started.related one).2

/-- Without a review, and at the buttons while the device waits for the
answer, no review is overtaken. -/
theorem OneReview.of_quiet
    {event : Event}
    (quiet : io.app.ui.flow = .menu ∨
      io.ioState = .waiting ∧ event.request = none) :
    OneReview sdk io event where
  answered := by
    rintro rfl answers
    rcases quiet with noReview | ⟨isWaiting, _⟩
    · exact absurd answers (not_answers_of_menu noReview)
    · exact isWaiting
  starts := by
    intro begins
    obtain ⟨bytes, rfl⟩ := apdu_of_begins begins
    rcases quiet with noReview | ⟨_, request⟩
    · exact noReview
    · cases request

/-- An address is approved, the channel is reset and the version is asked
for. -/
def servedRun : List (Option Event) :=
  [some (getPublicKeyEvent 1 firstKeyPath), some (.press .right),
    some (.press .right), some .confirm, none, some getVersionEvent]

/-- The run in which a public key is lost ends with a new start; what follows
is served. -/
theorem wire_afterStart_overlapped :
    ((ioMain Sdk.constant).after
        (overlappedRun.map some ++ servedRun)).transmitted =
      [responseBytes appVersion swOk,
        responseBytes (0x04 :: List.replicate 64 0) swOk,
        responseBytes appVersion swOk] := by
  have started : JustStarted Sdk.constant (overlappedRun.map some) := by
    intro input isLast event isEvent
    cases isLast
    cases isEvent
    decide +kernel
  have quiet : ∀ turn ∈
      (ioMain Sdk.constant).traceFrom
        ((ioMain Sdk.constant).after (overlappedRun.map some)) servedRun,
      turn.state.app.ui.flow = .menu ∨
        turn.state.ioState = .waiting ∧
          turn.input.bind Event.request = none := by
    decide +kernel
  refine (wire_afterStart Sdk.constant started servedRun ?_).trans
    (by decide +kernel)
  intro turn member event isEvent
  have isQuiet := quiet turn member
  rw [isEvent] at isQuiet
  exact .of_quiet isQuiet

end Neo3App
