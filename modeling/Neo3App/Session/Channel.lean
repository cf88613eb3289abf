import Neo3App.Session.Responses

/-!
# Waiting on the channel

The application waits for the next command in one of two ways: attending, when
the next answer is transmitted, or with `G_io_state` left `READY` by a review
that was answered too late, when the next answer makes `app_main` return.
-/

namespace Neo3App

open Neo3App.Lib

def sentBytes (effects : List Effect) : List (List UInt8) :=
  (responsesOf effects).map fun response =>
    responseBytes response.1 response.2

/-- The device waits on its channel. -/
structure Attending (io : IoApp) : Prop where
  wf : io.app.context.Wf
  running : io.running = true
  position : Position io

/-- A step of the channel is one of the device, and its responses are
transmitted. -/
structure Served (sdk : Sdk) (io : IoApp) (event : Event) (next : IoApp) :
    Prop where
  attending : Attending next
  app : next.app = (deviceStep sdk io.app event).1
  transmitted : next.transmitted =
    io.transmitted ++ sentBytes (deviceStep sdk io.app event).2

variable {sdk : Sdk} {io : IoApp} {after : App} {bytes data : List UInt8}
  {sw : UInt16} {effects : List Effect}

theorem transmitted_append
    {next : IoApp} {events : List IoEvent} {sent : List (List UInt8)}
    (log : next.log = io.log ++ events)
    (onWire : events.filterMap IoEvent.onWire = sent) :
    next.transmitted = io.transmitted ++ sent := by
  rw [IoApp.transmitted, log, List.filterMap_append, onWire]
  rfl

theorem Attending.answered
    (attending : Attending io)
    (step : deviceStep sdk io.app (.apdu bytes) = (after, effects))
    (responses : responsesOf effects = [(data, sw)])
    (sameUi : after.ui = io.app.ui) (afterWf : after.context.Wf) :
    Served sdk io (.apdu bytes) (ioCommand sdk bytes io) := by
  rw [ioCommand_answered step responses (attending.position.receives bytes)]
  have sameFlow : after.ui.flow = io.app.ui.flow := congrArg Ui.flow sameUi
  refine ⟨⟨afterWf, attending.running, ?_⟩, by rw [step], ?_⟩
  · cases attending.position with
    | idle noReview =>
        exact .idle (sameFlow.trans noReview) (.inl ⟨rfl, rfl⟩)
    | reviewing review known =>
        exact
          .reviewing (sameFlow.trans_ne review) (Nat.lt_succ_of_lt known)
            (.inl ⟨rfl, rfl⟩)
  · rw [step, sentBytes, responses]
    exact transmitted_append rfl rfl

theorem Attending.silent
    (attending : Attending io)
    (step : deviceStep sdk io.app (.apdu bytes) = (after, effects))
    (responses : responsesOf effects = [])
    (review : after.ui.flow ≠ .menu) (afterWf : after.context.Wf) :
    Served sdk io (.apdu bytes) (ioCommand sdk bytes io) := by
  rw [ioCommand_silent step responses (attending.position.receives bytes)]
  refine ⟨⟨afterWf, attending.running, ?_⟩, by rw [step], ?_⟩
  · exact .reviewing review (Nat.lt_succ_self _) (.inr ⟨rfl, rfl⟩)
  · rw [step, sentBytes, responses]
    exact transmitted_append rfl rfl

theorem Attending.reviewed
    (attending : Attending io)
    (step : deviceStep sdk io.app .confirm = (after, effects))
    (responses : responsesOf effects = [(data, sw)])
    (review : io.app.ui.flow ≠ .menu) (noReview : after.ui.flow = .menu)
    (isWaiting : io.ioState = .waiting) (afterWf : after.context.Wf) :
    Served sdk io .confirm (ioCallback sdk io) := by
  rw [ioCallback_waiting step responses isWaiting]
  have asynch : io.asynch = true := by
    cases attending.position with
    | idle menu => exact absurd menu review
    | reviewing _ _ wait =>
        rcases wait with ⟨isReceived, _⟩ | ⟨_, asynch⟩
        · cases isWaiting.symm.trans isReceived
        · exact asynch
  refine ⟨⟨afterWf, attending.running, ?_⟩, by rw [step], ?_⟩
  · exact .idle noReview (.inr ⟨rfl, asynch⟩)
  · rw [step, sentBytes, responses]
    exact transmitted_append rfl rfl

theorem Attending.pressed
    (attending : Attending io) (button : Press)
    (step : deviceStep sdk io.app (.press button) = (after, effects))
    (afterWf : after.context.Wf) :
    Served sdk io (.press button) { io with app := after } := by
  have outcome := deviceStep_outcome sdk attending.wf (.press button)
  simp only [step] at outcome
  cases outcome with
  | pressed =>
      have sameFlow :=
        congrArg Ui.flow (uiPress_review io.app.context button io.app.ui)
      refine ⟨⟨afterWf, attending.running, ?_⟩, by rw [step], ?_⟩
      · cases attending.position with
        | idle noReview wait => exact .idle (sameFlow.trans noReview) wait
        | reviewing review known wait =>
            exact .reviewing (sameFlow.trans_ne review) known wait
      · rw [step]
        exact (List.append_nil _).symm
  | answered request | pathRefused request | pathAccepted request
  | keyRefused request | keySent request | keyShown request
  | magicGuarded request | magicMissing request | magicRead request
  | chunkGuarded request | chunkTooLong request | chunkTaken request
  | parseFailed request | reviewStarted request =>
      cases request

/-- On the menu there is nothing to answer. -/
theorem not_answers_of_menu {ui : Ui} (noReview : ui.flow = .menu) :
    ¬ ui.Answers := by
  rintro ⟨isFinal, _⟩
  have noStep : ui.step = none := by
    rw [Ui.step, Ui.steps, noReview]
    rfl
  rw [noStep] at isFinal
  exact absurd isFinal (by decide)

/-- Both buttons where they answer nothing. -/
theorem ioCallback_ignored
    (wf : io.app.context.Wf) (ignored : ¬ io.app.ui.Answers) :
    ioCallback sdk io = io := by
  rcases step : deviceStep sdk io.app .confirm with ⟨after, effects⟩
  rcases deviceStep_confirm wf step with ⟨answers, _⟩ | ⟨_, silent, same⟩
  · exact absurd answers ignored
  · rw [same] at step
    simp only [ioCallback, step, silent, ioRespond, List.foldl_nil]

/-- A step that answers no review too late. -/
theorem Attending.step
    {event : Event} (attending : Attending io)
    (inTime : event = .confirm → io.app.ui.Answers → io.ioState = .waiting) :
    Served sdk io event (ioStep sdk io event) := by
  have afterWf := (deviceStep_outcome sdk attending.wf event).wf attending.wf
  rcases step : deviceStep sdk io.app event with ⟨after, effects⟩
  rw [step] at afterWf
  rw [ioStep.eq_def, if_pos attending.running]
  cases event with
  | apdu bytes =>
      rcases deviceStep_command attending.wf step with
        ⟨_, silent, review⟩ | ⟨_, ⟨data, sw, responses⟩, sameUi⟩
      · exact attending.silent step silent review afterWf
      · exact attending.answered step responses sameUi afterWf
  | press button =>
      dsimp only
      rw [step]
      exact attending.pressed button step afterWf
  | confirm =>
      rcases deviceStep_confirm attending.wf step with
        ⟨answers, ⟨data, sw, responses⟩, noReview, review⟩ |
          ⟨ignored, silent, same⟩
      · exact
          attending.reviewed step responses review noReview
            (inTime rfl answers) afterWf
      · dsimp only
        rw [ioCallback_ignored attending.wf ignored]
        refine ⟨attending, by rw [step, same], ?_⟩
        rw [step, sentBytes, silent]
        exact (List.append_nil _).symm

theorem attending_initial : Attending IoApp.initial where
  wf := initial_wf
  running := rfl
  position := .idle rfl (.inl ⟨rfl, rfl⟩)

theorem attending_restart (io : IoApp) : Attending io.restart where
  wf := initial_wf
  running := rfl
  position := .idle rfl (.inl ⟨rfl, rfl⟩)

/-- The last review was answered while the device did not wait for the answer,
which stayed in the buffer, and nothing was sent since. -/
def IoApp.Overtaken (io : IoApp) : Prop :=
  io.ioState = .ready ∧ io.asynch = false

instance decidableOvertaken (io : IoApp) : Decidable io.Overtaken :=
  inferInstanceAs (Decidable (_ ∧ _))

/-- The device waits after an overtaken review. -/
structure Stuck (io : IoApp) : Prop where
  wf : io.app.context.Wf
  running : io.running = true
  noReview : io.app.ui.flow = .menu
  overtaken : io.Overtaken

theorem Attending.not_overtaken (attending : Attending io) :
    ¬ io.Overtaken := by
  rintro ⟨isReady, sync⟩
  cases attending.position with
  | idle _ wait =>
      rcases wait with ⟨isReceived, _⟩ | ⟨_, async⟩
      · cases isReady.symm.trans isReceived
      · cases sync.symm.trans async
  | reviewing _ _ wait =>
      rcases wait with ⟨isReceived, _⟩ | ⟨isWaiting, _⟩
      · cases isReady.symm.trans isReceived
      · cases isReady.symm.trans isWaiting

/-- A review that is answered too late. -/
theorem Attending.overtaken
    (attending : Attending io) (answers : io.app.ui.Answers)
    (late : io.ioState ≠ .waiting) : Stuck (ioCallback sdk io) := by
  have afterWf :=
    (deviceStep_outcome sdk attending.wf .confirm).wf attending.wf
  rcases step : deviceStep sdk io.app .confirm with ⟨after, effects⟩
  rw [step] at afterWf
  rcases deviceStep_confirm attending.wf step with
    ⟨_, ⟨data, sw, responses⟩, noReview, review⟩ | ⟨ignored, _⟩
  · cases attending.position with
    | idle menu => exact absurd menu review
    | reviewing _ _ wait =>
        rcases wait with ⟨isReceived, sync⟩ | ⟨isWaiting, _⟩
        · rw [ioCallback_received step responses isReceived]
          exact ⟨afterWf, attending.running, noReview, rfl, sync⟩
        · exact absurd isWaiting late
  · exact absurd answers ignored

theorem IoApp.transmit_eq (io : IoApp) :
    io.transmit = { io with log := io.transmit.log } := by
  rw [transmit]
  split <;> rfl

/-- A wait that is entered in `READY`. -/
theorem attending_ioRecvCommand
    (wf : io.app.context.Wf) (running : io.running = true)
    (isReady : io.ioState = .ready)
    (known : io.app.ui.flow ≠ .menu → io.reviewed < io.commands) :
    Attending (ioRecvCommand io) := by
  have waits : ioRecvCommand io =
      { io with
        log := io.transmit.log
        ioState := .received
        asynch := false } := by
    simp only [ioRecvCommand, isReady]
    rw [io.transmit_eq]
  rw [waits]
  refine ⟨wf, running, ?_⟩
  by_cases noReview : io.app.ui.flow = .menu
  · exact .idle noReview (.inl ⟨rfl, rfl⟩)
  · exact .reviewing noReview (known noReview) (.inl ⟨rfl, rfl⟩)

/-- A command after an overtaken review: where it would be answered,
`io_send_response` returns -1 in `READY`. -/
theorem ioCommand_overtaken
    (step : deviceStep sdk io.app (.apdu bytes) = (after, effects))
    (responses : responsesOf effects = [(data, sw)])
    (overtaken : io.Overtaken) :
    ∃ written : IoApp,
      written.app = after ∧ written.running = io.running ∧
        written.ioState = .ready ∧ written.transmitted = io.transmitted ∧
        ioCommand sdk bytes io =
          if (apduParser bytes).isSome then
            { written with
              running := false
              log := written.log ++ [.left] }
          else ioRecvCommand written := by
  obtain ⟨isReady, sync⟩ := overtaken
  refine
    ⟨{ io with
        app := after
        commands := io.commands + 1
        origin := io.commands
        buffer :=
          memmove (memmove io.buffer 0 bytes) 0 (responseBytes data sw)
        outputLen := (responseBytes data sw).length
        log := io.log ++
          [.received io.commands,
            .written io.commands .ready (responseBytes data sw)] },
      rfl, rfl, isReady, ?_, ?_⟩
  · exact (transmitted_append rfl rfl).trans (List.append_nil _)
  · have negative : (-1 : Int) < 0 := by decide
    simp only [ioCommand, step, responses, ioRespond, List.foldl_cons,
      List.foldl_nil, ioSendResponse, IoApp.receive, sync, isReady,
      Bool.false_eq_true, if_false, negative, true_and, List.append_assoc,
      List.cons_append, List.nil_append, reduceCtorEq]

/-- The stuck device attends again unless `app_main` returns. -/
theorem Stuck.command
    (stuck : Stuck io) (bytes : List UInt8)
    (running : (ioCommand sdk bytes io).running = true) :
    Attending (ioCommand sdk bytes io) := by
  have afterWf := (deviceStep_outcome sdk stuck.wf (.apdu bytes)).wf stuck.wf
  rcases step : deviceStep sdk io.app (.apdu bytes) with ⟨after, effects⟩
  rw [step] at afterWf
  rcases deviceStep_command stuck.wf step with
    ⟨_, silent, _⟩ | ⟨_, ⟨data, sw, responses⟩, sameUi⟩
  · have isReady : (io.receive bytes).ioState = .ready := by
      simp only [IoApp.receive, stuck.overtaken.2, stuck.overtaken.1,
        Bool.false_eq_true, if_false]
    have shown : ioCommand sdk bytes io = ioRecvCommand
        { io.receive bytes with app := after, reviewed := io.commands } := by
      simp only [ioCommand, step, silent, ioRespond, List.foldl_nil,
        Int.lt_irrefl, false_and, if_false, if_true]
    rw [shown]
    exact
      attending_ioRecvCommand afterWf stuck.running isReady
        fun _ => Nat.lt_succ_self _
  · obtain ⟨written, isAfter, isRunning, isReady, _, answered⟩ :=
      ioCommand_overtaken step responses stuck.overtaken
    rw [answered] at running ⊢
    split at running
    next => cases running
    next unparsed =>
      rw [if_neg unparsed]
      refine
        attending_ioRecvCommand (isAfter ▸ afterWf)
          (isRunning.trans stuck.running) isReady ?_
      intro review
      rw [isAfter, sameUi] at review
      exact absurd stuck.noReview review

/-- An event that is not in time leaves the device stuck. -/
theorem Attending.waits
    (attending : Attending io) (event : Event) :
    Attending (ioStep sdk io event) ∨ Stuck (ioStep sdk io event) := by
  by_cases late :
      event = .confirm ∧ io.app.ui.Answers ∧ io.ioState ≠ .waiting
  · obtain ⟨rfl, answers, isLate⟩ := late
    rw [ioStep.eq_def, if_pos attending.running]
    exact .inr (attending.overtaken answers isLate)
  · refine .inl (attending.step fun isConfirm answers => ?_).attending
    by_contra isLate
    exact late ⟨isConfirm, answers, isLate⟩

theorem Stuck.waits
    (stuck : Stuck io) (event : Event)
    (running : (ioStep sdk io event).running = true) :
    Attending (ioStep sdk io event) ∨ Stuck (ioStep sdk io event) := by
  have afterWf := (deviceStep_outcome sdk stuck.wf event).wf stuck.wf
  rw [ioStep.eq_def, if_pos stuck.running] at running ⊢
  cases event with
  | apdu bytes => exact .inl (stuck.command bytes running)
  | press button =>
      have sameFlow :=
        congrArg Ui.flow (uiPress_review io.app.context button io.app.ui)
      exact
        .inr ⟨afterWf, stuck.running, sameFlow.trans stuck.noReview,
          stuck.overtaken⟩
  | confirm =>
      right
      dsimp only
      rwa [ioCallback_ignored stuck.wf (not_answers_of_menu stuck.noReview)]

/-- The device waits in one of the two ways after every input. -/
theorem ioMain_invariant (sdk : Sdk) :
    (ioMain sdk).Invariant (fun _ _ => True)
      fun _ io => Attending io ∨ Stuck io where
  initial := .inl attending_initial
  preserved := by
    rintro history ⟨io, input⟩ waits -
    cases input with
    | none => exact .inl (attending_restart io)
    | some event =>
        dsimp only [ioMain]
        split
        next running =>
          rcases waits with attending | stuck
          · exact attending.waits event
          · exact stuck.waits event running
        next => exact .inl (attending_restart _)

/-- The device waits in one of the two ways after every run. -/
theorem waits_after (sdk : Sdk) (inputs : List (Option Event)) :
    Attending ((ioMain sdk).after inputs) ∨
      Stuck ((ioMain sdk).after inputs) :=
  (ioMain_invariant sdk).run inputs fun _ _ _ _ => trivial

theorem attending_of_not_overtaken
    (inputs : List (Option Event))
    (answered : ¬ ((ioMain sdk).after inputs).Overtaken) :
    Attending ((ioMain sdk).after inputs) :=
  (waits_after sdk inputs).resolve_right fun stuck =>
    answered stuck.overtaken

end Neo3App
