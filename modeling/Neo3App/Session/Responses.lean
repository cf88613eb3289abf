import Neo3App.Io
import Neo3App.Session.NoBlindSigning

/-!
# One response for each command

A command is answered by one response, at once or after its review, as long
as a review is answered while the device waits for it and no command starts
a review over another one.  These are exactly the runs in which every command
is answered.
-/

namespace Neo3App

open Neo3App.Lib

/-- The number of responses transmitted to a command. -/
def IoApp.transmissions (io : IoApp) (number : Nat) : Nat :=
  io.log.countP fun event =>
    match event with
    | .transmitted origin _ => origin = number
    | _ => false

/-- A response is transmitted before anything else happens. -/
def SentFirst : IoEvent → IoEvent → Prop
  | .written number _ bytes, next => next = .transmitted number bytes
  | _, _ => True

structure RespondsOnce (io : IoApp) : Prop where
  /-- Each command has one response, except while its review is shown. -/
  answered : ∀ number < io.commands, io.transmissions number =
    if io.app.ui.flow ≠ .menu ∧ number = io.reviewed then 0 else 1
  /-- Each response answers a command. -/
  answers : ∀ number ≥ io.commands, io.transmissions number = 0
  /-- Each response is transmitted before the buffer is written again. -/
  sent : io.log.IsChain SentFirst
  /-- `io_send_response` is not entered in the state `READY`. -/
  notReady : ∀ number bytes, .written number .ready bytes ∉ io.log
  /-- The loop is not left. -/
  stays : .left ∉ io.log

/-- The step on the screen answers the command of the review. -/
def Ui.Answers (ui : Ui) : Prop :=
  ui.step ∈ [some .approve, some .reject, some .abort] ∧
    ui.validateCallback ≠ none

/-- The event starts a review: the bytes of a transaction are accepted, or
the address of an accepted path is to be shown. -/
def BeginsReview (sdk : Sdk) (app : App) (event : Event) : Prop :=
  Turn.WritesHash sdk ⟨app, event⟩ ∨
    ∃ data, event.request = some (.publicKey true data) ∧
      20 ≤ data.length ∧ ValidPath (pathWords data)

/-- A review is answered while the device waits for it, and none starts over
another one. -/
structure OneReview (sdk : Sdk) (io : IoApp) (event : Event) : Prop where
  answered : event = .confirm → io.app.ui.Answers → io.ioState = .waiting
  starts : BeginsReview sdk io.app event → io.app.ui.flow = .menu

variable {sdk : Sdk}

/-- The address of an accepted path is shown without an answer. -/
theorem responses_of_shown
    {app after : App} {event : Event} {data : List UInt8}
    {effects : List Effect} (wf : app.context.Wf)
    (isKey : event.request = some (.publicKey true data))
    (long : 20 ≤ data.length) (valid : ValidPath (pathWords data))
    (step : deviceStep sdk app event = (after, effects)) :
    responsesOf effects = [] := by
  have outcome := deviceStep_outcome sdk wf event
  simp only [step] at outcome
  cases outcome with
  | keyShown => rfl
  | keyRefused request refused =>
      cases isKey.symm.trans request
      have short : data.length ≤ 255 := by
        cases event with
        | apdu bytes =>
            have few := length_apduRequest_data_le bytes
            have isRequest : apduRequest bytes = .publicKey true data :=
              Option.some.inj isKey
            rwa [isRequest] at few
        | press | confirm => cases isKey
      have accepted :=
        (validatePath_eq_ok_iff (lt_sizeModulus_of_short short)
          GlobalCtx.zero.bip44Path _).mpr ⟨long, valid, rfl⟩
      cases refused.symm.trans accepted
  | answered other | pathRefused other | pathAccepted other | keySent other
  | magicGuarded other | magicMissing other | magicRead other
  | chunkGuarded other | chunkTooLong other | chunkTaken other
  | parseFailed other | reviewStarted other =>
      cases isKey.symm.trans other
  | pressed | ignored | keyApproved | keyDenied | signed | signFailed
  | denied =>
      cases isKey

/-- A command is answered at once, or starts a review. -/
theorem deviceStep_command
    {app after : App} {bytes : List UInt8} {effects : List Effect}
    (wf : app.context.Wf)
    (step : deviceStep sdk app (.apdu bytes) = (after, effects)) :
    (BeginsReview sdk app (.apdu bytes) ∧ responsesOf effects = [] ∧
        after.ui.flow ≠ .menu) ∨
      ¬ BeginsReview sdk app (.apdu bytes) ∧
        (∃ data sw, responsesOf effects = [(data, sw)]) ∧
          after.ui = app.ui := by
  have outcome := deviceStep_outcome sdk wf (.apdu bytes)
  simp only [step] at outcome
  have silent (begins : BeginsReview sdk app (.apdu bytes)) :
      responsesOf effects = [] := by
    rcases begins with writes | ⟨data, request, long, valid⟩
    · have unanswered := ((writesHash_iff wf).mp writes).2
      rw [Turn.result, step] at unanswered
      exact congrArg responsesOf unanswered
    · exact responses_of_shown wf request long valid step
  have answered {data : List UInt8} {sw : UInt16}
      (responses : responsesOf effects = [(data, sw)]) :
      ¬ BeginsReview sdk app (.apdu bytes) := by
    intro begins
    rw [silent begins] at responses
    cases responses
  cases outcome with
  | keyShown request long valid =>
      refine .inl ⟨.inr ⟨_, request, long, valid⟩, rfl, ?_⟩
      intro isMenu
      cases isMenu
  | reviewStarted request passes fits parsed =>
      have start : ReviewStart sdk ⟨app, .apdu bytes⟩ _ _ :=
        ⟨request, passes, fits, parsed, step⟩
      refine .inl ⟨.inl ⟨_, _, start.hashes wf⟩, rfl, ?_⟩
      intro isMenu
      cases isMenu
  | answered | pathRefused | pathAccepted | keyRefused | keySent
  | magicGuarded | magicMissing | magicRead | chunkGuarded | chunkTooLong
  | chunkTaken | parseFailed =>
      exact .inr ⟨answered rfl, ⟨_, _, rfl⟩, rfl⟩

/-- Both buttons answer a review and return to the menu, or do nothing. -/
theorem deviceStep_confirm
    {app after : App} {effects : List Effect} (wf : app.context.Wf)
    (step : deviceStep sdk app .confirm = (after, effects)) :
    (app.ui.Answers ∧ (∃ data sw, responsesOf effects = [(data, sw)]) ∧
        after.ui.flow = .menu ∧ app.ui.flow ≠ .menu) ∨
      ¬ app.ui.Answers ∧ responsesOf effects = [] ∧ after = app := by
  have outcome := deviceStep_outcome sdk wf .confirm
  simp only [step] at outcome
  have shown {next : Step} (isStep : app.ui.step = some next) :
      app.ui.flow ≠ .menu := by
    intro isMenu
    rw [Ui.step, Ui.steps, isMenu] at isStep
    cases isStep
  have answers {next : Step} {action : ActionValidate}
      (isStep : app.ui.step = some next)
      (isFinal : some next ∈ [some Step.approve, some .reject, some .abort])
      (callback : app.ui.validateCallback = some action) :
      app.ui.Answers :=
    ⟨isStep ▸ isFinal, by rw [callback]; exact Option.some_ne_none _⟩
  cases outcome with
  | keyApproved isStep callback =>
      exact
        .inl ⟨answers isStep (by decide) callback, ⟨_, _, rfl⟩, rfl,
          shown isStep⟩
  | signed isStep callback =>
      exact
        .inl ⟨answers isStep (by decide) callback, ⟨_, _, rfl⟩, rfl,
          shown isStep⟩
  | signFailed isStep callback =>
      exact
        .inl ⟨answers isStep (by decide) callback, ⟨_, _, rfl⟩, rfl,
          shown isStep⟩
  | keyDenied isStep callback | denied isStep callback =>
      rcases isStep with isStep | isStep
      · exact
          .inl ⟨answers isStep (by decide) callback, ⟨_, _, rfl⟩, rfl,
            shown isStep⟩
      · exact
          .inl ⟨answers isStep (by decide) callback, ⟨_, _, rfl⟩, rfl,
            shown isStep⟩
  | ignored nothing =>
      refine .inr ⟨?_, rfl, rfl⟩
      rintro ⟨isFinal, callback⟩
      rcases nothing with other | none
      · exact other isFinal
      · exact callback none
  | answered request | pathRefused request | pathAccepted request
  | keyRefused request | keySent request | keyShown request
  | magicGuarded request | magicMissing request | magicRead request
  | chunkGuarded request | chunkTooLong request | chunkTaken request
  | parseFailed request | reviewStarted request =>
      cases request

section Channel

variable {io : IoApp} {after : App} {bytes data : List UInt8} {sw : UInt16}
  {effects : List Effect}

theorem take_memmove_zero (memory text : List UInt8) :
    (memmove memory 0 text).take text.length = text := by
  simp [memmove]

theorem length_responseBytes_pos (data : List UInt8) (sw : UInt16) :
    0 < (responseBytes data sw).length := by
  simp [responseBytes]

/-- A response during the processing of a command is transmitted at the next
wait. -/
theorem ioCommand_answered
    (step : deviceStep sdk io.app (.apdu bytes) = (after, effects))
    (responses : responsesOf effects = [(data, sw)])
    (isReceived : (io.receive bytes).ioState = .received) :
    ioCommand sdk bytes io =
      { io with
        app := after
        ioState := .received
        asynch := false
        commands := io.commands + 1
        origin := io.commands
        buffer :=
          memmove (memmove io.buffer 0 bytes) 0 (responseBytes data sw)
        outputLen := (responseBytes data sw).length
        log := io.log ++
          [.received io.commands,
            .written io.commands .received (responseBytes data sw),
            .transmitted io.commands (responseBytes data sw)] } := by
  have sent := length_responseBytes_pos data sw
  have received : (if io.asynch then IoState.received else io.ioState) =
      .received := isReceived
  simp only [ioCommand, step, responses, ioRespond, List.foldl_cons,
    List.foldl_nil, ioSendResponse, IoApp.receive, received, ioRecvCommand,
    IoApp.transmit, sent, if_true, take_memmove_zero, Int.lt_irrefl,
    false_and, if_false, List.append_assoc, List.cons_append,
    List.nil_append, reduceCtorEq]

/-- A command that starts a review is not answered. -/
theorem ioCommand_silent
    (step : deviceStep sdk io.app (.apdu bytes) = (after, effects))
    (responses : responsesOf effects = [])
    (isReceived : (io.receive bytes).ioState = .received) :
    ioCommand sdk bytes io =
      { io with
        app := after
        ioState := .waiting
        asynch := true
        commands := io.commands + 1
        reviewed := io.commands
        buffer := memmove io.buffer 0 bytes
        log := io.log ++ [.received io.commands] } := by
  have received : (if io.asynch then IoState.received else io.ioState) =
      .received := isReceived
  simp only [ioCommand, step, responses, ioRespond, List.foldl_nil,
    IoApp.receive, received, ioRecvCommand, Int.lt_irrefl, false_and,
    if_false, if_true]

/-- A response of a callback is transmitted at once while the device waits
for it. -/
theorem ioCallback_waiting
    (step : deviceStep sdk io.app .confirm = (after, effects))
    (responses : responsesOf effects = [(data, sw)])
    (isWaiting : io.ioState = .waiting) :
    ioCallback sdk io =
      { io with
        app := after
        ioState := .ready
        origin := io.reviewed
        buffer := memmove io.buffer 0 (responseBytes data sw)
        outputLen := 0
        log := io.log ++
          [.written io.reviewed .waiting (responseBytes data sw),
            .transmitted io.reviewed (responseBytes data sw)] } := by
  have sent := length_responseBytes_pos data sw
  simp only [ioCallback, step, responses, ioRespond, List.foldl_cons,
    List.foldl_nil, ioSendResponse, isWaiting, IoApp.transmit, sent, if_true,
    take_memmove_zero, List.append_assoc, List.cons_append, List.nil_append]

/-- A response of a callback stays in the buffer otherwise. -/
theorem ioCallback_received
    (step : deviceStep sdk io.app .confirm = (after, effects))
    (responses : responsesOf effects = [(data, sw)])
    (isReceived : io.ioState = .received) :
    ioCallback sdk io =
      { io with
        app := after
        ioState := .ready
        origin := io.reviewed
        buffer := memmove io.buffer 0 (responseBytes data sw)
        outputLen := (responseBytes data sw).length
        log := io.log ++
          [.written io.reviewed .received (responseBytes data sw)] } := by
  simp only [ioCallback, step, responses, ioRespond, List.foldl_cons,
    List.foldl_nil, ioSendResponse, isReceived]

end Channel

/-! ## The invariant -/

/-- Where the device waits: with no review, after a response or the start;
with a review, for its answer or after another command. -/
inductive Position (io : IoApp) : Prop where
  | idle (noReview : io.app.ui.flow = .menu)
      (wait : (io.ioState = .received ∧ io.asynch = false) ∨
        (io.ioState = .ready ∧ io.asynch = true))
  | reviewing (review : io.app.ui.flow ≠ .menu)
      (known : io.reviewed < io.commands)
      (wait : (io.ioState = .received ∧ io.asynch = false) ∨
        (io.ioState = .waiting ∧ io.asynch = true))

structure Serving (io : IoApp) : Prop where
  wf : io.app.context.Wf
  running : io.running = true
  position : Position io
  once : RespondsOnce io
  closed : ∀ last ∈ io.log.getLast?, ∀ next, SentFirst last next

theorem Position.receives
    {io : IoApp} (position : Position io) (bytes : List UInt8) :
    (io.receive bytes).ioState = .received := by
  change (if io.asynch then IoState.received else io.ioState) = .received
  cases position with
  | idle _ wait =>
      rcases wait with ⟨state, sync⟩ | ⟨state, async⟩
      · rw [sync, state]
        rfl
      · rw [async]
        rfl
  | reviewing _ _ wait =>
      rcases wait with ⟨state, sync⟩ | ⟨state, async⟩
      · rw [sync, state]
        rfl
      · rw [async]
        rfl

def transmittedTo (number : Nat) (events : List IoEvent) : Nat :=
  events.countP fun event =>
    match event with
    | .transmitted origin _ => origin = number
    | _ => false

theorem transmissions_append
    {io next : IoApp} {events : List IoEvent}
    (log : next.log = io.log ++ events) (number : Nat) :
    next.transmissions number =
      io.transmissions number + transmittedTo number events := by
  rw [IoApp.transmissions, log, List.countP_append]
  rfl

/-- The rest of the invariant after more events. -/
theorem RespondsOnce.extend
    {io next : IoApp} {events : List IoEvent} (once : RespondsOnce io)
    (closed : ∀ last ∈ io.log.getLast?, ∀ next, SentFirst last next)
    (log : next.log = io.log ++ events)
    (answered : ∀ number < next.commands,
      io.transmissions number + transmittedTo number events =
        if next.app.ui.flow ≠ .menu ∧ number = next.reviewed then 0 else 1)
    (answers : ∀ number ≥ next.commands, number ≥ io.commands ∧
      transmittedTo number events = 0)
    (sent : events.IsChain SentFirst)
    (notReady : ∀ number bytes, .written number .ready bytes ∉ events)
    (stays : .left ∉ events) :
    RespondsOnce next where
  answered := by
    intro number few
    rw [transmissions_append log]
    exact answered number few
  answers := by
    intro number many
    obtain ⟨before, none⟩ := answers number many
    rw [transmissions_append log, once.answers number before, none]
  sent := by
    rw [log]
    exact once.sent.append sent fun last isLast next _ =>
      closed last isLast next
  notReady := by
    intro number bytes
    rw [log, List.mem_append]
    exact not_or.mpr ⟨once.notReady number bytes, notReady number bytes⟩
  stays := by
    rw [log, List.mem_append]
    exact not_or.mpr ⟨once.stays, stays⟩

theorem closed_append
    {log events : List IoEvent} {last : IoEvent}
    (isLast : last ∈ events.getLast?) (free : ∀ next, SentFirst last next) :
    ∀ final ∈ (log ++ events).getLast?, ∀ next, SentFirst final next := by
  intro final isFinal
  rw [List.getLast?_append, Option.mem_def.mp isLast, Option.some_or] at isFinal
  cases isFinal
  exact free

/-- The transmissions of one response. -/
theorem transmittedTo_response (number origin : Nat) (state : IoState)
    (bytes : List UInt8) :
    transmittedTo number [.written origin state bytes,
      .transmitted origin bytes] = if origin = number then 1 else 0 := by
  simp [transmittedTo, List.countP_cons]

theorem transmittedTo_received (number origin : Nat)
    (events : List IoEvent) :
    transmittedTo number (.received origin :: events) =
      transmittedTo number events := by
  simp [transmittedTo]

/-- A command that is answered at once. -/
theorem Serving.answered
    {io : IoApp} {after : App} {bytes data : List UInt8} {sw : UInt16}
    {effects : List Effect} (serving : Serving io)
    (step : deviceStep sdk io.app (.apdu bytes) = (after, effects))
    (responses : responsesOf effects = [(data, sw)])
    (sameUi : after.ui = io.app.ui) (afterWf : after.context.Wf) :
    Serving (ioCommand sdk bytes io) := by
  rw [ioCommand_answered step responses (serving.position.receives bytes)]
  have sameFlow : after.ui.flow = io.app.ui.flow := congrArg Ui.flow sameUi
  refine ⟨afterWf, serving.running, ?_, ?_, closed_append rfl fun _ => trivial⟩
  · cases serving.position with
    | idle noReview =>
        exact .idle (sameFlow.trans noReview) (.inl ⟨rfl, rfl⟩)
    | reviewing review known =>
        exact
          .reviewing (sameFlow.trans_ne review) (Nat.lt_succ_of_lt known)
            (.inl ⟨rfl, rfl⟩)
  · refine serving.once.extend serving.closed rfl ?_ ?_ ?_ ?_ ?_
    · intro number few
      rw [transmittedTo_received, transmittedTo_response]
      change number < io.commands + 1 at few
      change _ = if after.ui.flow ≠ .menu ∧ number = io.reviewed then 0 else 1
      rw [sameFlow]
      rcases Nat.lt_succ_iff_lt_or_eq.mp few with old | new
      · rw [serving.once.answered number old, if_neg (Nat.ne_of_gt old),
          Nat.add_zero]
      · have unreviewed :
            ¬ (io.app.ui.flow ≠ .menu ∧ number = io.reviewed) := by
          rintro ⟨review, isReviewed⟩
          cases serving.position with
          | idle noReview => exact review noReview
          | reviewing _ known => omega
        rw [serving.once.answers number (Nat.le_of_eq new.symm),
          if_pos new.symm, if_neg unreviewed]
    · intro number many
      change number ≥ io.commands + 1 at many
      refine ⟨Nat.le_of_succ_le many, ?_⟩
      rw [transmittedTo_received, transmittedTo_response,
        if_neg (Nat.ne_of_lt many)]
    · exact
        .cons_cons trivial (.cons_cons rfl (.singleton _))
    · intro number bytes isEvent
      simp at isEvent
    · intro isEvent
      simp at isEvent

/-- A command that starts a review over the menu. -/
theorem Serving.silent
    {io : IoApp} {after : App} {bytes : List UInt8} {effects : List Effect}
    (serving : Serving io)
    (step : deviceStep sdk io.app (.apdu bytes) = (after, effects))
    (responses : responsesOf effects = [])
    (noReview : io.app.ui.flow = .menu) (review : after.ui.flow ≠ .menu)
    (afterWf : after.context.Wf) :
    Serving (ioCommand sdk bytes io) := by
  rw [ioCommand_silent step responses (serving.position.receives bytes)]
  refine ⟨afterWf, serving.running, ?_, ?_, closed_append rfl fun _ => trivial⟩
  · exact .reviewing review (Nat.lt_succ_self _) (.inr ⟨rfl, rfl⟩)
  · refine serving.once.extend serving.closed rfl ?_ ?_ ?_ ?_ ?_
    · intro number few
      change number < io.commands + 1 at few
      change _ = if after.ui.flow ≠ .menu ∧ number = io.commands then 0 else 1
      rw [transmittedTo_received]
      rcases Nat.lt_succ_iff_lt_or_eq.mp few with old | new
      · rw [serving.once.answered number old,
          if_neg (not_and_of_not_left _ (not_not.mpr noReview)),
          if_neg (not_and_of_not_right _ (Nat.ne_of_lt old))]
        rfl
      · rw [serving.once.answers number (Nat.le_of_eq new.symm),
          if_pos ⟨review, new⟩]
        rfl
    · intro number many
      exact ⟨Nat.le_of_succ_le many, rfl⟩
    · exact .singleton _
    · intro number bytes isEvent
      simp at isEvent
    · intro isEvent
      simp at isEvent

/-- A review that is answered while the device waits for it. -/
theorem Serving.reviewed
    {io : IoApp} {after : App} {data : List UInt8} {sw : UInt16}
    {effects : List Effect} (serving : Serving io)
    (step : deviceStep sdk io.app .confirm = (after, effects))
    (responses : responsesOf effects = [(data, sw)])
    (review : io.app.ui.flow ≠ .menu) (noReview : after.ui.flow = .menu)
    (isWaiting : io.ioState = .waiting) (afterWf : after.context.Wf) :
    Serving (ioCallback sdk io) := by
  rw [ioCallback_waiting step responses isWaiting]
  have isAsynch : io.asynch = true ∧ io.reviewed < io.commands := by
    cases serving.position with
    | idle menu => exact absurd menu review
    | reviewing _ known wait =>
        rcases wait with ⟨state, _⟩ | ⟨_, async⟩
        · cases isWaiting.symm.trans state
        · exact ⟨async, known⟩
  refine ⟨afterWf, serving.running, ?_, ?_, closed_append rfl fun _ => trivial⟩
  · exact .idle noReview (.inr ⟨rfl, isAsynch.1⟩)
  · refine serving.once.extend serving.closed rfl ?_ ?_ ?_ ?_ ?_
    · intro number few
      change number < io.commands at few
      change _ = if after.ui.flow ≠ .menu ∧ number = io.reviewed then 0 else 1
      rw [transmittedTo_response, serving.once.answered number few,
        if_neg (not_and_of_not_left _ (not_not.mpr noReview))]
      by_cases isReviewed : number = io.reviewed
      · rw [if_pos ⟨review, isReviewed⟩, if_pos isReviewed.symm]
      · rw [if_neg (not_and_of_not_right _ isReviewed),
          if_neg (Ne.symm isReviewed)]
    · intro number many
      change number ≥ io.commands at many
      have other : io.reviewed ≠ number := by
        have known := isAsynch.2
        omega
      exact ⟨many, by rw [transmittedTo_response, if_neg other]⟩
    · exact .cons_cons rfl (.singleton _)
    · intro number bytes isEvent
      simp at isEvent
    · intro isEvent
      simp at isEvent

/-- Only the review on the screen matters to the channel. -/
theorem Serving.sameFlow
    {io : IoApp} {after : App} (serving : Serving io)
    (sameFlow : after.ui.flow = io.app.ui.flow)
    (afterWf : after.context.Wf) : Serving { io with app := after } where
  wf := afterWf
  running := serving.running
  position := by
    cases serving.position with
    | idle noReview wait => exact .idle (sameFlow.trans noReview) wait
    | reviewing review known wait =>
        exact .reviewing (sameFlow.trans_ne review) known wait
  once :=
    ⟨fun number few => by
        change io.transmissions number =
          if after.ui.flow ≠ .menu ∧ number = io.reviewed then 0 else 1
        rw [sameFlow]
        exact serving.once.answered number few,
      serving.once.answers, serving.once.sent, serving.once.notReady,
      serving.once.stays⟩
  closed := serving.closed

theorem serving_initial : Serving IoApp.initial where
  wf := initial_wf
  running := rfl
  position := .idle rfl (.inl ⟨rfl, rfl⟩)
  once := by
    refine ⟨?_, fun _ _ => rfl, .nil, ?_, ?_⟩
    · intro number few
      exact absurd few (Nat.not_lt_zero number)
    · intro number bytes isEvent
      cases isEvent
    · intro isEvent
      cases isEvent
  closed := by
    intro last isLast
    cases isLast

/-- A press starts no review, and no answer of one does. -/
theorem apdu_of_begins
    {app : App} {event : Event} (begins : BeginsReview sdk app event) :
    ∃ bytes, event = .apdu bytes := by
  cases event with
  | apdu bytes => exact ⟨bytes, rfl⟩
  | press | confirm =>
      rcases begins with ⟨_, _, hashes⟩ | ⟨_, request, _⟩
      · obtain ⟨_, ⟨_, request, _⟩, _⟩ := hashes.accepted
        cases request
      · cases request

/-- A step under the condition keeps the device serving. -/
theorem Serving.step
    {io : IoApp} {event : Event} (serving : Serving io)
    (one : OneReview sdk io event) : Serving (ioStep sdk io event) := by
  have afterWf := (deviceStep_outcome sdk serving.wf event).wf serving.wf
  rw [ioStep.eq_def, if_pos serving.running]
  cases event with
  | apdu bytes =>
      rcases step : deviceStep sdk io.app (.apdu bytes) with ⟨after, effects⟩
      rw [step] at afterWf
      rcases deviceStep_command serving.wf step with
        ⟨begins, silent, review⟩ | ⟨_, ⟨data, sw, responses⟩, sameUi⟩
      · exact serving.silent step silent (one.starts begins) review afterWf
      · exact serving.answered step responses sameUi afterWf
  | press button =>
      have sameFlow :=
        congrArg Ui.flow (uiPress_review io.app.context button io.app.ui)
      exact serving.sameFlow sameFlow afterWf
  | confirm =>
      rcases step : deviceStep sdk io.app .confirm with ⟨after, effects⟩
      rw [step] at afterWf
      rcases deviceStep_confirm serving.wf step with
        ⟨answers, ⟨data, sw, responses⟩, noReview, review⟩ |
          ⟨_, silent, rfl⟩
      · exact
          serving.reviewed step responses review noReview
            (one.answered rfl answers) afterWf
      · have unchanged : ioCallback sdk io = io := by
          simp only [ioCallback, step, silent, ioRespond, List.foldl_nil]
        exact unchanged.symm ▸ serving

/-- A step that does not respect the condition leaves a command without its
response. -/
theorem Serving.oneReview
    {io : IoApp} {event : Event} (serving : Serving io)
    (once : RespondsOnce (ioStep sdk io event)) : OneReview sdk io event := by
  rw [ioStep.eq_def, if_pos serving.running] at once
  constructor
  · rintro rfl answers
    rcases step : deviceStep sdk io.app .confirm with ⟨after, effects⟩
    rcases deviceStep_confirm serving.wf step with
      ⟨_, ⟨data, sw, responses⟩, noReview, review⟩ | ⟨ignored, _⟩
    · cases serving.position with
      | idle menu => exact absurd menu review
      | reviewing _ known wait =>
          rcases wait with ⟨isReceived, _⟩ | ⟨isWaiting, _⟩
          · dsimp only at once
            rw [ioCallback_received step responses isReceived] at once
            have one := once.answered io.reviewed known
            have none := serving.once.answered io.reviewed known
            rw [if_pos ⟨review, rfl⟩] at none
            rw [if_neg (not_and_of_not_left _ (not_not.mpr noReview)),
              transmissions_append rfl, none] at one
            cases one
          · exact isWaiting
    · exact absurd answers ignored
  · intro begins
    obtain ⟨bytes, rfl⟩ := apdu_of_begins begins
    rcases step : deviceStep sdk io.app (.apdu bytes) with ⟨after, effects⟩
    rcases deviceStep_command serving.wf step with
      ⟨_, silent, _⟩ | ⟨other, _⟩
    · cases serving.position with
      | idle noReview => exact noReview
      | reviewing review known =>
          dsimp only at once
          rw [ioCommand_silent step silent
            (serving.position.receives bytes)] at once
          have one :=
            once.answered io.reviewed (Nat.lt_succ_of_lt known)
          have none := serving.once.answered io.reviewed known
          rw [if_pos ⟨review, rfl⟩] at none
          rw [if_neg (not_and_of_not_right _ (Nat.ne_of_lt known)),
            transmissions_append rfl, none] at one
          cases one
    · exact absurd begins other

/-- Under the condition the device serves its channel after every run. -/
theorem serving_invariant (sdk : Sdk) :
    (ioDevice sdk).Invariant
      (fun _ turn => OneReview sdk turn.state turn.input)
      fun _ io => Serving io where
  initial := serving_initial
  preserved := fun serving one => serving.step one

/-- **Every command has one response exactly while one review is answered
before anything else.** -/
theorem respondsOnce_iff (sdk : Sdk) (events : List Event) :
    (∀ earlier, earlier <+: events →
      RespondsOnce ((ioDevice sdk).after earlier)) ↔
      (ioDevice sdk).Throughout
        (fun _ turn => OneReview sdk turn.state turn.input) events := by
  constructor
  · intro once
    induction events using List.reverseRecOn with
    | nil =>
        intro before event later split
        exact absurd split (by simp)
    | append_singleton events event ih =>
        have earlier := ih fun earlier isPrefix =>
          once earlier (isPrefix.trans (List.prefix_append _ _))
        have serving := (serving_invariant sdk).run events earlier
        have last := once _ (List.prefix_refl _)
        rw [Transition.after_append_singleton] at last
        have now : OneReview sdk ((ioDevice sdk).after events) event :=
          serving.oneReview last
        rw [Transition.throughout_iff_trace] at earlier ⊢
        intro turn member
        rw [Transition.trace_append_singleton] at member
        rcases List.mem_append.mp member with before | isLast
        · exact earlier turn before
        · rw [List.mem_singleton.mp isLast]
          exact now
  · rintro one earlier ⟨later, rfl⟩
    exact ((serving_invariant sdk).run earlier one.before).once

/-! ## A command during a review -/

def getVersionEvent : Event :=
  .apdu [claNeo, insGetVersion, 0, 0, 0]

/-- The version is asked for while an address is on the screen, then the
address is approved and the version is asked for again. -/
def overlappedRun : List Event :=
  [getPublicKeyEvent 1 firstKeyPath, getVersionEvent, .press .right,
    .press .right, .confirm, getVersionEvent]

/-- The public key is never transmitted, and the loop is left. -/
theorem not_respondsOnce_overlapped :
    (¬ ∀ earlier, earlier <+: overlappedRun →
        RespondsOnce ((ioDevice Sdk.constant).after earlier)) ∧
      ((ioDevice Sdk.constant).after overlappedRun).transmissions 0 = 0 ∧
      ((ioDevice Sdk.constant).after overlappedRun).app.ui.flow = .menu ∧
      IoEvent.left ∈ ((ioDevice Sdk.constant).after overlappedRun).log := by
  have left :
      IoEvent.left ∈ ((ioDevice Sdk.constant).after overlappedRun).log := by
    decide +kernel
  refine ⟨fun once => ?_, by decide +kernel, by decide +kernel, left⟩
  exact (once overlappedRun (List.prefix_refl _)).stays left

end Neo3App
