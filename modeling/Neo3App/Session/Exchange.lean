import Neo3App.Common.Write
import Neo3App.Host.Client
import Neo3App.Session.Browsing
import Neo3App.Session.Channel

/-!
# Exchanges of the client

What the client reads after it has sent a command.  While the device attends,
it is the first response of the device to what happens from the command on;
after an overtaken review nothing comes and the application is started again.
-/

namespace Neo3App

open Neo3App.Lib
open Neo3App.Host

/-- What the client makes of the first response among some effects. -/
def replyTo (effects : List Effect) : Reply (List UInt8) :=
  (sentBytes effects).head?.map fun bytes => checkSw (splitResponse bytes)

variable {sdk : Sdk} {io : IoApp} {data : List UInt8} {sw : UInt16}

/-- The host reads the word that `write_u16_be` has written behind the
data. -/
theorem readU16Be_responseBytes
    (fits : data.length ≤ ioApduBufferSize - 2) (sw : UInt16) :
    readU16Be (responseBytes data sw) data.length = sw := by
  have bytes : responseBytes data sw =
      data ++ [(sw >>> 8).toUInt8, (sw >>> 0).toUInt8] := by
    rw [responseBytes, if_pos fits, if_pos fits, UInt16.shiftRight_zero]
  have written : responseBytes data sw =
      writeU16Be (data ++ [0, 0]) data.length sw := by
    rw [bytes, writeU16Be]
    simp
  rw [written]
  exact UInt16.toNat_inj.mp
    (@Store.same _ _ _ _ _ _ _ _ _ _ integerStore _
      (.u16 .be data.length sw) (by
        change _ ≤ (data ++ [0, 0]).length
        rw [List.length_append]
        rfl))

theorem splitResponse_responseBytes
    (fits : data.length ≤ ioApduBufferSize - 2) :
    splitResponse (responseBytes data sw) = (data, sw) := by
  have bytes : responseBytes data sw =
      data ++ [(sw >>> 8).toUInt8, sw.toUInt8] := by
    rw [responseBytes, if_pos fits, if_pos fits]
  have size : (responseBytes data sw).length - 2 = data.length := by
    rw [bytes, List.length_append]
    rfl
  rw [splitResponse, size, readU16Be_responseBytes fits, bytes,
    List.take_left]

theorem replyTo_response
    {effects : List Effect} (responses : responsesOf effects = [(data, sw)])
    (fits : data.length ≤ ioApduBufferSize - 2) :
    replyTo effects = some (checkSw (data, sw)) := by
  rw [replyTo, sentBytes, responses]
  change some (checkSw (splitResponse (responseBytes data sw))) = _
  rw [splitResponse_responseBytes fits]

theorem checkSw_of_refused (refused : sw ≠ 0x9000) :
    checkSw (data, sw) = .error (deviceException sw) :=
  if_pos refused

theorem log_ioRecvCommand (io : IoApp) : io.log <+: (ioRecvCommand io).log := by
  rw [ioRecvCommand]
  split
  · rw [IoApp.transmit]
    split
    · exact List.prefix_append _ _
    · exact List.prefix_refl _
  · exact List.prefix_refl _
  · exact List.prefix_append _ _

theorem log_ioSendResponse (number : Nat) (io : IoApp) :
    io.log <+: (ioSendResponse number data sw io).2.log := by
  simp only [ioSendResponse]
  split
  · exact List.prefix_append _ _
  · exact List.prefix_append _ _
  · rw [IoApp.transmit]
    split
    · exact (List.prefix_append _ _).trans (List.prefix_append _ _)
    · exact List.prefix_append _ _

theorem log_ioRespond (number : Nat)
    (responses : List (List UInt8 × UInt16)) (io : IoApp) :
    io.log <+: (ioRespond number responses io).2.log := by
  rw [ioRespond]
  generalize (0 : Int) = ret
  induction responses generalizing ret io with
  | nil => exact List.prefix_refl _
  | cons response responses ih =>
      rw [List.foldl_cons]
      exact (log_ioSendResponse number io).trans (ih _ _)

theorem log_ioCommand (bytes : List UInt8) (io : IoApp) :
    io.log <+: (ioCommand sdk bytes io).log := by
  let result := deviceStep sdk io.app (.apdu bytes)
  let received : IoApp :=
    { io.receive bytes with
      app := result.1
      reviewed :=
        if responsesOf result.2 = [] then io.commands else io.reviewed }
  let sent := ioRespond io.commands (responsesOf result.2) received
  have before : io.log <+: received.log := List.prefix_append _ _
  have later : io.log <+: sent.2.log :=
    before.trans (log_ioRespond _ _ received)
  change io.log <+:
    (if sent.1 < 0 ∧ (apduParser bytes).isSome then
      { sent.2 with running := false, log := sent.2.log ++ [.left] }
    else ioRecvCommand sent.2).log
  split
  · exact later.trans (List.prefix_append _ _)
  · exact later.trans (log_ioRecvCommand _)

theorem log_ioStep (io : IoApp) (event : Event) :
    io.log <+: (ioStep sdk io event).log := by
  rw [ioStep.eq_def]
  split
  · cases event with
    | apdu bytes => exact log_ioCommand bytes io
    | press button => exact List.prefix_refl _
    | confirm =>
        exact log_ioRespond io.reviewed _
          { io with app := (deviceStep sdk io.app .confirm).1 }
  · exact List.prefix_refl _

theorem log_restart (io : IoApp) : io.log <+: io.restart.log :=
  log_ioRecvCommand
    { io with
      app := io.app.reset
      ioState := .ready
      outputLen := 0
      running := true }

theorem log_ioRun (io : IoApp) (events : List Event) :
    io.log <+: (ioRun sdk io events).log := by
  induction events generalizing io with
  | nil => exact List.prefix_refl _
  | cons event events ih =>
      have step :
          io.log <+: ((ioMain sdk).step io (some event)).1.log := by
        dsimp only [ioMain]
        split
        · exact log_ioStep io event
        · exact (log_ioStep io event).trans (log_restart _)
      exact step.trans (ih _)

/-- Later events do not change what the client reads. -/
theorem recv_append
    {seen : Nat} {reply : Except ClientError (List UInt8)}
    (received : recv seen io = some reply) (events : List Event) :
    recv seen (ioRun sdk io events) = some reply := by
  have isPrefix : io.transmitted <+: (ioRun sdk io events).transmitted :=
    (log_ioRun io events).filterMap _
  obtain ⟨later, split⟩ := isPrefix
  rw [recv] at received ⊢
  obtain ⟨bytes, here, isReply⟩ := Option.map_eq_some_iff.mp received
  have inside := (List.getElem?_eq_some_iff.mp here).1
  rw [← split, List.getElem?_append_left inside, here, Option.map_some,
    isReply]

theorem Served.ioRun
    {event : Event} (served : Served sdk io event (ioStep sdk io event)) :
    ioRun sdk io [event] = ioStep sdk io event :=
  if_pos served.attending.running

/-- What the client reads after the last event. -/
theorem Served.recv
    {event : Event} {next : IoApp} (served : Served sdk io event next) :
    recv io.transmitted.length next =
      replyTo (deviceStep sdk io.app event).2 := by
  rw [Host.recv, served.transmitted,
    List.getElem?_append_right (Nat.le_refl _), Nat.sub_self,
    ← List.head?_eq_getElem?, replyTo]

theorem Attending.command_step (attending : Attending io)
    (bytes : List UInt8) :
    Served sdk io (.apdu bytes) (ioStep sdk io (.apdu bytes)) := by
  apply attending.step
  intro isConfirm
  cases isConfirm

theorem Attending.command (attending : Attending io) (bytes : List UInt8) :
    Served sdk io (.apdu bytes) (ioRun sdk io [.apdu bytes]) := by
  have served := @Attending.command_step sdk io attending bytes
  rwa [served.ioRun]

/-- A command that is answered at once, whatever the user does then. -/
theorem Attending.recv_answered
    (attending : Attending io) {bytes : List UInt8} {after : App}
    {effects : List Effect}
    (step : deviceStep sdk io.app (.apdu bytes) = (after, effects))
    (responses : responsesOf effects = [(data, sw)])
    (fits : data.length ≤ ioApduBufferSize - 2) (user : List Event) :
    recv io.transmitted.length (ioRun sdk io (.apdu bytes :: user)) =
      some (checkSw (data, sw)) := by
  have served := @Attending.command sdk io attending bytes
  have received := served.recv
  rw [step, replyTo_response responses fits] at received
  exact recv_append received user

/-- Presses of single buttons. -/
theorem Attending.presses
    (attending : Attending io) (presses : List Press) :
    let next :=
      { io with
        app :=
          ⟨io.app.context,
            pressAll (uiPress io.app.context) io.app.ui presses⟩ }
    ioRun sdk io (presses.map Event.press) = next ∧ Attending next := by
  induction presses generalizing io with
  | nil => exact ⟨rfl, attending⟩
  | cons button presses ih =>
      have served :
          Served sdk io (.press button) (ioStep sdk io (.press button)) := by
        apply attending.step
        intro isConfirm
        cases isConfirm
      have stepped : ioStep sdk io (.press button) =
          { io with
            app := ⟨io.app.context, uiPress io.app.context button io.app.ui⟩ } := by
        rw [ioStep.eq_def, if_pos attending.running]
        rfl
      obtain ⟨run, waits⟩ := ih served.attending
      have first := served.ioRun
      rw [stepped] at run waits first
      refine ⟨?_, waits⟩
      change ioRun sdk (ioRun sdk io [.press button]) _ = _
      rw [first, run]
      rfl

theorem ioRun_append (io : IoApp) (first second : List Event) :
    ioRun sdk io (first ++ second) = ioRun sdk (ioRun sdk io first) second := by
  induction first generalizing io with
  | nil => rfl
  | cons event first ih => exact ih _

/-- A command that starts a review. -/
theorem Attending.review_started
    (attending : Attending io) {bytes : List UInt8} {after : App}
    {effects : List Effect}
    (step : deviceStep sdk io.app (.apdu bytes) = (after, effects))
    (silent : responsesOf effects = []) :
    let next := ioRun sdk io [.apdu bytes]
    Attending next ∧ next.app = after ∧ next.ioState = .waiting ∧
      next.transmitted = io.transmitted := by
  have served := @Attending.command sdk io attending bytes
  have isAfter := served.app
  have nothing := served.transmitted
  rw [step] at isAfter
  rw [step, sentBytes, silent, List.map_nil, List.append_nil] at nothing
  refine ⟨served.attending, isAfter, ?_, nothing⟩
  have stepped := (@Attending.command_step sdk io attending bytes).ioRun
  rw [stepped, ioStep.eq_def, if_pos attending.running]
  dsimp only
  rw [ioCommand_silent step silent (attending.position.receives bytes)]

/-- A command that starts a review, some presses and both buttons. -/
theorem Attending.recv_reviewed
    (attending : Attending io) {bytes : List UInt8} {after : App}
    {effects : List Effect}
    (step : deviceStep sdk io.app (.apdu bytes) = (after, effects))
    (silent : responsesOf effects = []) (presses : List Press) :
    recv io.transmitted.length
        (ioRun sdk io (.apdu bytes :: (presses.map Event.press ++
          [.confirm]))) =
      replyTo
        (deviceStep sdk
          ⟨after.context,
            pressAll (uiPress after.context) after.ui presses⟩
          .confirm).2 := by
  obtain ⟨waits, isAfter, isWaiting, nothing⟩ :=
    attending.review_started step silent
  obtain ⟨browsed, still⟩ := @Attending.presses sdk _ waits presses
  have answered :=
    @Attending.step sdk _ .confirm still fun _ _ => isWaiting
  have whole := (ioRun_append _ (presses.map Event.press) [.confirm]).trans
    ((congrArg (ioRun sdk · [.confirm]) browsed).trans answered.ioRun)
  have received := answered.recv
  rw [← whole] at received
  rw [← nothing, ← isAfter]
  exact received

/-! ## After an overtaken review -/

theorem transmitted_restart (io : IoApp) :
    io.restart.transmitted = io.transmitted :=
  rfl

/-- A command that would be answered makes `app_main` return. -/
theorem Stuck.recv_unanswered
    (stuck : Stuck io) {bytes : List UInt8} {after : App}
    {effects : List Effect}
    (step : deviceStep sdk io.app (.apdu bytes) = (after, effects))
    (responses : responsesOf effects = [(data, sw)])
    (parsed : (apduParser bytes).isSome = true) :
    recv io.transmitted.length (ioRun sdk io [.apdu bytes]) = none := by
  obtain ⟨written, _, _, _, nothing, left⟩ :=
    ioCommand_overtaken step responses stuck.overtaken
  rw [if_pos parsed] at left
  generalize isLeft : IoApp.mk .. = gone at left
  have returned : ioRun sdk io [.apdu bytes] = gone.restart := by
    have stepped : ioStep sdk io (.apdu bytes) = gone := by
      rw [ioStep.eq_def, if_pos stuck.running]
      exact left
    rw [← stepped]
    exact if_neg (by rw [stepped, ← isLeft]; exact Bool.false_ne_true)
  have still : gone.transmitted = io.transmitted := by
    rw [← nothing, ← isLeft]
    exact (transmitted_append rfl rfl).trans (List.append_nil _)
  rw [returned, recv, transmitted_restart, still,
    List.getElem?_eq_none (Nat.le_refl _), Option.map_none]

theorem isSome_of_request
    {bytes : List UInt8} {request : Request}
    (asks : (Event.apdu bytes).request = some request)
    (other : request ≠ .answered [] swWrongDataLength) :
    (apduParser bytes).isSome = true := by
  cases parsed : apduParser bytes with
  | some => rfl
  | none =>
      have unparsed : apduRequest bytes = .answered [] swWrongDataLength := by
        rw [apduRequest, parsed]
      exact absurd (Option.some.inj (asks.symm.trans (congrArg some unparsed)))
        other

/-- One command that the device answers at once. -/
theorem exchangeRaw_reply
    (waits : Attending io ∨ Stuck io) {bytes : List UInt8} {after : App}
    {effects : List Effect}
    (step : deviceStep sdk io.app (.apdu bytes) = (after, effects))
    (responses : responsesOf effects = [(data, sw)])
    (fits : data.length ≤ ioApduBufferSize - 2)
    (parsed : (apduParser bytes).isSome = true) :
    (exchangeRaw sdk bytes io).2 =
      if io.Overtaken then none else some (checkSw (data, sw)) := by
  rcases waits with attending | stuck
  · rw [if_neg attending.not_overtaken]
    exact attending.recv_answered step responses fits []
  · rw [if_pos stuck.overtaken]
    exact stuck.recv_unanswered step responses parsed

end Neo3App
