import Neo3App.Apdu.Command
import Neo3App.Handler.SignTx

/-!
# The dispatcher

`apdu/dispatcher.c`.
-/

namespace Neo3App

def apduDispatcher (sdk : Sdk) (cmd : Command) (app : App) :
    App × List Effect :=
  if cmd.cla ≠ claNeo then
    (app, ioSendSw swClaNotSupported)
  else if cmd.ins = insGetVersion then
    if cmd.p1 ≠ 0 ∨ cmd.p2 ≠ 0 then
      (app, ioSendSw swWrongP1P2)
    else
      (app, handlerGetVersion)
  else if cmd.ins = insGetAppName then
    if cmd.p1 ≠ 0 ∨ cmd.p2 ≠ 0 then
      (app, ioSendSw swWrongP1P2)
    else
      (app, handlerGetAppName)
  else if cmd.ins = insGetPublicKey then
    if cmd.p1 > 0 ∨ cmd.p2 > 1 then
      (app, ioSendSw swWrongP1P2)
    else
      match cmd.data with
      | none => (app, ioSendSw swWrongDataLength)
      | some data =>
          handlerGetPublicKey sdk (cmd.buffer data) (cmd.p2 ≠ 0) app
  else if cmd.ins = insSignTx then
    if (cmd.p1 = p1Start ∧ cmd.p2 ≠ p2More) ∨ cmd.p1 > p1Max ∨
        (cmd.p2 ≠ p2Last ∧ cmd.p2 ≠ p2More) then
      (app, ioSendSw swWrongP1P2)
    else
      match cmd.data with
      | none => (app, ioSendSw swWrongDataLength)
      | some data =>
          handlerSignTx sdk (cmd.buffer data) cmd.p1
            (cmd.p2 &&& p2More ≠ 0) app
  else
    (app, ioSendSw swInsNotSupported)

end Neo3App
