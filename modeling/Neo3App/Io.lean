import Neo3App.Device

/-!
# Commands and responses

`io.c` and the loop of `main.c`.  The device waits inside `io_exchange`; a
button may be pressed or the next command may arrive there.  Of the SDK it is
assumed that `io_exchange` transmits the buffered bytes and then waits, that
it only waits with `IO_ASYNCH_REPLY`, and that it only transmits with
`IO_RETURN_AFTER_TX`.
-/

namespace Neo3App

open Neo3App.Lib

inductive IoState where
  | ready
  | received
  | waiting
  deriving DecidableEq, Repr

/-- `IO_APDU_BUFFER_SIZE` of the SDK. -/
def ioApduBufferSize : Nat := 260

def swWrongResponseLength : UInt16 := 0xB000

/-- What happens on the channel, with the number of the command that is
received or answered. -/
inductive IoEvent where
  /-- A command arrives. -/
  | received (number : Nat)
  /-- `io_send_response` is entered in a state and fills the buffer. -/
  | written (number : Nat) (state : IoState) (bytes : List UInt8)
  /-- Bytes of the buffer are transmitted. -/
  | transmitted (number : Nat) (bytes : List UInt8)
  /-- `app_main` returns. -/
  | left
  deriving DecidableEq

/-- The application inside the wait of `io_exchange`. -/
structure IoApp where
  app : App
  /-- `G_io_state`. -/
  ioState : IoState
  /-- `G_io_apdu_buffer`. -/
  buffer : List UInt8
  /-- `G_output_len`. -/
  outputLen : Nat
  /-- The wait was entered with `IO_ASYNCH_REPLY`. -/
  asynch : Bool
  /-- `app_main` has not returned. -/
  running : Bool
  /-- Bookkeeping: the number of commands received. -/
  commands : Nat
  /-- Bookkeeping: the command that started the last review. -/
  reviewed : Nat
  /-- Bookkeeping: the command that the buffered response answers. -/
  origin : Nat
  /-- Bookkeeping: what has happened on the channel. -/
  log : List IoEvent
  deriving DecidableEq

/-! ## `io.c` -/

def IoApp.transmit (io : IoApp) : IoApp :=
  if 0 < io.outputLen then
    { io with
      log := io.log ++ [.transmitted io.origin (io.buffer.take io.outputLen)] }
  else io

/-- `io_recv_command`, up to the wait. -/
def ioRecvCommand (io : IoApp) : IoApp :=
  match io.ioState with
  | .ready => { io.transmit with ioState := .received, asynch := false }
  | .received => { io with ioState := .waiting, asynch := true }
  | .waiting =>
      { io with
        ioState := .ready
        running := false
        log := io.log ++ [.left] }

/-- The bytes of a response: the data, then the status word. -/
def responseBytes (data : List UInt8) (sw : UInt16) : List UInt8 :=
  let fits := data.length ≤ ioApduBufferSize - 2
  let word := if fits then sw else swWrongResponseLength
  (if fits then data else []) ++ [(word >>> 8).toUInt8, word.toUInt8]

/-- `io_send_response`, as the answer to the command `number`: the returned
value and the application. -/
def ioSendResponse (number : Nat) (data : List UInt8) (sw : UInt16)
    (io : IoApp) : Int × IoApp :=
  let bytes := responseBytes data sw
  let written :=
    { io with
      buffer := memmove io.buffer 0 bytes
      outputLen := bytes.length
      origin := number
      log := io.log ++ [.written number io.ioState bytes] }
  match io.ioState with
  | .ready => (-1, written)
  | .received => (0, { written with ioState := .ready })
  | .waiting =>
      (0, { written.transmit with outputLen := 0, ioState := .ready })

def Effect.response? : Effect → Option (List UInt8 × UInt16)
  | .response data sw => some (data, sw)
  | _ => none

/-- The responses of a handler or a callback, sent in order; the returned
value is that of the last one. -/
def ioRespond (number : Nat) (responses : List (List UInt8 × UInt16))
    (io : IoApp) : Int × IoApp :=
  responses.foldl
    (fun sent response =>
      ioSendResponse number response.1 response.2 sent.2) (0, io)

def responsesOf (effects : List Effect) : List (List UInt8 × UInt16) :=
  effects.filterMap Effect.response?

/-! ## `main.c` -/

/-- The command in the buffer, and `io_exchange` returns. -/
def IoApp.receive (bytes : List UInt8) (io : IoApp) : IoApp :=
  { io with
    buffer := memmove io.buffer 0 bytes
    commands := io.commands + 1
    log := io.log ++ [.received io.commands]
    ioState := if io.asynch then .received else io.ioState }

/-- A turn of the loop of `app_main`, from the arrival of a command to the
next wait. -/
def ioCommand (sdk : Sdk) (bytes : List UInt8) (io : IoApp) : IoApp :=
  let (app, effects) := deviceStep sdk io.app (.apdu bytes)
  let responses := responsesOf effects
  let reviewed := if responses = [] then io.commands else io.reviewed
  let (ret, io) :=
    ioRespond io.commands responses
      { io.receive bytes with app := app, reviewed := reviewed }
  -- the value returned for a command of a wrong length is ignored
  if ret < 0 ∧ (apduParser bytes).isSome then
    { io with running := false, log := io.log ++ [.left] }
  else ioRecvCommand io

/-- A callback of the buttons during the wait. -/
def ioCallback (sdk : Sdk) (io : IoApp) : IoApp :=
  let (app, effects) := deviceStep sdk io.app .confirm
  (ioRespond io.reviewed (responsesOf effects) { io with app := app }).2

/-- What the waiting application does at an event. -/
def ioStep (sdk : Sdk) (io : IoApp) (event : Event) : IoApp :=
  if io.running then
    match event with
    | .apdu bytes => ioCommand sdk bytes io
    | .press button =>
        { io with app := (deviceStep sdk io.app (.press button)).1 }
    | .confirm => ioCallback sdk io
  else io

def IoApp.initial : IoApp :=
  ioRecvCommand
    { app := App.initial
      ioState := .ready
      buffer := List.replicate ioApduBufferSize 0
      outputLen := 0
      asynch := false
      running := true
      commands := 0
      reviewed := 0
      origin := 0
      log := [] }

/-- The device with its channel, until `app_main` returns. -/
def ioDevice (sdk : Sdk) : Transition IoApp Event Unit where
  start := IoApp.initial
  step := fun io event => (ioStep sdk io event, ())

/-- The menu, and `app_main` up to its first wait; the bytes in the buffer
stay. -/
def IoApp.restart (io : IoApp) : IoApp :=
  ioRecvCommand
    { io with
      app := io.app.reset
      ioState := .ready
      outputLen := 0
      running := true }

/-- The loop of `main`: the input `none` is a reset of the channel, and
`app_main` is also entered again when it has returned. -/
def ioMain (sdk : Sdk) : Transition IoApp (Option Event) Unit where
  start := IoApp.initial
  step := fun io input =>
    match input with
    | none => (io.restart, ())
    | some event =>
        let next := ioStep sdk io event
        (if next.running then next else next.restart, ())

def IoEvent.onWire : IoEvent → Option (List UInt8)
  | .transmitted _ bytes => some bytes
  | _ => none

def IoApp.transmitted (io : IoApp) : List (List UInt8) :=
  io.log.filterMap IoEvent.onWire

end Neo3App
