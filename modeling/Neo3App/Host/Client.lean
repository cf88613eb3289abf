import Neo3App.Host.CommandBuilder
import Neo3App.Io

/-!
# The client

`boilerplate_client/boilerplate_cmd.py` and the table of
`exception/device_exception.py`, over the channel of `io.c` and `main.c`.  The
client sends a command, lets the user press the buttons after the last chunk
of a transaction, and then reads the next byte string that is transmitted; a
status word other than `0x9000` becomes an exception.
-/

namespace Neo3App.Host

/-- The exceptions that a call of the client may end with. -/
inductive ClientError where
  | deny
  | wrongP1P2
  | wrongDataLength
  | insNotSupported
  | claNotSupported
  | wrongResponseLength
  | wrongTxLength
  | txParsingFail
  | txRejectSign
  | badState
  | signatureFail
  | bip44BadPurpose
  | bip44BadCoinType
  | bip44BadAccountNotHardened
  | bip44BadAccount
  | bip44BadChange
  | bip44BadAddress
  | magicParsing
  | displaySystemFeeFail
  | displayNetworkFeeFail
  | displayTotalFeeFail
  | displayTransferAmount
  | convertToAddressFail
  /-- `UnknownDeviceError`. -/
  | unknownDevice (code : UInt16)
  /-- An `assert` of the client fails. -/
  | assertion
  deriving DecidableEq, Repr

/-- `DeviceException.exc`. -/
def exc : List (UInt16 × ClientError) :=
  [(0x6985, .deny), (0x6A86, .wrongP1P2), (0x6A87, .wrongDataLength),
    (0x6D00, .insNotSupported), (0x6E00, .claNotSupported),
    (0xB000, .wrongResponseLength), (0xB001, .wrongTxLength),
    (0xB002, .txParsingFail), (0xB003, .txRejectSign), (0xB004, .badState),
    (0xB005, .signatureFail), (0xB100, .bip44BadPurpose),
    (0xB101, .bip44BadCoinType), (0xB102, .bip44BadAccountNotHardened),
    (0xB103, .bip44BadAccount), (0xB104, .bip44BadChange),
    (0xB105, .bip44BadAddress), (0xB106, .magicParsing),
    (0xB107, .displaySystemFeeFail), (0xB108, .displayNetworkFeeFail),
    (0xB109, .displayTotalFeeFail), (0xB10A, .displayTransferAmount),
    (0xB200, .convertToAddressFail)]

def deviceException (errorCode : UInt16) : ClientError :=
  (exc.lookup errorCode).getD (.unknownDevice errorCode)

/-- What a call of the client comes to: nothing while it waits for a
response, else a value or an exception. -/
abbrev Reply (α : Type) : Type :=
  Option (Except ClientError α)

def checkSw (response : List UInt8 × UInt16) :
    Except ClientError (List UInt8) :=
  if response.2 ≠ 0x9000 then .error (deviceException response.2)
  else .ok response.1

def splitResponse (bytes : List UInt8) : List UInt8 × UInt16 :=
  (bytes.take (bytes.length - 2), readU16Be bytes (bytes.length - 2))

/-- `transport.recv` of a client that has read `seen` byte strings, with the
check. -/
def recv (seen : Nat) (io : IoApp) : Reply (List UInt8) :=
  io.transmitted[seen]?.map fun bytes => checkSw (splitResponse bytes)

/-- What happens on the other end of the channel meanwhile. -/
def ioRun (sdk : Sdk) (io : IoApp) (events : List Event) : IoApp :=
  ((ioMain sdk).runFrom io (events.map some)).1

/-- `transport.exchange_raw`, with the check, of a client that has read
everything before. -/
def exchangeRaw (sdk : Sdk) (command : List UInt8) (io : IoApp) :
    IoApp × Reply (List UInt8) :=
  let next := ioRun sdk io [.apdu command]
  (next, recv io.transmitted.length next)

def asserting {α : Type} (holds : α → Bool) : Reply α → Reply α
  | some (.ok value) =>
      if holds value then some (.ok value) else some (.error .assertion)
  | reply => reply

def getVersion (sdk : Sdk) (io : IoApp) : IoApp × Reply (List UInt8) :=
  let (io, reply) := exchangeRaw sdk (serialize 0x80 0x01 0x00 0x00 []) io
  (io, asserting (fun response => response.length = 3) reply)

/-- `BoilerplateCommand.get_app_name`, before the bytes are decoded. -/
def getAppName (sdk : Sdk) (io : IoApp) : IoApp × Reply (List UInt8) :=
  exchangeRaw sdk (serialize 0x80 0x00 0x00 0x00 []) io

/-- `BoilerplateCommand.get_public_key`.  Its argument `display` is not
used: the builder always sends P2 = 0. -/
def getPublicKey (sdk : Sdk) (path : Bip44Path) (io : IoApp) :
    IoApp × Reply (List UInt8) :=
  let (io, reply) :=
    exchangeRaw sdk (serialize 0x80 0x04 0x00 0x00 (pathBytes path)) io
  (io, asserting (fun response => response.length = 65) reply)

/-- The loop of `BoilerplateCommand.sign_tx` over the commands.  After the
last chunk has been sent the user presses the buttons `user`; `response` is
the last one received, of `seen` so far. -/
def signTxLoop (sdk : Sdk) (user : List Event) (seen : Nat) (io : IoApp)
    (response : List UInt8) : List (Bool × List UInt8) →
    IoApp × Reply (List UInt8)
  | [] => (io, some (.ok response))
  | (isLast, chunk) :: rest =>
      let next := ioRun sdk io (.apdu chunk :: if isLast then user else [])
      match recv seen next with
      | none => (next, none)
      | some (.error error) => (next, some (.error error))
      | some (.ok response) =>
          signTxLoop sdk user (seen + 1) next response rest

/-- `BoilerplateCommand.sign_tx`, for a user who does `user` after the last
chunk. -/
def signTxWith (sdk : Sdk) (user : List Event) (path : Bip44Path)
    (tx : List UInt8) (networkMagic : UInt32) (io : IoApp) :
    IoApp × Reply (List UInt8) :=
  signTxLoop sdk user io.transmitted.length io []
    (signTx path tx networkMagic)

/-- `BoilerplateCommand.sign_tx`, for a user who presses `presses` and then
both buttons. -/
def clientSignTx (sdk : Sdk) (presses : List Lib.Press) (path : Bip44Path)
    (tx : List UInt8) (networkMagic : UInt32) (io : IoApp) :
    IoApp × Reply (List UInt8) :=
  signTxWith sdk (presses.map Event.press ++ [.confirm]) path tx networkMagic
    io

end Neo3App.Host
