import Neo3App.Apdu.Dispatcher

/-!
# What a command asks for

The dispatcher sorts the commands before any state is looked at: a command is
either answered at once or handed to one of the handlers with its data.
-/

namespace Neo3App

/-- The kinds of commands, with what reaches their handler. -/
inductive Request where
  /-- Answered at once. -/
  | answered (data : List UInt8) (sw : UInt16)
  /-- GET_PUBLIC_KEY. -/
  | publicKey (showOnScreen : Bool) (data : List UInt8)
  /-- Chunk 0 of SIGN_TX. -/
  | path (data : List UInt8)
  /-- Chunk 1 of SIGN_TX. -/
  | magic (data : List UInt8)
  /-- A later chunk of SIGN_TX. -/
  | chunk (more : Bool) (data : List UInt8)
  deriving DecidableEq

def wholeBuffer (data : List UInt8) : Buffer :=
  ⟨data, data.length, 0⟩

def Request.handle (sdk : Sdk) (app : App) :
    Request → App × List Effect
  | .answered data sw => (app, [.response data sw])
  | .publicKey showOnScreen data =>
      handlerGetPublicKey sdk (wholeBuffer data) showOnScreen app
  | .path data => signTxPath (wholeBuffer data) app
  | .magic data => signTxMagic (wholeBuffer data) app
  | .chunk more data => signTxData sdk (wholeBuffer data) more app

def signTxRequest (chunk : UInt8) (more : Bool) (data : List UInt8) :
    Request :=
  if chunk = 0 then .path data
  else if chunk = 1 then .magic data
  else .chunk more data

def Command.request (cmd : Command) : Request :=
  if cmd.cla ≠ claNeo then
    .answered [] swClaNotSupported
  else if cmd.ins = insGetVersion then
    if cmd.p1 ≠ 0 ∨ cmd.p2 ≠ 0 then .answered [] swWrongP1P2
    else .answered appVersion swOk
  else if cmd.ins = insGetAppName then
    if cmd.p1 ≠ 0 ∨ cmd.p2 ≠ 0 then .answered [] swWrongP1P2
    else .answered appName swOk
  else if cmd.ins = insGetPublicKey then
    if cmd.p1 > 0 ∨ cmd.p2 > 1 then .answered [] swWrongP1P2
    else
      match cmd.data with
      | none => .answered [] swWrongDataLength
      | some data => .publicKey (cmd.p2 ≠ 0) data
  else if cmd.ins = insSignTx then
    if (cmd.p1 = p1Start ∧ cmd.p2 ≠ p2More) ∨ cmd.p1 > p1Max ∨
        (cmd.p2 ≠ p2Last ∧ cmd.p2 ≠ p2More) then
      .answered [] swWrongP1P2
    else
      match cmd.data with
      | none => .answered [] swWrongDataLength
      | some data => signTxRequest cmd.p1 (cmd.p2 &&& p2More ≠ 0) data
  else
    .answered [] swInsNotSupported

theorem handlerSignTx_eq
    (sdk : Sdk) (data : List UInt8) (chunk : UInt8) (more : Bool)
    (app : App) :
    handlerSignTx sdk (wholeBuffer data) chunk more app =
      (signTxRequest chunk more data).handle sdk app := by
  unfold handlerSignTx signTxRequest
  by_cases first : chunk = 0
  · simp only [if_pos first, Request.handle]
  · by_cases second : chunk = 1
    · simp only [if_neg first, if_pos second, Request.handle]
    · simp only [if_neg first, if_neg second, Request.handle]

/-- The dispatcher hands each request to its handler. -/
theorem apduDispatcher_eq (sdk : Sdk) (cmd : Command) (app : App) :
    apduDispatcher sdk cmd app = cmd.request.handle sdk app := by
  unfold apduDispatcher Command.request
  by_cases cla : cmd.cla ≠ claNeo
  · simp only [if_pos cla, Request.handle, ioSendSw]
  simp only [if_neg cla]
  by_cases version : cmd.ins = insGetVersion
  · simp only [if_pos version]
    split <;> rfl
  simp only [if_neg version]
  by_cases name : cmd.ins = insGetAppName
  · simp only [if_pos name]
    split <;> rfl
  simp only [if_neg name]
  by_cases key : cmd.ins = insGetPublicKey
  · simp only [if_pos key]
    split
    · rfl
    cases present : cmd.data with
    | none => rfl
    | some data =>
        change handlerGetPublicKey sdk (cmd.buffer data) _ app = _
        rw [cmd.buffer_eq present]
        rfl
  simp only [if_neg key]
  by_cases sign : cmd.ins = insSignTx
  · simp only [if_pos sign]
    split
    · rfl
    cases present : cmd.data with
    | none => rfl
    | some data =>
        change handlerSignTx sdk (cmd.buffer data) cmd.p1 _ app = _
        rw [cmd.buffer_eq present]
        exact handlerSignTx_eq sdk data cmd.p1 _ app
  · simp only [if_neg sign, Request.handle, ioSendSw]

/-- One turn of the loop of `app_main`: a command whose length is wrong is
answered at once, any other one is dispatched. -/
def appMainTurn (sdk : Sdk) (bytes : List UInt8) (app : App) :
    App × List Effect :=
  match apduParser bytes with
  | none => (app, ioSendSw swWrongDataLength)
  | some cmd => apduDispatcher sdk cmd app

def apduRequest (bytes : List UInt8) : Request :=
  match apduParser bytes with
  | none => .answered [] swWrongDataLength
  | some cmd => cmd.request

theorem appMainTurn_eq (sdk : Sdk) (bytes : List UInt8) (app : App) :
    appMainTurn sdk bytes app = (apduRequest bytes).handle sdk app := by
  unfold appMainTurn apduRequest
  cases apduParser bytes with
  | none => rfl
  | some cmd => exact apduDispatcher_eq sdk cmd app

def Request.data : Request → List UInt8
  | .answered _ _ => []
  | .publicKey _ data => data
  | .path data => data
  | .magic data => data
  | .chunk _ data => data

theorem signTxRequest_data
    (chunk : UInt8) (more : Bool) (data : List UInt8) :
    (signTxRequest chunk more data).data = data := by
  unfold signTxRequest
  split
  · rfl
  split
  · rfl
  · rfl

theorem Command.length_request_data_le (cmd : Command) :
    cmd.request.data.length ≤ 255 := by
  unfold Command.request
  split
  · exact Nat.zero_le _
  split
  · split <;> exact Nat.zero_le _
  split
  · split <;> exact Nat.zero_le _
  split
  · split
    · exact Nat.zero_le _
    cases present : cmd.data with
    | none => exact Nat.zero_le _
    | some data => exact cmd.length_le present
  split
  · split
    · exact Nat.zero_le _
    cases present : cmd.data with
    | none => exact Nat.zero_le _
    | some data =>
        change (signTxRequest cmd.p1 _ data).data.length ≤ 255
        rw [signTxRequest_data]
        exact cmd.length_le present
  · exact Nat.zero_le _

/-- A command carries at most 255 bytes. -/
theorem length_apduRequest_data_le (bytes : List UInt8) :
    (apduRequest bytes).data.length ≤ 255 := by
  unfold apduRequest
  split
  · exact Nat.zero_le _
  · exact Command.length_request_data_le _

theorem data_of_signTxRequest
    {chunk : UInt8} {more more' : Bool} {data data' : List UInt8}
    (isChunk : signTxRequest chunk more data = .chunk more' data') :
    data = data' := by
  have same := signTxRequest_data chunk more data
  rw [isChunk] at same
  exact same.symm

theorem Command.data_of_chunk
    {cmd : Command} {more : Bool} {data : List UInt8}
    (isChunk : cmd.request = .chunk more data) : cmd.data = some data := by
  unfold Command.request at isChunk
  split at isChunk
  · cases isChunk
  split at isChunk
  · split at isChunk <;> cases isChunk
  split at isChunk
  · split at isChunk <;> cases isChunk
  split at isChunk
  · split at isChunk
    · cases isChunk
    split at isChunk <;> cases isChunk
  split at isChunk
  · split at isChunk
    · cases isChunk
    split at isChunk
    · cases isChunk
    next present =>
      rw [present, data_of_signTxRequest isChunk]
  · cases isChunk

/-- A parsed command with data has some. -/
theorem apduParser_data_ne_nil
    {bytes data : List UInt8} {cmd : Command}
    (parsed : apduParser bytes = some cmd) (present : cmd.data = some data) :
    data ≠ [] := by
  intro isNil
  have length := cmd.length_data
  rw [present, isNil] at length
  have noData : cmd.lc = 0 := UInt8.toNat_inj.mp length.symm
  unfold apduParser at parsed
  split at parsed
  · cases parsed
  · cases parsed
    change byteAt bytes offsetLc = 0 at noData
    change commandData bytes = some data at present
    rw [commandData, noData, if_neg (by decide)] at present
    cases present

/-- A chunk that reaches its handler carries some data. -/
theorem apduRequest_chunk_ne_nil
    {bytes data : List UInt8} {more : Bool}
    (isChunk : apduRequest bytes = .chunk more data) : data ≠ [] := by
  unfold apduRequest at isChunk
  split at isChunk
  · cases isChunk
  next parsed =>
    exact apduParser_data_ne_nil parsed (Command.data_of_chunk isChunk)

end Neo3App
