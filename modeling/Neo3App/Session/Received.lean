import Neo3App.Session.Reviews
import Neo3App.Transaction.Locality

/-!
# The received bytes

The bytes of a transaction are the data of the chunks that were taken in
since chunk 0, and the record that earlier attempts on them have left behind
does not matter for the next attempt that is accepted.
-/

namespace Neo3App

open Neo3App.Lib

def chunkRefusals : List UInt16 :=
  [swBadState, swWrongP1P2, swWrongDataLength, swWrongTxLength]

/-- The data of a chunk that are taken in at a turn. -/
def Lib.Turn.taken (sdk : Sdk) (turn : DeviceTurn) : List UInt8 :=
  match turn.request with
  | some (.chunk _ data) =>
      if (turn.result sdk).2 ∈ chunkRefusals.map ioSendSw then [] else data
  | _ => []

variable {sdk : Sdk} {turn : DeviceTurn}

theorem taken_of_chunk
    {more : Bool} {data : List UInt8}
    (isChunk : turn.request = some (.chunk more data)) :
    turn.taken sdk =
      if (turn.result sdk).2 ∈ chunkRefusals.map ioSendSw then []
      else data := by
  rw [Turn.taken, isChunk]

theorem taken_of_refused
    {more : Bool} {data : List UInt8} {sw : UInt16}
    (isChunk : turn.request = some (.chunk more data))
    (refused : (turn.result sdk).2 = ioSendSw sw)
    (isRefusal : sw ∈ chunkRefusals) : turn.taken sdk = [] := by
  rw [taken_of_chunk isChunk, refused,
    if_pos (List.mem_map_of_mem isRefusal)]

theorem taken_of_accepted
    {more : Bool} {data : List UInt8}
    (isChunk : turn.request = some (.chunk more data))
    (accepted : (turn.result sdk).2 ∉ chunkRefusals.map ioSendSw) :
    turn.taken sdk = data := by
  rw [taken_of_chunk isChunk, if_neg accepted]

theorem taken_of_other
    (other : ∀ more data, turn.request ≠ some (.chunk more data)) :
    turn.taken sdk = [] := by
  unfold Turn.taken
  split
  next isChunk => exact absurd isChunk (other _ _)
  next => rfl

/-- A turn adds what it takes in. -/
theorem received_of_turn
    (wf : turn.state.context.Wf) (noPath : ¬ turn.CarriesPath) :
    (turn.result sdk).1.context.received =
      turn.state.context.received ++ turn.taken sdk := by
  have outcome := deviceStep_outcome sdk wf turn.input
  rcases turn with ⟨app, event⟩
  rcases result : deviceStep sdk app event with ⟨after, effects⟩
  simp only [result] at outcome
  have isResult : Turn.result sdk ⟨app, event⟩ = (after, effects) := result
  have silent : (∀ more data, event.request ≠ some (.chunk more data)) →
      app.context.received =
        app.context.received ++ Turn.taken sdk ⟨app, event⟩ := by
    intro other
    have nothing : Turn.taken sdk ⟨app, event⟩ = [] := taken_of_other other
    rw [nothing, List.append_nil]
  have refused {more : Bool} {data : List UInt8} {sw : UInt16}
      (isChunk : event.request = some (.chunk more data))
      (answer : (Turn.result sdk ⟨app, event⟩).2 = ioSendSw sw)
      (isRefusal : sw ∈ chunkRefusals) :
      app.context.received =
        app.context.received ++ Turn.taken sdk ⟨app, event⟩ := by
    have nothing : Turn.taken sdk ⟨app, event⟩ = [] :=
      taken_of_refused isChunk answer isRefusal
    rw [nothing, List.append_nil]
  have accepted {more : Bool} {data : List UInt8}
      (isChunk : event.request = some (.chunk more data))
      (answer : (Turn.result sdk ⟨app, event⟩).2 ∉
        chunkRefusals.map ioSendSw) :
      (app.context.append data).received =
        app.context.received ++ Turn.taken sdk ⟨app, event⟩ := by
    have taken : Turn.taken sdk ⟨app, event⟩ = data :=
      taken_of_accepted isChunk answer
    rw [taken]
    exact GlobalCtx.received_append wf data
  rw [isResult] at refused accepted
  rw [isResult]
  cases outcome with
  | pathRefused request | pathAccepted request =>
      exact absurd (.inl ⟨_, request⟩) noPath
  | keyRefused request | keySent request | keyShown request =>
      exact absurd (.inr ⟨_, _, request⟩) noPath
  | answered request | magicGuarded request | magicMissing request
  | magicRead request =>
      apply silent
      intro more data isChunk
      cases request.symm.trans isChunk
  | chunkGuarded request | chunkTooLong request =>
      exact refused request rfl (by decide)
  | chunkTaken request =>
      exact accepted request (show ioSendSw swOk ∉ _ by decide)
  | parseFailed request =>
      exact accepted request (by simp [chunkRefusals, ioSendSw])
  | reviewStarted request =>
      exact accepted request (show [] ∉ _ by decide)
  | pressed | ignored | keyApproved | keyDenied | signed | signFailed
  | denied =>
      apply silent
      intro more data isChunk
      cases isChunk

/-- In a request for a transaction, the received bytes are the data taken in
since the last chunk 0. -/
def Reassembled (sdk : Sdk) (history : List DeviceTurn)
    (context : GlobalCtx) : Prop :=
  context.reqType = .confirmTransaction → ∃ earlier path later,
    LastTurn Turn.IsPath earlier path later history ∧
      context.received = later.flatMap (Turn.taken sdk)

theorem context_of_path
    (wf : turn.state.context.Wf) (isPath : turn.IsPath) :
    (turn.result sdk).1.context.received = [] := by
  obtain ⟨data, isPath⟩ := isPath
  have outcome := deviceStep_outcome sdk wf turn.input
  rcases turn with ⟨app, event⟩
  change event.request = some (.path data) at isPath
  rcases result : deviceStep sdk app event with ⟨after, effects⟩
  simp only [result] at outcome
  rw [Turn.result, result]
  cases outcome with
  | pathRefused | pathAccepted => rfl
  | answered other | keyRefused other | keySent other | keyShown other
  | magicGuarded other | magicMissing other | magicRead other
  | chunkGuarded other | chunkTooLong other | chunkTaken other
  | parseFailed other | reviewStarted other =>
      cases isPath.symm.trans other
  | pressed | ignored | keyApproved | keyDenied | signed | signFailed
  | denied =>
      cases isPath

theorem reqType_of_key
    (wf : turn.state.context.Wf) (isKey : turn.IsKey) :
    (turn.result sdk).1.context.reqType = .confirmAddress := by
  obtain ⟨showOnScreen, data, isKey⟩ := isKey
  have outcome := deviceStep_outcome sdk wf turn.input
  rcases turn with ⟨app, event⟩
  change event.request = some (.publicKey showOnScreen data) at isKey
  rcases result : deviceStep sdk app event with ⟨after, effects⟩
  simp only [result] at outcome
  rw [Turn.result, result]
  cases outcome with
  | keyRefused | keySent | keyShown => rfl
  | answered other | pathRefused other | pathAccepted other
  | magicGuarded other | magicMissing other | magicRead other
  | chunkGuarded other | chunkTooLong other | chunkTaken other
  | parseFailed other | reviewStarted other =>
      cases isKey.symm.trans other
  | pressed | ignored | keyApproved | keyDenied | signed | signFailed
  | denied =>
      cases isKey

theorem Reassembled.append
    {history : List DeviceTurn} (wf : turn.state.context.Wf)
    (before : Reassembled sdk history turn.state.context) :
    Reassembled sdk (history ++ [turn]) (turn.result sdk).1.context := by
  intro isTransaction
  by_cases isPath : turn.IsPath
  · exact ⟨history, turn, [], .new history isPath, context_of_path wf isPath⟩
  by_cases isKey : turn.IsKey
  · cases (reqType_of_key wf isKey).symm.trans isTransaction
  have noPath : ¬ turn.CarriesPath := not_or.mpr ⟨isPath, isKey⟩
  rw [(path_of_no_path wf noPath).2] at isTransaction
  obtain ⟨earlier, path, later, last, received⟩ := before isTransaction
  refine ⟨earlier, path, later ++ [turn], last.append isPath, ?_⟩
  rw [received_of_turn wf noPath, received, List.flatMap_append,
    List.flatMap_singleton]

theorem reassembled_invariant (sdk : Sdk) :
    (device sdk).Invariant (fun _ _ => True)
      fun history app => app.context.Wf ∧
        Reassembled sdk history app.context := by
  apply device_invariant
  · intro isTransaction
    cases isTransaction
  intro history app after event effects wf before _ result _
  have next := @Reassembled.append sdk ⟨app, event⟩ _ wf before
  rw [Turn.result, result] at next
  exact next

/-- The last chunk hands the received bytes of `context` to the parser. -/
def Lib.Turn.Deserializes (turn : DeviceTurn) (context : GlobalCtx) : Prop :=
  ∃ data, turn.request = some (.chunk false data) ∧
    turn.state.context.refusesIn .magicOk = false ∧
      appendRawTx (wholeBuffer data) turn.state.context = some context

theorem GlobalCtx.rest_rawBuffer
    (context : GlobalCtx) : context.rawBuffer.rest = context.received := by
  rw [Buffer.rest, rawBuffer, received, List.drop_zero]

theorem GlobalCtx.Wf.rawBuffer
    {context : GlobalCtx} (wf : context.Wf) :
    InputBuffer context.rawBuffer where
  atStart := rfl
  size_le := wf.length_rawTx ▸ wf.rawTxLen_le
  short := wf.rawTxLen_le

/-- What a parse of the received bytes makes of a record. -/
theorem GlobalCtx.Wf.parse_eq
    {context : GlobalCtx} (wf : context.Wf) (tx : Transaction) :
    transactionDeserialize sdk context.rawBuffer tx =
      transactionDeserialize sdk
        ⟨context.received, context.received.length, 0⟩ tx := by
  apply transactionDeserialize_same sdk wf.rawBuffer
  · apply InputBuffer.whole
    rw [GlobalCtx.length_received wf]
    exact wf.rawTxLen_le
  · rw [GlobalCtx.rest_rawBuffer, rest_whole]

/-- The record can take the next attempt as a cleared one would. -/
structure GlobalCtx.Resumable (context : GlobalCtx) : Prop where
  resumes : Neo3App.Resumable context.received context.transaction

theorem GlobalCtx.Resumable.of_cleared
    {context : GlobalCtx} (cleared : context.transaction = Transaction.zero) :
    context.Resumable := by
  constructor
  rw [cleared]
  exact @Resumable.zero _

theorem GlobalCtx.Resumable.append
    {context : GlobalCtx} (before : context.Resumable) (wf : context.Wf)
    (data : List UInt8) : (context.append data).Resumable := by
  constructor
  rw [GlobalCtx.received_append wf]
  exact @Neo3App.Resumable.append _ _ @before.resumes data

/-- An attempt leaves a record that can take the next one. -/
theorem GlobalCtx.Resumable.parsed
    {context : GlobalCtx} (before : context.Resumable) (wf : context.Wf)
    {data : List UInt8} (nonempty : data ≠ [])
    (fits : context.rawTxLen + data.length ≤ maxTransactionLen)
    {status : ParserStatus} {tx : Transaction}
    (parsed :
      transactionDeserialize sdk (context.append data).rawBuffer
        context.transaction = (status, tx)) :
    Neo3App.Resumable (context.append data).received tx := by
  have rest := (context.append data).rest_rawBuffer
  have left :=
    @Resumable.transactionDeserialize sdk _ (wf.append fits).rawBuffer _ _ _
      @before.resumes nonempty
      (rest.trans (GlobalCtx.received_append wf data))
  rw [parsed, rest] at left
  exact @left

theorem chunk_ne_nil
    {more : Bool} {data : List UInt8}
    (isChunk : turn.request = some (.chunk more data)) : data ≠ [] := by
  rcases turn with ⟨app, bytes | button | _⟩
  · exact apduRequest_chunk_ne_nil (Option.some.inj isChunk)
  · cases isChunk
  · cases isChunk

theorem length_chunk_le
    {more : Bool} {data : List UInt8}
    (isChunk : turn.request = some (.chunk more data)) :
    data.length ≤ 255 := by
  rcases turn with ⟨app, bytes | button | _⟩
  · have few := length_apduRequest_data_le bytes
    have request : apduRequest bytes = .chunk more data :=
      Option.some.inj isChunk
    rwa [request] at few
  · cases isChunk
  · cases isChunk

theorem resumable_invariant (sdk : Sdk) :
    (device sdk).Invariant (fun _ _ => True)
      fun _ app => app.context.Wf ∧ app.context.Resumable := by
  apply device_invariant
  · exact .of_cleared rfl
  intro history app after event effects wf before _ _ outcome
  have nonempty {more : Bool} {data : List UInt8}
      (request : event.request = some (.chunk more data)) : data ≠ [] :=
    @chunk_ne_nil ⟨app, event⟩ _ _ request
  cases outcome with
  | pathRefused | pathAccepted | keyRefused | keySent | keyShown =>
      exact .of_cleared rfl
  | chunkTaken =>
      exact before.append wf _
  | parseFailed request _ fits parsed | reviewStarted request _ fits parsed =>
      exact ⟨before.parsed wf (nonempty request) fits parsed⟩
  | answered | magicGuarded | magicMissing | magicRead | chunkGuarded
  | chunkTooLong | pressed | ignored | keyApproved | keyDenied | signed
  | signFailed | denied =>
      exact ⟨before.resumes⟩

end Neo3App
