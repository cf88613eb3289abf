import Neo3App.Session.Handshake
import Neo3App.Session.Received

/-!
# Reassembly

However the bytes of a transaction are split into chunks, the device ends in
the same state with the same answer: those of one parse of the whole bytes
into a cleared record.
-/

namespace Neo3App

open Neo3App.Lib

variable (sdk : Sdk)

/-- The chunks that carry some pieces: each with its P1, the last one without
the flag that more follows. -/
def chunkEvents : List (UInt8 × List UInt8) → List Event
  | [] => []
  | [(p1, data)] => [signTxEvent p1 p2Last data]
  | (p1, data) :: next :: rest =>
      signTxEvent p1 p2More data :: chunkEvents (next :: rest)

structure IsPiece (piece : UInt8 × List UInt8) : Prop where
  low : 2 ≤ piece.1
  high : piece.1 ≤ 6
  nonempty : piece.2 ≠ []
  short : piece.2.length ≤ 255

def pieceBytes (pieces : List (UInt8 × List UInt8)) : List UInt8 :=
  pieces.flatMap Prod.snd

/-- What the device makes of the whole bytes `b` after chunk 1: they are
parsed into a cleared record, and a review of the result starts or the status
is sent. -/
def submitted (app : App) (b : List UInt8) : App × List Effect :=
  match
      transactionDeserialize sdk ⟨b, b.length, 0⟩ Transaction.zero with
  | (.parsingOk, tx) =>
      let context :=
        { app.context.append b with
          transaction := tx
          state := .parsed
          hash := sdk.sha256 b }
      (⟨context, reviewUi context app.ui⟩, [])
  | (status, tx) =>
      ({ app with context := { app.context.append b with transaction := tx } },
        [.response [UInt8.ofInt status.code] swTxParsingFail])

theorem apduParser_of_length
    {bytes : List UInt8} (header : offsetCdata ≤ bytes.length)
    (length : bytes.length - offsetCdata =
      (byteAt bytes offsetLc).toNat) :
    ∃ cmd, apduParser bytes = some cmd ∧
      cmd.cla = byteAt bytes offsetCla ∧ cmd.ins = byteAt bytes offsetIns ∧
        cmd.p1 = byteAt bytes offsetP1 ∧ cmd.p2 = byteAt bytes offsetP2 ∧
          cmd.data = commandData bytes := by
  have accepted : ¬ (bytes.length < offsetCdata ∨
      bytes.length - offsetCdata ≠ (byteAt bytes offsetLc).toNat) := by
    rintro (short | other)
    · exact absurd header (Nat.not_le.mpr short)
    · exact other length
  unfold apduParser
  rw [dif_neg accepted]
  exact ⟨_, rfl, rfl, rfl, rfl, rfl, rfl⟩

/-- The request of a SIGN_TX command whose parameters are accepted. -/
theorem request_signTxEvent
    {p1 p2 : UInt8} {data : List UInt8} (nonempty : data ≠ [])
    (short : data.length ≤ 255) (low : p1 ≤ p1Max)
    (flag : p2 = p2More ∨ p2 = p2Last ∧ p1 ≠ p1Start) :
    (signTxEvent p1 p2 data).request =
      some (signTxRequest p1 (p2 = p2More) data) := by
  have count : (UInt8.ofNat data.length).toNat = data.length := by
    rw [UInt8.toNat_ofNat']
    omega
  obtain ⟨cmd, parsed, isCla, isIns, isP1, isP2, isData⟩ :=
    @apduParser_of_length
      ([claNeo, insSignTx, p1, p2, UInt8.ofNat data.length] ++ data)
      (by simp [offsetCdata]) (by
        change _ = (UInt8.ofNat data.length).toNat
        rw [count]
        simp [offsetCdata])
  have present : cmd.data = some data := by
    have positive : UInt8.ofNat data.length > 0 := by
      rw [gt_iff_lt, UInt8.lt_iff_toNat_lt, count]
      exact List.length_pos_iff.mpr nonempty
    rw [isData, commandData]
    exact if_pos positive
  change cmd.cla = claNeo at isCla
  change cmd.ins = insSignTx at isIns
  change cmd.p1 = p1 at isP1
  change cmd.p2 = p2 at isP2
  have parameters : ¬ ((p1 = p1Start ∧ p2 ≠ p2More) ∨ p1 > p1Max ∨
      (p2 ≠ p2Last ∧ p2 ≠ p2More)) := by
    rintro (⟨start, noMore⟩ | high | ⟨notLast, notMore⟩)
    · rcases flag with more | ⟨_, later⟩
      · exact noMore more
      · exact later start
    · exact absurd low (UInt8.not_le.mpr high)
    · rcases flag with more | ⟨last, _⟩
      · exact notMore more
      · exact notLast last
  have isMore : decide (p2 &&& p2More ≠ 0) = decide (p2 = p2More) := by
    rcases flag with more | ⟨last, _⟩
    · rw [more]
      decide
    · rw [last]
      decide
  have isRequest : cmd.request = signTxRequest p1 (p2 = p2More) data := by
    rw [Command.request, isCla, isIns, isP1, isP2, present,
      if_neg (by decide), if_neg (by decide), if_neg (by decide),
      if_neg (by decide), if_pos rfl, if_neg parameters, isMore]
  change some (apduRequest _) = _
  rw [apduRequest, parsed, ← isRequest]

theorem IsPiece.request
    {p1 : UInt8} {data : List UInt8} (isPiece : IsPiece (p1, data))
    {p2 : UInt8} (flag : p2 = p2More ∨ p2 = p2Last) :
    (signTxEvent p1 p2 data).request =
      some (.chunk (p2 = p2More) data) := by
  have low : (2 : UInt8) ≤ p1 := isPiece.low
  have notStart : p1 ≠ 0 := by
    rintro rfl
    exact absurd low (by decide)
  have notMagic : p1 ≠ 1 := by
    rintro rfl
    exact absurd low (by decide)
  rw [request_signTxEvent isPiece.nonempty isPiece.short isPiece.high
    (flag.imp_right fun last => ⟨last, notStart⟩), signTxRequest,
    if_neg notStart, if_neg notMagic]

variable {sdk} {app : App} {data : List UInt8}

theorem deviceStep_of_request
    {event : Event} {request : Request}
    (isRequest : event.request = some request) :
    deviceStep sdk app event = request.handle sdk app := by
  cases event with
  | apdu bytes =>
      cases isRequest
      exact appMainTurn_eq sdk bytes app
  | press | confirm => cases isRequest

/-- Data for which there is room. -/
theorem signTxData_of_fits
    (wf : app.context.Wf)
    (isTransaction : app.context.reqType = .confirmTransaction)
    (short : data.length ≤ 255)
    (fits : app.context.rawTxLen + data.length ≤ maxTransactionLen)
    (more : Bool) :
    signTxData sdk (wholeBuffer data) more app =
      if more then
        ({ app with context := app.context.append data }, ioSendSw swOk)
      else
        signTxParse sdk { app with context := app.context.append data } := by
  have passes : ¬ app.context.refusesIn .magicOk = true := by
    rw [wf.refusesIn_iff (.inr rfl), isTransaction]
    decide
  rw [signTxData, if_neg passes, appendRawTx_eq wf short,
    if_neg (Nat.not_lt.mpr fits)]

/-- A piece that is not the last one. -/
theorem deviceStep_more
    {p1 : UInt8} (isPiece : IsPiece (p1, data)) (wf : app.context.Wf)
    (isTransaction : app.context.reqType = .confirmTransaction)
    (fits : app.context.rawTxLen + data.length ≤ maxTransactionLen) :
    deviceStep sdk app (signTxEvent p1 p2More data) =
      ({ app with context := app.context.append data }, ioSendSw swOk) := by
  rw [deviceStep_of_request (isPiece.request (.inl rfl))]
  change signTxData sdk _ true app = _
  rw [signTxData_of_fits wf isTransaction isPiece.short fits]
  rfl

/-- The last piece. -/
theorem deviceStep_last
    {p1 : UInt8} (isPiece : IsPiece (p1, data)) (wf : app.context.Wf)
    (isTransaction : app.context.reqType = .confirmTransaction)
    (fits : app.context.rawTxLen + data.length ≤ maxTransactionLen) :
    deviceStep sdk app (signTxEvent p1 p2Last data) =
      signTxParse sdk { app with context := app.context.append data } := by
  rw [deviceStep_of_request (isPiece.request (.inr rfl))]
  change signTxData sdk _ false app = _
  rw [signTxData_of_fits wf isTransaction isPiece.short fits]
  rfl

theorem submitted_eq
    (wf : app.context.Wf)
    (isTransaction : app.context.reqType = .confirmTransaction)
    (cleared : app.context.transaction = Transaction.zero)
    (empty : app.context.rawTxLen = 0) {b : List UInt8}
    (fits : b.length ≤ maxTransactionLen) :
    signTxParse sdk { app with context := app.context.append b } =
      submitted sdk app b := by
  have appended : (app.context.append b).Wf :=
    wf.append (by rwa [empty, Nat.zero_add])
  have received : (app.context.append b).received = b := by
    rw [GlobalCtx.received_append wf, GlobalCtx.received, empty,
      List.take_zero, List.nil_append]
  have parse := @GlobalCtx.Wf.parse_eq sdk _ appended Transaction.zero
  rw [received] at parse
  unfold submitted
  rw [← parse]
  rcases parsed : transactionDeserialize sdk
      (app.context.append b).rawBuffer Transaction.zero with ⟨status, tx⟩
  rw [← cleared] at parsed
  by_cases accepted : status = .parsingOk
  · subst accepted
    rw [signTxParse_eq sdk ⟨app.context.append b, app.ui⟩ isTransaction
      parsed]
    simp only [reviewContext, received]
  · rw [signTxParse_of_failed sdk ⟨app.context.append b, app.ui⟩ parsed
      accepted]
    cases status with
    | parsingOk => exact absurd rfl accepted
    | _ => rfl

theorem memmove_memmove
    {memory first second : List UInt8} {start : Nat}
    (inside : start + first.length + second.length ≤ memory.length) :
    memmove (memmove memory start first) (start + first.length) second =
      memmove memory start (first ++ second) := by
  have head : (memory.take start ++ first).length = start + first.length := by
    rw [List.length_append, List.length_take]
    omega
  simp only [memmove]
  rw [List.take_left' head, ← List.drop_drop, List.drop_left' head,
    List.drop_drop, List.append_assoc, List.length_append, Nat.add_assoc]
  simp only [List.append_assoc]

theorem GlobalCtx.append_append
    {context : GlobalCtx} (wf : context.Wf) {first second : List UInt8}
    (fits :
      context.rawTxLen + (first ++ second).length ≤ maxTransactionLen) :
    (context.append first).append second =
      context.append (first ++ second) := by
  rw [List.length_append, ← Nat.add_assoc] at fits
  have moved :
      memmove (memmove context.rawTx context.rawTxLen first)
          (context.rawTxLen + first.length) second =
        memmove context.rawTx context.rawTxLen (first ++ second) :=
    memmove_memmove (fits.trans_eq wf.length_rawTx.symm)
  simp only [GlobalCtx.append, moved, List.length_append, Nat.add_assoc]

def moreEvent (piece : UInt8 × List UInt8) : Event :=
  signTxEvent piece.1 p2More piece.2

theorem chunkEvents_append_singleton
    (pieces : List (UInt8 × List UInt8)) (last : UInt8 × List UInt8) :
    chunkEvents (pieces ++ [last]) =
      pieces.map moreEvent ++ [signTxEvent last.1 p2Last last.2] := by
  induction pieces with
  | nil => rfl
  | cons piece rest ih =>
      cases rest with
      | nil => rfl
      | cons next rest => exact congrArg (moreEvent piece :: ·) ih

/-- Every piece after which more follow is appended and answered. -/
theorem runFrom_moreEvents
    (wf : app.context.Wf)
    (isTransaction : app.context.reqType = .confirmTransaction)
    {pieces : List (UInt8 × List UInt8)}
    (arePieces : ∀ piece ∈ pieces, IsPiece piece)
    (fits : app.context.rawTxLen + (pieceBytes pieces).length ≤
      maxTransactionLen) :
    (device sdk).runFrom app (pieces.map moreEvent) =
      ({ app with context := app.context.append (pieceBytes pieces) },
        List.replicate pieces.length (ioSendSw swOk)) := by
  induction pieces generalizing app with
  | nil =>
      have same : app.context.append [] = app.context := by
        have memory : memmove app.context.rawTx app.context.rawTxLen [] =
            app.context.rawTx := by
          simp [memmove]
        simp only [GlobalCtx.append, memory, List.length_nil, Nat.add_zero]
      change (app, []) = (⟨app.context.append [], app.ui⟩, [])
      rw [same]
  | cons piece rest ih =>
      have bytes : pieceBytes (piece :: rest) =
          piece.2 ++ pieceBytes rest := List.flatMap_cons
      rw [bytes] at fits ⊢
      have total := fits
      rw [List.length_append] at total
      have room : app.context.rawTxLen + piece.2.length ≤
          maxTransactionLen := by omega
      have taken : (device sdk).step app (moreEvent piece) =
          ({ app with context := app.context.append piece.2 },
            ioSendSw swOk) :=
        deviceStep_more (arePieces piece (List.mem_cons_self ..)) wf
          isTransaction room
      have more :=
        @ih ⟨app.context.append piece.2, app.ui⟩ (wf.append room)
          isTransaction
          (fun piece member =>
            arePieces piece (List.mem_cons_of_mem _ member))
          (by
            change app.context.rawTxLen + piece.2.length + _ ≤ _
            omega)
      rw [GlobalCtx.append_append wf fits] at more
      rw [List.map_cons, (device sdk).runFrom_cons taken, more]
      rfl

/-- Chunks that carry bytes in pieces: every chunk but the last is answered
`SW_OK`, and the last one parses all the bytes. -/
theorem runFrom_chunkEvents
    (wf : app.context.Wf)
    (isTransaction : app.context.reqType = .confirmTransaction)
    {pieces : List (UInt8 × List UInt8)} (nonempty : pieces ≠ [])
    (arePieces : ∀ piece ∈ pieces, IsPiece piece)
    (fits : app.context.rawTxLen + (pieceBytes pieces).length ≤
      maxTransactionLen)
    {final : App × List Effect}
    (parse : signTxParse sdk
      { app with context := app.context.append (pieceBytes pieces) } =
        final) :
    (device sdk).runFrom app (chunkEvents pieces) =
      (final.1,
        List.replicate (pieces.length - 1) (ioSendSw swOk) ++ [final.2]) := by
  rcases List.eq_nil_or_concat pieces with rfl | ⟨before, last, rfl⟩
  · exact absurd rfl nonempty
  rw [List.concat_eq_append] at *
  have bytes : pieceBytes (before ++ [last]) =
      pieceBytes before ++ last.2 := by
    rw [pieceBytes, List.flatMap_append, List.flatMap_singleton]
    rfl
  rw [bytes] at fits parse
  have total := fits
  rw [List.length_append] at total
  have earlier :=
    @runFrom_moreEvents sdk app wf isTransaction before
      (fun piece member => arePieces piece (List.mem_append_left _ member))
      (by omega)
  have appended : (app.context.append (pieceBytes before)).Wf :=
    wf.append (by omega)
  have final' : (device sdk).step
      ⟨app.context.append (pieceBytes before), app.ui⟩
      (signTxEvent last.1 p2Last last.2) = (final.1, final.2) := by
    have step :=
      @deviceStep_last sdk ⟨app.context.append (pieceBytes before), app.ui⟩
        last.2 last.1 (arePieces last (by simp)) appended isTransaction
        (by
          change app.context.rawTxLen + _ + _ ≤ _
          omega)
    rw [GlobalCtx.append_append wf fits, parse] at step
    exact step
  rw [chunkEvents_append_singleton, List.length_append,
    (device sdk).runFrom_append earlier ((device sdk).runFrom_cons final' [])]
  rfl

/-! ## A session -/

/-- The context in which the first piece of a transaction arrives. -/
structure AwaitsData (context : GlobalCtx) : Prop where
  wf : context.Wf
  isTransaction : context.reqType = .confirmTransaction
  cleared : context.transaction = Transaction.zero
  empty : context.rawTxLen = 0

theorem AwaitsData.of_path
    {turn : DeviceTurn} (wf : turn.state.context.Wf)
    (isPath : turn.IsPath) :
    AwaitsData (turn.result sdk).1.context := by
  obtain ⟨data, isPath⟩ := isPath
  have outcome := deviceStep_outcome sdk wf turn.input
  rcases turn with ⟨app, event⟩
  change event.request = some (.path data) at isPath
  rcases result : deviceStep sdk app event with ⟨after, effects⟩
  simp only [result] at outcome
  rw [Turn.result, result]
  have afterWf := outcome.wf wf
  cases outcome with
  | pathRefused | pathAccepted => exact ⟨afterWf, rfl, rfl, rfl⟩
  | answered other | keyRefused other | keySent other | keyShown other
  | magicGuarded other | magicMissing other | magicRead other
  | chunkGuarded other | chunkTooLong other | chunkTaken other
  | parseFailed other | reviewStarted other =>
      cases isPath.symm.trans other
  | pressed | ignored | keyApproved | keyDenied | signed | signFailed
  | denied =>
      cases isPath

theorem AwaitsData.magic
    {turn : DeviceTurn} (awaits : AwaitsData turn.state.context)
    (isMagic : turn.IsMagic) :
    AwaitsData (turn.result sdk).1.context := by
  obtain ⟨data, isMagic⟩ := isMagic
  have wf := awaits.wf
  have outcome := deviceStep_outcome sdk wf turn.input
  rcases turn with ⟨app, event⟩
  change event.request = some (.magic data) at isMagic
  rcases result : deviceStep sdk app event with ⟨after, effects⟩
  simp only [result] at outcome
  rw [Turn.result, result]
  have afterWf := outcome.wf wf
  cases outcome with
  | magicGuarded =>
      exact awaits
  | magicMissing | magicRead =>
      exact ⟨afterWf, awaits.isTransaction, awaits.cleared, awaits.empty⟩
  | answered other | pathRefused other | pathAccepted other
  | keyRefused other | keySent other | keyShown other
  | chunkGuarded other | chunkTooLong other | chunkTaken other
  | parseFailed other | reviewStarted other =>
      cases isMagic.symm.trans other
  | pressed | ignored | keyApproved | keyDenied | signed | signFailed
  | denied =>
      cases isMagic

theorem AwaitsData.submitted
    (awaits : AwaitsData app.context)
    {pieces : List (UInt8 × List UInt8)} (nonempty : pieces ≠ [])
    (arePieces : ∀ piece ∈ pieces, IsPiece piece)
    (fits : (pieceBytes pieces).length ≤ maxTransactionLen) :
    (device sdk).runFrom app (chunkEvents pieces) =
      ((submitted sdk app (pieceBytes pieces)).1,
        List.replicate (pieces.length - 1) (ioSendSw swOk) ++
          [(submitted sdk app (pieceBytes pieces)).2]) := by
  apply runFrom_chunkEvents awaits.wf awaits.isTransaction nonempty arePieces
  · rwa [awaits.empty, Nat.zero_add]
  · exact
      submitted_eq awaits.wf awaits.isTransaction awaits.cleared awaits.empty
        fits

/-- What holds of the received bytes after some events. -/
structure Lossless (sdk : Sdk) (inputs : List Event) : Prop where
  /-- They are the data taken in since the last chunk 0. -/
  received :
    ((device sdk).after inputs).context.reqType = .confirmTransaction →
      ((device sdk).after inputs).context.rawTxLen ≤ 1024 ∧
        ∃ earlier path later,
          LastTurn Turn.IsPath earlier path later
              ((device sdk).trace inputs) ∧
            ((device sdk).after inputs).context.rawTx.take
                ((device sdk).after inputs).context.rawTxLen =
              later.flatMap (Turn.taken sdk)
  /-- A chunk for which there is no room changes nothing. -/
  tooLong : ∀ event more data,
    event.request = some (.chunk more data) →
      ((device sdk).after inputs).context.reqType = .confirmTransaction →
        1024 < ((device sdk).after inputs).context.rawTxLen + data.length →
          deviceStep sdk ((device sdk).after inputs) event =
            ((device sdk).after inputs, ioSendSw swWrongTxLength)
  /-- After a chunk 0 and a chunk 1, the state and the last answer depend on
  the bytes sent, and not on their pieces. -/
  split : ∀ path magic pathData magicData pieces,
    path.request = some (.path pathData) →
      magic.request = some (.magic magicData) →
        pieces ≠ [] → (∀ piece ∈ pieces, IsPiece piece) →
          (pieceBytes pieces).length ≤ 1024 →
            let start := (device sdk).after (inputs ++ [path, magic])
            (device sdk).runFrom start (chunkEvents pieces) =
              ((submitted sdk start (pieceBytes pieces)).1,
                List.replicate (pieces.length - 1) (ioSendSw swOk) ++
                  [(submitted sdk start (pieceBytes pieces)).2])

theorem after_awaitsData
    (inputs : List Event) {path magic : Event}
    {pathData magicData : List UInt8}
    (isPath : path.request = some (.path pathData))
    (isMagic : magic.request = some (.magic magicData)) :
    AwaitsData ((device sdk).after (inputs ++ [path, magic])).context := by
  have wf : ((device sdk).after inputs).context.Wf :=
    ((resumable_invariant sdk).run inputs fun _ _ _ _ => trivial).1
  have first : AwaitsData (Turn.result sdk
      ⟨(device sdk).after inputs, path⟩).1.context :=
    .of_path wf ⟨pathData, isPath⟩
  have second : AwaitsData (Turn.result sdk
      ⟨(deviceStep sdk ((device sdk).after inputs) path).1,
        magic⟩).1.context :=
    first.magic ⟨magicData, isMagic⟩
  rw [List.append_cons, Transition.after_append_singleton,
    Transition.after_append_singleton]
  exact second

/-- Reassembly is lossless and independent of the split. -/
theorem lossless (sdk : Sdk) (inputs : List Event) :
    Lossless sdk inputs := by
  obtain ⟨wf, reassembled⟩ :=
    (reassembled_invariant sdk).run inputs fun _ _ _ _ => trivial
  constructor
  · exact fun isTransaction => ⟨wf.rawTxLen_le, reassembled isTransaction⟩
  · intro event more data request isTransaction long
    have passes : ¬ ((device sdk).after inputs).context.refusesIn
        .magicOk = true := by
      rw [wf.refusesIn_iff (.inr rfl), isTransaction]
      decide
    rw [deviceStep_of_request request]
    change signTxData sdk (wholeBuffer data) more _ = _
    rw [signTxData, if_neg passes,
      appendRawTx_eq wf (@length_chunk_le ⟨App.initial, event⟩ _ _ request),
      if_pos (show maxTransactionLen < _ from long)]
  · intro path magic pathData magicData pieces isPath isMagic nonempty
      arePieces fits
    exact
      (after_awaitsData inputs isPath isMagic).submitted nonempty arePieces
        fits

end Neo3App
