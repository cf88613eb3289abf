import Neo3App.Common.Bip44Limits
import Neo3App.Session.Exchange
import Neo3App.Session.HostChunks

/-!
# What the client gets

`sign_tx` of the client over the channel.  After an overtaken review it gets
no answer.  After any other run, and however the user browses, the reply is a
function of the key path, the network magic, the bytes of the transaction and
the screen on which both buttons are pressed.
-/

namespace Neo3App

open Neo3App.Lib
open Neo3App.Host

/-- The digest that is signed for the bytes `b` on a network. -/
def signingDigest (sdk : Sdk) (magic : UInt32) (b : List UInt8) :
    List UInt8 :=
  (sdk.sha256 (leBytes 4 magic.toNat ++ (sdk.sha256 b).toList)).toList

def approvalReply (sdk : Sdk) (path : Bip44Path) (magic : UInt32)
    (b : List UInt8) : Reply (List UInt8) :=
  match sdk.ecdsaSign (sdk.deriveNodeBip32 path)
      (signingDigest sdk magic b) with
  | some signature => some (.ok signature)
  | none => some (.error .signatureFail)

/-- The reply after a review of `count` screens, the last two of which are
the Approve and the Reject step. -/
def reviewReply (sdk : Sdk) (path : Bip44Path) (magic : UInt32)
    (b : List UInt8) (count : Nat) (presses : List Press) :
    Reply (List UInt8) :=
  if cursorAfter count presses + 2 = count then
    approvalReply sdk path magic b
  else if cursorAfter count presses + 1 = count then
    some (.error .deny)
  else
    none

/-- The reply once the device has all the bytes `b`. -/
def submittedReply (sdk : Sdk) (path : Bip44Path) (magic : UInt32)
    (b : List UInt8) (presses : List Press) : Reply (List UInt8) :=
  match transactionDeserialize sdk ⟨b, b.length, 0⟩ Transaction.zero with
  | (.parsingOk, tx) =>
      if tx.isSystemAssetTransfer then
        reviewReply sdk path magic b (reviewScreens tx).length presses
      else if cursorAfter 2 presses = 1 then some (.error .deny)
      else none
  | _ => some (.error .txParsingFail)

instance (size : Nat) : Decidable (UnflaggedSize size) :=
  inferInstanceAs (Decidable (_ ∧ _))

def signTxReply (sdk : Sdk) (presses : List Press) (path : Bip44Path)
    (b : List UInt8) (magic : UInt32) : Reply (List UInt8) :=
  match pathOffence 0x80000010 4999 path with
  | some status => some (.error (deviceException status))
  | none =>
      if b = [] then some (.error .wrongDataLength)
      else if maxTransactionLen < b.length then some (.error .wrongTxLength)
      else if UnflaggedSize b.length then some (.ok [])
      else submittedReply sdk path magic b presses

variable {sdk : Sdk}

/-! ## The loop -/

section Loop

variable {user : List Event} {io : IoApp} (attending : Attending io)

include attending

/-- Commands that are answered `SW_OK` and not flagged as the last. -/
theorem signTxLoop_ok
    {commands : List (Bool × List UInt8)} {next : App}
    (unflagged : ∀ command ∈ commands, command.1 = false)
    (ran : (device sdk).runFrom io.app (hostEvents commands) =
      (next, List.replicate commands.length (ioSendSw swOk)))
    (rest : List (Bool × List UInt8)) :
    ∃ waits : IoApp, Attending waits ∧ waits.app = next ∧
      signTxLoop sdk user io.transmitted.length io [] (commands ++ rest) =
        signTxLoop sdk user waits.transmitted.length waits [] rest := by
  induction commands generalizing io with
  | nil =>
      cases ran
      exact ⟨io, attending, rfl, rfl⟩
  | cons command commands ih =>
      obtain ⟨isLast, chunk⟩ := command
      have more : isLast = false := unflagged _ (List.mem_cons_self ..)
      subst more
      obtain ⟨final, outputs⟩ := Prod.mk.inj ran
      rw [List.length_cons, List.replicate_succ] at outputs
      obtain ⟨first, others⟩ := List.cons.inj outputs
      have answered : deviceStep sdk io.app (.apdu chunk) =
          ((deviceStep sdk io.app (.apdu chunk)).1, ioSendSw swOk) :=
        Prod.ext rfl first
      have served := @Attending.command sdk io attending chunk
      have received : recv io.transmitted.length
          (ioRun sdk io [.apdu chunk]) = some (.ok []) :=
        attending.recv_answered answered rfl (Nat.zero_le _) []
      have seen : (ioRun sdk io [.apdu chunk]).transmitted.length =
          io.transmitted.length + 1 := by
        rw [served.transmitted, answered, List.length_append]
        rfl
      have later := ih served.attending
        (fun command member =>
          unflagged command (List.mem_cons_of_mem _ member))
        (by rw [served.app]; exact Prod.ext final others)
      rw [seen] at later
      rw [List.cons_append, signTxLoop]
      simp only [Bool.false_eq_true, if_false, received]
      exact later

/-- A command that is refused ends the loop. -/
theorem signTxLoop_refused
    {next : App} {chunk data : List UInt8} {sw : UInt16}
    (step : deviceStep sdk io.app (.apdu chunk) =
      (next, [.response data sw]))
    (fits : data.length ≤ ioApduBufferSize - 2) (refused : sw ≠ 0x9000)
    (isLast : Bool) (rest : List (Bool × List UInt8)) :
    (signTxLoop sdk user io.transmitted.length io []
        ((isLast, chunk) :: rest)).2 =
      some (.error (deviceException sw)) := by
  have received :=
    attending.recv_answered step rfl fits (if isLast then user else [])
  rw [checkSw_of_refused refused] at received
  rw [signTxLoop]
  simp only [received]

omit attending in
/-- The command flagged as the last gives the reply. -/
theorem signTxLoop_last
    {chunk : List UInt8} {reply : Reply (List UInt8)}
    (received :
      recv io.transmitted.length (ioRun sdk io (.apdu chunk :: user)) =
        reply) :
    (signTxLoop sdk user io.transmitted.length io [] [(true, chunk)]).2 =
      reply := by
  rw [signTxLoop]
  simp only [if_true, received]
  rcases reply with _ | error | response
  · rfl
  · rfl
  · rfl

end Loop

/-- The context after chunk 0 and chunk 1. -/
def readyContext (path : Bip44Path) (magic : UInt32) : GlobalCtx :=
  { pathContext path .bip44Ok with networkMagic := magic, state := .magicOk }

theorem readyContext_awaitsData (path : Bip44Path) (magic : UInt32) :
    AwaitsData (readyContext path magic) :=
  (awaitsData_pathContext path .bip44Ok).withMagic magic

theorem readU32Le_leBytes (magic : UInt32) :
    readU32Le (leBytes 4 magic.toNat) 0 = magic := by
  apply UInt32.toNat_inj.mp
  rw [@toNat_readU32Le _ (leBytes 4 magic.toNat) [] 0 (by simp)
    (length_leBytes 4 _), leNat_leBytes magic.toNat_lt]

theorem validPath_of_offence
    {path : Bip44Path} (valid : pathOffence 0x80000010 4999 path = none) :
    ValidPath path := by
  have length := length_pathBytes path
  have result :=
    @validatePath_fst (pathBytes path)
      (by unfold sizeModulus; omega) GlobalCtx.zero.bip44Path
  rw [if_neg (by omega), pathWords_pathBytes, valid] at result
  obtain ⟨_, isValid, _⟩ :=
    (validatePath_eq_ok_iff (by unfold sizeModulus; omega) _ _).mp
      (Prod.ext result rfl)
  rwa [pathWords_pathBytes] at isValid

/-- The device accepts a path without offence, and the magic after it. -/
theorem runFrom_ready
    {app : App} (wf : app.context.Wf) {path : Bip44Path}
    (valid : ValidPath path) (magic : UInt32) :
    (device sdk).runFrom app (preambleEvents path magic) =
      (⟨readyContext path magic, app.ui⟩,
        List.replicate 2 (ioSendSw swOk)) := by
  have length := length_pathBytes path
  have first : (device sdk).step app
      (signTxEvent 0 p2More (pathBytes path)) = _ :=
    deviceStep_path wf (request_pathBytes path) (by omega) (by omega)
      (by rwa [pathWords_pathBytes])
  rw [pathWords_pathBytes] at first
  have awaits := awaitsData_pathContext path .bip44Ok
  rw [readyContext]
  generalize pathContext path .bip44Ok = context at first awaits ⊢
  have second : (device sdk).step ⟨context, app.ui⟩
      (signTxEvent 1 p2More (leBytes 4 magic.toNat)) = _ :=
    @deviceStep_magic sdk ⟨context, app.ui⟩ awaits.wf awaits.isTransaction _
      _ (request_magicBytes magic) (length_leBytes 4 _).ge
  rw [readU32Le_leBytes] at second
  exact
    (device sdk).runFrom_append ((device sdk).runFrom_cons first [])
      ((device sdk).runFrom_cons second [])

theorem pathOffence_ne_swOk
    {path : Bip44Path} {status : UInt16}
    (offends : pathOffence 0x80000010 4999 path = some status) :
    status ≠ 0x9000 := by
  unfold pathOffence at offends
  split_ifs at offends <;> cases offends <;> decide

/-- The device refuses a path with an offence. -/
theorem deviceStep_offence
    {app : App} (wf : app.context.Wf) {event : Event} {data : List UInt8}
    (isPath : event.request = some (.path data)) (long : 20 ≤ data.length)
    (short : data.length ≤ 255) {status : UInt16}
    (offends : pathOffence 0x80000010 4999 (pathWords data) = some status) :
    ∃ next, (device sdk).step app event = (next, ioSendSw status) := by
  have result :=
    @validatePath_fst data
      (by unfold sizeModulus; omega) GlobalCtx.zero.bip44Path
  rw [if_neg (by omega), offends] at result
  have outcome := deviceStep_outcome sdk wf event
  change ∃ next, deviceStep sdk app event = _
  rcases stepped : deviceStep sdk app event with ⟨after, effects⟩
  simp only [stepped] at outcome
  cases outcome with
  | pathRefused request refused =>
      cases isPath.symm.trans request
      rw [refused] at result
      cases result
      exact ⟨_, rfl⟩
  | pathAccepted request long valid =>
      cases isPath.symm.trans request
      have accepted :=
        (validatePath_eq_ok_iff (by unfold sizeModulus; omega)
          GlobalCtx.zero.bip44Path _).mpr ⟨long, valid, rfl⟩
      rw [accepted] at result
      cases result
  | answered other | keyRefused other | keySent other | keyShown other
  | magicGuarded other | magicMissing other | magicRead other
  | chunkGuarded other | chunkTooLong other | chunkTaken other
  | parseFailed other | reviewStarted other =>
      cases isPath.symm.trans other
  | pressed | ignored | keyApproved | keyDenied | signed | signFailed
  | denied =>
      cases isPath

/-! ## The buttons -/

/-- The signatures of the SDK fit into their buffer. -/
def SignaturesFit (sdk : Sdk) : Prop :=
  ∀ privateKey digest signature,
    sdk.ecdsaSign privateKey digest = some signature →
      signature.length ≤ maxDerSigLen

theorem take_signature
    (context : GlobalCtx) {signature : List UInt8}
    (fits : signature.length ≤ maxDerSigLen) :
    (context.sign signature).signature.take
        (context.sign signature).signatureLen.toNat = signature := by
  have small : (UInt8.ofNat signature.length).toNat = signature.length := by
    rw [UInt8.toNat_ofNat']
    unfold maxDerSigLen at fits
    omega
  change (memmove context.signature 0 signature).take
    (UInt8.ofNat signature.length).toNat = signature
  rw [small]
  simp [memmove]

/-- Both buttons on the review of a transaction. -/
theorem replyTo_confirm
    (fit : SignaturesFit sdk) {app : App}
    (callback : app.ui.validateCallback = some .transaction)
    {path : Bip44Path} {magic : UInt32} {b : List UInt8}
    (isPath : app.context.bip44Path = path)
    (isMagic : app.context.networkMagic = magic)
    (isHash : app.context.hash = sdk.sha256 b) :
    replyTo (deviceStep sdk app .confirm).2 =
      if app.ui.step = some .approve then approvalReply sdk path magic b
      else if app.ui.step = some .reject ∨ app.ui.step = some .abort then
        some (.error .deny)
      else none := by
  change replyTo (uiConfirm sdk app).2 = _
  by_cases approve : app.ui.step = some .approve
  · rw [if_pos approve,
      uiConfirm_transaction_approved sdk approve callback, approvalReply,
      ← isPath, signingDigest, ← isMagic, ← isHash]
    change _ = match sdk.ecdsaSign _
      (sdk.sha256 (signedData app.context)).toList with
      | some signature => _
      | none => _
    cases signs : sdk.ecdsaSign (sdk.deriveNodeBip32 app.context.bip44Path)
        (sdk.sha256 (signedData app.context)).toList with
    | none =>
        rw [uiActionValidateTransaction_of_sign sdk signs]
        exact @replyTo_response [] swSignFail _ rfl (Nat.zero_le _)
    | some signature =>
        have short := fit _ _ _ signs
        rw [uiActionValidateTransaction_of_sign sdk signs]
        dsimp only
        rw [take_signature app.context short]
        exact
          @replyTo_response signature swOk _ rfl (short.trans (by decide))
  rw [if_neg approve]
  by_cases refuse : app.ui.step = some .reject ∨ app.ui.step = some .abort
  · rw [if_pos refuse, uiConfirm_refused sdk refuse]
    simp only [gValidateCallback, callback]
    exact @replyTo_response [] swDeny _ rfl (Nat.zero_le _)
  · rw [if_neg refuse, uiConfirm_of_no_step sdk]
    · rfl
    · simp only [List.mem_cons, List.not_mem_nil, or_false]
      rintro (isApprove | isRefusal)
      · exact approve isApprove
      · exact refuse isRefusal

/-- Both buttons after the presses on the review of an accepted
transaction. -/
theorem replyTo_review
    (fit : SignaturesFit sdk) {context : GlobalCtx} (ui : Ui)
    {path : Bip44Path} {magic : UInt32} {b : List UInt8} {tx : Transaction}
    (parsed :
      transactionDeserialize sdk ⟨b, b.length, 0⟩ Transaction.zero =
        (.parsingOk, tx))
    (isTransaction : context.transaction = tx)
    (isPath : context.bip44Path = path)
    (isMagic : context.networkMagic = magic)
    (isHash : context.hash = sdk.sha256 b) (presses : List Press) :
    replyTo
        (deviceStep sdk
          ⟨context, pressAll (uiPress context) (reviewUi context ui) presses⟩
          .confirm).2 =
      submittedReply sdk path magic b presses := by
  let final := pressAll (uiPress context) (reviewUi context ui) presses
  have callback : final.validateCallback = some .transaction :=
    Ui.callback_of_review (pressAll_review context _ presses)
  rw [@replyTo_confirm _ fit ⟨context, final⟩ callback _ _ _ isPath isMagic
      isHash,
    submittedReply, parsed]
  dsimp only
  subst isTransaction
  by_cases isTransfer :
      context.transaction.isSystemAssetTransfer = true
  · have accepted : AcceptedTransfer sdk b context.transaction :=
      ⟨parsed, isTransfer⟩
    obtain ⟨isApprove, isReject, notAbort⟩ :=
      step_after_presses accepted.reviewSizes (shows_reviewUi ui isTransfer)
        presses
    rw [if_pos isTransfer, reviewReply]
    simp only [isApprove, isReject, or_iff_left notAbort, final]
  · have steps : (reviewUi context ui).steps =
        [.noArbitraryScript, .abort] := by
      change createTransactionFlow context.transaction = _
      rw [Bool.not_eq_true] at isTransfer
      rw [createTransactionFlow, isTransfer]
      rfl
    have plain : PlainFlow (reviewUi context ui).steps := by
      rw [steps]
      decide
    have moved : final =
        { reviewUi context ui with index := cursorAfter 2 presses } := by
      have cursor := @PlainFlow.pressAll context _ plain rfl presses
      rwa [steps] at cursor
    have step : final.step =
        [Step.noArbitraryScript, .abort][cursorAfter 2 presses]? := by
      rw [moved, ← steps]
      rfl
    rw [if_neg isTransfer, step]
    rcases cursorAfter 2 presses with _ | _ | cursor <;> simp

/-- The reply once the last chunk has brought the bytes `b`. -/
theorem recv_submitted
    (fit : SignaturesFit sdk) {io : IoApp} (attending : Attending io)
    {app : App} {chunk : List UInt8} {path : Bip44Path} {magic : UInt32}
    {b : List UInt8} (isPath : app.context.bip44Path = path)
    (isMagic : app.context.networkMagic = magic)
    (taken : deviceStep sdk io.app (.apdu chunk) = submitted sdk app b)
    (presses : List Press) :
    recv io.transmitted.length
        (ioRun sdk io (.apdu chunk :: (presses.map Event.press ++
          [.confirm]))) =
      submittedReply sdk path magic b presses := by
  rw [submitted] at taken
  rcases parsed : transactionDeserialize sdk ⟨b, b.length, 0⟩
      Transaction.zero with ⟨status, tx⟩
  rw [parsed] at taken
  by_cases accepted : status = .parsingOk
  · subst accepted
    rw [attending.recv_reviewed taken rfl]
    exact
      @replyTo_review _ fit
        { app.context.append b with
          transaction := tx
          state := .parsed
          hash := sdk.sha256 b }
        app.ui _ _ _ _ parsed rfl isPath isMagic rfl presses
  · have refused : submittedReply sdk path magic b presses =
        some (.error .txParsingFail) := by
      rw [submittedReply, parsed]
      cases status with
      | parsingOk => exact absurd rfl accepted
      | _ => rfl
    rw [refused]
    cases status with
    | parsingOk => exact absurd rfl accepted
    | _ => exact attending.recv_answered taken rfl (by decide) _

section Pieces

variable {path : Bip44Path} (valid : ValidPath path) (magic : UInt32)
  {app : App} (wf : app.context.Wf)

/-- The last of all the pieces is parsed with the others. -/
theorem step_lastPiece
    {context : GlobalCtx} (awaits : AwaitsData context) (ui : Ui)
    {b : List UInt8} {whole : List (UInt8 × List UInt8)}
    {last : UInt8 × List UInt8} (pieces : Pieces b whole last)
    (few : b.length ≤ maxTransactionLen) :
    (device sdk).step ⟨context.append (pieceBytes whole), ui⟩
        (signTxEvent last.1 p2Last last.2) =
      submitted sdk ⟨context, ui⟩ b := by
  have fits : context.rawTxLen + (pieceBytes whole ++ last.2).length ≤
      maxTransactionLen := by
    rw [awaits.empty, pieces.bytes, Nat.zero_add]
    exact few
  have split := fits
  rw [List.length_append] at split
  have appended : (context.append (pieceBytes whole)).Wf :=
    awaits.wf.append (by omega)
  have step :=
    @deviceStep_last sdk ⟨context.append (pieceBytes whole), ui⟩
      last.2 last.1 pieces.isLast appended awaits.isTransaction
      (by
        change context.rawTxLen + _ + _ ≤ _
        omega)
  rw [GlobalCtx.append_append awaits.wf fits, pieces.bytes] at step
  exact
    step.trans
      (@submitted_eq sdk ⟨context, ui⟩ awaits.wf awaits.isTransaction
        awaits.cleared awaits.empty _ few)

include valid wf

/-- The device takes the path, the magic and some whole pieces. -/
theorem runFrom_pieces
    {whole : List (UInt8 × List UInt8)}
    (areWhole : ∀ piece ∈ whole, IsPiece piece)
    (few : (pieceBytes whole).length ≤ maxTransactionLen) :
    (device sdk).runFrom app
        (hostEvents
          (preambleCommands path magic ++ whole.map (pieceCommand false))) =
      (⟨(readyContext path magic).append (pieceBytes whole), app.ui⟩,
        List.replicate (2 + whole.length) (ioSendSw swOk)) := by
  have awaits := readyContext_awaitsData path magic
  have ready := @runFrom_ready sdk _ wf _ valid magic
  generalize readyContext path magic = context at awaits ready ⊢
  have moves :=
    @runFrom_moreEvents sdk ⟨context, app.ui⟩ awaits.wf
      awaits.isTransaction whole areWhole
      (by rwa [awaits.empty, Nat.zero_add])
  rw [hostEvents_pieces, (device sdk).runFrom_append ready moves,
    List.replicate_add]

end Pieces

section Loop

variable {path : Bip44Path} (valid : ValidPath path) (magic : UInt32)
  {io : IoApp} (attending : Attending io)

include valid attending

/-- The path, the magic and some whole pieces. -/
theorem signTxLoop_pieces
    (user : List Event) {whole : List (UInt8 × List UInt8)}
    (areWhole : ∀ piece ∈ whole, IsPiece piece)
    (few : (pieceBytes whole).length ≤ maxTransactionLen)
    (rest : List (Bool × List UInt8)) :
    ∃ waits : IoApp, Attending waits ∧
      waits.app =
        ⟨(readyContext path magic).append (pieceBytes whole), io.app.ui⟩ ∧
      signTxLoop sdk user io.transmitted.length io []
          (preambleCommands path magic ++ whole.map (pieceCommand false) ++
            rest) =
        signTxLoop sdk user waits.transmitted.length waits [] rest := by
  apply signTxLoop_ok attending
  · intro command member
    rcases List.mem_append.mp member with first | later
    · rw [preambleCommands, List.mem_pair] at first
      rcases first with rfl | rfl <;> rfl
    · obtain ⟨piece, _, rfl⟩ := List.mem_map.mp later
      rfl
  · rw [runFrom_pieces valid magic attending.wf areWhole few,
      List.length_append, List.length_map]
    rfl

/-- All the bytes, the last piece flagged. -/
theorem signTxLoop_submitted
    (fit : SignaturesFit sdk) {b : List UInt8}
    {whole : List (UInt8 × List UInt8)} {last : UInt8 × List UInt8}
    (pieces : Pieces b whole last) (few : b.length ≤ maxTransactionLen)
    (presses : List Press) :
    (signTxLoop sdk (presses.map Event.press ++ [.confirm])
        io.transmitted.length io []
        (preambleCommands path magic ++ whole.map (pieceCommand false) ++
          [pieceCommand true last])).2 =
      submittedReply sdk path magic b presses := by
  have total := congrArg List.length pieces.bytes
  rw [List.length_append] at total
  obtain ⟨waits, still, isReady, loop⟩ :=
    signTxLoop_pieces valid magic attending
      (presses.map Event.press ++ [.confirm]) pieces.areWhole (by omega)
      [pieceCommand true last]
  rw [loop]
  apply signTxLoop_last
  have awaits := readyContext_awaitsData path magic
  have isPath : (readyContext path magic).bip44Path = path := rfl
  have isMagic : (readyContext path magic).networkMagic = magic := rfl
  generalize readyContext path magic = context at *
  have taken := @step_lastPiece sdk _ awaits io.app.ui _ _ _ pieces few
  rw [← isReady] at taken
  exact recv_submitted fit still isPath isMagic taken presses

/-- A piece for which there is no room. -/
theorem signTxLoop_tooLong
    (user : List Event) {whole : List (UInt8 × List UInt8)}
    {piece : UInt8 × List UInt8} (areWhole : ∀ piece ∈ whole, IsPiece piece)
    (isPiece : IsPiece piece)
    (few : (pieceBytes whole).length ≤ maxTransactionLen)
    (long : maxTransactionLen < (pieceBytes whole).length + piece.2.length)
    (isLast : Bool) (rest : List (Bool × List UInt8)) :
    (signTxLoop sdk user io.transmitted.length io []
        (preambleCommands path magic ++ whole.map (pieceCommand false) ++
          pieceCommand isLast piece :: rest)).2 =
      some (.error .wrongTxLength) := by
  obtain ⟨waits, still, isReady, loop⟩ :=
    signTxLoop_pieces valid magic attending user areWhole few
      (pieceCommand isLast piece :: rest)
  rw [loop]
  have awaits := readyContext_awaitsData path magic
  generalize readyContext path magic = context at *
  have appended : (context.append (pieceBytes whole)).Wf :=
    awaits.wf.append (by rwa [awaits.empty, Nat.zero_add])
  have passes :
      ¬ (context.append (pieceBytes whole)).refusesIn .magicOk = true := by
    rw [appended.refusesIn_iff (.inr rfl)]
    intro isAddress
    cases awaits.isTransaction.symm.trans isAddress
  have request : (Event.apdu (pieceCommand isLast piece).2).request =
      some (.chunk (!isLast) piece.2) :=
    congrArg some (pieceCommand_request isPiece isLast)
  have refused : deviceStep sdk waits.app
      (.apdu (pieceCommand isLast piece).2) =
        (waits.app, ioSendSw swWrongTxLength) := by
    refine (deviceStep_of_request request).trans ?_
    have noRoom : maxTransactionLen <
        (context.append (pieceBytes whole)).rawTxLen + piece.2.length := by
      change _ < context.rawTxLen + (pieceBytes whole).length + _
      rwa [awaits.empty, Nat.zero_add]
    rw [isReady]
    change signTxData sdk (wholeBuffer piece.2) (!isLast) _ = _
    rw [signTxData, if_neg passes, appendRawTx_eq appended isPiece.short,
      if_pos noRoom]
  exact
    signTxLoop_refused still refused (Nat.zero_le _) (by decide) isLast rest

/-- No bytes at all. -/
theorem signTxLoop_empty (user : List Event) :
    (signTxLoop sdk user io.transmitted.length io []
        (preambleCommands path magic ++
          [(true, serialize 0x80 0x02 2 0x00 [])])).2 =
      some (.error .wrongDataLength) := by
  obtain ⟨waits, still, _, loop⟩ :=
    @signTxLoop_pieces sdk _ valid magic io attending user []
      (fun piece member => by cases member) (Nat.zero_le _)
      [(true, serialize 0x80 0x02 2 0x00 [])]
  rw [List.map_nil, List.append_nil] at loop
  rw [loop]
  have request : (Event.apdu (serialize 0x80 0x02 2 0x00 [])).request =
      some (.answered [] swWrongDataLength) := by
    decide
  have refused : deviceStep sdk waits.app
      (.apdu (serialize 0x80 0x02 2 0x00 [])) =
        (waits.app, ioSendSw swWrongDataLength) :=
    @deviceStep_of_request sdk waits.app _ _ request
  exact
    signTxLoop_refused still refused (Nat.zero_le _) (by decide) true []

end Loop

theorem wholePieces_add
    (data : List UInt8) (first second i offset : Nat) :
    wholePieces data (first + second) i offset =
      wholePieces data first i offset ++
        wholePieces data second (i + first)
          (offset + first * maxApduLen) := by
  induction first generalizing i offset with
  | zero => simp [wholePieces]
  | succ first ih =>
      rw [Nat.succ_add, wholePieces, wholePieces, ih, List.cons_append,
        show i + 1 + first = i + (first + 1) by omega,
        show offset + maxApduLen + first * maxApduLen =
          offset + (first + 1) * maxApduLen by rw [Nat.succ_mul]; omega]

/-- The commands of more than 255 bytes. -/
theorem signTx_long
    (path : Bip44Path) (magic : UInt32) {b : List UInt8}
    (long : 255 < b.length) :
    signTx path b magic =
      preambleCommands path magic ++
        ((wholePieces b (b.length / 255) 0 0).map (pieceCommand false) ++
          if b.length % 255 ≠ 0 then
            [pieceCommand true
              (UInt8.ofNat (0 + b.length / 255 + 2),
                b.drop (0 + b.length / 255 * 255))]
          else []) := by
  rw [signTx, chunkify,
    if_neg (show ¬ b.length ≤ maxApduLen from Nat.not_le.mpr long),
    signTxChunks_chunkifyFrom]
  rfl

theorem signTx_unflagged
    (path : Bip44Path) (magic : UInt32) {b : List UInt8}
    (unflagged : UnflaggedSize b.length) :
    signTx path b magic =
      preambleCommands path magic ++
        (wholePieces b (b.length / 255) 0 0).map (pieceCommand false) := by
  rw [signTx_long path magic unflagged.1,
    if_neg (not_not.mpr unflagged.2), List.append_nil]

/-- More bytes than the device takes come with four whole pieces and one that
does not fit. -/
theorem signTx_tooLong
    (path : Bip44Path) (magic : UInt32) {b : List UInt8}
    (long : maxTransactionLen < b.length) :
    ∃ isLast piece rest, IsPiece piece ∧ 4 < piece.2.length ∧
      signTx path b magic =
        preambleCommands path magic ++
          (wholePieces b 4 0 0).map (pieceCommand false) ++
            pieceCommand isLast piece :: rest := by
  have large : 1024 < b.length := long
  have parts := Nat.div_add_mod b.length 255
  have below := Nat.mod_lt b.length (show 0 < 255 by decide)
  rw [signTx_long path magic (by omega)]
  obtain ⟨more, count⟩ : ∃ more, b.length / 255 = 4 + more :=
    ⟨b.length / 255 - 4, by omega⟩
  rw [count, wholePieces_add, List.map_append, List.append_assoc,
    ← List.append_assoc]
  cases more with
  | zero =>
      have rest : b.length % 255 ≠ 0 := by omega
      rw [if_pos rest]
      refine ⟨true, _, [], ⟨?_, ?_, ?_, ?_⟩, ?_, rfl⟩
      · exact show (2 : UInt8) ≤ 6 by decide
      · exact show (6 : UInt8) ≤ 6 by decide
      · rw [← List.length_pos_iff, List.length_drop]
        omega
      · rw [List.length_drop]
        omega
      · rw [List.length_drop]
        omega
  | succ more =>
      refine
        ⟨false, (6, (b.drop 1020).take 255), _, ⟨?_, ?_, ?_, ?_⟩, ?_, rfl⟩
      · exact show (2 : UInt8) ≤ 6 by decide
      · exact show (6 : UInt8) ≤ 6 by decide
      · rw [← List.length_pos_iff, List.length_take, List.length_drop]
        omega
      · rw [List.length_take]
        exact Nat.min_le_left _ _
      · rw [List.length_take, List.length_drop]
        omega

/-! ## The reply -/

/-- What `sign_tx` comes to while the device attends. -/
theorem clientSignTx_of_attending
    (fit : SignaturesFit sdk) {io : IoApp} (attending : Attending io)
    (presses : List Press) (path : Bip44Path) (b : List UInt8)
    (magic : UInt32) :
    (clientSignTx sdk presses path b magic io).2 =
      signTxReply sdk presses path b magic := by
  unfold clientSignTx signTxWith signTxReply
  cases offends : pathOffence 0x80000010 4999 path with
  | some status =>
      have length := length_pathBytes path
      obtain ⟨next, refused⟩ :=
        @deviceStep_offence sdk _ attending.wf _ _ (request_pathBytes path)
          (by omega) (by omega) status (by rwa [pathWords_pathBytes])
      exact
        signTxLoop_refused attending refused (Nat.zero_le _)
          (pathOffence_ne_swOk offends) false _
  | none =>
      have valid := validPath_of_offence offends
      dsimp only
      by_cases empty : b = []
      · subst empty
        rw [if_pos rfl]
        exact signTxLoop_empty valid magic attending _
      rw [if_neg empty]
      by_cases long : maxTransactionLen < b.length
      · obtain ⟨isLast, piece, rest, isPiece, exceeds, commands⟩ :=
          signTx_tooLong path magic long
        have large : 1024 < b.length := long
        have four : (pieceBytes (wholePieces b 4 0 0)).length = 1020 := by
          rw [pieceBytes_wholePieces, List.length_take, List.length_drop]
          unfold maxApduLen
          omega
        rw [if_pos long, commands]
        apply signTxLoop_tooLong valid magic attending _ ?_ isPiece
        · rw [four]
          decide
        · rw [four]
          unfold maxTransactionLen
          omega
        · exact fun piece member =>
            isPiece_of_mem (by omega)
              (by unfold maxApduLen; omega) member
      rw [if_neg long]
      have few : b.length ≤ 1024 := Nat.le_of_not_lt long
      by_cases unflagged : UnflaggedSize b.length
      · have whole : ∀ piece ∈ wholePieces b (b.length / 255) 0 0,
            IsPiece piece := fun piece member =>
          isPiece_of_mem (by omega) (by unfold maxApduLen; omega) member
        obtain ⟨waits, _, _, loop⟩ :=
          @signTxLoop_pieces sdk _ valid magic _ attending
            (presses.map Event.press ++ [.confirm]) _ whole
            (by
              rw [pieceBytes_wholePieces, List.length_take, List.length_drop]
              unfold maxTransactionLen maxApduLen
              omega) []
        rw [if_pos unflagged, signTx_unflagged path magic unflagged,
          ← List.append_nil (preambleCommands path magic ++ _), loop]
        rfl
      · rw [if_neg unflagged]
        obtain ⟨whole, last, pieces, commands⟩ :=
          signTx_pieces path magic (List.length_pos_iff.mpr empty) few
            unflagged
        rw [commands]
        exact signTxLoop_submitted valid magic attending fit pieces few presses

/-- Chunk 0 is always answered at once. -/
theorem exists_answer_of_path
    {app : App} (wf : app.context.Wf) {event : Event} {data : List UInt8}
    (isPath : event.request = some (.path data)) (long : 20 ≤ data.length)
    (short : data.length ≤ 255) :
    ∃ next sw, deviceStep sdk app event = (next, ioSendSw sw) := by
  cases offends : pathOffence 0x80000010 4999 (pathWords data) with
  | some status =>
      obtain ⟨next, refused⟩ :=
        @deviceStep_offence sdk _ wf _ _ isPath long short status offends
      exact ⟨next, status, refused⟩
  | none =>
      exact
        ⟨_, _,
          deviceStep_path wf isPath long short (validPath_of_offence offends)⟩

/-- After an overtaken review chunk 0 is not answered. -/
theorem signTxLoop_of_stuck
    {io : IoApp} (stuck : Stuck io) {data : List UInt8}
    (long : 20 ≤ data.length) (short : data.length ≤ 255) (user : List Event)
    (rest : List (Bool × List UInt8)) :
    (signTxLoop sdk user io.transmitted.length io []
        ((false, serialize 0x80 0x02 0x00 0x80 data) :: rest)).2 = none := by
  have isPath : (signTxEvent 0 p2More data).request = some (.path data) :=
    request_signTxEvent (List.length_pos_iff.mp (by omega)) short (by decide)
      (.inl rfl)
  obtain ⟨next, sw, answered⟩ :=
    @exists_answer_of_path sdk _ stuck.wf _ _ isPath long short
  have unanswered :=
    stuck.recv_unanswered answered rfl (isSome_of_request isPath (by nofun))
  rw [signTxLoop]
  simp only [Bool.false_eq_true, if_false]
  change recv _ (ioRun sdk io [.apdu (serialize 0x80 0x02 0x00 0x80 data)]) =
    none at unanswered
  rw [unanswered]

/-- After an overtaken review the first command of the client is not
answered. -/
theorem clientSignTx_of_stuck
    {io : IoApp} (stuck : Stuck io) (presses : List Press) (path : Bip44Path)
    (b : List UInt8) (magic : UInt32) :
    (clientSignTx sdk presses path b magic io).2 = none := by
  have length := length_pathBytes path
  exact signTxLoop_of_stuck stuck (by omega) (by omega) _ _

/-- A device that signs a digest with its first two bytes. -/
def twoByteSigner : Sdk :=
  { Sdk.constant with ecdsaSign := fun _ digest => some (digest.take 2) }

theorem signaturesFit_twoByteSigner : SignaturesFit twoByteSigner := by
  intro privateKey digest signature signs
  cases signs
  change (digest.take 2).length ≤ 72
  rw [List.length_take]
  omega

end Neo3App
