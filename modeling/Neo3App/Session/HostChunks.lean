import Mathlib.Tactic.IntervalCases
import Neo3App.Host.CommandBuilder
import Neo3App.Session.Reassembly
import Neo3App.Transaction.Accepted

/-!
# The chunks of the host

The command builder of the host against the device.  The builder flags no
chunk as the last one when the size is a proper multiple of 255; for every
other size the device parses exactly the serialized bytes.
-/

namespace Neo3App

open Neo3App.Lib
open Neo3App.Host

def FlaggedLast (bytes : List UInt8) : Prop :=
  ∃ cmd, apduParser bytes = some cmd ∧ cmd.p2 = p2Last

def hostEvents (commands : List (Bool × List UInt8)) : List Event :=
  commands.map fun command => .apdu command.2

/-- The device takes the commands as the host means them: from a fresh state
each of them reaches its handler, and all but the final one are answered
`SW_OK`; the final one and no other is flagged as the last, and hands exactly
the bytes `tx` to the parser. -/
def HostAgrees (sdk : Sdk) (commands : List (Bool × List UInt8))
    (tx : List UInt8) : Prop :=
  (∀ command ∈ commands, ∀ data sw,
    apduRequest command.2 ≠ .answered data sw) ∧
    ∃ earlier final, commands = earlier ++ [final] ∧
      (∀ turn ∈ (device sdk).trace (hostEvents earlier),
        turn.AnsweredOk sdk) ∧
        FlaggedLast final.2 ∧
          (∀ command ∈ earlier, ¬ FlaggedLast command.2) ∧
            ∃ context,
              Turn.Deserializes
                  ⟨(device sdk).after (hostEvents earlier),
                    .apdu final.2⟩ context ∧
                context.rawTx.take context.rawTxLen = tx

/-- The size of a transaction whose last chunk is not flagged. -/
def UnflaggedSize (size : Nat) : Prop :=
  255 < size ∧ size % 255 = 0

/-- The whole pieces of some data, numbered from `i` on. -/
def wholePieces (data : List UInt8) : (chunks i offset : Nat) →
    List (UInt8 × List UInt8)
  | 0, _, _ => []
  | chunks + 1, i, offset =>
      (UInt8.ofNat (i + 2), (data.drop offset).take maxApduLen) ::
        wholePieces data chunks (i + 1) (offset + maxApduLen)

def pieceCommand (isLast : Bool) (piece : UInt8 × List UInt8) :
    Bool × List UInt8 :=
  (isLast,
    serialize 0x80 0x02 piece.1 (if isLast then 0x00 else 0x80) piece.2)

/-- The commands of the chunks: whole pieces, then the rest, if any. -/
theorem signTxChunks_chunkifyFrom
    (data : List UInt8) (chunks i offset : Nat) :
    signTxChunks i (chunkifyFrom data maxApduLen chunks offset) =
      (wholePieces data chunks i offset).map (pieceCommand false) ++
        if data.length % maxApduLen ≠ 0 then
          [pieceCommand true
            (UInt8.ofNat (i + chunks + 2),
              data.drop (offset + chunks * maxApduLen))]
        else [] := by
  induction chunks generalizing i offset with
  | zero =>
      rw [chunkifyFrom]
      split
      · simp [signTxChunks, pieceCommand, wholePieces]
      · rfl
  | succ chunks ih =>
      rw [chunkifyFrom, signTxChunks, if_neg Bool.false_ne_true, ih,
        wholePieces, List.map_cons, List.cons_append,
        show i + 1 + chunks = i + (chunks + 1) by omega,
        show offset + maxApduLen + chunks * maxApduLen =
          offset + (chunks + 1) * maxApduLen by rw [Nat.succ_mul]; omega]
      rfl

theorem pieceBytes_wholePieces
    (data : List UInt8) (chunks i offset : Nat) :
    pieceBytes (wholePieces data chunks i offset) =
      (data.drop offset).take (chunks * maxApduLen) := by
  induction chunks generalizing i offset with
  | zero => simp [wholePieces, pieceBytes]
  | succ chunks ih =>
      have pieces : pieceBytes (wholePieces data (chunks + 1) i offset) =
          (data.drop offset).take maxApduLen ++
            pieceBytes (wholePieces data chunks (i + 1)
              (offset + maxApduLen)) := List.flatMap_cons
      rw [pieces, ih, ← List.drop_drop, Nat.succ_mul, Nat.add_comm,
        List.take_add]

theorem chunkNumber_range {i : Nat} (small : i ≤ 4) :
    2 ≤ UInt8.ofNat (i + 2) ∧ UInt8.ofNat (i + 2) ≤ 6 := by
  interval_cases i <;> decide

theorem isPiece_of_mem
    {data : List UInt8} {chunks i offset : Nat}
    {piece : UInt8 × List UInt8} (few : i + chunks ≤ 5)
    (inside : offset + chunks * maxApduLen ≤ data.length)
    (member : piece ∈ wholePieces data chunks i offset) :
    IsPiece piece := by
  induction chunks generalizing i offset with
  | zero => cases member
  | succ chunks ih =>
      rw [Nat.succ_mul] at inside
      rw [wholePieces, List.mem_cons] at member
      rcases member with rfl | later
      · obtain ⟨low, high⟩ := @chunkNumber_range i (by omega)
        refine ⟨low, high, ?_, ?_⟩
        · rw [← List.length_pos_iff, List.length_take, List.length_drop]
          unfold maxApduLen at inside ⊢
          omega
        · change ((data.drop offset).take maxApduLen).length ≤ 255
          rw [List.length_take]
          exact Nat.min_le_left _ _
      · exact ih (by omega) (by omega) later

def preambleCommands (path : Bip44Path) (networkMagic : UInt32) :
    List (Bool × List UInt8) :=
  [(false, serialize 0x80 0x02 0x00 0x80 (pathBytes path)),
    (false, serialize 0x80 0x02 0x01 0x80 (leBytes 4 networkMagic.toNat))]

/-- A transaction in pieces that the device can take. -/
structure Pieces (tx : List UInt8) (whole : List (UInt8 × List UInt8))
    (last : UInt8 × List UInt8) : Prop where
  areWhole : ∀ piece ∈ whole, IsPiece piece
  isLast : IsPiece last
  bytes : pieceBytes whole ++ last.2 = tx

theorem signTx_pieces
    (path : Bip44Path) (networkMagic : UInt32) {tx : List UInt8}
    (some : 1 ≤ tx.length) (few : tx.length ≤ 1024)
    (flagged : ¬ UnflaggedSize tx.length) :
    ∃ whole last, Pieces tx whole last ∧
      signTx path tx networkMagic =
        preambleCommands path networkMagic ++
          whole.map (pieceCommand false) ++ [pieceCommand true last] := by
  by_cases short : tx.length ≤ maxApduLen
  · refine ⟨[], (2, tx), ⟨?_, ?_, rfl⟩, ?_⟩
    · intro piece member
      cases member
    · exact
        ⟨show (2 : UInt8) ≤ 2 by decide, show (2 : UInt8) ≤ 6 by decide,
          List.length_pos_iff.mp some, short⟩
    · rw [signTx, chunkify, if_pos short]
      rfl
  · have long : 255 < tx.length := Nat.lt_of_not_le short
    have rest : tx.length % 255 ≠ 0 := fun exact => flagged ⟨long, exact⟩
    have parts := Nat.div_add_mod tx.length 255
    have below := Nat.mod_lt tx.length (show 0 < 255 by decide)
    refine
      ⟨wholePieces tx (tx.length / 255) 0 0,
        (UInt8.ofNat (0 + tx.length / 255 + 2),
          tx.drop (0 + tx.length / 255 * maxApduLen)), ⟨?_, ?_, ?_⟩, ?_⟩
    · intro piece member
      refine isPiece_of_mem ?_ ?_ member
      · omega
      · unfold maxApduLen
        omega
    · obtain ⟨low, high⟩ :=
        @chunkNumber_range (0 + tx.length / 255) (by omega)
      refine ⟨low, high, ?_, ?_⟩
      · rw [← List.length_pos_iff, List.length_drop]
        unfold maxApduLen
        omega
      · rw [List.length_drop]
        unfold maxApduLen
        omega
    · rw [pieceBytes_wholePieces, List.drop_zero]
      simp only [Nat.zero_add]
      exact List.take_append_drop _ _
    · have whole : tx.length / maxApduLen = tx.length / 255 := rfl
      rw [signTx, chunkify, if_neg short, whole, signTxChunks_chunkifyFrom,
        if_pos (show tx.length % maxApduLen ≠ 0 from rest)]
      rfl

/-- A number stands where its bytes do. -/
theorem readU32Be_append
    (level : UInt32) (before after : List UInt8) {offset : Nat}
    (here : before.length = offset) :
    readU32Be (before ++ ((leBytes 4 level.toNat).reverse ++ after)) offset =
      level := by
  apply UInt32.toNat_inj.mp
  subst here
  rw [@toNat_readU32Be _ (leBytes 4 level.toNat).reverse after _
    List.drop_left (by rw [List.length_reverse, length_leBytes]),
    beNat, List.reverse_reverse, leNat_leBytes level.toNat_lt]

theorem length_levels (levels : List UInt32) :
    (levels.flatMap fun level => (leBytes 4 level.toNat).reverse).length =
      4 * levels.length := by
  induction levels with
  | nil => rfl
  | cons level levels ih =>
      rw [List.flatMap_cons, List.length_append, ih, List.length_reverse,
        length_leBytes, List.length_cons]
      omega

theorem readU32Be_levels
    {levels : List UInt32} {i : Nat} (inside : i < levels.length) :
    readU32Be
        (levels.flatMap fun level => (leBytes 4 level.toNat).reverse)
        (4 * i) = levels[i] := by
  conv_lhs =>
    rw [← List.take_append_drop i levels,
      List.drop_eq_getElem_cons inside, List.flatMap_append,
      List.flatMap_cons]
  apply readU32Be_append
  rw [length_levels, List.length_take, Nat.min_eq_left inside.le]

/-- The device finds the numbers of the path. -/
theorem pathWords_pathBytes (path : Bip44Path) :
    pathWords (pathBytes path) = path := by
  have read {i : Nat} (inside : i < bip44PathLen) :
      readU32Be (pathBytes path) (4 * i) = path[i] := by
    have found :=
      @readU32Be_levels path.toList i (by rwa [Vector.length_toList])
    rwa [Vector.getElem_toList] at found
  apply Vector.ext
  intro i inside
  rw [← read inside]
  unfold bip44PathLen at inside
  interval_cases i <;> rfl

theorem length_pathBytes (path : Bip44Path) :
    (pathBytes path).length = 20 := by
  rw [pathBytes, length_levels, Vector.length_toList]
  rfl

/-! ## The device on these commands -/

variable {sdk : Sdk}

/-- Chunk 0 with an accepted path. -/
theorem deviceStep_path
    {app : App} (wf : app.context.Wf) {event : Event} {data : List UInt8}
    (isPath : event.request = some (.path data)) (long : 20 ≤ data.length)
    (short : data.length ≤ 255) (valid : ValidPath (pathWords data)) :
    deviceStep sdk app event =
      ({ app with context := pathContext (pathWords data) .bip44Ok },
        ioSendSw swOk) := by
  have outcome := deviceStep_outcome sdk wf event
  rcases result : deviceStep sdk app event with ⟨after, effects⟩
  simp only [result] at outcome
  cases outcome with
  | pathAccepted request =>
      cases isPath.symm.trans request
      rfl
  | pathRefused request refused =>
      cases isPath.symm.trans request
      have accepted :=
        (validatePath_eq_ok_iff (lt_sizeModulus_of_short short)
          GlobalCtx.zero.bip44Path _).mpr ⟨long, valid, rfl⟩
      cases refused.symm.trans accepted
  | answered other | keyRefused other | keySent other | keyShown other
  | magicGuarded other | magicMissing other | magicRead other
  | chunkGuarded other | chunkTooLong other | chunkTaken other
  | parseFailed other | reviewStarted other =>
      cases isPath.symm.trans other
  | pressed | ignored | keyApproved | keyDenied | signed | signFailed
  | denied =>
      cases isPath

/-- Chunk 1 with a magic. -/
theorem deviceStep_magic
    {app : App} (wf : app.context.Wf)
    (isTransaction : app.context.reqType = .confirmTransaction)
    {event : Event} {data : List UInt8}
    (isMagic : event.request = some (.magic data))
    (long : 4 ≤ data.length) :
    deviceStep sdk app event =
      ({ app with
          context :=
            { app.context with
              networkMagic := readU32Le data 0
              state := .magicOk } },
        ioSendSw swOk) := by
  have outcome := deviceStep_outcome sdk wf event
  rcases result : deviceStep sdk app event with ⟨after, effects⟩
  simp only [result] at outcome
  cases outcome with
  | magicRead request =>
      cases isMagic.symm.trans request
      rfl
  | magicGuarded _ guarded =>
      cases guarded.symm.trans isTransaction
  | magicMissing request _ short =>
      cases isMagic.symm.trans request
      omega
  | answered other | pathRefused other | pathAccepted other
  | keyRefused other | keySent other | keyShown other
  | chunkGuarded other | chunkTooLong other | chunkTaken other
  | parseFailed other | reviewStarted other =>
      cases isMagic.symm.trans other
  | pressed | ignored | keyApproved | keyDenied | signed | signFailed
  | denied =>
      cases isMagic

def preambleEvents (path : Bip44Path) (networkMagic : UInt32) :
    List Event :=
  [signTxEvent 0 p2More (pathBytes path),
    signTxEvent 1 p2More (leBytes 4 networkMagic.toNat)]

theorem request_pathBytes (path : Bip44Path) :
    (signTxEvent 0 p2More (pathBytes path)).request =
      some (.path (pathBytes path)) := by
  have length := length_pathBytes path
  exact
    request_signTxEvent (List.length_pos_iff.mp (by omega)) (by omega)
      (by decide) (.inl rfl)

theorem request_magicBytes (networkMagic : UInt32) :
    (signTxEvent 1 p2More (leBytes 4 networkMagic.toNat)).request =
      some (.magic (leBytes 4 networkMagic.toNat)) := by
  have length := length_leBytes 4 networkMagic.toNat
  exact
    request_signTxEvent (List.length_pos_iff.mp (by omega)) (by omega)
      (by decide) (.inl rfl)

theorem AwaitsData.withMagic
    {context : GlobalCtx} (awaits : AwaitsData context) (magic : UInt32) :
    AwaitsData { context with networkMagic := magic, state := .magicOk } where
  wf := by
    refine ⟨awaits.wf.length_rawTx, awaits.wf.rawTxLen_le, fun isAddress => ?_⟩
    cases isAddress.symm.trans awaits.isTransaction
  isTransaction := awaits.isTransaction
  cleared := awaits.cleared
  empty := awaits.empty

theorem awaitsData_pathContext (path : Bip44Path) (state : State) :
    AwaitsData (pathContext path state) :=
  ⟨pathContext_wf path state, rfl, rfl, rfl⟩

theorem AwaitsData.runFrom_magic
    {app : App} (awaits : AwaitsData app.context) (networkMagic : UInt32) :
    ∃ next : App, AwaitsData next.context ∧
      (device sdk).runFrom app
          [signTxEvent 1 p2More (leBytes 4 networkMagic.toNat)] =
        (next, [ioSendSw swOk]) := by
  have step : (device sdk).step app
      (signTxEvent 1 p2More (leBytes 4 networkMagic.toNat)) = _ :=
    @deviceStep_magic sdk app awaits.wf awaits.isTransaction _ _
      (request_magicBytes networkMagic) (length_leBytes 4 _).ge
  exact ⟨_, awaits.withMagic _, (device sdk).runFrom_cons step []⟩

/-- The path and the magic are accepted in a fresh state. -/
theorem runFrom_preamble
    {path : Bip44Path} (valid : ValidPath path) (networkMagic : UInt32) :
    ∃ app : App, AwaitsData app.context ∧
      (device sdk).runFrom App.initial (preambleEvents path networkMagic) =
        (app, [ioSendSw swOk, ioSendSw swOk]) := by
  have length := length_pathBytes path
  have step : (device sdk).step App.initial
      (signTxEvent 0 p2More (pathBytes path)) = _ :=
    deviceStep_path initial_wf (request_pathBytes path) (by omega)
      (by omega) (by rwa [pathWords_pathBytes])
  have awaits := awaitsData_pathContext (pathWords (pathBytes path)) .bip44Ok
  generalize pathContext (pathWords (pathBytes path)) .bip44Ok = context
    at step awaits
  obtain ⟨next, ready, magic⟩ :=
    @AwaitsData.runFrom_magic sdk ⟨context, App.initial.ui⟩ awaits
      networkMagic
  exact
    ⟨next, ready,
      (device sdk).runFrom_append ((device sdk).runFrom_cons step []) magic⟩

/-- The device takes whole pieces after the preamble. -/
theorem runFrom_whole
    {path : Bip44Path} (valid : ValidPath path) (networkMagic : UInt32)
    {tx : List UInt8} {whole : List (UInt8 × List UInt8)}
    {last : UInt8 × List UInt8} (pieces : Pieces tx whole last)
    (few : tx.length ≤ 1024) :
    ∃ app : App, AwaitsData app.context ∧
      (device sdk).runFrom App.initial
          (preambleEvents path networkMagic ++ whole.map moreEvent) =
        ({ app with context := app.context.append (pieceBytes whole) },
          List.replicate (whole.length + 2) (ioSendSw swOk)) := by
  obtain ⟨app, awaits, preamble⟩ := runFrom_preamble valid networkMagic
  refine ⟨app, awaits, ?_⟩
  have total := congrArg List.length pieces.bytes
  rw [List.length_append] at total
  have moves :=
    @runFrom_moreEvents sdk app awaits.wf awaits.isTransaction whole
      pieces.areWhole (by
        rw [awaits.empty]
        unfold maxTransactionLen
        omega)
  rw [(device sdk).runFrom_append preamble moves, Nat.add_comm,
    List.replicate_add]
  rfl

theorem flaggedLast_serialize_iff
    {cla ins p1 p2 : UInt8} {data : List UInt8} (short : data.length ≤ 255) :
    FlaggedLast (serialize cla ins p1 p2 data) ↔ p2 = p2Last := by
  have count : (UInt8.ofNat data.length).toNat = data.length := by
    rw [UInt8.toNat_ofNat']
    omega
  obtain ⟨cmd, parsed, _, _, _, isP2, _⟩ :=
    @apduParser_of_length (serialize cla ins p1 p2 data)
      (by simp [offsetCdata, serialize]) (by
        change _ = (UInt8.ofNat data.length).toNat
        rw [count]
        simp [offsetCdata, serialize])
  change cmd.p2 = p2 at isP2
  constructor
  · rintro ⟨other, otherParsed, isLast⟩
    cases parsed.symm.trans otherParsed
    exact isP2.symm.trans isLast
  · intro isLast
    exact ⟨cmd, parsed, isP2.trans isLast⟩

theorem hostEvents_pieces
    (path : Bip44Path) (networkMagic : UInt32)
    (whole : List (UInt8 × List UInt8)) :
    hostEvents
        (preambleCommands path networkMagic ++
          whole.map (pieceCommand false)) =
      preambleEvents path networkMagic ++ whole.map moreEvent := by
  rw [hostEvents, List.map_append, List.map_map]
  rfl

/-- Whole pieces come without the flag of the last chunk. -/
theorem not_flaggedLast_of_mem
    {path : Bip44Path} {networkMagic : UInt32}
    {whole : List (UInt8 × List UInt8)}
    (arePieces : ∀ piece ∈ whole, IsPiece piece)
    {command : Bool × List UInt8}
    (member : command ∈ preambleCommands path networkMagic ++
      whole.map (pieceCommand false)) :
    ¬ FlaggedLast command.2 := by
  have notLast : (0x80 : UInt8) ≠ p2Last := by decide
  have pathLength := length_pathBytes path
  have magicLength := length_leBytes 4 networkMagic.toNat
  rcases List.mem_append.mp member with first | later
  · rw [preambleCommands, List.mem_pair] at first
    rcases first with rfl | rfl
    · rwa [flaggedLast_serialize_iff (by omega)]
    · rwa [flaggedLast_serialize_iff (by omega)]
  · obtain ⟨piece, isWhole, rfl⟩ := List.mem_map.mp later
    rw [pieceCommand, flaggedLast_serialize_iff (arePieces piece isWhole).short]
    exact notLast

theorem pieceCommand_request
    {piece : UInt8 × List UInt8} (isPiece : IsPiece piece) (isLast : Bool) :
    apduRequest (pieceCommand isLast piece).2 =
      .chunk (!isLast) piece.2 := by
  cases isLast with
  | false => exact Option.some.inj (isPiece.request (.inl rfl))
  | true => exact Option.some.inj (isPiece.request (.inr rfl))

theorem answeredOk_of_runFrom
    {events : List Event} {app : App} {count : Nat}
    (ran : (device sdk).runFrom App.initial events =
      (app, List.replicate count (ioSendSw swOk))) :
    ∀ turn ∈ (device sdk).trace events, turn.AnsweredOk sdk := by
  intro turn member
  have answers := (device sdk).runFrom_snd App.initial events
  rw [ran] at answers
  have answered : (turn.result sdk).2 ∈
      List.replicate count (ioSendSw swOk) := by
    rw [show List.replicate count (ioSendSw swOk) = _ from answers]
    exact List.mem_map_of_mem member
  exact List.eq_of_mem_replicate answered

/-- Commands in pieces that the device can take are taken as the host means
them. -/
theorem hostAgrees_of_pieces
    {path : Bip44Path} (valid : ValidPath path) (networkMagic : UInt32)
    {tx : List UInt8} {whole : List (UInt8 × List UInt8)}
    {last : UInt8 × List UInt8} (pieces : Pieces tx whole last)
    (few : tx.length ≤ 1024) :
    HostAgrees sdk
      (preambleCommands path networkMagic ++
        whole.map (pieceCommand false) ++ [pieceCommand true last]) tx := by
  obtain ⟨app, awaits, ran⟩ :=
    @runFrom_whole sdk _ valid networkMagic _ _ _ pieces few
  refine ⟨?_, _, _, rfl, ?_, ?_, ?_, ?_⟩
  · intro command member data sw isAnswered
    rcases List.mem_append.mp member with earlier | final
    · rcases List.mem_append.mp earlier with first | later
      · rw [preambleCommands, List.mem_pair] at first
        rcases first with rfl | rfl
        · have isPath := Option.some.inj (request_pathBytes path)
          cases isPath.symm.trans isAnswered
        · have isMagic := Option.some.inj (request_magicBytes networkMagic)
          cases isMagic.symm.trans isAnswered
      · obtain ⟨piece, isWhole, rfl⟩ := List.mem_map.mp later
        rw [pieceCommand_request (pieces.areWhole piece isWhole)]
          at isAnswered
        cases isAnswered
    · rw [List.mem_singleton.mp final, pieceCommand_request pieces.isLast]
        at isAnswered
      cases isAnswered
  · rw [hostEvents_pieces]
    exact answeredOk_of_runFrom ran
  · exact (flaggedLast_serialize_iff pieces.isLast.short).mpr rfl
  · exact fun command member => not_flaggedLast_of_mem pieces.areWhole member
  · have total := congrArg List.length pieces.bytes
    rw [List.length_append] at total
    have fits : app.context.rawTxLen +
        (pieceBytes whole ++ last.2).length ≤ maxTransactionLen := by
      rw [awaits.empty, pieces.bytes, Nat.zero_add]
      exact few
    have split := fits
    rw [List.length_append] at split
    have appended : (app.context.append (pieceBytes whole)).Wf :=
      awaits.wf.append (by omega)
    have reached : (device sdk).after
        (hostEvents (preambleCommands path networkMagic ++
          whole.map (pieceCommand false))) =
        { app with context := app.context.append (pieceBytes whole) } := by
      rw [hostEvents_pieces, Transition.after_eq_runFrom]
      exact congrArg Prod.fst ran
    rw [reached]
    refine ⟨app.context.append tx, ⟨last.2, ?_, ?_, ?_⟩, ?_⟩
    · exact congrArg some (pieceCommand_request pieces.isLast true)
    · rw [← Bool.not_eq_true, appended.refusesIn_iff (.inr rfl)]
      intro isAddress
      cases awaits.isTransaction.symm.trans isAddress
    · rw [appendRawTx_eq appended pieces.isLast.short,
        GlobalCtx.append_append awaits.wf fits, pieces.bytes, if_neg]
      change ¬ maxTransactionLen < app.context.rawTxLen + _ + _
      omega
    · have received := GlobalCtx.received_append awaits.wf tx
      have nothing : app.context.received = [] := by
        rw [GlobalCtx.received, awaits.empty, List.take_zero]
      rw [nothing] at received
      exact received

/-- Where the size is a proper multiple of 255 no command is flagged. -/
theorem not_hostAgrees_of_unflagged
    (path : Bip44Path) (networkMagic : UInt32) {tx : List UInt8}
    (few : tx.length ≤ 1024) (unflagged : UnflaggedSize tx.length) :
    ¬ HostAgrees sdk (signTx path tx networkMagic) tx := by
  rintro ⟨_, earlier, final, commands, _, flagged, _⟩
  obtain ⟨long, exact⟩ := unflagged
  have isWhole : signTx path tx networkMagic =
      preambleCommands path networkMagic ++
        (wholePieces tx (tx.length / 255) 0 0).map (pieceCommand false) := by
    have whole : tx.length / maxApduLen = tx.length / 255 := rfl
    rw [signTx, chunkify,
      if_neg (show ¬ tx.length ≤ maxApduLen from Nat.not_le.mpr long),
      whole, signTxChunks_chunkifyFrom,
      if_neg (not_not.mpr (show tx.length % maxApduLen = 0 from exact)),
      List.append_nil]
    rfl
  have member : final ∈ preambleCommands path networkMagic ++
      (wholePieces tx (tx.length / 255) 0 0).map (pieceCommand false) := by
    rw [← isWhole, commands]
    exact List.mem_append_right _ (List.mem_singleton_self _)
  refine not_flaggedLast_of_mem (fun piece isWhole => ?_) member flagged
  refine isPiece_of_mem ?_ ?_ isWhole
  · omega
  · unfold maxApduLen
    omega

/-- The host and the device agree except on the sizes whose last chunk is not
flagged. -/
theorem hostAgrees_iff
    (sdk : Sdk) {path : Bip44Path} (valid : ValidPath path)
    (networkMagic : UInt32) {tx : List UInt8} (some : 1 ≤ tx.length)
    (few : tx.length ≤ 1024) :
    HostAgrees sdk (signTx path tx networkMagic) tx ↔
      ¬ UnflaggedSize tx.length := by
  constructor
  · intro agrees unflagged
    exact not_hostAgrees_of_unflagged path networkMagic few unflagged agrees
  · intro flagged
    obtain ⟨whole, last, pieces, commands⟩ :=
      signTx_pieces path networkMagic some few flagged
    rw [commands]
    exact hostAgrees_of_pieces valid networkMagic pieces few

def firstPath : Bip44Path :=
  #v[0x8000002C, 0x80000378, 0x80000000, 0, 0]

theorem hostAgrees_oneNeo :
    HostAgrees Sdk.constant (signTx firstPath oneNeoTransaction 860833102)
      oneNeoTransaction :=
  (hostAgrees_iff Sdk.constant
    ⟨by decide, by decide, by decide, by decide, by decide, by decide⟩
    860833102 (by decide +kernel) (by decide +kernel)).mpr
    fun unflagged => absurd unflagged.1 (by decide +kernel)

/-- A transaction of 510 bytes, with a script of 459 bytes. -/
def twoWholeChunks : List UInt8 :=
  [0] ++ List.replicate 24 0 ++ [1] ++ List.replicate 20 0x02 ++ [1] ++ [0] ++
    [0xFD, 0xCB, 0x01] ++ List.replicate 459 0x40

/-- The host never finishes a transaction of two whole chunks. -/
theorem not_hostAgrees_twoWholeChunks :
    (parsedTransaction twoWholeChunks).1 = .parsingOk ∧
      ¬ HostAgrees Sdk.constant (signTx firstPath twoWholeChunks 860833102)
        twoWholeChunks :=
  ⟨by decide +kernel,
    not_hostAgrees_of_unflagged firstPath 860833102 (by decide +kernel)
      ⟨by decide +kernel, by decide +kernel⟩⟩

end Neo3App
