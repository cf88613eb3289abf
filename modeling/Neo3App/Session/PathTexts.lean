import Neo3App.Host.PathText
import Neo3App.Session.AddressReview

/-!
# Keys asked for by text

The text of a key path on the way from the user of the client to the device:
the builder refuses it, or the device derives the key of the first five
numbers that it spells.
-/

namespace Neo3App

open Neo3App.Lib
open Neo3App.Host

variable {sdk : Sdk} {int : PythonInt}

def bigEndian (level : UInt32) : List UInt8 :=
  (leBytes 4 level.toNat).reverse

theorem exists_level_of_toBytesBig
    {value : Int} {bytes : List UInt8} (made : toBytesBig value = .ok bytes) :
    ∃ level : UInt32, bytes = bigEndian level := by
  rw [toBytesBig] at made
  split at made
  · rename_i fits
    refine ⟨UInt32.ofNat value.toNat, ?_⟩
    have small : value.toNat < 2 ^ 32 := by omega
    rw [bigEndian, UInt32.toNat_ofNat_of_lt' small]
    exact (Except.ok.inj made).symm
  · cases made

theorem exists_level_of_levelBytes
    {text : List Char} {bytes : List UInt8}
    (made : levelBytes int text = .ok bytes) :
    ∃ level : UInt32, bytes = bigEndian level := by
  rw [levelBytes] at made
  split at made
  · cases parsed : int.parse text with
    | error error =>
        rw [parsed] at made
        cases made
    | ok value =>
        rw [parsed] at made
        exact exists_level_of_toBytesBig made
  · cases parsed : int.parse text.dropLast with
    | error error =>
        rw [parsed] at made
        cases made
    | ok value =>
        rw [parsed] at made
        exact exists_level_of_toBytesBig made

theorem exists_levels_of_mapM
    {texts : List (List Char)} {chunks : List (List UInt8)}
    (made : texts.mapM (levelBytes int) = .ok chunks) :
    ∃ levels : List UInt32,
      levels.length = texts.length ∧ chunks = levels.map bigEndian := by
  induction texts generalizing chunks with
  | nil =>
      cases made
      exact ⟨[], rfl, rfl⟩
  | cons text texts ih =>
      rw [List.mapM_cons] at made
      cases first : levelBytes int text with
      | error error =>
          rw [first] at made
          cases made
      | ok bytes =>
          cases rest : texts.mapM (levelBytes int) with
          | error error =>
              rw [first, rest] at made
              cases made
          | ok others =>
              rw [first, rest] at made
              obtain ⟨level, rfl⟩ := exists_level_of_levelBytes first
              obtain ⟨levels, count, rfl⟩ := ih rest
              refine ⟨level :: levels, ?_, ?_⟩
              · rw [List.length_cons, List.length_cons, count]
              · exact (Except.ok.inj made).symm

/-- The builder makes five levels of a text that starts with `m/`, and six of
any other that it accepts. -/
theorem exists_levels
    {text : List Char} {chunks : List (List UInt8)}
    (made : bip44PathFromString int text = .ok chunks) :
    ∃ levels : List UInt32, chunks = levels.map bigEndian ∧
      levels.length =
        if (text.splitOn '/').head? = some ['m'] then 5 else 6 := by
  rw [bip44PathFromString] at made
  split at made
  · cases made
  · rename_i six
    rw [not_ne_iff] at six
    by_cases marked : (text.splitOn '/').head? = some ['m']
    · rw [if_pos marked] at made ⊢
      obtain ⟨levels, count, same⟩ := exists_levels_of_mapM made
      rw [List.length_tail, six] at count
      exact ⟨levels, same, count⟩
    · rw [if_neg marked] at made ⊢
      obtain ⟨levels, count, same⟩ := exists_levels_of_mapM made
      rw [six] at count
      exact ⟨levels, same, count⟩

/-- The device takes the first five levels. -/
theorem pathWords_levels
    {levels : List UInt32} (enough : 5 ≤ levels.length) :
    (pathWords (levels.flatMap bigEndian)).toList = levels.take 5 := by
  have read {i : Nat} (inside : i < levels.length) :
      readU32Be (levels.flatMap bigEndian) (4 * i) = levels[i] :=
    readU32Be_levels inside
  apply List.ext_getElem
  · rw [Vector.length_toList, List.length_take, Nat.min_eq_left enough]
    rfl
  · intro i small _
    rw [Vector.length_toList] at small
    unfold bip44PathLen at small
    rw [List.getElem_take, Vector.getElem_toList, ← read (by omega)]
    interval_cases i <;> rfl

/-- Two attending devices whose applications agree. -/
structure AttendAlike (io other : IoApp) : Prop where
  first : Attending io
  second : Attending other
  app : io.app = other.app

/-- The reply to a command is a function of the application. -/
theorem AttendAlike.command
    {io other : IoApp} (alike : AttendAlike io other) (bytes : List UInt8) :
    AttendAlike (ioRun sdk io [.apdu bytes]) (ioRun sdk other [.apdu bytes]) ∧
      recv io.transmitted.length (ioRun sdk io [.apdu bytes]) =
        replyTo (deviceStep sdk io.app (.apdu bytes)).2 ∧
      recv other.transmitted.length (ioRun sdk other [.apdu bytes]) =
        replyTo (deviceStep sdk io.app (.apdu bytes)).2 := by
  have served := @Attending.command sdk io alike.first bytes
  have others := @Attending.command sdk other alike.second bytes
  refine ⟨⟨served.attending, others.attending, ?_⟩, served.recv, ?_⟩
  · rw [served.app, others.app, alike.app]
  · rw [others.recv, alike.app]

/-- Also when the user presses the buttons before it is read. -/
theorem AttendAlike.recv_eq
    {io other : IoApp} (alike : AttendAlike io other) (bytes : List UInt8)
    (presses : List Press) :
    recv io.transmitted.length
        (ioRun sdk io (.apdu bytes :: (presses.map Event.press ++
          [.confirm]))) =
      recv other.transmitted.length
        (ioRun sdk other (.apdu bytes :: (presses.map Event.press ++
          [.confirm]))) := by
  obtain ⟨_, received, others⟩ := @AttendAlike.command sdk _ _ alike bytes
  rcases step : deviceStep sdk io.app (.apdu bytes) with ⟨after, effects⟩
  rcases deviceStep_command alike.first.wf step with
    ⟨_, silent, _⟩ | ⟨_, ⟨data, sw, responses⟩, _⟩
  · rw [alike.first.recv_reviewed step silent,
      alike.second.recv_reviewed (alike.app ▸ step) silent]
  · have answered : replyTo effects =
        some (checkSw (splitResponse (responseBytes data sw))) := by
      rw [replyTo, sentBytes, responses]
      rfl
    rw [step, answered] at received others
    exact (recv_append received _).trans (recv_append others _).symm

inductive LastFlagged : List (Bool × List UInt8) → Prop where
  | nil : LastFlagged []
  | last (chunk : List UInt8) : LastFlagged [(true, chunk)]
  | more (chunk : List UInt8) {rest : List (Bool × List UInt8)}
      (flagged : LastFlagged rest) : LastFlagged ((false, chunk) :: rest)

theorem lastFlagged_signTxChunks
    (i : Nat) (chunks : List (Bool × List UInt8)) :
    LastFlagged (signTxChunks i chunks) := by
  induction chunks generalizing i with
  | nil => exact .nil
  | cons chunk chunks ih =>
      obtain ⟨isLast, data⟩ := chunk
      cases isLast with
      | true => exact .last _
      | false => exact .more _ (ih _)

theorem transmitted_of_recv
    {io : IoApp} (attending : Attending io) {bytes : List UInt8}
    {reply : Except ClientError (List UInt8)}
    (received : replyTo (deviceStep sdk io.app (.apdu bytes)).2 =
      some reply) :
    (ioRun sdk io [.apdu bytes]).transmitted.length =
      io.transmitted.length + 1 := by
  have served := @Attending.command sdk io attending bytes
  rcases step : deviceStep sdk io.app (.apdu bytes) with ⟨after, effects⟩
  rw [step] at received
  rcases deviceStep_command attending.wf step with
    ⟨_, silent, _⟩ | ⟨_, ⟨data, sw, responses⟩, _⟩
  · rw [replyTo, sentBytes, silent] at received
    cases received
  · rw [served.transmitted, step, sentBytes, responses, List.length_append]
    rfl

/-- The reply to all commands is a function of the application. -/
theorem AttendAlike.signTxLoop_eq
    {io other : IoApp} (alike : AttendAlike io other)
    {commands : List (Bool × List UInt8)} (flagged : LastFlagged commands)
    (presses : List Press) (response : List UInt8) :
    (signTxLoop sdk (presses.map Event.press ++ [.confirm])
        io.transmitted.length io response commands).2 =
      (signTxLoop sdk (presses.map Event.press ++ [.confirm])
        other.transmitted.length other response commands).2 := by
  induction flagged generalizing io other response with
  | nil => rfl
  | last chunk =>
      have same := @AttendAlike.recv_eq sdk _ _ alike chunk presses
      rw [signTxLoop, signTxLoop]
      simp only [if_true, same]
      rcases recv other.transmitted.length (ioRun sdk other _) with
        _ | error | value
      · rfl
      · rfl
      · rfl
  | more chunk _ ih =>
      obtain ⟨next, received, others⟩ :=
        @AttendAlike.command sdk _ _ alike chunk
      rw [signTxLoop, signTxLoop]
      simp only [Bool.false_eq_true, if_false, received, others]
      rcases isReply : replyTo (deviceStep sdk io.app (.apdu chunk)).2 with
        _ | error | value
      · rfl
      · rfl
      · rw [← transmitted_of_recv alike.first isReply,
          ← transmitted_of_recv alike.second (alike.app ▸ isReply)]
        exact ih next value

/-- The device does not tell two first chunks with one path apart. -/
theorem signTxLoop_path
    {io : IoApp} (waits : Attending io ∨ Stuck io) {data : List UInt8}
    {path : Bip44Path} (spelled : pathWords data = path)
    (long : 20 ≤ data.length) (short : data.length ≤ 255)
    {rest : List (Bool × List UInt8)} (flagged : LastFlagged rest)
    (presses : List Press) :
    (signTxLoop sdk (presses.map Event.press ++ [.confirm])
        io.transmitted.length io []
        ((false, serialize 0x80 0x02 0x00 0x80 data) :: rest)).2 =
      (signTxLoop sdk (presses.map Event.press ++ [.confirm])
        io.transmitted.length io []
        ((false, serialize 0x80 0x02 0x00 0x80 (pathBytes path)) ::
          rest)).2 := by
  have length := length_pathBytes path
  rcases waits with attending | stuck
  swap
  · rw [signTxLoop_of_stuck stuck long short,
      signTxLoop_of_stuck stuck (by omega) (by omega)]
  have wf := attending.wf
  have isPath : (signTxEvent 0 p2More data).request = some (.path data) :=
    request_signTxEvent (List.length_pos_iff.mp (by omega)) short (by decide)
      (.inl rfl)
  have isOther := request_pathBytes path
  cases offends : pathOffence 0x80000010 4999 path with
  | some status =>
      obtain ⟨next, refused⟩ :=
        @deviceStep_offence sdk _ wf _ _ isPath long short status
          (by rwa [spelled])
      obtain ⟨other, otherRefused⟩ :=
        @deviceStep_offence sdk _ wf _ _ isOther (by omega) (by omega)
          status (by rwa [pathWords_pathBytes])
      have failed := pathOffence_ne_swOk offends
      exact
        (signTxLoop_refused attending refused (Nat.zero_le _) failed false
          rest).trans
          (signTxLoop_refused attending otherRefused (Nat.zero_le _) failed
            false rest).symm
  | none =>
      have valid := validPath_of_offence offends
      have step : (device sdk).step io.app (signTxEvent 0 p2More data) = _ :=
        deviceStep_path wf isPath long short (by rwa [spelled])
      have other : (device sdk).step io.app
          (signTxEvent 0 p2More (pathBytes path)) = _ :=
        deviceStep_path wf isOther (by omega) (by omega)
          (by rwa [pathWords_pathBytes])
      rw [spelled] at step
      rw [pathWords_pathBytes] at other
      generalize pathContext path .bip44Ok = context at step other
      have unflagged (chunk : List UInt8) :
          ∀ command ∈ [(false, chunk)], command.1 = false := by
        intro command member
        rw [List.mem_singleton.mp member]
      obtain ⟨first, firstWaits, firstApp, firstLoop⟩ :=
        signTxLoop_ok attending (unflagged _)
          ((device sdk).runFrom_cons step []) rest
      obtain ⟨second, secondWaits, secondApp, secondLoop⟩ :=
        signTxLoop_ok attending (unflagged _)
          ((device sdk).runFrom_cons other []) rest
      have alike : AttendAlike first second :=
        ⟨firstWaits, secondWaits, firstApp.trans secondApp.symm⟩
      exact
        (congrArg Prod.snd firstLoop).trans
          ((alike.signTxLoop_eq flagged presses []).trans
            (congrArg Prod.snd secondLoop).symm)

/-- What is expected of the texts of paths: a path is asked for as it is
written, and a text that the builder accepts stands for the path of the first
five numbers that it spells, for a key and for a signature, in every state
that `main` reaches. -/
structure PathTexts (int : PythonInt) (sdk : Sdk) : Prop where
  keyWritten : ∀ (path : Bip44Path) (io : IoApp),
    getPublicKeyAt int sdk (pathText path) io =
      .ok (getPublicKey sdk path io)
  signatureWritten : ∀ (path : Bip44Path) (presses : List Press)
    (tx : List UInt8) (magic : UInt32) (io : IoApp),
    clientSignTxAt int sdk presses (pathText path) tx magic io =
      .ok (clientSignTx sdk presses path tx magic io)
  accepted : ∀ (text : List Char) (chunks : List (List UInt8)),
    bip44PathFromString int text = .ok chunks →
      ∃ (levels : List UInt32) (path : Bip44Path),
        chunks = levels.map bigEndian ∧
        levels.length =
          (if (text.splitOn '/').head? = some ['m'] then 5 else 6) ∧
        path.toList = levels.take 5 ∧
        ∀ before : List (Option Event),
          (getPublicKeyAt int sdk text ((ioMain sdk).after before)).map
              Prod.snd =
            .ok (getPublicKey sdk path ((ioMain sdk).after before)).2 ∧
          ∀ (presses : List Press) (tx : List UInt8) (magic : UInt32),
            (clientSignTxAt int sdk presses text tx magic
                ((ioMain sdk).after before)).map Prod.snd =
              .ok (clientSignTx sdk presses path tx magic
                ((ioMain sdk).after before)).2

/-- **A path asked for by text** is derived as it is written. -/
theorem pathTexts (int : PythonInt) (sdk : Sdk) : PathTexts int sdk := by
  constructor
  · intro path io
    rw [getPublicKeyAt, bip44PathFromString_pathText]
    rfl
  · intro path presses tx magic io
    rw [clientSignTxAt, signTxAt, bip44PathFromString_pathText]
    rfl
  · intro text chunks made
    obtain ⟨levels, rfl, count⟩ := exists_levels made
    have five : 5 ≤ levels.length := by
      rw [count]
      split <;> omega
    have six : levels.length ≤ 6 := by
      rw [count]
      split <;> omega
    have size : (levels.flatMap bigEndian).length = 4 * levels.length :=
      length_levels levels
    refine ⟨levels, pathWords (levels.flatMap bigEndian), rfl, count,
      pathWords_levels five, ?_⟩
    intro before
    have waits := waits_after sdk before
    generalize (ioMain sdk).after before = io at waits
    have spelled :=
      @exchangeRaw_keyData sdk io waits (levels.flatMap bigEndian)
        (by omega) (by omega)
    have written :=
      @exchangeRaw_keyData sdk io waits
        (pathBytes (pathWords (levels.flatMap bigEndian)))
        (length_pathBytes _).ge ((length_pathBytes _).trans_le (by decide))
    rw [pathWords_pathBytes] at written
    constructor
    · rw [getPublicKeyAt, made]
      exact congrArg Except.ok (spelled.trans written.symm)
    · intro presses tx magic
      rw [clientSignTxAt, signTxAt, made]
      exact congrArg Except.ok
        (@signTxLoop_path sdk io waits (levels.flatMap bigEndian) _ rfl
          (by omega) (by omega) _ (.more _ (lastFlagged_signTxChunks _ _))
          presses)

end Neo3App
