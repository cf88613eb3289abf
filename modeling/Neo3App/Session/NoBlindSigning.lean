import Neo3App.Session.Received
import Neo3App.Session.Signing

/-!
# No blind signing

The hash that is signed was written for bytes that the parser accepts as a
transfer, or it was wiped.
-/

namespace Neo3App

open Neo3App.Lib

variable {sdk : Sdk} {turn : DeviceTurn}

/-- The last chunk hands `bytes` to the parser, which accepts them as `tx`;
their hash is written to the context. -/
structure Lib.Turn.Hashes (sdk : Sdk) (turn : DeviceTurn)
    (bytes : List UInt8) (tx : Transaction) : Prop where
  accepted : ∃ context, turn.Deserializes context ∧
    context.rawTx.take context.rawTxLen = bytes ∧
      transactionDeserialize sdk context.rawBuffer context.transaction =
        (.parsingOk, tx)

/-- `handler_sign_tx` writes the hash at this turn. -/
def Lib.Turn.WritesHash (sdk : Sdk) (turn : DeviceTurn) : Prop :=
  ∃ bytes tx, turn.Hashes sdk bytes tx

/-- Whatever is signed while a hash stands in the context is the hash of an
accepted transfer: of the bytes accepted when it was written.  Otherwise the
wiped hash is signed. -/
def NoBlindSigning (sdk : Sdk) (history : List DeviceTurn)
    (turn : DeviceTurn) : Prop :=
  turn.Signs sdk →
    (∀ earlier hashing later,
      LastTurn (Turn.WritesHash sdk) earlier hashing later history →
        (∀ next ∈ later, ¬ next.CarriesPath) →
          ∃ bytes tx, hashing.Hashes sdk bytes tx ∧
            turn.state.context.hash = sdk.sha256 bytes ∧
              (hashing.result sdk).1.context.transaction = tx ∧
                transactionDeserialize sdk ⟨bytes, bytes.length, 0⟩
                    Transaction.zero = (.parsingOk, tx) ∧
                  tx.isSystemAssetTransfer = true) ∧
      ((¬ ∃ earlier hashing later,
        LastTurn (Turn.WritesHash sdk) earlier hashing later history ∧
          ∀ next ∈ later, ¬ next.CarriesPath) →
        turn.state.context.hash = GlobalCtx.zero.hash)

theorem ReviewStart.hashes
    {data : List UInt8} {tx : Transaction} (wf : turn.state.context.Wf)
    (start : ReviewStart sdk turn data tx) :
    turn.Hashes sdk (turn.state.context.received ++ data) tx := by
  have passes : turn.state.context.refusesIn .magicOk = false := by
    rw [← Bool.not_eq_true, wf.refusesIn_iff (.inr rfl)]
    intro isAddress
    cases isAddress.symm.trans start.passes
  refine
    ⟨turn.state.context.append data, ⟨data, start.request, passes, ?_⟩,
      GlobalCtx.received_append wf data, start.parsed⟩
  rw [appendRawTx_eq wf (length_chunk_le start.request),
    if_neg (Nat.not_lt.mpr start.fits)]

theorem Lib.Turn.Hashes.start
    {bytes : List UInt8} {tx : Transaction} (wf : turn.state.context.Wf)
    (hashes : turn.Hashes sdk bytes tx) :
    ∃ data, ReviewStart sdk turn data tx ∧
      bytes = turn.state.context.received ++ data := by
  obtain ⟨context, ⟨data, request, passes, appended⟩, rfl, parsed⟩ :=
    hashes.accepted
  rw [appendRawTx_eq wf (length_chunk_le request)] at appended
  split at appended
  · cases appended
  next fits =>
    cases appended
    have outcome := deviceStep_outcome sdk wf turn.input
    rcases turn with ⟨app, event⟩
    change event.request = some (.chunk false data) at request
    rcases result : deviceStep sdk app event with ⟨after, effects⟩
    simp only [result] at outcome
    cases outcome with
    | reviewStarted other isTransaction few accepted =>
        cases request.symm.trans other
        cases parsed.symm.trans accepted
        exact
          ⟨data, ⟨request, isTransaction, few, parsed, result⟩,
            GlobalCtx.received_append wf data⟩
    | chunkGuarded _ isAddress =>
        rw [(wf.refusesIn_iff (.inr rfl)).mpr isAddress] at passes
        cases passes
    | chunkTooLong other _ long =>
        cases request.symm.trans other
        exact absurd long fits
    | parseFailed other _ _ refused failed =>
        cases request.symm.trans other
        cases parsed.symm.trans refused
        exact absurd rfl failed
    | answered other | pathRefused other | pathAccepted other
    | keyRefused other | keySent other | keyShown other
    | magicGuarded other | magicMissing other | magicRead other
    | chunkTaken other =>
        cases request.symm.trans other
    | pressed | ignored | keyApproved | keyDenied | signed | signFailed
    | denied =>
        cases request

/-- The hash is written when a review starts. -/
theorem writesHash_iff (wf : turn.state.context.Wf) :
    turn.WritesHash sdk ↔ turn.StartsReview sdk := by
  constructor
  · rintro ⟨bytes, tx, hashes⟩
    obtain ⟨data, start, _⟩ := hashes.start wf
    exact start.startsReview
  · intro starts
    obtain ⟨data, tx, start⟩ := starts.start wf
    exact ⟨_, tx, start.hashes wf⟩

/-- The hash was written by a turn after the last wipe, or is wiped. -/
def HashOrigin (sdk : Sdk) (history : List DeviceTurn)
    (context : GlobalCtx) : Prop :=
  (∃ earlier review later,
    LastTurn (Turn.StartsReview sdk) earlier review later history ∧
      ∀ next ∈ later, ¬ next.CarriesPath) ∨
    context.hash = GlobalCtx.zero.hash

theorem hash_of_path
    (wf : turn.state.context.Wf) (carries : turn.CarriesPath) :
    (turn.result sdk).1.context.hash = GlobalCtx.zero.hash := by
  have outcome := deviceStep_outcome sdk wf turn.input
  rcases turn with ⟨app, event⟩
  have request : (∃ data, event.request = some (.path data)) ∨
      ∃ showOnScreen data,
        event.request = some (.publicKey showOnScreen data) := carries
  rcases result : deviceStep sdk app event with ⟨after, effects⟩
  simp only [result] at outcome
  rw [Turn.result, result]
  cases outcome with
  | pathRefused | pathAccepted | keyRefused | keySent | keyShown => rfl
  | answered other | magicGuarded other | magicMissing other
  | magicRead other | chunkGuarded other | chunkTooLong other
  | chunkTaken other | parseFailed other | reviewStarted other =>
      rw [other] at request
      rcases request with ⟨_, isPath⟩ | ⟨_, _, isKey⟩
      · cases isPath
      · cases isKey
  | pressed | ignored | keyApproved | keyDenied | signed | signFailed
  | denied =>
      rcases request with ⟨_, isPath⟩ | ⟨_, _, isKey⟩
      · cases isPath
      · cases isKey

theorem hashOrigin_invariant (sdk : Sdk) :
    (device sdk).Invariant (fun _ _ => True)
      fun history app => app.context.Wf ∧
        HashOrigin sdk history app.context := by
  apply device_invariant
  · exact .inr rfl
  intro history app after event effects wf before _ result _
  have isResult : Turn.result sdk ⟨app, event⟩ = (after, effects) := result
  by_cases carries : Turn.CarriesPath ⟨app, event⟩
  · have wiped : _ = GlobalCtx.zero.hash := @hash_of_path sdk _ wf carries
    rw [isResult] at wiped
    exact .inr wiped
  by_cases starts : Turn.StartsReview sdk ⟨app, event⟩
  · exact
      .inl ⟨history, _, [], .new history starts,
        fun _ member => (by cases member)⟩
  have kept := hash_of_no_start wf carries starts
  rw [isResult] at kept
  rcases before with ⟨earlier, review, later, last, noPath⟩ | wiped
  · refine
      .inl ⟨earlier, review, later ++ [⟨app, event⟩], last.append starts,
        fun next member => ?_⟩
    rcases List.mem_append.mp member with old | new
    · exact noPath next old
    · rw [List.mem_singleton.mp new]
      exact carries
  · exact .inr (kept.trans wiped)

/-- What is known of the state and of the history in every run. -/
theorem blindSigning_invariant (sdk : Sdk) :
    (device sdk).Invariant (fun _ _ => True)
      fun history app =>
        ((app.context.Wf ∧ app.context.Resumable) ∧
          ∀ turn ∈ history,
            turn.state.context.Wf ∧ turn.state.context.Resumable) ∧
          (app.context.Wf ∧ HashOrigin sdk history app.context) ∧
            ((app.context.Wf ∧ OnScreen sdk history app.ui) ∧
              app.context.Wf ∧ PathOrigin sdk history app) ∧
                app.context.Wf ∧ SinceReview sdk history app.context :=
  (resumable_invariant sdk).recorded.and
    ((hashOrigin_invariant sdk).and (signing_invariant sdk))

/-- An accepted attempt is one that a cleared record would accept. -/
theorem ReviewStart.accepted
    {data : List UInt8} {tx : Transaction} (wf : turn.state.context.Wf)
    (resumable : turn.state.context.Resumable)
    (start : ReviewStart sdk turn data tx) :
    transactionDeserialize sdk
        ⟨turn.state.context.received ++ data,
          (turn.state.context.received ++ data).length, 0⟩
        Transaction.zero = (.parsingOk, tx) := by
  have appended := wf.append start.fits
  have parsed :=
    @Resumable.transactionDeserialize_ok sdk _ appended.rawBuffer _ _ _ _
      @resumable.resumes (chunk_ne_nil start.request)
      ((GlobalCtx.rest_rawBuffer _).trans
        (GlobalCtx.received_append wf data)) start.parsed
  rwa [appended.parse_eq, GlobalCtx.received_append wf] at parsed

/-- The review with an Approve step is that of a transfer. -/
theorem ReviewStart.isTransfer
    {data : List UInt8} {tx : Transaction} {ui : Ui}
    (start : ReviewStart sdk turn data tx)
    (display : ui.review = (turn.result sdk).1.ui.review)
    (flow : ui.flow = .transaction) (step : ui.step = some .approve) :
    tx.isSystemAssetTransfer = true := by
  have steps : ui.transactionFlow = createTransactionFlow tx := by
    rw [Ui.transactionFlow_of_review display, start.result]
    rfl
  by_contra other
  rw [Ui.step, Ui.steps, flow] at step
  have member := List.mem_of_getElem? step
  rw [steps, createTransactionFlow, if_pos other] at member
  simp at member

/-- Every run signs only hashes of accepted transfers, or a wiped hash. -/
theorem noBlindSigning (sdk : Sdk) (inputs : List Event) :
    (device sdk).Throughout (NoBlindSigning sdk) inputs := by
  refine
    (blindSigning_invariant sdk).throughout ?_ (fun _ _ _ _ => trivial)
  rintro history turn
    ⟨⟨_, recorded⟩, ⟨wf, origin⟩, ⟨⟨_, shown⟩, _⟩, _, since⟩ _ signs
  have sameKind : ∀ next ∈ history,
      next.WritesHash sdk ↔ next.StartsReview sdk :=
    fun next member => writesHash_iff (recorded next member).1
  constructor
  · intro earlier hashing later last noPath
    have isReview := last.congr sameKind
    obtain ⟨_, step, callback, _⟩ := signs.approves wf
    have flow := shown.flow_of_approve step callback
    obtain ⟨_, review, _, data, tx, lastReview, reviewWf, start, display⟩ :=
      shown.transaction flow
    obtain ⟨rfl, rfl, rfl⟩ := lastReview.unique isReview
    have resumable := (recorded hashing isReview.mem).2
    obtain ⟨_, hash, _⟩ := since.keeps isReview noPath
    refine
      ⟨hashing.state.context.received ++ data, tx, start.hashes reviewWf,
        ?_, ?_, start.accepted reviewWf resumable,
        start.isTransfer display flow step⟩
    · rw [hash, start.result]
      exact congrArg sdk.sha256 (GlobalCtx.received_append reviewWf data)
    · rw [start.result]
      rfl
  · intro unwritten
    rcases origin with ⟨earlier, review, later, last, noPath⟩ | wiped
    · refine absurd ⟨earlier, review, later, ?_, noPath⟩ unwritten
      exact last.congr fun next member => (sameKind next member).symm
    · exact wiped

end Neo3App
