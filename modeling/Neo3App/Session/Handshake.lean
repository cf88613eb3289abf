import Neo3App.Session.Step

/-!
# The order of the chunks

A transaction is sent as a key path, a network magic and data.  The guard of
`handler_sign_tx` admits a chunk when the request *or* the progress is right;
where the two agree at every chunk, the chunks are processed in order.
-/

namespace Neo3App

open Neo3App.Lib

/-- A session after which data are expected: an accepted chunk 0, an accepted
chunk 1 and data, and no other request or review. -/
structure Handshake (sdk : Sdk) (path : DeviceTurn)
    (middle : List DeviceTurn) (magic : DeviceTurn)
    (later : List DeviceTurn) : Prop where
  isPath : path.IsPath ∧ path.AnsweredOk sdk
  isMagic : magic.IsMagic ∧ magic.AnsweredOk sdk
  session : ∀ turn ∈ middle ++ magic :: later,
    ¬ turn.IsPath ∧ ¬ turn.IsKey ∧ ¬ turn.StartsReview sdk
  once : ∀ turn ∈ middle, ¬ (turn.IsMagic ∧ turn.AnsweredOk sdk)
  onlyData : ∀ turn ∈ later, turn.IsMagic → turn.Refused sdk

/-- Data may be processed after this history. -/
def DataAllowed (sdk : Sdk) (history : List DeviceTurn) : Prop :=
  ∃ earlier path middle magic later,
    history = earlier ++ path :: (middle ++ magic :: later) ∧
      Handshake sdk path middle magic later

/-- A magic may be processed after this history: the last chunk that was
answered `SW_OK` is a chunk 0. -/
def MagicAllowed (sdk : Sdk) (history : List DeviceTurn) : Prop :=
  ∃ earlier path later, history = earlier ++ path :: later ∧
    (path.IsPath ∧ path.AnsweredOk sdk) ∧
      ∀ turn ∈ later,
        turn.IsPath ∨ turn.IsMagic ∨ turn.IsChunk → ¬ turn.AnsweredOk sdk

/-- Data and magics are processed in their place, and refused elsewhere. -/
def HandshakeOrder (sdk : Sdk) (history : List DeviceTurn)
    (turn : DeviceTurn) : Prop :=
  (turn.IsChunk → DataAllowed sdk history ∨ turn.Refused sdk) ∧
    (turn.IsMagic → MagicAllowed sdk history ∨ turn.Refused sdk)

def Request.required : Request → Option State
  | .magic _ => some .bip44Ok
  | .chunk _ _ => some .magicOk
  | _ => none

/-- The two halves of the guard agree: in a request for a transaction the
chunk finds the progress that it needs. -/
def GuardAgrees (turn : DeviceTurn) : Prop :=
  ∀ required ∈ turn.request.bind Request.required,
    turn.state.context.reqType = .confirmTransaction →
      turn.state.context.state = required

instance (turn : DeviceTurn) : Decidable (GuardAgrees turn) :=
  inferInstanceAs (Decidable (∀ required ∈ _, _ → _))

/-- The last request is an accepted chunk 0, after which no chunk has been
answered `SW_OK`. -/
def PathReady (sdk : Sdk) (history : List DeviceTurn) : Prop :=
  ∃ earlier path later, history = earlier ++ path :: later ∧
    (path.IsPath ∧ path.AnsweredOk sdk) ∧
      (∀ turn ∈ later,
        ¬ turn.IsPath ∧ ¬ turn.IsKey ∧ ¬ turn.StartsReview sdk) ∧
      ∀ turn ∈ later, turn.IsMagic ∨ turn.IsChunk → ¬ turn.AnsweredOk sdk

/-- The progress of a request for a transaction tells its history. -/
structure Progress (sdk : Sdk) (history : List DeviceTurn)
    (context : GlobalCtx) : Prop where
  bip44Ok : context.reqType = .confirmTransaction →
    context.state = .bip44Ok → PathReady sdk history
  magicOk : context.reqType = .confirmTransaction →
    context.state = .magicOk → DataAllowed sdk history

theorem PathReady.magicAllowed
    {sdk : Sdk} {history : List DeviceTurn}
    (ready : PathReady sdk history) : MagicAllowed sdk history := by
  obtain ⟨earlier, path, later, split, isPath, session, silent⟩ := ready
  refine ⟨earlier, path, later, split, isPath, fun turn member kind => ?_⟩
  rcases kind with pathAgain | kind
  · exact absurd pathAgain (session turn member).1
  · exact silent turn member kind

/-- A turn that leaves a session where it is. -/
structure Quiet (sdk : Sdk) (turn : DeviceTurn) : Prop where
  session : ¬ turn.IsPath ∧ ¬ turn.IsKey ∧ ¬ turn.StartsReview sdk
  silent : turn.IsMagic ∨ turn.IsChunk → ¬ turn.AnsweredOk sdk

theorem PathReady.append
    {sdk : Sdk} {history : List DeviceTurn} {turn : DeviceTurn}
    (ready : PathReady sdk history) (quiet : Quiet sdk turn) :
    PathReady sdk (history ++ [turn]) := by
  obtain ⟨earlier, path, later, split, isPath, session, silent⟩ := ready
  refine
    ⟨earlier, path, later ++ [turn], by simp [split], isPath, ?_, ?_⟩
  · intro next member
    rcases List.mem_append.mp member with before | now
    · exact session next before
    · rw [List.mem_singleton.mp now]
      exact quiet.session
  · intro next member
    rcases List.mem_append.mp member with before | now
    · exact silent next before
    · rw [List.mem_singleton.mp now]
      exact quiet.silent

theorem DataAllowed.append
    {sdk : Sdk} {history : List DeviceTurn} {turn : DeviceTurn}
    (allowed : DataAllowed sdk history)
    (session : ¬ turn.IsPath ∧ ¬ turn.IsKey ∧ ¬ turn.StartsReview sdk)
    (onlyData : turn.IsMagic → turn.Refused sdk) :
    DataAllowed sdk (history ++ [turn]) := by
  obtain ⟨earlier, path, middle, magic, later, split, handshake⟩ := allowed
  refine
    ⟨earlier, path, middle, magic, later ++ [turn], by simp [split],
      handshake.isPath, handshake.isMagic, ?_, handshake.once, ?_⟩
  · intro next member
    rw [← List.cons_append, ← List.append_assoc] at member
    rcases List.mem_append.mp member with before | now
    · exact handshake.session next before
    · rw [List.mem_singleton.mp now]
      exact session
  · intro next member
    rcases List.mem_append.mp member with before | now
    · exact handshake.onlyData next before
    · rw [List.mem_singleton.mp now]
      exact onlyData

/-- An accepted magic completes the handshake. -/
theorem PathReady.complete
    {sdk : Sdk} {history : List DeviceTurn} {turn : DeviceTurn}
    (ready : PathReady sdk history)
    (isMagic : turn.IsMagic ∧ turn.AnsweredOk sdk) :
    DataAllowed sdk (history ++ [turn]) := by
  obtain ⟨earlier, path, later, split, isPath, session, silent⟩ := ready
  refine
    ⟨earlier, path, later, turn, [], by simp [split], isPath, isMagic, ?_,
      ?_, ?_⟩
  · intro next member
    rcases List.mem_append.mp member with before | now
    · exact session next before
    · rw [List.mem_singleton.mp now]
      obtain ⟨⟨data, request⟩, answered⟩ := isMagic
      refine ⟨?_, ?_, ?_⟩
      · rintro ⟨_, other⟩
        cases request.symm.trans other
      · rintro ⟨_, _, other⟩
        cases request.symm.trans other
      · rintro ⟨⟨_, other⟩, _⟩
        cases request.symm.trans other
  · intro next member both
    exact silent next member (.inl both.1) both.2
  · intro next member
    cases member

/-! ## The invariant -/

theorem Progress.of_other_state
    {sdk : Sdk} {history : List DeviceTurn} {context : GlobalCtx}
    (other : context.state ≠ .bip44Ok ∧ context.state ≠ .magicOk) :
    Progress sdk history context where
  bip44Ok := fun _ inState => absurd inState other.1
  magicOk := fun _ inState => absurd inState other.2

theorem Progress.of_address
    {sdk : Sdk} {history : List DeviceTurn} {context : GlobalCtx}
    (isAddress : context.reqType = .confirmAddress) :
    Progress sdk history context where
  bip44Ok := fun isTransaction => by cases isAddress.symm.trans isTransaction
  magicOk := fun isTransaction => by cases isAddress.symm.trans isTransaction

/-- A turn without a request for a handler changes no progress. -/
theorem Progress.keep
    {sdk : Sdk} {history : List DeviceTurn} {turn : DeviceTurn}
    {before after : GlobalCtx} (progress : Progress sdk history before)
    (same : after.reqType = before.reqType ∧ after.state = before.state)
    (noRequest : turn.request = none ∨
      ∃ data sw, turn.request = some (.answered data sw)) :
    Progress sdk (history ++ [turn]) after := by
  have noKind :
      ¬ turn.IsPath ∧ ¬ turn.IsKey ∧ ¬ turn.IsMagic ∧ ¬ turn.IsChunk := by
    rcases noRequest with none | ⟨data, sw, answered⟩
    · simp [Turn.IsPath, Turn.IsKey, Turn.IsMagic, Turn.IsChunk, none]
    · simp [Turn.IsPath, Turn.IsKey, Turn.IsMagic, Turn.IsChunk, answered]
  obtain ⟨noPath, noKey, noMagic, noChunk⟩ := noKind
  have noReview : ¬ turn.StartsReview sdk := by
    rintro ⟨⟨data, isChunk⟩, _⟩
    exact noChunk ⟨false, data, isChunk⟩
  constructor
  · intro isTransaction inState
    rw [same.1] at isTransaction
    rw [same.2] at inState
    apply (progress.bip44Ok isTransaction inState).append
    refine ⟨⟨noPath, noKey, noReview⟩, ?_⟩
    rintro (isMagic | isChunk)
    · exact absurd isMagic noMagic
    · exact absurd isChunk noChunk
  · intro isTransaction inState
    rw [same.1] at isTransaction
    rw [same.2] at inState
    exact
      (progress.magicOk isTransaction inState).append
        ⟨noPath, noKey, noReview⟩ fun isMagic => absurd isMagic noMagic

theorem GuardAgrees.bip44Ok
    {app : App} {event : Event} {data : List UInt8}
    (agrees : GuardAgrees ⟨app, event⟩)
    (request : event.request = some (.magic data))
    (passes : app.context.reqType = .confirmTransaction) :
    app.context.state = .bip44Ok := by
  apply agrees .bip44Ok _ passes
  rw [Turn.request, request]
  rfl

theorem GuardAgrees.magicOk
    {app : App} {event : Event} {more : Bool} {data : List UInt8}
    (agrees : GuardAgrees ⟨app, event⟩)
    (request : event.request = some (.chunk more data))
    (passes : app.context.reqType = .confirmTransaction) :
    app.context.state = .magicOk := by
  apply agrees .magicOk _ passes
  rw [Turn.request, request]
  rfl

/-- A data chunk that starts no review leaves the session open. -/
theorem Progress.chunk
    {sdk : Sdk} {history : List DeviceTurn} {app after : App}
    {event : Event} {effects : List Effect} {more : Bool}
    {data : List UInt8} (progress : Progress sdk history app.context)
    (request : event.request = some (.chunk more data))
    (passes : app.context.reqType = .confirmTransaction)
    (inState : app.context.state = .magicOk)
    (result : deviceStep sdk app event = (after, effects))
    (answered : effects ≠ [])
    (same : after.context.state = app.context.state) :
    Progress sdk (history ++ [⟨app, event⟩]) after.context where
  bip44Ok := by
    intro _ other
    rw [same, inState] at other
    cases other
  magicOk := by
    intro _ _
    apply (progress.magicOk passes inState).append
    · simp only [Turn.IsPath, Turn.IsKey, Turn.StartsReview, Turn.request,
        Turn.result, request, result]
      simp [answered]
    · rintro ⟨_, isMagic⟩
      cases request.symm.trans isMagic

/-- Where the guard agrees, the progress tells the history. -/
theorem progress_invariant (sdk : Sdk) :
    (device sdk).Invariant (fun _ turn => GuardAgrees turn)
      fun history app =>
        app.context.Wf ∧ Progress sdk history app.context := by
  apply device_invariant
  · exact .of_address rfl
  intro history app after event effects _ progress agrees result outcome
  cases outcome with
  | answered request =>
      exact progress.keep ⟨rfl, rfl⟩ (.inr ⟨_, _, request⟩)
  | pathRefused | reviewStarted | signed | signFailed | denied =>
      exact .of_other_state ⟨by rintro ⟨⟩, by rintro ⟨⟩⟩
  | pathAccepted request =>
      refine ⟨fun _ _ => ?_, fun _ inState => (by cases inState)⟩
      refine
        ⟨history, _, [], rfl, ⟨⟨_, request⟩, congrArg Prod.snd result⟩,
          ?_, ?_⟩
      · intro _ member
        cases member
      · intro _ member
        cases member
  | keyRefused | keySent | keyShown =>
      exact .of_address rfl
  | magicGuarded _ guarded | chunkGuarded _ guarded =>
      exact .of_address guarded
  | magicMissing request passes =>
      have inState := agrees.bip44Ok request passes
      refine ⟨fun _ _ => ?_, fun _ other => ?_⟩
      · apply (progress.bip44Ok passes inState).append
        constructor
        · simp [Turn.IsPath, Turn.IsKey, Turn.StartsReview, Turn.request,
            request]
        · intro _ answered
          have wrong : ioSendSw swMagicParsingFail = ioSendSw swOk :=
            (congrArg Prod.snd result).symm.trans answered
          exact absurd wrong (by decide)
      · cases inState.symm.trans other
  | magicRead request passes =>
      refine ⟨fun _ inState => (by cases inState), fun _ _ => ?_⟩
      exact
        (progress.bip44Ok passes (agrees.bip44Ok request passes)).complete
          ⟨⟨_, request⟩, congrArg Prod.snd result⟩
  | chunkTooLong request passes =>
      exact
        progress.chunk request passes (agrees.magicOk request passes) result
          (by simp [ioSendSw]) rfl
  | chunkTaken request passes =>
      exact
        progress.chunk request passes (agrees.magicOk request passes) result
          (by simp [ioSendSw]) rfl
  | parseFailed request passes =>
      exact
        progress.chunk request passes (agrees.magicOk request passes) result
          (by simp) rfl
  | pressed | ignored | keyApproved | keyDenied =>
      exact progress.keep ⟨rfl, rfl⟩ (.inl rfl)

/-- In a request for an address every chunk after the first is refused. -/
theorem refused_of_confirmAddress
    (sdk : Sdk) {turn : DeviceTurn} (wf : turn.state.context.Wf)
    (isAddress : turn.state.context.reqType = .confirmAddress)
    (kind : turn.IsMagic ∨ turn.IsChunk) : turn.Refused sdk := by
  have outcome := deviceStep_outcome sdk wf turn.input
  rcases turn with ⟨app, event⟩
  rcases result : deviceStep sdk app event with ⟨after, effects⟩
  unfold Turn.Refused Turn.result
  rw [result] at outcome ⊢
  rcases kind with ⟨data, request⟩ | ⟨more, data, request⟩
  · cases outcome with
    | magicGuarded => rfl
    | magicMissing _ passes | magicRead _ passes =>
        cases isAddress.symm.trans passes
    | answered other | pathRefused other | pathAccepted other
    | keyRefused other | keySent other | keyShown other
    | chunkGuarded other | chunkTooLong other | chunkTaken other
    | parseFailed other | reviewStarted other =>
        cases request.symm.trans other
    | pressed | ignored | keyApproved | keyDenied | signed | signFailed
    | denied =>
        cases request
  · cases outcome with
    | chunkGuarded => rfl
    | chunkTooLong _ passes | chunkTaken _ passes | parseFailed _ passes
    | reviewStarted _ passes =>
        cases isAddress.symm.trans passes
    | answered other | pathRefused other | pathAccepted other
    | keyRefused other | keySent other | keyShown other
    | magicGuarded other | magicMissing other | magicRead other =>
        cases request.symm.trans other
    | pressed | ignored | keyApproved | keyDenied | signed | signFailed
    | denied =>
        cases request

/-- **Where the guard agrees, the chunks are processed in order.** In a run
whose chunks all find the progress they need, data and magics are processed
in their place and refused elsewhere. -/
theorem handshakeOrder_of_guardAgrees
    (sdk : Sdk) (events : List Event)
    (agrees :
      (device sdk).Throughout (fun _ turn => GuardAgrees turn) events) :
    (device sdk).Throughout (HandshakeOrder sdk) events := by
  refine (progress_invariant sdk).throughout ?_ agrees
  rintro history turn ⟨wf, progress⟩ agrees
  by_cases isAddress : turn.state.context.reqType = .confirmAddress
  · exact
      ⟨fun kind =>
          .inr (refused_of_confirmAddress sdk wf isAddress (.inr kind)),
        fun kind =>
          .inr (refused_of_confirmAddress sdk wf isAddress (.inl kind))⟩
  · have passes := confirmTransaction_of_ne isAddress
    constructor
    · rintro ⟨more, data, request⟩
      exact .inl (progress.magicOk passes (agrees.magicOk request passes))
    · rintro ⟨data, request⟩
      exact
        .inl
          (progress.bip44Ok passes
            (agrees.bip44Ok request passes)).magicAllowed

def signTxEvent (p1 p2 : UInt8) (data : List UInt8) : Event :=
  .apdu
    ([claNeo, insSignTx, p1, p2, UInt8.ofNat data.length] ++ data)

/-- GET_PUBLIC_KEY, with the address on the screen if `p2` is 1. -/
def getPublicKeyEvent (p2 : UInt8) (data : List UInt8) : Event :=
  .apdu ([claNeo, insGetPublicKey, 0, p2, UInt8.ofNat data.length] ++ data)

def firstKeyPath : List UInt8 :=
  [0x80, 0, 0, 0x2C, 0x80, 0, 0x03, 0x78, 0x80, 0, 0, 0,
    0, 0, 0, 0, 0, 0, 0, 0]

def orderlyRun : List Event :=
  [signTxEvent 0 p2More firstKeyPath, signTxEvent 1 p2More [1, 2, 3, 4],
    signTxEvent 2 p2More [0]]

theorem handshakeOrder_orderlyRun :
    (device Sdk.constant).Throughout (HandshakeOrder Sdk.constant)
      orderlyRun :=
  handshakeOrder_of_guardAgrees Sdk.constant orderlyRun
    (Transition.throughout_iff_trace.mpr (by decide +kernel))

theorem MagicAllowed.answered
    {sdk : Sdk} {history : List DeviceTurn}
    (allowed : MagicAllowed sdk history) :
    ∃ turn ∈ history, turn.AnsweredOk sdk := by
  obtain ⟨earlier, path, later, rfl, isPath, _⟩ := allowed
  exact
    ⟨path, List.mem_append_right _ (List.mem_cons_self ..), isPath.2⟩

/-- A magic after a path that was refused. -/
def halfSetRun : List Event :=
  [signTxEvent 0 p2More (List.replicate 20 0),
    signTxEvent 1 p2More [1, 2, 3, 4]]

/-- A magic is processed although the path was refused. -/
theorem not_handshakeOrder_halfSetRun :
    ¬ (device Sdk.constant).Throughout (HandshakeOrder Sdk.constant)
      halfSetRun := by
  intro ordered
  have turn :=
    ordered [signTxEvent 0 p2More (List.replicate 20 0)]
      (signTxEvent 1 p2More [1, 2, 3, 4]) [] rfl
  rcases turn.2 ⟨[1, 2, 3, 4], by decide +kernel⟩ with allowed | refused
  · obtain ⟨path, member, answered⟩ := allowed.answered
    have silent :
        ∀ turn ∈ (device Sdk.constant).trace
          [signTxEvent 0 p2More (List.replicate 20 0)],
          ¬ turn.AnsweredOk Sdk.constant := by
      decide +kernel
    exact silent path member answered
  · exact absurd refused (by decide +kernel)

end Neo3App
