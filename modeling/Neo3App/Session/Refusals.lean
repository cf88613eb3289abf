import Neo3App.Common.Bip44Limits
import Neo3App.Session.Handshake

/-!
# Refused commands

A refused command leaves the context as it was, except that a chunk 1 of less
than four bytes clears the network magic.
-/

namespace Neo3App

open Neo3App.Lib

def refusalWords : List UInt16 :=
  [swClaNotSupported, swInsNotSupported, swWrongP1P2, swBadState,
    swWrongTxLength, swMagicParsingFail]

/-- The turn refuses a command: with one of the words above, or because the
dispatcher finds no data. -/
def Lib.Turn.RefusesCommand (sdk : Sdk) (turn : DeviceTurn) : Prop :=
  ∃ data sw, .response data sw ∈ (turn.result sdk).2 ∧
    (sw ∈ refusalWords ∨
      sw = swWrongDataLength ∧
        turn.request = some (.answered data swWrongDataLength))

/-- A turn that refuses a command leaves the context unaltered. -/
def Lib.Turn.Unaltered (sdk : Sdk) (turn : DeviceTurn) : Prop :=
  turn.RefusesCommand sdk → (turn.result sdk).1.context = turn.state.context

/-- Chunk 1 passes its guard with less than four bytes, and a magic has been
received before. -/
def Lib.Turn.CutsMagic (turn : DeviceTurn) : Prop :=
  ∃ data, turn.request = some (.magic data) ∧ data.length < 4 ∧
    turn.state.context.refusesIn .bip44Ok = false ∧
      turn.state.context.networkMagic ≠ 0

theorem not_cutsMagic_of_request
    {turn : DeviceTurn} {request : Request}
    (asks : turn.request = some request)
    (other : ∀ data, request ≠ .magic data) :
    ¬ turn.CutsMagic := by
  rintro ⟨data, isMagic, _⟩
  rw [asks] at isMagic
  exact other data (Option.some.inj isMagic)

/-- The validator answers with none of these words. -/
theorem pathOffence_not_refusal
    {lastAccount lastAddress : UInt32} {path : Bip44Path} {code : UInt16}
    (offends : pathOffence lastAccount lastAddress path = some code) :
    code ∉ refusalWords := by
  unfold pathOffence at offends
  split at offends
  · cases offends
    decide
  split at offends
  · cases offends
    decide
  split at offends
  · cases offends
    decide
  split at offends
  · cases offends
    decide
  split at offends
  · cases offends
    decide
  split at offends
  · cases offends
    decide
  · cases offends

theorem validatePath_not_refusal
    {data : List UInt8} (short : data.length ≤ 255)
    {before path : Bip44Path} {status : UInt16}
    (refused : validatePath data before = (.error status, path)) :
    status ∉ refusalWords := by
  have result := validatePath_fst (lt_sizeModulus_of_short short) before
  rw [refused] at result
  split at result
  · cases result
    decide
  · cases offence : pathOffence 0x80000010 4999 (pathWords data) with
    | none =>
        rw [offence] at result
        cases result
    | some code =>
        rw [offence] at result
        cases result
        exact pathOffence_not_refusal offence

theorem length_request_data_le
    {event : Event} {request : Request}
    (asks : event.request = some request) : request.data.length ≤ 255 := by
  cases event with
  | apdu bytes =>
      cases asks
      exact length_apduRequest_data_le bytes
  | press button => cases asks
  | confirm => cases asks

/-- An answer with another word refuses nothing. -/
theorem not_refusesCommand
    {sdk : Sdk} {turn : DeviceTurn}
    (others : ∀ data sw, .response data sw ∈ (turn.result sdk).2 →
      sw ∉ refusalWords)
    (handled : ∀ data sw, turn.request ≠ some (.answered data sw)) :
    ¬ turn.RefusesCommand sdk := by
  rintro ⟨data, sw, answers, refuses | ⟨_, answered⟩⟩
  · exact others data sw answers refuses
  · exact handled data _ answered

/-- A command answered without a word of refusal leaves nothing to ask for. -/
theorem unaltered_iff_of_others
    {sdk : Sdk} {app : App} {event : Event}
    {result : App × List Effect}
    (stepped : deviceStep sdk app event = result)
    (others : ∀ data sw, .response data sw ∈ result.2 →
      sw ∉ refusalWords)
    (handled : ∀ data sw, event.request ≠ some (.answered data sw))
    (noMagic : ¬ Lib.Turn.CutsMagic ⟨app, event⟩) :
    Lib.Turn.Unaltered sdk ⟨app, event⟩ ↔
      ¬ Lib.Turn.CutsMagic ⟨app, event⟩ := by
  subst stepped
  exact iff_of_true
    (fun refuses => absurd refuses (not_refusesCommand others handled)) noMagic

theorem unaltered_iff_of_same
    {sdk : Sdk} {app after : App} {event : Event} {effects : List Effect}
    (stepped : deviceStep sdk app event = (after, effects))
    (same : after.context = app.context)
    (noMagic : ¬ Lib.Turn.CutsMagic ⟨app, event⟩) :
    Lib.Turn.Unaltered sdk ⟨app, event⟩ ↔
      ¬ Lib.Turn.CutsMagic ⟨app, event⟩ := by
  have kept : (deviceStep sdk app event).1.context = app.context := by
    rw [stepped]
    exact same
  exact iff_of_true (fun _ => kept) noMagic

theorem ioSendSw_others
    {word : UInt16} (other : word ∉ refusalWords) :
    ∀ data sw, .response data sw ∈ ioSendSw word → sw ∉ refusalWords := by
  intro data sw answers
  cases List.mem_singleton.mp answers
  exact other

/-- Chunk 1 without its four bytes. -/
theorem unaltered_iff_of_magicMissing
    {sdk : Sdk} {app : App} {event : Event} {data : List UInt8}
    (wf : app.context.Wf) (request : event.request = some (.magic data))
    (passes : app.context.reqType = .confirmTransaction)
    (short : data.length < 4)
    (stepped :
      deviceStep sdk app event =
        ({ app with context := { app.context with networkMagic := 0 } },
          ioSendSw swMagicParsingFail)) :
    Lib.Turn.Unaltered sdk ⟨app, event⟩ ↔
      ¬ Lib.Turn.CutsMagic ⟨app, event⟩ := by
  have passesGuard : app.context.refusesIn .bip44Ok = false := by
    rw [← Bool.not_eq_true, wf.refusesIn_iff (.inl rfl), passes]
    decide
  have refuses : Lib.Turn.RefusesCommand sdk ⟨app, event⟩ := by
    refine ⟨[], swMagicParsingFail, ?_, .inl (by decide)⟩
    rw [Lib.Turn.result, stepped]
    exact List.mem_singleton_self _
  have cuts : Lib.Turn.CutsMagic ⟨app, event⟩ ↔
      app.context.networkMagic ≠ 0 := by
    constructor
    · rintro ⟨_, _, _, _, received⟩
      exact received
    · intro received
      exact ⟨data, request, short, passesGuard, received⟩
  have cleared : (Lib.Turn.result sdk ⟨app, event⟩).1.context =
      { app.context with networkMagic := 0 } := by
    rw [Lib.Turn.result, stepped]
  rw [cuts, not_not]
  constructor
  · intro unaltered
    have same := cleared.symm.trans (unaltered refuses)
    exact (congrArg GlobalCtx.networkMagic same).symm
  · intro unset _
    rw [cleared, ← unset]

/-- **A turn leaves the context unaltered by a refusal exactly when it does
not cut a magic.** -/
theorem unaltered_iff
    (sdk : Sdk) {app : App} (wf : app.context.Wf) (event : Event) :
    Lib.Turn.Unaltered sdk ⟨app, event⟩ ↔
      ¬ Lib.Turn.CutsMagic ⟨app, event⟩ := by
  have noRequest (none : event.request = none) :
      ¬ Lib.Turn.CutsMagic ⟨app, event⟩ := by
    rintro ⟨_, request, _⟩
    cases none.symm.trans request
  have notMagic {request : Request} (asks : event.request = some request)
      (other : ∀ data, request ≠ .magic data) :
      ¬ Lib.Turn.CutsMagic ⟨app, event⟩ :=
    not_cutsMagic_of_request
      (show (⟨app, event⟩ : DeviceTurn).request = some request from asks)
      other
  have handled {request : Request} (asks : event.request = some request)
      (other : ∀ data sw, request ≠ .answered data sw) :
      ∀ data sw, event.request ≠ some (.answered data sw) := by
    intro data sw answered
    exact other data sw (Option.some.inj (asks.symm.trans answered))
  rcases stepped : deviceStep sdk app event with ⟨after, effects⟩
  have outcome := deviceStep_outcome sdk wf event
  rw [stepped] at outcome
  cases outcome with
  | answered request =>
      exact unaltered_iff_of_same stepped rfl (notMagic request (by simp))
  | magicGuarded request guarded =>
      refine unaltered_iff_of_same stepped rfl ?_
      rintro ⟨_, _, _, passes, _⟩
      exact absurd passes
        (by simp [(wf.refusesIn_iff (.inl rfl)).mpr guarded])
  | chunkGuarded request | chunkTooLong request =>
      exact unaltered_iff_of_same stepped rfl (notMagic request (by simp))
  | pressed | ignored | keyApproved | keyDenied =>
      exact unaltered_iff_of_same stepped rfl (noRequest rfl)
  | pathRefused request refused | keyRefused request refused =>
      refine unaltered_iff_of_others stepped (ioSendSw_others ?_)
        (handled request (by simp)) (notMagic request (by simp))
      exact
        validatePath_not_refusal (length_request_data_le request) refused
  | pathAccepted request | chunkTaken request =>
      exact
        unaltered_iff_of_others stepped (ioSendSw_others (by decide))
          (handled request (by simp)) (notMagic request (by simp))
  | magicRead request _ long =>
      refine
        unaltered_iff_of_others stepped (ioSendSw_others (by decide))
          (handled request (by simp)) ?_
      rintro ⟨data, same, short, _⟩
      cases request.symm.trans same
      exact absurd short (Nat.not_lt.mpr long)
  | magicMissing request passes short =>
      exact unaltered_iff_of_magicMissing wf request passes short stepped
  | keySent request | keyShown request | parseFailed request
  | reviewStarted request =>
      refine unaltered_iff_of_others stepped ?_ (handled request (by simp))
        (notMagic request (by simp))
      intro data sw answers
      simp [helperSendResponsePubkey] at answers <;>
        (rw [answers.2]; decide)
  | signed | signFailed =>
      refine unaltered_iff_of_others stepped ?_ (by simp [Event.request])
        (noRequest rfl)
      intro data sw answers
      simp [ioSendSw] at answers
      rw [answers.2]
      decide
  | denied =>
      exact
        unaltered_iff_of_others stepped (ioSendSw_others (by decide))
          (by simp [Event.request]) (noRequest rfl)

/-- **Only a cut magic is altered by a refusal.** In every run, a turn leaves
the context unaltered by a refusal exactly when it is not a chunk 1 of less
than four bytes that passes its guard with a magic received before. -/
theorem unaltered_throughout
    (sdk : Sdk) (events : List Event) :
    (device sdk).Throughout
      (fun _ turn => turn.Unaltered sdk ↔ ¬ turn.CutsMagic) events := by
  have wellFormed : (device sdk).Invariant (fun _ _ => True)
      fun _ app => app.context.Wf ∧ True :=
    device_invariant trivial fun _ _ _ _ _ => trivial
  refine wellFormed.throughout ?_ (fun _ _ _ _ => trivial)
  intro _ turn reached _
  exact unaltered_iff sdk reached.1 turn.input

/-- A magic, and then a chunk 1 of one byte. -/
def cutMagicRun : List Event :=
  [signTxEvent 0 p2More firstKeyPath, signTxEvent 1 p2More [1, 2, 3, 4],
    signTxEvent 1 p2More [1]]

/-- The refused chunk clears the magic that was received before it. -/
theorem not_unaltered_cutMagicRun :
    ¬ (device Sdk.constant).Throughout
      (fun _ turn => turn.Unaltered Sdk.constant) cutMagicRun := by
  intro unaltered
  have turn :=
    unaltered
      [signTxEvent 0 p2More firstKeyPath, signTxEvent 1 p2More [1, 2, 3, 4]]
      (signTxEvent 1 p2More [1]) [] rfl
  have kept :=
    turn ⟨[], swMagicParsingFail, by decide +kernel, .inl (by decide)⟩
  have magic := congrArg GlobalCtx.networkMagic kept
  revert magic
  decide +kernel

end Neo3App
