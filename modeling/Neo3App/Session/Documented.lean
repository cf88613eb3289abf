import Neo3App.Session.ClientSigning

/-!
# The responses

Every response of every run is one of the documented ones: it fits into the
buffer, a command that is refused is answered with a status word alone, and
the client knows an exception for each of them.
-/

namespace Neo3App

open Neo3App.Lib
open Neo3App.Host

/-- The status words with which the application refuses a command.  The words
for a wrong length of the response, for the failures of the display and for a
refused confirmation are not among them. -/
def refusals : List UInt16 :=
  [swDeny, swWrongP1P2, swWrongDataLength, swInsNotSupported,
    swClaNotSupported, swWrongTxLength, swBadState, swSignFail,
    swBip44BadPurpose, swBip44BadCoinType, swBip44AccountNotHardened,
    swBip44BadAccount, swBip44BadChange, swBip44BadAddress,
    swMagicParsingFail]

inductive DocumentedResponse : List UInt8 × UInt16 → Prop where
  | version : DocumentedResponse (appVersion, swOk)
  | name : DocumentedResponse (appName, swOk)
  /-- An uncompressed public key. -/
  | publicKey {key : List UInt8} (length : key.length = pubkeyLen) :
      DocumentedResponse (0x04 :: key, swOk)
  /-- A chunk that is not the last. -/
  | taken : DocumentedResponse ([], swOk)
  | signature {bytes : List UInt8} (short : bytes.length ≤ maxDerSigLen) :
      DocumentedResponse (bytes, swOk)
  /-- A refused transaction comes with the status of the parser. -/
  | parserStatus {status : ParserStatus} (failed : status ≠ .parsingOk) :
      DocumentedResponse ([UInt8.ofInt status.code], swTxParsingFail)
  | refused {sw : UInt16} (refuses : sw ∈ refusals) :
      DocumentedResponse ([], sw)

structure WellAnswered (responses : List (List UInt8 × UInt16)) : Prop where
  single : responses.length ≤ 1
  documented : ∀ response ∈ responses, DocumentedResponse response
  /-- The bytes that are transmitted: the data, then the status word. -/
  transmitted : ∀ response ∈ responses,
    responseBytes response.1 response.2 =
      response.1 ++ [(response.2 >>> 8).toUInt8, response.2.toUInt8]
  /-- The client knows an exception for every refusal. -/
  known : ∀ response ∈ responses,
    response.2 = swOk ∨ (exc.lookup response.2).isSome

variable {sdk : Sdk}

theorem DocumentedResponse.length_le
    {response : List UInt8 × UInt16}
    (documented : DocumentedResponse response) :
    response.1.length ≤ 72 := by
  cases documented with
  | version | name | taken => decide
  | publicKey length =>
      change _ + 1 ≤ 72
      rw [length]
      decide
  | signature short => exact short
  | parserStatus failed => exact Nat.succ_le_succ (Nat.zero_le _)
  | refused refuses => exact Nat.zero_le _

theorem DocumentedResponse.bytes_eq
    {response : List UInt8 × UInt16}
    (documented : DocumentedResponse response) :
    responseBytes response.1 response.2 =
      response.1 ++
        [(response.2 >>> 8).toUInt8, response.2.toUInt8] := by
  have fits : response.1.length ≤ ioApduBufferSize - 2 :=
    documented.length_le.trans (by decide)
  simp only [responseBytes, fits, if_true]

theorem DocumentedResponse.known
    {response : List UInt8 × UInt16}
    (documented : DocumentedResponse response) :
    response.2 = swOk ∨ (exc.lookup response.2).isSome := by
  have table : refusals.all fun sw => (exc.lookup sw).isSome := by
    decide
  cases documented with
  | version | name | publicKey | taken | signature => exact .inl rfl
  | parserStatus failed => exact .inr rfl
  | refused refuses => exact .inr (List.all_eq_true.mp table _ refuses)

theorem answered_of_signTxRequest
    {chunk : UInt8} {more : Bool} {data response : List UInt8} {sw : UInt16}
    (answers : signTxRequest chunk more data = .answered response sw) :
    False := by
  unfold signTxRequest at answers
  split at answers
  · cases answers
  · split at answers <;> cases answers

theorem Command.documented_of_answered
    {cmd : Command} {data : List UInt8} {sw : UInt16}
    (answers : cmd.request = .answered data sw) :
    DocumentedResponse (data, sw) := by
  have refused {word : UInt16} (refuses : word ∈ refusals)
      (same : Request.answered [] word = .answered data sw) :
      DocumentedResponse (data, sw) := by
    cases same
    exact .refused refuses
  unfold Command.request at answers
  split at answers
  · exact refused (by decide) answers
  split at answers
  · split at answers
    · exact refused (by decide) answers
    · cases answers
      exact .version
  split at answers
  · split at answers
    · exact refused (by decide) answers
    · cases answers
      exact .name
  split at answers
  · split at answers
    · exact refused (by decide) answers
    split at answers
    · exact refused (by decide) answers
    · cases answers
  split at answers
  · split at answers
    · exact refused (by decide) answers
    split at answers
    · exact refused (by decide) answers
    · exact (answered_of_signTxRequest answers).elim
  · exact refused (by decide) answers

theorem documented_of_answered
    {event : Event} {data : List UInt8} {sw : UInt16}
    (answers : event.request = some (.answered data sw)) :
    DocumentedResponse (data, sw) := by
  cases event with
  | press button => cases answers
  | confirm => cases answers
  | apdu bytes =>
      have asks : apduRequest bytes = .answered data sw :=
        Option.some.inj answers
      unfold apduRequest at asks
      split at asks
      · cases asks
        exact .refused (by decide)
      · exact Command.documented_of_answered asks

/-- A path is refused for its length or for one of its components. -/
theorem mem_refusals_of_refused
    {data : List UInt8} (short : data.length ≤ 255) {status : UInt16}
    {before path : Bip44Path}
    (refused : validatePath data before = (.error status, path)) :
    status ∈ refusals := by
  have result :=
    @validatePath_fst data (lt_sizeModulus_of_short short) before
  rw [refused] at result
  split at result
  · cases result
    decide
  · unfold pathOffence at result
    split_ifs at result <;> cases result <;> decide

theorem length_data_le
    {event : Event} {request : Request}
    (asks : event.request = some request) : request.data.length ≤ 255 := by
  cases event with
  | press button => cases asks
  | confirm => cases asks
  | apdu bytes =>
      rw [← Option.some.inj asks]
      exact length_apduRequest_data_le bytes

theorem WellAnswered.silent : WellAnswered [] where
  single := Nat.zero_le _
  documented := fun _ member => absurd member List.not_mem_nil
  transmitted := fun _ member => absurd member List.not_mem_nil
  known := fun _ member => absurd member List.not_mem_nil

theorem DocumentedResponse.wellAnswered
    {response : List UInt8 × UInt16}
    (documented : DocumentedResponse response) :
    WellAnswered [response] := by
  have every : ∀ other ∈ [response], DocumentedResponse other := by
    intro other member
    rw [List.mem_singleton.mp member]
    exact documented
  exact
    ⟨Nat.le_refl _, every, fun other member => (every other member).bytes_eq,
      fun other member => (every other member).known⟩

theorem GlobalCtx.Wf.length_rawPublicKey
    {context : GlobalCtx} (wf : context.Wf) :
    context.rawPublicKey.length = pubkeyLen := by
  rw [rawPublicKey, List.length_take, wf.length_rawTx]
  decide

theorem length_sentSignature_le
    (fit : SignaturesFit sdk) {context : GlobalCtx}
    {privateKey digest signature : List UInt8}
    (signs : sdk.ecdsaSign privateKey digest = some signature) :
    ((context.sign signature).signature.take
      (context.sign signature).signatureLen.toNat).length ≤ maxDerSigLen := by
  rw [take_signature context (fit _ _ _ signs)]
  exact fit _ _ _ signs

theorem Outcome.wellAnswered
    (fit : SignaturesFit sdk) {app after : App} {event : Event}
    {effects : List Effect} (outcome : Outcome sdk app event after effects)
    (wf : app.context.Wf) : WellAnswered (responsesOf effects) := by
  have refusal {sw : UInt16} (refuses : sw ∈ refusals) :
      WellAnswered (responsesOf (ioSendSw sw)) :=
    (DocumentedResponse.refused refuses).wellAnswered
  have key {context : GlobalCtx} (keyWf : context.Wf) :
      DocumentedResponse (0x04 :: context.rawPublicKey, swOk) :=
    .publicKey keyWf.length_rawPublicKey
  cases outcome with
  | answered request =>
      exact (documented_of_answered request).wellAnswered
  | pathRefused request refused | keyRefused request refused =>
      exact refusal (mem_refusals_of_refused (length_data_le request) refused)
  | pathAccepted | magicRead | chunkTaken =>
      exact DocumentedResponse.taken.wellAnswered
  | keySent => exact (key (keyContext_wf sdk _)).wellAnswered
  | keyApproved => exact (key wf).wellAnswered
  | keyShown | reviewStarted | pressed | ignored => exact .silent
  | magicGuarded | magicMissing | chunkGuarded | chunkTooLong | keyDenied
  | denied =>
      exact refusal (by decide)
  | parseFailed _ _ _ _ failed =>
      exact (DocumentedResponse.parserStatus failed).wellAnswered
  | signed _ _ signs =>
      exact
        (DocumentedResponse.signature
          (length_sentSignature_le fit signs)).wellAnswered
  | signFailed => exact refusal (by decide)

/-- Every response of every run is documented. -/
theorem responses_documented
    (fit : SignaturesFit sdk) (events : List Event) :
    ∀ effects ∈ ((device sdk).runFrom App.initial events).2,
      WellAnswered (responsesOf effects) := by
  have throughout :
      (device sdk).Throughout
        (fun _ turn => WellAnswered (responsesOf (turn.result sdk).2))
        events :=
    (wf_invariant sdk).throughout
      (fun wf _ => (deviceStep_outcome sdk wf _).wellAnswered fit wf)
      fun _ _ _ _ => trivial
  intro effects member
  rw [(device sdk).runFrom_snd] at member
  obtain ⟨turn, inTrace, rfl⟩ := List.mem_map.mp member
  exact Transition.throughout_iff_trace.mp throughout turn inTrace

/-- The key that is sent when its address is approved. -/
theorem responses_documented_twoByteSigner :
    WellAnswered [(0x04 :: List.replicate 64 0, swOk)] :=
  responses_documented signaturesFit_twoByteSigner
    (getPublicKeyEvent 1 firstKeyPath ::
      [.press .right, .press .right, .confirm])
    [.response (0x04 :: List.replicate 64 0) swOk] (by decide +kernel)

end Neo3App
