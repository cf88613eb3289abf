import Neo3App.Lib.Lockstep
import Neo3App.Session.AddressReview

/-!
# What depends on the seed

Two devices with different seeds cannot be told apart by what they send and
what they show, as long as they agree on the public keys that the host asked
for and on the signatures that the user approved.
-/

namespace Neo3App

open Neo3App.Lib

/-- The private key of each path, as a seed determines it. -/
abbrev Seed : Type :=
  Bip44Path → List UInt8

def Sdk.withSeed (sdk : Sdk) (seed : Seed) : Sdk :=
  { sdk with deriveNodeBip32 := seed }

/-- An effect as it is seen from outside: the private key of a signature
stays inside. -/
def Effect.observed : Effect → Effect
  | .ecdsaSign _ digest => .ecdsaSign [] digest
  | effect => effect

/-- Two seeds agree on what is disclosed at a turn: the public key of an
accepted GET_PUBLIC_KEY, and the signature of an approval. -/
structure AgreeAt (sdk : Sdk) (first second : Seed) (turn : DeviceTurn) :
    Prop where
  publicKey : ∀ (showOnScreen : Bool) (data : List UInt8),
    turn.request = some (.publicKey showOnScreen data) →
      20 ≤ data.length → ValidPath (pathWords data) →
        publicKeyOf (sdk.withSeed first) (pathWords data) =
          publicKeyOf (sdk.withSeed second) (pathWords data)
  signature :
    turn.Signs (sdk.withSeed first) →
      sdk.ecdsaSign (first turn.state.context.bip44Path)
          (sdk.sha256 (signedData turn.state.context)).toList =
        sdk.ecdsaSign (second turn.state.context.bip44Path)
          (sdk.sha256 (signedData turn.state.context)).toList

section Parser

variable (sdk : Sdk) (seed : Seed)

theorem duplicateAccount_withSeed (i : Nat) :
    duplicateAccount (sdk.withSeed seed) i = duplicateAccount sdk i :=
  rfl

theorem parseSignersFrom_withSeed (remaining i : Nat) :
    parseSignersFrom (sdk.withSeed seed) remaining i =
      parseSignersFrom sdk remaining i := by
  induction remaining generalizing i with
  | zero => rfl
  | succ remaining ih =>
      rw [parseSignersFrom, parseSignersFrom, ih, parseSigner, parseSigner,
        duplicateAccount_withSeed]

theorem expectBytes_withSeed (expected : List UInt8) :
    expectBytes (sdk.withSeed seed) expected = expectBytes sdk expected :=
  rfl

theorem parseContract_withSeed :
    parseContract (sdk.withSeed seed) = parseContract sdk :=
  rfl

theorem setDestination_withSeed (scriptHash : List UInt8) :
    Transaction.setDestination (sdk.withSeed seed) scriptHash =
      Transaction.setDestination sdk scriptHash :=
  rfl

theorem tryParseTransferScript_withSeed :
    tryParseTransferScript (sdk.withSeed seed) =
      tryParseTransferScript sdk := by
  funext script tx
  simp only [tryParseTransferScript, recogniseTransfer, recogniseCall,
    expectBytes_withSeed, parseContract_withSeed, setDestination_withSeed]

/-- The parser does not use the seed. -/
theorem transactionDeserialize_withSeed (buf : Buffer) (tx : Transaction) :
    transactionDeserialize (sdk.withSeed seed) buf tx =
      transactionDeserialize sdk buf tx := by
  simp only [transactionDeserialize, deserialize, parseFields, parseSigners,
    parseSignersFrom_withSeed, tryParseTransferScript_withSeed]

end Parser

variable {sdk : Sdk} {first second : Seed} {app : App}

theorem signTxData_withSeed (cdata : Buffer) (more : Bool) :
    signTxData (sdk.withSeed first) cdata more app =
      signTxData (sdk.withSeed second) cdata more app := by
  simp only [signTxData, signTxParse, transactionDeserialize_withSeed]
  rfl

theorem uiDisplayAddress_withSeed :
    uiDisplayAddress (sdk.withSeed first) app =
      uiDisplayAddress (sdk.withSeed second) app :=
  rfl

theorem cryptoInitPublicKey_withSeed
    {path : Bip44Path} (context : GlobalCtx)
    (agree :
      publicKeyOf (sdk.withSeed first) path =
        publicKeyOf (sdk.withSeed second) path) :
    cryptoInitPublicKey (sdk.withSeed first)
        ((sdk.withSeed first).deriveNodeBip32 path) context =
      cryptoInitPublicKey (sdk.withSeed second)
        ((sdk.withSeed second).deriveNodeBip32 path) context :=
  congrArg
    (fun key => { context with rawTx := memmove context.rawTx 0 key }) agree

theorem handlerGetPublicKey_withSeed
    {data : List UInt8} (showOnScreen : Bool) (short : data.length ≤ 255)
    (agree : 20 ≤ data.length → ValidPath (pathWords data) →
      publicKeyOf (sdk.withSeed first) (pathWords data) =
        publicKeyOf (sdk.withSeed second) (pathWords data)) :
    handlerGetPublicKey (sdk.withSeed first) (wholeBuffer data) showOnScreen
        app =
      handlerGetPublicKey (sdk.withSeed second) (wholeBuffer data)
        showOnScreen app := by
  rcases validated : validatePath data GlobalCtx.zero.bip44Path with
    ⟨status | _, path⟩
  · have read :
        readBip44Path (wholeBuffer data) addressRequest =
          (.error status, refusedKeyContext path) := by
      obtain ⟨refused, stored⟩ := Prod.mk.inj validated
      exact Prod.ext refused (congrArg refusedKeyContext stored)
    simp only [handlerGetPublicKey, read]
  · have read :
        readBip44Path (wholeBuffer data) addressRequest =
          (.ok (), refusedKeyContext path) := by
      obtain ⟨accepted, stored⟩ := Prod.mk.inj validated
      exact Prod.ext accepted (congrArg refusedKeyContext stored)
    obtain ⟨long, valid, rfl⟩ :=
      (validatePath_eq_ok_iff (lt_sizeModulus_of_short short) _ _).mp
        validated
    have same :=
      @cryptoInitPublicKey_withSeed sdk first second
        (refusedKeyContext (pathWords data)).bip44Path
        (refusedKeyContext (pathWords data)) (agree long valid)
    simp only [handlerGetPublicKey, read, cryptoDerivePrivateKey, same,
      @uiDisplayAddress_withSeed sdk first second]

/-- Only GET_PUBLIC_KEY with an accepted path computes a public key. -/
theorem appMainTurn_withSeed
    {bytes : List UInt8}
    (agree : AgreeAt sdk first second ⟨app, .apdu bytes⟩) :
    appMainTurn (sdk.withSeed first) bytes app =
      appMainTurn (sdk.withSeed second) bytes app := by
  rw [appMainTurn_eq, appMainTurn_eq]
  have short := length_apduRequest_data_le bytes
  have publicKey (showOnScreen : Bool) (data : List UInt8)
      (request : apduRequest bytes = .publicKey showOnScreen data) :=
    agree.publicKey showOnScreen data (congrArg some request)
  generalize apduRequest bytes = request at short publicKey ⊢
  cases request with
  | answered | path | magic => rfl
  | publicKey showOnScreen data =>
      exact
        handlerGetPublicKey_withSeed showOnScreen short
          (publicKey showOnScreen data rfl)
  | chunk more data => exact signTxData_withSeed _ more

theorem gValidateCallback_withSeed_refused :
    gValidateCallback (sdk.withSeed first) false app =
      gValidateCallback (sdk.withSeed second) false app := by
  unfold gValidateCallback
  split <;> rfl

/-- Only the approval of a transaction uses the private key. -/
theorem uiConfirm_withSeed
    (noSignature :
      ¬ (app.ui.step = some .approve ∧
        app.ui.validateCallback = some .transaction)) :
    uiConfirm (sdk.withSeed first) app =
      uiConfirm (sdk.withSeed second) app := by
  unfold uiConfirm
  split
  next approve =>
    unfold gValidateCallback
    split
    next => rfl
    next => rfl
    next callback => exact absurd ⟨approve, callback⟩ noSignature
  next => exact gValidateCallback_withSeed_refused
  next => exact gValidateCallback_withSeed_refused
  next => rfl

/-- Two approvals with the same signature differ in the private key only. -/
theorem uiActionValidateTransaction_withSeed
    (agree :
      sdk.ecdsaSign (first app.context.bip44Path)
          (sdk.sha256 (signedData app.context)).toList =
        sdk.ecdsaSign (second app.context.bip44Path)
          (sdk.sha256 (signedData app.context)).toList) :
    (uiActionValidateTransaction (sdk.withSeed first) true app).1 =
        (uiActionValidateTransaction (sdk.withSeed second) true app).1 ∧
      (uiActionValidateTransaction (sdk.withSeed first) true app).2.map
          Effect.observed =
        (uiActionValidateTransaction (sdk.withSeed second) true app).2.map
          Effect.observed := by
  cases signs : sdk.ecdsaSign (first app.context.bip44Path)
      (sdk.sha256 (signedData app.context)).toList with
  | none =>
      rw [signs] at agree
      rw [@uiActionValidateTransaction_of_sign (sdk.withSeed first) app _
          signs,
        @uiActionValidateTransaction_of_sign (sdk.withSeed second) app _
          agree.symm]
      exact ⟨rfl, rfl⟩
  | some signature =>
      rw [signs] at agree
      rw [@uiActionValidateTransaction_of_sign (sdk.withSeed first) app _
          signs,
        @uiActionValidateTransaction_of_sign (sdk.withSeed second) app _
          agree.symm]
      exact ⟨rfl, rfl⟩

/-- An approval of a transaction asks for a signature. -/
theorem signs_of_approve
    (step : app.ui.step = some .approve)
    (callback : app.ui.validateCallback = some .transaction) :
    Turn.Signs sdk ⟨app, .confirm⟩ := by
  refine ⟨sdk.deriveNodeBip32 app.context.bip44Path,
    (sdk.sha256 (signedData app.context)).toList, ?_⟩
  have asks : Effect.ecdsaSign (sdk.deriveNodeBip32 app.context.bip44Path)
      (sdk.sha256 (signedData app.context)).toList ∈
        signingEffects sdk app.context :=
    List.mem_cons_of_mem _ (List.mem_cons_self ..)
  change _ ∈ (uiConfirm sdk app).2
  rw [uiConfirm_transaction_approved sdk step callback]
  cases signs : sdk.ecdsaSign (sdk.deriveNodeBip32 app.context.bip44Path)
      (sdk.sha256 (signedData app.context)).toList with
  | none =>
      rw [uiActionValidateTransaction_of_sign sdk signs]
      exact List.mem_append_left _ asks
  | some signature =>
      rw [uiActionValidateTransaction_of_sign sdk signs]
      exact List.mem_append_left _ asks

theorem deviceStep_withSeed
    {event : Event} (agree : AgreeAt sdk first second ⟨app, event⟩) :
    (deviceStep (sdk.withSeed first) app event).1 =
        (deviceStep (sdk.withSeed second) app event).1 ∧
      (deviceStep (sdk.withSeed first) app event).2.map Effect.observed =
        (deviceStep (sdk.withSeed second) app event).2.map
          Effect.observed := by
  cases event with
  | apdu bytes =>
      rw [deviceStep, deviceStep, appMainTurn_withSeed agree]
      exact ⟨rfl, rfl⟩
  | press button => exact ⟨rfl, rfl⟩
  | confirm =>
      rw [deviceStep, deviceStep]
      by_cases approves :
        app.ui.step = some .approve ∧
          app.ui.validateCallback = some .transaction
      · obtain ⟨step, callback⟩ := approves
        have signs : Turn.Signs (sdk.withSeed first) ⟨app, .confirm⟩ :=
          signs_of_approve step callback
        rw [uiConfirm_transaction_approved _ step callback,
          uiConfirm_transaction_approved _ step callback]
        exact uiActionValidateTransaction_withSeed (agree.signature signs)
      · rw [uiConfirm_withSeed approves]
        exact ⟨rfl, rfl⟩

theorem withSeed_lockstep (sdk : Sdk) (first second : Seed) :
    Lockstep (device (sdk.withSeed first)) (device (sdk.withSeed second))
      (AgreeAt sdk first second) (fun app other => app = other)
      (List.map Effect.observed) (List.map Effect.observed) where
  states := by
    rintro app other event rfl agree
    exact (deviceStep_withSeed agree).1
  answers := by
    rintro app other event rfl agree
    exact (deviceStep_withSeed agree).2

def keySigner : Sdk :=
  { Sdk.constant with
    ecdsaSign := fun privateKey digest => some (privateKey ++ digest.take 2) }

/-- A seed whose keys are `key`, except for that of the first path. -/
def seedApart (key : List UInt8) : Seed :=
  fun path => if path = firstPath then [1] else key

/-- The key of the first address, and a transfer signed with it. -/
def keyAndTransfer : List Event :=
  getPublicKeyEvent 0 firstKeyPath :: transferRun firstKeyPath

/-- Seeds with the same key for one path agree at a turn of that path. -/
theorem AgreeAt.of_path
    {turn : DeviceTurn} {path : Bip44Path}
    (same : first path = second path) (wf : turn.state.context.Wf)
    (asked : ∀ (showOnScreen : Bool) (data : List UInt8),
      turn.request = some (.publicKey showOnScreen data) →
        pathWords data = path)
    (confirmed : turn.input = .confirm →
      turn.state.context.bip44Path = path) :
    AgreeAt sdk first second turn where
  publicKey := by
    intro showOnScreen data request _ _
    rw [asked showOnScreen data request, publicKeyOf, publicKeyOf]
    change (sdk.generatePair (first path)).toList =
      (sdk.generatePair (second path)).toList
    rw [same]
  signature := by
    intro signs
    rw [confirmed (signs.approves wf).1, same]

theorem agreeAt_keyAndTransfer :
    ∀ turn ∈ (device (keySigner.withSeed (seedApart [2]))).trace
        keyAndTransfer,
      AgreeAt keySigner (seedApart [2]) (seedApart [3]) turn := by
  have ofPath :
      ∀ turn ∈ (device (keySigner.withSeed (seedApart [2]))).trace
          keyAndTransfer,
        turn.request.all (fun request => match request with
          | .publicKey _ data => decide (pathWords data = firstPath)
          | _ => true) = true ∧
        (turn.input = .confirm →
          turn.state.context.bip44Path = firstPath) := by
    decide +kernel
  have wf :
      (device (keySigner.withSeed (seedApart [2]))).Throughout
        (fun _ turn => turn.state.context.Wf) keyAndTransfer :=
    (wf_invariant _).throughout (fun wf _ => wf) fun _ _ _ _ => trivial
  intro turn member
  obtain ⟨asked, confirmed⟩ := ofPath turn member
  refine
    AgreeAt.of_path rfl (Transition.throughout_iff_trace.mp wf turn member)
      ?_ confirmed
  intro showOnScreen data request
  rw [request] at asked
  exact of_decide_eq_true asked

end Neo3App
