import Neo3App.Session.Handshake
import Neo3App.Session.Reviews
import Neo3App.Transaction.Accepted

/-!
# The key paths that are derived

The path of the context is what the last request with a path left of it, also
when that request was refused.  A key is derived from an accepted path
wherever the last such request was accepted.
-/

namespace Neo3App

open Neo3App.Lib

def Request.pathData : Request → Option (List UInt8)
  | .path data => some data
  | .publicKey _ data => some data
  | _ => none

def Lib.Turn.pathData (turn : DeviceTurn) : Option (List UInt8) :=
  turn.request.bind Request.pathData

/-- The validator accepts the path bytes of the turn as `path`. -/
def Lib.Turn.AcceptsPath (turn : DeviceTurn) (path : Bip44Path) : Prop :=
  ∃ data ∈ turn.pathData,
    validatePath data GlobalCtx.zero.bip44Path = (.ok (), path)

/-- Every key that is derived at the turn belongs to a path that one call of
the validator accepted as a whole. -/
def KeyPathsValidated (sdk : Sdk) (history : List DeviceTurn)
    (turn : DeviceTurn) : Prop :=
  ∀ path, .derivePrivateKey path ∈ (turn.result sdk).2 →
    ValidPath path ∧ ∃ origin ∈ history ++ [turn], origin.AcceptsPath path

/-- Both buttons on the Approve step of a transaction. -/
def Lib.Turn.ApprovesTransaction (turn : DeviceTurn) : Prop :=
  turn.input = .confirm ∧ turn.state.ui.step = some .approve ∧
    turn.state.ui.validateCallback = some .transaction

/-- At an approval the last request with a path was accepted. -/
def LastPathAccepted (history : List DeviceTurn) (turn : DeviceTurn) :
    Prop :=
  turn.ApprovesTransaction →
    ∀ earlier path later,
      LastTurn Turn.CarriesPath earlier path later history →
        ∃ accepted, path.AcceptsPath accepted

variable {sdk : Sdk}

theorem carriesPath_of_pathData
    {turn : DeviceTurn} {data : List UInt8}
    (carried : turn.pathData = some data) : turn.CarriesPath := by
  unfold Turn.pathData at carried
  cases request : turn.request with
  | none =>
      rw [request] at carried
      cases carried
  | some made =>
      rw [request] at carried
      cases made with
      | path => exact .inl ⟨_, request⟩
      | publicKey => exact .inr ⟨_, _, request⟩
      | answered | magic | chunk => cases carried

theorem validPath_of_validatePath
    {data : List UInt8} (small : data.length < sizeModulus)
    {before path : Bip44Path}
    (accepted : validatePath data before = (.ok (), path)) :
    ValidPath path := by
  obtain ⟨_, valid, rfl⟩ := (validatePath_eq_ok_iff small _ _).mp accepted
  exact valid

theorem length_pathData_lt
    {turn : DeviceTurn} {data : List UInt8}
    (carried : turn.pathData = some data) : data.length < sizeModulus := by
  rcases turn with ⟨app, event⟩
  cases event with
  | press | confirm => cases carried
  | apdu bytes =>
      have short := length_apduRequest_data_le bytes
      change (apduRequest bytes).pathData = some data at carried
      cases request : apduRequest bytes with
      | path | publicKey =>
          rw [request] at carried short
          cases carried
          exact lt_sizeModulus_of_short short
      | answered | magic | chunk =>
          rw [request] at carried
          cases carried

/-- The path of the context is what the last request with a path left. -/
structure PathOrigin (sdk : Sdk) (history : List DeviceTurn) (app : App) :
    Prop where
  ofLast : ∀ {earlier later : List DeviceTurn} {path : DeviceTurn},
    LastTurn Turn.CarriesPath earlier path later history →
      ∃ data ∈ path.pathData,
        app.context.bip44Path =
            (validatePath data GlobalCtx.zero.bip44Path).2 ∧
          (app.context.reqType = .confirmTransaction ↔ path.IsPath)
  exists_last :
    (app.context.reqType = .confirmTransaction ∨
      ∃ review ∈ history, review.StartsReview sdk) →
      ∃ earlier path later,
        LastTurn Turn.CarriesPath earlier path later history

theorem PathOrigin.new
    {history : List DeviceTurn} {turn : DeviceTurn} {after : App}
    {data : List UInt8} (carried : turn.pathData = some data)
    (stored :
      after.context.bip44Path =
        (validatePath data GlobalCtx.zero.bip44Path).2)
    (kind : after.context.reqType = .confirmTransaction ↔ turn.IsPath) :
    PathOrigin sdk (history ++ [turn]) after where
  ofLast := by
    intro earlier later path last
    rcases last.of_append_singleton with
      ⟨_, rfl, _⟩ | ⟨_, _, other, _⟩
    · exact ⟨data, carried, stored, kind⟩
    · exact absurd (carriesPath_of_pathData carried) other
  exists_last := fun _ =>
    ⟨history, turn, [], .new history (carriesPath_of_pathData carried)⟩

theorem PathOrigin.keep
    {history : List DeviceTurn} {turn : DeviceTurn}
    (wf : turn.state.context.Wf) (origin : PathOrigin sdk history turn.state)
    (noPath : ¬ turn.CarriesPath) :
    PathOrigin sdk (history ++ [turn]) (turn.result sdk).1 := by
  obtain ⟨samePath, sameKind⟩ := @path_of_no_path sdk _ wf noPath
  constructor
  · intro earlier later path last
    rcases last.of_append_singleton with
      ⟨_, rfl, _⟩ | ⟨rest, _, _, before⟩
    · exact absurd last.isKind noPath
    · rw [samePath, sameKind]
      exact origin.ofLast before
  · intro started
    have startedBefore : turn.state.context.reqType = .confirmTransaction ∨
        ∃ review ∈ history, review.StartsReview sdk := by
      rcases started with isTransaction | ⟨review, member, starts⟩
      · exact .inl (sameKind ▸ isTransaction)
      · rcases List.mem_append.mp member with before | now
        · exact .inr ⟨review, before, starts⟩
        · rw [List.mem_singleton.mp now] at starts
          obtain ⟨_, _, start⟩ := starts.start wf
          exact .inl start.passes
    obtain ⟨earlier, path, later, last⟩ := origin.exists_last startedBefore
    exact ⟨earlier, path, later ++ [turn], last.append noPath⟩

/-- The origin of the path is known in every run. -/
theorem pathOrigin_invariant (sdk : Sdk) :
    (device sdk).Invariant (fun _ _ => True)
      fun history app => app.context.Wf ∧ PathOrigin sdk history app := by
  apply device_invariant
  · constructor
    · intro earlier later path last
      exact absurd last.mem (List.not_mem_nil)
    · rintro (isTransaction | ⟨_, member, _⟩)
      · cases isTransaction
      · cases member
  intro history app after event effects wf origin _ result outcome
  have resultEq : (Turn.result sdk ⟨app, event⟩) = (after, effects) := result
  by_cases carries : Turn.CarriesPath ⟨app, event⟩
  swap
  · have kept := @PathOrigin.keep sdk _ ⟨app, event⟩ wf origin carries
    rw [resultEq] at kept
    exact kept
  have isPath {data : List UInt8}
      (request : event.request = some (.path data)) :
      Turn.IsPath ⟨app, event⟩ :=
    ⟨data, request⟩
  have notPath {showOnScreen : Bool} {data : List UInt8}
      (request : event.request = some (.publicKey showOnScreen data)) :
      ¬ Turn.IsPath ⟨app, event⟩ := by
    rintro ⟨_, other⟩
    cases request.symm.trans other
  have data_eq {data : List UInt8} {made : Request}
      (request : event.request = some made)
      (brings : made.pathData = some data) :
      Turn.pathData ⟨app, event⟩ = some data := by
    rw [Turn.pathData, Turn.request, request]
    exact brings
  have stored {data : List UInt8}
      (carried : Turn.pathData ⟨app, event⟩ = some data)
      (long : 20 ≤ data.length) (valid : ValidPath (pathWords data)) :
      pathWords data =
        (validatePath data GlobalCtx.zero.bip44Path).2 := by
    rw [(validatePath_eq_ok_iff (length_pathData_lt carried) _ _).mpr
      ⟨long, valid, rfl⟩]
  cases outcome with
  | pathRefused request refused =>
      exact
        .new (data_eq request rfl) (congrArg Prod.snd refused).symm
          ⟨fun _ => isPath request, fun _ => rfl⟩
  | pathAccepted request long valid =>
      have carried := data_eq request rfl
      exact
        .new carried (stored carried long valid)
          ⟨fun _ => isPath request, fun _ => rfl⟩
  | keyRefused request refused =>
      exact
        .new (data_eq request rfl) (congrArg Prod.snd refused).symm
          ⟨fun other => (by cases other),
            fun other => absurd other (notPath request)⟩
  | keySent request long valid | keyShown request long valid =>
      have carried := data_eq request rfl
      exact
        .new carried (stored carried long valid)
          ⟨fun other => (by cases other),
            fun other => absurd other (notPath request)⟩
  | answered request | magicGuarded request | magicMissing request
  | magicRead request | chunkGuarded request | chunkTooLong request
  | chunkTaken request | parseFailed request | reviewStarted request =>
      rcases carries with ⟨_, other⟩ | ⟨_, _, other⟩ <;>
        cases request.symm.trans other
  | pressed | ignored | keyApproved | keyDenied | signed | signFailed
  | denied =>
      rcases carries with ⟨_, other⟩ | ⟨_, _, other⟩ <;> cases other

/-! ## What is derived -/

/-- The invariants of the screen and of the path. -/
theorem screenAndPath_invariant (sdk : Sdk) :
    (device sdk).Invariant (fun _ _ => True)
      fun history app =>
        (app.context.Wf ∧ OnScreen sdk history app.ui) ∧
          app.context.Wf ∧ PathOrigin sdk history app :=
  (onScreen_invariant sdk).and (pathOrigin_invariant sdk)

/-- The path of an approved transaction was accepted. -/
theorem PathOrigin.accepted
    {history : List DeviceTurn} {app : App}
    (origin : PathOrigin sdk history app)
    (shown : OnScreen sdk history app.ui)
    (step : app.ui.step = some .approve)
    (callback : app.ui.validateCallback = some .transaction)
    (lastAccepted :
      ∀ earlier path later,
        LastTurn Turn.CarriesPath earlier path later history →
          ∃ accepted, path.AcceptsPath accepted) :
    ValidPath app.context.bip44Path ∧
      ∃ path ∈ history, path.AcceptsPath app.context.bip44Path := by
  obtain ⟨_, review, _, _, _, last, _, start, _⟩ :=
    shown.transaction (shown.flow_of_approve step callback)
  obtain ⟨earlier, path, later, lastPath⟩ :=
    origin.exists_last (.inr ⟨review, last.mem, start.startsReview⟩)
  obtain ⟨data, carried, stored, _⟩ := origin.ofLast lastPath
  obtain ⟨accepted, other, sameData, accepts⟩ :=
    lastAccepted earlier path later lastPath
  cases carried.symm.trans sameData
  have isPath : app.context.bip44Path = accepted := by
    rw [stored, accepts]
  rw [isPath]
  exact
    ⟨validPath_of_validatePath (length_pathData_lt carried) accepts,
      path, lastPath.mem, data, carried, accepts⟩

/-- **Only accepted paths are derived** in a run whose approvals all come
after an accepted path. -/
theorem keyPathsValidated_of_lastPathAccepted
    (sdk : Sdk) (events : List Event)
    (accepted : (device sdk).Throughout LastPathAccepted events) :
    (device sdk).Throughout (KeyPathsValidated sdk) events := by
  refine
    ((screenAndPath_invariant sdk).under LastPathAccepted).throughout ?_
      accepted
  rintro history ⟨app, event⟩ ⟨⟨wf, shown⟩, _, origin⟩ lastAccepted path
    derived
  have outcome := deviceStep_outcome sdk wf event
  rcases result : deviceStep sdk app event with ⟨after, effects⟩
  simp only [result] at outcome
  rw [Turn.result, result] at derived
  have newPath {data : List UInt8}
      (carried : Turn.pathData ⟨app, event⟩ = some data)
      (long : 20 ≤ data.length) (valid : ValidPath (pathWords data)) :
      ValidPath (pathWords data) ∧
        ∃ origin ∈ history ++ [⟨app, event⟩],
          origin.AcceptsPath (pathWords data) :=
    ⟨valid, ⟨app, event⟩, by simp, data, carried,
      (validatePath_eq_ok_iff (length_pathData_lt carried) _ _).mpr
        ⟨long, valid, rfl⟩⟩
  have approved (approves : Turn.ApprovesTransaction ⟨app, event⟩) :
      ValidPath app.context.bip44Path ∧
        ∃ origin ∈ history ++ [⟨app, event⟩],
          origin.AcceptsPath app.context.bip44Path := by
    obtain ⟨_, step, callback⟩ := approves
    obtain ⟨valid, path, member, accepts⟩ :=
      origin.accepted shown step callback (lastAccepted ⟨‹_›, step, callback⟩)
    exact ⟨valid, path, List.mem_append_left _ member, accepts⟩
  cases outcome with
  | @keySent _ data request long valid =>
      have isPath : path = pathWords data := by
        simpa [helperSendResponsePubkey] using derived
      rw [isPath]
      exact newPath (by rw [Turn.pathData, Turn.request, request]; rfl)
        long valid
  | @keyShown _ data request long valid =>
      have isPath : path = pathWords data := by
        simpa using derived
      rw [isPath]
      exact newPath (by rw [Turn.pathData, Turn.request, request]; rfl)
        long valid
  | signed step callback =>
      have isPath : path = app.context.bip44Path := by
        simpa [signingEffects] using derived
      rw [isPath]
      exact approved ⟨rfl, step, callback⟩
  | signFailed step callback =>
      have isPath : path = app.context.bip44Path := by
        simpa [signingEffects, ioSendSw] using derived
      rw [isPath]
      exact approved ⟨rfl, step, callback⟩
  | answered | pathRefused | pathAccepted | keyRefused | magicGuarded
  | magicMissing | magicRead | chunkGuarded | chunkTooLong | chunkTaken
  | parseFailed | reviewStarted | pressed | ignored | keyApproved
  | keyDenied | denied =>
      simp [ioSendSw, helperSendResponsePubkey] at derived

def approve : List Event :=
  List.replicate 11 (.press .right) ++ [.confirm]

/-- A transfer of one NEO, sent after the path `path` and approved. -/
def transferRun (path : List UInt8) : List Event :=
  [signTxEvent 0 p2More path, signTxEvent 1 p2More [1, 2, 3, 4],
    signTxEvent 2 p2Last oneNeoTransaction] ++ approve

theorem acceptsPath_of_isOk
    {turn : DeviceTurn} (carries : turn.CarriesPath)
    (isOk : ∀ data ∈ turn.pathData,
      (validatePath data GlobalCtx.zero.bip44Path).1.isOk = true) :
    ∃ accepted, turn.AcceptsPath accepted := by
  have brings : ∃ data, turn.pathData = some data := by
    rcases carries with ⟨data, request⟩ | ⟨_, data, request⟩ <;>
      exact ⟨data, by rw [Turn.pathData, request]; rfl⟩
  obtain ⟨data, carried⟩ := brings
  have accepted := isOk data carried
  rcases validated : validatePath data GlobalCtx.zero.bip44Path with
    ⟨status | _, stored⟩
  · rw [validated] at accepted
    cases accepted
  · exact ⟨stored, data, carried, validated⟩

/-- A run that only brings accepted paths meets the condition. -/
theorem lastPathAccepted_of_trace
    {events : List Event}
    (accepted : ∀ turn ∈ (device sdk).trace events,
      ∀ data ∈ turn.pathData,
        (validatePath data GlobalCtx.zero.bip44Path).1.isOk = true) :
    (device sdk).Throughout LastPathAccepted events := by
  intro before event later split _ earlier path between last
  have member : path ∈ (device sdk).trace events := by
    rw [split]
    exact Transition.trace_subset _ _ last.mem
  exact acceptsPath_of_isOk last.isKind (accepted path member)

theorem keyPathsValidated_transferRun :
    (device Sdk.constant).Throughout (KeyPathsValidated Sdk.constant)
      (transferRun firstKeyPath) :=
  keyPathsValidated_of_lastPathAccepted Sdk.constant
    (transferRun firstKeyPath)
    (lastPathAccepted_of_trace (by decide +kernel))

/-- A transfer can be approved under a path that was refused. -/
theorem not_keyPathsValidated_refusedPath :
    ¬ (device Sdk.constant).Throughout (KeyPathsValidated Sdk.constant)
      (transferRun (List.replicate 20 0)) := by
  intro validated
  have turn :=
    validated (transferRun (List.replicate 20 0)).dropLast .confirm []
      (by decide +kernel)
  obtain ⟨valid, _⟩ :=
    turn (Vector.replicate 5 0) (by decide +kernel)
  exact absurd valid.purpose (by decide)

end Neo3App
