import Neo3App.Lib.Collision
import Neo3App.Session.NoBlindSigning
import Neo3App.Transaction.Accepted

/-!
# What a signature commits to

The digest that is signed is a hash of the magic and of the hash of a
transaction.  Two signatures over one digest, in any two runs, are for one
network and one transaction, unless a collision has been found among the data
that were hashed.
-/

namespace Neo3App

open Neo3App.Lib

variable {sdk : Sdk}

/-- `bytes` are those of the last review, and no request with a path has
wiped their hash. -/
def Commits (sdk : Sdk) (history : List DeviceTurn) (bytes : List UInt8)
    (tx : Transaction) : Prop :=
  ∃ earlier review later data,
    LastTurn (Turn.StartsReview sdk) earlier review later history ∧
      (∀ next ∈ later, ¬ next.CarriesPath) ∧
        ReviewStart sdk review data tx ∧
          bytes = review.state.context.received ++ data

def SignsDigest (sdk : Sdk) (events : List Event) (digest : List UInt8) :
    Prop :=
  ∃ privateKey, .ecdsaSign privateKey digest ∈
    (deviceStep sdk ((device sdk).after events) .confirm).2

/-- The hash in the context after a run: that of an accepted transfer, or
wiped. -/
inductive HashedAfter (sdk : Sdk) (events : List Event) : Prop where
  | transfer {bytes : List UInt8} {tx : Transaction}
      (commits : Commits sdk ((device sdk).trace events) bytes tx)
      (hash : ((device sdk).after events).context.hash = sdk.sha256 bytes)
      (accepted : AcceptedTransfer sdk bytes tx)
  | wiped
      (none : ∀ bytes tx,
        ¬ Commits sdk ((device sdk).trace events) bytes tx)
      (hash : ((device sdk).after events).context.hash =
        GlobalCtx.zero.hash)

def dataAfter (sdk : Sdk) (events : List Event) : List UInt8 :=
  signedData ((device sdk).after events).context

inductive SameDigest (sdk : Sdk) (first second : List Event) : Prop where
  /-- They are for one transfer on one network. -/
  | transfer {bytes : List UInt8} {tx : Transaction}
      (magic : ((device sdk).after first).context.networkMagic =
        ((device sdk).after second).context.networkMagic)
      (commits : Commits sdk ((device sdk).trace first) bytes tx)
      (alsoCommits : Commits sdk ((device sdk).trace second) bytes tx)
      (accepted : AcceptedTransfer sdk bytes tx)
  /-- Both hashes were wiped, on one network. -/
  | wiped
      (magic : ((device sdk).after first).context.networkMagic =
        ((device sdk).after second).context.networkMagic)
      (none : ∀ bytes tx, ¬ Commits sdk ((device sdk).trace first) bytes tx)
      (alsoNone : ∀ bytes tx,
        ¬ Commits sdk ((device sdk).trace second) bytes tx)
  /-- The signed data collide. -/
  | data (collides :
      Collides sdk.sha256 (dataAfter sdk first) (dataAfter sdk second))
  /-- The two transactions collide. -/
  | bytes {bytes others : List UInt8} {tx other : Transaction}
      (commits : Commits sdk ((device sdk).trace first) bytes tx)
      (alsoCommits : Commits sdk ((device sdk).trace second) others other)
      (collides : Collides sdk.sha256 bytes others)
  /-- One of the transactions has the wiped hash. -/
  | zero {bytes : List UInt8} {tx : Transaction}
      (commits : Commits sdk ((device sdk).trace first) bytes tx ∨
        Commits sdk ((device sdk).trace second) bytes tx)
      (hash : sdk.sha256 bytes = GlobalCtx.zero.hash)

/-- A run that signs has the hash of an accepted transfer, or none. -/
theorem hashedAfter_of_signs
    {events : List Event} {digest : List UInt8}
    (signs : SignsDigest sdk events digest) : HashedAfter sdk events := by
  obtain ⟨⟨_, recorded⟩, ⟨wf, origin⟩, ⟨⟨_, shown⟩, _⟩, _, since⟩ :=
    (blindSigning_invariant sdk).run events fun _ _ _ _ => trivial
  obtain ⟨privateKey, member⟩ := signs
  have approves :=
    @Turn.Signs.approves sdk ⟨(device sdk).after events, .confirm⟩
      ⟨privateKey, digest, member⟩ wf
  obtain ⟨_, step, callback, _⟩ := approves
  have flow := shown.flow_of_approve step callback
  obtain ⟨earlier, review, later, data, tx, last, reviewWf, start, display⟩ :=
    shown.transaction flow
  by_cases noPath : ∀ next ∈ later, ¬ next.CarriesPath
  · have resumable := (recorded review last.mem).2
    obtain ⟨_, hash, _⟩ := since.keeps last noPath
    refine
      .transfer ⟨earlier, review, later, data, last, noPath, start, rfl⟩ ?_
        ⟨start.accepted reviewWf resumable,
          start.isTransfer display flow step⟩
    rw [hash, start.result]
    exact congrArg sdk.sha256 (GlobalCtx.received_append reviewWf data)
  · have unkept {before between : List DeviceTurn} {other : DeviceTurn}
        (isLast : LastTurn (Turn.StartsReview sdk) before other between
          ((device sdk).trace events)) :
        ¬ ∀ next ∈ between, ¬ next.CarriesPath := by
      obtain ⟨_, _, rfl⟩ := last.unique isLast
      exact noPath
    refine .wiped ?_ ?_
    · rintro _ _ ⟨_, _, _, _, isLast, kept, _⟩
      exact unkept isLast kept
    · rcases origin with ⟨_, _, _, isLast, kept⟩ | wiped
      · exact absurd kept (unkept isLast)
      · exact wiped

theorem digest_of_mem
    {context : GlobalCtx} {privateKey digest data : List UInt8} {sw : UInt16}
    (member : .ecdsaSign privateKey digest ∈
      signingEffects sdk context ++ [.response data sw]) :
    digest = (sdk.sha256 (signedData context)).toList := by
  simp only [signingEffects, List.cons_append, List.nil_append,
    List.mem_cons, List.not_mem_nil, or_false, reduceCtorEq, false_or,
    Effect.ecdsaSign.injEq] at member
  exact member.2

/-- The digest is the hash of the data in the context. -/
theorem digest_of_signs
    {events : List Event} {digest : List UInt8}
    (signs : SignsDigest sdk events digest) :
    digest = (sdk.sha256 (dataAfter sdk events)).toList := by
  have wf := (wf_invariant sdk).run events fun _ _ _ _ => trivial
  have outcome := deviceStep_outcome sdk wf .confirm
  obtain ⟨privateKey, member⟩ := signs
  unfold dataAfter
  generalize (device sdk).after events = app at *
  rcases result : deviceStep sdk app .confirm with ⟨after, effects⟩
  simp only [result] at outcome member
  cases outcome with
  | signed | signFailed =>
      exact digest_of_mem member
  | answered request | pathRefused request | pathAccepted request
  | keyRefused request | keySent request | keyShown request
  | magicGuarded request | magicMissing request | magicRead request
  | chunkGuarded request | chunkTooLong request | chunkTaken request
  | parseFailed request | reviewStarted request =>
      cases request
  | ignored | keyApproved | keyDenied | denied =>
      simp [ioSendSw, helperSendResponsePubkey] at member

/-- The signed data determine the magic and the hash. -/
theorem signedData_injective
    {first second : GlobalCtx}
    (same : signedData first = signedData second) :
    first.networkMagic = second.networkMagic ∧ first.hash = second.hash := by
  obtain ⟨magics, hashes⟩ :=
    List.append_inj same (by rw [length_leBytes, length_leBytes])
  refine ⟨UInt32.toNat_inj.mp ?_, Vector.toList_inj.mp hashes⟩
  exact eq_of_leBytes first.networkMagic.toNat_lt
    second.networkMagic.toNat_lt magics

/-- **A digest identifies the network and the transaction**, up to a
collision among the data that were hashed. -/
theorem digest_identifies_transaction
    (sdk : Sdk) {first second : List Event} {digest : List UInt8}
    (signs : SignsDigest sdk first digest)
    (alsoSigns : SignsDigest sdk second digest) :
    SameDigest sdk first second := by
  have hashes : sdk.sha256 (dataAfter sdk first) =
      sdk.sha256 (dataAfter sdk second) :=
    Vector.toList_inj.mp
      ((digest_of_signs signs).symm.trans (digest_of_signs alsoSigns))
  rcases eq_or_collides hashes with same | collides
  · obtain ⟨magic, hash⟩ := signedData_injective same
    cases hashedAfter_of_signs signs with
    | transfer commits known accepted =>
        rw [known] at hash
        cases hashedAfter_of_signs alsoSigns with
        | transfer alsoCommits alsoKnown alsoAccepted =>
            rw [alsoKnown] at hash
            rcases eq_or_collides hash with rfl | collides
            · have parsed := accepted.parsed.symm.trans alsoAccepted.parsed
              cases parsed
              exact .transfer magic commits alsoCommits accepted
            · exact .bytes commits alsoCommits collides
        | wiped none wiped =>
            exact .zero (.inl commits) (hash.trans wiped)
    | wiped none wiped =>
        rw [wiped] at hash
        cases hashedAfter_of_signs alsoSigns with
        | transfer alsoCommits alsoKnown alsoAccepted =>
            exact .zero (.inr alsoCommits) (alsoKnown.symm.trans hash.symm)
        | wiped alsoNone _ =>
            exact .wiped magic none alsoNone
  · exact .data collides

/-- One transfer, with and without an earlier command. -/
theorem digest_identifies_transaction_transferReview :
    SameDigest Sdk.constant transferReview
      (getPublicKeyEvent 0 firstKeyPath :: transferReview) :=
  @digest_identifies_transaction Sdk.constant _ _ (List.replicate 32 0)
    ⟨[], by decide +kernel⟩ ⟨[], by decide +kernel⟩

end Neo3App
