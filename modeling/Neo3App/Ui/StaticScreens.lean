import Neo3App.Ui.TokenAmount

/-!
# The static screens of two reviews

How much two transfers whose static screens show the same strings have in
common.  The network magic and the last valid height are printed with `%d`
into buffers of eleven characters, so that the last digit of a signed value
of eleven characters is lost; everything else is determined by the screens.
-/

namespace Neo3App

open Neo3App.Lib

structure StaticScreens where
  address : List Char
  text : List Char
  network : List Char
  systemFee : List Char
  networkFee : List Char
  totalFees : List Char
  validUntilBlock : List Char
  deriving DecidableEq

def Ui.staticScreens (ui : Ui) : StaticScreens where
  address := ui.address
  text := ui.text
  network := ui.network
  systemFee := ui.systemFee
  networkFee := ui.networkFee
  totalFees := ui.totalFees
  validUntilBlock := ui.validUntilBlock

/-- The length of the push instruction with the opcode `op`. -/
def pushLength (op : UInt8) : Nat :=
  if op = 0x00 then 2
  else if op = 0x01 then 3
  else if op = 0x02 then 5
  else if op = 0x03 then 9
  else 1

def scriptDestination (script : List UInt8) : List UInt8 :=
  (script.drop (1 + pushLength (script.getD 1 0) + 2)).take uint160Len

/-- The bytes of the script of `tx`, a transaction parsed from `b`. -/
def Transaction.scriptBytes (tx : Transaction) (b : List UInt8) :
    List UInt8 :=
  deref b tx.scriptSize.toNat tx.script

/-- An accepted transfer, parsed from `b`, whose review is on the screen. -/
structure ReviewedTransfer (sdk : Sdk) (b : List UInt8) (app : App) :
    Prop where
  accepted : AcceptedTransfer sdk b app.context.transaction
  isTransaction : app.context.reqType = .confirmTransaction
  isParsed : app.context.state = .parsed

/-- Two contexts move the same amount to the same receiver at the same
price. -/
structure SameTransfer (first second : GlobalCtx)
    (firstBytes secondBytes : List UInt8) : Prop where
  token : first.transaction.isNeo = second.transaction.isNeo
  amount : first.transaction.amount = second.transaction.amount
  destination :
    scriptDestination (first.transaction.scriptBytes firstBytes) =
      scriptDestination (second.transaction.scriptBytes secondBytes)
  systemFee : first.transaction.systemFee = second.transaction.systemFee
  networkFee : first.transaction.networkFee = second.transaction.networkFee

/-- They also agree on the network and the last valid height. -/
structure SameRequest (first second : GlobalCtx)
    (firstBytes secondBytes : List UInt8) : Prop
    extends SameTransfer first second firstBytes secondBytes where
  networkMagic : first.networkMagic = second.networkMagic
  validUntilBlock :
    first.transaction.validUntilBlock = second.transaction.validUntilBlock

theorem length_encode (push : Push) :
    push.encode.length = pushLength (push.encode.getD 0 0) := by
  cases push with
  | small value =>
      revert value
      decide
  | int8 value | int16 value | int32 value | int64 value =>
      simp [Push.encode, pushLength]

theorem scriptDestination_eq
    {transfer : TransferLayout} {script : List UInt8}
    (format : TransferFormat 0 transfer script) :
    scriptDestination script = transfer.destination := by
  obtain ⟨destinationLength, _, rfl⟩ := format
  have head (rest : List UInt8) :
      (transfer.push.encode ++ rest).getD 0 0 =
        transfer.push.encode.getD 0 0 := by
    cases transfer.push <;> rfl
  have opcode :
      transfer.encode.getD 1 0 = transfer.push.encode.getD 0 0 :=
    head _
  rw [scriptDestination, opcode, ← length_encode]
  have skipped :
      transfer.encode.drop (1 + transfer.push.encode.length + 2) =
        transfer.destination ++
          ([0x0C, 0x14] ++ (transfer.source ++
            ([0x14, 0xC0, 0x1F, 0x0C, 0x08,
              0x74, 0x72, 0x61, 0x6E, 0x73, 0x66, 0x65, 0x72,
              0x0C, 0x14] ++
              (contractHash transfer.isNeo ++
                [0x41, 0x62, 0x7D, 0x5B, 0x52])))) := by
    rw [← List.drop_drop, ← List.drop_drop]
    change ((transfer.push.encode ++ _).drop
      transfer.push.encode.length).drop 2 = _
    rw [List.drop_left]
    rfl
  rw [skipped, List.take_left' destinationLength]

/-- The number whose signed decimal numeral is the one of `value` without its
eleventh character. -/
def shownInt (value : UInt32) : Int :=
  if value.toInt32.toInt ≤ -1000000000 then -(value.toInt32.toInt.natAbs / 10)
  else value.toInt32.toInt

/-- A signed value of eleven characters is the only one that is cut. -/
theorem snprintf_percentD (value : UInt32) :
    snprintf 11 (percentD value) = signedDecimal (shownInt value) := by
  have low := value.toInt32.le_toInt
  have high := value.toInt32.toInt_lt
  unfold snprintf percentD shownInt signedDecimal
  generalize value.toInt32.toInt = number at low high ⊢
  by_cases long : number ≤ -1000000000
  · have peeled := Nat.toDigits_of_base_le (b := 10) (n := number.natAbs)
      (by omega) (by omega)
    have atMost :
        (Nat.toDigits 10 (number.natAbs / 10)).length ≤ 9 :=
      (Nat.length_toDigits_le_iff (by omega) (by omega)).mpr (by omega)
    have atLeast :
        ¬ (Nat.toDigits 10 (number.natAbs / 10)).length ≤ 8 := by
      rw [Nat.length_toDigits_le_iff (by omega) (by omega)]
      omega
    have magnitude :
        (-((number.natAbs / 10 : Nat) : Int)).natAbs = number.natAbs / 10 := by
      omega
    have nine : (Nat.toDigits 10 (number.natAbs / 10)).length = 9 := by
      omega
    have cut :
        ('-' :: Nat.toDigits 10 number.natAbs).take 10 =
          '-' :: Nat.toDigits 10 (number.natAbs / 10) := by
      rw [peeled, List.take_succ_cons, List.take_left' nine]
    rw [if_pos long, if_pos (by omega), if_pos (by omega)]
    exact cut.trans (congrArg (fun n => '-' :: Nat.toDigits 10 n)
      magnitude.symm)
  · rw [if_neg long]
    apply List.take_of_length_le
    by_cases negative : number < 0
    · have atMost : (Nat.toDigits 10 number.natAbs).length ≤ 9 :=
        (Nat.length_toDigits_le_iff (by omega) (by omega)).mpr (by omega)
      rw [if_pos negative, List.length_cons]
      omega
    · have atMost : (Nat.toDigits 10 number.natAbs).length ≤ 10 :=
        (Nat.length_toDigits_le_iff (by omega) (by omega)).mpr (by omega)
      rw [if_neg negative]
      omega

theorem toInt_toInt32_injective {first second : UInt32}
    (equal : first.toInt32.toInt = second.toInt32.toInt) :
    first = second := by
  have unsigned := congrArg Int32.toUInt32 (Int32.toInt_inj.mp equal)
  rwa [UInt32.toUInt32_toInt32, UInt32.toUInt32_toInt32] at unsigned

/-- A number that is shown without a sign is shown in full. -/
theorem eq_of_shownInt_eq {first second : UInt32}
    (nonneg : 0 ≤ shownInt first)
    (equal : shownInt first = shownInt second) : first = second := by
  apply toInt_toInt32_injective
  unfold shownInt at nonneg equal
  split at nonneg
  · omega
  · split at equal
    · omega
    · split at equal
      · omega
      · exact equal

private theorem signedDecimal_ne_of_mem
    {text : List Char} {letter : Char} (member : letter ∈ text)
    (notSign : letter ≠ '-') (notDigit : letter.isDigit = false)
    (number : Int) : signedDecimal number ≠ text := by
  rintro rfl
  unfold signedDecimal at member
  split at member
  · rcases List.mem_cons.mp member with sign | digit
    · exact notSign sign
    · rw [isDigit_of_mem_decimal digit] at notDigit
      cases notDigit
  · rw [isDigit_of_mem_decimal member] at notDigit
    cases notDigit

theorem networkName_of_unknown {magic : UInt32}
    (notMainnet : magic ≠ networkMainnet)
    (notTestnet : magic ≠ networkTestnet) :
    networkName magic = signedDecimal (shownInt magic) := by
  rw [networkName, if_neg notMainnet, if_neg notTestnet, snprintf_percentD]

private theorem eq_of_networkName_eq_known {known other : UInt32}
    (isKnown : known = networkMainnet ∨ known = networkTestnet)
    (equal : networkName known = networkName other) : known = other := by
  by_cases mainnet : other = networkMainnet
  · rcases isKnown with rfl | rfl
    · exact mainnet.symm
    · subst mainnet
      exact absurd equal (by decide)
  · by_cases testnet : other = networkTestnet
    · rcases isKnown with rfl | rfl
      · subst testnet
        exact absurd equal (by decide)
      · exact testnet.symm
    · rw [networkName_of_unknown mainnet testnet] at equal
      rcases isKnown with rfl | rfl
      · exact
          absurd equal.symm
            (signedDecimal_ne_of_mem (show 'N' ∈ _ by decide) (by decide)
              (by decide) _)
      · exact
          absurd equal.symm
            (signedDecimal_ne_of_mem (show 'N' ∈ _ by decide) (by decide)
              (by decide) _)

/-- The names of the known networks are the names of no others. -/
theorem networkName_eq_iff {first second : UInt32} :
    networkName first = networkName second ↔
      shownInt first = shownInt second := by
  have known {magic : UInt32}
      (isKnown : magic = networkMainnet ∨ magic = networkTestnet) :
      0 ≤ shownInt magic := by
    rcases isKnown with rfl | rfl <;> decide
  by_cases firstKnown :
    first = networkMainnet ∨ first = networkTestnet
  · constructor
    · intro equal
      rw [eq_of_networkName_eq_known firstKnown equal]
    · intro equal
      rw [eq_of_shownInt_eq (known firstKnown) equal]
  · by_cases secondKnown :
      second = networkMainnet ∨ second = networkTestnet
    · constructor
      · intro equal
        rw [eq_of_networkName_eq_known secondKnown equal.symm]
      · intro equal
        rw [eq_of_shownInt_eq (known secondKnown) equal.symm]
    · rw [not_or] at firstKnown secondKnown
      rw [networkName_of_unknown firstKnown.1 firstKnown.2,
        networkName_of_unknown secondKnown.1 secondKnown.2]
      exact ⟨signedDecimal_injective, congrArg signedDecimal⟩

theorem toUInt64_injective {first second : Int64}
    (equal : first.toUInt64 = second.toUInt64) : first = second := by
  have signed := congrArg UInt64.toInt64 equal
  rwa [Int64.toInt64_toUInt64, Int64.toInt64_toUInt64] at signed

theorem feeText_injective {first second : Int64}
    (equal : feeText first.toUInt64 = feeText second.toUInt64) :
    first = second := by
  have digits := List.append_cancel_left equal
  exact toUInt64_injective
    (UInt64.toNat_inj.mp (fixedDecimal_injective digits))

theorem tokenAmountText_eq_iff {first second : Transaction} :
    tokenAmountText first = tokenAmountText second ↔
      first.isNeo = second.isNeo ∧ first.amount = second.amount := by
  constructor
  · intro equal
    have isNeo : first.isNeo = second.isNeo := by
      unfold tokenAmountText at equal
      cases firstNeo : first.isNeo <;> cases secondNeo : second.isNeo <;>
        simp [firstNeo, secondNeo] at equal ⊢
    refine ⟨isNeo, ?_⟩
    unfold tokenAmountText Transaction.decimals at equal
    rw [isNeo] at equal
    have digits := (List.cons.inj (List.append_cancel_left equal)).2
    exact toUInt64_injective
      (UInt64.toNat_inj.mp (fixedDecimal_injective digits))
  · rintro ⟨isNeo, amount⟩
    rw [tokenAmountText, tokenAmountText, Transaction.decimals,
      Transaction.decimals, isNeo, amount]

/-- The destination screen shows the address of the receiver. -/
theorem ReviewedTransfer.address_eq
    {sdk : Sdk} {b : List UInt8} {app : App}
    (reviewed : ReviewedTransfer sdk b app) :
    snprintf 35 (cString app.context.transaction.dstAddress) =
        addressText sdk
          (scriptDestination (app.context.transaction.scriptBytes b)) ∧
      (scriptDestination (app.context.transaction.scriptBytes b)).length =
        uint160Len := by
  rcases reviewed.accepted.decoded with
    ⟨layout, transfer, _, isTransfer, decoded, _, _, address⟩
  have script :
      app.context.transaction.scriptBytes b = layout.script.bytes :=
    decoded.script
  have length : transfer.destination.length = uint160Len := isTransfer.1
  rw [script, scriptDestination_eq isTransfer]
  refine ⟨?_, length⟩
  have text := length_addressText sdk length
  have string :
      cString (addressText sdk transfer.destination) =
        addressText sdk transfer.destination := by
    have whole :=
      cString_append_zeros
        (zero_not_mem_base58Text (addressBytes sdk transfer.destination)) 0
    rwa [zeros, List.replicate_zero, List.append_nil] at whole
  have room : Transaction.zero.dstAddress.length = addressLen :=
    List.length_replicate
  rw [address, scriptHashToAddress_eq sdk length room, string, snprintf,
    List.take_of_length_le]
  rw [text]
  exact Nat.le_refl _

theorem ReviewedTransfer.staticScreens_eq
    {sdk : Sdk} {b : List UInt8} {app : App}
    (reviewed : ReviewedTransfer sdk b app) :
    (uiDisplayTransaction app).1.ui.staticScreens =
      { address :=
          addressText sdk
            (scriptDestination (app.context.transaction.scriptBytes b))
        text := tokenAmountText app.context.transaction
        network := networkName app.context.networkMagic
        systemFee := feeText app.context.transaction.systemFee.toUInt64
        networkFee := feeText app.context.transaction.networkFee.toUInt64
        totalFees :=
          feeText
            (app.context.transaction.networkFee.toUInt64 +
              app.context.transaction.systemFee.toUInt64)
        validUntilBlock :=
          signedDecimal
            (shownInt app.context.transaction.validUntilBlock) } := by
  have isTransfer := reviewed.accepted.isTransfer
  rw [uiDisplayTransaction_eq reviewed.isTransaction reviewed.isParsed,
    ← reviewed.address_eq.1, ← reviewUi_address app.ui isTransfer,
    ← reviewUi_text app.ui isTransfer, ← snprintf_percentD]
  rfl

/-- What equal screens say, and nothing more. -/
theorem staticScreens_eq_iff
    {sdk : Sdk} {firstBytes secondBytes : List UInt8} {first second : App}
    (firstReviewed : ReviewedTransfer sdk firstBytes first)
    (secondReviewed : ReviewedTransfer sdk secondBytes second) :
    (uiDisplayTransaction first).1.ui.staticScreens =
        (uiDisplayTransaction second).1.ui.staticScreens ↔
      SameTransfer first.context second.context firstBytes secondBytes ∧
        shownInt first.context.networkMagic =
          shownInt second.context.networkMagic ∧
        shownInt first.context.transaction.validUntilBlock =
          shownInt second.context.transaction.validUntilBlock := by
  rw [firstReviewed.staticScreens_eq, secondReviewed.staticScreens_eq,
    StaticScreens.mk.injEq, networkName_eq_iff, tokenAmountText_eq_iff]
  constructor
  · rintro ⟨address, ⟨token, amount⟩, network, systemFee, networkFee, _,
      validUntilBlock⟩
    exact
      ⟨{ token := token
         amount := amount
         destination :=
           addressText_injective sdk firstReviewed.address_eq.2
             secondReviewed.address_eq.2 address
         systemFee := feeText_injective systemFee
         networkFee := feeText_injective networkFee },
        network, signedDecimal_injective validUntilBlock⟩
  · rintro ⟨same, network, validUntilBlock⟩
    rw [same.destination, same.systemFee, same.networkFee, validUntilBlock]
    exact ⟨rfl, ⟨same.token, same.amount⟩, network, rfl, rfl, rfl, rfl⟩

/-- The static screens determine the request exactly when no number that the
screens cut off makes the difference. -/
theorem staticScreens_determine_iff
    (sdk : Sdk) (firstBytes secondBytes : List UInt8) (first second : App)
    (firstReviewed : ReviewedTransfer sdk firstBytes first)
    (secondReviewed : ReviewedTransfer sdk secondBytes second) :
    ((uiDisplayTransaction first).1.ui.staticScreens =
        (uiDisplayTransaction second).1.ui.staticScreens →
      SameRequest first.context second.context firstBytes secondBytes) ↔
      ¬ (SameTransfer first.context second.context firstBytes secondBytes ∧
        shownInt first.context.networkMagic =
          shownInt second.context.networkMagic ∧
        shownInt first.context.transaction.validUntilBlock =
          shownInt second.context.transaction.validUntilBlock ∧
        ¬ (first.context.networkMagic = second.context.networkMagic ∧
          first.context.transaction.validUntilBlock =
            second.context.transaction.validUntilBlock)) := by
  rw [staticScreens_eq_iff firstReviewed secondReviewed]
  constructor
  · rintro determines ⟨same, network, height, different⟩
    have request := determines ⟨same, network, height⟩
    exact different ⟨request.networkMagic, request.validUntilBlock⟩
  · rintro noLoss ⟨same, network, height⟩
    by_cases equal :
      first.context.networkMagic = second.context.networkMagic ∧
        first.context.transaction.validUntilBlock =
          second.context.transaction.validUntilBlock
    · exact ⟨same, equal.1, equal.2⟩
    · exact absurd ⟨same, network, height, equal⟩ noLoss

/-- The transaction `tx` on the network `magic`, before its review. -/
def reviewApp (tx : Transaction) (magic : UInt32) : App where
  context := { parsedContext tx with networkMagic := magic }
  ui := Ui.initial

theorem AcceptedTransfer.reviewed
    {sdk : Sdk} {b : List UInt8} {tx : Transaction}
    (accepted : AcceptedTransfer sdk b tx) (magic : UInt32) :
    ReviewedTransfer sdk b (reviewApp tx magic) :=
  ⟨accepted, rfl, rfl⟩

theorem staticScreens_determine_iff_oneNeo :
    let first := reviewApp oneNeo networkMainnet
    let second := reviewApp oneNeo networkTestnet
    ((uiDisplayTransaction first).1.ui.staticScreens =
        (uiDisplayTransaction second).1.ui.staticScreens →
      SameRequest first.context second.context oneNeoTransaction
        oneNeoTransaction) ↔
      ¬ (SameTransfer first.context second.context oneNeoTransaction
          oneNeoTransaction ∧
        shownInt first.context.networkMagic =
          shownInt second.context.networkMagic ∧
        shownInt first.context.transaction.validUntilBlock =
          shownInt second.context.transaction.validUntilBlock ∧
        ¬ (first.context.networkMagic = second.context.networkMagic ∧
          first.context.transaction.validUntilBlock =
            second.context.transaction.validUntilBlock)) :=
  staticScreens_determine_iff Sdk.constant oneNeoTransaction
    oneNeoTransaction _ _ (acceptedTransfer_oneNeo.reviewed networkMainnet)
    (acceptedTransfer_oneNeo.reviewed networkTestnet)

/-- Two networks on which the same transfer has the same screens: both show
`-214748364`. -/
theorem staticScreens_collision :
    (ReviewedTransfer Sdk.constant oneNeoTransaction
        (reviewApp oneNeo 0x80000000) ∧
      ReviewedTransfer Sdk.constant oneNeoTransaction
        (reviewApp oneNeo 0x80000001)) ∧
      ¬ ((uiDisplayTransaction
            (reviewApp oneNeo 0x80000000)).1.ui.staticScreens =
          (uiDisplayTransaction
            (reviewApp oneNeo 0x80000001)).1.ui.staticScreens →
        SameRequest (reviewApp oneNeo 0x80000000).context
          (reviewApp oneNeo 0x80000001).context oneNeoTransaction
          oneNeoTransaction) := by
  refine ⟨⟨acceptedTransfer_oneNeo.reviewed _,
    acceptedTransfer_oneNeo.reviewed _⟩, ?_⟩
  intro determines
  have sameMagic : (0x80000000 : UInt32) = 0x80000001 :=
    (determines (by decide +kernel)).networkMagic
  exact absurd sameMagic (by decide)

end Neo3App
