import Neo3App.Ui.ReviewScreens

/-!
# Walking forward over the signers

The titles and texts that `get_next_data` prints on a walk over all signers,
and what they say of the signers.  The name of a scope is printed into
`g_scope`, which keeps what earlier screens left there.
-/

namespace Neo3App

open Neo3App.Lib

/-- The most screens that the signers of a transaction have. -/
def maxSignerScreens : Nat :=
  maxTxSigners * (3 + 2 * maxSignerSubItems)

/-- The titles and texts of at most `count` screens from the one shown. -/
def walkSigners (context : GlobalCtx) :
    Nat → Ui → List (List Char × List Char)
  | 0, _ => []
  | count + 1, ui =>
      match getNextData context .forward ui with
      | (true, ui) => (ui.title, ui.text) :: walkSigners context count ui
      | (false, _) => []

/-- The titles and texts of the signer screens, from the start of a
review. -/
def signerWalk (context : GlobalCtx) (ui : Ui) :
    List (List Char × List Char) :=
  walkSigners context (maxSignerScreens + 1)
    { ui with displayCtx := resetSignerDisplayState }

/-- What `g_scope` may hold: nothing at first, and then what a scope screen
has left there. -/
inductive ScopeBuffer : List Char → Prop where
  | cleared : ScopeBuffer []
  | shown {before : List Char} (earlier : ScopeBuffer before)
      {scope : UInt8} (valid : scope = 0x80 ∨ scope &&& 0x80 ≠ 0x80) :
      ScopeBuffer (parseScopeName scope before).1

/-- The text of a signer screen does not depend on the screens shown
before. -/
def TextsIndependent (context : GlobalCtx) : Prop :=
  ∀ i, i < context.transaction.signersSize.toNat →
    ∀ screen : SignerScreen,
      screen.Exists (slot context.transaction.signers i) →
        ∀ first second : Ui, ScopeBuffer first.scope →
          ScopeBuffer second.scope →
          first.displayCtx =
              screen.ctx (slot context.transaction.signers i) i →
            second.displayCtx =
                screen.ctx (slot context.transaction.signers i) i →
              (renderProperty context first).2.text =
                (renderProperty context second).2.text

/-- A scope without a name: it has flags, but none that is printed. -/
def UnnamedScope (scope : UInt8) : Prop :=
  scope ≠ scopeNone ∧ scope ≠ scopeGlobal ∧ scope &&& 0x31 = 0

instance (scope : UInt8) : Decidable (UnnamedScope scope) :=
  inferInstanceAs (Decidable (_ ∧ _ ∧ _))

/-- The text of a scope screen when `g_scope` is empty before. -/
def scopeText (scope : UInt8) : List Char :=
  percentS (parseScopeName scope []).2 (parseScopeName scope []).1

theorem forall_uint8 {property : UInt8 → Prop}
    (each : ∀ n : Fin 256, property (UInt8.ofNat n.val)) (scope : UInt8) :
    property scope := by
  have value := each ⟨scope.toNat, scope.toNat_lt⟩
  rwa [UInt8.ofNat_toNat] at value

/-- A scope with a name is printed over what was there. -/
theorem parseScopeName_named
    {scope : UInt8} (named : ¬ UnnamedScope scope) (gScope : List Char) :
    parseScopeName scope gScope = parseScopeName scope [] := by
  have flags :
      scope = scopeNone ∨ scope = scopeGlobal ∨
        (scope &&& scopeCalledByEntry != 0) = true ∨
          (scope &&& scopeCustomContracts != 0) = true ∨
            (scope &&& scopeCustomGroups != 0) = true := by
    revert scope
    apply forall_uint8
    decide +kernel
  unfold parseScopeName appendScope printScope
  rcases flags with rfl | rfl | entry | contracts | groups
  · simp
  · simp
  · simp [entry]
  · cases entry : scope &&& scopeCalledByEntry != 0 <;> simp [contracts]
  · cases entry : scope &&& scopeCalledByEntry != 0 <;>
      cases contracts : scope &&& scopeCustomContracts != 0 <;>
        simp [groups]

theorem parseScopeName_unnamed
    {scope : UInt8} (unnamed : UnnamedScope scope) (gScope : List Char) :
    parseScopeName scope gScope = (gScope, -1) := by
  obtain ⟨notNone, notGlobal, noFlag⟩ := unnamed
  have flags :
      (scope &&& scopeCalledByEntry != 0) = false ∧
        (scope &&& scopeCustomContracts != 0) = false ∧
          (scope &&& scopeCustomGroups != 0) = false := by
    clear notNone notGlobal
    revert scope
    apply forall_uint8
    decide +kernel
  obtain ⟨entry, contracts, groups⟩ := flags
  simp [parseScopeName, appendScope, notNone, notGlobal, entry, contracts,
    groups]

/-- The title and the text of a screen of a signer. -/
def Screen.caption (context : GlobalCtx) :
    Screen → List Char × List Char
  | .static _ => ([], [])
  | .signer i screen =>
      (snprintf 64 (screen.title (slot context.transaction.signers i)),
        snprintf 64 (screen.text context i []))

def NamedScopes (tx : Transaction) : Prop :=
  ∀ i, i < tx.signersSize.toNat →
    ¬ UnnamedScope (slot tx.signers i).scope

theorem SignerScreen.text_named
    {context : GlobalCtx} {i : Nat}
    (named : ¬ UnnamedScope (slot context.transaction.signers i).scope)
    (screen : SignerScreen) (gScope : List Char) :
    screen.text context i gScope = screen.text context i [] := by
  cases screen with
  | scope =>
      simp only [SignerScreen.text, parseScopeName_named named gScope]
  | index | account | contract | group =>
      rfl

section

variable {context : GlobalCtx} (sizes : ReviewSizes context.transaction)

include sizes

/-- `next_prop` moves to the next screen of a signer. -/
theorem nextProp_screen
    {screen : Screen} {i : Nat} {next : SignerScreen}
    (adjacent :
      Screen.Adjacent context.transaction screen (.signer i next))
    (state : ScreenState) :
    nextProp context.transaction 2
          ((screen.ctx context.transaction).setState state) =
        (next.ctx (slot context.transaction.signers i) i).setState state ∧
      i < context.transaction.signersSize.toNat ∧
        next.Exists (slot context.transaction.signers i) := by
  cases adjacent with
  | enter =>
      exact
        ⟨(nextProp_before_contracts _ 1 state _ _ _).1, sizes.some, trivial⟩
  | within inside adjacent =>
      exact
        ⟨nextProp_adjacent sizes inside adjacent state, inside,
          adjacent.exists_right⟩
  | nextSigner more =>
      refine ⟨?_, more, trivial⟩
      refine
        (nextProp_lastScreen sizes (Nat.lt_of_succ_lt more) state).trans ?_
      rw [if_pos more]
      rfl

/-- The walk shows the screens that follow in the list. -/
theorem walkSigners_eq
    (named : NamedScopes context.transaction) (state : ScreenState)
    (later : List (Nat × SignerScreen)) :
    ∀ (screen : Screen) (ui : Ui) (count : Nat),
      (screen :: later.map fun next => .signer next.1 next.2).IsChain
          (Screen.Adjacent context.transaction) →
        (screen :: later.map fun next => .signer next.1 next.2).getLast? =
            some
              (.signer (context.transaction.signersSize.toNat - 1)
                (lastScreen
                  (slot context.transaction.signers
                    (context.transaction.signersSize.toNat - 1)))) →
          ui.displayCtx =
              (screen.ctx context.transaction).setState state →
            later.length < count →
              walkSigners context count ui =
                later.map fun next =>
                  Screen.caption context (.signer next.1 next.2) := by
  have some := sizes.some
  induction later with
  | nil =>
      intro screen ui count _ isLast here room
      cases isLast
      have moves :
          moveCtx context.transaction .forward ui.displayCtx =
            (endCtx context.transaction).setState state := by
        rw [here]
        refine (nextProp_lastScreen sizes (by omega) state).trans ?_
        rw [if_neg (by omega)]
        rfl
      cases count with
      | zero =>
          cases room
      | succ count =>
          rw [walkSigners, getNextData_static ui moves (.inr rfl)]
          rfl
  | cons next later ih =>
      intro screen ui count chain isLast here room
      obtain ⟨adjacent, rest⟩ := List.isChain_cons_cons.mp chain
      obtain ⟨moves, inside, isThere⟩ :=
        nextProp_screen sizes adjacent state
      rw [← here] at moves
      cases count with
      | zero =>
          cases room
      | succ count =>
          have after :=
            ih (.signer next.1 next.2)
              (next.2.render context next.1
                { ui with
                  displayCtx :=
                    (next.2.ctx (slot context.transaction.signers next.1)
                      next.1).setState state })
              count rest
              (by rwa [List.map_cons, List.getLast?_cons_cons] at isLast) rfl
              (Nat.lt_of_succ_lt_succ room)
          rw [walkSigners,
            getNextData_signer sizes inside isThere .forward ui state moves]
          dsimp only
          rw [after, List.map_cons]
          congr 1
          refine Prod.ext rfl ?_
          exact
            congrArg (snprintf 64)
              (SignerScreen.text_named (named next.1 inside) next.2 ui.scope)

omit sizes in
theorem signers_map_pairs (tx : Transaction) :
    (List.range tx.signersSize.toNat).flatMap (screensOf tx) =
      ((List.range tx.signersSize.toNat).flatMap fun i =>
        (signerScreens (slot tx.signers i)).map fun screen =>
          (i, screen)).map fun next => .signer next.1 next.2 := by
  rw [List.map_flatMap]
  congr 1
  funext i
  rw [screensOf, List.map_map]
  rfl

theorem length_signers
    {count : Nat} (bound : count ≤ context.transaction.signersSize.toNat) :
    ((List.range count).flatMap (screensOf context.transaction)).length ≤
      count * 7 := by
  induction count with
  | zero =>
      exact Nat.zero_le _
  | succ count ih =>
      have contracts := sizes.contracts count (by omega)
      have groups := sizes.groups count (by omega)
      have last : (screensOf context.transaction count).length ≤ 7 := by
        simp [screensOf, signerScreens]
        omega
      have earlier := ih (by omega)
      rw [List.range_succ, List.flatMap_append, List.flatMap_singleton,
        List.length_append]
      omega

/-- The walk shows all screens of the signers, in order. -/
theorem signerWalk_eq
    (named : NamedScopes context.transaction) (ui : Ui) :
    signerWalk context ui =
      ((List.range context.transaction.signersSize.toNat).flatMap
        (screensOf context.transaction)).map (Screen.caption context) := by
  have some := sizes.some
  have few := sizes.few
  have room :
      ((List.range context.transaction.signersSize.toNat).flatMap
        (screensOf context.transaction)).length < maxSignerScreens + 1 := by
    have bound := length_signers sizes (Nat.le_refl _)
    change _ < 15
    omega
  have chain := signers_isChain context.transaction (Nat.le_refl _)
  rcases sizeEq : context.transaction.signersSize.toNat with _ | count
  · omega
  rw [sizeEq] at room chain
  have isFirst :
      (Screen.static .validUntilBlock ::
        (List.range (count + 1)).flatMap
          (screensOf context.transaction)).IsChain
        (Screen.Adjacent context.transaction) := by
    rw [List.range_succ_eq_map] at chain ⊢
    exact .cons_cons .enter chain
  have isLast :
      (Screen.static .validUntilBlock ::
        (List.range (count + 1)).flatMap
          (screensOf context.transaction)).getLast? =
        Option.some
          (.signer count
            (lastScreen (slot context.transaction.signers count))) := by
    rw [List.range_succ, List.flatMap_append, List.flatMap_singleton,
      ← List.cons_append, List.getLast?_append, getLast?_screensOf]
    rfl
  have pairs := signers_map_pairs context.transaction
  rw [sizeEq] at pairs
  have walk :=
    walkSigners_eq sizes named .staticScreen
      ((List.range (count + 1)).flatMap fun i =>
        (signerScreens (slot context.transaction.signers i)).map
          fun screen => (i, screen))
      (.static .validUntilBlock)
      { ui with displayCtx := resetSignerDisplayState }
      (maxSignerScreens + 1)
  rw [← pairs, sizeEq] at walk
  rw [pairs, List.length_map] at room
  refine (walk isFirst isLast rfl room).trans ?_
  rw [pairs, List.map_map]
  rfl

end

end Neo3App
