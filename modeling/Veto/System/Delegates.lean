import Veto.Mandate.Run
import Veto.Trade.Run

/-!
# One delegate for many rules

A token account has one delegate, and any number of mandates and trade rules may name it
as their source.  Six instructions write to that slot or close an account that may hold
it.  Four of them leave a slot alone that another rule holds; `open_mandate` and
`revoke_mandate` do not look.
-/

namespace Veto

open Foundation

/-! ## All mandates and trade rules -/

/-- Every mandate and trade rule of the program, and the accounts of other programs. -/
structure VetoState where
  mandates : Pubkey → Option (Mandate × Ledger)
  rules : Pubkey → Option (TradeRule × TradeLedger)
  world : World

namespace VetoState

def mandateAt (s : VetoState) (k : Pubkey) : Except ProgramError MandateState :=
  match s.mandates k with
  | some (m, l) => .ok { key := k, mandate := m, ledger := l, world := s.world }
  | none => .error (.anchor .accountNotInitialized)

def ruleAt (s : VetoState) (k : Pubkey) : Except ProgramError TradeState :=
  match s.rules k with
  | some (r, l) => .ok { key := k, rule := r, ledger := l, world := s.world }
  | none => .error (.anchor .accountNotInitialized)

/-- No account of the program stands at the address. -/
def free (s : VetoState) (k : Pubkey) : Except ProgramError Unit :=
  require (s.mandates k = none ∧ (s.rules k).isNone) (.anchor .accountAlreadyInUse)

def putMandate (s : VetoState) (m : MandateState) : VetoState :=
  { s with mandates := Function.update s.mandates m.key (some (m.mandate, m.ledger))
           world := m.world }

def putRule (s : VetoState) (r : TradeState) : VetoState :=
  { s with rules := Function.update s.rules r.key (some (r.rule, r.ledger)), world := r.world }

/-- A mandate or a trade rule that is open and active. -/
def Live (s : VetoState) (k : Pubkey) : Prop :=
  (∃ m l, s.mandates k = some (m, l) ∧ m.status = .active) ∨
    ∃ r l, s.rules k = some (r, l) ∧ r.status = .active

end VetoState

/-- The instructions that approve, revoke or close. -/
inductive DelegationInstr
  | openMandate (accts : OpenMandate) (args : OpenMandateArgs)
  | revokeMandate (mandate : Pubkey) (accts : OwnerAction)
  | closeMandate (mandate : Pubkey) (accts : CloseMandate)
  | openTradeRule (accts : OpenTradeRule) (args : OpenTradeRuleArgs)
  | revokeTradeRule (rule : Pubkey) (accts : RevokeTradeRule)
  | closeTradeRule (rule : Pubkey) (accts : CloseTradeRule)

/-- The mandate or trade rule an instruction is about. -/
def DelegationInstr.key : DelegationInstr → Pubkey
  | openMandate accts _ => accts.mandate
  | revokeMandate mandate _ => mandate
  | closeMandate mandate _ => mandate
  | openTradeRule accts _ => accts.rule
  | revokeTradeRule rule _ => rule
  | closeTradeRule rule _ => rule

def VetoState.exec (rt : Runtime) (now : Int64) (signers : List Pubkey) (s : VetoState) :
    DelegationInstr → Except ProgramError VetoState
  | .openMandate accts args => do
      s.free accts.mandate
      let opened ← openMandate rt now signers accts args s.world
      return s.putMandate opened.2
  | .revokeMandate mandate accts => do
      let before ← s.mandateAt mandate
      let revoked ← revokeMandate rt now signers accts before
      return s.putMandate revoked.2
  | .closeMandate mandate accts => do
      let before ← s.mandateAt mandate
      let closing ← closeMandate rt signers accts before
      return { s with mandates := Function.update s.mandates mandate none
                      world := closing.world }
  | .openTradeRule accts args => do
      s.free accts.rule
      let opened ← openTradeRule rt now signers accts args s.world
      return s.putRule opened.2
  | .revokeTradeRule rule accts => do
      let before ← s.ruleAt rule
      let revoked ← revokeTradeRule rt now signers accts before
      return s.putRule revoked.2
  | .closeTradeRule rule accts => do
      let before ← s.ruleAt rule
      let closing ← closeTradeRule rt now signers accts before
      return { s with rules := Function.update s.rules rule none, world := closing.world }

/-! ## Who holds a slot -/

/-- A live mandate or trade rule other than `key` is the delegate of this account. -/
def VetoState.HeldByOther (s : VetoState) (account key : Pubkey) : Prop :=
  ∃ a d, s.world.tokenAt account = some a ∧ a.delegate = some d ∧ d ≠ key ∧ s.Live d

/-- No account loses a delegate that is a live rule other than `key`, nor any of what is
delegated to it. -/
def VetoState.Undisturbed (s s' : VetoState) (key : Pubkey) : Prop :=
  ∀ k a d, s.world.tokenAt k = some a → a.delegate = some d → d ≠ key → s.Live d →
    ∃ a', s'.world.tokenAt k = some a' ∧ a'.delegate = some d ∧
      a'.delegatedAmount = a.delegatedAmount

/-- The instructions that take a slot without asking who holds it. -/
def DelegationInstr.TakesSlot (s : VetoState) : DelegationInstr → Prop
  | openMandate accts _ => s.HeldByOther accts.source accts.mandate
  | revokeMandate mandate accts => s.HeldByOther accts.source mandate
  | _ => False

section Slot

variable {s s' : VetoState} {source key : Pubkey} {program : Pubkey} {a : TokenAccount}

theorem undisturbed_of_world_eq (h : s'.world = s.world) : s.Undisturbed s' key := by
  intro k a d hk hd _ _
  exact ⟨a, by rw [h]; exact hk, hd, rfl⟩

theorem World.tokenAt_set_of_ne (w : World) {k source : Pubkey} (info : AccountInfo)
    (hne : k ≠ source) : (w.set source info).tokenAt k = w.tokenAt k := by
  unfold World.tokenAt
  rw [World.set_of_ne _ _ hne]

/-- Rewriting one account disturbs nobody as long as no other rule holds its slot. -/
theorem undisturbed_of_set {info : AccountInfo} (h : s'.world = s.world.set source info)
    (hfree : ¬ s.HeldByOther source key) : s.Undisturbed s' key := by
  intro k a d hk hd hne hlive
  by_cases hsource : k = source
  · subst hsource
    exact absurd ⟨a, d, hk, hd, hne, hlive⟩ hfree
  · refine ⟨a, ?_, hd, rfl⟩
    rw [h, World.tokenAt_set_of_ne _ _ hsource]
    exact hk

/-- A held slot that names nobody, or the rule itself, afterwards was taken. -/
theorem disturbed_of_set {a' : TokenAccount}
    (h : s'.world = s.world.set source ⟨program, .token a'⟩)
    (htaken : ∀ d, a'.delegate = some d → d = key) (hheld : s.HeldByOther source key) :
    ¬ s.Undisturbed s' key := by
  intro hkept
  obtain ⟨b, d, hb, hd, hne, hlive⟩ := hheld
  obtain ⟨b', hb', hd', -⟩ := hkept source b d hb hd hne hlive
  rw [h, World.tokenAt_eq (World.set_self _ _ _), Option.some.injEq] at hb'
  subst hb'
  exact hne (htaken d hd')

/-- An account whose delegate is the rule itself, or nobody, is not held by another. -/
theorem not_heldByOther (hsource : s.world.tokenAt source = some a)
    (hown : ∀ d, a.delegate = some d → d = key) : ¬ s.HeldByOther source key := by
  rintro ⟨b, d, hb, hd, hne, -⟩
  rw [hsource, Option.some.injEq] at hb
  subst hb
  exact hne (hown d hd)

end Slot

/-! ## The six instructions -/

section Instructions

variable {rt : Runtime} {now : Int64} {signers : List Pubkey}

/-- A mandate that was opened is its source's delegate. -/
theorem openMandate_approves (htoken : rt.token.DecidesDelegation) {accts : OpenMandate}
    {args : OpenMandateArgs} {w : World} {o : MandateOutput} {m : MandateState}
    (h : openMandate rt now signers accts args w = .ok (o, m)) :
    ∃ a : TokenAccount, m.world = w.set accts.source ⟨accts.tokenProgram, .token
      { a with delegate := some accts.mandate, delegatedAmount := args.cap }⟩ := by
  have hopened := openMandate_opened h
  obtain ⟨decimals, hw⟩ := hopened.approved
  obtain ⟨a, -, ha⟩ := htoken.approves _ _ _ _ _ _ hw
  exact ⟨a, by rw [ha, hopened.named]⟩

theorem revokeMandate_revokes (htoken : rt.token.DecidesDelegation) {accts : OwnerAction}
    {o : MandateOutput} {m m' : MandateState}
    (h : revokeMandate rt now signers accts m = .ok (o, m')) :
    ∃ a : TokenAccount, m'.world = m.world.set accts.source ⟨accts.tokenProgram, .token
      { a with delegate := none, delegatedAmount := 0 }⟩ := by
  unfold revokeMandate at h
  obtain ⟨source, -, h⟩ := bind_ok_iff.mp h
  obtain ⟨-, h⟩ := require_bind_ok_iff.mp h
  obtain ⟨w, hw, h⟩ := bind_ok_iff.mp h
  rw [okOr_eq_ok] at hw
  obtain ⟨a, -, ha⟩ := htoken.revokes _ _ _ _ hw
  cases h
  exact ⟨a, ha⟩

theorem closeMandate_world {accts : CloseMandate} {m : MandateState} {closing : Closing}
    (h : closeMandate rt signers accts m = .ok closing) : closing.world = m.world := by
  unfold closeMandate at h
  obtain ⟨_, -, h⟩ := bind_ok_iff.mp h
  obtain ⟨-, h⟩ := require_bind_ok_iff.mp h
  cases h
  rfl

/-- A trade rule is opened over a source that nobody else is a delegate of. -/
theorem openTradeRule_approves (htoken : rt.token.DecidesDelegation) {accts : OpenTradeRule}
    {args : OpenTradeRuleArgs} {w : World} {o : TradeOutput} {r : TradeState}
    (h : openTradeRule rt now signers accts args w = .ok (o, r)) :
    (∃ a, w.tokenAt accts.source = some a ∧ ∀ d, a.delegate = some d → d = accts.rule) ∧
      ∃ info, r.world = w.set accts.source info := by
  unfold openTradeRule at h
  simp only [vacant, classicProgram] at h
  simp only [↓signer_bind_ok_iff, ↓require_bind_ok_iff, bind_ok_iff] at h
  obtain ⟨-, hkey, -, -, -, source, hsource, destination, -, inMint, -, outMint, -, h⟩ := h
  obtain ⟨-, -, -, -, -, -, -, -, -, -, -, -, -, -, -, h⟩ := h
  obtain ⟨_, -, hslot, w', hw, h⟩ := h
  rw [okOr_eq_ok] at hw
  obtain ⟨a, -, ha⟩ := htoken.approves _ _ _ _ _ _ hw
  cases h
  refine ⟨⟨source, World.tokenAt_of_load hsource, ?_⟩, _, ha⟩
  intro d hd
  rw [hd, Option.all_some, decide_eq_true_eq] at hslot
  rw [hslot, hkey]

/-- Revoking a trade rule clears the slot only where the rule holds it. -/
theorem revokeTradeRule_revokes (htoken : rt.token.DecidesDelegation) {accts : RevokeTradeRule}
    {o : TradeOutput} {r r' : TradeState}
    (h : revokeTradeRule rt now signers accts r = .ok (o, r')) :
    r'.world = r.world ∨
      (∃ a, r.world.tokenAt accts.source = some a ∧ a.delegate = some r.key) ∧
        ∃ info, r'.world = r.world.set accts.source info := by
  unfold revokeTradeRule at h
  obtain ⟨source, hload, h⟩ := bind_ok_iff.mp h
  obtain ⟨-, h⟩ := require_bind_ok_iff.mp h
  obtain ⟨w, hw, h⟩ := bind_ok_iff.mp h
  unfold RevokeTradeRule.load classicProgram at hload
  simp only [↓signer_bind_ok_iff, ↓require_bind_ok_iff, bind_ok_iff] at hload
  obtain ⟨-, -, -, -, source', hsource, -, hload⟩ := hload
  cases hload
  cases h
  unfold RevokeTradeRule.dropDelegation at hw
  split at hw
  · rename_i hdelegate
    rw [okOr_eq_ok] at hw
    obtain ⟨a, -, ha⟩ := htoken.revokes _ _ _ _ hw
    exact .inr ⟨⟨source, World.tokenAt_of_load hsource, hdelegate.1⟩, _, ha⟩
  · cases hw
    exact .inl rfl

theorem delegate_of_shouldRevoke {w : World} {source rule : Pubkey}
    (h : shouldRevoke w source rule = true) :
    ∃ a, w.tokenAt source = some a ∧ a.delegate = some rule := by
  unfold shouldRevoke at h
  split at h
  · rename_i owner a hsource
    simp only [Bool.and_eq_true, decide_eq_true_eq] at h
    exact ⟨a, World.tokenAt_eq hsource, h.1.2⟩
  · cases h

/-- Closing a trade rule clears the slot only where the rule holds it. -/
theorem closeTradeRule_revokes (htoken : rt.token.DecidesDelegation) {accts : CloseTradeRule}
    {r : TradeState} {closing : Closing}
    (h : closeTradeRule rt now signers accts r = .ok closing) :
    closing.world = r.world ∨
      (∃ a, r.world.tokenAt accts.source = some a ∧ a.delegate = some r.key) ∧
        ∃ info, closing.world = r.world.set accts.source info := by
  unfold closeTradeRule at h
  obtain ⟨_, -, h⟩ := bind_ok_iff.mp h
  obtain ⟨-, h⟩ := require_bind_ok_iff.mp h
  obtain ⟨w, hw, h⟩ := bind_ok_iff.mp h
  cases h
  unfold CloseTradeRule.dropDelegation at hw
  split at hw
  · rename_i hrevoke
    rw [okOr_eq_ok] at hw
    obtain ⟨a, -, ha⟩ := htoken.revokes _ _ _ _ hw
    exact .inr ⟨delegate_of_shouldRevoke hrevoke, _, ha⟩
  · cases hw
    exact .inl rfl

theorem VetoState.mandateAt_eq_ok {s : VetoState} {k : Pubkey} {m : MandateState}
    (h : s.mandateAt k = .ok m) : m.key = k ∧ m.world = s.world := by
  unfold VetoState.mandateAt at h
  split at h
  · cases h
    exact ⟨rfl, rfl⟩
  · cases h

theorem VetoState.ruleAt_eq_ok {s : VetoState} {k : Pubkey} {r : TradeState}
    (h : s.ruleAt k = .ok r) : r.key = k ∧ r.world = s.world := by
  unfold VetoState.ruleAt at h
  split at h
  · cases h
    exact ⟨rfl, rfl⟩
  · cases h

/-- An instruction that clears the slot only where its own rule holds it disturbs nobody. -/
theorem undisturbed_of_own {s s' : VetoState} {source key : Pubkey}
    (h : s'.world = s.world ∨
      (∃ a, s.world.tokenAt source = some a ∧ a.delegate = some key) ∧
        ∃ info, s'.world = s.world.set source info) : s.Undisturbed s' key := by
  rcases h with hsame | ⟨⟨a, hsource, hown⟩, info, hset⟩
  · exact undisturbed_of_world_eq hsame
  · apply undisturbed_of_set hset
    apply not_heldByOther hsource
    intro d hd
    rw [hown, Option.some.injEq] at hd
    exact hd.symm

end Instructions

/-- **The shared delegate slot.**  In every state with any number of mandates and trade
rules, a step of the six instructions leaves every delegation to another live rule as it
was, exactly when it is not an opening or a revocation of a mandate over a source that
another live rule holds. -/
theorem undisturbed_iff {rt : Runtime} (htoken : rt.token.DecidesDelegation) {now : Int64}
    {signers : List Pubkey} {s s' : VetoState} {i : DelegationInstr}
    (hexec : s.exec rt now signers i = .ok s') :
    s.Undisturbed s' i.key ↔ ¬ i.TakesSlot s := by
  cases i with
  | openMandate accts args =>
      obtain ⟨_, -, hexec⟩ := bind_ok_iff.mp hexec
      obtain ⟨⟨o, m⟩, hopen, hexec⟩ := bind_ok_iff.mp hexec
      cases hexec
      obtain ⟨a, ha⟩ := openMandate_approves htoken hopen
      constructor
      · intro hkept hheld
        refine disturbed_of_set ha ?_ hheld hkept
        intro d hd
        exact (Option.some.inj hd).symm
      · exact undisturbed_of_set ha
  | revokeMandate mandate accts =>
      obtain ⟨before, hbefore, hexec⟩ := bind_ok_iff.mp hexec
      obtain ⟨⟨o, m⟩, hrevoke, hexec⟩ := bind_ok_iff.mp hexec
      cases hexec
      obtain ⟨-, hworld⟩ := VetoState.mandateAt_eq_ok hbefore
      obtain ⟨a, ha⟩ := revokeMandate_revokes htoken hrevoke
      rw [hworld] at ha
      constructor
      · intro hkept hheld
        refine disturbed_of_set ha ?_ hheld hkept
        intro d hd
        cases hd
      · exact undisturbed_of_set ha
  | closeMandate mandate accts =>
      obtain ⟨before, hbefore, hexec⟩ := bind_ok_iff.mp hexec
      obtain ⟨closing, hclose, hexec⟩ := bind_ok_iff.mp hexec
      cases hexec
      obtain ⟨-, hworld⟩ := VetoState.mandateAt_eq_ok hbefore
      have hsame := (closeMandate_world hclose).trans hworld
      exact iff_of_true (undisturbed_of_world_eq hsame) not_false
  | openTradeRule accts args =>
      obtain ⟨_, -, hexec⟩ := bind_ok_iff.mp hexec
      obtain ⟨⟨o, r⟩, hopen, hexec⟩ := bind_ok_iff.mp hexec
      cases hexec
      obtain ⟨⟨a, hsource, hown⟩, info, hset⟩ := openTradeRule_approves htoken hopen
      exact iff_of_true (undisturbed_of_set hset (not_heldByOther hsource hown)) not_false
  | revokeTradeRule rule accts =>
      obtain ⟨before, hbefore, hexec⟩ := bind_ok_iff.mp hexec
      obtain ⟨⟨o, r⟩, hrevoke, hexec⟩ := bind_ok_iff.mp hexec
      cases hexec
      obtain ⟨hkey, hworld⟩ := VetoState.ruleAt_eq_ok hbefore
      have howned := revokeTradeRule_revokes htoken hrevoke
      rw [hworld, hkey] at howned
      exact iff_of_true (undisturbed_of_own howned) not_false
  | closeTradeRule rule accts =>
      obtain ⟨before, hbefore, hexec⟩ := bind_ok_iff.mp hexec
      obtain ⟨closing, hclose, hexec⟩ := bind_ok_iff.mp hexec
      cases hexec
      obtain ⟨hkey, hworld⟩ := VetoState.ruleAt_eq_ok hbefore
      have howned := closeTradeRule_revokes htoken hclose
      rw [hworld, hkey] at howned
      exact iff_of_true (undisturbed_of_own howned) not_false

/-! ### A trade rule whose source a mandate takes -/

section Sample

/-- Trade rules at 100 with ledger 101, mandates at 200 with ledger 201, pool authority 21. -/
def sharedRuntime : Runtime :=
  .classic fun seeds => match seeds with
    | .text "trade" :: _ => 100
    | .text "trade-ledger" :: _ => 101
    | .text "mandate" :: _ => 200
    | .text "ledger" :: _ => 201
    | _ => 21

def sharedStart : VetoState :=
  { mandates := fun _ => none, rules := fun _ => none, world := tradeWorld }

/-- The trade rule of `tradeOpen`, over source 10. -/
def sharedOpenRule : DelegationInstr :=
  .openTradeRule
    { owner := 1, rule := 100, ledger := 101, source := 10, destination := 11, inMint := 3,
      outMint := 4, exchangeProgram := SPL_TOKEN_SWAP_ID, pool := 20, poolAuthority := 21,
      poolInVault := 22, poolOutVault := 23, poolMint := 24, poolFeeAccount := 25,
      tokenProgram := splTokenId }
    { ruleId := 7, agent := 2, exchangeKind := 0, cap := 100, perTradeMax := 40,
      dailyLimit := 90, floorNum := 1, floorDen := 1, expiresAt := 1000, purpose := "rebalance" }

/-- A mandate over the same source. -/
def sharedOpenMandate : DelegationInstr :=
  .openMandate
    { owner := 1, mandate := 200, ledger := 201, source := 10, mint := 3,
      tokenProgram := splTokenId }
    { mandateId := 7, agent := 2, merchant := 4, cap := 60, perTxMax := 40, expiresAt := 1000,
      purpose := "rent" }

def sharedRule : Except ProgramError VetoState :=
  sharedStart.exec sharedRuntime 10 [1] sharedOpenRule

set_option maxRecDepth 20000 in
theorem sharedRule_ok : sharedRule.toBool = true := by decide

def sharedTaken : Except ProgramError VetoState :=
  (okValue sharedRule sharedRule_ok).exec sharedRuntime 20 [1] sharedOpenMandate

set_option maxRecDepth 20000 in
theorem sharedTaken_ok : sharedTaken.toBool = true := by decide

def sharedRevoked : Except ProgramError VetoState :=
  (okValue sharedRule sharedRule_ok).exec sharedRuntime 20 [1]
    (.revokeTradeRule 100 ⟨1, 101, 10, splTokenId⟩)

set_option maxRecDepth 20000 in
theorem sharedRevoked_ok : sharedRevoked.toBool = true := by decide

/-- Revoking the rule disturbs no other. -/
theorem undisturbed_iff_sample :
    (okValue sharedRule sharedRule_ok).Undisturbed (okValue sharedRevoked sharedRevoked_ok) 100 :=
  (undisturbed_iff classicToken_delegates (eq_ok_okValue sharedRevoked sharedRevoked_ok)).mpr
    not_false

set_option maxRecDepth 20000 in
theorem sharedRule_live : (okValue sharedRule sharedRule_ok).Live 100 := by
  have hsome : ((okValue sharedRule sharedRule_ok).rules 100).any
      (fun r => r.1.status = .active) = true := by decide
  obtain ⟨⟨r, l⟩, hrule, hactive⟩ := (Option.any_eq_true _ _).mp hsome
  exact .inr ⟨r, l, hrule, of_decide_eq_true hactive⟩

set_option maxRecDepth 20000 in
/-- Opening the mandate took the slot from the live trade rule 100. -/
theorem opening_takes_slot :
    sharedRuntime.token.DecidesDelegation ∧
    sharedStart.exec sharedRuntime 10 [1] sharedOpenRule = .ok (okValue sharedRule sharedRule_ok) ∧
    (okValue sharedRule sharedRule_ok).exec sharedRuntime 20 [1] sharedOpenMandate =
      .ok (okValue sharedTaken sharedTaken_ok) ∧
    ¬ (okValue sharedRule sharedRule_ok).Undisturbed (okValue sharedTaken sharedTaken_ok) 200 := by
  refine ⟨classicToken_delegates, eq_ok_okValue sharedRule sharedRule_ok,
    eq_ok_okValue sharedTaken sharedTaken_ok, ?_⟩
  intro hkept
  have hbefore : (okValue sharedRule sharedRule_ok).world.tokenAt 10 =
      some ⟨3, 1, 500, some 100, 100, false⟩ := by decide
  have hafter : (okValue sharedTaken sharedTaken_ok).world.tokenAt 10 =
      some ⟨3, 1, 500, some 200, 60, false⟩ := by decide
  obtain ⟨a', ha', hd, -⟩ := hkept 10 _ 100 hbefore rfl (by decide) sharedRule_live
  rw [hafter, Option.some.injEq] at ha'
  subst ha'
  exact absurd hd (by decide)

end Sample

end Veto
