import Veto.Trade.State
import Veto.Trade.Floor

/-!
# The trade instructions

`trade.rs`: `open_trade_rule`, `trade`, `grant_trade_override` and
`revoke_trade_rule`, with the account contexts of `lib.rs`.  The exchange is an
arbitrary program: a trade carries whatever its call did, and charges the debit
it observes afterwards.
-/

namespace Veto

open Foundation

abbrev TradeOutput := Output TradeEntry TradeEvent

abbrev TradeResult := Except ProgramError (TradeOutput × TradeState)

def tradeSeeds (owner : Pubkey) (ruleId : UInt64) : List Seed :=
  [.text "trade", .key owner, .u64 ruleId]

def tradeLedgerSeeds (rule : Pubkey) : List Seed := [.text "trade-ledger", .key rule]

/-! ## Ledger entries -/

def tradeOpenedEntry (now : Int64) (cap : UInt64) (pool : Pubkey) : TradeEntry where
  ts := now
  amountIn := cap
  amountOut := 0
  minOut := 0
  counterparty := pool
  nonce := 0
  suggestedOverride := 0
  kind := .opened
  reason := .ok

def tradedEntry (now : Int64) (pool : Pubkey) (amountIn amountOut minOut nonce : UInt64) :
    TradeEntry where
  ts := now
  amountIn := amountIn
  amountOut := amountOut
  minOut := minOut
  counterparty := pool
  nonce := nonce
  suggestedOverride := 0
  kind := .traded
  reason := .ok

def tradeRefusedEntry (now : Int64) (counterparty : Pubkey)
    (amountIn minOut nonce suggestion : UInt64) (reason : TradeReason) : TradeEntry where
  ts := now
  amountIn := amountIn
  amountOut := 0
  minOut := minOut
  counterparty := counterparty
  nonce := nonce
  suggestedOverride := suggestion
  kind := .refused
  reason := reason

def tradeOverrideEntry (now : Int64) (pool : Pubkey) (amountIn nonce : UInt64) : TradeEntry where
  ts := now
  amountIn := amountIn
  amountOut := 0
  minOut := 0
  counterparty := pool
  nonce := nonce
  suggestedOverride := amountIn
  kind := .override
  reason := .ok

def tradeRevokedEntry (now : Int64) (pool : Pubkey) : TradeEntry where
  ts := now
  amountIn := 0
  amountOut := 0
  minOut := 0
  counterparty := pool
  nonce := 0
  suggestedOverride := 0
  kind := .revoked
  reason := .ok

/-! ## Reading accounts of other programs -/

/-- `unpack_token`: anything but an SPL token account is `NotATokenAccount`. -/
def unpackToken (w : World) (k : Pubkey) : Except ProgramError TokenAccount :=
  match w k with
  | some ⟨owner, .token a⟩ =>
      if owner = splTokenId then .ok a else .error (.veto .notATokenAccount)
  | _ => .error (.veto .notATokenAccount)

def unpackMint (w : World) (k : Pubkey) : Except ProgramError Unit :=
  match w k with
  | some ⟨owner, .mint _⟩ =>
      if owner = splTokenId then .ok () else .error (.veto .poolAccountMismatch)
  | _ => .error (.veto .poolAccountMismatch)

/-! ## `open_trade_rule` -/

structure OpenTradeRuleArgs where
  ruleId : UInt64
  agent : Pubkey
  exchangeKind : UInt8
  cap : UInt64
  perTradeMax : UInt64
  dailyLimit : UInt64
  floorNum : UInt64
  floorDen : UInt64
  expiresAt : Int64
  purpose : String

structure OpenTradeRule where
  owner : Pubkey
  rule : Pubkey
  ledger : Pubkey
  source : Pubkey
  destination : Pubkey
  inMint : Pubkey
  outMint : Pubkey
  exchangeProgram : Pubkey
  pool : Pubkey
  poolAuthority : Pubkey
  poolInVault : Pubkey
  poolOutVault : Pubkey
  poolMint : Pubkey
  poolFeeAccount : Pubkey
  tokenProgram : Pubkey

/-- `data[offset..offset + length]`. -/
def slice (data : List UInt8) (offset length : Nat) : List UInt8 :=
  (data.drop offset).take length

/-- The fee schedule a pool must have: trade, owner trade, owner withdraw and host fees. -/
def expectedFees : List UInt64 :=
  [TRADE_FEE_NUM, FEE_DEN, OWNER_TRADE_FEE_NUM, FEE_DEN, 0, 0, 20, 100]

/-- The keys a pool must hold.  Pools may be traded in either direction. -/
def OpenTradeRule.orderedKeys (accts : OpenTradeRule) (data : List UInt8) : List Pubkey :=
  if slice data 35 32 = accts.poolInVault.toBytes then
    [splTokenId, accts.poolInVault, accts.poolOutVault, accts.poolMint, accts.inMint,
      accts.outMint, accts.poolFeeAccount]
  else
    [splTokenId, accts.poolOutVault, accts.poolInVault, accts.poolMint, accts.outMint,
      accts.inMint, accts.poolFeeAccount]

/-- The state of a token-swap v2 pool: version, initialized, bump, seven keys,
eight fee words, and a constant product curve. -/
def OpenTradeRule.poolMatches (accts : OpenTradeRule) (data : List UInt8) : Prop :=
  data.length = 324 ∧ slice data 0 2 = [1, 1] ∧
  (∀ fee ∈ expectedFees.zipIdx, slice data (227 + fee.2 * 8) 8 = leBytes fee.1) ∧
  slice data 291 1 = [0] ∧
  ∀ key ∈ (accts.orderedKeys data).zipIdx, slice data (3 + key.2 * 32) 32 = key.1.toBytes

instance (accts : OpenTradeRule) (data : List UInt8) : Decidable (accts.poolMatches data) :=
  inferInstanceAs (Decidable (_ ∧ _))

def OpenTradeRule.poolData (accts : OpenTradeRule) (w : World) :
    Except ProgramError (List UInt8) :=
  match w accts.pool with
  | some ⟨owner, .bytes data⟩ =>
      if owner = accts.exchangeProgram then .ok data else .error (.veto .poolAccountMismatch)
  | _ => .error (.veto .poolAccountMismatch)

def requirePoolShape (rt : Runtime) (accts : OpenTradeRule) (w : World) :
    Except ProgramError Unit := do
  let data ← accts.poolData w
  require (accts.poolMatches data) (.veto .poolAccountMismatch)
  let authority ← okOr
    (rt.foreignAddress accts.exchangeProgram [.key accts.pool, .bump (data.getD 2 0)])
    (.veto .poolAccountMismatch)
  require (authority = accts.poolAuthority) (.veto .poolAccountMismatch)
  let inVault ← unpackToken w accts.poolInVault
  require (inVault.mint = accts.inMint) (.veto .poolAccountMismatch)
  require (inVault.owner = accts.poolAuthority) (.veto .poolAccountMismatch)
  let outVault ← unpackToken w accts.poolOutVault
  require (outVault.mint = accts.outMint) (.veto .poolAccountMismatch)
  require (outVault.owner = accts.poolAuthority) (.veto .poolAccountMismatch)
  unpackMint w accts.poolMint
  let fee ← unpackToken w accts.poolFeeAccount
  require (fee.mint = accts.poolMint) (.veto .poolAccountMismatch)

def freshRule (accts : OpenTradeRule) (args : OpenTradeRuleArgs) (bump : UInt8) : TradeRule where
  owner := accts.owner
  agent := args.agent
  source := accts.source
  destination := accts.destination
  inMint := accts.inMint
  outMint := accts.outMint
  exchangeProgram := accts.exchangeProgram
  exchangeKind := args.exchangeKind
  pool := accts.pool
  poolAuthority := accts.poolAuthority
  poolInVault := accts.poolInVault
  poolOutVault := accts.poolOutVault
  poolMint := accts.poolMint
  poolFeeAccount := accts.poolFeeAccount
  ruleId := args.ruleId
  cap := args.cap
  spent := 0
  perTradeMax := args.perTradeMax
  dailyLimit := args.dailyLimit
  dailyBuckets := .default
  floorNum := args.floorNum
  floorDen := args.floorDen
  expiresAt := args.expiresAt
  overrideAmount := 0
  overrideNonce := 0
  lastNonce := 0
  purpose := args.purpose
  status := .active
  tradeCount := 0
  refusalCount := 0
  bump := bump

/-- Open a trade rule and delegate `cap` of the input to it. -/
def openTradeRule (rt : Runtime) (now : Int64) (signers : List Pubkey) (accts : OpenTradeRule)
    (args : OpenTradeRuleArgs) (w : World) : TradeResult := do
  signer signers accts.owner
  let (ruleKey, bump) := rt.pda.find (tradeSeeds accts.owner args.ruleId)
  require (accts.rule = ruleKey) (.anchor .constraintSeeds)
  vacant w ruleKey
  let (ledgerKey, ledgerBump) := rt.pda.find (tradeLedgerSeeds ruleKey)
  require (accts.ledger = ledgerKey) (.anchor .constraintSeeds)
  vacant w ledgerKey
  let source ← w.splToken accts.source
  let destination ← w.splToken accts.destination
  let inMint ← w.splMint accts.inMint
  let _ ← w.splMint accts.outMint
  classicProgram accts.tokenProgram
  require (0 < args.cap) (.veto .capMustBePositive)
  require (0 < args.dailyLimit) (.veto .dailyLimitRequired)
  require (args.perTradeMax ≤ args.dailyLimit ∧ args.dailyLimit ≤ args.cap)
    (.veto .tradeLimitsOutOfOrder)
  require (0 < args.floorNum) (.veto .floorRequired)
  require (0 < args.floorDen) (.veto .floorDenominatorRequired)
  require (now < args.expiresAt) (.veto .expiryInThePast)
  require (args.purpose.length ≤ PURPOSE_MAX_LEN) (.veto .purposeTooLong)
  require (args.agent ≠ accts.owner) (.veto .agentMustNotBeOwner)
  require (args.exchangeKind = EXCHANGE_KIND_SPL_TOKEN_SWAP) (.veto .exchangeNotSupported)
  require (accts.exchangeProgram = SPL_TOKEN_SWAP_ID) (.veto .exchangeNotSupported)
  require (source.owner = accts.owner) (.veto .sourceNotOwnedByOwner)
  require (source.mint = accts.inMint) (.veto .mintMismatch)
  require (destination.owner = accts.owner) (.veto .destinationNotOwnedByOwner)
  require (destination.mint = accts.outMint) (.veto .mintMismatch)
  requirePoolShape rt accts w
  require (source.delegate.all fun existing => existing = ruleKey) (.veto .sourceAlreadyDelegated)
  let entry := tradeOpenedEntry now args.cap accts.pool
  let ledger : TradeLedger := { rule := ruleKey, bump := ledgerBump, ring := .empty .zero }
  let w ← okOr (rt.token.approveChecked accts.tokenProgram w
    { source := accts.source, delegate := ruleKey, authority := accts.owner,
      mint := accts.inMint } args.cap inMint.decimals) .cpi
  return (
    { records := [entry]
      events := []
      logs := [s!"VETO TRADE OPENED cap={args.cap} per_trade_max={args.perTradeMax} " ++
        s!"daily_limit={args.dailyLimit} expires_at={args.expiresAt}"] },
    { key := ruleKey
      rule := freshRule accts args bump
      ledger := ledger.record entry
      world := w })

/-! ## `trade` -/

structure Trade where
  agent : Pubkey
  ledger : Pubkey
  source : Pubkey
  destination : Pubkey
  exchangeProgram : Pubkey
  pool : Pubkey
  poolAuthority : Pubkey
  poolInVault : Pubkey
  poolOutVault : Pubkey
  poolMint : Pubkey
  poolFeeAccount : Pubkey
  tokenProgram : Pubkey
  remainingAccounts : List Pubkey

/-- The constraints of the `Trade` context. -/
def Trade.load (accts : Trade) (rt : Runtime) (signers : List Pubkey) (s : TradeState) :
    Except ProgramError TokenAccount := do
  signer signers accts.agent
  require (s.rule.agent = accts.agent) (.veto .notTheAgent)
  require (s.rule.source = accts.source) (.veto .sourceMismatch)
  require (accts.ledger = (rt.pda.find (tradeLedgerSeeds s.key)).1) (.anchor .constraintSeeds)
  let source ← s.world.splToken accts.source
  classicProgram accts.tokenProgram
  return source

structure Verdict where
  reason : TradeReason
  counterparty : Pubkey

namespace TradeRule

def poolVerdict (reason : TradeReason) (rule : TradeRule) : Verdict :=
  { reason := reason, counterparty := rule.pool }

def currentWindowSpent (rule : TradeRule) (now : Int64) : Except ProgramError UInt64 :=
  okOr (Veto.spent rule.dailyBuckets now) (.veto .mathOverflow)

/-- The accounts a trade names, each with the one pinned at open. -/
def pinned (rule : TradeRule) (accts : Trade) : List (Pubkey × Pubkey) :=
  [(accts.pool, rule.pool),
    (accts.poolAuthority, rule.poolAuthority),
    (accts.poolInVault, rule.poolInVault),
    (accts.poolOutVault, rule.poolOutVault),
    (accts.poolMint, rule.poolMint),
    (accts.poolFeeAccount, rule.poolFeeAccount),
    (accts.exchangeProgram, rule.exchangeProgram)]

/-- The owner's policy.  The first broken rule wins. -/
def evaluate (rule : TradeRule) (ruleKey : Pubkey) (source : TokenAccount) (accts : Trade)
    (w : World) (amountIn nonce : UInt64) (now : Int64) : Except ProgramError Verdict :=
  if rule.status ≠ .active then .ok (rule.poolVerdict .notActive)
  else if rule.expiresAt ≤ now then .ok (rule.poolVerdict .expired)
  else if amountIn = 0 then .ok (rule.poolVerdict .zeroAmount)
  else if nonce ≤ rule.lastNonce then .ok (rule.poolVerdict .staleNonce)
  else if accts.destination ≠ rule.destination then
    .ok { reason := .destinationNotAllowed, counterparty := accts.destination }
  else match (rule.pinned accts).find? fun got => got.1 ≠ got.2 with
  | some got => .ok { reason := .poolNotAllowed, counterparty := got.1 }
  | none =>
    if rule.effectivePerTradeMax nonce < amountIn then .ok (rule.poolVerdict .overPerTxMax)
    else do
      let windowSpent ← rule.currentWindowSpent now
      if ¬ (checkedAdd windowSpent amountIn).any (· ≤ rule.dailyLimit) then
        .ok (rule.poolVerdict .overDaily)
      else if ¬ (checkedAdd rule.spent amountIn).any (· ≤ rule.cap) then
        .ok (rule.poolVerdict .overCap)
      else if source.delegate ≠ some ruleKey then .ok (rule.poolVerdict .delegateMissing)
      else if source.delegatedAmount < amountIn ∨ source.amount < amountIn then
        .ok (rule.poolVerdict .insufficientFunds)
      else do
        let inVault ← unpackToken w accts.poolInVault
        let outVault ← unpackToken w accts.poolOutVault
        if spotBelowFloor amountIn inVault.amount outVault.amount rule.floorNum rule.floorDen then
          .ok (rule.poolVerdict .belowFloor)
        else do
          let destination ← unpackToken w accts.destination
          if source.isFrozen ∨ destination.isFrozen then .ok (rule.poolVerdict .accountFrozen)
          else .ok (rule.poolVerdict .ok)

/-- The one-shot per-trade ceiling that would clear this trade, or zero when
the amount does not fit the remaining cap and the remaining day. -/
def suggestedOverride (rule : TradeRule) (reason : TradeReason) (amountIn : UInt64)
    (now : Int64) : Except ProgramError UInt64 :=
  if reason ≠ .overPerTxMax then .ok 0
  else do
    let windowSpent ← rule.currentWindowSpent now
    let today := saturatingSub rule.dailyLimit windowSpent
    if amountIn ≤ rule.remaining ∧ amountIn ≤ today then return amountIn
    else return 0

def settle (rule : TradeRule) (buckets : TradeBuckets) (spent nonce : UInt64) : TradeRule :=
  { rule with
    dailyBuckets := buckets
    spent := spent
    tradeCount := saturatingSucc rule.tradeCount
    lastNonce := nonce
    overrideNonce := if rule.overrideNonce = nonce then 0 else rule.overrideNonce
    overrideAmount := if rule.overrideNonce = nonce then 0 else rule.overrideAmount
    status := if rule.cap ≤ spent then .exhausted else rule.status }

def refuse (rule : TradeRule) (reason : TradeReason) : TradeRule :=
  { rule with
    status := if reason = .expired ∧ rule.status = .active then .expired else rule.status
    refusalCount := saturatingSucc rule.refusalCount }

def grant (rule : TradeRule) (amountIn nonce : UInt64) : TradeRule :=
  { rule with overrideAmount := amountIn, overrideNonce := nonce }

def revoke (rule : TradeRule) : TradeRule :=
  { rule with status := .revoked, overrideAmount := 0, overrideNonce := 0 }

end TradeRule

/-- `reason_text`. -/
def TradeReason.text : TradeReason → String
  | .notActive => "rule not active"
  | .expired => "past expiry"
  | .staleNonce => "nonce already settled"
  | .overPerTxMax => "over per-trade maximum"
  | .overCap => "over remaining cap"
  | .delegateMissing => "delegation withdrawn"
  | .insufficientFunds => "insufficient funds"
  | .zeroAmount => "zero amount"
  | .accountFrozen => "account frozen"
  | .destinationNotAllowed => "destination not allowed"
  | .poolNotAllowed => "pool account not allowed"
  | .overDaily => "over daily limit"
  | .belowFloor => "below price floor"
  | .ok => "unknown"

/-- `swap_exact_in`: the call that is made, signed by the rule. -/
def Trade.swapExactIn (accts : Trade) (rule : Pubkey) (amountIn minimumOut : UInt64) :
    Instruction where
  programId := accts.exchangeProgram
  accounts :=
    [{ pubkey := accts.pool, isSigner := false, isWritable := false },
      { pubkey := accts.poolAuthority, isSigner := false, isWritable := false },
      { pubkey := rule, isSigner := true, isWritable := false },
      { pubkey := accts.source, isSigner := false, isWritable := true },
      { pubkey := accts.poolInVault, isSigner := false, isWritable := true },
      { pubkey := accts.poolOutVault, isSigner := false, isWritable := true },
      { pubkey := accts.destination, isSigner := false, isWritable := true },
      { pubkey := accts.poolMint, isSigner := false, isWritable := true },
      { pubkey := accts.poolFeeAccount, isSigner := false, isWritable := true },
      { pubkey := accts.tokenProgram, isSigner := false, isWritable := false }]
  data := 1 :: leBytes amountIn ++ leBytes minimumOut

namespace TradeState

/-- `settle_trade`.  The curve may consume less than was asked for: the rule is
charged the observed debit, and the output still owes the floor of the request. -/
def settleTrade (s : TradeState) (accts : Trade) (source : TokenAccount)
    (amountIn minOut nonce : UInt64) (now : Int64) (exchange : Callee) : TradeResult := do
  require (s.rule.exchangeKind = EXCHANGE_KIND_SPL_TOKEN_SWAP) (.veto .exchangeNotSupported)
  require (s.rule.exchangeProgram = SPL_TOKEN_SWAP_ID) (.veto .exchangeNotSupported)
  let bound ← floorBound amountIn s.rule.floorNum s.rule.floorDen
  let effectiveMin := max minOut bound
  let destBefore ← unpackToken s.world accts.destination
  let w ← okOr (exchange (accts.swapExactIn s.key amountIn effectiveMin) s.world) .cpi
  let sourceAfter ← w.reloadToken accts.source
  let destAfter ← unpackToken w accts.destination
  let debit ← okOr
    ((checkedSub source.amount sourceAfter.amount).filter fun delta => 0 < delta ∧ delta ≤ amountIn)
    (.veto .tradeDeltaMismatch)
  let amountOut ← okOr (checkedSub destAfter.amount destBefore.amount) (.veto .tradeDeltaMismatch)
  require (effectiveMin ≤ amountOut) (.veto .tradeDeltaMismatch)
  let (committed, buckets) := commit s.rule.dailyBuckets debit now
  let _ ← okOr committed (.veto .mathOverflow)
  let spent ← okOr (checkedAdd s.rule.spent debit) (.veto .mathOverflow)
  let rule := s.rule.settle buckets spent nonce
  let windowSpent ← rule.currentWindowSpent now
  let remainingToday := saturatingSub rule.dailyLimit windowSpent
  let entry := tradedEntry now s.rule.pool debit amountOut minOut nonce
  return (
    { records := [entry]
      events := [.traded s.key debit amountOut nonce rule.spent]
      logs := [s!"VETO TRADED amount_in={debit} amount_out={amountOut} spent={rule.spent} " ++
        s!"of cap={rule.cap} remaining_today={remainingToday}"] },
    { s with rule := rule, ledger := s.ledger.record entry, world := w })

def recordRefusal (s : TradeState) (amountIn minOut nonce : UInt64) (now : Int64)
    (verdict : Verdict) : TradeResult := do
  let suggestion ← s.rule.suggestedOverride verdict.reason amountIn now
  let perTradeMax := s.rule.effectivePerTradeMax nonce
  let remaining := s.rule.remaining
  let windowSpent ← s.rule.currentWindowSpent now
  let remainingToday := saturatingSub s.rule.dailyLimit windowSpent
  let entry := tradeRefusedEntry now verdict.counterparty amountIn minOut nonce suggestion
    verdict.reason
  return (
    { records := [entry]
      events := [.tradeRefused s.key amountIn minOut nonce verdict.reason suggestion]
      logs := [s!"VETO TRADE REFUSED reason={verdict.reason.code} ({verdict.reason.text}) " ++
        s!"amount_in={amountIn} per_trade_max={perTradeMax} remaining={remaining} " ++
        s!"remaining_today={remainingToday} override_to_clear={suggestion}"] },
    { s with rule := s.rule.refuse verdict.reason, ledger := s.ledger.record entry })

end TradeState

/-- Submit a trade.  A trade that breaks a rule is recorded, not failed. -/
def trade (rt : Runtime) (now : Int64) (signers : List Pubkey) (accts : Trade)
    (amountIn minOut nonce : UInt64) (exchange : Callee) (s : TradeState) : TradeResult := do
  let source ← accts.load rt signers s
  -- The exchange would read an eleventh account as a host fee account.
  require (accts.remainingAccounts = []) (.veto .unexpectedTradeAccount)
  let expected ← okOr
    (rt.pda.create (tradeSeeds s.rule.owner s.rule.ruleId ++ [.bump s.rule.bump]))
    (.veto .invalidTradeRulePda)
  require (expected = s.key) (.veto .invalidTradeRulePda)
  let verdict ← s.rule.evaluate s.key source accts s.world amountIn nonce now
  if verdict.reason = .ok then s.settleTrade accts source amountIn minOut nonce now exchange
  else s.recordRefusal amountIn minOut nonce now verdict

/-! ## `grant_trade_override` and `revoke_trade_rule` -/

structure GrantTradeOverride where
  owner : Pubkey
  ledger : Pubkey

def GrantTradeOverride.load (accts : GrantTradeOverride) (rt : Runtime) (signers : List Pubkey)
    (s : TradeState) : Except ProgramError Unit := do
  signer signers accts.owner
  require (s.rule.owner = accts.owner) (.veto .notTheOwner)
  require (accts.ledger = (rt.pda.find (tradeLedgerSeeds s.key)).1) (.anchor .constraintSeeds)

/-- Let one specific trade through above the per-trade ceiling. -/
def grantTradeOverride (rt : Runtime) (now : Int64) (signers : List Pubkey)
    (accts : GrantTradeOverride) (amountIn nonce : UInt64) (s : TradeState) : TradeResult := do
  accts.load rt signers s
  require (nonce ≠ 0) (.veto .nonceRequired)
  require (0 < amountIn) (.veto .amountMustBePositive)
  require (s.rule.status = .active) (.veto .tradeRuleNotActive)
  require (s.rule.lastNonce < nonce) (.veto .nonceAlreadySettled)
  require (amountIn ≤ s.rule.remaining) (.veto .overrideAboveCap)
  let entry := tradeOverrideEntry now s.rule.pool amountIn nonce
  return (
    { records := [entry]
      events := []
      logs := [s!"VETO TRADE OVERRIDE amount_in={amountIn} nonce={nonce}"] },
    { s with rule := s.rule.grant amountIn nonce, ledger := s.ledger.record entry })

structure RevokeTradeRule where
  owner : Pubkey
  ledger : Pubkey
  source : Pubkey
  tokenProgram : Pubkey

def RevokeTradeRule.load (accts : RevokeTradeRule) (rt : Runtime) (signers : List Pubkey)
    (s : TradeState) : Except ProgramError TokenAccount := do
  signer signers accts.owner
  require (s.rule.owner = accts.owner) (.veto .notTheOwner)
  require (s.rule.source = accts.source) (.veto .sourceMismatch)
  require (accts.ledger = (rt.pda.find (tradeLedgerSeeds s.key)).1) (.anchor .constraintSeeds)
  let source ← s.world.splToken accts.source
  classicProgram accts.tokenProgram
  return source

/-- Drop the delegation to the rule.  The token program refuses to revoke on a
frozen source, where a delegation is inert. -/
def RevokeTradeRule.dropDelegation (accts : RevokeTradeRule) (rt : Runtime) (s : TradeState)
    (source : TokenAccount) : Except ProgramError World :=
  if source.delegate = some s.key ∧ ¬ source.isFrozen then
    okOr (rt.token.revoke accts.tokenProgram s.world
      { source := accts.source, authority := accts.owner }) .cpi
  else .ok s.world

/-- Withdraw the agent's authority. -/
def revokeTradeRule (rt : Runtime) (now : Int64) (signers : List Pubkey)
    (accts : RevokeTradeRule) (s : TradeState) : TradeResult := do
  let source ← accts.load rt signers s
  require (s.rule.status ≠ .revoked) (.veto .tradeRuleNotActive)
  let rule := s.rule.revoke
  let entry := tradeRevokedEntry now s.rule.pool
  let w ← accts.dropDelegation rt s source
  return (
    { records := [entry]
      events := []
      logs := [s!"VETO TRADE REVOKED spent={rule.spent} of cap={rule.cap}"] },
    { s with rule := rule, ledger := s.ledger.record entry, world := w })

/-! ## `close_trade_rule` -/

structure CloseTradeRule where
  owner : Pubkey
  ledger : Pubkey
  source : Pubkey
  tokenProgram : Pubkey

/-- The constraints of the `CloseTradeRule` context.  The source may be gone already. -/
def CloseTradeRule.load (accts : CloseTradeRule) (rt : Runtime) (signers : List Pubkey)
    (s : TradeState) : Except ProgramError Unit := do
  signer signers accts.owner
  require (s.rule.owner = accts.owner) (.veto .notTheOwner)
  require (accts.ledger = (rt.pda.find (tradeLedgerSeeds s.key)).1) (.anchor .constraintSeeds)
  require (accts.source = s.rule.source) (.veto .sourceMismatch)
  classicProgram accts.tokenProgram

/-- The source is still a token account that delegates to the rule, and not frozen. -/
def shouldRevoke (w : World) (source rule : Pubkey) : Bool :=
  match w source with
  | some ⟨owner, .token a⟩ => owner = splTokenId && a.delegate = some rule && !a.isFrozen
  | _ => false

def CloseTradeRule.dropDelegation (accts : CloseTradeRule) (rt : Runtime) (s : TradeState) :
    Except ProgramError World :=
  if shouldRevoke s.world accts.source s.key then
    okOr (rt.token.revoke accts.tokenProgram s.world
      { source := accts.source, authority := accts.owner }) .cpi
  else .ok s.world

/-- Closable once the rule is not active or is past expiry.  The second case covers a
source the owner already closed, which makes revoke impossible. -/
def closeTradeRule (rt : Runtime) (now : Int64) (signers : List Pubkey) (accts : CloseTradeRule)
    (s : TradeState) : Except ProgramError Closing := do
  accts.load rt signers s
  require (s.rule.status ≠ .active ∨ s.rule.expiresAt ≤ now) (.veto .tradeRuleStillActive)
  let w ← accts.dropDelegation rt s
  return { closed := [s.key, accts.ledger], rentTo := accts.owner, world := w
           logs := [s!"VETO TRADE CLOSED revoked={shouldRevoke s.world accts.source s.key}"] }

/-! ## One instruction -/

inductive TradeInstr
  | trade (accts : Trade) (amountIn minOut nonce : UInt64) (exchange : Callee)
  | grantTradeOverride (accts : GrantTradeOverride) (amountIn nonce : UInt64)
  | revokeTradeRule (accts : RevokeTradeRule)
  /-- Anything else on chain that rewrites accounts of other programs. -/
  | outside (w : World)

structure TradeInput where
  now : Int64
  signers : List Pubkey
  instr : TradeInstr

def TradeState.exec (rt : Runtime) (s : TradeState) (i : TradeInput) : TradeResult :=
  match i.instr with
  | .trade accts amountIn minOut nonce exchange =>
      trade rt i.now i.signers accts amountIn minOut nonce exchange s
  | .grantTradeOverride accts amountIn nonce =>
      grantTradeOverride rt i.now i.signers accts amountIn nonce s
  | .revokeTradeRule accts => revokeTradeRule rt i.now i.signers accts s
  | .outside w => .ok ({ records := [], events := [], logs := [] }, { s with world := w })

/-- One step of a trade rule.  An instruction that fails is rolled back and takes no step. -/
def TradeStep (rt : Runtime) (s : TradeState) (i : TradeInput) (o : TradeOutput)
    (s' : TradeState) : Prop :=
  s.exec rt i = .ok (o, s')

end Veto
