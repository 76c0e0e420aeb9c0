import Veto.Mandate.State

/-!
# The mandate instructions

`lib.rs`: `open_mandate`, `charge`, `grant_override` and `revoke_mandate`, each
with the account context it is called with.  A charge that breaks a rule is not
an error: it transfers nothing, writes a refusal and succeeds.
-/

namespace Veto

open Foundation

abbrev MandateOutput := Output Entry MandateEvent

abbrev MandateResult := Except ProgramError (MandateOutput × MandateState)

def mandateSeeds (owner : Pubkey) (mandateId : UInt64) : List Seed :=
  [.text "mandate", .key owner, .u64 mandateId]

def ledgerSeeds (mandate : Pubkey) : List Seed := [.text "ledger", .key mandate]

/-! ## Ledger entries -/

def openedEntry (now : Int64) (cap : UInt64) (merchant : Pubkey) : Entry where
  ts := now
  amount := cap
  counterparty := merchant
  nonce := 0
  suggestedOverride := 0
  kind := .opened
  reason := .ok

def paidEntry (now : Int64) (destination : Pubkey) (amount nonce : UInt64) : Entry where
  ts := now
  amount := amount
  counterparty := destination
  nonce := nonce
  suggestedOverride := 0
  kind := .paid
  reason := .ok

def refusedEntry (now : Int64) (destination : Pubkey) (amount nonce suggestion : UInt64)
    (reason : Reason) : Entry where
  ts := now
  amount := amount
  counterparty := destination
  nonce := nonce
  suggestedOverride := suggestion
  kind := .refused
  reason := reason

def overrideEntry (now : Int64) (merchant : Pubkey) (amount nonce : UInt64) : Entry where
  ts := now
  amount := amount
  counterparty := merchant
  nonce := nonce
  suggestedOverride := amount
  kind := .override
  reason := .ok

def revokedEntry (now : Int64) (merchant : Pubkey) : Entry where
  ts := now
  amount := 0
  counterparty := merchant
  nonce := 0
  suggestedOverride := 0
  kind := .revoked
  reason := .ok

/-! ## `open_mandate` -/

structure OpenMandateArgs where
  mandateId : UInt64
  agent : Pubkey
  merchant : Pubkey
  cap : UInt64
  perTxMax : UInt64
  expiresAt : Int64
  purpose : String

structure OpenMandate where
  owner : Pubkey
  mandate : Pubkey
  ledger : Pubkey
  source : Pubkey
  mint : Pubkey
  tokenProgram : Pubkey

def freshMandate (accts : OpenMandate) (args : OpenMandateArgs) (bump : UInt8) : Mandate where
  owner := accts.owner
  agent := args.agent
  mint := accts.mint
  source := accts.source
  merchant := args.merchant
  mandateId := args.mandateId
  cap := args.cap
  spent := 0
  perTxMax := args.perTxMax
  expiresAt := args.expiresAt
  overrideAmount := 0
  overrideNonce := 0
  lastNonce := 0
  purpose := args.purpose
  status := .active
  spendCount := 0
  refusalCount := 0
  bump := bump

/-- Open a mandate and delegate `cap` to it. -/
def openMandate (rt : Runtime) (now : Int64) (signers : List Pubkey) (accts : OpenMandate)
    (args : OpenMandateArgs) (w : World) : MandateResult := do
  signer signers accts.owner
  let (mandateKey, bump) := rt.pda.find (mandateSeeds accts.owner args.mandateId)
  require (accts.mandate = mandateKey) (.anchor .constraintSeeds)
  vacant w mandateKey
  let (ledgerKey, ledgerBump) := rt.pda.find (ledgerSeeds mandateKey)
  require (accts.ledger = ledgerKey) (.anchor .constraintSeeds)
  vacant w ledgerKey
  let source ← w.interfaceToken accts.source
  require (source.owner = accts.owner) (.veto .sourceNotOwnedByOwner)
  require (source.mint = accts.mint) (.veto .mintMismatch)
  let mint ← w.interfaceMint accts.mint
  tokenInterface accts.tokenProgram
  require (0 < args.cap) (.veto .capMustBePositive)
  require (0 < args.perTxMax) (.veto .perTxMaxMustBePositive)
  require (args.perTxMax ≤ args.cap) (.veto .perTxMaxAboveCap)
  require (now < args.expiresAt) (.veto .expiryInThePast)
  require (args.purpose.length ≤ PURPOSE_MAX_LEN) (.veto .purposeTooLong)
  require (args.merchant ≠ Pubkey.default) (.veto .merchantRequired)
  require (args.agent ≠ accts.owner) (.veto .agentMustNotBeOwner)
  let entry := openedEntry now args.cap args.merchant
  let ledger : Ledger := { mandate := mandateKey, bump := ledgerBump, ring := .empty .zero }
  let w ← okOr (rt.token.approveChecked accts.tokenProgram w
    { source := accts.source, delegate := mandateKey, authority := accts.owner, mint := accts.mint }
    args.cap mint.decimals) .cpi
  return (
    { records := [entry]
      events := []
      logs := [s!"VETO OPENED cap={args.cap} per_tx_max={args.perTxMax} " ++
        s!"expires_at={args.expiresAt} purpose={args.purpose}"] },
    { key := mandateKey
      mandate := freshMandate accts args bump
      ledger := ledger.record entry
      world := w })

/-! ## `charge` -/

/-- The rules the owner agreed to, in the order they are reported. -/
def evaluate (mandate : Mandate) (mandateKey : Pubkey) (source destination : TokenAccount)
    (amount nonce : UInt64) (now : Int64) : Reason :=
  if mandate.status ≠ .active then .notActive
  else if mandate.expiresAt ≤ now then .expired
  else if amount = 0 then .zeroAmount
  else if nonce ≤ mandate.lastNonce then .staleNonce
  else if destination.owner ≠ mandate.merchant then .merchantNotAllowed
  else if mandate.effectivePerTxMax nonce < amount then .overPerTxMax
  else if ¬ (checkedAdd mandate.spent amount).any (· ≤ mandate.cap) then .overCap
  else if source.delegate ≠ some mandateKey then .delegateMissing
  else if source.delegatedAmount < amount ∨ source.amount < amount then .insufficientFunds
  else if source.isFrozen ∨ destination.isFrozen then .accountFrozen
  else .ok

/-- The one-shot override that would clear this exact charge, or zero when none would. -/
def suggestedOverride (mandate : Mandate) (reason : Reason) (amount : UInt64) : UInt64 :=
  if reason = .overPerTxMax ∧ amount ≤ mandate.remaining then amount else 0

def reasonText : Reason → String
  | .ok => "ok"
  | .notActive => "mandate not active"
  | .expired => "past expiry"
  | .staleNonce => "nonce already settled"
  | .merchantNotAllowed => "merchant not allowed"
  | .overPerTxMax => "over per-payment maximum"
  | .overCap => "over remaining cap"
  | .delegateMissing => "delegation withdrawn"
  | .insufficientFunds => "insufficient funds"
  | .zeroAmount => "zero amount"
  | .accountFrozen => "account frozen"

structure Charge where
  agent : Pubkey
  ledger : Pubkey
  source : Pubkey
  destination : Pubkey
  mint : Pubkey
  tokenProgram : Pubkey

structure ChargeCtx where
  source : TokenAccount
  destination : TokenAccount
  mint : Mint

/-- The constraints of the `Charge` context. -/
def Charge.load (accts : Charge) (rt : Runtime) (signers : List Pubkey) (s : MandateState) :
    Except ProgramError ChargeCtx := do
  signer signers accts.agent
  require (s.mandate.agent = accts.agent) (.veto .notTheAgent)
  require (s.mandate.mint = accts.mint) (.veto .mintMismatch)
  require (s.mandate.source = accts.source) (.veto .sourceMismatch)
  require (accts.ledger = (rt.pda.find (ledgerSeeds s.key)).1) (.anchor .constraintSeeds)
  let source ← s.world.interfaceToken accts.source
  let destination ← s.world.interfaceToken accts.destination
  require (destination.mint = s.mandate.mint) (.veto .mintMismatch)
  let mint ← s.world.interfaceMint accts.mint
  tokenInterface accts.tokenProgram
  return { source := source, destination := destination, mint := mint }

def Mandate.settle (m : Mandate) (spent nonce : UInt64) : Mandate :=
  { m with
    spent := spent
    spendCount := saturatingSucc m.spendCount
    lastNonce := nonce
    overrideNonce := if m.overrideNonce = nonce then 0 else m.overrideNonce
    overrideAmount := if m.overrideNonce = nonce then 0 else m.overrideAmount
    status := if m.cap ≤ spent then .exhausted else m.status }

def Mandate.refuse (m : Mandate) (reason : Reason) : Mandate :=
  { m with
    status := if reason = .expired ∧ m.status = .active then .expired else m.status
    refusalCount := saturatingSucc m.refusalCount }

/-- Submit a charge.  It succeeds whether it is paid or refused. -/
def charge (rt : Runtime) (now : Int64) (signers : List Pubkey) (accts : Charge)
    (amount nonce : UInt64) (s : MandateState) : MandateResult := do
  let ctx ← accts.load rt signers s
  let expected ← okOr
    (rt.pda.create (mandateSeeds s.mandate.owner s.mandate.mandateId ++ [.bump s.mandate.bump]))
    (.veto .invalidMandatePda)
  require (expected = s.key) (.veto .invalidMandatePda)
  let reason := evaluate s.mandate s.key ctx.source ctx.destination amount nonce now
  if reason = .ok then
    let w ← okOr (rt.token.transferChecked accts.tokenProgram s.world
      { source := accts.source, destination := accts.destination, authority := s.key,
        mint := accts.mint } amount ctx.mint.decimals) .cpi
    let spent ← okOr (checkedAdd s.mandate.spent amount) (.veto .mathOverflow)
    let mandate := s.mandate.settle spent nonce
    let entry := paidEntry now accts.destination amount nonce
    return (
      { records := [entry]
        events := [.paid s.key amount nonce mandate.spent]
        logs := [s!"VETO PAID amount={amount} spent={mandate.spent} of cap={mandate.cap} " ++
          s!"remaining={mandate.remaining}"] },
      { s with mandate := mandate, ledger := s.ledger.record entry, world := w })
  else
    let mandate := s.mandate.refuse reason
    let suggestion := suggestedOverride mandate reason amount
    let entry := refusedEntry now accts.destination amount nonce suggestion reason
    return (
      { records := [entry]
        events := [.refused s.key amount nonce reason suggestion]
        logs := [s!"VETO REFUSED reason={reason.code} ({reasonText reason}) amount={amount} " ++
          s!"per_tx_max={mandate.effectivePerTxMax nonce} remaining={mandate.remaining} " ++
          s!"override_to_clear={suggestion}"] },
      { s with mandate := mandate, ledger := s.ledger.record entry })

/-! ## `grant_override` and `revoke_mandate` -/

structure OwnerAction where
  owner : Pubkey
  ledger : Pubkey
  source : Pubkey
  tokenProgram : Pubkey

/-- The constraints of the `OwnerAction` context. -/
def OwnerAction.load (accts : OwnerAction) (rt : Runtime) (signers : List Pubkey)
    (s : MandateState) : Except ProgramError TokenAccount := do
  signer signers accts.owner
  require (s.mandate.owner = accts.owner) (.veto .notTheOwner)
  require (s.mandate.source = accts.source) (.veto .sourceMismatch)
  require (accts.ledger = (rt.pda.find (ledgerSeeds s.key)).1) (.anchor .constraintSeeds)
  let source ← s.world.interfaceToken accts.source
  tokenInterface accts.tokenProgram
  return source

def Mandate.grant (m : Mandate) (amount nonce : UInt64) : Mandate :=
  { m with overrideAmount := amount, overrideNonce := nonce }

def Mandate.revoke (m : Mandate) : Mandate :=
  { m with status := .revoked, overrideAmount := 0, overrideNonce := 0 }

/-- Let one specific charge through above the per-payment ceiling. -/
def grantOverride (rt : Runtime) (now : Int64) (signers : List Pubkey) (accts : OwnerAction)
    (amount nonce : UInt64) (s : MandateState) : MandateResult := do
  let _ ← accts.load rt signers s
  require (nonce ≠ 0) (.veto .nonceRequired)
  require (0 < amount) (.veto .amountMustBePositive)
  require (s.mandate.status = .active) (.veto .mandateNotActive)
  require (s.mandate.lastNonce < nonce) (.veto .nonceAlreadySettled)
  require (amount ≤ s.mandate.remaining) (.veto .overrideAboveCap)
  let entry := overrideEntry now s.mandate.merchant amount nonce
  return (
    { records := [entry]
      events := []
      logs := [s!"VETO OVERRIDE amount={amount} nonce={nonce}"] },
    { s with
      mandate := s.mandate.grant amount nonce
      ledger := s.ledger.record entry })

/-- Withdraw the agent's authority, and drop the delegation with it. -/
def revokeMandate (rt : Runtime) (now : Int64) (signers : List Pubkey) (accts : OwnerAction)
    (s : MandateState) : MandateResult := do
  let _ ← accts.load rt signers s
  require (s.mandate.status ≠ .revoked) (.veto .mandateNotActive)
  let mandate := s.mandate.revoke
  let entry := revokedEntry now s.mandate.merchant
  let w ← okOr (rt.token.revoke accts.tokenProgram s.world
    { source := accts.source, authority := accts.owner }) .cpi
  return (
    { records := [entry]
      events := []
      logs := [s!"VETO REVOKED spent={mandate.spent} of cap={mandate.cap}"] },
    { s with mandate := mandate, ledger := s.ledger.record entry, world := w })

/-! ## `close_mandate` -/

structure CloseMandate where
  owner : Pubkey
  ledger : Pubkey

/-- The constraints of the `CloseMandate` context. -/
def CloseMandate.load (accts : CloseMandate) (rt : Runtime) (signers : List Pubkey)
    (s : MandateState) : Except ProgramError Unit := do
  signer signers accts.owner
  require (s.mandate.owner = accts.owner) (.veto .notTheOwner)
  require (accts.ledger = (rt.pda.find (ledgerSeeds s.key)).1) (.anchor .constraintSeeds)

/-- Reclaim rent once a mandate is finished.  Only the owner, never while active. -/
def closeMandate (rt : Runtime) (signers : List Pubkey) (accts : CloseMandate)
    (s : MandateState) : Except ProgramError Closing := do
  accts.load rt signers s
  require (s.mandate.status ≠ .active) (.veto .mandateStillActive)
  return { closed := [s.key, accts.ledger], rentTo := accts.owner, world := s.world
           logs := ["VETO CLOSED"] }

/-! ## One instruction -/

inductive MandateInstr
  | charge (accts : Charge) (amount nonce : UInt64)
  | grantOverride (accts : OwnerAction) (amount nonce : UInt64)
  | revokeMandate (accts : OwnerAction)
  /-- Anything else on chain that rewrites accounts of other programs. -/
  | outside (w : World)

structure MandateInput where
  now : Int64
  signers : List Pubkey
  instr : MandateInstr

def MandateState.exec (rt : Runtime) (s : MandateState) (i : MandateInput) : MandateResult :=
  match i.instr with
  | .charge accts amount nonce => charge rt i.now i.signers accts amount nonce s
  | .grantOverride accts amount nonce => grantOverride rt i.now i.signers accts amount nonce s
  | .revokeMandate accts => revokeMandate rt i.now i.signers accts s
  | .outside w => .ok ({ records := [], events := [], logs := [] }, { s with world := w })

/-- One step of a mandate.  An instruction that fails is rolled back and takes no step. -/
def MandateStep (rt : Runtime) (s : MandateState) (i : MandateInput) (o : MandateOutput)
    (s' : MandateState) : Prop :=
  s.exec rt i = .ok (o, s')

end Veto
