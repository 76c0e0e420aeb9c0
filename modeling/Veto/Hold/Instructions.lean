import Veto.Hold.State

/-!
# The Hold instructions

`hold.rs` and the account contexts of `lib.rs`.  An instant withdrawal needs an
unfrozen vault, a known destination, and a 24 hour total within the daily limit
and within the share of the balance; anything else is held until its unlock
time.
-/

namespace Veto

open Foundation

abbrev HoldOutput := Output HoldEntry HoldEvent

abbrev HoldResult := Except ProgramError (HoldOutput × HoldState)

def holdSeeds (owner : Pubkey) (vaultId : UInt64) : List Seed :=
  [.text "hold", .key owner, .u64 vaultId]

def holdLedgerSeeds (vault : Pubkey) : List Seed := [.text "hold-ledger", .key vault]

def holdTokenSeeds (vault : Pubkey) : List Seed := [.text "hold-token", .key vault]

/-- `write_record`: the entry an instruction adds to the ledger. -/
def holdEntry (now : Int64) (kind : HoldKind) (amount : UInt64) (destination : Pubkey)
    (withdrawalId : UInt64) (reason : UInt8) : HoldEntry :=
  { ts := now, amount := amount, destination := destination, withdrawalId := withdrawalId,
    kind := kind, reason := reason }

/-! ## Rules -/

/-- `require_rules`. -/
def requireRules (delaySecs : Int64) (bigShareBps : UInt16)
    (safeAddress guardian owner vault : Pubkey) : Except ProgramError Unit := do
  require (delayAllowed delaySecs) (.veto .delayNotAllowed)
  require (bigShareBps.toUInt64 ≤ HOLD_BPS_DENOMINATOR) (.veto .shareOutOfRange)
  require (safeAddress ≠ Pubkey.default) (.veto .safeAddressRequired)
  require (safeAddress ≠ vault) (.veto .safeAddressRequired)
  require (guardian = Pubkey.default ∨ guardian ≠ owner) (.veto .guardianIsOwner)

/-- `share_cap`: the share of the balance, without the overflow of the product. -/
def shareCap (balance : UInt64) (bps : UInt16) : Except ProgramError UInt64 := do
  let bps := bps.toUInt64
  require (bps ≤ HOLD_BPS_DENOMINATOR) (.veto .shareOutOfRange)
  let whole := balance / HOLD_BPS_DENOMINATOR
  let rem := balance % HOLD_BPS_DENOMINATOR
  let fromWhole ← okOr (checkedMul whole bps) (.veto .holdMathOverflow)
  let product ← okOr (checkedMul rem bps) (.veto .holdMathOverflow)
  let fromRem := product / HOLD_BPS_DENOMINATOR
  okOr (checkedAdd fromWhole fromRem) (.veto .holdMathOverflow)

namespace HoldVault

def knownKeys (vault : HoldVault) : List Pubkey :=
  vault.known.toList.take (min vault.knownLen.toNat HOLD_KNOWN_CAPACITY)

def isKnown (vault : HoldVault) (destination : Pubkey) : Prop := destination ∈ vault.knownKeys

instance (vault : HoldVault) (destination : Pubkey) : Decidable (vault.isKnown destination) :=
  inferInstanceAs (Decidable (_ ∈ _))

/-- A full list does not grow and does not evict. -/
def remember (vault : HoldVault) (destination : Pubkey) : HoldVault :=
  if vault.isKnown destination then vault
  else if HOLD_KNOWN_CAPACITY ≤ vault.knownLen.toNat then vault
  else
    { vault with
      known := vault.known.setIfInBounds vault.knownLen.toNat destination
      knownLen := saturatingSucc8 vault.knownLen }

def recordRelease (vault : HoldVault) (amount : UInt64) (now : Int64) : HoldVault :=
  { vault with dailyBuckets := Veto.recordRelease vault.dailyBuckets amount now }

/-- `can_pay_now`: whether a withdrawal is paid at once. -/
def canPayNow (vault : HoldVault) (balance : UInt64) (destination : Pubkey) (amount : UInt64)
    (now : Int64) : Except ProgramError Bool :=
  if vault.frozen = true ∨ ¬ vault.isKnown destination then .ok false
  else
    match (spent vault.dailyBuckets now).bind fun spent => checkedAdd spent amount with
    | none => .ok false
    | some dailyNext =>
        if vault.dailyLimit < dailyNext then .ok false
        else do
          let cap ← shareCap balance vault.bigShareBps
          return decide (dailyNext ≤ cap)

def position (vault : HoldVault) (test : PendingWithdrawal → Bool) :
    Option (Fin HOLD_PENDING_CAPACITY) :=
  (List.finRange HOLD_PENDING_CAPACITY).find? fun i => test (vault.pending.row i)

def firstEmpty (vault : HoldVault) : Option (Fin HOLD_PENDING_CAPACITY) :=
  vault.position fun row => row.status = .empty

def findPending (vault : HoldVault) (id : UInt64) :
    Except ProgramError (Fin HOLD_PENDING_CAPACITY) :=
  okOr (vault.position fun row => row.status = .pending ∧ row.id = id)
    (.veto .withdrawalNotPending)

def setRow (vault : HoldVault) (index : Fin HOLD_PENDING_CAPACITY) (row : PendingWithdrawal) :
    HoldVault :=
  { vault with pending := vault.pending.put index row }

def clearRow (vault : HoldVault) (index : Fin HOLD_PENDING_CAPACITY) : HoldVault :=
  vault.setRow index .default

end HoldVault

/-! ## Account contexts -/

namespace HoldState

variable (rt : Runtime) (s : HoldState)

/-- `seeds = [b"hold", owner, vault_id], bump = vault.bump`. -/
def requireVaultSeeds : Except ProgramError Unit :=
  require (rt.pda.create (holdSeeds s.vault.owner s.vault.vaultId ++ [.bump s.vault.bump]) =
    some s.key) (.anchor .constraintSeeds)

/-- `seeds = [b"hold-ledger", vault], bump = vault.ledger_bump`. -/
def requireLedger (ledger : Pubkey) : Except ProgramError Unit :=
  require (rt.pda.create (holdLedgerSeeds s.key ++ [.bump s.vault.ledgerBump]) = some ledger)
    (.anchor .constraintSeeds)

/-- `seeds = [b"hold-token", vault], bump = vault.token_bump`. -/
def requireTokenSeeds (vaultToken : Pubkey) : Except ProgramError Unit :=
  require (rt.pda.create (holdTokenSeeds s.key ++ [.bump s.vault.tokenBump]) = some vaultToken)
    (.anchor .constraintSeeds)

/-- `has_one = owner`, and the owner signs. -/
def requireOwner (signers : List Pubkey) (owner : Pubkey) : Except ProgramError Unit := do
  signer signers owner
  require (s.vault.owner = owner) (.veto .notTheVaultOwner)

def requireOwnerOrGuardian (signers : List Pubkey) (authority : Pubkey) :
    Except ProgramError Unit := do
  signer signers authority
  require (authority = s.vault.owner ∨ authority = s.vault.guardian) (.veto .notOwnerOrGuardian)

/-- `address = anchor_spl::token::ID`. -/
def requireTokenProgram (tokenProgram : Pubkey) : Except ProgramError Unit :=
  require (tokenProgram = splTokenId) (.anchor .constraintAddress)

end HoldState

/-- The accounts that every instruction paying out of the vault names. -/
structure PayoutAccounts where
  ledger : Pubkey
  vaultToken : Pubkey
  destination : Pubkey
  mint : Pubkey
  tokenProgram : Pubkey

structure PayoutCtx where
  vaultToken : TokenAccount
  destination : TokenAccount
  mint : Mint

/-- The constraints that `Withdraw`, `Execute`, `Skip` and `Recover` share. -/
def PayoutAccounts.load (accts : PayoutAccounts) (rt : Runtime) (s : HoldState) :
    Except ProgramError PayoutCtx := do
  require (s.vault.mint = accts.mint) (.veto .holdMintMismatch)
  require (s.vault.vaultToken = accts.vaultToken) (.veto .vaultTokenMismatch)
  s.requireVaultSeeds rt
  s.requireLedger rt accts.ledger
  let vaultToken ← s.world.interfaceToken accts.vaultToken
  s.requireTokenSeeds rt accts.vaultToken
  require (vaultToken.owner = s.key) (.veto .badVaultAuthority)
  let destination ← s.world.interfaceToken accts.destination
  require (destination.mint = s.vault.mint) (.veto .holdMintMismatch)
  require (destination.owner ≠ s.key) (.veto .destinationIsVault)
  let mint ← s.world.interfaceMint accts.mint
  HoldState.requireTokenProgram accts.tokenProgram
  return { vaultToken := vaultToken, destination := destination, mint := mint }

/-- `require_vault_signer`. -/
def requireVaultSigner (rt : Runtime) (key : Pubkey) (vault : HoldVault) :
    Except ProgramError Unit := do
  let expected ← okOr
    (rt.pda.create (holdSeeds vault.owner vault.vaultId ++ [.bump vault.bump]))
    (.veto .invalidVaultPda)
  require (expected = key) (.veto .invalidVaultPda)
  let token ← okOr (rt.pda.create (holdTokenSeeds key ++ [.bump vault.tokenBump]))
    (.veto .invalidVaultPda)
  require (token = vault.vaultToken) (.veto .vaultTokenMismatch)

/-- `transfer_out_parts`: pay `amount` out of the vault. -/
def transferOutParts (rt : Runtime) (s : HoldState) (accts : PayoutAccounts) (ctx : PayoutCtx)
    (amount : UInt64) : Except ProgramError World := do
  requireVaultSigner rt s.key s.vault
  require (accts.vaultToken = s.vault.vaultToken) (.veto .vaultTokenMismatch)
  require (ctx.vaultToken.owner = s.key) (.veto .badVaultAuthority)
  require (ctx.vaultToken.mint = s.vault.mint) (.veto .holdMintMismatch)
  require (accts.mint = s.vault.mint) (.veto .holdMintMismatch)
  require (ctx.destination.mint = s.vault.mint) (.veto .holdMintMismatch)
  require (accts.destination ≠ accts.vaultToken) (.veto .destinationIsVault)
  require (ctx.destination.owner ≠ s.key) (.veto .destinationIsVault)
  okOr (rt.token.transferChecked accts.tokenProgram s.world
    { source := accts.vaultToken, destination := accts.destination, authority := s.key,
      mint := accts.mint } amount ctx.mint.decimals) .cpi

/-! ## `init_vault` and `deposit` -/

structure InitVaultArgs where
  vaultId : UInt64
  guardian : Pubkey
  safeAddress : Pubkey
  dailyLimit : UInt64
  delaySecs : Int64
  bigShareBps : UInt16

structure InitVault where
  owner : Pubkey
  vault : Pubkey
  ledger : Pubkey
  vaultToken : Pubkey
  mint : Pubkey
  tokenProgram : Pubkey

def freshVault (accts : InitVault) (args : InitVaultArgs) (bump tokenBump ledgerBump : UInt8) :
    HoldVault where
  owner := accts.owner
  guardian := args.guardian
  safeAddress := args.safeAddress
  mint := accts.mint
  vaultToken := accts.vaultToken
  vaultId := args.vaultId
  dailyLimit := args.dailyLimit
  windowSpent := 0
  windowStart := 0
  delaySecs := args.delaySecs
  unfreezeAt := 0
  nextWithdrawalId := 1
  bigShareBps := args.bigShareBps
  frozen := false
  knownLen := 0
  bump := bump
  tokenBump := tokenBump
  ledgerBump := ledgerBump
  known := Vector.replicate HOLD_KNOWN_CAPACITY Pubkey.default
  pending := Vector.replicate HOLD_PENDING_CAPACITY .default
  change := .default
  dailyBuckets := .default

def initVault (rt : Runtime) (now : Int64) (signers : List Pubkey) (accts : InitVault)
    (args : InitVaultArgs) (w : World) : HoldResult := do
  signer signers accts.owner
  let (vaultKey, bump) := rt.pda.find (holdSeeds accts.owner args.vaultId)
  require (accts.vault = vaultKey) (.anchor .constraintSeeds)
  vacant w vaultKey
  let (ledgerKey, ledgerBump) := rt.pda.find (holdLedgerSeeds vaultKey)
  require (accts.ledger = ledgerKey) (.anchor .constraintSeeds)
  vacant w ledgerKey
  let (tokenKey, tokenBump) := rt.pda.find (holdTokenSeeds vaultKey)
  require (accts.vaultToken = tokenKey) (.anchor .constraintSeeds)
  vacant w tokenKey
  let _ ← w.interfaceMint accts.mint
  HoldState.requireTokenProgram accts.tokenProgram
  let w ← okOr (rt.token.initializeAccount accts.tokenProgram w
    { account := tokenKey, mint := accts.mint, owner := vaultKey }) .cpi
  requireRules args.delaySecs args.bigShareBps args.safeAddress args.guardian accts.owner vaultKey
  let entry := holdEntry now .opened 0 args.safeAddress 0 HOLD_REASON_NONE
  let ledger : HoldLedger := { vault := vaultKey, bump := ledgerBump, ring := .empty .zero }
  return (
    { records := [entry]
      events := [.opened vaultKey accts.owner args.guardian args.safeAddress args.dailyLimit
        args.delaySecs args.bigShareBps]
      logs := [s!"HOLD OPENED daily_limit={args.dailyLimit} delay_secs={args.delaySecs} " ++
        s!"big_share_bps={args.bigShareBps}"] },
    { key := vaultKey
      vault := freshVault accts args bump tokenBump ledgerBump
      ledger := ledger.record entry
      world := w })

structure Deposit where
  owner : Pubkey
  ledger : Pubkey
  source : Pubkey
  vaultToken : Pubkey
  mint : Pubkey
  tokenProgram : Pubkey

def Deposit.load (accts : Deposit) (rt : Runtime) (signers : List Pubkey) (s : HoldState) :
    Except ProgramError Mint := do
  s.requireOwner signers accts.owner
  require (s.vault.mint = accts.mint) (.veto .holdMintMismatch)
  require (s.vault.vaultToken = accts.vaultToken) (.veto .vaultTokenMismatch)
  s.requireVaultSeeds rt
  s.requireLedger rt accts.ledger
  let source ← s.world.interfaceToken accts.source
  require (source.mint = s.vault.mint) (.veto .holdMintMismatch)
  require (source.owner = accts.owner) (.veto .holdSourceNotOwned)
  let _ ← s.world.interfaceToken accts.vaultToken
  s.requireTokenSeeds rt accts.vaultToken
  let mint ← s.world.interfaceMint accts.mint
  HoldState.requireTokenProgram accts.tokenProgram
  return mint

def deposit (rt : Runtime) (now : Int64) (signers : List Pubkey) (accts : Deposit)
    (amount : UInt64) (s : HoldState) : HoldResult := do
  let mint ← accts.load rt signers s
  require (0 < amount) (.veto .positiveAmountRequired)
  let w ← okOr (rt.token.transferChecked accts.tokenProgram s.world
    { source := accts.source, destination := accts.vaultToken, authority := accts.owner,
      mint := accts.mint } amount mint.decimals) .cpi
  let entry := holdEntry now .deposited amount s.key 0 HOLD_REASON_NONE
  return (
    { records := [entry]
      events := [.deposited s.key amount]
      logs := [s!"HOLD DEPOSITED amount={amount}"] },
    { s with ledger := s.ledger.record entry, world := w })

/-! ## `withdraw` -/

structure Withdraw where
  owner : Pubkey
  out : PayoutAccounts

def Withdraw.load (accts : Withdraw) (rt : Runtime) (signers : List Pubkey) (s : HoldState) :
    Except ProgramError PayoutCtx := do
  s.requireOwner signers accts.owner
  let ctx ← accts.out.load rt s
  require (accts.out.destination ≠ accts.out.vaultToken) (.veto .destinationIsVault)
  return ctx

/-- `refuse`: a withdrawal that is neither paid nor held is still recorded. -/
def refuse (now : Int64) (s : HoldState) (amount : UInt64) (destination : Pubkey)
    (reason : UInt8) : HoldOutput × HoldState :=
  let entry := holdEntry now .refused amount destination 0 reason
  ({ records := [entry]
     events := [.refused s.key amount destination reason]
     logs := [s!"HOLD REFUSED reason={reason} amount={amount}"] },
   { s with ledger := s.ledger.record entry })

/-- Pay `amount` now when the rules allow it.  Otherwise record a hold. -/
def withdraw (rt : Runtime) (now : Int64) (signers : List Pubkey) (accts : Withdraw)
    (amount : UInt64) (s : HoldState) : HoldResult := do
  let ctx ← accts.load rt signers s
  require (0 < amount) (.veto .positiveAmountRequired)
  let destination := accts.out.destination
  let balance := ctx.vaultToken.amount
  if balance < amount then
    return refuse now s amount destination HOLD_REASON_INSUFFICIENT_FUNDS
  else
    let payNow ← s.vault.canPayNow balance destination amount now
    if payNow = true then
      let vault := s.vault.recordRelease amount now
      let w ← transferOutParts rt s accts.out ctx amount
      let entry := holdEntry now .paid amount destination 0 HOLD_REASON_NONE
      return (
        { records := [entry]
          events := [.paid s.key amount destination]
          logs := [s!"HOLD PAID amount={amount} destination={destination.display}"] },
        { s with vault := vault, ledger := s.ledger.record entry, world := w })
    else
      let unlockAt ← okOr (checkedAddI64 now s.vault.delaySecs) (.veto .holdMathOverflow)
      match s.vault.firstEmpty with
      | none => return refuse now s amount destination HOLD_REASON_PENDING_FULL
      | some index =>
          let id := s.vault.nextWithdrawalId
          let next ← okOr (checkedAdd id 1) (.veto .holdMathOverflow)
          let row : PendingWithdrawal :=
            { id := id, amount := amount, destination := destination, unlockAt := unlockAt,
              status := .pending }
          let entry := holdEntry now .held amount destination id HOLD_REASON_NONE
          return (
            { records := [entry]
              events := [.held s.key id amount destination unlockAt]
              logs := [s!"HOLD HELD id={id} amount={amount} unlock_at={unlockAt}"] },
            { s with
              vault := { s.vault.setRow index row with nextWithdrawalId := next }
              ledger := s.ledger.record entry })

/-! ## `execute`, `stop` and `skip` -/

structure Execute where
  out : PayoutAccounts

/-- Pay a held withdrawal once the chain clock reaches its unlock time. -/
def execute (rt : Runtime) (now : Int64) (accts : Execute) (id : UInt64) (s : HoldState) :
    HoldResult := do
  let ctx ← accts.out.load rt s
  let index ← s.vault.findPending id
  require (s.vault.frozen = false) (.veto .vaultFrozen)
  let row := s.vault.pending.row index
  require (row.unlockAt ≤ now) (.veto .tooEarly)
  require (accts.out.destination = row.destination) (.veto .destinationMismatch)
  require (row.amount ≤ ctx.vaultToken.amount) (.veto .holdInsufficientFunds)
  let vault := s.vault.recordRelease row.amount now
  let w ← transferOutParts rt s accts.out ctx row.amount
  let vault := (vault.remember row.destination).clearRow index
  let entry := holdEntry now .paid row.amount row.destination id HOLD_REASON_NONE
  return (
    { records := [entry]
      events := [.executed s.key id row.amount row.destination]
      logs := [s!"HOLD EXECUTED id={id} amount={row.amount}"] },
    { s with vault := vault, ledger := s.ledger.record entry, world := w })

structure AuthorityAccounts where
  authority : Pubkey
  ledger : Pubkey

/-- The constraints of `Stop`, `Freeze` and `CancelChange`. -/
def AuthorityAccounts.load (accts : AuthorityAccounts) (rt : Runtime) (signers : List Pubkey)
    (s : HoldState) : Except ProgramError Unit := do
  s.requireOwnerOrGuardian signers accts.authority
  s.requireVaultSeeds rt
  s.requireLedger rt accts.ledger

abbrev Stop := AuthorityAccounts

/-- Cancel one held withdrawal, with no wait. -/
def stop (rt : Runtime) (now : Int64) (signers : List Pubkey) (accts : Stop) (id : UInt64)
    (s : HoldState) : HoldResult := do
  accts.load rt signers s
  let index ← s.vault.findPending id
  let row := s.vault.pending.row index
  let entry := holdEntry now .stopped row.amount row.destination id HOLD_REASON_NONE
  return (
    { records := [entry]
      events := [.stopped s.key id row.amount]
      logs := [s!"HOLD STOPPED id={id}"] },
    { s with vault := s.vault.clearRow index, ledger := s.ledger.record entry })

structure Skip where
  owner : Pubkey
  guardian : Pubkey
  out : PayoutAccounts

def Skip.load (accts : Skip) (rt : Runtime) (signers : List Pubkey) (s : HoldState) :
    Except ProgramError PayoutCtx := do
  s.requireOwner signers accts.owner
  signer signers accts.guardian
  accts.out.load rt s

/-- Pay a held withdrawal before its unlock time.  Both keys, and not while frozen. -/
def skip (rt : Runtime) (now : Int64) (signers : List Pubkey) (accts : Skip) (id : UInt64)
    (s : HoldState) : HoldResult := do
  let ctx ← accts.load rt signers s
  require (s.vault.guardian ≠ Pubkey.default) (.veto .bothKeysRequired)
  require (accts.guardian = s.vault.guardian) (.veto .notTheGuardian)
  require (accts.guardian ≠ accts.owner) (.veto .bothKeysRequired)
  require (s.vault.frozen = false) (.veto .vaultFrozen)
  let index ← s.vault.findPending id
  let row := s.vault.pending.row index
  require (accts.out.destination = row.destination) (.veto .destinationMismatch)
  require (row.amount ≤ ctx.vaultToken.amount) (.veto .holdInsufficientFunds)
  let vault := s.vault.recordRelease row.amount now
  let w ← transferOutParts rt s accts.out ctx row.amount
  let vault := (vault.remember row.destination).clearRow index
  let entry := holdEntry now .skipped row.amount row.destination id HOLD_REASON_NONE
  return (
    { records := [entry]
      events := [.skipped s.key id row.amount row.destination]
      logs := [s!"HOLD SKIPPED id={id} amount={row.amount}"] },
    { s with vault := vault, ledger := s.ledger.record entry, world := w })

/-! ## `freeze`, `unfreeze` and `recover` -/

abbrev Freeze := AuthorityAccounts

/-- Block every outflow except `recover`. -/
def freeze (rt : Runtime) (now : Int64) (signers : List Pubkey) (accts : Freeze) (s : HoldState) :
    HoldResult := do
  accts.load rt signers s
  require (s.vault.frozen = false) (.veto .vaultFrozen)
  let entry := holdEntry now .frozen 0 accts.authority 0 HOLD_REASON_NONE
  return (
    { records := [entry]
      events := [.frozen s.key accts.authority]
      logs := ["HOLD FROZEN"] },
    { s with vault := { s.vault with frozen := true }, ledger := s.ledger.record entry })

structure Unfreeze where
  owner : Pubkey
  guardian : Option Pubkey
  ledger : Pubkey

def Unfreeze.load (accts : Unfreeze) (rt : Runtime) (signers : List Pubkey) (s : HoldState) :
    Except ProgramError Unit := do
  s.requireOwner signers accts.owner
  optionalSigner signers accts.guardian
  s.requireVaultSeeds rt
  s.requireLedger rt accts.ledger

/-- `finish_unfreeze`. -/
def finishUnfreeze (now : Int64) (s : HoldState) : HoldOutput × HoldState :=
  let entry := holdEntry now .unfrozen 0 Pubkey.default 0 HOLD_REASON_NONE
  ({ records := [entry]
     events := [.unfrozen s.key]
     logs := ["HOLD UNFROZEN"] },
   { s with
     vault := { s.vault with frozen := false, unfreezeAt := 0 }
     ledger := s.ledger.record entry })

/-- Clear a freeze.  Both keys, or the owner alone after the delay when no guardian is set. -/
def unfreeze (rt : Runtime) (now : Int64) (signers : List Pubkey) (accts : Unfreeze)
    (s : HoldState) : HoldResult := do
  accts.load rt signers s
  require (s.vault.frozen = true) (.veto .notFrozen)
  match accts.guardian with
  | some guardian =>
      require (s.vault.guardian ≠ Pubkey.default) (.veto .notTheGuardian)
      require (guardian = s.vault.guardian) (.veto .notTheGuardian)
      require (guardian ≠ accts.owner) (.veto .bothKeysRequired)
      return finishUnfreeze now s
  | none =>
      require (s.vault.guardian = Pubkey.default) (.veto .bothKeysRequired)
      if s.vault.unfreezeAt = 0 then
        let effectiveAt ← okOr (checkedAddI64 now s.vault.delaySecs) (.veto .holdMathOverflow)
        let entry := holdEntry now .unfreezeScheduled 0 Pubkey.default 0 HOLD_REASON_NONE
        return (
          { records := [entry]
            events := [.unfreezeScheduled s.key effectiveAt]
            logs := [s!"HOLD UNFREEZE SCHEDULED effective_at={effectiveAt}"] },
          { s with
            vault := { s.vault with unfreezeAt := effectiveAt }
            ledger := s.ledger.record entry })
      else
        require (s.vault.unfreezeAt ≤ now) (.veto .unfreezeNotReady)
        return finishUnfreeze now s

structure Recover where
  authority : Pubkey
  out : PayoutAccounts

def Recover.load (accts : Recover) (rt : Runtime) (signers : List Pubkey) (s : HoldState) :
    Except ProgramError PayoutCtx := do
  s.requireOwnerOrGuardian signers accts.authority
  let ctx ← accts.out.load rt s
  require (ctx.destination.owner = s.vault.safeAddress) (.veto .notTheSafeAddress)
  return ctx

/-- Send the whole vault balance to the safe address.  The rows are claims on
the balance that is about to leave, so all of them are cleared. -/
def recover (rt : Runtime) (now : Int64) (signers : List Pubkey) (accts : Recover)
    (s : HoldState) : HoldResult := do
  let ctx ← accts.load rt signers s
  let amount := ctx.vaultToken.amount
  require (0 < amount) (.veto .nothingToRecover)
  require (ctx.destination.owner = s.vault.safeAddress) (.veto .notTheSafeAddress)
  let vault := { s.vault with pending := Vector.replicate HOLD_PENDING_CAPACITY .default }
  let w ← transferOutParts rt s accts.out ctx amount
  let entry := holdEntry now .recovered amount accts.out.destination 0 HOLD_REASON_NONE
  return (
    { records := [entry]
      events := [.recovered s.key amount accts.out.destination]
      logs := [s!"HOLD RECOVERED amount={amount}"] },
    { s with vault := vault, ledger := s.ledger.record entry, world := w })

/-! ## Rule changes -/

namespace HoldChange

variable (values : HoldChange) (vault : HoldVault)

/-- The guardian is set where none was. -/
def addsGuardian : Prop :=
  vault.guardian = Pubkey.default ∧ values.guardian ≠ Pubkey.default

instance : Decidable (values.addsGuardian vault) := inferInstanceAs (Decidable (_ ∧ _))

def tighten : UInt8 :=
  changeMask (values.dailyLimit < vault.dailyLimit) (vault.delaySecs < values.delaySecs)
    (values.bigShareBps < vault.bigShareBps)
    (values.guardian ≠ vault.guardian ∧ values.addsGuardian vault) false

def loosen : UInt8 :=
  changeMask (vault.dailyLimit < values.dailyLimit) (values.delaySecs < vault.delaySecs)
    (vault.bigShareBps < values.bigShareBps)
    (values.guardian ≠ vault.guardian ∧ ¬ values.addsGuardian vault)
    (values.safeAddress ≠ vault.safeAddress)

def queued (fields : UInt8) (effectiveAt : Int64) : PendingChange where
  active := true
  fields := fields
  bigShareBps := values.bigShareBps
  dailyLimit := values.dailyLimit
  delaySecs := values.delaySecs
  guardian := values.guardian
  safeAddress := values.safeAddress
  effectiveAt := effectiveAt

end HoldChange

/-- Tightening takes effect at once. -/
def HoldVault.applyTighten (vault : HoldVault) (fields : UInt8) (values : HoldChange) : HoldVault :=
  { vault with
    dailyLimit := if fields &&& CHANGE_DAILY ≠ 0 then values.dailyLimit else vault.dailyLimit
    delaySecs := if fields &&& CHANGE_DELAY ≠ 0 then values.delaySecs else vault.delaySecs
    bigShareBps := if fields &&& CHANGE_SHARE ≠ 0 then values.bigShareBps else vault.bigShareBps
    guardian := if fields &&& CHANGE_GUARDIAN ≠ 0 then values.guardian else vault.guardian }

/-- The waiting fields take effect, and nothing waits any more. -/
def HoldVault.applyPending (vault : HoldVault) (pending : PendingChange) : HoldVault :=
  { vault with
    dailyLimit :=
      if pending.fields &&& CHANGE_DAILY ≠ 0 then pending.dailyLimit else vault.dailyLimit
    delaySecs :=
      if pending.fields &&& CHANGE_DELAY ≠ 0 then pending.delaySecs else vault.delaySecs
    bigShareBps :=
      if pending.fields &&& CHANGE_SHARE ≠ 0 then pending.bigShareBps else vault.bigShareBps
    guardian :=
      if pending.fields &&& CHANGE_GUARDIAN ≠ 0 then pending.guardian else vault.guardian
    safeAddress :=
      if pending.fields &&& CHANGE_SAFE ≠ 0 then pending.safeAddress else vault.safeAddress
    change := .default }

structure ProposeChange where
  owner : Pubkey
  ledger : Pubkey

def ProposeChange.load (accts : ProposeChange) (rt : Runtime) (signers : List Pubkey)
    (s : HoldState) : Except ProgramError Unit := do
  s.requireOwner signers accts.owner
  s.requireVaultSeeds rt
  s.requireLedger rt accts.ledger

/-- What a proposal leaves behind for the fields it tightens. -/
def tightenOutput (now : Int64) (key : Pubkey) (tighten : UInt8) : HoldOutput :=
  if tighten ≠ 0 then
    { records := [holdEntry now .changeApplied 0 Pubkey.default 0 tighten]
      events := [.changeApplied key tighten]
      logs := [s!"HOLD CHANGE APPLIED fields={tighten}"] }
  else { records := [], events := [], logs := [] }

/-- Tighten a rule now.  A looser rule waits out the current delay. -/
def proposeChange (rt : Runtime) (now : Int64) (signers : List Pubkey) (accts : ProposeChange)
    (values : HoldChange) (s : HoldState) : HoldResult := do
  accts.load rt signers s
  requireRules values.delaySecs values.bigShareBps values.safeAddress values.guardian accts.owner
    s.key
  let tighten := values.tighten s.vault
  let loosen := values.loosen s.vault
  require (tighten ≠ 0 ∨ loosen ≠ 0) (.veto .changeUnchanged)
  require (loosen ≠ 0 → s.vault.change.active = false) (.veto .changeAlreadyPending)
  let vault := s.vault.applyTighten tighten values
  let out := tightenOutput now s.key tighten
  let ledger := out.records.foldl HoldLedger.record s.ledger
  if loosen ≠ 0 then
    let effectiveAt ← okOr (checkedAddI64 now vault.delaySecs) (.veto .holdMathOverflow)
    let entry := holdEntry now .changeProposed 0 values.safeAddress 0 loosen
    return (
      { records := out.records ++ [entry]
        events := out.events ++ [.changeProposed s.key effectiveAt loosen]
        logs := out.logs ++
          [s!"HOLD CHANGE PROPOSED effective_at={effectiveAt} fields={loosen}"] },
      { s with
        vault := { vault with change := values.queued loosen effectiveAt }
        ledger := ledger.record entry })
  else return (out, { s with vault := vault, ledger := ledger })

structure ApplyChange where
  ledger : Pubkey

def ApplyChange.load (accts : ApplyChange) (rt : Runtime) (s : HoldState) :
    Except ProgramError Unit := do
  s.requireVaultSeeds rt
  s.requireLedger rt accts.ledger

/-- Apply a loosening change once the chain clock reaches its effective time. -/
def applyChange (rt : Runtime) (now : Int64) (accts : ApplyChange) (s : HoldState) :
    HoldResult := do
  accts.load rt s
  let pending := s.vault.change
  require (pending.active = true) (.veto .noPendingChange)
  require (pending.effectiveAt ≤ now) (.veto .changeNotReady)
  require (pending.fields &&& CHANGE_DELAY ≠ 0 → delayAllowed pending.delaySecs)
    (.veto .delayNotAllowed)
  require (pending.fields &&& CHANGE_SHARE ≠ 0 →
    pending.bigShareBps.toUInt64 ≤ HOLD_BPS_DENOMINATOR) (.veto .shareOutOfRange)
  require (pending.fields &&& CHANGE_GUARDIAN ≠ 0 ∧ pending.guardian ≠ Pubkey.default →
    pending.guardian ≠ s.vault.owner) (.veto .guardianIsOwner)
  require (pending.fields &&& CHANGE_SAFE ≠ 0 →
    pending.safeAddress ≠ Pubkey.default ∧ pending.safeAddress ≠ s.key)
    (.veto .safeAddressRequired)
  let entry := holdEntry now .changeApplied 0 pending.safeAddress 0 pending.fields
  return (
    { records := [entry]
      events := [.changeApplied s.key pending.fields]
      logs := [s!"HOLD CHANGE APPLIED fields={pending.fields}"] },
    { s with vault := s.vault.applyPending pending, ledger := s.ledger.record entry })

abbrev CancelChange := AuthorityAccounts

def cancelChange (rt : Runtime) (now : Int64) (signers : List Pubkey) (accts : CancelChange)
    (s : HoldState) : HoldResult := do
  accts.load rt signers s
  require (s.vault.change.active = true) (.veto .noPendingChange)
  let entry := holdEntry now .changeCancelled 0 Pubkey.default 0 HOLD_REASON_NONE
  return (
    { records := [entry]
      events := [.changeCancelled s.key]
      logs := ["HOLD CHANGE CANCELLED"] },
    { s with
      vault := { s.vault with change := .default }
      ledger := s.ledger.record entry })

/-! ## One instruction -/

inductive HoldInstr
  | deposit (accts : Deposit) (amount : UInt64)
  | withdraw (accts : Withdraw) (amount : UInt64)
  | execute (accts : Execute) (id : UInt64)
  | stop (accts : Stop) (id : UInt64)
  | freeze (accts : Freeze)
  | unfreeze (accts : Unfreeze)
  | skip (accts : Skip) (id : UInt64)
  | recover (accts : Recover)
  | proposeChange (accts : ProposeChange) (values : HoldChange)
  | applyChange (accts : ApplyChange)
  | cancelChange (accts : CancelChange)
  /-- Anything else on chain that rewrites accounts of other programs. -/
  | outside (w : World)

structure HoldInput where
  now : Int64
  signers : List Pubkey
  instr : HoldInstr

def HoldState.exec (rt : Runtime) (s : HoldState) (i : HoldInput) : HoldResult :=
  match i.instr with
  | .deposit accts amount => deposit rt i.now i.signers accts amount s
  | .withdraw accts amount => withdraw rt i.now i.signers accts amount s
  | .execute accts id => execute rt i.now accts id s
  | .stop accts id => stop rt i.now i.signers accts id s
  | .freeze accts => freeze rt i.now i.signers accts s
  | .unfreeze accts => unfreeze rt i.now i.signers accts s
  | .skip accts id => skip rt i.now i.signers accts id s
  | .recover accts => recover rt i.now i.signers accts s
  | .proposeChange accts values => proposeChange rt i.now i.signers accts values s
  | .applyChange accts => applyChange rt i.now accts s
  | .cancelChange accts => cancelChange rt i.now i.signers accts s
  | .outside w => .ok ({ records := [], events := [], logs := [] }, { s with world := w })

/-- One step of a vault.  An instruction that fails is rolled back and takes no step. -/
def HoldStep (rt : Runtime) (s : HoldState) (i : HoldInput) (o : HoldOutput) (s' : HoldState) :
    Prop :=
  s.exec rt i = .ok (o, s')

end Veto
