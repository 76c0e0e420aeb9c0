import Veto.Foundation.Result
import Veto.Foundation.Run
import Mathlib.Tactic.Ring

/-!
# The chain around the program

What the Veto program sees of Solana: addresses and derived addresses, the
accounts other programs own, and the token program it calls.  Account data of
the SPL programs is kept decoded; an account of no known layout keeps its bytes.

The token program and the derivation of addresses are parameters (`Runtime`).
What a result needs from the token program is stated as a hypothesis about the
parameter, and `classicToken` is one program that satisfies it.  Rent and
lamports are not modelled, nor is the framework's refusal of one account passed
twice as mutable: what is proved of every run covers the runs it would stop.
-/

namespace Veto

open Foundation

/-! ## Addresses -/

/-- A Solana address: its 32 bytes, read as one big-endian number. -/
abbrev Pubkey := BitVec 256

def Pubkey.default : Pubkey := 0

def Pubkey.toBytes (k : Pubkey) : List UInt8 :=
  (List.range 32).map fun i => UInt8.ofNat (k.toNat >>> (8 * (31 - i)))

def base58Alphabet : List Char :=
  "123456789ABCDEFGHJKLMNPQRSTUVWXYZabcdefghijkmnopqrstuvwxyz".toList

/-- The base 58 digits of a number, at most `fuel` of them, in front of `digits`. -/
def base58Digits : Nat → Nat → List Char → List Char
  | 0, _, digits => digits
  | fuel + 1, n, digits =>
      if n = 0 then digits
      else base58Digits fuel (n / 58) (base58Alphabet.getD (n % 58) '1' :: digits)

/-- How an address is printed: a `1` for each leading zero byte, then its digits. -/
def Pubkey.display (k : Pubkey) : String :=
  String.ofList ((k.toBytes.takeWhile (· = 0)).map (fun _ => '1') ++ base58Digits 44 k.toNat [])

/-- `to_le_bytes` of a `u64`. -/
def leBytes (n : UInt64) : List UInt8 :=
  (List.range 8).map fun i => UInt8.ofNat (n.toNat >>> (8 * i))

def splTokenId : Pubkey :=
  0x06ddf6e1d765a193d9cbe146ceeb79ac1cb485ed5f5b37913a8cf5857eff00a9

def splToken2022Id : Pubkey :=
  0x06ddf6e1ee758fde18425dbce46ccddab61afc4d83b90d27febdf928d8a18bfc

inductive Seed
  | text (s : String)
  | key (k : Pubkey)
  | u64 (n : UInt64)
  | bump (b : UInt8)
  deriving DecidableEq

/-- Derivation of addresses under one program.  `find` is
`find_program_address`, `create` is `create_program_address`. -/
structure Pda where
  find : List Seed → Pubkey × UInt8
  create : List Seed → Option Pubkey
  create_find : ∀ seeds, create (seeds ++ [.bump (find seeds).2]) = some (find seeds).1

/-- A derivation in which every list of seeds has bump 255. -/
def Pda.ofAddresses (address : List Seed → Pubkey) : Pda where
  find seeds := (address seeds, 255)
  create seeds := if seeds.getLast? = some (.bump 255) then some (address seeds.dropLast) else none
  create_find seeds := by simp

/-! ## Errors -/

inductive VetoError
  | capMustBePositive
  | perTxMaxMustBePositive
  | perTxMaxAboveCap
  | expiryInThePast
  | purposeTooLong
  | merchantRequired
  | agentMustNotBeOwner
  | sourceNotOwnedByOwner
  | mintMismatch
  | sourceMismatch
  | ledgerMismatch
  | notTheAgent
  | notTheOwner
  | invalidMandatePda
  | mandateNotActive
  | mandateStillActive
  | nonceRequired
  | amountMustBePositive
  | overrideAboveCap
  | mathOverflow
  | nonceAlreadySettled
  | delayNotAllowed
  | shareOutOfRange
  | safeAddressRequired
  | guardianIsOwner
  | positiveAmountRequired
  | holdMathOverflow
  | notTheVaultOwner
  | notOwnerOrGuardian
  | notTheGuardian
  | bothKeysRequired
  | invalidVaultPda
  | vaultTokenMismatch
  | holdMintMismatch
  | holdSourceNotOwned
  | destinationIsVault
  | destinationMismatch
  | notTheSafeAddress
  | withdrawalNotPending
  | tooEarly
  | vaultFrozen
  | notFrozen
  | unfreezeNotReady
  | changeAlreadyPending
  | noPendingChange
  | changeNotReady
  | changeUnchanged
  | nothingToRecover
  | holdInsufficientFunds
  | badVaultAuthority
  | invalidTradeRulePda
  | tradeDeltaMismatch
  | poolAccountMismatch
  | tradeLimitsOutOfOrder
  | floorDenominatorRequired
  | exchangeNotSupported
  | destinationNotOwnedByOwner
  | unexpectedTradeAccount
  | tradeRuleNotActive
  | tradeRuleStillActive
  | floorRequired
  | dailyLimitRequired
  | sourceAlreadyDelegated
  | notATokenAccount
  deriving DecidableEq

inductive AnchorError
  | accountNotInitialized
  | accountOwnedByWrongProgram
  | accountDidNotDeserialize
  | accountNotSigner
  | accountAlreadyInUse
  | constraintSeeds
  | constraintAddress
  | invalidProgramId
  deriving DecidableEq

/-- Why an instruction failed.  A failed instruction leaves the chain as it was. -/
inductive ProgramError
  | veto (e : VetoError)
  | anchor (e : AnchorError)
  | cpi
  deriving DecidableEq

/-! ## Accounts of other programs -/

structure TokenAccount where
  mint : Pubkey
  owner : Pubkey
  amount : UInt64
  delegate : Option Pubkey
  delegatedAmount : UInt64
  frozen : Bool
  deriving DecidableEq

def TokenAccount.isFrozen (a : TokenAccount) : Bool := a.frozen

structure Mint where
  decimals : UInt8
  deriving DecidableEq

inductive AccountData
  | token (a : TokenAccount)
  | mint (m : Mint)
  | bytes (data : List UInt8)
  deriving DecidableEq

namespace AccountData

def token? : AccountData → Option TokenAccount
  | .token a => some a
  | _ => none

def mint? : AccountData → Option Mint
  | .mint m => some m
  | _ => none

end AccountData

/-- An account: the program that owns it and its data. -/
structure AccountInfo where
  owner : Pubkey
  data : AccountData
  deriving DecidableEq

/-- Every account that Veto does not own.  `none` is an address that holds no data. -/
abbrev World := Pubkey → Option AccountInfo

namespace World

def set (w : World) (k : Pubkey) (info : AccountInfo) : World :=
  fun k' => if k' = k then some info else w k'

@[simp] theorem set_self (w : World) (k : Pubkey) (info : AccountInfo) :
    w.set k info k = some info := by
  simp [set]

theorem set_of_ne (w : World) {k k' : Pubkey} (info : AccountInfo) (hne : k' ≠ k) :
    w.set k info k' = w k' := by
  simp [set, hne]

def tokenAt (w : World) (k : Pubkey) : Option TokenAccount :=
  (w k).bind fun info => info.data.token?

/-- The token balance of an address, zero where there is no token account. -/
def balance (w : World) (k : Pubkey) : Nat := ((w.tokenAt k).map fun a => a.amount.toNat).getD 0

def tokenOwner (w : World) (k : Pubkey) : Option Pubkey := (w.tokenAt k).map TokenAccount.owner

/-- Load the account at an address: one of `programs` owns it, and its data decodes. -/
def load {α : Type} (w : World) (programs : List Pubkey) (missing : AnchorError)
    (decode : AccountData → Option α) (k : Pubkey) : Except ProgramError α :=
  match w k with
  | none => .error (.anchor missing)
  | some info => do
      require (info.owner ∈ programs) (.anchor .accountOwnedByWrongProgram)
      okOr (decode info.data) (.anchor .accountDidNotDeserialize)

/-- Load an `InterfaceAccount<TokenAccount>`: either token program may own it. -/
def interfaceToken (w : World) : Pubkey → Except ProgramError TokenAccount :=
  w.load [splTokenId, splToken2022Id] .accountNotInitialized AccountData.token?

def interfaceMint (w : World) : Pubkey → Except ProgramError Mint :=
  w.load [splTokenId, splToken2022Id] .accountNotInitialized AccountData.mint?

/-- Load an `Account<TokenAccount>`: the classic token program owns it. -/
def splToken (w : World) : Pubkey → Except ProgramError TokenAccount :=
  w.load [splTokenId] .accountNotInitialized AccountData.token?

def splMint (w : World) : Pubkey → Except ProgramError Mint :=
  w.load [splTokenId] .accountNotInitialized AccountData.mint?

/-- `Account::reload`: read a token account again after a call. -/
def reloadToken (w : World) : Pubkey → Except ProgramError TokenAccount :=
  w.load [splTokenId] .accountOwnedByWrongProgram AccountData.token?

theorem tokenAt_of_load {w : World} {programs : List Pubkey} {missing : AnchorError} {k : Pubkey}
    {a : TokenAccount} (h : w.load programs missing AccountData.token? k = .ok a) :
    w.tokenAt k = some a := by
  unfold load at h
  unfold tokenAt
  cases hk : w k with
  | none =>
      rw [hk] at h
      cases h
  | some info =>
      rw [hk] at h
      obtain ⟨-, h⟩ := require_bind_ok_iff.mp h
      exact okOr_eq_ok.mp h

theorem balance_congr {w w' : World} {k : Pubkey} (h : w' k = w k) :
    w'.balance k = w.balance k := by
  unfold balance tokenAt
  rw [h]

theorem balance_eq {w : World} {k : Pubkey} {a : TokenAccount} (h : w.tokenAt k = some a) :
    w.balance k = a.amount.toNat := by
  unfold balance
  rw [h]
  rfl

theorem balance_of_load {w : World} {programs : List Pubkey} {missing : AnchorError} {k : Pubkey}
    {a : TokenAccount} (h : w.load programs missing AccountData.token? k = .ok a) :
    w.balance k = a.amount.toNat :=
  balance_eq (tokenAt_of_load h)

theorem tokenOwner_of_load {w : World} {programs : List Pubkey} {missing : AnchorError}
    {k : Pubkey} {a : TokenAccount}
    (h : w.load programs missing AccountData.token? k = .ok a) :
    w.tokenOwner k = some a.owner := by
  unfold tokenOwner
  rw [tokenAt_of_load h]
  rfl

theorem tokenAt_eq {w : World} {k owner : Pubkey} {a : TokenAccount}
    (h : w k = some ⟨owner, .token a⟩) : w.tokenAt k = some a := by
  unfold tokenAt
  rw [h]
  rfl

end World

/-- A signer account of an instruction: its key is among the signers of the transaction. -/
def signer (signers : List Pubkey) (k : Pubkey) : Except ProgramError Unit :=
  require (k ∈ signers) (.anchor .accountNotSigner)

theorem signer_bind_ok_iff {α : Type} {signers : List Pubkey} {k : Pubkey}
    {next : Unit → Except ProgramError α} {a : α} :
    (signer signers k >>= next) = .ok a ↔ k ∈ signers ∧ next () = .ok a :=
  require_bind_ok_iff

def optionalSigner (signers : List Pubkey) : Option Pubkey → Except ProgramError Unit
  | some k => signer signers k
  | none => .ok ()

/-- `Interface<TokenInterface>`: one of the two token programs. -/
def tokenInterface (program : Pubkey) : Except ProgramError Unit :=
  require (program = splTokenId ∨ program = splToken2022Id) (.anchor .invalidProgramId)

/-- `Program<Token>`, at its own address. -/
def classicProgram (program : Pubkey) : Except ProgramError Unit :=
  require (program = splTokenId) (.anchor .invalidProgramId)

/-- An account that `init` creates must not exist yet. -/
def vacant (w : World) (k : Pubkey) : Except ProgramError Unit :=
  require (w k = none) (.anchor .accountAlreadyInUse)

/-! ## The token program -/

/-- The accounts of `TransferChecked`; `source` and `destination` are `from` and `to`. -/
structure TransferChecked where
  source : Pubkey
  destination : Pubkey
  authority : Pubkey
  mint : Pubkey

/-- The accounts of `ApproveChecked`; `source` is `to`. -/
structure ApproveChecked where
  source : Pubkey
  delegate : Pubkey
  authority : Pubkey
  mint : Pubkey

structure Revoke where
  source : Pubkey
  authority : Pubkey

structure InitializeAccount where
  account : Pubkey
  mint : Pubkey
  owner : Pubkey

/-- The token instructions Veto calls, each with the token program it is sent
to.  `none` is a failed call.  The authority named has signed: it is a signer of
the transaction, or the derived address whose seeds Veto signs with. -/
structure TokenProgram where
  initializeAccount : Pubkey → World → InitializeAccount → Option World
  transferChecked : Pubkey → World → TransferChecked → UInt64 → UInt8 → Option World
  approveChecked : Pubkey → World → ApproveChecked → UInt64 → UInt8 → Option World
  revoke : Pubkey → World → Revoke → Option World

/-- A transfer moved exactly `amount`, and touched nothing but its two accounts. -/
structure Moved (w w' : World) (t : TransferChecked) (amount : UInt64) : Prop where
  funded : amount.toNat ≤ w.balance t.source
  debit : t.source ≠ t.destination →
    w'.balance t.source = w.balance t.source - amount.toNat
  credit : t.source ≠ t.destination →
    w'.balance t.destination = w.balance t.destination + amount.toNat
  self : t.source = t.destination → w'.balance t.source = w.balance t.source
  frame : ∀ k, k ≠ t.source → k ≠ t.destination → w' k = w k

/-- Documented behaviour of the classic SPL token program: a transfer that
succeeds moves its amount. -/
def TokenProgram.ClassicTransfer (p : TokenProgram) : Prop :=
  ∀ w w' t amount decimals,
    p.transferChecked splTokenId w t amount decimals = some w' → Moved w w' t amount

/-- Who may move `amount` out: a delegate within its allowance, else the owner. -/
def TokenAccount.allows (a : TokenAccount) (authority : Pubkey) (amount : UInt64) : Bool :=
  if a.delegate = some authority then amount ≤ a.delegatedAmount else a.owner = authority

/-- What the classic token program asks of a transfer: its accounts are of the program and
of the mint named, neither is frozen, the decimals are those of the mint, the balance is
there, and the authority may spend it. -/
structure TransferAllowed (program : Pubkey) (w : World) (t : TransferChecked)
    (amount : UInt64) (decimals : UInt8) (src dst : TokenAccount) (m : Mint) : Prop where
  source : w t.source = some ⟨program, .token src⟩
  destination : w t.destination = some ⟨program, .token dst⟩
  mint : w t.mint = some ⟨program, .mint m⟩
  thawed : src.frozen = false ∧ dst.frozen = false
  mints : src.mint = t.mint ∧ dst.mint = t.mint
  decimals : m.decimals = decimals
  funded : amount ≤ src.amount
  allowed : src.allows t.authority amount = true

/-- The account after `amount` left it.  A delegate pays out of its allowance
and is forgotten when nothing is left of it. -/
def TokenAccount.debit (a : TokenAccount) (authority : Pubkey) (amount : UInt64) : TokenAccount :=
  if a.delegate = some authority then
    { a with
      amount := a.amount - amount
      delegatedAmount := a.delegatedAmount - amount
      delegate := if a.delegatedAmount = amount then none else a.delegate }
  else { a with amount := a.amount - amount }

/-- Documented behaviour of the classic SPL token program: a transfer between two accounts
that together hold less than a word goes through exactly when it is allowed, and then
debits the one and credits the other. -/
structure TokenProgram.DecidesTransfers (p : TokenProgram) : Prop where
  allowed_iff : ∀ program w t amount decimals,
    (t.source ≠ t.destination → w.balance t.source + w.balance t.destination < 2 ^ 64) →
    ((p.transferChecked program w t amount decimals).isSome ↔
      ∃ src dst m, TransferAllowed program w t amount decimals src dst m)
  moves : ∀ program w w' t amount decimals src dst,
    p.transferChecked program w t amount decimals = some w' → t.source ≠ t.destination →
    w.tokenAt t.source = some src → w.tokenAt t.destination = some dst →
    w'.tokenAt t.source = some (src.debit t.authority amount) ∧
      w'.tokenAt t.destination = some { dst with amount := dst.amount + amount } ∧
      dst.amount.toNat + amount.toNat < 2 ^ 64

/-- Documented behaviour of the classic SPL token program: an approval replaces the one
delegate of its source; a revocation, which the owner of a source that is not frozen may
ask for, clears it. -/
structure TokenProgram.DecidesDelegation (p : TokenProgram) : Prop where
  approves : ∀ program w w' t amount decimals,
    p.approveChecked program w t amount decimals = some w' →
    ∃ a, w t.source = some ⟨program, .token a⟩ ∧ w' = w.set t.source
      ⟨program, .token { a with delegate := some t.delegate, delegatedAmount := amount }⟩
  revoke_iff : ∀ program w t, (p.revoke program w t).isSome ↔
    ∃ a, w t.source = some ⟨program, .token a⟩ ∧ a.frozen = false ∧ a.owner = t.authority
  revokes : ∀ program w w' t, p.revoke program w t = some w' →
    ∃ a, w t.source = some ⟨program, .token a⟩ ∧ w' = w.set t.source
      ⟨program, .token { a with delegate := none, delegatedAmount := 0 }⟩

/-- Which program owns the account at an address and, for a token account, who holds it and
whether it is frozen. -/
def World.holderOf (w : World) (k : Pubkey) : Option (Pubkey × Option (Pubkey × Bool)) :=
  (w k).map fun info => (info.owner, info.data.token?.map fun a => (a.owner, a.frozen))

/-- Documented behaviour of the classic SPL token program: no transfer, approval or
revocation makes or closes an account, freezes or thaws it, or gives it to another holder;
an initialization writes to its own account. -/
structure TokenProgram.KeepsHolders (p : TokenProgram) : Prop where
  transfer : ∀ program w w' t amount decimals,
    p.transferChecked program w t amount decimals = some w' → ∀ k, w'.holderOf k = w.holderOf k
  approve : ∀ program w w' t amount decimals,
    p.approveChecked program w t amount decimals = some w' → ∀ k, w'.holderOf k = w.holderOf k
  revoke : ∀ program w w' t, p.revoke program w t = some w' →
    ∀ k, w'.holderOf k = w.holderOf k
  create : ∀ program w w' t, p.initializeAccount program w t = some w' →
    ∀ k, k ≠ t.account → w'.holderOf k = w.holderOf k

/-- What the program relies on outside itself. -/
structure Runtime where
  pda : Pda
  /-- `create_program_address` under another program. -/
  foreignAddress : Pubkey → List Seed → Option Pubkey
  token : TokenProgram

theorem Moved.balance_le_of_ne {w w' : World} {t : TransferChecked} {amount : UInt64}
    (h : Moved w w' t amount) {k : Pubkey} (hk : k ≠ t.source) : w.balance k ≤ w'.balance k := by
  by_cases hd : k = t.destination
  · subst hd
    rw [h.credit (Ne.symm hk)]
    exact Nat.le_add_right _ _
  · have hsame : w' k = w k := h.frame k hk hd
    exact Nat.le_of_eq (World.balance_congr hsame).symm

theorem Moved.balance_destination_le {w w' : World} {t : TransferChecked} {amount : UInt64}
    (h : Moved w w' t amount) : w.balance t.destination ≤ w'.balance t.destination := by
  by_cases hself : t.source = t.destination
  · have hsame := h.self hself
    rw [hself] at hsame
    exact Nat.le_of_eq hsame.symm
  · exact h.balance_le_of_ne (Ne.symm hself)

/-! ## Calls to other programs -/

structure AccountMeta where
  pubkey : Pubkey
  isSigner : Bool
  isWritable : Bool

structure Instruction where
  programId : Pubkey
  accounts : List AccountMeta
  data : List UInt8

/-- Whatever a called program does to the accounts; `none` is a failed call. -/
abbrev Callee := Instruction → World → Option World

/-! ### A token program -/

def TokenAccount.fresh (mint owner : Pubkey) : TokenAccount :=
  { mint := mint, owner := owner, amount := 0, delegate := none, delegatedAmount := 0,
    frozen := false }

def classicInitialize (program : Pubkey) (w : World) (t : InitializeAccount) : Option World :=
  match w t.mint with
  | some ⟨r, .mint _⟩ =>
      if r = program then
        some (w.set t.account ⟨program, .token (.fresh t.mint t.owner)⟩)
      else none
  | _ => none

@[simp] theorem TokenAccount.debit_amount (a : TokenAccount) (authority : Pubkey)
    (amount : UInt64) : (a.debit authority amount).amount = a.amount - amount := by
  unfold TokenAccount.debit
  split <;> rfl

def classicTransfer (program : Pubkey) (w : World) (t : TransferChecked) (amount : UInt64)
    (decimals : UInt8) : Option World :=
  match w t.source, w t.destination, w t.mint with
  | some ⟨p, .token src⟩, some ⟨q, .token dst⟩, some ⟨r, .mint m⟩ =>
      if p = program ∧ q = program ∧ r = program ∧ src.frozen = false ∧ dst.frozen = false ∧
          src.mint = t.mint ∧ dst.mint = t.mint ∧ m.decimals = decimals ∧
          amount ≤ src.amount ∧ src.allows t.authority amount = true then
        if t.source = t.destination then some w
        else if dst.amount.toNat + amount.toNat < 2 ^ 64 then
          some ((w.set t.source ⟨p, .token (src.debit t.authority amount)⟩).set t.destination
            ⟨q, .token { dst with amount := dst.amount + amount }⟩)
        else none
      else none
  | _, _, _ => none

/-- The approval of the classic token program: the owner of the source names one delegate. -/
def classicApprove (program : Pubkey) (w : World) (t : ApproveChecked) (amount : UInt64)
    (decimals : UInt8) : Option World :=
  match w t.source, w t.mint with
  | some ⟨p, .token src⟩, some ⟨r, .mint m⟩ =>
      if p = program ∧ r = program ∧ src.frozen = false ∧ src.mint = t.mint ∧
          m.decimals = decimals ∧ src.owner = t.authority then
        some (w.set t.source
          ⟨p, .token { src with delegate := some t.delegate, delegatedAmount := amount }⟩)
      else none
  | _, _ => none

def classicRevoke (program : Pubkey) (w : World) (t : Revoke) : Option World :=
  match w t.source with
  | some ⟨p, .token src⟩ =>
      if p = program ∧ src.frozen = false ∧ src.owner = t.authority then
        some (w.set t.source ⟨p, .token { src with delegate := none, delegatedAmount := 0 }⟩)
      else none
  | _ => none

def classicToken : TokenProgram where
  initializeAccount := classicInitialize
  transferChecked := classicTransfer
  approveChecked := classicApprove
  revoke := classicRevoke

theorem classicToken_transfers : classicToken.ClassicTransfer := by
  intro w w' t amount decimals h
  change classicTransfer splTokenId w t amount decimals = some w' at h
  unfold classicTransfer at h
  split at h
  · rename_i p src q dst r m hsrc hdst hmint
    rw [Option.ite_none_right_eq_some] at h
    obtain ⟨⟨-, -, -, -, -, -, -, -, hfunds, -⟩, h⟩ := h
    have hle : amount.toNat ≤ src.amount.toNat := UInt64.le_iff_toNat_le.mp hfunds
    have hsource : w.balance t.source = src.amount.toNat :=
      World.balance_eq (World.tokenAt_eq hsrc)
    have hdestination : w.balance t.destination = dst.amount.toNat :=
      World.balance_eq (World.tokenAt_eq hdst)
    have hfunded : amount.toNat ≤ w.balance t.source := by rwa [hsource]
    by_cases hself : t.source = t.destination
    · rw [if_pos hself, Option.some.injEq] at h
      subst h
      exact ⟨hfunded, fun hne => absurd hself hne, fun hne => absurd hself hne, fun _ => rfl,
        fun _ _ _ => rfl⟩
    · rw [if_neg hself, Option.ite_none_right_eq_some, Option.some.injEq] at h
      obtain ⟨hroom, rfl⟩ := h
      refine ⟨hfunded, fun _ => ?_, fun _ => ?_, fun hs => absurd hs hself, ?_⟩
      · have hpost := (World.set_of_ne (w.set t.source ⟨p, .token (src.debit t.authority amount)⟩)
          ⟨q, .token { dst with amount := dst.amount + amount }⟩ hself).trans
          (World.set_self _ _ _)
        rw [hsource, World.balance_eq (World.tokenAt_eq hpost), TokenAccount.debit_amount]
        exact UInt64.toNat_sub_of_le _ _ hfunds
      · rw [hdestination, World.balance_eq (World.tokenAt_eq (World.set_self _ _ _)),
          UInt64.toNat_add, Nat.mod_eq_of_lt hroom]
      · intro k hk hk'
        rw [World.set_of_ne _ _ hk', World.set_of_ne _ _ hk]
  · cases h

/-- `classicTransfer` goes through exactly when the transfer is allowed and the destination
has room. -/
theorem classicTransfer_isSome {program : Pubkey} {w : World} {t : TransferChecked}
    {amount : UInt64} {decimals : UInt8}
    (hfit : t.source ≠ t.destination → w.balance t.source + w.balance t.destination < 2 ^ 64) :
    (classicTransfer program w t amount decimals).isSome ↔
      ∃ src dst m, TransferAllowed program w t amount decimals src dst m := by
  constructor
  · intro h
    unfold classicTransfer at h
    split at h
    · rename_i p src q dst r m hsrc hdst hmint
      split at h
      · rename_i hall
        obtain ⟨rfl, rfl, rfl, hsf, hdf, hsm, hdm, hdec, hfunds, hallows⟩ := hall
        exact ⟨src, dst, m, hsrc, hdst, hmint, ⟨hsf, hdf⟩, ⟨hsm, hdm⟩, hdec, hfunds, hallows⟩
      · cases h
    · cases h
  · rintro ⟨src, dst, m, hallowed⟩
    have hle : amount.toNat ≤ src.amount.toNat := UInt64.le_iff_toNat_le.mp hallowed.funded
    unfold classicTransfer
    rw [hallowed.source, hallowed.destination, hallowed.mint]
    dsimp only
    rw [if_pos ⟨rfl, rfl, rfl, hallowed.thawed.1, hallowed.thawed.2, hallowed.mints.1,
      hallowed.mints.2, hallowed.decimals, hallowed.funded, hallowed.allowed⟩]
    by_cases hself : t.source = t.destination
    · rw [if_pos hself]
      rfl
    · have hroom := hfit hself
      rw [World.balance_eq (World.tokenAt_eq hallowed.source),
        World.balance_eq (World.tokenAt_eq hallowed.destination)] at hroom
      rw [if_neg hself, if_pos (by omega)]
      rfl

theorem classicTransfer_moves {program : Pubkey} {w w' : World} {t : TransferChecked}
    {amount : UInt64} {decimals : UInt8} {src dst : TokenAccount}
    (h : classicTransfer program w t amount decimals = some w') (hne : t.source ≠ t.destination)
    (hsource : w.tokenAt t.source = some src) (hdestination : w.tokenAt t.destination = some dst) :
    w'.tokenAt t.source = some (src.debit t.authority amount) ∧
      w'.tokenAt t.destination = some { dst with amount := dst.amount + amount } ∧
      dst.amount.toNat + amount.toNat < 2 ^ 64 := by
  unfold classicTransfer at h
  split at h
  · rename_i p src' q dst' r m hsrc hdst hmint
    rw [World.tokenAt_eq hsrc, Option.some.injEq] at hsource
    rw [World.tokenAt_eq hdst, Option.some.injEq] at hdestination
    subst hsource hdestination
    rw [Option.ite_none_right_eq_some, if_neg hne, Option.ite_none_right_eq_some,
      Option.some.injEq] at h
    obtain ⟨-, hroom, rfl⟩ := h
    refine ⟨?_, World.tokenAt_eq (World.set_self _ _ _), hroom⟩
    exact World.tokenAt_eq ((World.set_of_ne _ _ hne).trans (World.set_self _ _ _))
  · cases h

theorem classicToken_decides : classicToken.DecidesTransfers where
  allowed_iff _ _ _ _ _ hfit := classicTransfer_isSome hfit
  moves _ _ _ _ _ _ _ _ h hne hsource hdestination :=
    classicTransfer_moves h hne hsource hdestination

theorem classicToken_delegates : classicToken.DecidesDelegation where
  approves program w w' t amount decimals h := by
    change classicApprove program w t amount decimals = some w' at h
    unfold classicApprove at h
    split at h
    · rename_i p src r m hsource hmint
      rw [Option.ite_none_right_eq_some, Option.some.injEq] at h
      obtain ⟨⟨rfl, -⟩, rfl⟩ := h
      exact ⟨src, hsource, rfl⟩
    · cases h
  revoke_iff program w t := by
    show (classicRevoke program w t).isSome ↔ _
    unfold classicRevoke
    constructor
    · intro h
      split at h
      · rename_i p src hsource
        split at h
        · rename_i hall
          obtain ⟨rfl, hfrozen, howner⟩ := hall
          exact ⟨src, hsource, hfrozen, howner⟩
        · cases h
      · cases h
    · rintro ⟨a, hsource, hfrozen, howner⟩
      rw [hsource]
      dsimp only
      rw [if_pos ⟨rfl, hfrozen, howner⟩]
      rfl
  revokes program w w' t h := by
    change classicRevoke program w t = some w' at h
    unfold classicRevoke at h
    split at h
    · rename_i p src hsource
      rw [Option.ite_none_right_eq_some, Option.some.injEq] at h
      obtain ⟨⟨rfl, -⟩, rfl⟩ := h
      exact ⟨src, hsource, rfl⟩
    · cases h

/-- Rewriting a token account without touching its holder or its freeze. -/
theorem World.holderOf_set {w : World} {k k' program : Pubkey} {a a' : TokenAccount}
    (hk : w k = some ⟨program, .token a⟩) (howner : a'.owner = a.owner)
    (hfrozen : a'.frozen = a.frozen) :
    (w.set k ⟨program, .token a'⟩).holderOf k' = w.holderOf k' := by
  unfold World.holderOf
  by_cases hsame : k' = k
  · subst hsame
    rw [World.set_self, hk]
    simp [AccountData.token?, howner, hfrozen]
  · rw [World.set_of_ne _ _ hsame]

theorem TokenAccount.debit_holder (a : TokenAccount) (authority : Pubkey) (amount : UInt64) :
    (a.debit authority amount).owner = a.owner ∧ (a.debit authority amount).frozen = a.frozen := by
  unfold TokenAccount.debit
  split <;> exact ⟨rfl, rfl⟩

theorem classicToken_keeps : classicToken.KeepsHolders where
  transfer program w w' t amount decimals h k := by
    change classicTransfer program w t amount decimals = some w' at h
    unfold classicTransfer at h
    split at h
    · rename_i p src q dst r m hsource hdestination hmint
      rw [Option.ite_none_right_eq_some] at h
      obtain ⟨-, h⟩ := h
      by_cases hself : t.source = t.destination
      · rw [if_pos hself, Option.some.injEq] at h
        rw [h]
      · rw [if_neg hself, Option.ite_none_right_eq_some, Option.some.injEq] at h
        obtain ⟨-, rfl⟩ := h
        have hdebit := src.debit_holder t.authority amount
        have hkept : (w.set t.source ⟨p, .token (src.debit t.authority amount)⟩) t.destination =
            some ⟨q, .token dst⟩ := by
          rw [World.set_of_ne _ _ (Ne.symm hself)]
          exact hdestination
        let credited : TokenAccount := { dst with amount := dst.amount + amount }
        have hcredit : ((w.set t.source ⟨p, .token (src.debit t.authority amount)⟩).set
            t.destination ⟨q, .token credited⟩).holderOf k =
            (w.set t.source ⟨p, .token (src.debit t.authority amount)⟩).holderOf k :=
          World.holderOf_set hkept rfl rfl
        exact hcredit.trans (World.holderOf_set hsource hdebit.1 hdebit.2)
    · cases h
  approve program w w' t amount decimals h k := by
    obtain ⟨a, hsource, rfl⟩ := classicToken_delegates.approves _ _ _ _ _ _ h
    exact World.holderOf_set hsource rfl rfl
  revoke program w w' t h k := by
    obtain ⟨a, hsource, rfl⟩ := classicToken_delegates.revokes _ _ _ _ h
    exact World.holderOf_set hsource rfl rfl
  create program w w' t h k hk := by
    change classicInitialize program w t = some w' at h
    unfold classicInitialize at h
    split at h
    · rw [Option.ite_none_right_eq_some, Option.some.injEq] at h
      obtain ⟨-, rfl⟩ := h
      unfold World.holderOf
      rw [World.set_of_ne _ _ hk]
    · cases h

def Runtime.classic (address : List Seed → Pubkey) : Runtime :=
  { pda := Pda.ofAddresses address
    foreignAddress := fun program seeds => some (address (.key program :: seeds))
    token := classicToken }

/-! ## What an instruction leaves behind -/

/-- The ledger records an instruction writes, the events it emits and the lines it logs. -/
structure Output (record event : Type) where
  records : List record
  events : List event
  logs : List String

/-- What closing leaves behind: the accounts that are gone, who got their rent, the accounts
of other programs and the lines logged. -/
structure Closing where
  closed : List Pubkey
  rentTo : Pubkey
  world : World
  logs : List String

/-- Every record a history wrote, latest first. -/
def written {σ ι record event : Type} (h : List (Transition σ ι (Output record event))) :
    List record :=
  h.flatMap fun T => T.output.records.reverse

section Written

variable {σ ι record event : Type} {h : List (Transition σ ι (Output record event))}

@[simp] theorem written_cons (T : Transition σ ι (Output record event)) :
    written (T :: h) = T.output.records.reverse ++ written h :=
  List.flatMap_cons

end Written

end Veto
