import Veto.App.AllowOnce
import Veto.App.Encode
import Veto.App.RuleRequest
import Veto.App.TradePool
import Veto.Foundation.JsNumber

/-!
# What the app lets through to its writers

`openMandate` of `chain.ts` and `openTradeRule` of `tradeChain.ts` up to the instruction they
build, and `grantOverride`.  What they read of the device and of the chain is an argument.
-/

namespace Veto.App

open Foundation

def OPEN_FEE_MARGIN_LAMPORTS : Nat := 5000

def EXCHANGE_KIND_SPL_TOKEN_SWAP : UInt8 := 0

/-- A reading of `Date.now()`. -/
structure DateNow where
  ms : Int
  inRange : -8640000000000000 ≤ ms ∧ ms ≤ 8640000000000000

/-- `BigInt(Math.floor(Date.now() / 1000))`. -/
def DateNow.seconds (now : DateNow) : Int := now.ms / 1000

/-- `a + b` of two counts. -/
def plus (a b : Nat) : Nat := roundNumber (a + b)

/-- `a - b` of two counts, the smaller from the larger. -/
def minus (a b : Nat) : Nat := roundNumber (a - b)

def readTokenAmount (data : Bytes) : Option Nat :=
  if data.length < 72 then none else some (ofLE (subarray data 64 72))

def readMintDecimals (data : Bytes) : Except Thrown Nat := do
  throwUnless (45 ≤ data.length)
    "The mint account is too short to read decimals, so the transfer was not built."
  let decimals := (byteAt data 44).toNat
  throwUnless (decimals ≤ 18)
    ("Mint decimals " ++ toString decimals ++ " are outside the range this app can transfer.")
  return decimals

/-- The decimals of a mint account that is long enough to say them. -/
def decimalsOf (data : Bytes) : Except Thrown (Option Nat) :=
  if 45 ≤ data.length then (readMintDecimals data).map some else .ok none

/-- The first id from `id` on that is not taken, in `attempts` attempts. -/
def freeId (taken : Int → Bool) : (attempts : Nat) → (id : Int) → Option Int
  | 0, _ => none
  | attempts + 1, id => if taken id then freeId taken attempts (id + 1) else some id

/-! ## `openMandate` -/

structure OpenMandateInput where
  owner : Pubkey
  agent : Pubkey
  merchant : Pubkey
  cap : Int
  perTxMax : Int
  expiresAt : Int
  purpose : JsString
  mint : Option Pubkey

/-- What `openMandate` reads: both times at which it asks the clock, the accounts of the mint and
of the owner's tokens, rents and balance, and which ids are taken. -/
structure OpenMandateReads where
  now : DateNow
  configMint : Option Pubkey
  mintInfo : Option Bytes
  ata : Pubkey
  ataInfo : Option Bytes
  mandateRent : Nat
  ledgerRent : Nat
  tokenRent : Nat
  payerFloor : Nat
  solBalance : Nat
  idNow : DateNow
  taken : Int → Bool

/-- The account of the owner was found. -/
def openFundsRefusal (ata : Pubkey) (balance : Nat) (cap : Int) (decimals : Nat) (mint : String) :
    Option String :=
  if cap ≤ balance then none
  else
    some ("The associated token account " ++ ata.display ++ " holds " ++
      formatTokenAmount balance decimals mint ++ ". This rule needs " ++
      formatTokenAmount cap decimals mint ++ ". Short by " ++
      formatTokenAmount (cap - balance) decimals mint ++ ".")

def openSolRefusal (r : OpenMandateReads) (needed : Nat) (floor : Option Nat) : String :=
  let head := "Opening a rule needs " ++ toString needed ++ " lamports of rent and fees: " ++
    toString r.tokenRent ++ " for the rule token account, " ++ toString r.mandateRent ++
    " for the mandate, " ++ toString r.ledgerRent ++ " for the ledger, and " ++
    toString OPEN_FEE_MARGIN_LAMPORTS ++ " for the fee margin, and the wallet holds " ++
    toString r.solBalance ++ " lamports"
  if r.solBalance < needed then
    head ++ ", short by " ++ toString (minus needed r.solBalance) ++ " lamports."
  else
    head ++ ", which would leave " ++ toString (minus r.solBalance needed) ++
      " lamports, above zero and below its own rent floor of " ++ toString (floor.getD 0) ++
      " lamports."

/-- What the wallet must hold before an open, and the refusal where it does not. -/
def solRefusal (r : OpenMandateReads) : Option String :=
  let needed := plus (plus (plus r.mandateRent r.ledgerRent) r.tokenRent) OPEN_FEE_MARGIN_LAMPORTS
  let floor := if needed < r.solBalance then some r.payerFloor else none
  if r.solBalance < needed ∨ floor.any (minus r.solBalance needed < ·) = true then
    some (openSolRefusal r needed floor)
  else none

/-- Up to `openMandateInstruction`: what its data is written from. -/
def openMandate (r : OpenMandateReads) (input : OpenMandateInput) :
    Except Thrown OpenMandateValues := do
  throwUnless (0 < input.cap) "cap must be greater than zero"
  throwUnless (0 < input.perTxMax) "per-payment maximum must be greater than zero"
  throwUnless (input.perTxMax ≤ input.cap) "per-payment maximum cannot exceed the cap"
  throwUnless (input.purpose.length ≤ PURPOSE_MAX_LEN) "purpose is longer than the on-chain limit"
  throwUnless (input.merchant ≠ Pubkey.default) "a mandate must name the merchant it may pay"
  throwUnless (input.agent ≠ input.owner) "the agent key must not be the owner key"
  throwUnless (r.now.seconds < input.expiresAt) "expiry must be in the future"
  let mint ← okOr (input.mint.or r.configMint) (.error ("Mint is missing from config. Set " ++
    "EXPO_PUBLIC_VETO_MINT as documented in app/README.md."))
  let mintData ← okOr r.mintInfo (.error ("mint " ++ mint.display ++ " was not found on chain"))
  let ataData ← okOr r.ataInfo (.error ("The owner holds none of mint " ++ mint.display ++
    ". This app will not create a token account for it. The rule spends tokens the owner already " ++
    "holds."))
  let tokenBalance ← okOr (readTokenAmount ataData) (.error ("The associated token account " ++
    r.ata.display ++ " could not be read, so nothing was submitted."))
  let decimals ← decimalsOf mintData
  let tokenMessage := decimals.bind fun decimals =>
    openFundsRefusal r.ata tokenBalance input.cap decimals mint.display
  let messages := tokenMessage.toList ++ (solRefusal r).toList
  throwUnless (messages = []) (" ".intercalate messages)
  throwUnless (decimals ≠ none)
    "The mint account is too short to read decimals, so the transfer was not built."
  let mandateId ← okOr (freeId r.taken 8 r.idNow.ms)
    (.error "No free mandate id was found for a new rule account.")
  return {
    mandateId
    agent := input.agent
    merchant := input.merchant
    cap := input.cap
    perTxMax := input.perTxMax
    expiresAt := input.expiresAt
    purpose := input.purpose }

/-! ## `openTradeRule` -/

structure OpenTradeInput where
  owner : Pubkey
  agent : Pubkey
  cap : Int
  perTradeMax : Int
  dailyLimit : Int
  floorPercent : ℚ
  expiresAt : Int
  purpose : JsString

/-- What `openTradeRule` reads.  `known` is the lookup of the pool in the app's list, and `pool`
the comparison of the pool's account with it. -/
structure OpenTradeReads where
  now : DateNow
  known : Except Thrown Unit
  pool : Except Thrown Unit
  inVault : Option Bytes
  outVault : Option Bytes
  mintInfo : Option Bytes
  native : Bool
  ataInfo : Option Bytes
  tokenRent : Nat
  ruleRent : Nat
  ledgerRent : Nat
  ataRent : Nat
  payerFloor : Nat
  solBalance : Nat
  idNow : DateNow
  taken : Int → Bool

/-- The owner holds the total of a rule that does not wrap it. -/
def OpenTradeReads.holds (r : OpenTradeReads) (cap : Int) : Bool :=
  match r.ataInfo with
  | none => cap ≤ 0
  | some data => (readTokenAmount data).any fun (balance : Nat) => decide (cap ≤ (balance : Int))

/-- Up to `openTradeRuleInstruction`: what its data is written from. -/
def openTradeRule (r : OpenTradeReads) (input : OpenTradeInput) : Except Thrown OpenTradeValues := do
  throwUnless (input.floorPercent.isInt = true ∧ 1 ≤ input.floorPercent ∧ input.floorPercent ≤ 99)
    "Floor percent must be a whole number from 1 to 99."
  throwUnless (0 < input.cap ∧ 0 < input.perTradeMax ∧ 0 < input.dailyLimit)
    "Most per trade, per day, and the total set aside must be above zero."
  throwUnless (input.perTradeMax ≤ input.dailyLimit ∧ input.dailyLimit ≤ input.cap)
    "Most per trade, the daily limit, and the total are out of order."
  throwUnless (input.purpose.length ≠ 0 ∧ codePointLength input.purpose ≤ PURPOSE_MAX_LEN)
    "Enter a purpose."
  throwUnless (r.now.seconds < input.expiresAt) "Expiry must be in the future."
  r.known
  throwUnless (input.agent ≠ input.owner)
    "The agent address is the owner. Pick the agent address."
  r.pool
  let inVault ← okOr r.inVault (.error "A pool vault was not found on chain.")
  let outVault ← okOr r.outVault (.error "A pool vault was not found on chain.")
  let mintData ← okOr r.mintInfo (.error "The input mint was not found on chain.")
  let unread := Thrown.error "A pool vault could not be read, so the floor was not set."
  let inReserve ← okOr (readTokenAmount inVault) unread
  let outReserve ← okOr (readTokenAmount outVault) unread
  let floor ← TradePool.floorFromSpot outReserve inReserve input.floorPercent
  let _ ← readMintDecimals mintData
  throwUnless (r.native = true ∨ r.holds input.cap = true)
    "The owner account does not hold the total set aside for this rule."
  let wrapped := if r.native then roundNumber input.cap.toNat else 0
  let needed := plus (plus (plus (plus (plus r.tokenRent wrapped) r.ruleRent) r.ledgerRent) r.ataRent)
    OPEN_FEE_MARGIN_LAMPORTS
  let floorLamports := if needed < r.solBalance then some r.payerFloor else none
  throwUnless (needed ≤ r.solBalance ∧ floorLamports.all (· ≤ minus r.solBalance needed) = true)
    ("Opening this trade rule needs " ++ toString needed ++
      " lamports for rent, the fee, and the wrapped total. The wallet holds " ++
      toString r.solBalance ++ " lamports.")
  let ruleId ← okOr (freeId r.taken 8 r.idNow.ms)
    (.error "No free rule id was found for a new trade account.")
  -- `buildOpenTradeInstructions`
  throwUnless (r.native = false ∨ input.cap ≤ MAX_SAFE_INTEGER)
    "The total set aside is too large to wrap in one account."
  return {
    ruleId
    agent := input.agent
    exchangeKind := EXCHANGE_KIND_SPL_TOKEN_SWAP
    cap := input.cap
    perTradeMax := input.perTradeMax
    dailyLimit := input.dailyLimit
    floorNum := floor.floorNum
    floorDen := floor.floorDen
    expiresAt := input.expiresAt
    purpose := input.purpose }

/-! ## `grantOverride` -/

/-- The amount and the nonce of the grant that the app builds. -/
def grantOverride (row : RingEntry) (live : MandateAccount) (decimals : Nat) (now : DateNow) :
    Except Thrown (Int × Int) :=
  match assessOverride row.overrideSource live decimals (some now.seconds) with
  | .ready amount nonce _ => .ok (amount, nonce)
  | .none why | .blocked why | .already _ _ why => .error (.error why)

/-! ## What is let through -/

theorem readTokenAmount_lt {data : Bytes} {amount : Nat} (h : readTokenAmount data = some amount) :
    amount < 2 ^ 64 := by
  unfold readTokenAmount at h
  by_cases hshort : data.length < 72
  · rw [if_pos hshort] at h
    cases h
  · rw [if_neg hshort, Option.some.injEq] at h
    subst h
    have hlt := ofLE_lt (subarray data 64 72)
    have hlength : (subarray data 64 72).length = 8 := by
      rw [length_subarray]
      omega
    rw [hlength] at hlt
    exact hlt

theorem freeId_bounds {taken : Int → Bool} {attempts : Nat} {id found : Int}
    (h : freeId taken attempts id = some found) : id ≤ found ∧ found < id + attempts := by
  induction attempts generalizing id with
  | zero => cases h
  | succ attempts ih =>
      unfold freeId at h
      by_cases htaken : taken id = true
      · rw [if_pos htaken] at h
        have hnext := ih h
        omega
      · rw [if_neg htaken, Option.some.injEq] at h
        omega

/-- The values of a mandate that is opened fit their fields, but for an id before 1970 and an
expiry past the last second. -/
structure OpenMandateValues.LetThrough (v : OpenMandateValues) : Prop where
  id : v.mandateId < 2 ^ 64
  cap : 0 ≤ v.cap ∧ v.cap < 2 ^ 64
  perTxMax : 0 ≤ v.perTxMax ∧ v.perTxMax < 2 ^ 64
  expiresAt : -2 ^ 63 ≤ v.expiresAt
  purpose : codePointLength v.purpose ≤ 64

structure OpenTradeValues.LetThrough (v : OpenTradeValues) : Prop where
  id : v.ruleId < 2 ^ 64
  cap : 0 ≤ v.cap ∧ v.cap < 2 ^ 64
  perTradeMax : 0 ≤ v.perTradeMax ∧ v.perTradeMax < 2 ^ 64
  dailyLimit : 0 ≤ v.dailyLimit ∧ v.dailyLimit < 2 ^ 64
  floorNum : 0 ≤ v.floorNum ∧ v.floorNum < 2 ^ 64
  floorDen : 0 ≤ v.floorDen ∧ v.floorDen < 2 ^ 64
  expiresAt : -2 ^ 63 ≤ v.expiresAt
  purpose : codePointLength v.purpose ≤ 64

section LetThrough

theorem openFundsRefusal_eq_none {ata : Pubkey} {balance decimals : Nat} {cap : Int}
    {mint : String} : openFundsRefusal ata balance cap decimals mint = none ↔ cap ≤ balance := by
  unfold openFundsRefusal
  by_cases h : cap ≤ balance
  · rw [if_pos h]
    exact iff_of_true rfl h
  · rw [if_neg h]
    exact iff_of_false (Option.some_ne_none _) h

theorem openMandate_ok {r : OpenMandateReads} {input : OpenMandateInput} {v : OpenMandateValues}
    (h : openMandate r input = .ok v) : v.LetThrough := by
  unfold openMandate at h
  simp only [↓Service.throwUnless_bind_ok_iff, bind_ok_iff] at h
  obtain ⟨hcap, hmax, hle, hpurpose, -, -, hexpires, mint, -, mintData, -, ataData, -, balance,
    hbalance, decimals, -, hmessages, hdecimals, mandateId, hid, h⟩ := h
  cases h
  rw [okOr_eq_ok] at hbalance hid
  have hword := readTokenAmount_lt hbalance
  have hids := freeId_bounds hid
  have hrange := r.idNow.inRange
  have hnow := r.now.inRange
  have hcovered : input.cap ≤ balance := by
    obtain ⟨d, rfl⟩ := Option.ne_none_iff_exists'.mp hdecimals
    rw [List.append_eq_nil_iff, Option.toList_eq_nil_iff, Option.bind_some,
      openFundsRefusal_eq_none] at hmessages
    exact hmessages.1
  have hpoints := codePointLength_le input.purpose
  unfold DateNow.seconds at hexpires
  unfold PURPOSE_MAX_LEN at hpurpose
  constructor <;> dsimp only <;> omega

theorem floorFromSpot_word {outReserve inReserve : Nat} {percent : ℚ} {floor : TradePool.Floor}
    (hout : outReserve < 2 ^ 64) (hin : inReserve < 2 ^ 64)
    (h : TradePool.floorFromSpot outReserve inReserve percent = .ok floor) :
    (0 ≤ floor.floorNum ∧ floor.floorNum < 2 ^ 64) ∧
      0 ≤ floor.floorDen ∧ floor.floorDen < 2 ^ 64 := by
  have hall := h
  unfold TradePool.floorFromSpot at hall
  simp only [↓require_bind_ok_iff] at hall
  obtain ⟨⟨hint, hlow, hhigh⟩, ⟨hinPos, houtPos⟩, -⟩ := hall
  obtain ⟨n, rfl⟩ : ∃ n : Nat, percent = n := by
    have hwhole : ((percent.num : Int) : ℚ) = percent := by
      rw [Rat.isInt, beq_iff_eq] at hint
      exact Rat.coe_int_num_of_den_eq_one hint
    have hnonneg : 0 ≤ percent.num := Rat.num_nonneg.mpr (by linarith)
    refine ⟨percent.num.toNat, ?_⟩
    rw [← Int.cast_natCast, Int.toNat_of_nonneg hnonneg, hwhole]
  have hn : n ≤ 99 := by exact_mod_cast hhigh
  have hn' : 1 ≤ n := by exact_mod_cast hlow
  rw [TradePool.floorFromSpot_eq (by omega) hout (by omega) hin hn' hn, Except.ok.injEq] at h
  obtain ⟨hnum, hden, -⟩ := TradePool.spotFloor_word hout (by omega : 0 < inReserve)
    hin hn
  subst h
  refine ⟨⟨?_, hnum⟩, ?_, hden⟩
  · unfold TradePool.spotFloor
    dsimp only
    split_ifs <;> positivity
  · unfold TradePool.spotFloor
    dsimp only
    split_ifs <;> positivity

theorem OpenTradeReads.le_of_holds {r : OpenTradeReads} {cap : Int} (h : r.holds cap = true) :
    cap < 2 ^ 64 := by
  unfold holds at h
  split at h
  · have hle := of_decide_eq_true h
    omega
  · rw [Option.any_eq_true] at h
    obtain ⟨balance, hbalance, hle⟩ := h
    have hword := readTokenAmount_lt hbalance
    have hle := of_decide_eq_true hle
    omega

theorem openTradeRule_ok {r : OpenTradeReads} {input : OpenTradeInput} {v : OpenTradeValues}
    (h : openTradeRule r input = .ok v) : v.LetThrough := by
  unfold openTradeRule at h
  simp only [↓Service.throwUnless_bind_ok_iff, bind_ok_iff] at h
  obtain ⟨-, ⟨hcap, hmax, hdaily⟩, ⟨hmaxLe, hdailyLe⟩, ⟨-, hpurpose⟩, hexpires, _, -, -, _, -,
    inVault, -, outVault, -, mintData, -, inReserve, hin, outReserve, hout, floor, hfloor, _, -,
    hholds, -, ruleId, hid, hsafe, h⟩ := h
  cases h
  rw [okOr_eq_ok] at hin hout hid
  have hwords := floorFromSpot_word (readTokenAmount_lt hout) (readTokenAmount_lt hin) hfloor
  have hids := freeId_bounds hid
  have hrange := r.idNow.inRange
  have hnow := r.now.inRange
  have hcovered : input.cap < 2 ^ 64 := by
    rcases hsafe with hforeign | hsafe
    · rcases hholds with hnative | hheld
      · rw [hforeign] at hnative
        cases hnative
      · exact OpenTradeReads.le_of_holds hheld
    · unfold MAX_SAFE_INTEGER at hsafe
      omega
  unfold DateNow.seconds at hexpires
  unfold PURPOSE_MAX_LEN at hpurpose
  constructor <;> dsimp only <;> omega

/-- The grant that is built is the suggestion of the row, for its nonce. -/
theorem grantOverride_ok {row : RingEntry} {live : MandateAccount} {decimals : Nat} {now : DateNow}
    {amount nonce : Int} (h : grantOverride row live decimals now = .ok (amount, nonce)) :
    amount = row.suggestedOverride.toNat ∧ nonce = row.nonce.toNat := by
  unfold grantOverride at h
  generalize hassess : assessOverride row.overrideSource live decimals (some now.seconds) = a at h
  unfold assessOverride at hassess
  split at hassess
  · subst hassess
    cases h
  · split at hassess
    · subst hassess
      cases h
    · rename_i offered hoffer
      split at hassess
      · subst hassess
        cases h
      · split at hassess
        · subst hassess
          cases h
        · subst hassess
          cases h
          refine ⟨?_, rfl⟩
          unfold overrideOfferForReason at hoffer
          split_ifs at hoffer
          cases hoffer
          rfl

end LetThrough

end Veto.App
