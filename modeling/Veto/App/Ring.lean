import Veto.Foundation.JsNumber
import Veto.Foundation.Nearest
import Veto.Indexer.Events
import Mathlib.Data.List.Enum

/-!
# The ring in the app

`ring.ts` of the app: the entries of a ledger account, oldest first, and the signatures that
`attachSignatures` finds for them among the decisions of transactions.
-/

namespace Veto.App

open Foundation

def Constants.KIND_OPENED : UInt8 := 0

def Constants.KIND_PAID : UInt8 := 1

def Constants.KIND_REFUSED : UInt8 := 2

def Constants.KIND_OVERRIDE : UInt8 := 3

def Constants.KIND_REVOKED : UInt8 := 4

def LEDGER_ACCOUNT_SIZE : Nat := 8 + LEDGER_HEADER_SIZE + LEDGER_CAPACITY * ENTRY_SIZE

def kindName (kind : UInt8) : String :=
  match kind.toNat with
  | 0 => "opened"
  | 1 => "paid"
  | 2 => "refused"
  | 3 => "override"
  | 4 => "revoked"
  | n => "kind:" ++ toString n

def reasonText (reason : UInt8) : String :=
  match reason.toNat with
  | 0 => "ok"
  | 1 => "mandate not active"
  | 2 => "past expiry"
  | 3 => "nonce already settled"
  | 4 => "merchant not allowed"
  | 5 => "over per-payment maximum"
  | 6 => "over remaining cap"
  | 7 => "delegation withdrawn"
  | 8 => "insufficient funds"
  | 9 => "zero amount"
  | 10 => "account frozen"
  | 11 => "output account not allowed"
  | 12 => "pool account not allowed"
  | 13 => "over daily limit"
  | 14 => "quote below floor"
  | _ => "unknown"

structure RingEntry where
  ts : Int64
  amount : UInt64
  counterparty : String
  nonce : UInt64
  suggestedOverride : UInt64
  kind : UInt8
  kindName : String
  reason : UInt8
  reasonText : String
  deriving DecidableEq

structure LedgerSnapshot where
  address : String
  mandate : String
  total : UInt32
  head : UInt16
  bump : UInt8
  entries : List RingEntry

structure LedgerRow extends RingEntry where
  signature : Option String
  slot : Option Int
  deriving DecidableEq

def decodeEntry (raw : Bytes) : Except Thrown RingEntry := do
  let kind := byteAt raw 64
  let reason := byteAt raw 65
  return {
    ts := ← Veto.readI64Le raw 0
    amount := ← Veto.readU64Le raw 8
    counterparty := (Pubkey.ofBytes (subarray raw 16 48)).display
    nonce := ← Veto.readU64Le raw 48
    suggestedOverride := ← Veto.readU64Le raw 56
    kind
    kindName := kindName kind
    reason
    reasonText := reasonText reason }

def decodeLedgerAccount (address : String) (data : Bytes) : Except Thrown LedgerSnapshot := do
  throwUnless (LEDGER_ACCOUNT_SIZE ≤ data.length)
    ("ledger " ++ address ++ " is " ++ toString data.length ++ " bytes, expected " ++
      toString LEDGER_ACCOUNT_SIZE)
  throwUnless (subarray data 0 8 = LEDGER_DISCRIMINATOR)
    ("ledger " ++ address ++ " does not have the Ledger discriminator")
  let body := data.drop 8
  let mandate := (Pubkey.ofBytes (subarray body 0 32)).display
  let total ← Veto.readU32Le body 32
  let head ← Veto.readU16Le body 36
  let bump := byteAt body 38
  let entries ← (Ring.walk LEDGER_CAPACITY total.toNat head.toNat).mapM fun idx =>
    let off := LEDGER_HEADER_SIZE + idx * ENTRY_SIZE
    decodeEntry (subarray body off (off + ENTRY_SIZE))
  return { address, mandate, total, head, bump, entries }

/-- An entry as the app shows it. -/
def RingEntry.of (e : Raw.Entry) : RingEntry where
  ts := e.ts
  amount := e.amount
  counterparty := e.counterparty.display
  nonce := e.nonce
  suggestedOverride := e.suggestedOverride
  kind := e.kind
  kindName := App.kindName e.kind
  reason := e.reason
  reasonText := App.reasonText e.reason

theorem decodeEntry_eq (e : Raw.Entry) : decodeEntry e.bytes = .ok (.of e) := by
  have hfields := e.at_zero
  have hts := readI64Le_eq hfields.ts
  have hamount := readU64Le_eq hfields.amount
  have hnonce := readU64Le_eq hfields.nonce
  have hoverride := readU64Le_eq hfields.suggestedOverride
  have hkind := byteAt_eq hfields.kind
  have hreason := byteAt_eq hfields.reason
  have hparty := hfields.counterparty
  simp only [Nat.zero_add] at hamount hnonce hoverride hkind hreason hparty
  simp [decodeEntry, hts, hamount, hnonce, hoverride, hkind, hreason, hparty,
    Pubkey.ofBytes_toBytes, RingEntry.of, bind, Except.bind, pure, Except.pure]

theorem decodeLedgerAccount_eq {ledger : Raw.LedgerOf Raw.Entry} {log : List Raw.Entry}
    (h : ledger.ring.Holds log) (address : String) :
    decodeLedgerAccount address (Raw.ledgerData ledger) = .ok {
      address
      mandate := ledger.key.display
      total := ledger.ring.total
      head := ledger.ring.head
      bump := ledger.bump
      entries := (Ring.recent LEDGER_CAPACITY log).map .of } := by
  have hlong : LEDGER_ACCOUNT_SIZE ≤ (Raw.ledgerData ledger).length := by
    rw [Raw.length_ledgerData]
    decide
  have hdisc : subarray (Raw.ledgerData ledger) 0 8 = LEDGER_DISCRIMINATOR :=
    Raw.take_ledgerData ledger
  have hentries := h.mapM_walk (by decide) (by decide)
    (fun idx => decodeEntry (subarray ((Raw.ledgerData ledger).drop 8)
      (LEDGER_HEADER_SIZE + idx * ENTRY_SIZE)
      (LEDGER_HEADER_SIZE + idx * ENTRY_SIZE + ENTRY_SIZE)))
    fun slot hslot => by rw [Raw.body_entry ledger hslot, decodeEntry_eq]
  simp only [decodeLedgerAccount, throwUnless, require_true hlong, require_true hdisc,
    Raw.body_key, Raw.body_total, Raw.body_head, Raw.body_bump, ok_bind, LEDGER_CAPACITY, hentries]
  rfl

/-! ## Signatures -/

structure DecodedTxDecision where
  signature : String
  kind : UInt8
  amount : UInt64
  nonce : UInt64
  reason : UInt8
  blockTime : Option Int
  slot : Option Int
  suggestedOverride : Option UInt64
  deriving DecidableEq

def SIGNATURE_SKEW_SEC : Nat := 120

def decisionKeyMatches (tx : DecodedTxDecision) (entry : RingEntry) : Bool :=
  if tx.kind ≠ entry.kind then false
  else if entry.kind = Constants.KIND_PAID ∨ entry.kind = Constants.KIND_REFUSED ∨
      entry.kind = Constants.KIND_OVERRIDE then
    tx.amount = entry.amount ∧ tx.nonce = entry.nonce
  else true

/-- `Number(ts)`. -/
def numberOf (ts : Int64) : Int := ts.toInt.sign * roundNumber ts.toInt.natAbs

def skewOf (blockTime : Int) (entry : RingEntry) : Nat := (blockTime - numberOf entry.ts).natAbs

/-- `best`, `bestSkew` (`none` while it is infinite) and `untimed` of the inner loop.  A
decision stands with its index. -/
structure Search where
  best : Option (DecodedTxDecision × Nat)
  bestSkew : Option Nat
  untimed : Option (DecodedTxDecision × Nat)

def Search.visit (entry : RingEntry) (s : Search) (tx : DecodedTxDecision × Nat) : Search :=
  if decisionKeyMatches tx.1 entry = false then s
  else
    match tx.1.blockTime with
    | none => if s.untimed.isNone then { s with untimed := some tx } else s
    | some blockTime =>
        let skew := skewOf blockTime entry
        if SIGNATURE_SKEW_SEC < skew ∨ s.bestSkew.any (· ≤ skew) then s
        else { s with best := some tx, bestSkew := some skew }

def Search.chosen (s : Search) : Option (DecodedTxDecision × Nat) := s.best.or s.untimed

/-- The inner loop over the decisions that are not used. -/
def search (entry : RingEntry) (txs : List (DecodedTxDecision × Nat)) : Search :=
  txs.foldl (Search.visit entry) ⟨none, none, none⟩

def rowOf (entry : RingEntry) (chosen : Option (DecodedTxDecision × Nat)) : LedgerRow :=
  { entry with
    signature := chosen.map fun tx => tx.1.signature
    slot := chosen.bind fun tx => tx.1.slot }

/-- The loop over the entries, with the indexes in `used`. -/
def attach (txs : List (DecodedTxDecision × Nat)) : List Nat → List RingEntry → List LedgerRow
  | _, [] => []
  | used, entry :: entries =>
      let chosen := (search entry (txs.filter fun tx => tx.2 ∉ used)).chosen
      rowOf entry chosen :: attach txs ((chosen.map Prod.snd).toList ++ used) entries

def attachSignatures (entries : List RingEntry) (txs : List DecodedTxDecision) :
    List LedgerRow :=
  attach txs.zipIdx [] entries

/-! ### As a contest for the nearest decision -/

/-- What must agree for a decision to match: the kind, and for some kinds amount and nonce. -/
def matchKey (kind : UInt8) (amount nonce : UInt64) : UInt8 × Option (UInt64 × UInt64) :=
  (kind, if kind = Constants.KIND_PAID ∨ kind = Constants.KIND_REFUSED ∨
      kind = Constants.KIND_OVERRIDE then some (amount, nonce)
    else none)

/-- How far a decision is from an entry.  One without a time is farther than all with one. -/
def distance (entry : RingEntry) (tx : DecodedTxDecision) : Option Nat :=
  match tx.blockTime with
  | none => some (SIGNATURE_SKEW_SEC + 1)
  | some blockTime =>
      if skewOf blockTime entry ≤ SIGNATURE_SKEW_SEC then some (skewOf blockTime entry) else none

/-- The entries take decisions, which the transactions own. -/
def matching : Contest RingEntry (DecodedTxDecision × Nat) (UInt8 × Option (UInt64 × UInt64))
    String where
  key entry := matchKey entry.kind entry.amount entry.nonce
  label tx := matchKey tx.1.kind tx.1.amount tx.1.nonce
  owner tx := tx.1.signature
  near entry tx := distance entry tx.1

theorem decisionKeyMatches_iff {entry : RingEntry} {tx : DecodedTxDecision × Nat} :
    decisionKeyMatches tx.1 entry = true ↔ matching.label tx = matching.key entry := by
  unfold decisionKeyMatches matching matchKey
  by_cases hkind : tx.1.kind = entry.kind
  · simp only [hkind, ne_eq, not_true_eq_false, if_false, Prod.mk.injEq, true_and]
    split <;> simp
  · simp [hkind]

theorem matching_cost {entry : RingEntry} {tx : DecodedTxDecision × Nat} :
    matching.cost entry tx =
      if decisionKeyMatches tx.1 entry = true then distance entry tx.1 else none := by
  simp only [Contest.cost, decisionKeyMatches_iff]
  rfl

/-- What the inner loop knows of the decisions it has seen. -/
structure Search.Sees (entry : RingEntry) (txs : List (DecodedTxDecision × Nat)) (s : Search) :
    Prop where
  skew : s.bestSkew = s.best.bind (matching.cost entry)
  timed : ∀ tx, s.best = some tx → ∃ k ≤ SIGNATURE_SKEW_SEC, matching.cost entry tx = some k
  untimed : ∀ tx, s.untimed = some tx → matching.cost entry tx = some (SIGNATURE_SKEW_SEC + 1)
  chosen : s.chosen = nearest (matching.cost entry) txs

theorem Search.Sees.skip {entry : RingEntry} {txs : List (DecodedTxDecision × Nat)} {s : Search}
    (h : s.Sees entry txs) {tx : DecodedTxDecision × Nat}
    (hnext : nearest (matching.cost entry) (txs ++ [tx]) = nearest (matching.cost entry) txs) :
    s.Sees entry (txs ++ [tx]) :=
  ⟨h.skew, h.timed, h.untimed, h.chosen.trans hnext.symm⟩

/-- A decision that is not nearer than what is known changes nothing. -/
theorem Search.Sees.farther {entry : RingEntry} {txs : List (DecodedTxDecision × Nat)} {s : Search}
    (h : s.Sees entry txs) {tx known : DecodedTxDecision × Nat} {k k' : Nat}
    (hk : matching.cost entry tx = some k) (hchosen : s.chosen = some known)
    (hk' : matching.cost entry known = some k') (hle : k' ≤ k) : s.Sees entry (txs ++ [tx]) := by
  refine h.skip ?_
  rw [nearest_concat, hk, ← h.chosen, hchosen]
  dsimp only
  rw [hk', Option.getD_some, if_neg (Nat.not_lt.mpr hle)]

/-- A decision that is nearer than what is known is the nearest. -/
theorem Search.Sees.nearer {entry : RingEntry} {txs : List (DecodedTxDecision × Nat)} {s : Search}
    (h : s.Sees entry txs) {tx : DecodedTxDecision × Nat} {k : Nat}
    (hk : matching.cost entry tx = some k)
    (hless : ∀ known, s.chosen = some known → ∃ k', matching.cost entry known = some k' ∧ k < k') :
    nearest (matching.cost entry) (txs ++ [tx]) = some tx := by
  rw [nearest_concat, hk, ← h.chosen]
  cases hchosen : s.chosen with
  | none => rfl
  | some known =>
      obtain ⟨k', hk', hlt⟩ := hless known hchosen
      dsimp only
      rw [hk', Option.getD_some, if_pos hlt]

/-- One more decision.  The cases are those of the loop's body. -/
theorem Search.Sees.visit {entry : RingEntry} {txs : List (DecodedTxDecision × Nat)} {s : Search}
    (h : s.Sees entry txs) (tx : DecodedTxDecision × Nat) :
    (s.visit entry tx).Sees entry (txs ++ [tx]) := by
  have hcost : matching.cost entry tx = _ := matching_cost
  unfold Search.visit
  split
  · rename_i hmatch
    rw [hmatch, if_neg Bool.false_ne_true] at hcost
    exact h.skip (by rw [nearest_concat, hcost])
  · rename_i hmatch
    rw [if_pos (Bool.eq_true_of_not_eq_false hmatch), distance] at hcost
    split
    · rename_i htime
      rw [htime] at hcost
      split
      · rename_i hfirst
        rw [Option.isNone_iff_eq_none] at hfirst
        refine ⟨h.skew, h.timed, fun _ heq => Option.some.inj heq ▸ hcost, ?_⟩
        dsimp only [Search.chosen]
        cases hbest : s.best with
        | none =>
            have hnothing : s.chosen = none := by rw [Search.chosen, hbest, hfirst, Option.or_none]
            rw [h.nearer hcost (by rw [hnothing]; exact nofun), Option.none_or]
        | some best =>
            obtain ⟨k, hle, hk⟩ := h.timed best hbest
            have hchosen : s.chosen = some best := by rw [Search.chosen, hbest, Option.some_or]
            rw [← (h.farther hcost hchosen hk (Nat.le_succ_of_le hle)).chosen, hchosen,
              Option.some_or]
      · rename_i hlater
        obtain ⟨untimed, huntimed⟩ := Option.ne_none_iff_exists'.mp
          (fun hnone => hlater (Option.isNone_iff_eq_none.mpr hnone))
        cases hbest : s.best with
        | none =>
            exact h.farther hcost (by rw [Search.chosen, hbest, huntimed, Option.none_or])
              (h.untimed _ huntimed) (Nat.le_refl _)
        | some best =>
            obtain ⟨k, hle, hk⟩ := h.timed best hbest
            exact h.farther hcost (by rw [Search.chosen, hbest, Option.some_or]) hk
              (Nat.le_succ_of_le hle)
    · rename_i blockTime htime
      rw [htime] at hcost
      dsimp only at hcost ⊢
      by_cases hfar : skewOf blockTime entry ≤ SIGNATURE_SKEW_SEC
      · rw [if_pos hfar] at hcost
        cases hbest : s.best with
        | none =>
            have hskew : s.bestSkew = none := by rw [h.skew, hbest, Option.bind_none]
            rw [if_neg (by simpa [hskew] using hfar)]
            refine ⟨hcost.symm, ?_, h.untimed, ?_⟩
            · intro _ heq
              exact ⟨_, hfar, Option.some.inj heq ▸ hcost⟩
            · refine (h.nearer hcost ?_).symm
              intro known hknown
              rw [Search.chosen, hbest, Option.none_or] at hknown
              exact ⟨_, h.untimed known hknown, Nat.lt_succ_of_le hfar⟩
        | some best =>
            obtain ⟨k, hle, hk⟩ := h.timed best hbest
            have hskew : s.bestSkew = some k := by rw [h.skew, hbest, Option.bind_some, hk]
            have hchosen : s.chosen = some best := by rw [Search.chosen, hbest, Option.some_or]
            by_cases hless : k ≤ skewOf blockTime entry
            · rw [if_pos (.inr (by simpa [hskew] using hless))]
              exact h.farther hcost hchosen hk hless
            · rw [if_neg (by simp [hskew, hfar, hless])]
              refine ⟨hcost.symm, ?_, h.untimed, ?_⟩
              · intro _ heq
                exact ⟨_, hfar, Option.some.inj heq ▸ hcost⟩
              · refine (h.nearer hcost ?_).symm
                intro known hknown
                rw [hchosen] at hknown
                cases hknown
                exact ⟨k, hk, Nat.lt_of_not_le hless⟩
      · rw [if_neg hfar] at hcost
        rw [if_pos (.inl (Nat.lt_of_not_le hfar))]
        exact h.skip (by rw [nearest_concat, hcost])

/-- The inner loop ends with the nearest decision. -/
theorem search_sees (entry : RingEntry) (txs : List (DecodedTxDecision × Nat)) :
    (search entry txs).Sees entry txs := by
  induction txs using List.reverseRecOn with
  | nil => exact ⟨rfl, nofun, nofun, rfl⟩
  | append_singleton txs tx ih =>
      rw [search, List.foldl_append]
      exact ih.visit tx

/-- Every entry takes the nearest decision that is left.  Induction on the entries. -/
theorem attach_eq {txs : List (DecodedTxDecision × Nat)} (hindexes : (txs.map Prod.snd).Nodup)
    (used : List Nat) (entries : List RingEntry) :
    attach txs used entries = List.zipWith rowOf entries
      (matching.assign (txs.filter fun tx => tx.2 ∉ used) entries) := by
  induction entries generalizing used with
  | nil => rfl
  | cons entry entries ih =>
      rw [attach, Contest.assign, (search_sees entry _).chosen]
      cases hchoice : nearest (matching.cost entry) (txs.filter fun tx => tx.2 ∉ used) with
      | none => exact congrArg (_ :: ·) (ih used)
      | some c =>
          have hc : c ∈ txs := (List.mem_filter.mp (mem_of_nearest hchoice)).1
          refine congrArg (_ :: ·) ((ih (c.2 :: used)).trans ?_)
          rw [erase_index hindexes hc]

theorem attachSignatures_eq (entries : List RingEntry) (txs : List DecodedTxDecision) :
    attachSignatures entries txs =
      List.zipWith rowOf entries (matching.assign txs.zipIdx entries) := by
  have hindexes : (txs.zipIdx.map Prod.snd).Nodup := by
    rw [List.zipIdx_map_snd]
    exact List.nodup_range'
  rw [attachSignatures, attach_eq hindexes]
  simp

end Veto.App
