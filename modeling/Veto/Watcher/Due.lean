import Veto.Watcher.Cadence
import Veto.Watcher.Payments

/-!
# The slots that are due

`processDue` of `index.ts`: the journal is fetched and repaired, and each slot of the day that it
does not record as decided is processed, until one throws.
-/

namespace Veto.Watcher

open Foundation

/-! ## One run -/

/-- What a run meets besides the chain: its clock, the stored journal where there is a store, what
the ledger account and the history answer to each attempt of the repair, the feeds for each slot,
and what comes of storing the journal after the repair and after each slot. -/
structure DueRun where
  now : Int
  download : Option (Except String (Option Journal))
  ledger : List (Except Thrown (Option Bytes) × Option SignaturePages)
  window : Int → WindowArgs
  persist : Option Int → Except String Unit

/-- What a run has done. -/
structure Due where
  journal : Journal
  asked : List Question
  attempted : List Int
  deferred : Bool
  stopped : Option Stop

/-- The stored journal in place of the local one. -/
def hydrateLocalJournal (run : DueRun) (journal : Journal) : Except String Journal :=
  match run.download with
  | none => .ok journal
  | some (.error message) => .error message
  | some (.ok none) => .ok journal
  | some (.ok (some stored)) => .ok stored

/-- Some slot of the list is not decided. -/
def anyUndecided (journal : Journal) : List Int → Except String Bool
  | [] => .ok false
  | slot :: slots => do
    let nonce ← nonceFromSlot slot
    if journal.hasNonce nonce then anyUndecided journal slots else return true

def chainDecisionToRow (entry : ChainDecision) : JournalRow where
  nonce := entry.nonce.toNat
  amount := entry.amount.toNat
  decision := entry.decision.row
  reason := reasonText entry.reason
  reasonCode := some entry.reason
  signature := some (match entry.signature with
    | some signature => if 0 < signature.length then signature else RECOVERED_SIGNATURE
    | none => RECOVERED_SIGNATURE)
  suggestedOverride := if entry.suggestedOverride = 0 then none else some entry.suggestedOverride

def repairJournalFromChain (journal : Journal) (entries : List ChainDecision) : Journal :=
  entries.foldl (fun journal entry =>
    if journal.hasNonce entry.nonce.toNat then journal
    else journal ++ [chainDecisionToRow entry]) journal

section Run

variable {rt : Runtime} (zone : Zone) (isLedgerDecodeError : Thrown → Bool) (programId : Pubkey)
  (account : String) (attempts : Nat) (env : Surroundings rt)

/-- The decisions of the chain, under the backoff; a rate limit leaves none. -/
def repairEntries (journal : Journal) :
    List (Except Thrown (Option Bytes) × Option SignaturePages) → Except Stop (List ChainDecision)
  | [] => .error .waiting
  | (ledgerInfo, history) :: later =>
    match fetchChainDecisions programId account ledgerInfo history
        (some fun nonce => journal.hasNonce nonce.toNat) with
    | .ok entries => .ok entries
    | .error e =>
        if isLedgerDecodeError e then .error (.threw "ledger")
        else if isRateLimitError e then .ok []
        else repairEntries journal later

/-- The journal a run works with, or what stops it before its first slot. -/
def withJournalAndFeed (run : DueRun) (journal : Journal) : Journal × Option Stop :=
  match hydrateLocalJournal run journal with
  | .error message => (journal, some (.threw message))
  | .ok journal =>
    match anyUndecided journal (dueSlots zone run.now) with
    | .error message => (journal, some (.threw message))
    | .ok false => (journal, none)
    | .ok true =>
      match repairEntries isLedgerDecodeError programId account journal run.ledger with
      | .error stop => (journal, some stop)
      | .ok entries =>
        let repaired := repairJournalFromChain journal entries
        if journal.length < repaired.length ∧ run.download.isSome then
          match run.persist none with
          | .error message => (repaired, some (.threw message))
          | .ok () => (repaired, none)
        else (repaired, none)

/-- One slot of the loop, once nothing has been thrown. -/
def processSlot (run : DueRun) (due : Due) (slot : Int) : Due :=
  if due.stopped.isSome then due
  else
    match nonceFromSlot slot with
    | .error message => { due with stopped := some (.threw message) }
    | .ok nonce =>
      if due.journal.hasNonce nonce then due
      else
        match (processWindow attempts (some (chainReader programId)) (submitCharge programId)
            { run.window slot with slot := slot } due.journal).run env.moment due.asked with
        | (.error stop, later) =>
            { due with asked := later, attempted := due.attempted ++ [slot], stopped := some stop }
        | (.ok (result, journal), later) =>
            { journal := journal
              asked := later
              attempted := due.attempted ++ [slot]
              deferred := due.deferred || result = .deferred
              stopped :=
                match run.persist (some slot) with
                | .error message => some (.threw message)
                | .ok () => none }

/-- Before the first slot. -/
def startDue (run : DueRun) (journal : Journal) (asked : List Question) : Due :=
  let prepared := withJournalAndFeed zone isLedgerDecodeError programId account run journal
  ⟨prepared.1, asked, [], false, prepared.2⟩

def processDue (run : DueRun) (journal : Journal) (asked : List Question) : Due :=
  (dueSlots zone run.now).foldl (processSlot programId attempts env run)
    (startDue zone isLedgerDecodeError programId account run journal asked)

/-- One run after the other, each from the journal that the last one left. -/
def processRuns (runs : List DueRun) (journal : Journal) (asked : List Question) :
    Journal × List Question :=
  runs.foldl (fun state run =>
    let due := processDue zone isLedgerDecodeError programId account attempts env run state.1 state.2
    (due.journal, due.asked)) (journal, asked)

end Run

/-! ## The rows of a window -/

/-- The journal with rows of this nonce behind it. -/
def Adds (nonce : Nat) (journal journal' : Journal) : Prop :=
  ∃ rows, journal' = journal ++ rows ∧ ∀ row ∈ rows, row.nonce = nonce

section Rows

variable {nonce : Nat} {journal : Journal}

theorem Adds.none : Adds nonce journal journal := ⟨[], (List.append_nil _).symm, nofun⟩

theorem Adds.one {row : JournalRow} (h : row.nonce = nonce) : Adds nonce journal (journal ++ [row]) :=
  ⟨[row], rfl, fun _ hmem => List.mem_singleton.mp hmem ▸ h⟩

/-- Another nonce is decided as before. -/
theorem Adds.hasNonce {journal' : Journal} (h : Adds nonce journal journal') {other : Nat}
    (hne : other ≠ nonce) : journal'.hasNonce other = journal.hasNonce other := by
  obtain ⟨rows, rfl, hrows⟩ := h
  have hnone : rows.any (fun row => row.nonce = other && Journal.terminal row.decision) = false := by
    rw [List.any_eq_false]
    intro row hrow hcontra
    rw [Bool.and_eq_true, decide_eq_true_eq, hrows row hrow] at hcontra
    exact hne hcontra.1.symm
  rw [Journal.hasNonce, List.any_append, hnone, Bool.or_false]
  rfl

theorem adds_writeGap (reason : String) (signature : Option String) :
    Adds nonce journal (writeGap journal nonce reason signature) := by
  unfold writeGap
  split
  · exact .none
  · exact .one rfl

theorem adds_deferRateLimit : Adds nonce journal (deferRateLimit journal nonce).2 :=
  adds_writeGap _ _

theorem adds_closedWindow (settled : Nat) (seenSignature : Option String)
    (recovered : Option RecoveredCharge) :
    Adds nonce journal (closedWindow journal nonce settled seenSignature recovered).2 := by
  unfold closedWindow
  split
  · exact .one rfl
  · split
    · exact .one rfl
    · split
      · exact .one rfl
      · exact adds_writeGap _ _

end Rows

section Window

variable {rt : Runtime} {env : Surroundings rt} {asked later : List Question} {attempts nonce : Nat}
  {reader : Option (ChainReader rt)} {submit : Nat → Nat → Rpc rt ChargeReceipt}
  {journal : Journal} {result : ProcessResult × Journal} {args : WindowArgs}

theorem closeAlreadySettled_adds {settled : Nat} {seenSignature : Option String}
    (h : (closeAlreadySettled attempts reader journal nonce settled seenSignature).run env.moment
      asked = (.ok result, later)) : Adds nonce journal result.2 := by
  obtain ⟨recovered, _, -, h⟩ := Client.bind_run.mp h
  obtain ⟨rfl, -⟩ := Client.pure_run.mp h
  exact adds_closedWindow _ _ _

theorem submitWindow_adds {amount : Nat}
    (h : (submitWindow attempts reader submit journal nonce amount).run env.moment asked =
      (.ok result, later)) : Adds nonce journal result.2 := by
  obtain ⟨receipt, between, -, h⟩ := Client.bind_run.mp h
  cases receipt with
  | none =>
      obtain ⟨rfl, -⟩ := Client.pure_run.mp h
      exact adds_deferRateLimit
  | some receipt =>
      dsimp only at h
      split at h
      · obtain ⟨closed, _, hclose, h⟩ := Client.bind_run.mp h
        cases closed with
        | none =>
            obtain ⟨rfl, -⟩ := Client.pure_run.mp h
            exact adds_deferRateLimit
        | some closed =>
            obtain ⟨rfl, -⟩ := Client.pure_run.mp h
            obtain ⟨latest, _, -, hclose⟩ := Client.bind_run.mp (unlessRateLimited_run hclose)
            exact closeAlreadySettled_adds hclose
      · obtain ⟨rfl, -⟩ := Client.pure_run.mp h
        exact .one rfl

theorem priceWindow_adds
    (h : (priceWindow attempts reader submit args journal nonce).run env.moment asked =
      (.ok result, later)) : Adds nonce journal result.2 := by
  unfold priceWindow at h
  cases hwindow : args.window with
  | none =>
      rw [hwindow] at h
      obtain ⟨rfl, -⟩ := Client.pure_run.mp h
      exact adds_writeGap _ _
  | some window =>
      rw [hwindow] at h
      dsimp only at h
      split at h
      · obtain ⟨rfl, -⟩ := Client.pure_run.mp h
        exact adds_writeGap _ _
      split at h
      · obtain ⟨rfl, -⟩ := Client.pure_run.mp h
        exact adds_writeGap _ _
      split at h
      · obtain ⟨rfl, -⟩ := Client.pure_run.mp h
        exact .one rfl
      split at h
      · obtain ⟨rfl, -⟩ := Client.pure_run.mp h
        exact adds_writeGap _ _
      split at h
      · exact absurd h Client.fail_run
      split at h
      · obtain ⟨rfl, -⟩ := Client.pure_run.mp h
        exact .one rfl
      · exact submitWindow_adds h

/-- **A window writes of its own nonce only.** -/
theorem processWindow_adds (hnonce : nonceFromSlot args.slot = .ok nonce)
    (h : (processWindow attempts reader submit args journal).run env.moment asked =
      (.ok result, later)) : Adds nonce journal result.2 := by
  unfold processWindow at h
  rw [hnonce] at h
  dsimp only at h
  split at h
  · obtain ⟨rfl, -⟩ := Client.pure_run.mp h
    exact .none
  obtain ⟨settled, _, -, h⟩ := Client.bind_run.mp h
  cases settled with
  | none =>
      obtain ⟨rfl, -⟩ := Client.pure_run.mp h
      exact adds_deferRateLimit
  | some settled =>
      dsimp only at h
      split at h
      · obtain ⟨closed, _, hclose, h⟩ := Client.bind_run.mp h
        cases closed with
        | none =>
            obtain ⟨rfl, -⟩ := Client.pure_run.mp h
            exact adds_deferRateLimit
        | some closed =>
            obtain ⟨rfl, -⟩ := Client.pure_run.mp h
            exact closeAlreadySettled_adds (unlessRateLimited_run hclose)
      obtain ⟨recorded, _, -, h⟩ := Client.bind_run.mp h
      cases recorded with
      | none =>
          obtain ⟨rfl, -⟩ := Client.pure_run.mp h
          exact adds_deferRateLimit
      | some recorded =>
          cases recorded with
          | none => exact priceWindow_adds h
          | some recovered =>
              dsimp only at h
              split at h
              · obtain ⟨rfl, -⟩ := Client.pure_run.mp h
                exact .one rfl
              · obtain ⟨rfl, -⟩ := Client.pure_run.mp h
                exact .one rfl

end Window

/-! ## The slots of a run -/

/-- The journal does not record the slot as decided. -/
def Undecided (journal : Journal) (slot : Int) : Prop :=
  ∃ nonce, nonceFromSlot slot = .ok nonce ∧ journal.hasNonce nonce = false

theorem nonceFromSlot_eq {slot : Int} {nonce : Nat} (h : nonceFromSlot slot = .ok nonce) :
    (nonce : Int) * 1000 = slot - slot % QUARTER_MS := by
  unfold nonceFromSlot at h
  dsimp only at h
  split at h
  · cases h
  · cases h
    simp only [QUARTER_MS] at *
    omega

/-- Slots that are hours apart have different nonces. -/
theorem nonce_ne {slot slot' : Int} {nonce nonce' : Nat} (h : nonceFromSlot slot = .ok nonce)
    (h' : nonceFromSlot slot' = .ok nonce')
    (hapart : 3 * HOUR_MS < slot - slot' ∨ 3 * HOUR_MS < slot' - slot) : nonce' ≠ nonce := by
  intro heq
  have hstart := nonceFromSlot_eq h
  have hstart' := nonceFromSlot_eq h'
  rw [heq] at hstart'
  simp only [HOUR_MS, QUARTER_MS] at *
  omega

section Loop

variable {rt : Runtime} {programId : Pubkey} {attempts : Nat} {env : Surroundings rt} {run : DueRun}
  {due : Due} {slot other : Int}

theorem processSlot_stopped (h : due.stopped.isSome = true) (slot : Int) :
    processSlot programId attempts env run due slot = due := by
  rw [processSlot, if_pos h]

theorem foldl_stopped (h : due.stopped.isSome = true) (slots : List Int) :
    slots.foldl (processSlot programId attempts env run) due = due := by
  induction slots with
  | nil => rfl
  | cons slot slots ih => rw [List.foldl_cons, processSlot_stopped h, ih]

/-- What is attempted at a slot is the slot. -/
theorem processSlot_attempted (due : Due) (slot : Int) :
    (processSlot programId attempts env run due slot).attempted = due.attempted ∨
      (processSlot programId attempts env run due slot).attempted = due.attempted ++ [slot] := by
  unfold processSlot
  split
  · exact .inl rfl
  split
  · exact .inl rfl
  split
  · exact .inl rfl
  split
  · exact .inr rfl
  · exact .inr rfl

theorem mem_attempted_foldl (slots : List Int) (h : slot ∈ due.attempted) :
    slot ∈ (slots.foldl (processSlot programId attempts env run) due).attempted := by
  induction slots generalizing due with
  | nil => exact h
  | cons first slots ih =>
      rw [List.foldl_cons]
      apply ih
      rcases processSlot_attempted due first with hsame | hmore
      · rw [hsame]
        exact h
      · rw [hmore]
        exact List.mem_append_left _ h

/-- An undecided slot is attempted where the loop comes to it. -/
theorem processSlot_undecided (hrunning : due.stopped = none) (hslot : Undecided due.journal slot) :
    slot ∈ (processSlot programId attempts env run due slot).attempted := by
  obtain ⟨nonce, hnonce, hopen⟩ := hslot
  unfold processSlot
  rw [hrunning, hnonce]
  dsimp only
  rw [hopen, if_neg (by simp), if_neg (by simp)]
  split
  · exact List.mem_append_right _ (List.mem_singleton_self slot)
  · exact List.mem_append_right _ (List.mem_singleton_self slot)

/-- The window of another slot leaves it undecided. -/
theorem undecided_processSlot (hslot : Undecided due.journal slot)
    (hother : ∀ nonce nonce', nonceFromSlot slot = .ok nonce → nonceFromSlot other = .ok nonce' →
      nonce' ≠ nonce) :
    Undecided (processSlot programId attempts env run due other).journal slot := by
  unfold processSlot
  split
  · exact hslot
  split
  · exact hslot
  rename_i nonce' hnonce'
  split
  · exact hslot
  split
  · exact hslot
  · rename_i hrun
    obtain ⟨nonce, hnonce, hopen⟩ := hslot
    have hslot' : nonceFromSlot ({ run.window other with slot := other } : WindowArgs).slot =
        .ok nonce' := hnonce'
    have hadds := processWindow_adds hslot' hrun
    refine ⟨nonce, hnonce, ?_⟩
    rw [hadds.hasNonce (hother nonce nonce' hnonce hnonce').symm]
    exact hopen

/-- **Which slots a loop attempts.**  One that is undecided is attempted exactly when it is in the
list and nothing before it stops the loop. -/
theorem attempted_foldl_iff {slots : List Int} (hslot : Undecided due.journal slot)
    (hfresh : slot ∉ due.attempted)
    (hothers : ∀ other ∈ slots, other ≠ slot → ∀ nonce nonce', nonceFromSlot slot = .ok nonce →
      nonceFromSlot other = .ok nonce' → nonce' ≠ nonce) :
    slot ∈ (slots.foldl (processSlot programId attempts env run) due).attempted ↔
      slot ∈ slots ∧ ((slots.takeWhile (· ≠ slot)).foldl
        (processSlot programId attempts env run) due).stopped = none := by
  induction slots generalizing due with
  | nil => simp [hfresh]
  | cons first slots ih =>
      rw [List.foldl_cons]
      by_cases hfirst : first = slot
      · subst hfirst
        rw [List.takeWhile_cons_of_neg (by simp), List.foldl_nil]
        cases hstopped : due.stopped with
        | none =>
            exact iff_of_true (mem_attempted_foldl slots (processSlot_undecided hstopped hslot))
              ⟨List.mem_cons_self, rfl⟩
        | some stop =>
            have hsome : due.stopped.isSome = true := by rw [hstopped]; rfl
            rw [processSlot_stopped hsome, foldl_stopped hsome]
            exact iff_of_false hfresh fun h => by cases h.2
      · rw [List.takeWhile_cons_of_pos (by simpa using hfirst), List.foldl_cons]
        have hlater := ih
          (undecided_processSlot hslot (hothers first List.mem_cons_self hfirst))
          (by
            rcases @processSlot_attempted _ programId attempts env run due first with hsame | hmore
            · rw [hsame]
              exact hfresh
            · rw [hmore, List.mem_append, List.mem_singleton, not_or]
              exact ⟨hfresh, Ne.symm hfirst⟩)
          fun other hmem => hothers other (List.mem_cons_of_mem first hmem)
        rw [hlater, List.mem_cons]
        constructor
        · rintro ⟨hmem, hrest⟩
          exact ⟨.inr hmem, hrest⟩
        · rintro ⟨heq | hmem, hrest⟩
          · exact absurd heq.symm hfirst
          · exact ⟨hmem, hrest⟩

end Loop

/-! ## Every sequence of runs -/

section Runs

variable {rt : Runtime} (zone : Zone) (isLedgerDecodeError : Thrown → Bool) (programId : Pubkey)
  (account : String) (attempts : Nat) (env : Surroundings rt)

/-- `early` and `late` are two of the runs, in this order, and `start` is what `late` starts
from. -/
def Follows (runs : List DueRun) (journal : Journal) (asked : List Question) (early late : DueRun)
    (start : Journal × List Question) : Prop :=
  ∃ front mid back, runs = front ++ early :: (mid ++ late :: back) ∧
    start = processRuns zone isLedgerDecodeError programId account attempts env
      (front ++ early :: mid) journal asked

/-- The run comes to the slot: neither what is before the first slot nor a slot before this one
throws. -/
def Reaches (run : DueRun) (start : Journal × List Question) (slot : Int) : Prop :=
  (((dueSlots zone run.now).takeWhile (· ≠ slot)).foldl (processSlot programId attempts env run)
    (startDue zone isLedgerDecodeError programId account run start.1 start.2)).stopped = none

variable {zone isLedgerDecodeError programId account attempts env}

theorem attempted_later_iff (hzone : zone.European) {early late : DueRun}
    (hle : early.now ≤ late.now) {slot : Int} (hdue : slot ∈ dueSlots zone early.now)
    (start : Journal × List Question)
    (hopen : Undecided
      (withJournalAndFeed zone isLedgerDecodeError programId account late start.1).1 slot) :
    slot ∈ (processDue zone isLedgerDecodeError programId account attempts env late start.1
        start.2).attempted ↔
      zone.day late.now = zone.day early.now ∧
        Reaches zone isLedgerDecodeError programId account attempts env late start slot := by
  rw [← due_later_iff hzone hdue hle]
  apply attempted_foldl_iff hopen List.not_mem_nil
  intro other hother hne nonce nonce' hnonce hnonce'
  obtain ⟨hour, hhour, rfl, -⟩ := mem_dueSlots_iff.mp hdue
  obtain ⟨hour', hhour', rfl, -⟩ := mem_dueSlots_iff.mp hother
  refine nonce_ne hnonce hnonce' (slotAt_apart hzone _ _ hhour hhour' ?_)
  by_contra hsame
  rw [not_or, not_not, not_not] at hsame
  rw [hsame.1, hsame.2] at hne
  exact hne rfl

/-- **Which due slots are not forgotten.**  In every sequence of runs at times that do not go back,
every slot that was due in a run and is undecided is attempted in each later run, if and only if
each such run is on the local day of the earlier one and comes to the slot. -/
theorem due_slots_kept_iff (hzone : zone.European) (runs : List DueRun)
    (htimes : runs.Pairwise fun early late => early.now ≤ late.now) (journal : Journal)
    (asked : List Question) :
    (∀ early late start, Follows zone isLedgerDecodeError programId account attempts env runs
        journal asked early late start → ∀ slot ∈ dueSlots zone early.now,
        Undecided (withJournalAndFeed zone isLedgerDecodeError programId account late start.1).1
          slot →
        slot ∈ (processDue zone isLedgerDecodeError programId account attempts env late start.1
          start.2).attempted) ↔
      ∀ early late start, Follows zone isLedgerDecodeError programId account attempts env runs
        journal asked early late start → ∀ slot ∈ dueSlots zone early.now,
        Undecided (withJournalAndFeed zone isLedgerDecodeError programId account late start.1).1
          slot →
        zone.day late.now = zone.day early.now ∧
          Reaches zone isLedgerDecodeError programId account attempts env late start slot := by
  have hpair : ∀ early late start, Follows zone isLedgerDecodeError programId account attempts env
      runs journal asked early late start → early.now ≤ late.now := by
    rintro early late start ⟨front, mid, back, rfl, -⟩
    rw [List.pairwise_append, List.pairwise_cons] at htimes
    exact htimes.2.1.1 late (List.mem_append_right _ List.mem_cons_self)
  constructor
  · intro hkept early late start hfollows slot hdue hopen
    exact (attempted_later_iff hzone (hpair _ _ _ hfollows) hdue start hopen).mp
      (hkept early late start hfollows slot hdue hopen)
  · intro hmeets early late start hfollows slot hdue hopen
    exact (attempted_later_iff hzone (hpair _ _ _ hfollows) hdue start hopen).mpr
      (hmeets early late start hfollows slot hdue hopen)

end Runs

/-! ### A slot deferred in the evening -/

section Sample

/-- An hour ahead of UTC. -/
def winterZone : Zone := ⟨fun _ => HOUR_MS⟩

/-- A node that answers every call with a rate limit. -/
def limited : Surroundings sampleRuntime where
  moment _ := { sampleMoment openedTenure sampleTenure_key with failure := some (.error "429") }
  grows _ := .refl _

/-- A run without a store, under the rate limit. -/
def limitedRun (now : Int) : DueRun where
  now := now
  download := none
  ledger := [(.error (.error "429"), none)]
  window := fun slot => { sampleWindow 0 "0.00003" with slot := slot }
  persist := fun _ => .ok ()

/-- Five past six in the evening of the second day. -/
def eveningRun : DueRun := limitedRun (DAY_MS + 17 * HOUR_MS + 300000)

/-- Five past midnight. -/
def midnightRun : DueRun := limitedRun (DAY_MS + 23 * HOUR_MS + 300000)

theorem winterZone_european : winterZone.European := by
  intro instant
  simp only [winterZone, HOUR_MS]
  omega

theorem due_slots_kept_iff_sample :
    (∀ early late start, Follows winterZone (fun _ => false) 99 "" 1 limited
        [eveningRun, midnightRun] [] [] early late start →
        ∀ slot ∈ dueSlots winterZone early.now,
        Undecided (withJournalAndFeed winterZone (fun _ => false) 99 "" late start.1).1 slot →
        slot ∈ (processDue winterZone (fun _ => false) 99 "" 1 limited late start.1
          start.2).attempted) ↔
      ∀ early late start, Follows winterZone (fun _ => false) 99 "" 1 limited
        [eveningRun, midnightRun] [] [] early late start →
        ∀ slot ∈ dueSlots winterZone early.now,
        Undecided (withJournalAndFeed winterZone (fun _ => false) 99 "" late start.1).1 slot →
        winterZone.day late.now = winterZone.day early.now ∧
          Reaches winterZone (fun _ => false) 99 "" 1 limited late start slot :=
  due_slots_kept_iff winterZone_european [eveningRun, midnightRun] (by decide) [] []

/-- **Forgotten at midnight.**  The slot of six in the evening is attempted at once and deferred by
the rate limit; the next run is after midnight, the journal still owes the slot a decision, and the
run does not attempt it. -/
theorem deferred_slot_forgotten :
    let slot := DAY_MS + 17 * HOUR_MS
    let evening := processDue winterZone (fun _ => false) 99 "" 1 limited eveningRun [] []
    let midnight := processDue winterZone (fun _ => false) 99 "" 1 limited midnightRun
      evening.journal evening.asked
    slot ∈ dueSlots winterZone eveningRun.now ∧ slot ∈ evening.attempted ∧
      evening.stopped = none ∧ midnight.stopped = none ∧
      midnight.attempted = [DAY_MS + 23 * HOUR_MS] ∧ Undecided midnight.journal slot := by
  refine ⟨by decide +kernel, by decide +kernel, by decide +kernel, by decide +kernel,
    by decide +kernel, 147600, by decide +kernel, by decide +kernel⟩

end Sample

end Veto.Watcher
