import Veto.App.GuardAlerts

/-!
# Guardian's alerts over many reads

One stored list serves every read.  An alert that is presented is found in the list by later reads,
unless the read that presented it broke off or the list was full.
-/

namespace Veto.App.HoldGuard

open Foundation Foundation.Throwing

/-! ## Reads one after the other -/

structure GuardOutcome where
  raised : List GuardAlert
  failure : Option GuardFailure

/-- The keys of what was presented. -/
def GuardOutcome.keys (o : GuardOutcome) : List String := o.raised.map (·.key)

/-- A read of the guardian's vaults; the scan of the owner's own vaults stores what is scheduled
under the same key. -/
inductive GuardInput
  | read (guardian : Pubkey) (scheduler : Bool) (world : GuardWorld)
  | ownerScan (scheduled : List String)

def guardStep (phone : Phone) (store : GuardStore) : GuardInput → GuardOutcome × GuardStore
  | .read guardian scheduler world =>
      match (raiseGuardAlerts phone guardian scheduler world).run (.start store) with
      | .ok _ run => (⟨run.raised, none⟩, run.store)
      | .error e run => (⟨run.raised, some e⟩, run.store)
  | .ownerScan scheduled => (⟨[], none⟩, { store with scheduled })

abbrev GuardTransition := Transition GuardStore GuardInput GuardOutcome

abbrev GuardHistory := List GuardTransition

def GuardStep (phone : Phone) (s : GuardStore) (i : GuardInput) (o : GuardOutcome)
    (s' : GuardStore) : Prop := guardStep phone s i = (o, s')

section Transition

variable (phone : Phone) (T : GuardTransition)

/-- The vaults that the read finds. -/
def GuardTransition.visits : List (GuardedVault × Nat) :=
  match T.input with
  | .read guardian _ world => visitsOf phone guardian world T.pre
  | .ownerScan _ => []

/-- The keys of the alerts that are due at some of the vaults. -/
def GuardTransition.due (visits : List (GuardedVault × Nat)) : List String :=
  match T.input with
  | .read _ scheduler world => keysOf scheduler world visits
  | .ownerScan _ => []

/-- The read broke off because a vault, or its decimals, could not be read. -/
def GuardTransition.ReadFails (front : List (GuardedVault × Nat)) (visit : GuardedVault × Nat)
    (rest : List (GuardedVault × Nat)) : Prop :=
  T.visits phone = front ++ visit :: rest ∧ ∃ e call, T.output.failure = some e ∧
    e.stage = .vault visit.2 call ∧ call.Reads

/-- Where one vault fails, what is due at the others is stored already or presented. -/
def GuardTransition.ServesOthers : Prop :=
  ∀ front visit rest, T.ReadFails phone front visit rest →
    ∀ key ∈ T.due (front ++ rest), key ∈ T.pre.seen ∨ key ∈ T.output.keys

/-- Where one vault fails, nothing is due behind it that is not stored, or due before it. -/
def GuardTransition.NothingBehind : Prop :=
  ∀ front visit rest, T.ReadFails phone front visit rest →
    ∀ key ∈ T.due rest, key ∈ T.pre.seen ∨ key ∈ T.due front

/-- The keys that were stored or presented, and are not stored after the read. -/
def GuardTransition.lost : List String :=
  (T.pre.seen ++ T.output.keys).filter fun key => key ∉ T.post.seen

end Transition

/-- Keys of what was presented, and of what was lost, in a history. -/
def announced (h : GuardHistory) : List String := h.flatMap fun T => T.output.keys

def lostIn (h : GuardHistory) : List String := h.flatMap GuardTransition.lost

/-! ## One read -/

/-- What a read comes to. -/
structure ReadEffect (phone : Phone) (T : GuardTransition) : Prop where
  once : T.output.keys.Nodup
  fresh : ∀ key ∈ T.output.keys, key ∉ T.pre.seen
  found : ∀ key ∈ T.output.keys, key ∈ T.due (T.visits phone)
  completed : T.output.failure = none → T.post.seen = storedAfter T.pre.seen T.output.keys
  broken : T.output.failure ≠ none → T.post.seen = T.pre.seen
  served : ∀ front visit rest, T.ReadFails phone front visit rest →
    (∀ key ∈ T.due front, key ∈ T.pre.seen ∨ key ∈ T.output.keys) ∧
      ∀ key ∈ T.output.keys, key ∈ T.due front

/-- A place tells which vaults stand before it. -/
theorem front_of_place {vaults : List GuardedVault} {front front' rest rest' : List (GuardedVault × Nat)}
    {visit visit' : GuardedVault × Nat} (h : vaults.zipIdx = front ++ visit :: rest)
    (h' : vaults.zipIdx = front' ++ visit' :: rest') (hplace : visit'.2 = visit.2) :
    front' = front := by
  have place : ∀ {front rest : List (GuardedVault × Nat)} {visit : GuardedVault × Nat},
      vaults.zipIdx = front ++ visit :: rest → visit.2 = front.length := by
    intro front rest visit hsplit
    have hat : vaults.zipIdx[front.length]? = some visit := by
      rw [hsplit, List.getElem?_append_right (Nat.le_refl _), Nat.sub_self]
      rfl
    rw [List.getElem?_zipIdx, Option.map_eq_some_iff] at hat
    obtain ⟨_, -, rfl⟩ := hat
    exact Nat.zero_add _
  have hlength : front'.length = front.length := by
    rw [← place h, ← place h', hplace]
  have happend : front ++ visit :: rest = front' ++ visit' :: rest' := h.symm.trans h'
  exact (List.append_inj_left happend hlength.symm).symm

theorem Announced.keys {stored found served : List String} {run : GuardRun} {o : GuardOutcome}
    (h : Announced stored found served run) (ho : o.raised = run.raised) :
    o.keys.Nodup ∧ (∀ key ∈ o.keys, key ∉ stored) ∧ (∀ key ∈ o.keys, key ∈ found) ∧
      ∀ key ∈ served, key ∈ stored ∨ key ∈ o.keys := by
  unfold GuardOutcome.keys
  rw [ho]
  refine ⟨h.once, ?_, ?_, ?_⟩
  · intro key hkey
    obtain ⟨alert, halert, rfl⟩ := List.mem_map.mp hkey
    exact h.fresh alert halert
  · intro key hkey
    obtain ⟨alert, halert, rfl⟩ := List.mem_map.mp hkey
    exact h.found alert halert
  · intro key hkey
    have hseen := h.served key hkey
    rwa [h.seenList, List.mem_append] at hseen

theorem keysOf_sub {scheduler : Bool} {world : GuardWorld}
    {front rest : List (GuardedVault × Nat)} {visit : GuardedVault × Nat} :
    ∀ key ∈ keysOf scheduler world (front ++ [visit]),
      key ∈ keysOf scheduler world (front ++ visit :: rest) := by
  intro key hkey
  unfold keysOf at hkey ⊢
  rw [List.flatMap_append] at hkey ⊢
  rw [List.flatMap_cons]
  rw [List.flatMap_cons, List.flatMap_nil, List.append_nil] at hkey
  rcases List.mem_append.mp hkey with hkey | hkey
  · exact List.mem_append_left _ hkey
  · exact List.mem_append_right _ (List.mem_append_left _ hkey)

/-- A read that is done has stored what it presented. -/
theorem Finished.effect {phone : Phone} {guardian : Pubkey} {scheduler : Bool} {world : GuardWorld}
    {store : GuardStore} {run : GuardRun}
    (h : Finished store.seen (keysOf scheduler world (visitsOf phone guardian world store)) run) :
    ReadEffect phone ⟨store, .read guardian scheduler world, ⟨run.raised, none⟩, run.store⟩ where
  once := h.once
  fresh := by
    intro key hkey
    obtain ⟨alert, halert, rfl⟩ := List.mem_map.mp hkey
    exact h.fresh alert halert
  found := by
    intro key hkey
    obtain ⟨alert, halert, rfl⟩ := List.mem_map.mp hkey
    exact h.found alert halert
  completed := fun _ => h.store
  broken := fun hfailed => absurd rfl hfailed
  served := by
    rintro front visit rest ⟨-, e, call, hnone, -⟩
    cases hnone

section Broken

variable {phone : Phone} {guardian : Pubkey} {scheduler : Bool} {world : GuardWorld}
  {store : GuardStore} {e : GuardFailure} {run : GuardRun} {found served : List String}

/-- A read that breaks off stores nothing.  Where it breaks off with a read at a vault, `found` is
what is due at the vaults before it. -/
theorem Announced.effect (h : Announced store.seen found served run)
    (hfound : ∀ key ∈ found, key ∈ keysOf scheduler world (visitsOf phone guardian world store))
    (hreads : ∀ front visit rest call,
      visitsOf phone guardian world store = front ++ visit :: rest →
      e.stage = .vault visit.2 call → call.Reads →
      found = keysOf scheduler world front ∧ served = keysOf scheduler world front) :
    ReadEffect phone ⟨store, .read guardian scheduler world, ⟨run.raised, some e⟩, run.store⟩ := by
  obtain ⟨honce, hfresh, hin, hserved⟩ := h.keys (o := ⟨run.raised, some e⟩) rfl
  refine ⟨honce, hfresh, fun key hkey => hfound key (hin key hkey), ?_, fun _ => h.store, ?_⟩
  · intro hnone
    cases hnone
  · rintro front visit rest ⟨hsplit, e', call, hsame, hstage, hcall⟩
    cases hsame
    obtain ⟨rfl, rfl⟩ := hreads front visit rest call hsplit hstage hcall
    exact ⟨hserved, hin⟩

/-- Where nothing was announced, nothing is said. -/
theorem Blank.effect (h : Blank store.seen run) (hstage : ∀ place call, e.stage ≠ .vault place call) :
    ReadEffect phone ⟨store, .read guardian scheduler world, ⟨run.raised, some e⟩, run.store⟩ := by
  obtain ⟨hstore, hraised⟩ := h
  have hnone : ∀ key, key ∉ GuardOutcome.keys ⟨run.raised, some e⟩ := by
    intro key hkey
    unfold GuardOutcome.keys at hkey
    rw [hraised] at hkey
    cases hkey
  refine ⟨?_, fun key hkey => absurd hkey (hnone key), fun key hkey => absurd hkey (hnone key), ?_,
    fun _ => hstore, ?_⟩
  · unfold GuardOutcome.keys
    rw [hraised]
    exact List.nodup_nil
  · intro hfailed
    cases hfailed
  · rintro front visit rest ⟨-, e', call, hsame, hplace, -⟩
    cases hsame
    exact absurd hplace (hstage visit.2 call)

theorem visitsOf_zipIdx (phone : Phone) (guardian : Pubkey) (world : GuardWorld)
    (store : GuardStore) :
    ∃ vaults : List GuardedVault, visitsOf phone guardian world store = vaults.zipIdx := by
  unfold visitsOf
  split
  · exact ⟨_, rfl⟩
  · exact ⟨[], rfl⟩

theorem LeftAt.effect
    (h : LeftAt scheduler world store.seen (visitsOf phone guardian world store) e run) :
    ReadEffect phone ⟨store, .read guardian scheduler world, ⟨run.raised, some e⟩, run.store⟩ := by
  obtain ⟨front, visit, rest, hsplit, hleft⟩ := h
  obtain ⟨vaults, hvaults⟩ := visitsOf_zipIdx phone guardian world store
  rcases hleft with ⟨call, hstage, hreads, hrun⟩ | ⟨call, hstage, hother, hrun⟩
  · refine hrun.effect ?_ ?_
    · intro key hkey
      rw [hsplit]
      refine keysOf_sub key ?_
      unfold keysOf at hkey ⊢
      rw [List.flatMap_append]
      exact List.mem_append_left _ hkey
    · intro front' visit' rest' call' hsplit' hplace hcall
      rw [hstage] at hplace
      rw [hvaults] at hsplit hsplit'
      have hfront := front_of_place hsplit' hsplit (GuardStage.vault.inj hplace).1
      rw [hfront]
      exact ⟨rfl, rfl⟩
  · refine hrun.effect ?_ ?_
    · rw [hsplit]
      exact keysOf_sub
    · intro _ _ _ call' _ hplace hcall
      rw [hstage] at hplace
      rw [← (GuardStage.vault.inj hplace).2] at hcall
      exact absurd hcall hother

end Broken

theorem read_effect {phone : Phone} {s s' : GuardStore} {i : GuardInput} {o : GuardOutcome}
    (hstep : GuardStep phone s i o s') : ReadEffect phone ⟨s, i, o, s'⟩ := by
  cases i with
  | ownerScan scheduled =>
      cases hstep
      refine ⟨List.nodup_nil, ?_, ?_, fun _ => rfl, fun _ => rfl, ?_⟩
      · intro _ h
        cases h
      · intro _ h
        cases h
      · rintro front visit rest ⟨-, e, call, hnone, -⟩
        cases hnone
  | read guardian scheduler world =>
      have hends := (triple_raiseGuardAlerts : Triple (fun run => run = .start s)
        (raiseGuardAlerts phone guardian scheduler world) _ _) (.start s) rfl
      unfold GuardStep at hstep
      rw [guardStep] at hstep
      cases hrun : (raiseGuardAlerts phone guardian scheduler world).run (.start s) with
      | ok keys run =>
          rw [hrun] at hends hstep
          cases hstep
          exact Finished.effect hends
      | error e run =>
          rw [hrun] at hends hstep
          cases hstep
          rcases hends with ⟨hstage, hblank⟩ | hleft | ⟨hstage, hrun⟩
          · refine hblank.effect ?_
            intro place call hplace
            rw [hstage] at hplace
            cases hplace
          · exact hleft.effect
          · refine hrun.effect (fun _ hkey => hkey) ?_
            intro _ _ _ call _ hplace _
            rw [hstage] at hplace
            cases hplace

/-! ## Along a run -/

/-- Where one vault fails, the others are served exactly when nothing more is due behind it. -/
theorem ReadEffect.servesOthers_iff {phone : Phone} {T : GuardTransition} (h : ReadEffect phone T) :
    T.ServesOthers phone ↔ T.NothingBehind phone := by
  have happend : ∀ front rest key, key ∈ T.due (front ++ rest) ↔ key ∈ T.due front ∨ key ∈ T.due rest := by
    intro front rest key
    unfold GuardTransition.due
    cases T.input with
    | ownerScan scheduled => simp
    | read guardian scheduler world =>
        simp only [keysOf, List.flatMap_append, List.mem_append]
  constructor
  · intro hserves front visit rest hfails key hkey
    rcases hserves front visit rest hfails key ((happend front rest key).mpr (.inr hkey)) with
      hstored | hpresented
    · exact .inl hstored
    · exact .inr ((h.served front visit rest hfails).2 key hpresented)
  · intro hbehind front visit rest hfails key hkey
    obtain ⟨hserved, -⟩ := h.served front visit rest hfails
    rcases (happend front rest key).mp hkey with hfront | hrest
    · exact hserved key hfront
    · rcases hbehind front visit rest hfails key hrest with hstored | hfront
      · exact .inl hstored
      · exact hserved key hfront

/-- A read loses nothing where it is done and the list holds all, or where it breaks off before it
presents anything. -/
theorem ReadEffect.lost_eq_nil {phone : Phone} {T : GuardTransition} (h : ReadEffect phone T)
    (hroom : T.output.failure = none → T.pre.seen.length + T.output.keys.length ≤ SEEN_CAP)
    (hbroken : T.output.failure ≠ none → T.output.keys = []) : T.lost = [] := by
  have hkept : ∀ key ∈ T.pre.seen ++ T.output.keys, key ∈ T.post.seen := by
    intro key hkey
    by_cases hfailure : T.output.failure = none
    · rw [h.completed hfailure]
      unfold storedAfter
      split_ifs with hnone
      · rwa [hnone, List.append_nil] at hkey
      · have hfits : (T.pre.seen ++ T.output.keys).length - SEEN_CAP = 0 := by
          have hroom := hroom hfailure
          rw [List.length_append]
          omega
        unfold keepLast
        rwa [hfits, List.drop_zero]
    · rw [h.broken hfailure]
      rwa [hbroken hfailure, List.append_nil] at hkey
  unfold GuardTransition.lost
  rw [List.filter_eq_nil_iff]
  intro key hkey
  rw [decide_eq_true_iff]
  exact not_not_intro (hkept key hkey)

/-- No read of the history is due an alert that an earlier one lost. -/
def NothingLostIsDue (phone : Phone) (h : GuardHistory) : Prop :=
  ∀ newer T older, h = newer ++ T :: older → ∀ key ∈ T.due (T.visits phone), key ∉ lostIn older

/-- What was presented is stored, or was lost. -/
structure Remembered (h : GuardHistory) (s : GuardStore) : Prop where
  once : (announced h).Nodup
  kept : ∀ key ∈ announced h, key ∈ s.seen ∨ key ∈ lostIn h

theorem Remembered.step {phone : Phone} {h : GuardHistory} {s s' : GuardStore} {i : GuardInput}
    {o : GuardOutcome} (hinv : Remembered h s) (heffect : ReadEffect phone ⟨s, i, o, s'⟩)
    (hdue : ∀ key ∈ GuardTransition.due ⟨s, i, o, s'⟩ (GuardTransition.visits phone ⟨s, i, o, s'⟩),
      key ∉ lostIn h) : Remembered (⟨s, i, o, s'⟩ :: h) s' := by
  let T : GuardTransition := ⟨s, i, o, s'⟩
  have hkept : ∀ key ∈ s.seen ++ o.keys, key ∈ s'.seen ∨ key ∈ T.lost := by
    intro key hkey
    by_cases hstored : key ∈ s'.seen
    · exact .inl hstored
    · exact .inr (List.mem_filter.mpr ⟨hkey, decide_eq_true hstored⟩)
  constructor
  · refine List.nodup_append.mpr ⟨heffect.once, hinv.once, ?_⟩
    rintro key hkey _ hold rfl
    rcases hinv.kept key hold with hstored | hlost
    · exact heffect.fresh key hkey hstored
    · exact hdue key (heffect.found key hkey) hlost
  · intro key hkey
    change key ∈ s'.seen ∨ key ∈ T.lost ++ lostIn h
    rw [List.mem_append, ← or_assoc]
    rcases List.mem_append.mp hkey with hnew | hold
    · exact .inl (hkept key (List.mem_append_right _ hnew))
    · rcases hinv.kept key hold with hstored | hlost
      · exact .inl (hkept key (List.mem_append_left _ hstored))
      · exact .inr hlost

theorem remembered_of_run {phone : Phone} {s₀ s : GuardStore} {h : GuardHistory}
    (run : Run (GuardStep phone) s₀ h s) (hdue : NothingLostIsDue phone h) : Remembered h s := by
  refine run.carries (P := fun h s => NothingLostIsDue phone h → Remembered h s) ?_ ?_ hdue
  · intro _
    refine ⟨List.nodup_nil, ?_⟩
    intro key hkey
    cases hkey
  · intro h s i o s' _ ih hstep hdue
    refine (ih ?_).step (read_effect hstep) (hdue [] _ h rfl)
    intro newer T older hsplit
    refine hdue (⟨s, i, o, s'⟩ :: newer) T older ?_
    rw [hsplit, List.cons_append]

/-- **Guardian's alerts under failures.**  In every run, a read that fails at one vault leaves the
due alerts of the others unpresented exactly when some are due behind it alone; and no alert is
presented twice as long as no read is due what an earlier one lost. -/
theorem guard_alerts_hold_when {phone : Phone} {s₀ s : GuardStore} {h : GuardHistory}
    (run : Run (GuardStep phone) s₀ h s) :
    (∀ T ∈ h, T.ServesOthers phone ↔ T.NothingBehind phone) ∧
      (NothingLostIsDue phone h → (announced h).Nodup) := by
  constructor
  · intro T hT
    obtain ⟨_, _, _, _, hstep, _⟩ := run.of_mem hT
    exact (read_effect hstep).servesOthers_iff
  · intro hdue
    exact (remembered_of_run run hdue).once

/-! ### Two vaults, one of which cannot be read -/

section Sample

def samplePhone : Phone := ⟨fun _ => "Thu 16 Nov, 22:13", fun _ => none⟩

def sampleRow : PendingView := ⟨4, 1000, 7, 90000, WITHDRAWAL_PENDING⟩

/-- A vault of owner 1 that key 5 guards, with one withdrawal that waits. -/
def sampleAccount (address mint : Pubkey) : HoldVaultAccount where
  address
  owner := 1
  guardian := 5
  safeAddress := 6
  mint
  vaultToken := 8
  vaultId := 1
  dailyLimit := 100
  dailyBuckets := []
  windowSpent := 0
  windowStart := 0
  delaySecs := 86400
  unfreezeAt := 0
  nextWithdrawalId := 5
  bigShareBps := 2500
  frozen := false
  known := []
  pending := [sampleRow]
  change := ⟨false, 0, 0, 0, 0, 0, 0, 0⟩
  bump := 0
  tokenBump := 0
  ledgerBump := 0

theorem sampleAccount_apart (address mint : Pubkey) :
    ((sampleAccount address mint).pending.map PendingView.id).Nodup :=
  List.nodup_singleton _

def sampleVault (address mint : Pubkey) : GuardedVault :=
  ⟨sampleAccount address mint, sampleAccount_apart address mint⟩

/-- Every call succeeds, but for the decimals at one place. -/
def sampleWorld (vaults : List GuardedVault) (failing : Option Nat) : GuardWorld where
  search := .ok vaults
  remember := .ok ()
  recalled := .ok ()
  known := .ok fun _ => none
  readScheduled := .ok ()
  clock := .ok 0
  readSeen := .ok ()
  answers := fun place => {
    read := .error .outOfRange
    decimals := if failing = some place then .error .outOfRange else .ok 6
    channel := .ok ()
    schedule := fun _ => .ok ()
    present := fun _ => .ok () }
  cancel := fun _ => .ok ()
  storeScheduled := .ok ()
  storeSeen := .ok ()

/-- A read of the guardian without reminders. -/
def sampleRead (store : GuardStore) (vaults : List GuardedVault) (failing : Option Nat) :
    GuardTransition :=
  let input := GuardInput.read 5 false (sampleWorld vaults failing)
  ⟨store, input, (guardStep samplePhone store input).1, (guardStep samplePhone store input).2⟩

theorem sampleRead_step (store : GuardStore) (vaults : List GuardedVault) (failing : Option Nat) :
    let T := sampleRead store vaults failing
    GuardStep samplePhone T.pre T.input T.output T.post := rfl

def emptyStore : GuardStore := ⟨none, [], []⟩

def vaultPair : List GuardedVault := [sampleVault 20 30, sampleVault 21 31]

/-- A read of both vaults, and the same read again. -/
def readTwice (failing : Option Nat) : GuardHistory :=
  let first := sampleRead emptyStore vaultPair failing
  [sampleRead first.post vaultPair failing, first]

theorem readTwice_run (failing : Option Nat) :
    ∃ s, Run (GuardStep samplePhone) emptyStore (readTwice failing) s :=
  ⟨_, .next (.next .start (sampleRead_step _ _ _)) (sampleRead_step _ _ _)⟩

/-- Where both vaults are read, each alert is presented once. -/
theorem guard_alerts_hold_when_read :
    (announced (readTwice none)).Nodup ∧
      (sampleRead emptyStore vaultPair none).output.keys =
        [heldKey (sampleAccount 20 30) 4, heldKey (sampleAccount 21 31) 4] := by
  obtain ⟨s, hrun⟩ := readTwice_run none
  refine ⟨(guard_alerts_hold_when hrun).2 ?_, rfl⟩
  have hfirst : (sampleRead emptyStore vaultPair none).lost = [] := by
    refine (read_effect (sampleRead_step emptyStore vaultPair none)).lost_eq_nil ?_ ?_
    · intro _
      decide
    · intro hbroken
      exact absurd rfl hbroken
  intro newer T older hsplit key _
  have hlost : lostIn older = [] := by
    rcases newer with _ | ⟨_, _ | ⟨_, newer⟩⟩
    · cases hsplit
      change (sampleRead emptyStore vaultPair none).lost ++ [] = []
      rw [hfirst, List.nil_append]
    · cases hsplit
      rfl
    · have hlength := congrArg List.length hsplit
      simp [readTwice] at hlength
  rw [hlost]
  exact List.not_mem_nil

/-- The decimals of the second vault cannot be read, twice: the alert of the first is presented
twice.  The decimals of the first cannot be read: the alert of the second is due, and not
presented. -/
theorem guard_alerts_fail :
    (∃ s, Run (GuardStep samplePhone) emptyStore (readTwice (some 1)) s) ∧
    ¬ (announced (readTwice (some 1))).Nodup ∧
    ¬ (sampleRead emptyStore vaultPair (some 0)).ServesOthers samplePhone := by
  refine ⟨readTwice_run (some 1), ?_, ?_⟩
  · intro honce
    have hkeys : announced (readTwice (some 1)) =
        [heldKey (sampleAccount 20 30) 4, heldKey (sampleAccount 20 30) 4] := rfl
    rw [hkeys, List.nodup_cons] at honce
    exact honce.1 List.mem_cons_self
  · intro hserves
    have hdue : (sampleRead emptyStore vaultPair (some 0)).due ([] ++ [(sampleVault 21 31, 1)]) =
        [heldKey (sampleAccount 21 31) 4] := rfl
    have hfails : (sampleRead emptyStore vaultPair (some 0)).ReadFails samplePhone []
        (sampleVault 20 30, 0) [(sampleVault 21 31, 1)] :=
      ⟨rfl, _, .decimals, rfl, rfl, .inr rfl⟩
    have hmem : heldKey (sampleAccount 21 31) 4 ∈
        (sampleRead emptyStore vaultPair (some 0)).due ([] ++ [(sampleVault 21 31, 1)]) := by
      rw [hdue]
      exact List.mem_cons_self
    rcases hserves _ _ _ hfails _ hmem with hstored | hpresented
    · cases hstored
    · cases hpresented

end Sample

end Veto.App.HoldGuard
