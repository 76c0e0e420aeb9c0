import Veto.App.HoldGuard
import Veto.Foundation.Decimal

/-!
# What a guardian's read announces

The invariant of the loop over the vaults, and what is left of a read that ends or breaks off.
-/

namespace Veto.App.HoldGuard

open Foundation Foundation.Throwing HoldAlerts

/-! ## The keys of a vault -/

/-- The proposed change loosens some rule. -/
def loosensAny (account : HoldVaultAccount) : Bool :=
  [CHANGE_DAILY, CHANGE_DELAY, CHANGE_SHARE, CHANGE_GUARDIAN, CHANGE_SAFE].any (loosens account)

def heldKey (account : HoldVaultAccount) (id : Int) : String :=
  "guard:" ++ account.address.display ++ ":held:" ++ toString id

def changeKey (account : HoldVaultAccount) : String :=
  "guard:" ++ account.address.display ++ ":change:" ++ toString account.change.effectiveAt ++ ":" ++
    toString account.change.fields.toNat

def guardKeys (account : HoldVaultAccount) : List String :=
  account.pending.map (fun row => heldKey account row.id) ++
    if account.change.active = true ∧ loosensAny account = true then [changeKey account] else []

section Keys

variable {phone : Phone} {account : HoldVaultAccount} {decimals : Nat} {tokenName : String}
  {guardian : Pubkey}

theorem lines_ne_nil_iff (hactive : account.change.active = true) :
    changeLoosenLines account decimals tokenName guardian ≠ [] ↔ loosensAny account = true := by
  unfold changeLoosenLines loosensAny
  rw [if_neg (by rw [hactive]; exact Bool.noConfusion)]
  simp only [List.any_cons, List.any_nil, Bool.or_false, Bool.or_eq_true, ne_eq,
    List.append_eq_nil_iff]
  split_ifs <;> simp_all

theorem keys_guardAlertsFor :
    (guardAlertsFor phone account decimals tokenName guardian).map (·.key) = guardKeys account := by
  have hchange : (account.change.active = true ∧
      changeLoosenLines account decimals tokenName guardian ≠ []) ↔
      account.change.active = true ∧ loosensAny account = true :=
    and_congr_right fun hactive => lines_ne_nil_iff hactive
  unfold guardAlertsFor guardKeys
  rw [List.map_append, List.map_map]
  simp only [hchange]
  by_cases h : account.change.active = true ∧ loosensAny account = true
  · rw [if_pos h, if_pos h]
    rfl
  · rw [if_neg h, if_neg h]
    rfl

end Keys

theorem heldKey_injective (account : HoldVaultAccount) :
    Function.Injective (heldKey account) := by
  intro id id' h
  have hnumbers := congrArg String.toList h
  unfold heldKey at hnumbers
  simp only [String.toList_append, List.append_cancel_left_eq] at hnumbers
  exact toString_int_injective (String.toList_injective hnumbers)

theorem heldKey_ne_changeKey (account : HoldVaultAccount) (id : Int) :
    heldKey account id ≠ changeKey account := by
  intro h
  have hchars := congrArg String.toList h
  unfold heldKey changeKey at hchars
  simp only [String.toList_append, List.append_assoc, List.append_cancel_left_eq] at hchars
  -- behind the address one goes on with `:h` and the other with `:c`
  have hsecond := congrArg (fun text : List Char => text[1]?) hchars
  cases hsecond

theorem nodup_guardKeys (account : GuardedVault) :
    (guardKeys account.toHoldVaultAccount).Nodup := by
  have hheld : (account.pending.map fun row => heldKey account.toHoldVaultAccount row.id).Nodup := by
    have hapart := account.apart.map (heldKey_injective account.toHoldVaultAccount)
    rwa [List.map_map] at hapart
  unfold guardKeys
  refine List.nodup_append.mpr ⟨hheld, ?_, ?_⟩
  · split_ifs
    · exact List.nodup_singleton _
    · exact List.nodup_nil
  · intro key hkey key' hkey'
    obtain ⟨row, -, rfl⟩ := List.mem_map.mp hkey
    split_ifs at hkey'
    · rw [List.mem_singleton] at hkey'
      rw [hkey']
      exact heldKey_ne_changeKey _ row.id
    · cases hkey'

/-! ## The loop over the vaults -/

/-- What a read announced: nothing that was stored before, nothing twice, only what was `found`, and
all that is `served`. -/
structure Announced (stored found served : List String) (run : GuardRun) : Prop where
  store : run.store.seen = stored
  seenList : run.seenList = stored ++ run.raised.map (·.key)
  once : (run.raised.map (·.key)).Nodup
  fresh : ∀ alert ∈ run.raised, alert.key ∉ stored
  found : ∀ alert ∈ run.raised, alert.key ∈ found
  served : ∀ key ∈ served, key ∈ run.seenList

section Loop

variable {stored found found' served : List String} {run run' : GuardRun}

/-- The invariant is one of what was stored, seen and raised. -/
theorem Announced.congr (h : Announced stored found served run)
    (hstore : run'.store.seen = run.store.seen) (hseen : run'.seenList = run.seenList)
    (hraised : run'.raised = run.raised) : Announced stored found served run' := by
  obtain ⟨store, seenList, once, fresh, hfound, hserved⟩ := h
  refine ⟨hstore.trans store, ?_, ?_, ?_, ?_, ?_⟩
  · rw [hseen, hraised]
    exact seenList
  · rw [hraised]
    exact once
  · rw [hraised]
    exact fresh
  · rw [hraised]
    exact hfound
  · rw [hseen]
    exact hserved

theorem Announced.widen (h : Announced stored found served run)
    (hsub : ∀ key ∈ found, key ∈ found') : Announced stored found' served run :=
  { h with found := fun alert halert => hsub _ (h.found alert halert) }

/-- Nothing is announced before the loop. -/
theorem Announced.start (hstore : run.store.seen = stored) (hseen : run.seenList = stored)
    (hraised : run.raised = []) : Announced stored [] [] run where
  store := hstore
  seenList := by rw [hseen, hraised, List.map_nil, List.append_nil]
  once := by
    rw [hraised]
    exact List.nodup_nil
  fresh := by
    rw [hraised]
    exact fun _ h => absurd h List.not_mem_nil
  found := by
    rw [hraised]
    exact fun _ h => absurd h List.not_mem_nil
  served := fun _ h => absurd h List.not_mem_nil

/-- An alert that was not seen is announced. -/
theorem Announced.announce (h : Announced stored found served run) {alert : GuardAlert}
    (hnew : alert.key ∉ run.seenList) (hfound : alert.key ∈ found)
    (hseen : run'.seenList = run.seenList ++ [alert.key])
    (hraised : run'.raised = run.raised ++ [alert]) (hstore : run'.store.seen = run.store.seen) :
    Announced stored found (served ++ [alert.key]) run' := by
  have hapart : alert.key ∉ stored ∧ alert.key ∉ run.raised.map (·.key) := by
    rw [h.seenList, List.mem_append, not_or] at hnew
    exact hnew
  refine ⟨hstore.trans h.store, ?_, ?_, ?_, ?_, ?_⟩
  · rw [hseen, hraised, h.seenList, List.map_append, List.append_assoc]
    rfl
  · rw [hraised, List.map_append]
    refine List.nodup_append.mpr ⟨h.once, List.nodup_singleton _, ?_⟩
    intro key hkey key' hkey'
    rw [List.map_singleton, List.mem_singleton] at hkey'
    rintro rfl
    exact hapart.2 (hkey' ▸ hkey)
  · intro other hother
    rw [hraised, List.mem_append, List.mem_singleton] at hother
    rcases hother with hother | rfl
    · exact h.fresh other hother
    · exact hapart.1
  · intro other hother
    rw [hraised, List.mem_append, List.mem_singleton] at hother
    rcases hother with hother | rfl
    · exact h.found other hother
    · exact hfound
  · intro key hkey
    rw [hseen]
    rcases List.mem_append.mp hkey with hkey | hkey
    · exact List.mem_append_left _ (h.served key hkey)
    · exact List.mem_append_right _ hkey

end Loop

/-! ## One vault -/

section Vault

variable {phone : Phone} {guardian : Pubkey} {scheduler : Bool} {answers : VaultAnswers}
  {place : Nat} {nowSec : Int} {listed : GuardedVault} {stored found served : List String}

/-- The keys of the alerts that a vault is due, with the account as it is read. -/
def foundKeys (scheduler : Bool) (answers : VaultAnswers) (listed : GuardedVault) : List String :=
  if Quiet listed.toHoldVaultAccount then []
  else if scheduler then
    match answers.read with
    | .ok bundle => guardKeys bundle.account.toHoldVaultAccount
    | .error _ => []
  else guardKeys listed.toHoldVaultAccount

/-- The read of a vault or of its decimals. -/
def VaultCall.Reads (call : VaultCall) : Prop := call = .read ∨ call = .decimals

/-- The read broke off at a vault, with a call of one kind. -/
def BrokeOff (place : Nat) (kind : VaultCall → Prop) (I : GuardRun → Prop) (e : GuardFailure)
    (run : GuardRun) : Prop :=
  ∃ call, e.stage = .vault place call ∧ kind call ∧ I run

theorem triple_atVault {α : Type} {call : VaultCall} {x : Except Thrown α} {I : GuardRun → Prop}
    {kind : VaultCall → Prop} (hkind : kind call) :
    Triple I (atVault place call x) (fun a run => x = .ok a ∧ I run) (BrokeOff place kind I) :=
  triple_calling (fun _ _ hx hrun => ⟨hx, hrun⟩) fun _ _ _ hrun => ⟨call, rfl, hkind, hrun⟩

/-- Reading the vault again announces nothing. -/
theorem triple_readBundle (hbusy : ¬ Quiet listed.toHoldVaultAccount) :
    Triple (Announced stored found served) (readBundle scheduler answers place)
      (fun bundle run => Announced stored found served run ∧
        guardKeys (freshAccount listed bundle).toHoldVaultAccount =
          foundKeys scheduler answers listed)
      (BrokeOff place VaultCall.Reads (Announced stored found served)) := by
  unfold readBundle
  cases scheduler with
  | false =>
      refine triple_pure fun run hrun => ⟨hrun, ?_⟩
      unfold foundKeys
      rw [if_neg hbusy]
      rfl
  | true =>
      refine triple_bind (triple_atVault (.inl rfl)) fun bundle => triple_pure ?_
      rintro run ⟨hread, hrun⟩
      refine ⟨hrun, ?_⟩
      unfold foundKeys
      rw [if_neg hbusy, if_pos rfl, hread]
      rfl

theorem triple_decimalsFor {bundle : Option GuardBundle} {mint : Pubkey} :
    Triple (Announced stored found served) (decimalsFor answers place bundle mint)
      (fun _ => Announced stored found served)
      (BrokeOff place VaultCall.Reads (Announced stored found served)) := by
  unfold decimalsFor
  refine triple_bind (Q := fun _ => Announced stored found served)
    (triple_get fun _ hrun => hrun) fun run => ?_
  cases run.decimalsByMint.lookup mint with
  | some decimals => exact triple_pure fun _ hrun => hrun
  | none =>
      have hdecimals : Triple (Announced stored found served) (readDecimals answers place bundle)
          (fun _ => Announced stored found served)
          (BrokeOff place VaultCall.Reads (Announced stored found served)) := by
        cases bundle with
        | some bundle => exact triple_pure fun _ hrun => hrun
        | none =>
            exact (triple_atVault (.inr rfl)).imp (fun _ hrun => hrun) (fun _ _ h => h.2)
              fun _ _ h => h
      refine triple_bind hdecimals fun decimals => ?_
      refine triple_bind (Q := fun _ => Announced stored found served) ?_ fun _ => ?_
      · exact triple_modify fun _ hrun => hrun.congr rfl rfl rfl
      · exact triple_pure fun _ hrun => hrun

/-- A call of the loop that is no read. -/
def VaultCall.Other (call : VaultCall) : Prop := ¬ call.Reads

theorem triple_openChannel : Triple (Announced stored found served) (openChannel answers place)
    (fun _ => Announced stored found served)
    (BrokeOff place VaultCall.Other (Announced stored found served)) := by
  refine triple_bind (triple_atVault (by simp [VaultCall.Other, VaultCall.Reads])) fun _ => ?_
  exact triple_modify fun _ hrun => hrun.2.congr rfl rfl rfl

theorem triple_scheduleReminders {bundle : Option GuardBundle} {decimals : Nat} :
    Triple (Announced stored found served)
      (scheduleReminders phone answers place nowSec bundle decimals)
      (fun _ => Announced stored found served)
      (BrokeOff place VaultCall.Other (Announced stored found served)) := by
  cases bundle with
  | none => exact triple_pure fun _ hrun => hrun
  | some bundle =>
      refine triple_bind triple_openChannel fun _ => ?_
      refine triple_forM (I := fun _ => Announced stored found served) ?_
      intro _ row _ _
      refine triple_bind (Q := fun _ => Announced stored found served) ?_ fun _ => ?_
      · exact triple_modify fun _ hrun => hrun.congr rfl rfl rfl
      · refine triple_forM (I := fun _ => Announced stored found served) ?_
        intro _ alert _ _
        refine triple_bind (triple_atVault (by simp [VaultCall.Other, VaultCall.Reads])) fun _ => ?_
        exact triple_modify fun _ hrun => hrun.2.congr rfl rfl rfl

theorem triple_announce {alert : GuardAlert} (hfound : alert.key ∈ found) {seen : List String}
    (hnew : alert.key ∉ seen) :
    Triple (fun run => Announced stored found served run ∧ run.seenList = seen)
      (announce answers place alert)
      (fun _ run => Announced stored found (served ++ [alert.key]) run ∧
        run.seenList = seen ++ [alert.key])
      (BrokeOff place VaultCall.Other (Announced stored found served)) := by
  have hready : Triple (fun run => Announced stored found served run ∧ run.seenList = seen)
      (readyChannel answers place)
      (fun _ run => Announced stored found served run ∧ run.seenList = seen)
      (BrokeOff place VaultCall.Other (Announced stored found served)) := by
    unfold readyChannel
    refine triple_bind (Q := fun _ run => Announced stored found served run ∧ run.seenList = seen)
      (triple_get fun _ hrun => hrun) fun run => ?_
    cases run.channelReady with
    | true => exact triple_pure fun _ hrun => hrun
    | false =>
        refine triple_bind (Q := fun _ run => Announced stored found served run ∧
          run.seenList = seen) ?_ fun _ => ?_
        · exact triple_calling (fun _ _ _ hrun => hrun) fun _ _ _ hrun =>
            ⟨.channel, rfl, by simp [VaultCall.Other, VaultCall.Reads], hrun.1⟩
        · exact triple_modify fun _ hrun => ⟨hrun.1.congr rfl rfl rfl, hrun.2⟩
  refine triple_bind hready fun _ => ?_
  refine triple_bind (Q := fun _ run => Announced stored found served run ∧ run.seenList = seen)
    ?_ fun _ => ?_
  · exact triple_calling (fun _ _ _ hrun => hrun) fun _ _ _ hrun =>
      ⟨.present, rfl, by simp [VaultCall.Other, VaultCall.Reads], hrun.1⟩
  · refine triple_modify ?_
    rintro run ⟨hrun, hseen⟩
    refine ⟨hrun.announce ?_ hfound rfl rfl rfl, ?_⟩
    · rw [hseen]
      exact hnew
    · rw [hseen]

/-- Behind a vault every alert of it is served. -/
theorem triple_announceAll {account : GuardedVault} {decimals : Nat} :
    Triple (Announced stored found found)
      (announceAll phone guardian answers place account decimals)
      (fun _ => Announced stored (found ++ guardKeys account.toHoldVaultAccount)
        (found ++ guardKeys account.toHoldVaultAccount))
      (BrokeOff place VaultCall.Other
        (Announced stored (found ++ guardKeys account.toHoldVaultAccount) found)) := by
  unfold announceAll
  refine triple_bind (Q := fun start run => Announced stored found found run ∧ start = run)
    (triple_get fun run hrun => ⟨hrun, rfl⟩) fun start => ?_
  generalize halerts : guardAlertsFor phone account.toHoldVaultAccount decimals
    (tokenSymbol account.mint.display) guardian = alerts
  have hkeys : alerts.map (·.key) = guardKeys account.toHoldVaultAccount := by
    rw [← halerts]
    exact keys_guardAlertsFor
  rw [← hkeys]
  have hnodup : (alerts.map (·.key)).Nodup := by
    rw [hkeys]
    exact nodup_guardKeys account
  let unseen := unseenGuardAlerts alerts start.seenList
  have hunseen : (unseen.map (·.key)).Nodup :=
    hnodup.sublist (List.filter_sublist.map _)
  let I : List GuardAlert → GuardRun → Prop := fun front run =>
    Announced stored (found ++ alerts.map (·.key)) (found ++ front.map (·.key)) run ∧
      run.seenList = start.seenList ++ front.map (·.key)
  have hloop : Triple (I []) (forM unseen (announce answers place)) (fun _ => I unseen)
      (BrokeOff place VaultCall.Other
        (Announced stored (found ++ alerts.map (·.key)) found)) := by
    refine triple_forM ?_
    intro front alert rest hsplit
    have hmem : alert ∈ unseen := by
      rw [hsplit]
      exact List.mem_append_right _ List.mem_cons_self
    obtain ⟨halert, hnotSeen⟩ := List.mem_filter.mp hmem
    have hnew : alert.key ∉ start.seenList ++ front.map (·.key) := by
      rw [List.mem_append, not_or]
      refine ⟨of_decide_eq_true hnotSeen, ?_⟩
      rw [hsplit, List.map_append, List.map_cons] at hunseen
      intro hfront
      exact (List.nodup_append.mp hunseen).2.2 _ hfront _ List.mem_cons_self rfl
    have hfound : alert.key ∈ found ++ alerts.map (·.key) :=
      List.mem_append_right _ (List.mem_map_of_mem halert)
    refine (triple_announce hfound hnew).imp (fun _ hrun => hrun) ?_ ?_
    · rintro _ run ⟨hrun, hseen⟩
      unfold I
      rw [List.map_append, ← List.append_assoc, ← List.append_assoc]
      exact ⟨hrun, hseen⟩
    · rintro e run ⟨call, hstage, hkind, hrun⟩
      exact ⟨call, hstage, hkind, { hrun with
        served := fun key hkey => hrun.served key (List.mem_append_left _ hkey) }⟩
  refine hloop.imp ?_ ?_ fun _ _ h => h
  · rintro run ⟨hrun, rfl⟩
    unfold I
    rw [List.map_nil, List.append_nil, List.append_nil]
    exact ⟨hrun.widen fun _ => List.mem_append_left _, rfl⟩
  · rintro _ run ⟨hrun, hseen⟩
    refine { hrun with served := ?_ }
    intro key hkey
    rcases List.mem_append.mp hkey with hkey | hkey
    · exact hrun.served key (List.mem_append_left _ hkey)
    · -- What was not presented had been seen before.
      obtain ⟨alert, halert, rfl⟩ := List.mem_map.mp hkey
      rw [hseen, List.mem_append]
      by_cases hold : alert.key ∈ start.seenList
      · exact .inl hold
      · exact .inr (List.mem_map_of_mem (List.mem_filter.mpr ⟨halert, decide_eq_true hold⟩))

/-- One turn of the loop serves one vault more, or the read breaks off. -/
theorem triple_guardVault :
    Triple (Announced stored found found)
      (guardVault phone guardian scheduler answers place nowSec listed)
      (fun _ => Announced stored (found ++ foundKeys scheduler answers listed)
        (found ++ foundKeys scheduler answers listed))
      (fun e run =>
        BrokeOff place VaultCall.Reads (Announced stored found found) e run ∨
        BrokeOff place VaultCall.Other
          (Announced stored (found ++ foundKeys scheduler answers listed) found) e run) := by
  unfold guardVault
  by_cases hquiet : Quiet listed.toHoldVaultAccount
  · rw [if_pos hquiet]
    refine triple_pure fun run hrun => ?_
    unfold foundKeys
    rw [if_pos hquiet, List.append_nil]
    exact hrun
  · rw [if_neg hquiet]
    refine triple_bind ((triple_readBundle hquiet).imp (fun _ h => h) (fun _ _ h => h)
      fun _ _ h => .inl h) fun bundle => ?_
    by_cases hkeys : guardKeys (freshAccount listed bundle).toHoldVaultAccount =
        foundKeys scheduler answers listed
    · refine triple_bind (triple_decimalsFor.imp (fun _ h => h.1) (fun _ _ h => h)
        fun _ _ h => .inl h) fun decimals => ?_
      refine triple_bind (triple_scheduleReminders.imp (fun _ h => h) (fun _ _ h => h) ?_)
        fun _ => ?_
      · rintro e run ⟨call, hstage, hkind, hrun⟩
        exact .inr ⟨call, hstage, hkind, hrun.widen fun _ => List.mem_append_left _⟩
      · rw [← hkeys]
        exact triple_announceAll.imp (fun _ h => h) (fun _ _ h => h) fun _ _ h => .inr h
    · intro run hrun
      exact absurd hrun.2 hkeys

end Vault

/-! ## The whole read -/

section Read

variable {phone : Phone} {guardian : Pubkey} {scheduler : Bool} {world : GuardWorld}
  {stored found served : List String} {store : GuardStore}

/-- The keys of the alerts that are due at vaults of the loop. -/
def keysOf (scheduler : Bool) (world : GuardWorld) (visits : List (GuardedVault × Nat)) :
    List String :=
  visits.flatMap fun visit => foundKeys scheduler (world.answers visit.2) visit.1

def GuardRun.start (store : GuardStore) : GuardRun where
  store
  scheduled := []
  liveKeys := []
  seenList := []
  decimalsByMint := []
  channelReady := false
  raised := []

/-- The vaults that a read finds, each with its place. -/
def visitsOf (phone : Phone) (guardian : Pubkey) (world : GuardWorld) (store : GuardStore) :
    List (GuardedVault × Nat) :=
  match (discoverGuardedVaults phone guardian world).run (.start store) with
  | .ok vaults _ => vaults.zipIdx
  | .error _ _ => []

/-- The loop broke off at a vault: the vaults before it are served, and nothing of the vault itself
was presented where it could not be read. -/
def LeftAt (scheduler : Bool) (world : GuardWorld) (stored : List String)
    (visits : List (GuardedVault × Nat)) (e : GuardFailure) (run : GuardRun) : Prop :=
  ∃ front visit rest, visits = front ++ visit :: rest ∧
    (BrokeOff visit.2 VaultCall.Reads
      (Announced stored (keysOf scheduler world front) (keysOf scheduler world front)) e run ∨
    BrokeOff visit.2 VaultCall.Other
      (Announced stored (keysOf scheduler world (front ++ [visit])) (keysOf scheduler world front))
      e run)

theorem triple_guardVaults {nowSec : Int} {vaults : List GuardedVault} :
    Triple (Announced stored [] [])
      (guardVaults phone guardian scheduler world nowSec vaults)
      (fun _ => Announced stored (keysOf scheduler world vaults.zipIdx)
        (keysOf scheduler world vaults.zipIdx))
      (LeftAt scheduler world stored vaults.zipIdx) := by
  let I : List (GuardedVault × Nat) → GuardRun → Prop := fun front =>
    Announced stored (keysOf scheduler world front) (keysOf scheduler world front)
  have hloop : Triple (I []) (guardVaults phone guardian scheduler world nowSec vaults)
      (fun _ => I vaults.zipIdx) (LeftAt scheduler world stored vaults.zipIdx) := by
    refine triple_forM ?_
    rintro front ⟨listed, place⟩ rest hsplit
    have happend : keysOf scheduler world (front ++ [(listed, place)]) =
        keysOf scheduler world front ++ foundKeys scheduler (world.answers place) listed := by
      simp [keysOf]
    unfold I
    rw [happend]
    refine triple_guardVault.imp (fun _ h => h) (fun _ _ h => h) ?_
    intro e run hleft
    refine ⟨front, (listed, place), rest, hsplit, ?_⟩
    rw [happend]
    exact hleft
  exact hloop

/-- The read broke off behind the loop. -/
def LeftBehind (I : GuardRun → Prop) (e : GuardFailure) (run : GuardRun) : Prop :=
  e.stage = .finish ∧ I run

theorem triple_tidyScheduled :
    Triple (Announced stored found served) (tidyScheduled scheduler world)
      (fun _ => Announced stored found served) (LeftBehind (Announced stored found served)) := by
  cases scheduler with
  | false => exact triple_pure fun _ hrun => hrun
  | true =>
      refine triple_bind (Q := fun _ => Announced stored found served)
        (triple_get fun _ hrun => hrun) fun run => ?_
      have hcancel : Triple (Announced stored found served)
          (forM run.scheduled (cancelStale world)) (fun _ => Announced stored found served)
          (LeftBehind (Announced stored found served)) := by
        refine triple_forM (I := fun _ => Announced stored found served) ?_
        intro _ key _ _
        unfold cancelStale
        refine triple_bind (Q := fun _ => Announced stored found served)
          (triple_get fun _ hrun => hrun) fun now => ?_
        split
        · refine triple_bind (Q := fun _ => Announced stored found served) ?_ fun _ => ?_
          · exact triple_calling (fun _ _ _ hrun => hrun) fun _ _ _ hrun => ⟨rfl, hrun⟩
          · exact triple_modify fun _ hrun => hrun.congr rfl rfl rfl
        · exact triple_pure fun _ hrun => hrun
      refine triple_bind hcancel fun _ => ?_
      refine triple_bind (Q := fun _ => Announced stored found served) ?_ fun _ => ?_
      · exact triple_calling (fun _ _ _ hrun => hrun) fun _ _ _ hrun => ⟨rfl, hrun⟩
      · exact triple_modify fun _ hrun => hrun.congr rfl rfl rfl

/-- What is stored at the end of a read that announced `keys`. -/
def storedAfter (stored keys : List String) : List String :=
  if keys = [] then stored else keepLast (stored ++ keys)

/-- What a read leaves once it is done. -/
structure Finished (stored found : List String) (run : GuardRun) : Prop where
  once : (run.raised.map (·.key)).Nodup
  fresh : ∀ alert ∈ run.raised, alert.key ∉ stored
  found : ∀ alert ∈ run.raised, alert.key ∈ found
  store : run.store.seen = storedAfter stored (run.raised.map (·.key))

theorem triple_storeSeen :
    Triple (Announced stored found served) (storeSeen world) (fun _ => Finished stored found)
      (LeftBehind (Announced stored found served)) := by
  refine triple_bind (Q := fun start run => Announced stored found served run ∧ start = run)
    (triple_get fun run hrun => ⟨hrun, rfl⟩) fun start => ?_
  by_cases hnone : start.raised = []
  · rw [if_pos hnone]
    refine triple_pure ?_
    rintro run ⟨hrun, rfl⟩
    refine ⟨hrun.once, hrun.fresh, hrun.found, ?_⟩
    rw [hrun.store, hnone]
    rfl
  · rw [if_neg hnone]
    refine triple_bind (Q := fun _ run => Announced stored found served run ∧ start = run) ?_
      fun _ => ?_
    · exact triple_calling (fun _ _ _ hrun => hrun) fun _ _ _ hrun => ⟨rfl, hrun.1⟩
    · refine triple_modify ?_
      rintro run ⟨hrun, rfl⟩
      refine ⟨hrun.once, hrun.fresh, hrun.found, ?_⟩
      have hkeys : start.raised.map (·.key) ≠ [] := fun h => hnone (List.map_eq_nil_iff.mp h)
      unfold storedAfter
      rw [if_neg hkeys, ← hrun.seenList]

/-- Nothing is announced and nothing was stored. -/
def Blank (stored : List String) (run : GuardRun) : Prop :=
  run.store.seen = stored ∧ run.raised = []

def LeftBefore (stored : List String) (e : GuardFailure) (run : GuardRun) : Prop :=
  e.stage = .start ∧ Blank stored run

theorem triple_starting {α : Type} {x : Except Thrown α} :
    Triple (Blank stored) (starting x) (fun _ => Blank stored) (LeftBefore stored) :=
  triple_calling (fun _ _ _ hrun => hrun) fun _ _ _ hrun => ⟨rfl, hrun⟩

theorem triple_discover :
    Triple (Blank stored) (discoverGuardedVaults phone guardian world) (fun _ => Blank stored)
      (LeftBefore stored) := by
  have hrecall : Triple (Blank stored) (recallGuardedVaults phone guardian world)
      (fun _ => Blank stored) (LeftBefore stored) := by
    refine triple_bind triple_starting fun _ => ?_
    refine triple_bind (Q := fun _ => Blank stored) (triple_get fun _ hrun => hrun) fun run => ?_
    refine triple_bind triple_starting fun read => ?_
    exact triple_pure fun _ hrun => hrun
  unfold discoverGuardedVaults
  split
  · refine triple_bind (Q := fun _ => Blank stored) ?_ fun _ => triple_pure fun _ hrun => hrun
    exact triple_modify fun _ hrun => hrun
  · exact hrecall

/-- A read announces and stores, or breaks off at a place. -/
theorem triple_raiseGuardAlerts :
    Triple (fun run => run = .start store) (raiseGuardAlerts phone guardian scheduler world)
      (fun _ => Finished store.seen
        (keysOf scheduler world (visitsOf phone guardian world store)))
      (fun e run => LeftBefore store.seen e run ∨
        LeftAt scheduler world store.seen (visitsOf phone guardian world store) e run ∨
        LeftBehind (Announced store.seen
          (keysOf scheduler world (visitsOf phone guardian world store))
          (keysOf scheduler world (visitsOf phone guardian world store))) e run) := by
  have hdiscover := (triple_run (discoverGuardedVaults phone guardian world) (.start store)).and
    (triple_discover.imp (fun run (hrun : run = .start store) => by
        rw [hrun]
        exact ⟨rfl, rfl⟩) (fun _ _ h => h) fun _ _ h => h)
  refine triple_bind (hdiscover.imp (fun _ h => h) (fun _ _ h => h) fun _ _ h => .inl h.2)
    fun vaults => ?_
  intro found hfound
  have hvisits : visitsOf phone guardian world store = vaults.zipIdx := by
    unfold visitsOf
    rw [hfound.1]
  rw [hvisits]
  have hrest : Triple (Blank store.seen) (do
      starting world.readScheduled
      modify fun run => { run with scheduled := run.store.scheduled.dedup }
      let nowSec ← readClock scheduler world vaults
      starting world.readSeen
      modify fun run => { run with seenList := run.store.seen }
      guardVaults phone guardian scheduler world nowSec vaults
      tidyScheduled scheduler world
      storeSeen world
      let run ← get
      return run.raised.map (·.key))
      (fun _ => Finished store.seen (keysOf scheduler world vaults.zipIdx))
      (fun e run => LeftBefore store.seen e run ∨
        LeftAt scheduler world store.seen vaults.zipIdx e run ∨
        LeftBehind (Announced store.seen (keysOf scheduler world vaults.zipIdx)
          (keysOf scheduler world vaults.zipIdx)) e run) := by
    refine triple_bind (triple_starting.imp (fun _ h => h) (fun _ _ h => h) fun _ _ h => .inl h)
      fun _ => ?_
    refine triple_bind (Q := fun _ => Blank store.seen) (triple_modify fun _ hrun => hrun)
      fun _ => ?_
    have hclock : Triple (Blank store.seen) (readClock scheduler world vaults)
        (fun _ => Blank store.seen) (LeftBefore store.seen) := by
      unfold readClock
      split
      · exact triple_starting
      · exact triple_pure fun _ hrun => hrun
    refine triple_bind (hclock.imp (fun _ h => h) (fun _ _ h => h) fun _ _ h => .inl h)
      fun nowSec => ?_
    refine triple_bind (triple_starting.imp (fun _ h => h) (fun _ _ h => h) fun _ _ h => .inl h)
      fun _ => ?_
    refine triple_bind (Q := fun _ => Announced store.seen [] []) ?_ fun _ => ?_
    · exact triple_modify fun _ hrun => .start hrun.1 hrun.1 hrun.2
    refine triple_bind (triple_guardVaults.imp (fun _ h => h) (fun _ _ h => h)
      fun _ _ h => .inr (.inl h)) fun _ => ?_
    refine triple_bind (triple_tidyScheduled.imp (fun _ h => h) (fun _ _ h => h)
      fun _ _ h => .inr (.inr h)) fun _ => ?_
    refine triple_bind (triple_storeSeen.imp (fun _ h => h) (fun _ _ h => h)
      fun _ _ h => .inr (.inr h)) fun _ => ?_
    exact triple_bind (triple_get fun _ hrun => hrun) fun run => triple_pure fun _ hrun => hrun
  exact hrest found hfound.2

end Read

end Veto.App.HoldGuard
