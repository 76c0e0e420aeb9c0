import Veto.App.Events
import Veto.Foundation.Paging
import Veto.Indexer.Base64
import Veto.Watcher.Attribution

/-!
# The ledger rows of the app

`fetchLedgerRows` of `chain.ts`: the ring of a ledger account, joined with the decisions of the
transactions that mention the ledger.
-/

namespace Veto.App

open Foundation

/-! ## What is read -/

structure ConfirmedSignatureInfo where
  signature : String
  slot : Int
  err : Bool
  blockTime : Option Int

/-- What a node answers, after the retries: an account, the signatures that mention an address,
newest first, and the body of a transaction. -/
structure ChainClient where
  programId : Pubkey
  pda : Pda
  account : Pubkey → Option Bytes
  history : Pubkey → List ConfirmedSignatureInfo
  transaction : String → Except Thrown (Option RpcTx)

/-- `ledgerSignatureCache`: what was decoded for a ledger, by signature. -/
abbrev SignatureCache := Pubkey → String → Option (List DecodedTxDecision)

def decisionsFromTx (signature : String) (tx : RpcTx) (programId : Pubkey) :
    List DecodedTxDecision :=
  match decodeEventsFromLogs signature (tx.logMessages.getD []) with
  | [] =>
      (tx.compiledInstructions.filter fun ix => tx.keys[ix.programIdIndex]? = some programId).filterMap
        fun ix => (decodeInstructionKind signature ix.data).filter fun decision =>
          decision.kind = Constants.KIND_OPENED ∨ decision.kind = Constants.KIND_REVOKED ∨
            decision.kind = Constants.KIND_OVERRIDE
  | events => events

section Client

variable (client : ChainClient)

def ledgerPda (mandate : Pubkey) : Pubkey := (client.pda.find (ledgerSeeds mandate)).1

def fetchLedger (mandate : Pubkey) : Except Thrown LedgerSnapshot :=
  let address := (ledgerPda client mandate).display
  match client.account (ledgerPda client mandate) with
  | none => .error (.error ("ledger " ++ address ++ " was not found on chain"))
  | some data => decodeLedgerAccount address data

def SIGNATURE_PAGE : Nat := 50

/-- At most so many pages, from behind a signature. -/
def listSignatures (address : Pubkey) : Nat → Option String → List ConfirmedSignatureInfo
  | 0, _ => []
  | pages + 1, before =>
      let batch := (behind ConfirmedSignatureInfo.signature before (client.history address)).take
        SIGNATURE_PAGE
      if batch.length < SIGNATURE_PAGE then batch
      else
        batch ++ listSignatures address pages (batch.getLast?.map ConfirmedSignatureInfo.signature)

/-- The decisions of a body that could be read. -/
def loadDecoded (info : ConfirmedSignatureInfo) : Option (List DecodedTxDecision) :=
  match client.transaction info.signature with
  | .ok (some tx) =>
      some ((decisionsFromTx info.signature tx client.programId).map fun decision =>
        { decision with blockTime := info.blockTime.or tx.blockTime, slot := some info.slot })
  | _ => none

/-- What is known of a listed signature: from the cache, or else from its body. -/
def decoded (cached : String → Option (List DecodedTxDecision)) (info : ConfirmedSignatureInfo) :
    Option (List DecodedTxDecision) :=
  (cached info.signature).or (loadDecoded client info)

/-- The signatures that did not fail, of the newest four pages. -/
def confirmed (address : Pubkey) : List ConfirmedSignatureInfo :=
  (listSignatures client address 4 none).filter fun info => !info.err

/-- Read bodies stay in the cache. -/
def remember (address : Pubkey) (cache : SignatureCache) : SignatureCache :=
  (confirmed client address).foldl (fun cache' info =>
    match decoded client (cache address) info with
    | none => cache'
    | some decisions =>
        Function.update cache' address
          (Function.update (cache' address) info.signature (some decisions))) cache

/-- `decisionsForAddress`, which `fetchLedgerRows` repeats for the ledger. -/
def decisionsForAddress (address : Pubkey) (cache : SignatureCache) :
    List DecodedTxDecision × SignatureCache :=
  ((confirmed client address).flatMap fun info => (decoded client (cache address) info).getD [],
    remember client address cache)

/-- The rows whose signature was not seen before. -/
def unseenRows : List String → List LedgerRow → List LedgerRow
  | _, [] => []
  | seen, row :: rows =>
      match row.signature.filter (· ≠ "") with
      | none => row :: unseenRows seen rows
      | some signature =>
          if signature ∈ seen then unseenRows seen rows
          else row :: unseenRows (signature :: seen) rows

/-- The rows of the ring and the advisory rows, by time. -/
def mergeDecisionRows (ring advisory : List LedgerRow) : List LedgerRow :=
  (ring ++ unseenRows (ring.filterMap fun row => row.signature.filter (· ≠ "")) advisory).mergeSort
    fun a b => a.ts ≤ b.ts

/-- `advisory` is what `fetchAdvisoryDeclines` gives where an agent is named. -/
def fetchLedgerRows (mandate : Pubkey) (advisory : Option (Except Thrown (List LedgerRow)))
    (cache : SignatureCache) : Except Thrown (LedgerSnapshot × List LedgerRow) × SignatureCache :=
  match fetchLedger client mandate with
  | .error e => (.error e, cache)
  | .ok snapshot =>
      let (decoded, cache) := decisionsForAddress client (ledgerPda client mandate) cache
      let rows := attachSignatures snapshot.entries decoded
      match advisory with
      | none => (.ok (snapshot, rows), cache)
      | some declines => (declines.map fun found => (snapshot, mergeDecisionRows rows found), cache)

end Client

/-! ## What is decoded -/

variable {client : ChainClient}

theorem decisionsFromTx_signature {signature : String} {tx : RpcTx} {programId : Pubkey}
    {d : DecodedTxDecision} (h : d ∈ decisionsFromTx signature tx programId) :
    d.signature = signature := by
  have hevents : ∀ d ∈ decodeEventsFromLogs signature (tx.logMessages.getD []),
      d.signature = signature := by
    intro d hd
    obtain ⟨line, -, hline⟩ := List.mem_filterMap.mp hd
    obtain ⟨raw, -, hraw⟩ := Option.bind_eq_some_iff.mp hline
    exact decodeEventBytes_signature hraw
  unfold decisionsFromTx at h
  split at h
  · obtain ⟨ix, -, hix⟩ := List.mem_filterMap.mp h
    exact decodeInstructionKind_signature (Option.filter_eq_some_iff.mp hix).1
  · exact hevents d h

/-- The decisions of one transaction: they bear its signature, and all have its time. -/
structure OfOne (signature : String) (decisions : List DecodedTxDecision) : Prop where
  signed : ∀ d ∈ decisions, d.signature = signature
  timed : ∀ d ∈ decisions, ∀ d' ∈ decisions, d.blockTime = d'.blockTime

theorem OfOne.nil (signature : String) : OfOne signature [] := ⟨nofun, nofun⟩

theorem loadDecoded_ofOne {info : ConfirmedSignatureInfo} {decisions : List DecodedTxDecision}
    (h : loadDecoded client info = some decisions) : OfOne info.signature decisions := by
  unfold loadDecoded at h
  split at h
  · cases h
    constructor
    · intro d hd
      obtain ⟨found, hfound, rfl⟩ := List.mem_map.mp hd
      have hsigned := decisionsFromTx_signature hfound
      exact hsigned
    · intro d hd d' hd'
      obtain ⟨d, -, rfl⟩ := List.mem_map.mp hd
      obtain ⟨d', -, rfl⟩ := List.mem_map.mp hd'
      rfl
  · cases h

/-- The caches after earlier reads, from whatever nodes. -/
inductive Earlier : SignatureCache → Prop
  | start : Earlier fun _ _ => none
  | read (client : ChainClient) (address : Pubkey) {cache : SignatureCache} (h : Earlier cache) :
      Earlier (decisionsForAddress client address cache).2

/-- What a cache holds for a signature was decoded from its transaction. -/
def Sound (cache : SignatureCache) : Prop :=
  ∀ address signature decisions, cache address signature = some decisions →
    OfOne signature decisions

theorem Sound.ofOne {cache : SignatureCache} (h : Sound cache) {address : Pubkey}
    {info : ConfirmedSignatureInfo} {decisions : List DecodedTxDecision}
    (hdecoded : decoded client (cache address) info = some decisions) :
    OfOne info.signature decisions := by
  unfold decoded at hdecoded
  cases hcached : cache address info.signature with
  | none =>
      rw [hcached, Option.none_or] at hdecoded
      exact loadDecoded_ofOne hdecoded
  | some found =>
      rw [hcached, Option.some_or] at hdecoded
      cases hdecoded
      exact h _ _ _ hcached

/-- What is decoded now is cached under its own signature. -/
theorem Sound.remember {cache : SignatureCache} (h : Sound cache) (address : Pubkey) :
    Sound (remember client address cache) := by
  have hfold : ∀ (infos : List ConfirmedSignatureInfo) (cache' : SignatureCache), Sound cache' →
      Sound (infos.foldl (fun cache' info =>
        match decoded client (cache address) info with
        | none => cache'
        | some decisions =>
            Function.update cache' address
              (Function.update (cache' address) info.signature (some decisions))) cache') := by
    intro infos
    induction infos with
    | nil => exact fun _ h' => h'
    | cons info infos ih =>
        intro cache' h'
        refine ih _ ?_
        dsimp only
        split
        · exact h'
        · rename_i decisions hdecoded
          intro address' signature found hfound
          by_cases haddress : address' = address
          · subst haddress
            rw [Function.update_self] at hfound
            by_cases hsignature : signature = info.signature
            · subst hsignature
              rw [Function.update_self] at hfound
              cases hfound
              exact h.ofOne hdecoded
            · rw [Function.update_of_ne hsignature] at hfound
              exact h' _ _ _ hfound
          · rw [Function.update_of_ne haddress] at hfound
            exact h' _ _ _ hfound
  exact hfold _ cache h

theorem Earlier.sound {cache : SignatureCache} (h : Earlier cache) : Sound cache := by
  induction h with
  | start => exact nofun
  | read client address _ ih => exact ih.remember address

/-- So many pages of a listing are its newest signatures.  Induction on the pages; `front` is
what has been listed. -/
theorem listSignatures_eq {address : Pubkey}
    (honce : ((client.history address).map ConfirmedSignatureInfo.signature).Nodup) (pages : Nat) :
    listSignatures client address pages none =
      (client.history address).take (SIGNATURE_PAGE * pages) := by
  have hrest : ∀ (pages : Nat) (front rest : List ConfirmedSignatureInfo) (before : Option String),
      front ++ rest = client.history address →
      behind ConfirmedSignatureInfo.signature before (client.history address) = rest →
      listSignatures client address pages before = rest.take (SIGNATURE_PAGE * pages) := by
    intro pages
    induction pages with
    | zero =>
        intro front rest before _ _
        rfl
    | succ pages ih =>
        intro front rest before hsplit hbehind
        rw [listSignatures, hbehind]
        split
        · rename_i hshort
          rw [List.length_take] at hshort
          rw [List.take_of_length_le (by omega), List.take_of_length_le (by
            rw [Nat.mul_succ]
            omega)]
        · rename_i hfull
          rw [List.length_take, SIGNATURE_PAGE] at hfull
          have hne : rest.take SIGNATURE_PAGE ≠ [] := by
            rw [ne_eq, List.take_eq_nil_iff, SIGNATURE_PAGE]
            rintro (hzero | rfl)
            · cases hzero
            · simp at hfull
          obtain ⟨body, last, hbody⟩ := (List.eq_nil_or_concat (rest.take SIGNATURE_PAGE)).resolve_left hne
          have hwhole : (front ++ body) ++ last :: rest.drop SIGNATURE_PAGE =
              client.history address := by
            rw [← hsplit]
            conv_rhs => rw [← List.take_append_drop SIGNATURE_PAGE rest, hbody]
            simp
          rw [ih (front ++ body ++ [last]) (rest.drop SIGNATURE_PAGE) _ (by rw [← hwhole]; simp) (by
            have honce' := honce
            rw [← hwhole] at honce' ⊢
            rw [hbody, List.concat_eq_append, List.getLast?_concat]
            exact behind_key honce')]
          rw [Nat.mul_succ, Nat.add_comm, List.take_add]
  exact hrest pages [] _ none rfl rfl

/-! ## The transactions of a ledger -/

/-- The transactions that mention a ledger, newest first, each with the records it wrote there. -/
structure LedgerHistory (log : List Entry) where
  txs : List (ConfirmedSignatureInfo × List Entry)
  once : (txs.map fun tx => tx.1.signature).Nodup
  wrote : txs.reverse.flatMap Prod.snd = log

namespace LedgerHistory

variable {log : List Entry} (history : LedgerHistory log)

/-- The records with the signatures of their transactions, oldest first. -/
def writes : List (Entry × String) :=
  history.txs.reverse.flatMap fun tx => tx.2.map fun e => (e, tx.1.signature)

theorem writes_fst : history.writes.map Prod.fst = log := by
  refine Eq.trans ?_ history.wrote
  rw [writes, List.map_flatMap]
  refine List.flatMap_congr fun tx _ => ?_
  rw [List.map_map]
  exact List.map_id _

/-- The records that the ring still holds, as the app shows them. -/
def shown : List (RingEntry × String) :=
  (Ring.recent LEDGER_CAPACITY history.writes).map fun write => (.of write.1.raw, write.2)

theorem shown_fst :
    history.shown.map Prod.fst = (Ring.recent LEDGER_CAPACITY (log.map Entry.raw)).map .of := by
  have hlog : Ring.recent LEDGER_CAPACITY log =
      (Ring.recent LEDGER_CAPACITY history.writes).map Prod.fst := by
    rw [← Ring.recent_map]
    exact congrArg _ history.writes_fst.symm
  rw [Ring.recent_map, hlog, shown, List.map_map, List.map_map, List.map_map]
  rfl

/-- Every row is a record of the ledger, and a signature on it is that of the transaction which
wrote the record. -/
def Linked (rows : List LedgerRow) : Prop :=
  List.Forall₂ (fun row write => row.toRingEntry = write.1 ∧
    ∀ signature, row.signature = some signature → signature = write.2) rows history.shown

end LedgerHistory

/-! ## Which rows are linked to the right transaction -/

section Linked

variable (client) (address : Pubkey) (cache : SignatureCache)

/-- What the entries choose from: every decision of every listed transaction that is known. -/
def pool : List (DecodedTxDecision × Nat) := (decisionsForAddress client address cache).1.zipIdx

/-- Where a signature stands among those that are listed. -/
def listedAt (signature : String) : Nat :=
  ((confirmed client address).map ConfirmedSignatureInfo.signature).idxOf signature

variable {client address cache}

theorem confirmed_once
    (honce : ((client.history address).map ConfirmedSignatureInfo.signature).Nodup) :
    ((confirmed client address).map ConfirmedSignatureInfo.signature).Nodup := by
  rw [confirmed, listSignatures_eq honce]
  exact ((List.filter_sublist.trans (List.take_sublist _ _)).map _).nodup honce

theorem Sound.known (h : Sound cache) (info : ConfirmedSignatureInfo) :
    OfOne info.signature ((decoded client (cache address) info).getD []) := by
  cases hdecoded : decoded client (cache address) info with
  | none => exact .nil _
  | some decisions => exact h.ofOne hdecoded

/-- A decision in the pool is of a listed transaction. -/
theorem mem_pool {tx : DecodedTxDecision × Nat} (h : tx ∈ pool client address cache) :
    ∃ info ∈ confirmed client address, tx.1 ∈ (decoded client (cache address) info).getD [] := by
  have hmem := List.mem_map_of_mem (f := Prod.fst) h
  rw [pool, List.zipIdx_map_fst] at hmem
  exact List.mem_flatMap.mp hmem

/-- The decisions stand by transaction in the order of the listing. -/
theorem pool_lawful (hcache : Sound cache)
    (honce : ((client.history address).map ConfirmedSignatureInfo.signature).Nodup) :
    matching.Lawful (listedAt client address) (pool client address cache) where
  once := List.Nodup.of_map Prod.snd (by
    rw [pool, List.zipIdx_map_snd]
    exact List.nodup_range')
  sorted := by
    have hsignatures := confirmed_once honce
    have hflat : (decisionsForAddress client address cache).1.Pairwise fun d d' =>
        listedAt client address d.signature ≤ listedAt client address d'.signature := by
      rw [decisionsForAddress, List.pairwise_flatMap]
      constructor
      · intro info _
        refine List.pairwise_of_forall_mem_list fun d hd d' hd' => ?_
        rw [(hcache.known info).signed d hd, (hcache.known info).signed d' hd']
      · rw [List.pairwise_iff_getElem]
        intro i j hi hj hlt d hd d' hd'
        rw [(hcache.known _).signed d hd, (hcache.known _).signed d' hd']
        have hidx : ∀ (k : Nat) (hk : k < (confirmed client address).length),
            listedAt client address (confirmed client address)[k].signature = k := by
          intro k hk
          have hget := hsignatures.idxOf_getElem k (by rwa [List.length_map])
          rwa [List.getElem_map] at hget
        rw [hidx i hi, hidx j hj]
        exact Nat.le_of_lt hlt
    rw [← List.zipIdx_map_fst 0 (decisionsForAddress client address cache).1,
      List.pairwise_map] at hflat
    exact hflat
  apart := by
    intro tx htx signature heq
    obtain ⟨info, hinfo, hd⟩ := mem_pool htx
    have hmem : matching.owner tx ∈
        (confirmed client address).map ConfirmedSignatureInfo.signature := by
      rw [show matching.owner tx = info.signature from (hcache.known info).signed _ hd]
      exact List.mem_map_of_mem hinfo
    exact (List.idxOf_inj hmem).mp heq
  alike := by
    intro tx htx tx' htx' howner entry
    obtain ⟨info, hinfo, hd⟩ := mem_pool htx
    obtain ⟨info', hinfo', hd'⟩ := mem_pool htx'
    have hsame : info = info' :=
      List.inj_on_of_nodup_map (confirmed_once honce) hinfo hinfo'
        (((hcache.known info).signed _ hd).symm.trans
          (howner.trans ((hcache.known info').signed _ hd')))
    subst hsame
    show distance entry tx.1 = distance entry tx'.1
    rw [distance, distance, (hcache.known info).timed _ hd _ hd']

end Linked

/-- A row is linked as its choice is right. -/
theorem forall₂_rowOf {shown : List (RingEntry × String)}
    {choices : List (Option (DecodedTxDecision × Nat))} (hlength : choices.length = shown.length) :
    List.Forall₂ (fun (row : LedgerRow) (write : RingEntry × String) =>
        row.toRingEntry = write.1 ∧ ∀ signature, row.signature = some signature →
          signature = write.2) (List.zipWith rowOf (shown.map Prod.fst) choices) shown ↔
      List.Forall₂ matching.Right shown choices := by
  induction shown generalizing choices with
  | nil =>
      obtain rfl := List.eq_nil_of_length_eq_zero hlength
      simp
  | cons write shown ih =>
      cases choices with
      | nil => cases hlength
      | cons choice choices =>
          have hrow : (rowOf write.1 choice).toRingEntry = write.1 ∧
              (∀ signature, (rowOf write.1 choice).signature = some signature →
                signature = write.2) ↔ matching.Right write choice := by
            simp only [rowOf, Contest.Right, matching, Option.map_eq_some_iff, true_and]
            exact ⟨fun h tx htx => h _ ⟨tx, htx, rfl⟩, fun h _ ⟨tx, htx, hsigned⟩ =>
              hsigned.symm.trans (h tx htx)⟩
          rw [List.map_cons, List.zipWith_cons_cons, List.forall₂_cons, List.forall₂_cons, hrow,
            ih (Nat.succ.inj hlength)]

/-- The node serves the ledger of a tenure and the signatures that mention it. -/
structure Shows {rt : Runtime} (client : ChainClient) (t : Tenure rt)
    (history : LedgerHistory t.log) : Prop where
  account : client.account (ledgerPda client t.start.key) =
    some (Raw.ledgerData t.state.ledger.raw)
  listed : client.history (ledgerPda client t.start.key) = history.txs.map Prod.fst

section Rows

variable {rt : Runtime} {t : Tenure rt} {history : LedgerHistory t.log}

/-- The advisory rows come on top of the rows of the ring. -/
theorem unseenRows_sublist (seen : List String) (rows : List LedgerRow) :
    (unseenRows seen rows).Sublist rows := by
  induction rows generalizing seen with
  | nil => exact .slnil
  | cons row rows ih =>
      rw [unseenRows]
      split
      · exact (ih seen).cons_cons row
      · split
        · exact (ih seen).cons row
        · exact (ih _).cons_cons row

theorem mergeDecisionRows_perm (ring advisory : List LedgerRow) :
    ∃ extra, extra.Sublist advisory ∧ (mergeDecisionRows ring advisory).Perm (ring ++ extra) :=
  ⟨_, unseenRows_sublist _ _, List.mergeSort_perm _ _⟩

/-- What is fetched: the entries of the ring, with the signatures that are found for them. -/
theorem fetchLedgerRows_shows (h : Shows client t history) (cache : SignatureCache) :
    ∃ snapshot, snapshot.entries = history.shown.map Prod.fst ∧
      ∀ advisory, (fetchLedgerRows client t.start.key advisory cache).1 =
        match advisory with
        | none => .ok (snapshot, attachSignatures (history.shown.map Prod.fst)
            (decisionsForAddress client (ledgerPda client t.start.key) cache).1)
        | some declines => declines.map fun found => (snapshot, mergeDecisionRows
            (attachSignatures (history.shown.map Prod.fst)
              (decisionsForAddress client (ledgerPda client t.start.key) cache).1) found) := by
  have hdecode := decodeLedgerAccount_eq t.raw_ring_holds (ledgerPda client t.start.key).display
  obtain ⟨snapshot, hentries, hsnapshot⟩ : ∃ snapshot : LedgerSnapshot,
      snapshot.entries = history.shown.map Prod.fst ∧
        decodeLedgerAccount (ledgerPda client t.start.key).display
          (Raw.ledgerData t.state.ledger.raw) = .ok snapshot :=
    ⟨_, by rw [history.shown_fst], hdecode⟩
  have hfetch : fetchLedger client t.start.key = .ok snapshot := by
    rw [fetchLedger, h.account]
    exact hsnapshot
  refine ⟨snapshot, hentries, fun advisory => ?_⟩
  rw [← hentries]
  rw [fetchLedgerRows, hfetch]
  cases advisory <;> rfl

/-- **Which ledger rows are linked to the right transaction.**  Whatever bodies could be read,
now or before, and whatever other transactions print, the rows of the ring come with no signature
but their own transactions' if and only if every row is fair: whenever another listed transaction
still has a decision of the row's key within reach of it, the row's transaction has one that
comes first. -/
theorem ledger_rows_linked_iff (h : Shows client t history) {cache : SignatureCache}
    (hcache : Earlier cache) :
    ∃ snapshot ring,
      (fetchLedgerRows client t.start.key none cache).1 = .ok (snapshot, ring) ∧
      (∀ found, ∃ rows extra,
        (fetchLedgerRows client t.start.key (some (.ok found)) cache).1 = .ok (snapshot, rows) ∧
        extra.Sublist found ∧ rows.Perm (ring ++ extra)) ∧
      (history.Linked ring ↔
        ∀ front row back, history.shown = front ++ row :: back →
          matching.Fair (listedAt client (ledgerPda client t.start.key))
            (pool client (ledgerPda client t.start.key) cache) front row) := by
  obtain ⟨snapshot, -, hrows⟩ := fetchLedgerRows_shows h cache
  refine ⟨snapshot, _, hrows none, fun found => ?_, ?_⟩
  · obtain ⟨extra, hextra, hperm⟩ := mergeDecisionRows_perm _ found
    exact ⟨_, extra, hrows (some (.ok found)), hextra, hperm⟩
  · have honce : ((client.history (ledgerPda client t.start.key)).map
        ConfirmedSignatureInfo.signature).Nodup := by
      rw [h.listed, List.map_map]
      exact history.once
    rw [LedgerHistory.Linked, attachSignatures_eq,
      forall₂_rowOf (by rw [Contest.length_assign, List.length_map])]
    exact (pool_lawful hcache.sound honce).assign_right_iff history.shown

end Rows

/-! ### A line that another program prints -/

section Sample

/-- The line of a payment of 30 with nonce 1 on the mandate 100, whichever program prints it. -/
def paidLine : Text :=
  lit "Program data: " ++ Indexer.toBase64 (MandateEvent.paid 100 30 1 30).bytes

def paidBody : RpcTx where
  staticAccountKeys := [2, 101]
  loadedWritable := []
  loadedReadonly := []
  compiledInstructions := []
  logMessages := some [paidLine]
  blockTime := some 20

/-- The payment, and before it in the listing a stranger's transaction of the same second. -/
def sampleHistory : LedgerHistory sampleTenure.log where
  txs := [
    (⟨"stop", 60, false, some 60⟩, (sampleTenure.log.drop 5).take 1),
    (⟨"again", 50, false, some 50⟩, (sampleTenure.log.drop 4).take 1),
    (⟨"clear", 40, false, some 40⟩, (sampleTenure.log.drop 3).take 1),
    (⟨"refusal", 30, false, some 30⟩, (sampleTenure.log.drop 2).take 1),
    (⟨"stranger", 20, false, some 20⟩, []),
    (⟨"payment", 20, false, some 20⟩, (sampleTenure.log.drop 1).take 1),
    (⟨"opening", 10, false, some 10⟩, sampleTenure.log.take 1)]
  once := by decide
  wrote := by decide

/-- Of the listed transactions, those in `read` can be read. -/
def sampleClient (read : List String) : ChainClient where
  programId := 99
  pda := sampleRuntime.pda
  account _ := some (Raw.ledgerData sampleTenure.state.ledger.raw)
  history _ := sampleHistory.txs.map Prod.fst
  transaction signature := .ok (if signature ∈ read then some paidBody else none)

theorem sampleClient_shows (read : List String) :
    Shows (sampleClient read) sampleTenure sampleHistory := ⟨rfl, rfl⟩

/-- With the payment's body alone, its row has its signature and the others have none. -/
theorem ledger_rows_linked_iff_sample :
    ∃ snapshot ring, (fetchLedgerRows (sampleClient ["payment"]) 100 none fun _ _ => none).1 =
      .ok (snapshot, ring) ∧ sampleHistory.Linked ring := by
  obtain ⟨snapshot, ring, hrows, -, hlinked⟩ :=
    ledger_rows_linked_iff (sampleClient_shows ["payment"]) .start
  have hnone : ∀ tx ∈ pool (sampleClient ["payment"]) 101 fun _ _ => none,
      ∀ row ∈ sampleHistory.shown, matching.owner tx ≠ row.2 → matching.cost row.1 tx = none := by
    decide +kernel
  refine ⟨snapshot, ring, hrows, hlinked.mpr ?_⟩
  intro front row back hsplit tx htx howner _ k hk
  have hrow : row ∈ sampleHistory.shown := by
    rw [hsplit]
    exact List.mem_append_right _ List.mem_cons_self
  rw [hnone tx htx row hrow howner] at hk
  cases hk

/-- **The stranger's signature.**  With both bodies read, the row of the payment comes with the
signature of the transaction that printed the same line. -/
theorem stranger_takes_row :
    ∃ snapshot ring, (fetchLedgerRows (sampleClient ["payment", "stranger"]) 100 none
        fun _ _ => none).1 = .ok (snapshot, ring) ∧
      (ring.map LedgerRow.signature)[1]? = some (some "stranger") ∧ ¬ sampleHistory.Linked ring := by
  obtain ⟨snapshot, -, hrows⟩ :=
    fetchLedgerRows_shows (sampleClient_shows ["payment", "stranger"]) fun _ _ => none
  refine ⟨snapshot, _, hrows none, ?_, ?_⟩
  · decide +kernel
  · intro hlinked
    have hwrong := (hlinked.get (i := 1) (by decide +kernel) (by decide +kernel)).2 "stranger"
      (by decide +kernel)
    exact absurd hwrong (by decide +kernel)

end Sample

end Veto.App
