import Veto.Sdk.Engine
import Veto.Sdk.Counterparty

/-!
# Advisory declines in the app

`advisory.ts` of the app: its parser of a memo, and its reader of a transaction.  The reader of the
SDK returns a decline for each memo of a transaction, and the reader of the app returns the first.
-/

namespace Veto.App.Advisory

open Foundation

def MEMO_PROGRAM_ID : Pubkey := Sdk.Memo.memoProgram

def ADVISORY_MEMO_PREFIX : String := "veto-advisory:v1"

def KIND_ADVISORY_DECLINE : Nat := 100

def ADVISORY_MEMO_KEYS : List String :=
  ["mandate", "amount", "nonce", "reason", "description_sha256"]

def parseAdvisoryMemo (text : Text) : Option Sdk.Memo.AdvisoryBody :=
  Sdk.Memo.parseMemo ADVISORY_MEMO_PREFIX ADVISORY_MEMO_KEYS text

/-! ## The reader -/

/-- What a message says of its accounts.  `getAccountKeys` is given the addresses that were loaded,
and throws where the message looks up others. -/
structure MemoMessage where
  getAccountKeys : Option (List Pubkey × List Pubkey) → Except Thrown (List Pubkey)
  compiledInstructions : List Veto.CompiledIx
  isAccountSigner : Nat → Bool
  isAccountWritable : Nat → Bool

structure VersionedTransactionResponse where
  message : Option MemoMessage
  err : Bool
  loadedAddresses : Option (List Pubkey × List Pubkey)

/-- A row of the ledger; its numbers are bigints. -/
structure LedgerRow where
  ts : Int
  amount : Nat
  counterparty : String
  nonce : Nat
  suggestedOverride : Nat
  kind : Nat
  kindName : String
  reason : Nat
  reasonText : String
  signature : String
  slot : Option Int
  deriving DecidableEq

section Reader

variable (platform : Sdk.Platform)

def namesMandate (message : MemoMessage) (keys : List Pubkey) (mandate : Pubkey)
    (ix : Veto.CompiledIx) : Bool :=
  ix.accountKeyIndexes.any fun index => keys[index]? = some mandate ∧
    message.isAccountSigner index = false ∧ message.isAccountWritable index = false

/-- What one instruction says, where it is a memo that counts. -/
def memoOf (message : MemoMessage) (keys : List Pubkey) (mandate : Pubkey)
    (ix : Veto.CompiledIx) : Option Sdk.AdvisoryBody :=
  if keys[ix.programIdIndex]? ≠ some MEMO_PROGRAM_ID then none
  else if namesMandate message keys mandate ix = false then none
  else do
    let text ← Sdk.decodeUtf8 ix.data
    let parsed ← Sdk.parseAdvisoryMemo platform text
    if parsed.mandate ≠ mandate.display then none else return parsed

def rowOf (signature : String) (agent : Pubkey) (blockTime slot : Option Int)
    (parsed : Sdk.AdvisoryBody) : LedgerRow where
  ts := blockTime.getD 0
  amount := parsed.amount
  counterparty := agent.display
  nonce := parsed.nonce
  suggestedOverride := 0
  kind := KIND_ADVISORY_DECLINE
  kindName := "advisory"
  reason := 0
  reasonText := parsed.reason
  signature
  slot

def agentSigned (message : MemoMessage) (keys : List Pubkey) (agent : Pubkey) : Bool :=
  keys.zipIdx.any fun (key, i) => key = agent && message.isAccountSigner i

def advisoryRowFromTransaction (signature : String) (tx : VersionedTransactionResponse)
    (mandate agent : Pubkey) (blockTime slot : Option Int) : Option LedgerRow :=
  if tx.err then none
  else do
    let message ← tx.message
    let keys ← (message.getAccountKeys tx.loadedAddresses).toOption
    if agentSigned message keys agent = false then none
    else
      (message.compiledInstructions.findSome? (memoOf platform message keys mandate)).map
        (rowOf signature agent blockTime slot)

end Reader

/-! ## The two readers -/

/-- What a decline says. -/
structure Decline where
  amount : Nat
  nonce : Nat
  reason : String
  deriving DecidableEq

def declineOf (decision : Sdk.Decision) : Decline :=
  ⟨decision.amount, decision.nonce, decision.advisoryReason.getD ""⟩

def LedgerRow.decline (row : LedgerRow) : Decline := ⟨row.amount, row.nonce, row.reasonText⟩

def declineOfBody (body : Sdk.AdvisoryBody) : Decline := ⟨body.amount, body.nonce, body.reason⟩

/-- The keys of a transaction: those of the message, and those that were loaded. -/
def accountKeys (tx : Sdk.RpcTransaction) : List Pubkey :=
  tx.message.staticAccountKeys ++ tx.loadedWritable ++ tx.loadedReadonly

/-- What a node takes for a transaction: the agent's signature is one of at least one, the counts of
the header are of accounts that are listed, and no account is listed twice. -/
structure Accepted (tx : Sdk.RpcTransaction) (header : Sdk.TxMessageHeader) : Prop where
  found : tx.message.header = some header
  signed : 1 ≤ header.numRequiredSignatures
  readonlySigned : header.numReadonlySignedAccounts ≤ header.numRequiredSignatures
  readonlyUnsigned : header.numRequiredSignatures + header.numReadonlyUnsignedAccounts ≤
    tx.message.staticAccountKeys.length
  distinct : (accountKeys tx).Nodup

/-- The answer to the app, and what its message says of the same transaction. -/
structure Answers (answer : VersionedTransactionResponse) (message : MemoMessage)
    (tx : Sdk.RpcTransaction) (header : Sdk.TxMessageHeader) : Prop where
  found : answer.message = some message
  err : answer.err = (tx.info.map Sdk.RpcMeta.err).getD false
  keys : message.getAccountKeys answer.loadedAddresses = .ok (accountKeys tx)
  instructions : message.compiledInstructions = tx.message.compiledInstructions
  signer : ∀ i < (accountKeys tx).length,
    message.isAccountSigner i = decide (i < header.numRequiredSignatures)
  writable : ∀ i < (accountKeys tx).length, message.isAccountWritable i =
    if i < tx.message.staticAccountKeys.length then
      if i < header.numRequiredSignatures then
        decide (i < header.numRequiredSignatures - header.numReadonlySignedAccounts)
      else decide (i - header.numRequiredSignatures < tx.message.staticAccountKeys.length -
        header.numRequiredSignatures - header.numReadonlyUnsignedAccounts)
    else decide (i - tx.message.staticAccountKeys.length < tx.loadedWritable.length)

section Agreement

variable {platform : Sdk.Platform} {answer : VersionedTransactionResponse} {message : MemoMessage}
  {tx : Sdk.RpcTransaction} {header : Sdk.TxMessageHeader} {signature : String} {slot : Int}
  {mandate agent : Pubkey}

/-- The flags that the SDK computes are what the message says. -/
def flagsOf (message : MemoMessage) (tx : Sdk.RpcTransaction) : List Sdk.AccountFlag :=
  (List.range (accountKeys tx).length).map fun i =>
    ⟨message.isAccountSigner i, message.isAccountWritable i⟩

theorem accountFlags_eq (haccepted : Accepted tx header) (h : Answers answer message tx header) :
    Sdk.accountFlags (Sdk.viewFromRpc tx signature slot) = some (flagsOf message tx) := by
  have hkeys : (Sdk.viewFromRpc tx signature slot).accountKeys.length = (accountKeys tx).length :=
    List.length_map _
  have hstatic : tx.message.staticAccountKeys.length ≤ (accountKeys tx).length := by
    unfold accountKeys
    rw [List.length_append, List.length_append]
    omega
  have hsigned := haccepted.signed
  have hreadonlySigned := haccepted.readonlySigned
  have hreadonlyUnsigned := haccepted.readonlyUnsigned
  have hheader : (Sdk.viewFromRpc tx signature slot).header = some header := haccepted.found
  unfold Sdk.accountFlags
  rw [hheader, Option.bind_eq_bind, Option.bind_some]
  dsimp only
  rw [hkeys]
  change (if header.numRequiredSignatures < 1 then none else
    if header.numRequiredSignatures < header.numReadonlySignedAccounts ∨
        tx.message.staticAccountKeys.length < header.numRequiredSignatures ∨
        (accountKeys tx).length < tx.message.staticAccountKeys.length then none else
    if tx.message.staticAccountKeys.length - header.numRequiredSignatures <
        header.numReadonlyUnsignedAccounts then none else _) = _
  rw [if_neg (by omega), if_neg (by omega), if_neg (by omega)]
  unfold flagsOf
  refine congrArg some (List.map_congr_left ?_)
  intro i hi
  have hlt := List.mem_range.mp hi
  rw [h.signer i hlt, h.writable i hlt]
  change (if i < tx.message.staticAccountKeys.length then
      (⟨decide (i < header.numRequiredSignatures),
        if i < header.numRequiredSignatures then
          decide (i < header.numRequiredSignatures - header.numReadonlySignedAccounts)
        else decide (i < header.numRequiredSignatures + (tx.message.staticAccountKeys.length -
          header.numRequiredSignatures - header.numReadonlyUnsignedAccounts))⟩ : Sdk.AccountFlag)
    else ⟨false, decide (i - tx.message.staticAccountKeys.length < tx.loadedWritable.length)⟩) = _
  by_cases hlisted : i < tx.message.staticAccountKeys.length
  · rw [if_pos hlisted, if_pos hlisted]
    by_cases hrequired : i < header.numRequiredSignatures
    · rw [if_pos hrequired, if_pos hrequired]
    · have hbound : (i < header.numRequiredSignatures + (tx.message.staticAccountKeys.length -
          header.numRequiredSignatures - header.numReadonlyUnsignedAccounts)) =
          (i - header.numRequiredSignatures < tx.message.staticAccountKeys.length -
            header.numRequiredSignatures - header.numReadonlyUnsignedAccounts) := by
        rw [eq_iff_iff]
        omega
      rw [if_neg hrequired, if_neg hrequired]
      simp only [hbound]
  · have hunsigned : decide (i < header.numRequiredSignatures) = false :=
      decide_eq_false (by omega)
    rw [if_neg hlisted, if_neg hlisted, hunsigned]

theorem keys_getD {index : Nat} {key : Pubkey} :
    tx.keys.getD index "" = key.display ↔ (accountKeys tx)[index]? = some key := by
  have hkeys : tx.keys = (accountKeys tx).map Pubkey.display := rfl
  rw [List.getD_eq_getElem?_getD, hkeys, List.getElem?_map]
  cases (accountKeys tx)[index]? with
  | none => exact iff_of_false (fun h => Sdk.display_ne_empty key h.symm) (fun h => by cases h)
  | some other =>
      rw [Option.map_some, Option.getD_some, Pubkey.display_inj, Option.some_inj]

theorem idxOf_key (haccepted : Accepted tx header) {index : Nat} {key : Pubkey}
    (h : (accountKeys tx)[index]? = some key) : tx.keys.idxOf key.display = index := by
  obtain ⟨hlt, hkey⟩ := List.getElem?_eq_some_iff.mp h
  have hkeys : tx.keys = (accountKeys tx).map Pubkey.display := rfl
  have hdistinct : ((accountKeys tx).map Pubkey.display).Nodup :=
    haccepted.distinct.map fun _ _ => Pubkey.display_inj.mp
  have hindex := hdistinct.idxOf_getElem index (by rw [List.length_map]; exact hlt)
  rw [List.getElem_map, hkey] at hindex
  rw [hkeys]
  exact hindex

theorem flagsOf_getElem? {index : Nat} {key : Pubkey} (h : (accountKeys tx)[index]? = some key) :
    (flagsOf message tx)[index]? =
      some ⟨message.isAccountSigner index, message.isAccountWritable index⟩ := by
  obtain ⟨hlt, -⟩ := List.getElem?_eq_some_iff.mp h
  unfold flagsOf
  rw [List.getElem?_map, List.getElem?_range hlt, Option.map_some]

/-- An instruction names the mandate for the one as for the other. -/
theorem namesMandate_eq (haccepted : Accepted tx header) (programId : String) (data : Bytes)
    (ix : Veto.CompiledIx) :
    Sdk.namesMandate (Sdk.viewFromRpc tx signature slot) (flagsOf message tx) mandate.display
        ⟨programId, ix.accountKeyIndexes.map fun index => tx.keys.getD index "", data⟩ =
      namesMandate message (accountKeys tx) mandate ix := by
  have hindex : ∀ index, (tx.keys.getD index "" = mandate.display ∧
      ((flagsOf message tx)[tx.keys.idxOf (tx.keys.getD index "")]?).any
        (fun flag => !flag.signer && !flag.writable) = true) ↔
      (accountKeys tx)[index]? = some mandate ∧ message.isAccountSigner index = false ∧
        message.isAccountWritable index = false := by
    intro index
    rw [keys_getD]
    refine and_congr_right fun hkey => ?_
    rw [keys_getD.mpr hkey, idxOf_key haccepted hkey, flagsOf_getElem? hkey, Option.any_some,
      Bool.and_eq_true, Bool.not_eq_true', Bool.not_eq_true']
  unfold Sdk.namesMandate namesMandate
  dsimp only
  rw [List.any_map]
  refine congrArg (List.any _) (funext fun index => decide_eq_decide.mpr ?_)
  exact hindex index

/-- An instruction is a memo that counts for the one as for the other. -/
theorem memoOf_eq (haccepted : Accepted tx header) (ix : Veto.CompiledIx) :
    (Sdk.advisoryDecision platform (Sdk.viewFromRpc tx signature slot) (flagsOf message tx)
        mandate.display ⟨tx.keys.getD ix.programIdIndex "",
          ix.accountKeyIndexes.map fun index => tx.keys.getD index "", ix.data⟩).map declineOf =
      (memoOf platform message (accountKeys tx) mandate ix).map declineOfBody := by
  have hprogram : tx.keys.getD ix.programIdIndex "" = Sdk.MEMO_PROGRAM_ID ↔
      (accountKeys tx)[ix.programIdIndex]? = some MEMO_PROGRAM_ID := by
    rw [← Sdk.Memo.memoProgram_display, keys_getD]
    rfl
  have hnames : Sdk.namesMandate (Sdk.viewFromRpc tx signature slot) (flagsOf message tx)
      mandate.display ⟨tx.keys.getD ix.programIdIndex "",
        ix.accountKeyIndexes.map fun index => tx.keys.getD index "", ix.data⟩ =
      namesMandate message (accountKeys tx) mandate ix := namesMandate_eq haccepted _ _ ix
  unfold Sdk.advisoryDecision memoOf
  dsimp only
  rw [hnames]
  by_cases hmemo : (accountKeys tx)[ix.programIdIndex]? = some MEMO_PROGRAM_ID
  · rw [if_neg (not_not_intro hmemo), if_neg (not_not_intro (hprogram.mpr hmemo))]
    cases hnamed : namesMandate message (accountKeys tx) mandate ix with
    | false => rfl
    | true =>
        cases Sdk.decodeUtf8 ix.data with
        | none => rfl
        | some text =>
            change Option.map declineOf ((Sdk.parseAdvisoryMemo platform text).bind _) =
              Option.map declineOfBody ((Sdk.parseAdvisoryMemo platform text).bind _)
            cases Sdk.parseAdvisoryMemo platform text with
            | none => rfl
            | some parsed =>
                dsimp only [Option.bind_some]
                by_cases hmandate : parsed.mandate = mandate.display
                · rw [if_neg (not_not_intro hmandate), if_neg (not_not_intro hmandate)]
                  rfl
                · rw [if_pos hmandate, if_pos hmandate]
                  rfl
  · rw [if_pos hmemo, if_pos (mt hprogram.mp hmemo)]
    rfl

theorem agentSigned_eq :
    ((flagsOf message tx).zip tx.keys).any (fun (flag, key) => flag.signer && key = agent.display) =
      agentSigned message (accountKeys tx) agent := by
  have hsigned : (∃ i, (accountKeys tx)[i]? = some agent ∧ message.isAccountSigner i = true) ↔
      agentSigned message (accountKeys tx) agent = true := by
    unfold agentSigned
    rw [List.any_eq_true]
    constructor
    · rintro ⟨i, hkey, hsigner⟩
      refine ⟨(agent, i), List.mem_zipIdx_iff_getElem?.mpr hkey, ?_⟩
      simp [hsigner]
    · rintro ⟨⟨key, i⟩, hmem, hboth⟩
      rw [Bool.and_eq_true, decide_eq_true_eq] at hboth
      obtain ⟨rfl, hsigner⟩ := hboth
      exact ⟨i, List.mem_zipIdx_iff_getElem?.mp hmem, hsigner⟩
  rw [Bool.eq_iff_iff, ← hsigned, List.any_eq_true]
  constructor
  · rintro ⟨⟨flag, text⟩, hmem, hboth⟩
    rw [Bool.and_eq_true, decide_eq_true_eq] at hboth
    obtain ⟨hsigner, rfl⟩ := hboth
    obtain ⟨i, hi⟩ := List.mem_iff_getElem?.mp hmem
    rw [List.getElem?_zip_eq_some] at hi
    have hkey : (accountKeys tx)[i]? = some agent := by
      rw [← keys_getD, List.getD_eq_getElem?_getD, hi.2, Option.getD_some]
    have hflag : (flagsOf message tx)[i]? =
        some ⟨message.isAccountSigner i, message.isAccountWritable i⟩ := flagsOf_getElem? hkey
    rw [hi.1] at hflag
    cases hflag
    exact ⟨i, hkey, hsigner⟩
  · rintro ⟨i, hkey, hsigner⟩
    have htext : tx.keys[i]? = some agent.display := by
      change ((accountKeys tx).map Pubkey.display)[i]? = _
      rw [List.getElem?_map, hkey, Option.map_some]
    refine ⟨(⟨message.isAccountSigner i, message.isAccountWritable i⟩, agent.display), ?_, ?_⟩
    · exact List.mem_iff_getElem?.mpr
        ⟨i, List.getElem?_zip_eq_some.mpr ⟨flagsOf_getElem? hkey, htext⟩⟩
    · simp [hsigner]

/-- What the SDK finds in a transaction. -/
theorem decisions_eq (haccepted : Accepted tx header) (h : Answers answer message tx header) :
    (Sdk.advisoryDecisionsFromTx platform (Sdk.viewFromRpc tx signature slot) mandate.display
        agent.display).map declineOf =
      if answer.err = true ∨ agentSigned message (accountKeys tx) agent = false then []
      else (message.compiledInstructions.filterMap
        (memoOf platform message (accountKeys tx) mandate)).map declineOfBody := by
  have herr : (Sdk.viewFromRpc tx signature slot).err = answer.err := h.err.symm
  have hagent : ((flagsOf message tx).zip (Sdk.viewFromRpc tx signature slot).accountKeys).any
      (fun (flag, key) => flag.signer && key = agent.display) =
      agentSigned message (accountKeys tx) agent := agentSigned_eq
  unfold Sdk.advisoryDecisionsFromTx
  rw [herr, accountFlags_eq haccepted h]
  by_cases hanswer : answer.err = true
  · rw [if_pos (.inl hanswer), if_pos (.inl hanswer)]
    rfl
  have hnamed : ¬ (answer.err = true ∨ mandate.display = "" ∨ agent.display = "") := by
    simp [Sdk.display_ne_empty, hanswer]
  rw [if_neg hnamed]
  dsimp only
  rw [hagent]
  cases agentSigned message (accountKeys tx) agent with
  | false =>
      rw [Bool.not_false, if_pos rfl, if_pos (Or.inr rfl)]
      rfl
  | true =>
      have hmemos : (Sdk.viewFromRpc tx signature slot).instructions =
          message.compiledInstructions.map fun ix => ⟨tx.keys.getD ix.programIdIndex "",
            ix.accountKeyIndexes.map fun index => tx.keys.getD index "", ix.data⟩ := by
        rw [h.instructions]
        rfl
      have hread : ¬ (answer.err = true ∨ true = false) := by simp [hanswer]
      rw [Bool.not_true, if_neg Bool.false_ne_true, if_neg hread, hmemos,
        List.filterMap_map, List.map_filterMap, List.map_filterMap]
      exact congrArg (List.filterMap · message.compiledInstructions)
        (funext fun ix => memoOf_eq haccepted ix)

/-- **The app returns the first decline of those that the SDK returns.** -/
theorem row_eq_head (haccepted : Accepted tx header) (h : Answers answer message tx header)
    (blockTime rowSlot : Option Int) :
    (advisoryRowFromTransaction platform signature answer mandate agent blockTime rowSlot).map
        LedgerRow.decline =
      ((Sdk.advisoryDecisionsFromTx platform (Sdk.viewFromRpc tx signature slot) mandate.display
        agent.display).map declineOf).head? := by
  rw [decisions_eq haccepted h]
  unfold advisoryRowFromTransaction
  by_cases herr : answer.err = true
  · rw [if_pos herr, if_pos (.inl herr)]
    rfl
  rw [if_neg herr, h.found, Option.bind_eq_bind, Option.bind_some, h.keys]
  change Option.map LedgerRow.decline (if agentSigned message (accountKeys tx) agent = false
    then none else _) = _
  by_cases hagent : agentSigned message (accountKeys tx) agent = false
  · rw [if_pos hagent, if_pos (.inr hagent)]
    rfl
  · rw [if_neg hagent, if_neg (not_or.mpr ⟨herr, hagent⟩), List.head?_map, List.head?_filterMap,
      Option.map_map]
    rfl

end Agreement

/-! ## A memo that the agent writes -/

section Written

variable {sha256 : Bytes → Vector UInt8 32} {localeCompare : String → String → Int}
  {fields : Sdk.Memo.MemoFields} {message : MemoMessage} {keys : List Pubkey} {mandate : Pubkey}
  {program : Nat} {accounts : List Nat}

theorem decodeUtf8_textBytes {text : Text} (h : text.head? ≠ some '\ufeff') :
    Sdk.decodeUtf8 (textBytes text) = some (String.ofList text) := by
  have hbytes : textBytes text = utf8Bytes (String.ofList text) := by
    unfold utf8Bytes
    rw [String.toList_ofList]
    rfl
  have hmark : Service.withoutMark (String.ofList text) = String.ofList text := by
    unfold Service.withoutMark
    rw [String.toList_ofList]
    split
    · exact absurd rfl h
    · rfl
  unfold Sdk.decodeUtf8 Service.decodeText
  dsimp only
  rw [hbytes, utf8Text_bytes, if_pos rfl, hmark]
  rfl

/-- The memo of a decline counts in a transaction that names the mandate. -/
theorem memoOf_text (h : fields.Valid) (hmandate : fields.mandate = js mandate.display)
    (hprogram : keys[program]? = some MEMO_PROGRAM_ID)
    (hnames : namesMandate message keys mandate
      ⟨program, accounts, textBytes (Sdk.Memo.advisoryMemoText sha256 fields).text⟩ = true) :
    memoOf (Sdk.Memo.engine localeCompare) message keys mandate
        ⟨program, accounts, textBytes (Sdk.Memo.advisoryMemoText sha256 fields).text⟩ =
      some (Sdk.Memo.lossyBody (Sdk.Memo.bodyOf sha256 fields)) := by
  have hhead : (Sdk.Memo.advisoryMemoText sha256 fields).text.head? ≠ some '\ufeff' := by
    change some 'v' ≠ _
    decide
  have haddress : (Sdk.Memo.lossyBody (Sdk.Memo.bodyOf sha256 fields)).mandate =
      mandate.display := by
    change Sdk.Memo.lossyText fields.mandate = _
    rw [hmandate, Sdk.Memo.lossyText_of_decode (Sdk.Memo.decodeUtf16_js _), String.ofList_toList]
  unfold memoOf
  dsimp only
  rw [if_neg (not_not_intro hprogram), hnames, if_neg Bool.true_eq_false_eq_False,
    decodeUtf8_textBytes hhead, Option.bind_eq_bind, Option.bind_some,
    Sdk.Memo.parseAdvisoryMemo_engine, String.toList_ofList, Sdk.Memo.parseAdvisoryMemo_text sha256 h,
    Option.map_some, Option.bind_eq_bind, Option.bind_some, if_neg (not_not_intro haddress)]
  rfl

end Written

/-! ## The memo of a decline -/

section Memo

open Sdk.Memo

/-- **The memo of an advisory decline.**  Both parsers read its fields back, with the reason that is
stored; its transaction is as long as its escaped strings make it; and of the declines of a
transaction that the reader of the SDK returns, the reader of the app returns the first. -/
theorem advisory_memo (sha256 : Bytes → Vector UInt8 32) (localeCompare : String → String → Int)
    (fields : MemoFields) (signature : Vector UInt8 64) (agent mandate blockhash : Pubkey)
    (hmandate : fields.mandate = js mandate.display) (hamount : fields.amount < 2 ^ 64)
    (hnonce : fields.nonce < 2 ^ 64) :
    (let memo := advisoryMemoText sha256 fields
      let body : Sdk.Memo.AdvisoryBody := ⟨fields.mandate, fields.amount, fields.nonce, memo.reason,
        descriptionSha256 sha256 fields.description⟩
      let transaction := memoTransaction signature agent mandate blockhash memo.text
      Sdk.Memo.parseAdvisoryMemo memo.text = some body ∧ parseAdvisoryMemo memo.text = some body ∧
        Stored fields.reason memo.reason ∧
        transaction.length = 261 + 32 * [agent, mandate, memoProgram].eraseDups.length +
          mandate.display.toList.length + (Nat.toDigits 10 fields.amount).length +
          (Nat.toDigits 10 fields.nonce).length + escapedLength memo.reason ∧
        (controls memo.reason ≤ 69 → transaction.length ≤ PACKET_DATA_SIZE)) ∧
      ∀ tx header answer message, Accepted tx header → Answers answer message tx header →
        ∀ signature slot blockTime rowSlot,
          (advisoryRowFromTransaction (engine localeCompare) signature answer mandate agent blockTime
              rowSlot).map LedgerRow.decline =
            ((Sdk.advisoryDecisionsFromTx (engine localeCompare) (Sdk.viewFromRpc tx signature slot)
              mandate.display agent.display).map declineOf).head? := by
  have hvalid : fields.Valid := by
    refine ⟨?_, hamount, hnonce⟩
    rw [hmandate]
    exact canonicalAddress_display mandate
  have hparse := parseAdvisoryMemo_text sha256 hvalid
  refine ⟨⟨hparse, hparse, capAdvisoryReason_stored fields.reason, ?_, ?_⟩, ?_⟩
  · exact length_advisoryTransaction sha256 fields signature agent mandate blockhash hmandate hvalid
  · exact advisoryTransaction_fits sha256 fields signature agent mandate blockhash hmandate hvalid
  · intro tx header answer message haccepted h signature slot blockTime rowSlot
    exact row_eq_head haccepted h blockTime rowSlot

/-! ### Two declines in one transaction -/

def sampleSha256 (_ : Bytes) : Vector UInt8 32 := Vector.replicate 32 0

def sampleCompare (_ _ : String) : Int := 0

/-- A decline of 5 under the mandate at address 2. -/
def sampleFields (nonce : Nat) (reason : JsString) : MemoFields where
  mandate := js (Pubkey.display 2)
  amount := 5
  nonce
  reason
  description := js "tea"

def sampleMemo (nonce : Nat) : Veto.CompiledIx :=
  ⟨2, [0, 1], textBytes (advisoryMemoText sampleSha256 (sampleFields nonce (js "no"))).text⟩

/-- Agent 1 writes two memos. -/
def sampleInstructions : List Veto.CompiledIx := [sampleMemo 1, sampleMemo 2]

def sampleHeader : Sdk.TxMessageHeader := ⟨1, 0, 2⟩

def sampleTransaction : Sdk.RpcTransaction where
  slot := some 9
  blockTime := some 20
  info := some ⟨false, none, [], []⟩
  signatures := ["5h"]
  message := ⟨some sampleHeader, [1, 2, MEMO_PROGRAM_ID], sampleInstructions⟩

def sampleMessage : MemoMessage where
  getAccountKeys _ := .ok [1, 2, MEMO_PROGRAM_ID]
  compiledInstructions := sampleInstructions
  isAccountSigner i := i < 1
  isAccountWritable i := i < 1

def sampleAnswer : VersionedTransactionResponse := ⟨some sampleMessage, false, some ([], [])⟩

theorem sampleTransaction_accepted : Accepted sampleTransaction sampleHeader where
  found := rfl
  signed := by decide
  readonlySigned := by decide
  readonlyUnsigned := by decide
  distinct := by decide +kernel

theorem sampleAnswer_answers :
    Answers sampleAnswer sampleMessage sampleTransaction sampleHeader where
  found := rfl
  err := rfl
  keys := rfl
  instructions := rfl
  signer _ _ := rfl
  writable i hi := by
    have hlt : i < 3 := hi
    interval_cases i <;> rfl

theorem sampleFields_valid (nonce : Nat) (reason : JsString) (h : nonce < 2 ^ 64) :
    (sampleFields nonce reason).Valid := by
  refine ⟨canonicalAddress_display 2, ?_, h⟩
  change 5 < 2 ^ 64
  decide

theorem sampleDeclines : ((Sdk.advisoryDecisionsFromTx (engine sampleCompare)
    (Sdk.viewFromRpc sampleTransaction "5h" 9) (Pubkey.display 2) (Pubkey.display 1)).map
      declineOf).length = 2 := by
  have hmemo : ∀ nonce, nonce < 2 ^ 64 → memoOf (engine sampleCompare) sampleMessage
      (accountKeys sampleTransaction) 2 (sampleMemo nonce) =
      some (lossyBody (bodyOf sampleSha256 (sampleFields nonce (js "no")))) := by
    intro nonce hnonce
    exact memoOf_text (sampleFields_valid nonce _ hnonce) rfl rfl rfl
  have hread : ¬ (sampleAnswer.err = true ∨
      agentSigned sampleMessage (accountKeys sampleTransaction) 1 = false) := by
    rintro (herr | hagent)
    · cases herr
    · cases hagent
  rw [decisions_eq sampleTransaction_accepted sampleAnswer_answers, if_neg hread, List.length_map]
  have hmemos : sampleMessage.compiledInstructions = [sampleMemo 1, sampleMemo 2] := rfl
  rw [hmemos, List.filterMap_cons_some (hmemo 1 (by decide)),
    List.filterMap_cons_some (hmemo 2 (by decide)), List.filterMap_nil]
  rfl

/-- The reason is read back, and the app returns the first of the two declines. -/
theorem advisory_memo_two :
    parseAdvisoryMemo (advisoryMemoText sampleSha256 (sampleFields 1 (js "no"))).text =
        some ⟨js (Pubkey.display 2), 5, 1, js "no",
          Sdk.Memo.descriptionSha256 sampleSha256 (js "tea")⟩ ∧
      (advisoryRowFromTransaction (engine sampleCompare) "5h" sampleAnswer 2 1 (some 20)
        (some 9)).isSome = true := by
  have hmemo := advisory_memo sampleSha256 sampleCompare (sampleFields 1 (js "no"))
    (Vector.replicate 64 0) 1 2 3 rfl (sampleFields_valid 1 _ (by decide)).amount (by decide)
  constructor
  · have hparse := hmemo.1.2.1
    rwa [hmemo.1.2.2.1.short (by decide)] at hparse
  · have hrow := hmemo.2 _ _ _ _ sampleTransaction_accepted sampleAnswer_answers "5h" 9 (some 20)
      (some 9)
    have hsome := congrArg Option.isSome hrow
    have hdeclines := sampleDeclines
    rw [Option.isSome_map] at hsome
    rw [hsome]
    generalize (Sdk.advisoryDecisionsFromTx (engine sampleCompare)
      (Sdk.viewFromRpc sampleTransaction "5h" 9) (Pubkey.display 2) (Pubkey.display 1)).map
        declineOf = declines at hdeclines
    cases declines with
    | nil => cases hdeclines
    | cons decline declines => rfl

/-- A reason that begins with an unpaired surrogate and is cut, and one of control characters. -/
def surrogateReason : JsString := 0xd800 :: List.replicate 254 0x61

def controlReason : JsString := List.replicate 256 0x1

theorem surrogateReason_cut : ¬ capAdvisoryReason surrogateReason <+: surrogateReason := by
  have hlossy : lossyUtf16 surrogateReason = '\ufffd' :: List.replicate 254 'a' := by decide +kernel
  have hlong : ADVISORY_REASON_MAX_BYTES < (utf8Of surrogateReason).length := by
    change _ < utf8Length (lossyUtf16 surrogateReason)
    rw [hlossy]
    decide +kernel
  rw [capAdvisoryReason_long hlong, hlossy, fitting, if_pos (by decide), utf16_cons]
  rintro ⟨rest, hrest⟩
  have hunit : some (0xfffd : UInt16) = some 0xd800 := congrArg List.head? hrest
  exact absurd hunit (by decide)

theorem controlReason_escaped : escapedLength (capAdvisoryReason controlReason) = 1536 := by
  have hshort : (utf8Of controlReason).length ≤ ADVISORY_REASON_MAX_BYTES := by decide +kernel
  rw [(capAdvisoryReason_stored controlReason).short hshort]
  decide +kernel

/-- **Not every memo of a decline is as promised**: a reason that is cut may be none of its prefixes,
a reason of control characters makes its transaction too long, and the app may read one decline
where the SDK reads two. -/
theorem advisory_memo_fails :
    ¬ capAdvisoryReason surrogateReason <+: surrogateReason ∧
      PACKET_DATA_SIZE < (memoTransaction (Vector.replicate 64 0) 1 2 3
        (advisoryMemoText sampleSha256 (sampleFields 1 controlReason)).text).length ∧
      (advisoryRowFromTransaction (engine sampleCompare) "5h" sampleAnswer 2 1 (some 20)
        (some 9)).toList.map LedgerRow.decline ≠
        (Sdk.advisoryDecisionsFromTx (engine sampleCompare)
          (Sdk.viewFromRpc sampleTransaction "5h" 9) (Pubkey.display 2) (Pubkey.display 1)).map
            declineOf := by
  refine ⟨surrogateReason_cut, ?_, ?_⟩
  · have hescaped : escapedLength (capAdvisoryReason (sampleFields 1 controlReason).reason) = 1536 :=
      controlReason_escaped
    rw [length_advisoryTransaction sampleSha256 _ _ 1 2 3 rfl (sampleFields_valid 1 _ (by decide)),
      hescaped, PACKET_DATA_SIZE]
    omega
  · intro hsame
    have hlength := congrArg List.length hsame
    rw [sampleDeclines, List.length_map, Option.length_toList] at hlength
    split at hlength <;> cases hlength

end Memo

end Veto.App.Advisory
