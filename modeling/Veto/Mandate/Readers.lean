import Veto.Mandate.Layout
import Veto.Ledger.Readers
import Veto.Foundation.Cursor
import Veto.Foundation.Utf8

/-!
# The readers of a mandate account

`decodeMandate` of the SDK and `decodeMandateAccount` of the app.  The two read the same
fields in the same order and differ in how a field is read and in the errors, so each is one
walk over its own reads.  A `bigint` is an integer, a `number` a natural.
-/

namespace Veto

open Foundation

/-- How the fields of an account are read.  A field is named for the error. -/
structure FieldReads (κ : Type) where
  key : String → Cursor Thrown κ
  u64 : String → Cursor Thrown Int
  i64 : String → Cursor Thrown Int
  u32 : String → Cursor Thrown Nat
  u8 : String → Cursor Thrown UInt8
  purpose : Cursor Thrown String

/-- The text of a purpose that is `len` bytes long. -/
def purposeText (tooLong : String) (len : Nat) : Cursor Thrown String := fun data off => do
  throwUnless (len ≤ PURPOSE_MAX_LEN) (tooLong ++ " (" ++ toString len ++ ")")
  throwUnless (off + len ≤ data.length) "purpose overruns account data"
  return (utf8Text (subarray data off (off + len)), off + len)

/-! ## The reads of the SDK -/

namespace Sdk

/-- A read of `n` bytes that the buffer has. -/
def checkedRead {α : Type} (n : Nat) (read : Bytes → Nat → Except Thrown α) (what : String) :
    Cursor Thrown α :=
  Cursor.fixed n fun data off => do
    need data off n what
    read data off

def readPubkey : String → Cursor Thrown Pubkey :=
  checkedRead 32 fun data off => return Pubkey.ofBytes (subarray data off (off + 32))

def readU64 : String → Cursor Thrown Int :=
  checkedRead 8 fun data off => (readBigUInt64LE data off).map fun v => (v.toNat : Int)

def readI64 : String → Cursor Thrown Int :=
  checkedRead 8 fun data off => (readBigInt64LE data off).map Int64.toInt

def readU32 : String → Cursor Thrown Nat :=
  checkedRead 4 fun data off => (readUInt32LE data off).map UInt32.toNat

def readU8 : String → Cursor Thrown UInt8 := checkedRead 1 readUInt8

def readString : Cursor Thrown String := do
  let len ← readU32 "purpose length"
  purposeText "purpose longer than on-chain max" len

def fieldReads : FieldReads Pubkey where
  key := readPubkey
  u64 := readU64
  i64 := readI64
  u32 := readU32
  u8 := readU8
  purpose := readString

end Sdk

/-! ## The reads of the app -/

namespace App

section Views

variable (beyond : Bytes)

/-- A `DataView` on the memory of the buffer, which `beyond` follows in it. -/
def viewAt {α : Type} (n : Nat) (read : Bytes → Nat → Except Thrown α) : Cursor Thrown α :=
  Cursor.fixed n fun data off => read (data ++ beyond) off

def readU64Le : Cursor Thrown Int :=
  viewAt beyond 8 fun data off => (readBigUInt64LE data off).map fun v => (v.toNat : Int)

def readI64Le : Cursor Thrown Int :=
  viewAt beyond 8 fun data off => (readBigInt64LE data off).map Int64.toInt

def readU32Le : Cursor Thrown Nat :=
  viewAt beyond 4 fun data off => (readUInt32LE data off).map UInt32.toNat

/-- `data[o] ?? 0`. -/
def readByte : Cursor Thrown UInt8 := Cursor.fixed 1 fun data off => return byteAt data off

def readPubkey : Cursor Thrown String :=
  Cursor.fixed 32 fun data off => return (Pubkey.ofBytes (subarray data off (off + 32))).display

def readPurpose : Cursor Thrown String := do
  let purposeLen ← readU32Le beyond
  purposeText "purpose longer than the on-chain max" purposeLen

/-- No error of the app names the field. -/
def fieldReads : FieldReads String where
  key _ := readPubkey
  u64 _ := readU64Le beyond
  i64 _ := readI64Le beyond
  u32 _ := readU32Le beyond
  u8 _ := readByte
  purpose := readPurpose beyond

end Views

end App

/-! ## What a lawful reader reads -/

/-- The reads take what the program writes, and keys are shown by `shown`. -/
structure FieldReads.Lawful {κ : Type} (reads : FieldReads κ) (shown : Pubkey → κ) : Prop where
  key : ∀ (what : String) (k : Pubkey), Reads (reads.key what) k.toBytes (shown k)
  u64 : ∀ (what : String) (v : UInt64), Reads (reads.u64 what) (toLE 8 v.toNat) (v.toNat : Int)
  i64 : ∀ (what : String) (v : Int64), Reads (reads.i64 what) (toLE 8 v.toUInt64.toNat) v.toInt
  u32 : ∀ (what : String) (v : UInt32), Reads (reads.u32 what) (toLE 4 v.toNat) v.toNat
  u8 : ∀ (what : String) (v : UInt8), Reads (reads.u8 what) [v] v
  purpose : ∀ s : String, s.utf8ByteSize ≤ PURPOSE_MAX_LEN →
    Reads reads.purpose (toLE 4 s.utf8ByteSize ++ utf8Bytes s) s

theorem purposeText_reads {tooLong s : String} (hfits : s.utf8ByteSize ≤ PURPOSE_MAX_LEN) :
    Reads (purposeText tooLong s.utf8ByteSize) (utf8Bytes s) s := by
  intro data off rest hoff h
  have hstop := end_le_of_drop hoff h
  have htext := subarray_of_drop h
  rw [length_utf8Bytes] at hstop htext
  rw [purposeText, throwUnless, require_true hfits, ok_bind, throwUnless, require_true hstop,
    ok_bind, htext, utf8Text_bytes, length_utf8Bytes]
  rfl

/-- A purpose is read after its length. -/
theorem purpose_reads {len : Cursor Thrown Nat} {tooLong : String}
    (hlen : ∀ v : UInt32, Reads len (toLE 4 v.toNat) v.toNat) {s : String}
    (hfits : s.utf8ByteSize ≤ PURPOSE_MAX_LEN) :
    Reads (len >>= purposeText tooLong) (toLE 4 s.utf8ByteSize ++ utf8Bytes s) s := by
  have hsize : (UInt32.ofNat s.utf8ByteSize).toNat = s.utf8ByteSize :=
    UInt32.toNat_ofNat_of_lt' (Nat.lt_of_le_of_lt hfits (by decide))
  have hprefix := hlen (UInt32.ofNat s.utf8ByteSize)
  rw [hsize] at hprefix
  exact hprefix.bind (purposeText_reads hfits)

section Lawful

variable {data : Bytes} {off : Nat}

theorem readU64_eq {v : UInt64} (h : subarray data off (off + 8) = toLE 8 v.toNat) :
    (readBigUInt64LE data off).map (fun v => (v.toNat : Int)) = .ok (v.toNat : Int) := by
  rw [readBigUInt64LE_eq h]
  rfl

theorem readI64_eq {v : Int64} (h : subarray data off (off + 8) = toLE 8 v.toUInt64.toNat) :
    (readBigInt64LE data off).map Int64.toInt = .ok v.toInt := by
  rw [readBigInt64LE_eq h]
  rfl

theorem readU32_eq {v : UInt32} (h : subarray data off (off + 4) = toLE 4 v.toNat) :
    (readUInt32LE data off).map UInt32.toNat = .ok v.toNat := by
  rw [readUInt32LE_eq h]
  rfl

theorem Sdk.checkedRead_reads {α : Type} {n : Nat} {read : Bytes → Nat → Except Thrown α}
    {what : String} {bytes : Bytes} {a : α} (hlength : bytes.length = n)
    (hread : ∀ data off, subarray data off (off + n) = bytes → read data off = .ok a) :
    Reads (checkedRead n read what) bytes a :=
  Reads.fixed hlength fun data off hbytes hstop => by
    rw [need, throwUnless, require_true hstop, ok_bind, hread data off hbytes]

theorem Sdk.fieldReads_lawful : fieldReads.Lawful id where
  key _ k := checkedRead_reads k.length_toBytes fun data off h => by
    rw [h, Pubkey.ofBytes_toBytes]
    rfl
  u64 _ _ := checkedRead_reads (length_toLE ..) fun _ _ => readU64_eq
  i64 _ _ := checkedRead_reads (length_toLE ..) fun _ _ => readI64_eq
  u32 _ _ := checkedRead_reads (length_toLE ..) fun _ _ => readU32_eq
  u8 _ _ := checkedRead_reads rfl fun _ _ => readUInt8_eq
  purpose _ hfits := purpose_reads
    (fun _ => checkedRead_reads (length_toLE ..) fun _ _ => readU32_eq) hfits

/-- A view inside the buffer does not see what follows it. -/
theorem App.viewAt_reads {α : Type} {n : Nat} {read : Bytes → Nat → Except Thrown α}
    {beyond bytes : Bytes} {a : α} (hlength : bytes.length = n)
    (hread : ∀ data off, subarray data off (off + n) = bytes → read data off = .ok a) :
    Reads (viewAt beyond n read) bytes a :=
  Reads.fixed hlength fun data off hbytes hstop => by
    apply hread
    rw [subarray, List.take_append_of_le_length hstop]
    exact hbytes

theorem App.readByte_reads (v : UInt8) : Reads readByte [v] v :=
  Reads.fixed rfl fun data off hbytes hstop => by
    have hin : off < data.length := hstop
    have hbyte : data[off] = v := by
      rw [subarray, List.drop_take, Nat.add_sub_cancel_left, List.take_one_drop_eq_of_lt_length hin,
        List.cons.injEq] at hbytes
      exact hbytes.1
    rw [byteAt, List.getD_eq_getElem?_getD, List.getElem?_eq_getElem hin, hbyte]
    rfl

theorem App.fieldReads_lawful (beyond : Bytes) : (fieldReads beyond).Lawful Pubkey.display where
  key _ k := Reads.fixed k.length_toBytes fun data off h _ => by
    rw [h, Pubkey.ofBytes_toBytes]
    rfl
  u64 _ _ := viewAt_reads (length_toLE ..) fun _ _ => readU64_eq
  i64 _ _ := viewAt_reads (length_toLE ..) fun _ _ => readI64_eq
  u32 _ _ := viewAt_reads (length_toLE ..) fun _ _ => readU32_eq
  u8 _ v := readByte_reads v
  purpose _ hfits := purpose_reads
    (fun _ => viewAt_reads (length_toLE ..) fun _ _ => readU32_eq) hfits

end Lawful

/-! ## The decoders -/

/-- `MandateAccount`; `κ` is how a client shows a key. -/
structure MandateAccount (κ : Type) where
  owner : κ
  agent : κ
  mint : κ
  source : κ
  merchant : κ
  mandateId : Int
  cap : Int
  spent : Int
  perTxMax : Int
  expiresAt : Int
  overrideAmount : Int
  overrideNonce : Int
  lastNonce : Int
  purpose : String
  status : UInt8
  spendCount : Nat
  refusalCount : Nat
  bump : UInt8
  deriving DecidableEq

/-- The account of a mandate, as a client is to see it. -/
def MandateAccount.of {κ : Type} (shown : Pubkey → κ) (m : Mandate) : MandateAccount κ where
  owner := shown m.owner
  agent := shown m.agent
  mint := shown m.mint
  source := shown m.source
  merchant := shown m.merchant
  mandateId := m.mandateId.toNat
  cap := m.cap.toNat
  spent := m.spent.toNat
  perTxMax := m.perTxMax.toNat
  expiresAt := m.expiresAt.toInt
  overrideAmount := m.overrideAmount.toNat
  overrideNonce := m.overrideNonce.toNat
  lastNonce := m.lastNonce.toNat
  purpose := m.purpose
  status := m.status.code
  spendCount := m.spendCount.toNat
  refusalCount := m.refusalCount.toNat
  bump := m.bump

/-- The fields of a mandate in the order both clients read them. -/
def mandateFields {κ : Type} (reads : FieldReads κ) : Cursor Thrown (MandateAccount κ) := do
  let owner ← reads.key "owner"
  let agent ← reads.key "agent"
  let mint ← reads.key "mint"
  let source ← reads.key "source"
  let merchant ← reads.key "merchant"
  let mandateId ← reads.u64 "mandate_id"
  let cap ← reads.u64 "cap"
  let spent ← reads.u64 "spent"
  let perTxMax ← reads.u64 "per_tx_max"
  let expiresAt ← reads.i64 "expires_at"
  let overrideAmount ← reads.u64 "override_amount"
  let overrideNonce ← reads.u64 "override_nonce"
  let lastNonce ← reads.u64 "last_nonce"
  let purpose ← reads.purpose
  let status ← reads.u8 "status"
  let spendCount ← reads.u32 "spend_count"
  let refusalCount ← reads.u32 "refusal_count"
  let bump ← reads.u8 "bump"
  return { owner, agent, mint, source, merchant, mandateId, cap, spent, perTxMax, expiresAt,
           overrideAmount, overrideNonce, lastNonce, purpose, status, spendCount, refusalCount,
           bump }

def Sdk.decodeMandate (data : Bytes) : Except Thrown (MandateAccount Pubkey) := do
  requireDisc data MANDATE_DISCRIMINATOR "Mandate"
  (mandateFields fieldReads).readAt data 8

/-- The check of the app for the first eight bytes. -/
def App.requireDisc (data expected : Bytes) (address what : String) : Except Thrown Unit :=
  throwUnless (8 ≤ data.length ∧ subarray data 0 8 = expected)
    ("account " ++ address ++ " does not have the " ++ what ++ " discriminator")

theorem requireDisc_append {disc rest : Bytes} {what : String} :
    requireDisc (disc ++ rest) disc what = .ok () := by
  unfold requireDisc throwUnless
  refine require_true ⟨?_, subarray_append_left rfl⟩
  rw [List.length_append]
  exact Nat.le_add_right _ _

theorem App.requireDisc_append {disc rest : Bytes} {address what : String} (h : disc.length = 8) :
    requireDisc (disc ++ rest) disc address what = .ok () := by
  unfold requireDisc throwUnless
  refine require_true ⟨?_, subarray_append_left h⟩
  rw [List.length_append, h]
  exact Nat.le_add_right _ _

/-- The account of the app, which has its address besides. -/
structure App.MandateAccount extends Veto.MandateAccount String where
  address : String
  deriving DecidableEq

def App.decodeMandateAccount (address : String) (data beyond : Bytes) :
    Except Thrown App.MandateAccount := do
  requireDisc data MANDATE_DISCRIMINATOR address "Mandate"
  return { toMandateAccount := ← (mandateFields (fieldReads beyond)).readAt data 8, address }

/-! ## What the decoders make of a mandate -/

theorem mandateFields_reads {κ : Type} {reads : FieldReads κ} {shown : Pubkey → κ}
    (lawful : reads.Lawful shown) {m : Mandate} (hfits : m.purpose.utf8ByteSize ≤ PURPOSE_MAX_LEN) :
    Reads (mandateFields reads) (m.fixed ++ m.tail) (.of shown m) := by
  have hbytes : m.fixed ++ m.tail = m.owner.toBytes ++ (m.agent.toBytes ++ (m.mint.toBytes ++
      (m.source.toBytes ++ (m.merchant.toBytes ++ (toLE 8 m.mandateId.toNat ++
      (toLE 8 m.cap.toNat ++ (toLE 8 m.spent.toNat ++ (toLE 8 m.perTxMax.toNat ++
      (toLE 8 m.expiresAt.toUInt64.toNat ++ (toLE 8 m.overrideAmount.toNat ++
      (toLE 8 m.overrideNonce.toNat ++ (toLE 8 m.lastNonce.toNat ++
      ((toLE 4 m.purpose.utf8ByteSize ++ utf8Bytes m.purpose) ++ ([m.status.code] ++
      (toLE 4 m.spendCount.toNat ++ (toLE 4 m.refusalCount.toNat ++ [m.bump])))))))))))))))) := by
    simp only [Mandate.fixed, Mandate.tail, utf8Bytes_eq, List.append_assoc]
  rw [hbytes]
  refine (lawful.key _ m.owner).bind ?_
  refine (lawful.key _ m.agent).bind ?_
  refine (lawful.key _ m.mint).bind ?_
  refine (lawful.key _ m.source).bind ?_
  refine (lawful.key _ m.merchant).bind ?_
  refine (lawful.u64 _ m.mandateId).bind ?_
  refine (lawful.u64 _ m.cap).bind ?_
  refine (lawful.u64 _ m.spent).bind ?_
  refine (lawful.u64 _ m.perTxMax).bind ?_
  refine (lawful.i64 _ m.expiresAt).bind ?_
  refine (lawful.u64 _ m.overrideAmount).bind ?_
  refine (lawful.u64 _ m.overrideNonce).bind ?_
  refine (lawful.u64 _ m.lastNonce).bind ?_
  refine (lawful.purpose m.purpose hfits).bind ?_
  refine (lawful.u8 _ m.status.code).bind ?_
  refine (lawful.u32 _ m.spendCount).bind ?_
  refine (lawful.u32 _ m.refusalCount).bind ?_
  exact (lawful.u8 _ m.bump).last

/-- An account is its discriminator, its fields and the rest of its room. -/
theorem Mandate.data_split (m : Mandate) : ∃ padding,
    m.data = MANDATE_DISCRIMINATOR ++ ((m.fixed ++ m.tail) ++ padding) :=
  ⟨_, List.append_assoc ..⟩

/-- **The SDK reads back the mandate that the program wrote.** -/
theorem Sdk.decodeMandate_data {m : Mandate} (hfits : m.purpose.utf8ByteSize ≤ PURPOSE_MAX_LEN) :
    Sdk.decodeMandate m.data = .ok (.of id m) := by
  obtain ⟨padding, hdata⟩ := m.data_split
  rw [decodeMandate, hdata, requireDisc_append, ok_bind]
  exact (mandateFields_reads fieldReads_lawful hfits).readAt

/-- **The app reads back the mandate that the program wrote.** -/
theorem App.decodeMandateAccount_data {m : Mandate}
    (hfits : m.purpose.utf8ByteSize ≤ Veto.PURPOSE_MAX_LEN) (address : String) (beyond : Bytes) :
    App.decodeMandateAccount address m.data beyond =
      .ok { toMandateAccount := .of Pubkey.display m, address } := by
  obtain ⟨padding, hdata⟩ := m.data_split
  have hread : (mandateFields (fieldReads beyond)).readAt
      (MANDATE_DISCRIMINATOR ++ ((m.fixed ++ m.tail) ++ padding)) 8 = .ok (.of Pubkey.display m) :=
    (mandateFields_reads (fieldReads_lawful beyond) hfits).readAt
  rw [decodeMandateAccount, hdata, requireDisc_append rfl, ok_bind, hread, ok_bind]
  rfl

/-- The account holds the mandate, and both clients read it back field by field. -/
def Mandate.RoundTrips (m : Mandate) : Prop :=
  ∃ data, m.store = some data ∧ Sdk.decodeMandate data = .ok (.of id m) ∧
    ∀ address beyond, App.decodeMandateAccount address data beyond =
      .ok { toMandateAccount := .of Pubkey.display m, address }

theorem Mandate.roundTrips_iff (m : Mandate) :
    m.RoundTrips ↔ m.purpose.utf8ByteSize ≤ PURPOSE_MAX_LEN := by
  constructor
  · rintro ⟨data, hstore, -⟩
    exact (m.store_eq_some_iff.mp hstore).1
  · intro hfits
    exact ⟨m.data, m.store_eq_some_iff.mpr ⟨hfits, rfl⟩, Sdk.decodeMandate_data hfits,
      App.decodeMandateAccount_data hfits⟩

end Veto
