import Veto.Foundation.Cursor
import Veto.Foundation.Utf8

/-!
# Records as bytes

A writer fills a buffer of zeros field by field, each at its own offset.  A Borsh reader takes the
fields in the order of their declaration: numbers little-endian, byte arrays as they are, texts
after their length.  Where the offsets follow one another, the reader takes what the writer wrote.
-/

namespace Veto.Foundation

/-! ## Filling a buffer -/

/-- `part.copy(buf, off)`. -/
def copyTo (buf : Bytes) (off : Nat) (part : Bytes) : Bytes :=
  buf.take off ++ (part ++ buf.drop (off + part.length))

/-- Copies in order into a buffer of `size` zeros. -/
def fill (size : Nat) (parts : List (Nat × Bytes)) : Bytes :=
  parts.foldl (fun buf part => copyTo buf part.1 part.2) (List.replicate size 0)

/-- Each part begins where the one before it ends. -/
def Consecutive : Nat → List (Nat × Bytes) → Prop
  | _, [] => True
  | off, part :: parts => part.1 = off ∧ Consecutive (off + part.2.length) parts

/-- A part at the end of what is written leaves the rest of the zeros. -/
theorem copyTo_next (front part : Bytes) (n : Nat) :
    copyTo (front ++ List.replicate (part.length + n) 0) front.length part =
      (front ++ part) ++ List.replicate n 0 := by
  have hdrop : (front ++ List.replicate (part.length + n) (0 : UInt8)).drop
      (front.length + part.length) = List.replicate n 0 := by
    rw [← List.drop_drop, List.drop_left, List.drop_replicate, Nat.add_sub_cancel_left]
  rw [copyTo, List.take_left, hdrop, List.append_assoc]

theorem foldl_copyTo {front : Bytes} {parts : List (Nat × Bytes)}
    (h : Consecutive front.length parts) (n : Nat) :
    parts.foldl (fun buf part => copyTo buf part.1 part.2)
        (front ++ List.replicate ((parts.flatMap Prod.snd).length + n) 0) =
      front ++ parts.flatMap Prod.snd ++ List.replicate n 0 := by
  induction parts generalizing front with
  | nil => simp
  | cons part parts ih =>
      obtain ⟨off, bytes⟩ := part
      obtain ⟨hoff, hrest⟩ := h
      dsimp only at hoff hrest
      subst hoff
      have hlength : ((⟨front.length, bytes⟩ :: parts).flatMap Prod.snd).length + n =
          bytes.length + ((parts.flatMap Prod.snd).length + n) := by
        rw [List.flatMap_cons, List.length_append, Nat.add_assoc]
      rw [← List.length_append] at hrest
      rw [List.foldl_cons, hlength, copyTo_next, ih hrest, List.flatMap_cons]
      simp only [List.append_assoc]

/-- A buffer of the right size is the parts one after the other. -/
theorem fill_eq {size : Nat} {parts : List (Nat × Bytes)} (h : Consecutive 0 parts)
    (hsize : size = (parts.flatMap Prod.snd).length) :
    fill size parts = parts.flatMap Prod.snd := by
  have hall := foldl_copyTo (show Consecutive ([] : Bytes).length parts from h) 0
  rw [List.nil_append, Nat.add_zero, ← hsize, List.nil_append, List.replicate_zero,
    List.append_nil] at hall
  exact hall

/-! ## Reading a record -/

/-- Bytes that are not of the layout. -/
inductive BorshError
  | unexpectedEnd
  | invalidText
  deriving DecidableEq

namespace Borsh

/-- The next `n` bytes. -/
def bytes (n : Nat) : Cursor BorshError Bytes := Cursor.fixed n fun data off =>
  if off + n ≤ data.length then .ok (subarray data off (off + n)) else .error .unexpectedEnd

def u8 : Cursor BorshError UInt8 := do return UInt8.ofNat (ofLE (← bytes 1))

def u32 : Cursor BorshError UInt32 := do return UInt32.ofNat (ofLE (← bytes 4))

def u64 : Cursor BorshError UInt64 := do return UInt64.ofNat (ofLE (← bytes 8))

def i64 : Cursor BorshError Int64 := do return (UInt64.ofNat (ofLE (← bytes 8))).toInt64

/-- A text is read only if its bytes are UTF-8. -/
def text (data : Bytes) : Cursor BorshError String := fun _ off =>
  if utf8Bytes (utf8Text data) = data then .ok (utf8Text data, off) else .error .invalidText

def string : Cursor BorshError String := do
  let length ← u32
  let data ← bytes length.toNat
  text data

section Reads

theorem reads_bytes {part : Bytes} {n : Nat} (h : part.length = n) : Reads (bytes n) part part :=
  Reads.fixed h fun data off hbytes hstop => by rw [if_pos hstop, hbytes]

theorem reads_u8 (v : UInt8) : Reads u8 [v] v := by
  have hread : Reads u8 [v] (UInt8.ofNat (ofLE [v])) := (reads_bytes rfl).last
  rwa [show ofLE [v] = v.toNat by simp [ofLE], UInt8.ofNat_toNat] at hread

theorem reads_u32 (v : UInt32) : Reads u32 (toLE 4 v.toNat) v := by
  have hread : Reads u32 (toLE 4 v.toNat) (UInt32.ofNat (ofLE (toLE 4 v.toNat))) :=
    (reads_bytes (length_toLE 4 _)).last
  rwa [ofLE_toLE v.toNat_lt, UInt32.ofNat_toNat] at hread

theorem reads_u64 (v : UInt64) : Reads u64 (toLE 8 v.toNat) v := by
  have hread : Reads u64 (toLE 8 v.toNat) (UInt64.ofNat (ofLE (toLE 8 v.toNat))) :=
    (reads_bytes (length_toLE 8 _)).last
  rwa [ofLE_toLE v.toNat_lt, UInt64.ofNat_toNat] at hread

theorem reads_i64 (v : Int64) : Reads i64 (toLE 8 v.toUInt64.toNat) v := by
  have hread : Reads i64 (toLE 8 v.toUInt64.toNat)
      (UInt64.ofNat (ofLE (toLE 8 v.toUInt64.toNat))).toInt64 :=
    (reads_bytes (length_toLE 8 _)).last
  rwa [ofLE_toLE v.toUInt64.toNat_lt, UInt64.ofNat_toNat, Int64.toInt64_toUInt64] at hread

theorem reads_text (s : String) : Reads (text (utf8Bytes s)) [] s := by
  intro data off rest _ _
  rw [text, utf8Text_bytes, if_pos rfl]
  rfl

theorem reads_string {s : String} (h : (utf8Bytes s).length < 2 ^ 32) :
    Reads string (toLE 4 (utf8Bytes s).length ++ utf8Bytes s) s := by
  have hsize : (UInt32.ofNat (utf8Bytes s).length).toNat = (utf8Bytes s).length :=
    UInt32.toNat_ofNat_of_lt' h
  have hlength := reads_u32 (UInt32.ofNat (utf8Bytes s).length)
  rw [hsize] at hlength
  have hbody : Reads (bytes (UInt32.ofNat (utf8Bytes s).length).toNat >>= text)
      (utf8Bytes s ++ []) s := (reads_bytes hsize.symm).bind (reads_text s)
  rw [List.append_nil] at hbody
  exact hlength.bind hbody

end Reads

end Borsh

end Veto.Foundation
