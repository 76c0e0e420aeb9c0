import Veto.Foundation.Bytes
import Veto.Foundation.Text

/-!
# UTF-8 text in a buffer

`Buffer.toString("utf8")`: the characters of the bytes, with a replacement character for
each longest part that begins a character and does not end it.
-/

namespace Veto.Foundation

/-- The character at the head of a buffer. -/
def charAt (data : Bytes) : Option Char := (data.take 4).toByteArray.utf8DecodeChar? 0

def isContinuation (b : UInt8) : Bool := 0x80 ≤ b && b ≤ 0xbf

/-- The second bytes that a first byte allows. -/
def allowsSecond (first second : UInt8) : Bool :=
  isContinuation second && (first ≠ 0xe0 || 0xa0 ≤ second) && (first ≠ 0xed || second ≤ 0x9f) &&
    (first ≠ 0xf0 || 0x90 ≤ second) && (first ≠ 0xf4 || second ≤ 0x8f)

/-- How many bytes after the first are replaced with it, where no character begins. -/
def brokenTail (first : UInt8) (rest : Bytes) : Nat :=
  if 0xe0 ≤ first ∧ first ≤ 0xef then
    match rest with
    | second :: _ => if allowsSecond first second then 1 else 0
    | [] => 0
  else if 0xf0 ≤ first ∧ first ≤ 0xf4 then
    match rest with
    | second :: third :: _ =>
        if allowsSecond first second then if isContinuation third then 2 else 1 else 0
    | [second] => if allowsSecond first second then 1 else 0
    | [] => 0
  else 0

/-- Decode after `skip` bytes that belong to a character already read. -/
def decodeUtf8 : (skip : Nat) → Bytes → Text
  | _, [] => []
  | skip + 1, _ :: rest => decodeUtf8 skip rest
  | 0, first :: rest =>
    match charAt (first :: rest) with
    | some c => c :: decodeUtf8 (c.utf8Size - 1) rest
    | none => '\ufffd' :: decodeUtf8 (brokenTail first rest) rest

def utf8Text (data : Bytes) : String := String.ofList (decodeUtf8 0 data)

/-- The bytes of a string. -/
def utf8Bytes (s : String) : Bytes := s.toList.flatMap String.utf8EncodeChar

theorem utf8Bytes_eq (s : String) : s.toUTF8.data.toList = utf8Bytes s := by
  rw [String.toUTF8_eq_toByteArray, ← String.utf8Encode_toList, List.utf8Encode,
    List.data_toByteArray, utf8Bytes]

theorem length_utf8Bytes (s : String) : (utf8Bytes s).length = s.utf8ByteSize := by
  rw [← utf8Bytes_eq, Array.length_toList]
  rfl

theorem length_utf8Bytes_le (s : String) : (utf8Bytes s).length ≤ 4 * s.length := by
  have hchars : ∀ chars : Text, (chars.flatMap String.utf8EncodeChar).length ≤ 4 * chars.length := by
    intro chars
    induction chars with
    | nil => rfl
    | cons c chars ih =>
        have hc := c.utf8Size_le_four
        rw [List.flatMap_cons, List.length_append, String.length_utf8EncodeChar, List.length_cons]
        omega
  exact String.length_toList ▸ hchars s.toList

theorem decodeUtf8_skip (bytes rest : Bytes) :
    decodeUtf8 bytes.length (bytes ++ rest) = decodeUtf8 0 rest := by
  induction bytes with
  | nil => rfl
  | cons b bytes ih => exact ih

theorem charAt_encode (c : Char) (rest : Bytes) :
    charAt (String.utf8EncodeChar c ++ rest) = some c := by
  have hsize : (String.utf8EncodeChar c).length ≤ 4 := by
    rw [String.length_utf8EncodeChar]
    exact c.utf8Size_le_four
  rw [charAt, List.take_append, List.take_of_length_le hsize, List.toByteArray_append]
  exact ByteArray.utf8DecodeChar?_utf8EncodeChar_append

theorem decodeUtf8_encode (c : Char) (rest : Bytes) :
    decodeUtf8 0 (String.utf8EncodeChar c ++ rest) = c :: decodeUtf8 0 rest := by
  have hread := charAt_encode c rest
  have hsize := String.length_utf8EncodeChar c
  have hpos := c.utf8Size_pos
  cases hbytes : String.utf8EncodeChar c with
  | nil =>
      rw [hbytes] at hsize
      simp only [List.length_nil] at hsize
      omega
  | cons first more =>
      rw [hbytes, List.cons_append] at hread
      rw [hbytes, List.length_cons] at hsize
      rw [List.cons_append, decodeUtf8, hread]
      have hmore : c.utf8Size - 1 = more.length := by omega
      simp only [hmore, decodeUtf8_skip]

/-- A string is read back from its bytes. -/
theorem utf8Text_bytes (s : String) : utf8Text (utf8Bytes s) = s := by
  have hchars : ∀ chars : Text, decodeUtf8 0 (chars.flatMap String.utf8EncodeChar) = chars := by
    intro chars
    induction chars with
    | nil => rfl
    | cons c chars ih => rw [List.flatMap_cons, decodeUtf8_encode, ih]
  rw [utf8Text, utf8Bytes, hchars, String.ofList_toList]

end Veto.Foundation
