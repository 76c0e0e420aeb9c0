import Veto.Foundation.Utf16
import Veto.Foundation.Utf8

/-!
# Percent encoding

`encodeURIComponent` and `decodeURIComponent`.  A character is left alone or written as the escaped
octets of its UTF-8 encoding; what is encoded is decoded again, and uses few characters.
-/

namespace Veto.Foundation

/-! ## Encoding -/

/-- Letters, digits and `-_.!~*'()`. -/
def isUnescaped (c : Char) : Bool :=
  (0x61 ≤ c.toNat && c.toNat ≤ 0x7a) || (0x41 ≤ c.toNat && c.toNat ≤ 0x5a) ||
    (0x30 ≤ c.toNat && c.toNat ≤ 0x39) ||
    [0x2d, 0x5f, 0x2e, 0x21, 0x7e, 0x2a, 0x27, 0x28, 0x29].contains c.toNat

def hexDigit (n : Nat) : UInt16 := UInt16.ofNat (if n < 10 then 0x30 + n else 0x37 + n)

def percentByte (b : UInt8) : JsString := [0x25, hexDigit (b.toNat / 16), hexDigit (b.toNat % 16)]

def encodeChar (c : Char) : JsString :=
  if isUnescaped c then utf16Units c else (String.utf8EncodeChar c).flatMap percentByte

def encodeText (text : Text) : JsString := text.flatMap encodeChar

/-- An unpaired surrogate is a `URIError`. -/
def encodeURIComponent (s : JsString) : Option JsString := (decodeUtf16 s).map encodeText

/-! ## Decoding -/

def hexValue? (unit : UInt16) : Option Nat :=
  if 0x30 ≤ unit ∧ unit ≤ 0x39 then some (unit.toNat - 0x30)
  else if 0x41 ≤ unit ∧ unit ≤ 0x46 then some (unit.toNat - 0x37)
  else if 0x61 ≤ unit ∧ unit ≤ 0x66 then some (unit.toNat - 0x57)
  else none

/-- The octet of an escape, behind its `%`. -/
def escapedByte : JsString → Option (UInt8 × JsString)
  | high :: low :: rest => do
      return (UInt8.ofNat (16 * (← hexValue? high) + (← hexValue? low)), rest)
  | _ => none

/-- How many octets the first one announces. -/
def octetCount (first : UInt8) : Option Nat :=
  if first < 0x80 then some 1
  else if first < 0xc0 then none
  else if first < 0xe0 then some 2
  else if first < 0xf0 then some 3
  else if first < 0xf8 then some 4
  else none

def escapedBytes : Nat → JsString → Option (Bytes × JsString)
  | 0, rest => some ([], rest)
  | n + 1, unit :: rest =>
      if unit = 0x25 then do
        let (b, rest) ← escapedByte rest
        let (bytes, rest) ← escapedBytes n rest
        return (b :: bytes, rest)
      else none
  | _ + 1, [] => none

/-- The character that the octets encode. -/
def octetsChar (octets : Bytes) : Option Char :=
  (charAt octets).filter fun c => c.utf8Size = octets.length

/-- Decode what is at most `fuel` units long. -/
def decodeFrom : Nat → JsString → Option JsString
  | _, [] => some []
  | 0, _ :: _ => none
  | fuel + 1, unit :: rest =>
      if unit = 0x25 then do
        let (first, rest) ← escapedByte rest
        let (more, rest) ← escapedBytes ((← octetCount first) - 1) rest
        let c ← octetsChar (first :: more)
        (decodeFrom fuel rest).map (utf16Units c ++ ·)
      else (decodeFrom fuel rest).map (unit :: ·)

/-- A malformed escape is a `URIError`. -/
def decodeURIComponent (s : JsString) : Option JsString := decodeFrom s.length s

/-! ## Decoding what was encoded -/

theorem hexValue_hexDigit {n : Nat} (h : n < 16) : hexValue? (hexDigit n) = some n := by
  revert n
  decide

theorem escapedByte_percentByte (b : UInt8) (rest : JsString) :
    escapedByte (hexDigit (b.toNat / 16) :: hexDigit (b.toNat % 16) :: rest) = some (b, rest) := by
  have hlt := b.toNat_lt
  have hvalue : 16 * (b.toNat / 16) + b.toNat % 16 = b.toNat := by omega
  simp only [escapedByte, hexValue_hexDigit (show b.toNat / 16 < 16 by omega),
    hexValue_hexDigit (show b.toNat % 16 < 16 by omega), Option.bind_eq_bind, Option.bind_some,
    hvalue, UInt8.ofNat_toNat, Option.pure_def]

theorem escapedBytes_percentBytes (bytes : Bytes) (rest : JsString) :
    escapedBytes bytes.length (bytes.flatMap percentByte ++ rest) = some (bytes, rest) := by
  induction bytes with
  | nil => rfl
  | cons b bytes ih =>
      rw [List.flatMap_cons, percentByte, List.length_cons]
      simp only [List.cons_append, List.nil_append, escapedBytes, if_true, escapedByte_percentByte,
        ih, Option.bind_eq_bind, Option.bind_some, Option.pure_def]

/-- The first octet announces the others. -/
theorem octetCount_encode (c : Char) : ∃ first more, String.utf8EncodeChar c = first :: more ∧
    octetCount first = some (more.length + 1) := by
  have hrange := char_toNat_range c
  change c.val.toNat < _ ∨ _ < c.val.toNat ∧ c.val.toNat < _ at hrange
  have hbyte : ∀ n, n < 256 → (UInt8.ofNat n).toNat = n := fun n hn => UInt8.toNat_ofNat_of_lt' hn
  unfold String.utf8EncodeChar
  dsimp only
  split
  · next h1 =>
    refine ⟨_, _, rfl, ?_⟩
    simp only [octetCount, UInt8.lt_iff_toNat_lt, hbyte c.val.toNat (by omega), UInt8.reduceToNat]
    rw [if_pos (by omega)]
    rfl
  split
  · next h1 h2 =>
    refine ⟨_, _, rfl, ?_⟩
    simp only [octetCount, UInt8.lt_iff_toNat_lt, hbyte (c.val.toNat / 64 % 0x20 + 0xc0) (by omega),
      UInt8.reduceToNat]
    rw [if_neg (by omega), if_neg (by omega), if_pos (by omega)]
    rfl
  split
  · next h1 h2 h3 =>
    refine ⟨_, _, rfl, ?_⟩
    simp only [octetCount, UInt8.lt_iff_toNat_lt,
      hbyte (c.val.toNat / 4096 % 0x10 + 0xe0) (by omega), UInt8.reduceToNat]
    rw [if_neg (by omega), if_neg (by omega), if_neg (by omega), if_pos (by omega)]
    rfl
  · next h1 h2 h3 =>
    refine ⟨_, _, rfl, ?_⟩
    simp only [octetCount, UInt8.lt_iff_toNat_lt,
      hbyte (c.val.toNat / 262144 % 0x08 + 0xf0) (by omega), UInt8.reduceToNat]
    rw [if_neg (by omega), if_neg (by omega), if_neg (by omega), if_neg (by omega),
      if_pos (by omega)]
    rfl

theorem octetsChar_encode (c : Char) : octetsChar (String.utf8EncodeChar c) = some c := by
  have hchar := charAt_encode c []
  rw [List.append_nil] at hchar
  rw [octetsChar, hchar, Option.filter_some, String.length_utf8EncodeChar, if_pos (by simp)]

/-- An unescaped character is one unit, and not `%`. -/
theorem isUnescaped_unit {c : Char} (h : isUnescaped c = true) :
    c.toNat < 0x7f ∧ c.toNat ≠ 0x25 ∧ utf16Units c = [UInt16.ofNat c.toNat] := by
  have hbounds : c.toNat < 0x7f ∧ c.toNat ≠ 0x25 := by
    simp only [isUnescaped, Bool.or_eq_true, Bool.and_eq_true, decide_eq_true_eq,
      List.contains_iff_mem, List.mem_cons, List.not_mem_nil, or_false] at h
    omega
  refine ⟨hbounds.1, hbounds.2, ?_⟩
  rw [utf16Units, if_pos (by omega)]

theorem decodeFrom_encodeText (text : Text) {fuel : Nat} (hfuel : (encodeText text).length ≤ fuel) :
    decodeFrom fuel (encodeText text) = some (utf16 text) := by
  induction text generalizing fuel with
  | nil => cases fuel <;> rfl
  | cons c text ih =>
      have hsplit : encodeText (c :: text) = encodeChar c ++ encodeText text := List.flatMap_cons
      rw [hsplit, List.length_append] at hfuel
      rw [hsplit, utf16_cons]
      unfold encodeChar at hfuel ⊢
      split at hfuel
      · next hc =>
        obtain ⟨hlt, hne, hunits⟩ := isUnescaped_unit hc
        have hunit : UInt16.ofNat c.toNat ≠ 0x25 := by
          intro heq
          have hvalue := congrArg UInt16.toNat heq
          rw [UInt16.toNat_ofNat_of_lt' (by change _ < 65536; omega)] at hvalue
          exact hne hvalue
        rw [hunits, List.length_singleton] at hfuel
        obtain ⟨fuel, rfl⟩ : ∃ n, fuel = n + 1 := ⟨fuel - 1, by omega⟩
        rw [if_pos hc, hunits, List.singleton_append, decodeFrom, if_neg hunit, ih (by omega)]
        rfl
      · next hc =>
        obtain ⟨first, more, hbytes, hcount⟩ := octetCount_encode c
        have hchar := octetsChar_encode c
        rw [hbytes] at hchar hfuel
        rw [List.flatMap_cons, percentByte, List.cons_append, List.length_cons] at hfuel
        obtain ⟨fuel, rfl⟩ : ∃ n, fuel = n + 1 := ⟨fuel - 1, by omega⟩
        rw [if_neg hc, hbytes, List.flatMap_cons, percentByte]
        simp only [List.cons_append, List.nil_append, decodeFrom, if_true, escapedByte_percentByte,
          hcount, Nat.add_sub_cancel, escapedBytes_percentBytes, hchar, ih (show _ ≤ fuel by omega),
          Option.bind_eq_bind, Option.bind_some, Option.map_some]

/-- **What is encoded is decoded.** -/
theorem decodeURIComponent_encode {s encoded : JsString} (h : encodeURIComponent s = some encoded) :
    decodeURIComponent encoded = some s := by
  obtain ⟨text, htext, rfl⟩ := Option.map_eq_some_iff.mp h
  rw [decodeURIComponent, decodeFrom_encodeText text (Nat.le_refl _), utf16_of_decode htext]

/-- A text of unescaped characters is its own encoding. -/
theorem encodeURIComponent_unescaped {text : Text} (h : text.all isUnescaped = true) :
    encodeURIComponent (utf16 text) = some (utf16 text) := by
  rw [encodeURIComponent, decodeUtf16_utf16, Option.map_some]
  refine congrArg some (List.flatMap_congr fun c hc => ?_)
  rw [encodeChar, if_pos (List.all_eq_true.mp h c hc)]

/-- A well-formed string is encoded. -/
theorem encodeURIComponent_isSome {s : JsString} (h : isWellFormedUtf16 s = true) :
    (encodeURIComponent s).isSome = true := by
  obtain ⟨text, rfl⟩ := isWellFormedUtf16_iff.mp h
  rw [encodeURIComponent, decodeUtf16_utf16]
  rfl

/-! ## The characters of an encoding -/

/-- A unit that an encoding has. -/
def isEncoded (unit : UInt16) : Bool := unit = 0x25 || isUnescaped (Char.ofNat unit.toNat)

theorem isEncoded_hexDigit {n : Nat} (h : n < 16) : isEncoded (hexDigit n) = true := by
  revert n
  decide

theorem isEncoded_encodeText {text : Text} {unit : UInt16} (h : unit ∈ encodeText text) :
    isEncoded unit = true := by
  obtain ⟨c, -, hc⟩ := List.mem_flatMap.mp h
  unfold encodeChar at hc
  split at hc
  · next hunescaped =>
    obtain ⟨hlt, -, hunits⟩ := isUnescaped_unit hunescaped
    rw [hunits, List.mem_singleton] at hc
    rw [hc, isEncoded, UInt16.toNat_ofNat_of_lt' (by change _ < 65536; omega), Char.ofNat_toNat,
      hunescaped, Bool.or_true]
  · obtain ⟨b, -, hb⟩ := List.mem_flatMap.mp hc
    have hlt := b.toNat_lt
    simp only [percentByte, List.mem_cons, List.not_mem_nil, or_false] at hb
    rcases hb with rfl | rfl | rfl
    · rfl
    · exact isEncoded_hexDigit (by omega)
    · exact isEncoded_hexDigit (by omega)

end Veto.Foundation
