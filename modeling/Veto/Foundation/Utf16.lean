import Veto.Foundation.Text
import Mathlib.Data.List.Induction

/-!
# JavaScript strings

A JavaScript string is a list of UTF-16 code units.  A text is written with one unit for each
character of the basic plane and a pair of surrogates for any other; a string that is not written
so has an unpaired surrogate.
-/

namespace Veto.Foundation

/-- The code units of a string. -/
abbrev JsString := List UInt16

/-! ## Texts as strings -/

def utf16Units (c : Char) : JsString :=
  if c.toNat < 0x10000 then [UInt16.ofNat c.toNat]
  else [UInt16.ofNat (0xd800 + (c.toNat - 0x10000) / 0x400),
        UInt16.ofNat (0xdc00 + (c.toNat - 0x10000) % 0x400)]

def utf16 (text : Text) : JsString := text.flatMap utf16Units

/-- A literal. -/
def js (s : String) : JsString := utf16 s.toList

/-- The character of a pair of surrogates. -/
def pairChar (high low : UInt16) : Char :=
  Char.ofNat (0x10000 + (high.toNat - 0xd800) * 0x400 + (low.toNat - 0xdc00))

def isSurrogate (unit : UInt16) : Bool := 0xd800 ≤ unit && unit ≤ 0xdfff

def isPair (unit next : UInt16) : Bool :=
  0xd800 ≤ unit && unit ≤ 0xdbff && 0xdc00 ≤ next && next ≤ 0xdfff

/-- The characters of a string without an unpaired surrogate. -/
def decodeUtf16 : JsString → Option Text
  | [] => some []
  | unit :: rest =>
      if isSurrogate unit then
        match rest with
        | [] => none
        | next :: rest =>
            if isPair unit next then (decodeUtf16 rest).map (pairChar unit next :: ·) else none
      else (decodeUtf16 rest).map (Char.ofNat unit.toNat :: ·)

/-- The characters of a string as `Buffer.from(value, "utf8")` writes them: U+FFFD stands for an
unpaired surrogate. -/
def lossyUtf16 : JsString → Text
  | [] => []
  | [unit] => [if isSurrogate unit then '\ufffd' else Char.ofNat unit.toNat]
  | unit :: next :: rest =>
      if isPair unit next then pairChar unit next :: lossyUtf16 rest
      else (if isSurrogate unit then '\ufffd' else Char.ofNat unit.toNat) :: lossyUtf16 (next :: rest)

/-! ## What the source asks of a string -/

/-- Lone surrogates are not UTF-8. -/
def isWellFormedUtf16 : JsString → Bool
  | [] => true
  | unit :: rest =>
      if unit < 0xd800 || 0xdfff < unit then isWellFormedUtf16 rest
      else if 0xdc00 ≤ unit then false
      else
        match rest with
        | [] => false
        | next :: rest =>
            if next < 0xdc00 || 0xdfff < next then false else isWellFormedUtf16 rest

/-- `[...value].length`. -/
def codePointLength : JsString → Nat
  | [] => 0
  | [_] => 1
  | unit :: next :: rest =>
      if isPair unit next then codePointLength rest + 1 else codePointLength (next :: rest) + 1

/-- `Buffer.byteLength(value, "utf8")`; an unpaired surrogate takes three bytes. -/
def byteLength : JsString → Nat
  | [] => 0
  | [unit] => if unit < 0x80 then 1 else if unit < 0x800 then 2 else 3
  | unit :: next :: rest =>
      if isPair unit next then byteLength rest + 4
      else byteLength (next :: rest) + if unit < 0x80 then 1 else if unit < 0x800 then 2 else 3

/-! ## Reading a text back -/

@[simp] theorem utf16_nil : utf16 [] = [] := rfl

@[simp] theorem utf16_cons (c : Char) (text : Text) :
    utf16 (c :: text) = utf16Units c ++ utf16 text := List.flatMap_cons

section Units

variable {unit next : UInt16} {rest : JsString}

theorem isSurrogate_iff : isSurrogate unit = true ↔ 0xd800 ≤ unit.toNat ∧ unit.toNat ≤ 0xdfff := by
  simp [isSurrogate, UInt16.le_iff_toNat_le]

theorem isPair_iff : isPair unit next = true ↔ (0xd800 ≤ unit.toNat ∧ unit.toNat ≤ 0xdbff) ∧
    0xdc00 ≤ next.toNat ∧ next.toNat ≤ 0xdfff := by
  simp [isPair, UInt16.le_iff_toNat_le, and_assoc]

theorem isSurrogate_of_isPair (h : isPair unit next = true) : isSurrogate unit = true := by
  rw [isPair_iff] at h
  rw [isSurrogate_iff]
  omega

theorem decodeUtf16_unit (h : isSurrogate unit = false) :
    decodeUtf16 (unit :: rest) = (decodeUtf16 rest).map (Char.ofNat unit.toNat :: ·) := by
  cases rest <;> simp [decodeUtf16, h]

theorem decodeUtf16_pair (h : isPair unit next = true) :
    decodeUtf16 (unit :: next :: rest) = (decodeUtf16 rest).map (pairChar unit next :: ·) := by
  simp [decodeUtf16, h, isSurrogate_of_isPair h]

theorem decodeUtf16_unpaired (h : isSurrogate unit = true)
    (hnext : ∀ next ∈ rest.head?, isPair unit next = false) :
    decodeUtf16 (unit :: rest) = none := by
  cases rest with
  | nil => simp [decodeUtf16, h]
  | cons next rest => simp [decodeUtf16, h, hnext next rfl]

end Units

/-- A character is outside the surrogates. -/
theorem char_toNat_range (c : Char) :
    c.toNat < 0xd800 ∨ (0xdfff < c.toNat ∧ c.toNat < 0x110000) := by
  have hvalid := c.valid
  rw [UInt32.isValidChar, Nat.isValidChar] at hvalid
  exact hvalid

theorem toNat_ofNat_of_valid {n : Nat} (h : n.isValidChar) : (Char.ofNat n).toNat = n := by
  rw [Char.ofNat, dif_pos h]
  rfl

/-- How the units of a character are made. -/
theorem utf16Units_cases (c : Char) :
    (∃ unit : UInt16, utf16Units c = [unit] ∧ isSurrogate unit = false ∧ unit.toNat = c.toNat) ∨
      ∃ unit next : UInt16, utf16Units c = [unit, next] ∧ isPair unit next = true ∧
        pairChar unit next = c := by
  have hrange := char_toNat_range c
  unfold utf16Units
  by_cases hsmall : c.toNat < 0x10000
  · have hunit : (UInt16.ofNat c.toNat).toNat = c.toNat := UInt16.toNat_ofNat_of_lt' hsmall
    refine .inl ⟨_, if_pos hsmall, ?_, hunit⟩
    rw [← Bool.not_eq_true, isSurrogate_iff, hunit]
    omega
  · have hhigh : (UInt16.ofNat (0xd800 + (c.toNat - 0x10000) / 0x400)).toNat =
        0xd800 + (c.toNat - 0x10000) / 0x400 :=
      UInt16.toNat_ofNat_of_lt' (by change _ < 65536; omega)
    have hlow : (UInt16.ofNat (0xdc00 + (c.toNat - 0x10000) % 0x400)).toNat =
        0xdc00 + (c.toNat - 0x10000) % 0x400 :=
      UInt16.toNat_ofNat_of_lt' (by change _ < 65536; omega)
    refine .inr ⟨_, _, if_neg hsmall, ?_, ?_⟩
    · rw [isPair_iff, hhigh, hlow]
      omega
    · have hvalue : 0x10000 + (0xd800 + (c.toNat - 0x10000) / 0x400 - 0xd800) * 0x400 +
          (0xdc00 + (c.toNat - 0x10000) % 0x400 - 0xdc00) = c.toNat := by omega
      rw [pairChar, hhigh, hlow, hvalue, Char.ofNat_toNat]

theorem decodeUtf16_units (c : Char) (rest : JsString) :
    decodeUtf16 (utf16Units c ++ rest) = (decodeUtf16 rest).map (c :: ·) := by
  rcases utf16Units_cases c with ⟨unit, hunits, hplain, hvalue⟩ | ⟨unit, next, hunits, hpair, hchar⟩
  · rw [hunits, List.singleton_append, decodeUtf16_unit hplain, hvalue, Char.ofNat_toNat]
  · rw [hunits, List.cons_append, List.singleton_append, decodeUtf16_pair hpair, hchar]

theorem decodeUtf16_utf16 (text : Text) : decodeUtf16 (utf16 text) = some text := by
  induction text with
  | nil => rfl
  | cons c text ih => rw [utf16_cons, decodeUtf16_units, ih, Option.map_some]

/-- The character of a unit that is no surrogate. -/
theorem toNat_unitChar {unit : UInt16} (h : isSurrogate unit = false) :
    (Char.ofNat unit.toNat).toNat = unit.toNat := by
  have hlt := unit.toNat_lt
  rw [← Bool.not_eq_true, isSurrogate_iff] at h
  apply toNat_ofNat_of_valid
  simp only [Nat.isValidChar]
  omega

theorem utf16Units_unit {unit : UInt16} (h : isSurrogate unit = false) :
    utf16Units (Char.ofNat unit.toNat) = [unit] := by
  have hlt := unit.toNat_lt
  rw [utf16Units, toNat_unitChar h, if_pos (by omega), UInt16.ofNat_toNat]

/-- The character of a pair is outside the basic plane. -/
theorem toNat_pairChar {unit next : UInt16} (h : isPair unit next = true) :
    (pairChar unit next).toNat =
      0x10000 + (unit.toNat - 0xd800) * 0x400 + (next.toNat - 0xdc00) := by
  rw [isPair_iff] at h
  apply toNat_ofNat_of_valid
  simp only [Nat.isValidChar]
  omega

theorem utf16Units_pair {unit next : UInt16} (h : isPair unit next = true) :
    utf16Units (pairChar unit next) = [unit, next] := by
  have hchar := toNat_pairChar h
  rw [isPair_iff] at h
  have hhigh : 0xd800 + (0x10000 + (unit.toNat - 0xd800) * 0x400 + (next.toNat - 0xdc00) -
      0x10000) / 0x400 = unit.toNat := by omega
  have hlow : 0xdc00 + (0x10000 + (unit.toNat - 0xd800) * 0x400 + (next.toNat - 0xdc00) -
      0x10000) % 0x400 = next.toNat := by omega
  rw [utf16Units, hchar, if_neg (by omega), hhigh, hlow, UInt16.ofNat_toNat, UInt16.ofNat_toNat]

/-- The characters of a string write it again. -/
theorem utf16_of_decode {s : JsString} {text : Text} (h : decodeUtf16 s = some text) :
    utf16 text = s := by
  fun_induction decodeUtf16 s generalizing text with
  | case1 =>
      cases h
      rfl
  | case2 => cases h
  | case3 unit _ next rest hpair ih =>
      obtain ⟨text, hrest, rfl⟩ := Option.map_eq_some_iff.mp h
      rw [utf16_cons, utf16Units_pair hpair, ih hrest, List.cons_append, List.singleton_append]
  | case4 => cases h
  | case5 unit rest hplain ih =>
      obtain ⟨text, hrest, rfl⟩ := Option.map_eq_some_iff.mp h
      rw [utf16_cons, utf16Units_unit (Bool.not_eq_true _ ▸ hplain), ih hrest, List.singleton_append]

theorem decodeUtf16_eq_some {s : JsString} {text : Text} :
    decodeUtf16 s = some text ↔ utf16 text = s := by
  constructor
  · exact utf16_of_decode
  · rintro rfl
    exact decodeUtf16_utf16 text

/-- A string is well formed when it writes a text. -/
theorem isWellFormedUtf16_iff {s : JsString} :
    isWellFormedUtf16 s = true ↔ ∃ text, utf16 text = s := by
  have hdecodes : isWellFormedUtf16 s = (decodeUtf16 s).isSome := by
    have hsurrogate : ∀ unit : UInt16, (isSurrogate unit = true ↔
        ¬ (unit < 0xd800 || 0xdfff < unit) = true) := by
      intro unit
      simp only [isSurrogate_iff, Bool.or_eq_true, decide_eq_true_eq, UInt16.lt_iff_toNat_lt,
        UInt16.reduceToNat]
      omega
    have hpair : ∀ unit next : UInt16, isSurrogate unit = true → (isPair unit next = true ↔
        ¬ 0xdc00 ≤ unit ∧ ¬ (next < 0xdc00 || 0xdfff < next) = true) := by
      intro unit next hunit
      rw [isSurrogate_iff] at hunit
      simp only [isPair_iff, Bool.or_eq_true, decide_eq_true_eq, UInt16.lt_iff_toNat_lt,
        UInt16.le_iff_toNat_le, UInt16.reduceToNat]
      omega
    fun_induction isWellFormedUtf16 s with
    | case1 => rfl
    | case2 unit rest hplain ih =>
        have hunit : isSurrogate unit = false := by
          rw [← Bool.not_eq_true, hsurrogate, not_not]
          exact hplain
        rw [decodeUtf16_unit hunit, Option.isSome_map, ih]
    | case3 unit rest hunit hlow =>
        rw [decodeUtf16_unpaired ((hsurrogate unit).mpr hunit)]
        · rfl
        · intro next _
          rw [← Bool.not_eq_true, hpair unit next ((hsurrogate unit).mpr hunit)]
          exact fun h => h.1 hlow
    | case4 unit hunit =>
        rw [decodeUtf16_unpaired ((hsurrogate unit).mpr hunit) (by simp)]
        rfl
    | case5 unit hunit hhigh next rest hnext =>
        rw [decodeUtf16_unpaired ((hsurrogate unit).mpr hunit)]
        · rfl
        · rintro _ ⟨⟩
          rw [← Bool.not_eq_true, hpair unit next ((hsurrogate unit).mpr hunit)]
          exact fun h => h.2 hnext
    | case6 unit hunit hhigh next rest hnext ih =>
        rw [decodeUtf16_pair ((hpair unit next ((hsurrogate unit).mpr hunit)).mpr ⟨hhigh, hnext⟩),
          Option.isSome_map, ih]
  rw [hdecodes, Option.isSome_iff_exists]
  simp only [decodeUtf16_eq_some]

/-! ## Writing a string that is not well formed -/

/-- A string that writes a text is written as that text. -/
theorem lossyUtf16_of_decode {s : JsString} {text : Text} (h : decodeUtf16 s = some text) :
    lossyUtf16 s = text := by
  fun_induction lossyUtf16 s generalizing text with
  | case1 =>
      cases h
      rfl
  | case2 unit =>
      cases hunit : isSurrogate unit with
      | true =>
          rw [decodeUtf16_unpaired hunit (by simp)] at h
          cases h
      | false =>
          rw [decodeUtf16_unit hunit] at h
          cases h
          rfl
  | case3 unit next rest hpair ih =>
      rw [decodeUtf16_pair hpair] at h
      obtain ⟨tail, htail, rfl⟩ := Option.map_eq_some_iff.mp h
      rw [ih htail]
  | case4 unit next rest hpair ih =>
      cases hunit : isSurrogate unit with
      | true =>
          rw [decodeUtf16_unpaired hunit] at h
          · cases h
          · rintro _ ⟨⟩
            exact Bool.not_eq_true _ ▸ hpair
      | false =>
          rw [decodeUtf16_unit hunit] at h
          obtain ⟨tail, htail, rfl⟩ := Option.map_eq_some_iff.mp h
          rw [ih htail]
          rfl

/-- What is written is read as the same string exactly when the string is well formed. -/
theorem utf16_lossy_iff {s : JsString} :
    utf16 (lossyUtf16 s) = s ↔ isWellFormedUtf16 s = true := by
  rw [isWellFormedUtf16_iff]
  constructor
  · intro h
    exact ⟨_, h⟩
  · rintro ⟨text, htext⟩
    rw [lossyUtf16_of_decode (decodeUtf16_eq_some.mpr htext)]
    exact htext

/-- A character is written for each code point, paired or not. -/
theorem length_lossyUtf16 (s : JsString) : (lossyUtf16 s).length = codePointLength s := by
  fun_induction lossyUtf16 s with
  | case1 => rfl
  | case2 => rfl
  | case3 unit next rest hpair ih => rw [List.length_cons, ih, codePointLength, if_pos hpair]
  | case4 unit next rest hpair ih => rw [List.length_cons, ih, codePointLength, if_neg hpair]

theorem codePointLength_le (s : JsString) : codePointLength s ≤ s.length := by
  fun_induction codePointLength s with
  | case1 => exact Nat.le_refl 0
  | case2 => exact Nat.le_refl 1
  | case3 _ _ rest _ ih =>
      simp only [List.length_cons]
      omega
  | case4 _ _ rest _ ih =>
      simp only [List.length_cons] at ih ⊢
      omega

theorem js_wellFormed (s : String) : isWellFormedUtf16 (js s) = true :=
  isWellFormedUtf16_iff.mpr ⟨s.toList, rfl⟩

end Veto.Foundation
