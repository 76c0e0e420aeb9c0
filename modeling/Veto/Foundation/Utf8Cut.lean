import Veto.Foundation.Torn

/-!
# A text cut to a number of bytes

The bytes of a text are cut where a character ends: from the limit back over the bytes that
continue a character.  What is left decodes to the longest prefix of the text that fits.
-/

namespace Veto.Foundation

/-- How many bytes a text takes. -/
def utf8Length (text : Text) : Nat := (textBytes text).length

/-- `(b & 0xc0) === 0x80`. -/
def continues (b : UInt8) : Bool := b &&& 0xc0 = 0x80

/-- Back from `stop` to a byte that does not continue a character. -/
def characterStart (buf : Bytes) : (stop : Nat) → Nat
  | 0 => 0
  | stop + 1 => if continues (buf.getD (stop + 1) 0) then characterStart buf stop else stop + 1

/-- The longest prefix of a text that takes at most `room` bytes. -/
def fitting : (room : Nat) → Text → Text
  | _, [] => []
  | room, c :: text => if c.utf8Size ≤ room then c :: fitting (room - c.utf8Size) text else []

variable {text more : Text} {c : Char} {room : Nat}

@[simp] theorem utf8Length_nil : utf8Length [] = 0 := rfl

@[simp] theorem utf8Length_cons : utf8Length (c :: text) = c.utf8Size + utf8Length text := by
  rw [utf8Length, textBytes_cons, List.length_append, String.length_utf8EncodeChar, utf8Length]

@[simp] theorem utf8Length_append :
    utf8Length (text ++ more) = utf8Length text + utf8Length more := by
  rw [utf8Length, textBytes_append, List.length_append, utf8Length, utf8Length]

/-- A text of ASCII takes a byte for each character. -/
theorem utf8Length_ascii (h : ∀ c ∈ text, c.toNat < 0x80) : utf8Length text = text.length := by
  induction text with
  | nil => rfl
  | cons c text ih =>
      have hsize : c.utf8Size = 1 := by
        rcases utf8EncodeChar_cases c with ⟨-, hbytes⟩ | ⟨hhigh, -⟩
        · rw [← String.length_utf8EncodeChar, hbytes, List.length_singleton]
        · exact absurd (h c List.mem_cons_self) (Nat.not_lt.mpr hhigh)
      rw [utf8Length_cons, hsize, ih fun d hd => h d (List.mem_cons_of_mem _ hd), List.length_cons,
        Nat.add_comm]

/-! ## The longest prefix -/

theorem fitting_isPrefix : fitting room text <+: text := by
  induction text generalizing room with
  | nil => exact List.nil_prefix
  | cons c text ih =>
      rw [fitting]
      split_ifs
      · exact (List.prefix_cons_inj c).mpr ih
      · exact List.nil_prefix

theorem utf8Length_fitting : utf8Length (fitting room text) ≤ room := by
  induction text generalizing room with
  | nil => exact Nat.zero_le _
  | cons c text ih =>
      rw [fitting]
      split_ifs with hfits
      · have hrest := @ih (room - c.utf8Size)
        rw [utf8Length_cons]
        omega
      · exact Nat.zero_le _

/-- No longer prefix fits. -/
theorem prefix_fitting {front : Text} (h : front <+: text) (hroom : utf8Length front ≤ room) :
    front <+: fitting room text := by
  induction text generalizing room front with
  | nil => exact h
  | cons c text ih =>
      rcases List.prefix_cons_iff.mp h with rfl | ⟨front, rfl, hfront⟩
      · exact List.nil_prefix
      · rw [utf8Length_cons] at hroom
        rw [fitting, if_pos (by omega)]
        exact (List.prefix_cons_inj c).mpr (ih hfront (by omega))

/-- Where a text does not fit, the next character takes more than the room that is left. -/
theorem exists_next (h : room < utf8Length text) : ∃ c rest,
    text = fitting room text ++ c :: rest ∧ room < utf8Length (fitting room text) + c.utf8Size := by
  induction text generalizing room with
  | nil => exact absurd h (Nat.not_lt_zero room)
  | cons c text ih =>
      rw [utf8Length_cons] at h
      rw [fitting]
      split_ifs with hfits
      · obtain ⟨d, rest, htext, hlarge⟩ := @ih (room - c.utf8Size) (by omega)
        refine ⟨d, rest, ?_, ?_⟩
        · rw [List.cons_append, ← htext]
        · rw [utf8Length_cons]
          omega
      · exact ⟨c, text, rfl, by simpa using hfits⟩

/-! ## The cut -/

theorem continues_iff {b : UInt8} : continues b = true ↔ 0x80 ≤ b.toNat ∧ b.toNat < 0xc0 := by
  have hall : ∀ n : Fin 256, continues (UInt8.ofNat n) = true ↔ 0x80 ≤ n.val ∧ n.val < 0xc0 := by
    decide +kernel
  have hb := hall ⟨b.toNat, b.toNat_lt⟩
  rwa [UInt8.ofNat_toNat] at hb

/-- The first byte of a character continues none, and the others do. -/
theorem continues_encode (c : Char) : ∃ first others, String.utf8EncodeChar c = first :: others ∧
    continues first = false ∧ ∀ b ∈ others, continues b = true := by
  have hrange := char_toNat_range c
  change c.val.toNat < _ ∨ _ < c.val.toNat ∧ c.val.toNat < _ at hrange
  have hbyte : ∀ n, n < 256 → (UInt8.ofNat n).toNat = n := fun n hn => UInt8.toNat_ofNat_of_lt' hn
  have hfirst : ∀ n, n < 256 → (n < 0x80 ∨ 0xc0 ≤ n) → continues (UInt8.ofNat n) = false := by
    intro n hmax hn
    rw [← Bool.not_eq_true, continues_iff, hbyte n hmax]
    omega
  have hother : ∀ n, 0x80 ≤ n → n < 0xc0 → continues (UInt8.ofNat n) = true := by
    intro n hmin hmax
    rw [continues_iff, hbyte n (by omega)]
    exact ⟨hmin, hmax⟩
  unfold String.utf8EncodeChar
  dsimp only
  split
  · next h => exact ⟨_, _, rfl, hfirst _ (by omega) (.inl (by omega)), fun b hb => by cases hb⟩
  split
  · next h _ =>
    refine ⟨_, _, rfl, hfirst _ (by omega) (.inr (by omega)), fun b hb => ?_⟩
    simp only [List.mem_cons, List.not_mem_nil, or_false] at hb
    rw [hb]
    exact hother _ (by omega) (by omega)
  split
  · next h _ _ =>
    refine ⟨_, _, rfl, hfirst _ (by omega) (.inr (by omega)), fun b hb => ?_⟩
    simp only [List.mem_cons, List.not_mem_nil, or_false] at hb
    rcases hb with rfl | rfl <;> exact hother _ (by omega) (by omega)
  · next h _ _ =>
    refine ⟨_, _, rfl, hfirst _ (by omega) (.inr (by omega)), fun b hb => ?_⟩
    simp only [List.mem_cons, List.not_mem_nil, or_false] at hb
    rcases hb with rfl | rfl | rfl <;> exact hother _ (by omega) (by omega)

/-- Over the bytes of one character to its first. -/
theorem characterStart_within {front rest : Bytes} {c : Char} {stop : Nat} (hmin : front.length ≤ stop)
    (hmax : stop < front.length + (String.utf8EncodeChar c).length) :
    characterStart (front ++ String.utf8EncodeChar c ++ rest) stop = front.length := by
  obtain ⟨first, others, hbytes, hfirst, hothers⟩ := continues_encode c
  have hget : ∀ n, front.length ≤ n → n < front.length + (String.utf8EncodeChar c).length →
      (front ++ String.utf8EncodeChar c ++ rest).getD n 0 =
        (String.utf8EncodeChar c).getD (n - front.length) 0 := by
    intro n hmin hmax
    rw [List.getD_eq_getElem?_getD, List.getD_eq_getElem?_getD, List.append_assoc,
      List.getElem?_append_right hmin, List.getElem?_append_left (by omega)]
  induction stop with
  | zero =>
      rw [characterStart]
      omega
  | succ stop ih =>
      rw [characterStart, hget (stop + 1) hmin hmax]
      by_cases hstart : front.length = stop + 1
      · rw [hstart, Nat.sub_self, hbytes, List.getD_cons_zero, if_neg (by simp [hfirst])]
      · have hindex : stop + 1 - front.length = stop - front.length + 1 := by omega
        have hmem : others.getD (stop - front.length) 0 ∈ others := by
          rw [hbytes, List.length_cons] at hmax
          rw [List.getD_eq_getElem?_getD, List.getElem?_eq_getElem (by omega), Option.getD_some]
          exact List.getElem_mem _
        rw [hindex, hbytes, List.getD_cons_succ, if_pos (hothers _ hmem), ← hbytes]
        exact ih (by omega) (by omega)

/-- **The bytes up to the cut are those of the longest prefix that fits.** -/
theorem take_characterStart (h : room < utf8Length text) :
    (textBytes text).take (characterStart (textBytes text) room) = textBytes (fitting room text) := by
  obtain ⟨c, rest, htext, hlarge⟩ := exists_next h
  have hbytes : textBytes text =
      textBytes (fitting room text) ++ String.utf8EncodeChar c ++ textBytes rest := by
    conv_lhs => rw [htext]
    rw [textBytes_append, textBytes_cons, List.append_assoc]
  have hstart : characterStart (textBytes text) room = (textBytes (fitting room text)).length := by
    rw [hbytes]
    refine characterStart_within utf8Length_fitting ?_
    rw [String.length_utf8EncodeChar]
    exact hlarge
  rw [hstart, hbytes, List.append_assoc, List.take_left]

end Veto.Foundation
