import Veto.Chain

/-!
# Printed addresses

Base 58 is read back by adding up its digits, and a leading `1` adds nothing, so two addresses
that are printed the same are the same.  The digits of a number do not begin with `1`, so the ones
in front count the leading zero bytes.
-/

namespace Veto

/-- The number that a text of base 58 digits continues. -/
def base58Value (n : Nat) (text : List Char) : Nat :=
  text.foldl (fun n c => 58 * n + base58Alphabet.idxOf c) n

theorem base58Value_digit {digit : Nat} (h : digit < 58) :
    base58Alphabet.idxOf (base58Alphabet.getD digit '1') = digit := by
  have hall : ∀ digit < 58, base58Alphabet.idxOf (base58Alphabet.getD digit '1') = digit := by
    decide +kernel
  exact hall digit h

theorem base58Value_ones (count : Nat) (text : List Char) :
    base58Value 0 (List.replicate count '1' ++ text) = base58Value 0 text := by
  induction count with
  | zero => rfl
  | succ count ih => exact ih

theorem base58Value_digits {fuel n : Nat} (h : n < 58 ^ fuel) (digits : List Char) :
    base58Value 0 (base58Digits fuel n digits) = base58Value n digits := by
  induction fuel generalizing n digits with
  | zero =>
      obtain rfl : n = 0 := by simpa using h
      rfl
  | succ fuel ih =>
      rw [base58Digits]
      by_cases hzero : n = 0
      · rw [if_pos hzero, hzero]
      · have hquot : n / 58 < 58 ^ fuel := by
          rw [Nat.div_lt_iff_lt_mul (by decide), ← pow_succ]
          exact h
        rw [if_neg hzero, ih hquot]
        change base58Value (58 * (n / 58) + base58Alphabet.idxOf _) digits = _
        rw [base58Value_digit (Nat.mod_lt n (by decide)), Nat.div_add_mod]

theorem Pubkey.value_display (k : Pubkey) : base58Value 0 k.display.toList = k.toNat := by
  have hones : (k.toBytes.takeWhile (· = 0)).map (fun _ => '1') =
      List.replicate (k.toBytes.takeWhile (· = 0)).length '1' := List.map_const ..
  have hfits : k.toNat < 58 ^ 44 := k.isLt.trans (by decide)
  unfold Pubkey.display
  rw [String.toList_ofList, hones, base58Value_ones, base58Value_digits hfits]
  rfl

theorem Pubkey.display_inj {k k' : Pubkey} : k.display = k'.display ↔ k = k' := by
  constructor
  · intro h
    apply BitVec.eq_of_toNat_eq
    rw [← k.value_display, h, k'.value_display]
  · exact congrArg Pubkey.display

/-! ## The digits -/

theorem mem_base58Digits {fuel n : Nat} {front : List Char} {c : Char}
    (h : c ∈ base58Digits fuel n front) : c ∈ base58Alphabet ∨ c ∈ front := by
  induction fuel generalizing n front with
  | zero => exact .inr h
  | succ fuel ih =>
      rw [base58Digits] at h
      by_cases hzero : n = 0
      · rw [if_pos hzero] at h
        exact .inr h
      · rw [if_neg hzero] at h
        rcases ih h with halphabet | hfront
        · exact .inl halphabet
        · rcases List.mem_cons.mp hfront with rfl | hfront
          · have hlt : n % 58 < base58Alphabet.length := Nat.mod_lt _ (by decide)
            rw [List.getD_eq_getElem?_getD, List.getElem?_eq_getElem hlt]
            exact .inl (List.getElem_mem hlt)
          · exact .inr hfront

theorem mem_base58Alphabet_of_display {key : Pubkey} {c : Char} (h : c ∈ key.display.toList) :
    c ∈ base58Alphabet := by
  unfold Pubkey.display at h
  rw [String.toList_ofList, List.mem_append] at h
  rcases h with hone | hdigit
  · obtain ⟨_, -, rfl⟩ := List.mem_map.mp hone
    decide
  · rcases mem_base58Digits hdigit with halphabet | hnone
    · exact halphabet
    · cases hnone

/-- The digits of a positive number do not begin with `1`. -/
theorem base58Digits_head {fuel n : Nat} (hpos : n ≠ 0) (hfits : n < 58 ^ fuel)
    (digits : List Char) : ∃ c rest, base58Digits fuel n digits = c :: rest ∧ c ≠ '1' := by
  induction fuel generalizing n digits with
  | zero => exact absurd (Nat.lt_one_iff.mp hfits) hpos
  | succ fuel ih =>
      rw [base58Digits, if_neg hpos]
      by_cases hquot : n / 58 = 0
      · have hlt : n < 58 := by omega
        have hdigit : base58Alphabet.getD (n % 58) '1' ≠ '1' := by
          intro h
          have hindex := base58Value_digit (Nat.mod_lt n (by decide : 0 < 58))
          rw [h, Nat.mod_eq_of_lt hlt] at hindex
          exact hpos (hindex.symm.trans (by decide))
        refine ⟨_, digits, ?_, hdigit⟩
        rw [hquot]
        cases fuel <;> rfl
      · refine ih hquot ?_ _
        rw [Nat.div_lt_iff_lt_mul (by decide), ← pow_succ]
        exact hfits

theorem length_base58Digits_le {fuel n count : Nat} (h : n < 58 ^ count) (digits : List Char) :
    (base58Digits fuel n digits).length ≤ count + digits.length := by
  induction fuel generalizing n count digits with
  | zero => exact Nat.le_add_left _ _
  | succ fuel ih =>
      rw [base58Digits]
      by_cases hzero : n = 0
      · rw [if_pos hzero]
        exact Nat.le_add_left _ _
      · rw [if_neg hzero]
        cases count with
        | zero => exact absurd (Nat.lt_one_iff.mp h) hzero
        | succ count =>
            have hquot : n / 58 < 58 ^ count := by
              rw [Nat.div_lt_iff_lt_mul (by decide), ← pow_succ]
              exact h
            have hrest := ih hquot (base58Alphabet.getD (n % 58) '1' :: digits)
            rw [List.length_cons] at hrest
            omega

/-- An address is a `1` for each leading zero byte, and digits that do not begin with `1`. -/
theorem Pubkey.display_chars (k : Pubkey) : k.display.toList =
    List.replicate (k.toBytes.takeWhile (· = 0)).length '1' ++ base58Digits 44 k.toNat [] := by
  unfold Pubkey.display
  rw [String.toList_ofList, List.map_const']

end Veto
