import Veto.Foundation.Text
import Mathlib.Algebra.Order.Field.Power
import Mathlib.Data.Rat.Floor
import Mathlib.Tactic.FieldSimp
import Mathlib.Tactic.Positivity
import Mathlib.Tactic.Ring

/-!
# Decimal numerals

A numeral as it is written, and the rational number it denotes.  A run of digits is read by
`Nat.ofDigitChars 10`; what a fixed number of decimals keeps of a numeral is its value, scaled
and truncated toward zero.
-/

namespace Veto.Foundation

/-! ## Runs of digits -/

/-- The number a run of digits denotes. -/
def digits (run : Text) : Nat := Nat.ofDigitChars 10 run 0

/-- Only decimal digits. -/
def IsRun (run : Text) : Prop := ∀ c ∈ run, c.isDigit = true

theorem IsRun.nil : IsRun [] := fun _ h => absurd h List.not_mem_nil

theorem IsRun.append {s t : Text} (hs : IsRun s) (ht : IsRun t) : IsRun (s ++ t) :=
  fun c hc => (List.mem_append.mp hc).elim (hs c) (ht c)

theorem IsRun.take {s : Text} (hs : IsRun s) (n : Nat) : IsRun (s.take n) :=
  fun c hc => hs c (List.mem_of_mem_take hc)

theorem IsRun.drop {s : Text} (hs : IsRun s) (n : Nat) : IsRun (s.drop n) :=
  fun c hc => hs c (List.mem_of_mem_drop hc)

theorem IsRun.zeros (n : Nat) : IsRun (List.replicate n '0') := by
  intro c hc
  rw [List.eq_of_mem_replicate hc]
  rfl

theorem digits_append (s t : Text) : digits (s ++ t) = digits s * 10 ^ t.length + digits t := by
  rw [digits, Nat.ofDigitChars_append, Nat.ofDigitChars_eq_ofDigitChars_zero, digits, digits]
  ring

theorem digits_zeros (n : Nat) : digits (List.replicate n '0') = 0 := by
  rw [digits, Nat.ofDigitChars_replicate_zero, Nat.mul_zero]

theorem digits_lt {run : Text} (h : IsRun run) : digits run < 10 ^ run.length := by
  induction run using List.reverseRecOn with
  | nil => decide
  | append_singleton run c ih =>
      have hrun : digits run < 10 ^ run.length :=
        ih fun d hd => h d (List.mem_append_left [c] hd)
      have hc : c.isDigit = true := h c (by simp)
      have hlt : digits [c] < 10 := by
        have hbounds := Char.isDigit_iff_toNat.mp hc
        rw [show '0'.toNat = 48 from rfl, show '9'.toNat = 57 from rfl] at hbounds
        have hvalue : digits [c] = c.toNat - 48 := by
          simp [digits, Nat.ofDigitChars_cons]
        omega
      rw [digits_append, List.length_append, List.length_singleton, pow_succ]
      omega

/-- The number `n` behind an optional sign. -/
def signedBy (sign : Option Char) (n : Nat) : ℤ := if sign = some '-' then -n else n

/-! ## Truncation -/

/-- Toward zero. -/
def truncate (x : ℚ) : ℤ := if 0 ≤ x then ⌊x⌋ else ⌈x⌉

theorem truncate_of_nonneg {x : ℚ} (h : 0 ≤ x) : truncate x = ⌊x⌋ := if_pos h

theorem truncate_neg (x : ℚ) : truncate (-x) = -truncate x := by
  unfold truncate
  rcases lt_trichotomy x 0 with hneg | rfl | hpos
  · rw [if_pos (by linarith), if_neg (not_le.mpr hneg), Int.floor_neg]
  · simp
  · rw [if_neg (by linarith), if_pos hpos.le, Int.ceil_neg]

theorem truncate_le {x : ℚ} (h : 0 ≤ x) : (truncate x : ℚ) ≤ x := by
  rw [truncate_of_nonneg h]
  exact Int.floor_le x

theorem truncate_nonneg {x : ℚ} (h : 0 ≤ x) : 0 ≤ truncate x := by
  rw [truncate_of_nonneg h]
  exact Int.floor_nonneg.mpr h

theorem truncate_mono {x y : ℚ} (hx : 0 ≤ x) (h : x ≤ y) : truncate x ≤ truncate y := by
  rw [truncate_of_nonneg hx, truncate_of_nonneg (hx.trans h)]
  exact Int.floor_le_floor h

/-! ## Numerals -/

/-- Digits around an optional point, behind an optional sign. -/
structure Decimal where
  sign : Option Char
  whole : Text
  point : Option Text
  signed : ∀ c ∈ sign, c = '+' ∨ c = '-'
  whole_run : IsRun whole
  point_run : ∀ frac ∈ point, IsRun frac
  written : whole ≠ [] ∨ point.getD [] ≠ []

namespace Decimal

/-- The digits behind the point. -/
def frac (d : Decimal) : Text := d.point.getD []

/-- The point and what is behind it. -/
def tail : Option Text → Text
  | none => []
  | some frac => '.' :: frac

def text (d : Decimal) : Text := d.sign.toList ++ (d.whole ++ tail d.point)

/-- What a sign multiplies by. -/
def unit (sign : Option Char) : ℚ := if sign = some '-' then -1 else 1

/-- The number the digits denote, without the sign. -/
def magnitude (d : Decimal) : ℚ := digits d.whole + digits d.frac / 10 ^ d.frac.length

def value (d : Decimal) : ℚ := unit d.sign * d.magnitude

theorem frac_run (d : Decimal) : IsRun d.frac := by
  cases h : d.point with
  | none => rw [frac, h]; exact IsRun.nil
  | some frac => rw [Decimal.frac, h]; exact d.point_run frac h

theorem magnitude_nonneg (d : Decimal) : 0 ≤ d.magnitude := by
  unfold magnitude
  positivity

/-- The digits on both sides of the point as one run. -/
theorem magnitude_eq (d : Decimal) :
    d.magnitude = digits (d.whole ++ d.frac) / 10 ^ d.frac.length := by
  rw [magnitude, digits_append]
  push_cast
  field_simp

/-- What `scale` decimals keep: the first digits behind the point, filled up with zeros. -/
def kept (scale : Nat) (frac : Text) : Text :=
  frac.take scale ++ List.replicate (scale - frac.length) '0'

theorem digits_kept (scale : Nat) {frac : Text} (hfrac : IsRun frac) :
    digits (kept scale frac) = digits frac * 10 ^ scale / 10 ^ frac.length := by
  rcases Nat.le_total frac.length scale with h | h
  · obtain ⟨k, rfl⟩ := Nat.exists_eq_add_of_le h
    rw [kept, List.take_of_length_le h, digits_append, digits_zeros, List.length_replicate,
      Nat.add_sub_cancel_left, pow_add, Nat.add_zero, Nat.mul_left_comm,
      Nat.mul_div_cancel_left _ (by positivity)]
  · obtain ⟨k, hk⟩ := Nat.exists_eq_add_of_le h
    have hdrop : (frac.drop scale).length = k := by rw [List.length_drop]; omega
    have hlt : digits (frac.drop scale) < 10 ^ k := hdrop ▸ digits_lt (hfrac.drop scale)
    have hsplit : digits frac = digits (frac.take scale) * 10 ^ k + digits (frac.drop scale) := by
      rw [← hdrop, ← digits_append, List.take_append_drop]
    rw [kept, Nat.sub_eq_zero_of_le h, List.replicate_zero, List.append_nil, hk, pow_add,
      Nat.mul_comm (digits frac), Nat.mul_div_mul_left _ _ (by positivity), hsplit, Nat.add_comm,
      Nat.add_mul_div_right _ _ (by positivity), Nat.div_eq_of_lt hlt, Nat.zero_add]

/-- **What a fixed number of decimals keeps** of a numeral is its scaled value without the part
behind the point. -/
theorem floor_magnitude (d : Decimal) (scale : Nat) :
    ⌊d.magnitude * 10 ^ scale⌋ =
      (digits d.whole * 10 ^ scale + digits (kept scale d.frac) : ℕ) := by
  have hscaled : d.magnitude * 10 ^ scale =
      ((digits d.whole * 10 ^ scale : ℕ) : ℚ) +
        ((digits d.frac * 10 ^ scale : ℕ) : ℚ) / ((10 ^ d.frac.length : ℕ) : ℚ) := by
    rw [magnitude]
    push_cast
    ring
  rw [hscaled, Int.floor_natCast_add, Rat.floor_natCast_div_natCast, digits_kept scale d.frac_run]
  push_cast
  rfl

theorem truncate_value (d : Decimal) (scale : Nat) :
    truncate (d.value * 10 ^ scale) =
      signedBy d.sign (digits d.whole * 10 ^ scale + digits (kept scale d.frac)) := by
  have hnonneg : 0 ≤ d.magnitude * 10 ^ scale :=
    mul_nonneg d.magnitude_nonneg (by positivity)
  rw [value, unit, signedBy]
  split
  · rw [neg_one_mul, neg_mul, truncate_neg, truncate_of_nonneg hnonneg, floor_magnitude]
  · rw [one_mul, truncate_of_nonneg hnonneg, floor_magnitude]

/-! ### Moving the point -/

theorem scaled_digits (a : ℚ) {j m n : ℕ} {k : ℤ} (h : (j : ℤ) - m = k - n) :
    a * 10 ^ j / 10 ^ m = a / 10 ^ n * 10 ^ k := by
  have hk : k = (j : ℤ) - m + n := by omega
  rw [hk, zpow_add₀ (by norm_num), zpow_sub₀ (by norm_num)]
  simp only [zpow_natCast]
  field_simp

/-- A minus sign and no other. -/
def minus (sign : Option Char) : Option Char := if sign = some '-' then some '-' else none

theorem minus_signed {sign : Option Char} : ∀ c ∈ minus sign, c = '+' ∨ c = '-' := by
  intro c hc
  unfold minus at hc
  split at hc
  · exact .inr (Option.some.inj hc).symm
  · cases hc

@[simp] theorem unit_minus (sign : Option Char) : unit (minus sign) = unit sign := by
  unfold unit minus
  split_ifs <;> simp_all

/-- The digits of both sides. -/
def run (d : Decimal) : Text := d.whole ++ d.frac

theorem run_run (d : Decimal) : IsRun d.run := d.whole_run.append d.frac_run

theorem length_run (d : Decimal) : d.run.length = d.whole.length + d.frac.length :=
  List.length_append

/-- The numeral with its point moved `k` digits to the right, zeros filled in; a plus sign is
dropped. -/
def shift (d : Decimal) (k : ℤ) (hwhole : d.whole ≠ []) : Decimal :=
  let pointAt : ℤ := d.whole.length + k
  if hleft : pointAt ≤ 0 then
    { sign := minus d.sign
      whole := ['0']
      point := some (List.replicate (-pointAt).toNat '0' ++ d.run)
      signed := minus_signed
      whole_run := IsRun.zeros 1
      point_run := fun _ heq => Option.some.inj heq ▸ (IsRun.zeros _).append d.run_run
      written := .inl (List.cons_ne_nil _ _) }
  else if hright : d.run.length ≤ pointAt then
    { sign := minus d.sign
      whole := d.run ++ List.replicate (pointAt - d.run.length).toNat '0'
      point := none
      signed := minus_signed
      whole_run := d.run_run.append (IsRun.zeros _)
      point_run := fun _ h => nomatch h
      written := .inl fun h => hwhole (List.append_eq_nil_iff.mp
        (List.append_eq_nil_iff.mp h).1).1 }
  else
    { sign := minus d.sign
      whole := d.run.take pointAt.toNat
      point := some (d.run.drop pointAt.toNat)
      signed := minus_signed
      whole_run := d.run_run.take _
      point_run := fun _ heq => Option.some.inj heq ▸ d.run_run.drop _
      written := .inr fun h => hright (by
        have hlength := List.drop_eq_nil_iff.mp h
        omega) }

section Shift

variable {d : Decimal} {k : ℤ} (hwhole : d.whole ≠ [])

theorem shift_left (h : d.whole.length + k ≤ 0) :
    (d.shift k hwhole).sign = minus d.sign ∧ (d.shift k hwhole).whole = ['0'] ∧
      (d.shift k hwhole).point =
        some (List.replicate (-(d.whole.length + k)).toNat '0' ++ d.run) := by
  rw [shift, dif_pos h]
  exact ⟨rfl, rfl, rfl⟩

theorem shift_right (h : ¬(d.whole.length + k ≤ 0)) (hright : d.run.length ≤ d.whole.length + k) :
    (d.shift k hwhole).sign = minus d.sign ∧
      (d.shift k hwhole).whole =
        d.run ++ List.replicate (d.whole.length + k - d.run.length).toNat '0' ∧
      (d.shift k hwhole).point = none := by
  rw [shift, dif_neg h, dif_pos hright]
  exact ⟨rfl, rfl, rfl⟩

theorem shift_inside (h : ¬(d.whole.length + k ≤ 0))
    (hright : ¬(d.run.length ≤ d.whole.length + k)) :
    (d.shift k hwhole).sign = minus d.sign ∧
      (d.shift k hwhole).whole = d.run.take (d.whole.length + k).toNat ∧
      (d.shift k hwhole).point = some (d.run.drop (d.whole.length + k).toNat) := by
  rw [shift, dif_neg h, dif_neg hright]
  exact ⟨rfl, rfl, rfl⟩

theorem sign_shift : (d.shift k hwhole).sign = minus d.sign := by
  by_cases hleft : d.whole.length + k ≤ 0
  · exact (shift_left hwhole hleft).1
  · by_cases hright : d.run.length ≤ d.whole.length + k
    · exact (shift_right hwhole hleft hright).1
    · exact (shift_inside hwhole hleft hright).1

theorem magnitude_shift : (d.shift k hwhole).magnitude = d.magnitude * 10 ^ k := by
  have hlength := d.length_run
  rw [magnitude_eq, magnitude_eq, ← run, ← run]
  by_cases hleft : d.whole.length + k ≤ 0
  · obtain ⟨-, hw, hp⟩ := shift_left hwhole hleft
    have hdigits : digits (d.shift k hwhole).run = digits d.run := by
      rw [run, hw, frac, hp, Option.getD_some, ← List.append_assoc, digits_append,
        show (['0'] : Text) = List.replicate 1 '0' from rfl, ← List.replicate_add, digits_zeros,
        Nat.zero_mul, Nat.zero_add]
    have hshift := scaled_digits (digits d.run : ℚ) (j := 0)
      (m := (d.shift k hwhole).frac.length) (n := d.frac.length) (k := k) (by
        rw [frac, hp, Option.getD_some, List.length_append, List.length_replicate]
        omega)
    rw [hdigits, ← hshift, pow_zero, mul_one]
  · by_cases hright : d.run.length ≤ d.whole.length + k
    · obtain ⟨-, hw, hp⟩ := shift_right hwhole hleft hright
      have hdigits : digits (d.shift k hwhole).run =
          digits d.run * 10 ^ (d.whole.length + k - d.run.length).toNat := by
        rw [run, hw, frac, hp, Option.getD_none, List.append_nil, digits_append, digits_zeros,
          List.length_replicate, Nat.add_zero]
      rw [hdigits, Nat.cast_mul, Nat.cast_pow, Nat.cast_ofNat]
      apply scaled_digits
      rw [frac, hp, Option.getD_none, List.length_nil]
      omega
    · obtain ⟨-, hw, hp⟩ := shift_inside hwhole hleft hright
      have hrun : (d.shift k hwhole).run = d.run := by
        rw [run, hw, frac, hp, Option.getD_some, List.take_append_drop]
      have hshift := scaled_digits (digits d.run : ℚ) (j := 0)
        (m := (d.shift k hwhole).frac.length) (n := d.frac.length) (k := k) (by
          rw [frac, hp, Option.getD_some, List.length_drop]
          omega)
      rw [hrun, ← hshift, pow_zero, mul_one]

end Shift

theorem value_shift (d : Decimal) (k : ℤ) (hwhole : d.whole ≠ []) :
    (d.shift k hwhole).value = d.value * 10 ^ k := by
  rw [value, value, sign_shift, unit_minus, magnitude_shift, mul_assoc]

end Decimal

/-- A power of ten behind a numeral. -/
structure Exponent where
  mark : Char
  sign : Option Char
  run : Text
  marked : mark = 'e' ∨ mark = 'E'
  signed : ∀ c ∈ sign, c = '+' ∨ c = '-'
  run_run : IsRun run
  written : run ≠ []

def Exponent.text (e : Exponent) : Text := e.mark :: (e.sign.toList ++ e.run)

def Exponent.value (e : Exponent) : ℤ := signedBy e.sign (digits e.run)

/-- A numeral, plain or with an exponent; before an exponent there are digits, and behind a point
too. -/
inductive Numeral
  | plain (d : Decimal)
  | scientific (d : Decimal) (e : Exponent) (hwhole : d.whole ≠ []) (hpoint : d.point ≠ some [])

def Numeral.text : Numeral → Text
  | plain d => d.text
  | scientific d e _ _ => d.text ++ e.text

def Numeral.value : Numeral → ℚ
  | plain d => d.value
  | scientific d e _ _ => d.value * 10 ^ e.value

/-- The text is a numeral for `x`. -/
def Denotes (text : Text) (x : ℚ) : Prop := ∃ n : Numeral, n.text = text ∧ n.value = x

/-! ## Numbers told apart by their numerals -/

theorem toString_nat_injective : Function.Injective (fun n : Nat => toString n) := by
  intro a b h
  have hdigits : Nat.toDigits 10 a = Nat.toDigits 10 b := by
    rw [← Nat.toList_repr, ← Nat.toList_repr]
    exact congrArg String.toList h
  have hvalue := congrArg digits hdigits
  unfold digits at hvalue
  rwa [Nat.ofDigitChars_ten_toDigits, Nat.ofDigitChars_ten_toDigits] at hvalue

/-- A sign is no digit. -/
theorem minus_ne_numeral (n : Nat) (s : String) : toString n ≠ "-" ++ s := by
  intro h
  have hchars : Nat.toDigits 10 n = '-' :: s.toList := by
    have hlist := congrArg String.toList h
    rw [String.toList_append] at hlist
    rw [← Nat.toList_repr]
    exact hlist
  have hdigit := Nat.isDigit_of_mem_toDigits (by decide) (by decide)
    (hchars ▸ List.mem_cons_self : '-' ∈ Nat.toDigits 10 n)
  exact absurd hdigit (by decide)

theorem toString_int_injective : Function.Injective (fun n : Int => toString n) := by
  intro a b h
  cases a with
  | ofNat a =>
      cases b with
      | ofNat b => exact congrArg Int.ofNat (toString_nat_injective h)
      | negSucc b => exact absurd h (minus_ne_numeral a _)
  | negSucc a =>
      cases b with
      | ofNat b => exact absurd h.symm (minus_ne_numeral b _)
      | negSucc b =>
          have htails : Nat.repr (a + 1) = Nat.repr (b + 1) := by
            have hchars := congrArg String.toList h
            change ("-" ++ Nat.repr (a + 1)).toList = ("-" ++ Nat.repr (b + 1)).toList at hchars
            rw [String.toList_append, String.toList_append, List.append_cancel_left_eq] at hchars
            exact String.toList_injective hchars
          have hnumbers := toString_nat_injective htails
          exact congrArg Int.negSucc (Nat.succ.inj hnumbers)

end Veto.Foundation
