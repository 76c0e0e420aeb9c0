import Veto.Foundation.Bytes
import Veto.Trade.Run
import Mathlib.Algebra.Order.Field.Basic
import Mathlib.Data.Nat.Cast.Field
import Mathlib.Data.Rat.Cast.Order
import Mathlib.Tactic.FieldSimp
import Mathlib.Tactic.Linarith
import Mathlib.Tactic.NormNum
import Mathlib.Tactic.Positivity

/-!
# A floor from the rate of a pool

`floorFromSpot` of `tradePool.ts`: the floor that the app proposes is a share of what the pool pays
now.  The share is reduced, and where it does not fit in two words it is rounded down to whole units
of the output.  A share below one unit rounds to a floor of zero, which no rule may have.
-/

namespace Veto.App.TradePool

open Foundation

/-- The loop of `gcd`. -/
def gcdLoop (x : Nat) : Nat → Nat
  | 0 => x
  | y + 1 => gcdLoop (y + 1) (x % (y + 1))
  termination_by y => y
  decreasing_by exact Nat.mod_lt _ (Nat.succ_pos _)

def gcd (a b : Int) : Int :=
  let x := gcdLoop a.natAbs b.natAbs
  if x = 0 then 1 else x

def U64_MAX : Int := 2 ^ 64 - 1

/-- A floor of a rule: the least rate it sells at, as a fraction. -/
structure Floor where
  floorNum : Int
  floorDen : Int
  deriving DecidableEq, Repr

/-- Floor is `percent` percent of output reserve / input reserve. -/
def floorFromSpot (outReserve inReserve : Int) (percent : ℚ) : Except Thrown Floor := do
  require (percent.isInt = true ∧ 1 ≤ percent ∧ percent ≤ 99)
    (.error "Floor percent must be a whole number from 1 to 99.")
  require (0 < inReserve ∧ 0 < outReserve)
    (.error "This pool has no rate to read. Both vaults need a balance.")
  let num := percent.num * outReserve
  let den := 100 * inReserve
  let divisor := gcd num den
  let floor : Floor :=
    if U64_MAX < num.tdiv divisor ∨ U64_MAX < den.tdiv divisor then
      ⟨(percent.num * outReserve).tdiv 100, inReserve⟩
    else ⟨num.tdiv divisor, den.tdiv divisor⟩
  require (floor.floorNum ≤ U64_MAX ∧ floor.floorDen ≤ U64_MAX ∧ floor.floorDen ≠ 0)
    (.error "The floor from this pool does not fit in the rule.")
  return floor

/-- A floor that a rule can be opened with, and that is the share of the rate up to one unit of
the output. -/
structure Floor.Good (floor : Floor) (share rate unit : ℚ) : Prop where
  num_pos : 0 < floor.floorNum
  num_word : floor.floorNum < 2 ^ 64
  den_pos : 0 < floor.floorDen
  den_word : floor.floorDen < 2 ^ 64
  below : (floor.floorNum : ℚ) / floor.floorDen ≤ share * rate
  tight : share * rate - (floor.floorNum : ℚ) / floor.floorDen ≤ unit

/-! ## The greatest common divisor -/

theorem gcdLoop_eq (x y : Nat) : gcdLoop x y = Nat.gcd y x := by
  induction x, y using gcdLoop.induct with
  | case1 x => rw [gcdLoop, Nat.gcd_zero_left]
  | case2 x y ih => rw [gcdLoop, ih, Nat.gcd_rec (y + 1) x]

theorem gcd_eq {a b : Nat} (hb : 0 < b) : gcd a b = Nat.gcd a b := by
  have hpos : Nat.gcd b a ≠ 0 := Nat.ne_of_gt (Nat.gcd_pos_of_pos_left a hb)
  unfold gcd
  rw [Int.natAbs_natCast, Int.natAbs_natCast, gcdLoop_eq, if_neg hpos, Nat.gcd_comm]

/-! ## The floor -/

section Floor

variable {outReserve inReserve percent : Nat}

/-- What is returned for two words and a share: the reduced fraction, or the rounded one. -/
def spotFloor (outReserve inReserve percent : Nat) : Floor :=
  let divisor := Nat.gcd (percent * outReserve) (100 * inReserve)
  if percent * outReserve / divisor < 2 ^ 64 ∧ 100 * inReserve / divisor < 2 ^ 64 then
    ⟨(percent * outReserve / divisor : Nat), (100 * inReserve / divisor : Nat)⟩
  else ⟨(percent * outReserve / 100 : Nat), inReserve⟩

/-- The rounded fraction is one of words: it is not above the reserves. -/
theorem rounded_lt (houtWord : outReserve < 2 ^ 64) (hhigh : percent ≤ 99) :
    percent * outReserve / 100 < 2 ^ 64 := by
  have hle : percent * outReserve ≤ 99 * outReserve := Nat.mul_le_mul_right _ hhigh
  omega

theorem spotFloor_word (houtWord : outReserve < 2 ^ 64) (hin : 0 < inReserve)
    (hinWord : inReserve < 2 ^ 64) (hhigh : percent ≤ 99) :
    (spotFloor outReserve inReserve percent).floorNum < 2 ^ 64 ∧
      (spotFloor outReserve inReserve percent).floorDen < 2 ^ 64 ∧
      0 < (spotFloor outReserve inReserve percent).floorDen := by
  unfold spotFloor
  dsimp only
  split_ifs with hfits
  · have hdvd := Nat.gcd_dvd_right (percent * outReserve) (100 * inReserve)
    have hpos : 0 < 100 * inReserve := Nat.mul_pos (by decide) hin
    have hden := Nat.div_pos (Nat.le_of_dvd hpos hdvd) (Nat.pos_of_dvd_of_pos hdvd hpos)
    dsimp only
    omega
  · have hnum := rounded_lt houtWord hhigh
    dsimp only
    omega

theorem floorFromSpot_eq (hout : 0 < outReserve) (houtWord : outReserve < 2 ^ 64)
    (hin : 0 < inReserve) (hinWord : inReserve < 2 ^ 64) (hlow : 1 ≤ percent)
    (hhigh : percent ≤ 99) :
    floorFromSpot outReserve inReserve percent = .ok (spotFloor outReserve inReserve percent) := by
  have hpercent : (percent : ℚ).isInt = true ∧ (1 : ℚ) ≤ percent ∧ (percent : ℚ) ≤ 99 := by
    refine ⟨?_, by exact_mod_cast hlow, by exact_mod_cast hhigh⟩
    rw [Rat.isInt, Rat.den_natCast]
    rfl
  have hreserves : 0 < (inReserve : Int) ∧ 0 < (outReserve : Int) := by omega
  have hnum : (percent : ℚ).num * (outReserve : Int) = ((percent * outReserve : Nat) : Int) := by
    rw [Rat.num_natCast, Nat.cast_mul]
  have hden : 100 * (inReserve : Int) = ((100 * inReserve : Nat) : Int) := by
    rw [Nat.cast_mul]
    rfl
  have hpos : 0 < 100 * inReserve := Nat.mul_pos (by decide) hin
  have hword : ∀ n : Nat, U64_MAX < (n : Int) ↔ ¬ n < 2 ^ 64 := by
    intro n
    unfold U64_MAX
    omega
  have hfloor : (if U64_MAX < ((percent : ℚ).num * outReserve).tdiv
        (gcd ((percent : ℚ).num * outReserve) (100 * inReserve)) ∨
        U64_MAX < (100 * (inReserve : Int)).tdiv
          (gcd ((percent : ℚ).num * outReserve) (100 * inReserve)) then
      (⟨((percent : ℚ).num * outReserve).tdiv 100, inReserve⟩ : Floor)
    else ⟨((percent : ℚ).num * outReserve).tdiv
        (gcd ((percent : ℚ).num * outReserve) (100 * inReserve)),
      (100 * (inReserve : Int)).tdiv (gcd ((percent : ℚ).num * outReserve) (100 * inReserve))⟩) =
      spotFloor outReserve inReserve percent := by
    rw [hnum, hden, gcd_eq hpos, ← Int.ofNat_tdiv, ← Int.ofNat_tdiv, spotFloor]
    by_cases hfits : percent * outReserve / Nat.gcd (percent * outReserve) (100 * inReserve) < 2 ^ 64 ∧
        100 * inReserve / Nat.gcd (percent * outReserve) (100 * inReserve) < 2 ^ 64
    · rw [if_neg (by rw [hword, hword]; omega), if_pos hfits]
    · rw [if_pos (by rw [hword, hword]; omega), if_neg hfits]
      rfl
  obtain ⟨hnumWord, hdenWord, hdenPos⟩ := spotFloor_word houtWord hin hinWord hhigh
  unfold floorFromSpot
  rw [require_true hpercent, ok_bind, require_true hreserves, ok_bind]
  simp only [hfloor]
  rw [require_true (by unfold U64_MAX; omega), ok_bind]
  rfl

/-! ## The floor as a share of the rate -/

/-- The share of the rate, as one fraction. -/
theorem share_eq (hin : 0 < inReserve) :
    (percent / 100 : ℚ) * (outReserve / inReserve) =
      ((percent * outReserve : Nat) : ℚ) / ((100 * inReserve : Nat) : ℚ) := by
  have hne : (inReserve : ℚ) ≠ 0 := by exact_mod_cast Nat.ne_of_gt hin
  push_cast
  field_simp

/-- Dividing a fraction by what divides both of its sides leaves it. -/
theorem reduced_eq {num den divisor : Nat} (hnum : divisor ∣ num) (hden : divisor ∣ den)
    (hpos : 0 < divisor) :
    ((num / divisor : Nat) : ℚ) / ((den / divisor : Nat) : ℚ) = (num : ℚ) / den := by
  have hne : (divisor : ℚ) ≠ 0 := by exact_mod_cast Nat.ne_of_gt hpos
  rw [Nat.cast_div hnum hne, Nat.cast_div hden hne, div_div_div_cancel_right₀ hne]

/-- Whole units of the output are at most one unit below. -/
theorem rounded_bounds (num : Nat) (hin : 0 < inReserve) :
    ((num / 100 : Nat) : ℚ) / inReserve ≤ (num : ℚ) / ((100 * inReserve : Nat) : ℚ) ∧
      (num : ℚ) / ((100 * inReserve : Nat) : ℚ) - ((num / 100 : Nat) : ℚ) / inReserve ≤
        1 / inReserve := by
  have hpos : (0 : ℚ) < inReserve := by exact_mod_cast hin
  have hbelow : 100 * (num / 100) ≤ num := by omega
  have habove : num ≤ 100 * (num / 100 + 1) := by omega
  have hbelow' : 100 * ((num / 100 : Nat) : ℚ) ≤ num := by exact_mod_cast hbelow
  have habove' : (num : ℚ) ≤ 100 * (((num / 100 : Nat) : ℚ) + 1) := by exact_mod_cast habove
  have hshare : (num : ℚ) / ((100 * inReserve : Nat) : ℚ) = (num / 100) / inReserve := by
    push_cast
    rw [div_div]
  rw [hshare]
  constructor
  · exact div_le_div_of_nonneg_right (by linarith) hpos.le
  · rw [← sub_div]
    exact div_le_div_of_nonneg_right (by linarith) hpos.le

/-- The floor is the share of the rate, up to one unit of the output for the input reserve. -/
theorem spotFloor_share (outReserve percent : Nat) (hin : 0 < inReserve) :
    let floor := spotFloor outReserve inReserve percent
    (floor.floorNum : ℚ) / floor.floorDen ≤ (percent / 100) * (outReserve / inReserve) ∧
      (percent / 100) * (outReserve / inReserve) - (floor.floorNum : ℚ) / floor.floorDen ≤
        1 / inReserve := by
  have hpos : 0 < 100 * inReserve := Nat.mul_pos (by decide) hin
  have hdivisor := Nat.gcd_pos_of_pos_right (percent * outReserve) hpos
  rw [share_eq hin]
  unfold spotFloor
  dsimp only
  split_ifs with hfits
  · have hreduced := reduced_eq (Nat.gcd_dvd_left (percent * outReserve) (100 * inReserve))
      (Nat.gcd_dvd_right _ _) hdivisor
    simp only [Int.cast_natCast]
    rw [hreduced, sub_self]
    exact ⟨le_refl _, by positivity⟩
  · simp only [Int.cast_natCast]
    exact rounded_bounds _ hin

/-- The floor is above zero unless it is rounded and the share is below one unit. -/
theorem spotFloor_pos_iff (hout : 0 < outReserve) (hlow : 1 ≤ percent) :
    0 < (spotFloor outReserve inReserve percent).floorNum ↔
      100 ≤ percent * outReserve ∨
        100 * inReserve / Nat.gcd (percent * outReserve) (100 * inReserve) < 2 ^ 64 := by
  have hnum : 0 < percent * outReserve := Nat.mul_pos hlow hout
  have hdvd := Nat.gcd_dvd_left (percent * outReserve) (100 * inReserve)
  have hdivisor := Nat.pos_of_dvd_of_pos hdvd hnum
  have hreduced := Nat.div_pos (Nat.le_of_dvd hnum hdvd) hdivisor
  have hle := Nat.div_le_self (percent * outReserve)
    (Nat.gcd (percent * outReserve) (100 * inReserve))
  unfold spotFloor
  dsimp only
  split_ifs with hfits
  · simp only [Int.natCast_pos]
    exact iff_of_true hreduced (.inr hfits.2)
  · simp only [Int.natCast_pos]
    omega

end Floor

/-- **A floor that fits a rule, and is the share of the rate, is returned exactly where the share is
at least one unit of the output or its reduced denominator is a word.** -/
theorem floor_from_spot_good_iff {outReserve inReserve percent : Nat} (hout : 0 < outReserve)
    (houtWord : outReserve < 2 ^ 64) (hin : 0 < inReserve) (hinWord : inReserve < 2 ^ 64)
    (hlow : 1 ≤ percent) (hhigh : percent ≤ 99) :
    (∀ floor, floorFromSpot outReserve inReserve percent = .ok floor →
      floor.Good (percent / 100) (outReserve / inReserve) (1 / inReserve)) ↔
      100 ≤ percent * outReserve ∨
        100 * inReserve / Nat.gcd (percent * outReserve) (100 * inReserve) < 2 ^ 64 := by
  rw [floorFromSpot_eq hout houtWord hin hinWord hlow hhigh, ← spotFloor_pos_iff hout hlow]
  obtain ⟨hnumWord, hdenWord, hdenPos⟩ := spotFloor_word houtWord hin hinWord hhigh
  obtain ⟨hbelow, htight⟩ := spotFloor_share outReserve percent hin
  constructor
  · intro h
    exact (h _ rfl).num_pos
  · intro hnum floor hfloor
    obtain rfl := Except.ok.inj hfloor
    exact ⟨hnum, hnumWord, hdenPos, hdenWord, hbelow, htight⟩

/-- What the program asks of a floor: it opens no rule with a zero on either side. -/
theorem floor_of_openTradeRule {rt : Runtime} {now : Int64} {signers : List Pubkey}
    {accts : OpenTradeRule} {args : OpenTradeRuleArgs} {w : World} {o : TradeOutput}
    {s : TradeState} (h : openTradeRule rt now signers accts args w = .ok (o, s)) :
    0 < args.floorNum ∧ 0 < args.floorDen := by
  unfold openTradeRule at h
  simp only [vacant, classicProgram] at h
  simp only [↓signer_bind_ok_iff, ↓require_bind_ok_iff, bind_ok_iff] at h
  obtain ⟨-, -, -, -, -, source, -, destination, -, inMint, -, outMint, -, h⟩ := h
  obtain ⟨-, -, -, -, hnum, hden, -⟩ := h
  exact ⟨hnum, hden⟩

/-- One percent of a rate of one to three. -/
theorem floor_from_spot_good_iff_third :
    (∀ floor, floorFromSpot (1 : Nat) (3 : Nat) (1 : Nat) = .ok floor →
      floor.Good ((1 : Nat) / 100) ((1 : Nat) / (3 : Nat)) (1 / (3 : Nat))) ↔
      100 ≤ 1 * 1 ∨ 100 * 3 / Nat.gcd (1 * 1) (100 * 3) < 2 ^ 64 :=
  floor_from_spot_good_iff (by decide) (by decide) (by decide) (by decide) (by decide) (by decide)

/-- One percent of one unit for half of the words is rounded to a floor of zero. -/
theorem floor_from_spot_zero :
    floorFromSpot (1 : Nat) (2 ^ 63 : Nat) (1 : Nat) = .ok ⟨0, 2 ^ 63⟩ ∧
      ¬ (⟨0, 2 ^ 63⟩ : Floor).Good ((1 : Nat) / 100) ((1 : Nat) / (2 ^ 63 : Nat))
        (1 / (2 ^ 63 : Nat)) := by
  constructor
  · rw [floorFromSpot_eq (by decide) (by decide) (by decide) (by decide) (by decide) (by decide)]
    rfl
  · intro hgood
    exact absurd hgood.num_pos (by decide)

end Veto.App.TradePool
