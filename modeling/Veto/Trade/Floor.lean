import Veto.Chain
import Veto.Foundation.MachineInt

/-!
# The price floor

The arithmetic of `trade.rs` on 128-bit words: what the pinned exchange leaves
of an input after its fees, the quote its curve gives for that, and the least
output the owner's floor demands for the gross input.
-/

namespace Veto

open Foundation

/-- Trade fee the pinned exchange takes out of the input, per `FEE_DEN`. -/
def TRADE_FEE_NUM : UInt64 := 25

/-- Owner trade fee the pinned exchange takes out of the input, per `FEE_DEN`. -/
def OWNER_TRADE_FEE_NUM : UInt64 := 5

def FEE_DEN : UInt64 := 10000

/-- `input_after_fees`: each fee is rounded down, and is at least one unit of a nonzero input. -/
def inputAfterFees (amountIn : UInt64) : UInt64 :=
  let amount := amountIn.toNat
  let den := FEE_DEN.toNat
  let minimum := if 0 < amountIn then 1 else 0
  let tradeFee := max (amount * TRADE_FEE_NUM.toNat / den) minimum
  let ownerFee := max (amount * OWNER_TRADE_FEE_NUM.toNat / den) minimum
  .ofNat (amount - (tradeFee + ownerFee))

/-- `spot_below_floor`: the quote for the net input misses the floor for the gross input. -/
def spotBelowFloor (amountIn inReserve outReserve floorNum floorDen : UInt64) : Bool :=
  let net := (inputAfterFees amountIn).toNat
  let denom := saturatingAdd128 inReserve.toNat net
  if denom = 0 ∨ floorDen = 0 then true
  else
    let quote := saturatingMul128 net outReserve.toNat / denom
    let amount := amountIn.toNat
    saturatingMul128 quote floorDen.toNat < saturatingMul128 amount floorNum.toNat

/-- `floor_bound`: the floor's output for `amountIn`, rounded up. -/
def floorBound (amountIn floorNum floorDen : UInt64) : Except ProgramError UInt64 := do
  let den := floorDen.toNat
  require (0 < den) (.veto .floorDenominatorRequired)
  let num ← okOr (checkedMul128 amountIn.toNat floorNum.toNat) (.veto .mathOverflow)
  let sum ← okOr (checkedAdd128 num (den - 1)) (.veto .mathOverflow)
  let ceil := sum / den
  require (ceil < 2 ^ 64) (.veto .mathOverflow)
  return .ofNat ceil

end Veto
