import Veto.Hold.Instructions
import Veto.Indexer.Events

/-!
# The bytes of vault events

What the Hold instructions emit.  None of it reads as a decision of a mandate or a rule.
-/

namespace Veto

open Foundation

/-- The discriminator of an event. -/
def HoldEvent.disc : HoldEvent → Bytes
  | .opened .. => [43, 30, 161, 191, 183, 229, 201, 113]
  | .deposited .. => [14, 183, 196, 175, 23, 89, 172, 201]
  | .paid .. => [75, 217, 168, 36, 135, 161, 113, 223]
  | .held .. => [213, 77, 28, 129, 215, 57, 137, 224]
  | .refused .. => [154, 131, 154, 169, 135, 21, 58, 52]
  | .executed .. => [0, 66, 40, 156, 42, 195, 127, 203]
  | .stopped .. => [204, 29, 182, 240, 51, 231, 188, 149]
  | .frozen .. => [109, 125, 222, 166, 136, 63, 153, 164]
  | .unfrozen .. => [115, 249, 65, 139, 158, 138, 7, 112]
  | .unfreezeScheduled .. => [158, 133, 180, 244, 162, 69, 74, 117]
  | .skipped .. => [26, 204, 98, 122, 152, 219, 27, 65]
  | .recovered .. => [26, 178, 12, 148, 227, 199, 14, 232]
  | .changeProposed .. => [10, 12, 18, 221, 178, 129, 99, 89]
  | .changeApplied .. => [214, 73, 25, 25, 100, 242, 158, 103]
  | .changeCancelled .. => [105, 91, 17, 180, 121, 125, 6, 176]

/-- The fields of an event, serialized. -/
def HoldEvent.fields : HoldEvent → Bytes
  | .opened vault owner guardian safeAddress dailyLimit delaySecs bigShareBps =>
      vault.toBytes ++ (owner.toBytes ++ (guardian.toBytes ++ (safeAddress.toBytes ++
        (toLE 8 dailyLimit.toNat ++ (toLE 8 delaySecs.toUInt64.toNat ++
          toLE 2 bigShareBps.toNat)))))
  | .deposited vault amount => vault.toBytes ++ toLE 8 amount.toNat
  | .paid vault amount destination =>
      vault.toBytes ++ (toLE 8 amount.toNat ++ destination.toBytes)
  | .held vault id amount destination unlockAt =>
      vault.toBytes ++ (toLE 8 id.toNat ++ (toLE 8 amount.toNat ++ (destination.toBytes ++
        toLE 8 unlockAt.toUInt64.toNat)))
  | .refused vault amount destination reason =>
      vault.toBytes ++ (toLE 8 amount.toNat ++ (destination.toBytes ++ [reason]))
  | .executed vault id amount destination =>
      vault.toBytes ++ (toLE 8 id.toNat ++ (toLE 8 amount.toNat ++ destination.toBytes))
  | .stopped vault id amount => vault.toBytes ++ (toLE 8 id.toNat ++ toLE 8 amount.toNat)
  | .frozen vault byKey => vault.toBytes ++ byKey.toBytes
  | .unfrozen vault => vault.toBytes
  | .unfreezeScheduled vault effectiveAt =>
      vault.toBytes ++ toLE 8 effectiveAt.toUInt64.toNat
  | .skipped vault id amount destination =>
      vault.toBytes ++ (toLE 8 id.toNat ++ (toLE 8 amount.toNat ++ destination.toBytes))
  | .recovered vault amount destination =>
      vault.toBytes ++ (toLE 8 amount.toNat ++ destination.toBytes)
  | .changeProposed vault effectiveAt fields =>
      vault.toBytes ++ (toLE 8 effectiveAt.toUInt64.toNat ++ [fields])
  | .changeApplied vault fields => vault.toBytes ++ [fields]
  | .changeCancelled vault => vault.toBytes

/-- An event as it is emitted. -/
def HoldEvent.bytes (event : HoldEvent) : Bytes := event.disc ++ event.fields

namespace Indexer

/-- The indexer passes over the events of vaults. -/
theorem decodeEventBytes_hold (event : HoldEvent) : decodeEventBytes event.bytes = none := by
  have hlength : event.disc.length = 8 := by cases event <;> rfl
  have hdisc : subarray event.bytes 0 8 = event.disc := subarray_append_left hlength
  have hother : event.disc ≠ TRADED_EVENT_DISC ∧ event.disc ≠ TRADE_REFUSED_EVENT_DISC ∧
      event.disc ≠ PAID_EVENT_DISC ∧ event.disc ≠ REFUSED_EVENT_DISC := by
    cases event <;> (simp only [HoldEvent.disc]; decide)
  unfold decodeEventBytes
  simp only [hdisc, hother, if_false]
  exact ite_self none

end Indexer

end Veto
