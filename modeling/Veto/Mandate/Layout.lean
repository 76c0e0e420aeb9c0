import Veto.Ledger.Layout
import Veto.Foundation.Utf8

/-!
# The bytes of a mandate account

A mandate is serialized field by field, without padding, in an account that has room for
the longest purpose.  Every field before the purpose has a fixed place.
-/

namespace Veto

open Foundation

def MANDATE_DISCRIMINATOR : Bytes := [113, 216, 98, 159, 185, 63, 55, 18]

namespace Mandate

/-- The room of an account: its discriminator and the most a mandate can take. -/
def SPACE : Nat := 8 + (5 * 32 + 8 * 8 + (4 + PURPOSE_MAX_LEN) + 1 + 4 + 4 + 1)

/-- The fields up to `last_nonce`. -/
def fixed (m : Mandate) : Bytes :=
  m.owner.toBytes ++ (m.agent.toBytes ++ (m.mint.toBytes ++ (m.source.toBytes ++
    (m.merchant.toBytes ++ (toLE 8 m.mandateId.toNat ++ (toLE 8 m.cap.toNat ++
    (toLE 8 m.spent.toNat ++ (toLE 8 m.perTxMax.toNat ++
    (toLE 8 m.expiresAt.toUInt64.toNat ++ (toLE 8 m.overrideAmount.toNat ++
    (toLE 8 m.overrideNonce.toNat ++ toLE 8 m.lastNonce.toNat)))))))))))

/-- The purpose and what comes after it. -/
def tail (m : Mandate) : Bytes :=
  toLE 4 m.purpose.utf8ByteSize ++ (m.purpose.toUTF8.data.toList ++ ([m.status.code] ++
    (toLE 4 m.spendCount.toNat ++ (toLE 4 m.refusalCount.toNat ++ [m.bump]))))

def data (m : Mandate) : Bytes :=
  let bytes := MANDATE_DISCRIMINATOR ++ (m.fixed ++ m.tail)
  bytes ++ List.replicate (SPACE - bytes.length) 0

/-- The account after the instruction has written it.  A writer that runs out of room fails. -/
def store (m : Mandate) : Option Bytes :=
  if (MANDATE_DISCRIMINATOR ++ (m.fixed ++ m.tail)).length ≤ SPACE then some m.data else none

variable (m : Mandate)

theorem length_fixed : m.fixed.length = 224 := by simp [fixed]

theorem data_eq : ∃ rest, m.data = MANDATE_DISCRIMINATOR ++ (m.fixed ++ rest) := by
  refine ⟨m.tail ++ List.replicate (SPACE - (MANDATE_DISCRIMINATOR ++ (m.fixed ++ m.tail)).length) 0, ?_⟩
  simp only [data, List.append_assoc]

theorem length_data : 232 ≤ m.data.length := by
  obtain ⟨rest, hrest⟩ := m.data_eq
  rw [hrest]
  simp [MANDATE_DISCRIMINATOR, length_fixed]

theorem lastNonce_at : subarray m.data 224 (224 + 8) = toLE 8 m.lastNonce.toNat := by
  obtain ⟨rest, hrest⟩ := m.data_eq
  rw [hrest]
  simp [MANDATE_DISCRIMINATOR, fixed]

theorem length_tail : m.tail.length = 14 + m.purpose.utf8ByteSize := by
  have hpurpose : m.purpose.toUTF8.data.toList.length = m.purpose.utf8ByteSize := by
    rw [utf8Bytes_eq, length_utf8Bytes]
  simp only [tail, List.length_append, length_toLE, hpurpose, List.length_cons, List.length_nil]
  omega

/-- **The room is counted in bytes.**  A mandate fits when its purpose takes no more bytes than
the most characters it may have. -/
theorem store_eq_some_iff {data : Bytes} :
    m.store = some data ↔ m.purpose.utf8ByteSize ≤ PURPOSE_MAX_LEN ∧ data = m.data := by
  have hlength : (MANDATE_DISCRIMINATOR ++ (m.fixed ++ m.tail)).length ≤ SPACE ↔
      m.purpose.utf8ByteSize ≤ PURPOSE_MAX_LEN := by
    have hdisc : MANDATE_DISCRIMINATOR.length = 8 := rfl
    have hspace : SPACE = 246 + PURPOSE_MAX_LEN := rfl
    rw [List.length_append, List.length_append, hdisc, m.length_fixed, m.length_tail, hspace]
    omega
  rw [← hlength, store, Option.ite_none_right_eq_some, Option.some.injEq, eq_comm (a := data)]

end Mandate

end Veto
