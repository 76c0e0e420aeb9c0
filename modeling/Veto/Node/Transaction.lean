import Veto.Chain
import Veto.Foundation.Bytes
import Veto.Foundation.Text

/-!
# What an RPC node answers

A confirmed transaction as `getTransaction` returns it, and one listed signature of an
account with what reading its transaction gives.
-/

namespace Veto

open Foundation

/-- One compiled instruction of a message. -/
structure CompiledIx where
  programIdIndex : Nat
  accountKeyIndexes : List Nat
  data : Bytes

structure RpcTx where
  staticAccountKeys : List Pubkey
  loadedWritable : List Pubkey
  loadedReadonly : List Pubkey
  compiledInstructions : List CompiledIx
  logMessages : Option (List Text)
  blockTime : Option Int

/-- The accounts an instruction's indexes point into. -/
def RpcTx.keys (tx : RpcTx) : List Pubkey :=
  tx.staticAccountKeys ++ tx.loadedWritable ++ tx.loadedReadonly

/-- A signature of a listing, and the answer to a read of its transaction. -/
structure ListedSignature where
  signature : String
  err : Bool
  blockTime : Option Int
  fetched : Except Thrown (Option RpcTx)

/-- The pages of `getSignaturesForAddress`, newest first, by what each is asked to be
`before`. -/
abbrev SignaturePages := Option String → Except Thrown (List ListedSignature)

def CHARGE_DISCRIMINATOR : Bytes := [26, 55, 197, 209, 93, 77, 242, 15]

end Veto
