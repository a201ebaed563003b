import StakeCubeCoin.Script.SignatureHash
import StakeCubeCoin.Validation.ContextualChecks

namespace StakeCubeCoin.Validation

open Library Primitives Script BitVec

/-!
# The encoding of transactions

`CTransaction::Serialize` and the reading of a `CMutableTransaction` of
`primitives/transaction.h`.  The version and the type share one word of 32 bits.  Reading cuts
the word into two halves; writing puts the halves together after the version, a signed number
of 16 bits, has been extended to 32.  A negative version fills the half of the type with ones.
-/

variable (n32bitVersion : BitVec 32)

/-- The lower half of the word, as a signed number the version. -/
def versionOf : BitVec 16 :=
  n32bitVersion.setWidth 16

def typeOf : BitVec 16 :=
  (n32bitVersion >>> 16).setWidth 16

def serializeTxIn (txin : CTxIn) : List UInt8 :=
  serializeOutPoint txin.prevout ++ writeVector txin.scriptSig ++ littleEndian 4 txin.nSequence

/-- The word that is written for the halves of a word.  The version is extended by its sign, so that
a negative one spills into the type. -/
def rewritten : BitVec 32 :=
  (versionOf n32bitVersion).signExtend 32 ||| ((typeOf n32bitVersion).zeroExtend 32 <<< 16)

end StakeCubeCoin.Validation
