import StakeCubeCoin.Primitives.Transaction

namespace StakeCubeCoin.Primitives

/-!
# Targets

`arith_uint256::SetCompact`, `CheckProofOfWork` of `pow.cpp` and `GetBlockProof` of
`chain.cpp`.
-/

/-- What `SetCompact` gives: the number, and its two flags. -/
structure CompactTarget where
  target : Uint256
  fNegative : Bool
  fOverflow : Bool
  deriving DecidableEq

/-- `arith_uint256::SetCompact`.  The flags look at the mantissa after the shift to the
right. -/
def setCompact (nCompact : BitVec 32) : CompactTarget :=
  let nSize := (nCompact >>> 24).toNat
  let mantissa := nCompact &&& 0x007fffff
  let nWord := if nSize <= 3 then mantissa >>> (8 * (3 - nSize)) else mantissa
  let number := nWord.setWidth 256
  { target := if nSize <= 3 then number else number <<< (8 * (nSize - 3))
    fNegative := decide (nWord ≠ 0) && decide (nCompact &&& 0x00800000 ≠ 0)
    fOverflow := decide (nWord ≠ 0) &&
      (decide (34 < nSize) || (decide (0xff < nWord) && decide (33 < nSize)) ||
        (decide (0xffff < nWord) && decide (32 < nSize))) }

def checkProofOfWork (powLimit : Uint256) (hash : Uint256) (nBits : BitVec 32) : Bool :=
  let bn := setCompact nBits
  if bn.fNegative || decide (bn.target = 0) || bn.fOverflow || decide (powLimit < bn.target) then
    false
  else if bn.target < hash then
    false
  else
    true

/-- `GetBlockProof`: the number of hashes expected for the target. -/
def getBlockProof (nBits : BitVec 32) : Uint256 :=
  let bn := setCompact nBits
  if bn.fNegative || bn.fOverflow || decide (bn.target = 0) then
    0
  else
    ~~~bn.target / (bn.target + 1) + 1

end StakeCubeCoin.Primitives
