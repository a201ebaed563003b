import Mathlib.Data.List.Basic

namespace StakeCubeCoin.Primitives

/-!
# Merkle roots

`ComputeMerkleRoot` of `consensus/merkle.cpp`.  A level with an odd number of hashes is
completed with a copy of its last one, so lists that end in repetitions can have the root of a
shorter list; the flag reports a level in which two neighbours are the same.
-/

variable {Hash : Type} (hashPair : Hash -> Hash -> Hash)

/-- The next level: the last hash of an odd level is paired with itself. -/
def nextLevel : List Hash -> List Hash
  | [] => []
  | [last] => [hashPair last last]
  | left :: right :: rest => hashPair left right :: nextLevel rest

def levelMutated [DecidableEq Hash] : List Hash -> Bool
  | left :: right :: rest => decide (left = right) || levelMutated rest
  | _ => false

/-- The loop over the levels.  The first argument bounds the number of rounds. -/
def merkleLoop [DecidableEq Hash] (null : Hash) : Nat -> List Hash -> Bool -> Hash × Bool
  | rounds + 1, left :: right :: rest, mutated =>
    merkleLoop null rounds (nextLevel hashPair (left :: right :: rest))
      (mutated || levelMutated (left :: right :: rest))
  | _, hashes, mutated => (hashes.headD null, mutated)

/-- `ComputeMerkleRoot`: the root, and whether the list is mutated. -/
def computeMerkleRoot [DecidableEq Hash] (null : Hash) (hashes : List Hash) : Hash × Bool :=
  merkleLoop hashPair null hashes.length hashes false

end StakeCubeCoin.Primitives
