import Mathlib.Algebra.BigOperators.Group.Finset.Basic
import Mathlib.Algebra.Module.Defs
import StakeCubeCoin.Library.WorkerPool
import StakeCubeCoin.Primitives.Transaction

namespace StakeCubeCoin.Bls

open Primitives Library List

/-!
# Verification of contributions

`ContributionVerifier` of `bls/bls_worker.cpp`, with the aggregators it uses, and
`VerifyContributionShares`.  Every member of a quorum sends a verification vector and a secret
share for each other member; a share is right if its public key is the value of the vector at the
id of the receiver.  Shares are aggregated in batches of eight, together with the vectors, and the
shares of a batch are verified one by one only if their sum is wrong.

The keys are those of a module over a ring of numbers, which for the curve is the field of the
order of its group.  A key that is not valid has no number.  A batch of eight is aggregated as a
single batch of the aggregator, which has sixteen.
-/

/-- `CBLSSecretKey`, by its number. -/
abbrev SecretKey (Scalar : Type) := Option Scalar

/-- `CBLSPublicKey`, by its point. -/
abbrev PublicKey (Point : Type) := Option Point

/-- The generator, and the hashes of keys. -/
structure KeyGroup (Point : Type) where
  generator : Point
  getHash : Point -> Uint256

section

variable {Scalar Point : Type} [CommRing Scalar] [AddCommGroup Point] [Module Scalar Point]
  [DecidableEq Point]

/-- `Poly::Evaluate`, from the last coefficient on. -/
def evaluate (x : Scalar) : List Point -> Point
  | [] => 0
  | [last] => last
  | value :: rest => x • evaluate x rest + value

def publicKeyShare (mpk : List (PublicKey Point)) (forId : Option Scalar) : PublicKey Point :=
  match forId, mpk.mapM fun key => key with
  | some x, some points => if points.length < 2 then none else some (evaluate x points)
  | _, _ => none

variable (group : KeyGroup Point)

def getPublicKey (sk : SecretKey Scalar) : PublicKey Point :=
  sk.map fun number => number • group.generator

def verify (forId : Option Scalar) (vvec : List (PublicKey Point)) (skShare : SecretKey Scalar) :
    Bool :=
  match publicKeyShare vvec forId with
  | none => false
  | some pk1 => decide (getPublicKey group skShare = some pk1)

/-- `AggregateInsecure`, which asserts that both keys are valid. -/
def aggregateInsecure {Value : Type} [Add Value] (result key : Option Value) :
    Option (Option Value) :=
  match result, key with
  | some sum, some value => some (some (sum + value))
  | _, _ => none

/-- `SyncAggregate`, unless an assertion fails. -/
def syncAggregate {Value : Type} [Add Value] : List (Option Value) -> Option (Option Value)
  | [] => some none
  | first :: rest => rest.foldlM aggregateInsecure first

def validDistinct (keys : List (PublicKey Point)) : Bool :=
  match keys.mapM fun key => key with
  | none => false
  | some points => decide (points.map group.getHash).Nodup

def verifyVerificationVector (vvec : List (PublicKey Point)) : Bool :=
  validDistinct group vvec

/-- `VerifyVerificationVectors`.  Duplicates are looked for over all vectors. -/
def verifyVerificationVectors (vvecs : List (List (PublicKey Point))) : Bool :=
  vvecs.all (fun vvec => decide (vvec.length = (vvecs.headD []).length)) &&
    validDistinct group vvecs.flatten

end

/-- `BatchState`, and the vector aggregator of the batch. -/
structure BatchState (Scalar Point : Type) where
  result : Nat -> PublicKey Point := fun _ => none
  doneCount : Nat := 0
  vvec : Option (List (PublicKey Point)) := none
  skShare : SecretKey Scalar := none
  aggDone : Nat := 0
  verifyResults : Nat -> Bool := fun _ => false

/-- What the threads share, and the calls of `doneCallback`. -/
structure VerifierState (Scalar Point : Type) where
  batchStates : Nat -> BatchState Scalar Point := fun _ => {}
  verifyDoneCount : Nat := 0
  delivered : List (List Bool) := []
  assertionFailed : Bool := false

/-- What a thread does at a time. -/
inductive VerifierJob where
  | asyncAggregate (batchIdx : Nat)
  | pushOrDoWork (job : VerifierJob)
  | aggregateEntry (batchIdx entry : Nat)
  | checkDone (batchIdx : Nat)
  | handleAggVvecDone (batchIdx : Nat)
  | aggregateSkShare (batchIdx : Nat)
  | incAggDone (batchIdx : Nat)
  | handleAggDone (batchIdx : Nat)
  | aggregatedVerify (batchIdx : Nat)
  | asyncVerifyBatchOneByOne (batchIdx : Nat)
  | verifyOne (batchIdx index : Nat)
  | handleVerifyDone (count : Nat)
  | finish
  deriving DecidableEq

structure ContributionVerifier (Scalar Point : Type) where
  group : KeyGroup Point
  forId : Option Scalar
  vvecs : List (List (PublicKey Point))
  skShares : List (SecretKey Scalar)
  parallel : Bool
  aggregated : Bool

namespace ContributionVerifier

variable {Scalar Point : Type} [CommRing Scalar] [AddCommGroup Point] [Module Scalar Point]
  [DecidableEq Point] (self : ContributionVerifier Scalar Point)

def batchSize : Nat :=
  if self.aggregated then 8 else self.vvecs.length

def batchCount : Nat :=
  if self.aggregated then (self.vvecs.length + self.batchSize - 1) / self.batchSize else 1

variable (batchIdx : Nat)

def start : Nat :=
  batchIdx * self.batchSize

def count : Nat :=
  min self.batchSize (self.vvecs.length - self.start batchIdx)

def vecSize : Nat :=
  (self.vvecs.headD []).length

def batchVvecs : List (List (PublicKey Point)) :=
  (self.vvecs.drop (self.start batchIdx)).take (self.count batchIdx)

def batchShares : List (SecretKey Scalar) :=
  (self.skShares.drop (self.start batchIdx)).take (self.count batchIdx)

variable (state : VerifierState Scalar Point)

def updateBatch (batchIdx : Nat)
    (change : BatchState Scalar Point -> BatchState Scalar Point) : VerifierState Scalar Point :=
  { state with
    batchStates := Function.update state.batchStates batchIdx (change (state.batchStates batchIdx)) }

/-- The vector that `Finish` hands to the callback: entry `start + j` is entry `j` of its batch. -/
def collect : List Bool :=
  (range self.vvecs.length).map fun index =>
    (state.batchStates (index / self.batchSize)).verifyResults (index % self.batchSize)

/-- What a job does.  The callbacks of the aggregators run in the thread that aggregated. -/
def work : VerifierJob -> Effect (VerifierState Scalar Point) VerifierJob
  | .asyncAggregate batchIdx =>
    { shared := state
      calls := ((range self.vecSize).map fun entry =>
        .pushOrDoWork (.aggregateEntry batchIdx entry)) ++
        [.pushOrDoWork (.aggregateSkShare batchIdx)] }
  | .pushOrDoWork job =>
    if self.parallel then { shared := state, pushed := [job] }
    else { shared := state, calls := [job] }
  | .aggregateEntry batchIdx entry =>
    match syncAggregate ((self.batchVvecs batchIdx).map fun vvec => vvec.getD entry none) with
    | none => { shared := { state with assertionFailed := true } }
    | some key =>
      { shared := updateBatch state batchIdx fun batch =>
        { batch with result := Function.update batch.result entry key }
        calls := [.checkDone batchIdx] }
  | .checkDone batchIdx =>
    { shared := updateBatch state batchIdx fun batch => { batch with doneCount := batch.doneCount + 1 }
      calls :=
        if (state.batchStates batchIdx).doneCount + 1 = self.vecSize then [.handleAggVvecDone batchIdx] else [] }
  | .handleAggVvecDone batchIdx =>
    { shared := updateBatch state batchIdx fun batch =>
      { batch with vvec := some ((range self.vecSize).map batch.result) }
      calls := [.incAggDone batchIdx] }
  | .aggregateSkShare batchIdx =>
    match syncAggregate (self.batchShares batchIdx) with
    | none => { shared := { state with assertionFailed := true } }
    | some key =>
      { shared := updateBatch state batchIdx fun batch => { batch with skShare := key }
        calls := [.incAggDone batchIdx] }
  | .incAggDone batchIdx =>
    { shared := updateBatch state batchIdx fun batch => { batch with aggDone := batch.aggDone + 1 }
      calls := if (state.batchStates batchIdx).aggDone + 1 = 2 then [.handleAggDone batchIdx] else [] }
  | .handleAggDone batchIdx =>
    let batch := state.batchStates batchIdx
    if (batch.vvec.getD []).isEmpty || batch.skShare.isNone then
      { shared := updateBatch state batchIdx fun batch => { batch with verifyResults := fun _ => false }
        calls := [.handleVerifyDone (self.count batchIdx)] }
    else { shared := state, calls := [.pushOrDoWork (.aggregatedVerify batchIdx)] }
  | .aggregatedVerify batchIdx =>
    let batch := state.batchStates batchIdx
    if verify self.group self.forId (batch.vvec.getD []) batch.skShare then
      { shared := updateBatch state batchIdx fun batch => { batch with verifyResults := fun _ => true }
        calls := [.handleVerifyDone (self.count batchIdx)] }
    else { shared := state, calls := [.asyncVerifyBatchOneByOne batchIdx] }
  | .asyncVerifyBatchOneByOne batchIdx =>
    { shared := updateBatch state batchIdx fun batch => { batch with verifyResults := fun _ => false }
      calls := (range (self.count batchIdx)).map fun index => .pushOrDoWork (.verifyOne batchIdx index) }
  | .verifyOne batchIdx index =>
    { shared := updateBatch state batchIdx fun batch =>
      { batch with
        verifyResults := Function.update batch.verifyResults index
          (verify self.group self.forId (self.vvecs.getD (self.start batchIdx + index) [])
            (self.skShares.getD (self.start batchIdx + index) none)) }
      calls := [.handleVerifyDone 1] }
  | .handleVerifyDone count =>
    { shared := { state with verifyDoneCount := state.verifyDoneCount + count }
      calls := if state.verifyDoneCount + count = self.vvecs.length then [.finish] else [] }
  | .finish => { shared := { state with delivered := state.delivered ++ [self.collect state] } }

/-- `Start`: the thread that calls it has the batches to aggregate, or one batch to verify. -/
def startJobs : List VerifierJob :=
  if self.aggregated then (range self.batchCount).map .asyncAggregate
  else [.asyncVerifyBatchOneByOne 0]

/-- `AsyncVerifyContributionShares`.  A vector may be missing. -/
def asyncVerifyContributionShares (group : KeyGroup Point) (forId : Option Scalar)
    (vvecs : List (Option (List (PublicKey Point)))) (skShares : List (SecretKey Scalar))
    (parallel aggregated : Bool) : WorkerPool (VerifierState Scalar Point) VerifierJob :=
  let vectors := vvecs.map fun vvec => vvec.getD []
  if forId.isNone || !(vvecs.all Option.isSome && verifyVerificationVectors group vectors) then
    .ofThreads { delivered := [replicate vvecs.length false] } []
  else .ofThreads {} [startJobs ⟨group, forId, vectors, skShares, parallel, aggregated⟩]

/-- The state after some jobs, in the order of a schedule. -/
def verifyContributionShares (group : KeyGroup Point) (forId : Option Scalar)
    (vvecs : List (Option (List (PublicKey Point)))) (skShares : List (SecretKey Scalar))
    (parallel aggregated : Bool) (schedule : Nat -> Nat) (steps : Nat) :
    VerifierState Scalar Point :=
  (WorkerPool.run
    (work ⟨group, forId, vvecs.map fun vvec => vvec.getD [], skShares, parallel, aggregated⟩)
    VerifierState.assertionFailed
    (asyncVerifyContributionShares group forId vvecs skShares parallel aggregated) schedule steps).shared

end ContributionVerifier
end StakeCubeCoin.Bls
