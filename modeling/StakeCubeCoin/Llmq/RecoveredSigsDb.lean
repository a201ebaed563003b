import StakeCubeCoin.Library.LruCache
import StakeCubeCoin.Library.OrderedStore
import StakeCubeCoin.Llmq.InstantSend

namespace StakeCubeCoin.Llmq

open Primitives Library List

/-!
# The database of recovered signatures and votes

`CRecoveredSigsDb` of `llmq/signing.{h,cpp}`.  A recovered signature leaves five records, a vote
two: the message it is for, and one under the time at which it was written.  Records under a time
are passed through with a cursor to find the old ones, so their keys have the time with the most
significant byte first.  Three caches answer whether there is a recovered signature.

Times are seconds in 32 bits.  The batches of a cleanup that grow beyond 16 MiB are written in
parts, which makes no difference to what is left.
-/

inductive RecSigKey where
  | recSig (llmqType : LLMQType) (id : Uint256)
  | recSigMsg (llmqType : LLMQType) (id msgHash : Uint256)
  | hash (recSigHash : Uint256)
  | session (signHash : Uint256)
  | time (seconds : BitVec 32) (llmqType : LLMQType) (id : Uint256)
  | vote (llmqType : LLMQType) (id : Uint256)
  | voteTime (seconds : BitVec 32) (llmqType : LLMQType) (id : Uint256)

namespace RecSigKey

def field (count : Nat) {width : Nat} (value : BitVec width) : List UInt8 :=
  littleEndian count value.toNat

/-- A time behind `htobe32`, as it is serialized on a little-endian host. -/
def swapped (time : BitVec 32) : List UInt8 :=
  (field 4 time).reverse

/-- The key as it is serialized: the name with its length, and the fields. -/
def bytes : RecSigKey -> List UInt8
  | .recSig llmqType id => [4, 0x72, 0x73, 0x5f, 0x72] ++ (field 1 llmqType ++ field 32 id)
  | .recSigMsg llmqType id msgHash =>
    [4, 0x72, 0x73, 0x5f, 0x72] ++ (field 1 llmqType ++ (field 32 id ++ field 32 msgHash))
  | .hash recSigHash => [4, 0x72, 0x73, 0x5f, 0x68] ++ field 32 recSigHash
  | .session signHash => [4, 0x72, 0x73, 0x5f, 0x73] ++ field 32 signHash
  | .time seconds llmqType id =>
    [4, 0x72, 0x73, 0x5f, 0x74] ++ (swapped seconds ++ (field 1 llmqType ++ field 32 id))
  | .vote llmqType id => [4, 0x72, 0x73, 0x5f, 0x76] ++ (field 1 llmqType ++ field 32 id)
  | .voteTime seconds llmqType id =>
    [5, 0x72, 0x73, 0x5f, 0x76, 0x74] ++ (swapped seconds ++ (field 1 llmqType ++ field 32 id))

theorem length_field (count : Nat) {width : Nat} (value : BitVec width) :
    (field count value).length = count := by
  rw [field, length_littleEndian]

theorem field_inj {count width : Nat} (fits : 2 ^ width <= 256 ^ count)
    {first second : BitVec width} (same : field count first = field count second) :
    first = second := by
  refine BitVec.eq_of_toNat_eq (littleEndian_injective ?_ ?_ same)
  · exact lt_of_lt_of_le first.isLt fits
  · exact lt_of_lt_of_le second.isLt fits

/-- A field in front of others can be told apart. -/
theorem field_append_inj {count width : Nat} (fits : 2 ^ width <= 256 ^ count)
    {first second : BitVec width} {rest other : List UInt8}
    (same : field count first ++ rest = field count second ++ other) :
    first = second /\ rest = other := by
  have parts := append_inj same (by rw [length_field, length_field])
  exact ⟨field_inj fits parts.1, parts.2⟩

theorem swapped_append_inj {first second : BitVec 32} {rest other : List UInt8}
    (same : swapped first ++ rest = swapped second ++ other) : first = second /\ rest = other := by
  have parts := append_inj same (by
    rw [swapped, swapped, length_reverse, length_reverse, length_field, length_field])
  exact ⟨field_inj (by decide) (reverse_injective parts.1), parts.2⟩

theorem typeId_inj {llmqType otherType : LLMQType} {id otherId : Uint256}
    (same : field 1 llmqType ++ field 32 id = field 1 otherType ++ field 32 otherId) :
    llmqType = otherType /\ id = otherId := by
  rcases field_append_inj (by decide) same with ⟨sameType, rest⟩
  exact ⟨sameType, field_inj (by decide) rest⟩

/-- Different keys are serialized differently. -/
theorem bytes_injective : Function.Injective bytes := by
  intro first second same
  have lengths := congrArg List.length same
  cases first <;> cases second
  case recSig.recSig | vote.vote =>
    rcases typeId_inj (append_cancel_left same) with ⟨rfl, rfl⟩
    rfl
  case recSigMsg.recSigMsg =>
    rcases field_append_inj (by decide) (append_cancel_left same) with ⟨rfl, rest⟩
    rcases field_append_inj (by decide) rest with ⟨rfl, last⟩
    rw [field_inj (by decide) last]
  -- These two kinds begin alike, but one is longer.
  case recSig.recSigMsg | recSigMsg.recSig => simp [bytes, length_field] at lengths
  case hash.hash | session.session => rw [field_inj (by decide) (append_cancel_left same)]
  case time.time | voteTime.voteTime =>
    rcases swapped_append_inj (append_cancel_left same) with ⟨rfl, rest⟩
    rcases typeId_inj rest with ⟨rfl, rfl⟩
    rfl
  all_goals simp [bytes] at same

/-- The bytes as numbers, which are compared one by one. -/
def rank (key : RecSigKey) : List Nat :=
  key.bytes.map UInt8.toNat

theorem rank_injective : Function.Injective rank :=
  (map_injective_iff.mpr fun _ _ => UInt8.toNat_inj.mp).comp bytes_injective

instance : LinearOrder RecSigKey :=
  LinearOrder.lift' rank rank_injective

end RecSigKey

inductive RecSigValue where
  | recSig (value : CRecoveredSig)
  | writeTime (value : BitVec 32)
  | typeId (llmqType : LLMQType) (id : Uint256)
  | present
  | msgHash (value : Uint256)
  deriving DecidableEq

abbrev RecSigStore := OrderedStore RecSigKey RecSigValue
abbrev RecSigOp := BatchOp RecSigKey RecSigValue

structure SigningHashes where
  getHash : CRecoveredSig -> Uint256
  buildSignHash : LLMQType -> Uint256 -> Uint256 -> Uint256 -> Uint256

/-- `BuildSignHash` of a recovered signature. -/
def SigningHashes.signHashOf (hashes : SigningHashes) (recSig : CRecoveredSig) : Uint256 :=
  hashes.buildSignHash recSig.llmqType recSig.quorumHash recSig.id recSig.msgHash

structure CRecoveredSigsDb where
  db : RecSigStore
  hasSigForIdCache : LruCache (LLMQType × Uint256) Bool := .empty 30000
  hasSigForSessionCache : LruCache Uint256 Bool := .empty 30000
  hasSigForHashCache : LruCache Uint256 Bool := .empty 30000

def seconds32 (time : Int) : BitVec 32 :=
  BitVec.ofInt 32 time

namespace CRecoveredSigsDb

variable (self : CRecoveredSigsDb) (llmqType : LLMQType) (id : Uint256)

def hasRecoveredSigForId : Bool × CRecoveredSigsDb :=
  match self.hasSigForIdCache.get (llmqType, id) with
  | (some ret, cache) => (ret, { self with hasSigForIdCache := cache })
  | (none, cache) =>
    let ret := self.db.has (.recSig llmqType id)
    (ret, { self with hasSigForIdCache := cache.insert (llmqType, id) ret })

def hasRecoveredSigForHash (hash : Uint256) : Bool × CRecoveredSigsDb :=
  match self.hasSigForHashCache.get hash with
  | (some ret, cache) => (ret, { self with hasSigForHashCache := cache })
  | (none, cache) =>
    let ret := self.db.has (.hash hash)
    (ret, { self with hasSigForHashCache := cache.insert hash ret })

/-- `ReadRecoveredSig`, which is also `GetRecoveredSigById`. -/
def readRecoveredSig : Option CRecoveredSig :=
  match self.db.read (.recSig llmqType id) with
  | some (.recSig recSig) => some recSig
  | _ => none

def hasVotedOnId : Bool :=
  self.db.has (.vote llmqType id)

def getVoteForId : Option Uint256 :=
  match self.db.read (.vote llmqType id) with
  | some (.msgHash msgHash) => some msgHash
  | _ => none

variable (hashes : SigningHashes)

def writeRecoveredSig (self : CRecoveredSigsDb) (recSig : CRecoveredSig)
    (adjustedTime : Int) : CRecoveredSigsDb :=
  let curTime := seconds32 adjustedTime
  let signHash := hashes.signHashOf recSig
  let batch : List RecSigOp :=
    [.write (.recSig recSig.llmqType recSig.id) (.recSig recSig),
      .write (.recSigMsg recSig.llmqType recSig.id recSig.msgHash) (.writeTime curTime),
      .write (.hash (hashes.getHash recSig)) (.typeId recSig.llmqType recSig.id),
      .write (.session signHash) .present,
      .write (.time curTime recSig.llmqType recSig.id) .present]
  { db := self.db.writeBatch batch
    hasSigForIdCache := self.hasSigForIdCache.insert (recSig.llmqType, recSig.id) true
    hasSigForSessionCache := self.hasSigForSessionCache.insert signHash true
    hasSigForHashCache := self.hasSigForHashCache.insert (hashes.getHash recSig) true }

/-- The batch and the caches after `RemoveRecoveredSig` with a batch. -/
def collectRemoval (deleteHashKey deleteTimeKey : Bool)
    (progress : List RecSigOp × CRecoveredSigsDb) (llmqType : LLMQType) (id : Uint256) :
    List RecSigOp × CRecoveredSigsDb :=
  let (batch, self) := progress
  match self.readRecoveredSig llmqType id with
  | none => (batch, self)
  | some recSig =>
    let signHash := hashes.signHashOf recSig
    let byHash : List RecSigOp := if deleteHashKey then [.erase (.hash (hashes.getHash recSig))] else []
    let byTime : List RecSigOp :=
      if deleteTimeKey then
        match self.db.read (.recSigMsg recSig.llmqType recSig.id recSig.msgHash) with
        | some (.writeTime writeTime) => [.erase (.time writeTime recSig.llmqType recSig.id)]
        | _ => []
      else []
    (batch ++ [.erase (.recSig recSig.llmqType recSig.id),
      .erase (.recSigMsg recSig.llmqType recSig.id recSig.msgHash)] ++ byHash ++
      [.erase (.session signHash)] ++ byTime,
      { self with
        hasSigForIdCache := self.hasSigForIdCache.erase (recSig.llmqType, recSig.id)
        hasSigForSessionCache := self.hasSigForSessionCache.erase signHash
        hasSigForHashCache :=
          if deleteHashKey then self.hasSigForHashCache.erase (hashes.getHash recSig)
          else self.hasSigForHashCache })

def commit (progress : List RecSigOp × CRecoveredSigsDb) : CRecoveredSigsDb :=
  { progress.2 with db := progress.2.db.writeBatch progress.1 }

def truncateRecoveredSig (self : CRecoveredSigsDb) (llmqType : LLMQType)
    (id : Uint256) : CRecoveredSigsDb :=
  commit (collectRemoval hashes false false ([], self) llmqType id)

/-- The loop of `CleanupOldRecoveredSigs` over the records under a time. -/
def oldRecoveredSigs (endTime : BitVec 32) :
    List (RecSigKey × RecSigValue) -> List (BitVec 32 × LLMQType × Uint256)
  | (.time time llmqType id, _) :: rest =>
    if endTime <= time then [] else (time, llmqType, id) :: oldRecoveredSigs endTime rest
  | _ => []

def cleanupOldRecoveredSigs (self : CRecoveredSigsDb) (maxAge adjustedTime : Int) :
    CRecoveredSigsDb :=
  let endTime := seconds32 (adjustedTime - maxAge)
  let toDelete := oldRecoveredSigs endTime (self.db.seek (.time 0 0 0))
  let (batch, removed) := toDelete.foldl
    (fun progress entry => collectRemoval hashes true false progress entry.2.1 entry.2.2) ([], self)
  commit (batch ++ toDelete.map fun entry => .erase (.time entry.1 entry.2.1 entry.2.2), removed)

def writeVoteForId (msgHash : Uint256) (adjustedTime : Int) : CRecoveredSigsDb :=
  { self with
    db := self.db.writeBatch
      [.write (.vote llmqType id) (.msgHash msgHash),
        .write (.voteTime (seconds32 adjustedTime) llmqType id) .present] }

/-- The loop of `CleanupOldVotes` over the records under a time. -/
def oldVotes (endTime : BitVec 32) :
    List (RecSigKey × RecSigValue) -> List (BitVec 32 × LLMQType × Uint256)
  | (.voteTime time llmqType id, _) :: rest =>
    if endTime <= time then [] else (time, llmqType, id) :: oldVotes endTime rest
  | _ => []

def cleanupOldVotes (maxAge adjustedTime : Int) : CRecoveredSigsDb :=
  let endTime := seconds32 (adjustedTime - maxAge)
  let toDelete := oldVotes endTime (self.db.seek (.voteTime 0 0 0))
  { self with
    db := self.db.writeBatch (toDelete.flatMap fun entry =>
      [.erase (.voteTime entry.1 entry.2.1 entry.2.2), .erase (.vote entry.2.1 entry.2.2)]) }

/-! ## The database of earlier versions -/

def isVoteRecord : RecSigKey × RecSigValue -> Bool
  | (.vote _ _, .msgHash _) => true
  | _ => false

/-- The records that `MigrateRecoveredSigs` copies: for each kind, where its cursor starts and
which records it passes.  The loops over recovered signatures stop at the first record of the
other kind. -/
def migratedKinds : List (RecSigKey × (RecSigKey × RecSigValue -> Bool)) :=
  [(.hash 0, fun | (.hash _, .typeId _ _) => true | _ => false),
    (.recSig 0 0, fun | (.recSig _ _, .recSig _) => true | _ => false),
    (.recSigMsg 0 0 0, fun | (.recSigMsg _ _ _, .writeTime _) => true | _ => false),
    (.session 0, fun | (.session _, .present) => true | _ => false),
    (.time 0 0 0, fun | (.time _ _ _, .present) => true | _ => false),
    (.vote 0 0, isVoteRecord),
    (.voteTime 0 0 0, fun | (.voteTime _ _ _, .present) => true | _ => false)]

def migrateRecoveredSigs (oldDb db : RecSigStore) : RecSigStore :=
  if !db.isEmpty then db
  else
    db.writeBatch (migratedKinds.flatMap fun kind =>
      ((oldDb.seek kind.1).takeWhile kind.2).map fun entry => .write entry.1 entry.2)

/-- The constructor, for a database that is there. -/
def create (oldDb db : RecSigStore) : CRecoveredSigsDb where
  db := migrateRecoveredSigs oldDb db

end CRecoveredSigsDb
end StakeCubeCoin.Llmq
