import StakeCubeCoin.Library.Canonical

namespace StakeCubeCoin.Primitives

open Library List

/-!
# Numbers and sets of bits in serialize.h

Numbers of variable length and sizes have one encoding each, and no encoding begins with another
one.  A set of bits may be written as the offsets between the bits that are set.
-/

def getSizeOfVarInt (n : Nat) : Nat :=
  if n <= 0x7F then 1 else getSizeOfVarInt (n / 128 - 1) + 1

def getSizeOfCompactSize (nSize : Nat) : Nat :=
  if nSize < 253 then 1 else if nSize <= 0xffff then 1 + 2 else if nSize <= 0xffffffff then 1 + 4
  else 1 + 8

theorem length_leadingBytes (n : Nat) : (leadingBytes (n + 1)).length = getSizeOfVarInt n := by
  induction n using Nat.strongRecOn with
  | ind n ih =>
    have split := (@leadingBytes_spec (n / 128) (n % 128) (Nat.mod_lt n (by decide))).1
    rw [Nat.div_add_mod' n 128] at split
    rw [split, length_append, getSizeOfVarInt]
    by_cases short : n <= 0x7F
    · rw [if_pos short, Nat.div_eq_of_lt (by omega)]
      rfl
    · have later := ih (n / 128 - 1) (by omega)
      rw [if_neg short, <- later, Nat.sub_add_cancel (by omega)]
      rfl

theorem length_writeVarInt (n : Nat) : (writeVarInt n).length = getSizeOfVarInt n := by
  have split := @leadingBytes_spec (n / 128) (n % 128) (Nat.mod_lt n (by decide))
  rw [Nat.div_add_mod' n 128] at split
  rw [<- length_leadingBytes, split.1, split.2, length_append, length_append]
  rfl

theorem length_writeCompactSize (nSize : Nat) :
    (writeCompactSize nSize).length = getSizeOfCompactSize nSize := by
  unfold writeCompactSize getSizeOfCompactSize
  split_ifs <;> simp only [length_append, length_littleEndian]

/-- Both encodings are canonical: what is accepted encodes a number in range, the sizes are as
announced, and no encoding begins with another one. -/
theorem encodings_canonical : (∀ bits, 7 <= bits ->
      (∀ bytes value rest, (readVarInt (2 ^ bits - 1)).run bytes = some (value, rest) <->
        value < 2 ^ bits /\ bytes = writeVarInt value ++ rest) /\
      ∀ n < 2 ^ bits, (writeVarInt n).length = getSizeOfVarInt n /\
        ∀ other < 2 ^ bits, writeVarInt n <+: writeVarInt other -> n = other) /\
    (∀ bytes value rest, readCompactSize.run bytes = some (value, rest) <->
      value <= MAX_SIZE /\ bytes = writeCompactSize value ++ rest) /\
    ∀ nSize < 2 ^ 64, (writeCompactSize nSize).length = getSizeOfCompactSize nSize /\
      ∀ other < 2 ^ 64, writeCompactSize nSize <+: writeCompactSize other -> nSize = other := by
  refine ⟨fun bits wide => ?_, ?_, ?_⟩
  · have positive : 0 < 2 ^ bits := Nat.two_pow_pos bits
    have digits : (2 ^ bits - 1) % 128 = 127 := by
      rw [<- Nat.sub_add_cancel wide, Nat.pow_add] at positive ⊢
      omega
    have inRange : ∀ {n}, n < 2 ^ bits -> n <= 2 ^ bits - 1 := fun less => Nat.le_sub_one_of_lt less
    refine ⟨fun bytes value rest => ?_, fun n fits => ⟨length_writeVarInt n, fun other also => ?_⟩⟩
    · rw [run_readVarInt_iff digits, Nat.le_sub_one_iff_lt positive]
    · exact eq_of_starts (reads_writeVarInt (inRange fits)) (reads_writeVarInt (inRange also))
  · intro bytes value rest
    constructor
    · intro read
      exact ⟨of_decide_eq_true (run_readTested.mp read).2, (canonical_readCompactSize _ _ _ read).1⟩
    · rintro ⟨fits, rfl⟩
      exact reads_writeCompactSize fits rest
  · intro nSize fits
    exact ⟨length_writeCompactSize nSize, fun other also =>
      eq_of_starts (reads_compactRest fits) (reads_compactRest also)⟩

def toInt32 (value : Int) : Int :=
  value.bmod (2 ^ 32)

/-- The loop of `ReadFixedVarIntsBitSet`: the indices it writes, and what is left to be read unless
it throws.  The bytes bound the rounds. -/
def readIndices (size : Nat) : Nat -> Int -> List UInt8 -> List Int × Option (List UInt8)
  | 0, _, _ => ([], none)
  | rounds + 1, last, bytes =>
    match (readVarInt (2 ^ 32 - 1)).run bytes with
    | none => ([], none)
    | some (offset, rest) =>
      if offset = 0 then ([], some rest)
      else
        let idx := toInt32 (last + offset)
        if toInt32 size <= idx then ([], none)
        else if last ≠ -1 /\ idx <= last then ([], none)
        else
          let later := readIndices size rounds idx rest
          (idx :: later.1, later.2)

variable (size : Nat)

/-- The indices that `ReadFixedVarIntsBitSet` writes. -/
def writtenIndices (bytes : List UInt8) : List Int :=
  (readIndices size (bytes.length + 1) (-1) bytes).1

/-- Writes outside of the vector are undefined and leave no bit here. -/
def readFixedVarIntsBitSet : Reader (List Bool) := fun bytes =>
  (readIndices size (bytes.length + 1) (-1) bytes).2.map fun rest =>
    ((range size).map fun index : Nat => decide ((index : Int) ∈ writtenIndices size bytes), rest)

def writeIndices (last : Int) (i : Nat) : List Bool -> List UInt8
  | [] => writeVarInt 0
  | true :: vec => writeVarInt (i - last).toNat ++ writeIndices i (i + 1) vec
  | false :: vec => writeIndices last (i + 1) vec

def writeFixedVarIntsBitSet (vec : List Bool) : List UInt8 :=
  writeIndices (-1) 0 vec

def readAutoBitSet : Reader (List Bool) := do
  let isVarInts <- readLittleEndian 1
  if isVarInts = 0 then readFixedBitSet size
  else if isVarInts = 1 then readFixedVarIntsBitSet size
  else failure

def writeAutoBitSet (vec : List Bool) : List UInt8 :=
  if (writeFixedBitSet vec).length < (writeFixedVarIntsBitSet vec).length then
    littleEndian 1 0 ++ writeFixedBitSet vec
  else littleEndian 1 1 ++ writeFixedVarIntsBitSet vec

/-- The indices that are written exist and go up. -/
def OnlyExisting (written : List Int) : Prop :=
  (∀ idx ∈ written, 0 <= idx /\ idx < size) /\ written.Pairwise (· < ·)

/-- The first offset is above 2^31, so that the first index is negative. -/
def Underflows (bytes : List UInt8) : Prop :=
  ∃ offset rest, (readVarInt (2 ^ 32 - 1)).run bytes = some (offset, rest) /\ 2 ^ 31 < offset

variable {size : Nat}

theorem toInt32_size (small : size <= MAX_SIZE) : toInt32 size = size := by
  unfold MAX_SIZE at small
  exact Int.bmod_eq_of_le (by omega) (by omega)

theorem readIndices_after (small : size <= MAX_SIZE) (rounds : Nat) {last : Int} (found : 0 <= last)
    (bytes : List UInt8) :
    (∀ idx ∈ (readIndices size rounds last bytes).1, last < idx /\ idx < size) /\
      (readIndices size rounds last bytes).1.Pairwise (· < ·) := by
  induction rounds generalizing last bytes with
  | zero => simp [readIndices]
  | succ rounds ih =>
    unfold readIndices
    rw [toInt32_size small]
    split
    · simp
    next offset rest _ =>
    split
    · simp
    dsimp only
    generalize toInt32 (last + offset) = idx
    split
    · simp
    split
    · simp
    next below above =>
    have later := ih (show 0 <= idx by omega) rest
    refine ⟨forall_mem_cons.mpr ⟨by omega, fun other member => ?_⟩,
      pairwise_cons.mpr ⟨fun other member => (later.1 other member).1, later.2⟩⟩
    have after := later.1 other member
    omega

theorem onlyExisting_iff (small : size <= MAX_SIZE) (bytes : List UInt8) :
    OnlyExisting size (writtenIndices size bytes) <-> ¬Underflows bytes := by
  unfold writtenIndices readIndices Underflows
  rw [toInt32_size small]
  cases read : (readVarInt (2 ^ 32 - 1)).run bytes with
  | none => simp [OnlyExisting]
  | some pair =>
    rcases pair with ⟨offset, rest⟩
    have fits := ((run_readVarInt_iff (by decide)).mp read).1
    have under : (∃ other left, some (offset, rest) = some (other, left) /\ 2 ^ 31 < other) <-> 2 ^ 31 < offset := by
      simp
    rw [under]
    dsimp only
    split
    · next zero => simp [OnlyExisting, zero]
    by_cases large : 2 ^ 31 < offset
    · have negative : toInt32 (-1 + offset) < 0 := by
        unfold toInt32
        rw [Int.bmod_def]
        omega
      rw [if_neg (by omega)]
      refine iff_of_false (fun only => ?_) (not_not.mpr large)
      have first := (only.1 _ (.head _)).1
      omega
    · have idx : toInt32 (-1 + offset) = offset - 1 := by
        unfold toInt32
        rw [Int.bmod_def]
        omega
      refine iff_of_true ?_ large
      rw [idx]
      split
      · simp [OnlyExisting]
      have later := readIndices_after small bytes.length (show (0 : Int) <= offset - 1 by omega) rest
      refine ⟨forall_mem_cons.mpr ⟨by omega, fun other member => ?_⟩,
        pairwise_cons.mpr ⟨fun other member => (later.1 other member).1, later.2⟩⟩
      have after := later.1 other member
      omega

/-! ### Reading back -/

def setIndices (i : Nat) (vec : List Bool) : List Int :=
  ((vec.zipIdx i).filter Prod.fst).map fun entry => (entry.2 : Int)

theorem readIndices_writeIndices (small : size <= MAX_SIZE) {vec : List Bool} {i rounds : Nat}
    {last : Int} (least : -1 <= last) (before : last < i) (inside : i + vec.length <= size)
    (enough : (writeIndices last i vec).length <= rounds) (rest : List UInt8) :
    readIndices size rounds last (writeIndices last i vec ++ rest) = (setIndices i vec, some rest) := by
  unfold MAX_SIZE at small
  induction vec generalizing i last rounds with
  | nil =>
    cases rounds with
    | zero => cases enough
    | succ rounds => rw [readIndices]; rfl
  | cons bit vec ih =>
    rw [length_cons] at inside
    cases bit with
    | false => exact ih least (by omega) (by omega) enough
    | true =>
      rw [writeIndices, length_append, length_writeVarInt, getSizeOfVarInt] at enough
      cases rounds with
      | zero => split at enough <;> omega
      | succ rounds =>
        have offset : ((i - last).toNat : Int) = i - last := Int.toNat_of_nonneg (by omega)
        have idx : toInt32 (last + (i - last).toNat) = i := by
          rw [offset, show last + (i - last) = i by omega]
          exact Int.bmod_eq_of_le (by omega) (by omega)
        rw [writeIndices, append_assoc, readIndices, reads_writeVarInt (by omega)]
        dsimp only
        rw [idx, toInt32_size small, if_neg (by omega), if_neg (by omega), if_neg (by omega),
          ih (by omega) (by omega) (by omega) (by split at enough <;> omega)]
        rfl

theorem reads_writeFixedVarIntsBitSet {vec : List Bool} (small : vec.length <= MAX_SIZE) :
    Reads (readFixedVarIntsBitSet vec.length) (writeFixedVarIntsBitSet vec) vec := by
  intro rest
  have read := @readIndices_writeIndices vec.length small vec 0
    ((writeFixedVarIntsBitSet vec ++ rest).length + 1)
    (-1) (by omega) (by omega) (by omega) (by rw [length_append, writeFixedVarIntsBitSet]; omega) rest
  have bits : ((range vec.length).map fun index : Nat => decide ((index : Int) ∈ setIndices 0 vec)) = vec := by
    refine ext_getElem (by simp) fun index _ inside => ?_
    simp [setIndices, mk_mem_zipIdx_iff_getElem?, getElem?_eq_some_iff, inside]
  change (readIndices vec.length _ (-1) (writeFixedVarIntsBitSet vec ++ rest)).2.map _ = _
  unfold writtenIndices
  rw [writeFixedVarIntsBitSet] at read ⊢
  rw [read, bits]
  rfl

theorem reads_writeAutoBitSet {vec : List Bool} (small : vec.length <= MAX_SIZE) :
    Reads (readAutoBitSet vec.length) (writeAutoBitSet vec) vec := by
  unfold writeAutoBitSet
  split
  · exact (reads_littleEndian (by decide)).bind (reads_writeFixedBitSet vec)
  · exact (reads_littleEndian (by decide)).bind (reads_writeFixedVarIntsBitSet small)

theorem gives_readFixedVarIntsBitSet : Gives (readFixedVarIntsBitSet size) fun vec =>
    vec.length = size := by
  intro bytes vec rest read
  rcases Option.map_eq_some_iff.mp read with ⟨_, _, same⟩
  cases same
  rw [length_map, length_range]

/-- The indices that `ReadAutoBitSet` writes. -/
def autoIndices (size : Nat) : List UInt8 -> List Int
  | [] => []
  | isVarInts :: rest =>
    if isVarInts = 1 then writtenIndices size rest
    else if isVarInts = 0 /\ (size + 7) / 8 <= rest.length then (range size).map Int.ofNat
    else []

/-- Only bits that exist are set unless the first offset is too large, the vectors have the size
that was announced, and what was written is read back. -/
theorem bitSets_iff (size : Nat) (small : size <= MAX_SIZE) (bytes : List UInt8) :
    (OnlyExisting size (writtenIndices size bytes) <-> ¬Underflows bytes) /\
    (OnlyExisting size (autoIndices size bytes) <-> ¬∃ rest, bytes = 1 :: rest /\ Underflows rest) /\
    (∀ reader ∈ [readFixedBitSet size, readFixedVarIntsBitSet size, readAutoBitSet size],
      ∀ vec rest, reader.run bytes = some (vec, rest) -> vec.length = size) /\
    ∀ vec : List Bool, vec.length = size -> Reads (readFixedBitSet size) (writeFixedBitSet vec) vec /\
      Reads (readFixedVarIntsBitSet size) (writeFixedVarIntsBitSet vec) vec /\
      Reads (readAutoBitSet size) (writeAutoBitSet vec) vec := by
  refine ⟨onlyExisting_iff small bytes, ?_, ?_, ?_⟩
  · cases bytes with
    | nil => simp [autoIndices, OnlyExisting]
    | cons isVarInts rest =>
      rw [autoIndices]
      split
      · next form => simpa [form] using onlyExisting_iff small rest
      next form =>
      refine iff_of_true ?_ (by simp [form])
      split
      · exact ⟨by simp, pairwise_map.mpr (pairwise_lt_range.imp Int.ofNat_lt.mpr)⟩
      · simp [OnlyExisting]
  · simp only [forall_mem_cons]
    refine ⟨gives_readFixedBitSet size bytes, gives_readFixedVarIntsBitSet bytes, ?_, nofun⟩
    refine ((gives_any _).bind fun isVarInts _ => ?_) bytes
    split
    · exact gives_readFixedBitSet size
    split
    · exact gives_readFixedVarIntsBitSet
    · exact nofun
  · rintro vec rfl
    exact ⟨reads_writeFixedBitSet vec, reads_writeFixedVarIntsBitSet small, reads_writeAutoBitSet small⟩

theorem bitSets_iff_second_bit : OnlyExisting 8 (writtenIndices 8 [2, 0]) <-> ¬Underflows [2, 0] :=
  (bitSets_iff 8 (by decide) [2, 0]).1

/-- The offset 2^31 + 1 leads from -1 to an index that is negative. -/
theorem negative_index_is_written : 8 <= MAX_SIZE /\
    ¬OnlyExisting 8 (writtenIndices 8 [0x86, 0xFE, 0xFE, 0xFF, 0x01, 0x00]) := by
  refine ⟨by decide, fun only => ?_⟩
  exact absurd (only.1 (-2 ^ 31) (by decide +kernel)).1 (by decide)

end StakeCubeCoin.Primitives
