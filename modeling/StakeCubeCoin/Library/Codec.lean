import StakeCubeCoin.Library.Bytes

namespace StakeCubeCoin.Library

open List Bool Nat

/-!
# Reading back what was written

A reader takes bytes off the front of a byte string and may fail.  That it reads a value
from a byte string means that it does so whatever follows, and leaves what follows.  Fixed
width integers and integers of variable length are read back; records are put together
from them.
-/

/-- A reader of values at the front of a byte string. -/
abbrev Reader (α : Type) := StateT (List UInt8) Option α

/-- The reader takes exactly these bytes and gives the value.  As this holds before any rest,
encodings that are read one after another can be treated one by one. -/
def Reads {α : Type} (reader : Reader α) (bytes : List UInt8) (value : α) : Prop :=
  ∀ rest, reader.run (bytes ++ rest) = some (value, rest)

section

variable {α β : Type}

theorem reads_pure (value : α) : Reads (pure value) [] value :=
  fun _ => rfl

variable {reader : Reader α}

theorem Reads.bind {next : α -> Reader β} {first second : List UInt8} {value : α}
    {result : β} (now : Reads reader first value) (later : Reads (next value) second result) :
    Reads (reader >>= next) (first ++ second) result := by
  intro rest
  rw [StateT.run_bind, append_assoc, now]
  exact later rest

theorem Reads.last {bytes : List UInt8} {value : α} {build : α -> β} {result : β}
    (now : Reads reader bytes value) (built : build value = result) :
    Reads (reader >>= fun read => pure (build read)) bytes result := by
  have whole : Reads (reader >>= fun read => pure (build read)) (bytes ++ []) (build value) :=
    now.bind (reads_pure (build value))
  rwa [append_nil, built] at whole

def readIf (present : Bool) (reader : Reader α) (absent : α) : Reader α :=
  if present then reader else pure absent

theorem reads_readIf {present : Bool} {bytes : List UInt8} {value absent : α}
    (whenPresent : present = true -> Reads reader bytes value) :
    Reads (readIf present reader absent) (if present then bytes else [])
      (if present then value else absent) := by
  cases present with
  | true => exact whenPresent rfl
  | false => exact reads_pure absent

end

/-! ## What a reader can give -/

section

variable {α β : Type}

/-- Whatever the reader gives has the property. -/
def Gives (reader : Reader α) (property : α -> Prop) : Prop :=
  ∀ bytes value rest, reader.run bytes = some (value, rest) -> property value

theorem gives_any (reader : Reader α) : Gives reader fun _ => True :=
  fun _ _ _ _ => trivial

theorem gives_pure {value : α} {property : α -> Prop} (holds : property value) :
    Gives (pure value) property := by
  intro bytes result rest read
  cases read
  exact holds

theorem Gives.bind {reader : Reader α} {next : α -> Reader β} {property : α -> Prop}
    {result : β -> Prop} (first : Gives reader property)
    (later : ∀ value, property value -> Gives (next value) result) :
    Gives (reader >>= next) result := by
  intro bytes value rest read
  rcases Option.bind_eq_some_iff.mp read with ⟨⟨middle, left⟩, now, then_⟩
  exact later middle (first bytes middle left now) left value rest then_

end

def readLittleEndian (count : Nat) : Reader Nat := fun bytes =>
  if bytes.length < count then none else some (ofLittleEndian (bytes.take count), bytes.drop count)

variable {count : Nat}

theorem reads_littleEndian {value : Nat} (fits : value < 256 ^ count) :
    Reads (readLittleEndian count) (littleEndian count value) value := by
  intro rest
  change (if (littleEndian count value ++ rest).length < count then none else
    some (ofLittleEndian ((littleEndian count value ++ rest).take count),
      (littleEndian count value ++ rest).drop count)) = _
  have long : ¬((littleEndian count value ++ rest).length < count) := by
    rw [length_append, length_littleEndian]
    omega
  rw [if_neg long, take_left' (length_littleEndian count value),
    drop_left' (length_littleEndian count value), ofLittleEndian_littleEndian,
    mod_eq_of_lt fits]

theorem ofLittleEndian_lt (bytes : List UInt8) : ofLittleEndian bytes < 256 ^ bytes.length := by
  induction bytes with
  | nil => decide
  | cons byte _ _ =>
    have small := byte.toNat_lt
    rw [ofLittleEndian, length_cons]
    omega

theorem gives_readLittleEndian (count : Nat) :
    Gives (readLittleEndian count) fun value => value < 256 ^ count := by
  intro bytes value rest read
  change (if bytes.length < count then none else
    some (ofLittleEndian (bytes.take count), bytes.drop count)) = some (value, rest) at read
  split at read
  · cases read
  · next long =>
    cases read
    have bound := ofLittleEndian_lt (bytes.take count)
    rwa [length_take, Nat.min_eq_left (Nat.le_of_not_lt long)] at bound

variable {width : Nat}

theorem two_pow_le_bytes (fits : width <= 8 * count) : 2 ^ width <= 256 ^ count := by
  rw [show (256 : Nat) = 2 ^ 8 from rfl, <- Nat.pow_mul]
  exact Nat.pow_le_pow_right (by decide) fits

theorem reads_bitVec (value : BitVec width) (fits : width <= 8 * count) :
    Reads (readLittleEndian count) (littleEndian count value.toNat) value.toNat :=
  reads_littleEndian (lt_of_lt_of_le value.isLt (two_pow_le_bytes fits))

/-- Read a word of the given number of bits, which takes the given number of bytes. -/
def readWord (width count : Nat) : Reader (BitVec width) := do
  let value <- readLittleEndian count
  pure (BitVec.ofNat width value)

theorem reads_readWord (value : BitVec width) (fits : width <= 8 * count) :
    Reads (readWord width count) (littleEndian count value.toNat) value :=
  Reads.last (reads_bitVec value fits) (by simp only [BitVec.ofNat_toNat, BitVec.setWidth_eq])

def readTested {α : Type} (test : α -> Bool) (reader : Reader α) : Reader α := do
  let value <- reader
  if test value then pure value else failure

variable {bytes : List UInt8} {α : Type} {reader : Reader α}

theorem run_readTested {test : α -> Bool} {rest : List UInt8} {value : α} :
    (readTested test reader).run bytes = some (value, rest) <->
      reader.run bytes = some (value, rest) /\ test value = true := by
  rw [readTested, StateT.run_bind]
  constructor
  · intro read
    rcases Option.bind_eq_some_iff.mp read with ⟨⟨result, left⟩, now, later⟩
    split at later
    · next passes =>
      cases later
      exact ⟨now, passes⟩
    · cases later
  · rintro ⟨now, passes⟩
    simp [now, passes]

theorem reads_readTested {test : α -> Bool} {value : α} (reads : Reads reader bytes value)
    (passes : test value = true) : Reads (readTested test reader) bytes value :=
  fun rest => run_readTested.mpr ⟨reads rest, passes⟩

theorem gives_readTested (test : α -> Bool) (reader : Reader α) :
    Gives (readTested test reader) fun value => test value = true :=
  fun _ _ _ read => (run_readTested.mp read).2

/-- The bytes of a number that continues, highest first.  The first argument bounds the
number of rounds. -/
def continuedBytes : Nat -> Nat -> List UInt8
  | 0, _ => []
  | rounds + 1, n =>
    (if n <= 0x7F then [] else continuedBytes rounds (n / 128 - 1)) ++ [UInt8.ofNat (n % 128 + 128)]

def writeVarInt (n : Nat) : List UInt8 :=
  (if n <= 0x7F then [] else continuedBytes n (n / 128 - 1)) ++ [UInt8.ofNat (n % 128)]

/-- The loop of `ReadVarInt`, for numbers up to the given one. -/
def readVarIntLoop (max : Nat) : Nat -> List UInt8 -> Option (Nat × List UInt8)
  | _, [] => none
  | n, chData :: rest =>
    if max / 128 < n then none
    else if chData.toNat < 128 then some (n * 128 + chData.toNat % 128, rest)
    else if n * 128 + chData.toNat % 128 = max then none
    else readVarIntLoop max (n * 128 + chData.toNat % 128 + 1) rest

def readVarInt (max : Nat) : Reader Nat :=
  readVarIntLoop max 0

theorem toNat_ofNat_of_lt {n : Nat} (fits : n < 256) : (UInt8.ofNat n).toNat = n := by
  rw [UInt8.toNat_ofNat', mod_eq_of_lt fits]

variable {max : Nat}

theorem readVarIntLoop_continued {n digit : Nat} (rest : List UInt8) (fits : digit < 128)
    (before : n <= max / 128) (notLast : n * 128 + digit ≠ max) :
    readVarIntLoop max n (UInt8.ofNat (digit + 128) :: rest) =
      readVarIntLoop max (n * 128 + digit + 1) rest := by
  have byte : (UInt8.ofNat (digit + 128)).toNat = digit + 128 := toNat_ofNat_of_lt (by omega)
  have low : (digit + 128) % 128 = digit := by omega
  rw [readVarIntLoop, byte, low, if_neg (by omega), if_neg (by omega), if_neg notLast]

theorem continuedBytes_congr {rounds other n : Nat} (enough : n < rounds) (also : n < other) :
    continuedBytes rounds n = continuedBytes other n := by
  induction rounds generalizing other n with
  | zero => omega
  | succ rounds ih =>
    cases other with
    | zero => omega
    | succ other =>
      rw [continuedBytes, continuedBytes]
      split
      · rfl
      · rw [@ih other _ (by omega) (by omega)]

/-- The bytes after which the loop of `ReadVarInt` stands at a number. -/
def leadingBytes (n : Nat) : List UInt8 :=
  if n = 0 then [] else continuedBytes n (n - 1)

theorem leadingBytes_spec {n digit : Nat} (fits : digit < 128) :
    leadingBytes (n * 128 + digit + 1) = leadingBytes n ++ [UInt8.ofNat (digit + 128)] /\
      writeVarInt (n * 128 + digit) = leadingBytes n ++ [UInt8.ofNat digit] := by
  have low : (n * 128 + digit) % 128 = digit := by omega
  have higher : ∀ rounds, n <= rounds -> (if n * 128 + digit <= 0x7F then []
      else continuedBytes rounds ((n * 128 + digit) / 128 - 1)) = leadingBytes n := by
    intro rounds enough
    rw [show (n * 128 + digit) / 128 = n by omega]
    unfold leadingBytes
    by_cases zero : n = 0
    · rw [if_pos zero, if_pos (by omega)]
    · rw [if_neg zero, if_neg (by omega)]
      exact continuedBytes_congr (by omega) (by omega)
  constructor
  · rw [leadingBytes, if_neg (by omega), Nat.add_sub_cancel, continuedBytes, low, higher _ (by omega)]
  · rw [writeVarInt, low, higher _ (by omega)]

theorem readVarIntLoop_leadingBytes {n : Nat} (rest : List UInt8) (fits : n <= max / 128) :
    readVarIntLoop max 0 (leadingBytes n ++ rest) = readVarIntLoop max n rest := by
  induction n using Nat.strongRecOn generalizing rest with
  | ind n ih =>
    cases n with
    | zero => rfl
    | succ n =>
      have digit : n % 128 < 128 := Nat.mod_lt n (by decide)
      have whole : n / 128 * 128 + n % 128 = n := div_add_mod' n 128
      have split := (@leadingBytes_spec (n / 128) _ digit).1
      rw [whole] at split
      rw [split, append_assoc, ih (n / 128) (by omega) _ (by omega), singleton_append,
        readVarIntLoop_continued rest digit (by omega) (by omega), whole]

theorem reads_writeVarInt {n : Nat} (fits : n <= max) :
    Reads (readVarInt max) (writeVarInt n) n := by
  intro rest
  change readVarIntLoop max 0 (writeVarInt n ++ rest) = some (n, rest)
  have digit : n % 128 < 128 := Nat.mod_lt n (by decide)
  have whole : n / 128 * 128 + n % 128 = n := div_add_mod' n 128
  have split := (@leadingBytes_spec (n / 128) _ digit).2
  rw [whole] at split
  rw [split, append_assoc, readVarIntLoop_leadingBytes _ (by omega), singleton_append,
    readVarIntLoop, toNat_ofNat_of_lt (by omega), if_neg (by omega), if_pos digit, mod_mod, whole]

def MAX_SIZE : Nat := 0x02000000

def writeCompactSize (nSize : Nat) : List UInt8 :=
  if nSize < 253 then littleEndian 1 nSize
  else if nSize <= 0xffff then littleEndian 1 253 ++ littleEndian 2 nSize
  else if nSize <= 0xffffffff then littleEndian 1 254 ++ littleEndian 4 nSize
  else littleEndian 1 255 ++ littleEndian 8 nSize

/-- What follows the first byte of a size.  A size that fits into fewer bytes is refused. -/
def readCompactRest (chSize : Nat) : Reader Nat :=
  if chSize < 253 then pure chSize
  else if chSize = 253 then readTested (fun nSize => decide (253 <= nSize)) (readLittleEndian 2)
  else if chSize = 254 then readTested (fun nSize => decide (0x10000 <= nSize)) (readLittleEndian 4)
  else readTested (fun nSize => decide (0x100000000 <= nSize)) (readLittleEndian 8)

/-- `ReadCompactSize`, with the range check. -/
def readCompactSize : Reader Nat :=
  readTested (fun nSize => decide (nSize <= MAX_SIZE)) do
    let chSize <- readLittleEndian 1
    readCompactRest chSize

theorem reads_compactRest {nSize : Nat} (fits : nSize < 2 ^ 64) :
    Reads (readLittleEndian 1 >>= readCompactRest) (writeCompactSize nSize) nSize := by
  unfold writeCompactSize
  split
  · next short =>
    have whole : Reads (readLittleEndian 1 >>= readCompactRest) (littleEndian 1 nSize ++ []) nSize := by
      refine (reads_littleEndian (by omega)).bind ?_
      rw [readCompactRest, if_pos short]
      exact reads_pure nSize
    rwa [append_nil] at whole
  split
  · refine (reads_littleEndian (by decide)).bind ?_
    exact reads_readTested (reads_littleEndian (by omega)) (decide_eq_true (by omega))
  split
  · refine (reads_littleEndian (by decide)).bind ?_
    exact reads_readTested (reads_littleEndian (by omega)) (decide_eq_true (by omega))
  · refine (reads_littleEndian (by decide)).bind ?_
    exact reads_readTested (reads_littleEndian (by omega)) (decide_eq_true (by omega))

theorem reads_writeCompactSize {nSize : Nat} (fits : nSize <= MAX_SIZE) :
    Reads readCompactSize (writeCompactSize nSize) nSize :=
  reads_readTested (reads_compactRest (lt_of_le_of_lt fits (by decide))) (decide_eq_true fits)

/-- The number whose binary digits are given, lowest first. -/
def ofBits : List Bool -> Nat
  | [] => 0
  | bit :: rest => bit.toNat + 2 * ofBits rest

/-- The lowest binary digits of a number, lowest first. -/
def bitsOf : Nat -> Nat -> List Bool
  | 0, _ => []
  | count + 1, value => decide (value % 2 = 1) :: bitsOf count (value / 2)

variable (bits : List Bool)

theorem ofBits_lt : ofBits bits < 2 ^ bits.length := by
  induction bits with
  | nil => decide
  | cons bit _ _ =>
    rw [ofBits, length_cons]
    cases bit with
    | false => simp only [toNat_false]; omega
    | true => simp only [toNat_true]; omega

theorem bitsOf_ofBits : bitsOf bits.length (ofBits bits) = bits := by
  induction bits with
  | nil => rfl
  | cons bit rest ih =>
    have half : ofBits (bit :: rest) / 2 = ofBits rest := by
      rw [ofBits]
      cases bit with
      | false => simp only [toNat_false]; omega
      | true => simp only [toNat_true]; omega
    have low : decide (ofBits (bit :: rest) % 2 = 1) = bit := by
      rw [ofBits]
      cases bit with
      | false => simp only [toNat_false, decide_eq_false_iff_not]; omega
      | true => simp only [toNat_true, decide_eq_true_eq]; omega
    rw [length_cons, bitsOf, half, low, ih]

theorem length_bitsOf (count value : Nat) : (bitsOf count value).length = count := by
  induction count generalizing value with
  | zero => rfl
  | succ count ih => rw [bitsOf, length_cons, ih]

def writeFixedBitSet : List UInt8 :=
  littleEndian ((bits.length + 7) / 8) (ofBits bits)

/-- `ReadFixedBitSet`.  A bit beyond the size is refused. -/
def readFixedBitSet (size : Nat) : Reader (List Bool) := do
  let value <- readTested (fun value => decide (value < 2 ^ size)) (readLittleEndian ((size + 7) / 8))
  pure (bitsOf size value)

theorem reads_writeFixedBitSet :
    Reads (readFixedBitSet bits.length) (writeFixedBitSet bits) bits := by
  have number : ofBits bits < 256 ^ ((bits.length + 7) / 8) :=
    lt_of_lt_of_le (ofBits_lt bits) (two_pow_le_bytes (by omega))
  exact Reads.last (reads_readTested (reads_littleEndian number) (decide_eq_true (ofBits_lt bits)))
    (bitsOf_ofBits bits)

theorem gives_readFixedBitSet (size : Nat) :
    Gives (readFixedBitSet size) fun bits => bits.length = size :=
  (gives_any _).bind fun value _ => gives_pure (length_bitsOf size value)

def writeDynamicBitSet : List UInt8 :=
  writeCompactSize bits.length ++ writeFixedBitSet bits

def readDynamicBitSet : Reader (List Bool) :=
  readCompactSize >>= readFixedBitSet

theorem reads_writeDynamicBitSet {bits : List Bool} (fits : bits.length <= MAX_SIZE) :
    Reads readDynamicBitSet (writeDynamicBitSet bits) bits :=
  (reads_writeCompactSize fits).bind (reads_writeFixedBitSet bits)

theorem gives_readDynamicBitSet : Gives readDynamicBitSet fun bits => bits.length <= MAX_SIZE := by
  refine (gives_readTested _ _).bind ?_
  intro size small bytes value rest read
  rw [gives_readFixedBitSet size bytes value rest read]
  exact of_decide_eq_true small

def readBytes (count : Nat) : Reader (List UInt8) := fun bytes =>
  if bytes.length < count then none else some (bytes.take count, bytes.drop count)

theorem reads_readBytes (size : bytes.length = count) : Reads (readBytes count) bytes bytes := by
  intro rest
  change (if (bytes ++ rest).length < count then none else
    some ((bytes ++ rest).take count, (bytes ++ rest).drop count)) = _
  have long : ¬((bytes ++ rest).length < count) := by
    rw [length_append]
    omega
  rw [if_neg long, take_left' size, drop_left' size]

theorem gives_readBytes (count : Nat) :
    Gives (readBytes count) fun bytes => bytes.length = count := by
  intro bytes value rest read
  change (if bytes.length < count then none else some (bytes.take count, bytes.drop count)) =
    some (value, rest) at read
  split at read
  · cases read
  · cases read
    rw [length_take]
    omega

def writeVector (bytes : List UInt8) : List UInt8 :=
  writeCompactSize bytes.length ++ bytes

def readVector : Reader (List UInt8) :=
  readCompactSize >>= readBytes

theorem reads_writeVector (fits : bytes.length <= MAX_SIZE) :
    Reads readVector (writeVector bytes) bytes :=
  (reads_writeCompactSize fits).bind (reads_readBytes rfl)

theorem gives_readVector : Gives readVector fun bytes => bytes.length <= MAX_SIZE := by
  refine (gives_readTested _ _).bind ?_
  intro size small bytes value rest read
  rw [gives_readBytes size bytes value rest read]
  exact of_decide_eq_true small

def readMany {α : Type} (reader : Reader α) : Nat -> Reader (List α)
  | 0 => pure []
  | count + 1 => do
    let first <- reader
    let others <- readMany reader count
    pure (first :: others)

theorem reads_readMany {write : α -> List UInt8} (items : List α)
    (each : ∀ item ∈ items, Reads reader (write item) item) :
    Reads (readMany reader items.length) (items.flatMap write) items := by
  induction items with
  | nil => exact reads_pure []
  | cons item _ ih =>
    refine (each item (.head _)).bind ?_
    exact Reads.last (ih fun other member =>
      each other (.tail _ member)) rfl

def writeSequence (write : α -> List UInt8) (items : List α) : List UInt8 :=
  writeCompactSize items.length ++ items.flatMap write

def readSequence (reader : Reader α) : Reader (List α) :=
  readCompactSize >>= readMany reader

theorem reads_writeSequence {write : α -> List UInt8} {items : List α}
    (fits : items.length <= MAX_SIZE) (each : ∀ item ∈ items, Reads reader (write item) item) :
    Reads (readSequence reader) (writeSequence write items) items :=
  (reads_writeCompactSize fits).bind (reads_readMany items each)

/-- The two's complement of a number in 32 bits. -/
def writeInt32 (value : Int) : List UInt8 :=
  littleEndian 4 (BitVec.ofInt 32 value).toNat

def readInt32 : Reader Int := do
  let word <- readWord 32 4
  pure word.toInt

def IsInt32 (value : Int) : Prop :=
  -2 ^ 31 <= value /\ value < 2 ^ 31

theorem reads_writeInt32 {value : Int} (fits : IsInt32 value) :
    Reads readInt32 (writeInt32 value) value := by
  refine Reads.last (reads_readWord (BitVec.ofInt 32 value) (by decide)) ?_
  rw [BitVec.toInt_ofInt]
  exact Int.bmod_eq_of_le (by exact fits.1) (by exact fits.2)

def writeBigEndian (count value : Nat) : List UInt8 :=
  (littleEndian count value).reverse

def readBigEndian (count : Nat) : Reader Nat := do
  let bytes <- readBytes count
  pure (ofLittleEndian bytes.reverse)

theorem reads_writeBigEndian {value : Nat} (fits : value < 256 ^ count) :
    Reads (readBigEndian count) (writeBigEndian count value) value := by
  refine Reads.last (reads_readBytes (by rw [writeBigEndian, length_reverse, length_littleEndian]))
    ?_
  rw [writeBigEndian, reverse_reverse, ofLittleEndian_littleEndian, mod_eq_of_lt fits]

theorem gives_readBigEndian (count : Nat) :
    Gives (readBigEndian count) fun value => value < 256 ^ count := by
  refine (gives_readBytes count).bind ?_
  intro bytes size
  refine gives_pure ?_
  have bound := ofLittleEndian_lt bytes.reverse
  rwa [length_reverse, size] at bound

end StakeCubeCoin.Library
