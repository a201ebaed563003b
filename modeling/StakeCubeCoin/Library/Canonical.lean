import StakeCubeCoin.Library.Codec

namespace StakeCubeCoin.Library

open List

/-!
# Readers that accept one encoding only

A reader is canonical for a writer if it accepts a value only from the bytes that the writer
makes of the value, whatever follows them.  Then writing what was read gives back the bytes
that were read, and they are read again with the same result.
-/

section

variable {α β : Type}

/-- The reader takes a value from nothing but its encoding.  Together with `Reads` for every value,
readers and encodings are inverse to each other. -/
def Canonical (reader : Reader α) (write : α -> List UInt8) : Prop :=
  ∀ bytes value rest, reader.run bytes = some (value, rest) ->
    bytes = write value ++ rest /\ Reads reader (write value) value

variable {reader : Reader α} {write : α -> List UInt8}

theorem Canonical.run_bind (canonical : Canonical reader write)
    {next : α -> Reader β} {bytes rest : List UInt8} {result : β}
    (read : (reader >>= next).run bytes = some (result, rest)) :
    ∃ value, ∃ middle, bytes = write value ++ middle /\ Reads reader (write value) value /\
        (next value).run middle = some (result, rest) := by
  rcases Option.bind_eq_some_iff.mp read with ⟨⟨value, middle⟩, now, later⟩
  rcases canonical bytes value middle now with ⟨taken, reads⟩
  exact ⟨value, middle, taken, reads, later⟩

theorem run_pure_eq_some {value result : α} {bytes rest : List UInt8}
    (read : (pure value : Reader α).run bytes = some (result, rest)) :
    value = result /\ bytes = rest := by
  cases read
  exact ⟨rfl, rfl⟩

theorem canonical_readTested (test : α -> Bool)
    (canonical : Canonical reader write) : Canonical (readTested test reader) write := by
  intro bytes value rest read
  rcases run_readTested.mp read with ⟨inner, passes⟩
  rcases canonical bytes value rest inner with ⟨taken, reads⟩
  exact ⟨taken, reads_readTested reads passes⟩

/-- Of two encodings that are read, none begins with the other one. -/
theorem eq_of_starts {first second : α} (one : Reads reader (write first) first)
    (other : Reads reader (write second) second) (starts : write first <+: write second) :
    first = second := by
  rcases starts with ⟨more, same⟩
  have whole := other []
  rw [append_nil, <- same, one more] at whole
  cases whole
  rfl

end

theorem littleEndian_ofLittleEndian (bytes : List UInt8) :
    littleEndian bytes.length (ofLittleEndian bytes) = bytes := by
  induction bytes with
  | nil => rfl
  | cons byte rest ih =>
    have small : byte.toNat < 256 := byte.toNat_lt
    have higher : (byte.toNat + 256 * ofLittleEndian rest) / 256 = ofLittleEndian rest := by omega
    have lowest : UInt8.ofNat (byte.toNat + 256 * ofLittleEndian rest) = byte := by
      apply UInt8.toNat_inj.mp
      rw [UInt8.toNat_ofNat']
      omega
    rw [length_cons, ofLittleEndian, littleEndian, higher, lowest, ih]

theorem canonical_readLittleEndian (count : Nat) :
    Canonical (readLittleEndian count) (littleEndian count) := by
  intro bytes value rest read
  have fits := gives_readLittleEndian count bytes value rest read
  refine ⟨?_, reads_littleEndian fits⟩
  change (if bytes.length < count then none else
    some (ofLittleEndian (bytes.take count), bytes.drop count)) = some (value, rest) at read
  split at read
  · cases read
  next _ =>
  cases read
  have size : (bytes.take count).length = count := by
    rw [length_take]
    omega
  have taken := littleEndian_ofLittleEndian (bytes.take count)
  rw [size] at taken
  rw [taken, take_append_drop]

theorem canonical_readWord (width count : Nat) (fits : width = 8 * count) :
    Canonical (readWord width count) (fun word => littleEndian count word.toNat) := by
  intro bytes word rest read
  rcases (canonical_readLittleEndian count).run_bind read with ⟨value, _, taken, reads, later⟩
  have bound : value < 256 ^ count := by
    have whole := reads []
    exact gives_readLittleEndian count _ value [] whole
  rcases run_pure_eq_some later with ⟨rfl, rfl⟩
  have same : (BitVec.ofNat width value).toNat = value := by
    rw [BitVec.toNat_ofNat, fits, Nat.pow_mul]
    exact Nat.mod_eq_of_lt bound
  refine ⟨?_, reads_readWord _ (by omega)⟩
  simp only [same]
  exact taken

/-- For numbers of whole bits, `ReadVarInt` accepts exactly the encodings of numbers that fit. -/
theorem run_readVarInt_iff {max : Nat} (digits : max % 128 = 127) {bytes rest : List UInt8}
    {value : Nat} :
    (readVarInt max).run bytes = some (value, rest) <-> value <= max /\ bytes = writeVarInt value ++ rest := by
  constructor
  · intro read
    suffices loop : ∀ n, readVarIntLoop max n bytes = some (value, rest) ->
        value <= max /\ leadingBytes n ++ bytes = writeVarInt value ++ rest from loop 0 read
    clear read
    induction bytes with
    | nil => exact nofun
    | cons byte bytes ih =>
      intro n read
      have small := byte.toNat_lt
      have spec := @leadingBytes_spec n (byte.toNat % 128) (by omega)
      rw [readVarIntLoop] at read
      split at read
      · cases read
      split at read
      · next last =>
        cases read
        rw [spec.2, Nat.mod_eq_of_lt last, UInt8.ofNat_toNat, append_assoc]
        exact ⟨by omega, rfl⟩
      · next more =>
        split at read
        · cases read
        have later := ih _ read
        rw [spec.1, show byte.toNat % 128 + 128 = byte.toNat by omega, UInt8.ofNat_toNat, append_assoc] at later
        exact later
  · rintro ⟨fits, rfl⟩
    exact reads_writeVarInt fits rest

/-- A size that is read has been written in the shortest way. -/
theorem canonical_compactRest :
    Canonical (readLittleEndian 1 >>= readCompactRest) writeCompactSize := by
  intro bytes value rest read
  rcases (canonical_readLittleEndian 1).run_bind read with ⟨chSize, middle, rfl, reads, later⟩
  have bound : chSize < 256 := gives_readLittleEndian 1 _ chSize [] (reads [])
  -- The first byte decides how many follow; each form excludes the values of the shorter ones.
  have longer : ∀ (count least : Nat),
    (readTested (fun nSize => decide (least <= nSize)) (readLittleEndian count)).run middle = some (value, rest) ->
    least <= value /\ middle = littleEndian count value ++ rest /\ value < 256 ^ count := by
    intro count least tested
    rcases run_readTested.mp tested with ⟨inner, large⟩
    exact ⟨of_decide_eq_true large, (canonical_readLittleEndian count _ _ _ inner).1,
      gives_readLittleEndian count _ _ _ inner⟩
  suffices fits : value < 2 ^ 64 /\ littleEndian 1 chSize ++
    middle = writeCompactSize value ++ rest from ⟨fits.2, reads_compactRest fits.1⟩
  unfold readCompactRest at later
  unfold writeCompactSize
  split at later
  · next short =>
    rcases run_pure_eq_some later with ⟨rfl, rfl⟩
    exact ⟨by omega, by rw [if_pos short]⟩
  split at later
  · next two =>
    rcases longer 2 253 later with ⟨large, taken, small⟩
    exact ⟨by omega, by rw [if_neg (by omega), if_pos (by omega), two, taken, append_assoc]⟩
  split at later
  · next four =>
    rcases longer 4 0x10000 later with ⟨large, taken, small⟩
    exact ⟨by omega, by
      rw [if_neg (by omega), if_neg (by omega), if_pos (by omega), four, taken, append_assoc]⟩
  · rcases longer 8 0x100000000 later with ⟨large, taken, small⟩
    have marker : chSize = 255 := by omega
    exact ⟨by omega, by
      rw [if_neg (by omega), if_neg (by omega), if_neg (by omega), marker, taken, append_assoc]⟩

theorem canonical_readCompactSize : Canonical readCompactSize writeCompactSize :=
  canonical_readTested _ canonical_compactRest

end StakeCubeCoin.Library
