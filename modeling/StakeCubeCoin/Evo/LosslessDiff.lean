import StakeCubeCoin.Evo.BlockChanges

namespace StakeCubeCoin.Evo

open Primitives Coins Library
open Relation (ReflTransGen)
open CDeterministicMNList CDeterministicMNState List Function CDeterministicMNStateDiff Nat AList

/-!
# Differences are lossless along the chain

The list after a block is reached again from the list before it by the difference of the two.
`ApplyDiff` takes another way than the block did, but it meets no conflict, because nobody who stays
hands a property over.  The difference may be written to the database and read back in between:
everything that a block puts into a list fits into the bytes it is written with.
-/

/-! ## Lists that can be stored -/

namespace CDeterministicMNState

theorem Storable.banIfNotBanned {state : CDeterministicMNState} (storable : state.Storable)
    {height : Int} (fits : IsInt32 height) : (state.banIfNotBanned height).Storable := by
  unfold CDeterministicMNState.banIfNotBanned
  split
  · exact storable
  · exact { storable with nPoSeBanHeight := fits }

theorem Storable.resetOperatorFields {state : CDeterministicMNState} (storable : state.Storable) :
    state.resetOperatorFields.Storable :=
  { storable with
    nRevocationReason := storable_default.nRevocationReason
    pubKeyOperator := storable_default.pubKeyOperator
    addr := CService.readable_null
    scriptOperatorPayout := storable_default.scriptOperatorPayout }

end CDeterministicMNState

section

variable {Hash : Type} {env : ProviderEnv Hash} {vtx : List CTransaction}
  {list : CDeterministicMNList Hash} {proTxHash : Uint256} {state altered : CDeterministicMNState}

theorem Carries.gives {α : Type} {reader : Reader α} {property : α -> Prop}
    (gives : Gives reader property) {nType : TxType} {tx : CTransaction} {proTx : α}
    (carries : Carries vtx reader nType tx proTx) :
    property proTx :=
  Llmq.property_of_getTxPayload gives (payloadOf_eq_ok_iff.mp carries.payload)

theorem Alters.storable (alters : Alters env vtx list proTxHash state altered)
    (storable : state.Storable) (fits : IsInt32 list.nHeight)
    (size : list.calcMaxPoSePenalty < 2 ^ 31) : altered.Storable := by
  have minusOne : IsInt32 (-1) := by
    unfold IsInt32
    decide
  cases alters with
  | confirm _ => exact { storable with }
  | decrease positive =>
    have penalty := storable.nPoSePenalty
    have decreased : IsInt32 (state.nPoSePenalty - 1) := by
      unfold IsInt32 at *
      omega
    exact { storable with nPoSePenalty := decreased }
  | serve tx proTx carries own =>
    have readable := carries.gives (CProUpServTx.gives_unserialize _)
    have middle : Storable
      { state with addr := proTx.addr, scriptOperatorPayout := proTx.scriptOperatorPayout } :=
      { storable with
        addr := readable.addr
        scriptOperatorPayout := readable.scriptOperatorPayout }
    unfold servedState
    dsimp only
    split
    · exact { middle with
        nPoSePenalty := storable_default.nPoSePenalty
        nPoSeBanHeight := minusOne
        nPoSeRevivedHeight := fits }
    · exact middle
  | update tx proTx carries own =>
    have readable := carries.gives (CProUpRegTx.gives_unserialize _)
    unfold registrarState
    split
    · exact { storable.resetOperatorFields.banIfNotBanned fits with
        pubKeyOperator := readable.pubKeyOperator
        scriptPayout := readable.scriptPayout }
    · exact { storable with
        pubKeyOperator := readable.pubKeyOperator
        scriptPayout := readable.scriptPayout }
  | revoke proTx =>
    exact { storable.resetOperatorFields.banIfNotBanned fits with
      nRevocationReason := proTx.nReason.isLt }
  | punish penalty positive =>
    have lower := storable.nPoSePenalty.1
    have punished : IsInt32 (min list.calcMaxPoSePenalty (state.nPoSePenalty + penalty)) := by
      unfold IsInt32 calcMaxPoSePenalty at *
      omega
    have middle : Storable
      { state with nPoSePenalty := min list.calcMaxPoSePenalty (state.nPoSePenalty + penalty) } :=
      { storable with nPoSePenalty := punished }
    unfold punishedState
    dsimp only
    split
    · exact middle.banIfNotBanned fits
    · exact middle
  | pay => exact { storable with nLastPaidHeight := fits }

/-- The list can be stored: its members are values of the types that they have in the source. -/
structure StoredList (list : CDeterministicMNList Hash) : Prop where
  count : list.nTotalRegisteredCount < 2 ^ 32
  each : ∀ proTxHash dmn, list.getMN proTxHash = some dmn -> dmn.Storable

end

section

variable {Hash : Type} [DecidableEq Hash] {env : ProviderEnv Hash} {vtx : List CTransaction}
  {pindexPrev : IndexEntry} {view : CCoinsView} {old list after : CDeterministicMNList Hash}

/-- A list on the way has at most as many masternodes as there were before and transactions in the
block. -/
theorem Progress.length_le (progress : Progress env vtx view old list) :
    list.mnMap.entries.length <= old.mnMap.entries.length + vtx.length := by
  have covered : list.mnMap.keys ⊆ old.mnMap.keys ++ vtx.map CTransaction.hash := by
    intro proTxHash member
    rcases Option.isSome_iff_exists.mp (lookup_isSome.mpr (mem_keys.mpr member)) with
      ⟨dmn, listed⟩
    rcases progress.origin proTxHash dmn listed with ⟨former, before, _⟩ | ⟨tx, _, carries, _, hash, _⟩
    · refine mem_append_left _ (mem_keys.mp (lookup_isSome.mp ?_))
      exact Option.isSome_iff_exists.mpr ⟨former, before⟩
    · refine mem_append_right _ (mem_map.mpr ⟨tx, mem_of_mem_tail carries.member, ?_⟩)
      rw [<- hash]
      exact progress.wellFormed.keyed listed
  have bound := (subperm_of_subset list.mnMap.keys_nodup covered).length_le
  rw [length_append] at bound
  simpa only [AList.keys, List.keys, length_map] using bound

theorem StoredList.step (stored : StoredList list) (fits : IsInt32 list.nHeight)
    (size : list.mnMap.entries.length < 2 ^ 31) (step : BlockStep env vtx view list after) :
    StoredList after := by
  cases step with
  | leave proTxHash removed =>
    refine ⟨by rw [(of_removeMN removed).2.2]; exact stored.count, ?_⟩
    intro other dmn listed
    rw [(of_removeMN removed).1] at listed
    by_cases same : other = proTxHash
    · rw [same, update_self] at listed
      cases listed
    · rw [update_of_ne same] at listed
      exact stored.each other dmn listed
  | join tx proTx carries _ added =>
    refine ⟨by rw [(of_addMN added).2.2]; exact mod_lt _ (by decide), ?_⟩
    intro other dmn listed
    rw [(of_join added).2] at listed
    by_cases same : other = tx.hash
    · rw [same, update_self, Option.some.injEq] at listed
      rw [<- listed]
      have readable := carries.gives (CProRegTx.gives_unserialize _)
      have begun : Storable { ofProRegTx proTx with nRegisteredHeight := list.nHeight } :=
        { storable_default with
          nRegisteredHeight := fits
          pubKeyOperator := readable.pubKeyOperator
          addr := readable.addr
          scriptPayout := readable.scriptPayout }
      refine ⟨lt_trans stored.count (by decide), ?_, proTx.nOperatorReward.isLt, ?_⟩
      · simp only [registeredMN, collateralOf]
        split <;> exact readable.collateralOutpoint
      · simp only [registeredMN]
        split
        · exact begun.banIfNotBanned fits
        · exact begun
    · rw [update_of_ne same] at listed
      exact stored.each other dmn listed
  | alter proTxHash dmn _ listed alters updated =>
    refine ⟨by rw [(of_updateDmn updated).2.2]; exact stored.count, ?_⟩
    intro other found located
    rw [(of_updateDmn updated).1] at located
    by_cases same : other = dmn.proTxHash
    · rw [same, update_self, Option.some.injEq] at located
      rw [<- located]
      have before := stored.each proTxHash dmn listed
      refine { before with pdmnState := alters.storable before.pdmnState fits ?_ }
      unfold calcMaxPoSePenalty
      omega
    · rw [update_of_ne same] at located
      exact stored.each other found located

/-- The list, the height and the block are of sizes that the types of the source and the limit in
`serialize.h` have room for. -/
structure Fits (vtx : List CTransaction) (pindexPrev : IndexEntry)
    (old : CDeterministicMNList Hash) : Prop where
  stored : StoredList old
  height : IsInt32 ((pindexPrev.nHeight : Int) + 1)
  size : old.mnMap.entries.length + vtx.length <= MAX_SIZE

variable (injective : Function.Injective env.prim.serializeHash)
  (checks : ChecksPassed env vtx pindexPrev view old) (noCollision : NoCollision env vtx old)
  (oldOk : WellFormed env.prim old)

/-! ## Differences of a block -/

omit [DecidableEq Hash] in
theorem length_forEachMN_le (traversal : Traversal) (list : CDeterministicMNList Hash) :
    (list.forEachMN traversal false).length <= list.mnMap.entries.length := by
  refine le_trans (length_filter_le _ _) ?_
  rw [(traversal.perm_order list.mnMap).length_eq, length_map]

theorem storable_buildDiff {prim : Primitive Hash} (traversal : Traversal)
    {list toList : CDeterministicMNList Hash} (fromOk : WellFormed prim list)
    (toOk : WellFormed prim toList) (fromStored : StoredList list) (toStored : StoredList toList)
    (fromSize : list.mnMap.entries.length <= MAX_SIZE)
    (toSize : toList.mnMap.entries.length <= MAX_SIZE) :
    (list.buildDiff traversal toList).Storable where
  addedMNs := by
    simp only [buildDiff, length_insertionSort]
    exact le_trans (length_filter_le _ _) (le_trans (length_forEachMN_le _ _) toSize)
  updatedMNs := by
    simp only [buildDiff]
    rw [(emplaceAll_perm (nodup_updates traversal toOk.represented)).length_eq]
    exact le_trans (length_filterMap_le _ _) (le_trans (length_forEachMN_le _ _) toSize)
  removedMns := by
    rw [(removedMns_perm traversal fromOk.represented).length_eq, length_map]
    exact le_trans (length_filter_le _ _) (le_trans (length_forEachMN_le _ _) fromSize)
  added := by
    intro dmn member
    exact toStored.each _ dmn ((mem_addedMNs traversal toOk.represented).mp member).1
  updated := by
    intro update member
    rcases (mem_updatedMNs traversal toOk.represented).mp member with
      ⟨toMN, fromMN, inNew, _, _, shape⟩
    have storable := toStored.each _ toMN inNew
    rw [shape]
    exact ⟨storable.internalId, storable_ofStates storable.pdmnState, canonical_ofStates _ _⟩
  removed := by
    intro id member
    rcases (mem_removedMns traversal fromOk.represented).mp member with ⟨fromMN, listed, _, sameId⟩
    rw [<- sameId]
    exact (fromStored.each _ fromMN listed).internalId
  orderedUpdates := increasing_emplaceAll _
  orderedRemoved := by
    simp only [buildDiff]
    have same : ((fun id => (id, ())) ∘ Prod.fst : Nat × Unit -> Nat × Unit) = id := rfl
    rw [map_map, same, map_id]
    exact increasing_emplaceAll _

structure SameMaps (first second : CDeterministicMNList Hash) : Prop where
  mnMap : ∀ proTxHash, first.mnMap.lookup proTxHash = second.mnMap.lookup proTxHash
  mnInternalIdMap : ∀ id, first.mnInternalIdMap.lookup id = second.mnInternalIdMap.lookup id
  mnUniquePropertyMap : ∀ hash,
    first.mnUniquePropertyMap.lookup hash = second.mnUniquePropertyMap.lookup hash

/-- The difference that a block makes leads from the list before it to the list after it, also after
it was written to the database and read back, and the new list is well formed again. -/
theorem diff_of_block_lossless (env : ProviderEnv Hash) (vtx : List CTransaction)
    (pindexPrev : IndexEntry) (view : CCoinsView) (check_sigs : Bool)
    (old newList : CDeterministicMNList Hash)
    (injective : Function.Injective env.prim.serializeHash) (oldOk : WellFormed env.prim old)
    (noCollision : NoCollision env vtx old)
    (checks : ∀ tx ∈ vtx, checkSpecialTx env tx (some pindexPrev) old view check_sigs = .ok ())
    (built : buildNewListFromBlock env vtx pindexPrev view old = .ok newList)
    (blockHash : Uint256) (nHeight : Int) : WellFormed env.prim newList /\ (∃ result,
        old.applyDiff env.prim blockHash nHeight (old.buildDiff env.traversal newList) =
          (none, result) /\ SameMaps result newList) /\
      (Fits vtx pindexPrev old -> StoredList newList /\ ∃ diff,
        CDeterministicMNList.Diff.unserialize.run (old.buildDiff env.traversal newList).serialize =
          some (diff, []) /\ ∃ result,
          old.applyDiff env.prim blockHash nHeight diff = (none, result) /\ SameMaps result newList) := by
  have passed : ChecksPassed env vtx pindexPrev view old := ⟨check_sigs, checks⟩
  have progress := (progress_startedList oldOk).steps injective passed noCollision oldOk
    (steps_buildNewListFromBlock oldOk.represented built)
  have applied : ∃ result,
    old.applyDiff env.prim blockHash nHeight (old.buildDiff env.traversal newList) =
      (none, result) /\ SameMaps result newList := by
    rcases applyDiff_buildDiff injective env.traversal oldOk progress.wellFormed progress.noHandover
      progress.identity blockHash nHeight with ⟨result, applies, resultOk, members⟩
    have firstOk := resultOk.represented
    have secondOk := progress.wellFormed.represented
    have sameLookup : ∀ proTxHash, result.mnMap.lookup proTxHash = newList.mnMap.lookup proTxHash :=
      congrFun members
    refine ⟨result, applies, congrFun members, ?_, ?_⟩
    · intro id
      ext proTxHash
      rw [firstOk.ids, secondOk.ids, sameLookup]
    · intro hash
      ext entry
      rw [Library.Registry.lookup_eq_some_iff firstOk.single,
        Library.Registry.lookup_eq_some_iff secondOk.single, firstOk.owners, secondOk.owners, sameLookup]
  refine ⟨progress.wellFormed, applied, ?_⟩
  intro fits
  have steps := steps_buildNewListFromBlock oldOk.represented built
  have stored : StoredList newList := by
    clear built applied progress
    induction steps with
    | refl => exact ⟨fits.stored.count, fits.stored.each⟩
    | tail sofar step ih =>
      have progress := (progress_startedList oldOk).steps injective passed noCollision oldOk sofar
      have size := progress.length_le
      have limit : old.mnMap.entries.length + vtx.length <= 0x02000000 := fits.size
      refine StoredList.step ih ?_ (by omega) step
      rw [BlockSteps.nHeight_eq sofar]
      exact fits.height
  have storable := storable_buildDiff env.traversal oldOk progress.wellFormed fits.stored stored
    (le_trans (le_add_right _ _) fits.size) (le_trans progress.length_le fits.size)
  have readBack := Diff.reads_serialize storable []
  rw [append_nil] at readBack
  exact ⟨stored, _, readBack, applied⟩

end

/-! ## A block that registers a masternode -/

/-- Masternodes are passed through in the order of their hashes. -/
def Traversal.byHash : Traversal where
  order map := (map.entries.insertionSort fun first second => first.1.toNat <= second.1.toNat).map
    Sigma.snd
  perm_order _ := (perm_insertionSort _ _).map _

/-- No signature is asked for, and every address is valid. -/
def sampleProviderEnv : ProviderEnv UniqueProperty where
  prim := samplePrimitive
  scheme := { decodesPublicKey := fun _ => true, decodesSignature := fun _ => true }
  hash160 := fun _ => []
  traversal := Traversal.byHash
  DIP0003Height := 0
  DIP0003EnforcementHeight := 0
  nMasternodeMinimumConfirmations := 1
  isMain := false
  mainnetDefaultPort := 0
  requireRoutableExternalIP := false
  isValidAddr := fun _ => true
  isRoutable := fun _ => true
  calcTxInputsHash := fun _ => 0
  sha256 := fun _ => 0
  verifyMessage := fun _ _ => true
  verifyHash := fun _ _ => true
  verifyInsecureServ := fun _ _ => true
  verifyInsecureRev := fun _ _ => true
  checkOtherSpecialTx := fun _ => .ok ()
  getLLMQParams := fun _ => none
  getAllQuorumMembers := fun _ _ => []

def samplePayScript (byte : UInt8) : CScript :=
  [Opcode.OP_DUP, Opcode.OP_HASH160, 0x14] ++ replicate 20 byte ++
    [Opcode.OP_EQUALVERIFY, Opcode.OP_CHECKSIG]

/-- The payload of a registration with its collateral in the transaction itself and without an
address. -/
def sampleProRegPayload : List UInt8 :=
  [1, 0, 0, 0, 0, 0] ++ replicate 36 0 ++ replicate 18 0 ++ replicate 20 1 ++
    replicate 48 1 ++ replicate 20 2 ++ [0, 0] ++ (25 :: samplePayScript 3) ++
    replicate 32 0 ++ [0]

def sampleProRegTx : CTransaction where
  vin := []
  vout := [⟨collateralAmount, samplePayScript 4⟩]
  nVersion := 3
  nType := .providerRegister
  vExtraPayload := sampleProRegPayload
  hash := 7

def sampleRegisterBlock : List CTransaction :=
  [{ vin := [], vout := [], hash := 6 }, sampleProRegTx]

/-- The difference made by a block that registers a masternode, from an empty list. -/
theorem diff_of_block_lossless_registration : ∃ newList,
      buildNewListFromBlock sampleProviderEnv sampleRegisterBlock { hash := 5, below := [4] }
        (fun _ => none) {} = .ok newList /\
      (newList.getMN 7).isSome = true /\
      ∃ diff,
        CDeterministicMNList.Diff.unserialize.run
          (CDeterministicMNList.buildDiff Traversal.byHash {} newList).serialize = some (diff, []) /\
        ∃ result, CDeterministicMNList.applyDiff samplePrimitive {} 8 2 diff = (none, result) /\
          SameMaps result newList := by
  cases built : buildNewListFromBlock sampleProviderEnv sampleRegisterBlock
    { hash := 5, below := [4] } (fun _ => none) {} with
  | error _ =>
    have succeeds : (buildNewListFromBlock sampleProviderEnv sampleRegisterBlock
      { hash := 5, below := [4] } (fun _ => none) {}).toBool = true := by decide +kernel
    rw [built] at succeeds
    cases succeeds
  | ok newList =>
    have registers : ((buildNewListFromBlock sampleProviderEnv sampleRegisterBlock
      { hash := 5, below := [4] } (fun _ => none) {}).toOption.map fun list =>
        (list.getMN 7).isSome) = some true := by decide +kernel
    rw [built] at registers
    have lossless := diff_of_block_lossless sampleProviderEnv sampleRegisterBlock
      { hash := 5, below := [4] } (fun _ => none) false {} newList (fun _ _ same => same)
      ⟨represented_empty _ 0 (-1) 0, by simp [getMN]⟩
      (by intro tx proTx dmn _ _ found; simp [getMN] at found)
      (by decide +kernel) built 8 2
    have fits : Fits sampleRegisterBlock { hash := 5, below := [4] }
      ({} : CDeterministicMNList UniqueProperty) :=
      ⟨⟨by decide, by simp [getMN]⟩, by unfold IsInt32; decide, by decide⟩
    exact ⟨newList, rfl, Option.some.inj registers, (lossless.2.2 fits).2⟩

end StakeCubeCoin.Evo
