import StakeCubeCoin.Evo.BlockSteps
import StakeCubeCoin.Evo.DiffCodec

namespace StakeCubeCoin.Evo

open Primitives Coins Library Library.Roster Library.Registry Relation
  CDeterministicMNState Function
open CDeterministicMNList CProRegTx

/-!
# What a block may change

The transactions of a block have passed `CheckSpecialTx` against the list before the block.
It follows that the steps in which the list after the block is built hand no property over from
a masternode that stays to another one, that masternodes keep their identity, and that every
masternode was in the list before or was registered in the block.
-/

section

variable {Hash : Type} [DecidableEq Hash] {prim : Primitive Hash} {list : CDeterministicMNList Hash}

variable {dmn : CDeterministicMN} {proTxHash : Uint256} {property : UniqueProperty}

theorem Represented.getUniquePropertyMN_eq (represented : Represented prim list)
    (listed : list.getMN proTxHash = some dmn) (holds : Holds prim dmn property) :
    list.hasUniqueProperty prim property = true /\ list.getUniquePropertyMN prim property = some dmn := by
  have owned := (represented.held_iff listed _).mpr ⟨property, holds, rfl⟩
  rw [owner, Option.map_eq_some_iff] at owned
  rcases owned with ⟨entry, found, same⟩
  unfold hasUniqueProperty getUniquePropertyMN
  rw [found]
  refine ⟨rfl, ?_⟩
  change list.getMN entry.1 = some dmn
  rw [same]
  exact listed

theorem Represented.not_holds_of_free (represented : Represented prim list)
    (free : list.hasUniqueProperty prim property = false)
    (listed : list.getMN proTxHash = some dmn) :
    ¬Holds prim dmn property := by
  intro holds
  have present := (represented.getUniquePropertyMN_eq listed holds).1
  rw [free] at present
  cases present

/-- Who holds a property that passed a test of its owner is who the test was made of. -/
theorem Represented.test_of_testOwner (represented : Represented prim list)
    {test : CDeterministicMN -> Bool} (passed : list.testOwner prim property test = .ok true)
    (listed : list.getMN proTxHash = some dmn) (holds : Holds prim dmn property) :
    test dmn = true := by
  rcases represented.getUniquePropertyMN_eq listed holds with ⟨present, found⟩
  unfold testOwner at passed
  rw [if_pos present, found] at passed
  exact Except.ok.inj passed

end

/-! ## What the checks establish -/

section

variable {Hash : Type} [DecidableEq Hash] {env : ProviderEnv Hash} {tx : CTransaction}
  {old : CDeterministicMNList Hash} {view : CCoinsView}

/-- A registration that passed the checks. -/
structure RegisterChecked (env : ProviderEnv Hash) (tx : CTransaction) (proTx : CProRegTx)
    (old : CDeterministicMNList Hash) (view : CCoinsView) : Prop where
  ownerKey : proTx.keyIDOwner ≠ 0
  operatorKey : isValidKey env.toPayloadEnv proTx.pubKeyOperator = true
  addr : ∀ proTxHash dmn, old.getMN proTxHash = some dmn ->
    Holds env.prim dmn (.addr proTx.addr) -> dmn.collateralOutpoint = collateralOf tx proTx
  freshOwner : ∀ proTxHash dmn, old.getMN proTxHash = some dmn ->
    ¬Holds env.prim dmn (.keyIDOwner proTx.keyIDOwner)
  freshOperator : ∀ proTxHash dmn, old.getMN proTxHash = some dmn ->
    ¬Holds env.prim dmn (.pubKeyOperator proTx.pubKeyOperator)
  /-- An internal collateral is an output of the right amount that can be spent. -/
  internal : proTx.collateralOutpoint.hash.isNull = true ->
    ∃ out, tx.vout[proTx.collateralOutpoint.n]? = some out /\
      out.nValue = collateralAmount /\ out.scriptPubKey.isUnspendable = false

variable {proTx : CProRegTx}

omit [DecidableEq Hash] in
theorem isTriviallyValid_keys {penv : PayloadEnv Hash}
    (valid : proTx.isTriviallyValid penv = .ok ()) :
    proTx.keyIDOwner ≠ 0 /\ isValidKey penv proTx.pubKeyOperator = true := by
  simp only [isTriviallyValid, bind_eq_ok_iff, require_eq_ok_iff, Bool.and_eq_true,
    decide_eq_true_eq] at valid
  rcases valid with ⟨_, _, _, _, _, _, _, keys, _⟩
  exact keys.1

omit [DecidableEq Hash] in
theorem checkCollateral_spec {collateral : CollateralView}
    (passed : checkCollateral env tx proTx view = .ok collateral) :
    collateral.collateralOutpoint = collateralOf tx proTx /\
      (proTx.collateralOutpoint.hash.isNull = true ->
        ∃ out, tx.vout[proTx.collateralOutpoint.n]? = some out /\
          out.nValue = collateralAmount /\ out.scriptPubKey.isUnspendable = false) := by
  unfold checkCollateral at passed
  unfold collateralOf
  split at passed
  · next internal =>
    unfold checkInternalCollateral at passed
    split at passed
    · cases passed
    next out found =>
    rcases bind_eq_ok_iff.mp passed with ⟨_, amount, passed⟩
    rw [require_eq_ok_iff, decide_eq_true_eq] at amount
    split at passed
    · cases passed
    next _ extracted =>
    cases passed
    rw [if_pos internal]
    exact ⟨rfl, fun _ => ⟨out, found, amount, isUnspendable_of_extractDestination extracted⟩⟩
  · next external =>
    rcases bind_eq_ok_iff.mp passed with ⟨_, _, passed⟩
    split at passed
    · cases passed
    · cases passed
    · cases passed
      rw [if_neg external]
      exact ⟨rfl, fun internal => absurd internal external⟩

end

section

variable {Hash : Type} {env : ProviderEnv Hash} {vtx : List CTransaction}
  {list : CDeterministicMNList Hash} {proTxHash : Uint256} {state altered : CDeterministicMNState}

variable (state : CDeterministicMNState) (height : Int)

@[simp] theorem keyIDOwner_banIfNotBanned :
    (state.banIfNotBanned height).keyIDOwner = state.keyIDOwner := by
  unfold banIfNotBanned
  split <;> rfl

@[simp] theorem addr_banIfNotBanned : (state.banIfNotBanned height).addr = state.addr := by
  unfold banIfNotBanned
  split <;> rfl

@[simp] theorem pubKeyOperator_banIfNotBanned :
    (state.banIfNotBanned height).pubKeyOperator = state.pubKeyOperator := by
  unfold banIfNotBanned
  split <;> rfl

/-- The members that are unique properties are those of another state. -/
structure SameProperties (state altered : CDeterministicMNState) : Prop where
  keyIDOwner : altered.keyIDOwner = state.keyIDOwner
  addr : altered.addr = state.addr
  pubKeyOperator : altered.pubKeyOperator = state.pubKeyOperator

theorem sameProperties_registeredMN (tx : CTransaction) (proTx : CProRegTx) (internalId : Nat)
    (nHeight : Int) : SameProperties (ofProRegTx proTx)
      (registeredMN tx proTx internalId nHeight).pdmnState := by
  simp only [registeredMN]
  split
  · exact ⟨by simp, by simp, by simp⟩
  · exact ⟨rfl, rfl, rfl⟩

/-- The owner's key never changes.  An address or an operator key is kept, dropped or taken from an
update. -/
theorem Alters.properties (alters : Alters env vtx list proTxHash state altered) :
    altered.keyIDOwner = state.keyIDOwner /\
    (altered.addr = state.addr \/ altered.addr = CService.null \/ ∃ tx, ∃ proTx : CProUpServTx,
        Carries vtx (CProUpServTx.unserialize env.toPayloadEnv) .providerUpdateService tx proTx /\
        proTx.proTxHash = proTxHash /\ altered.addr = proTx.addr) /\
    (altered.pubKeyOperator = state.pubKeyOperator \/
      altered.pubKeyOperator = CBLSLazyPublicKey.null \/ ∃ tx, ∃ proTx : CProUpRegTx,
        Carries vtx (CProUpRegTx.unserialize env.toPayloadEnv) .providerUpdateRegistrar tx proTx /\
        proTx.proTxHash = proTxHash /\ altered.pubKeyOperator = proTx.pubKeyOperator) := by
  cases alters with
  | serve tx proTx carries own =>
    refine ⟨?_, .inr (.inr ⟨tx, proTx, carries, own, ?_⟩), .inl ?_⟩ <;> simp only [servedState] <;> split <;> rfl
  | update tx proTx carries own =>
    refine ⟨?_, ?_, .inr (.inr ⟨tx, proTx, carries, own, rfl⟩)⟩ <;> simp only [registrarState] <;> split
    · simp [resetOperatorFields]
    · rfl
    · exact .inr (.inl (by simp [resetOperatorFields]))
    · exact .inl rfl
  | revoke proTx =>
    simp [revokedState, resetOperatorFields]
  | punish penalty _ =>
    unfold punishedState
    dsimp only
    split
    · exact ⟨by simp, .inl (by simp), .inl (by simp)⟩
    · exact ⟨rfl, .inl rfl, .inl rfl⟩
  | _ => exact ⟨rfl, .inl rfl, .inl rfl⟩

end

section

variable {Hash : Type} [DecidableEq Hash] {prim : Primitive Hash}
  {list after : CDeterministicMNList Hash}

theorem unlisted_of_addMN {dmn : CDeterministicMN} {fBumpTotalCount : Bool}
    (added : list.addMN prim dmn fBumpTotalCount = (none, after)) :
    list.getMN dmn.proTxHash = none /\ dmn.internalId ≠ INVALID_ID /\
      dmn.collateralOutpoint.isNull = false := by
  obtain ⟨unlisted, identified, _, _, attempted⟩ := addMN_eq_none_iff.mp (congrArg Prod.fst added)
  exact ⟨unlisted, identified, ((attempt_addSteps prim).mp attempted).1.1⟩

theorem of_join {tx : CTransaction} {proTx : CProRegTx} {internalId : Nat} {nHeight : Int}
    (added : list.addMN prim (registeredMN tx proTx internalId nHeight) = (none, after)) :
    list.getMN tx.hash = none /\ after.getMN =
      update list.getMN tx.hash (some (registeredMN tx proTx internalId nHeight)) :=
  ⟨(unlisted_of_addMN added).1, (of_addMN added).1⟩

end

variable {Hash : Type} [DecidableEq Hash] (env : ProviderEnv Hash) (vtx : List CTransaction)
  (pindexPrev : IndexEntry) (view : CCoinsView) (old : CDeterministicMNList Hash)

/-- All transactions of a block pass `CheckSpecialTx` against the list before the block. -/
def ChecksPassed : Prop :=
  ∃ check_sigs, ∀ tx ∈ vtx, checkSpecialTx env tx (some pindexPrev) old view check_sigs = .ok ()

/-- A registration with the hash of a masternode in the list is the one that put it there, and names
its owner. -/
def NoCollision : Prop :=
  ∀ tx proTx dmn, tx ∈ vtx -> payloadOf (CProRegTx.unserialize env.toPayloadEnv) tx = .ok proTx ->
    old.getMN tx.hash = some dmn -> proTx.keyIDOwner = dmn.pdmnState.keyIDOwner

/-- The masternode was registered by a transaction of the block. -/
def RegisteredHere (dmn : CDeterministicMN) : Prop :=
  ∃ tx, ∃ proTx : CProRegTx,
    Carries vtx (CProRegTx.unserialize env.toPayloadEnv) .providerRegister tx proTx /\
    (proTx.collateralOutpoint.hash.isNull = true \/ isCollateral (view (collateralOf tx proTx)) = true) /\
    dmn.proTxHash = tx.hash /\ dmn.collateralOutpoint = collateralOf tx proTx /\
    dmn.pdmnState.keyIDOwner = proTx.keyIDOwner

/-- The masternode was in the list before, with the same owner. -/
def StayedFrom (proTxHash : Uint256) (dmn : CDeterministicMN) : Prop :=
  ∃ former, old.getMN proTxHash = some former /\ SameMN former dmn /\
    dmn.pdmnState.keyIDOwner = former.pdmnState.keyIDOwner

/-- What holds of the lists on the way to the new one.  Every loop of `BuildNewListFromBlock` keeps
it, relative to the list before the block. -/
structure Progress (list : CDeterministicMNList Hash) : Prop where
  wellFormed : WellFormed env.prim list
  noHandover : NoHandover (Held env.prim) old.getMN list.getMN
  identity : SameIdentity SameMN old.getMN list.getMN
  origin : ∀ proTxHash dmn, list.getMN proTxHash = some dmn ->
    StayedFrom old proTxHash dmn \/ RegisteredHere env vtx view dmn

variable {env vtx pindexPrev view old} {proTx : CProRegTx} {tx : CTransaction}

section

variable (checks : ChecksPassed env vtx pindexPrev view old)

include checks

/-- A provider transaction gets to the check of its type. -/
theorem ChecksPassed.special {α : Type} {reader : Reader α} {nType : TxType} {payload : α}
    (carries : Carries vtx reader nType tx payload) (notNormal : nType ≠ .normal) : ∃ check_sigs,
    (match nType with
      | .providerRegister => checkProRegTx env tx (some pindexPrev) old view check_sigs
      | .providerUpdateService => checkProUpServTx env tx (some pindexPrev) old check_sigs
      | .providerUpdateRegistrar => checkProUpRegTx env tx (some pindexPrev) old view check_sigs
      | .providerUpdateRevoke => checkProUpRevTx env tx (some pindexPrev) old
      | .other _ => .error (.reject (.dos 10 "bad-tx-type-check"))
      | _ => env.checkOtherSpecialTx tx) = .ok () := by
  rcases checks with ⟨check_sigs, passed⟩
  have checked := passed tx (List.mem_of_mem_tail carries.member)
  unfold checkSpecialTx at checked
  rw [carries.type, if_neg (by simp [carries.special, notNormal])] at checked
  split at checked
  · cases checked
  · exact ⟨check_sigs, checked⟩

theorem ChecksPassed.register (represented : Represented env.prim old)
    (carries : Carries vtx (unserialize env.toPayloadEnv) .providerRegister tx proTx) :
    RegisterChecked env tx proTx old view := by
  rcases checks.special carries (by simp) with ⟨_, passed⟩
  simp only [checkProRegTx, bind_eq_ok_iff, carries.payload, Except.ok.injEq] at passed
  rcases passed with ⟨_, _, _, rfl, _, trivially, _, _, _, checkedCollateral, _, _, _, listed, _⟩
  rcases checkCollateral_spec checkedCollateral with ⟨sameCollateral, internal⟩
  have keys := isTriviallyValid_keys trivially
  simp only [checkProRegTxList, bind_eq_ok_iff, require_eq_ok_iff, Bool.not_eq_true',
    Bool.or_eq_false_iff]
    at listed
  rcases listed with ⟨_, tested, _, rfl, _, free, _⟩
  exact
    { ownerKey := keys.1
      operatorKey := keys.2
      addr := by
        intro proTxHash dmn present holds
        rw [<- sameCollateral]
        exact of_decide_eq_true (represented.test_of_testOwner tested present holds)
      freshOwner := fun _ _ present => represented.not_holds_of_free free.1 present
      freshOperator := fun _ _ present => represented.not_holds_of_free free.2 present
      internal := internal }

variable {dmn : CDeterministicMN} {proTxHash : Uint256}

/-- An address is not taken from another masternode of the list before the block. -/
theorem ChecksPassed.serve (represented : Represented env.prim old) {proTx : CProUpServTx}
    (carries : Carries vtx (CProUpServTx.unserialize env.toPayloadEnv) .providerUpdateService tx proTx)
    (listed : old.getMN proTxHash = some dmn) (holds : Holds env.prim dmn (.addr proTx.addr)) :
    proTxHash = proTx.proTxHash := by
  rcases checks.special carries (by simp) with ⟨_, passed⟩
  simp only [checkProUpServTx, bind_eq_ok_iff, carries.payload, Except.ok.injEq,
    require_eq_ok_iff] at passed
  rcases passed with ⟨_, _, _, rfl, _, _, _, _, _, _, _, tested, _, rfl, _⟩
  rw [<- represented.keyed proTxHash dmn listed]
  exact of_decide_eq_true (represented.test_of_testOwner tested listed holds)

/-- An operator key is valid and not taken from another masternode of the list before the
block. -/
theorem ChecksPassed.update (represented : Represented env.prim old) {proTx : CProUpRegTx}
    (carries : Carries vtx (CProUpRegTx.unserialize env.toPayloadEnv) .providerUpdateRegistrar tx proTx) :
    isValidKey env.toPayloadEnv proTx.pubKeyOperator = true /\
      ∀ proTxHash dmn, old.getMN proTxHash = some dmn ->
        Holds env.prim dmn (.pubKeyOperator proTx.pubKeyOperator) -> proTxHash = proTx.proTxHash := by
  rcases checks.special carries (by simp) with ⟨_, passed⟩
  simp only [checkProUpRegTx, bind_eq_ok_iff, carries.payload, Except.ok.injEq] at passed
  rcases passed with ⟨_, _, _, rfl, _, trivially, passed⟩
  split at passed
  · cases passed
  simp only [bind_eq_ok_iff, require_eq_ok_iff] at passed
  rcases passed with ⟨_, _, _, _, _, _, _, _, _, tested, _, rfl, _⟩
  constructor
  · simp only [CProUpRegTx.isTriviallyValid, bind_eq_ok_iff, require_eq_ok_iff, Bool.and_eq_true]
      at trivially
    rcases trivially with ⟨_, _, _, _, _, keys, _⟩
    exact keys.1
  · intro proTxHash dmn listed holds
    rw [<- represented.keyed proTxHash dmn listed]
    exact (of_decide_eq_true (represented.test_of_testOwner tested listed holds)).symm

end

/-! ## A step keeps the progress -/

variable (injective : Function.Injective env.prim.serializeHash)
  (checks : ChecksPassed env vtx pindexPrev view old) (noCollision : NoCollision env vtx old)
  (oldOk : WellFormed env.prim old)
  {list after : CDeterministicMNList Hash}

include injective checks oldOk in
theorem wellFormed_step (wellFormed : WellFormed env.prim list)
    (step : BlockStep env vtx view list after) : WellFormed env.prim after := by
  cases step with
  | leave proTxHash removed => exact wellFormed.removeMN injective removed
  | join tx proTx carries _ added =>
    have checked := checks.register oldOk.represented carries
    rcases unlisted_of_addMN added with ⟨_, validId, collateral⟩
    have properties := sameProperties_registeredMN tx proTx list.nTotalRegisteredCount list.nHeight
    refine wellFormed.addMN injective ⟨validId, collateral, ?_, .inr ?_⟩ added
    · rw [properties.keyIDOwner]
      exact checked.ownerKey
    · rw [properties.pubKeyOperator]
      exact checked.operatorKey
  | alter proTxHash _ state listed alters updated =>
    have sameHash := wellFormed.keyed listed
    subst sameHash
    have ok := wellFormed.each _ _ listed
    refine @WellFormed.updateDmn _ _ _ injective _ _ _ state wellFormed listed
      ⟨ok.internalId, ok.collateral, ?_, ?_⟩ updated
    · rw [alters.properties.1]
      exact ok.ownerKey
    rcases alters.properties.2.2 with same | null | ⟨_, _, carries, _, same⟩
    · rw [same]
      exact ok.operatorKey
    · exact .inl null
    · rw [same]
      exact .inr (checks.update oldOk.represented carries).1

include checks oldOk in
/-- What a registration brings along was held by nobody who is still there. -/
theorem free_of_join (progress : Progress env vtx view old list)
    (afterOk : WellFormed env.prim after)
    (carries : Carries vtx (unserialize env.toPayloadEnv) .providerRegister tx proTx)
    {internalId : Nat} {nHeight : Int}
    (added : list.addMN env.prim (registeredMN tx proTx internalId nHeight) = (none, after))
    (property : UniqueProperty ⊕ Nat) (giver : Uint256) (former : CDeterministicMN)
    (holds : Held env.prim (registeredMN tx proTx internalId nHeight) property)
    (foundOld : old.getMN giver = some former) (holdsOld : Held env.prim former property) :
    list.getMN giver = none := by
  have checked := checks.register oldOk.represented carries
  have properties := sameProperties_registeredMN tx proTx internalId nHeight
  cases stays : list.getMN giver with
  | none => rfl
  | some current =>
    exfalso
    have same := progress.identity giver former current foundOld stays
    have different : giver ≠ tx.hash := by
      intro equal
      rw [equal, (of_join added).1] at stays
      cases stays
    have there : after.getMN giver = some current := by
      rw [(of_join added).2, update_of_ne different]
      exact stays
    have joined : after.getMN tx.hash = some (registeredMN tx proTx internalId nHeight) := by
      rw [(of_join added).2, update_self]
    -- Two masternodes of the next list cannot hold the same.
    have clash : ∀ shared, Held env.prim current shared ->
      Held env.prim (registeredMN tx proTx internalId nHeight) shared -> False := by
      intro shared one other
      exact different (afterOk.represented.exclusive shared _ _ _ _ there joined one other)
    have sameCollateral : current.collateralOutpoint = former.collateralOutpoint := by rw [same]
    have clashCollateral : former.collateralOutpoint = collateralOf tx proTx -> False := by
      intro equal
      refine clash (.inl (.collateralOutpoint (collateralOf tx proTx))) ?_ rfl
      exact (sameCollateral.trans equal).symm
    cases property with
    | inr id =>
      refine clash (.inr id) ?_ holds
      have sameId : current.internalId = former.internalId := by rw [same]
      exact sameId.trans holdsOld
    | inl property =>
      cases property with
      | collateralOutpoint value =>
        exact clashCollateral (holdsOld.symm.trans holds)
      | addr value =>
        refine clashCollateral (checked.addr giver former foundOld ?_)
        have value_eq : value = proTx.addr := holds.1.trans properties.addr
        rw [<- value_eq]
        exact holdsOld
      | keyIDOwner value =>
        refine checked.freshOwner giver former foundOld ?_
        have value_eq : value = proTx.keyIDOwner := holds.1.trans properties.keyIDOwner
        rw [<- value_eq]
        exact holdsOld
      | pubKeyOperator value =>
        refine checked.freshOperator giver former foundOld ?_
        have value_eq : value = proTx.pubKeyOperator := holds.1.trans properties.pubKeyOperator
        rw [<- value_eq]
        exact holdsOld

include checks oldOk in
/-- What an alteration brings along was held by nobody else. -/
theorem own_of_alters {state : CDeterministicMNState}
    (alters : Alters env vtx list proTxHash dmn.pdmnState state) (property : UniqueProperty ⊕ Nat)
    (giver : Uint256) (former : CDeterministicMN)
    (holds : Held env.prim { dmn with pdmnState := state } property) :
    Held env.prim dmn property \/
      (old.getMN giver = some former -> Held env.prim former property -> giver = proTxHash) := by
  cases property with
  | inr _ => exact .inl holds
  | inl property =>
    cases property with
    | collateralOutpoint value => exact .inl holds
    | addr value =>
      rcases alters.properties.2.1 with same | null | ⟨tx, proTx, carries, own, same⟩
      · exact .inl ⟨holds.1.trans same, holds.2⟩
      · exact absurd (holds.1.trans null) holds.2
      right
      intro foundOld holdsOld
      have value_eq : value = proTx.addr := holds.1.trans same
      rw [<- own]
      exact checks.serve oldOk.represented carries foundOld (value_eq ▸ holdsOld)
    | keyIDOwner value => exact .inl ⟨holds.1.trans alters.properties.1, holds.2⟩
    | pubKeyOperator value =>
      rcases alters.properties.2.2 with same | null | ⟨tx, proTx, carries, own, same⟩
      · exact .inl ⟨holds.1.trans same, holds.2⟩
      · have value_eq : value = CBLSLazyPublicKey.null := holds.1.trans null
        have valid := holds.2
        rw [value_eq, CBLSLazyPublicKey.isValid_null] at valid
        cases valid
      · right
        intro foundOld holdsOld
        have value_eq : value = proTx.pubKeyOperator := holds.1.trans same
        rw [<- own]
        exact (checks.update oldOk.represented carries).2 giver former foundOld (value_eq ▸ holdsOld)

include injective checks noCollision oldOk in
/-- A step is a change of the roster that hands nothing over. -/
theorem BlockStep.change (progress : Progress env vtx view old list)
    (step : BlockStep env vtx view list after) :
    Change (Held env.prim) SameMN old.getMN list.getMN after.getMN := by
  have afterOk := wellFormed_step injective checks oldOk progress.wellFormed step
  cases step with
  | leave proTxHash removed =>
    rw [(of_removeMN removed).1]
    exact .leave list.getMN proTxHash
  | join tx _ carries _ added =>
    rw [(of_join added).2]
    refine .join list.getMN tx.hash _ ?_ ?_
    · cases found : old.getMN tx.hash with
      | none => rfl
      | some dmn =>
        have sameOwner := noCollision tx _ dmn (List.mem_of_mem_tail carries.member) carries.payload found
        have checked := checks.register oldOk.represented carries
        exact absurd ⟨sameOwner, checked.ownerKey⟩ (checked.freshOwner _ _ found)
    · exact free_of_join checks oldOk progress afterOk carries added
  | alter proTxHash dmn _ listed alters updated =>
    have sameHash := progress.wellFormed.keyed listed
    subst sameHash
    rw [(of_updateDmn updated).1]
    exact .alter list.getMN dmn.proTxHash dmn _ listed rfl (own_of_alters checks oldOk alters)

/-- Where the masternodes of the next list come from. -/
theorem origin_step (wellFormed : WellFormed env.prim list)
    (origin : ∀ proTxHash dmn, list.getMN proTxHash = some dmn ->
      StayedFrom old proTxHash dmn \/ RegisteredHere env vtx view dmn)
    (step : BlockStep env vtx view list after) (proTxHash : Uint256) (dmn : CDeterministicMN)
    (listed : after.getMN proTxHash = some dmn) :
    StayedFrom old proTxHash dmn \/ RegisteredHere env vtx view dmn := by
  cases step with
  | leave _ removed =>
    rw [(of_removeMN removed).1] at listed
    rcases found_of_update listed with ⟨_, impossible⟩ | before
    · cases impossible
    · exact origin proTxHash dmn before
  | join tx proTx carries funded added =>
    rw [(of_join added).2] at listed
    rcases found_of_update listed with ⟨_, same⟩ | before
    · cases same
      exact .inr ⟨tx, proTx, carries, funded, rfl, rfl,
        (sameProperties_registeredMN tx proTx _ _).keyIDOwner⟩
    · exact origin proTxHash dmn before
  | alter _ before _ found alters updated =>
    have sameHash := wellFormed.keyed found
    subst sameHash
    rw [(of_updateDmn updated).1] at listed
    rcases found_of_update listed with ⟨here, same⟩ | other
    · cases same
      subst here
      have sameOwner := alters.properties.1
      rcases origin before.proTxHash before found with
        ⟨former, foundOld, identity, owner⟩ | ⟨tx, proTx, carries, funded, hash, collateral, owner⟩
      · exact .inl ⟨former, foundOld, identity.trans rfl, sameOwner.trans owner⟩
      · exact .inr ⟨tx, proTx, carries, funded, hash, collateral, sameOwner.trans owner⟩
    · exact origin proTxHash dmn other

include injective checks noCollision oldOk in
theorem Progress.step (progress : Progress env vtx view old list)
    (step : BlockStep env vtx view list after) : Progress env vtx view old after := by
  have change := step.change injective checks noCollision oldOk progress
  exact
    { wellFormed := wellFormed_step injective checks oldOk progress.wellFormed step
      noHandover := progress.noHandover.change change
      identity := progress.identity.change (fun _ _ _ => SameMN.trans) change
      origin := origin_step progress.wellFormed progress.origin step }

include injective checks noCollision oldOk in
theorem Progress.steps (progress : Progress env vtx view old list)
    (steps : BlockSteps env vtx view list after) : Progress env vtx view old after := by
  induction steps with
  | refl => exact progress
  | tail _ step ih =>
    exact ih.step injective checks noCollision oldOk step

include oldOk in
theorem progress_startedList : Progress env vtx view old (startedList pindexPrev old) where
  wellFormed := oldOk.of_same_maps rfl rfl rfl
  noHandover := oldOk.represented.exclusive.noHandover
  identity := Library.Roster.sameIdentity_refl fun _ => rfl
  origin := fun _ dmn listed => .inl ⟨dmn, listed, rfl, rfl⟩

end StakeCubeCoin.Evo
