import StakeCubeCoin.CoinJoin.Signatures

namespace StakeCubeCoin.CoinJoin

open Primitives CCoinJoinServer SignatureSample List

/-!
# Who pays fees

`ChargeFees` charges one of the offenders of a session that did not go on, unless everybody
offends.  Offences are compared with participants, and a participant offends once for each input
that is not signed.
-/

variable (around : Surroundings) (server : CCoinJoinServer)

/-- `ChargeFees` returns because everyone is an offender: it has not returned before. -/
def GivesUp : Prop :=
  around.draw 0 <= 33 /\ offenders server ≠ [] /\
    ¬ ((server.vecSessionCollaterals.length + 2 ^ 64 - 1) % 2 ^ 64 <= (offenders server).length /\
      33 < around.draw 1) /\
    server.vecSessionCollaterals.length <= (offenders server).length

/-- The participant with a collateral sent no entry, or has not signed an input of one. -/
def Offends (txCollateral : CTransaction) : Prop :=
  match server.nState with
  | .ACCEPTING_ENTRIES =>
    txCollateral ∈ server.vecSessionCollaterals /\
      ∀ entry ∈ server.vecEntries, entry.txCollateral.hash ≠ txCollateral.hash
  | .SIGNING =>
    ∃ entry ∈ server.vecEntries, entry.txCollateral.hash = txCollateral.hash /\
      ∃ txdsin ∈ entry.vecTxDSIn, txdsin.fHasSig = false
  | _ => False

def unsignedInputs : Nat :=
  (poolInputs server.vecEntries).countP fun txdsin => !txdsin.fHasSig

variable {server}

theorem offends_of_mem {txCollateral : CTransaction} (listed : txCollateral ∈ offenders server) :
    Offends server txCollateral := by
  unfold offenders at listed
  unfold Offends
  cases state : server.nState with
  | ACCEPTING_ENTRIES => simpa [state] using listed
  | SIGNING =>
    rw [state] at listed
    rcases mem_flatMap.mp listed with ⟨entry, member, inputs⟩
    rcases mem_map.mp inputs with ⟨txdsin, unsigned, rfl⟩
    exact ⟨entry, member, rfl, txdsin, by simpa using unsigned⟩
  | _ => simp [state] at listed

theorem length_offenders (state : server.nState = .SIGNING) :
    (offenders server).length = unsignedInputs server := by
  simp [offenders, state, unsignedInputs, poolInputs, countP_eq_length_filter, filter_flatMap,
    length_flatMap]

theorem consumed_chargeFees : (chargeFees around server).consumed = server.consumed \/
      ∃ txCollateral, Offends server txCollateral /\
        (chargeFees around server).consumed = txCollateral :: server.consumed := by
  unfold chargeFees
  dsimp only
  split
  · exact .inl rfl
  split
  · exact .inl rfl
  split
  · exact .inl rfl
  split
  · exact .inl rfl
  split
  · exact .inl rfl
  next txCollateral drawn =>
  unfold consumeCollateral
  split
  · exact .inr ⟨txCollateral, offends_of_mem (mem_of_getElem? drawn), rfl⟩
  · exact .inl rfl

/-- A call that gets so far gives up exactly if it charges nobody although all collaterals are
taken. -/
theorem givesUp_iff (drawn : around.draw 0 <= 33) (some_ : offenders server ≠ [])
    (kept : ¬ ((server.vecSessionCollaterals.length + 2 ^ 64 - 1) % 2 ^ 64 <= (offenders server).length /\
      33 < around.draw 1)) (taken : ∀ txCollateral, around.acceptCollateral txCollateral = true) :
    GivesUp around server <-> (chargeFees around server).consumed = server.consumed := by
  have inside := Nat.mod_lt around.shuffled (length_pos_iff.mpr some_)
  simp only [GivesUp, chargeFees, drawn, some_, kept, not_lt.mpr drawn, if_false, ne_eq,
    not_false_eq_true, true_and]
  split
  · next all => simp [all]
  · next few => simp [few, getElem?_eq_getElem inside, consumeCollateral, taken]

variable (server)

/-- Only offenders are charged.  `ChargeFees` gives up because everybody offends exactly if that is
so when there are as many unsigned inputs as participants. -/
theorem chargeFees_fair_iff : (∀ around, ((chargeFees around server).consumed = server.consumed \/
        ∃ txCollateral, Offends server txCollateral /\
          (chargeFees around server).consumed = txCollateral :: server.consumed) /\
      (GivesUp around server -> ∀ txCollateral ∈ server.vecSessionCollaterals, Offends server txCollateral)) <->
    (server.nState = .SIGNING -> 0 < unsignedInputs server ->
      server.vecSessionCollaterals.length <= unsignedInputs server ->
        ∀ txCollateral ∈ server.vecSessionCollaterals, Offends server txCollateral) := by
  constructor
  · intro fair state some_ many
    rw [<- length_offenders state] at some_ many
    -- No draw spares anybody.
    exact (fair { around 0 with draw := fun _ => 0 }).2
      ⟨Nat.zero_le 33, ne_nil_of_length_pos some_, fun spared => absurd spared.2 (Nat.not_lt_zero 33), many⟩
  · refine fun fair around => ⟨consumed_chargeFees around, fun ⟨_, some_, _, many⟩ => ?_⟩
    cases state : server.nState with
    | SIGNING =>
      have counted := length_offenders state
      rw [counted] at many
      exact fair state (counted ▸ length_pos_iff.mpr some_) many
    | ACCEPTING_ENTRIES =>
      intro txCollateral listed
      apply offends_of_mem
      simp only [offenders, state] at many ⊢
      rwa [filter_eq_self.mpr (length_filter_eq_length_iff.mp (Nat.le_antisymm (length_filter_le _ _) many))]
    | _ => exact absurd (by simp only [offenders, state]) some_

/-- The second participant sends three inputs, of different keys, and signs none of them.  The others
sign. -/
def oneOffender : CCoinJoinServer :=
  foldl (serverStep { env with outputOf := fun prevout =>
    { env.outputOf prevout with scriptPubKey := Script.payToPubKeyHash (replicate 20 (9 + UInt8.ofNat prevout.hash.toNat)) } })
    {} (toSigning.take 6 ++ [⟨SignatureSample.around 31, .dsvin (peer 2)
      { vecTxDSIn := [2, 4, 5].map fun number => { prevout := prevout number }
        vecTxOut := [2, 4, 5].map fun number =>
          ⟨COIN / 1000 + 1, Script.payToPubKeyHash (replicate 20 number)⟩
        txCollateral := collateral 2 }⟩,
    ⟨SignatureSample.around 32, .dssignfinaltx (peer 1) [signedInput 1]⟩,
    ⟨SignatureSample.around 32, .dssignfinaltx (peer 3) [signedInput 3]⟩])

/-- One offender among three is taken for everybody. -/
theorem one_offender_escapes :
    GivesUp { SignatureSample.around 47 with draw := fun _ => 0 } oneOffender /\
      collateral 1 ∈ oneOffender.vecSessionCollaterals /\ ¬ Offends oneOffender (collateral 1) := by
  have state : oneOffender.nState = .SIGNING := by decide +kernel
  refine ⟨?_, by decide +kernel, ?_⟩
  · unfold GivesUp
    decide +kernel
  · rw [Offends, state]
    decide +kernel

end StakeCubeCoin.CoinJoin
