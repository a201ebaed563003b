import StakeCubeCoin.Validation.Frames
import StakeCubeCoin.Validation.UtxoSet

namespace StakeCubeCoin.Validation

open Primitives Coins Library Library.Action CCoinsViewCache

/-!
# The state as a set of unspent coins

`Represents` relates the state that a block is connected on to the set of unspent coins
it stands for.  Every call that only reads keeps the relation, so the many checks on
the way are dealt with once; the calls that spend and add coins change the set as they
say.
-/

/-- The view has correct flags and stands for the given coins.  The outpoints in `known` have been
looked up in the base, or there is nothing to find. -/
structure Represents (base : CCoinsView) (known : List COutPoint)
    (disk : CBlockTreeDB × Store Uint256 CBlockUndo) (coins : UtxoSet) (state : NodeState) :
    Prop where
  valid : state.view.Valid (liveCoins base)
  coins_eq : state.view.coins (liveCoins base) = coins
  looked : ∀ outpoint ∈ known, state.view.find outpoint = none -> liveCoins base outpoint = none
  disk_eq : (state.blocktree, state.undo) = disk

variable {base : CCoinsView} {known : List COutPoint}
variable {disk : CBlockTreeDB × Store Uint256 CBlockUndo} {coins : UtxoSet}

namespace Represents

variable {state : NodeState}

theorem fetchCoin (represents : Represents base known disk coins state) (outpoint : COutPoint) :
    Represents base known disk coins { state with view := state.view.fetchCoin base outpoint } where
  valid := represents.valid.fetchCoin base outpoint
  coins_eq := by
    rw [coins_fetchCoin]
    exact represents.coins_eq
  looked := by
    intro other member absent
    refine represents.looked other member ?_
    by_cases same : other = outpoint
    · subst same
      rcases fetchCoin_cases base state.view other with
        ⟨kept, _⟩ | ⟨_, _, _, added⟩
      · rw [kept] at absent
        exact absent
      · rw [added, find_set_self] at absent
        cases absent
    · rw [<- find_fetchCoin_of_ne base state.view same]
      exact absent
  disk_eq := represents.disk_eq

theorem setBestBlock (represents : Represents base known disk coins state) (hash : Uint256) :
    Represents base known disk coins { state with view := state.view.setBestBlock hash } :=
  ⟨represents.valid, represents.coins_eq, represents.looked, represents.disk_eq⟩

end Represents

theorem represents_stable : ReadStable base (Represents base known disk coins) where
  fetchCoin := fun _ outpoint represents => represents.fetchCoin outpoint
  evoDb := fun _ _ represents => 
    ⟨represents.valid, represents.coins_eq, represents.looked, represents.disk_eq⟩
  setBestBlock := fun _ hash represents => represents.setBestBlock hash

variable {outpoint : COutPoint} {coin : Coin} {state : NodeState}

theorem accessCoin_value {last : NodeState} {result : Coin}
    (represents : Represents base known disk coins state) (held : coins outpoint = some coin)
    (finished : (accessCoin base outpoint).run state = (.ok result, last)) : result = coin := by
  have value : (state.view.accessCoin base outpoint).1 = result :=
    Except.ok.inj (congrArg Prod.fst finished)
  have alive := accessCoin_fst base state.view outpoint
  rw [value, represents.coins_eq, held] at alive
  exact Coin.eq_of_live_eq_some alive

/-! ## Calls that spend and add coins -/

namespace Represents

variable {state : NodeState}

theorem spendCoin (represents : Represents base known disk coins state) (outpoint : COutPoint) :
    Represents base known disk (Function.update coins outpoint none)
      { state with view := (state.view.spendCoin base outpoint).2 } where
  valid := represents.valid.spendCoin base outpoint
  coins_eq := by
    rw [coins_spendCoin base represents.valid, represents.coins_eq]
  looked := by
    have fetched := represents.fetchCoin outpoint
    intro other member absent
    simp only [CCoinsViewCache.spendCoin] at absent
    split at absent
    · exact fetched.looked other member absent
    next entry located =>
    split at absent
    · next fresh =>
      by_cases same : other = outpoint
      · subst same
        exact (fetched.valid other entry located).fresh_absent fresh
      · rw [find_drop_of_ne _ same] at absent
        exact fetched.looked other member absent
    · by_cases same : other = outpoint
      · subst same
        rw [find_set_self] at absent
        cases absent
      · rw [find_set_of_ne _ _ same] at absent
        exact fetched.looked other member absent
  disk_eq := represents.disk_eq

/-- A state whose view changed at one outpoint, where it now has an entry or is the same. -/
theorem of_view (represents : Represents base known disk coins state) {next : CCoinsViewCache}
    {after : UtxoSet} (valid : next.Valid (liveCoins base))
    (coins_eq : next.coins (liveCoins base) = after)
    (kept : ∀ other, next.find other = none -> state.view.find other = none) :
    Represents base known disk after { state with view := next } :=
  ⟨valid, coins_eq, fun other member absent => represents.looked other member (kept other absent),
    represents.disk_eq⟩

end Represents

theorem find_addCoin_of_none {view next : CCoinsViewCache}
    {overwrite : Bool} (added : view.addCoin outpoint coin overwrite = .ok next) {other : COutPoint}
    (absent : next.find other = none) : view.find other = none := by
  unfold CCoinsViewCache.addCoin at added
  split at added
  · cases added
  split at added
  · cases added
    exact absent
  simp only at added
  split at added
  · cases added
  cases added
  by_cases same : other = outpoint
  · subst same
    rw [find_set_self] at absent
    cases absent
  · rw [find_set_of_ne _ _ same] at absent
    exact absent

/-- `AddCoin` of an unspent coin, where it may overwrite or there is none. -/
theorem addCoin_run (represents : Represents base known disk coins state) (overwrite : Bool)
    (unspent : coin.isSpent = false) (allowed : overwrite = true \/ coins outpoint = none) :
    ∃ last, (addCoin outpoint coin overwrite).run state = (.ok (), last) /\
      Represents base known disk (addLive coins outpoint coin) last /\ last.evoDb = state.evoDb := by
  rw [<- represents.coins_eq] at allowed
  rcases addCoin_spec represents.valid unspent allowed with
    ⟨next, added, valid, coins_eq, _⟩
  refine ⟨{ state with view := next }, ?_, ?_, rfl⟩
  · simp only [Action.run, addCoin, added]
  · rw [represents.coins_eq] at coins_eq
    exact represents.of_view valid coins_eq fun other => find_addCoin_of_none added

end StakeCubeCoin.Validation
