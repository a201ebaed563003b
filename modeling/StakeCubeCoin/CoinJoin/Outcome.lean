import StakeCubeCoin.CoinJoin.Signatures

namespace StakeCubeCoin.CoinJoin

open Evo CCoinJoinServer List SignatureSample

/-!
# What participants learn of a session

`CommitFinalTransaction` ends a session and tells the participants with `DSCOMPLETE`.  They are
told one after another, up to the first one that is not connected.  If the mempool refuses the
transaction the session is discarded first, and with it the list of those to be told.
-/

def completions (server : CCoinJoinServer) : List (CService × Nat × PoolMessage) :=
  server.sent.filterMap fun
    | (addr, .DSCOMPLETE nSessionID nMessageID) => some (addr, nSessionID, nMessageID)
    | _ => none

/-- Every client with an entry that is connected is sent the result under the id of its session. -/
def TellsOutcome (around : Surroundings) (server : CCoinJoinServer) : Prop :=
  ∃ told, completions (commitFinalTransaction around server) = told ++ completions server /\
    ∀ entry ∈ server.vecEntries, around.connected entry.addr = true ->
      (entry.addr, server.nSessionID, if around.acceptFinalTransaction server.finalMutableTransaction
        then .MSG_SUCCESS else .ERR_INVALID_TX) ∈ told

/-- The participants before the first one that is not connected. -/
def reachedInTurn (around : Surroundings) (vecEntries : List CCoinJoinEntry) :
    List CCoinJoinEntry :=
  vecEntries.takeWhile fun entry => around.connected entry.addr

section

variable (around : Surroundings) (nStatusUpdate : PoolStatusUpdate)

theorem completions_pushStatusToAll (nMessageID : PoolMessage) (server : CCoinJoinServer) :
    completions (pushStatusToAll around nStatusUpdate nMessageID server) = completions server := by
  unfold pushStatusToAll
  induction server.vecEntries.filter _ generalizing server with
  | nil => rfl
  | cons entry _ ih => exact ih _

theorem completions_relayStatus (server : CCoinJoinServer) :
    completions (relayStatus around nStatusUpdate server) = completions server := by
  unfold relayStatus
  dsimp only
  have told := completions_pushStatusToAll around nStatusUpdate .MSG_NOERR server
  split
  · exact told
  · have warned := (completions_pushStatusToAll around .REJECTED .MSG_NOERR _).trans told
    split <;> exact warned

theorem completions_relayEach (nSessionID : Nat) (nMessageID : PoolMessage)
    (entries : List CCoinJoinEntry) (server : CCoinJoinServer) :
    completions (relayEach around (.DSCOMPLETE nSessionID nMessageID) entries server) =
      ((reachedInTurn around entries).map fun entry => (entry.addr, nSessionID, nMessageID)).reverse ++
        completions server := by
  induction entries generalizing server with
  | nil => rfl
  | cons entry _ ih =>
    unfold reachedInTurn at ih ⊢
    rw [relayEach, takeWhile_cons]
    split
    · rw [ih, map_cons, reverse_cons, append_assoc]
      rfl
    · exact completions_relayStatus around .REJECTED server

theorem completions_chargeRandom (collaterals : List Primitives.CTransaction) (draw : Nat)
    (server : CCoinJoinServer) :
    completions (chargeRandom around draw collaterals server) = completions server := by
  induction collaterals generalizing draw server with
  | nil => rfl
  | cons txCollateral _ ih =>
    rw [chargeRandom]
    split
    · rfl
    · rw [ih, consumeCollateral]
      split <;> rfl

end

/-- **The participants learn the outcome exactly if the mempool takes the transaction and each
connected one is reached in turn**, or none is connected. -/
theorem tells_outcome_iff (around : Surroundings) (server : CCoinJoinServer) :
    TellsOutcome around server <-> ∀ entry ∈ server.vecEntries, around.connected entry.addr = true ->
        around.acceptFinalTransaction server.finalMutableTransaction = true /\
          entry.addr ∈ (reachedInTurn around server.vecEntries).map CCoinJoinEntry.addr := by
  unfold TellsOutcome commitFinalTransaction
  cases around.acceptFinalTransaction server.finalMutableTransaction with
  | false =>
    -- The session is gone before anybody is told.
    constructor
    · rintro ⟨told, sent, all⟩ entry member connected
      have nothing : told = [] := append_left_eq_self.mp sent.symm
      rw [nothing] at all
      exact absurd (all entry member connected) not_mem_nil
    · intro reaches
      exact ⟨[], rfl, fun entry member connected => absurd (reaches entry member connected).1 nofun⟩
  | true =>
    have sent : completions (setNull around (chargeRandomFees around
        (relayCompletedTransaction around .MSG_SUCCESS server))) = _ :=
      (completions_chargeRandom ..).trans (completions_relayEach around server.nSessionID .MSG_SUCCESS _ server)
    rw [Bool.not_true, if_neg Bool.false_ne_true, if_pos rfl, sent]
    constructor
    · rintro ⟨told, same, all⟩ entry member connected
      have mentioned := all entry member connected
      rw [<- append_cancel_right same, mem_reverse] at mentioned
      rcases mem_map.mp mentioned with ⟨reached, listed, named⟩
      exact ⟨rfl, mem_map.mpr ⟨reached, listed, congrArg Prod.fst named⟩⟩
    · intro reaches
      refine ⟨_, rfl, fun entry member connected => ?_⟩
      rcases mem_map.mp (reaches entry member connected).2 with ⟨reached, listed, named⟩
      exact mem_reverse.mpr (mem_map.mpr ⟨reached, listed, by rw [named]⟩)

/-- A mempool that refuses the transaction. -/
def refusing : Surroundings :=
  { around 33 with acceptFinalTransaction := fun _ => false }

def toLastSignature : List ServerEvent :=
  toSigning ++ [⟨around 32, .dssignfinaltx (peer 1) [signedInput 1, signedInput 2]⟩]

def allSigned : CCoinJoinServer :=
  (addScriptSigs env [signedInput 3] (toLastSignature.foldl (serverStep env) {})).1

/-- The mempool refuses the transaction: nobody is told, though all are connected. -/
theorem refused_transaction_untold : serverStep env (toLastSignature.foldl (serverStep env) {})
        ⟨refusing, .dssignfinaltx (peer 3) [signedInput 3]⟩ = commitFinalTransaction refusing allSigned /\
      allSigned.vecEntries.map CCoinJoinEntry.addr =
      [(peer 3).addr, (peer 1).addr, (peer 2).addr] /\ ¬TellsOutcome refusing allSigned := by
  have addresses : allSigned.vecEntries.map CCoinJoinEntry.addr =
    [(peer 3).addr, (peer 1).addr, (peer 2).addr] := by decide +kernel
  refine ⟨by decide +kernel, addresses, ?_⟩
  rintro ⟨told, sent, all⟩
  have nothing : told = [] := append_left_eq_self.mp sent.symm
  have first : (peer 3).addr ∈ allSigned.vecEntries.map CCoinJoinEntry.addr := by simp [addresses]
  rcases mem_map.mp first with ⟨entry, member, _⟩
  exact not_mem_nil (nothing ▸ all entry member rfl)

end StakeCubeCoin.CoinJoin
