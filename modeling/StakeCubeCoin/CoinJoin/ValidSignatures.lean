import StakeCubeCoin.CoinJoin.Signatures

namespace StakeCubeCoin.CoinJoin

open Primitives Script CCoinJoinServer Library List

/-!
# Scripts that spend the coins

A script that `AddScriptSig` writes should spend the coin of its input.  The server verifies
it against an empty script and on the transaction in the order of the entries, so this is
left to the clients: scripts of the owners of the coins, made for the sorted transaction,
give a final transaction whose scripts are valid.
-/

/-- The script of an input of a transaction spends its coin. -/
def Verified (env : ServerEnv) (tx : CMutableTransaction) (indexed : CTxIn × Nat) : Prop :=
  verifyScript env.crypto P2SH_STRICTENC (transactionSignatureChecker env.crypto tx indexed.2)
    indexed.1.scriptSig (env.outputOf indexed.1.prevout).scriptPubKey = .ok ()

instance Verified.decidable (env : ServerEnv) (tx : CMutableTransaction) (indexed : CTxIn × Nat) :
    Decidable (Verified env tx indexed) :=
  inferInstanceAs (Decidable (_ = _))

def finalInputs (server : CCoinJoinServer) : List (CTxIn × Nat) :=
  server.finalMutableTransaction.vin.zipIdx

/-- What a call writes spends the coins, and so do all scripts once every input has a
signature. -/
structure SignsValidly (env : ServerEnv) (server : CCoinJoinServer) (txin : CTxIn) : Prop where
  written : Writes env server txin -> ∀ indexed ∈ finalInputs (addScriptSig env txin server).1,
    sameInput indexed.1 txin = true -> Verified env (addScriptSig env txin server).1.finalMutableTransaction indexed
  complete : (addScriptSig env txin server).1.nState = .SIGNING ->
    isSignaturesComplete (addScriptSig env txin server).1 = true ->
    ∀ indexed ∈ finalInputs (addScriptSig env txin server).1,
      Verified env (addScriptSig env txin server).1.finalMutableTransaction indexed

def signatureAndKey (scriptSig : CScript) : Option (Valtype × Valtype) :=
  match getScriptOp scriptSig with
  | (some (_, sig), rest) =>
    match getScriptOp rest with
    | (some (_, pubKey), _) => if scriptSig = pushVector sig ++ pushVector pubKey then some (sig, pubKey) else none
    | (none, _) => none
  | (none, _) => none

theorem eq_of_signatureAndKey {scriptSig : CScript} {sig pubKey : Valtype}
    (parts : signatureAndKey scriptSig = some (sig, pubKey)) :
    scriptSig = pushVector sig ++ pushVector pubKey := by
  unfold signatureAndKey at parts
  split at parts
  · split at parts
    · split at parts
      · next same =>
        cases parts
        exact same
      · cases parts
    · cases parts
  · cases parts

/-- A script of the owner of a coin for an input: a signature that is good for it, and the key with
the hash that the coin pays to. -/
def SignedByOwner (env : ServerEnv) (tx : CMutableTransaction) (indexed : CTxIn × Nat)
    (scriptSig : CScript) : Prop :=
  match signatureAndKey scriptSig with
  | none => False
  | some (sig, pubKey) =>
    WellEncoded sig pubKey /\
      env.crypto.hash .OP_HASH160 pubKey = keyHashOf (env.outputOf indexed.1.prevout).scriptPubKey /\
      checkSig env.crypto tx indexed.2 sig pubKey
        (scriptCodeFor (env.outputOf indexed.1.prevout).scriptPubKey sig) = true

instance SignedByOwner.decidable (env : ServerEnv) (tx : CMutableTransaction)
    (indexed : CTxIn × Nat) (scriptSig : CScript) :
    Decidable (SignedByOwner env tx indexed scriptSig) := by
  unfold SignedByOwner
  split <;> exact inferInstance

/-- The contract of a client: it signs its inputs of the final transaction, and not before
there is one. -/
structure Honest (env : ServerEnv) (server : CCoinJoinServer) (txin : CTxIn) : Prop where
  stage : ∀ txdsin ∈ poolInputs server.vecEntries, sameInput txdsin.toCTxIn txin = true ->
    server.nState = .SIGNING
  owner : ∀ indexed ∈ finalInputs server, sameInput indexed.1 txin = true ->
    SignedByOwner env server.finalMutableTransaction indexed txin.scriptSig

instance Honest.decidable (env : ServerEnv) (server : CCoinJoinServer) (txin : CTxIn) :
    Decidable (Honest env server txin) :=
  decidable_of_iff
    ((∀ txdsin ∈ poolInputs server.vecEntries, sameInput txdsin.toCTxIn txin = true ->
      server.nState = .SIGNING) /\
      ∀ indexed ∈ finalInputs server, sameInput indexed.1 txin = true ->
        SignedByOwner env server.finalMutableTransaction indexed txin.scriptSig)
    ⟨fun both => ⟨both.1, both.2⟩, fun honest => ⟨honest.stage, honest.owner⟩⟩

section

variable {env : ServerEnv} {server other : CCoinJoinServer} {txin : CTxIn} {indexed : CTxIn × Nat}

theorem SignedByOwner.verified {tx : CMutableTransaction}
    (owner : SignedByOwner env tx indexed indexed.1.scriptSig)
    (template : CScript.isPayToPublicKeyHash (env.outputOf indexed.1.prevout).scriptPubKey = true) :
    Verified env tx indexed := by
  unfold SignedByOwner at owner
  split at owner
  · exact owner.elim
  next sig pubKey parts =>
  obtain ⟨encoded, hash, good⟩ := owner
  obtain ⟨script, size⟩ := eq_payToPubKeyHash template
  have spends :=
    @verifyScript_payToPubKeyHash env.crypto (transactionSignatureChecker env.crypto tx indexed.2)
    (keyHashOf (env.outputOf indexed.1.prevout).scriptPubKey) sig pubKey size encoded
  rw [<- script] at spends
  unfold Verified
  rw [eq_of_signatureAndKey parts]
  exact spends.mpr ⟨hash, good⟩

/-- Whether a script spends a coin does not depend on the other scripts. -/
theorem Verified.congr {tx changed : CMutableTransaction} (same : SameUnsigned changed tx)
    (verified : Verified env tx indexed) : Verified env changed indexed := by
  unfold Verified
  rw [same.checker_eq]
  exact verified

theorem mem_finalInputs {input : CTxIn} {index : Nat} :
    (input, index) ∈ finalInputs server <-> server.finalMutableTransaction.vin[index]? = some input :=
  mem_zipIdx_iff_getElem?

/-- An input of the final transaction after a write is one from before, perhaps with the new
script. -/
theorem mem_finalInputs_written
    (member : indexed ∈ (writeScriptSig txin server.finalMutableTransaction).vin.zipIdx) :
    ∃ old, (old, indexed.2) ∈ finalInputs server /\ indexed.1 = rewritten txin old := by
  have found := mem_zipIdx_iff_getElem?.mp member
  rw [writeScriptSig_vin, List.getElem?_map] at found
  obtain ⟨old, before, same⟩ := Option.map_eq_some_iff.mp found
  exact ⟨old, mem_finalInputs.mpr before, same.symm⟩

theorem Honest.verified_written (honest : Honest env server txin)
    (wellFormed : SessionWellFormed env server)
    (member : indexed ∈ (writeScriptSig txin server.finalMutableTransaction).vin.zipIdx)
    (named : sameInput indexed.1 txin = true) :
    Verified env (writeScriptSig txin server.finalMutableTransaction) indexed := by
  obtain ⟨old, before, same⟩ := mem_finalInputs_written member
  have oldNamed : sameInput old txin = true := by
    rw [sameInput_iff] at named ⊢
    rw [same, unsigned_rewritten] at named
    exact named
  have prevout : indexed.1.prevout = old.prevout := by
    rw [same]
    exact congrArg Prod.fst (unsigned_rewritten txin old)
  have script : indexed.1.scriptSig = txin.scriptSig := by
    rw [same]
    unfold rewritten
    rw [if_pos oldNamed]
  have owner := honest.owner (old, indexed.2) before oldNamed
  obtain ⟨txdsin, among, pooled⟩ := wellFormed.mem_pool
    (mem_of_getElem? (mem_finalInputs.mp before))
  have template := wellFormed.keyHash txdsin among
  have spent : txdsin.prevout = old.prevout := congrArg Prod.fst (sameInput_iff.mp pooled)
  rw [spent] at template
  refine Verified.congr (sameUnsigned_writeScriptSig txin server.finalMutableTransaction) ?_
  refine SignedByOwner.verified ?_ ?_
  · unfold SignedByOwner at owner ⊢
    rw [script, prevout]
    exact owner
  · rw [prevout]
    exact template

end

/-- Signatures are only recorded for the final transaction, and their scripts spend the coins. -/
structure HonestSession (env : ServerEnv) (server : CCoinJoinServer) : Prop where
  wellFormed : SessionWellFormed env server
  recorded : ∀ txdsin ∈ poolInputs server.vecEntries, txdsin.fHasSig = true ->
    server.nState = .SIGNING /\ ∀ indexed ∈ finalInputs server,
      sameInput indexed.1 txdsin.toCTxIn = true -> Verified env server.finalMutableTransaction indexed

namespace HonestSession

variable {env : ServerEnv} {server other : CCoinJoinServer} {txin : CTxIn}

section

variable (session : HonestSession env server)

include session

theorem sign (honest : Honest env server txin) :
    HonestSession env (addScriptSig env txin server).1 := by
  refine ⟨session.wellFormed.sign txin, ?_⟩
  rcases addScriptSig_cases env server txin with ⟨_, stopped⟩ | ⟨_, written⟩
  · rw [stopped]
    exact session.recorded
  rw [written]
  obtain ⟨effect, _⟩ := inputSigned_signEntries txin server.vecEntries
  intro txdsin member has
  dsimp only at member ⊢
  -- An input that is named now has an honest script; the others are as they were.
  have others : ∀ (named : ∃ old ∈ poolInputs server.vecEntries,
    sameInput old.toCTxIn txdsin.toCTxIn = true /\ (old.fHasSig = true \/ sameInput txdsin.toCTxIn txin = true)),
    server.nState = .SIGNING /\ ∀ indexed,
      indexed ∈ (writeScriptSig txin server.finalMutableTransaction).vin.zipIdx ->
      sameInput indexed.1 txdsin.toCTxIn = true ->
        Verified env (writeScriptSig txin server.finalMutableTransaction) indexed := by
    rintro ⟨old, present, sameOld, cause⟩
    refine ⟨?_, fun indexed among same => ?_⟩
    · rcases cause with signed | named
      · exact (session.recorded old present signed).1
      · exact honest.stage old present (sameInput_trans sameOld named)
    by_cases named : sameInput indexed.1 txin = true
    · exact honest.verified_written session.wellFormed among named
    rcases cause with signed | signedNow
    · obtain ⟨input, before, unchanged⟩ := mem_finalInputs_written among
      have kept : indexed.1 = input := by
        rw [unchanged]
        unfold rewritten
        rw [if_neg]
        intro inputNamed
        apply named
        rw [sameInput_iff] at inputNamed ⊢
        rw [unchanged, unsigned_rewritten]
        exact inputNamed
      have pair : (input, indexed.2) = indexed := by rw [<- kept]
      rw [pair] at before
      refine Verified.congr (sameUnsigned_writeScriptSig txin server.finalMutableTransaction) ?_
      exact (session.recorded old present signed).2 indexed before
        (sameInput_trans same (sameInput_symm sameOld))
    · exact absurd (sameInput_trans same signedNow) named
  rcases effect.new txdsin member with old | ⟨_, named, _⟩
  · exact others ⟨txdsin, old, sameInput_iff.mpr rfl, .inl has⟩
  have unsigned : CTxIn.unsigned txdsin.toCTxIn ∈
    (poolInputs server.vecEntries).map fun txdsin => CTxIn.unsigned txdsin.toCTxIn := by
    rw [<- effect.unsigned]
    exact mem_map_of_mem (f := fun txdsin : CTxDSIn => CTxIn.unsigned txdsin.toCTxIn) member
  obtain ⟨old, present, same⟩ := mem_map.mp unsigned
  exact others ⟨old, present, sameInput_iff.mpr same, .inr named⟩

theorem step (step : SessionStep env { script := Honest env } server other) :
    HonestSession env other := by
  have wellFormed := session.wellFormed.step step
  cases step with
  | same same =>
    refine ⟨wellFormed, ?_⟩
    unfold finalInputs
    rw [same.vecEntries, same.nState, same.finalMutableTransaction]
    exact session.recorded
  | reset around => exact ⟨wellFormed, nofun⟩
  | move advance entries _ =>
    refine ⟨wellFormed, fun txdsin member has => ?_⟩
    rw [entries] at member
    exact absurd (session.recorded txdsin member has).1 advance.not_signing.1
  | add may _ before new =>
    refine ⟨wellFormed, fun txdsin member has => ?_⟩
    rw [SessionWellFormed.poolInputs_add] at member
    rcases mem_append.mp member with early | late
    · exact absurd (session.recorded txdsin early has).1 before
    · exact Bool.noConfusion (has.symm.trans (new.unsigned txdsin late).1)
  | finalize around before =>
    exact ⟨wellFormed, fun txdsin member has => absurd (before.symm.trans (session.recorded txdsin member has).1) nofun⟩
  | sign may => exact session.sign may

theorem steps (steps : SessionSteps env { script := Honest env } server other) :
    HonestSession env other := by
  induction steps with
  | refl => exact session
  | tail _ last ih => exact ih.step last

theorem calls (vecTxIn : List CTxIn)
    (honest : ∀ call ∈ scriptSigCalls env server vecTxIn, Honest env call.1 call.2) :
    ∀ call ∈ scriptSigCalls env server vecTxIn, SignsValidly env call.1 call.2 := by
  induction vecTxIn generalizing server with
  | nil => exact nofun
  | cons txin _ ih =>
    have first := honest (server, txin) (.head _)
    have next := session.sign first
    have after := next
    rw [scriptSigCalls] at honest ⊢
    intro call member
    rcases mem_cons.mp member with same | later
    · subst same
      refine ⟨fun writes indexed member named => ?_, fun signing complete indexed member => ?_⟩
      · rcases addScriptSig_cases env server txin with ⟨stopped, _⟩ | ⟨_, written⟩
        · exact absurd writes stopped
        · rw [written] at member ⊢
          exact first.verified_written session.wellFormed member named
      · have present := mem_of_getElem? (mem_finalInputs.mp member)
        obtain ⟨txdsin, among, same⟩ := after.wellFormed.mem_pool present
        have has := all_eq_true.mp complete txdsin among
        exact (after.recorded txdsin among has).2 indexed member (sameInput_symm same)
    · split at later
      · next _ outcome =>
        rw [outcome] at next honest
        exact ih next (forall_mem_cons.mp honest).2 call later
      · cases later

theorem stepCalls (event : ServerEvent)
    (honest : ∀ call ∈ stepCalls env server event, Honest env call.1 call.2) :
    ∀ call ∈ CoinJoin.stepCalls env server event, SignsValidly env call.1 call.2 := by
  unfold CoinJoin.stepCalls at honest ⊢
  split
  · exact nofun
  next synced =>
  rw [if_neg synced] at honest
  cases handled : event.action with
  | dssignfinaltx _ vecTxIn =>
    rw [handled] at honest
    dsimp only at honest ⊢
    split
    · exact nofun
    · next version =>
      rw [if_neg version] at honest
      exact session.calls vecTxIn honest
  | dsaccept | dsvin | checkForCompleteQueue | checkPool | checkTimeout => exact nofun

end

theorem initial (env : ServerEnv) : HonestSession env {} :=
  ⟨.initial env, nofun⟩

end HonestSession

open SignatureSample

end StakeCubeCoin.CoinJoin
