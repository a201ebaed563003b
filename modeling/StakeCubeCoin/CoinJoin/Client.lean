import Mathlib.Algebra.BigOperators.Group.List.Basic
import StakeCubeCoin.CoinJoin.Signatures

namespace StakeCubeCoin.CoinJoin

open Primitives Script
open CCoinJoinServer (isValidInOuts)
open Library List

/-!
# The CoinJoin client

`CCoinJoinClientSession` of `coinjoin/client.cpp`, from the entry it sends to the signatures
for the final transaction.  The masternode that merges the entries is not trusted: the client
looks for its own outputs and inputs in what comes back.  An output is found if it is
anywhere, so two outputs that are the same are found at one place.  The outputs pay to keys
that the wallet reserves, and `CKeyHolder` does not ask whether it got one.

The pool's state, locks of coins and log lines are left out.
-/

/-- `CCoinJoinClientSession`.  An entry has an output for each input, and is only made for a
valid denomination. -/
structure CCoinJoinClientSession where
  nSessionID : Nat := 0
  nSessionDenom : Int := 0
  mixingMasternode : Bool := false
  txMyCollateral : CTransaction
  vecEntries : List CCoinJoinEntry := []
  paired : ∀ entry ∈ vecEntries, entry.vecTxOut.length = entry.vecTxDSIn.length
  denominated : vecEntries ≠ [] -> isValidDenomination nSessionDenom = true

/-- What the client asks of the wallet and the node for an entry: the selected inputs, what
`GetReservedKey` gives at a step, and the draw that leaves an input out. -/
structure WalletView where
  isEnabled : Bool := true
  fMasternodeMode : Bool := false
  isLocked : Bool := false
  hasWallet : Bool := true
  hasDiskSpace : Bool := true
  vecTxDSIn : List CTxDSIn
  inRounds : CTxDSIn -> Bool := fun _ => true
  skip : Nat -> Bool := fun _ => false
  reservedKey : Nat -> Option Valtype

/-- What the client asks when it signs.  `signSignature` is the script that `SignSignature` leaves
at an input. -/
structure SignView where
  isEnabled : Bool := true
  fMasternodeMode : Bool := false
  connected : Bool := true
  getHash : CMutableTransaction -> Uint256
  signSignature : CScript -> CMutableTransaction -> Nat -> CScript

inductive Refusal where
  | notMixing
  | notBIP69
  | invalid (nMessageID : PoolMessage)
  | outputMissing (txout : CTxOut)
  | missingInput (txdsin : CTxDSIn)
  | nothingToSign
  deriving DecidableEq

namespace CCoinJoinClientSession

variable (session : CCoinJoinClientSession)

def setNull : CCoinJoinClientSession where
  txMyCollateral := session.txMyCollateral
  paired := fun _ member => absurd member not_mem_nil
  denominated := fun some => absurd rfl some

/-- `CKeyHolder::GetScriptForDestination`.  Without a key it is the hash of nothing that is
paid to. -/
def keyScript (crypto : Crypto) (pubKey : Option Valtype) : CScript :=
  payToPubKeyHash (crypto.hash .OP_HASH160 (pubKey.getD []))

/-- The loop of `PrepareDenominate` with the steps that were made. -/
def preparePairs (crypto : Crypto) (view : WalletView) (nDenomAmount : CAmount) :
    Nat -> List CTxDSIn -> List (CTxDSIn × CTxOut)
  | _, [] => []
  | nSteps, entry :: rest =>
    if COINJOIN_ENTRY_MAX_SIZE <= nSteps then []
    else if !view.inRounds entry then preparePairs crypto view nDenomAmount nSteps rest
    else if 1 <= nSteps /\ view.skip nSteps = true then preparePairs crypto view nDenomAmount (nSteps + 1) rest
    else
      (entry, ⟨nDenomAmount, keyScript crypto (view.reservedKey nSteps)⟩) ::
        preparePairs crypto view nDenomAmount (nSteps + 1) rest

/-- `SendDenominate`, for a denomination that was found valid. -/
def sendDenominate (view : WalletView) (vecPSInOutPairsIn : List (CTxDSIn × CTxOut))
    (session : CCoinJoinClientSession) (valid : isValidDenomination session.nSessionDenom = true) :
    CCoinJoinClientSession :=
  if view.fMasternodeMode then session
  else if session.txMyCollateral.vin.isEmpty && session.txMyCollateral.vout.isEmpty then session
  else if session.nSessionID = 0 then session.setNull
  else if !view.hasDiskSpace then session.setNull
  else
    { session with
      vecEntries := session.vecEntries ++
        [{ vecTxDSIn := vecPSInOutPairsIn.map Prod.fst, vecTxOut := vecPSInOutPairsIn.map Prod.snd
           txCollateral := session.txMyCollateral, addr := Evo.CService.null }]
      paired := by
        intro entry member
        rcases mem_append.mp member with old | new
        · exact session.paired entry old
        · rw [mem_singleton.mp new, length_map, length_map]
      denominated := fun _ => valid }

/-- `SubmitDenominate`: what `SelectDenominate` and `PrepareDenominate` ask, and the entry. -/
def submitDenominate (crypto : Crypto) (view : WalletView) (session : CCoinJoinClientSession) :
    CCoinJoinClientSession :=
  if !view.isEnabled || view.isLocked || !session.vecEntries.isEmpty then session
  else if valid : isValidDenomination session.nSessionDenom = true then
    let pairs := preparePairs crypto view (denominationToAmount session.nSessionDenom) 0 view.vecTxDSIn
    if !view.hasWallet || pairs.isEmpty then session else session.sendDenominate view pairs valid
  else session

def outputs : List CTxOut :=
  session.vecEntries.flatMap CCoinJoinEntry.vecTxOut

/-- One of the client's inputs: the first place where it stands is signed, and the input found there
is pushed with the new script. -/
def signOwnInput (view : SignView) (progress : CMutableTransaction × List CTxIn)
    (txdsin : CTxDSIn) :
    Except Refusal (CMutableTransaction × List CTxIn) :=
  match progress.1.vin.findIdx? fun txin => decide (txin = txdsin.toCTxIn) with
  | none => .error (.missingInput txdsin)
  | some nMyInputIndex =>
    let signed : CTxIn :=
      { txdsin.toCTxIn with scriptSig := view.signSignature txdsin.prevPubKey progress.1 nMyInputIndex }
    .ok ({ progress.1 with vin := progress.1.vin.set nMyInputIndex signed }, progress.2 ++ [signed])

/-- An entry of the client: all its outputs have to be there, then its inputs are signed. -/
def signEntry (view : SignView) (progress : CMutableTransaction × List CTxIn)
    (entry : CCoinJoinEntry) :
    Except Refusal (CMutableTransaction × List CTxIn) :=
  match entry.vecTxOut.find? fun txout => !progress.1.vout.any fun txoutFinal =>
    decide (txoutFinal = txout) with
  | some txout => .error (.outputMissing txout)
  | none => entry.vecTxDSIn.foldlM (signOwnInput view) progress

def sortedBIP69 (tx : CMutableTransaction) : CMutableTransaction :=
  { tx with vin := sortBy compareInputBIP69 tx.vin, vout := sortBy compareOutputBIP69 tx.vout }

/-- What `SignFinalTransaction` pushes to the masternode. -/
def signatures (env : ServerEnv) (around : Surroundings) (view : SignView)
    (session : CCoinJoinClientSession) (finalTransactionNew : CMutableTransaction) :
    Except Refusal (List CTxIn) :=
  if !view.isEnabled || view.fMasternodeMode || !view.connected || !session.mixingMasternode then
    .error .notMixing
  else
    let finalMutableTransaction := sortedBIP69 finalTransactionNew
    if view.getHash finalMutableTransaction ≠ view.getHash finalTransactionNew then .error .notBIP69
    else
      match isValidInOuts env around session.nSessionDenom finalMutableTransaction.vin finalMutableTransaction.vout with
      | .error (nMessageID, _) => .error (.invalid nMessageID)
      | .ok () => do
        let (_, sigs) <- session.vecEntries.foldlM (signEntry view) (finalMutableTransaction, [])
        if sigs = [] then .error .nothingToSign else .ok sigs

/-- `SignFinalTransaction`: the session afterwards, and the signatures that are sent. -/
def signFinalTransaction (env : ServerEnv) (around : Surroundings) (view : SignView)
    (session : CCoinJoinClientSession) (finalTransactionNew : CMutableTransaction) :
    CCoinJoinClientSession × Option (List CTxIn) :=
  match signatures env around view session finalTransactionNew with
  | .ok sigs => (session, some sigs)
  | .error .notMixing => (session, none)
  | .error _ => (session.setNull, none)

/-! ## What the client signs -/

/-- The client is not short: its outputs stand at different places, what is signed are its own
inputs, and the outputs are worth as much. -/
structure NotShort (env : ServerEnv) (session : CCoinJoinClientSession) (tx : CMutableTransaction)
    (sigs : List CTxIn) : Prop where
  outputs : ∃ positions : List Nat,
    positions.Nodup /\ positions.map (fun position => tx.vout[position]?) = session.outputs.map some
  inputs : ∀ sig ∈ sigs, CTxIn.unsigned sig ∈ tx.vin.map CTxIn.unsigned /\
    CTxIn.unsigned sig ∈ (poolInputs session.vecEntries).map fun txdsin => CTxIn.unsigned txdsin.toCTxIn
  value : (sigs.map fun sig => (env.outputOf sig.prevout).nValue).sum <=
    (session.outputs.map CTxOut.nValue).sum

/-- Outputs that all occur in a list without repetitions stand at different places exactly if
they are different. -/
theorem exists_positions_iff {own vout : List CTxOut} (distinct : vout.Nodup)
    (found : ∀ txout ∈ own, txout ∈ vout) : (∃ positions : List Nat,
      positions.Nodup /\ positions.map (fun position => vout[position]?) = own.map some) <-> own.Nodup := by
  constructor
  · rintro ⟨positions, different, places⟩
    refine List.Nodup.of_map some ?_
    rw [<- places]
    refine List.Nodup.map_on (fun first early second late same => ?_) different
    have among := mem_map_of_mem (f := fun position => vout[position]?) early
    rw [places] at among
    obtain ⟨txout, _, there⟩ := mem_map.mp among
    have inside := (List.getElem?_eq_some_iff.mp there.symm).1
    exact (getElem?_inj inside distinct).mp same
  · intro different
    refine ⟨own.map vout.idxOf, ?_, ?_⟩
    · exact List.Nodup.map_on (fun first early second late same => (idxOf_inj (found first early)).mp same) different
    · rw [map_map]
      exact map_congr_left fun txout member => getElem?_idxOf (found txout member)

/-- How far the client is: the inputs that it has signed, in a transaction that has changed in
scripts only. -/
structure Signs (tx : CMutableTransaction) (done : List CTxDSIn)
    (progress : CMutableTransaction × List CTxIn) : Prop where
  vout : progress.1.vout = tx.vout
  vin : progress.1.vin.map CTxIn.unsigned = tx.vin.map CTxIn.unsigned
  sigs : progress.2.map CTxIn.unsigned = done.map fun txdsin => CTxIn.unsigned txdsin.toCTxIn
  present : ∀ sig ∈ progress.2, CTxIn.unsigned sig ∈ tx.vin.map CTxIn.unsigned

section

variable {view : SignView} {tx : CMutableTransaction}

theorem Signs.step {done : List CTxDSIn} {progress next : CMutableTransaction × List CTxIn}
    {txdsin : CTxDSIn} (signs : Signs tx done progress)
    (signed : signOwnInput view progress txdsin = .ok next) :
    Signs tx (done ++ [txdsin]) next := by
  unfold signOwnInput at signed
  split at signed
  · cases signed
  next _ found =>
  cases signed
  obtain ⟨inside, same, _⟩ := findIdx?_eq_some_iff_getElem.mp found
  have here := of_decide_eq_true same
  refine ⟨signs.vout, ?_, ?_, ?_⟩
  · rw [<- signs.vin, map_set]
    refine ext_getElem? fun place => ?_
    rw [getElem?_set, length_map]
    split
    · next equal =>
      subst equal
      rw [getElem?_map, getElem?_eq_getElem inside, here]
      rfl
    · rfl
  · rw [map_append, map_append, signs.sigs]
    rfl
  · intro sig member
    rcases mem_append.mp member with old | new
    · exact signs.present sig old
    · rw [mem_singleton.mp new, <- signs.vin]
      exact mem_map.mpr ⟨_, getElem_mem inside, by rw [here]; rfl⟩

/-- The loop over the entries: all outputs were found, and all inputs are signed. -/
theorem signs_entries {vecEntries : List CCoinJoinEntry} {last : CMutableTransaction × List CTxIn}
    (finished : vecEntries.foldlM (signEntry view) (tx, []) = .ok last) :
    Signs tx (poolInputs vecEntries) last /\
      ∀ txout ∈ vecEntries.flatMap CCoinJoinEntry.vecTxOut, txout ∈ tx.vout := by
  refine @foldlM_done _ _ _ (signEntry view)
    (fun done progress => Signs tx (poolInputs done) progress /\
    ∀ txout ∈ done.flatMap CCoinJoinEntry.vecTxOut, txout ∈ tx.vout) ?_ _ _ _ ⟨⟨rfl, rfl, rfl, ?_⟩, ?_⟩
    finished
  · rintro done _ progress next ⟨signs, found⟩ stepped
    unfold signEntry at stepped
    split at stepped
    · cases stepped
    next all =>
    constructor
    · rw [SessionWellFormed.poolInputs_add]
      refine @foldlM_done _ _ _ (signOwnInput view) (fun signed => Signs tx (poolInputs done ++ signed)) ?_ _ _ _
        (by rw [append_nil]; exact signs) stepped
      intro signed txdsin before after holds made
      rw [<- append_assoc]
      exact holds.step made
    · intro txout member
      rw [flatMap_append, flatMap_singleton] at member
      rcases mem_append.mp member with old | new
      · exact found txout old
      · have there := find?_eq_none.mp all txout new
        rw [signs.vout] at there
        simpa using there
  · exact nofun
  · exact nofun

end

theorem length_outputs : session.outputs.length = (poolInputs session.vecEntries).length := by
  unfold outputs poolInputs
  rw [length_flatMap, length_flatMap]
  exact congrArg sum (map_congr_left session.paired)

/-- The inputs that are signed are worth what the outputs are: there are as many, and all have
the denomination of the session. -/
theorem sum_values {env : ServerEnv} {session : CCoinJoinClientSession} {tx : CMutableTransaction}
    {last : CMutableTransaction × List CTxIn}
    (signs : Signs tx (poolInputs session.vecEntries) last)
    (found : ∀ txout ∈ session.outputs, txout ∈ tx.vout)
    (valid : ValidInOuts env session.nSessionDenom tx.vin tx.vout) :
    (last.2.map fun sig => (env.outputOf sig.prevout).nValue).sum = (session.outputs.map CTxOut.nValue).sum := by
  have lengths := congrArg length signs.sigs
  rw [length_map, length_map, <- length_outputs] at lengths
  cases outputs : session.outputs with
  | nil =>
    rw [outputs] at lengths
    rw [length_eq_zero_iff.mp lengths]
    rfl
  | cons txout _ =>
    rw [<- outputs]
    have member : txout ∈ session.outputs := by
      rw [outputs]
      exact (.head _)
    have begun : session.vecEntries ≠ [] := by
      intro none
      rw [CCoinJoinClientSession.outputs, none] at member
      cases member
    have standard : ∀ amount, amountToDenomination amount = session.nSessionDenom ->
        amount ∈ standardDenominations := by
      intro amount same
      by_contra absent
      have none : amountToDenomination amount = 0 := by
        rw [amountToDenomination, idxOf?_eq_none_iff.mpr absent]
      have denom := session.denominated begun
      rw [<- same, none] at denom
      cases denom
    have known : ∀ first ∈ standardDenominations, ∀ second ∈ standardDenominations,
      amountToDenomination first = amountToDenomination second -> first = second := by decide
    have own := valid.output txout (found txout member)
    have worth : ∀ amount, amountToDenomination amount = session.nSessionDenom -> amount = txout.nValue :=
      fun amount denom => known _ (standard _ denom) _ (standard _ own) (denom.trans own.symm)
    rw [sum_eq_card_nsmul _ txout.nValue ?_, sum_eq_card_nsmul _ txout.nValue ?_, length_map,
      length_map, lengths]
    · intro value listed
      obtain ⟨other, own, equal⟩ := mem_map.mp listed
      exact equal ▸ worth _ (valid.output other (found other own))
    intro value listed
    obtain ⟨sig, own, equal⟩ := mem_map.mp listed
    obtain ⟨txin, there, spent⟩ := mem_map.mp (signs.present sig own)
    have prevout : txin.prevout = sig.prevout := congrArg Prod.fst spent
    exact equal ▸ prevout ▸ worth _ (valid.coin txin there).1

/-- When signatures are sent, the client is not short exactly if its own outputs are all
different. -/
theorem notShort_iff_outputs_nodup (env : ServerEnv) (around : Surroundings) (view : SignView)
    (session : CCoinJoinClientSession) (finalTransactionNew : CMutableTransaction)
    (sigs : List CTxIn)
    (sent : (signFinalTransaction env around view session finalTransactionNew).2 = some sigs) :
    NotShort env session finalTransactionNew sigs <-> session.outputs.Nodup := by
  have accepted : signatures env around view session finalTransactionNew = .ok sigs := by
    unfold signFinalTransaction at sent
    split at sent
    · next outcome => exact outcome.trans (congrArg Except.ok (Option.some.inj sent))
    · cases sent
    · cases sent
  unfold signatures at accepted
  split at accepted
  · cases accepted
  dsimp only at accepted
  split at accepted
  · cases accepted
  split at accepted
  · cases accepted
  next valid =>
  have valid := isValidInOuts_eq_ok valid
  have vin : List.Perm (sortedBIP69 finalTransactionNew).vin finalTransactionNew.vin :=
    perm_insertionSort _ _
  have vout : List.Perm (sortedBIP69 finalTransactionNew).vout finalTransactionNew.vout :=
    perm_insertionSort _ _
  cases signed :
    session.vecEntries.foldlM (signEntry view) (sortedBIP69 finalTransactionNew, []) with
  | error _ =>
    rw [signed] at accepted
    cases accepted
  | ok last =>
    rw [signed] at accepted
    have same : last.2 = sigs := by
      change (if last.2 = [] then Except.error Refusal.nothingToSign else Except.ok last.2) = _ at accepted
      split at accepted
      · cases accepted
      · exact Except.ok.inj accepted
    obtain ⟨signs, found⟩ := signs_entries signed
    rw [<- same]
    have distinct := vout.nodup_iff.mp (List.Nodup.of_map _ valid.outputScripts)
    have places := exists_positions_iff distinct fun txout member => vout.mem_iff.mp (found txout member)
    refine ⟨fun notShort => places.mp notShort.outputs, fun different => ⟨places.mpr different, ?_, ?_⟩⟩
    · intro sig member
      refine ⟨(vin.map _).mem_iff.mp (signs.present sig member), ?_⟩
      rw [<- signs.sigs]
      exact mem_map_of_mem member
    · exact (sum_values signs found valid).le

end CCoinJoinClientSession

namespace ClientSample

/-- Coins and keys whose scripts show a byte of their own. -/
def env : ServerEnv where
  crypto := { SignatureSample.crypto with
    hash := fun op data => replicate op.size (data.headD 7)
    length_hash := fun _ _ => length_replicate }
  outputOf := fun prevout =>
    ⟨COIN / 1000 + 1, payToPubKeyHash (replicate 20 (UInt8.ofNat prevout.hash.toNat))⟩
  nPoolMinParticipants := 3
  nPoolMaxParticipants := 5

/-- A session after the client has submitted two inputs, with the keys that the wallet gave. -/
def session (reservedKey : Nat -> Option Valtype) : CCoinJoinClientSession :=
  CCoinJoinClientSession.submitDenominate env.crypto
    { vecTxDSIn := [1, 2].map fun number => { prevout := SignatureSample.prevout number }, reservedKey }
    { nSessionID := 1, nSessionDenom := 16, mixingMasternode := true
      txMyCollateral := { vin := [{ prevout := SignatureSample.prevout 5 }], vout := [], hash := 1 }
      paired := fun _ member => absurd member not_mem_nil
      denominated := fun some => absurd rfl some }

def final (first second : UInt8) : CMutableTransaction where
  vin := [1, 2].map fun number => { prevout := SignatureSample.prevout number }
  vout := [first, second].map fun byte =>
    ⟨COIN / 1000 + 1, payToPubKeyHash (replicate 20 byte)⟩

def view : SignView where
  getHash := fun tx => BitVec.ofNat 256 tx.vin.length
  signSignature := fun _ _ _ => [OP_1]

def sent : List CTxIn :=
  [1, 2].map fun number => { prevout := SignatureSample.prevout number, scriptSig := [OP_1] }

end ClientSample

open ClientSample in
/-- With a key for each input, the client gets both outputs. -/
theorem notShort_two_keys :
    (CCoinJoinClientSession.signFinalTransaction env (SignatureSample.around 0) view
      (session fun step => some [UInt8.ofNat (step + 3)]) (final 3 4)).2 = some sent /\
      CCoinJoinClientSession.NotShort env (session fun step => some [UInt8.ofNat (step + 3)]) (final 3 4) sent := by
  have signed : (CCoinJoinClientSession.signFinalTransaction env (SignatureSample.around 0) view
    (session fun step => some [UInt8.ofNat (step + 3)]) (final 3 4)).2 = some sent := by decide +kernel
  exact ⟨signed, (CCoinJoinClientSession.notShort_iff_outputs_nodup env (SignatureSample.around 0) view _ _ sent signed).mpr
    (by decide +kernel)⟩

open ClientSample in
/-- Without keys both outputs pay to the hash of nothing.  The masternode pays only one of them, and
the client signs both inputs. -/
theorem short_without_keys :
    (CCoinJoinClientSession.signFinalTransaction env (SignatureSample.around 0) view
      (session fun _ => none) (final 7 9)).2 = some sent /\
      ¬CCoinJoinClientSession.NotShort env (session fun _ => none) (final 7 9) sent := by
  refine ⟨by decide +kernel, fun notShort => ?_⟩
  have different := (CCoinJoinClientSession.exists_positions_iff (by decide +kernel)
    (by decide +kernel)).mp notShort.outputs
  exact absurd different (by decide +kernel)

end StakeCubeCoin.CoinJoin
