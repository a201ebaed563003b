import StakeCubeCoin.CoinJoin.Signatures

namespace StakeCubeCoin.CoinJoin

open Primitives Script CCoinJoinServer Library List

/-!
# Participants of a session

A participant is known by the collateral it has sent.  An entry should belong to one of them,
and a participant should have one entry at most: fees are charged on that ground.  The server
keeps the stage, the denomination and the inputs in order by itself.  It does not compare the
collateral of an entry with those of the session, and takes an entry without inputs, so the
rest is left to the clients.
-/

/-- An entry of the session: a participant's, with inputs and as many outputs, all of the
session's denomination. -/
structure EntryOfSession (env : ServerEnv) (server : CCoinJoinServer) (entry : CCoinJoinEntry) :
    Prop where
  participant : entry.txCollateral ∈ server.vecSessionCollaterals
  inputs : entry.vecTxDSIn ≠ []
  size : entry.vecTxOut.length = entry.vecTxDSIn.length
  outputs : ∀ txout ∈ entry.vecTxOut, amountToDenomination txout.nValue = server.nSessionDenom
  coins : ∀ prevout ∈ entry.vecTxDSIn.map (fun txdsin => txdsin.prevout),
    amountToDenomination (env.outputOf prevout).nValue = server.nSessionDenom

/-- A session as it should be: nobody takes part while it is idle, each participant has one entry at
most, and no coin is put in twice. -/
structure SessionInvariant (env : ServerEnv) (server : CCoinJoinServer) : Prop where
  idle : server.nState = .IDLE <->
    server.nSessionID = 0 /\ server.vecSessionCollaterals = [] /\ server.vecEntries = []
  bounded : server.vecSessionCollaterals.length <= env.nPoolMaxParticipants
  oneEach : (server.vecEntries.map CCoinJoinEntry.txCollateral).Nodup
  entries : ∀ entry ∈ server.vecEntries, EntryOfSession env server entry
  distinct : ((poolInputs server.vecEntries).map fun txdsin => txdsin.prevout).Nodup

/-- An entry that may come: the first one of a participant, with an input.  `AddEntry` itself does
not look for the collateral among those of the session. -/
structure Entitled (server : CCoinJoinServer) (entry : CCoinJoinEntry) : Prop where
  participant : entry.txCollateral ∈ server.vecSessionCollaterals
  first : entry.txCollateral ∉ server.vecEntries.map CCoinJoinEntry.txCollateral
  inputs : entry.vecTxDSIn ≠ []

instance (server : CCoinJoinServer) (entry : CCoinJoinEntry) : Decidable (Entitled server entry) :=
  decidable_of_iff (entry.txCollateral ∈ server.vecSessionCollaterals /\
    entry.txCollateral ∉ server.vecEntries.map CCoinJoinEntry.txCollateral /\ entry.vecTxDSIn ≠ [])
    ⟨fun holds => ⟨holds.1, holds.2.1, holds.2.2⟩, fun holds => ⟨holds.1, holds.2, holds.3⟩⟩

def EntersEntitled (server : CCoinJoinServer) (event : ServerEvent) : Prop :=
  match event.action with
  | .dsvin pfrom message => Entitled server (message.entry pfrom.addr)
  | _ => True

instance (server : CCoinJoinServer) (event : ServerEvent) :
    Decidable (EntersEntitled server event) := by
  unfold EntersEntitled
  split <;> infer_instance

def entryParts (entry : CCoinJoinEntry) : CTransaction × List CTxOut × List COutPoint :=
  (entry.txCollateral, entry.vecTxOut, entry.vecTxDSIn.map fun txdsin => txdsin.prevout)

theorem entryParts_addScriptSig (txin : CTxIn) (entry : CCoinJoinEntry) :
    entryParts (entry.addScriptSig txin).1 = entryParts entry := by
  have prevouts :=
    congrArg (List.map Prod.fst) (inputSigned_signInput txin entry.vecTxDSIn).unsigned
  rw [map_map, map_map] at prevouts
  exact congrArg (fun inputs => (entry.txCollateral, entry.vecTxOut, inputs)) prevouts

theorem entryParts_addScriptSigs (env : ServerEnv) (txin : CTxIn) (server : CCoinJoinServer) :
    (server.addScriptSig env txin).1.vecEntries.map entryParts = server.vecEntries.map entryParts := by
  unfold addScriptSig
  split
  · rfl
  split
  · rfl
  change (signEntries txin server.vecEntries).1.map entryParts = _
  induction server.vecEntries with
  | nil => rfl
  | cons entry _ ih =>
    have first := entryParts_addScriptSig txin entry
    rw [signEntries]
    split
    · next _ outcome =>
      rw [outcome] at first
      rw [map_cons, map_cons, first]
    · next _ outcome =>
      rw [outcome] at first
      rw [map_cons, map_cons, first, ih]

namespace SessionInvariant

variable {env : ServerEnv} {server other : CCoinJoinServer}

theorem initial (env : ServerEnv) : SessionInvariant env {} where
  idle := ⟨fun _ => ⟨rfl, rfl, rfl⟩, fun _ => rfl⟩
  bounded := Nat.zero_le _
  oneEach := nodup_nil
  entries := nofun
  distinct := nodup_nil

variable (invariant : SessionInvariant env server)

include invariant

theorem of_parts (wellFormed : SessionWellFormed env other)
    (parts : other.vecEntries.map entryParts = server.vecEntries.map entryParts)
    (denom : other.nSessionDenom = server.nSessionDenom)
    (collaterals : server.vecSessionCollaterals ⊆ other.vecSessionCollaterals)
    (bounded : other.vecSessionCollaterals.length <= env.nPoolMaxParticipants)
    (idle : other.nState = .IDLE <-> other.nSessionID = 0 /\ other.vecSessionCollaterals = [] /\ server.vecEntries = []) :
    SessionInvariant env other where
  idle := by
    have empty : other.vecEntries = [] <-> server.vecEntries = [] := by
      rw [<- map_eq_nil_iff (f := entryParts), parts, map_eq_nil_iff]
    rw [idle, empty]
  bounded := bounded
  oneEach := by
    have same := congrArg (List.map Prod.fst) parts
    rw [map_map, map_map] at same
    exact same ▸ invariant.oneEach
  entries := by
    intro entry member
    have among := mem_map_of_mem (f := entryParts) member
    rw [parts] at among
    obtain ⟨old, present, same⟩ := mem_map.mp among
    have before := invariant.entries old present
    obtain ⟨collateral, outputs, prevouts⟩ : old.txCollateral = entry.txCollateral /\ old.vecTxOut = entry.vecTxOut /\
      old.vecTxDSIn.map (fun txdsin => txdsin.prevout) = entry.vecTxDSIn.map fun txdsin => txdsin.prevout := by
      simpa [entryParts] using same
    have lengths := congrArg List.length prevouts
    rw [length_map, length_map] at lengths
    refine ⟨collaterals (collateral ▸ before.participant), fun none => before.inputs ?_, ?_, ?_, ?_⟩
    · exact length_eq_zero_iff.mp (lengths.trans (congrArg List.length none))
    · rw [<- outputs, <- lengths]
      exact before.size
    · rw [<- outputs, denom]
      exact before.outputs
    · rw [<- prevouts, denom]
      exact before.coins
  distinct := wellFormed.distinct

theorem advance (wellFormed : SessionWellFormed env other)
    (chain : 0 < env.nPoolMaxParticipants) (advance : Advance env server other)
    (entries : other.vecEntries = server.vecEntries) : SessionInvariant env other := by
  have parts := congrArg (List.map entryParts) entries
  cases advance with
  | opened txCollateral before after session collaterals =>
    obtain ⟨_, none, noEntries⟩ := invariant.idle.mp before
    rw [none] at collaterals
    rw [noEntries] at entries
    refine ⟨?_, ?_, ?_, ?_, wellFormed.distinct⟩
    · simp [after, session]
    · rw [collaterals]
      exact chain
    · rw [entries]
      exact nodup_nil
    · rw [entries]
      exact nofun
  | joined txCollateral before after session denom room collaterals =>
    refine invariant.of_parts wellFormed parts denom ?_ ?_ ?_
    · rw [collaterals]
      exact subset_append_left _ _
    · rw [collaterals, length_append]
      exact room
    · simp [after, collaterals]
  | completed before after session denom collaterals =>
    refine invariant.of_parts wellFormed parts denom (by rw [collaterals]; exact List.Subset.refl _)
      (by rw [collaterals]; exact invariant.bounded) ?_
    rw [session, collaterals, <- invariant.idle, before, after]
    simp

theorem add {entry : CCoinJoinEntry}
    (wellFormed : SessionWellFormed env { server with vecEntries := server.vecEntries ++ [entry] })
    (may : Entitled server entry) (begun : server.nState ≠ .IDLE)
    (new : NewEntry env server entry) :
    SessionInvariant env { server with vecEntries := server.vecEntries ++ [entry] } where
  idle := by simp [begun]
  bounded := invariant.bounded
  oneEach := by
    rw [map_append]
    refine nodup_append.mpr ⟨invariant.oneEach, nodup_singleton _, ?_⟩
    intro old present added among same
    rw [map_singleton, mem_singleton] at among
    exact may.first (among ▸ same ▸ present)
  entries := by
    intro other member
    rcases mem_append.mp member with early | late
    · have before := invariant.entries other early
      exact ⟨before.participant, before.inputs, before.size, before.outputs, before.coins⟩
    rw [mem_singleton] at late
    subst late
    refine ⟨may.participant, may.inputs, ?_, new.valid.output, ?_⟩
    · exact new.valid.size.symm.trans (length_map _)
    · intro prevout spent
      obtain ⟨txdsin, present, named⟩ := mem_map.mp spent
      exact named ▸ (new.valid.coin txdsin.toCTxIn (mem_map_of_mem present)).1
  distinct := wellFormed.distinct

theorem step (wellFormed : SessionWellFormed env server) (chain : 0 < env.nPoolMaxParticipants)
    (step : SessionStep env { entry := Entitled } server other) :
    SessionInvariant env other := by
  have after := wellFormed.step step
  cases step with
  | same same =>
    refine invariant.of_parts after (by rw [same.vecEntries]) same.nSessionDenom ?_ ?_ ?_
    · rw [same.vecSessionCollaterals]
      exact List.Subset.refl _
    · rw [same.vecSessionCollaterals]
      exact invariant.bounded
    · rw [same.nState, same.nSessionID, same.vecSessionCollaterals]
      exact invariant.idle
  | reset around =>
    exact ⟨⟨fun _ => ⟨rfl, rfl, rfl⟩, fun _ => rfl⟩, Nat.zero_le _, nodup_nil, nofun, after.distinct⟩
  | move advance entries _ => exact invariant.advance after chain advance entries
  | add may begun before new => exact invariant.add after may begun new
  | finalize around before =>
    refine invariant.of_parts after rfl rfl (List.Subset.refl _) invariant.bounded ?_
    have stage : server.nState ≠ .IDLE := by simp [before]
    exact ⟨fun idle => absurd idle nofun, fun none => absurd (invariant.idle.mpr none) stage⟩
  | @sign _ txin may =>
    have stage := invariant.idle
    have parts := entryParts_addScriptSigs env txin server
    have rest : (server.addScriptSig env txin).1 = { server with
      finalMutableTransaction := (server.addScriptSig env txin).1.finalMutableTransaction
      vecEntries := (server.addScriptSig env txin).1.vecEntries } := by
      unfold addScriptSig
      split
      · rfl
      split <;> rfl
    rw [rest] at after ⊢
    exact invariant.of_parts after parts rfl (List.Subset.refl _) invariant.bounded stage

theorem steps (wellFormed : SessionWellFormed env server) (chain : 0 < env.nPoolMaxParticipants)
    (steps : SessionSteps env { entry := Entitled } server other) :
    SessionInvariant env other /\ SessionWellFormed env other := by
  induction steps with
  | refl => exact ⟨invariant, wellFormed⟩
  | tail _ last ih => exact ⟨ih.1.step ih.2 chain last, ih.2.step last⟩

end SessionInvariant

/-- Where every entry is a participant's first one and has an input, the session is as it should be
after any events.  The server itself checks neither. -/
theorem sessionInvariant_of_entitled (env : ServerEnv) (chain : 0 < env.nPoolMaxParticipants)
    (events : List ServerEvent) (entitled : EveryStep (serverStep env) EntersEntitled {} events) :
    SessionInvariant env (events.foldl (serverStep env) {}) := by
  have kept := @EveryStep.last _ _ (serverStep env)
    (fun server => SessionInvariant env server /\ SessionWellFormed env server) EntersEntitled ?_ {} events
    ⟨.initial env, .initial env⟩ entitled
  · exact kept.1
  intro server event holds enters
  refine holds.1.steps holds.2 chain ?_
  refine steps_serverStep server event (fun _ _ => trivial) fun pfrom message brought => ?_
  unfold EntersEntitled at enters
  rw [brought] at enters
  exact enters

open SignatureSample

/-- The sample session: three participants, each with one entry. -/
theorem sessionInvariant_toSigning : (toSigning.foldl (serverStep env) {}).vecEntries.length = 3 /\
      SessionInvariant env (toSigning.foldl (serverStep env) {}) :=
  ⟨by decide +kernel, sessionInvariant_of_entitled env (by decide) toSigning (by decide +kernel)⟩

/-- A stranger sends an entry with a collateral of its own, and one without inputs. -/
def strangerEntries : List ServerEvent :=
  toSigning.take 4 ++ [⟨around 31, .dsvin (peer 9) ⟨[{ prevout := prevout 9 }],
    [⟨COIN / 1000 + 1, payToPubKeyHash (List.replicate 20 9)⟩], collateral 9⟩⟩,
    ⟨around 31, .dsvin (peer 9) ⟨[], [], collateral 9⟩⟩]

/-- Both are taken, in the place of participants of the session. -/
theorem stranger_takes_entries :
    ¬SessionInvariant env (strangerEntries.foldl (serverStep env) {}) /\
      (strangerEntries.foldl (serverStep env) {}).vecSessionCollaterals = [collateral 1, collateral 2, collateral 3] /\
      (strangerEntries.foldl (serverStep env) {}).vecEntries.map CCoinJoinEntry.txCollateral = [collateral 9, collateral 9] /\
      (strangerEntries.foldl (serverStep env) {}).vecEntries.map (fun entry => entry.vecTxDSIn.length) = [1, 0] := by
  have collaterals :
    (strangerEntries.foldl (serverStep env) {}).vecEntries.map CCoinJoinEntry.txCollateral =
    [collateral 9, collateral 9] := by decide +kernel
  refine ⟨fun invariant => ?_, by decide +kernel, collaterals, by decide +kernel⟩
  have oneEach := invariant.oneEach
  exact absurd oneEach (by decide +kernel)

end StakeCubeCoin.CoinJoin
