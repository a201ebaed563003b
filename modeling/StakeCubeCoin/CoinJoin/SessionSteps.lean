import StakeCubeCoin.CoinJoin.Server
import StakeCubeCoin.Library.Run

namespace StakeCubeCoin.CoinJoin

open Primitives Script Evo CCoinJoinServer Library List CTxIn Relation.ReflTransGen

/-!
# What an event does to a session

Most of what the server does for an event leaves the session alone: it sends messages and
consumes collaterals.  The steps below are the changes to the stage of the session, its
entries and its final transaction.  Every event is a sequence of them, so an invariant needs
one argument per step and none per message handler.
-/

section

variable {txin : CTxIn}

theorem sameInput_iff {first second : CTxIn} :
    sameInput first second = true <-> unsigned first = unsigned second := by
  simp [sameInput, unsigned]

/-- What a list of inputs looks like after an attempt to sign one of them: only signature scripts
change, and only those of inputs without a signature. -/
structure InputSigned (txin : CTxIn) (before after : List CTxDSIn) (signed : Bool) : Prop where
  unsigned : after.map (fun txdsin => CTxIn.unsigned txdsin.toCTxIn) =
    before.map (fun txdsin => CTxIn.unsigned txdsin.toCTxIn)
  prevPubKey : after.map CTxDSIn.prevPubKey = before.map CTxDSIn.prevPubKey
  /-- Inputs that are not as before carry the new script. -/
  new : ∀ txdsin ∈ after, txdsin ∈ before \/
    signed = true /\ sameInput txdsin.toCTxIn txin = true /\ txdsin.scriptSig = txin.scriptSig
  /-- Inputs with a signature stay. -/
  kept : ∀ txdsin ∈ before, txdsin.fHasSig = true -> txdsin ∈ after
  unchanged : signed = false -> after = before
  /-- A refusal means that an input of that name comes first which has a signature. -/
  refused : signed = false -> ∀ txdsin ∈ before, sameInput txdsin.toCTxIn txin = true ->
    ∃ first ∈ before, sameInput first.toCTxIn txin = true /\ first.fHasSig = true

theorem InputSigned.refl_of_none {inputs : List CTxDSIn}
    (refused : ∀ txdsin ∈ inputs, sameInput txdsin.toCTxIn txin = true ->
      ∃ first ∈ inputs, sameInput first.toCTxIn txin = true /\ first.fHasSig = true) :
    InputSigned txin inputs inputs false where
  unsigned := rfl
  prevPubKey := rfl
  new := fun _ member => .inl member
  kept := fun _ member _ => member
  unchanged := fun _ => rfl
  refused := fun _ => refused

theorem InputSigned.append_left {first before after : List CTxDSIn} {signed : Bool}
    (effect : InputSigned txin before after signed)
    (others : ∀ txdsin ∈ first, sameInput txdsin.toCTxIn txin = true ->
      ∃ other ∈ first, sameInput other.toCTxIn txin = true /\ other.fHasSig = true) :
    InputSigned txin (first ++ before) (first ++ after) signed where
  unsigned := by rw [map_append, map_append, effect.unsigned]
  prevPubKey := by rw [map_append, map_append, effect.prevPubKey]
  new := by
    intro txdsin member
    rcases mem_append.mp member with early | late
    · exact .inl (mem_append_left _ early)
    · exact (effect.new txdsin late).imp_left (mem_append_right _)
  kept := by
    intro txdsin member has
    rcases mem_append.mp member with early | late
    · exact mem_append_left _ early
    · exact mem_append_right _ (effect.kept txdsin late has)
  unchanged := fun none => by rw [effect.unchanged none]
  refused := by
    intro none txdsin member same
    rcases mem_append.mp member with early | late
    · obtain ⟨other, present, named, has⟩ := others txdsin early same
      exact ⟨other, mem_append_left _ present, named, has⟩
    · obtain ⟨other, present, named, has⟩ := effect.refused none txdsin late same
      exact ⟨other, mem_append_right _ present, named, has⟩

theorem InputSigned.append_right {before after : List CTxDSIn} (rest : List CTxDSIn)
    (effect : InputSigned txin before after true) :
    InputSigned txin (before ++ rest) (after ++ rest) true where
  unsigned := by rw [map_append, map_append, effect.unsigned]
  prevPubKey := by rw [map_append, map_append, effect.prevPubKey]
  new := by
    intro txdsin member
    rcases mem_append.mp member with early | late
    · exact (effect.new txdsin early).imp_left (mem_append_left _)
    · exact .inl (mem_append_right _ late)
  kept := by
    intro txdsin member has
    rcases mem_append.mp member with early | late
    · exact mem_append_left _ (effect.kept txdsin early has)
    · exact mem_append_right _ late
  unchanged := nofun
  refused := nofun

theorem inputSigned_signInput (txin : CTxIn) (inputs : List CTxDSIn) :
    InputSigned txin inputs (signInput txin inputs).1 (signInput txin inputs).2 := by
  induction inputs with
  | nil => exact .refl_of_none nofun
  | cons txdsin rest ih =>
    rw [signInput]
    split
    · next same =>
      split
      · next has =>
        exact .refl_of_none fun _ _ _ => ⟨txdsin, (.head _), same, has⟩
      next fresh =>
      have signed : InputSigned txin [txdsin]
        [{ txdsin with scriptSig := txin.scriptSig, fHasSig := true }] true := by
        refine ⟨rfl, rfl, ?_, ?_, nofun, nofun⟩
        · intro other member
          rw [mem_singleton] at member
          subst member
          exact .inr ⟨rfl, same, rfl⟩
        · intro other member has
          rw [mem_singleton] at member
          subst member
          exact absurd has fresh
      exact signed.append_right rest
    · next other =>
      refine @InputSigned.append_left txin [txdsin] rest _ _ ih ?_
      intro named member same
      rw [mem_singleton] at member
      subst member
      exact absurd same other

theorem inputSigned_signEntries (txin : CTxIn) (entries : List CCoinJoinEntry) :
    InputSigned txin (poolInputs entries) (poolInputs (signEntries txin entries).1) (signEntries txin entries).2 /\
      ((signEntries txin entries).2 = false -> (signEntries txin entries).1 = entries) := by
  induction entries with
  | nil => exact ⟨.refl_of_none nofun, fun _ => rfl⟩
  | cons entry rest ih =>
    have one := inputSigned_signInput txin entry.vecTxDSIn
    have attempt : entry.addScriptSig txin =
      ({ entry with vecTxDSIn := (signInput txin entry.vecTxDSIn).1 }, (signInput txin entry.vecTxDSIn).2) := rfl
    rw [signEntries, attempt]
    cases outcome : (signInput txin entry.vecTxDSIn).2 with
    | true =>
      rw [outcome] at one
      exact ⟨one.append_right (poolInputs rest), nofun⟩
    | false =>
      rw [outcome] at one
      rw [one.unchanged rfl]
      refine ⟨ih.1.append_left fun txdsin member same =>
        one.refused rfl txdsin member same, fun none => ?_⟩
      change entry :: (signEntries txin rest).1 = entry :: rest
      rw [ih.2 none]

end

/-- The script at an input of the final transaction, after a write. -/
def rewritten (txinNew txin : CTxIn) : CTxIn :=
  if sameInput txin txinNew then { txin with scriptSig := txinNew.scriptSig } else txin

theorem writeScriptSig_vin (txinNew : CTxIn) (tx : CMutableTransaction) :
    (writeScriptSig txinNew tx).vin = tx.vin.map (rewritten txinNew) := rfl

@[simp] theorem unsigned_rewritten (txinNew txin : CTxIn) :
    unsigned (rewritten txinNew txin) = unsigned txin := by
  unfold rewritten
  split <;> rfl

theorem sameUnsigned_writeScriptSig (txinNew : CTxIn) (tx : CMutableTransaction) :
    SameUnsigned (writeScriptSig txinNew tx) tx where
  vin := by
    rw [writeScriptSig_vin, map_map]
    exact map_congr_left fun txin _ => unsigned_rewritten txinNew txin
  vout := rfl
  nVersion := rfl
  nType := rfl
  nLockTime := rfl
  vExtraPayload := rfl

/-! ## Steps of a session -/

/-- The servers are in the same stage of the same session.  They may differ in the time of the last
step and in what was sent or charged. -/
structure SameSession (server other : CCoinJoinServer) : Prop where
  nState : other.nState = server.nState
  nSessionID : other.nSessionID = server.nSessionID
  nSessionDenom : other.nSessionDenom = server.nSessionDenom
  vecSessionCollaterals : other.vecSessionCollaterals = server.vecSessionCollaterals
  vecEntries : other.vecEntries = server.vecEntries
  finalMutableTransaction : other.finalMutableTransaction = server.finalMutableTransaction

namespace SameSession

variable {server other third : CCoinJoinServer}

theorem refl (server : CCoinJoinServer) : SameSession server server :=
  ⟨rfl, rfl, rfl, rfl, rfl, rfl⟩

theorem trans (first : SameSession server other) (second : SameSession other third) :
    SameSession server third where
  nState := second.nState.trans first.nState
  nSessionID := second.nSessionID.trans first.nSessionID
  nSessionDenom := second.nSessionDenom.trans first.nSessionDenom
  vecSessionCollaterals := second.vecSessionCollaterals.trans first.vecSessionCollaterals
  vecEntries := second.vecEntries.trans first.vecEntries
  finalMutableTransaction := second.finalMutableTransaction.trans first.finalMutableTransaction

end SameSession

/-- What `IsValidInOuts` checks of inputs and outputs that pass. -/
structure ValidInOuts (env : ServerEnv) (nSessionDenom : Int) (vin : List CTxIn)
    (vout : List CTxOut) : Prop where
  size : vin.length = vout.length
  output : ∀ txout ∈ vout, amountToDenomination txout.nValue = nSessionDenom
  coin : ∀ txin ∈ vin, amountToDenomination (env.outputOf txin.prevout).nValue = nSessionDenom /\
    CScript.isPayToPublicKeyHash (env.outputOf txin.prevout).scriptPubKey = true
  outputScripts : (vout.map CTxOut.scriptPubKey).Nodup
  coinScripts : (vin.map fun txin => (env.outputOf txin.prevout).scriptPubKey).Nodup

/-- An entry that `AddEntry` takes: its inputs and outputs are valid, and the inputs are unsigned
and spend neither each other's outputs nor those of the pool. -/
structure NewEntry (env : ServerEnv) (server : CCoinJoinServer) (entry : CCoinJoinEntry) :
    Prop where
  valid : ValidInOuts env server.nSessionDenom (entry.vecTxDSIn.map CTxDSIn.toCTxIn) entry.vecTxOut
  unsigned : ∀ txdsin ∈ entry.vecTxDSIn, txdsin.fHasSig = false /\ txdsin.prevPubKey = []
  distinct : (entry.vecTxDSIn.map fun txdsin => txdsin.prevout).Nodup
  apart : ∀ txdsin ∈ entry.vecTxDSIn, ∀ other ∈ poolInputs server.vecEntries,
    other.prevout ≠ txdsin.prevout

/-- A session is opened, gets another participant, or has all of them. -/
inductive Advance (env : ServerEnv) (server other : CCoinJoinServer) : Prop
  | opened (txCollateral : CTransaction) (before : server.nState = .IDLE)
    (after : other.nState = .QUEUE) (session : other.nSessionID ≠ 0)
    (collaterals : other.vecSessionCollaterals = server.vecSessionCollaterals ++ [txCollateral])
  | joined (txCollateral : CTransaction) (before : server.nState = .QUEUE)
    (after : other.nState = .QUEUE)
    (session : other.nSessionID = server.nSessionID) (denom : other.nSessionDenom = server.nSessionDenom)
    (room : server.vecSessionCollaterals.length < env.nPoolMaxParticipants)
    (collaterals : other.vecSessionCollaterals = server.vecSessionCollaterals ++ [txCollateral])
  | completed (before : server.nState = .QUEUE) (after : other.nState = .ACCEPTING_ENTRIES)
    (session : other.nSessionID = server.nSessionID) (denom : other.nSessionDenom = server.nSessionDenom)
    (collaterals : other.vecSessionCollaterals = server.vecSessionCollaterals)

theorem Advance.not_signing {env : ServerEnv} {server other : CCoinJoinServer}
    (advance : Advance env server other) :
    server.nState ≠ .SIGNING /\ other.nState ≠ .SIGNING := by
  cases advance <;> simp [*]

/-- Which scripts and entries may come.  The rules about steps are proved once for all restrictions,
and each result then restricts what it has to. -/
structure Allowed where
  script : CCoinJoinServer -> CTxIn -> Prop := fun _ _ => True
  entry : CCoinJoinServer -> CCoinJoinEntry -> Prop := fun _ _ => True

/-- A change of the session.  `allowed` restricts the calls of `AddScriptSig` and `AddEntry`. -/
inductive SessionStep (env : ServerEnv) (allowed : Allowed) :
    CCoinJoinServer -> CCoinJoinServer -> Prop
  | same {server other : CCoinJoinServer} (same : SameSession server other) :
    SessionStep env allowed server other
  | reset (around : Surroundings) (server : CCoinJoinServer) :
    SessionStep env allowed server (setNull around server)
  | move {server other : CCoinJoinServer} (advance : Advance env server other)
    (entries : other.vecEntries = server.vecEntries)
    (final : other.finalMutableTransaction = server.finalMutableTransaction) :
    SessionStep env allowed server other
  | add {server : CCoinJoinServer} {entry : CCoinJoinEntry} (may : allowed.entry server entry)
    (begun : server.nState ≠ .IDLE) (before : server.nState ≠ .SIGNING) (new : NewEntry env server entry) :
    SessionStep env allowed server { server with vecEntries := server.vecEntries ++ [entry] }
  | finalize {server : CCoinJoinServer} (around : Surroundings)
    (before : server.nState = .ACCEPTING_ENTRIES) :
    SessionStep env allowed server (setState around .SIGNING
      { server with finalMutableTransaction := sortedTransaction server.vecEntries })
  | sign {server : CCoinJoinServer} {txin : CTxIn} (may : allowed.script server txin) :
    SessionStep env allowed server (server.addScriptSig env txin).1

abbrev SessionSteps (env : ServerEnv) (allowed : Allowed) :=
  Relation.ReflTransGen (SessionStep env allowed)

section

variable {env : ServerEnv} {allowed : Allowed} {around : Surroundings}
  {server other : CCoinJoinServer}

theorem SessionSteps.of_same (same : SameSession server other) :
    SessionSteps env allowed server other :=
  .single (.same same)

/-! ### Messages and fees leave the session alone -/

theorem sameSession_pushStatus (addr : CService) (nStatusUpdate : PoolStatusUpdate)
    (nMessageID : PoolMessage) (server : CCoinJoinServer) :
    SameSession server (server.pushStatus addr nStatusUpdate nMessageID) :=
  ⟨rfl, rfl, rfl, rfl, rfl, rfl⟩

theorem steps_pushStatus {addr : CService} {nStatusUpdate : PoolStatusUpdate}
    {nMessageID : PoolMessage} :
    SessionSteps env allowed server (server.pushStatus addr nStatusUpdate nMessageID) :=
  .of_same (sameSession_pushStatus _ _ _ _)

variable (nStatusUpdate : PoolStatusUpdate)

theorem sameSession_pushStatusToAll (nMessageID : PoolMessage) (server : CCoinJoinServer) :
    SameSession server (pushStatusToAll around nStatusUpdate nMessageID server) := by
  unfold pushStatusToAll
  generalize server.vecEntries.filter (fun entry => around.connected entry.addr) = receivers
  induction receivers generalizing server with
  | nil => exact .refl server
  | cons entry _ ih =>
    exact (sameSession_pushStatus entry.addr nStatusUpdate nMessageID server).trans (ih _)

theorem sameSession_consumeCollateral (txref : CTransaction) (server : CCoinJoinServer) :
    SameSession server (consumeCollateral around txref server) := by
  unfold consumeCollateral
  split
  · exact ⟨rfl, rfl, rfl, rfl, rfl, rfl⟩
  · exact .refl server

theorem sameSession_chargeFees (server : CCoinJoinServer) :
    SameSession server (chargeFees around server) := by
  unfold chargeFees
  dsimp only
  split
  · exact .refl server
  split
  · exact .refl server
  split
  · exact .refl server
  split
  · exact .refl server
  split
  · exact .refl server
  · exact sameSession_consumeCollateral _ server

theorem sameSession_chargeRandom (collaterals : List CTransaction) (draw : Nat)
    (server : CCoinJoinServer) :
    SameSession server (chargeRandom around draw collaterals server) := by
  induction collaterals generalizing draw server with
  | nil => exact .refl server
  | cons txCollateral _ ih =>
    rw [chargeRandom]
    split
    · exact .refl server
    · exact (sameSession_consumeCollateral txCollateral server).trans (ih _ _)

/-! ### Relays may give the session up -/

theorem steps_relayStatus (server : CCoinJoinServer) :
    SessionSteps env allowed server (relayStatus around nStatusUpdate server) := by
  have told := @sameSession_pushStatusToAll around nStatusUpdate .MSG_NOERR server
  unfold relayStatus
  dsimp only
  split
  · exact .of_same told
  have warned := told.trans (@sameSession_pushStatusToAll around .REJECTED .MSG_NOERR _)
  split
  · exact (SessionSteps.of_same warned).tail (.reset around _)
  · exact .of_same warned

theorem steps_relayEach (message : ServerMessage) (entries : List CCoinJoinEntry)
    (server : CCoinJoinServer) :
    SessionSteps env allowed server (relayEach around message entries server) := by
  induction entries generalizing server with
  | nil => exact .refl
  | cons entry _ ih =>
    rw [relayEach]
    split
    · refine (SessionSteps.of_same ?_).trans (ih (server.send entry.addr message))
      exact ⟨rfl, rfl, rfl, rfl, rfl, rfl⟩
    · exact steps_relayStatus .REJECTED server

/-! ### Stages -/

theorem steps_createFinalTransaction (before : server.nState = .ACCEPTING_ENTRIES) :
    SessionSteps env allowed server (createFinalTransaction around server) :=
  (single (.finalize around before)).trans (steps_relayEach _ _ _)

theorem steps_commitFinalTransaction (server : CCoinJoinServer) :
    SessionSteps env allowed server (commitFinalTransaction around server) := by
  unfold commitFinalTransaction
  split
  · exact (single (.reset around server)).trans (steps_relayEach _ _ _)
  · have relayed : SessionSteps env allowed server (relayCompletedTransaction around .MSG_SUCCESS server) :=
      steps_relayEach _ _ server
    exact (relayed.trans (SessionSteps.of_same (sameSession_chargeRandom _ _ _))).tail (.reset around _)

theorem steps_checkPool (server : CCoinJoinServer) :
    SessionSteps env allowed server (checkPool env around server) := by
  unfold checkPool
  split
  · next ready =>
    exact steps_createFinalTransaction ready.1
  split
  · next ready =>
    have charged := @sameSession_chargeFees around server
    exact (SessionSteps.of_same charged).trans (steps_createFinalTransaction (charged.nState.trans ready.1))
  split
  · exact steps_commitFinalTransaction server
  · exact .refl

/-! ### Participants -/

theorem step_createNewSession {dsa : CCoinJoinAccept}
    (created : createNewSession around dsa server = .ok other) :
    SessionStep env allowed server other := by
  unfold createNewSession at created
  split at created
  · cases created
  · next idle =>
    rcases bind_eq_ok_iff.mp created with ⟨_, _, created⟩
    cases created
    exact .move (.opened dsa.txCollateral (not_not.mp idle) rfl (Nat.succ_ne_zero _) rfl) rfl rfl

theorem step_addUserToExistingSession {dsa : CCoinJoinAccept}
    (added : addUserToExistingSession env around dsa server = .ok other) :
    SessionStep env allowed server other := by
  unfold addUserToExistingSession at added
  split at added
  · cases added
  next ready =>
  rcases bind_eq_ok_iff.mp added with ⟨_, _, added⟩
  split at added
  · cases added
  next queue =>
  have stage := not_not.mp queue
  split at added
  · cases added
  cases added
  have room : server.vecSessionCollaterals.length < env.nPoolMaxParticipants := by
    unfold isSessionReady at ready
    rw [stage] at ready
    simp only [Bool.or_eq_true, decide_eq_true_eq, not_or] at ready
    exact Nat.lt_of_not_le ready.1
  exact .move (.joined dsa.txCollateral stage stage rfl rfl room rfl) rfl rfl

theorem steps_processDSACCEPT (pfrom : Peer) (dsa : CCoinJoinAccept) (server : CCoinJoinServer) :
    SessionSteps env allowed server (processDSACCEPT env around pfrom dsa server) := by
  unfold processDSACCEPT
  split
  · exact steps_pushStatus
  split
  · exact steps_pushStatus
  split
  · exact steps_pushStatus
  split
  · exact .refl
  split
  · exact steps_pushStatus
  unfold acceptParticipant
  dsimp only
  split
  · next result =>
    refine (single ?_).trans steps_pushStatus
    split at result
    · exact step_createNewSession result
    · exact step_addUserToExistingSession result
  · exact steps_pushStatus

/-! ### Entries -/

theorem checkTxOut_foldlM {Item : Type} (named : Item -> CTxOut) (nSessionDenom : Int)
    {check : List CScript -> Item -> InOuts (List CScript)}
    (checks : ∀ seen item after, check seen item = .ok after ->
      checkTxOut nSessionDenom seen (named item) = .ok after)
    {items : List Item} {seen after : List CScript} (passed : items.foldlM check seen = .ok after) :
    (∀ item ∈ items, amountToDenomination (named item).nValue = nSessionDenom /\
      CScript.isPayToPublicKeyHash (named item).scriptPubKey = true /\ (named item).scriptPubKey ∉ seen) /\
      (items.map fun item => (named item).scriptPubKey).Nodup := by
  induction items generalizing seen with
  | nil => exact ⟨nofun, nodup_nil⟩
  | cons item _ ih =>
    rcases bind_eq_ok_iff.mp passed with ⟨middle, first, passed⟩
    obtain ⟨later, distinct⟩ := ih passed
    have checked := checks seen item middle first
    unfold checkTxOut at checked
    split at checked
    · cases checked
    next denom =>
    split at checked
    · cases checked
    next template =>
    split at checked
    · cases checked
    next new =>
    cases checked
    constructor
    · intro other member
      rcases mem_cons.mp member with same | among
      · subst same
        exact ⟨not_not.mp denom, by simpa using template, new⟩
      · obtain ⟨value, script, unseen⟩ := later other among
        exact ⟨value, script, fun old => unseen (.tail _ old)⟩
    · rw [map_cons, nodup_cons]
      refine ⟨fun among => ?_, distinct⟩
      obtain ⟨other, member, same⟩ := mem_map.mp among
      exact (later other member).2.2 (by rw [same]; exact (.head _))

theorem isValidInOuts_eq_ok {nSessionDenom : Int} {vin : List CTxIn} {vout : List CTxOut}
    (valid : isValidInOuts env around nSessionDenom vin vout = .ok ()) :
    ValidInOuts env nSessionDenom vin vout := by
  unfold isValidInOuts at valid
  split at valid
  · cases valid
  next sizes =>
  rcases bind_eq_ok_iff.mp valid with ⟨_, outputs, valid⟩
  rcases bind_eq_ok_iff.mp valid with ⟨_, inputs, _⟩
  have ofOutputs := checkTxOut_foldlM id nSessionDenom (fun _ _ _ passed => passed) outputs
  have ofInputs :=
    checkTxOut_foldlM (fun txin : CTxIn => env.outputOf txin.prevout) nSessionDenom ?_ inputs
  · exact ⟨not_not.mp sizes, fun txout member => (ofOutputs.1 txout member).1,
      fun txin member => ⟨(ofInputs.1 txin member).1, (ofInputs.1 txin member).2.1⟩, ofOutputs.2, ofInputs.2⟩
  intro seen txin after passed
  unfold checkTxIn at passed
  split at passed
  · cases passed
  split at passed
  · cases passed
  · exact passed

/-- What `AddEntry` leaves, for an entry that came in a message. -/
theorem step_addEntry (message : EntryMessage) (addr : CService) (begun : server.nState ≠ .IDLE)
    (before : server.nState ≠ .SIGNING) (may : allowed.entry server (message.entry addr)) :
    SessionStep env allowed server (addEntry env around (message.entry addr) server).1 := by
  unfold addEntry
  split
  · exact .same (.refl server)
  split
  · exact .same (.refl server)
  split
  · exact .same (sameSession_consumeCollateral _ server)
  split
  · exact .same (.refl server)
  next apart =>
  split
  · next _ _ _ =>
    split
    · exact .same (sameSession_consumeCollateral _ server)
    · exact .same (.refl server)
  · next valid =>
    have valid := isValidInOuts_eq_ok valid
    refine .add may begun before ⟨valid, ?_, ?_, ?_⟩
    · intro txdsin member
      obtain ⟨_, _, same⟩ := mem_map.mp member
      subst same
      exact ⟨rfl, rfl⟩
    · refine List.Nodup.of_map (fun prevout => (env.outputOf prevout).scriptPubKey) ?_
      have distinct := valid.coinScripts
      rw [map_map] at distinct ⊢
      exact distinct
    · intro txdsin member other present same
      refine apart (any_eq_true.mpr ⟨txdsin, member, any_eq_true.mpr ⟨other, present, ?_⟩⟩)
      exact decide_eq_true same

theorem steps_processDSVIN (pfrom : Peer) (message : EntryMessage) (server : CCoinJoinServer)
    (may : allowed.entry server (message.entry pfrom.addr)) :
    SessionSteps env allowed server (processDSVIN env around pfrom message server) := by
  unfold processDSVIN
  split
  · exact steps_pushStatus
  split
  · exact steps_pushStatus
  next ready =>
  have stage : server.nState ≠ .IDLE /\ server.nState ≠ .SIGNING := by
    constructor <;>
    · intro elsewhere
      apply ready
      unfold isSessionReady
      rw [elsewhere]
      rfl
  have step := @step_addEntry env allowed around server message pfrom.addr stage.1 stage.2 may
  split
  · next outcome =>
    rw [outcome] at step
    refine ((single step).trans ?_).trans (steps_relayStatus .ACCEPTED _)
    exact steps_pushStatus.trans (steps_checkPool _)
  · next outcome =>
    rw [outcome] at step
    exact (single step).trans steps_pushStatus

/-! ### Signatures -/

/-- The calls of `AddScriptSig` that a list of inputs leads to, with the servers on which they
are made. -/
def scriptSigCalls (env : ServerEnv) :
    CCoinJoinServer -> List CTxIn -> List (CCoinJoinServer × CTxIn)
  | _, [] => []
  | server, txin :: rest =>
    (server, txin) ::
      match addScriptSig env txin server with
      | (signed, true) => scriptSigCalls env signed rest
      | (_, false) => []

def stepCalls (env : ServerEnv) (server : CCoinJoinServer) (event : ServerEvent) :
    List (CCoinJoinServer × CTxIn) :=
  if !event.around.isBlockchainSynced then []
  else
    match event.action with
    | .dssignfinaltx pfrom vecTxIn =>
      if pfrom.nVersion < MIN_COINJOIN_PEER_PROTO_VERSION then [] else scriptSigCalls env server vecTxIn
    | _ => []

theorem steps_addScriptSigs (vecTxIn : List CTxIn) (server : CCoinJoinServer)
    (may : ∀ call ∈ scriptSigCalls env server vecTxIn, allowed.script call.1 call.2) :
    SessionSteps env allowed server (addScriptSigs env vecTxIn server).1 := by
  induction vecTxIn generalizing server with
  | nil => exact .refl
  | cons txin rest ih =>
    have first : SessionStep env allowed server (addScriptSig env txin server).1 :=
      .sign (may (server, txin) (.head _))
    rw [addScriptSigs]
    split
    · next signed outcome =>
      have later : ∀ call ∈ scriptSigCalls env signed rest, allowed.script call.1 call.2 := by
        intro call member
        refine may call ?_
        rw [scriptSigCalls, outcome]
        exact .tail _ member
      rw [outcome] at first
      exact .head first (ih signed later)
    · next _ outcome =>
      rw [outcome] at first
      exact .single first

theorem steps_serverStep (server : CCoinJoinServer) (event : ServerEvent)
    (may : ∀ call ∈ stepCalls env server event, allowed.script call.1 call.2)
    (mayEnter : ∀ pfrom message, event.action = .dsvin pfrom message ->
      allowed.entry server (message.entry pfrom.addr)) :
    SessionSteps env allowed server (serverStep env server event) := by
  unfold stepCalls at may
  unfold serverStep
  split
  · exact .refl
  next synced =>
  rw [if_neg synced] at may
  cases handled : event.action with
  | dsaccept pfrom dsa => exact steps_processDSACCEPT pfrom dsa server
  | dsvin pfrom message =>
    exact steps_processDSVIN pfrom message server (mayEnter pfrom message handled)
  | dssignfinaltx pfrom vecTxIn =>
    rw [handled] at may
    dsimp only at may ⊢
    unfold processDSSIGNFINALTX
    split
    · exact .refl
    next version =>
    rw [if_neg version] at may
    have signed := steps_addScriptSigs vecTxIn server may
    split
    · next after outcome =>
      rw [outcome] at signed
      exact signed.trans (steps_checkPool after)
    · next left outcome =>
      rw [outcome] at signed
      exact signed.trans (steps_relayStatus .REJECTED left)
  | checkForCompleteQueue =>
    dsimp only [checkForCompleteQueue]
    split
    · next ready => exact .single (.move (.completed ready.1 rfl rfl rfl rfl) rfl rfl)
    · exact .refl
  | checkPool => exact steps_checkPool server
  | checkTimeout =>
    dsimp only [checkTimeout]
    split
    · exact (SessionSteps.of_same (sameSession_chargeFees server)).tail (.reset event.around _)
    · exact .refl

end

/-! ## What holds in every session -/

/-- The inputs of the pool differ and spend outputs that pay to key hashes, their scripts are
unknown, and the final transaction has these inputs while it is being signed and none before. -/
structure SessionWellFormed (env : ServerEnv) (server : CCoinJoinServer) : Prop where
  distinct : ((poolInputs server.vecEntries).map fun txdsin => txdsin.prevout).Nodup
  keyHash : ∀ txdsin ∈ poolInputs server.vecEntries,
    CScript.isPayToPublicKeyHash (env.outputOf txdsin.prevout).scriptPubKey = true
  unfilled : ∀ txdsin ∈ poolInputs server.vecEntries, txdsin.prevPubKey = []
  merged : server.nState = .SIGNING ->
    List.Perm (server.finalMutableTransaction.vin.map CTxIn.unsigned)
    ((poolInputs server.vecEntries).map fun txdsin => CTxIn.unsigned txdsin.toCTxIn)
  noInputs : server.nState ≠ .SIGNING -> server.finalMutableTransaction.vin = []

namespace SessionWellFormed

variable {env : ServerEnv} {allowed : Allowed} {server other : CCoinJoinServer}

theorem initial (env : ServerEnv) : SessionWellFormed env {} where
  distinct := nodup_nil
  keyHash := nofun
  unfilled := nofun
  merged := nofun
  noInputs := fun _ => rfl

theorem reset (around : Surroundings) (server : CCoinJoinServer) :
    SessionWellFormed env (setNull around server) where
  distinct := nodup_nil
  keyHash := nofun
  unfilled := nofun
  merged := fun signing => absurd signing (show PoolState.IDLE ≠ .SIGNING by decide)
  noInputs := fun _ => rfl

theorem poolInputs_add (vecEntries : List CCoinJoinEntry) (entry : CCoinJoinEntry) :
    poolInputs (vecEntries ++ [entry]) = poolInputs vecEntries ++ entry.vecTxDSIn := by
  unfold poolInputs
  rw [flatMap_append, flatMap_singleton]

variable (wellFormed : SessionWellFormed env server)

include wellFormed

theorem add {entry : CCoinJoinEntry} (before : server.nState ≠ .SIGNING)
    (new : NewEntry env server entry) :
    SessionWellFormed env { server with vecEntries := server.vecEntries ++ [entry] } where
  distinct := by
    rw [poolInputs_add, map_append]
    refine nodup_append.mpr ⟨wellFormed.distinct, new.distinct, ?_⟩
    intro prevout early late present same
    obtain ⟨txdsin, member, spent⟩ := mem_map.mp early
    obtain ⟨added, among, named⟩ := mem_map.mp present
    exact new.apart added among txdsin member (spent.trans (same.trans named.symm))
  keyHash := by
    rw [poolInputs_add]
    intro txdsin member
    rcases mem_append.mp member with early | late
    · exact wellFormed.keyHash txdsin early
    · exact (new.valid.coin txdsin.toCTxIn (mem_map_of_mem late)).2
  unfilled := by
    rw [poolInputs_add]
    intro txdsin member
    rcases mem_append.mp member with early | late
    · exact wellFormed.unfilled txdsin early
    · exact (new.unsigned txdsin late).2
  merged := fun signing => absurd signing before
  noInputs := wellFormed.noInputs

theorem sign (txin : CTxIn) : SessionWellFormed env (addScriptSig env txin server).1 := by
  unfold addScriptSig
  split
  · exact wellFormed
  split
  · exact wellFormed
  obtain ⟨effect, _⟩ := inputSigned_signEntries txin server.vecEntries
  have prevouts :
    (poolInputs (signEntries txin server.vecEntries).1).map (fun txdsin => txdsin.prevout) =
    (poolInputs server.vecEntries).map fun txdsin => txdsin.prevout := by
    have firsts := congrArg (List.map Prod.fst) effect.unsigned
    rw [map_map, map_map] at firsts
    exact firsts
  refine ⟨?_, ?_, ?_, ?_, ?_⟩
  · rw [prevouts]
    exact wellFormed.distinct
  · intro txdsin member
    have named := mem_map_of_mem (f := fun txdsin : CTxDSIn => txdsin.prevout) member
    rw [prevouts] at named
    obtain ⟨old, present, same⟩ := mem_map.mp named
    have template := wellFormed.keyHash old present
    rw [same] at template
    exact template
  · intro txdsin member
    have script := mem_map_of_mem (f := CTxDSIn.prevPubKey) member
    rw [effect.prevPubKey] at script
    obtain ⟨old, present, same⟩ := mem_map.mp script
    rw [<- same]
    exact wellFormed.unfilled old present
  · intro signing
    rw [(sameUnsigned_writeScriptSig txin server.finalMutableTransaction).vin, effect.unsigned]
    exact wellFormed.merged signing
  · intro elsewhere
    rw [writeScriptSig_vin, wellFormed.noInputs elsewhere]
    rfl

theorem finalize (around : Surroundings) : SessionWellFormed env (setState around .SIGNING
      { server with finalMutableTransaction := sortedTransaction server.vecEntries }) where
  distinct := wellFormed.distinct
  keyHash := wellFormed.keyHash
  unfilled := wellFormed.unfilled
  merged := by
    intro _
    have sorted : List.Perm (sortedTransaction server.vecEntries).vin
      ((poolInputs server.vecEntries).map CTxDSIn.toCTxIn) :=
      perm_insertionSort _ _
    have unsigned := sorted.map unsigned
    rw [map_map] at unsigned
    exact unsigned
  noInputs := fun elsewhere => absurd rfl elsewhere

theorem step (step : SessionStep env allowed server other) : SessionWellFormed env other := by
  cases step with
  | same same =>
    obtain ⟨stage, _, _, _, entries, final⟩ := same
    refine ⟨?_, ?_, ?_, ?_, ?_⟩
    · rw [entries]
      exact wellFormed.distinct
    · rw [entries]
      exact wellFormed.keyHash
    · rw [entries]
      exact wellFormed.unfilled
    · rw [stage, entries, final]
      exact wellFormed.merged
    · rw [stage, final]
      exact wellFormed.noInputs
  | reset around => exact .reset around server
  | move advance entries final =>
    have stages := advance.not_signing
    refine ⟨?_, ?_, ?_, fun signing => absurd signing stages.2, fun _ => ?_⟩
    · rw [entries]
      exact wellFormed.distinct
    · rw [entries]
      exact wellFormed.keyHash
    · rw [entries]
      exact wellFormed.unfilled
    · rw [final]
      exact wellFormed.noInputs stages.1
  | add may _ before new => exact wellFormed.add before new
  | finalize around before => exact wellFormed.finalize around
  | @sign _ txin may => exact wellFormed.sign txin

theorem steps (steps : SessionSteps env allowed server other) : SessionWellFormed env other := by
  induction steps with
  | refl => exact wellFormed
  | tail _ last ih => exact ih.step last

theorem serverStep (event : ServerEvent) : SessionWellFormed env (serverStep env server event) :=
  wellFormed.steps (@steps_serverStep env {} server event (fun _ _ => trivial) fun _ _ _ => trivial)

/-- The servers on which an event calls `AddScriptSig` are well formed, too. -/
theorem calls (vecTxIn : List CTxIn) :
    ∀ call ∈ scriptSigCalls env server vecTxIn, SessionWellFormed env call.1 := by
  induction vecTxIn generalizing server with
  | nil => exact nofun
  | cons txin _ ih =>
    intro call member
    have next := wellFormed.sign txin
    rcases mem_cons.mp member with same | later
    · subst same
      exact wellFormed
    split at later
    · next _ outcome =>
      rw [outcome] at next
      exact ih next call later
    · cases later

end SessionWellFormed
end StakeCubeCoin.CoinJoin
