import StakeCubeCoin.Evo.BuildList
import StakeCubeCoin.Llmq.SigShares

namespace StakeCubeCoin.Llmq

open Primitives List

/-!
# Sending shares to one member

`SelectMemberForRecovery` and `CollectSigSharesToSendConcentrated` of `llmq/signing_shares.cpp`.
When all members are connected, the share of a signed session is sent to one member after
another, in an order that depends on the request.
-/

/-- `recoveryMembers` of the parameters of the source. -/
def recoveryMembers : List (LLMQParams × Nat) :=
  available_llmqs.zip [3, 3, 6, 25, 100, 100, 50]

structure CSignedSession where
  sigShare : CSigShare
  quorum : CQuorum
  nextAttemptTime : Int := 0
  attempt : Nat := 0

/-- A call of `CollectSigSharesToSendConcentrated`: the spork for the type of the session, the time,
and the verified nodes. -/
structure SendRound where
  isAllMembersConnectedEnabled : Bool
  curTime : Int
  proTxToNode : Uint256 -> Option NodeId

def EXP_SEND_FOR_RECOVERY_TIMEOUT : Int := 2000

def MAX_SEND_FOR_RECOVERY_TIMEOUT : Int := 10000

/-- The hash, the conversion of a floating point number, and `recoveryMembers` for the type of the
quorum. -/
structure RecoveryEnv where
  serializeHash : Uint256 × Uint256 -> Uint256
  toInt64 : Int -> Int
  recoveryMembers : Nat

section

variable (env : RecoveryEnv)

/-- `CSigSharesManager::SelectMemberForRecovery`, unless its assertion fails. -/
def selectMemberForRecovery (quorum : CQuorum) (id : Uint256) (attempt : Nat) : Option Uint256 :=
  if attempt < quorum.members.length then
    (((quorum.members.map fun proTxHash =>
      (env.serializeHash (proTxHash, id), proTxHash)).insertionSort fun a b => Evo.uint256Lt b.1 a.1 = false)[attempt]?).map Prod.snd
  else none

/-- What `CollectSigSharesToSendConcentrated` does with one session, unless an assertion fails.  The
waiting time is a floating point number that is converted. -/
def sendForRecovery (session : CSignedSession) (round : SendRound) :
    Option (Option (NodeId × CSigShare) × CSignedSession) :=
  if !round.isAllMembersConnectedEnabled then some (none, session)
  else if env.recoveryMembers < session.attempt then some (none, session)
  else if session.nextAttemptTime <= round.curTime then
    let waitTime := min MAX_SEND_FOR_RECOVERY_TIMEOUT
      (env.toInt64 (2 ^ session.attempt * EXP_SEND_FOR_RECOVERY_TIMEOUT))
    (selectMemberForRecovery env session.quorum session.sigShare.id session.attempt).map fun dmn =>
      ((round.proTxToNode dmn).map fun node => (node, session.sigShare),
        { session with nextAttemptTime := round.curTime + waitTime, attempt := session.attempt + 1 })
  else some (none, session)

def sendRounds (session : CSignedSession) (rounds : List SendRound) : Option CSignedSession :=
  rounds.foldlM (fun session round =>
    (sendForRecovery env session round).map Prod.snd) session

variable {env} {session : CSignedSession}

/-- A member is selected as long as there are members left. -/
theorem exists_selectMemberForRecovery {quorum : CQuorum} {id : Uint256} {attempt : Nat}
    (left : attempt < quorum.members.length) :
    ∃ dmn, selectMemberForRecovery env quorum id attempt = some dmn := by
  rw [selectMemberForRecovery, if_pos left, getElem?_eq_getElem (by simpa using left)]
  exact ⟨_, rfl⟩

/-- With more members than attempts, no assertion fails. -/
theorem sendRounds_ne_none (enough : env.recoveryMembers < session.quorum.members.length)
    (rounds : List SendRound) : sendRounds env session rounds ≠ none := by
  induction rounds generalizing session with
  | nil => exact Option.some_ne_none session
  | cons round _ ih =>
    rw [sendRounds, foldlM_cons]
    have stepped : ∃ result, sendForRecovery env session round = some result /\
        result.2.quorum = session.quorum := by
      rw [sendForRecovery]
      split
      · exact ⟨_, rfl, rfl⟩
      split
      · exact ⟨_, rfl, rfl⟩
      split
      · rcases @exists_selectMemberForRecovery env session.quorum session.sigShare.id
          session.attempt (by omega) with ⟨_, selected⟩
        rw [selected]
        exact ⟨_, rfl, rfl⟩
      · exact ⟨_, rfl, rfl⟩
    rcases stepped with ⟨result, sent, same⟩
    rw [sent]
    exact ih (by rwa [same])

theorem sendRounds_snoc {rounds : List SendRound} {last : CSignedSession} (round : SendRound)
    (sent : sendRounds env session rounds = some last) :
    sendRounds env session (rounds ++ [round]) = (sendForRecovery env last round).map Prod.snd := by
  rw [sendRounds] at sent ⊢
  rw [foldlM_append, sent]
  simp

/-- A round ten seconds after the one before, with no nodes connected. -/
def lateRound (number : Nat) : SendRound :=
  ⟨true, MAX_SEND_FOR_RECOVERY_TIMEOUT * number, fun _ => none⟩

theorem sendRounds_lateRounds (fresh : session.nextAttemptTime = 0) (unsent : session.attempt = 0)
    {count : Nat} (tried : count <= env.recoveryMembers + 1)
    (left : count <= session.quorum.members.length) :
    ∃ last, sendRounds env session ((List.range count).map lateRound) = some last /\
      last.attempt = count /\ last.nextAttemptTime <= (lateRound count).curTime /\
      last.quorum = session.quorum := by
  induction count with
  | zero => exact ⟨session, rfl, unsent, fresh.le, rfl⟩
  | succ count ih =>
    rcases ih (by omega) (by omega) with ⟨middle, sent, attempts, due, same⟩
    rcases @exists_selectMemberForRecovery env middle.quorum middle.sigShare.id middle.attempt
      (by rw [same]; omega) with ⟨_, selected⟩
    have step : ∃ sending, sendForRecovery env middle (lateRound count) =
        some (sending, { middle with
          nextAttemptTime := (lateRound count).curTime + min MAX_SEND_FOR_RECOVERY_TIMEOUT
            (env.toInt64 (2 ^ middle.attempt * EXP_SEND_FOR_RECOVERY_TIMEOUT))
          attempt := middle.attempt + 1 }) := by
      rw [sendForRecovery, if_neg (by simp [lateRound]), if_neg (by omega), if_pos due, selected]
      exact ⟨_, rfl⟩
    rcases step with ⟨sending, step⟩
    rw [range_succ, map_append, map_singleton, sendRounds_snoc _ sent, step]
    refine ⟨_, rfl, congrArg (· + 1) attempts, ?_, same⟩
    simp only [lateRound, MAX_SEND_FOR_RECOVERY_TIMEOUT]
    omega

/-- **Only the quorums for tests run out of members.**  A session asks one more member in every
round, up to a number given with the type, and the assertion on the attempt fails once all were
asked. -/
theorem recovery_attempts_iff {params : LLMQParams}
    (listed : (params, env.recoveryMembers) ∈ recoveryMembers)
    (least : params.minSize <= session.quorum.members.length)
    (most : session.quorum.members.length <= params.size) (fresh : session.nextAttemptTime = 0)
    (unsent : session.attempt = 0) :
    (∀ rounds, sendRounds env session rounds ≠ none) <-> params.type ≠ 100 /\ params.type ≠ 102 := by
  have table : ∀ entry ∈ recoveryMembers,
      if entry.1.type ≠ 100 /\ entry.1.type ≠ 102 then entry.2 < entry.1.minSize
      else entry.1.size <= entry.2 := by
    decide
  have here := table _ listed
  dsimp only at here
  constructor
  · intro safe
    by_contra small
    rw [if_neg small] at here
    rcases @sendRounds_lateRounds env session fresh unsent
      session.quorum.members.length (by omega) le_rfl with ⟨_, sent, _, due, same⟩
    refine safe _ ((sendRounds_snoc (lateRound session.quorum.members.length) sent).trans ?_)
    rw [sendForRecovery, if_neg (by simp [lateRound]), if_neg (by omega), if_pos due,
      selectMemberForRecovery, if_neg (by rw [same]; omega)]
    rfl
  · intro large
    rw [if_pos large] at here
    exact sendRounds_ne_none (by omega)

end

def sessionOf (members : List Uint256) : CSignedSession where
  sigShare := ⟨100, 0, 0, 0, 0, 0⟩
  quorum := ⟨100, 0, 0, 2, members, [], false, fun _ => 0⟩

/-- The fourth round for a quorum of three. -/
theorem recovery_attempts_run_out :
    sendRounds ⟨Prod.fst, id, 3⟩ (sessionOf [1, 2, 3]) ((List.range 4).map lateRound) = none := by
  decide +kernel

theorem recovery_attempts_devnet :
    (∀ rounds, sendRounds ⟨Prod.fst, id, 6⟩ (sessionOf [1, 2, 3, 4, 5, 6, 7]) rounds ≠ none) /\
      (101 : LLMQType) ≠ 100 :=
  ⟨(recovery_attempts_iff (.tail _ (.tail _ (.head _))) (by decide) (by decide) rfl rfl).mpr
    (by decide), by decide⟩

end StakeCubeCoin.Llmq
