import StakeCubeCoin.Coins.Stack
import StakeCubeCoin.Validation.VerifyDB
import StakeCubeCoin.Validation.Recovery
import StakeCubeCoin.Validation.MixHash
import StakeCubeCoin.Llmq.ChainLocks
import StakeCubeCoin.Llmq.QuorumRootRuns
import StakeCubeCoin.Llmq.SigSharesRuns
import StakeCubeCoin.Validation.HeaderRecords
import StakeCubeCoin.CoinJoin.ValidSignatures
import StakeCubeCoin.Masternode.CycleSupply
import StakeCubeCoin.Masternode.EveryPayment
import StakeCubeCoin.Llmq.VoteRuns
import StakeCubeCoin.Bls.ContributionShares
import StakeCubeCoin.Governance.OrphanVotes
import StakeCubeCoin.CoinJoin.Participants
import StakeCubeCoin.CoinJoin.Client
import StakeCubeCoin.Spork.Message
import StakeCubeCoin.Validation.NextWork
import StakeCubeCoin.Chain.ChainWork
import StakeCubeCoin.Llmq.RecoveryMembers
import StakeCubeCoin.Llmq.Mineable
import StakeCubeCoin.CoinJoin.Outcome
import StakeCubeCoin.Llmq.QuorumData
import StakeCubeCoin.Llmq.LockRequests
import StakeCubeCoin.CoinJoin.Fees
import StakeCubeCoin.Script.MultiSig
import StakeCubeCoin.Script.Minimal
import StakeCubeCoin.CoinJoin.Builder
import StakeCubeCoin.Validation.TimeLocks
