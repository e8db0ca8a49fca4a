import QuorumCredit.Counters
import QuorumCredit.Defaults
import QuorumCredit.AtRisk
import QuorumCredit.Admission
import QuorumCredit.Relay
import QuorumCredit.GovVotes
import QuorumCredit.SlashQuorum
import QuorumCredit.VoteDelegation
import QuorumCredit.Treasury
import QuorumCredit.BatchVouch
import QuorumCredit.Refunds
import QuorumCredit.Sweep
import QuorumCredit.KOfN
import QuorumCredit.ConfigBounds
import QuorumCredit.Breaker
import QuorumCredit.Waterfall
import QuorumCredit.FlashProfit
import QuorumCredit.VouchSolvency
import QuorumCredit.GuaranteeCustody
import QuorumCredit.Timelocks
import QuorumCredit.OpenInterest
import QuorumCredit.FarmEmission
import QuorumCredit.AuctionEscrow
import QuorumCredit.MarketSolvency
import QuorumCredit.ChainVotes
import QuorumCredit.MilestoneBacking
import QuorumCredit.AttestationUse
import QuorumCredit.SettlementPaths
import QuorumCredit.VerificationRate
import QuorumCredit.CredentialBatch
import QuorumCredit.GroupMajority
import QuorumCredit.BadgeMarket
import QuorumCredit.MetricsAgree
import QuorumCredit.ChainReorg
import QuorumCredit.LoanProjection
import QuorumCredit.IdempotentReplay
import QuorumCredit.CacheInvalidation
import QuorumCredit.PartialRepay
import QuorumCredit.Buyback
import QuorumCredit.AppealPayout
import QuorumCredit.UnstakeDate
import QuorumCredit.PartialLimit
import QuorumCredit.EvidenceAppeal
import QuorumCredit.Forbearance
import QuorumCredit.SlashLedger
import QuorumCredit.VouchTrails
import QuorumCredit.LifeCycles
