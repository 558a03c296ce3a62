import OrePool.LockedSystem
import OrePool.Properties.Admission
import OrePool.Properties.ArrivalOrder
import OrePool.Properties.Attribution
import OrePool.Properties.BatchWrites
import OrePool.Properties.BestHash
import OrePool.Properties.BestResult
import OrePool.Properties.BestSolution
import OrePool.Properties.ChallengeRows
import OrePool.Properties.ConnectionTable
import OrePool.Properties.CountedOnce
import OrePool.Properties.Credit
import OrePool.Properties.DisjointWork
import OrePool.Properties.Entitlement
import OrePool.Properties.EpochIsolation
import OrePool.Properties.Exclusion
import OrePool.Properties.FallingBalance
import OrePool.Properties.FeeCap
import OrePool.Properties.FeeEstimate
import OrePool.Properties.FrameDecoding
import OrePool.Properties.HashpowerRange
import OrePool.Properties.LandedWork
import OrePool.Properties.LedgerAgreement
import OrePool.Properties.LocalEstimate
import OrePool.Properties.MessageCodes
import OrePool.Properties.MissionCoherence
import OrePool.Properties.MissionRequests
import OrePool.Properties.NonceOwnership
import OrePool.Properties.PaidOnce
import OrePool.Properties.PaymentsEnd
import OrePool.Properties.PoolTotal
import OrePool.Properties.PreciousFee
import OrePool.Properties.ProofVersions
import OrePool.Properties.Provenance
import OrePool.Properties.RangeCheck
import OrePool.Properties.ReadyKept
import OrePool.Properties.Registration
import OrePool.Properties.Rejection
import OrePool.Properties.ReportSurvives
import OrePool.Properties.Restoration
import OrePool.Properties.RewardSplit
import OrePool.Properties.RoundsEnd
import OrePool.Properties.SameNotifications
import OrePool.Properties.SerialRounds
import OrePool.Properties.SingleConnection
import OrePool.Properties.Solvency
import OrePool.Properties.SubmissionTiming
import OrePool.Properties.WaitsForEveryone
import OrePool.Properties.WinningContribution
