import ApexChainx.Proofs.Atomicity
import ApexChainx.Proofs.Batches
import ApexChainx.Proofs.Compensation
import ApexChainx.Proofs.ConfigHash
import ApexChainx.Proofs.ConfigModule
import ApexChainx.Proofs.Correlation
import ApexChainx.Proofs.CustomTiers
import ApexChainx.Proofs.EventLog
import ApexChainx.Proofs.Exposure
import ApexChainx.Proofs.Footprint
import ApexChainx.Proofs.Freeze
import ApexChainx.Proofs.FuzzSpec
import ApexChainx.Proofs.FuzzTargets
import ApexChainx.Proofs.Generations
import ApexChainx.Proofs.Handoffs
import ApexChainx.Proofs.HashMirror
import ApexChainx.Proofs.HistoryMirror
import ApexChainx.Proofs.IndexKeys
import ApexChainx.Proofs.Initialization
import ApexChainx.Proofs.Migration
import ApexChainx.Proofs.Negotiation
import ApexChainx.Proofs.PageSessions
import ApexChainx.Proofs.Pagination
import ApexChainx.Proofs.Pause
import ApexChainx.Proofs.PruneEvents
import ApexChainx.Proofs.Reconfiguration
import ApexChainx.Proofs.Recovery
import ApexChainx.Proofs.Redelivery
import ApexChainx.Proofs.Rejections
import ApexChainx.Proofs.Replay
import ApexChainx.Proofs.Reports
import ApexChainx.Proofs.Retention
import ApexChainx.Proofs.Settlement
import ApexChainx.Proofs.StagedUpgrade
import ApexChainx.Proofs.Telemetry
import ApexChainx.Proofs.Trims
import ApexChainx.Proofs.VectorRefinement
import ApexChainx.Proofs.ViewAgreement
import ApexChainx.Proofs.ViolationRate
