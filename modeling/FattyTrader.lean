import FattyTrader.ReservationLaws
import FattyTrader.KillSwitchLaws
import FattyTrader.RecoveryFollows
import FattyTrader.ExactlyOnce
import FattyTrader.NativeClose
import FattyTrader.CanaryCap
import FattyTrader.ProtectionSettlement
import FattyTrader.StopMutations
import FattyTrader.MonitoredEntries
import FattyTrader.SplitGuard
import FattyTrader.MismatchLatches
import FattyTrader.FallbackRuns
import FattyTrader.ConsoleSessions
import FattyTrader.ConsoleSessionLaws
import FattyTrader.ConsoleCommandRuns
import FattyTrader.MutationAnswers
import FattyTrader.ProviderExitRuns
import FattyTrader.FilledQuantities
import FattyTrader.MissedSignals
import FattyTrader.NotificationRuns
import FattyTrader.PushRuns
import FattyTrader.ManagementEffects
import FattyTrader.ManagementAttempts
import FattyTrader.RevisionVetoes
import FattyTrader.AnalyzerIsolation
import FattyTrader.CloseReceipts
import FattyTrader.LatchHealers
import FattyTrader.MinimumPlans
import FattyTrader.LivePlans
import FattyTrader.PlanSearch
import FattyTrader.GuardMonotone
import FattyTrader.LegReaders
import FattyTrader.CatchupCoverage
import FattyTrader.ProtectionStreams
import FattyTrader.KakaPaper
import FattyTrader.OwnedExposure
import FattyTrader.EntryRouting
import FattyTrader.PriceScale
import FattyTrader.MissingOrders
import FattyTrader.FallbackLevels
import FattyTrader.FallbackEvidence
import FattyTrader.FallbackFills
import FattyTrader.FillRows
import FattyTrader.JsonValues
import FattyTrader.PositionReaders
import FattyTrader.NativeProtection
import FattyTrader.ExactProtection
import FattyTrader.FillPages
import FattyTrader.TelegramHtml
import FattyTrader.AuditEvidence
import FattyTrader.MarginTiers
import FattyTrader.ProtectionWatchdog
import FattyTrader.FillEvidence
import FattyTrader.OrderFrames
import FattyTrader.MarkFreshness
import FattyTrader.SourceExpiry
import FattyTrader.MigrationStatements
import FattyTrader.Backtracking
import FattyTrader.ExplicitSignals
import FattyTrader.ExplicitPrices
import FattyTrader.AveragedLots
import FattyTrader.KakaLegs
import FattyTrader.SettledLifecycles
import FattyTrader.LegFills
import FattyTrader.RetiredChildren
import FattyTrader.AuditedBaselines
import FattyTrader.WonKeys
import FattyTrader.ProtectionPlacement
import FattyTrader.PlacementLaws
import FattyTrader.PlacementRuns
import FattyTrader.EntrySends
import FattyTrader.RecoveryInventory
