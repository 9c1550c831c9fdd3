import CodexRouter.Base.Text
import CodexRouter.Base.Json
import CodexRouter.Base.Fresh
import CodexRouter.ToolHistory
import CodexRouter.ToolHistoryPairing
import CodexRouter.ToolHistoryResults
import CodexRouter.LocalCompaction
import CodexRouter.LocalCompactionOrphans
import CodexRouter.Routing
import CodexRouter.RequestSanitizer
import CodexRouter.PlanRequest
import CodexRouter.ContinuationFailover
import CodexRouter.ModelIdentity
import CodexRouter.RouterConfig
import CodexRouter.ChannelRoute
import CodexRouter.RoutePlan
import CodexRouter.Base.KeyedTable
import CodexRouter.ServableRoutes
import CodexRouter.AdvertisedModels
import CodexRouter.ChannelSync
import CodexRouter.Publishing
import CodexRouter.ChannelPublication
import CodexRouter.PoolTable
import CodexRouter.PolicyOrder
import CodexRouter.PoolSelection
import CodexRouter.FailoverDecision
import CodexRouter.Base.Run
import CodexRouter.Base.Timeline
import CodexRouter.ImageBatch
import CodexRouter.ImageBatchRuns
import CodexRouter.GatewayLoop
import CodexRouter.GatewayHeads
import CodexRouter.Base.Utf8
import CodexRouter.SseDelivery
import CodexRouter.SseFraming
import CodexRouter.Redaction
import CodexRouter.RedactionTurns
import CodexRouter.RedactionSecrets
import CodexRouter.ToolSchemas
import CodexRouter.ToolSchemaNames
import CodexRouter.ToolNames
import CodexRouter.GeminiNamespaces
import CodexRouter.GeminiNamespaceNames
import CodexRouter.ChatScan
import CodexRouter.ChatStream
import CodexRouter.ChatTimeline
import CodexRouter.SseSink
import CodexRouter.SseReconcile
import CodexRouter.ReconciledStream
import CodexRouter.ThinkTags
import CodexRouter.SseRewriter
import CodexRouter.QuotaWindows
import CodexRouter.OAuthRecovery
import CodexRouter.OAuthResets
import CodexRouter.UsageCache
import CodexRouter.AccountQuery
import CodexRouter.UsageChannels
import CodexRouter.Base.Collect
import CodexRouter.BackendSync
import CodexRouter.PoolPublication
import CodexRouter.UnusableAccounts
import CodexRouter.AccountAttribution
import CodexRouter.DirectChannel
import CodexRouter.Base.Crash
import CodexRouter.Cutover
import CodexRouter.CutoverSafety
import CodexRouter.CutoverRuns
import CodexRouter.Base.FileTree
import CodexRouter.Update
import CodexRouter.UpdateTransaction
import CodexRouter.UpdateRollback
import CodexRouter.Base.Toml
import CodexRouter.CodexToml
import CodexRouter.SystemBinding
import CodexRouter.DesktopSession
import CodexRouter.DesktopProtection
import CodexRouter.DormantProvider
import CodexRouter.RouterConfigText
import CodexRouter.RouterConfigFrame
import CodexRouter.RouteSwitch
import CodexRouter.RetryBudget
import CodexRouter.DsmlScrub
import CodexRouter.ThinkChunks
import CodexRouter.ChatToolMessages
import CodexRouter.ToolHistoryTwice
import CodexRouter.Base.Markers
import CodexRouter.LeakedTools
import CodexRouter.LeakedDeltas
import CodexRouter.ChunkedBody
import CodexRouter.Base.JsonText
import CodexRouter.IdRewrites
import CodexRouter.FallbackPriority
import CodexRouter.StateMigration
import CodexRouter.GrokTools
import CodexRouter.Base.LineBuffer
import CodexRouter.SseLines
import CodexRouter.Base.JsonLeaves
import CodexRouter.SseModelNames
import CodexRouter.Scheduler
import CodexRouter.QuotaPools
import CodexRouter.Base.Ascending
import CodexRouter.OAuthRanks
import CodexRouter.OAuthRanking
import CodexRouter.OAuthSlots
import CodexRouter.GeminiSchemas
import CodexRouter.ContextWindows
import CodexRouter.Base.StagedFiles
import CodexRouter.Base.Moves
import CodexRouter.Base.LetterCase
import CodexRouter.Base.IpAddress
import CodexRouter.Base.Disk
import CodexRouter.ConfigCommit
import CodexRouter.WindowsSandbox
import CodexRouter.ProfileRestore
import CodexRouter.ProfileCredentials
import CodexRouter.ThreadArchives
import CodexRouter.OAuthIdentity
import CodexRouter.RuntimeLogs
import CodexRouter.NoProxy
import CodexRouter.CutoverSnapshot
import CodexRouter.ProfileSanitizer
import CodexRouter.Base.Ledger
import CodexRouter.LogBatches
import CodexRouter.LocalCompactionRange
import CodexRouter.HostStream
import CodexRouter.Base.Table
import CodexRouter.Base.JsonKeys
import CodexRouter.StateTables
import CodexRouter.AdminRequests
import CodexRouter.AdminRuns
import CodexRouter.CompositeRoutes
import CodexRouter.Base.JournaledImport
import CodexRouter.LegacyImport
import CodexRouter.LegacyImportUndo
import CodexRouter.LegacyImportRuns
import CodexRouter.ApiKeys
import CodexRouter.Base.DirTrees
import CodexRouter.UpdateStaging
import CodexRouter.UpdateInstall
import CodexRouter.UpdateDownload
