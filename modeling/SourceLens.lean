import SourceLens.McpTools
import SourceLens.McpResult
import SourceLens.ReplyObject
import SourceLens.Citations
import SourceLens.FilenameLimit
import SourceLens.ScriptQuota
import SourceLens.SkillImport
import SourceLens.StdioServers
import SourceLens.SavedOutput
import SourceLens.PluginToolArguments
import SourceLens.PluginEvidenceOrders
import SourceLens.SearchCompleteness
import SourceLens.PlanOutcomes
import SourceLens.RedactionClean
import SourceLens.EvidenceCuts
import SourceLens.SearchCache
import SourceLens.PublishedAnswerRuns
import SourceLens.ReplayGuard
import SourceLens.GatewayHistoryRuns
import SourceLens.SourceWindows
import SourceLens.ConversionAttempts
import SourceLens.ManagedConversionImagesRuns
import SourceLens.GitCleanup
import SourceLens.UploadExtractionRuns
import SourceLens.RunEventsText
import SourceLens.GitManifest
import SourceLens.AcquireExecutionRuns
import SourceLens.OutboxProgress
import SourceLens.OutboxStream
import SourceLens.EvaluationDispatchRuns
import SourceLens.DatasourceTaskRuns
import SourceLens.RegistrationRuns
import SourceLens.LoginCodeSendRuns
import SourceLens.LoginCodeRuns
import SourceLens.RunClosingRuns
import SourceLens.LoopResume
import SourceLens.RuntimeCleanupRuns
import SourceLens.CheckpointRetentionRuns
import SourceLens.DelegationRuns
import SourceLens.RunOutputRuns
import SourceLens.AssistantConcurrencyRuns
import SourceLens.AppendFileRuns
import SourceLens.DecisionCallsRuns
import SourceLens.RunGuardrailsRuns
import SourceLens.RunOutcomeSound
import SourceLens.SkillSnapshots
import SourceLens.AlertDeliveryDuplicates
import SourceLens.EvaluationCompletion
import SourceLens.DocumentIndexRuns
import SourceLens.GatewayBudgetRuns
import SourceLens.ModelFailoverRuns
import SourceLens.RunDocumentsRuns
import SourceLens.RunDispatchRuns
import SourceLens.RunDispatchOnce
import SourceLens.ConversionStopRuns
import SourceLens.FeishuRetentionRuns
import SourceLens.FeishuScanOrders
import SourceLens.OutboxTerminalRuns
import SourceLens.TraceDeliveryRuns
import SourceLens.TraceResume
import SourceLens.UploadTransferRuns
import SourceLens.UploadIndexRuns
