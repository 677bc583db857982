import ClawRouter.Access.Assignments
import ClawRouter.Access.LoginAttempts
import ClawRouter.Access.SelfService
import ClawRouter.Background.Progress
import ClawRouter.Budget.Cap
import ClawRouter.Budget.Isolation
import ClawRouter.Budget.Upgrade
import ClawRouter.Charging.Foreground
import ClawRouter.Continuation.Refinement
import ClawRouter.Delivery.Faithful
import ClawRouter.Delivery.FirstEvent
import ClawRouter.Music.Inspected
import ClawRouter.Transcription.Upload
import ClawRouter.Fusion.Covered
import ClawRouter.Grants.Fence
import ClawRouter.Accounting.Consistency
import ClawRouter.Usage.Snapshot
import ClawRouter.Report.Buckets
import ClawRouter.Report.EventPages
import ClawRouter.Report.MergedReport
import ClawRouter.Submissions.Single
import ClawRouter.Devices.Exchanges
import ClawRouter.Runtime.Cooldown
import ClawRouter.Selection.LeastUsed
import ClawRouter.Selection.Recovery
import ClawRouter.Selection.Refinement
import ClawRouter.Selection.RoundRobin
import ClawRouter.Cache.Loads
import ClawRouter.Body.Lease
import ClawRouter.Body.Transport
import ClawRouter.Body.Parser
import ClawRouter.Body.MediaText
import ClawRouter.Inspect.ResponsesChunks
import ClawRouter.Retention.Cleanup
import ClawRouter.Live.GoogleLiveHistory
import ClawRouter.Published.Once
import ClawRouter.Billing.Once
import ClawRouter.Discovery.Agreement
import ClawRouter.Inspect.BedrockStream
import ClawRouter.Inspect.MessageStream
import ClawRouter.Inspect.ProjectedReadings
import ClawRouter.Copilot.Stream
