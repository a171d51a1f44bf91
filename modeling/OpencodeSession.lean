import OpencodeSession.Framework.Dict
import OpencodeSession.Framework.RelyGuarantee
import OpencodeSession.Json
import OpencodeSession.Worker.Status
import OpencodeSession.Worker.Lifecycle
import OpencodeSession.Worker.Record
import OpencodeSession.Worker.Transition
import OpencodeSession.Worker.TransitionFacts
import OpencodeSession.Worker.Dependencies
import OpencodeSession.Properties.CycleSafety
import OpencodeSession.Framework.History
import OpencodeSession.Run.Record
import OpencodeSession.Run.RemoteJournal
import OpencodeSession.Worker.Attempt
import OpencodeSession.Worker.AttemptFacts
import OpencodeSession.Run.Mutation
import OpencodeSession.Run.Store
import OpencodeSession.Run.MutationFacts
import OpencodeSession.Properties.Outbox
import OpencodeSession.Orchestration.Interface
import OpencodeSession.Orchestration.Provisioning
import OpencodeSession.Orchestration.Execution
import OpencodeSession.Orchestration.SessionCleanup
import OpencodeSession.Orchestration.Flow
import OpencodeSession.Orchestration.Commands
import OpencodeSession.Properties.Planner
import OpencodeSession.Properties.AcceptedAbort
import OpencodeSession.Orchestration.Requests
import OpencodeSession.Framework.Alone
import OpencodeSession.Orchestration.SingleWriter
import OpencodeSession.Properties.FailFast
import OpencodeSession.Properties.StartRule
import OpencodeSession.Properties.DeletedSessions
import OpencodeSession.Framework.Exceptions
import OpencodeSession.Store.FieldSpec
import OpencodeSession.Store.Snapshot
import OpencodeSession.Store.Manifest
import OpencodeSession.Store.RunRecord
import OpencodeSession.Store.Canonical
import OpencodeSession.Store.Hydration
import OpencodeSession.Store.RunStore
import OpencodeSession.Store.RunRecordFacts
import OpencodeSession.Properties.LoadTotality
import OpencodeSession.Properties.RunIsolation
import OpencodeSession.Framework.Traces
import OpencodeSession.Cleanup.Interface
import OpencodeSession.Cleanup.Plan
import OpencodeSession.Cleanup.Verify
import OpencodeSession.Cleanup.Local
import OpencodeSession.Cleanup.Preflight
import OpencodeSession.Cleanup.Service
import OpencodeSession.Properties.CleanupComplete
import OpencodeSession.Cleanup.Requests
import OpencodeSession.Properties.AbortCompletes
import OpencodeSession.Properties.Blockers
import OpencodeSession.Properties.StartOutcome
import OpencodeSession.Properties.AttemptLog
import OpencodeSession.Properties.CommandRule
import OpencodeSession.Properties.ResultFreshness
import OpencodeSession.Framework.Calendar
import OpencodeSession.Properties.DependencyAnalysis
import OpencodeSession.Properties.JournalIsolation
import OpencodeSession.Properties.StoredSession
import OpencodeSession.Properties.SnapshotReplay
import OpencodeSession.Properties.BranchTransactions
import OpencodeSession.Properties.LegacyMigration
import OpencodeSession.Properties.LeaseExpiry
import OpencodeSession.Properties.RetryBudget
import OpencodeSession.Properties.AttemptRule
import OpencodeSession.Framework.Utf8
import OpencodeSession.Session.EventStream
import OpencodeSession.Properties.EventRoundTrip
import OpencodeSession.Session.Watch
import OpencodeSession.Properties.AbortConfirmation
import OpencodeSession.Properties.WatchOutput
import OpencodeSession.Framework.PercentEncoding
import OpencodeSession.Framework.Url
import OpencodeSession.Server.Diagnostics
import OpencodeSession.Framework.UrlJoin
import OpencodeSession.Properties.PathValidation
import OpencodeSession.Server.Routes
import OpencodeSession.Properties.RouteShape
import OpencodeSession.Framework.UrlAppend
import OpencodeSession.Properties.RequestFidelity
import OpencodeSession.Cleanup.ProjectCopies
import OpencodeSession.Properties.RefreshScope
import OpencodeSession.Framework.AtomicFile
import OpencodeSession.Store.Calls
import OpencodeSession.Properties.StoreHistory
import OpencodeSession.Store.Rewriting
import OpencodeSession.Properties.StoreRoundTrip
import OpencodeSession.Cleanup.SharedRun
import OpencodeSession.Properties.CleanupFence
import OpencodeSession.Framework.Counting
import OpencodeSession.Properties.PromptBudget
