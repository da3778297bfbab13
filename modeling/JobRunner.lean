import JobRunner.Cache.Fetch
import JobRunner.Json.Compact
import JobRunner.Json.Read
import JobRunner.LogFormat
import JobRunner.Pool.Text
import JobRunner.Proofs.CacheAccounts
import JobRunner.Proofs.CacheFreshness
import JobRunner.Proofs.Calendar
import JobRunner.Proofs.ConfigForms
import JobRunner.Proofs.Courses
import JobRunner.Proofs.EnvironmentGrammar
import JobRunner.Proofs.Fingerprints
import JobRunner.Proofs.GateProgress
import JobRunner.Proofs.InstallConfirmation
import JobRunner.Proofs.JobFates
import JobRunner.Proofs.JobIsolation
import JobRunner.Proofs.JobLifecycle
import JobRunner.Proofs.JobWriters
import JobRunner.Proofs.LateShutdown
import JobRunner.Proofs.OneWinner
import JobRunner.Proofs.PackageRequests
import JobRunner.Proofs.PatternInvalidation
import JobRunner.Proofs.PollCourse
import JobRunner.Proofs.PollDeadline
import JobRunner.Proofs.PollTranscript
import JobRunner.Proofs.PoolAdmission
import JobRunner.Proofs.PoolBarrier
import JobRunner.Proofs.RecordForms
import JobRunner.Proofs.RegistryQueries
import JobRunner.Proofs.ReleaseHistory
import JobRunner.Proofs.RemovalConfirmation
import JobRunner.Proofs.RetryCourse
import JobRunner.Proofs.RetryProgress
import JobRunner.Proofs.SettledDeployer
import JobRunner.Proofs.ShelfRuns
import JobRunner.Proofs.SingleFlight
import JobRunner.Proofs.TimestampText
import JobRunner.Proofs.WireForms
import JobRunner.Rehearsal.Script
import JobRunner.Rehearsal.Unit
import JobRunner.Rehearsal.Untimed
