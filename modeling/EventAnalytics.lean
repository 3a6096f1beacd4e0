import EventAnalytics.Library.Program
import EventAnalytics.Library.Interleaving
import EventAnalytics.Library.RelyGuarantee
import EventAnalytics.Library.Auxiliary
import EventAnalytics.Library.Footprint
import EventAnalytics.Library.Sequential
import EventAnalytics.Library.Atomic
import EventAnalytics.Library.SlidingLog
import EventAnalytics.Library.Distinct
import EventAnalytics.Library.FirstWins
import EventAnalytics.Library.Decimal
import EventAnalytics.Library.Deadlock
import EventAnalytics.Library.Faults
import EventAnalytics.Library.Lookup
import EventAnalytics.Library.IdentityMap
import EventAnalytics.Library.Pages
import EventAnalytics.Library.Replace
import EventAnalytics.Redis.SortedSet
import EventAnalytics.Redis.Stream
import EventAnalytics.Text
import EventAnalytics.Python
import EventAnalytics.Settings
import EventAnalytics.Schemas
import EventAnalytics.Calendar
import EventAnalytics.Backend
import EventAnalytics.Frame
import EventAnalytics.IdemKeys
import EventAnalytics.Db.Session
import EventAnalytics.Db.Accounts
import EventAnalytics.Db.Registry
import EventAnalytics.Db.Warehouse
import EventAnalytics.Db.Reports
import EventAnalytics.Mq.Streams
import EventAnalytics.Core.SlidingWindow
import EventAnalytics.Core.RateLimit
import EventAnalytics.Core.Quota
import EventAnalytics.Core.RetryHint
import EventAnalytics.Core.Charges
import EventAnalytics.Core.Middleware
import EventAnalytics.Services.EventService
import EventAnalytics.Services.UserService
import EventAnalytics.Services.AuthService
import EventAnalytics.Services.MetricsService
import EventAnalytics.Services.Summary
import EventAnalytics.Workers.Tasks
import EventAnalytics.Workers.MetricJobs
import EventAnalytics.Workers.Custody
import EventAnalytics.Workers.Pass
import EventAnalytics.Workers.NoLoss
import EventAnalytics.Workers.Poison
import EventAnalytics.Workers.ClosedPeriods
import EventAnalytics.Workers.Message
import EventAnalytics.Workers.Reclaim
import EventAnalytics.Workers.Payload
import EventAnalytics.Services.Phantom
import EventAnalytics.Services.Replay
import EventAnalytics.Services.UserSession
import EventAnalytics.Services.AdminUpdate
import EventAnalytics.Services.Registration
import EventAnalytics.Services.UserPages
import EventAnalytics.Api.Events
import EventAnalytics.Api.Trace
import EventAnalytics.Api.Winner
import EventAnalytics.Api.EventQuota
import EventAnalytics.Api.Admin
import EventAnalytics.Api.Labels
import EventAnalytics.Workers.Batch
import EventAnalytics.Workers.Content
import EventAnalytics.Workers.Redelivery
import EventAnalytics.Workers.CacheAtRest
import EventAnalytics.Workers.LockOrder
import EventAnalytics.Workers.Sources
import EventAnalytics.Workers.Visitors
import EventAnalytics.Workers.Modes
import EventAnalytics.Workers.PartialSummary
import EventAnalytics.Workers.Cohorts
import EventAnalytics.Workers.Agreement
import EventAnalytics.Workers.BindLimit
import EventAnalytics.Library.Between
import EventAnalytics.Services.Sessions
import EventAnalytics.Api.Authority
import EventAnalytics.Api.Versions
import EventAnalytics.Core.Security
import EventAnalytics.Api.Auth
import EventAnalytics.Api.EventReads
import EventAnalytics.Library.Relays
import EventAnalytics.Api.Footprint
import EventAnalytics.Api.Provenance
import EventAnalytics.Library.Refinement
import EventAnalytics.Redis.Trimming
import EventAnalytics.Api.Bounded
import EventAnalytics.Workers.Backlog
import EventAnalytics.Api.OneByOne
import EventAnalytics.Library.Growing
import EventAnalytics.Workers.Changes
import EventAnalytics.Workers.Figures
import EventAnalytics.Library.Progress
import EventAnalytics.Api.Unblocked
import EventAnalytics.Library.Stuttering
import EventAnalytics.Api.Deployment
