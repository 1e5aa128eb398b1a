import SynGateway.Core.Admission.Defs
import SynGateway.Common.Counting
import SynGateway.Common.Grouping
import SynGateway.Common.Markup
import SynGateway.Common.UnitOfWork
import SynGateway.Core.Admission.Steps
import SynGateway.Core.Admission.Slots
import SynGateway.Core.Admission.Queues
import SynGateway.Core.Admission.Cleanup
import SynGateway.Core.Admission.WorkConservation
import SynGateway.Core.Admission.Handover
import SynGateway.Core.Admission.WaitingRoom
import SynGateway.Core.Admission.Fifo
import SynGateway.Core.Admission.Deadline
import SynGateway.Common.Utf8.Decode
import SynGateway.Common.Utf8.Pieces
import SynGateway.Common.Utf8.Cuts
import SynGateway.Core.Sse.Defs
import SynGateway.Common.EventStream
import SynGateway.Core.Sse.Refinement
import SynGateway.Core.Sse.Chunking
import SynGateway.Core.Sse.LineEndings
import SynGateway.Api.Chat.Encoding
import SynGateway.Core.Errors
import SynGateway.Python.Exec
import SynGateway.Python.Triples
import SynGateway.Python.TwoRuns
import SynGateway.Services.Usage
import SynGateway.Api.Chat.Defs
import SynGateway.Api.Chat.Streaming
import SynGateway.Api.Chat.Accounting
import SynGateway.Api.Chat.SlotLifetime
import SynGateway.Api.Chat.Trace
import SynGateway.Core.RateLimit
import SynGateway.Core.RetryAfter
import SynGateway.Core.Policy
import SynGateway.Services.Precheck
import SynGateway.Services.RequestQuota
import SynGateway.Services.Observability
import SynGateway.Common.Ledger
import SynGateway.Services.Concurrency
import SynGateway.Routing.Config
import SynGateway.Backends.Base
import SynGateway.Core.Principal
import SynGateway.Routing.Registries
import SynGateway.Routing.Router
import SynGateway.Routing.Build
import SynGateway.Routing.Renaming
import SynGateway.Core.ApiKeys
import SynGateway.Core.Auth
import SynGateway.Services.Admin
import SynGateway.Services.AdminSession
import SynGateway.Services.KeyLifecycle
import SynGateway.Python.JsonLoads
import SynGateway.Python.JsonRoundTrip
import SynGateway.Python.Interpreter
import SynGateway.Backends.LlamaCpp.Defs
import SynGateway.Backends.LlamaCpp.Containment
import SynGateway.Backends.LlamaCpp.Incremental
import SynGateway.Backends.LlamaCpp.ModelField
import SynGateway.Core.Sse.DataEvents
import SynGateway.Core.Sse.RoundTrip
import SynGateway.Python.JsonText
import SynGateway.Api.Chat.ChunkViews
import SynGateway.Api.Chat.Relay
import SynGateway.Api.Chat.Endpoint
import SynGateway.Api.Chat.Charge
import SynGateway.Api.Chat.NativeNames
import SynGateway.Api.Chat.Delivery
import SynGateway.Api.Chat.TokenUsage
import SynGateway.Api.Admin.Metrics
import SynGateway.Api.Admin.Dashboard
import SynGateway.Services.AdminAtomicity
import SynGateway.Common.Interpolation
import SynGateway.Services.Latency
import SynGateway.Services.RecentRequests
import SynGateway.Core.AdminAuth
import SynGateway.Services.KeyRotation
import SynGateway.Services.KeyExpiry
import SynGateway.Services.AdminErrors
import SynGateway.Routing.ConfigErrors
import SynGateway.Api.Chat.ChunkRoundTrip
import SynGateway.Db.Session
import SynGateway.Services.UsageFilters
import SynGateway.Python.Float
import SynGateway.Api.Admin.MetricsText
import SynGateway.Common.Exposition
import SynGateway.Routing.BackendHealth
import SynGateway.Api.Admin.RuntimeModels
import SynGateway.Lifespan
import SynGateway.Common.Views
import SynGateway.Services.QuotaIsolation
import SynGateway.Common.Termination
import SynGateway.Core.Admission.Progress
import SynGateway.Backends.LlamaCpp.Health
import SynGateway.Api.Health
import SynGateway.Api.Admin.ClientPolicy
import SynGateway.Gateway
import SynGateway.Api.Admin.RoutingPreview
import SynGateway.Api.Admin.Management
import SynGateway.Api.Admin.Listings
import SynGateway.Api.Admin.Secrets
import SynGateway.Metering
