import EdgeSphere.Library.Runs
import EdgeSphere.Library.Expiry
import EdgeSphere.Library.SortedSet
import EdgeSphere.Gateway.RateLimit
import EdgeSphere.Gateway.TokenBucket
import EdgeSphere.Gateway.SlidingWindow
import EdgeSphere.Gateway.WindowQuota
import EdgeSphere.Auth.ApiKeys
import EdgeSphere.Auth.Sessions
import EdgeSphere.Auth.SessionLog
import EdgeSphere.Auth.SessionRuns
import EdgeSphere.Auth.RefreshRace
import EdgeSphere.Library.ParseInt
import EdgeSphere.Storage.Entities
import EdgeSphere.Storage.Commands
import EdgeSphere.Storage.Multipart
import EdgeSphere.Storage.Services
import EdgeSphere.Storage.Requests
import EdgeSphere.Library.Stringify
import EdgeSphere.Storage.Versions
import EdgeSphere.Storage.Downloads
import EdgeSphere.Analytics.Summary
import EdgeSphere.Notification.Alerts
import EdgeSphere.Gateway.AuthMiddleware
import EdgeSphere.Gateway.Forwarding
import EdgeSphere.Gateway.Routes
import EdgeSphere.Library.NumberText
import EdgeSphere.Gateway.PlatformConfig
import EdgeSphere.Library.Glob
import EdgeSphere.Cdn.CacheKey
import EdgeSphere.Cdn.Serve
import EdgeSphere.Cdn.Staleness
import EdgeSphere.Cdn.Freshness
import EdgeSphere.Cdn.Provenance
import EdgeSphere.Cdn.Purge
import EdgeSphere.Cdn.Invalidation
import EdgeSphere.Cdn.StorageEvents
import EdgeSphere.Analytics.Consumer
import EdgeSphere.Gateway.DlqService
import EdgeSphere.Library.Labelled
import EdgeSphere.Gateway.DeadLetters
import EdgeSphere.Auth.Isolation
import EdgeSphere.Auth.LogoutRace
import EdgeSphere.Dashboard.Api
import EdgeSphere.Dashboard.ExpiredToken
import EdgeSphere.Storage.MultipartFiles
import EdgeSphere.Storage.SharedKey
import EdgeSphere.Storage.DownloadAccess
import EdgeSphere.Gateway.DeniedCalls
import EdgeSphere.Library.Keyed
import EdgeSphere.Notification.Rules
import EdgeSphere.Auth.OAuth
import EdgeSphere.Notification.Debounce
import EdgeSphere.Gateway.CdnRoute
import EdgeSphere.Gateway.CircuitBreaker
import EdgeSphere.Gateway.ConfiguredLimit
import EdgeSphere.Gateway.PipelineRaces
import EdgeSphere.Storage.SessionRaces
import EdgeSphere.Storage.BucketRaces
import EdgeSphere.Analytics.Backlog
import EdgeSphere.Analytics.BatchFate
import EdgeSphere.Edge.DiskPath
import EdgeSphere.Edge.Collisions
import EdgeSphere.Edge.Replies
import EdgeSphere.Edge.PurgeHandler
import EdgeSphere.Library.Faults
import EdgeSphere.Storage.CompletionRetry
import EdgeSphere.Storage.FailedUpload
import EdgeSphere.Auth.RefreshOutage
import EdgeSphere.Library.JsonParse
import EdgeSphere.Notification.Dispatch
import EdgeSphere.Notification.KafkaConsumer
import EdgeSphere.Notification.Thresholds
import EdgeSphere.Notification.Paging
import EdgeSphere.Gateway.CdnCache
import EdgeSphere.Gateway.ServiceNames
import EdgeSphere.Analytics.SearchEvents
import EdgeSphere.Cdn.OriginRequest
import EdgeSphere.Gateway.LimitHints
import EdgeSphere.Library.Retries
import EdgeSphere.Storage.BucketRetry
import EdgeSphere.Library.NumberReading
import EdgeSphere.SharedPackage.CdnKey
import EdgeSphere.SharedPackage.PurgePattern
import EdgeSphere.Storage.PartRanges
import EdgeSphere.Edge.DiskFiles
import EdgeSphere.Library.History
import EdgeSphere.Library.Rooms
import EdgeSphere.Library.Addition
import EdgeSphere.Realtime.EventsGateway
import EdgeSphere.Realtime.Metrics
import EdgeSphere.Library.Newest
import EdgeSphere.Dashboard.RealtimeHooks
import EdgeSphere.Dashboard.Reconnection
import EdgeSphere.Cdn.PurgeHistory
import EdgeSphere.Gateway.BucketRaces
import EdgeSphere.Gateway.RequestLog
import EdgeSphere.Analytics.EventPipeline
import EdgeSphere.Library.GroupBy
import EdgeSphere.Library.Interpolation
import EdgeSphere.Analytics.Charts
import EdgeSphere.Auth.KeyLifecycle
import EdgeSphere.Library.PagedReading
import EdgeSphere.Storage.Listings
import EdgeSphere.Library.LiveArray
import EdgeSphere.Notification.RuleEdits
