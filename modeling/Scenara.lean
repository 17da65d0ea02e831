import Scenara.Access.Contained
import Scenara.Access.Resolved
import Scenara.Assets.Marked
import Scenara.Assets.Sweep
import Scenara.Assets.Upload
import Scenara.Behavior.Batching
import Scenara.Catalog.Agreement
import Scenara.ControlPlane.Counted
import Scenara.ControlPlane.Gates
import Scenara.ControlPlane.Memory
import Scenara.ControlPlane.Metered
import Scenara.ControlPlane.Once
import Scenara.ControlPlane.Seats
import Scenara.Creation.Idempotent
import Scenara.DataService.Intake
import Scenara.DataService.Paging
import Scenara.DataService.Preserved
import Scenara.Dataset.Kept
import Scenara.Detection.Suppression
import Scenara.Enterprise.Quotas
import Scenara.Execution.Republished
import Scenara.Execution.Whole
import Scenara.Features.Exact
import Scenara.Features.Qdrant
import Scenara.Feedback.Cleared
import Scenara.Index.Mirrored
import Scenara.Inference.Transparent
import Scenara.Media.Progressive
import Scenara.Media.Sampled
import Scenara.ObjectStore.Immutable
import Scenara.Ocr.Hits
import Scenara.Ocr.Tracked
import Scenara.Pipeline.Execute
import Scenara.Portrait.Erased
import Scenara.Queue.Leased
import Scenara.Release.Rollback
import Scenara.Release.Stores
import Scenara.Retention.Readable
import Scenara.Run.Delivered
import Scenara.Runtime.Concurrency
import Scenara.Runtime.Loading
import Scenara.Runtime.Released
import Scenara.Search.Best
import Scenara.Session.Final
import Scenara.Surveillance.Agreed
import Scenara.Surveillance.Cooldown
import Scenara.Surveillance.Debounced
import Scenara.Surveillance.LiveStream
import Scenara.Surveillance.Matched
import Scenara.Surveillance.OnTime
import Scenara.Surveillance.Preserved
import Scenara.Surveillance.Restart
import Scenara.Surveillance.Tracked
import Scenara.Tracking.Exact
import Scenara.Tracking.Labels
import Scenara.Trajectory.Aggregates
import Scenara.Trajectory.Bounded
import Scenara.Trajectory.Exclusive
import Scenara.Trajectory.Timeline
import Scenara.Webhook.Batch
import Scenara.Webhook.Complete
import Scenara.ObjectStore.Multipart
