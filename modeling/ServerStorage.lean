import ServerStorage.Hugin.Gateway
import ServerStorage.Hugin.WriterDiscipline
import ServerStorage.Hugin.WireSpec
import ServerStorage.Hugin.FrameCodecs
import ServerStorage.Hugin.DeltaEdits
import ServerStorage.Muninn.Isolation
import ServerStorage.Muninn.WellFormed
import ServerStorage.Hugin.Agreement
import ServerStorage.Hugin.IngestSpec
import ServerStorage.Hugin.Ingest
import ServerStorage.Hugin.MessageValidator
import ServerStorage.Muninn.Allocation
import ServerStorage.Muninn.Archive
import ServerStorage.Muninn.CaptureSpec
import ServerStorage.Muninn.Captures
import ServerStorage.Muninn.AckBound
import ServerStorage.Muninn.SessionSpec
import ServerStorage.Muninn.Session
import ServerStorage.Lib.Json
import ServerStorage.Muninn.LmdbStore
import ServerStorage.Muninn.Serialization
import ServerStorage.Lib.Lmdb
import ServerStorage.Hugin.Reconstruct
import ServerStorage.Muninn.Builder
import ServerStorage.Hugin.Replay
import ServerStorage.Muninn.DeltaSpec
import ServerStorage.Hugin.SinkLoops
import ServerStorage.Lib.Index
import ServerStorage.Muninn.Validation
import ServerStorage.Muninn.Delivery
import ServerStorage.Muninn.Records
import ServerStorage.Muninn.Answers
import ServerStorage.Muninn.Authentication
import ServerStorage.Hugin.CaptureReplay
import ServerStorage.Hugin.Inbound
import ServerStorage.Muninn.DeltaValid
import ServerStorage.Muninn.CommandSpec
import ServerStorage.Muninn.Wildcard
import ServerStorage.Shared.Base64
import ServerStorage.Muninn.CodecExact
import ServerStorage.Muninn.JsonSpec
import ServerStorage.Muninn.Migration
import ServerStorage.Muninn.BuilderSpec
import ServerStorage.Muninn.SnapshotKey
import ServerStorage.Muninn.StableIds
import ServerStorage.Lib.Workers
import ServerStorage.Hugin.Uploads
import ServerStorage.Hugin.UploadLimits
import ServerStorage.Lib.Normal
import ServerStorage.Muninn.Unchanged
import ServerStorage.Muninn.Scanner
import ServerStorage.Muninn.ScannerSpec
import ServerStorage.Muninn.ScanSkips
import ServerStorage.Muninn.ScanTree
import ServerStorage.Lib.Search
import ServerStorage.Hugin.Target
import ServerStorage.Hugin.RoutingKey
import ServerStorage.Hugin.ReconnectDelay
import ServerStorage.Hugin.PendingBytes
import ServerStorage.Hugin.LmdbIngestStore
import ServerStorage.Hugin.IngestStores
import ServerStorage.Lib.Runs
import ServerStorage.Hugin.CommandLoadBalancer
import ServerStorage.Lib.Handlers
import ServerStorage.Hugin.PullLoop
import ServerStorage.Hugin.ReconnectCount
import ServerStorage.Hugin.ListChildren
import ServerStorage.Lib.FileSystem
import ServerStorage.Hugin.Download
import ServerStorage.Lib.Feed
import ServerStorage.Muninn.Feeding
import ServerStorage.Hugin.AckPath
import ServerStorage.Hugin.Link
import ServerStorage.Muninn.ScanValid
import ServerStorage.Lib.FileWrites
import ServerStorage.Lib.StdFilesystem
import ServerStorage.Lib.Confinement
import ServerStorage.Hugin.UploadFiles
import ServerStorage.Hugin.Realtime
import ServerStorage.Hugin.LinkView
import ServerStorage.Muninn.Watch
import ServerStorage.Hugin.Access
import ServerStorage.Hugin.WatchedTree
