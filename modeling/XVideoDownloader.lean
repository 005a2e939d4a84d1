import XVideoDownloader.Lib.Table
import XVideoDownloader.Lib.Prog
import XVideoDownloader.Lib.Pool
import XVideoDownloader.Lib.Slices
import XVideoDownloader.Lib.Utf8
import XVideoDownloader.Lib.HttpHead
import XVideoDownloader.Lib.Circle
import XVideoDownloader.Lib.Window
import XVideoDownloader.Lib.StateFile
import XVideoDownloader.Lib.Broadcast
import XVideoDownloader.Lib.BigEndian
import XVideoDownloader.Lib.Serde
import XVideoDownloader.Lib.Disk
import XVideoDownloader.Lib.StableSort
import XVideoDownloader.Lib.FirstOf
import XVideoDownloader.Lib.Argv
import XVideoDownloader.Lib.UnixPath
import XVideoDownloader.Lib.Tiling
import XVideoDownloader.Lib.Rfc3339
import XVideoDownloader.Lib.JsonText
import XVideoDownloader.Lib.Json
import XVideoDownloader.Types
import XVideoDownloader.Text
import XVideoDownloader.Auth
import XVideoDownloader.HashRing
import XVideoDownloader.Database
import XVideoDownloader.Server
import XVideoDownloader.Handler
import XVideoDownloader.Calls
import XVideoDownloader.Tasks
import XVideoDownloader.Consistent
import XVideoDownloader.Exclusion
import XVideoDownloader.Completion
import XVideoDownloader.Version
import XVideoDownloader.Isolation
import XVideoDownloader.Identity
import XVideoDownloader.Sweep
import XVideoDownloader.Lifecycle
import XVideoDownloader.Timeout
import XVideoDownloader.NonInterference
import XVideoDownloader.Assignment
import XVideoDownloader.Messages
import XVideoDownloader.Conduct
import XVideoDownloader.Announce
import XVideoDownloader.Mirror
import XVideoDownloader.Leaving
import XVideoDownloader.Registry
import XVideoDownloader.OneSession
import XVideoDownloader.Progress
import XVideoDownloader.RequestFile
import XVideoDownloader.ClientChannel
import XVideoDownloader.Ring
import XVideoDownloader.Storage
import XVideoDownloader.LocalQueue
import XVideoDownloader.History
import XVideoDownloader.Transfer
import XVideoDownloader.PeerDownload
import XVideoDownloader.VideoDownload
import XVideoDownloader.FileServer
import XVideoDownloader.RateLimit
import XVideoDownloader.ServeFile
import XVideoDownloader.Route
import XVideoDownloader.RangeReply
import XVideoDownloader.Origins
import XVideoDownloader.Stun
import XVideoDownloader.AuthMessage
import XVideoDownloader.TaskJson
import XVideoDownloader.Reload
import XVideoDownloader.HistoryCrash
import XVideoDownloader.Resume
import XVideoDownloader.YtDlp
import XVideoDownloader.Cli
import XVideoDownloader.Gui
import XVideoDownloader.Quality
import XVideoDownloader.Shown
import XVideoDownloader.Merge
import XVideoDownloader.Reclaim
import XVideoDownloader.Freshness
import XVideoDownloader.StunTotal
import XVideoDownloader.ReadLoop
import XVideoDownloader.RangeHeader
import XVideoDownloader.Retry
import XVideoDownloader.Options
import XVideoDownloader.Received
import XVideoDownloader.FileName
import XVideoDownloader.SignedText
import XVideoDownloader.ChunkRanges
import XVideoDownloader.Offline
import XVideoDownloader.ServerLocks
import XVideoDownloader.Wire
import XVideoDownloader.InOrder
import XVideoDownloader.ReadBack
import XVideoDownloader.Lib.LastWrite
import XVideoDownloader.FileService
import XVideoDownloader.LetIn
import XVideoDownloader.Stalled
import XVideoDownloader.Restarts
import XVideoDownloader.Batch
import XVideoDownloader.Lib.JsonPrefix
import XVideoDownloader.Settings
import XVideoDownloader.Window
