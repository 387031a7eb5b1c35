import MusicbrainzIngestion.ContentHash
import MusicbrainzIngestion.ReleaseMedia
import MusicbrainzIngestion.MediaConservation
import MusicbrainzIngestion.ArtistLinks
import MusicbrainzIngestion.AnnouncedStart
import MusicbrainzIngestion.CountsAgree
import MusicbrainzIngestion.StaleBytes
import MusicbrainzIngestion.DownloadTrust
import MusicbrainzIngestion.TriggerHandoff
import MusicbrainzIngestion.LoopStatus
import MusicbrainzIngestion.DownloadCounts
import MusicbrainzIngestion.ChecksumProvenance
import MusicbrainzIngestion.PhaseTotals
import MusicbrainzIngestion.FaultIsolation
import MusicbrainzIngestion.Whitelist
import MusicbrainzIngestion.WireFormat
import MusicbrainzIngestion.MarkerDurability
import MusicbrainzIngestion.LineTolerance
import MusicbrainzIngestion.EntityRelations
import MusicbrainzIngestion.DownloadRetry
import MusicbrainzIngestion.MediaConsistency
import MusicbrainzIngestion.IdentifierBlock
import MusicbrainzIngestion.IdentifierValues
import MusicbrainzIngestion.Batching
import MusicbrainzIngestion.VersionIndex
import MusicbrainzIngestion.DumpDiscovery
import MusicbrainzIngestion.PoliteHttp
import MusicbrainzIngestion.Config
import MusicbrainzIngestion.ResponseDigest
import MusicbrainzIngestion.Service.Liveness
import MusicbrainzIngestion.Service.Stream
import MusicbrainzIngestion.EventContract
import MusicbrainzIngestion.Base.Watch
import MusicbrainzIngestion.Health
import MusicbrainzIngestion.HealthReport
import MusicbrainzIngestion.SingleConnection
import MusicbrainzIngestion.Reconnect.Liveness
import MusicbrainzIngestion.PoliteGap
import MusicbrainzIngestion.Downloader.Liveness
import MusicbrainzIngestion.RunLoop.Liveness
import MusicbrainzIngestion.DumpOrigin
import MusicbrainzIngestion.ChecksumList
import MusicbrainzIngestion.AmqpUrl
import MusicbrainzIngestion.Logging
