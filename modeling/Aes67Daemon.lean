import Aes67Daemon.Driver.Threads
import Aes67Daemon.Driver.Timeouts
import Aes67Daemon.Session.Announce
import Aes67Daemon.Session.Handles
import Aes67Daemon.Session.Membership
import Aes67Daemon.Session.Names
import Aes67Daemon.Session.RoundTrip
import Aes67Daemon.Session.SinkUpdate
import Aes67Daemon.Session.Version
import Aes67Daemon.Session.Wire
import Aes67Daemon.Session.Allocation
import Aes67Daemon.Nmos.Readers
import Aes67Daemon.Session.Events
import Aes67Daemon.Session.Outline
import Aes67Daemon.Browser.Expiry
import Aes67Daemon.Browser.Handover
import Aes67Daemon.Browser.Services
import Aes67Daemon.Rtsp.Framing
import Aes67Daemon.Rtsp.Subscribers
import Aes67Daemon.Nmos.Deadline
import Aes67Daemon.Nmos.Integrity
import Aes67Daemon.Nmos.Registry
import Aes67Daemon.Nmos.Reregistration
import Aes67Daemon.Nmos.Subscription
import Aes67Daemon.Nmos.Scheduled
import Aes67Daemon.Nmos.OutputLocks
import Aes67Daemon.Nmos.Introspection
import Aes67Daemon.Nmos.Notifications
import Aes67Daemon.Config.Restart
import Aes67Daemon.Config.Persist
import Aes67Daemon.Config.Ranges
import Aes67Daemon.Session.DestinationMac
import Aes67Daemon.Session.ForeignMedia
import Aes67Daemon.Nmos.Discovery
import Aes67Daemon.Ptp.Snapshot
import Aes67Daemon.Ptp.Discipline
import Aes67Daemon.Streamer.Live
import Aes67Daemon.Streamer.Files
import Aes67Daemon.Mdns.Advertise
import Aes67Daemon.Mdns.Browse
import Aes67Daemon.Net.UrlForm
import Aes67Daemon.Rtsp.Buffer
import Aes67Daemon.Rtsp.ByName
import Aes67Daemon.Session.StreamList
import Aes67Daemon.Http.StreamIds
import Aes67Daemon.Session.SdpNumbers
import Aes67Daemon.Session.SdpSections
import Aes67Daemon.Session.SdpOrder
import Aes67Daemon.Session.FreeText
import Aes67Daemon.Session.SourceSettings
import Aes67Daemon.Session.SapWire
import Aes67Daemon.Config.Commands
import Aes67Daemon.Net.Arp
import Aes67Daemon.Nmos.MapTimes
import Aes67Daemon.Rtsp.Updates
import Aes67Daemon.Nmos.Advertised
import Aes67Daemon.Session.Settled
import Aes67Daemon.Nmos.ActivationFrame
import Aes67Daemon.Lib.JsonValue
import Aes67Daemon.Nmos.StagedPatch
import Aes67Daemon.Nmos.StagedText
import Aes67Daemon.Nmos.ShownState
import Aes67Daemon.Am824.Framer
import Aes67Daemon.Ptp.ServoRun
import Aes67Daemon.Streamer.Samples
import Aes67Daemon.Streamer.Encoding
import Aes67Daemon.Nmos.QuerySubscriptions
import Aes67Daemon.Nmos.AutoReset
import Aes67Daemon.Nmos.AnswerText
import Aes67Daemon.Nmos.Robust
import Aes67Daemon.Nmos.QueryText
import Aes67Daemon.Nmos.QueryLists
import Aes67Daemon.Nmos.RemoteSender
import Aes67Daemon.Lib.JsonWriter
import Aes67Daemon.Nmos.Untimed
import Aes67Daemon.Nmos.BulkPatch
import Aes67Daemon.Am824.Parity
import Aes67Daemon.Am824.Convert
import Aes67Daemon.Am824.ChannelStatus
import Aes67Daemon.Nmos.TransitionCounters
import Aes67Daemon.Session.Crc16
import Aes67Daemon.Session.Reload
import Aes67Daemon.Nmos.Routes
import Aes67Daemon.Session.Farewell
import Aes67Daemon.Rtsp.Server
import Aes67Daemon.Session.Schedule
import Aes67Daemon.Streamer.Reading
