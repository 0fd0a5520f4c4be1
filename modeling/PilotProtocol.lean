import PilotProtocol.Envelope.ReplayWindow
import PilotProtocol.Tunnel.Replay
import PilotProtocol.Tunnel.Exchange
import PilotProtocol.Envelope.Nonces
import PilotProtocol.AppStore.CapState
import PilotProtocol.Identity.Rotation
import PilotProtocol.Stream.Keepalive
import PilotProtocol.Tunnel.RelayOnly
import PilotProtocol.AppStore.SideloadRuns
import PilotProtocol.Stream.Reception
import PilotProtocol.Stream.Lifecycle
import PilotProtocol.Stream.ConnectionIDs
import PilotProtocol.Stream.FourTuples
import PilotProtocol.IPC.Ownership
import PilotProtocol.Messages.ReplyTaken
import PilotProtocol.Stream.Selective
import PilotProtocol.Stream.Blocks
import PilotProtocol.Stream.Retry
import PilotProtocol.Stream.SendWindow
import PilotProtocol.Tunnel.RateLimits
import PilotProtocol.Stream.DialFlips
import PilotProtocol.Trust.Pokes
import PilotProtocol.Trust.Waiting
import PilotProtocol.Routing.DirectClears
import PilotProtocol.Routing.Accounting
import PilotProtocol.Routing.Silence
import PilotProtocol.Tunnel.Queues
import PilotProtocol.Tunnel.Isolation
import PilotProtocol.IPC.Tokens
import PilotProtocol.IPC.Quota
import PilotProtocol.IPC.InfoReply
import PilotProtocol.Managed.Links
import PilotProtocol.Network.Sync
import PilotProtocol.Watchdog.PathWatch
import PilotProtocol.Watchdog.DialWedge
import PilotProtocol.Catalogue.PinCache
import PilotProtocol.Transport.WSS
import PilotProtocol.Logcap.Rotation
import PilotProtocol.AppStore.Untar
