import Peerscale.Dlog.DDLogger
import Peerscale.Fbvirtun.Answers
import Peerscale.Fbvirtun.Bridges
import Peerscale.Fbvirtun.Flows
import Peerscale.Fbvirtun.Refusals
import Peerscale.Fbvirtun.UdpReturns
import Peerscale.IpTunnel.Openings
import Peerscale.IpTunnel.Registry
import Peerscale.IpTunnel.Replacement
import Peerscale.IpTunnel.Writing
import Peerscale.IrohRelay.Acceptance
import Peerscale.IrohRelay.Delivery
import Peerscale.IrohRelay.Handshake
import Peerscale.IrohRelay.LifeCycle
import Peerscale.IrohRelay.Reachability
import Peerscale.IrohRelay.StreamLife
import Peerscale.P2put.AddrManager
import Peerscale.P2put.ClientChannels
import Peerscale.P2put.Convergence
import Peerscale.P2put.Dedup
import Peerscale.P2put.Duplicates
import Peerscale.P2put.Forgetting
import Peerscale.P2put.Forwards
import Peerscale.P2put.KeyValue
import Peerscale.P2put.MultiDns
import Peerscale.P2put.Offline
import Peerscale.P2put.Peerstore
import Peerscale.P2put.Permissions
import Peerscale.P2put.Pinning
import Peerscale.P2put.StablePeers
import Peerscale.P2put.StartUp
import Peerscale.P2put.TopicFilter
import Peerscale.P2put.TurnPool
import Peerscale.Pbtunnel.Copying
import Peerscale.Pbtunnel.Delivery
import Peerscale.Pbtunnel.HttpClient
import Peerscale.Pbtunnel.Ordered
import Peerscale.Pbtunnel.Targets
import Peerscale.Pbtunnel.UdpConn
import Peerscale.Pbtunnel.UdpDelivery
import Peerscale.Pbtunnel.UdpFrames
import Peerscale.RelayFile.Announced
import Peerscale.RelayFile.AnyOrder
import Peerscale.RelayFile.Containment
import Peerscale.RelayFile.Finality
import Peerscale.RelayFile.Framing
import Peerscale.RelayFile.GivingUp
import Peerscale.RelayFile.Isolation
import Peerscale.RelayFile.Labels
import Peerscale.RelayFile.Leftovers
import Peerscale.RelayFile.Reasons
import Peerscale.RelayFile.Transfer
import Peerscale.RelayPool.Addresses
import Peerscale.RelayPool.Breaker
import Peerscale.RelayPool.Policy
import Peerscale.RelayPool.Quota
import Peerscale.Softun.Datagrams
import Peerscale.Softun.Resets
import Peerscale.VirtualAddress.Stability
