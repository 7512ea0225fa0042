import NatProxy.WebRTC.ReliableAck
import NatProxy.WebRTC.PaddedRoundTrip
import NatProxy.WebRTC.RelayChain
import NatProxy.Client.Cleanup
import NatProxy.Client.FastReconnect
import NatProxy.WebRTC.ClientGroup
import NatProxy.Signaling.AnswerSlot
import NatProxy.Tunnel.DNSDispatch
import NatProxy.WebRTC.ObfuscatedConn
import NatProxy.Server.FreshGroup
import NatProxy.Signaling.SeesLatest
import NatProxy.Signaling.HubChannels
import NatProxy.Signaling.RelayExpiry
import NatProxy.Client.HealthMonitor
import NatProxy.Server.Discovery
import NatProxy.NatTraversal.UPnPRenewal
import NatProxy.NatTraversal.NATDetection
import NatProxy.NatTraversal.TwoServers
import NatProxy.Tunnel.DNSRelay
import NatProxy.Xray.VLESSLink
import NatProxy.Signaling.Supabase
import NatProxy.App.DiscoveryStream
import NatProxy.WebRTC.ReliableGiveUp
import NatProxy.WebRTC.ReliableRelease
import NatProxy.WebRTC.PaddedRead
import NatProxy.WebRTC.GroupDial
import NatProxy.Tunnel.DNSPool
import NatProxy.WebRTC.SessionStop
import NatProxy.Tunnel.DNSParserSafety
import NatProxy.Tunnel.DNSLifetime
import NatProxy.WebRTC.Socks5
import NatProxy.WebRTC.ChannelCounts
import NatProxy.App.NamePassword
import NatProxy.App.LogPolling
import NatProxy.WebRTC.Activity
import NatProxy.WebRTC.Backpressure
import NatProxy.WebRTC.Throttle
import NatProxy.WebRTC.STUNDiscovery
import NatProxy.Lib.Regexp
import NatProxy.App.MaskIPs
import NatProxy.WebRTC.STUNSetting
import NatProxy.Lib.CRLFLines
import NatProxy.Lib.Swaps
import NatProxy.Signaling.SortListings
import NatProxy.WebRTC.MediaCodec
import NatProxy.Signaling.CompressSDP
import NatProxy.WebRTC.DCStream
import NatProxy.WebRTC.DTLSHello
import NatProxy.App.EnvConfig
import NatProxy.WebRTC.ICEFilter
import NatProxy.Signaling.SealedPayload
import NatProxy.Tunnel.DNSForward
