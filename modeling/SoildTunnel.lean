import SoildTunnel.App.Theorems.AppFilter
import SoildTunnel.App.Theorems.DnsAnswers
import SoildTunnel.App.Theorems.DnsFilter
import SoildTunnel.App.Theorems.ProfileCodec
import SoildTunnel.App.Theorems.SelfTest
import SoildTunnel.App.Theorems.ShareBridge
import SoildTunnel.App.Theorems.ShareHttp
import SoildTunnel.App.Theorems.TorManager
import SoildTunnel.App.Theorems.TunConfig
import SoildTunnel.App.Theorems.TunDownload
import SoildTunnel.App.Theorems.TunFarewell
import SoildTunnel.App.Theorems.TunPacket
import SoildTunnel.App.Theorems.TunReader
import SoildTunnel.App.Theorems.TunSession
import SoildTunnel.App.Theorems.TunSniff
import SoildTunnel.App.Theorems.TunUpload
import SoildTunnel.App.Theorems.UsageStore
import SoildTunnel.App.Theorems.VpnService
import SoildTunnel.App.Theorems.Watchdog
import SoildTunnel.Engine.Netstack.Theorems.Answers
import SoildTunnel.Engine.Netstack.Theorems.Download
import SoildTunnel.Engine.Netstack.Theorems.Ports
import SoildTunnel.Engine.Netstack.Theorems.Upload
import SoildTunnel.Engine.Outbound.Theorems.Fragments
import SoildTunnel.Engine.Outbound.Theorems.Inbound
import SoildTunnel.Engine.Socks.Theorems.Answer
import SoildTunnel.Engine.Socks.Theorems.Associate
import SoildTunnel.Engine.Socks.Theorems.Direct
import SoildTunnel.Engine.Socks.Theorems.Gateway
import SoildTunnel.Engine.Socks.Theorems.Preamble
import SoildTunnel.Engine.Socks.Theorems.Reply
import SoildTunnel.Engine.Socks.Theorems.Segments
import SoildTunnel.Engine.Socks.Theorems.Uri
import SoildTunnel.Engine.Theorems.Account
import SoildTunnel.Engine.Theorems.Capsules
import SoildTunnel.Engine.Theorems.Chunked
import SoildTunnel.Engine.Theorems.Cooldown
import SoildTunnel.Engine.Theorems.Creds
import SoildTunnel.Engine.Theorems.DnsName
import SoildTunnel.Engine.Theorems.Enrolled
import SoildTunnel.Engine.Theorems.Hunt
import SoildTunnel.Engine.Theorems.LastConn
import SoildTunnel.Engine.Theorems.Reconnect
import SoildTunnel.Engine.Theorems.Routes
import SoildTunnel.Engine.Theorems.Saves
import SoildTunnel.Engine.Theorems.SignIn
import SoildTunnel.Engine.Theorems.Tunnel
import SoildTunnel.Engine.Theorems.WireGuard
import SoildTunnel.Engine.Upstream.Theorems.Relay
