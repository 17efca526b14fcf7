import SoildTunnel.App.AppFilter
import SoildTunnel.App.Ladder
import SoildTunnel.App.VpnService

-- The TUN interface, the configuration of the process that forwards its packets, and the ladder of a session.
namespace App.VpnService

open Kotlin
open SmartAuto

def TUN_IPV4 : Text := lit "10.10.14.1"
def TUN_IPV6 : Text := lit "fc00::10:10:14:1"
def DNS_SERVERS : List Text := [lit "1.1.1.1", lit "8.8.8.8"]
def DNS_SERVERS_V6 : List Text := [lit "2606:4700:4700::1111", lit "2001:4860:4860::8888"]
def SOCKS_HOST : Text := lit "127.0.0.1"
def SOCKS_PORT : Nat := 1819

def coerceMtu (mtu : Int32) : Nat :=
  (max 576 (min 9000 mtu.toInt)).toNat

def isV4 (p : ConnectionProfile) : Bool :=
  p.ipVersion = .v4 || p.ipVersion = .both

def isV6 (p : ConnectionProfile) : Bool :=
  p.ipVersion = .v6 || p.ipVersion = .both

structure TunConfig where
  mtu : Nat
  addresses : List (Text × Nat)
  routes : List (Text × Nat)
  blocking : Bool
  dnsServers : List Text
  apps : AppRules

def establishTun (dev : Device) (p : ConnectionProfile) : TunConfig where
  mtu := coerceMtu p.mtu
  addresses := (if isV4 p then [(TUN_IPV4, 30)] else []) ++ (if isV6 p then [(TUN_IPV6, 126)] else [])
  routes := (if isV4 p then [(lit "0.0.0.0", 0)] else []) ++
    (if isV6 p && p.ipv6LeakProtection then [(lit "::", 0)] else [])
  blocking := p.killSwitched
  dnsServers :=
    if isV4 p && !isV6 p then DNS_SERVERS
    else if !isV4 p && isV6 p then DNS_SERVERS_V6
    else DNS_SERVERS ++ DNS_SERVERS_V6
  apps := applyAppFilter dev p {}

-- The lines of `hev.yaml`: the part for the addresses, and what comes after them.
def hevAddresses (v4 v6 : Bool) : List Text :=
  (if v4 then [lit "  ipv4: " ++ TUN_IPV4] else []) ++
  (if v6 then [lit "  ipv6: '" ++ TUN_IPV6 ++ lit "'"] else []) ++
  (if !v4 && !v6 then [lit "  ipv4: " ++ TUN_IPV4] else [])

def hevSocks (socksPort : Nat) : List Text :=
  [lit "socks5:",
    lit "  address: " ++ SOCKS_HOST,
    lit "  port: " ++ lit (toString socksPort),
    lit "  udp: 'udp'",
    lit "misc:",
    lit "  task-stack-size: 86016",
    lit "  connect-timeout: 5000",
    lit "  #  stability: the old 60s idle timeout killed long-lived",
    lit "  # sessions (\"works 1-2 minutes, then no site opens\").",
    lit "  tcp-read-write-timeout: 300000",
    lit "  udp-read-write-timeout: 120000",
    lit "  log-level: warn"]

def writeHevConfig (lastProfile : Option ConnectionProfile) (mtu socksPort : Nat) : List Text :=
  [lit "tunnel:", lit "  mtu: " ++ lit (toString mtu)] ++ hevAddresses (lastProfile.any isV4) (lastProfile.any isV6) ++
    hevSocks socksPort

-- The file that `startTun2Socks` writes in a state of the service. Only the MTU is the candidate's.
def State.hevConfig (s : State) (c : ConnectionProfile) : List Text :=
  writeHevConfig s.lastProfile (coerceMtu c.mtu) SOCKS_PORT

-- The ladder of `connectFlow`. Tor has none.
def ladderOf (profile : ConnectionProfile) (fp : NetworkFingerprint) (stickyRange : Option Text) (memo : Option Recipe) :
    List AutoCandidate :=
  match profile.protocol with
  | .tor => []
  | .auto => buildPlan profile fp stickyRange memo
  | .tuic => [⟨profile, profile.connectTimeoutMs, lit (Enum.name profile.protocol) ++ lit " · as configured"⟩]
  | .masque | .soild | .wireguard | .gool => directPlan profile

end App.VpnService
