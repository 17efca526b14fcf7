import SoildTunnel.Kotlin.Text

open Kotlin

namespace App

inductive Protocol
  | auto | masque | soild | wireguard | gool | tor | tuic
  deriving DecidableEq

inductive GoolMode
  | onMasque | classic
  deriving DecidableEq

inductive SoildMode
  | h2 | quic
  deriving DecidableEq

inductive TorTransport
  | direct | obfs4 | snowflake | meek | custom
  deriving DecidableEq

inductive ScanMode
  | turbo | balanced | thorough | stealth | ironclad
  deriving DecidableEq

inductive IpVersion
  | v4 | v6 | both
  deriving DecidableEq

inductive Noize
  | off | light | firewall | balanced | gfw | aggressive
  deriving DecidableEq

inductive EndpointMode
  | auto | manualPeer | manualRange
  deriving DecidableEq

inductive SplitMode
  | off | includeApps | excludeApps
  deriving DecidableEq

inductive DnsMode
  | plain | doh | dot
  deriving DecidableEq

inductive TeamAuth
  | off | serviceToken | email | token
  deriving DecidableEq

inductive CoreLogLevel
  | off | error | warn | info | debug
  deriving DecidableEq

instance : Enum Protocol where
  values := [.auto, .masque, .soild, .wireguard, .gool, .tor, .tuic]
  name
    | .auto => "AUTO" | .masque => "MASQUE" | .soild => "SOILD" | .wireguard => "WIREGUARD"
    | .gool => "GOOL" | .tor => "TOR" | .tuic => "TUIC"

instance : Enum GoolMode where
  values := [.onMasque, .classic]
  name
    | .onMasque => "ON_MASQUE" | .classic => "CLASSIC"

instance : Enum SoildMode where
  values := [.h2, .quic]
  name
    | .h2 => "H2" | .quic => "QUIC"

instance : Enum TorTransport where
  values := [.direct, .obfs4, .snowflake, .meek, .custom]
  name
    | .direct => "DIRECT" | .obfs4 => "OBFS4" | .snowflake => "SNOWFLAKE" | .meek => "MEEK"
    | .custom => "CUSTOM"

instance : Enum ScanMode where
  values := [.turbo, .balanced, .thorough, .stealth, .ironclad]
  name
    | .turbo => "TURBO" | .balanced => "BALANCED" | .thorough => "THOROUGH"
    | .stealth => "STEALTH" | .ironclad => "IRONCLAD"

instance : Enum IpVersion where
  values := [.v4, .v6, .both]
  name
    | .v4 => "V4" | .v6 => "V6" | .both => "BOTH"

instance : Enum Noize where
  values := [.off, .light, .firewall, .balanced, .gfw, .aggressive]
  name
    | .off => "OFF" | .light => "LIGHT" | .firewall => "FIREWALL" | .balanced => "BALANCED"
    | .gfw => "GFW" | .aggressive => "AGGRESSIVE"

instance : Enum EndpointMode where
  values := [.auto, .manualPeer, .manualRange]
  name
    | .auto => "AUTO" | .manualPeer => "MANUAL_PEER" | .manualRange => "MANUAL_RANGE"

instance : Enum SplitMode where
  values := [.off, .includeApps, .excludeApps]
  name
    | .off => "OFF" | .includeApps => "INCLUDE" | .excludeApps => "EXCLUDE"

instance : Enum CoreLogLevel where
  values := [.off, .error, .warn, .info, .debug]
  name
    | .off => "OFF" | .error => "ERROR" | .warn => "WARN" | .info => "INFO" | .debug => "DEBUG"

def DEFAULT_MTU : Int32 := 1500

-- The default of each field is the one that the source's constructor declares.
structure ConnectionProfile where
  protocol             : Protocol     := .auto
  goolMode             : GoolMode     := .onMasque
  soildMode            : SoildMode    := .h2
  soildHunt            : Bool         := true
  scanMode             : ScanMode     := .balanced
  ipVersion            : IpVersion    := .v4
  quickReconnect       : Bool         := true
  masqueHttp2          : Bool         := false
  lanShare             : Bool         := false
  noize                : Noize        := .off
  endpointMode         : EndpointMode := .auto
  manualPeer           : Text         := []
  manualRange          : Text         := []
  keepalive            : Int32        := 0
  fragment             : Bool         := false
  ech                  : Bool         := false
  mtu                  : Int32        := DEFAULT_MTU
  proxyMode            : Bool         := false
  splitMode            : SplitMode    := .off
  splitApps            : List Text    := []
  dnsServers           : Text         := []
  dnsMode              : DnsMode      := .plain
  encryptedDnsEndpoint : Text         := []
  team                 : Text         := []
  teamAuth             : TeamAuth     := .off
  accessClientId       : Text         := []
  accessClientSecret   : Text         := []
  accessEmail          : Text         := []
  accessToken          : Text         := []
  gateway              : Bool         := false
  routeBlock           : Text         := []
  routeDirect          : Text         := []
  killSwitch           : Bool         := false
  strictKillSwitch     : Bool         := false
  ipv6LeakProtection   : Bool         := true
  smartReconnect       : Bool         := true
  reconnectRetryLimit  : Int32        := 5
  fragmentSize         : Text         := []
  fragmentDelay        : Text         := []
  noDataCheck          : Bool         := false
  tlsGroups            : Text         := []
  customSni            : Text         := []
  validateSecs         : Int32        := 0
  reconnectSecs        : Int32        := 0
  noProfileRetry       : Bool         := false
  coreLogLevel         : CoreLogLevel := .warn
  blockedApps          : List Text    := []
  dnsAdBlock           : Bool         := false
  dnsMalwareBlock      : Bool         := false
  torTransport         : TorTransport := .obfs4
  torBridges           : Text         := []
  torExitCountry       : Text         := []
  tuicServer           : Text         := []
  tuicUuid             : Text         := []
  tuicPassword         : Text         := []
  tuicSni              : Text         := []
  tuicCc               : Text         := []
  tuicInsecure         : Bool         := false
  upstreamProxy        : Text         := []
  routeSniff           : Bool         := true
  routeSniffMs         : Int32        := 0
  autoReprovision      : Bool         := false

namespace ConnectionProfile

-- The kill switch, plain or strict, that has to keep the device off the direct path.
def killSwitched (p : ConnectionProfile) : Bool :=
  p.killSwitch || p.strictKillSwitch

end ConnectionProfile
end App
