import SoildTunnel.App.Profile
import SoildTunnel.Lib.Table

open Kotlin Kotlin.Text

namespace App.ProfileCodec

def fields (p : ConnectionProfile) : List (Text × Text) := [
  (lit "protocol", lit (Enum.name p.protocol)),
  (lit "gool", lit (Enum.name p.goolMode)),
  (lit "soild", lit (Enum.name p.soildMode)),
  (lit "soildHunt", ofBool p.soildHunt),
  (lit "scan", lit (Enum.name p.scanMode)),
  (lit "ip", lit (Enum.name p.ipVersion)),
  (lit "quick", ofBool p.quickReconnect),
  (lit "h2", ofBool p.masqueHttp2),
  (lit "share", ofBool p.lanShare),
  (lit "noize", lit (Enum.name p.noize)),
  (lit "endpoint", lit (Enum.name p.endpointMode)),
  (lit "peer", p.manualPeer),
  (lit "range", p.manualRange),
  (lit "keepalive", ofInt p.keepalive),
  (lit "fragment", ofBool p.fragment),
  (lit "ech", ofBool p.ech),
  (lit "mtu", ofInt p.mtu),
  (lit "proxy", ofBool p.proxyMode),
  (lit "split", lit (Enum.name p.splitMode)),
  (lit "splitApps", joinToString comma p.splitApps),
  (lit "kill", ofBool p.killSwitch),
  (lit "strictKill", ofBool p.strictKillSwitch),
  (lit "v6leak", ofBool p.ipv6LeakProtection),
  (lit "smartRe", ofBool p.smartReconnect),
  (lit "reLimit", ofInt p.reconnectRetryLimit),
  (lit "fSize", p.fragmentSize),
  (lit "fDelay", p.fragmentDelay),
  (lit "noDataCheck", ofBool p.noDataCheck),
  (lit "tlsGroups", p.tlsGroups),
  (lit "valSecs", ofInt p.validateSecs),
  (lit "recSecs", ofInt p.reconnectSecs),
  (lit "noProfRetry", ofBool p.noProfileRetry),
  (lit "coreLog", lit (Enum.name p.coreLogLevel)),
  (lit "blockedApps", joinToString comma p.blockedApps),
  (lit "torTransport", lit (Enum.name p.torTransport)),
  (lit "torBridges", Delimited.escape backslash letterN lf p.torBridges),
  (lit "torExit", p.torExitCountry)
]

def encode (p : ConnectionProfile) : Text :=
  Table.write equals lf (fields p)

def normalCountry (cm : CaseMap) (t : Text) : Text :=
  cm.uppercase ((trim t).take 2)

-- The profile that `decode` builds from the map of keys and values. None of the conversions throws,
-- so the surrounding `runCatching` never falls back to the defaults as a whole.
def ofMap (cm : CaseMap) (map : Text → Option Text) : ConnectionProfile :=
  let d : ConnectionProfile := {}
  {
    protocol            := (map (lit "protocol")).bind Enum.enumOr |>.getD d.protocol
    goolMode            := (map (lit "gool")).bind Enum.enumOr |>.getD d.goolMode
    soildMode           := (map (lit "soild")).bind Enum.enumOr |>.getD d.soildMode
    soildHunt           := (map (lit "soildHunt")).bind toBooleanStrictOrNull |>.getD d.soildHunt
    scanMode            := (map (lit "scan")).bind Enum.enumOr |>.getD d.scanMode
    ipVersion           := (map (lit "ip")).bind Enum.enumOr |>.getD d.ipVersion
    quickReconnect      := (map (lit "quick")).bind toBooleanStrictOrNull |>.getD d.quickReconnect
    masqueHttp2         := (map (lit "h2")).bind toBooleanStrictOrNull |>.getD d.masqueHttp2
    lanShare            := (map (lit "share")).bind toBooleanStrictOrNull |>.getD d.lanShare
    noize               := (map (lit "noize")).bind Enum.enumOr |>.getD d.noize
    endpointMode        := (map (lit "endpoint")).bind Enum.enumOr |>.getD d.endpointMode
    manualPeer          := (map (lit "peer")).getD d.manualPeer
    manualRange         := (map (lit "range")).getD d.manualRange
    keepalive           := (map (lit "keepalive")).bind toIntOrNull |>.getD d.keepalive
    fragment            := (map (lit "fragment")).bind toBooleanStrictOrNull |>.getD d.fragment
    ech                 := (map (lit "ech")).bind toBooleanStrictOrNull |>.getD d.ech
    mtu                 := (map (lit "mtu")).bind toIntOrNull |>.getD d.mtu
    proxyMode           := (map (lit "proxy")).bind toBooleanStrictOrNull |>.getD d.proxyMode
    splitMode           := (map (lit "split")).bind Enum.enumOr |>.getD d.splitMode
    splitApps           := (map (lit "splitApps")).map items |>.getD d.splitApps
    killSwitch          := (map (lit "kill")).bind toBooleanStrictOrNull |>.getD d.killSwitch
    strictKillSwitch    := (map (lit "strictKill")).bind toBooleanStrictOrNull |>.getD d.strictKillSwitch
    ipv6LeakProtection  := (map (lit "v6leak")).bind toBooleanStrictOrNull |>.getD d.ipv6LeakProtection
    smartReconnect      := (map (lit "smartRe")).bind toBooleanStrictOrNull |>.getD d.smartReconnect
    reconnectRetryLimit := (map (lit "reLimit")).bind toIntOrNull |>.getD d.reconnectRetryLimit
    fragmentSize        := (map (lit "fSize")).getD d.fragmentSize
    fragmentDelay       := (map (lit "fDelay")).getD d.fragmentDelay
    noDataCheck         := (map (lit "noDataCheck")).bind toBooleanStrictOrNull |>.getD d.noDataCheck
    tlsGroups           := (map (lit "tlsGroups")).getD d.tlsGroups
    validateSecs        := (map (lit "valSecs")).bind toIntOrNull |>.getD d.validateSecs
    reconnectSecs       := (map (lit "recSecs")).bind toIntOrNull |>.getD d.reconnectSecs
    noProfileRetry      := (map (lit "noProfRetry")).bind toBooleanStrictOrNull |>.getD d.noProfileRetry
    coreLogLevel        := (map (lit "coreLog")).bind Enum.enumOr |>.getD d.coreLogLevel
    blockedApps         := (map (lit "blockedApps")).map items |>.getD d.blockedApps
    torTransport        := (map (lit "torTransport")).bind Enum.enumOr |>.getD d.torTransport
    torBridges          := (map (lit "torBridges")).map (Delimited.unescape backslash letterN lf) |>.getD d.torBridges
    torExitCountry      := (map (lit "torExit")).map (normalCountry cm) |>.getD d.torExitCountry
  }

-- The format of the releases 1.0 and 1.1: one line of values separated by pipes. A value that names
-- no constant of its enumeration throws, and the whole profile is then the default one.
def decodeLegacy (raw : Text) : ConnectionProfile :=
  let parts := split pipe raw
  match parts with
  | protocol :: scan :: ip :: quick :: h2 :: rest =>
    match Enum.enumOr protocol, Enum.enumOr scan, Enum.enumOr ip with
    | some protocol, some scanMode, some ipVersion =>
      {
        protocol, scanMode, ipVersion
        quickReconnect := toBoolean quick
        masqueHttp2    := toBoolean h2
        lanShare       := rest.head?.map toBoolean |>.getD false
      }
    | _, _, _ => {}
  | _ => {}

def decode (cm : CaseMap) : Option Text → ConnectionProfile
  | none     => {}
  | some raw =>
    if isBlank raw then {}
    else if equals ∉ raw ∧ pipe ∈ raw then decodeLegacy raw
    else ofMap cm (Table.get <| Table.read equals cr lf raw)

-- The profile with every field that `encode` does not write set back to its default.
def sent (p : ConnectionProfile) : ConnectionProfile :=
  { p with
    dnsServers           := []
    dnsMode              := .plain
    encryptedDnsEndpoint := []
    team                 := []
    teamAuth             := .off
    accessClientId       := []
    accessClientSecret   := []
    accessEmail          := []
    accessToken          := []
    gateway              := false
    routeBlock           := []
    routeDirect          := []
    customSni            := []
    dnsAdBlock           := false
    dnsMalwareBlock      := false
    tuicServer           := []
    tuicUuid             := []
    tuicPassword         := []
    tuicSni              := []
    tuicCc               := []
    tuicInsecure         := false
    upstreamProxy        := []
    routeSniff           := true
    routeSniffMs         := 0
    autoReprovision      := false
  }

-- The texts of a profile that the line format carries unchanged.
structure Legible (p : ConnectionProfile) : Prop where
  manualPeer     : p.manualPeer.OneLine
  manualRange    : p.manualRange.OneLine
  fragmentSize   : p.fragmentSize.OneLine
  fragmentDelay  : p.fragmentDelay.OneLine
  tlsGroups      : p.tlsGroups.OneLine
  splitApps      : ∀ app ∈ p.splitApps, Item app
  blockedApps    : ∀ app ∈ p.blockedApps, Item app
  -- Line feeds are escaped, carriage returns and backslashes are not.
  torBridges     : cr ∉ p.torBridges ∧ ¬[backslash, letterN] <:+: p.torBridges
  torExitCountry : p.torExitCountry.OneLine

end App.ProfileCodec
