import SoildTunnel.App.Profile

-- The exit country of tor: what is remembered of it, and the configuration that tor is started with.
namespace App.TorManager

open Kotlin Text

structure Ports where
  socksPort : Nat
  dnsPort : Nat
  controlPort : Nat

structure State where
  ports : Ports
  desiredExit : Text := []

def normalExit (cm : CaseMap) (country : Text) : Text :=
  cm.uppercase (trim country)

def start (cm : CaseMap) (s : State) (ports : Ports) (p : ConnectionProfile) (keepExit : Bool) : State :=
  { ports, desiredExit := if keepExit then s.desiredExit else normalExit cm p.torExitCountry }

def switchExitCountry (cm : CaseMap) (s : State) (countryCode : Text) : State :=
  { s with desiredExit := normalExit cm countryCode }

-- `^[A-Z]{2}$`
def isCountry (exit : Text) : Bool :=
  exit.length = 2 && exit.all fun c => 65 ≤ c && c ≤ 90

def exitNodes (exit : Text) : Text :=
  lit "ExitNodes \x7b" ++ exit ++ lit "\x7d"

def buildTorrc (cm : CaseMap) (s : State) (dir : Text) (p : ConnectionProfile) (plugins : List (Text × Nat))
    (lines : List Text) : List Text :=
  let port (n : Nat) : Text := lit "127.0.0.1:" ++ decimal n
  let exit := if isBlank s.desiredExit then normalExit cm p.torExitCountry else s.desiredExit
  [lit "SocksPort " ++ port s.ports.socksPort ++ lit " IPv6Traffic",
    lit "ClientUseIPv6 1",
    lit "ClientPreferIPv6ORPort 1",
    lit "DNSPort " ++ port s.ports.dnsPort,
    lit "ControlPort " ++ port s.ports.controlPort,
    lit "CookieAuthentication 1",
    lit "DataDirectory " ++ dir,
    lit "GeoIPFile " ++ dir ++ lit "/geoip",
    lit "GeoIPv6File " ++ dir ++ lit "/geoip6",
    lit "AvoidDiskWrites 1"] ++
  (if lines = [] then [lit "UseBridges 0"]
    else lit "UseBridges 1" ::
      plugins.map (fun x => lit "ClientTransportPlugin " ++ x.1 ++ lit " socks5 " ++ port x.2) ++
      lines.map (lit "Bridge " ++ ·)) ++
  if isCountry exit then [exitNodes exit, lit "StrictNodes 1"] else []

inductive Call
  | start (ports : Ports) (keepExit : Bool)
  | switchExitCountry (countryCode : Text)

def step (cm : CaseMap) (p : ConnectionProfile) (s : State) : Call → State
  | .start ports keepExit => start cm s ports p keepExit
  | .switchExitCountry countryCode => switchExitCountry cm s countryCode

end App.TorManager
