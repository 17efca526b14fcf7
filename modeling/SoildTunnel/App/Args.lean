import SoildTunnel.App.Upstream
import SoildTunnel.Lib.Distinct

-- The arguments that the app starts the engine with.
namespace App

open Kotlin Distinct

-- Blanks, separators and digits as the source writes them.
abbrev space : UInt16 := 32
abbrev semicolon : UInt16 := 59
abbrev slash : UInt16 := 47
abbrev colon : UInt16 := 58

def MAX_DNS_SERVERS : Nat := 8
def MAX_ROUTE_RULES : Nat := 256

def isAlphanumeric (c : Nat) : Bool :=
  (65 ≤ c && c ≤ 90) || (97 ≤ c && c ≤ 122) || (48 ≤ c && c ≤ 57)

namespace Entry

open Regex UpstreamEntry

variable (icu : Icu)

def digits (lo hi : Nat) : Regex Nat :=
  rep (cls icu.digit) lo hi

-- `\d{1,3}(?:\.\d{1,3}){3}|\[[0-9A-Fa-f:]+]`, with an optional port. The number of symbols in the
-- brackets has no bound but the length of the text.
def DNS_ENTRY (length : Nat) : Regex Nat :=
  seq (alt
      (seq (digits icu 1 3) (rep (seq (word ".") (digits icu 1 3)) 3 3))
      (seq (word "[") (seq (rep (cls address) 1 length) (word "]"))))
    (opt (seq (word ":") (digits icu 1 5)))

-- `[A-Za-z0-9_.:/*\-\[\]^$+?()|{}\\]`
def ruleChar (c : Nat) : Bool :=
  isAlphanumeric c || c ∈ [95, 46, 58, 47, 42, 45, 91, 93, 94, 36, 43, 63, 40, 41, 124, 123, 125, 92]

def RULE_ENTRY : Regex Nat :=
  rep (cls ruleChar) 1 200

-- `\d{1,5}(-\d{1,5})?`
def RANGE : Regex Nat :=
  seq (digits icu 1 5) (opt (seq (word "-") (digits icu 1 5)))

-- `[A-Za-z0-9:_-]{1,64}`
def TLS_GROUPS : Regex Nat :=
  rep (cls fun c => isAlphanumeric c || c ∈ [58, 95, 45]) 1 64

-- `[^\s:/\[\]]`
def serverChar (c : Nat) : Bool :=
  !Rust.isWhitespace c && c ∉ [58, 47, 91, 93]

-- `(?:\[[0-9A-Fa-f:.]{2,45}]|[^\s:/\[\]]{1,253}):\d{1,5}`
def TUIC_SERVER : Regex Nat :=
  seq (alt
      (seq (word "[") (seq (rep (cls fun c => address c || c = 46) 2 45) (word "]")))
      (rep (cls serverChar) 1 253))
    (seq (word ":") (digits icu 1 5))

end Entry

def TUIC_CC_NAMES : List Text :=
  [lit "cubic", lit "reno", lit "bbr", lit "bbr2"]

structure Runtime where
  icu : Icu
  lowercase : Text → Text

variable (rt : Runtime) (p : ConnectionProfile)

def entries (isSeparator : UInt16 → Bool) (isEntry : List Nat → Bool) (limit : Nat) (raw : Text) : List Text :=
  (distinct ((((raw.splitOnP isSeparator).map Text.trim).filter fun t => t ≠ [] ∧ isEntry (codePoints t)))).take limit

def sanitizedDns : List Text :=
  entries (fun c => c = Text.comma || c = space || c = semicolon || c = Text.lf)
    (fun t => (Entry.DNS_ENTRY rt.icu t.length).isMatch t) MAX_DNS_SERVERS p.dnsServers

def sanitizedRules (raw : Text) : List Text :=
  entries (fun c => c = Text.comma || c = Text.lf) Entry.RULE_ENTRY.isMatch MAX_ROUTE_RULES raw

def sanitizedRange (raw : Text) : Option Text :=
  let t := raw.trim
  if (Entry.RANGE rt.icu).isMatch (codePoints t) then some t else none

def sanitizedTlsGroups : Option Text :=
  let t := p.tlsGroups.trim
  if Entry.TLS_GROUPS.isMatch (codePoints t) then some t else none

-- `substringAfterLast`, which is the whole text if there is no such character.
def afterLast (c : UInt16) (t : Text) : Text :=
  (Delimited.rcut c t).elim t Prod.snd

def sanitizedTuicServer : Option Text :=
  let v := p.tuicServer.trim
  if 3 ≤ v.length ∧ v.length ≤ 260 ∧ (Entry.TUIC_SERVER rt.icu).isMatch (codePoints v) then
    match Text.toIntOrNull (afterLast colon v) with
    | some port => if 1 ≤ port ∧ port ≤ 65535 then some v else none
    | none => none
  else none

def sanitizedTuicSni : Option Text :=
  let t := p.tuicSni.trim
  if t ≠ [] ∧ t.length ≤ 253 ∧ space ∉ t ∧ slash ∉ t then some t else none

def sanitizedTuicCc : Option Text :=
  let t := rt.lowercase p.tuicCc.trim
  if t ∈ TUIC_CC_NAMES then some t else none

namespace ConnectionProfile

def hasTeam : Bool :=
  p.teamAuth ≠ .off && !p.team.isBlank

def hasManualPeer : Bool :=
  p.endpointMode = .manualPeer && !p.manualPeer.isBlank

end ConnectionProfile

inductive Arg
  | flag (name : String)
  | option (name : String) (value : Text)

def Arg.tokens : Arg → List Text
  | .flag name => [lit name]
  | .option name value => [lit name, value]

def flagIf (c : Bool) (name : String) : List Arg :=
  if c then [.flag name] else []

def optionIf (c : Bool) (name : String) (value : Text) : List Arg :=
  if c then [.option name value] else []

def optionLet (name : String) (value : Option Text) : List Arg :=
  (value.map (Arg.option name)).toList

def joined (l : List Text) : Option Text :=
  if l = [] then none else some (Text.joinToString Text.comma l)

def protocolArgs : List Arg :=
  match p.protocol with
  | .auto => []
  | .tor => []
  | .masque => [.flag "--masque"]
  | .soild =>
    if p.soildHunt then .flag "--soild" :: flagIf (p.soildMode = .quic) "--soild-quic"
    else [.flag "--soild-fast"]
  | .wireguard => [.flag "--wg"]
  | .gool => .flag "--gool" :: flagIf (p.goolMode = .classic) "--gool-classic"
  | .tuic =>
    .option "--tuic" ((sanitizedTuicServer rt p).getD []) ::
      (optionLet "--tuic-sni" (sanitizedTuicSni p) ++ optionLet "--tuic-cc" (sanitizedTuicCc rt p) ++
        flagIf p.tuicInsecure "--tuic-insecure")

def routeArgs : List Arg :=
  optionLet "--route-block" (joined (sanitizedRules p.routeBlock)) ++
    optionLet "--route-direct" (joined (sanitizedRules p.routeDirect))

def scanFlag : ScanMode → String
  | .turbo => "--turbo"
  | .balanced => "--balanced"
  | .thorough => "--thorough"
  | .stealth => "--stealth"
  | .ironclad => "--ironclad"

def ipFlag : IpVersion → String
  | .v4 => "-4"
  | .v6 => "-6"
  | .both => "--dual"

-- A range that the user has pinned is scanned anew each time.
def quickFlag : String :=
  if p.quickReconnect ∧ ¬ (p.endpointMode = .manualRange ∧ p.manualRange.trim ≠ []) then "--quick-reconnect"
  else "--no-quick-reconnect"

-- `noize.name.lowercase()`
def noizeName (noize : Noize) : Text :=
  (lit (Enum.name noize)).map Text.lowerAscii

-- The filtering resolver comes first.
def effectiveDns : List Text :=
  (distinct ((if p.dnsAdBlock then [lit "1.1.1.3"] else if p.dnsMalwareBlock then [lit "1.1.1.2"] else []) ++
    sanitizedDns rt p)).take MAX_DNS_SERVERS

def coerceIn (lo hi i : Int32) : Int32 :=
  if i < lo then lo else if hi < i then hi else i

def tuningArgs : List Arg :=
  (if p.fragment then
      optionLet "--fragment-size" (sanitizedRange rt p.fragmentSize) ++
        optionLet "--fragment-delay" (sanitizedRange rt p.fragmentDelay)
    else []) ++
  optionLet "--tls-groups" (sanitizedTlsGroups p) ++
  optionIf (0 < p.validateSecs) "--validate-secs" (Text.ofInt (coerceIn 1 3600 p.validateSecs)) ++
  optionIf (0 < p.reconnectSecs) "--reconnect-secs" (Text.ofInt (coerceIn 1 600 p.reconnectSecs)) ++
  flagIf p.noProfileRetry "--no-profile-retry"

def scanArgs : List Arg :=
  flagIf (!p.hasManualPeer) (scanFlag p.scanMode) ++ [.flag (ipFlag p.ipVersion)] ++ [.flag (quickFlag p)] ++
    optionIf (p.noize ≠ .off) "--noize" (noizeName p.noize) ++ optionIf p.hasManualPeer "--peer" p.manualPeer.trim

def linkArgs : List Arg :=
  flagIf p.fragment "--fragment" ++ optionIf p.ech "--ech" (lit "auto") ++
    optionIf (0 < p.keepalive) "--keepalive" (Text.ofInt p.keepalive)

def teamArgs : List Arg :=
  optionIf p.hasTeam "--team" p.team.trim ++ flagIf (p.hasTeam && p.gateway) "--gateway"

-- A server of the user's own needs no scan, so most of the settings are left out for it.
def args : List Arg :=
  protocolArgs rt p ++
  if p.protocol = .tuic then optionLet "--dns" (joined (sanitizedDns rt p)) ++ routeArgs p
  else
    scanArgs p ++ linkArgs p ++ optionLet "--dns" (joined (effectiveDns rt p)) ++ teamArgs p ++ routeArgs p ++
      tuningArgs rt p

def toArgs : List Text :=
  (args rt p).flatMap Arg.tokens

-- `SOILDTUNNEL_DNS_MODE`, which is not set for plain queries.
def dnsModeEnv : Option Rust.Text :=
  match p.dnsMode with
  | .plain => none
  | .doh => some "doh".toList
  | .dot => some "dot".toList

end App
