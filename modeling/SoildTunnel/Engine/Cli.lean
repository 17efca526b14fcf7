import SoildTunnel.Rust.Text

-- The options of the command line, which become environment variables.
namespace Engine.Cli

open Rust

inductive Variable
  | SOCKS | HTTP_PROXY | UPSTREAM | QUICK_RECONNECT | IP | PEER | WG_PEER | PROTOCOL | MASQUE_FRONT | GOOL_MODE
  | GOOL_INNER | TUIC_SERVER | TUIC_SNI | TUIC_CC | TUIC_INSECURE | SCAN | NOIZE | MASQUE_HTTP2 | MASQUE_H2_PEER
  | ECH | MASQUE_NO_DATA_CHECK | WG_NO_DATA_CHECK | MASQUE_VALIDATE_SECS | WG_VALIDATE_SECS | MASQUE_STARTUP_SECS
  | MASQUE_RECONNECT_SECS | WG_RECONNECT_SECS | DNS | MASQUE_H2_FRAGMENT | MASQUE_H2_FRAGMENT_SIZE
  | MASQUE_H2_FRAGMENT_DELAY | WG_KEEPALIVE | WG_NO_PROFILE_RETRY | CONFIG | WG_CONFIG | MASQUE_CONFIG | TEAM
  | ACCESS_CLIENT_ID | ACCESS_CLIENT_SECRET | ACCESS_TOKEN | ACCESS_EMAIL | GATEWAY | ROUTE_BLOCK | ROUTE_DIRECT
  | ROUTES_FILE | TLS_GROUPS | PERF_PROFILE | LOG_LEVEL
deriving DecidableEq

-- An option sets variables to fixed values, and some of them to the value that follows it.
inductive Effect
  | leave
  | flag (settings : List (Variable × String))
  | value (settings : List (Variable × String)) (targets : List Variable)
deriving DecidableEq

open Variable in
def options : List (List String × Effect) :=
  [(["-v", "--version"], .leave),
    (["-h", "--help"], .leave),
    (["--bind"], .value [] [SOCKS]),
    (["--http-proxy"], .value [] [HTTP_PROXY]),
    (["--upstream"], .value [] [UPSTREAM]),
    (["--quick-reconnect"], .flag [(QUICK_RECONNECT, "1")]),
    (["--no-quick-reconnect"], .flag [(QUICK_RECONNECT, "0")]),
    (["-4"], .flag [(IP, "v4")]),
    (["-6"], .flag [(IP, "v6")]),
    (["--dual"], .flag [(IP, "both")]),
    (["--ip"], .value [] [IP]),
    (["--peer"], .value [] [PEER]),
    (["--wg-peer"], .value [] [WG_PEER]),
    (["--masque"], .flag [(PROTOCOL, "masque")]),
    (["--wg", "--wireguard", "--warp"], .flag [(PROTOCOL, "wg")]),
    (["--gool", "--wiw"], .flag [(PROTOCOL, "gool")]),
    (["--soild"], .flag [(PROTOCOL, "gool"), (MASQUE_FRONT, "1")]),
    (["--soild-quic"], .flag [(PROTOCOL, "gool"), (MASQUE_FRONT, "quic")]),
    (["--soild-fast"], .flag [(PROTOCOL, "masque"), (MASQUE_FRONT, "1")]),
    (["--gool-classic"], .flag [(PROTOCOL, "gool"), (GOOL_MODE, "classic")]),
    (["--gool-peer"], .value [(PROTOCOL, "gool")] [GOOL_INNER]),
    (["--tuic"], .value [(PROTOCOL, "tuic")] [TUIC_SERVER]),
    (["--tuic-sni"], .value [] [TUIC_SNI]),
    (["--tuic-cc"], .value [] [TUIC_CC]),
    (["--tuic-insecure"], .flag [(TUIC_INSECURE, "1")]),
    (["--protocol"], .value [] [PROTOCOL]),
    (["--scan"], .value [] [SCAN]),
    (["--turbo"], .flag [(SCAN, "turbo")]),
    (["--balanced"], .flag [(SCAN, "balanced")]),
    (["--thorough"], .flag [(SCAN, "thorough")]),
    (["--stealth"], .flag [(SCAN, "stealth")]),
    (["--ironclad"], .flag [(SCAN, "ironclad")]),
    (["--noize"], .value [] [NOIZE]),
    (["--h2", "--http2"], .flag [(MASQUE_HTTP2, "1")]),
    (["--h2-peer"], .value [] [MASQUE_H2_PEER]),
    (["--ech"], .value [] [ECH]),
    (["--no-data-check"], .flag [(MASQUE_NO_DATA_CHECK, "1"), (WG_NO_DATA_CHECK, "1")]),
    (["--validate-secs"], .value [] [MASQUE_VALIDATE_SECS, WG_VALIDATE_SECS]),
    (["--startup-secs"], .value [] [MASQUE_STARTUP_SECS]),
    (["--reconnect-secs"], .value [] [MASQUE_RECONNECT_SECS, WG_RECONNECT_SECS]),
    (["--dns"], .value [] [DNS]),
    (["--fragment"], .flag [(MASQUE_H2_FRAGMENT, "1")]),
    (["--fragment-size"], .value [] [MASQUE_H2_FRAGMENT_SIZE]),
    (["--fragment-delay"], .value [] [MASQUE_H2_FRAGMENT_DELAY]),
    (["--keepalive"], .value [] [WG_KEEPALIVE]),
    (["--no-profile-retry"], .flag [(WG_NO_PROFILE_RETRY, "1")]),
    (["--config"], .value [] [CONFIG]),
    (["--wg-config"], .value [] [WG_CONFIG]),
    (["--masque-config"], .value [] [MASQUE_CONFIG]),
    (["--team", "--organization"], .value [] [TEAM]),
    (["--access-id"], .value [] [ACCESS_CLIENT_ID]),
    (["--access-secret"], .value [] [ACCESS_CLIENT_SECRET]),
    (["--access-token"], .value [] [ACCESS_TOKEN]),
    (["--access-email"], .value [] [ACCESS_EMAIL]),
    (["--gateway"], .flag [(GATEWAY, "1")]),
    (["--route-block"], .value [] [ROUTE_BLOCK]),
    (["--route-direct"], .value [] [ROUTE_DIRECT]),
    (["--routes"], .value [] [ROUTES_FILE]),
    (["--tls-groups"], .value [] [TLS_GROUPS]),
    (["--perf"], .value [] [PERF_PROFILE]),
    (["--log-level"], .value [] [LOG_LEVEL]),
    (["--verbose"], .flag [(LOG_LEVEL, "debug")])]

def effect (arg : Text) : Option Effect :=
  (options.find? fun (names, _) => arg ∈ names.map String.toList).map Prod.snd

-- The variables, all of which are called `SOILDTUNNEL_` and their name here.
abbrev Env := Variable → Option Text

def Env.set (env : Env) (v : Variable) (value : Text) : Env :=
  fun w => if w = v then some value else env w

def Env.setAll (env : Env) (settings : List (Variable × Text)) : Env :=
  settings.foldl (fun env (v, value) => env.set v value) env

-- How the arguments end: a process that leaves on its own account or panics is not an error.
inductive Stop
  | unknownOption (other : Text)
  | requiresValue (arg : Text)
  | left
  | panicked
deriving DecidableEq

structure Use where
  name : Text
  value : Option Text
deriving DecidableEq

structure Outcome where
  env : Env
  uses : List Use
  result : Except Stop Unit

def Outcome.after (u : Use) (o : Outcome) : Outcome :=
  { o with uses := u :: o.uses }

def fixed (settings : List (Variable × String)) : List (Variable × Text) :=
  settings.map fun (v, value) => (v, value.toList)

-- A variable cannot hold a NUL character.
def parseArgs (env : Env) : List Text → Outcome
  | [] => ⟨env, [], .ok ()⟩
  | arg :: rest =>
    match effect arg with
    | none => ⟨env, [], .error (.unknownOption arg)⟩
    | some .leave => ⟨env, [], .error .left⟩
    | some (.flag settings) => (parseArgs (env.setAll (fixed settings)) rest).after ⟨arg, none⟩
    | some (.value settings targets) =>
      match rest with
      | [] => ⟨env.setAll (fixed settings), [], .error (.requiresValue arg)⟩
      | value :: rest =>
        if Char.ofNat 0 ∈ value then ⟨env.setAll (fixed settings), [], .error .panicked⟩
        else (parseArgs (env.setAll (fixed settings ++ targets.map (·, value))) rest).after ⟨arg, some value⟩

end Engine.Cli
