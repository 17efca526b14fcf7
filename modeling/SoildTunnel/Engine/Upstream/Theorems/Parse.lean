import SoildTunnel.Engine.Theorems.Addr
import SoildTunnel.Engine.Upstream.Parse
import SoildTunnel.Rust.Pattern

-- What the engine reads out of a setting that is written as a URI.
namespace Engine.Upstream

open Rust List Delimited Text

-- An endpoint as it is written: a name, or an address in brackets.
inductive Endpoint (host : Text) : Text → Prop
  | name : '[' ∉ host → Endpoint host host
  | address : ']' ∉ host → Endpoint host ('[' :: host ++ [']'])

theorem splitEndpoint_eq {host text port : Text} (h : Endpoint host text) (hp : ':' ∉ port) (hh : host ≠ []) :
    splitEndpoint (text ++ ':' :: port) = hostPort (text ++ ':' :: port) host port := by
  cases h
  case name hb =>
    have hr : Delimited.rcut ':' (host ++ ':' :: port) = some (host, port) := rcut_append hp
    unfold splitEndpoint
    split
    case h_1 rest he =>
      cases host
      case nil => exact absurd rfl hh
      case cons c cs => simp_all
    case h_2 => rw [hr]
  case address hb =>
    have hc : Delimited.cut ']' (host ++ ']' :: ':' :: port) = some (host, ':' :: port) :=
      cut_append hb
    simp [splitEndpoint, hc]

theorem hostPort_eq_ok {endpoint host port host' : Text} {n : UInt16} (hh : host ≠ []) :
    hostPort endpoint host port = .ok (host', n) ↔
      host' = host ∧ Text.parseU16 port = some n ∧ n ≠ 0 := by
  unfold hostPort
  split
  case h_1 hp => simp [hp]
  case h_2 m hp =>
    simp only [hh, false_or, hp, Option.some.injEq]
    split
    case isTrue h0 => simp [h0]; grind
    case isFalse h0 => simp; grind

variable {c : Char}

section Percent

def isPlain (b : UInt8) : Bool :=
  (Char.ofNat b.toNat).isAlphanum

-- Either case of the digits may be used.
def hexChar (upper : Bool) (n : Nat) : Char :=
  if n < 10 then Char.ofNat (n + 48) else if upper then Char.ofNat (n + 55) else Char.ofNat (n + 87)

def percentByte (upper : Bool) (b : UInt8) : Text :=
  if isPlain b then [Char.ofNat b.toNat] else ['%', hexChar upper (b.toNat / 16), hexChar upper (b.toNat % 16)]

-- Every byte that is not alphanumeric is encoded.
def percentEncode (upper : Bool) (t : Text) : Text :=
  t.utf8.flatMap (percentByte upper)

variable (upper : Bool)

theorem percentBytes_cons {b : UInt8} (hb : b ≠ 37) (r : List UInt8) : percentBytes (b :: r) = b :: percentBytes r := by
  match r with
  | [] => rfl
  | [x] => rfl
  | x :: y :: r => simp [percentBytes, hb]

theorem isPlain_lt (b : UInt8) : isPlain b → b < 0x80 ∧ b ≠ 37 :=
  forall_byte (P := fun b => isPlain b → b < 0x80 ∧ b ≠ 37) (by decide +kernel) b

theorem hexPair_hexChar (b : UInt8) : Text.utf8 ['%', hexChar upper (b.toNat / 16), hexChar upper (b.toNat % 16)] =
        [37, .ofNat (hexChar upper (b.toNat / 16)).toNat, .ofNat (hexChar upper (b.toNat % 16)).toNat] ∧
      hexPair (.ofNat (hexChar upper (b.toNat / 16)).toNat) (.ofNat (hexChar upper (b.toNat % 16)).toNat) = some b := by
  revert b
  refine forall_byte ?_
  cases upper <;> decide +kernel

theorem percentBytes_percentByte (b : UInt8) (r : List UInt8) :
    percentBytes (Text.utf8 (percentByte upper b) ++ r) = b :: percentBytes r := by
  unfold percentByte
  split
  case isTrue h =>
    obtain ⟨hl, hn⟩ := isPlain_lt b h
    rw [Text.utf8, flatMap_singleton, utf8EncodeChar_ascii hl, singleton_append, percentBytes_cons hn]
  case isFalse =>
    obtain ⟨hu, hp⟩ := hexPair_hexChar upper b
    simp [hu, percentBytes, hp]

theorem percentBytes_flatMap (bytes : List UInt8) :
    percentBytes (Text.utf8 (bytes.flatMap (percentByte upper))) = bytes := by
  induction bytes
  case nil => rfl
  case cons b bytes ih => rw [flatMap_cons, utf8_append, percentBytes_percentByte, ih]

theorem percentDecode_percentEncode (t : Text) : percentDecode (percentEncode upper t) = t := by
  rw [percentDecode, percentEncode, percentBytes_flatMap, fromUtf8Lossy_utf8]

theorem percentByte_all (b : UInt8) : (percentByte upper b).all fun c => c.isAlphanum || c = '%' := by
  revert b
  refine forall_byte ?_
  cases upper <;> decide +kernel

theorem mem_percentEncode {t : Text} (h : c ∈ percentEncode upper t) : c.isAlphanum ∨ c = '%' := by
  have ⟨b, _, hc⟩ := mem_flatMap.mp h
  simpa using all_eq_true.mp (percentByte_all upper b) c hc

end Percent

def schemes : Kind → List Text
  | .socks5 => ["socks5".toList, "socks5h".toList, "socks".toList]
  | .http => ["http".toList, "https".toList]

-- A name, or any spelling of an address.
inductive IsHost : (literal : Bool) → Text → Prop
  | name {t : Text} : t ≠ [] → (∀ c ∈ t, c ∉ ":/?#[]@".toList) → IsHost false t
  | v4 {t : Text} (ip : Ipv4Addr) : Reader.ipv4Addr t = some (ip, []) → IsHost false t
  | v6 {t : Text} (ip : Ipv6Addr) : Reader.ipv6Addr t = some (ip, []) → IsHost true t

theorem IsHost.ne_nil {literal : Bool} {t : Text} (h : IsHost literal t) : t ≠ [] := by
  cases h
  case name hn _ => exact hn
  case v4 ip h => rintro rfl; cases h
  case v6 ip h => rintro rfl; cases h

theorem IsHost.not_mem {literal : Bool} {t : Text} (h : IsHost literal t) (hc : c ∈ "/[]@".toList) : c ∉ t := by
  have hl : "/[]@".toList.all fun c => !Reader.isAddrChar c && c ∈ ":/?#[]@".toList := by decide
  have ⟨ha, hd⟩ : Reader.isAddrChar c = false ∧ c ∈ ":/?#[]@".toList := by
    simpa using all_eq_true.mp hl c hc
  have haddr (ht : ∃ v, t = v ++ [] ∧ ∀ c ∈ v, Reader.isAddrChar c) : c ∉ t := by
    obtain ⟨v, rfl, hv⟩ := ht
    rw [append_nil]
    exact fun hm => by cases ha.symm.trans (hv c hm)
  cases h
  case name _ hn => exact fun hm => hn c hm hd
  case v4 ip h => exact haddr (Reader.takes_ipv4Addr _ _ _ h)
  case v6 ip h => exact haddr (Reader.takes_ipv6Addr _ _ _ h)

-- A proxy, and the ways to write it: the scheme, and the case of the digits of the encoding.
structure Setting where
  kind : Kind
  scheme : Text
  literal : Bool
  host : Text
  port : UInt16
  login : Option (Text × Option Text)
  upper : Bool
  scheme_mem : scheme.map Char.toLower ∈ schemes kind
  isHost : IsHost literal host
  port_ne_zero : port ≠ 0

namespace Setting

variable (s : Setting)

def proxy : Proxy where
  kind := s.kind
  host := s.host
  port := s.port
  user := s.login.map Prod.fst
  password := s.login.bind Prod.snd

def loginText : Text :=
  match s.login with
  | none => []
  | some (user, none) => percentEncode s.upper user ++ ['@']
  | some (user, some password) => percentEncode s.upper user ++ ':' :: percentEncode s.upper password ++ ['@']

def hostText : Text :=
  if s.literal then '[' :: s.host ++ [']'] else s.host

def portText : Text :=
  Nat.toDigits 10 s.port.toNat

def text : Text :=
  s.scheme ++ "://".toList ++ (s.loginText ++ (s.hostText ++ ':' :: s.portText))

theorem parseU16_portText : Text.parseU16 s.portText = some s.port := by
  rw [portText, parseU16_toDigits s.port.toNat_lt, UInt16.ofNat_toNat]

theorem endpoint : Endpoint s.host s.hostText := by
  unfold hostText
  split
  case isTrue => exact .address (s.isHost.not_mem (by decide))
  case isFalse => exact .name (s.isHost.not_mem (by decide))

theorem not_mem_hostText (h : c ∈ "/@".toList) : c ∉ s.hostText := by
  have hl : "/@".toList.all fun c => c ∈ "/[]@".toList && c ≠ '[' && c ≠ ']' := by decide
  have hc : (c ∈ "/[]@".toList ∧ c ≠ '[') ∧ c ≠ ']' := by simpa using all_eq_true.mp hl c h
  have hh := s.isHost.not_mem hc.1.1
  unfold hostText
  split
  case isTrue => simp [hc.1.2, hc.2, hh]
  case isFalse => exact hh

theorem not_mem_endpoint (h : c ∈ "/@".toList) : c ∉ s.hostText ++ ':' :: s.portText := by
  have hl : "/@".toList.all fun c => c ≠ ':' && !c.isDigit := by decide
  have hc : c ≠ ':' ∧ c.isDigit = false := by simpa using all_eq_true.mp hl c h
  have hp : c ∉ s.portText := fun hm => by cases hc.2.symm.trans (isDigit_of_mem_toDigits _ hm)
  simp [s.not_mem_hostText h, hc.1, hp]

theorem isAlphanum_scheme (h : c ∈ s.scheme) : c.isAlphanum := by
  have hs : ∀ kind, (schemes kind).all (·.all Char.isAlphanum) := by
    intro kind
    cases kind <;> decide
  have ha := all_eq_true.mp (hs s.kind) _ s.scheme_mem
  exact isAlphanum_of_toLower (all_eq_true.mp ha _ (mem_map_of_mem h))

theorem scheme_ne_nil : s.scheme ≠ [] := by
  have hs : ∀ kind, [] ∉ schemes kind := by
    intro kind
    cases kind <;> decide
  intro h
  have hm := s.scheme_mem
  rw [h] at hm
  exact hs _ hm

-- It begins with a letter and ends in a digit.
theorem trim_text : Text.trim s.text = s.text := by
  refine trim_eq_self_of_ends (fun c hc => ?_) fun c hc => ?_
  · rw [text, append_assoc, List.head?_append_of_ne_nil _ s.scheme_ne_nil] at hc
    exact isWhitespace_of_isAlphanum (s.isAlphanum_scheme (mem_of_mem_head? hc))
  · have he : s.text = s.scheme ++ "://".toList ++ s.loginText ++ s.hostText ++ [':'] ++ s.portText := by simp [text]
    rw [he, portText, List.getLast?_append_of_ne_nil _ (toDigits_ne_nil _)] at hc
    have hd := isDigit_of_mem_toDigits _ (mem_of_mem_getLast? hc)
    exact isWhitespace_of_isAlphanum (isAlphanum_of_isDigit hd)

theorem splitScheme_text (cm : CaseMap) :
    splitScheme cm s.text = (s.scheme.map Char.toLower, s.loginText ++ (s.hostText ++ ':' :: s.portText)) := by
  have hc : ':' ∉ s.scheme := fun h => by cases s.isAlphanum_scheme h
  have ha : ∀ c ∈ s.scheme, c.toNat < 128 := fun c h => by
    have := isAlphanum_bounds (s.isAlphanum_scheme h)
    omega
  have hs : Text.splitOnce "://".toList s.text = some (s.scheme, s.loginText ++ (s.hostText ++ ':' :: s.portText)) := by
    rw [text, append_assoc]
    exact splitOnce_of_not_mem hc
  rw [splitScheme, hs, ← cm.toLowercase_ascii ha]

theorem kindOf_of_mem {kind : Kind} {scheme : Text} (h : scheme ∈ schemes kind) : kindOf scheme = .ok kind := by
  have hs : ∀ kind, (schemes kind).all fun scheme => kindOf scheme = .ok kind := by
    intro kind
    cases kind <;> decide
  simpa using all_eq_true.mp (hs kind) scheme h

theorem splitLogin_text : ∃ pair, splitLogin (s.loginText ++ (s.hostText ++ ':' :: s.portText)) = (pair, s.hostText ++ ':' :: s.portText) ∧
    credentials pair = (s.login.map Prod.fst, s.login.bind Prod.snd) := by
  have hat := s.not_mem_endpoint (c := '@') (by decide)
  have hcolon (t : Text) : ':' ∉ percentEncode s.upper t := fun h => by
    rcases mem_percentEncode s.upper h with h | h <;> cases h
  unfold loginText
  split
  case h_1 h =>
    rw [nil_append, splitLogin, rcut_eq_none hat, h]
    exact ⟨none, rfl, rfl⟩
  case h_2 user h =>
    rw [append_assoc, singleton_append, splitLogin, rcut_append hat, h]
    refine ⟨_, rfl, ?_⟩
    simp [credentials, cut_eq_none_iff.mpr (hcolon user), percentDecode_percentEncode]
  case h_3 user password h =>
    rw [append_assoc, singleton_append, splitLogin, rcut_append hat, h]
    refine ⟨_, rfl, ?_⟩
    simp [credentials, cut_append (hcolon user), percentDecode_percentEncode]

-- A setting is read as it was meant.
theorem parse_text (cm : CaseMap) : parse cm s.text = .ok s.proxy := by
  obtain ⟨pair, hl, hc⟩ := s.splitLogin_text
  have hslash := s.not_mem_endpoint (c := '/') (by decide)
  have hcolon : ':' ∉ s.portText := fun h => by cases isDigit_of_mem_toDigits _ h
  have he : splitEndpoint (s.hostText ++ ':' :: s.portText) = .ok (s.host, s.port) := by
    rw [splitEndpoint_eq s.endpoint hcolon s.isHost.ne_nil, hostPort_eq_ok s.isHost.ne_nil]
    exact ⟨rfl, s.parseU16_portText, s.port_ne_zero⟩
  simp only [parse, s.trim_text, s.splitScheme_text cm, kindOf_of_mem s.scheme_mem, hl, trimEndMatches_eq_self hslash, he, hc]
  rfl

def bracketed : Setting where
  kind := .socks5
  scheme := "Socks5".toList
  literal := true
  host := "::1".toList
  port := 1080
  login := some ("a@b".toList, some "c:d".toList)
  upper := true
  scheme_mem := by decide
  isHost := .v6 _ rfl
  port_ne_zero := by decide

example : bracketed.text = "Socks5://a%40b:c%3Ad@[::1]:1080".toList := by decide +kernel

end Setting

end Engine.Upstream
