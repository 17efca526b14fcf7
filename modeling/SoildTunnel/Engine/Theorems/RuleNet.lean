import SoildTunnel.Engine.Routing
import SoildTunnel.Engine.Theorems.Addr

-- Rules for networks: what becomes of an IPv6 address or block that is written as a rule.
namespace Engine

open Rust List Delimited

instance neZero : NeZero 33 :=
  ⟨by decide⟩

-- The addresses whose leading bits are those of the block.
def v4Block (addr : Ipv4Addr) (len : Fin 33) : IpAddr → Bool
  | .v4 ip => Octets.bigEndian addr.toList / 2 ^ (32 - len.val) = Octets.bigEndian ip.toList / 2 ^ (32 - len.val)
  | .v6 _ => false

def v6Block (addr : Ipv6Addr) (len : Fin 129) : IpAddr → Bool
  | .v6 ip => Octets.bigEndian addr.toList / 2 ^ (128 - len.val) = Octets.bigEndian ip.toList / 2 ^ (128 - len.val)
  | .v4 _ => false

-- The ways to write an IPv6 block: an address on its own, or with the number of bits that count.
inductive IsV6Block : Text → Ipv6Addr → Fin 129 → Prop
  | address {t a} (h : parseIp t = some (.v6 a)) : IsV6Block t a 128
  | cidr {t d a n} (h : parseIp t = some (.v6 a)) (hd : Reader.number 10 3 129 true d = some (n, [])) :
    IsV6Block (t ++ '/' :: d) a (.ofNat 129 n)

-- What the library says about the networks it reads: an address, a slash, and how many bits count.
structure RuleSyntax.ReadsNets (rs : RuleSyntax) : Prop where
  cidr {t d : Text} {a : Ipv6Addr} {n : Nat} : parseIp t = some (.v6 a) →
    Reader.number 10 3 129 true d = some (n, []) → rs.ipNet (t ++ '/' :: d) = some (v6Block a (.ofNat 129 n))
  slash {t : Text} : '/' ∉ t → rs.ipNet t = none
  colon {t : Text} : t.head? ≠ some ':' → rs.ipNet (':' :: t) = none

namespace IsV6Block

variable {cm : CaseMap} {rs : RuleSyntax} {t u v : Text} {a : Ipv6Addr} {len : Fin 129} {c : Char}

section Symbols

theorem toDigit_range (h : (Reader.toDigit 16 c).isSome) :
    48 ≤ c.toNat ∧ c.toNat ≤ 57 ∨ 97 ≤ c.toNat ∧ c.toNat ≤ 102 ∨ 65 ≤ c.toNat ∧ c.toNat ≤ 70 := by
  unfold Reader.toDigit at h
  simp only [Char.le_def, UInt32.le_iff_toNat_le, Option.isSome_ite] at h
  simp only [Char.toNat] at h ⊢
  have h₀ : '0'.val.toNat = 48 ∧ '9'.val.toNat = 57 := ⟨rfl, rfl⟩
  have h₁ : 'a'.val.toNat = 97 ∧ 'z'.val.toNat = 122 := ⟨rfl, rfl⟩
  have h₂ : 'A'.val.toNat = 65 ∧ 'Z'.val.toNat = 90 := ⟨rfl, rfl⟩
  split_ifs at h <;> omega

def isBlockChar (c : Char) : Bool :=
  Reader.isAddrChar c || c = '/'

theorem not_blank (h : isBlockChar c) : isWhitespace c.toNat = false := by
  have h : ((Reader.toDigit 16 c).isSome ∨ c = ':' ∨ c = '.') ∨ c = '/' := by
    simpa [isBlockChar, Reader.isAddrChar, or_assoc] using h
  rcases h with (h | rfl | rfl) | rfl
  case inl.inl =>
    have h := toDigit_range h
    simp [isWhitespace]
    omega
  all_goals rfl

theorem slash_not_mem (h : parseIp t = some (.v6 a)) : '/' ∉ t := by
  intro hm
  have h := isAddrChar_of_parseIp h '/' hm
  revert h
  decide

theorem isBlockChar_of_number {radix maxDigits bound n : Nat} {zero : Bool} (hr : radix ≤ 16)
    (h : Reader.number radix maxDigits bound zero t = some (n, [])) : ∀ c ∈ t, isBlockChar c := by
  obtain ⟨v, rfl, hv⟩ := Reader.takes_number hr t n [] h
  intro c hc
  simp [isBlockChar, hv c (by simpa using hc)]

theorem chars (h : IsV6Block t a len) : ∀ c ∈ t, isBlockChar c := by
  cases h
  case address h => exact fun c hc => by simp [isBlockChar, isAddrChar_of_parseIp h c hc]
  case cidr t d n hd h =>
    intro c hc
    rcases mem_append.mp hc with hc | hc
    case inl => simp [isBlockChar, isAddrChar_of_parseIp h c hc]
    case inr =>
      rcases mem_cons.mp hc with rfl | hc
      case inl => rfl
      case inr => exact isBlockChar_of_number (by decide) hd c hc

theorem trim_eq_self (h : ∀ c ∈ t, isBlockChar c) : t.trim = t :=
  Delimited.trim_eq_self fun c hc => not_blank (h c hc)

end Symbols

theorem begins (h : IsV6Block t a len) : (∃ v u, v ≠ [] ∧ t = v ++ ':' :: u ∧ ∀ c ∈ v, (Reader.toDigit 16 c).isSome) ∨
      ∃ u, t = ':' :: ':' :: u ∧ u.head? ≠ some ':' := by
  cases h
  case address h => exact Reader.ipv6Addr_begins (parseIp_v6 h)
  case cidr t d n hd h =>
    rcases Reader.ipv6Addr_begins (parseIp_v6 h) with ⟨v, u, hv, rfl, hx⟩ | ⟨u, rfl, hu⟩
    case inl => exact .inl ⟨v, u ++ '/' :: d, hv, by simp, hx⟩
    case inr =>
      refine .inr ⟨u ++ '/' :: d, by simp, ?_⟩
      cases u
      case nil => simp
      case cons c u => simpa using hu

theorem ruleKind_eq (hv : ∀ c ∈ v, isWhitespace c.toNat = false ∧ c ≠ ':' ∧ c ≠ '.' ∧ c ≠ '/')
    (hu : ∀ c ∈ u, isBlockChar c) : ruleKind cm (v ++ ':' :: u) = (cm.toLowercase v, u) := by
  have hs : Text.splitOnce [':'] (v ++ ':' :: u) = some (v, u) := by
    rw [Text.splitOnce_singleton, cut_append fun h => (hv ':' h).2.1 rfl]
  have hn : '.' ∉ v ∧ '/' ∉ v := ⟨fun h => (hv '.' h).2.2.1 rfl, fun h => (hv '/' h).2.2.2 rfl⟩
  have ht : v.trim = v := Delimited.trim_eq_self fun c hc => (hv c hc).1
  simp [ruleKind, hs, hn, ht, trim_eq_self hu]

section Bare

theorem toDigit_toLower (h : (Reader.toDigit 16 c).isSome) : (Reader.toDigit 16 c.toLower).isSome := by
  have hr := toDigit_range h
  rw [← Char.ofNat_toNat c]
  generalize c.toNat = n at hr
  rcases hr with ⟨hl, hu⟩ | ⟨hl, hu⟩ | ⟨hl, hu⟩
  all_goals interval_cases n <;> decide

theorem toLowercase_hex (h : ∀ c ∈ v, (Reader.toDigit 16 c).isSome) : cm.toLowercase v = v.map Char.toLower := by
  refine cm.toLowercase_ascii fun c hc => ?_
  have hr := toDigit_range (h c hc)
  omega

def kinds : List Text :=
  ["domain", "suffix", "full", "exact", "keyword", "regexp", "regex", "ip", "cidr", "port", "geoip", "geosite"].map
    String.toList

theorem not_mem_kinds (h : ∀ c ∈ v, (Reader.toDigit 16 c).isSome) : v ∉ kinds := by
  intro hv
  have hk : kinds.all fun kind => kind.any fun c => (Reader.toDigit 16 c).isNone := by decide +kernel
  obtain ⟨c, hc, hn⟩ := any_eq_true.mp (all_eq_true.mp hk v hv)
  exact absurd (h c hc) (by simpa using hn)

theorem not_blank_of_hex (h : (Reader.toDigit 16 c).isSome) :
    isWhitespace c.toNat = false ∧ c ≠ ':' ∧ c ≠ '.' ∧ c ≠ '/' := by
  refine ⟨not_blank (by simp [isBlockChar, Reader.isAddrChar, h]), ?_, ?_, ?_⟩
  all_goals
    rintro rfl
    revert h
    decide

theorem parse_unknown {kind value : Text} (ht : t.trim = t) (hk : ruleKind cm t = (kind, value)) (hne : kind ≠ [])
    (hn : kind ∉ kinds) : Matcher.parse cm rs t = none := by
  simp only [kinds, map_cons, map_nil, mem_cons, not_or] at hn
  unfold Matcher.parse
  rw [ht]
  by_cases hb : t = [] ∨ t.head? = some '#'
  case pos => exact if_pos hb
  case neg =>
    refine (if_neg hb).trans ?_
    simp only [hk, hn, hne, or_self, if_false]

theorem parse_group (hv : v ≠ []) (hd : ∀ c ∈ v, (Reader.toDigit 16 c).isSome)
    (hc : ∀ c ∈ v ++ ':' :: u, isBlockChar c) : Matcher.parse cm rs (v ++ ':' :: u) = none := by
  have hu : ∀ c ∈ u, isBlockChar c := fun c hm => hc c (by simp [hm])
  have hk : ruleKind cm (v ++ ':' :: u) = (cm.toLowercase v, u) :=
    ruleKind_eq (fun c hm => not_blank_of_hex (hd c hm)) hu
  rw [toLowercase_hex hd] at hk
  refine parse_unknown (trim_eq_self hc) hk (by simpa using hv) (not_mem_kinds ?_)
  intro d hm
  obtain ⟨c, hv, rfl⟩ := mem_map.mp hm
  exact toDigit_toLower (hd c hv)

theorem parseNet_colon (hs : rs.ReadsNets) (hu : u.head? ≠ some ':') (hc : ∀ c ∈ u, isBlockChar c) :
    parseNet rs (':' :: u) = none := by
  have ht : Text.trim (':' :: u) = ':' :: u := trim_eq_self (forall_mem_cons.mpr ⟨rfl, hc⟩)
  rw [parseNet, ht, hs.colon hu, parseIp_colon hu]
  rfl

-- After an empty kind one colon is left, with which no address begins.
theorem parse_colons (hs : rs.ReadsNets) (hu : u.head? ≠ some ':') (hc : ∀ c ∈ u, isBlockChar c) :
    Matcher.parse cm rs (':' :: ':' :: u) = (normalizeDomain cm (':' :: u)).map .domainSuffix := by
  have hcs : ∀ c ∈ ':' :: u, isBlockChar c := forall_mem_cons.mpr ⟨rfl, hc⟩
  have hk : ruleKind cm ([] ++ ':' :: ':' :: u) = (cm.toLowercase [], ':' :: u) :=
    ruleKind_eq (forall_mem_nil _) hcs
  have hl : cm.toLowercase [] = [] := cm.toLowercase_ascii (forall_mem_nil _)
  have ht : Text.trim (':' :: ':' :: u) = ':' :: ':' :: u := trim_eq_self (forall_mem_cons.mpr ⟨rfl, hcs⟩)
  rw [hl, nil_append] at hk
  unfold Matcher.parse
  rw [ht]
  dsimp only
  rw [if_neg (by simp)]
  simp [hk, Text.eqIgnoreAsciiCase, parseNet_colon hs hu hc]

theorem parse_bare (hs : rs.ReadsNets) (h : IsV6Block t a len) (n : IpAddr → Bool) :
    Matcher.parse cm rs t ≠ some (.net n) := by
  have hc := h.chars
  rcases h.begins with ⟨v, u, hv, rfl, hd⟩ | ⟨u, rfl, hu⟩
  case inl =>
    rw [parse_group hv hd hc]
    exact nofun
  case inr =>
    rw [parse_colons hs hu fun c hm => hc c (by simp [hm])]
    cases normalizeDomain cm (':' :: u) <;> exact nofun

end Bare

def MatchesExactly (cm : CaseMap) (m : Matcher) (a : Ipv6Addr) (len : Fin 129) : Prop :=
  (∃ n, m = .net n) ∧ ∀ ip port, m.matchesAt cm (.ip ip) port = v6Block a len ip

-- Written on its own, no block becomes such a rule.
theorem not_matchesExactly_parse (cm : CaseMap) {rs : RuleSyntax} (hs : rs.ReadsNets) {t : Text} {a : Ipv6Addr}
    {len : Fin 129} (h : IsV6Block t a len) :
    ¬ ∃ m, Matcher.parse cm rs t = some m ∧ MatchesExactly cm m a len := by
  rintro ⟨m, hp, ⟨n, rfl⟩, -⟩
  exact h.parse_bare hs n hp

section Plain

-- A reader of networks as the library documents it.
def readNet (t : Text) : Option (IpAddr → Bool) := do
  let (addr, len) ← Text.splitOnce ['/'] t
  match ← parseIp addr with
  | .v4 ip =>
    let (n, rest) ← Reader.number 10 2 33 true len
    if rest = [] then some (v4Block ip (.ofNat 33 n)) else none
  | .v6 ip =>
    let (n, rest) ← Reader.number 10 3 129 true len
    if rest = [] then some (v6Block ip ⟨n % 129, Nat.mod_lt n (by decide)⟩) else none

def plain : RuleSyntax where
  regex _ := none
  ipNet := readNet

theorem readsNets_plain : plain.ReadsNets where
  cidr {t d a n} h hd := by
    have hs : Text.splitOnce ['/'] (t ++ '/' :: d) = some (t, d) := by
      rw [Text.splitOnce_singleton, cut_append (slash_not_mem h)]
    have hm : (⟨n % 129, Nat.mod_lt n (by decide)⟩ : Fin 129) = Fin.ofNat 129 n := rfl
    simp [plain, readNet, hs, h, hd, hm]
  slash {t} h := by
    have hs : Text.splitOnce ['/'] t = none := by
      rw [Text.splitOnce_singleton, cut_eq_none_iff]
      exact h
    simp [plain, readNet, hs]
  colon {t} ht := by
    show readNet (':' :: t) = none
    rw [readNet, Text.splitOnce_singleton]
    cases hs : Delimited.cut '/' t
    case none => simp [Delimited.cut, hs]
    case some p =>
      obtain ⟨v, d⟩ := p
      obtain ⟨rfl, -⟩ := cut_eq_some_iff.mp hs
      have hv : v.head? ≠ some ':' := by
        cases v
        case nil => simp
        case cons c v => simpa using ht
      simp [Delimited.cut, hs, parseIp_colon hv]

def loopback : Ipv6Addr :=
  .ofSegments [0, 0, 0, 0, 0, 0, 0, 1]

theorem not_matchesExactly_loopback :
    ¬ ∃ m, Matcher.parse .ascii plain "::1".toList = some m ∧ MatchesExactly .ascii m loopback 128 :=
  not_matchesExactly_parse .ascii readsNets_plain (.address (by decide +kernel))

def documentation : Ipv6Addr :=
  .ofSegments [0x2001, 0xdb8, 0, 0, 0, 0, 0, 0]

theorem not_matchesExactly_documentation : parseIp "2001:db8::".toList = some (.v6 documentation) ∧
      ¬ ∃ m, Matcher.parse .ascii plain "2001:db8::/32".toList = some m ∧
        MatchesExactly .ascii m documentation 32 := by
  refine ⟨by decide +kernel, ?_⟩
  rintro ⟨m, hm, -⟩
  have hn : (Matcher.parse .ascii plain "2001:db8::/32".toList).isNone := by decide +kernel
  rw [hm] at hn
  cases hn

end Plain

end IsV6Block

end Engine
