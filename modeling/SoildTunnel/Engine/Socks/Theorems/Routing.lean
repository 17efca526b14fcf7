import SoildTunnel.Engine.Socks.Connect
import SoildTunnel.Engine.Theorems.RuleNet

-- What the rules say about a request, in terms of the rules that match.
namespace Engine

open Rust

namespace Matcher

variable {cm : CaseMap} {m : Matcher} {name name' : Text} {ip : IpAddr} {port : UInt16}

def onPort (port : UInt16) : Matcher → Bool
  | .ports lo hi => port ≥ lo && port ≤ hi
  | _ => false

-- A rule of this kind says the same about both names.
def readsAlike (cm : CaseMap) (name name' : Text) : Matcher → Bool
  | .domainRegex _ => name = name'
  | .domainSuffix _ | .domainKeyword _ => cm.toLowercase name = cm.toLowercase name'
  | .domainFull _ | .privateHost => Text.eqIgnoreAsciiCase name name'
  | .net _ | .ports .. => true

theorem matchesName_of_readsAlike (h : m.readsAlike cm name name') :
    m.matchesName cm name = m.matchesName cm name' := by
  cases m <;> simp_all [readsAlike, matchesName, Text.eqIgnoreAsciiCase]

theorem matchesAt_domain : m.matchesAt cm (.domain name) port = (m.onPort port || m.matchesName cm name) := by
  cases m <;> simp [matchesAt, onPort, matchesName]

theorem matchesAt_ip : m.matchesAt cm (.ip ip) port = (m.onPort port || m.matchesIp ip) := by
  cases m <;> simp [matchesAt, onPort, matchesIp]

-- The only rule for addresses that also has a name in it is the one for private hosts.
theorem matchesName_eq (h : ¬ Text.eqIgnoreAsciiCase name "localhost".toList) :
    m.matchesName cm name = (m.isDomain && m.matchesName cm name) := by
  cases m <;> simp_all [matchesName, isDomain]

end Matcher

variable {name : Text} {ip : IpAddr}

namespace RuleSet

variable {cm : CaseMap} {set : RuleSet} {host host' : Host} {port : UInt16}

def Blocks (cm : CaseMap) (set : RuleSet) (host : Host) (port : UInt16) : Prop :=
  ∃ m ∈ set.block, m.matchesAt cm host port

def Directs (cm : CaseMap) (set : RuleSet) (host : Host) (port : UInt16) : Prop :=
  ∃ m ∈ set.direct, m.matchesAt cm host port

instance : Decidable (set.Blocks cm host port) :=
  inferInstanceAs (Decidable (∃ m ∈ set.block, _))

instance : Decidable (set.Directs cm host port) :=
  inferInstanceAs (Decidable (∃ m ∈ set.direct, _))

theorem decide_eq : set.decide cm host port =
    if set.Blocks cm host port then .block else if set.Directs cm host port then .direct else .proxy := by
  unfold decide
  exact if_congr (by simp [Blocks]) rfl (if_congr (by simp [Directs]) rfl rfl)

theorem decide_eq_block : set.decide cm host port = .block ↔ set.Blocks cm host port := by
  rw [decide_eq]
  split
  case isTrue h => simp [h]
  case isFalse h => split <;> simp [h]

theorem decide_eq_proxy :
    set.decide cm host port = .proxy ↔ ¬ set.Blocks cm host port ∧ ¬ set.Directs cm host port := by
  rw [decide_eq]
  split
  case isTrue h => simp [h]
  case isFalse h => split <;> simp [*]

-- No rule that counts tells the two hosts apart.
structure Indifferent (cm : CaseMap) (set : RuleSet) (host host' : Host) (port : UInt16) : Prop where
  block : set.Blocks cm host port ↔ set.Blocks cm host' port
  direct : ¬ set.Blocks cm host port → (set.Directs cm host port ↔ set.Directs cm host' port)

theorem Indifferent.refl (cm : CaseMap) (set : RuleSet) (host : Host) (port : UInt16) :
    set.Indifferent cm host host port :=
  ⟨Iff.rfl, fun _ => Iff.rfl⟩

theorem decide_eq_decide :
    set.decide cm host port = set.decide cm host' port ↔ set.Indifferent cm host host' port := by
  constructor
  case mp =>
    intro h
    have hb : set.Blocks cm host port ↔ set.Blocks cm host' port := by
      rw [← decide_eq_block, ← decide_eq_block, h]
    refine ⟨hb, fun hn => ?_⟩
    have hp : set.decide cm host port = .proxy ↔ set.decide cm host' port = .proxy := by rw [h]
    rw [decide_eq_proxy, decide_eq_proxy, ← hb] at hp
    simpa [hn, not_iff_not] using hp
  case mpr =>
    intro ⟨hb, hd⟩
    by_cases h : set.Blocks cm host port
    case pos => simp [decide_eq, h, hb.mp h]
    case neg => simp [decide_eq, h, mt hb.mpr h, hd h]

-- A rule that means both hosts decides, or else those that mean only one of them weigh the same.
structure Agree (set : RuleSet) (both first second : Matcher → Bool) : Prop where
  block : (∃ m ∈ set.block, both m) ∨ ((∃ m ∈ set.block, first m) ↔ ∃ m ∈ set.block, second m)
  direct : (¬ ∃ m ∈ set.block, both m || first m) →
    (∃ m ∈ set.direct, both m) ∨ ((∃ m ∈ set.direct, first m) ↔ ∃ m ∈ set.direct, second m)

theorem decide_eq_iff_agree {both first second : Matcher → Bool}
    (hf : ∀ m : Matcher, m.matchesAt cm host port = (both m || first m))
    (hs : ∀ m : Matcher, m.matchesAt cm host' port = (both m || second m)) :
    set.decide cm host port = set.decide cm host' port ↔ set.Agree both first second := by
  have he (l : List Matcher) (p : Matcher → Bool) :
      (∃ m ∈ l, both m || p m) ↔ (∃ m ∈ l, both m) ∨ ∃ m ∈ l, p m := by
    simp only [Bool.or_eq_true, and_or_left, exists_or]
  have hb (p q r : Prop) : (p ∨ q ↔ p ∨ r) ↔ p ∨ (q ↔ r) := by tauto
  have hi : set.Indifferent cm host host' port ↔ set.Agree both first second := by
    constructor
    all_goals
      rintro ⟨h₁, h₂⟩
      constructor
    all_goals simp only [Blocks, Directs, hf, hs, he, hb] at *
    all_goals assumption
  exact decide_eq_decide.trans hi

section Spelling

variable (cm : CaseMap) (set : RuleSet) (port : UInt16)

def NamesAgree (name name' : Text) : Prop :=
  set.Agree (fun m => m.onPort port || m.readsAlike cm name name' && m.matchesName cm name)
    (fun m => !m.readsAlike cm name name' && m.matchesName cm name)
    fun m => !m.readsAlike cm name name' && m.matchesName cm name'

def NameAgrees (name : Text) (ip : IpAddr) : Prop :=
  set.Agree (·.onPort port) (·.matchesName cm name) (·.matchesIp ip)

-- A name that is an address is nothing to the rule for private hosts.
def LiteralAgrees (name : Text) (ip : IpAddr) : Prop :=
  set.Agree (·.onPort port) (fun m => m.isDomain && m.matchesName cm name) (·.matchesIp ip)

def AddressesAgree (ip ip' : IpAddr) : Prop :=
  set.Agree (·.onPort port) (·.matchesIp ip) (·.matchesIp ip')

end Spelling

theorem decide_names {name' : Text} :
    set.decide cm (.domain name) port = set.decide cm (.domain name') port ↔ set.NamesAgree cm port name name' := by
  apply decide_eq_iff_agree
  all_goals
    intro m
    rw [Matcher.matchesAt_domain]
    cases hr : m.readsAlike cm name name'
    case false => simp
    case true => simp [Matcher.matchesName_of_readsAlike hr]

theorem decide_name :
    set.decide cm (.domain name) port = set.decide cm (.ip ip) port ↔ set.NameAgrees cm port name ip :=
  decide_eq_iff_agree (fun _ => Matcher.matchesAt_domain) fun _ => Matcher.matchesAt_ip

theorem decide_literal (h : ¬ Text.eqIgnoreAsciiCase name "localhost".toList) :
    set.decide cm (.domain name) port = set.decide cm (.ip ip) port ↔ set.LiteralAgrees cm port name ip :=
  decide_eq_iff_agree (fun _ => by rw [Matcher.matchesAt_domain, ← Matcher.matchesName_eq h]) fun _ => Matcher.matchesAt_ip

theorem decide_addresses {ip' : IpAddr} :
    set.decide cm (.ip ip) port = set.decide cm (.ip ip') port ↔ set.AddressesAgree port ip ip' :=
  decide_eq_iff_agree (fun _ => Matcher.matchesAt_ip) fun _ => Matcher.matchesAt_ip

end RuleSet

namespace Socks

variable {cm : CaseMap} {set : RuleSet} {target : Target} {sniffed : Option Text} {port : UInt16}

-- The host that a decision rests on: a name that was read, if a rule matches it, or the target.
def restsOn (cm : CaseMap) (set : RuleSet) (target : Target) (sniffed : Option Text) (port : UInt16) : Host :=
  match sniffed with
  | some name =>
    if set.Blocks cm (.domain name) port ∨ set.Directs cm (.domain name) port then .domain name
    else hostOf target
  | none => hostOf target

theorem decideRoute_eq :
    decideRoute cm set target sniffed port = set.decide cm (restsOn cm set target sniffed port) port := by
  cases sniffed
  case none => rfl
  case some name =>
    simp only [decideRoute, restsOn]
    split
    case h_1 h => rw [if_neg (not_or.mpr (RuleSet.decide_eq_proxy.mp h))]
    case h_2 h =>
      rw [if_pos]
      by_contra hn
      exact h (RuleSet.decide_eq_proxy.mpr (not_or.mp hn))

-- A block rule matches the name that was read or the target itself.
def BlockMatches (cm : CaseMap) (set : RuleSet) (target : Target) (sniffed : Option Text) (port : UInt16) : Prop :=
  (∃ name ∈ sniffed, set.Blocks cm (.domain name) port) ∨ set.Blocks cm (hostOf target) port

-- A direct rule matches the name that was read and no block rule does, but one matches the target.
def NameOutweighs (cm : CaseMap) (set : RuleSet) (target : Target) (sniffed : Option Text) (port : UInt16) : Prop :=
  ∃ name ∈ sniffed, set.Directs cm (.domain name) port ∧ ¬ set.Blocks cm (.domain name) port ∧
    set.Blocks cm (hostOf target) port

theorem block_wins_iff (cm : CaseMap) (set : RuleSet) (target : Target) (sniffed : Option Text) (port : UInt16) :
    (BlockMatches cm set target sniffed port → decideRoute cm set target sniffed port = .block) ↔
      ¬ NameOutweighs cm set target sniffed port := by
  rw [decideRoute_eq, RuleSet.decide_eq_block]
  cases sniffed
  case none => simp [BlockMatches, NameOutweighs, restsOn]
  case some name =>
    simp only [BlockMatches, NameOutweighs, restsOn, Option.mem_some_iff, exists_eq_left']
    by_cases hb : set.Blocks cm (.domain name) port
    case pos => simp [hb]
    case neg =>
      by_cases hd : set.Directs cm (.domain name) port
      case pos => simp [hb, hd]
      case neg => simp [hb, hd]

-- A name sends a connection to a blocked address around the tunnel.
def splitRules : RuleSet where
  block := [.net (v4Block (.new 10 0 0 0) 8)]
  direct := [.domainSuffix "a.b".toList]

theorem not_block_wins : ¬ (BlockMatches .ascii splitRules (.ip (.v4 (.new 10 1 2 3))) (some "a.b".toList) 443 →
      decideRoute .ascii splitRules (.ip (.v4 (.new 10 1 2 3))) (some "a.b".toList) 443 = .block) := by
  intro h
  have hd : decideRoute .ascii splitRules (.ip (.v4 (.new 10 1 2 3))) (some "a.b".toList) 443 = .direct := by
    decide +kernel
  have hm : (Matcher.net (v4Block (.new 10 0 0 0) 8)).matchesAt .ascii (.ip (.v4 (.new 10 1 2 3))) 443 := by
    decide +kernel
  cases hd.symm.trans (h (.inr ⟨_, List.mem_singleton_self _, hm⟩))

inductive SameHost : Target → Target → Prop
  | literal {name : Text} {ip : IpAddr} : parseIp name = some ip → SameHost (.domain name) (.ip ip)
  | mapped {ip : Ipv6Addr} {v4 : Ipv4Addr} :
    ip.toIpv4Mapped = some v4 → SameHost (.ip (.v6 ip)) (.ip (.v4 v4))
  | trailingDot (name : Text) : SameHost (.domain name) (.domain (name ++ ['.']))
  | asciiCase {name name' : Text} :
    Text.eqIgnoreAsciiCase name name' → SameHost (.domain name) (.domain name')
  | symm {t t' : Target} : SameHost t t' → SameHost t' t
  | trans {t t' t'' : Target} : SameHost t t' → SameHost t' t'' → SameHost t t''

structure Respelled where
  first : Target
  second : Target
  same : SameHost first second

-- The host that the decision on a CONNECT request rests on.
def seenAs (cm : CaseMap) (set : RuleSet) (sniffEnabled : Bool) (target : Target) (port : UInt16)
    (head : Bytes) : Host :=
  restsOn cm set target (named cm set sniffEnabled target head) port

theorem connectAction_eq {sniffEnabled : Bool} {head : Bytes} : connectAction cm set sniffEnabled target port head =
      set.decide cm (seenAs cm set sniffEnabled target port head) port :=
  decideRoute_eq

-- No name that is another spelling of an address is that of the own host.
def isLocal : Target → Prop
  | .domain name => Text.trimEndMatches '.' (name.map Char.toLower) = "localhost".toList
  | .ip _ => False

theorem isAddrChar_toLower {c : Char} (h : Reader.isAddrChar c) : Reader.isAddrChar c.toLower := by
  simp only [Reader.isAddrChar, Bool.or_eq_true, decide_eq_true_eq] at h
  obtain (h | rfl) | rfl := h
  case inl.inl => simp [Reader.isAddrChar, IsV6Block.toDigit_toLower h]
  all_goals rfl

theorem SameHost.isLocal_iff {t t' : Target} (h : SameHost t t') : isLocal t ↔ isLocal t' := by
  induction h
  case literal name ip h =>
    refine iff_of_false (fun hl => ?_) id
    have hm : 'l' ∈ Text.trimEndMatches '.' (name.map Char.toLower) := hl ▸ by decide
    obtain ⟨c, hc, hl⟩ := List.mem_map.mp ((List.rdropWhile_prefix ..).subset hm)
    have ha := isAddrChar_toLower (isAddrChar_of_parseIp h c hc)
    rw [hl] at ha
    cases ha
  case mapped => rfl
  case trailingDot name => simp [isLocal, Text.trimEndMatches]
  case asciiCase h => rw [isLocal, isLocal, of_decide_eq_true h]
  case symm ih => exact ih.symm
  case trans ih ih' => exact ih.trans ih'

theorem not_local (h : SameHost (.domain name) (.ip ip)) : ¬ Text.eqIgnoreAsciiCase name "localhost".toList := by
  intro hn
  refine h.isLocal_iff.mp ?_
  rw [isLocal, of_decide_eq_true hn]
  decide +kernel

-- The name that is read behind an address, if a rule matches it.
def known (cm : CaseMap) (set : RuleSet) (port : UInt16) (sniffed : Option Text) : Option Text :=
  sniffed.filter fun name => set.Blocks cm (.domain name) port ∨ set.Directs cm (.domain name) port

theorem restsOn_known : restsOn cm set (.ip ip) sniffed port = (known cm set port sniffed).elim (.ip ip) .domain := by
  unfold known
  cases sniffed
  case none => rfl
  case some name =>
    simp only [restsOn, Option.filter_some, decide_eq_true_eq]
    split
    case isTrue => rfl
    case isFalse => rfl

-- The rules have the same to say about two spellings. Behind an address a name may be read, and then
-- the rules see that.
def SpeltAlike (cm : CaseMap) (set : RuleSet) (sniffEnabled : Bool) (port : UInt16) (head : Bytes) :
    Target → Target → Prop
  | .domain name, .domain name' => set.NamesAgree cm port name name'
  | .domain name, .ip ip | .ip ip, .domain name =>
    match known cm set port (named cm set sniffEnabled (.ip ip) head) with
    | some sniffed => set.NamesAgree cm port name sniffed
    | none => set.LiteralAgrees cm port name ip
  | .ip ip, .ip ip' =>
    known cm set port (named cm set sniffEnabled (.ip ip) head) = none → set.AddressesAgree port ip ip'

theorem seenAs_domain {sniffEnabled : Bool} {head : Bytes} :
    seenAs cm set sniffEnabled (.domain name) port head = .domain name := by
  simp [seenAs, named, sniffs, restsOn, hostOf]

-- Both requests are followed by the same bytes. Without sniffing this is also the decision on a
-- datagram.
theorem connectAction_respelled_iff (cm : CaseMap) (set : RuleSet) (sniffEnabled : Bool) (r : Respelled)
    (port : UInt16) (head : Bytes) :
    connectAction cm set sniffEnabled r.first port head = connectAction cm set sniffEnabled r.second port head ↔
      SpeltAlike cm set sniffEnabled port head r.first r.second := by
  obtain ⟨first, second, same⟩ := r
  rw [connectAction_eq, connectAction_eq]
  cases first
  case domain name =>
    rw [seenAs_domain]
    cases second
    case domain name' => rw [seenAs_domain, RuleSet.decide_names, SpeltAlike]
    case ip ip =>
      rw [seenAs, restsOn_known, SpeltAlike]
      cases known cm set port (named cm set sniffEnabled (.ip ip) head)
      case none => exact RuleSet.decide_literal (not_local same)
      case some sniffed => exact RuleSet.decide_names
  case ip ip =>
    rw [seenAs, restsOn_known]
    cases second
    case domain name =>
      rw [seenAs_domain, SpeltAlike, eq_comm]
      cases known cm set port (named cm set sniffEnabled (.ip ip) head)
      case none => exact RuleSet.decide_literal (not_local same.symm)
      case some sniffed => exact RuleSet.decide_names
    case ip ip' =>
      have hn : named cm set sniffEnabled (.ip ip') head = named cm set sniffEnabled (.ip ip) head := rfl
      rw [seenAs, restsOn_known, SpeltAlike, hn]
      cases known cm set port (named cm set sniffEnabled (.ip ip) head)
      case none => simpa using RuleSet.decide_addresses
      case some sniffed => simp

def lanRules : RuleSet where
  block := [.net (v4Block (.new 10 0 0 0) 8)]

def lanHost : Respelled where
  first := .domain "10.0.0.1".toList
  second := .ip (.v4 (.new 10 0 0 1))
  same := .literal (by decide +kernel)

theorem not_connectAction_respelled : ¬ connectAction .ascii lanRules true lanHost.first 80 [] =
      connectAction .ascii lanRules true lanHost.second 80 [] := by
  have hf : connectAction .ascii lanRules true lanHost.first 80 [] = .proxy := by decide +kernel
  have hs : connectAction .ascii lanRules true lanHost.second 80 [] = .block := by decide +kernel
  rw [hf, hs]
  exact nofun

def namedRules : RuleSet where
  block := [.domainFull "a.bc".toList]

end Socks

end Engine
