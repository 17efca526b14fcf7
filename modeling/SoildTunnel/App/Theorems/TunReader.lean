import SoildTunnel.App.TunReader

-- A session or a payload in a queue comes from a transport header, unless the packet is an IPv4 packet whose header
-- the reader does not look at closely enough.
namespace App.TunBridge

open Option

section Format

variable (packet : Bytes)

def byte (i : Nat) : Nat := (packet.getD i 0).toNat

def short (i : Nat) : Nat := byte packet i * 256 + byte packet (i + 1)

def version : Nat := byte packet 0 / 16
def headerLength : Nat := byte packet 0 % 16 * 4
def fragmentOffset : Nat := short packet 6 % 8192

structure Transport where
  proto : Nat
  srcPort : Nat
  dstPort : Nat
deriving DecidableEq

def portsAt (proto o : Nat) : Option Transport :=
  if (proto = 6 ∨ proto = 17) ∧ o + 4 ≤ packet.length then some ⟨proto, short packet o, short packet (o + 2)⟩
  else none

-- The extension headers of IPv6. After the header of a fragment that is not the first one comes the middle of a
-- segment or datagram.
def afterExtensions (next o : Nat) : Nat × Nat :=
  if o + 8 ≤ packet.length then
    if next = 0 ∨ next = 43 ∨ next = 60 ∨ next = 135 then
      afterExtensions (byte packet o) (o + (byte packet (o + 1) + 1) * 8)
    else if next = 44 ∧ short packet (o + 2) / 8 = 0 then
      afterExtensions (byte packet o) (o + 8)
    else (next, o)
  else (next, o)
termination_by packet.length - o

-- The transport header that a packet has, by the formats of IPv4 and IPv6.
def transport? : Option Transport :=
  if version packet = 4 ∧ 20 ≤ packet.length ∧ 20 ≤ headerLength packet ∧ fragmentOffset packet = 0 then
    portsAt packet (byte packet 9) (headerLength packet)
  else if version packet = 6 ∧ 40 ≤ packet.length then
    let (next, o) := afterExtensions packet (byte packet 6) 40
    portsAt packet next o
  else
    none

end Format

def FlowEvent.key : FlowEvent → FlowKey
  | created key | queued key => key

def Carries (packet : Bytes) (key : FlowKey) : Prop :=
  transport? packet = some ⟨key.proto, key.srcPort, key.dstPort⟩
deriving Decidable

def flagsAt (packet : Bytes) (o : Nat) : UInt8 := packet.getD (o + 13) 0

def LooksLikeTcp (packet : Bytes) (o : Nat) : Prop :=
  o + 20 ≤ packet.length ∧
  (isPureSyn (flagsAt packet o) ∨
    o + byte packet (o + 12) / 16 * 4 < packet.length ∧ flagsAt packet o &&& RST = 0 ∧ flagsAt packet o &&& FIN = 0)

-- An IPv4 packet with a header that is too short, or without the start of its segment or datagram, which is taken
-- for a segment or datagram.
def Strays (packet : Bytes) : Prop :=
  version packet = 4 ∧ 20 ≤ packet.length ∧ (headerLength packet < 20 ∨ fragmentOffset packet ≠ 0) ∧
  (byte packet 9 = 6 ∧ LooksLikeTcp packet (headerLength packet) ∨
    byte packet 9 = 17 ∧ headerLength packet + 8 ≤ packet.length)

section Bytes

variable {packet : Bytes} {i : Nat}

theorem getElem?_eq_getD (h : i < packet.length) : packet[i]? = some (packet.getD i 0) := by
  simp [h]

theorem getShort_eq (h : i + 2 ≤ packet.length) : getShort packet i = some (short packet i) := by
  unfold getShort
  rw [getElem?_eq_getD (by omega), getElem?_eq_getD (by omega)]
  rfl

theorem getLong_eq (h : i + 4 ≤ packet.length) :
    getLong packet i = some (short packet i * 0x10000 + short packet (i + 2)) := by
  unfold getLong
  rw [getShort_eq (by omega), getShort_eq (by omega)]
  rfl

theorem getInt_eq (h : i + 4 ≤ packet.length) :
    getInt packet i = some (short packet i * 0x10000 + short packet (i + 2)).toUInt32 := by
  unfold getInt
  rw [getShort_eq (by omega), getShort_eq (by omega)]
  rfl

end Bytes

def Adds (s s' : Reader) (p : FlowEvent → Prop) : Prop :=
  ∃ new, s'.events = s.events ++ new ∧ ∀ e ∈ new, p e

namespace Adds

variable {s s' : Reader} {p q : FlowEvent → Prop}

theorem nothing (h : s'.events = s.events) : Adds s s' p :=
  ⟨[], by simp [h], by simp⟩

theorem one {e : FlowEvent} (h : s'.events = s.events ++ [e]) (he : p e) : Adds s s' p :=
  ⟨[e], h, by simpa using he⟩

theorem of_events {t : Reader} (h : Adds t s' p) (ht : t.events = s.events) : Adds s s' p := by
  unfold Adds
  rwa [← ht]

theorem mono (h : Adds s s' p) (hp : ∀ e, p e → q e) : Adds s s' q := by
  obtain ⟨new, hs, hn⟩ := h
  exact ⟨new, hs, fun e he => hp e (hn e he)⟩

end Adds

namespace Reader

variable {env : Surroundings} {s s' : Reader} {packet : Bytes} {key : FlowKey} {o : Nat}

section Tcp

variable {seq : Nat} {flags : UInt8} {payload : Option Bytes}

theorem newTcp_adds : Adds s (s.newTcp env key seq flags) fun e => e.key = key ∧ isPureSyn flags := by
  unfold newTcp
  split
  case isFalse => exact .nothing rfl
  case isTrue hf =>
    dsimp only
    split
    case isTrue => exact .nothing rfl
    case isFalse => exact .one rfl ⟨rfl, hf⟩

theorem handleFromTun_queue {t : TcpSession} (h : (t.handleFromTun seq payload flags).1.queue.items ≠ t.queue.items) :
    payload ≠ none ∧ flags &&& RST = 0 ∧ flags &&& FIN = 0 := by
  unfold TcpSession.handleFromTun TcpSession.accept at h
  split at h <;> try contradiction
  split at h <;> try contradiction
  split at h
  case isFalse => split at h <;> contradiction
  case isTrue =>
    split at h
    case isTrue => split at h <;> contradiction
    case isFalse =>
      cases payload
      case none => contradiction
      case some => exact ⟨by simp, by simp_all, by simp_all⟩

theorem handleTcp_adds {t : TcpEntry} : Adds s (s.handleTcp env key t seq payload flags) fun e =>
    e.key = key ∧ payload ≠ none ∧ flags &&& RST = 0 ∧ flags &&& FIN = 0 := by
  by_cases h : (t.tcp.handleFromTun seq payload flags).1.queue.items = t.tcp.queue.items
  case pos => exact .nothing (by simp [handleTcp, h])
  case neg =>
    have he : (s.handleTcp env key t seq payload flags).events = s.events ++ [.queued key] := by
      simp [handleTcp, h]
    exact .one he ⟨rfl, handleFromTun_queue h⟩

theorem and_f0_shiftRight (b : UInt8) : ((b &&& 0xf0) >>> 2).toNat = b.toNat / 16 * 4 := by
  revert b
  decide +kernel

theorem processTcp_eq (h : o + 20 ≤ packet.length) : s.processTcp env packet o key =
    let flags := flagsAt packet o
    let seq := short packet (o + 4) * 0x10000 + short packet (o + 4 + 2)
    let data := o + byte packet (o + 12) / 16 * 4
    some (match s.tcpSessions key with
    | some session =>
      if isPureSyn flags && !session.tcp.connected then
        if session.isStaleUnconnected env.now then (s.removeTcp key).newTcp env key seq flags else s
      else if env.isUidBlocked session.uid then s.removeTcp key
      else s.handleTcp env key session seq (if data < packet.length then some (packet.drop data) else none) flags
    | none => s.newTcp env key seq flags) := by
  unfold processTcp
  have hf : packet[o + 13]? = some (flagsAt packet o) := getElem?_eq_getD (by omega)
  rw [hf, getLong_eq (show o + 4 + 4 ≤ _ by omega)]
  cases s.tcpSessions key
  case none => rfl
  case some session =>
    simp only [bind_eq_bind, bind_some]
    split
    case isTrue => split <;> rfl
    case isFalse =>
      split
      case isTrue => rfl
      case isFalse =>
        rw [getElem?_eq_getD (show o + 12 < _ by omega)]
        simp only [bind_some, and_f0_shiftRight, byte]
        rfl

theorem processTcp_adds (hl : o + 20 ≤ packet.length) (h : s.processTcp env packet o key = some s') :
    Adds s s' fun e => e.key = key ∧ LooksLikeTcp packet o := by
  rw [processTcp_eq hl, some_inj] at h
  subst h
  split
  case h_2 => exact newTcp_adds.mono fun e he => ⟨he.1, hl, .inl he.2⟩
  case h_1 session _ =>
    split
    case isTrue =>
      split
      case isTrue => exact (newTcp_adds.of_events rfl).mono fun e he => ⟨he.1, hl, .inl he.2⟩
      case isFalse => exact .nothing rfl
    case isFalse =>
      split
      case isTrue => exact .nothing rfl
      case isFalse =>
        refine handleTcp_adds.mono fun e he => ⟨he.1, hl, .inr ⟨?_, he.2.2⟩⟩
        by_contra hd
        simp [hd] at he

end Tcp

section Udp

variable {payload dstIp : Bytes}

theorem queueUdp_adds {u : UdpEntry} : Adds s (s.queueUdp key u payload) fun e => e.key = key := by
  unfold queueUdp
  split
  case isTrue => exact .nothing rfl
  case isFalse =>
    split
    case h_1 => exact .one rfl rfl
    case h_2 => exact .nothing rfl

theorem forwardUdp_adds : Adds s (s.forwardUdp env key payload) fun e => e.key = key := by
  unfold forwardUdp
  split
  case h_1 =>
    split
    case isTrue => exact .nothing rfl
    case isFalse => exact queueUdp_adds
  case h_2 =>
    dsimp only
    split
    case isTrue => exact .nothing rfl
    case isFalse =>
      obtain ⟨new, hs, hn⟩ := queueUdp_adds
      refine ⟨.created key :: new, by rw [hs]; simp, ?_⟩
      simpa using ⟨rfl, hn⟩

theorem processUdp_adds : Adds s (s.processUdp env packet o key dstIp) fun e => e.key = key := by
  unfold processUdp
  dsimp only
  split
  case h_1 => exact .nothing rfl
  case h_2 =>
    split
    case isTrue => exact forwardUdp_adds.of_events rfl
    case isFalse => exact forwardUdp_adds

end Udp

section Ipv4

def ipv4Key (packet : Bytes) : FlowKey :=
  let srcIp := short packet 12 * 0x10000 + short packet 14
  let dstIp := short packet 16 * 0x10000 + short packet 18
  .v4 (byte packet 9) srcIp.toUInt32 (short packet (headerLength packet)) dstIp.toUInt32
    (short packet (headerLength packet + 2))

structure Ipv4Header (packet : Bytes) (proto size : Nat) : Prop where
  length : 20 ≤ packet.length
  proto_eq : byte packet 9 = proto
  fits : headerLength packet + size ≤ packet.length

theorem processIpv4_eq {proto size : Nat} (h : Ipv4Header packet proto size)
    (hp : proto = 6 ∧ size = 20 ∨ proto = 17 ∧ size = 8) : s.processIpv4 env packet =
      if proto = 6 then s.processTcp env packet (headerLength packet) (ipv4Key packet)
      else some (s.processUdp env packet (headerLength packet) (ipv4Key packet) (copyOfRange packet 16 20)) := by
  obtain ⟨h, hb, hl⟩ := h
  have hh : (packet.getD 0 0).toNat % 16 * 4 = headerLength packet := rfl
  have hd : (packet.getD 9 0).toNat = proto := hb
  unfold processIpv4
  rw [if_neg (by omega), getElem?_eq_getD (show 9 < _ by omega), getElem?_eq_getD (show 0 < _ by omega)]
  simp only [bind_eq_bind, bind_some, hd, hh]
  rw [getInt_eq (by omega), getInt_eq (by omega), getShort_eq (by omega), getShort_eq (by omega)]
  have hn : ¬ packet.length < headerLength packet := by omega
  obtain ⟨rfl, rfl⟩ | ⟨rfl, rfl⟩ := hp
  all_goals simp [hb, ipv4Key, hn, not_lt.mpr hl]

theorem processIpv4_some (h : s.processIpv4 env packet = some s') :
    Ipv4Header packet 6 20 ∨ Ipv4Header packet 17 8 := by
  unfold processIpv4 at h
  obtain ⟨hl, h⟩ := ite_none_left_eq_some.mp h
  rw [getElem?_eq_getD (show 9 < _ by omega), getElem?_eq_getD (show 0 < _ by omega)] at h
  simp only [bind_eq_bind, bind_some] at h
  obtain ⟨hp, h⟩ := ite_none_left_eq_some.mp h
  obtain ⟨-, h⟩ := ite_none_left_eq_some.mp h
  rw [getInt_eq (by omega), getInt_eq (by omega)] at h
  simp only [bind_some] at h
  by_cases h6 : (packet.getD 9 0).toNat = 6
  case pos =>
    refine .inl ⟨by omega, h6, ?_⟩
    by_contra hf
    unfold headerLength byte at hf
    rw [if_pos h6, if_pos (not_le.mp hf)] at h
    cases h
  case neg =>
    refine .inr ⟨by omega, by unfold byte; omega, ?_⟩
    by_contra hf
    unfold headerLength byte at hf
    rw [if_neg h6, if_pos (not_le.mp hf)] at h
    cases h

theorem processIpv4_adds (h : s.processIpv4 env packet = some s') : Adds s s' fun e => e.key = ipv4Key packet ∧
      (Ipv4Header packet 6 20 ∧ LooksLikeTcp packet (headerLength packet) ∨ Ipv4Header packet 17 8) := by
  obtain ht | hu := processIpv4_some h
  case inl =>
    rw [processIpv4_eq ht (.inl ⟨rfl, rfl⟩), if_pos rfl] at h
    exact (processTcp_adds ht.fits h).mono fun e he => ⟨he.1, .inl ⟨ht, he.2⟩⟩
  case inr =>
    rw [processIpv4_eq hu (.inr ⟨rfl, rfl⟩), if_neg (by decide), some_inj] at h
    subst h
    exact processUdp_adds.mono fun e he => ⟨he, .inr hu⟩

theorem transport?_ipv4 (hv : version packet = 4) (hi : 20 ≤ headerLength packet) (ho : fragmentOffset packet = 0)
    (h : Ipv4Header packet 6 20 ∨ Ipv4Header packet 17 8) : Carries packet (ipv4Key packet) := by
  have hl : 20 ≤ packet.length := h.elim (·.length) (·.length)
  have hp : byte packet 9 = 6 ∨ byte packet 9 = 17 := h.imp (·.proto_eq) (·.proto_eq)
  have hf : headerLength packet + 4 ≤ packet.length := by
    obtain h | h := h
    all_goals have := h.fits; omega
  unfold Carries transport? portsAt
  rw [if_pos ⟨hv, hl, hi, ho⟩, if_pos ⟨hp, hf⟩]
  rfl

end Ipv4

section Ipv6

theorem ipv6Headers_eq_some {next o proto o' : Nat} (h : ipv6Headers packet next o = some (proto, o'))
    (hl : o' + 4 ≤ packet.length) :
    (proto = 6 ∨ proto = 17) ∧ o ≤ o' ∧ afterExtensions packet next o = (proto, o') := by
  induction next, o using ipv6Headers.induct packet
  case case1 next o hn =>
    unfold ipv6Headers at h
    rw [if_pos hn] at h
    cases h
    unfold afterExtensions
    obtain rfl | rfl := hn
    all_goals simp
  case case2 next o hn hx ho =>
    unfold ipv6Headers at h
    rw [if_neg hn, if_pos hx, if_pos ho] at h
    cases h
  case case3 next o hn hx ho b len hlen hb ih =>
    unfold ipv6Headers at h
    rw [if_neg hn, if_pos hx, if_neg ho, hb, hlen] at h
    obtain ⟨hp, hle, ha⟩ := ih h
    refine ⟨hp, by omega, ?_⟩
    have hb' : byte packet o = b.toNat := by simp [byte, List.getD, hb]
    have hl' : byte packet (o + 1) = len.toNat := by simp [byte, List.getD, hlen]
    unfold afterExtensions
    rw [if_pos (by omega), if_pos hx, hb', hl', ha]
  case case4 next o hn hx ho hb =>
    unfold ipv6Headers at h
    rw [if_neg hn, if_pos hx, if_neg ho, getElem?_eq_getD (by omega), getElem?_eq_getD (by omega)] at h
    exact (hb _ _ (getElem?_eq_getD (by omega)) (getElem?_eq_getD (by omega))).elim
  case case5 next o hn hx =>
    unfold ipv6Headers at h
    rw [if_neg hn, if_neg hx] at h
    cases h

theorem ipv6Transport_eq_some {proto o : Nat} (h : ipv6Transport packet = some (proto, o))
    (hl : o + 4 ≤ packet.length) :
    40 ≤ packet.length ∧ (proto = 6 ∨ proto = 17) ∧ afterExtensions packet (byte packet 6) 40 = (proto, o) := by
  unfold ipv6Transport at h
  obtain ⟨h40, h⟩ := ite_none_left_eq_some.mp h
  rw [getElem?_eq_getD (by omega), bind_some] at h
  obtain ⟨hp, -, ha⟩ := ipv6Headers_eq_some h hl
  exact ⟨by omega, hp, ha⟩

theorem processIpv6_adds (hv : version packet = 6) (h : s.processIpv6 env packet = some s') :
    Adds s s' fun e => Carries packet e.key := by
  unfold processIpv6 at h
  obtain ⟨⟨proto, o⟩, ht, h⟩ := bind_eq_some_iff.mp h
  obtain ⟨srcIp, -, h⟩ := bind_eq_some_iff.mp h
  obtain ⟨dstIp, -, h⟩ := bind_eq_some_iff.mp h
  split at h
  case isTrue => cases h
  case isFalse hl =>
    rw [getShort_eq (by omega), getShort_eq (by omega)] at h
    have hc : Carries packet (.v6 proto srcIp (short packet o) dstIp (short packet (o + 2))) := by
      obtain ⟨h40, hp, ha⟩ := ipv6Transport_eq_some ht (by omega)
      unfold Carries transport? portsAt
      rw [if_neg (by omega), if_pos ⟨hv, h40⟩, ha]
      exact if_pos ⟨hp, by omega⟩
    simp only [bind_eq_bind, bind_some] at h
    split at h
    case isTrue =>
      split at h
      case isTrue => cases h
      case isFalse => exact (processTcp_adds (by omega) h).mono fun e he => he.1 ▸ hc
    case isFalse =>
      split at h
      case isFalse => cases h
      case isTrue =>
        split at h
        case isTrue => cases h
        case isFalse =>
          cases h
          exact processUdp_adds.mono fun e he => he ▸ hc

end Ipv6

section Packet

variable (env s) in
theorem processPacket_adds (h : ¬ Strays packet) : Adds s (s.processPacket env packet) fun e => Carries packet e.key := by
  unfold processPacket
  split
  case h_1 => exact .nothing rfl
  case h_2 b hb =>
    have hv : b.toNat / 16 = version packet := by simp [version, byte, List.getD, hb]
    rw [hv]
    split
    case isTrue h4 =>
      cases hp : s.processIpv4 env packet
      case none => exact .nothing rfl
      case some s' =>
        refine (processIpv4_adds hp).mono fun e he => ?_
        obtain ⟨he, ha⟩ := he
        rw [he]
        have hh : Ipv4Header packet 6 20 ∨ Ipv4Header packet 17 8 := ha.imp_left And.left
        have hn : ¬ (headerLength packet < 20 ∨ fragmentOffset packet ≠ 0) := by
          intro hn
          have hl : 20 ≤ packet.length := hh.elim (·.length) (·.length)
          exact h ⟨h4, hl, hn, ha.imp (fun a => ⟨a.1.proto_eq, a.2⟩) fun a => ⟨a.proto_eq, a.fits⟩⟩
        exact transport?_ipv4 h4 (by omega) (by omega) hh
    case isFalse =>
      split
      case isFalse => exact .nothing rfl
      case isTrue h6 =>
        cases hp : s.processIpv6 env packet
        case none => exact .nothing rfl
        case some => exact processIpv6_adds h6 hp

theorem not_carries_of_strays (h : Strays packet) (key : FlowKey) : ¬ Carries packet key := by
  obtain ⟨hv, -, hn, -⟩ := h
  unfold Carries transport?
  rw [if_neg (by omega), if_neg (by omega)]
  nofun

def calm : Surroundings where
  settings := ⟨⟨fun _ => [], id⟩, .empty, fun _ _ => none, false⟩
  mtu := 1280
  ownerUid _ := -1
  blockedUids _ := false
  now := 0
  mySeq := 100000

def waiting (key : FlowKey) (seq : Nat) : Reader where
  tcpSessions := Function.update (fun _ => none) key (some ⟨.opened (seq + (2 ^ 32 - 1)) 100000, -1, 0⟩)

theorem seqMask_long : seqMask (short packet o * 0x10000 + short packet (o + 2) + 2 ^ 32) =
    short packet o * 0x10000 + short packet (o + 2) := by
  have hb (i : Nat) : byte packet i < 256 := UInt8.toNat_lt _
  have := hb o
  have := hb (o + 1)
  have := hb (o + 2)
  have := hb (o + 2 + 1)
  simp only [seqMask, short]
  omega

theorem processTcp_acts (key : FlowKey) (h : LooksLikeTcp packet o) :
    ∃ s s' : Reader, ∃ e, s.events = [] ∧ s.processTcp calm packet o key = some s' ∧ e ∈ s'.events := by
  obtain ⟨hl, hs | ⟨hd, hr, hf⟩⟩ := h
  case inl =>
    refine ⟨{}, _, .created key, rfl, processTcp_eq hl, ?_⟩
    simp [newTcp, hs, Surroundings.isUidBlocked, calm]
  case inr =>
    refine ⟨waiting key (short packet (o + 4) * 0x10000 + short packet (o + 4 + 2)), _, .queued key, rfl,
      processTcp_eq hl, ?_⟩
    have hn := @seqMask_long packet (o + 4)
    simp only [Nat.reducePow] at hn
    simp [waiting, handleTcp, Surroundings.isUidBlocked, calm, hd, TcpSession.handleFromTun, TcpSession.accept,
      TcpSession.opened, hn, hr, hf, Bounded.offer]

theorem processUdp_acts (key : FlowKey) (dstIp : Bytes) :
    .created key ∈ (({} : Reader).processUdp calm packet o key dstIp).events := by
  have hg : guardDns calm (packet.drop (o + 8)) dstIp = none := by
    unfold guardDns
    cases extractDomainName calm.settings.platform (packet.drop (o + 8))
    case none => rfl
    case some => rfl
  unfold processUdp
  simp only [hg, ite_self]
  split
  all_goals simp [sniffDns, forwardUdp, Surroundings.isUidBlocked, calm, queueUdp, Bounded.offer]

theorem acts_of_strays (h : Strays packet) :
    ∃ s : Reader, ∃ e, s.events = [] ∧ e ∈ (s.processPacket calm packet).events := by
  obtain ⟨hv, hl, -, ht⟩ := h
  have hp (s : Reader) : s.processPacket calm packet = (s.processIpv4 calm packet).getD s := by
    unfold processPacket
    rw [getElem?_eq_getD (show 0 < _ by omega)]
    exact if_pos hv
  obtain ⟨hb, ht⟩ | ⟨hb, hu⟩ := ht
  case inl =>
    obtain ⟨s, s', e, hs, h, he⟩ := processTcp_acts (ipv4Key packet) ht
    refine ⟨s, e, hs, ?_⟩
    rw [hp, processIpv4_eq ⟨hl, hb, ht.1⟩ (.inl ⟨rfl, rfl⟩), if_pos rfl, h]
    exact he
  case inr =>
    refine ⟨{}, .created (ipv4Key packet), rfl, ?_⟩
    rw [hp, processIpv4_eq ⟨hl, hb, hu⟩ (.inr ⟨rfl, rfl⟩), if_neg (by decide)]
    exact processUdp_acts _ _

end Packet

theorem processPacket_carries_iff (packet : Bytes) :
    (∀ env s, ∃ new, (processPacket env s packet).events = s.events ++ new ∧ ∀ e ∈ new, Carries packet e.key) ↔
      ¬ Strays packet := by
  constructor
  case mp =>
    intro h hs
    obtain ⟨s, e, he, hm⟩ := acts_of_strays hs
    obtain ⟨new, hn, hc⟩ := h calm s
    rw [hn, he, List.nil_append] at hm
    exact not_carries_of_strays hs e.key (hc e hm)
  case mpr => exact fun h env s => processPacket_adds env s h

def laterFragment : Bytes :=
  [0x45, 0, 0, 30, 0, 1, 0, 1, 64, 17, 0, 0, 10, 0, 0, 1, 8, 8, 8, 8] ++
    [0x47, 0x45, 0x54, 0x20, 0x2f, 0x20, 0x48, 0x54, 0x54, 0x50]

-- A session from port 18245 to port 21536 is made, and gets two bytes of the text.
theorem processPacket_laterFragment :
    let key := FlowKey.v4 17 0x0a000001 0x4745 0x08080808 0x5420
    fragmentOffset laterFragment = 1 ∧ transport? laterFragment = none ∧
      (processPacket calm {} laterFragment).events = [.created key, .queued key] := by
  refine ⟨rfl, ?_, rfl⟩
  simp [transport?, laterFragment, version, byte, fragmentOffset, short]

end Reader

end App.TunBridge
