import SoildTunnel.Engine.Socks.Associate

-- An association serves one client, whatever arrives at its sockets.
namespace Engine.Socks

open Rust List Option

theorem normalizeIp_idem (ip : IpAddr) : normalizeIp (normalizeIp ip) = normalizeIp ip := by
  cases ip
  case v4 => rfl
  case v6 ip =>
    cases h : ip.toIpv4Mapped
    case none => simp [normalizeIp, h]
    case some => simp [normalizeIp, h]

theorem normalizeIp_expectedUdpSource (controlPeer : SocketAddr) (requested : Target) :
    normalizeIp (expectedUdpSource controlPeer requested) = expectedUdpSource controlPeer requested := by
  cases requested
  case ip ip => simp only [expectedUdpSource]; split <;> exact normalizeIp_idem _
  case domain => exact normalizeIp_idem _

namespace UdpEvent

def forwardedFor : UdpEvent → Option SocketAddr
  | .tunnelled source .. | .direct source .. => some source
  | .arrived .. | .replied .. => none

def repliedTo : UdpEvent → Option SocketAddr
  | .replied dst _ => some dst
  | .arrived .. | .tunnelled .. | .direct .. => none

-- A reply only goes to where a datagram has come from before.
def Solicited (events : List UdpEvent) : Prop :=
  ∀ pre e post, events = pre ++ e :: post → ∀ dst ∈ e.repliedTo, ∃ datagram, .arrived dst datagram ∈ pre

theorem Solicited.append {events new : List UdpEvent} (h : Solicited events)
    (hn : ∀ e ∈ new, ∀ dst ∈ e.repliedTo, ∃ datagram, .arrived dst datagram ∈ events) :
    Solicited (events ++ new) := by
  intro pre e post he dst hd
  obtain ⟨as, rfl, hb⟩ | ⟨cs, rfl, hb⟩ := append_eq_append_iff.mp he
  case inl =>
    obtain ⟨datagram, hm⟩ := hn e (by simp [hb]) dst hd
    exact ⟨datagram, mem_append_left _ hm⟩
  case inr =>
    cases cs
    case nil =>
      obtain ⟨datagram, hm⟩ := hn e (by rw [← nil_append new, ← hb]; simp) dst hd
      exact ⟨datagram, by simpa using hm⟩
    case cons c cs =>
      obtain ⟨rfl, -⟩ := List.cons.inj hb
      exact h pre e cs rfl dst hd

end UdpEvent

namespace Association

variable {cm : CaseMap} {set : RuleSet} {expected : IpAddr} {s s' : Association} {l : AssociationLabel}

-- What is forwarded comes from one address, with the expected IP, and what is sent back goes there
-- after it has shown itself.
structure Exclusive (expected : IpAddr) (events : List UdpEvent) : Prop where
  client : ∃ client : SocketAddr, normalizeIp client.ip = expected ∧
    (∀ e ∈ events, ∀ source ∈ e.forwardedFor, source = client) ∧
    (∀ e ∈ events, ∀ dst ∈ e.repliedTo, dst = client)
  known : UdpEvent.Solicited events

structure Latched (expected : IpAddr) (s : Association) : Prop where
  expectedIp : s.expectedIp = expected
  normal : normalizeIp expected = expected
  client : ∀ client ∈ s.client, normalizeIp client.ip = expected ∧ ∃ datagram, .arrived client datagram ∈ s.events
  forwarded : ∀ e ∈ s.events, ∀ source ∈ e.forwardedFor, s.client = some source
  replied : ∀ e ∈ s.events, ∀ dst ∈ e.repliedTo, s.client = some dst
  known : UdpEvent.Solicited s.events

theorem Latched.exclusive (h : Latched expected s) : Exclusive expected s.events := by
  cases hc : s.client
  case none =>
    refine ⟨⟨⟨expected, 0⟩, h.normal, fun e he source hs => ?_, fun e he dst hd => ?_⟩, h.known⟩
    · cases hc.symm.trans (h.forwarded e he source hs)
    · cases hc.symm.trans (h.replied e he dst hd)
  case some client =>
    refine ⟨⟨client, (h.client client hc).1, fun e he source hs => ?_, fun e he dst hd => ?_⟩, h.known⟩
    · exact (some_inj.mp (hc.symm.trans (h.forwarded e he source hs))).symm
    · exact (some_inj.mp (hc.symm.trans (h.replied e he dst hd))).symm

theorem Latched.append (h : Latched expected s) (new : List UdpEvent)
    (hf : ∀ e ∈ new, ∀ source ∈ e.forwardedFor, s.client = some source)
    (hr : ∀ e ∈ new, ∀ dst ∈ e.repliedTo, s.client = some dst) :
    Latched expected { s with events := s.events ++ new } where
  expectedIp := h.expectedIp
  normal := h.normal
  client c hc := by
    obtain ⟨hn, datagram, hm⟩ := h.client c hc
    exact ⟨hn, datagram, mem_append_left _ hm⟩
  forwarded e he := (mem_append.mp he).elim (h.forwarded e) (hf e)
  replied e he := (mem_append.mp he).elim (h.replied e) (hr e)
  known := h.known.append fun e he dst hd => (h.client dst (hr e he dst hd)).2

variable {source : SocketAddr} {datagram : Bytes}

theorem forward_for {found : Option SocketAddr} :
    ∀ e ∈ forward cm set source found datagram, e.forwardedFor = some source ∧ e.repliedTo = none := by
  intro e he
  simp only [forward] at he
  split at he
  case h_1 => cases he
  case h_2 dst port payload _ =>
    split at he
    case h_1 => cases he
    case h_2 =>
      simp only [mem_toList, map_eq_some_iff] at he
      obtain ⟨addr, -, rfl⟩ := he
      exact ⟨rfl, rfl⟩
    case h_3 =>
      rw [mem_singleton.mp he]
      exact ⟨rfl, rfl⟩

theorem Latched.latch (h : Latched expected s)
    (ha : udpSourceAllowed s.expectedIp s.client source) (hm : .arrived source datagram ∈ s.events) :
    s.client.or (some source) = some source ∧
      Latched expected { s with client := s.client.or (some source) } := by
  cases hc : s.client
  case some client =>
    obtain rfl : client = source := by simpa [udpSourceAllowed, hc] using ha
    refine ⟨rfl, ?_⟩
    simpa [← hc] using h
  case none =>
    have hn : normalizeIp source.ip = expected := by
      simpa [udpSourceAllowed, hc, h.expectedIp, h.normal] using ha
    refine ⟨rfl, h.expectedIp, h.normal, ?_, fun e he _ hs => ?_, fun e he _ hd => ?_, h.known⟩
    · rintro client ⟨rfl⟩
      exact ⟨hn, datagram, hm⟩
    · cases hc.symm.trans (h.forwarded e he _ hs)
    · cases hc.symm.trans (h.replied e he _ hd)

theorem Latched.fromRelay {found : Option SocketAddr}
    (h : Latched expected s) : Latched expected (s.fromRelay cm set source datagram found) := by
  have ha := h.append [.arrived source (datagram.take BUFFER)]
    (by simp [UdpEvent.forwardedFor]) (by simp [UdpEvent.repliedTo])
  simp only [Association.fromRelay]
  split
  case isTrue hs =>
    obtain ⟨hc, hl⟩ := ha.latch hs (mem_append_right _ (mem_singleton_self _))
    refine hl.append _ (fun e he source' hf => ?_) (fun e he dst hd => ?_)
    · rw [(forward_for e he).1, mem_some_iff] at hf
      exact hf ▸ hc
    · rw [(forward_for e he).2] at hd
      cases hd
  case isFalse => exact { ha with }

theorem Latched.reply {src : SocketAddr} {data : Bytes} (h : Latched expected s) :
    Latched expected (s.reply src data) := by
  unfold Association.reply
  split
  case h_1 client hc =>
    refine h.append _ (by simp [UdpEvent.forwardedFor]) ?_
    simp [UdpEvent.repliedTo, hc]
  case h_2 => exact h

theorem Latched.step (h : Latched expected s) (hs : s.step cm set l = some s') : Latched expected s' := by
  unfold Association.step at hs
  obtain ⟨-, hs⟩ := ite_none_left_eq_some.mp hs
  cases hs
  cases l
  case relay => exact h.fromRelay
  case stack | direct => exact h.reply
  case directFailed => exact h
  case relayFailed | stackClosed | control => exact { h with }

theorem always_exclusive (cm : CaseMap) (set : RuleSet) (controlPeer : SocketAddr) (requested : Target)
    (ls : List AssociationLabel) :
    Lts.Always (step cm set) (fun s => Exclusive (expectedUdpSource controlPeer requested) s.events)
      (init controlPeer requested) ls := by
  refine Lts.always_iff.mpr fun ls₁ _ s _ hx => Latched.exclusive ?_
  refine Lts.exec_invariant (fun _ _ _ h hs => h.step hs) ?_ hx
  have hs : UdpEvent.Solicited [] := fun pre e post h => by simp at h
  exact ⟨rfl, normalizeIp_expectedUdpSource .., by simp [init], by simp [init], by simp [init], hs⟩

end Association

end Engine.Socks
