import SoildTunnel.Engine.Outbound.Udp

-- When the applications that share a TUIC session are kept apart.
namespace Engine.Outbound

open Rust List Option

namespace FragmentBox

variable {τ : Type} {box box' : FragmentBox τ} {head : PacketHead} {payload : Bytes} {mark : τ}

theorem mem_marks {m : τ} : m ∈ box.joined.marks ↔ ∃ bytes, some (bytes, m) ∈ box.parts := by
  simp [joined, mem_filterMap]

theorem marks_new (total : UInt8) : (new total : FragmentBox τ).joined.marks = [] := by
  simp [new, joined]

theorem insert_eq_some (h : box.insert head payload mark = some box') :
    (box'.parts = box.parts ∧ ∃ part, box.parts[head.index.toNat]? = some (some part)) ∨
      head.index.toNat < box.parts.length ∧
        box'.parts = box.parts.set head.index.toNat (some (payload, mark)) := by
  obtain ⟨part, hp, h⟩ := map_eq_some_iff.mp h
  have hb : (if head.index = 0 then { box with address := head.address } else box).parts = box.parts := by
    split <;> rfl
  rw [hb] at hp
  cases part
  case none => exact .inr ⟨(List.getElem?_eq_some_iff.mp hp).1, by rw [← h, hb]⟩
  case some part => exact .inl ⟨by rw [← h, hb], part, hp⟩

theorem marks_insert (h : box.insert head payload mark = some box') :
    box'.joined.marks ≠ [] ∧ ∀ m ∈ box'.joined.marks, m = mark ∨ m ∈ box.joined.marks := by
  obtain ⟨hp, ⟨bytes, m⟩, hm⟩ | ⟨hl, hp⟩ := insert_eq_some h
  case inl =>
    refine ⟨ne_nil_of_mem (mem_marks.mpr ⟨bytes, hp ▸ mem_of_getElem? hm⟩), fun m hm => .inr ?_⟩
    rwa [mem_marks, ← hp, ← mem_marks]
  case inr =>
    refine ⟨ne_nil_of_mem (mem_marks.mpr ⟨payload, hp ▸ mem_set hl _⟩), fun m hm => ?_⟩
    obtain ⟨bytes, hm⟩ := mem_marks.mp hm
    obtain hm | hm := mem_or_eq_of_mem_set (hp ▸ hm)
    case inl => exact .inr (mem_marks.mpr ⟨bytes, hm⟩)
    case inr => cases hm; exact .inl rfl

end FragmentBox

theorem u16_toBytes16 (n : UInt16) : u16 (n >>> 8).toUInt8 n.toUInt8 = n := by
  have h := Octets.bigEndian_toBytes16 n
  simp only [Octets.toBytes16] at h
  simp [u16, h]

theorem parsePacketHead_answers {request : Request} {buffer : Bytes} {head : PacketHead}
    (h : parsePacketHead buffer = .ok head) (ha : Session.Answers request buffer) :
    head.packet = request.packet ∧ buffer[6]? = some head.total := by
  unfold parsePacketHead at h
  split at h
  case h_2 => cases h
  case h_1 version cmd a b p₁ p₂ total index s₁ s₂ rest =>
    simp only [Session.Answers, Octets.toBytes16, cons_append, nil_append, cons_prefix_cons] at ha
    obtain ⟨-, -, -, -, rfl, rfl, -⟩ := ha
    split at h
    case isTrue => cases h
    case isFalse =>
      split at h
      case isTrue => cases h
      case isFalse =>
        cases hd : decodeAddress rest
        case error => rw [hd] at h; cases h
        case ok r => rw [hd] at h; cases h; exact ⟨u16_toBytes16 _, rfl⟩

namespace FragmentTable

variable {τ : Type} {table table' : FragmentTable τ} {buffer : Bytes} {mark : τ} {joined : Option (Joined τ)}

theorem receive_cases (h : table.receive buffer mark = some (table', joined)) :
    (table' = table ∧ ∀ j ∈ joined, j.marks = [mark]) ∨
      ∃ head payload, parsePacketHead buffer = .ok head ∧ 1 < head.total ∧
        table.fragment head payload mark = some (table', joined) := by
  unfold receive at h
  split at h
  case isTrue => cases h; exact .inl ⟨rfl, by simp⟩
  case isFalse =>
    split at h
    case h_1 => cases h; exact .inl ⟨rfl, by simp⟩
    case h_2 head hh =>
      simp only at h
      split at h
      case isTrue => cases h; exact .inl ⟨rfl, by simp⟩
      case isFalse =>
        split at h
        case isTrue => cases h; exact .inl ⟨rfl, by simp⟩
        case isFalse ht =>
          split at h
          case isTrue => cases h; exact .inl ⟨rfl, by simp⟩
          case isFalse => exact .inr ⟨head, _, hh, UInt8.not_le.mp ht, h⟩

theorem fragment_marks {head : PacketHead} {payload : Bytes}
    (h : table.fragment head payload mark = some (table', joined))
    (hm : ∀ box ∈ table (ASSOC_ID, head.packet), ∀ m ∈ box.joined.marks, m = mark) :
    (∀ j ∈ joined, j.marks ≠ [] ∧ ∀ m ∈ j.marks, m = mark) ∧
      ∀ key box, table' key = some box → table key = some box ∨ ∀ m ∈ box.joined.marks, m = mark := by
  obtain ⟨box, hb, h⟩ := map_eq_some_iff.mp h
  obtain ⟨hn, hi⟩ := FragmentBox.marks_insert hb
  have hu : ∀ m ∈ box.joined.marks, m = mark := by
    intro m hj
    refine (hi m hj).elim id fun hj => ?_
    cases ht : table (ASSOC_ID, head.packet)
    case none => simp [ht, FragmentBox.marks_new] at hj
    case some old => simp only [ht, getD_some] at hj; exact hm old ht m hj
  split at h
  case isTrue =>
    cases h
    refine ⟨by simpa using ⟨hn, hu⟩, fun key box' hk => .inl ?_⟩
    simp only [Function.update_apply] at hk
    obtain ⟨-, hk⟩ := ite_none_left_eq_some.mp hk
    exact hk
  case isFalse =>
    cases h
    refine ⟨by simp, fun key box' hk => ?_⟩
    simp only [Function.update_apply] at hk
    split at hk
    case isTrue => cases hk; exact .inr hu
    case isFalse => exact .inl hk

end FragmentTable

-- All of it answers one request, which was sent through the pipe that it was delivered to.
def Delivery.Replies (requests : List Request) (d : Delivery) : Prop :=
  d.answers ≠ [] ∧ ∃ k, (∀ m ∈ d.answers, m = k) ∧ ∃ request ∈ requests[k]?, request.pipe = d.pipe

instance {requests : List Request} {d : Delivery} : Decidable (d.Replies requests) :=
  decidable_of_iff (∃ k ∈ d.answers.head?, (∀ m ∈ d.answers, m = k) ∧ ∃ request ∈ requests[k]?, request.pipe = d.pipe)
    ⟨fun ⟨k, hk, h⟩ => ⟨fun hn => by simp [hn] at hk, k, h⟩, fun ⟨hn, k, ha, hr⟩ =>
      ⟨k, by rw [← ha _ (head_mem hn)]; exact List.head?_eq_some_head hn, ha, hr⟩⟩

namespace Session

variable {s s' : Session} {l : UdpLabel}

structure Isolated (s : Session) : Prop where
  replies : ∀ d ∈ s.delivered, d.Replies s.requests
  uncut : s.cut = []

instance : Decidable s.Isolated :=
  decidable_of_iff ((∀ d ∈ s.delivered, d.Replies s.requests) ∧ s.cut = [])
    ⟨fun h => ⟨h.1, h.2⟩, fun h => ⟨h.1, h.2⟩⟩

-- A pipe is opened once nobody holds the one before it, no answer comes after the pipe of its
-- request has made room for another, and no fragment meets those of another request that had the
-- same packet number.
def OneAtATime (s : Session) : UdpLabel → Prop
  | .openUdp => ∀ i ∈ s.udp, ¬ s.Held i
  | .datagram k buffer _ => ∀ request ∈ s.requests[k]?,
    (∀ i ∈ s.udp, request.pipe = i) ∧
    ∀ total ∈ buffer[6]?, 1 < total →
      ∀ box ∈ s.fragments (ASSOC_ID, request.packet), ∀ m ∈ box.joined.marks, m = k
  | .send .. | .close _ | .recv _ | .dropReceiver _ | .fromApp _ => True

-- The fragments that wait are all of the pipe in the slot.
structure Kept (s : Session) : Prop extends s.Isolated where
  fragments : ∀ key box, s.fragments key = some box →
    ∃ k, (∀ m ∈ box.joined.marks, m = k) ∧ ∃ request ∈ s.requests[k]?, ∀ i ∈ s.udp, request.pipe = i

theorem Kept.modify {i : Nat} {f : UdpPipe → UdpPipe} (h : s.Kept) : (s.modify i f).Kept :=
  { h with }

theorem release_eq : ∃ pipes, s.release = { s with pipes, udp := none } := by
  unfold release
  split
  case h_1 i _ => exact ⟨_, rfl⟩
  case h_2 hu => exact ⟨s.pipes, by rw [← hu]⟩

theorem Kept.release (h : s.Kept) : s.release.Kept := by
  obtain ⟨pipes, hr⟩ := release_eq (s := s)
  rw [hr]
  refine { h with fragments := fun key box hb => ?_ }
  obtain ⟨k, hm, request, hk, -⟩ := h.fragments key box hb
  exact ⟨k, hm, request, hk, by simp⟩

theorem Kept.openUdp (h : s.Kept) (hu : ∀ i ∈ s.udp, ¬ s.Held i) : s.openUdp.Kept := by
  have hr := h.release
  refine ⟨⟨hr.replies, ?_⟩, by simp [Session.openUdp, FragmentTable.empty]⟩
  simpa [Session.openUdp, h.uncut] using hu

theorem Kept.request (h : s.Kept) (request : Request) : Kept { s with requests := s.requests ++ [request] } := by
  have ha {k : Nat} {r : Request} (hk : s.requests[k]? = some r) : (s.requests ++ [request])[k]? = some r := by
    rwa [List.getElem?_append_left (List.getElem?_eq_some_iff.mp hk).1]
  refine ⟨⟨fun d hd => ?_, h.uncut⟩, fun key box hb => ?_⟩
  · obtain ⟨hn, k, hm, r, hk, hp⟩ := h.replies d hd
    exact ⟨hn, k, hm, r, ha hk, hp⟩
  · obtain ⟨k, hm, r, hk, hp⟩ := h.fragments key box hb
    exact ⟨k, hm, r, ha hk, hp⟩

theorem Kept.fromApp {writable : Option Nat} (h : s.Kept) (hs : s.fromApp writable = some s') : s'.Kept := by
  obtain ⟨i, -, hs⟩ := bind_eq_some_iff.mp hs
  obtain ⟨p, -, hs⟩ := bind_eq_some_iff.mp hs
  split at hs
  case h_1 target payload rest _ =>
    cases hs
    split
    case isTrue => exact { h with }
    case isFalse => exact { h.request ⟨i, s.nextPacket, target, payload⟩ with }
  case h_2 =>
    obtain ⟨-, hs⟩ := ite_none_left_eq_some.mp hs
    cases hs; exact h.release

theorem Kept.deliver {found : Option SocketAddr} {joined : Joined Nat} {k : Nat} {request : Request}
    (h : s.Kept) (hk : s.requests[k]? = some request) (hu : ∀ i ∈ s.udp, request.pipe = i)
    (hn : joined.marks ≠ []) (hm : ∀ m ∈ joined.marks, m = k) : (s.deliver found joined).Kept := by
  unfold Session.deliver
  simp only
  split
  case h_2 => exact h
  case h_1 i source toApp hd =>
    obtain ⟨i', hi, hd⟩ := bind_eq_some_iff.mp hd
    obtain ⟨p, -, hd⟩ := bind_eq_some_iff.mp hd
    obtain ⟨source', -, hd⟩ := bind_eq_some_iff.mp hd
    obtain ⟨toApp', -, hd⟩ := map_eq_some_iff.mp hd
    cases hd
    refine { h with replies := fun d hd => ?_ }
    obtain hd | hd := mem_append.mp hd
    case inl => exact h.replies d hd
    case inr =>
      rw [mem_singleton.mp hd]
      exact ⟨hn, k, hm, request, hk, hu i hi⟩

theorem Kept.datagram {k : Nat} {buffer : Bytes} {found : Option SocketAddr} (h : s.Kept)
    (hok : s.OneAtATime (.datagram k buffer found)) (hs : s.datagram k buffer found = some s') : s'.Kept := by
  obtain ⟨request, hk, hs⟩ := bind_eq_some_iff.mp hs
  obtain ⟨hu, hf⟩ := hok request hk
  obtain ⟨ha, hs⟩ := ite_none_right_eq_some.mp hs
  cases hs
  split
  case h_1 => exact { h with }
  case h_2 table joined hr =>
    replace hr := FragmentTable.receive_cases hr
    obtain ⟨rfl, hj⟩ | ⟨head, payload, hp, ht, hr⟩ := hr
    case inl =>
      cases joined
      case none => exact h
      case some j => exact Kept.deliver h hk hu (by simp [hj j rfl]) (by simp [hj j rfl])
    case inr =>
      obtain ⟨hpk, h6⟩ := parsePacketHead_answers hp ha
      obtain ⟨hj, ht⟩ := FragmentTable.fragment_marks hr (by rw [hpk]; exact hf _ h6 ht)
      have hkept : Kept { s with fragments := table } := by
        refine { h with fragments := fun key box hb => ?_ }
        obtain hb | hm := ht key box hb
        case inl => exact h.fragments key box hb
        case inr => exact ⟨k, hm, request, hk, hu⟩
      cases joined
      case none => exact hkept
      case some j => exact hkept.deliver hk hu (hj j rfl).1 (hj j rfl).2

theorem Kept.step (h : s.Kept) (hok : s.OneAtATime l) (hs : s.step l = some s') : s'.Kept := by
  unfold Session.step at hs
  obtain ⟨-, hs⟩ := ite_none_left_eq_some.mp hs
  cases l
  case openUdp => cases hs; exact h.openUdp hok
  case send i target payload =>
    obtain ⟨p, -, hs⟩ := bind_eq_some_iff.mp hs
    obtain ⟨-, hs⟩ := ite_none_right_eq_some.mp hs
    obtain ⟨q, -, rfl⟩ := map_eq_some_iff.mp hs
    exact h.modify
  case recv i =>
    obtain ⟨p, -, hs⟩ := bind_eq_some_iff.mp hs
    obtain ⟨q, -, rfl⟩ := map_eq_some_iff.mp hs
    exact h.modify
  case close | dropReceiver => cases hs; exact h.modify
  case fromApp => exact h.fromApp hs
  case datagram => exact h.datagram hok hs

theorem always_isolated_of_admits (ls : List UdpLabel) (h : Lts.Admits step OneAtATime {} ls) :
    Lts.Always step Isolated {} ls :=
  Lts.always_of_admits (I := Kept) (fun _ _ _ hi hok hs => hi.step hok hs) (fun _ hi => hi.toIsolated)
    ⟨⟨by simp, rfl⟩, by simp [FragmentTable.empty]⟩ h

instance : Decidable (s.OneAtATime l) :=
  match l with
  | .openUdp => inferInstanceAs (Decidable (∀ i ∈ s.udp, ¬ s.Held i))
  | .datagram k buffer _ => inferInstanceAs (Decidable (∀ request ∈ s.requests[k]?,
    (∀ i ∈ s.udp, request.pipe = i) ∧ ∀ total ∈ buffer[6]?, 1 < total →
      ∀ box ∈ s.fragments (ASSOC_ID, request.packet), ∀ m ∈ box.joined.marks, m = k))
  | .send .. | .close _ | .recv _ | .dropReceiver _ | .fromApp _ => isTrue trivial

def server : SocketAddr := ⟨.v4 (.new 9 9 9 9), 53⟩

def ask : List UdpLabel :=
  [.openUdp, .send 0 (.ip server) [1], .fromApp none]

def answer : UdpLabel :=
  .datagram 0 (buildPacket 0 0 1 [ADDR_V4, 9, 9, 9, 9, 0, 53] [2]) none

theorem always_isolated_ask :
    Lts.Admits step OneAtATime {} (ask ++ [answer]) ∧ Lts.Always step Isolated {} (ask ++ [answer]) :=
  have h : Lts.Admits step OneAtATime {} (ask ++ [answer]) := by decide +kernel
  ⟨h, always_isolated_of_admits _ h⟩

-- A second application has opened a pipe before the answer comes, and gets it.
theorem not_always_isolated : ¬ Lts.Always step Isolated {} (ask ++ [.openUdp, answer]) := by
  intro h
  have hr : (Lts.exec step {} (ask ++ [.openUdp, answer])).any fun s =>
      s.cut = [0] ∧ s.delivered.map (·.pipe) = [1] ∧ ¬ s.Isolated := by decide +kernel
  obtain ⟨s, hx, hn⟩ := (Option.any_eq_true ..).mp hr
  exact (of_decide_eq_true hn).2.2 (h.last hx)

end Session

end Engine.Outbound
