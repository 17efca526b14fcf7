import SoildTunnel.App.TrafficSniffer
import SoildTunnel.App.TunLifetime
import SoildTunnel.App.Theorems.TunDns

-- Whether a session uses the name in the client's first payload.
namespace App.TunBridge

open Kotlin Lts Option

namespace RunPc

def decided : RunPc → Bool
  | .decide | .direct | .socks | .request | .reply | .connected | .answer | .relay => true
  | _ => false

def asking : RunPc → Bool
  | .start | .synAck | .sniff | .decide | .direct | .socks | .request => true
  | _ => false

def special : RunPc → Bool
  | .start | .synAck | .sniff | .sniffed _ | .request => true
  | _ => false

def late : RunPc → Bool
  | .answer | .relay | .closing _ | .ended _ => true
  | _ => false

theorem past {pc : RunPc} (h : pc.decided ∨ pc.late) :
    pc ≠ .start ∧ pc ≠ .synAck ∧ pc ≠ .sniff ∧ ∀ packet, pc ≠ .sniffed packet := by
  cases pc <;> simp_all [decided, late]

end RunPc

def LifetimeLabel.isRun : LifetimeLabel → Bool
  | .run _ | .timeout | .network _ | .connects _ | .idle | .failed => true
  | _ => false

namespace Lifetime

variable {b : Settings} {start : Start} {s s' : Lifetime} {l : LifetimeLabel}

-- The first payload in order that gets to the session while `run` waits for it.
def heard (s : Lifetime) (l : LifetimeLabel) (_ : Lifetime) (first : Option Bytes) : Option Bytes :=
  match l with
  | .segment g =>
    if first = none ∧ s.pc = .sniff ∧ s.tcp.isClosed = false ∧ g.flags &&& (RST ||| FIN) = 0 ∧ g.seq = s.tcp.myAck then
      g.payload
    else
      first
  | _ => first

def heardName (b : Settings) (start : Start) (p : Lifetime × Option Bytes) : Option Text :=
  p.2.bind (b.sniffDomain · start.serverPort)

-- The routing decision and the target of the request are those for the name.
def UsesName (b : Settings) (start : Start) (p : Lifetime × Option Bytes) : Prop :=
  ∀ name, heardName b start p = some name →
    (p.1.pc.decided → p.1.mode = sniffedMode b start name) ∧ ∀ target, p.1.requested = some target → target = .domain name

-- The name makes no difference to the decision, and there is none when the request is written.
def NameIdle (b : Settings) (start : Start) (p : Lifetime × Option Bytes) : LifetimeLabel → Prop
  | .timeout => ∀ name, heardName b start p = some name → sniffedMode b start name = .tunnel
  | .run _ => p.1.pc = .request → heardName b start p = none
  | _ => True

-- As long as there is no connection nothing gets into the queue, so that no packet is ever taken out of it for
-- the sniffer.
structure Unheard (p : Lifetime × Option Bytes) : Prop where
  late : p.1.tcp.connected → p.1.pc.late
  queue_nil : p.1.tcp.connected = false → p.1.tcp.queue.items = []
  not_sniffed : ∀ packet, p.1.pc ≠ .sniffed packet
  sniffedDomain_eq : p.1.sniffedDomain = none
  waits : p.1.pc = .synAck ∨ p.1.pc = .sniff → p.1.mode = .tunnel ∧ p.1.cachedDomain = none
  unasked : p.1.pc.asking → p.1.requested = none
  heard : p.2 ≠ none → p.1.cachedDomain = none ∧ p.1.pc ≠ .start ∧ p.1.pc ≠ .synAck

theorem unheard_created (initialSeq mySeq : Nat) (dns : DnsMap) : Unheard (created initialSeq mySeq dns, none) where
  late := nofun
  queue_nil _ := rfl
  not_sniffed := nofun
  sniffedDomain_eq := rfl
  waits := by simp [created]
  unasked _ := rfl
  heard := by simp

structure SameRun (s s' : Lifetime) : Prop where
  pc_eq : s'.pc = s.pc
  mode_eq : s'.mode = s.mode
  cachedDomain_eq : s'.cachedDomain = s.cachedDomain
  sniffedDomain_eq : s'.sniffedDomain = s.sniffedDomain
  requested_eq : s'.requested = s.requested
  connected_eq : s'.tcp.connected = s.tcp.connected
  queue_eq : s.tcp.connected = false → s'.tcp.queue = s.tcp.queue

theorem close_sameRun (s : Lifetime) : s.SameRun s.close := by
  unfold close
  split <;> exact ⟨rfl, rfl, rfl, rfl, rfl, rfl, fun _ => rfl⟩

theorem accept_connected (t : TcpSession) (seq : Nat) (payload : Option Bytes) (flags : UInt8) :
    (t.accept seq payload flags).1.connected = t.connected := by
  unfold TcpSession.accept
  dsimp only
  repeat' split
  all_goals rfl

theorem handleFromTun_unconnected {t : TcpSession} (h : t.connected = false) (seq : Nat) (payload : Option Bytes)
    (flags : UInt8) : (t.handleFromTun seq payload flags).1.queue = t.queue := by
  unfold TcpSession.handleFromTun
  simp only [h, Bool.false_eq_true, if_false]
  repeat' split
  all_goals rfl

theorem handleFromTun_connected (t : TcpSession) (seq : Nat) (payload : Option Bytes) (flags : UInt8) :
    (t.handleFromTun seq payload flags).1.connected = t.connected := by
  unfold TcpSession.handleFromTun
  repeat' split
  case isFalse.isFalse.isTrue => exact accept_connected t seq payload flags
  all_goals rfl

theorem handleFromTun_sameRun (s : Lifetime) (g : Segment) : s.SameRun (s.handleFromTun g) :=
  ⟨rfl, rfl, rfl, rfl, rfl, handleFromTun_connected _ _ _ _, fun h => handleFromTun_unconnected h _ _ _⟩

theorem step_sameRun (h : step b start s l = some s') (hl : l.isRun = false) : s.SameRun s' := by
  cases l
  case segment g =>
    simp only [step] at h
    split at h <;> cases h
    exact handleFromTun_sameRun s g
  case stop =>
    cases h
    exact { close_sameRun s with }
  case reader =>
    simp only [step, readStep] at h
    repeat' split at h
    all_goals cases h
    case h_2 told _ => exact { close_sameRun s with }
    all_goals exact ⟨rfl, rfl, rfl, rfl, rfl, rfl, fun _ => rfl⟩
  case cache dns =>
    cases h
    exact ⟨rfl, rfl, rfl, rfl, rfl, rfl, fun _ => rfl⟩
  case run | timeout | network | connects | idle | failed => cases hl
  all_goals
    simp only [step] at h
    split at h <;> cases h
    exact ⟨rfl, rfl, rfl, rfl, rfl, rfl, fun _ => rfl⟩

-- `run` goes on after its decision, with its variables as they are, or ends.
structure Moves (s s' : Lifetime) : Prop where
  mode_eq : s'.mode = s.mode
  cachedDomain_eq : s'.cachedDomain = s.cachedDomain
  sniffedDomain_eq : s'.sniffedDomain = s.sniffedDomain
  requested_eq : s'.requested = s.requested
  decided : s'.pc.decided → s.pc.decided
  asking : s'.pc.asking → s.pc.asking
  late : s'.tcp.connected → s'.pc.late
  queue_nil : s'.tcp.connected = false → s'.tcp.queue.items = []
  past : s'.pc.decided ∨ s'.pc.late

variable {first : Option Bytes}

theorem Moves.unheard (hm : s.Moves s') (hi : Unheard (s, first)) : Unheard (s', first) := by
  obtain ⟨hs, ha, hn, hp⟩ := RunPc.past hm.past
  constructor
  case late => exact hm.late
  case queue_nil => exact hm.queue_nil
  case not_sniffed => exact hp
  case sniffedDomain_eq => exact hm.sniffedDomain_eq.trans hi.sniffedDomain_eq
  case waits =>
    rintro (h | h)
    case inl => exact absurd h ha
    case inr => exact absurd h hn
  case unasked => exact fun h => hm.requested_eq.trans (hi.unasked (hm.asking h))
  case heard => exact fun h => ⟨hm.cachedDomain_eq.trans (hi.heard h).1, hs, ha⟩

theorem UsesName.of_eq (h : UsesName b start (s, first)) (hm : s'.mode = s.mode)
    (hr : s'.requested = s.requested) (hd : s'.pc.decided → s.pc.decided) : UsesName b start (s', first) := by
  intro name hn
  obtain ⟨h₁, h₂⟩ := h name hn
  exact ⟨fun hs => hm.trans (h₁ (hd hs)), fun target ht => h₂ target (hr.symm.trans ht)⟩

theorem SameRun.unheard {first' : Option Bytes} (h : s.SameRun s') (hi : Unheard (s, first))
    (hf : first' ≠ none → first ≠ none ∨ s.pc = .sniff) : Unheard (s', first') := by
  constructor
  case late => rw [h.connected_eq, h.pc_eq]; exact hi.late
  case queue_nil => intro hc; rw [h.connected_eq] at hc; rw [h.queue_eq hc]; exact hi.queue_nil hc
  case not_sniffed => rw [h.pc_eq]; exact hi.not_sniffed
  case sniffedDomain_eq => exact h.sniffedDomain_eq.trans hi.sniffedDomain_eq
  case waits => rw [h.pc_eq, h.mode_eq, h.cachedDomain_eq]; exact hi.waits
  case unasked => rw [h.pc_eq, h.requested_eq]; exact hi.unasked
  case heard =>
    intro hn
    rw [h.cachedDomain_eq, h.pc_eq]
    rcases hf hn with hn | hs
    case inl => exact hi.heard hn
    case inr => exact ⟨(hi.waits (.inr hs)).2, by simp [hs], by simp [hs]⟩

theorem SameRun.usesName {first' : Option Bytes} (h : s.SameRun s') (hi : Unheard (s, first))
    (hu : UsesName b start (s, first)) (hf : first' = first ∨ s.pc = .sniff) : UsesName b start (s', first') := by
  rcases hf with rfl | hs
  case inl => exact hu.of_eq h.mode_eq h.requested_eq (by rw [h.pc_eq]; exact id)
  case inr =>
    intro name _
    have hr : s'.requested = none := h.requested_eq.trans (hi.unasked (by rw [hs]; rfl))
    exact ⟨by simp [h.pc_eq, hs, RunPc.decided], by simp [hr]⟩

theorem heard_of_isRun (hl : l.isRun) (first : Option Bytes) : heard s l s' first = first := by
  cases l <;> first | rfl | cases hl

theorem heard_eq_or (s : Lifetime) (l : LifetimeLabel) (s' : Lifetime) (first : Option Bytes) :
    heard s l s' first = first ∨ s.pc = .sniff := by
  cases l
  case segment g =>
    unfold heard
    dsimp only
    split
    case isTrue h => exact .inr h.2.1
    case isFalse => exact .inl rfl
  all_goals exact .inl rfl

section Run

variable {first : Option Bytes} (hi : Unheard (s, first))

include hi

theorem Unheard.connected_of_not_late (h : s.pc.late = false) : s.tcp.connected = false := by
  have := hi.late
  grind

theorem Unheard.moves {pc : RunPc} (hd : pc.decided → s.pc.decided) (hp : pc.decided ∨ pc.late)
    (ha : pc.asking → s.pc.asking) (hl : s.pc.late → pc.late) : s.Moves { s with pc } where
  mode_eq := rfl
  cachedDomain_eq := rfl
  sniffedDomain_eq := rfl
  requested_eq := rfl
  decided := hd
  asking := ha
  late h := hl (hi.late h)
  queue_nil := hi.queue_nil
  past := hp

theorem Unheard.closing_moves (told : Bool) : s.Moves { s with pc := .closing told } :=
  hi.moves nofun (.inr rfl) nofun fun _ => rfl

theorem Unheard.run_moves {now : Nat} (hs : s.pc.special = false) (h : s.runStep b start now = some s') :
    s.Moves s' := by
  unfold runStep at h
  cases hpc : s.pc
  case start | synAck | sniff | sniffed | request => rw [hpc] at hs; cases hs
  case direct | socks | reply | ended => simp [hpc] at h
  case decide =>
    simp only [hpc] at h
    repeat' split at h
    all_goals cases h
    case h_1 => exact hi.moves (fun _ => by rw [hpc]; rfl) (.inl rfl) (fun _ => by rw [hpc]; rfl) (by rw [hpc]; nofun)
    case h_2.isTrue => exact { hi.closing_moves true with }
    case h_2.isFalse => exact hi.closing_moves false
  case connected =>
    simp only [hpc] at h
    cases h
    have hm : s.Moves { s with pc := .answer } :=
      hi.moves (fun _ => by rw [hpc]; rfl) (.inl rfl) nofun fun _ => rfl
    exact { hm with late := fun _ => rfl, queue_nil := nofun }
  case answer =>
    simp only [hpc] at h
    have hm : s.Moves { s with pc := .relay } :=
      hi.moves (fun _ => by rw [hpc]; rfl) (.inl rfl) nofun fun _ => rfl
    repeat' split at h
    all_goals cases h
    case isTrue => exact hi.closing_moves false
    all_goals exact { hm with }
  case relay =>
    simp only [hpc] at h
    split at h
    case isTrue => cases h; exact hi.closing_moves false
    case isFalse =>
      obtain ⟨⟨packet, queue⟩, hq, rfl⟩ := map_eq_some_iff.mp h
      have hm : s.Moves { s with pc := .relay } :=
        hi.moves (fun _ => by rw [hpc]; rfl) (.inl rfl) nofun fun _ => rfl
      refine { hm with queue_nil := fun hc => ?_ }
      cases (hi.queue_nil hc).symm.trans (Bounded.poll_eq_some hq)
  case closing told =>
    simp only [hpc] at h
    cases h
    have hm := hi.closing_moves told
    have hc := close_sameRun s
    exact ⟨hc.mode_eq, hc.cachedDomain_eq, hc.sniffedDomain_eq, hc.requested_eq, nofun, nofun, fun _ => rfl,
      fun hn => by
        have hn := hc.connected_eq.symm.trans hn
        rw [hc.queue_eq hn]; exact hi.queue_nil hn, .inr rfl⟩

theorem Unheard.network_moves {available : Bool} (h : step b start s (.network available) = some s') : s.Moves s' := by
  simp only [step] at h
  split at h <;> cases h
  case isTrue hc =>
    split
    case isTrue =>
      exact hi.moves (fun _ => by rw [hc.1]; rfl) (.inl rfl) (fun _ => by rw [hc.1]; rfl) (by rw [hc.1]; nofun)
    case isFalse => exact { hi.closing_moves true with }

theorem Unheard.connects_moves {ok : Bool} (h : step b start s (.connects ok) = some s') : s.Moves s' := by
  simp only [step] at h
  cases ok <;> cases hpc : s.pc <;> simp only [hpc] at h <;> cases h
  case false.direct | false.socks | false.reply => exact hi.closing_moves false
  all_goals
    refine hi.moves (fun _ => by rw [hpc]; rfl) (.inl rfl) ?_ (by rw [hpc]; nofun)
    rw [hpc]
    simp [RunPc.asking]

end Run

inductive RunEffect (b : Settings) (start : Start) (s : Lifetime) : LifetimeLabel → Lifetime → Prop
  | other {l : LifetimeLabel} {s' : Lifetime} : l.isRun = false → s.SameRun s' → RunEffect b start s l s'
  | moves {l : LifetimeLabel} {s' : Lifetime} :
    l.isRun → l ≠ .timeout → (∀ now, l = .run now → s.pc ≠ .request) → s.Moves s' → RunEffect b start s l s'
  | lookup (now : Nat) : s.pc = .start → RunEffect b start s (.run now) (s.lookup b start)
  | synAck (now : Nat) :
    s.pc = .synAck → RunEffect b start s (.run now) { s.sendSynAck with synAckSent := true, pc := .sniff }
  | timeout : s.pc = .sniff → RunEffect b start s .timeout { s with pc := .decide }
  | request (now : Nat) :
    s.pc = .request → RunEffect b start s (.run now) { s with
      requested := some ((s.sniffedDomain.or s.cachedDomain).elim (.address start.serverIp) .domain), pc := .reply }

theorem Unheard.run_effect {now : Nat} (hi : Unheard (s, first))
    (h : s.runStep b start now = some s') : RunEffect b start s (.run now) s' := by
  by_cases hs : s.pc.special
  case neg =>
    have hs : s.pc.special = false := by simpa using hs
    exact .moves rfl nofun (fun _ _ hr => by rw [hr] at hs; cases hs) (hi.run_moves hs h)
  case pos =>
    cases hpc : s.pc <;> rw [hpc] at hs <;> try cases hs
    case start =>
      simp only [runStep, hpc, some_inj] at h
      exact h ▸ .lookup now hpc
    case synAck =>
      simp only [runStep, hpc, some_inj] at h
      exact h ▸ .synAck now hpc
    case sniff =>
      -- The queue is empty, and the poll waits.
      have hc : s.tcp.connected = false := hi.connected_of_not_late (by rw [hpc]; rfl)
      simp only [runStep, hpc] at h
      obtain ⟨⟨packet, queue⟩, hq, -⟩ := map_eq_some_iff.mp h
      cases (hi.queue_nil hc).symm.trans (Bounded.poll_eq_some hq)
    case sniffed packet => exact absurd hpc (hi.not_sniffed packet)
    case request =>
      simp only [runStep, hpc, some_inj] at h
      exact h ▸ .request now hpc

theorem Unheard.effect (hi : Unheard (s, first)) (h : step b start s l = some s') : RunEffect b start s l s' := by
  cases l
  case run now => exact hi.run_effect h
  case timeout =>
    simp only [step] at h
    split at h <;> cases h
    case isTrue hw => exact .timeout hw.1
  case network => exact .moves rfl nofun nofun (hi.network_moves h)
  case connects => exact .moves rfl nofun nofun (hi.connects_moves h)
  case idle =>
    simp only [step] at h
    split at h <;> cases h
    exact .moves rfl nofun nofun (hi.closing_moves false)
  case failed =>
    simp only [step] at h
    split at h <;> cases h
    exact .moves rfl nofun nofun (hi.closing_moves false)
  all_goals exact .other rfl (step_sameRun h rfl)

section Step

variable {first : Option Bytes}

theorem Unheard.first_eq_none (hi : Unheard (s, first)) (hs : s.pc = .start ∨ s.pc = .synAck) : first = none := by
  by_contra hf
  obtain ⟨-, h₁, h₂⟩ := hi.heard hf
  rcases hs with hs | hs
  case inl => exact h₁ hs
  case inr => exact h₂ hs

theorem lookup_unheard (hi : Unheard (s, first)) (hs : s.pc = .start) : Unheard (s.lookup b start, first) := by
  have hc : s.tcp.connected = false := hi.connected_of_not_late (by rw [hs]; rfl)
  have hr : s.requested = none := hi.unasked (by rw [hs]; rfl)
  have hf : first = none := hi.first_eq_none (.inl hs)
  subst hf
  unfold lookup
  dsimp only
  split
  case isTrue hm => exact ⟨by simp [hc], hi.queue_nil, nofun, hi.sniffedDomain_eq, fun _ => ⟨hm.1, hm.2.1⟩, fun _ => hr, by simp⟩
  case isFalse => exact ⟨by simp [hc], hi.queue_nil, nofun, hi.sniffedDomain_eq, by simp, fun _ => hr, by simp⟩

theorem unheard_step (hi : Unheard (s, first)) (h : step b start s l = some s') :
    Unheard (s', heard s l s' first) := by
  cases hi.effect h
  case other hs =>
    refine hs.unheard hi fun hn => ?_
    rcases heard_eq_or s l s' first with he | hs
    case inl => exact .inl (he ▸ hn)
    case inr => exact .inr hs
  case moves hl _ _ hm => exact (heard_of_isRun hl first).symm ▸ hm.unheard hi
  case lookup hs => exact lookup_unheard hi hs
  case synAck hs =>
    have hc : s.tcp.connected = false := hi.connected_of_not_late (by rw [hs]; rfl)
    have hf : first = none := hi.first_eq_none (.inr hs)
    subst hf
    exact ⟨by simp [sendSynAck, send, advance, hc], hi.queue_nil, nofun, hi.sniffedDomain_eq,
      fun _ => hi.waits (.inl hs), fun _ => hi.unasked (by rw [hs]; rfl), by simp [heard]⟩
  case timeout hs =>
    have hc : s.tcp.connected = false := hi.connected_of_not_late (by rw [hs]; rfl)
    exact ⟨by simp [hc], hi.queue_nil, nofun, hi.sniffedDomain_eq, by simp, fun _ => hi.unasked (by rw [hs]; rfl),
      fun hn => ⟨(hi.heard hn).1, nofun, nofun⟩⟩
  case request hs =>
    have hc : s.tcp.connected = false := hi.connected_of_not_late (by rw [hs]; rfl)
    exact ⟨by simp [hc], hi.queue_nil, nofun, hi.sniffedDomain_eq, by simp, nofun,
      fun hn => ⟨(hi.heard hn).1, nofun, nofun⟩⟩

theorem usesName_step (hi : Unheard (s, first)) (hu : UsesName b start (s, first)) (h : step b start s l = some s') :
    UsesName b start (s', heard s l s' first) ↔ NameIdle b start (s, first) l := by
  cases hi.effect h
  case other hl hs =>
    have hok : NameIdle b start (s, first) l := by cases l <;> trivial
    exact iff_of_true (hs.usesName hi hu (heard_eq_or s l s' first)) hok
  case moves hl ht hr hm =>
    rw [heard_of_isRun hl]
    refine iff_of_true (hu.of_eq hm.mode_eq hm.requested_eq hm.decided) ?_
    cases l <;> first | trivial | exact absurd rfl ht | exact fun hp => absurd hp (hr _ rfl)
  case lookup now hs =>
    have hf : first = none := hi.first_eq_none (.inl hs)
    subst hf
    exact iff_of_true nofun fun _ => rfl
  case synAck now hs =>
    have hf : first = none := hi.first_eq_none (.inr hs)
    subst hf
    exact iff_of_true nofun fun _ => rfl
  case timeout hs =>
    have hr : s.requested = none := hi.unasked (by rw [hs]; rfl)
    have hm : s.mode = .tunnel := (hi.waits (.inr hs)).1
    refine forall₂_congr fun name _ => ?_
    simp [RunPc.decided, hr, hm, eq_comm]
  case request now hs =>
    constructor
    case mp =>
      intro hu' _
      by_contra hn
      obtain ⟨name, hn⟩ := ne_none_iff_exists'.mp hn
      have hf : first ≠ none := by
        rintro rfl
        cases hn
      obtain ⟨-, ht⟩ := hu' name hn
      have ht := ht _ rfl
      rw [hi.sniffedDomain_eq, (hi.heard hf).1] at ht
      cases ht
    case mpr =>
      intro hn name hs'
      cases (hn hs).symm.trans hs'

end Step

-- The name is used if and only if it makes no difference to the decision and no request is written.
theorem always_usesName_iff (b : Settings) (start : Start) (initialSeq mySeq : Nat) (dns : DnsMap)
    (ls : List LifetimeLabel) :
    Always (observed (step b start) heard) (UsesName b start) (created initialSeq mySeq dns, none) ls ↔
      Admits (observed (step b start) heard) (NameIdle b start) (created initialSeq mySeq dns, none) ls := by
  refine always_iff_admits (I := Unheard) ?_ ?_ (unheard_created initialSeq mySeq dns) nofun
  case refine_1 =>
    rintro ⟨s, first⟩ l ⟨s', first'⟩ hi - h -
    obtain ⟨h, hf⟩ := observed_eq_some.mp h
    cases hf
    exact unheard_step hi h
  case refine_2 =>
    rintro ⟨s, first⟩ l ⟨s', first'⟩ hi hu h
    obtain ⟨h, hf⟩ := observed_eq_some.mp h
    cases hf
    exact usesName_step hi hu h

def sniffingSettings : Settings :=
  { DnsEvent.plainSettings with sniffDomain := TrafficSniffer.sniffDomain DnsEvent.asciiPlatform }

def hostRequest : Bytes := "GET / HTTP/1.1\r\nHost: a\r\n\r\n".toUTF8.data.toList

def webStart : Start := ⟨1, [93, 184, 215, 14], 80, 0⟩

def eagerClient : List LifetimeLabel :=
  [.run 0, .run 0, .segment ⟨1, some hostRequest, 0x18⟩, .timeout, .run 0, .connects true, .run 0]

theorem sniffDomain_hostRequest : TrafficSniffer.sniffDomain DnsEvent.asciiPlatform hostRequest 80 = some [97] := by
  decide +kernel

theorem exec_eagerClient :
    ∃ s, exec (observed (step sniffingSettings webStart) heard) (created 0 0 .empty, none) eagerClient =
      some (s, some hostRequest) ∧ s.requested = some (.address webStart.serverIp) :=
  ⟨_, rfl, rfl⟩

theorem not_always_usesName :
    ¬ Always (observed (step sniffingSettings webStart) heard) (UsesName sniffingSettings webStart)
      (created 0 0 .empty, none) eagerClient := by
  intro h
  obtain ⟨s, hx, hr⟩ := exec_eagerClient
  obtain ⟨-, ht⟩ := h.last hx [97] sniffDomain_hostRequest
  cases ht _ hr

end Lifetime

end App.TunBridge
