import SoildTunnel.App.TunLifetime
import SoildTunnel.App.Theorems.TunDns

-- Whether a client is told that its session has ended.
namespace App.TunBridge

open Lts

def isGreeting (flags : UInt8) : Bool := flags = 0x12

def isFarewell (flags : UInt8) : Bool := flags &&& (FIN ||| RST) ≠ 0

def RunPc.told : RunPc → Bool
  | .closing told | .ended told => told
  | _ => false

def RunPc.early : RunPc → Bool
  | .relay | .closing _ | .ended _ => false
  | _ => true

def ReadPc.told : ReadPc → Bool
  | .closing told | .ended told => told
  | _ => false

def LifetimeLabel.isNext : LifetimeLabel → Bool
  | .run _ => true
  | _ => false

def LifetimeLabel.removes : LifetimeLabel → Bool
  | .remove | .blocked | .stale => true
  | _ => false

namespace Lifetime

variable {b : Settings} {start : Start} {s s' : Lifetime} {l : LifetimeLabel}

def queued (s : Lifetime) (p : UInt8 → Bool) : Bool :=
  s.sent.any fun g => p g.flags

-- The early SYN-ACK, or the one before `readFromSocks` starts.
def answered (s : Lifetime) : Bool :=
  s.synAckSent || s.read ≠ .unstarted

-- `run` has rejected the session, or `readFromSocks` has come to the end of the stream.
def told (s : Lifetime) : Bool :=
  s.pc.told || s.read.told

-- While the bridge runs, a session that was answered and that the client did not reset is not removed without a
-- FIN or a RST.
def Farewell (s : Lifetime) : Prop :=
  s.removed → s.isRunning → s.reset = false → s.queued isGreeting → s.queued isFarewell

-- A session that was answered is removed after the rejection or the end of the stream only, and one that was
-- removed is not answered any more.
def PartsWell (s : Lifetime) : LifetimeLabel → Prop
  | .remove | .blocked | .stale => s.isRunning → s.reset = false → s.answered → s.told
  | .run _ => s.pc = .synAck → s.removed → s.isRunning → s.reset
  | _ => True

structure Accounted (s : Lifetime) : Prop where
  answered_eq : s.queued isGreeting = s.answered
  told_eq : s.queued isFarewell = s.told
  isClosed : s.removed ∨ s.removing → s.tcp.isClosed
  unstarted : s.pc.early → s.read = .unstarted

theorem close_eq (s : Lifetime) : ∃ tcp removing, s.close = { s with tcp, removing } ∧ tcp.isClosed := by
  unfold close
  split
  case isTrue h => exact ⟨s.tcp, s.removing, rfl, h⟩
  case isFalse => exact ⟨_, _, rfl, rfl⟩

theorem sniff_eq (b : Settings) (start : Start) (s : Lifetime) (packet : Bytes) (now : Nat) :
    ∃ tcp dns mode sniffedDomain pc, s.sniff b start packet now = { s with tcp, dns, mode, sniffedDomain, pc } ∧
      tcp.isClosed = s.tcp.isClosed ∧ (pc = .decide ∨ pc = .closing false) := by
  unfold sniff
  cases b.sniffDomain packet start.serverPort
  all_goals
    dsimp only
    split
    case h_1 => exact ⟨_, _, _, _, _, rfl, rfl, .inl rfl⟩
    case h_2 => exact ⟨_, _, _, _, _, rfl, rfl, .inr rfl⟩

variable {t : TcpSession} {flags : UInt8}

theorem accept_flags {seq : Nat} {payload : Option Bytes} {g : TcpSegment}
    (h : (t.accept seq payload flags).2 = some g) : g.flags = 0x10 := by
  unfold TcpSession.accept at h
  dsimp only at h
  repeat' split at h
  all_goals cases h <;> rfl

theorem handleFromTun_flags {seq : Nat} {payload : Option Bytes} {g : TcpSegment}
    (h : (t.handleFromTun seq payload flags).2 = some g) : g.flags = 0x10 := by
  unfold TcpSession.handleFromTun at h
  repeat' split at h
  case isFalse.isFalse.isTrue => exact accept_flags h
  all_goals cases h

theorem handleFromTun_of_isClosed (h : t.isClosed) (seq : Nat) (payload : Option Bytes)
    (flags : UInt8) : t.handleFromTun seq payload flags = (t, none) := by
  simp [TcpSession.handleFromTun, h]

theorem accounted_created (initialSeq mySeq : Nat) (dns : DnsMap) : (created initialSeq mySeq dns).Accounted where
  answered_eq := rfl
  told_eq := rfl
  isClosed := by simp [created]
  unstarted _ := rfl

-- All that a step can do that does not remove the session: the flags of the segments that it sends, with a note
-- of each SYN-ACK, reset and FIN.
structure Effect (s : Lifetime) (l : LifetimeLabel) (s' : Lifetime) (flags : List UInt8) : Prop where
  sent_eq : s'.sent.map TcpSegment.flags = s.sent.map TcpSegment.flags ++ flags
  answered_eq : s'.answered = (s.answered || flags.any isGreeting)
  told_eq : s'.told = (s.told || flags.any isFarewell)
  isClosed : s'.removed ∨ s'.removing → s'.tcp.isClosed
  unstarted : s'.pc.early → s'.read = .unstarted
  removed_eq : s'.removed = s.removed
  isRunning : s'.isRunning → s.isRunning
  reset : s.reset → s'.reset
  unanswered : (s.pc = .synAck → l.isNext = false) → s.removed → flags.any isGreeting = false

theorem queued_eq (s : Lifetime) (p : UInt8 → Bool) : s.queued p = (s.sent.map TcpSegment.flags).any p := by
  rw [queued, List.any_map]
  rfl

theorem Effect.accounted {flags : List UInt8} (he : s.Effect l s' flags) (ha : s.Accounted) : s'.Accounted where
  answered_eq := by rw [queued_eq, he.sent_eq, List.any_append, ← queued_eq, ha.answered_eq, he.answered_eq]
  told_eq := by rw [queued_eq, he.sent_eq, List.any_append, ← queued_eq, ha.told_eq, he.told_eq]
  isClosed := he.isClosed
  unstarted := he.unstarted

section Step

variable (ha : s.Accounted)

include ha

theorem Accounted.told_eq_false (he : s.pc.early) : s.told = false := by
  have hr := ha.unstarted he
  unfold told
  rw [hr]
  cases hpc : s.pc <;> first | rfl | (rw [hpc] at he; cases he)

theorem Accounted.refl : s.Effect l s [] where
  sent_eq := (List.append_nil _).symm
  answered_eq := (Bool.or_false _).symm
  told_eq := (Bool.or_false _).symm
  isClosed := ha.isClosed
  unstarted := ha.unstarted
  removed_eq := rfl
  isRunning := id
  reset := id
  unanswered _ _ := rfl

theorem Accounted.moves {pc : RunPc} (ht : pc.told = s.pc.told) (he : pc.early → s.pc.early) :
    s.Effect l { s with pc } [] :=
  { ha.refl with
    told_eq := by simp [told, ht]
    unstarted := fun h => ha.unstarted (he h) }

theorem Accounted.leaves (ht : s.pc.told = false) : s.Effect l { s with pc := .closing false } [] :=
  ha.moves ht.symm nofun

theorem Accounted.rejects (hn : isGreeting flags = false) (hf : isFarewell flags) :
    s.Effect l { s.send flags with pc := .closing true } [flags] :=
  { (ha.refl : s.Effect l s []) with
    sent_eq := by simp [send]
    answered_eq := by rw [List.any_cons, hn]; exact (Bool.or_false _).symm
    told_eq := by simp [told, RunPc.told, hf]
    unstarted := nofun
    unanswered := by simp [hn] }

theorem Accounted.close : s.Effect l s.close [] := by
  obtain ⟨tcp, removing, he, hc⟩ := close_eq s
  rw [he]
  exact { ha.refl with isClosed := fun _ => hc }

theorem Accounted.not_removed (hc : ¬ s.tcp.isClosed) : ¬ s.removed :=
  fun hr => hc (ha.isClosed (.inl hr))

theorem Accounted.answers {t : Lifetime} (hs : t.sent = s.sendSynAck.sent) (hn : t.answered) (ht : t.told = s.told)
    (hg : t.removed = s.removed ∧ t.removing = s.removing ∧ t.tcp.isClosed = s.tcp.isClosed)
    (hi : t.isRunning = s.isRunning) (hr : t.reset = s.reset) (hu : t.pc.early → t.read = .unstarted)
    (hc : s.pc = .synAck ∧ l.isNext ∨ ¬ s.tcp.isClosed) : s.Effect l t [0x12] where
  sent_eq := by simp [hs, sendSynAck, send, advance]
  answered_eq := by simp [hn, isGreeting]
  told_eq := by simp [ht, show isFarewell 0x12 = false from rfl]
  isClosed := by rw [hg.1, hg.2.1, hg.2.2]; exact ha.isClosed
  unstarted := hu
  removed_eq := hg.1
  isRunning := by rw [hi]; exact id
  reset := by rw [hr]; exact id
  unanswered := by
    intro hp hm
    rcases hc with hc | hc
    case inl => cases hc.2.symm.trans (hp hc.1)
    case inr => exact absurd hm (ha.not_removed hc)

theorem Accounted.runStep {now : Nat} (h : s.runStep b start now = some s') :
    ∃ flags, s.Effect (.run now) s' flags := by
  unfold Lifetime.runStep at h
  cases hpc : s.pc <;> simp only [hpc] at h
  case start =>
    cases h
    have hm : s.Effect (.run now) { s with pc := (s.lookup b start).pc } [] := by
      refine ha.moves ?_ fun _ => by rw [hpc]; rfl
      rw [hpc]
      simp only [lookup]
      split <;> rfl
    exact ⟨[], { hm with }⟩
  case synAck =>
    cases h
    have ht : s.told = false := ha.told_eq_false (by rw [hpc]; rfl)
    have hr : s.read = .unstarted := ha.unstarted (by rw [hpc]; rfl)
    refine ⟨_, ha.answers rfl rfl ?_ ⟨rfl, rfl, rfl⟩ rfl rfl (fun _ => hr) (.inl ⟨hpc, rfl⟩)⟩
    rw [ht]
    simp [told, sendSynAck, send, advance, hr, RunPc.told, ReadPc.told]
  case sniff =>
    obtain ⟨⟨packet, queue⟩, -, rfl⟩ := Option.map_eq_some_iff.mp h
    have hm : s.Effect (.run now) { s with pc := .sniffed packet } [] := ha.moves (by rw [hpc]; rfl) fun _ => by rw [hpc]; rfl
    exact ⟨[], { hm with }⟩
  case sniffed packet =>
    cases h
    obtain ⟨tcp, dns, mode, sniffedDomain, pc, he, hc, hp⟩ := sniff_eq b start s packet now
    have hm : s.Effect (.run now) { s with pc } [] :=
      ha.moves (by rcases hp with rfl | rfl <;> rw [hpc] <;> rfl) fun _ => by rw [hpc]; rfl
    rw [he]
    exact ⟨[], { hm with isClosed := fun h => hc.trans (ha.isClosed h) }⟩
  case decide =>
    repeat' split at h
    all_goals cases h
    case h_1 => exact ⟨[], ha.moves (by rw [hpc]; rfl) fun _ => by rw [hpc]; rfl⟩
    case h_2.isTrue => exact ⟨_, ha.rejects rfl rfl⟩
    case h_2.isFalse => exact ⟨[], ha.leaves (by rw [hpc]; rfl)⟩
  case request =>
    cases h
    have hm : s.Effect (.run now) { s with pc := .reply } [] := ha.moves (by rw [hpc]; rfl) fun _ => by rw [hpc]; rfl
    exact ⟨[], { hm with }⟩
  case connected =>
    cases h
    have hm : s.Effect (.run now) { s with pc := .answer } [] := ha.moves (by rw [hpc]; rfl) fun _ => by rw [hpc]; rfl
    exact ⟨[], { hm with }⟩
  case answer =>
    have ht : s.told = false := ha.told_eq_false (by rw [hpc]; rfl)
    repeat' split at h
    all_goals cases h
    case isTrue => exact ⟨[], ha.leaves (by rw [hpc]; rfl)⟩
    case isFalse.isTrue hs =>
      exact ⟨[], { ha.refl with
        answered_eq := by simp [answered, hs]
        told_eq := by rw [ht]; rfl
        unstarted := nofun }⟩
    case isFalse.isFalse hc _ =>
      exact ⟨_, ha.answers rfl (by simp [answered]) (by rw [ht]; rfl) ⟨rfl, rfl, rfl⟩ rfl rfl nofun (.inr hc)⟩
  case relay =>
    split at h
    case isTrue => cases h; exact ⟨[], ha.leaves (by rw [hpc]; rfl)⟩
    case isFalse =>
      obtain ⟨⟨packet, queue⟩, -, rfl⟩ := Option.map_eq_some_iff.mp h
      have hm : s.Effect (.run now) { s with pc := .relay } [] := ha.moves (by rw [hpc]) nofun
      exact ⟨[], { hm with }⟩
  case closing told =>
    cases h
    have hm : s.Effect (.run now) { s with pc := .ended told } [] := ha.moves (by rw [hpc]; rfl) nofun
    obtain ⟨tcp, removing, he, hc⟩ := close_eq s
    rw [he]
    exact ⟨[], { hm with isClosed := fun _ => hc }⟩
  all_goals cases h

theorem Accounted.reads {pc : ReadPc} (hr : s.read ≠ .unstarted) (hn : pc ≠ .unstarted) (ht : pc.told = s.read.told) :
    s.Effect l { s with read := pc } [] :=
  { ha.refl with
    answered_eq := by simp [answered, hr, hn]
    told_eq := by simp [told, ht]
    unstarted := fun h => absurd (ha.unstarted h) hr }

theorem Accounted.readStep (h : s.readStep = some s') : ∃ flags, s.Effect l s' flags := by
  unfold Lifetime.readStep at h
  cases hr : s.read <;> simp only [hr] at h
  case read =>
    split at h <;> cases h
    exact ⟨[], ha.reads (by simp [hr]) nofun (by rw [hr]; rfl)⟩
  case closing told =>
    cases h
    have hm : s.Effect l { s with read := .ended told } [] := ha.reads (by simp [hr]) nofun (by rw [hr]; rfl)
    obtain ⟨tcp, removing, he, hc⟩ := close_eq s
    rw [he]
    exact ⟨[], { hm with isClosed := fun _ => hc }⟩
  all_goals cases h

theorem Accounted.segment (g : Segment) : ∃ flags, s.Effect l (s.handleFromTun g) flags := by
  have hg : s.removed ∨ (s.handleFromTun g).removing → (s.handleFromTun g).tcp.isClosed := by
    by_cases hc : s.tcp.isClosed
    case pos => simp [handleFromTun, handleFromTun_of_isClosed hc, hc]
    case neg =>
      rintro (hr | hr)
      case inl => exact absurd hr (ha.not_removed hc)
      case inr =>
        have hn : s.removing = false := by
          by_contra hn
          exact hc (ha.isClosed (.inr (by simpa using hn)))
        simp only [handleFromTun, hn, Bool.false_or, Bool.and_eq_true] at hr
        exact hr.1
  have he : s.Effect l { s.handleFromTun g with sent := s.sent } [] :=
    { ha.refl with isClosed := hg, reset := fun h => by simp [handleFromTun, h] }
  cases hx : (s.tcp.handleFromTun g.seq g.payload g.flags).2
  case none => exact ⟨[], { he with sent_eq := by simp [handleFromTun, hx] }⟩
  case some a =>
    have hf := handleFromTun_flags hx
    exact ⟨[0x10], { he with
      sent_eq := by simp [handleFromTun, hx, hf]
      unanswered := fun _ _ => rfl }⟩

theorem Accounted.step_effect (hl : l.removes = false) (h : step b start s l = some s') :
    ∃ flags, s.Effect l s' flags := by
  cases l
  case run now => exact ha.runStep h
  case reader => exact ha.readStep h
  case segment g =>
    simp only [step] at h
    split at h <;> cases h
    exact ha.segment g
  case stop =>
    cases h
    exact ⟨[], { ha.close with isRunning := nofun }⟩
  case cache dns =>
    cases h
    exact ⟨[], { ha.refl with }⟩
  case timeout =>
    simp only [step] at h
    split at h <;> cases h
    case isTrue hc => exact ⟨[], ha.moves (by rw [hc.1]; rfl) fun _ => by rw [hc.1]; rfl⟩
  case network available =>
    simp only [step] at h
    split at h <;> cases h
    case isTrue hc =>
      split
      case isTrue => exact ⟨[], ha.moves (by rw [hc.1]; rfl) fun _ => by rw [hc.1]; rfl⟩
      case isFalse => exact ⟨_, ha.rejects rfl rfl⟩
  case connects ok =>
    simp only [step] at h
    cases ok <;> cases hpc : s.pc <;> simp only [hpc] at h <;> cases h
    all_goals exact ⟨[], ha.moves (by rw [hpc]; rfl) fun _ => by rw [hpc]; rfl⟩
  case idle =>
    simp only [step] at h
    split at h <;> cases h
    case isTrue hpc => exact ⟨[], ha.leaves (by rw [hpc]; rfl)⟩
  case failed =>
    simp only [step] at h
    cases hpc : s.pc <;> simp only [hpc] at h <;> cases h
    all_goals exact ⟨[], ha.leaves (by rw [hpc]; rfl)⟩
  case data chunk =>
    simp only [step] at h
    split at h <;> cases h
    exact ⟨[0x18], { (ha.refl : s.Effect (.data chunk) s []) with
      sent_eq := by simp [send, advance]
      unanswered := fun _ _ => rfl }⟩
  case endOfStream =>
    simp only [step] at h
    split at h <;> cases h
    case isTrue hr =>
      exact ⟨[0x11], { (ha.refl : s.Effect .endOfStream s []) with
        sent_eq := by simp [send, advance]
        answered_eq := by simp [answered, hr]
        told_eq := by simp [told, ReadPc.told, show isFarewell 0x11 = true from rfl]
        unstarted := fun h => by cases hr.symm.trans (ha.unstarted h)
        unanswered := fun _ _ => rfl }⟩
  case readFailed =>
    simp only [step] at h
    split at h <;> cases h
    case isTrue hr => exact ⟨[], ha.reads (by simp [hr]) nofun (by rw [hr]; rfl)⟩
  all_goals cases hl

theorem Accounted.step_removes (hl : l.removes) (h : step b start s l = some s') :
    ∃ tcp, s' = { s with tcp, removing := false, removed := true } ∧ tcp.isClosed := by
  cases l
  case blocked | stale =>
    simp only [step] at h
    split at h <;> cases h
    exact ⟨_, rfl, rfl⟩
  case remove =>
    simp only [step] at h
    split at h <;> cases h
    case isTrue hr => exact ⟨s.tcp, rfl, ha.isClosed (.inr hr)⟩
  all_goals cases hl

theorem Accounted.step (h : step b start s l = some s') : s'.Accounted := by
  by_cases hl : l.removes
  case pos =>
    obtain ⟨tcp, rfl, hc⟩ := ha.step_removes hl h
    exact { ha with isClosed := fun _ => hc }
  case neg =>
    obtain ⟨flags, he⟩ := ha.step_effect (by simpa using hl) h
    exact he.accounted ha

theorem Accounted.farewell_iff : s.Farewell ↔ (s.removed → s.isRunning → s.reset = false → s.answered → s.told) := by
  rw [Farewell, ha.answered_eq, ha.told_eq]

-- A session that was removed before may not be answered now.
theorem Accounted.farewell_of_effect {flags : List UInt8} (he : s.Effect l s' flags) (hf : s.Farewell)
    (hn : s.removed → s.pc = .synAck → l.isNext = false) : s'.Farewell := by
  rw [(he.accounted ha).farewell_iff]
  intro hr hi hs hq
  have hr : s.removed := he.removed_eq ▸ hr
  have hs : s.reset = false := by
    have := he.reset
    grind
  rw [he.answered_eq, he.unanswered (hn hr) hr, Bool.or_false] at hq
  rw [he.told_eq, ha.farewell_iff.mp hf hr (he.isRunning hi) hs hq, Bool.true_or]

theorem Accounted.farewell_step (hf : s.Farewell) (h : Lifetime.step b start s l = some s') :
    s'.Farewell ↔ s.PartsWell l := by
  by_cases hl : l.removes
  case pos =>
    rw [(ha.step h).farewell_iff]
    obtain ⟨tcp, rfl, -⟩ := ha.step_removes hl h
    have hok : s.PartsWell l ↔ (s.isRunning → s.reset = false → s.answered → s.told) := by
      cases l <;> first | rfl | cases hl
    rw [hok]
    exact forall_prop_of_true rfl
  case neg =>
    obtain ⟨flags, he⟩ := ha.step_effect (by simpa using hl) h
    by_cases hp : s.pc = .synAck ∧ l.isNext
    case neg =>
      refine iff_of_true (ha.farewell_of_effect he hf fun _ hs => by simpa [hs] using hp) ?_
      cases l
      case run now => exact fun hs => absurd ⟨hs, rfl⟩ hp
      case remove | blocked | stale => exact absurd rfl hl
      all_goals trivial
    case pos =>
      obtain ⟨hs, hr⟩ := hp
      cases l <;> cases hr
      case run now =>
        rw [(he.accounted ha).farewell_iff]
        have ht : s.told = false := ha.told_eq_false (by rw [hs]; rfl)
        have hr : s.read = .unstarted := ha.unstarted (by rw [hs]; rfl)
        simp only [Lifetime.step, Lifetime.runStep, hs] at h
        cases h
        have ha' : Lifetime.answered { s.sendSynAck with synAckSent := true, pc := .sniff } := rfl
        have ht' : Lifetime.told { s.sendSynAck with synAckSent := true, pc := .sniff } = false := by
          simp [told, sendSynAck, send, advance, hr, RunPc.told, ReadPc.told]
        simp only [ha', ht', PartsWell, hs]
        simp [sendSynAck, send, advance]

end Step

-- The client is told if and only if the session is removed in one of the two ways that tell it.
theorem always_farewell_iff (b : Settings) (start : Start) (initialSeq mySeq : Nat) (dns : DnsMap)
    (ls : List LifetimeLabel) :
    Always (step b start) Farewell (created initialSeq mySeq dns) ls ↔
      Admits (step b start) PartsWell (created initialSeq mySeq dns) ls :=
  always_iff_admits (I := Accounted) (fun _ _ _ ha _ h _ => ha.step h) (fun _ _ _ ha hf h => ha.farewell_step hf h)
    (accounted_created initialSeq mySeq dns) nofun

instance : DecidablePred Farewell :=
  fun s => inferInstanceAs (Decidable (s.removed → s.isRunning → s.reset = false → s.queued isGreeting → s.queued isFarewell))

def refused : List LifetimeLabel :=
  [.run 0, .run 0, .timeout, .run 0, .connects false, .run 0, .remove]

theorem not_always_farewell :
    ¬ Always (step DnsEvent.plainSettings ⟨1, [93, 184, 215, 14], 443, 0⟩) Farewell (created 0 0 .empty) refused :=
  not_always (by decide)

end Lifetime

end App.TunBridge
