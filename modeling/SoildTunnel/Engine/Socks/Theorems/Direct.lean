import SoildTunnel.Engine.Socks.Direct

-- What the remote side sends reaches the client.
namespace Engine.Socks

open Lts List

namespace Pipe

-- What has been sent and not written yet, as long as somebody is there to write it.
def onTheWay (p : Pipe) : Bytes :=
  match p.copy with
  | .reading => p.arrived
  | .writing chunk => chunk ++ p.arrived
  | .ended | .aborted => []

structure Kept (p : Pipe) : Prop where
  all : p.written ++ p.onTheWay = p.sent
  closed : p.copy = .ended → p.closed
  copy_ne : p.copy ≠ .aborted
  chunk_ne : p.copy ≠ .writing []

variable {p p' : Pipe}

theorem kept_init : Kept {} :=
  ⟨rfl, CopyPipe.noConfusion, CopyPipe.noConfusion, CopyPipe.noConfusion⟩

theorem onTheWay_append {bytes : Bytes} (h : p.copy ≠ .ended) (h' : p.copy ≠ .aborted) :
    onTheWay { p with sent := p.sent ++ bytes, arrived := p.arrived ++ bytes } = p.onTheWay ++ bytes := by
  obtain ⟨sent, closed, arrived, copy, written⟩ := p
  cases copy
  case reading => rfl
  case writing chunk => exact (append_assoc ..).symm
  case ended => exact absurd rfl h
  case aborted => exact absurd rfl h'

variable {label : PipeLabel}

theorem step_cases (hs : p.step label = some p') :
    (∃ bytes, label = .sends bytes ∧ ¬ p.closed ∧ p' = { p with sent := p.sent ++ bytes, arrived := p.arrived ++ bytes }) ∨
    (label = .closes ∧ p' = { p with closed := true }) ∨
    (∃ n, label = .reads n ∧ p.copy = .reading ∧ p.arrived.take n ≠ [] ∧
      p' = { p with arrived := p.arrived.drop n, copy := .writing (p.arrived.take n) }) ∨
    (label = .readsEnd ∧ p.copy = .reading ∧ p.arrived = [] ∧ p.closed ∧ p' = { p with copy := .ended }) ∨
    (∃ n chunk, label = .writes n ∧ p.copy = .writing chunk ∧
      p' = { p with copy := if chunk.drop n = [] then .reading else .writing (chunk.drop n), written := p.written ++ chunk.take n }) ∨
    (label = .fails ∧ p.copy ≠ .ended ∧ p' = { p with copy := .ended }) := by
  cases label
  case sends bytes =>
    simp only [Pipe.step] at hs
    split_ifs at hs with hc
    cases hs
    exact .inl ⟨bytes, rfl, hc, rfl⟩
  case closes =>
    cases hs
    exact .inr (.inl ⟨rfl, rfl⟩)
  case reads n =>
    simp only [Pipe.step] at hs
    split_ifs at hs with hc
    cases hs
    have hn : p.arrived.take n ≠ [] := by
      intro h
      have := congrArg List.length h
      rw [length_take, length_nil] at this
      omega
    exact .inr (.inr (.inl ⟨n, rfl, hc.1, hn, rfl⟩))
  case readsEnd =>
    simp only [Pipe.step] at hs
    split_ifs at hs with hc
    cases hs
    exact .inr (.inr (.inr (.inl ⟨rfl, hc.1, hc.2.1, hc.2.2, rfl⟩)))
  case writes n =>
    simp only [Pipe.step] at hs
    split at hs
    case h_2 => cases hs
    case h_1 chunk hw =>
      obtain ⟨-, hs⟩ := Option.ite_none_right_eq_some.mp hs
      cases hs
      exact .inr (.inr (.inr (.inr (.inl ⟨n, chunk, rfl, hw, rfl⟩))))
  case fails =>
    simp only [Pipe.step] at hs
    split at hs
    case h_3 => cases hs
    all_goals
      rename_i hc
      cases hs
      refine .inr (.inr (.inr (.inr (.inr ⟨rfl, ?_, rfl⟩))))
      rw [hc]
      exact CopyPipe.noConfusion

theorem Kept.step (hk : Kept p) (hl : label ≠ .fails) (hs : p.step label = some p') : Kept p' := by
  have h := hk.all
  obtain ⟨bytes, rfl, hc, rfl⟩ | ⟨rfl, rfl⟩ | ⟨n, rfl, hr, hn, rfl⟩ | ⟨rfl, hr, ha, hc, rfl⟩ | ⟨n, chunk, rfl, hw, rfl⟩ |
    ⟨rfl, -⟩ := step_cases hs
  · have he : p.copy ≠ .ended := fun h => hc (hk.closed h)
    refine ⟨?_, hk.closed, hk.copy_ne, hk.chunk_ne⟩
    rw [onTheWay_append he hk.copy_ne, ← append_assoc, h]
  · exact ⟨h, fun _ => rfl, hk.copy_ne, hk.chunk_ne⟩
  · refine ⟨?_, CopyPipe.noConfusion, CopyPipe.noConfusion, fun he => hn (CopyPipe.writing.inj he)⟩
    simp only [onTheWay, hr] at h
    simp only [onTheWay, take_append_drop, h]
  · refine ⟨?_, fun _ => hc, CopyPipe.noConfusion, CopyPipe.noConfusion⟩
    simp only [onTheWay, hr, ha] at h
    exact h
  · simp only [onTheWay, hw] at h
    by_cases hd : chunk.drop n = []
    case pos =>
      have ht : chunk.take n = chunk := take_of_length_le (drop_eq_nil_iff.mp hd)
      rw [if_pos hd]
      refine ⟨?_, CopyPipe.noConfusion, CopyPipe.noConfusion, CopyPipe.noConfusion⟩
      simp only [onTheWay, ht, append_assoc, h]
    case neg =>
      rw [if_neg hd]
      refine ⟨?_, CopyPipe.noConfusion, CopyPipe.noConfusion, fun he => hd (CopyPipe.writing.inj he)⟩
      simp only [onTheWay, append_assoc, ← h]
      rw [← append_assoc (chunk.take n), take_append_drop]
  · exact absurd rfl hl

theorem step_ended (h : p.copy = .ended) (hs : p.step label = some p') : p'.copy = .ended := by
  obtain ⟨_, -, -, rfl⟩ | ⟨-, rfl⟩ | ⟨_, -, hr, -⟩ | ⟨-, -, -, -, rfl⟩ | ⟨_, _, -, hw, -⟩ | ⟨-, -, rfl⟩ := step_cases hs
  case inr.inr.inl => cases h.symm.trans hr
  case inr.inr.inr.inr.inl => cases h.symm.trans hw
  case inl | inr.inl => exact h
  all_goals rfl

theorem ended_step (h : p.copy ≠ .ended) (hs : p.step label = some p') (h' : p'.copy = .ended) :
    label = .readsEnd ∨ label = .fails := by
  obtain ⟨_, -, -, rfl⟩ | ⟨-, rfl⟩ | ⟨_, -, -, -, rfl⟩ | ⟨rfl, -⟩ | ⟨n, chunk, -, -, rfl⟩ | ⟨rfl, -⟩ := step_cases hs
  · exact absurd h' h
  · exact absurd h' h
  · cases h'
  · exact .inl rfl
  · by_cases hd : chunk.drop n = []
    · cases (if_pos hd).symm.trans h'
    · cases (if_neg hd).symm.trans h'
  · exact .inr rfl

end Pipe

namespace DirectRelay

-- Every byte that the remote side has sent is written to the client, or there is a copy that has it
-- or will read it.
def Delivered (s : DirectRelay) : Prop :=
  s.clientFailed = true ∨ s.down.written ++ s.down.onTheWay = s.down.sent

instance (s : DirectRelay) : Decidable s.Delivered :=
  inferInstanceAs (Decidable (_ ∨ _))

variable {awaits : Direction} {s s' : DirectRelay} {label : DirectLabel}

theorem step_cases (hs : step awaits s label = some s') :
    (∃ l up, label = .up l ∧ s.up.step l = some up ∧ s' = { s with up }) ∨
    (∃ l down, label = .down l ∧ (l = .fails → s.clientFailed = true) ∧ s.down.step l = some down ∧ s' = { s with down }) ∨
    (label = .clientFails ∧ s' = { s with clientFailed := true }) ∨
    (label = .abort ∧ awaits = .up ∧ s.up.copy = .ended ∧ s' = { s with down := s.down.abort }) ∨
    (label = .abort ∧ awaits = .down ∧ s.down.copy = .ended ∧ s' = { s with up := s.up.abort }) := by
  cases label
  case up l =>
    simp only [step] at hs
    split_ifs at hs
    obtain ⟨up, hu, rfl⟩ := Option.map_eq_some_iff.mp hs
    exact .inl ⟨l, up, rfl, hu, rfl⟩
  case down l =>
    simp only [step] at hs
    split_ifs at hs with hc
    obtain ⟨down, hd, rfl⟩ := Option.map_eq_some_iff.mp hs
    exact .inr (.inl ⟨l, down, rfl, fun hl => by simpa [hl] using hc, hd, rfl⟩)
  case clientFails =>
    cases hs
    exact .inr (.inr (.inl ⟨rfl, rfl⟩))
  case abort =>
    cases awaits
    case up =>
      simp only [step] at hs
      split_ifs at hs with hc
      cases hs
      exact .inr (.inr (.inr (.inl ⟨rfl, rfl, hc, rfl⟩)))
    case down =>
      simp only [step] at hs
      split_ifs at hs with hc
      cases hs
      exact .inr (.inr (.inr (.inr ⟨rfl, rfl, hc, rfl⟩)))

def Sound (s : DirectRelay) : Prop :=
  s.clientFailed = true ∨ s.down.Kept

theorem sound_init : Sound {} :=
  .inr Pipe.kept_init

theorem Sound.delivered (h : Sound s) : Delivered s :=
  h.imp_right Pipe.Kept.all

theorem step_clientFailed (hf : s.clientFailed = true) (hs : step awaits s label = some s') : s'.clientFailed = true := by
  obtain ⟨_, _, -, -, rfl⟩ | ⟨_, _, -, -, -, rfl⟩ | ⟨-, rfl⟩ | ⟨-, -, -, rfl⟩ | ⟨-, -, -, rfl⟩ := step_cases hs
  case inr.inr.inl => rfl
  all_goals exact hf

-- The copy towards the client is over, or there is no client, whenever it may be aborted.
def Patient (awaits : Direction) (s : DirectRelay) : Prop :=
  awaits = .up → s.up.copy = .ended → s.down.copy = .ended ∨ s.clientFailed = true

theorem abort_of_ended {p : Pipe} (h : p.copy = .ended) : p.abort = p := by
  rw [Pipe.abort, if_pos h, ← h]

theorem Sound.step (hi : Sound s) (hp : Patient awaits s) (hs : step awaits s label = some s') : Sound s' := by
  obtain hf | hk := hi
  case inl => exact .inl (step_clientFailed hf hs)
  case inr =>
    obtain ⟨_, _, -, -, rfl⟩ | ⟨l, down, -, hl, hd, rfl⟩ | ⟨-, rfl⟩ | ⟨-, rfl, hu, rfl⟩ | ⟨-, -, -, rfl⟩ := step_cases hs
    · exact .inr hk
    · by_cases h : l = .fails
      case pos => exact .inl (hl h)
      case neg => exact .inr (hk.step h hd)
    · exact .inl rfl
    · obtain he | hf := hp rfl hu
      · rw [Sound, abort_of_ended he]
        exact .inr hk
      · exact .inl hf
    · exact .inr hk

-- The copy towards the remote side does not end before the one towards the client, unless the client
-- has failed.
def EndsLast (s : DirectRelay) : DirectLabel → Prop
  | .up .readsEnd | .up .fails => s.down.copy = .ended ∨ s.clientFailed = true
  | _ => True

instance (s : DirectRelay) : (label : DirectLabel) → Decidable (EndsLast s label)
  | .up .readsEnd | .up .fails => inferInstanceAs (Decidable (_ ∨ _))
  | .up (.sends _) | .up .closes | .up (.reads _) | .up (.writes _) | .down _ | .clientFails | .abort => isTrue trivial

theorem Patient.step (hp : Patient .up s) (he : EndsLast s label) (hs : DirectRelay.step .up s label = some s') :
    Patient .up s' := by
  intro _ hu
  obtain ⟨l, up, rfl, hup, rfl⟩ | ⟨l, down, -, -, hd, rfl⟩ | ⟨-, rfl⟩ | ⟨-, -, hu', rfl⟩ | ⟨-, h, -⟩ := step_cases hs
  · by_cases hb : s.up.copy = .ended
    case pos => exact hp rfl hb
    case neg =>
      obtain rfl | rfl := Pipe.ended_step hb hup hu
      · exact he
      · exact he
  · exact (hp rfl hu).imp_left fun h => Pipe.step_ended h hd
  · exact .inr rfl
  · exact (hp rfl hu').imp_left fun h => abort_of_ended h ▸ h
  · cases h

theorem relayHttpDirect_delivers (labels : List DirectLabel) (h : Admits relayHttpDirect EndsLast {} labels) :
    Always relayHttpDirect Delivered {} labels :=
  always_of_admits (I := fun s => Sound s ∧ Patient .up s)
    (fun _ _ _ hi he hs => ⟨hi.1.step hi.2 hs, hi.2.step he hs⟩) (fun _ hi => hi.1.delivered)
    ⟨sound_init, fun _ h => by cases h⟩ h

def answered : List DirectLabel :=
  [.down (.sends [1, 2]), .down (.reads 2), .down (.writes 1), .down .closes, .down (.writes 1), .down .readsEnd,
    .up .closes, .up .readsEnd, .abort]

theorem relayHttpDirect_delivers_answered :
    Always relayHttpDirect Delivered {} answered ∧ (exec relayHttpDirect {} answered).isSome :=
  ⟨relayHttpDirect_delivers answered (by decide), by decide⟩

def halfClosed : List DirectLabel :=
  [.up .closes, .up .readsEnd, .down (.sends [1]), .abort]

theorem not_relayHttpDirect_delivers : ¬ Always relayHttpDirect Delivered {} halfClosed :=
  not_always (by decide)

end DirectRelay

end Engine.Socks
