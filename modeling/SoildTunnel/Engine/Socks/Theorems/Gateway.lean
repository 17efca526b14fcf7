import SoildTunnel.Engine.Socks.Gateway

-- When a refusal of the gateway stands, over all connections of a run.
namespace Engine.Socks

open Rust List

-- The gateway's own verdict, and not a fault of it, ended the attempt.
def AttemptPc.RefusedAround : AttemptPc → Prop
  | .around (some error) => error.faulty = false
  | _ => False

instance : DecidablePred AttemptPc.RefusedAround
  | .around (some error) => inferInstanceAs (Decidable (error.faulty = false))
  | .around none | .start | .connect | .ask _ | .answer _ | .failed _ | .through _ | .dial _ | .ended =>
    isFalse id

namespace Attempt

variable {a : Attempt} {gateway : Option SocketAddr} {l : AttemptLabel} {pc : AttemptPc}

theorem next_retire (h : a.next gateway .retire = some pc) :
    ∃ error, a.pc = .failed error ∧ pc = .dial (some error) := by
  simp only [next] at h
  split at h
  case h_1 error hpc => cases h; exact ⟨error, hpc, rfl⟩
  case h_2 => cases h

theorem next_dial {ok : Bool} (h : a.next gateway (.dial ok) = some pc) :
    ∃ error, a.pc = .dial error ∧ pc = if ok then .around error else .ended := by
  simp only [next] at h
  split at h
  case h_1 error hpc => cases h; exact ⟨error, hpc, rfl⟩
  case h_2 => cases h

theorem readAnswer_not_around {head : Bytes} : ¬ (a.readAnswer head).RefusedAround := by
  unfold readAnswer
  split
  case h_1 => split <;> exact id
  case h_2 => split <;> exact id

theorem next_not_around (h : a.next gateway l = some pc) (hl : ∀ ok, l ≠ .dial ok) : ¬ pc.RefusedAround := by
  cases l
  case dial ok => exact absurd rfl (hl ok)
  case chunk bytes =>
    simp only [next] at h
    split at h
    case h_1 => cases h; exact readAnswer_not_around
    case h_2 => cases h
  case route | connect =>
    simp only [next] at h
    split at h
    case isTrue => cases h; split <;> exact id
    case isFalse => cases h
  case ask ok =>
    simp only [next] at h
    split at h
    case h_1 => cases h; split <;> exact id
    case h_2 => cases h
  case noAnswer | closed | retire =>
    simp only [next] at h
    split at h
    case h_1 => cases h; exact id
    case h_2 => cases h

end Attempt

namespace Gateway

variable {s s' : Gateway} {l : GatewayLabel}

-- No refused connection is opened around the gateway, and only a faulty gateway is retired.
structure Enforced (s : Gateway) : Prop where
  refusal : ∀ a ∈ s.attempts, ¬ a.pc.RefusedAround
  healthy : s.healthy ∨ s.faulty

instance : Decidable s.Enforced :=
  decidable_of_iff ((∀ a ∈ s.attempts, ¬ a.pc.RefusedAround) ∧ (s.healthy ∨ s.faulty))
    ⟨fun h => ⟨h.1, h.2⟩, fun h => ⟨h.1, h.2⟩⟩

-- A refusal retires no gateway that has not been found faulty already, and if it comes to a dial,
-- that fails.
def Heeded (s : Gateway) : GatewayLabel → Prop
  | .accept .. => True
  | .attempt i l => ∀ a ∈ s.attempts[i]?,
    match l, a.pc with
    | .retire, .failed error => error.faulty ∨ s.faulty
    | .dial true, .dial (some error) => error.faulty
    | _, _ => True

-- Where an attempt has failed for a fault, the fault has been seen.
def FaultsSeen (s : Gateway) : Prop :=
  ∀ a ∈ s.attempts, faultOf a.pc → s.faulty

theorem step_attempt {i : Nat} {l : AttemptLabel} (h : s.step (.attempt i l) = some s') :
    ∃ a pc, s.attempts[i]? = some a ∧ a.next s.gatewayProxy l = some pc ∧
      s' = { s with
        healthy := s.healthy && l ≠ .retire
        attempts := s.attempts.set i { a with pc }
        faulty := s.faulty || faultOf pc } := by
  obtain ⟨a, ha, h⟩ := Option.bind_eq_some_iff.mp h
  obtain ⟨pc, hpc, rfl⟩ := Option.map_eq_some_iff.mp h
  exact ⟨a, pc, ha, hpc, rfl⟩

theorem FaultsSeen.step (hi : s.FaultsSeen) (h : s.step l = some s') : s'.FaultsSeen := by
  cases l
  case accept target port =>
    cases h
    intro a ha hf
    obtain ha | ha := mem_append.mp ha
    case inl => exact hi a ha hf
    case inr => rw [mem_singleton.mp ha] at hf; cases hf
  case attempt i l =>
    obtain ⟨a, pc, -, -, rfl⟩ := step_attempt h
    intro b hb hf
    obtain hb | rfl := mem_or_eq_of_mem_set hb
    case inl => simp [hi b hb hf]
    case inr => simp [show faultOf pc from hf]

theorem Enforced.attempt_iff {i : Nat} {l : AttemptLabel} {a : Attempt} {pc : AttemptPc} (hp : s.Enforced)
    (ha : s.attempts[i]? = some a) :
    Enforced { s with
        healthy := s.healthy && l ≠ .retire
        attempts := s.attempts.set i { a with pc }
        faulty := s.faulty || faultOf pc } ↔
      ¬ pc.RefusedAround ∧ (l = .retire → s.faulty ∨ faultOf pc) := by
  have hi : i < s.attempts.length := (List.getElem?_eq_some_iff.mp ha).1
  constructor
  case mp =>
    intro ⟨hr, hh⟩
    refine ⟨hr _ (mem_set hi _), ?_⟩
    rintro rfl
    simpa using hh
  case mpr =>
    intro ⟨hr, hh⟩
    refine ⟨fun b hb => ?_, ?_⟩
    · obtain hb | rfl := mem_or_eq_of_mem_set hb
      case inl => exact hp.refusal b hb
      case inr => exact hr
    · by_cases hl : l = .retire
      case pos => simpa [hl] using hh hl
      case neg => have := hp.healthy; simp [hl]; tauto

theorem enforced_iff_heeded (hi : s.FaultsSeen) (hp : s.Enforced) (h : s.step l = some s') :
    s'.Enforced ↔ s.Heeded l := by
  cases l
  case accept target port =>
    cases h
    refine iff_of_true ⟨fun a ha => ?_, hp.healthy⟩ trivial
    obtain ha | ha := mem_append.mp ha
    case inl => exact hp.refusal a ha
    case inr => rw [mem_singleton.mp ha]; exact id
  case attempt i l =>
    obtain ⟨a, pc, ha, hn, rfl⟩ := step_attempt h
    rw [hp.attempt_iff ha]
    simp only [Heeded, ha, Option.mem_some_iff, forall_eq']
    cases l
    case retire =>
      obtain ⟨error, hpc, rfl⟩ := Attempt.next_retire hn
      have hf : error.faulty → s.faulty := fun h => hi a (mem_of_getElem? ha) (by rwa [hpc])
      simp only [hpc, AttemptPc.RefusedAround, faultOf]
      tauto
    case dial ok =>
      obtain ⟨error, hpc, rfl⟩ := Attempt.next_dial hn
      cases ok
      case false => simp [AttemptPc.RefusedAround]
      case true => cases error <;> simp [hpc, AttemptPc.RefusedAround]
    all_goals
      have hr := Attempt.next_not_around hn nofun
      simp [hr]

theorem always_enforced_iff (proxy : SocketAddr) (ls : List GatewayLabel) :
    Lts.Always step Enforced { proxy := some proxy } ls ↔ Lts.Admits step Heeded { proxy := some proxy } ls :=
  Lts.always_iff_admits (I := FaultsSeen) (fun _ _ _ hi _ h _ => hi.step h)
    (fun _ _ _ hi hp h => enforced_iff_heeded hi hp h) (by simp [FaultsSeen])
    ⟨by simp, .inl rfl⟩

def forbidden : List GatewayLabel :=
  [.accept (.domain "a.b".toList) 443, .attempt 0 .route, .attempt 0 (.connect true),
    .attempt 0 (.ask true), .attempt 0 (.chunk (Text.utf8 "HTTP/1.1 403 Forbidden\r\n\r\n".toList)),
    .attempt 0 .retire, .attempt 0 (.dial true)]

theorem not_always_enforced : ¬ Lts.Always step Enforced { proxy := some ⟨.v4 (.new 10 0 0 1), 3128⟩ } forbidden := by
  refine Lts.not_always ?_
  decide +kernel

end Gateway

end Engine.Socks
