import SoildTunnel.App.Diagnostics
import SoildTunnel.App.Theorems.Coroutine

-- What the self-test has found whenever the service reports Connected.
namespace App

namespace Diagnostics

def AllPassed (checks : List ComponentCheck) : Prop :=
  ∀ id, stateOf checks id = some .pass

variable {checks : List ComponentCheck}

theorem allPassed_iff :
    AllPassed checks ↔ stateOf checks .port = some .pass ∧ stateOf checks .handshake = some .pass ∧
      stateOf checks .tcp = some .pass ∧ stateOf checks .dns = some .pass := by
  refine ⟨fun h => ⟨h _, h _, h _, h _⟩, fun h id => ?_⟩
  cases id
  case port => exact h.1
  case handshake => exact h.2.1
  case tcp => exact h.2.2.1
  case dns => exact h.2.2.2

instance AllPassed.decidable (checks : List ComponentCheck) : Decidable (AllPassed checks) :=
  decidable_of_iff _ allPassed_iff.symm

theorem allPassed_of_ne_tcp (h : ∀ id ≠ .tcp, stateOf checks id = some .pass) :
    AllPassed checks ↔ stateOf checks .tcp = some .pass := by
  refine ⟨fun h => h _, fun ht id => ?_⟩
  by_cases hi : id = .tcp
  case pos => exact hi ▸ ht
  case neg => exact h id hi

-- The result is that of the last check alone, but it is only reached over the first two.
theorem run_eq_true_iff (checks : List ComponentCheck) (p : Probes) :
    (run checks p).2 = some true ↔ p.interruption = none ∧ p.port ∧ p.handshake ∧ p.dnsOk := by
  unfold run
  rcases p.interruption with _ | (_ | _ | _) <;> cases p.port <;> cases p.handshake <;> simp

variable {p : Probes}

theorem stateOf_run (h : (run checks p).2 = some true) : ∀ id ≠ .tcp, stateOf (run checks p).1 id = some .pass := by
  obtain ⟨hi, hp, hh, hd⟩ := (run_eq_true_iff checks p).mp h
  intro id hid
  cases id
  case tcp => exact absurd rfl hid
  all_goals simp [run, hi, hp, hh, hd, updateCheck, resetChecks, verdict, stateOf]

theorem stateOf_run_tcp (h : (run checks p).2 = some true) :
    stateOf (run checks p).1 .tcp = some (verdict p.tcpOk) := by
  obtain ⟨hi, hp, hh, hd⟩ := (run_eq_true_iff checks p).mp h
  simp [run, hi, hp, hh, updateCheck, resetChecks, stateOf]

theorem run_of_selfTest (h : (selfTest checks p).2 = true) : (run checks p).2 = some true := by
  have h : (run checks p).2.getD false = true := h
  cases hr : (run checks p).2
  case none => simp [hr] at h
  case some ok => simpa [hr] using h

end Diagnostics

namespace VpnService

open Diagnostics Option

def Pc.tests : Pc → Bool
  | .verify .. | .reverify .. => true
  | _ => false

-- The service with its self-tests: what a coroutine waits for is what the probes say. `checks` is
-- what a coroutine's last self-test has recorded, `behind` what the last report of Connected rests on.
structure Tested where
  service : State := {}
  checks : Nat → List ComponentCheck := fun _ => []
  behind : List ComponentCheck := []

inductive TestLabel
  | selfTest (id : Nat) (p : Probes)
  | service (l : Label)

namespace Tested

def testing (t : Tested) (id : Nat) : Bool :=
  (t.service.pcOf id).any Pc.tests

def label (t : Tested) : TestLabel → Option Label
  | .selfTest id p =>
    if t.testing id then some (.run id (.outcome (selfTest (t.checks id) p).2)) else none
  | .service (.run id (.outcome ok)) => if t.testing id then none else some (.run id (.outcome ok))
  | .service l => some l

def record (t : Tested) : TestLabel → Nat → List ComponentCheck
  | .selfTest id p => Function.update t.checks id (selfTest (t.checks id) p).1
  | .service _ => t.checks

def reporter (t : Tested) (l : TestLabel) : Option Nat :=
  match t.label l with
  | some (.run id e) => if (t.service.pcOf id).any (Reports · e) then some id else none
  | _ => none

def step (t : Tested) (l : TestLabel) : Option Tested :=
  (t.label l).bind fun l' => (t.service.step l').map fun service =>
    { service, checks := t.record l, behind := (t.reporter l).elim t.behind (t.record l) }

def Verified (t : Tested) : Prop :=
  t.service.connection = .connected → AllPassed t.behind

instance Verified.decidable (t : Tested) : Decidable t.Verified :=
  inferInstanceAs (Decidable (_ → _))

-- In a self-test in which the other probes succeed, one of the attempts at TCP does.
def TcpFollows : TestLabel → Prop
  | .selfTest _ p => p.interruption = none → p.port → p.handshake → p.dnsOk → p.tcpOk
  | .service _ => True

instance TcpFollows.decidable : (l : TestLabel) → Decidable (TcpFollows l)
  | .selfTest _ _ => inferInstanceAs (Decidable (_ → _))
  | .service _ => inferInstanceAs (Decidable True)

def Knows (Q : List ComponentCheck → Prop) (t : Tested) : Prop :=
  ∀ id c, t.service.pcOf id = some (.won c) → Q (t.checks id)

def Leaves (Q : List ComponentCheck → Prop) (t : Tested) (l : TestLabel) : Prop :=
  ∀ id p, l = .selfTest id p → (selfTest (t.checks id) p).2 = true → Q (selfTest (t.checks id) p).1

variable {Q : List ComponentCheck → Prop} {t t' : Tested} {id : Nat} {l : TestLabel} {e : Event} {pc : Pc}

variable {l' : Label}

theorem label_cases (h : t.label l = some l') :
    (∃ id p, l = .selfTest id p ∧ l' = .run id (.outcome (selfTest (t.checks id) p).2)) ∨
      l = .service l' ∧ ∀ id ok, l' = .run id (.outcome ok) → t.testing id = false := by
  unfold label at h
  split at h
  case h_1 id p => split at h <;> cases h; exact .inl ⟨id, p, rfl, rfl⟩
  case h_2 id ok =>
    split at h <;> cases h
    case isFalse ht =>
      refine .inr ⟨rfl, fun i ok h => ?_⟩
      cases h
      exact Bool.eq_false_of_not_eq_true ht
  case h_3 l hl => cases h; exact .inr ⟨rfl, fun i ok h => absurd h (hl i ok)⟩

theorem record_of_ne {i : Nat} (hl : t.label l = some (.run id e)) (hi : i ≠ id) : t.record l i = t.checks i := by
  rcases label_cases hl with ⟨id, p, rfl, he⟩ | ⟨rfl, -⟩
  case inl =>
    cases he
    exact Function.update_of_ne hi ..
  case inr => rfl

theorem record_of_testing (hq : t.Leaves Q l) (hl : t.label l = some (.run id (.outcome true))) (ht : t.testing id) :
    Q (t.record l id) := by
  rcases label_cases hl with ⟨i, p, rfl, he⟩ | ⟨rfl, hn⟩
  case inl =>
    obtain ⟨rfl, hp⟩ : id = i ∧ true = (selfTest (t.checks i) p).2 := by simpa using he
    simp only [record, Function.update_self]
    exact hq id p rfl hp.symm
  case inr => simp [hn id true rfl] at ht

theorem record_of_go (hl : t.label l = some (.run id .go)) : t.record l = t.checks := by
  rcases label_cases hl with ⟨i, p, rfl, he⟩ | ⟨rfl, -⟩
  case inl => cases he
  case inr => rfl

theorem reporter_eq_some (h : t.reporter l = some id) :
    ∃ e pc, t.label l = some (.run id e) ∧ t.service.pcOf id = some pc ∧ Reports pc e := by
  unfold reporter at h
  split at h
  case h_1 i e hl =>
    obtain ⟨hr, rfl⟩ : _ ∧ i = id := by simpa using h
    obtain ⟨pc, hpc, hr⟩ := (any_eq_true ..).mp hr
    exact ⟨e, pc, hl, hpc, hr⟩
  case h_2 => cases h

theorem Knows.reporter (h : t.Knows Q) (hq : t.Leaves Q l) (hr : t.reporter l = some id) : Q (t.record l id) := by
  obtain ⟨e, pc, hl, hpc, hr⟩ := reporter_eq_some hr
  rcases State.reports_cases hr with ⟨c, rfl, rfl⟩ | ⟨c, w, rfl, rfl⟩
  case inl => exact record_of_go hl ▸ h id c hpc
  case inr => exact record_of_testing hq hl (by simp [testing, hpc, Pc.tests])

theorem step_eq_some (h : t.step l = some t') :
    ∃ l', t.label l = some l' ∧ t.service.step l' = some t'.service ∧ t'.checks = t.record l ∧
      t'.behind = (t.reporter l).elim t.behind (t.record l) := by
  obtain ⟨l', hl, h⟩ := bind_eq_some_iff.mp h
  obtain ⟨s, hs, rfl⟩ := map_eq_some_iff.mp h
  exact ⟨l', hl, hs, rfl, rfl⟩

theorem record_of_not_isRun (hl : t.label l = some l') (hr : l'.isRun = false) :
    t.record l = t.checks ∧ t.reporter l = none := by
  refine ⟨?_, ?_⟩
  case refine_1 =>
    rcases label_cases hl with ⟨i, p, rfl, rfl⟩ | ⟨rfl, -⟩
    case inl => cases hr
    case inr => rfl
  case refine_2 =>
    unfold reporter
    rw [hl]
    cases l'
    case run => cases hr
    all_goals rfl

theorem exists_run (h : l'.isRun = true) : ∃ id e, l' = .run id e := by
  cases l'
  case run id e => exact ⟨id, e, rfl⟩
  all_goals cases h

theorem moves_won {s : State} {c : ConnectionProfile} (h : Moves s pc e (.won c)) :
    ∃ rest, pc = .verify c rest ∧ e = .outcome true := by
  cases h
  case other ho => cases ho
  case won rest => exact ⟨rest, rfl, rfl⟩

theorem Knows.step (h : t.Knows Q) (hq : t.Leaves Q l) (hs : t.step l = some t') : t'.Knows Q := by
  obtain ⟨l', hl, hs, hc, -⟩ := step_eq_some hs
  intro i c hpc'
  rw [hc]
  cases hr : l'.isRun
  case false =>
    rw [(record_of_not_isRun hl hr).left]
    rcases (State.started_step hr hs).others i _ hpc' with hpc | hf
    case inl => exact h i c hpc
    case inr => cases hf
  case true =>
    obtain ⟨id, e, rfl⟩ := exists_run hr
    obtain ⟨pc, hpc, hm⟩ := State.moved_step hs
    by_cases hi : i = id
    case pos =>
      subst hi
      obtain ⟨q, hp, hm⟩ := hm.moves
      cases hp.symm.trans hpc'
      obtain ⟨rest, rfl, rfl⟩ := moves_won hm
      exact record_of_testing hq hl (by simp [testing, hpc, Pc.tests])
    case neg =>
      rw [record_of_ne hl hi]
      rcases hm.others i hi _ hpc' with hpc | hf
      case inl => exact h i c hpc
      case inr => cases hf

theorem Verified.silent (hv : t.Verified) (hr : t.reporter l = none) (hs : t.step l = some t') : t'.Verified := by
  obtain ⟨l', hl, hs, -, hb⟩ := step_eq_some hs
  intro hc
  rw [hb, hr]
  apply hv
  cases hrun : l'.isRun
  case false => exact (State.started_step hrun hs).reports hc
  case true =>
    obtain ⟨id, e, rfl⟩ := exists_run hrun
    obtain ⟨pc, hpc, hm⟩ := State.moved_step hs
    refine (hm.reports hc).resolve_right fun hn => ?_
    simp [reporter, hl, hpc, hn] at hr

theorem Verified.report (hs : t.step l = some t') (hr : t.reporter l = some id) :
    t'.Verified ↔ AllPassed (t.record l id) := by
  obtain ⟨e, pc, hl, hpc, hre⟩ := reporter_eq_some hr
  obtain ⟨l', hl', hs, -, hb⟩ := step_eq_some hs
  cases hl.symm.trans hl'
  have hc := State.connected_of_reports hs hpc hre
  simp only [Verified, hc, forall_const, hb, hr, elim_some]

theorem leaves_allPassed (h : TcpFollows l) : t.Leaves AllPassed l := by
  rintro id p rfl hp
  have hr := run_of_selfTest hp
  obtain ⟨hi, hport, hh, hd⟩ := (run_eq_true_iff (t.checks id) p).mp hr
  have ht : stateOf (run (t.checks id) p).1 .tcp = some .pass := by
    rw [stateOf_run_tcp hr, h hi hport hh hd]
    rfl
  exact (allPassed_of_ne_tcp (stateOf_run hr)).mpr ht

theorem knows_init : Knows Q {} := by
  intro id c h
  cases h

theorem verified_init : Verified {} := by
  intro h
  cases h

-- In terms of what the probes find: the service reports Connected over four passed checks as long as
-- TCP works whenever the lookup does.
theorem always_verified_of_tcpFollows {run : List TestLabel}
    (h : Lts.Admits step (fun _ l => TcpFollows l) {} run) : Lts.Always step Verified {} run := by
  refine Lts.always_of_admits (I := fun t => t.Knows AllPassed ∧ t.Verified) ?_ ?_ ⟨knows_init, verified_init⟩ h
  case refine_1 =>
    intro t l t' ⟨hk, hv⟩ hf hs
    refine ⟨hk.step (leaves_allPassed hf) hs, ?_⟩
    cases hr : t.reporter l
    case none => exact hv.silent hr hs
    case some id => exact (Verified.report hs hr).mpr (hk.reporter (leaves_allPassed hf) hr)
  case refine_2 => exact fun _ hi => hi.right

def connecting (p : Probes) : List TestLabel :=
  [.service (.connect { protocol := .masque }), .service (.run 0 .go), .service (.run 0 .go),
    .service (.run 0 (.plan [{ protocol := .masque }])), .service (.run 0 .go), .service (.run 0 .go),
    .service (.run 0 (.outcome true)), .service (.run 0 (.outcome true)), .service (.run 0 (.outcome true)),
    .service (.run 0 (.outcome true)), .selfTest 0 p, .service (.run 0 .go)]

def found (tcp : Bool) : Probes where
  port := true
  handshake := true
  tcp := false
  tcpAgain := [false, tcp]
  info := some { ip := "203.0.113.7", countryCode := none }

theorem always_verified_found : (Lts.exec step {} (connecting (found true))).isSome ∧
    Lts.Always step Verified {} (connecting (found true)) :=
  ⟨by decide +kernel, always_verified_of_tcpFollows (by decide +kernel)⟩

theorem not_always_verified : ¬ Lts.Always step Verified {} (connecting (found false)) :=
  Lts.not_always (by decide +kernel)

end Tested

end VpnService

end App
