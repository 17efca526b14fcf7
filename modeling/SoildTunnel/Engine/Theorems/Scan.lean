import SoildTunnel.Engine.Hunt

-- Which endpoints a search can return.
namespace Engine.Scan

open Rust Distinct List Option Lts

def Verdict.Forall {α : Type} (K : α → Prop) : Verdict α → Prop
  | .skip => True
  | .keep kept => K kept
  | .finish kept => K kept

namespace Hunt

variable {α : Type} {st : Strategy} {consider : α → ProbeResult → Verdict α}
variable {Q : SocketAddr → Prop} {K : α → Prop} {h h' : Hunt α} {r : Round}

-- The endpoints that are still to come have a property, and what is kept has one that follows from it.
structure Within (Q : SocketAddr → Prop) (K : α → Prop) (h : Hunt α) : Prop where
  pool : h.pool.Forall Q
  kept : K h.kept

theorem step_cases (hs : h.step st consider r = some h') : h.finished = false ∧
      ((h' = { h with finished := true } ∧ h.received st r = none) ∨
        ∃ i addr pool, h.pool.complete i = some (addr, pool) ∧
          ((h' = { h with pool } ∧ h.received st r = none) ∨
            ∃ rtt now, h' = { h with pool }.probed st consider ⟨addr.ip, addr.port, rtt⟩ now ∧
              h.received st r = some ⟨addr.ip, addr.port, rtt⟩)) := by
  unfold step at hs
  obtain ⟨hf, hs⟩ := ite_none_left_eq_some.mp hs
  refine ⟨Bool.eq_false_iff.mpr hf, ?_⟩
  split at hs
  case isTrue ht => cases hs; exact .inl ⟨rfl, by simp [received, ht]⟩
  case isFalse ht =>
    split at hs
    case h_1 ho => cases hs; exact .inl ⟨rfl, by simp [received, ho]⟩
    case h_2 ho =>
      have ⟨_, hs⟩ := ite_none_right_eq_some.mp hs
      cases hs
      exact .inl ⟨rfl, by simp [received, ho]⟩
    case h_3 i rtt now ho =>
      have ⟨⟨addr, pool⟩, hp, hs⟩ := bind_eq_some_iff.mp hs
      refine .inr ⟨i, addr, pool, hp, ?_⟩
      rcases rtt with _ | rtt
      · cases hs; exact .inl ⟨rfl, by simp [received, ho]⟩
      · cases hs
        obtain ⟨a, ha, he⟩ := map_eq_some_iff.mp hp
        cases he
        exact .inr ⟨rtt, now, rfl, by simp [received, ht, ho, ha]⟩

theorem probed_cases (st : Strategy) (consider : α → ProbeResult → Verdict α) (h : Hunt α) (pr : ProbeResult) (now : Nat) :
    (h.probed st consider pr now).pool = h.pool ∧
      ((consider h.kept pr = .skip ∧ h.probed st consider pr now = h) ∨
        (consider h.kept pr = .keep (h.probed st consider pr now).kept) ∨
        (consider h.kept pr = .finish (h.probed st consider pr now).kept ∧ (h.probed st consider pr now).finished = true)) := by
  have hcount (kept : α) : (h.count st kept now).pool = h.pool ∧ (h.count st kept now).kept = kept := by
    simp only [count]
    split
    case isFalse => exact ⟨rfl, rfl⟩
    case isTrue => split <;> exact ⟨rfl, rfl⟩
  unfold probed
  split
  case h_1 => exact ⟨rfl, .inl ⟨by assumption, rfl⟩⟩
  case h_2 kept he => exact ⟨(hcount kept).1, .inr (.inl (by rw [(hcount kept).2, he]))⟩
  case h_3 kept he => exact ⟨rfl, .inr (.inr ⟨he, rfl⟩)⟩

theorem within_probed (hc : ∀ kept pr, K kept → Q pr.addr → (consider kept pr).Forall K)
    (hw : h.Within Q K) {pr : ProbeResult} (hq : Q pr.addr) (now : Nat) :
    (h.probed st consider pr now).Within Q K := by
  have hv := hc h.kept pr hw.kept hq
  have ⟨hp, hcase⟩ := probed_cases st consider h pr now
  rcases hcase with ⟨-, he⟩ | he | ⟨he, -⟩
  · rw [he]
    exact hw
  · exact ⟨hp ▸ hw.pool, by rwa [he] at hv⟩
  · exact ⟨hp ▸ hw.pool, by rwa [he] at hv⟩

theorem within_step (hc : ∀ kept pr, K kept → Q pr.addr → (consider kept pr).Forall K)
    (hw : h.Within Q K) (hs : h.step st consider r = some h') : h'.Within Q K := by
  obtain ⟨-, ⟨rfl, -⟩ | ⟨i, addr, pool, hp, hcase⟩⟩ := step_cases hs
  · exact ⟨hw.pool, hw.kept⟩
  · have ⟨hq, hp⟩ := hw.pool.complete hp
    rcases hcase with ⟨rfl, -⟩ | ⟨rtt, now, rfl, -⟩
    · exact ⟨hp, hw.kept⟩
    · have hw' : { h with pool }.Within Q K := ⟨hp, hw.kept⟩
      have hq' : Q (ProbeResult.addr ⟨addr.ip, addr.port, rtt⟩) := hq
      exact within_probed hc hw' hq' now

end Hunt

variable {cm : CaseMap} {w : World} {request : ScanRequest} {s s' : Search} {event : Event}

theorem mem_of_mem_distinctByIp {found : List ProbeResult} {pr : ProbeResult} (h : pr ∈ distinctByIp found) :
    pr ∈ found :=
  mem_mergeSort.mp (mem_of_mem_distinctBy h)

theorem forall_considerGateway {Q : SocketAddr → Prop} (st : Strategy) (excluded : List SocketAddr)
    (best : Option ProbeResult) (pr : ProbeResult) (hb : ∀ b ∈ best, Q b.addr) (hq : Q pr.addr) :
    (considerGateway st excluded best pr).Forall fun best => ∀ b ∈ best, Q b.addr := by
  have hn : ∀ b ∈ some pr, Q b.addr := by simpa using hq
  unfold considerGateway
  split
  case isTrue => trivial
  case isFalse =>
    split
    case isTrue => exact hn
    case isFalse =>
      split
      case h_1 cur => split <;> assumption
      case h_2 => exact hn

theorem forall_considerEndpoint {Q : SocketAddr → Prop} (st : Strategy) (want : Nat)
    (verified : List ProbeResult) (pr : ProbeResult) (hv : ∀ b ∈ verified, Q b.addr) (hq : Q pr.addr) :
    (considerEndpoint st want verified pr).Forall fun verified => ∀ b ∈ verified, Q b.addr := by
  have ha : ∀ b ∈ verified ++ [pr], Q b.addr := by
    intro b hb
    rcases mem_append.mp hb with hb | hb
    · exact hv b hb
    · exact mem_singleton.mp hb ▸ hq
  unfold considerEndpoint
  split
  case isTrue => simpa [Verdict.Forall] using hq
  case isFalse => split <;> exact ha

namespace Search

-- Every endpoint that the search can still return.
def Forall (Q : SocketAddr → Prop) : Search → Prop
  | .masque h => h.Within Q fun best => ∀ pr ∈ best, Q pr.addr
  | .wireGuard h => h.Within Q fun verified => ∀ pr ∈ verified, Q pr.addr
  | .returned result => ∀ e, result = .ok e → Q e.socket

variable {Q : SocketAddr → Prop}

theorem forall_start (h : ∀ c ∈ candidates cm w request, Q c) : (start cm w request).Forall Q := by
  unfold start
  split
  case h_1 => nofun
  case h_2 => exact ⟨Pool.forall_start h, nofun⟩
  case h_3 => exact ⟨Pool.forall_start h, nofun⟩

theorem forall_outcome {best : Option ProbeResult} (h : ∀ pr ∈ best, Q pr.addr) :
    (returned (ProbeResult.outcome best)).Forall Q := by
  intro e he
  cases best
  case none => cases he
  case some pr => cases he; exact h pr rfl

theorem Forall.step (h : s.Forall Q) (hs : s.step cm w request event = some s') : s'.Forall Q := by
  unfold Search.step at hs
  split at hs
  case h_1 hunt r =>
    have ⟨hunt', hs, he⟩ := map_eq_some_iff.mp hs
    have hw := Hunt.within_step (forall_considerGateway _ _) h hs
    subst he
    unfold settleMasque
    split
    case isTrue => exact forall_outcome hw.kept
    case isFalse => exact hw
  case h_2 hunt r =>
    have ⟨hunt', hs, he⟩ := map_eq_some_iff.mp hs
    have hw := Hunt.within_step (forall_considerEndpoint _ _) h hs
    subst he
    unfold settleWireGuard
    split
    case isTrue =>
      refine forall_outcome fun pr hp => hw.kept pr ?_
      exact mem_of_mem_distinctByIp (mem_of_mem_take (mem_of_mem_head? hp))
    case isFalse => exact hw
  case h_3 => cases hs
  case h_4 => cases hs; nofun

theorem always_forall (h : ∀ c ∈ candidates cm w request, Q c) (events : List Event) :
    Lts.Always (step cm w request) (Forall Q) (start cm w request) events :=
  always_iff.mpr fun _ _ _ _ hx => exec_invariant (fun _ _ _ h hs => h.step hs) (forall_start h) hx

-- A search ends in an endpoint that was not ruled out.
def NotExcluded (request : ScanRequest) : Search → Prop
  | .returned (.ok e) => e.socket ∉ request.excluded
  | _ => True

instance : DecidablePred (NotExcluded request)
  | .masque _ => isTrue trivial
  | .wireGuard _ => isTrue trivial
  | .returned (.error _) => isTrue trivial
  | .returned (.ok e) => inferInstanceAs (Decidable (e.socket ∉ request.excluded))

theorem Forall.notExcluded (h : s.Forall (· ∉ request.excluded)) : s.NotExcluded request := by
  unfold NotExcluded
  split
  case h_1 e => exact h e rfl
  case h_2 => trivial

theorem not_mem_excluded_of_mem_pushCandidates {st : WgStrategy} {ports : List UInt16} {ips : List IpAddr}
    {excluded : List SocketAddr} {c : SocketAddr} (h : c ∈ pushCandidates st ports ips excluded) : c ∉ excluded :=
  of_decide_eq_true (mem_filter.mp (mem_of_mem_distinctBy h)).2

theorem wireGuard_candidates (ht : request.transport = .wireGuard) :
    ∀ c ∈ candidates cm w request, c ∉ request.excluded := by
  intro c hc
  unfold candidates at hc
  rw [ht] at hc
  cases hi : w.effectiveIp request.ip
  case none => rw [hi] at hc; cases hc
  case some ip =>
    simp only [hi, buildWgCandidates] at hc
    split at hc
    case h_1 => exact not_mem_excluded_of_mem_pushCandidates hc
    case h_2 => exact not_mem_excluded_of_mem_pushCandidates hc

def fail : Event :=
  .round ⟨0, .probed 0 none 0⟩

def answer : Event :=
  .round ⟨0, .probed 0 (some 0) 0⟩

def stop : Event :=
  .round ⟨0, .elapsed⟩

theorem strategy_pos (mode : ScanMode) : 0 < mode.strategy.overallDeadline ∧ 3 ≤ mode.strategy.concurrency := by
  cases mode <;> decide

theorem overallDeadline_pos (cm : CaseMap) (w : World) (request : ScanRequest) :
    0 < (masqueStrategy cm w request).overallDeadline :=
  (strategy_pos _).1

theorem concurrency_pos (cm : CaseMap) (w : World) (request : ScanRequest) :
    0 < (masqueStrategy cm w request).concurrency := by
  have h := (strategy_pos (ScanMode.parse cm request.mode)).2
  simp only [masqueStrategy]
  cases w.tier <;> simp only [Tier.capConcurrency] <;> omega

def hunting (cm : CaseMap) (w : World) (request : ScanRequest) (l : List SocketAddr) : Hunt (Option ProbeResult) where
  pool := .start (masqueStrategy cm w request).concurrency l
  kept := none

theorem step_fail (c : SocketAddr) (l : List SocketAddr) :
    (masque (hunting cm w request (c :: l))).step cm w request fail = some (.masque (hunting cm w request l)) := by
  have hd := overallDeadline_pos cm w request
  simp [Search.step, fail, Hunt.step, Hunt.effective, hunting, hd.ne', Pool.complete_start c l (concurrency_pos cm w request),
    settleMasque]

theorem exec_fail (pre l : List SocketAddr) :
    Lts.exec (step cm w request) (.masque (hunting cm w request (pre ++ l))) (List.replicate pre.length fail) =
      some (.masque (hunting cm w request l)) := by
  induction pre
  case nil => rfl
  case cons c pre ih =>
    rw [length_cons, replicate_succ, exec_cons, cons_append, step_fail, bind_some, ih]

theorem kept_count {α : Type} (h : Hunt α) (st : Strategy) (kept : α) (now : Nat) :
    (h.count st kept now).kept = kept := by
  simp only [Hunt.count]
  split
  case isFalse => rfl
  case isTrue => split <;> rfl

theorem step_answer (cm : CaseMap) (w : World) (request : ScanRequest) (c : SocketAddr) (l : List SocketAddr) :
    ∃ h, (masque (hunting cm w request (c :: l))).step cm w request answer = some (settleMasque h) ∧
      h.kept = some ⟨c.ip, c.port, 0⟩ := by
  have hd := overallDeadline_pos cm w request
  have hc := Pool.complete_start c l (concurrency_pos cm w request)
  refine ⟨(hunting cm w request l).probed (masqueStrategy cm w request)
    (considerGateway (masqueStrategy cm w request) []) ⟨c.ip, c.port, 0⟩ 0, ?_, ?_⟩
  · simp [Search.step, answer, Hunt.step, Hunt.effective, hunting, hd.ne', hc]
  · cases he : (masqueStrategy cm w request).earlyExitFirst
    case true => simp [Hunt.probed, considerGateway, he]
    case false => simp [Hunt.probed, considerGateway, he, hunting, kept_count]

theorem step_stop {h : Hunt (Option ProbeResult)} (hf : h.finished = false) :
    (masque h).step cm w request stop = some (.returned (ProbeResult.outcome h.kept)) := by
  simp only [Search.step, stop, Hunt.step, hf]
  split
  case isTrue hn => cases hn
  case isFalse => split <;> rfl

theorem exists_returned (ht : request.transport = .masque) {c : SocketAddr} (hc : c ∈ candidates cm w request) :
    ∃ events e, Lts.exec (step cm w request) (start cm w request) events = some (.returned (.ok e)) ∧ e.socket = c := by
  have hs : start cm w request = .masque (hunting cm w request (candidates cm w request)) := by
    cases hi : w.effectiveIp request.ip
    case none => simp [candidates, hi] at hc
    case some ip => simp [start, hi, ht, hunting]
  have ⟨pre, l, hl⟩ := append_of_mem hc
  have ⟨h, ha, hk⟩ := step_answer cm w request c l
  have hx : Lts.exec (step cm w request) (start cm w request) (List.replicate pre.length fail ++ [answer]) =
      some (settleMasque h) := by
    rw [hs, hl, exec_append, exec_fail, bind_some, exec_cons, ha, bind_some, exec_nil]
  have ho : ProbeResult.outcome h.kept = .ok (ProbeResult.endpoint ⟨c.ip, c.port, 0⟩) := by rw [hk]; rfl
  cases hf : h.finished
  case true =>
    refine ⟨_, ProbeResult.endpoint ⟨c.ip, c.port, 0⟩, hx.trans ?_, rfl⟩
    rw [settleMasque, hf, if_pos rfl, ho]
  case false =>
    refine ⟨List.replicate pre.length fail ++ [answer] ++ [stop], ProbeResult.endpoint ⟨c.ip, c.port, 0⟩, ?_, rfl⟩
    have hm : settleMasque h = .masque h := by simp [settleMasque, hf]
    rw [exec_append, hx, bind_some, hm, exec_cons, step_stop hf, bind_some, exec_nil, ho]

theorem always_notExcluded_iff (cm : CaseMap) (w : World) (request : ScanRequest) :
    (∀ events, Lts.Always (step cm w request) (NotExcluded request) (start cm w request) events) ↔
      (request.transport = .masque → ∀ c ∈ candidates cm w request, c ∉ request.excluded) := by
  constructor
  case mp =>
    intro h ht c hc
    have ⟨events, e, hx, he⟩ := exists_returned ht hc
    exact he ▸ (h events).last hx
  case mpr =>
    intro h events
    have hq : ∀ c ∈ candidates cm w request, c ∉ request.excluded := by
      cases ht : request.transport
      case masque => exact h ht
      case wireGuard => exact wireGuard_candidates ht
    exact always_iff.mpr fun ls₁ ls₂ s hl hx => (always_iff.mp (always_forall hq events) ls₁ ls₂ s hl hx).notExcluded

-- A device without IPv6 and without settings of its own, which takes the first hosts of every range.
def plainWorld : World where
  env _ := none
  hostHasIpv6 := false
  tier := .high
  sampleCidrV4 _ c n := (enumerateCidrV4 c).take n
  sampleCidrV6 _ _ _ := []

def avoidFirstSeed : ScanRequest where
  transport := .masque
  mode := "turbo".toList
  ip := .v4
  ports := [443, 500, 1701, 4500, 4443, 8443, 8095]
  excluded := [⟨.v4 (.new 162 159 196 1), 443⟩]

theorem not_always_notExcluded : ¬ Lts.Always (step .ascii plainWorld avoidFirstSeed) (NotExcluded avoidFirstSeed)
      (start .ascii plainWorld avoidFirstSeed) [answer] :=
  not_always (by decide +kernel)

end Search

end Engine.Scan
