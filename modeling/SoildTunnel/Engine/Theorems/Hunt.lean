import SoildTunnel.Engine.Theorems.Candidates

-- What the searches return, whatever the order of the results and the times at which they end.
namespace Engine.Scan

open Rust Distinct List

-- Where a verdict leads: to one property as long as the search goes on, and to another one at its end.
def Verdict.Leads {α : Type} (K F : α → Prop) (kept : α) : Verdict α → Prop
  | .skip => K kept
  | .keep kept => K kept
  | .finish kept => F kept

variable {received : List ProbeResult}

namespace Hunter

variable {α β : Type} {x : Hunter α β} {s s' : Hunting α β} {r : Round}
variable {K F : List ProbeResult → α → Prop} {R : List ProbeResult → Except Error β → Prop}

-- How what is kept depends on the results, on the way and at the end.
structure Keeps (x : Hunter α β) (K F : List ProbeResult → α → Prop) : Prop where
  initial : K [] x.initial
  enough : ∀ received kept, K received kept → F received kept
  consider : ∀ received kept pr, K received kept → (x.consider kept pr).Leads (K (received ++ [pr])) (F (received ++ [pr])) kept

-- The search returns what fits to the results, and it does so when its time is over.
def Results (x : Hunter α β) (R : List ProbeResult → Except Error β → Prop) : Hunting α β → Prop
  | .probing h received =>
    ∀ r : Round, x.strategy.overallDeadline ≤ r.now →
      ∃ result received', x.step (.probing h received) r = some (.returned result received')
  | .returned result received => R received result

def Follows (K : List ProbeResult → α → Prop) (R : List ProbeResult → Except Error β → Prop) : Hunting α β → Prop
  | .probing h received => h.finished = false ∧ K received h.kept
  | .returned result received => R received result

theorem follows_start (hk : x.Keeps K F) (hr : R [] (.error .noCleanEndpoint)) : Follows K R x.start := by
  unfold start
  split
  case h_1 => exact hr
  case h_2 => exact ⟨rfl, hk.initial⟩

theorem follows_proceed (hr : ∀ received kept, F received kept → R received (x.settle kept))
    {h : Hunt α} (hf : h.finished = true → F received h.kept)
    (hn : h.finished = false → K received h.kept) : Follows K R (x.proceed h received) := by
  unfold proceed
  split
  case isTrue hd => exact hr received h.kept (hf hd)
  case isFalse hd => exact ⟨Bool.eq_false_iff.mpr hd, hn (Bool.eq_false_iff.mpr hd)⟩

theorem Follows.step (hk : x.Keeps K F) (hr : ∀ received kept, F received kept → R received (x.settle kept))
    (h : Follows K R s) (hs : x.step s r = some s') : Follows K R s' := by
  cases s
  case returned => cases hs
  case probing hunt received =>
    obtain ⟨hunt', hstep, rfl⟩ := Option.map_eq_some_iff.mp hs
    have ⟨hn, hkept⟩ := h
    obtain ⟨-, ⟨rfl, hrec⟩ | ⟨i, addr, pool, -, ⟨rfl, hrec⟩ | ⟨rtt, now, rfl, hrec⟩⟩⟩ := Hunt.step_cases hstep
    all_goals rw [hrec]
    · exact follows_proceed hr (fun _ => by simpa using hk.enough _ _ hkept) (fun hd => by cases hd)
    · exact follows_proceed hr (fun hd => by simp [hn] at hd) (fun _ => by simpa using hkept)
    · have hl := hk.consider received hunt.kept ⟨addr.ip, addr.port, rtt⟩ hkept
      obtain ⟨-, ⟨hv, he⟩ | hv | ⟨hv, hd⟩⟩ :=
        Hunt.probed_cases x.strategy x.consider { hunt with pool } ⟨addr.ip, addr.port, rtt⟩ now
      · rw [hv] at hl
        rw [he]
        exact follows_proceed hr (fun _ => hk.enough _ _ hl) (fun _ => hl)
      · rw [hv] at hl
        exact follows_proceed hr (fun _ => hk.enough _ _ hl) (fun _ => hl)
      · rw [hv] at hl
        exact follows_proceed hr (fun _ => hl) (fun hn => by simp [hd] at hn)

theorem Follows.results (h : Follows K R s) : x.Results R s := by
  cases s
  case returned => exact h
  case probing hunt received =>
    intro r ht
    have he : hunt.effective x.strategy ≤ r.now := by
      refine le_trans ?_ ht
      unfold Hunt.effective
      cases hunt.quietUntil
      case none => exact le_rfl
      case some => exact min_le_right _ _
    exact ⟨_, _, by simp [Hunter.step, Hunt.step, h.1, he, proceed]; exact ⟨rfl, rfl⟩⟩

theorem always_results (hk : x.Keeps K F) (hr : ∀ received kept, F received kept → R received (x.settle kept))
    (h₀ : R [] (.error .noCleanEndpoint)) (rounds : List Round) : Lts.Always x.step (x.Results R) x.start rounds :=
  Lts.always_iff.mpr fun _ _ _ _ hx =>
    (Lts.exec_invariant (fun _ _ _ h hs => h.step hk hr hs) (follows_start hk h₀) hx).results

-- The endpoints of the results and those that are still to come are all different.
def Distinct : Hunting α β → Prop
  | .probing h received => (received.map ProbeResult.addr ++ h.pool.unfinished).Nodup
  | .returned _ received => (received.map ProbeResult.addr).Nodup

theorem distinct_start (h : ∀ targets ∈ x.targets, targets.Nodup) : Distinct x.start := by
  unfold start
  split
  case h_1 => exact .nil
  case h_2 targets ht => simpa [Distinct, Pool.unfinished_start] using h targets ht

theorem Distinct.step (h : Distinct s) (hs : x.step s r = some s') : Distinct s' := by
  cases s
  case returned => cases hs
  case probing hunt received =>
    obtain ⟨hunt', hstep, rfl⟩ := Option.map_eq_some_iff.mp hs
    suffices hd : ((received ++ (hunt.received x.strategy r).toList).map ProbeResult.addr ++ hunt'.pool.unfinished).Nodup by
      unfold proceed
      split
      case isTrue => exact (nodup_append.mp hd).1
      case isFalse => exact hd
    obtain ⟨-, ⟨rfl, hrec⟩ | ⟨i, addr, pool, hc, hcase⟩⟩ := Hunt.step_cases hstep
    · rw [hrec]
      simpa [Distinct] using h
    · have hp := (Pool.unfinished_complete hc).append_left (received.map ProbeResult.addr)
      have hn := hp.nodup_iff.mp h
      rcases hcase with ⟨rfl, hrec⟩ | ⟨rtt, now, rfl, hrec⟩
      · rw [hrec]
        simpa using (nodup_middle.mp hn).of_cons
      · rw [hrec, (Hunt.probed_cases _ _ _ _ _).1]
        simpa [ProbeResult.addr] using hn

end Hunter

section Best

-- The best of the results without those that are to be avoided, or only the first one.
def Best (early : Bool) (excluded : List SocketAddr) (received : List ProbeResult) : Except Error ProbeResult → Prop
  | .ok pr =>
    pr ∈ received ∧ pr.addr ∉ excluded ∧ (early = false → ∀ q ∈ received, q.addr ∉ excluded → pr.rtt ≤ q.rtt)
  | .error _ => ∀ q ∈ received, q.addr ∈ excluded

variable (w : World) (probe : MasqueProbe) (mode : ScanMode) (excluded : List SocketAddr)

theorem best_skip {early : Bool} {pr : ProbeResult} {result : Except Error ProbeResult}
    (h : Best early excluded received result) (hp : pr.addr ∈ excluded) : Best early excluded (received ++ [pr]) result := by
  have hq {q : ProbeResult} (hq : q ∈ received ++ [pr]) (hn : q.addr ∉ excluded) : q ∈ received := by
    rcases mem_append.mp hq with hq | hq
    · exact hq
    · exact absurd (mem_singleton.mp hq ▸ hp) hn
  cases result
  case ok b => exact ⟨mem_append_left _ h.1, h.2.1, fun he q hm hn => h.2.2 he q (hq hm hn) hn⟩
  case error => exact fun q hm => by_contra fun hn => hn (h q (hq hm hn))

theorem best_last {early : Bool} {pr : ProbeResult} (hp : pr.addr ∉ excluded)
    (h : early = false → ∀ q ∈ received, q.addr ∉ excluded → pr.rtt ≤ q.rtt) :
    Best early excluded (received ++ [pr]) (.ok pr) := by
  refine ⟨mem_append_right _ (mem_singleton_self pr), hp, fun he q hq hn => ?_⟩
  rcases mem_append.mp hq with hq | hq
  · exact h he q hq hn
  · exact le_of_eq (congrArg _ (mem_singleton.mp hq).symm)

theorem keeps_huntBestGateway : (huntBestGateway w probe mode excluded).Keeps
    (fun received best => Best mode.strategy.earlyExitFirst excluded received ((huntBestGateway w probe mode excluded).settle best))
    fun received best => Best mode.strategy.earlyExitFirst excluded received ((huntBestGateway w probe mode excluded).settle best) where
  initial := nofun
  enough _ _ h := h
  consider received best pr h := by
    simp only [huntBestGateway, considerGateway] at h ⊢
    split
    case isTrue hp => exact best_skip excluded h hp
    case isFalse hp =>
      split
      case isTrue he =>
        exact best_last excluded hp fun hn => absurd (he.symm.trans hn) (by decide)
      case isFalse =>
        split
        case h_1 cur =>
          split
          case isTrue hle =>
            refine ⟨mem_append_left _ h.1, h.2.1, fun he q hq hn => ?_⟩
            rcases mem_append.mp hq with hq | hq
            · exact h.2.2 he q hq hn
            · exact mem_singleton.mp hq ▸ hle
          case isFalse hlt =>
            exact best_last excluded hp fun he q hq hn => (Nat.le_of_not_le hlt).trans (h.2.2 he q hq hn)
        case h_2 => exact best_last excluded hp fun _ q hq hn => absurd (h q hq) hn

end Best

section Sorted

theorem pairwise_sort (l : List ProbeResult) :
    (l.mergeSort fun a b => a.rtt ≤ b.rtt).Pairwise fun a b => a.rtt ≤ b.rtt := by
  have hs := @pairwise_mergeSort ProbeResult (fun a b => a.rtt ≤ b.rtt)
    (fun a b c hab hbc => by simp at *; omega) (fun a b => by simp; omega) l
  simpa using hs

end Sorted

section Ranked

def Ranked (excluded : List SocketAddr) (want : Nat) (received : List ProbeResult) : Except Error (List ProbeResult) → Prop
  | .ok l =>
    l.length ≤ want ∧ (∀ pr ∈ l, pr ∈ received ∧ pr.addr ∉ excluded) ∧ l.Pairwise fun a b => a.rtt ≤ b.rtt
  | .error _ => received = []

variable (w : World) (probe : MasqueProbe) (mode : ScanMode) (excluded : List SocketAddr) (want : Nat)

theorem keeps_huntRankedGateways : (huntRankedGateways w probe mode excluded want).Keeps
    (fun received collected => collected = received.filter (·.addr ∉ excluded))
    fun received collected => collected = received.filter (·.addr ∉ excluded) where
  initial := rfl
  enough _ _ h := h
  consider received collected pr h := by
    simp only [huntRankedGateways, considerRanked]
    split
    case isTrue hp => simp [Verdict.Leads, h, hp]
    case isFalse hp => split <;> simp [Verdict.Leads, h, hp]

theorem ranked_settle (received : List ProbeResult) : Ranked excluded want received
      ((huntRankedGateways w probe mode excluded want).settle (received.filter (·.addr ∉ excluded))) := by
  refine ⟨length_take_le _ _, fun pr hp => ?_, (pairwise_sort _).sublist (take_sublist _ _)⟩
  have hm := mem_filter.mp (mem_mergeSort.mp (mem_of_mem_take hp))
  exact ⟨hm.1, of_decide_eq_true hm.2⟩

def ranking (received : List ProbeResult) : List ProbeResult :=
  ((received.filter (·.addr ∉ excluded)).mergeSort fun a b => a.rtt ≤ b.rtt).take want

theorem nodup_ranking (h : (received.map ProbeResult.addr).Nodup) :
    ((ranking excluded want received).map ProbeResult.addr).Nodup := by
  refine List.Nodup.sublist ((take_sublist _ _).map _) ?_
  refine ((mergeSort_perm _ _).map _).nodup_iff.mpr ?_
  exact h.sublist (filter_sublist.map _)

-- No gateway is ranked twice.
theorem nodup_of_exec_huntRankedGateways {rounds : List Round} {l : List ProbeResult}
    (h : Lts.exec (huntRankedGateways w probe mode excluded want).step (huntRankedGateways w probe mode excluded want).start
      rounds = some (.returned (.ok l) received)) : (l.map ProbeResult.addr).Nodup := by
  have hd : Hunter.Distinct (.returned (.ok l : Except Error (List ProbeResult)) received : Hunting (List ProbeResult) _) := by
    refine Lts.exec_invariant (fun _ _ _ h hs => h.step hs) (Hunter.distinct_start fun targets ht => ?_) h
    obtain ⟨ip, -, rfl⟩ := Option.map_eq_some_iff.mp ht
    exact (wellFormed_buildCandidates w _ probe.ports ip).nodup
  have hr := Hunter.always_results (R := fun received result => ∀ l, result = .ok l → l = ranking excluded want received)
    (keeps_huntRankedGateways w probe mode excluded want)
    (fun received kept hk l hl => by cases hl; rw [hk]; rfl) nofun rounds
  rw [hr.last h l rfl]
  exact nodup_ranking excluded want hd

end Ranked

section Endpoints

-- The fastest endpoints on different addresses.
def Endpoints (want : Nat) (received : List ProbeResult) : Except Error (List ProbeResult) → Prop
  | .ok l =>
    l.length ≤ max want 1 ∧ (l.Pairwise fun a b => a.ip ≠ b.ip) ∧ (l.Pairwise fun a b => a.rtt ≤ b.rtt) ∧
      ∀ pr ∈ l, pr ∈ received ∧ ∀ q ∈ received, q.ip = pr.ip → pr.rtt ≤ q.rtt
  | .error _ => received = []

variable (w : World) (probe : WgProbe) (mode : ScanMode) (want : Nat)

-- A search that ends at the first result has none before.
theorem keeps_huntWgEndpoints : (huntWgEndpoints w probe mode want).Keeps
    (fun received verified => verified = received ∧ ((huntWgEndpoints w probe mode want).strategy.earlyExitFirst → received = []))
    fun received verified => verified = received where
  initial := ⟨rfl, fun _ => rfl⟩
  enough _ _ h := h.1
  consider received verified pr h := by
    obtain ⟨rfl, he⟩ := h
    simp only [huntWgEndpoints, considerEndpoint] at he ⊢
    split
    case isTrue ht => simp [Verdict.Leads, he ht]
    case isFalse ht =>
      split
      case isTrue => rfl
      case isFalse => exact ⟨rfl, fun h => absurd h ht⟩

theorem endpoints_settle (received : List ProbeResult) :
    Endpoints want received ((huntWgEndpoints w probe mode want).settle received) := by
  simp only [huntWgEndpoints]
  split
  case isTrue he =>
    have hs := distinctBy_eq_nil.mp (isEmpty_iff.mp he)
    exact perm_nil.mp (hs ▸ (mergeSort_perm _ _).symm)
  case isFalse =>
    have hsub : ((distinctByIp received).take (max want 1)).Sublist (distinctByIp received) := take_sublist _ _
    have hp := pairwise_sort received
    refine ⟨length_take_le _ _, (pairwise_distinctBy _).sublist hsub, ?_, fun pr hm => ?_⟩
    · exact hp.sublist (hsub.trans (distinctAfter_sublist _ _))
    · have hm := hsub.subset hm
      refine ⟨mem_of_mem_distinctByIp hm, fun q hq he => ?_⟩
      exact rel_of_mem_distinctAfter (R := fun a b => a.rtt ≤ b.rtt) (fun _ => le_rfl) hp hm (mem_mergeSort.mpr hq) he

end Endpoints

theorem always_hunt (w : World) (mode : ScanMode) (rounds : List Round) : (∀ probe excluded,
      let x := huntBestGateway w probe mode excluded
      Lts.Always x.step (x.Results (Best mode.strategy.earlyExitFirst excluded)) x.start rounds) ∧
    (∀ probe excluded want,
      let x := huntRankedGateways w probe mode excluded want
      Lts.Always x.step (x.Results (Ranked excluded want)) x.start rounds) ∧
    ∀ probe want,
      let x := huntWgEndpoints w probe mode want
      Lts.Always x.step (x.Results (Endpoints want)) x.start rounds := by
  refine ⟨fun probe excluded => ?_, fun probe excluded want => ?_, fun probe want => ?_⟩
  · exact Hunter.always_results (keeps_huntBestGateway w probe mode excluded) (fun _ _ h => h) nofun rounds
  · refine Hunter.always_results (keeps_huntRankedGateways w probe mode excluded want) (fun received kept h => ?_) rfl rounds
    exact h ▸ ranked_settle w probe mode excluded want received
  · refine Hunter.always_results (keeps_huntWgEndpoints w probe mode want) (fun received kept h => ?_) rfl rounds
    exact h ▸ endpoints_settle w probe mode want received

end Engine.Scan
