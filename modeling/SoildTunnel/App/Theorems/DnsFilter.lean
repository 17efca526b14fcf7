import SoildTunnel.App.Theorems.Args
import SoildTunnel.Engine.Theorems.Dns

-- Whether the filtering resolver that the user has turned on is the one that is asked.
namespace App

open Kotlin Engine Engine.Cli Engine.Dns Distinct List

variable {rt : Runtime} {p : ConnectionProfile} {env : Env}

-- The environment of an engine that has got through the profile's arguments. The app does not
-- set the servers in any other way.
def Started (rt : Runtime) (p : ConnectionProfile) (env : Env) : Prop :=
  ∃ env₀ : Env, env₀ .DNS = none ∧ (parseArgs env₀ ((toArgs rt p).map envText)).result = .ok () ∧
    env = (parseArgs env₀ ((toArgs rt p).map envText)).env

namespace ConnectionProfile

def filter (p : ConnectionProfile) : IpAddr :=
  if p.dnsAdBlock then .v4 (.new 1 1 1 3) else .v4 (.new 1 1 1 2)

def Filtered (p : ConnectionProfile) : Prop :=
  p.dnsAdBlock ∨ p.dnsMalwareBlock

def dns (rt : Runtime) (p : ConnectionProfile) : List Text :=
  if p.protocol = .tuic then sanitizedDns rt p else effectiveDns rt p

-- None of them is another one than the filter, and with a server of the user's own the filter
-- has to be among the user's resolvers.
structure OnlyFilter (rt : Runtime) (p : ConnectionProfile) : Prop where
  own : p.protocol = .tuic → ∃ x ∈ sanitizedDns rt p, (parseServer (envText x)).isSome
  all : ∀ x ∈ p.dns rt, ∀ server ∈ parseServer (envText x), server.ip = p.filter

end ConnectionProfile

theorem Started.dns (h : Started rt p env) : env .DNS = (joined (p.dns rt)).map envText := by
  obtain ⟨env₀, h₀, hok, rfl⟩ := h
  have hg : Gives (args rt p) (expected rt p) := gives_args
  have he : expected rt p .DNS = (joined (p.dns rt)).map envText := rfl
  rw [toArgs] at hok ⊢
  rw [parseArgs_tokens hg.known (noNul_of_ok hg.known hok)]
  change env₀.setAll _ .DNS = _
  rw [setAll_apply, hg.assigned, h₀, Option.or_none, he]

theorem mode_plain (h : p.dnsMode = .plain) : mode (dnsModeEnv p) = .plain := by
  rw [dnsModeEnv, h]
  decide

-- A symbol that neither separates servers nor is trimmed off.
def Solid (c : Char) : Prop :=
  (c = ',' || c = ' ' || c = ';') = false ∧ Rust.isWhitespace c.toNat = false

instance : DecidablePred Solid :=
  fun c => inferInstanceAs (Decidable ((c = ',' || c = ' ' || c = ';') = false ∧ Rust.isWhitespace c.toNat = false))

theorem solid_scalar {c : Nat} (h : Rust.isWhitespace c = false) (h₁ : c ≠ 44) (h₂ : c ≠ 32) (h₃ : c ≠ 59) :
    Solid (scalar c) := by
  have hs : ∀ k : Char, k.toNat = 44 ∨ k.toNat = 32 ∨ k.toNat = 59 → scalar c ≠ k :=
    fun k hk => scalar_ne (by omega) (by omega)
  have h₁ := hs ',' (by decide)
  have h₂ := hs ' ' (by decide)
  have h₃ := hs ';' (by decide)
  exact ⟨by simp [h₁, h₂, h₃], scalar_not_whitespace h⟩

theorem solid_digit {c : Nat} (h : rt.icu.digit c) : Solid (scalar c) := by
  have hd : c < 128 → 48 ≤ c ∧ c ≤ 57 := fun hc => by simpa [rt.icu.digit_ascii hc] using h
  exact solid_scalar (rt.icu.digit_not_whitespace h) (by omega) (by omega) (by omega)

theorem solid_entry {n : Nat} : (Entry.DNS_ENTRY rt.icu n).All fun c => Solid (scalar c) := by
  have hd : ∀ lo hi, (Entry.digits rt.icu lo hi).All fun c => Solid (scalar c) := fun _ _ c hc => solid_digit hc
  have hw : ∀ s : String, s.toList.map Char.toNat ⊆ [46, 91, 93, 58] →
      (UpstreamEntry.word s).All fun c => Solid (scalar c) := by
    intro s hs
    have hk : ∀ c ∈ [46, 91, 93, 58], Solid (scalar c) := by
      intro c hc
      have hb : c < 128 ∧ Rust.isWhitespace c = false ∧ c ≠ 44 ∧ c ≠ 32 ∧ c ≠ 59 := by
        fin_cases hc <;> decide
      exact solid_scalar hb.2.1 hb.2.2.1 hb.2.2.2.1 hb.2.2.2.2
    exact Regex.all_word fun c hc => hk c (hs hc)
  have ha : ∀ c, UpstreamEntry.address c → Solid (scalar c) := by
    intro c hc
    simp only [UpstreamEntry.address, Bool.or_eq_true, Bool.and_eq_true, decide_eq_true_eq] at hc
    refine solid_scalar ?_ (by omega) (by omega) (by omega)
    simp only [Rust.isWhitespace, Bool.or_eq_false_iff, Bool.and_eq_false_iff, decide_eq_false_iff_not]
    omega
  have h₁ := hd 1 3
  have h₂ := hd 1 5
  have h₃ := hw "." (by decide)
  have h₄ := hw "[" (by decide)
  have h₅ := hw "]" (by decide)
  have h₆ := hw ":" (by decide)
  exact ⟨⟨⟨h₁, h₃, h₁⟩, h₄, ha, h₅⟩, ⟨h₆, h₂⟩, trivial⟩

theorem envText_ne_nil {t : Text} (h : t ≠ []) : envText t ≠ [] := by
  unfold envText
  fun_cases codePoints t
  case case1 => exact absurd rfl h
  case case2 => simp
  case case3 => simp
  case case4 => simp

theorem resolverAddresses_joined {l : List Text} (h : ∀ x ∈ l, x ≠ [] ∧ ∀ c ∈ envText x, Solid c) :
    resolverAddresses ((joined l).map envText) =
      if (l.filterMap fun x => parseServer (envText x)) = [] then defaultServers
      else distinct (l.filterMap fun x => parseServer (envText x)) := by
  have ht : (l.map envText).map Rust.Text.trim = l.map envText := by
    rw [map_map]
    exact map_congr_left fun x hx => Delimited.trim_eq_self fun c hc => ((h x hx).2 c hc).2
  have hn : (l.map envText).filter (· ≠ []) = l.map envText := by
    refine filter_eq_self.mpr fun t ht => ?_
    obtain ⟨x, hx, rfl⟩ := mem_map.mp ht
    simpa using envText_ne_nil (h x hx).1
  unfold joined
  split
  case isTrue he =>
    subst he
    decide
  case isFalse he =>
    have hs : ([','].intercalate (l.map envText)).splitOnP (fun c => c = ',' || c = ' ' || c = ';') = l.map envText := by
      refine Delimited.splitOnP_intercalate (by decide) (by simpa using he) fun t ht => ?_
      obtain ⟨x, hx, rfl⟩ := mem_map.mp ht
      exact fun c hc => ((h x hx).2 c hc).1
    have hd : ∀ m : List SocketAddr, distinct m = [] ↔ m = [] := by
      intro m
      rw [eq_nil_iff_forall_not_mem, eq_nil_iff_forall_not_mem]
      exact forall_congr' fun a => not_congr mem_distinct
    simp only [resolverAddresses, Option.map_some, Option.getD_some, envText_joinToString, hs, ht, hn, filterMap_map,
      hd]
    rfl

theorem solid_filter : ∀ x ∈ [lit "1.1.1.3", lit "1.1.1.2"], x ≠ [] ∧ ∀ c ∈ envText x, Solid c := by
  have ha : ∀ x ∈ [lit "1.1.1.3", lit "1.1.1.2"], x ≠ [] ∧ (envText x).all (Solid ·) := by decide
  exact fun x hx => ⟨(ha x hx).1, fun c hc => of_decide_eq_true (all_eq_true.mp (ha x hx).2 c hc)⟩

theorem solid_dns : ∀ x ∈ p.dns rt, x ≠ [] ∧ ∀ c ∈ envText x, Solid c := by
  have hs : ∀ x ∈ sanitizedDns rt p, x ≠ [] ∧ ∀ c ∈ envText x, Solid c := by
    intro x hx
    have ⟨_, hne, hm⟩ := mem_entries hx
    refine ⟨hne, fun c hc => ?_⟩
    obtain ⟨n, hn, rfl⟩ := mem_map.mp hc
    exact solid_entry.of_isMatch hm n hn
  have hl := forall_mem_cons.mp solid_filter
  unfold ConnectionProfile.dns
  split
  case isTrue => exact hs
  case isFalse =>
    refine fun x hx => forall_mem_append.mpr ⟨?_, hs⟩ x (mem_of_mem_distinctBy (mem_of_mem_take hx))
    split
    case isTrue => exact forall_mem_singleton.mpr hl.1
    case isFalse =>
      split
      case isTrue => exact hl.2
      case isFalse => exact forall_mem_nil _

theorem exists_filter_dns (hf : p.Filtered) : ∃ x ∈ effectiveDns rt p, (parseServer (envText x)).isSome := by
  have hl : ∀ x ∈ [lit "1.1.1.3", lit "1.1.1.2"], (parseServer (envText x)).isSome := by decide
  unfold effectiveDns
  split
  case isTrue => exact ⟨lit "1.1.1.3", mem_cons_self, hl _ (by simp)⟩
  case isFalse ha =>
    rw [if_pos (hf.resolve_left ha)]
    exact ⟨lit "1.1.1.2", mem_cons_self, hl _ (by simp)⟩

-- The addresses come from the filtering resolver only if the engine knows no other one.
theorem dnsAnswer_filter_iff (rt : Runtime) (p : ConnectionProfile) (env : Env) (h : Started rt p env)
    (hf : p.Filtered) (hm : p.dnsMode = .plain) :
    (∀ name w, w.Honest (resolverAddresses (env .DNS)) → ∀ a,
      dnsAnswer (mode (dnsModeEnv p)) (resolverAddresses (env .DNS)) name w = .ok a → a.From (·.ip = p.filter)) ↔
    p.OnlyFilter rt := by
  have hne : ∀ server ∈ defaultServers, server.ip ≠ p.filter := by
    unfold ConnectionProfile.filter
    split <;> decide
  rw [mode_plain hm, h.dns, forall_from_iff, resolverAddresses_joined solid_dns]
  constructor
  case mp =>
    intro h
    split at h
    case isTrue => exact absurd (h _ mem_cons_self) (hne _ mem_cons_self)
    case isFalse he =>
      refine ⟨fun ht => ?_, fun x hx server hs => ?_⟩
      · have ⟨server, hs⟩ := exists_mem_of_ne_nil _ he
        have ⟨x, hx, hp⟩ := mem_filterMap.mp hs
        rw [ConnectionProfile.dns, if_pos ht] at hx
        exact ⟨x, hx, by rw [hp]; rfl⟩
      · exact h server (mem_distinct.mpr (mem_filterMap.mpr ⟨x, hx, hs⟩))
  case mpr =>
    intro ⟨ho, ha⟩
    have hx : ∃ x ∈ p.dns rt, (parseServer (envText x)).isSome := by
      unfold ConnectionProfile.dns
      split
      case isTrue ht => exact ho ht
      case isFalse => exact exists_filter_dns hf
    split
    case isTrue he =>
      have ⟨x, hx, hs⟩ := hx
      have hn := filterMap_eq_nil_iff.mp he x hx
      simp [hn] at hs
    case isFalse =>
      intro server hs
      have ⟨x, hx, hp⟩ := mem_filterMap.mp (mem_distinct.mp hs)
      exact ha x hx server hp

def startedEnv (rt : Runtime) (p : ConnectionProfile) : Env :=
  (parseArgs (fun _ => none) ((toArgs rt p).map envText)).env

theorem started_startedEnv (rt : Runtime) (h : p.NoNul) : Started rt p (startedEnv rt p) := by
  have hg : Gives (args rt p) (expected rt p) := gives_args
  refine ⟨fun _ => none, rfl, ?_, rfl⟩
  rw [toArgs, parseArgs_tokens hg.known (noNul_args h)]

def filterOnly : ConnectionProfile :=
  { protocol := .masque, dnsAdBlock := true }

def filterAndOwn : ConnectionProfile :=
  { protocol := .masque, dnsAdBlock := true, dnsServers := lit "8.8.8.8" }

theorem noNul_filterOnly : filterOnly.NoNul :=
  ⟨by decide, by decide, by decide, by decide, by decide, by decide, by decide, by decide, by decide, by decide⟩

theorem noNul_filterAndOwn : filterAndOwn.NoNul :=
  { noNul_filterOnly with dnsServers := by decide }

theorem dnsAnswer_filterOnly : Started ⟨.ascii, id⟩ filterOnly (startedEnv ⟨.ascii, id⟩ filterOnly) ∧
    ∀ name w, w.Honest (resolverAddresses (startedEnv ⟨.ascii, id⟩ filterOnly .DNS)) → ∀ a,
      dnsAnswer .plain (resolverAddresses (startedEnv ⟨.ascii, id⟩ filterOnly .DNS)) name w = .ok a →
        a.From (·.ip = .v4 (.new 1 1 1 3)) := by
  have hs := started_startedEnv ⟨.ascii, id⟩ noNul_filterOnly
  refine ⟨hs, (dnsAnswer_filter_iff _ _ _ hs (.inl rfl) rfl).mpr ⟨nofun, ?_⟩⟩
  decide

theorem not_dnsAnswer_filter :
    ¬ ∀ (rt : Runtime) (p : ConnectionProfile) (env : Env), Started rt p env → p.Filtered → p.dnsMode = .plain →
      ∀ name w, w.Honest (resolverAddresses (env .DNS)) → ∀ a,
        dnsAnswer (mode (dnsModeEnv p)) (resolverAddresses (env .DNS)) name w = .ok a → a.From (·.ip = p.filter) := by
  intro h
  have hs := started_startedEnv ⟨.ascii, id⟩ noNul_filterAndOwn
  have h := h _ _ _ hs (.inl rfl) rfl
  have hm : (⟨.v4 (.new 8 8 8 8), 53⟩ : SocketAddr) ∈
      resolverAddresses ((joined (filterAndOwn.dns ⟨.ascii, id⟩)).map envText) := by
    decide
  rw [mode_plain rfl, hs.dns, forall_from_iff] at h
  exact absurd (h _ hm) (by decide)

end App
