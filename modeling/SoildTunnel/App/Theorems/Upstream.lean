import SoildTunnel.App.Upstream
import SoildTunnel.Engine.Upstream.Theorems.Parse

-- Whether the engine gets the upstream proxy that the user has set.
namespace Engine.Upstream

open Rust Delimited

-- A setting as it is written: an optional scheme, an optional login, and a host with its port.
inductive Written : Text → Text → Text → Prop
  | mk {scheme login hostText host port : Text} :
    (scheme = [] ∨ scheme = "socks5://".toList ∨ scheme = "http://".toList) →
    (login = [] ∨ ∃ pair, login = pair ++ ['@']) →
    Endpoint host hostText → host ≠ [] →
    (∀ c ∈ login ++ (hostText ++ ':' :: port), isWhitespace c.toNat = false ∧ c ≠ '/') →
    '@' ∉ hostText ++ ':' :: port → (∀ c ∈ port, c ≠ ':' ∧ c ≠ '+') →
    Written (scheme ++ (login ++ (hostText ++ ':' :: port))) host port

namespace Written

variable {text host port : Text}

theorem trim_eq (h : Written text host port) : Text.trim text = text := by
  cases h
  case mk scheme login hostText hs _ _ _ hc _ _ =>
    refine trim_eq_self fun c hm => ?_
    rcases List.mem_append.mp hm with hm | hm
    · have hw : scheme.all (!isWhitespace ·.toNat) := by
        rcases hs with rfl | rfl | rfl <;> decide
      simpa using List.all_eq_true.mp hw c hm
    · exact (hc c hm).left

theorem ne_nil (h : Written text host port) : text ≠ [] := by
  cases h
  simp

theorem rcut_eq (h : Written text host port) : ∃ before, Delimited.rcut ':' text = some (before, port) := by
  cases h
  case mk scheme login hostText _ _ _ _ _ _ hp =>
    refine ⟨scheme ++ (login ++ hostText), ?_⟩
    have ha : scheme ++ (login ++ (hostText ++ ':' :: port)) =
        (scheme ++ (login ++ hostText)) ++ ':' :: port := by simp
    rw [ha, rcut_append fun hm => (hp _ hm).left rfl]

-- Without a scheme there is no slash at all.
theorem splitScheme_eq {scheme rest : Text}
    (hs : scheme = [] ∨ scheme = "socks5://".toList ∨ scheme = "http://".toList) (hr : '/' ∉ rest)
    (cm : CaseMap) :
    ∃ name kind, splitScheme cm (scheme ++ rest) = (name, rest) ∧ kindOf name = .ok kind := by
  rcases hs with rfl | rfl | rfl
  · have hn : Text.splitOnce "://".toList ([] ++ rest) = none :=
      Text.splitOnce_eq_none (c := '/') (by decide) hr
    exact ⟨"socks5".toList, .socks5, by rw [splitScheme, hn]; rfl, rfl⟩
  · have hl : cm.toLowercase "socks5".toList = "socks5".toList :=
      cm.toLowercase_of_all (by decide)
    exact ⟨"socks5".toList, .socks5, congrArg (·, rest) hl, rfl⟩
  · have hl : cm.toLowercase "http".toList = "http".toList :=
      cm.toLowercase_of_all (by decide)
    exact ⟨"http".toList, .http, congrArg (·, rest) hl, rfl⟩

theorem splitLogin_eq {login endpoint : Text} (hl : login = [] ∨ ∃ pair, login = pair ++ ['@'])
    (he : '@' ∉ endpoint) : ∃ pair, splitLogin (login ++ endpoint) = (pair, endpoint) := by
  rcases hl with rfl | ⟨pair, rfl⟩
  · exact ⟨none, by rw [splitLogin, List.nil_append, Delimited.rcut_eq_none he]⟩
  · have ha : pair ++ ['@'] ++ endpoint = pair ++ '@' :: endpoint := by simp
    exact ⟨some pair, by rw [splitLogin, ha, rcut_append he]⟩

theorem parse_eq (h : Written text host port) (cm : CaseMap) : ∃ endpoint kind user password, parse cm text =
      (hostPort endpoint host port).map fun (host, port) => ⟨kind, host, port, user, password⟩ := by
  have ht := h.trim_eq
  cases h
  case mk scheme login hostText hs hl hend hh hc hat hp =>
    have hslash : '/' ∉ login ++ (hostText ++ ':' :: port) := fun hm => (hc _ hm).right rfl
    have hslash' : '/' ∉ hostText ++ ':' :: port := fun hm => hslash (List.mem_append_right _ hm)
    have ⟨name, kind, hn, hk⟩ := splitScheme_eq hs hslash cm
    have ⟨pair, hpair⟩ := splitLogin_eq hl hat
    have hsplit := splitEndpoint_eq hend (fun hm => (hp _ hm).left rfl) hh
    refine ⟨hostText ++ ':' :: port, kind, (credentials pair).1, (credentials pair).2, ?_⟩
    simp only [parse, ht, hn, hk, hpair, Text.trimEndMatches_eq_self hslash', hsplit]
    cases hostPort (hostText ++ ':' :: port) host port <;> rfl

end Written

theorem parseU16_decimal {t : Text} {n : UInt16} (hs : ∀ c ∈ t, c ≠ '+')
    (h : Text.parseU16 t = some n) : Text.decimal t = some n.toNat := by
  unfold Text.parseU16 at h
  split at h
  case h_1 => exact absurd rfl (hs '+' List.mem_cons_self)
  case h_2 =>
    have ⟨m, hm, h⟩ := Option.bind_eq_some_iff.mp h
    split at h
    case isTrue hlt =>
      cases h
      rw [hm, UInt16.toNat_ofNat_of_lt' hlt]
    case isFalse => cases h

def Names (text host : Text) (port : UInt16) : Prop :=
  ∃ digits, Written text host digits ∧ Text.decimal digits = some port.toNat

def portOf (text : Text) : Option UInt16 :=
  (Delimited.rcut ':' text).bind fun (_, port) => Text.parseU16 port

theorem Written.fromEnv_iff {text host port : Text} (h : Written text host port) (cm : CaseMap) :
    (∃ u, fromEnv cm (some text) = some u ∧ Names text u.host u.port) ↔
      ∃ n ∈ portOf text, n ≠ 0 := by
  have ⟨endpoint, kind, user, password, hparse⟩ := h.parse_eq cm
  have ⟨before, hr⟩ := h.rcut_eq
  have hport : portOf text = Text.parseU16 port := by simp [portOf, hr]
  have henv : fromEnv cm (some text) = (parse cm text).toOption := by
    simp [fromEnv, h.trim_eq, h.ne_nil]
  have hh : host ≠ [] := by cases h; assumption
  have hplus : ∀ c ∈ port, c ≠ '+' := by
    cases h
    case mk hp => exact fun c hc => (hp c hc).right
  rw [henv, hparse, hport]
  cases hx : hostPort endpoint host port
  case error e =>
    refine iff_of_false (fun ⟨_, hu, _⟩ => by cases hu) fun ⟨n, hn, h0⟩ => ?_
    cases hx.symm.trans ((hostPort_eq_ok hh).mpr ⟨rfl, hn, h0⟩)
  case ok r =>
    have ⟨host', n⟩ := r
    have ⟨he, hn, h0⟩ := (hostPort_eq_ok hh).mp hx
    subst he
    exact iff_of_true ⟨_, rfl, port, h, parseU16_decimal hplus hn⟩ ⟨n, hn, h0⟩

end Engine.Upstream

namespace App

open Kotlin Engine.Upstream List

theorem scalar_toNat (c : Nat) : (scalar c).toNat = c ∨ (scalar c).toNat = 63 ∨ (scalar c).toNat = 0 := by
  unfold scalar
  split
  case isTrue => exact .inr (.inl rfl)
  case isFalse =>
    unfold Char.ofNat
    split
    case isTrue h => exact .inl rfl
    case isFalse => exact .inr (.inr rfl)

variable {c : Nat}

theorem scalar_ne {k : Char} (hc : c ≠ k.toNat) (h : k.toNat ≠ 63 ∧ k.toNat ≠ 0) : scalar c ≠ k := by
  intro he
  have hs := scalar_toNat c
  rw [he] at hs
  omega

theorem scalar_not_whitespace (h : Rust.isWhitespace c = false) : Rust.isWhitespace (scalar c).toNat = false := by
  rcases scalar_toNat c with hs | hs | hs <;> rw [hs]
  · exact h
  · rfl
  · rfl

variable {icu : Icu}

namespace UpstreamEntry

open Regex

abbrev Plain (c : Char) : Prop :=
  Rust.isWhitespace c.toNat = false ∧ c ≠ '/'

theorem credential_plain (h : credential c) : Plain (scalar c) := by
  simp only [credential, Bool.and_eq_true, Bool.not_eq_true', decide_eq_true_eq] at h
  exact ⟨scalar_not_whitespace h.left.left.left, scalar_ne h.right (by decide)⟩

theorem not_whitespace (h : 32 < c ∧ c < 127) : Rust.isWhitespace c = false := by
  simp only [Rust.isWhitespace, Bool.or_eq_false_iff, Bool.and_eq_false_iff, decide_eq_false_iff_not]
  omega

theorem address_plain (h : address c) : Plain (scalar c) ∧ scalar c ≠ '@' ∧ scalar c ≠ ']' := by
  have hr : 48 ≤ c ∧ c ≤ 58 ∨ 65 ≤ c ∧ c ≤ 70 ∨ 97 ≤ c ∧ c ≤ 102 := by
    simp only [address, Bool.or_eq_true, Bool.and_eq_true, decide_eq_true_eq] at h
    omega
  have hne {k : Char} (hk : k.toNat = 47 ∨ k.toNat = 64 ∨ k.toNat = 93) : scalar c ≠ k :=
    scalar_ne (by omega) (by omega)
  exact ⟨⟨scalar_not_whitespace (not_whitespace (by omega)), hne (by decide)⟩, hne (by decide), hne (by decide)⟩

theorem name_plain (h : name c) : Plain (scalar c) ∧ scalar c ≠ '@' ∧ scalar c ≠ '[' := by
  have hr : 45 ≤ c ∧ c ≤ 46 ∨ 48 ≤ c ∧ c ≤ 57 ∨ 65 ≤ c ∧ c ≤ 90 ∨ c = 95 ∨ 97 ≤ c ∧ c ≤ 122 := by
    simp only [name, Bool.or_eq_true, Bool.and_eq_true, decide_eq_true_eq] at h
    omega
  have hne {k : Char} (hk : k.toNat = 47 ∨ k.toNat = 64 ∨ k.toNat = 91) : scalar c ≠ k :=
    scalar_ne (by omega) (by omega)
  exact ⟨⟨scalar_not_whitespace (not_whitespace (by omega)), hne (by decide)⟩, hne (by decide), hne (by decide)⟩

theorem digit_plain (h : icu.digit c) : Plain (scalar c) ∧ scalar c ≠ '@' ∧ scalar c ≠ ':' ∧ scalar c ≠ '+' := by
  have hr (hc : c < 128) : 48 ≤ c ∧ c ≤ 57 := by
    rw [icu.digit_ascii hc] at h
    simpa using h
  have hne {k : Char} (hk : k.toNat = 47 ∨ k.toNat = 64 ∨ k.toNat = 58 ∨ k.toNat = 43) :
      scalar c ≠ k :=
    scalar_ne (by intro he; have := hr (by omega); omega) (by omega)
  exact ⟨⟨scalar_not_whitespace (icu.digit_not_whitespace h), hne (by decide)⟩, hne (by decide),
    hne (by decide), hne (by decide)⟩

variable {l : List Nat}

theorem forall_map_scalar {p : Nat → Bool} (P : Char → Prop) (hp : ∀ {c}, p c → P (scalar c))
    (h : ∀ c ∈ l, p c) : ∀ c ∈ l.map scalar, P c := by
  intro c hc
  have ⟨a, ha, he⟩ := mem_map.mp hc
  exact he ▸ hp (h a ha)

theorem scheme_of_isMatch (h : scheme.isMatch l) : l.map scalar = [] ∨
    l.map scalar = "socks5://".toList ∨ l.map scalar = "http://".toList := by
  rw [scheme, isMatch_opt] at h
  rcases h with h | rfl
  · have ⟨a, b, hl, ha, hb⟩ := isMatch_seq.mp h
    cases isMatch_word.mp hb
    rcases isMatch_alt.mp ha with ha | ha
    · cases isMatch_word.mp ha
      subst hl
      exact .inr (.inl (by decide))
    · cases isMatch_word.mp ha
      subst hl
      exact .inr (.inr (by decide))
  · exact .inl rfl

theorem login_of_isMatch (h : login.isMatch l) :
    (l.map scalar = [] ∨ ∃ pair, l.map scalar = pair ++ ['@']) ∧ ∀ c ∈ l.map scalar, Plain c := by
  have hword {k : Char} (hk : Plain k) : ∀ c ∈ [k], Plain c := fun c hc => mem_singleton.mp hc ▸ hk
  rw [login, isMatch_opt] at h
  rcases h with h | rfl
  · have ⟨a, b, hl, ha, hb⟩ := isMatch_seq.mp h
    have ⟨c, d, hb', hc, hd⟩ := isMatch_seq.mp hb
    cases isMatch_word.mp hd
    have ha := forall_map_scalar Plain credential_plain (isMatch_rep_cls.mp ha).right.right
    have hc : ∀ x ∈ c.map scalar, Plain x := by
      rcases isMatch_opt.mp hc with hc | rfl
      · have ⟨e, f, hc', he, hf⟩ := isMatch_seq.mp hc
        cases isMatch_word.mp he
        have hf := forall_map_scalar Plain credential_plain (isMatch_rep_cls.mp hf).right.right
        subst hc'
        rw [map_append]
        exact forall_mem_append.mpr ⟨hword (by decide), hf⟩
      · exact nofun
    subst hl hb'
    refine ⟨.inr ⟨a.map scalar ++ c.map scalar, ?_⟩, ?_⟩
    · simp only [map_append, append_assoc]
      rfl
    · simp only [map_append, forall_mem_append]
      exact ⟨ha, hc, hword (by decide)⟩
  · exact ⟨.inl rfl, nofun⟩

theorem host_of_isMatch (h : host.isMatch l) :
    (∃ host ≠ [], Endpoint host (l.map scalar)) ∧ ∀ c ∈ l.map scalar, Plain c ∧ c ≠ '@' := by
  rcases isMatch_alt.mp h with h | h
  · obtain ⟨a, b, hl, ha, hb⟩ := isMatch_seq.mp h
    obtain ⟨c, d, hb', hc, hd⟩ := isMatch_seq.mp hb
    cases isMatch_word.mp ha
    cases isMatch_word.mp hd
    obtain ⟨hlen, _, hc⟩ := isMatch_rep_cls.mp hc
    have hc := forall_map_scalar (fun c => Plain c ∧ c ≠ '@' ∧ c ≠ ']') address_plain hc
    have hl : l.map scalar = '[' :: c.map scalar ++ [']'] := by
      subst hl hb'
      simp only [map_append]
      rfl
    rw [hl]
    refine ⟨⟨c.map scalar, ?_, .address fun hm => (hc _ hm).right.right rfl⟩, ?_⟩
    · intro hn
      simp [map_eq_nil_iff.mp hn] at hlen
    · intro x hx
      simp only [cons_append, mem_cons, mem_append, not_mem_nil, or_false] at hx
      rcases hx with rfl | hx | rfl
      · decide
      · exact ⟨(hc x hx).left, (hc x hx).right.left⟩
      · decide
  · obtain ⟨hlen, _, hc⟩ := isMatch_rep_cls.mp h
    have hc := forall_map_scalar (fun c => Plain c ∧ c ≠ '@' ∧ c ≠ '[') name_plain hc
    refine ⟨⟨l.map scalar, ?_, .name fun hm => (hc _ hm).right.right rfl⟩, ?_⟩
    · intro hn
      simp [map_eq_nil_iff.mp hn] at hlen
    · exact fun x hx => ⟨(hc x hx).left, (hc x hx).right.left⟩

end UpstreamEntry

open UpstreamEntry Regex

theorem written_of_isMatch {l : List Nat} (h : (UPSTREAM_ENTRY icu).isMatch l) :
    ∃ host port, Written (l.map scalar) host port := by
  have ⟨a, _, hl, ha, h⟩ := isMatch_seq.mp h
  have ⟨b, _, hb', hb, h⟩ := isMatch_seq.mp h
  have ⟨c, _, hc', hc, h⟩ := isMatch_seq.mp h
  have ⟨d, e, hd', hd, he⟩ := isMatch_seq.mp h
  cases isMatch_word.mp hd
  have hscheme := scheme_of_isMatch ha
  have ⟨hlogin, hplain⟩ := login_of_isMatch hb
  have ⟨⟨host, hne, hend⟩, hhost⟩ := host_of_isMatch hc
  have hport := forall_map_scalar (fun c => Plain c ∧ c ≠ '@' ∧ c ≠ ':' ∧ c ≠ '+') digit_plain
    (isMatch_rep_cls.mp he).right.right
  have hmap : l.map scalar = a.map scalar ++ (b.map scalar ++ (c.map scalar ++ ':' :: e.map scalar)) := by
    subst hl hb' hc' hd'
    simp only [map_append]
    rfl
  rw [hmap]
  refine ⟨host, e.map scalar, .mk hscheme hlogin hend hne ?_ ?_ fun x hx => (hport x hx).right.right⟩
  · intro x hx
    rcases mem_append.mp hx with hx | hx
    · exact hplain x hx
    · rcases mem_append.mp hx with hx | hx
      · exact (hhost x hx).left
      · rcases mem_cons.mp hx with rfl | hx
        · decide
        · exact (hport x hx).left
  · intro hx
    rcases mem_append.mp hx with hx | hx
    · exact (hhost _ hx).right rfl
    · rcases mem_cons.mp hx with hx | hx
      · exact absurd hx (by decide)
      · exact (hport _ hx).right.left rfl

-- The engine is not started, or it dials out through the proxy that the profile names.
def UpstreamKept (icu : Icu) (cm : Rust.CaseMap) (p : ConnectionProfile) : Prop :=
  ∀ env, upstreamEnv icu p = some env → ∃ u, fromEnv cm env = some u ∧
    Names (envText p.upstreamProxy.trim) u.host u.port

-- The app lets the setting through, and its port is one (or a NUL keeps the engine from starting).
structure Usable (icu : Icu) (t : Text) : Prop where
  length_le : t.length ≤ 200
  isMatch : (UPSTREAM_ENTRY icu).isMatch (codePoints t)
  port : 0 ∈ t ∨ ∃ n ∈ portOf (envText t), n ≠ 0

theorem sanitizedUpstream_eq {p : ConnectionProfile} : sanitizedUpstream icu p =
    if p.upstreamProxy.trim.length ≤ 200 ∧ (UPSTREAM_ENTRY icu).isMatch (codePoints p.upstreamProxy.trim)
    then some p.upstreamProxy.trim else none := by
  refine if_congr ⟨And.right, fun h => ⟨?_, h⟩⟩ rfl rfl
  have ⟨_, _, hw⟩ := written_of_isMatch h.right
  have hne := hw.ne_nil
  cases ht : p.upstreamProxy.trim
  case nil => simp [ht, codePoints] at hne
  case cons => simp

theorem not_upstreamKept_of_eq_none {p : ConnectionProfile} (cm : Rust.CaseMap)
    (h : sanitizedUpstream icu p = none) : ¬ UpstreamKept icu cm p := by
  intro hk
  have ⟨u, hu, _⟩ := hk none (by rw [upstreamEnv, h])
  cases hu

theorem upstreamKept_iff (icu : Icu) (cm : Rust.CaseMap) (p : ConnectionProfile) :
    UpstreamKept icu cm p ↔ Usable icu p.upstreamProxy.trim := by
  by_cases h : p.upstreamProxy.trim.length ≤ 200 ∧
    (UPSTREAM_ENTRY icu).isMatch (codePoints p.upstreamProxy.trim)
  case neg =>
    refine iff_of_false ?_ fun hu => h ⟨hu.length_le, hu.isMatch⟩
    exact not_upstreamKept_of_eq_none cm (sanitizedUpstream_eq.trans (if_neg h))
  case pos =>
    have hs : sanitizedUpstream icu p = some p.upstreamProxy.trim := sanitizedUpstream_eq.trans (if_pos h)
    have ⟨host, port, hw⟩ := written_of_isMatch h.right
    by_cases h0 : 0 ∈ p.upstreamProxy.trim
    case pos =>
      refine iff_of_true (fun env he => ?_) ⟨h.left, h.right, .inl h0⟩
      simp [upstreamEnv, hs, h0] at he
    case neg =>
      have hk : UpstreamKept icu cm p ↔ ∃ u, fromEnv cm (some (envText p.upstreamProxy.trim)) = some u ∧
          Names (envText p.upstreamProxy.trim) u.host u.port := by
        simp [UpstreamKept, upstreamEnv, hs, h0]
      refine hk.trans (Iff.trans (hw.fromEnv_iff cm) ?_)
      constructor
      case mp => exact fun hp => ⟨h.left, h.right, .inr hp⟩
      case mpr => exact fun hu => hu.port.resolve_left h0

-- The port is missing: nothing reaches the engine, which then dials out directly.
theorem not_upstreamKept_portless :
    ¬ UpstreamKept Icu.ascii Rust.CaseMap.ascii { upstreamProxy := lit "proxy.example" } := by
  refine not_upstreamKept_of_eq_none _ (sanitizedUpstream_eq.trans (if_neg fun h => ?_))
  have ⟨_, _, hw⟩ := written_of_isMatch h.right
  have ⟨_, hr⟩ := hw.rcut_eq
  have hn : Delimited.rcut ':' (envText (Text.trim (lit "proxy.example"))) = none := by decide
  cases hn.symm.trans hr

end App
