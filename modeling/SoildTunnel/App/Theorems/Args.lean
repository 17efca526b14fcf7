import SoildTunnel.App.Args
import SoildTunnel.App.Theorems.Upstream
import SoildTunnel.Engine.Cli
import SoildTunnel.Engine.Routing

-- What the engine makes of the arguments that the app gives it.
namespace Engine.Cli

open Rust

def assigned (v : Variable) : List (Variable × Text) → Option Text
  | [] => none
  | (w, value) :: l => (assigned v l).or (if v = w then some value else none)

theorem assigned_append (v : Variable) (l l' : List (Variable × Text)) :
    assigned v (l ++ l') = (assigned v l').or (assigned v l) := by
  induction l
  case nil => simp [assigned]
  case cons a l ih => rw [List.cons_append, assigned, assigned, ih, Option.or_assoc]

theorem assigned_targets (v : Variable) (targets : List Variable) (value : Text) :
    assigned v (targets.map (·, value)) = if v ∈ targets then some value else none := by
  induction targets
  case nil => rfl
  case cons w targets ih =>
    rw [List.map_cons, assigned, ih]
    by_cases ht : v ∈ targets <;> simp [ht]

theorem assigned_eq_none {v : Variable} {l : List (Variable × Text)} (h : ∀ x ∈ l, x.1 ≠ v) : assigned v l = none := by
  induction l
  case nil => rfl
  case cons a l ih =>
    have ha := h a List.mem_cons_self
    rw [assigned, ih fun x hx => h x (List.mem_cons_of_mem a hx), if_neg ha.symm]
    rfl

theorem setAll_append (env : Env) (l l' : List (Variable × Text)) : env.setAll (l ++ l') = (env.setAll l).setAll l' :=
  List.foldl_append

theorem setAll_apply (env : Env) (l : List (Variable × Text)) (v : Variable) :
    env.setAll l v = (assigned v l).or (env v) := by
  induction l generalizing env
  case nil => rfl
  case cons a l ih =>
    change (env.set a.1 a.2).setAll l v = _
    rw [ih, assigned, Option.or_assoc]
    congr 1
    unfold Env.set
    split <;> rfl

def named (name : String) : Option Effect :=
  (options.find? fun (names, _) => name ∈ names).map Prod.snd

theorem effect_toList (name : String) : effect name.toList = named name := by
  have h : ∀ o : List String × Effect, (name.toList ∈ o.1.map String.toList) = (name ∈ o.1) := by
    intro o
    rw [List.mem_map, eq_iff_iff]
    constructor
    case mp => exact fun ⟨s, hs, he⟩ => String.toList_inj.mp he ▸ hs
    case mpr => exact fun hs => ⟨name, hs, rfl⟩
  simp only [effect, named, h]

end Engine.Cli

namespace App

open Kotlin Engine.Cli Distinct List

variable {t : Text}

theorem codePoints_of_lt (h : ∀ c ∈ t, c < 0xd800) : codePoints t = t.map UInt16.toNat := by
  fun_induction codePoints t
  case case1 => rfl
  case case2 => rfl
  case case3 c d t hp _ => exact absurd (h c mem_cons_self) (by simpa using hp.1)
  case case4 c d t _ ih =>
    rw [ih fun x hx => h x (mem_cons_of_mem c hx)]
    rfl

variable {n : Nat}

theorem mem_codePoints (h : n ∈ codePoints t) : (∃ c ∈ t, n = c.toNat) ∨ 0x10000 ≤ n ∧ n < 0x110000 := by
  fun_induction codePoints t
  case case1 => cases h
  case case2 c => exact .inl ⟨c, mem_singleton_self c, mem_singleton.mp h⟩
  case case3 c d t hp ih =>
    rcases mem_cons.mp h with h | h
    · have h₁ : c.toNat < 0xdc00 := UInt16.lt_iff_toNat_lt.mp hp.2.1
      have h₂ : d.toNat < 0xe000 := UInt16.lt_iff_toNat_lt.mp hp.2.2.2
      exact .inr (by omega)
    · exact (ih h).imp (fun ⟨x, hx, he⟩ => ⟨x, mem_cons_of_mem c (mem_cons_of_mem d hx), he⟩) id
  case case4 c d t _ ih =>
    rcases mem_cons.mp h with h | h
    · exact .inl ⟨c, mem_cons_self, h⟩
    · exact (ih h).imp (fun ⟨x, hx, he⟩ => ⟨x, mem_cons_of_mem c hx, he⟩) id

theorem scalar_of_lt (h : n < 0xd800) : scalar n = Char.ofNat n :=
  if_neg (by omega)

theorem scalar_ne_nul (h₀ : n ≠ 0) (h : n < 0x110000) : scalar n ≠ Char.ofNat 0 := by
  unfold scalar
  split
  case isTrue => decide
  case isFalse hn =>
    intro he
    have hv : n.isValidChar := by
      simp only [Nat.isValidChar]
      omega
    have ht : (Char.ofNat n).toNat = n := by rw [Char.ofNat, dif_pos hv]; rfl
    rw [he] at ht
    exact h₀ ht.symm

theorem nul_not_mem_envText (h : 0 ∉ t) : Char.ofNat 0 ∉ envText t := by
  intro hm
  have ⟨n, hn, he⟩ := mem_map.mp hm
  rcases mem_codePoints hn with ⟨c, hc, rfl⟩ | ⟨h₁, h₂⟩
  · refine scalar_ne_nul (fun h₀ => h ?_) (by have := c.toNat_lt; omega) he
    have hz : c = 0 := UInt16.toNat_inj.mp h₀
    exact hz ▸ hc
  · exact scalar_ne_nul (by omega) h₂ he

theorem nul_mem_envText (h : 0 ∈ t) : Char.ofNat 0 ∈ envText t := by
  have hm : 0 ∈ codePoints t := by
    fun_induction codePoints t
    case case1 => cases h
    case case2 c => exact mem_singleton.mpr (mem_singleton.mp h ▸ rfl)
    case case3 c d t hp ih =>
      have hc : (0 : UInt16) ≠ c := fun he => absurd (he ▸ hp.1) (by decide)
      have hd : (0 : UInt16) ≠ d := fun he => absurd (he ▸ hp.2.2.1) (by decide)
      exact mem_cons_of_mem _ (ih (mem_of_ne_of_mem hd (mem_of_ne_of_mem hc h)))
    case case4 c d t _ ih =>
      rcases mem_cons.mp h with h | h
      · exact mem_cons.mpr (.inl (h ▸ rfl))
      · exact mem_cons_of_mem _ (ih h)
  exact mem_map.mpr ⟨0, hm, rfl⟩

theorem envText_of_lt (h : ∀ c ∈ t, c < 0xd800) : envText t = t.map fun c => Char.ofNat c.toNat := by
  rw [envText, codePoints_of_lt h, map_map]
  exact map_congr_left fun c hc => scalar_of_lt (UInt16.lt_iff_toNat_lt.mp (h c hc))

variable {s : String}

theorem envText_lit (h : s.toList.all (·.toNat < 128)) : envText (lit s) = s.toList := by
  have hs : ∀ c ∈ s.toList, (UInt16.ofNat c.toNat).toNat = c.toNat ∧ c.toNat < 128 := by
    intro c hc
    have hc := of_decide_eq_true (all_eq_true.mp h c hc)
    exact ⟨Nat.mod_eq_of_lt (by omega), hc⟩
  have hl : ∀ u ∈ lit s, u < 0xd800 := by
    intro u hu
    have ⟨c, hc, he⟩ := mem_map.mp hu
    have ⟨h₁, h₂⟩ := hs c hc
    rw [← he, UInt16.lt_iff_toNat_lt, h₁]
    exact lt_trans h₂ (by decide)
  rw [envText_of_lt hl, lit, map_map]
  conv_rhs => rw [← map_id s.toList]
  refine map_congr_left fun c hc => ?_
  rw [Function.comp_apply, (hs c hc).1, Char.ofNat_toNat]
  rfl

def Arg.use : Arg → Use
  | .flag name => ⟨name.toList, none⟩
  | .option name value => ⟨name.toList, some (envText value)⟩

def Arg.settings : Arg → List (Variable × Rust.Text)
  | .flag name =>
    match named name with
    | some (.flag settings) => fixed settings
    | _ => []
  | .option name value =>
    match named name with
    | some (.value settings targets) => fixed settings ++ targets.map (·, envText value)
    | _ => []

inductive Arg.Known : Arg → Prop
  | flag {name : String} {settings : List (Variable × String)} :
    named name = some (.flag settings) → Arg.Known (.flag name)
  | option {name : String} {settings : List (Variable × String)} {targets : List Variable} {value : Text} :
    named name = some (.value settings targets) → Arg.Known (.option name value)

def Arg.NoNul : Arg → Prop
  | .flag _ => True
  | .option _ value => 0 ∉ value

variable {name : String}

-- The names of the options are ASCII, so they reach the engine as they are.
theorem envText_name {e : Effect} (h : named name = some e) : envText (lit name) = name.toList := by
  have ha : ∀ o ∈ options, ∀ s ∈ o.1, s.toList.all (·.toNat < 128) := by decide +kernel
  have ⟨⟨names, _⟩, ho, _⟩ := Option.map_eq_some_iff.mp h
  have hn := List.find?_some ho
  exact envText_lit (ha _ (mem_of_find?_eq_some ho) name (of_decide_eq_true hn))

theorem parseArgs_tokens {l : List Arg} (h : ∀ a ∈ l, a.Known) (hn : ∀ a ∈ l, a.NoNul) (env : Env) :
    parseArgs env ((l.flatMap Arg.tokens).map envText) =
      ⟨env.setAll (l.flatMap Arg.settings), l.map Arg.use, .ok ()⟩ := by
  induction l generalizing env
  case nil => rfl
  case cons a l ih =>
    have ih := fun env =>
      ih (fun b hb => h b (mem_cons_of_mem a hb)) (fun b hb => hn b (mem_cons_of_mem a hb)) env
    have ha := hn a mem_cons_self
    cases h a mem_cons_self
    case flag name settings he =>
      change parseArgs env (envText (lit name) :: (l.flatMap Arg.tokens).map envText) = _
      rw [envText_name he]
      simp [parseArgs, effect_toList, he, ih, Outcome.after, Arg.settings, Arg.use, setAll_append]
    case option name settings targets value he =>
      change parseArgs env (envText (lit name) :: envText value :: (l.flatMap Arg.tokens).map envText) = _
      rw [envText_name he]
      simp [parseArgs, effect_toList, he, nul_not_mem_envText ha, ih, Outcome.after, Arg.settings, Arg.use, setAll_append]

theorem noNul_of_ok {l : List Arg} (h : ∀ a ∈ l, a.Known) {env : Env}
    (hok : (parseArgs env ((l.flatMap Arg.tokens).map envText)).result = .ok ()) : ∀ a ∈ l, a.NoNul := by
  induction l generalizing env
  case nil => simp
  case cons a l ih =>
    have ih := fun {env} => @ih (fun b hb => h b (mem_cons_of_mem a hb)) env
    refine forall_mem_cons.mpr ?_
    cases h a mem_cons_self
    case flag name settings he =>
      change (parseArgs env (envText (lit name) :: (l.flatMap Arg.tokens).map envText)).result = _ at hok
      rw [envText_name he] at hok
      simp only [parseArgs, effect_toList, he, Outcome.after] at hok
      exact ⟨trivial, ih hok⟩
    case option name settings targets value he =>
      change (parseArgs env (envText (lit name) :: envText value :: (l.flatMap Arg.tokens).map envText)).result = _ at hok
      rw [envText_name he] at hok
      simp only [parseArgs, effect_toList, he] at hok
      split at hok
      case isTrue => cases hok
      case isFalse hm => exact ⟨fun hv => hm (nul_mem_envText hv), ih hok⟩

-- The part of an environment that some variables make up.
def only (vs : List Variable) (f : Env) : Env :=
  fun v => if v ∈ vs then f v else none

-- Options that the engine takes, and the values that they leave in the variables.
structure Gives (l : List Arg) (f : Env) : Prop where
  known : ∀ a ∈ l, a.Known
  assigned : ∀ v, assigned v (l.flatMap Arg.settings) = f v

variable {c : Bool}

namespace Gives

variable {l l' : List Arg} {f : Env} {vs ws targets : List Variable} {name : String} {value : Text}
  {settings : List (Variable × String)}

theorem absent (h : ∀ v ∈ vs, f v = none) : Gives [] (only vs f) where
  known := by simp
  assigned v := by
    unfold only
    split
    case isTrue hv => exact (h v hv).symm
    case isFalse => rfl

theorem append (h : Gives l (only vs f)) (h' : Gives l' (only ws f)) : Gives (l ++ l') (only (vs ++ ws) f) where
  known a ha := (mem_append.mp ha).elim (h.known a) (h'.known a)
  assigned v := by
    rw [flatMap_append, assigned_append, h.assigned, h'.assigned]
    by_cases hv : v ∈ vs <;> by_cases hw : v ∈ ws <;> simp [only, hv, hw]

theorem assigned_fixed (hs : ∀ x ∈ settings, x.1 ∈ vs) (hf : ∀ v ∈ vs, f v = Engine.Cli.assigned v (fixed settings))
    (v : Variable) : Engine.Cli.assigned v (fixed settings) = only vs f v := by
  unfold only
  split
  case isTrue hv => exact (hf v hv).symm
  case isFalse hv =>
    refine assigned_eq_none fun x hx => ?_
    obtain ⟨y, hy, rfl⟩ := mem_map.mp hx
    exact fun he => hv (he ▸ hs y hy)

theorem flags {L : List (String × List (Variable × String))} (h : ∀ x ∈ L, named x.1 = some (.flag x.2))
    (hs : ∀ x ∈ L.flatMap Prod.snd, x.1 ∈ vs)
    (hf : ∀ v ∈ vs, f v = Engine.Cli.assigned v (fixed (L.flatMap Prod.snd))) :
    Gives (L.map fun x => .flag x.1) (only vs f) where
  known a ha := by
    obtain ⟨x, hx, rfl⟩ := mem_map.mp ha
    exact .flag (h x hx)
  assigned v := by
    have hl : (L.map fun x => Arg.flag x.1).flatMap Arg.settings = fixed (L.flatMap Prod.snd) := by
      rw [flatMap_map, fixed, map_flatMap]
      exact flatMap_congr fun x hx => by simp [Arg.settings, h x hx, fixed]
    rw [hl, assigned_fixed hs hf]

theorem option (h : named name = some (.value settings targets)) (ht : ∀ v ∈ targets, f v = some (envText value))
    (hs : ∀ x ∈ settings, x.1 ∈ vs) (hf : ∀ v ∈ vs, f v = Engine.Cli.assigned v (fixed settings)) :
    Gives [.option name value] (only (vs ++ targets) f) where
  known := by simpa using .option h
  assigned v := by
    rw [flatMap_singleton, Arg.settings, h, assigned_append, assigned_targets, assigned_fixed hs hf]
    by_cases hm : v ∈ targets
    case pos => simp [only, hm, ht]
    case neg => simp [only, hm]

theorem flag {v : Variable} (h : named name = some (.flag [(v, s)])) (hf : f v = some s.toList) :
    Gives [.flag name] (only [v] f) :=
  flags (L := [(name, [(v, s)])]) (by simpa using h) (by simp) (by simpa [fixed, Engine.Cli.assigned] using hf)

theorem valued (h : named name = some (.value [] targets)) (ht : ∀ v ∈ targets, f v = some (envText value)) :
    Gives [.option name value] (only targets f) := by
  have hg : Gives [.option name value] (only ([] ++ targets) f) := option h ht (by simp) (by simp)
  exact hg

theorem flagIf {v : Variable} (h : named name = some (.flag [(v, s)]))
    (hf : f v = if c then some s.toList else none) : Gives (flagIf c name) (only [v] f) := by
  unfold App.flagIf
  split
  case isTrue hc => exact flag h (by simpa [hc] using hf)
  case isFalse hc => exact absent (by simpa [hc] using hf)

theorem optionIf (h : named name = some (.value [] targets))
    (hf : ∀ v ∈ targets, f v = if c then some (envText value) else none) :
    Gives (optionIf c name value) (only targets f) := by
  unfold App.optionIf
  split
  case isTrue hc => exact .valued h (by simpa [hc] using hf)
  case isFalse hc => exact absent (by simpa [hc] using hf)

theorem optionIf_decide {c : Prop} [Decidable c] (h : named name = some (.value [] targets))
    (hf : ∀ v ∈ targets, f v = if c then some (envText value) else none) :
    Gives (App.optionIf c name value) (only targets f) :=
  optionIf h (by simpa using hf)

theorem optionLet {value : Option Text} (h : named name = some (.value [] targets))
    (hf : ∀ v ∈ targets, f v = value.map envText) : Gives (optionLet name value) (only targets f) := by
  cases value
  case none => exact absent hf
  case some value => exact .valued h hf

theorem total (h : Gives l (only vs f)) (hf : ∀ v ∉ vs, f v = none) : Gives l f where
  known := h.known
  assigned v := by
    rw [h.assigned, only]
    split
    case isTrue => rfl
    case isFalse hv => exact (hf v hv).symm

end Gives

-- The values that the variables are supposed to get.
section Expected

variable (rt : Runtime) (p : ConnectionProfile)

def protocolName : Option String :=
  match p.protocol with
  | .auto => none
  | .tor => none
  | .masque => some "masque"
  | .soild => if p.soildHunt then some "gool" else some "masque"
  | .wireguard => some "wg"
  | .gool => some "gool"
  | .tuic => some "tuic"

def frontName : Option String :=
  if p.protocol = .soild then
    if p.soildHunt ∧ p.soildMode = .quic then some "quic" else some "1"
  else none

def scanName : ScanMode → String
  | .turbo => "turbo"
  | .balanced => "balanced"
  | .thorough => "thorough"
  | .stealth => "stealth"
  | .ironclad => "ironclad"

def ipName : IpVersion → String
  | .v4 => "v4"
  | .v6 => "v6"
  | .both => "both"

def quickName : String :=
  if p.quickReconnect ∧ ¬ (p.endpointMode = .manualRange ∧ p.manualRange.trim ≠ []) then "1" else "0"

-- The settings of a protocol with a server of its own, and those of the others.
def ofTuic (value : Option Rust.Text) : Option Rust.Text :=
  if p.protocol = .tuic then value else none

def ofScan (value : Option Rust.Text) : Option Rust.Text :=
  if p.protocol = .tuic then none else value

def one (c : Bool) : Option Rust.Text :=
  if c then some "1".toList else none

def expected : Variable → Option Rust.Text
  | .PROTOCOL => (protocolName p).map String.toList
  | .MASQUE_FRONT => (frontName p).map String.toList
  | .GOOL_MODE => if p.protocol = .gool ∧ p.goolMode = .classic then some "classic".toList else none
  | .TUIC_SERVER => ofTuic p (some (envText ((sanitizedTuicServer rt p).getD [])))
  | .TUIC_SNI => ofTuic p ((sanitizedTuicSni p).map envText)
  | .TUIC_CC => ofTuic p ((sanitizedTuicCc rt p).map envText)
  | .TUIC_INSECURE => ofTuic p (one p.tuicInsecure)
  | .DNS => (joined (if p.protocol = .tuic then sanitizedDns rt p else effectiveDns rt p)).map envText
  | .ROUTE_BLOCK => (joined (sanitizedRules p.routeBlock)).map envText
  | .ROUTE_DIRECT => (joined (sanitizedRules p.routeDirect)).map envText
  | .SCAN => ofScan p (if p.hasManualPeer then none else some (scanName p.scanMode).toList)
  | .IP => ofScan p (some (ipName p.ipVersion).toList)
  | .QUICK_RECONNECT => ofScan p (some (quickName p).toList)
  | .NOIZE => ofScan p (if p.noize = .off then none else some (envText (noizeName p.noize)))
  | .PEER => ofScan p (if p.hasManualPeer then some (envText p.manualPeer.trim) else none)
  | .MASQUE_H2_FRAGMENT => ofScan p (one p.fragment)
  | .MASQUE_H2_FRAGMENT_SIZE => ofScan p (if p.fragment then (sanitizedRange rt p.fragmentSize).map envText else none)
  | .MASQUE_H2_FRAGMENT_DELAY => ofScan p (if p.fragment then (sanitizedRange rt p.fragmentDelay).map envText else none)
  | .ECH => ofScan p (if p.ech then some "auto".toList else none)
  | .WG_KEEPALIVE => ofScan p (if 0 < p.keepalive then some (envText (Text.ofInt p.keepalive)) else none)
  | .TEAM => ofScan p (if p.hasTeam then some (envText p.team.trim) else none)
  | .GATEWAY => ofScan p (one (p.hasTeam && p.gateway))
  | .TLS_GROUPS => ofScan p ((sanitizedTlsGroups p).map envText)
  | .MASQUE_VALIDATE_SECS | .WG_VALIDATE_SECS =>
    ofScan p (if 0 < p.validateSecs then some (envText (Text.ofInt (coerceIn 1 3600 p.validateSecs))) else none)
  | .MASQUE_RECONNECT_SECS | .WG_RECONNECT_SECS =>
    ofScan p (if 0 < p.reconnectSecs then some (envText (Text.ofInt (coerceIn 1 600 p.reconnectSecs))) else none)
  | .WG_NO_PROFILE_RETRY => ofScan p (one p.noProfileRetry)
  | _ => none

end Expected

-- What each group of arguments gives.
section Groups

variable {rt : Runtime} {p : ConnectionProfile}

-- Arguments that leave in some variables what is expected there.
abbrev Meets (rt : Runtime) (p : ConnectionProfile) (l : List Arg) (vs : List Variable) : Prop :=
  Gives l (only vs (expected rt p))

abbrev protocolVariables : List Variable :=
  [.PROTOCOL, .MASQUE_FRONT, .GOOL_MODE, .TUIC_SERVER, .TUIC_SNI, .TUIC_CC, .TUIC_INSECURE]

theorem meets_flagIf {v : Variable} (h : named name = some (.flag [(v, "1")])) (hf : expected rt p v = one c) :
    Meets rt p (flagIf c name) [v] :=
  .flagIf h hf

theorem ofTuic_eq (h : p.protocol = .tuic) (value : Option Rust.Text) : ofTuic p value = value :=
  if_pos h

theorem ofScan_eq (h : p.protocol ≠ .tuic) (value : Option Rust.Text) : ofScan p value = value :=
  if_neg h

-- The flags that choose a protocol, of which the later ones may correct the earlier ones.
theorem gives_protocolFlags {L : List (String × List (Variable × String))} (hp : p.protocol ≠ .tuic)
    (h : ∀ x ∈ L, named x.1 = some (.flag x.2))
    (hs : ∀ x ∈ L.flatMap Prod.snd, x.1 ∈ [Variable.PROTOCOL, .MASQUE_FRONT, .GOOL_MODE])
    (h₁ : (protocolName p).map String.toList = assigned .PROTOCOL (fixed (L.flatMap Prod.snd)))
    (h₂ : (frontName p).map String.toList = assigned .MASQUE_FRONT (fixed (L.flatMap Prod.snd)))
    (h₃ : (if p.protocol = .gool ∧ p.goolMode = .classic then some "classic".toList else none) =
      assigned .GOOL_MODE (fixed (L.flatMap Prod.snd))) :
    Meets rt p (L.map fun x => .flag x.1) protocolVariables := by
  have hg : Meets rt p (L.map fun x => .flag x.1) [.PROTOCOL, .MASQUE_FRONT, .GOOL_MODE] := by
    refine .flags h hs ?_
    simp only [forall_mem_cons]
    exact ⟨h₁, h₂, h₃, by simp⟩
  have ht : Meets rt p [] [.TUIC_SERVER, .TUIC_SNI, .TUIC_CC, .TUIC_INSECURE] := by
    refine .absent ?_
    simp only [forall_mem_cons]
    exact ⟨if_neg hp, if_neg hp, if_neg hp, if_neg hp, by simp⟩
  simpa using hg.append ht

theorem gives_tuic (hp : p.protocol = .tuic) : Meets rt p (protocolArgs rt p) protocolVariables := by
  have h₁ : Meets rt p [.option "--tuic" ((sanitizedTuicServer rt p).getD [])] ([.PROTOCOL, .MASQUE_FRONT, .GOOL_MODE] ++ [.TUIC_SERVER]) := by
    refine .option (by rfl : named "--tuic" = some (.value [(.PROTOCOL, "tuic")] [.TUIC_SERVER]))
      (forall_mem_singleton.mpr (ofTuic_eq hp _)) (by decide) ?_
    simp only [forall_mem_cons]
    simp only [expected, protocolName, frontName, hp]
    simp [fixed, assigned]
  have h₂ : Meets rt p (optionLet "--tuic-sni" (sanitizedTuicSni p)) [.TUIC_SNI] :=
    .optionLet (by rfl) (forall_mem_singleton.mpr (ofTuic_eq hp _))
  have h₃ : Meets rt p (optionLet "--tuic-cc" (sanitizedTuicCc rt p)) [.TUIC_CC] :=
    .optionLet (by rfl) (forall_mem_singleton.mpr (ofTuic_eq hp _))
  have h₄ : Meets rt p (flagIf p.tuicInsecure "--tuic-insecure") [.TUIC_INSECURE] :=
    meets_flagIf (by rfl) (ofTuic_eq hp _)
  rw [protocolArgs, hp]
  exact h₁.append ((h₂.append h₃).append h₄)

theorem gives_protocolArgs : Meets rt p (protocolArgs rt p) protocolVariables := by
  by_cases ht : p.protocol = .tuic
  case pos => exact gives_tuic ht
  case neg =>
    have hg := fun L => @gives_protocolFlags rt p L ht
    unfold protocolName frontName at hg
    unfold protocolArgs
    cases hp : p.protocol <;> simp only [hp] at hg ⊢
    case auto => exact hg [] (by simp) (by simp) rfl rfl rfl
    case tor => exact hg [] (by simp) (by simp) rfl rfl rfl
    case masque => exact hg [("--masque", [(.PROTOCOL, "masque")])] (by decide) (by decide) rfl rfl rfl
    case wireguard => exact hg [("--wg", [(.PROTOCOL, "wg")])] (by decide) (by decide) rfl rfl rfl
    case soild =>
      cases hh : p.soildHunt <;> simp only [hh] at hg ⊢
      case false =>
        exact hg [("--soild-fast", [(.PROTOCOL, "masque"), (.MASQUE_FRONT, "1")])] (by decide) (by decide)
          rfl rfl rfl
      case true =>
        cases hm : p.soildMode <;> simp only [hm] at hg ⊢
        case h2 =>
          exact hg [("--soild", [(.PROTOCOL, "gool"), (.MASQUE_FRONT, "1")])] (by decide) (by decide) rfl rfl rfl
        case quic =>
          exact hg [("--soild", [(.PROTOCOL, "gool"), (.MASQUE_FRONT, "1")]),
            ("--soild-quic", [(.PROTOCOL, "gool"), (.MASQUE_FRONT, "quic")])] (by decide) (by decide) rfl rfl rfl
    case gool =>
      cases hm : p.goolMode <;> simp only [hm] at hg ⊢
      case onMasque => exact hg [("--gool", [(.PROTOCOL, "gool")])] (by decide) (by decide) rfl rfl rfl
      case classic =>
        exact hg [("--gool", [(.PROTOCOL, "gool")]), ("--gool-classic", [(.PROTOCOL, "gool"), (.GOOL_MODE, "classic")])]
          (by decide) (by decide) rfl rfl rfl
    case tuic => exact absurd hp ht

theorem gives_routeArgs : Meets rt p (routeArgs p) [.ROUTE_BLOCK, .ROUTE_DIRECT] := by
  have h₁ : Meets rt p (optionLet "--route-block" (joined (sanitizedRules p.routeBlock))) [.ROUTE_BLOCK] :=
    .optionLet (by rfl) (forall_mem_singleton.mpr rfl)
  have h₂ : Meets rt p (optionLet "--route-direct" (joined (sanitizedRules p.routeDirect))) [.ROUTE_DIRECT] :=
    .optionLet (by rfl) (forall_mem_singleton.mpr rfl)
  exact h₁.append h₂

theorem gives_tuningArgs (hp : p.protocol ≠ .tuic) : Meets rt p (tuningArgs rt p) [.MASQUE_H2_FRAGMENT_SIZE, .MASQUE_H2_FRAGMENT_DELAY, .TLS_GROUPS, .MASQUE_VALIDATE_SECS, .WG_VALIDATE_SECS, .MASQUE_RECONNECT_SECS, .WG_RECONNECT_SECS, .WG_NO_PROFILE_RETRY] := by
  have h₁ : Meets rt p (if p.fragment then optionLet "--fragment-size" (sanitizedRange rt p.fragmentSize) ++
      optionLet "--fragment-delay" (sanitizedRange rt p.fragmentDelay) else []) ([.MASQUE_H2_FRAGMENT_SIZE] ++ [.MASQUE_H2_FRAGMENT_DELAY]) := by
    cases hf : p.fragment
    case true =>
      refine .append (.optionLet (by rfl) ?_)
        (.optionLet (by rfl) ?_)
      · exact forall_mem_singleton.mpr ((ofScan_eq hp _).trans (if_pos hf))
      · exact forall_mem_singleton.mpr ((ofScan_eq hp _).trans (if_pos hf))
    case false =>
      refine .absent ?_
      rw [forall_mem_append, forall_mem_singleton, forall_mem_singleton]
      have hn : ¬p.fragment := by simp [hf]
      exact ⟨(ofScan_eq hp _).trans (if_neg hn), (ofScan_eq hp _).trans (if_neg hn)⟩
  have h₂ : Meets rt p (optionLet "--tls-groups" (sanitizedTlsGroups p)) [.TLS_GROUPS] :=
    .optionLet (by rfl) (forall_mem_singleton.mpr (ofScan_eq hp _))
  have h₃ : Meets rt p (optionIf (0 < p.validateSecs) "--validate-secs" (Text.ofInt (coerceIn 1 3600 p.validateSecs))) [.MASQUE_VALIDATE_SECS, .WG_VALIDATE_SECS] := by
    refine .optionIf_decide (by rfl) ?_
    rw [forall_mem_cons, forall_mem_singleton]
    exact ⟨ofScan_eq hp _, ofScan_eq hp _⟩
  have h₄ : Meets rt p (optionIf (0 < p.reconnectSecs) "--reconnect-secs" (Text.ofInt (coerceIn 1 600 p.reconnectSecs))) [.MASQUE_RECONNECT_SECS, .WG_RECONNECT_SECS] := by
    refine .optionIf_decide (by rfl) ?_
    rw [forall_mem_cons, forall_mem_singleton]
    exact ⟨ofScan_eq hp _, ofScan_eq hp _⟩
  have h₅ : Meets rt p (flagIf p.noProfileRetry "--no-profile-retry") [.WG_NO_PROFILE_RETRY] :=
    meets_flagIf (by rfl) (ofScan_eq hp _)
  exact (((h₁.append h₂).append h₃).append h₄).append h₅

theorem gives_scanArgs (hp : p.protocol ≠ .tuic) :
    Meets rt p (scanArgs p) [.SCAN, .IP, .QUICK_RECONNECT, .NOIZE, .PEER] := by
  have h₁ : Meets rt p (flagIf (!p.hasManualPeer) (scanFlag p.scanMode)) [.SCAN] := by
    have hn : named (scanFlag p.scanMode) = some (.flag [(.SCAN, scanName p.scanMode)]) := by
      cases p.scanMode <;> decide
    refine .flagIf hn ((ofScan_eq hp _).trans ?_)
    cases p.hasManualPeer <;> rfl
  have h₂ : Meets rt p [.flag (ipFlag p.ipVersion)] [.IP] := by
    have hn : named (ipFlag p.ipVersion) = some (.flag [(.IP, ipName p.ipVersion)]) := by
      cases p.ipVersion <;> decide
    exact .flag hn (ofScan_eq hp _)
  have h₃ : Meets rt p [.flag (quickFlag p)] [.QUICK_RECONNECT] := by
    have hn : named (quickFlag p) = some (.flag [(.QUICK_RECONNECT, quickName p)]) := by
      unfold quickFlag quickName
      split <;> decide
    exact .flag hn (ofScan_eq hp _)
  have h₄ : Meets rt p (optionIf (p.noize ≠ .off) "--noize" (noizeName p.noize)) [.NOIZE] := by
    refine .optionIf_decide (by rfl) (forall_mem_singleton.mpr ?_)
    rw [ite_not]
    exact ofScan_eq hp _
  have h₅ : Meets rt p (optionIf p.hasManualPeer "--peer" p.manualPeer.trim) [.PEER] :=
    .optionIf (by rfl) (forall_mem_singleton.mpr (ofScan_eq hp _))
  exact (((h₁.append h₂).append h₃).append h₄).append h₅

theorem gives_linkArgs (hp : p.protocol ≠ .tuic) :
    Meets rt p (linkArgs p) [.MASQUE_H2_FRAGMENT, .ECH, .WG_KEEPALIVE] := by
  have h₁ : Meets rt p (flagIf p.fragment "--fragment") [.MASQUE_H2_FRAGMENT] :=
    meets_flagIf (by rfl) (ofScan_eq hp _)
  have h₂ : Meets rt p (optionIf p.ech "--ech" (lit "auto")) [.ECH] := by
    refine .optionIf (by rfl) (forall_mem_singleton.mpr ?_)
    rw [envText_lit (by decide)]
    exact ofScan_eq hp _
  have h₃ : Meets rt p (optionIf (0 < p.keepalive) "--keepalive" (Text.ofInt p.keepalive)) [.WG_KEEPALIVE] :=
    .optionIf_decide (by rfl) (forall_mem_singleton.mpr (ofScan_eq hp _))
  exact (h₁.append h₂).append h₃

theorem gives_teamArgs (hp : p.protocol ≠ .tuic) : Meets rt p (teamArgs p) [.TEAM, .GATEWAY] := by
  have h₁ : Meets rt p (optionIf p.hasTeam "--team" p.team.trim) [.TEAM] :=
    .optionIf (by rfl) (forall_mem_singleton.mpr (ofScan_eq hp _))
  have h₂ : Meets rt p (flagIf (p.hasTeam && p.gateway) "--gateway") [.GATEWAY] :=
    meets_flagIf (by rfl) (ofScan_eq hp _)
  exact h₁.append h₂

theorem gives_dns {l : List Text} (he : expected rt p .DNS = (joined l).map envText) :
    Meets rt p (optionLet "--dns" (joined l)) [.DNS] :=
  .optionLet (by rfl) (forall_mem_singleton.mpr he)

theorem gives_args : Gives (args rt p) (expected rt p) := by
  unfold args
  split
  case isTrue hp =>
    have hd : expected rt p .DNS = (joined (sanitizedDns rt p)).map envText := by simp only [expected, if_pos hp]
    have hg := gives_protocolArgs.append ((gives_dns hd).append gives_routeArgs)
    refine hg.total fun v hv => ?_
    cases v <;> first | rfl | exact if_pos hp | exact absurd hv (by decide)
  case isFalse hp =>
    have hd : expected rt p .DNS = (joined (effectiveDns rt p)).map envText := by simp only [expected, if_neg hp]
    have hs := ((gives_scanArgs hp).append (gives_linkArgs hp)).append (gives_dns hd)
    have hg := gives_protocolArgs.append
      (((hs.append (gives_teamArgs hp)).append gives_routeArgs).append (gives_tuningArgs hp))
    refine hg.total fun v hv => ?_
    cases v <;> first | rfl | exact absurd hv (by decide)

end Groups

-- The texts that become values of options have no NUL character.
structure ConnectionProfile.NoNul (p : ConnectionProfile) : Prop where
  manualPeer : 0 ∉ p.manualPeer
  dnsServers : 0 ∉ p.dnsServers
  team : 0 ∉ p.team
  routeBlock : 0 ∉ p.routeBlock
  routeDirect : 0 ∉ p.routeDirect
  fragmentSize : 0 ∉ p.fragmentSize
  fragmentDelay : 0 ∉ p.fragmentDelay
  tlsGroups : 0 ∉ p.tlsGroups
  tuicServer : 0 ∉ p.tuicServer
  tuicSni : 0 ∉ p.tuicSni

section NoNul

variable {t : Text} {rt : Runtime} {p : ConnectionProfile}

theorem nul_not_mem_trim (h : 0 ∉ t) : 0 ∉ t.trim :=
  fun hm => h ((Text.trim_isInfix t).subset hm)

theorem nul_not_mem_ofInt (i : Int32) : 0 ∉ Text.ofInt i := by
  have hd : ∀ n, 0 ∉ Text.decimal n := by
    intro n hm
    have hne : ∀ d < 10, 48 + UInt16.ofNat d ≠ 0 := by decide
    unfold Text.decimal at hm
    split at hm
    case isTrue => exact absurd hm (by decide)
    case isFalse =>
      have ⟨d, hd, he⟩ := mem_map.mp hm
      exact hne d (Nat.digits_lt_base (by decide) (mem_reverse.mp hd)) he
  unfold Text.ofInt
  split
  case isTrue => exact fun hm => (mem_cons.mp hm).elim (by decide) (hd _)
  case isFalse => exact hd _

theorem mem_entries {isSeparator : UInt16 → Bool} {isEntry : List Nat → Bool} {limit : Nat} {raw x : Text}
    (h : x ∈ entries isSeparator isEntry limit raw) :
    (∃ y ∈ raw.splitOnP isSeparator, Text.trim y = x) ∧ x ≠ [] ∧ isEntry (codePoints x) := by
  have h := mem_of_mem_distinctBy (mem_of_mem_take h)
  rw [mem_filter, mem_map, decide_eq_true_eq] at h
  exact h

theorem nul_not_mem_entry {isSeparator : UInt16 → Bool} {isEntry : List Nat → Bool} {limit : Nat} {raw x : Text}
    (h : 0 ∉ raw) (hx : x ∈ entries isSeparator isEntry limit raw) : 0 ∉ x := by
  obtain ⟨⟨y, hy, rfl⟩, _⟩ := mem_entries hx
  exact nul_not_mem_trim fun hm => h (Delimited.mem_splitOnP hy 0 hm).right

theorem nul_not_mem_joined {l : List Text} (h : ∀ x ∈ l, 0 ∉ x) : ∀ t ∈ joined l, 0 ∉ t := by
  intro t ht hm
  unfold joined at ht
  obtain ⟨-, ht⟩ := Option.ite_none_left_eq_some.mp ht
  rw [← Option.mem_some.mp ht] at hm
  rcases Delimited.mem_intercalate hm with hc | ⟨x, hx, hc⟩
  · exact absurd hc (by decide)
  · exact h x hx hc

theorem nul_not_mem_effectiveDns (h : p.NoNul) : ∀ x ∈ effectiveDns rt p, 0 ∉ x := by
  intro x hx
  have hx := mem_of_mem_distinctBy (mem_of_mem_take hx)
  rcases mem_append.mp hx with hx | hx
  · split at hx
    case isTrue => exact mem_singleton.mp hx ▸ (by decide)
    case isFalse =>
      split at hx
      case isTrue => exact mem_singleton.mp hx ▸ (by decide)
      case isFalse => cases hx
  · exact nul_not_mem_entry h.dnsServers hx

theorem nul_not_mem_ite {c : Prop} [Decidable c] {x : Text} (h : c → 0 ∉ x) :
    ∀ t ∈ if c then some x else none, 0 ∉ t := by
  intro t ht
  split at ht
  case isTrue hc => exact Option.mem_some.mp ht ▸ h hc
  case isFalse => cases ht

theorem nul_not_mem_sanitizedTuicServer (h : p.NoNul) : ∀ t ∈ sanitizedTuicServer rt p, 0 ∉ t := by
  intro t ht
  simp only [sanitizedTuicServer] at ht
  obtain ⟨-, ht⟩ := Option.ite_none_right_eq_some.mp ht
  split at ht
  case h_1 => exact nul_not_mem_ite (fun _ => nul_not_mem_trim h.tuicServer) t ht
  case h_2 => cases ht

theorem nul_not_mem_sanitizedTuicSni (h : p.NoNul) : ∀ t ∈ sanitizedTuicSni p, 0 ∉ t :=
  nul_not_mem_ite fun _ => nul_not_mem_trim h.tuicSni

theorem nul_not_mem_sanitizedTuicCc : ∀ t ∈ sanitizedTuicCc rt p, 0 ∉ t := by
  have hn : ∀ t ∈ TUIC_CC_NAMES, 0 ∉ t := by decide
  exact nul_not_mem_ite fun hc => hn _ hc

theorem nul_not_mem_sanitizedRange {raw : Text} (h : 0 ∉ raw) : ∀ t ∈ sanitizedRange rt raw, 0 ∉ t :=
  nul_not_mem_ite fun _ => nul_not_mem_trim h

theorem nul_not_mem_sanitizedTlsGroups (h : p.NoNul) : ∀ t ∈ sanitizedTlsGroups p, 0 ∉ t :=
  nul_not_mem_ite fun _ => nul_not_mem_trim h.tlsGroups

variable {P : Arg → Prop}

theorem forall_flagIf (h : P (.flag name)) : ∀ a ∈ flagIf c name, P a := by
  unfold flagIf
  split <;> simp [h]

theorem forall_optionIf {value : Text} (h : P (.option name value)) : ∀ a ∈ optionIf c name value, P a := by
  unfold optionIf
  split <;> simp [h]

theorem forall_optionLet {value : Option Text} (h : ∀ t ∈ value, P (.option name t)) :
    ∀ a ∈ optionLet name value, P a := by
  cases value
  case none => simp [optionLet]
  case some t => simpa [optionLet] using h

theorem noNul_protocolArgs (h : p.NoNul) : ∀ a ∈ protocolArgs rt p, a.NoNul := by
  have hs : 0 ∉ (sanitizedTuicServer rt p).getD [] := by
    cases hs : sanitizedTuicServer rt p
    case none => decide
    case some t => exact nul_not_mem_sanitizedTuicServer h t hs
  unfold protocolArgs
  split
  case h_1 => simp
  case h_2 => simp
  case h_3 => simp [Arg.NoNul]
  case h_4 =>
    split
    case isTrue => exact forall_mem_cons.mpr ⟨trivial, forall_flagIf trivial⟩
    case isFalse => simp [Arg.NoNul]
  case h_5 => simp [Arg.NoNul]
  case h_6 => exact forall_mem_cons.mpr ⟨trivial, forall_flagIf trivial⟩
  case h_7 =>
    simp only [forall_mem_cons, forall_mem_append]
    exact ⟨hs, ⟨forall_optionLet (nul_not_mem_sanitizedTuicSni h), forall_optionLet nul_not_mem_sanitizedTuicCc⟩,
      forall_flagIf trivial⟩

theorem noNul_routeArgs (h : p.NoNul) : ∀ a ∈ routeArgs p, a.NoNul := by
  refine forall_mem_append.mpr ⟨forall_optionLet (nul_not_mem_joined fun _ hx => ?_),
    forall_optionLet (nul_not_mem_joined fun _ hx => ?_)⟩
  · exact nul_not_mem_entry h.routeBlock hx
  · exact nul_not_mem_entry h.routeDirect hx

theorem noNul_tuningArgs (h : p.NoNul) : ∀ a ∈ tuningArgs rt p, a.NoNul := by
  simp only [tuningArgs, forall_mem_append]
  refine ⟨⟨⟨⟨?_, forall_optionLet (nul_not_mem_sanitizedTlsGroups h)⟩, forall_optionIf (nul_not_mem_ofInt _)⟩,
    forall_optionIf (nul_not_mem_ofInt _)⟩, forall_flagIf trivial⟩
  split
  case isTrue =>
    exact forall_mem_append.mpr ⟨forall_optionLet (nul_not_mem_sanitizedRange h.fragmentSize),
      forall_optionLet (nul_not_mem_sanitizedRange h.fragmentDelay)⟩
  case isFalse => simp

theorem noNul_scanArgs (h : p.NoNul) : ∀ a ∈ scanArgs p, a.NoNul := by
  have hn : 0 ∉ noizeName p.noize := by cases p.noize <;> decide
  simp only [scanArgs, forall_mem_append, forall_mem_singleton]
  exact ⟨⟨⟨⟨forall_flagIf trivial, trivial⟩, trivial⟩, forall_optionIf hn⟩, forall_optionIf (nul_not_mem_trim h.manualPeer)⟩

theorem noNul_args (h : p.NoNul) : ∀ a ∈ args rt p, a.NoNul := by
  refine forall_mem_append.mpr ⟨noNul_protocolArgs h, ?_⟩
  split
  case isTrue =>
    exact forall_mem_append.mpr
      ⟨forall_optionLet (nul_not_mem_joined fun _ => nul_not_mem_entry h.dnsServers), noNul_routeArgs h⟩
  case isFalse =>
    have hl : ∀ a ∈ linkArgs p, a.NoNul := by
      simp only [linkArgs, forall_mem_append]
      exact ⟨⟨forall_flagIf trivial, forall_optionIf (by decide : 0 ∉ lit "auto")⟩,
        forall_optionIf (nul_not_mem_ofInt _)⟩
    have ht : ∀ a ∈ teamArgs p, a.NoNul :=
      forall_mem_append.mpr ⟨forall_optionIf (nul_not_mem_trim h.team), forall_flagIf trivial⟩
    simp only [forall_mem_append]
    exact ⟨⟨⟨⟨⟨noNul_scanArgs h, hl⟩, forall_optionLet (nul_not_mem_joined (nul_not_mem_effectiveDns h))⟩, ht⟩,
      noNul_routeArgs h⟩, noNul_tuningArgs h⟩

end NoNul

-- The rules on their way through the variables.
section Rules

variable {cm : Rust.CaseMap} {rs : Engine.RuleSyntax}

theorem codePoints_cons_comma (t : Text) : codePoints (Text.comma :: t) = 44 :: codePoints t := by
  cases t
  case nil => rfl
  case cons d t =>
    rw [codePoints, if_neg (by simp [show ¬ (0xd800 : UInt16) ≤ Text.comma by decide])]
    rfl

theorem codePoints_append_comma (a b : Text) :
    codePoints (a ++ Text.comma :: b) = codePoints a ++ 44 :: codePoints b := by
  fun_induction codePoints a
  case case1 => exact codePoints_cons_comma b
  case case2 c =>
    change codePoints (c :: Text.comma :: b) = _
    rw [codePoints, if_neg (by simp [show ¬ (0xdc00 : UInt16) ≤ Text.comma by decide]), codePoints_cons_comma]
    rfl
  case case3 c d t hp ih =>
    change codePoints (c :: d :: (t ++ Text.comma :: b)) = _
    rw [codePoints, if_pos hp, ih]
    rfl
  case case4 c d t hp ih =>
    change codePoints (c :: d :: (t ++ Text.comma :: b)) = _
    rw [codePoints, if_neg hp]
    exact congrArg _ ih

theorem envText_joinToString (l : List Text) :
    envText (Text.joinToString Text.comma l) = [','].intercalate (l.map envText) := by
  induction l
  case nil => rfl
  case cons a l ih =>
    cases l
    case nil => simp [Text.joinToString]
    case cons b l =>
      calc envText (Text.joinToString Text.comma (a :: b :: l))
        _ = envText (a ++ Text.comma :: Text.joinToString Text.comma (b :: l)) := by simp [Text.joinToString]
        _ = envText a ++ ',' :: envText (Text.joinToString Text.comma (b :: l)) := by
          rw [envText, codePoints_append_comma, map_append, map_cons]
          rfl
        _ = [','].intercalate ((a :: b :: l).map envText) := by simp [ih]

theorem scalar_ruleChar : ∀ n < 128, Entry.ruleChar n → (scalar n = '\n' || scalar n = ',' || scalar n = ';') = false := by
  decide +kernel

theorem lt_of_ruleChar (h : Entry.ruleChar n) : n < 128 := by
  simp only [Entry.ruleChar, isAlphanumeric, Bool.or_eq_true, Bool.and_eq_true, decide_eq_true_eq, mem_cons,
    not_mem_nil, or_false] at h
  omega

theorem separator_not_mem_rule {raw x : Text} (h : x ∈ sanitizedRules raw) :
    ∀ c ∈ envText x, (c = '\n' || c = ',' || c = ';') = false := by
  intro c hc
  have ⟨n, hn, he⟩ := mem_map.mp hc
  have ⟨_, _, hr⟩ := mem_entries h
  have hr := (Regex.isMatch_rep_cls.mp hr).2.2 n hn
  exact he ▸ scalar_ruleChar n (lt_of_ruleChar hr) hr

theorem parseList_joined (raw : Text) :
    Engine.RuleSet.parseList cm rs (((joined (sanitizedRules raw)).map envText).getD []) =
      (sanitizedRules raw).filterMap fun rule => Engine.Matcher.parse cm rs (envText rule) := by
  unfold joined
  split
  case isTrue he => rw [he]; rfl
  case isFalse hne =>
    have hs : ∀ x ∈ (sanitizedRules raw).map envText, ∀ c ∈ x, (c = '\n' || c = ',' || c = ';') = false := by
      intro x hx
      obtain ⟨y, hy, rfl⟩ := mem_map.mp hx
      exact separator_not_mem_rule hy
    rw [Option.map_some, Option.getD_some, envText_joinToString, Engine.RuleSet.parseList,
      Delimited.splitOnP_intercalate (by decide) (by simpa using hne) hs, filterMap_map]
    rfl

end Rules

-- What the engine has made of the arguments: it has taken each of them, no value as an option, the
-- variables have the profile's values, and the rules are the ones that the app has kept.
structure Agrees (rt : Runtime) (cm : Rust.CaseMap) (rs : Engine.RuleSyntax) (p : ConnectionProfile) (env : Env)
    (o : Outcome) : Prop where
  ok : o.result = .ok ()
  uses : o.uses = (args rt p).map Arg.use
  values : ∀ v, o.env v = (expected rt p v).or (env v)
  rules : env .ROUTE_BLOCK = none → env .ROUTE_DIRECT = none →
    Engine.RuleSet.parse cm rs ((o.env .ROUTE_BLOCK).getD []) ((o.env .ROUTE_DIRECT).getD []) = {
      block := (sanitizedRules p.routeBlock).filterMap fun rule => Engine.Matcher.parse cm rs (envText rule)
      direct := (sanitizedRules p.routeDirect).filterMap fun rule => Engine.Matcher.parse cm rs (envText rule)
    }

theorem agrees_toArgs (rt : Runtime) (cm : Rust.CaseMap) (rs : Engine.RuleSyntax) (p : ConnectionProfile) (h : p.NoNul)
    (env : Env) : Agrees rt cm rs p env (parseArgs env ((toArgs rt p).map envText)) := by
  have hg : Gives (args rt p) (expected rt p) := gives_args
  have hv : ∀ v, env.setAll ((args rt p).flatMap Arg.settings) v = (expected rt p v).or (env v) := by
    intro v
    rw [setAll_apply, hg.assigned]
  rw [toArgs, parseArgs_tokens hg.known (noNul_args h)]
  exact {
    ok := rfl
    uses := rfl
    values := hv
    rules hb hd := by
      dsimp only
      rw [hv, hv, hb, hd, Option.or_none, Option.or_none]
      exact congrArg₂ Engine.RuleSet.mk (parseList_joined p.routeBlock) (parseList_joined p.routeDirect)
  }

theorem agrees_toArgs_option : Agrees ⟨.ascii, id⟩ .ascii ⟨fun _ => none, fun _ => none⟩
      { protocol := .masque, routeBlock := lit "--direct, ads.example;x\n-4" } (fun _ => none)
      (parseArgs (fun _ => none)
        ((toArgs ⟨.ascii, id⟩ { protocol := .masque, routeBlock := lit "--direct, ads.example;x\n-4" }).map envText)) :=
  agrees_toArgs _ _ _ _
    ⟨by decide, by decide, by decide, by decide, by decide, by decide, by decide, by decide, by decide, by decide⟩ _

end App
