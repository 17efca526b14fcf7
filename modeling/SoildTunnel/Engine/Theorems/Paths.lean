import SoildTunnel.Engine.Paths

-- Which of the engine's files share a path.
namespace Engine.Paths

open Rust ZeroTrust List Delimited

-- What may be put into a file name without being taken for its end.
def Plain (suffix : Text) : Prop :=
  ∀ c ∈ suffix, inName c ∧ c ≠ '.'

instance : DecidablePred Plain :=
  List.decidableBAll fun c => inName c ∧ c ≠ '.'

theorem Plain.append {s t : Text} (hs : Plain s) (ht : Plain t) : Plain (s ++ t) :=
  forall_mem_append.mpr ⟨hs, ht⟩

theorem plain_of_isTeamChar {c : Char} (h : isTeamChar c) : inName c ∧ c ≠ '.' := by
  have hd : c ≠ '.' := by rintro rfl; revert h; decide
  have hs : c ≠ '/' := by rintro rfl; revert h; decide
  have hb : c ≠ '\\' := by rintro rfl; revert h; decide
  exact ⟨by simp [inName, hs, hb], hd⟩

theorem plain_team {cm : CaseMap} (team : Team cm) : Plain team.val := by
  have ⟨raw, h⟩ := team.property
  simp only [normalizeTeam] at h
  obtain ⟨-, h⟩ := Option.ite_none_left_eq_some.mp h
  have ⟨⟨_, ha⟩, he⟩ := Option.ite_none_right_eq_some.mp h
  rw [Option.some_inj.mp he] at ha
  exact fun c hc => plain_of_isTeamChar (all_eq_true.mp ha c hc)

theorem cutExtension_append (base : Text) : (cutExtension base).1 ++ (cutExtension base).2 = base := by
  unfold cutExtension
  split
  case h_2 => simp
  case h_1 stem ext h =>
    rw [append_assoc, ← (Delimited.rcut_eq_some h).1, Delimited.rdropWhile_append_rtakeWhile]

theorem cutExtension_of_none (base : Text) {name : Text} (hn : ∀ c ∈ name, inName c)
    (h : Delimited.rcut '.' name = none) :
    cutExtension (base.rdropWhile inName ++ name) = (base.rdropWhile inName ++ name, []) := by
  rw [cutExtension, rtakeWhile_append hn, h]

theorem cutExtension_of_some (base : Text) {name stem ext : Text} (hn : ∀ c ∈ name, inName c)
    (h : Delimited.rcut '.' name = some (stem, ext)) :
    cutExtension (base.rdropWhile inName ++ name) = (base.rdropWhile inName ++ stem, '.' :: ext) := by
  rw [cutExtension, rtakeWhile_append hn, rdropWhile_append hn, h]

theorem deriveSiblingPath_eq {base head ext suffix : Text} (h : cutExtension base = (head, ext)) :
    deriveSiblingPath base suffix = head ++ '-' :: suffix ++ ext := by
  rw [deriveSiblingPath, h]

-- A suffix stays before the extension, so that the next one comes right after it.
theorem cutExtension_deriveSiblingPath {base head ext suffix : Text} (hs : Plain suffix)
    (h : cutExtension base = (head, ext)) :
    cutExtension (deriveSiblingPath base suffix) = (head ++ '-' :: suffix, ext) := by
  have hp : ∀ c ∈ '-' :: suffix, inName c := forall_mem_cons.mpr ⟨rfl, fun c hc => (hs c hc).1⟩
  have hd : '.' ∉ '-' :: suffix := by
    intro hc
    rcases mem_cons.mp hc with hc | hc
    · cases hc
    · exact (hs _ hc).2 rfl
  have hn : ∀ c ∈ base.rtakeWhile inName, inName c := fun _ => mem_rtakeWhile_imp
  have hb := rdropWhile_append_rtakeWhile (p := inName) base
  rw [deriveSiblingPath_eq h]
  cases hr : Delimited.rcut '.' (base.rtakeWhile inName)
  case none =>
    rw [cutExtension, hr] at h
    obtain ⟨rfl, rfl⟩ := Prod.mk.inj h
    have hr' : Delimited.rcut '.' (base.rtakeWhile inName ++ '-' :: suffix) = none := by
      refine rcut_eq_none fun hm => ?_
      rcases mem_append.mp hm with hm | hm
      · exact not_mem_of_rcut hr hm
      · exact hd hm
    have he := cutExtension_of_none base (forall_mem_append.mpr ⟨hn, hp⟩) hr'
    rw [← append_assoc, hb] at he
    rw [append_nil, he]
  case some r =>
    obtain ⟨stem, e⟩ := r
    have ⟨hname, hext⟩ := rcut_eq_some hr
    rw [cutExtension, hr] at h
    obtain ⟨rfl, rfl⟩ := Prod.mk.inj h
    rw [hname] at hn
    have hstem : ∀ c ∈ stem, inName c := fun c hc => hn c (mem_append_left _ hc)
    have he : ∀ c ∈ '.' :: e, inName c := fun c hc => hn c (mem_append_right _ hc)
    have hx := cutExtension_of_some base
      (forall_mem_append.mpr ⟨forall_mem_append.mpr ⟨hstem, hp⟩, he⟩) (rcut_append hext)
    simpa only [append_assoc] using hx

-- What stands between the name that is configured and its extension.
def scopePart {cm : CaseMap} : Scope cm → Transport → Text
  | some team, _ => '-' :: teamSuffix team
  | none, .masque => '-' :: "masque".toList
  | none, .wireGuard => []

def transportOf : Role → Transport
  | .primary transport | .lastconn transport => transport
  | .secondary => .wireGuard
  | .gool | .avoid => .masque

def rolePart : Role → Text
  | .primary _ => []
  | .secondary => '-' :: "secondary".toList
  | .gool => '-' :: "gool".toList
  | .lastconn _ => '-' :: "lastconn".toList
  | .avoid => '-' :: ("lastconn".toList ++ '-' :: "avoid".toList)

variable {cm : CaseMap} {scope scope' : Scope cm} {role role' : Role}

def part (scope : Scope cm) (role : Role) : Text :=
  scopePart scope (transportOf role) ++ rolePart role

theorem teamSuffix_eq (team : Team cm) : teamSuffix team = "team-".toList ++ team.val := by
  delta teamSuffix
  rfl

theorem plain_teamSuffix (team : Team cm) : Plain (teamSuffix team) :=
  Plain.append (by decide) (plain_team team)

theorem cutExtension_configPath (base : Text) (scope : Scope cm) (t : Transport) :
    cutExtension (configPath base scope t) =
      ((cutExtension base).1 ++ scopePart scope t, (cutExtension base).2) := by
  cases scope
  case none =>
    cases t
    case masque => exact cutExtension_deriveSiblingPath (by decide) rfl
    case wireGuard => simp [configPath, warpConfigPath, scopePart]
  case some team =>
    cases t
    case masque => exact cutExtension_deriveSiblingPath (plain_teamSuffix team) rfl
    case wireGuard => exact cutExtension_deriveSiblingPath (plain_teamSuffix team) rfl

theorem deriveSiblingPath_configPath (base : Text) (scope : Scope cm) (t : Transport) (suffix : Text) :
    deriveSiblingPath (configPath base scope t) suffix =
      (cutExtension base).1 ++ (scopePart scope t ++ '-' :: suffix) ++ (cutExtension base).2 := by
  rw [deriveSiblingPath_eq (cutExtension_configPath base scope t), append_assoc (cutExtension base).1]

theorem path_eq (base : Text) (scope : Scope cm) (role : Role) :
    path base scope role = (cutExtension base).1 ++ part scope role ++ (cutExtension base).2 := by
  cases role
  case primary t =>
    have h := cutExtension_append (configPath base scope t)
    rw [cutExtension_configPath] at h
    rw [part, rolePart, append_nil]
    exact h.symm
  case secondary => exact deriveSiblingPath_configPath base scope .wireGuard "secondary".toList
  case gool => exact deriveSiblingPath_configPath base scope .masque "gool".toList
  case lastconn t => exact deriveSiblingPath_configPath base scope t "lastconn".toList
  case avoid =>
    have hc := cutExtension_configPath base scope .masque
    have hp : Plain "lastconn".toList := by decide
    have h : deriveSiblingPath _ "avoid".toList = _ := deriveSiblingPath_eq (cutExtension_deriveSiblingPath hp hc)
    rw [append_assoc (cutExtension base).1, append_assoc (cutExtension base).1,
      append_assoc (scopePart scope .masque)] at h
    exact h

theorem path_eq_path_iff (base : Text) :
    path base scope role = path base scope' role' ↔ part scope role = part scope' role' := by
  rw [path_eq, path_eq, append_cancel_right_eq, append_cancel_left_eq]

def roles : List Role :=
  [.primary .masque, .primary .wireGuard, .secondary, .gool, .lastconn .masque, .lastconn .wireGuard, .avoid]

theorem mem_roles (role : Role) : role ∈ roles := by
  rcases role with (_ | _) | _ | _ | (_ | _) | _ <;> decide

-- The parts of the personal account do not depend on how names are compared.
def personalPart (role : Role) : Text :=
  scopePart (none : Scope CaseMap.ascii) (transportOf role) ++ rolePart role

theorem part_none (role : Role) : part (none : Scope cm) role = personalPart role := by
  simp only [part, personalPart]
  cases transportOf role <;> rfl

theorem part_none_inj (h : part (none : Scope cm) role = part (none : Scope cm) role') : role = role' := by
  have hd : ∀ r ∈ roles, ∀ r' ∈ roles, personalPart r = personalPart r' → r = r' := by decide
  rw [part_none, part_none] at h
  exact hd role (mem_roles role) role' (mem_roles role') h

theorem part_none_ne (team : Team cm) : part (none : Scope cm) role ≠ part (some team) role' := by
  have hd : ∀ r ∈ roles, (personalPart r)[1]? ≠ some 't' := by decide
  intro h
  rw [part_none] at h
  exact hd role (mem_roles role) (h ▸ rfl)

theorem rolePart_suffix (h : rolePart role <:+ rolePart role') :
    rolePart role = [] ∨ rolePart role = rolePart role' := by
  have hd : ∀ r ∈ roles, ∀ r' ∈ roles,
      rolePart r <:+ rolePart r' → rolePart r = [] ∨ rolePart r = rolePart r' := by decide
  exact hd role (mem_roles role) role' (mem_roles role') h

theorem rolePart_eq_iff : rolePart role = rolePart role' ↔ role.merged = role'.merged := by
  have hd : ∀ r ∈ roles, ∀ r' ∈ roles, rolePart r = rolePart r' ↔ r.merged = r'.merged := by decide
  exact hd role (mem_roles role) role' (mem_roles role')

theorem rolePart_eq_nil_iff : rolePart role = [] ↔ ∃ t, role = .primary t := by
  cases role <;> simp [rolePart]

-- One name continues the other only where one of the files is the identity itself.
theorem team_append_eq_iff {name name' : Text} : name ++ rolePart role = name' ++ rolePart role' ↔
      (name = name' ∧ rolePart role = rolePart role') ∨
      (rolePart role = [] ∧ rolePart role' ≠ [] ∧ name = name' ++ rolePart role') ∨
      (rolePart role' = [] ∧ rolePart role ≠ [] ∧ name' = name ++ rolePart role) := by
  constructor
  case mp =>
    intro h
    by_cases hp : rolePart role = rolePart role'
    case pos => exact .inl ⟨append_cancel_right (hp ▸ h), hp⟩
    case neg =>
      rcases append_eq_append_iff.mp h with ⟨x, _, hw⟩ | ⟨x, _, hw⟩
      · have he := (rolePart_suffix ⟨x, hw.symm⟩).resolve_right (Ne.symm hp)
        exact .inr (.inr ⟨he, fun hn => hp (hn.trans he.symm), by simpa [he] using h.symm⟩)
      · have he := (rolePart_suffix ⟨x, hw.symm⟩).resolve_right hp
        exact .inr (.inl ⟨he, fun hn => hp (he.trans hn.symm), by simpa [he] using h⟩)
  case mpr =>
    rintro (⟨rfl, h⟩ | ⟨h, _, rfl⟩ | ⟨h, _, rfl⟩)
    · rw [h]
    · rw [h, append_nil]
    · rw [h, append_nil]

theorem part_some_eq_iff {team team' : Team cm} : part (some team) role = part (some team') role' ↔
      team.val ++ rolePart role = team'.val ++ rolePart role' := by
  simp only [part, scopePart, teamSuffix_eq, cons_append, append_assoc, List.cons.injEq, true_and,
    append_cancel_left_eq]

-- The first file is the identity of a team whose name is that of another team, followed by what
-- makes a file of that team out of its identity.
structure Shadows (f g : File cm) : Prop where
  identity : ∃ t, f.role = .primary t
  other : ∀ t, g.role ≠ .primary t
  name : ∃ team team' : Team cm, f.scope = some team ∧ g.scope = some team' ∧ team.val = team'.val ++ rolePart g.role

theorem shadows_iff {team team' : Team cm} : Shadows ⟨some team, role⟩ ⟨some team', role'⟩ ↔
      rolePart role = [] ∧ rolePart role' ≠ [] ∧ team.val = team'.val ++ rolePart role' := by
  simp only [ne_eq, rolePart_eq_nil_iff, not_exists]
  constructor
  case mp =>
    rintro ⟨hi, ho, x, y, hx, hy, hn⟩
    cases hx
    cases hy
    exact ⟨hi, ho, hn⟩
  case mpr =>
    rintro ⟨hi, ho, hn⟩
    exact ⟨hi, ho, team, team', rfl, rfl, hn⟩

theorem path_ne_iff (base : Text) (f g : File cm) :
    (f.Separate g → f.path base ≠ g.path base) ↔ ¬ Shadows f g ∧ ¬ Shadows g f := by
  obtain ⟨scope, role⟩ := f
  obtain ⟨scope', role'⟩ := g
  simp only [File.Separate, File.path, ne_eq, path_eq_path_iff]
  cases scope
  case none =>
    have hf : ∀ g : File cm, ¬ Shadows ⟨none, role⟩ g := fun _ ⟨_, _, _, _, h, _⟩ => by cases h
    have hg : ∀ g : File cm, ¬ Shadows g ⟨none, role⟩ := fun _ ⟨_, _, _, _, _, h, _⟩ => by cases h
    refine iff_of_true (fun hs he => ?_) ⟨hf _, hg _⟩
    cases scope'
    case none => simp [kept, part_none_inj he] at hs
    case some team => exact part_none_ne team he
  case some team =>
    cases scope'
    case none =>
      refine iff_of_true (fun _ he => part_none_ne team he.symm) ⟨?_, ?_⟩
      · exact fun ⟨_, _, _, _, _, h, _⟩ => by cases h
      · exact fun ⟨_, _, _, _, h, _⟩ => by cases h
    case some team' =>
      -- A file and one that shadows it are separate, since only one of them is an identity.
      rw [part_some_eq_iff, team_append_eq_iff, shadows_iff, shadows_iff, Option.some_inj, Subtype.ext_iff,
        kept, kept, ← rolePart_eq_iff, ← not_or]
      constructor
      case mp =>
        intro h hs
        refine h (.inr fun he => ?_) (.inr hs)
        rcases hs with ⟨hn, hn', -⟩ | ⟨hn', hn, -⟩
        · exact hn' (he ▸ hn)
        · exact hn (he ▸ hn')
      case mpr =>
        rintro h hs (⟨hn, he⟩ | hs')
        · exact hs.elim (· hn) (· he)
        · exact h hs'

def named (name : String) (h : normalizeTeam .ascii name.toList = some name.toList) : Team .ascii :=
  ⟨name.toList, name.toList, h⟩

theorem not_path_ne : ¬ (File.Separate ⟨some (named "a" (by decide +kernel)), .secondary⟩
          ⟨some (named "a-secondary" (by decide +kernel)), .primary .wireGuard⟩ →
        File.path "soildtunnel.toml".toList ⟨some (named "a" (by decide +kernel)), .secondary⟩ ≠
          File.path "soildtunnel.toml".toList
            ⟨some (named "a-secondary" (by decide +kernel)), .primary .wireGuard⟩) := by
  intro h
  refine h (.inr (by decide)) ?_
  decide

end Engine.Paths
